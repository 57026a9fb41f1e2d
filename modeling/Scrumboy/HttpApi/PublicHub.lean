import Scrumboy.Go.Channel
import Scrumboy.Go.Map
import Scrumboy.Go.Strings

/-!
# The hub of public streams

Visitors of published boards subscribe to one project each, within limits for the server, an
address and a project. All sends and closes happen under one lock, so that every operation is
one step; only the streams receive at any time. Two maps and a counter describe the
subscribers that are registered.

An operation returns the fault that it runs into, if any.
-/

namespace Scrumboy

open Go

inductive PublicEvent
  | refreshNeeded
  | accessRevoked
  deriving DecidableEq, Repr

structure PublicHubLimits where
  global : ℤ
  perIP : ℤ
  perProject : ℤ
  buffer : ℤ
  deriving DecidableEq, Repr

def orDefault (n default : ℤ) : ℤ := if n ≤ 0 then default else n

def normalizePublicHubLimits (limits : PublicHubLimits) : PublicHubLimits where
  global := orDefault limits.global 500
  perIP := orDefault limits.perIP 5
  perProject := orDefault limits.perProject 100
  buffer := orDefault limits.buffer 8

structure PublicSubscriber where
  projectID : ℤ
  ipKey : String
  events : Chan PublicEvent
  active : Bool
  /-- The `once` of its subscription has run. -/
  once : Bool := false

/-- The subscribers are numbered in the order in which they came. -/
structure PublicHub where
  limits : PublicHubLimits
  closed : Bool
  activeN : ℤ
  byIP : Map String ℤ
  byProject : Map ℤ (List ℕ)
  subscribers : ℕ → PublicSubscriber
  count : ℕ

inductive PublicHubError
  | streamLimit
  | hubClosed
  deriving DecidableEq, Repr

def newPublicHub (limits : PublicHubLimits) : PublicHub where
  limits := normalizePublicHubLimits limits
  closed := false
  activeN := 0
  byIP := ∅
  byProject := ∅
  subscribers _ := ⟨0, "", { buffer := 0 }, false, false⟩
  count := 0

namespace PublicHub

/-- `h.byProject[projectID]`. -/
def members (h : PublicHub) (projectID : ℤ) : List ℕ := (h.byProject.lookup projectID).getD []

def setSubscriber (h : PublicHub) (sub : ℕ) (s : PublicSubscriber) : PublicHub :=
  { h with subscribers := Function.update h.subscribers sub s }

def setEvents (h : PublicHub) (sub : ℕ) (events : Chan PublicEvent) : PublicHub :=
  h.setSubscriber sub { h.subscribers sub with events := events }

/-- The key under which an address is counted. -/
def ipKeyOf (ipKey : String) : String := if trimSpace ipKey = "" then "unknown" else trimSpace ipKey

def subscribe (h : PublicHub) (projectID : ℤ) (ipKey : String) : Except PublicHubError (PublicHub × ℕ) :=
  let ip := ipKeyOf ipKey
  if projectID ≤ 0 then .error .streamLimit
  else if h.closed then .error .hubClosed
  else if h.limits.global ≤ h.activeN ∨ h.limits.perIP ≤ h.byIP.get ip ∨
      h.limits.perProject ≤ (h.members projectID).length then .error .streamLimit
  else .ok
    ({ h with
      subscribers := Function.update h.subscribers h.count
        ⟨projectID, ip, { buffer := h.limits.buffer.toNat }, true, false⟩
      byProject := h.byProject.insert projectID (h.members projectID ++ [h.count])
      byIP := h.byIP.insert ip (h.byIP.get ip + 1)
      activeN := h.activeN + 1
      count := h.count + 1 }, h.count)

/-- The subscriber is taken out of its project; a project without subscribers has no entry. -/
def unregister (h : PublicHub) (sub : ℕ) : Map ℤ (List ℕ) :=
  let projectID := (h.subscribers sub).projectID
  match h.byProject.lookup projectID with
  | none => h.byProject
  | some subscribers =>
      if subscribers.filter (· ≠ sub) = [] then h.byProject.erase projectID
      else h.byProject.insert projectID (subscribers.filter (· ≠ sub))

/-- The count of an address goes down; an address without streams has no entry. -/
def releaseIP (h : PublicHub) (ip : String) : Map String ℤ :=
  if h.byIP.get ip ≤ 1 then h.byIP.erase ip else h.byIP.insert ip (h.byIP.get ip - 1)

def removeLocked (h : PublicHub) (sub : ℕ) : Except ChanFault PublicHub :=
  let s := h.subscribers sub
  if s.active = false then .ok h
  else do
    let events ← s.events.close
    .ok { h with
      byProject := h.unregister sub
      byIP := h.releaseIP s.ipKey
      activeN := if 0 < h.activeN then h.activeN - 1 else h.activeN
      subscribers := Function.update h.subscribers sub { s with active := false, events := events } }

/-- An invalidation for one subscriber. One whose buffer is full is evicted. -/
def refreshSubscriber (h : PublicHub) (sub : ℕ) : Except ChanFault PublicHub := do
  match ← (h.subscribers sub).events.trySend .refreshNeeded with
  | some events => .ok (h.setEvents sub events)
  | none => h.removeLocked sub

/-- The last event of one subscriber. The send has no default. -/
def revokeSubscriber (h : PublicHub) (sub : ℕ) : Except ChanFault PublicHub := do
  let events ← (h.subscribers sub).events.drain.send .accessRevoked
  (h.setEvents sub events).removeLocked sub

/-- A loop over a map is in some order. -/
def inOrder (order members : List ℕ) : List ℕ := if order.Perm members then order else members

def refreshPublicProject (h : PublicHub) (projectID : ℤ) (order : List ℕ) : Except ChanFault PublicHub :=
  (inOrder order (h.members projectID)).foldlM refreshSubscriber h

def revokePublicProject (h : PublicHub) (projectID : ℤ) (order : List ℕ) : Except ChanFault PublicHub :=
  (inOrder order (h.members projectID)).foldlM revokeSubscriber h

/-- All subscribers of `byProject`. -/
def registered (h : PublicHub) : List ℕ := h.byProject.entries.flatMap (·.2)

def shutdown (h : PublicHub) (order : List ℕ) : Except ChanFault PublicHub :=
  if h.closed then .ok h
  else (inOrder order h.registered).foldlM removeLocked { h with closed := true }

/-- `Unsubscribe` of a subscription. -/
def unsubscribe (h : PublicHub) (sub : ℕ) : Except ChanFault PublicHub :=
  if (h.subscribers sub).once then .ok h
  else (h.setSubscriber sub { h.subscribers sub with once := true }).removeLocked sub

end PublicHub

inductive PublicHubAct
  | subscribe (projectID : ℤ) (ipKey : String)
  | refresh (projectID : ℤ) (order : List ℕ)
  | revoke (projectID : ℤ) (order : List ℕ)
  | unsubscribe (sub : ℕ)
  | shutdown (order : List ℕ)
  /-- A stream takes the next event from its channel. -/
  | receive (sub : ℕ)

namespace PublicHub

def step (h : PublicHub) : PublicHubAct → Except ChanFault PublicHub
  | .subscribe projectID ipKey =>
      match h.subscribe projectID ipKey with
      | .ok (h', _) => .ok h'
      | .error _ => .ok h
  | .refresh projectID order => h.refreshPublicProject projectID order
  | .revoke projectID order => h.revokePublicProject projectID order
  | .unsubscribe sub => if sub < h.count then h.unsubscribe sub else .ok h
  | .shutdown order => h.shutdown order
  | .receive sub => .ok (h.setEvents sub (h.subscribers sub).events.receive)

end PublicHub

end Scrumboy
