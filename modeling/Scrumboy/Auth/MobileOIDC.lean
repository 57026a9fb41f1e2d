import Scrumboy.Auth.OAuth
import Scrumboy.Auth.SecondFactor
import Scrumboy.Go.Base64
import Scrumboy.Go.Time

/-!
# Mobile sign-in

The packaged app starts a flow with a challenge of its own, the provider calls back with
the state of the flow, and the app exchanges the code of the grant that the callback made
for a session. Flows and grants are rows that are consumed once, each in a transaction of
its own; the store has one connection, so requests interleave transaction by transaction.
States, codes and session tokens are stored as hashes, and the hash functions are
parameters.

The log of a run is the list of the calls with their answers, and what the tables hold is
told from it.
-/

set_option linter.dupNamespace false

namespace Scrumboy

open Go Sql Transition

/-- Thirty-two bytes of `rand.Read`. -/
structure RandomBytes where
  bytes : List ℕ
  length_eq : bytes.length = 32
  lt_256 : ∀ b ∈ bytes, b < 256
  deriving DecidableEq

def randomRawURLToken (draw : RandomBytes) : String := encodeBytesToString draw.bytes

structure MobileFlowRow where
  stateHash : String
  handoffChallenge : String
  returnTo : String
  createdAt : ℤ
  expiresAt : ℤ
  callbackConsumedAt : Option ℤ
  deriving DecidableEq, Repr

structure HandoffGrantRow where
  codeHash : String
  userID : ℤ
  flowStateHash : String
  handoffChallenge : String
  returnTo : String
  createdAt : ℤ
  expiresAt : ℤ
  consumedAt : Option ℤ
  deriving DecidableEq, Repr

/-- `SET callback_consumed_at`. -/
def MobileFlowRow.consume (nowMs : ℤ) (f : MobileFlowRow) : MobileFlowRow :=
  { f with callbackConsumedAt := some nowMs }

/-- `SET consumed_at`. -/
def HandoffGrantRow.consume (nowMs : ℤ) (g : HandoffGrantRow) : HandoffGrantRow :=
  { g with consumedAt := some nowMs }

/-- The tables; of the users only the ids are needed. -/
structure MobileOIDCState where
  users : List ℤ := []
  flows : List MobileFlowRow := []
  grants : List HandoffGrantRow := []
  sessions : List SessionRow := []
  deriving DecidableEq, Repr

def defaultMobileOIDCFlowTTL : ℤ := 10 * minute

def defaultMobileOIDCGrantTTL : ℤ := 2 * minute

def defaultSessionTTL : ℤ := 30 * 24 * hour

/-- What `CreateMobileOIDCFlow` is called with, and the clock. -/
structure MobileFlowStart where
  rawState : String
  handoffChallenge : String
  returnTo : String
  ttl : ℤ
  now : ℤ
  deriving DecidableEq, Repr

/-- What `CreateMobileOIDCHandoffGrant` is called with, the clock, and the bytes it draws. -/
structure MobileCallback where
  rawState : String
  userID : ℤ
  ttl : ℤ
  now : ℤ
  draw : Option RandomBytes
  deriving DecidableEq

/-- What `CreateMobileOIDCHandoffGrant` returns. -/
structure HandoffGrant where
  code : String
  expiresAt : ℤ
  returnTo : String
  deriving DecidableEq, Repr

/-- What `ExchangeMobileOIDCHandoff` is called with, the clock, and the bytes it draws. -/
structure HandoffExchange where
  rawCode : String
  rawState : String
  verifier : String
  sessionTTL : ℤ
  now : ℤ
  draw : Option RandomBytes
  deriving DecidableEq

structure MobileOIDCExchange where
  sessionToken : String
  sessionExpiresAt : ℤ
  returnTo : String
  deriving DecidableEq, Repr

def orDefaultTTL (ttl preset : ℤ) : ℤ := if ttl ≤ 0 then preset else ttl

def MobileFlowStart.expiresAt (q : MobileFlowStart) : ℤ :=
  q.now + orDefaultTTL q.ttl defaultMobileOIDCFlowTTL

def MobileCallback.expiresAt (q : MobileCallback) : ℤ :=
  q.now + orDefaultTTL q.ttl defaultMobileOIDCGrantTTL

section

variable (hashes : OAuthHashes)

def MobileFlowStart.stateHash (q : MobileFlowStart) : String := hashes.hashToken (trimSpace q.rawState)

def MobileCallback.stateHash (q : MobileCallback) : String := hashes.hashToken (trimSpace q.rawState)

def HandoffExchange.stateHash (q : HandoffExchange) : String := hashes.hashToken (trimSpace q.rawState)

def HandoffExchange.codeHash (q : HandoffExchange) : String := hashes.hashToken (trimSpace q.rawCode)

def HandoffExchange.challenge (q : HandoffExchange) : String := hashes.challengeOf (trimSpace q.verifier)

def createMobileOIDCFlow (s : MobileOIDCState) (q : MobileFlowStart) : Result MobileOIDCState := do
  reject (trimSpace q.rawState = "" ∨ trimSpace q.handoffChallenge = "")
    ⟨.validation, "mobile OIDC proof is required"⟩
  reject (q.stateHash hashes ∈ s.flows.map (·.stateHash)) ⟨.conflict, ""⟩
  let row := MobileFlowRow.mk (q.stateHash hashes) (trimSpace q.handoffChallenge) q.returnTo
    (unixMilli q.now) (unixMilli q.expiresAt) none
  pure { s with flows := s.flows ++ [row] }

/-- The row that the conditional update of a callback matches. -/
def MobileCallback.consumes (q : MobileCallback) (f : MobileFlowRow) : Bool :=
  f.stateHash = q.stateHash hashes ∧ f.callbackConsumedAt = none ∧ unixMilli q.now < f.expiresAt

def createMobileOIDCHandoffGrant (s : MobileOIDCState) (q : MobileCallback) :
    Result (MobileOIDCState × HandoffGrant) := do
  reject (q.userID ≤ 0 ∨ trimSpace q.rawState = "") ⟨.validation, "invalid mobile OIDC grant"⟩
  let some flow := s.flows.find? (·.stateHash == q.stateHash hashes) | throw ⟨.notFound, ""⟩
  reject (flow.callbackConsumedAt.isSome ∨ flow.expiresAt ≤ unixMilli q.now) ⟨.notFound, ""⟩
  reject (s.flows.countP (q.consumes hashes) ≠ 1) ⟨.notFound, ""⟩
  let flows := updateWhere (q.consumes hashes) (·.consume (unixMilli q.now)) s.flows
  let some draw := q.draw | throw ⟨.internal, "generate mobile OIDC grant"⟩
  let code := randomRawURLToken draw
  reject (hashes.hashToken code ∈ s.grants.map (·.codeHash) ∨ q.userID ∉ s.users)
    ⟨.internal, "insert mobile OIDC grant"⟩
  let row := HandoffGrantRow.mk (hashes.hashToken code) q.userID (q.stateHash hashes)
    flow.handoffChallenge flow.returnTo (unixMilli q.now) (unixMilli q.expiresAt) none
  pure ({ s with flows := flows, grants := s.grants ++ [row] }, ⟨code, q.expiresAt, flow.returnTo⟩)

/-- The row that the conditional update of an exchange matches. -/
def HandoffExchange.consumes (q : HandoffExchange) (g : HandoffGrantRow) : Bool :=
  g.codeHash = q.codeHash hashes ∧ g.consumedAt = none ∧ unixMilli q.now < g.expiresAt

def exchangeMobileOIDCHandoff (s : MobileOIDCState) (q : HandoffExchange) :
    Result (MobileOIDCState × MobileOIDCExchange) := do
  reject (trimSpace q.rawCode = "" ∨ trimSpace q.rawState = "" ∨ trimSpace q.verifier = "") ⟨.notFound, ""⟩
  let some grant := s.grants.find? (·.codeHash == q.codeHash hashes) | throw ⟨.notFound, ""⟩
  reject (grant.consumedAt.isSome ∨ grant.expiresAt ≤ unixMilli q.now ∨
    grant.flowStateHash ≠ q.stateHash hashes ∨ grant.handoffChallenge ≠ q.challenge hashes) ⟨.notFound, ""⟩
  reject (s.grants.countP (q.consumes hashes) ≠ 1) ⟨.notFound, ""⟩
  let grants := updateWhere (q.consumes hashes) (·.consume (unixMilli q.now)) s.grants
  let some draw := q.draw | throw ⟨.internal, "generate mobile session"⟩
  let sessionToken := randomRawURLToken draw
  reject (hashes.hashToken sessionToken ∈ s.sessions.map (·.tokenHash) ∨ grant.userID ∉ s.users)
    ⟨.internal, "insert mobile session"⟩
  let expiresAt := q.now + orDefaultTTL q.sessionTTL defaultSessionTTL
  let row := SessionRow.mk grant.userID (hashes.hashToken sessionToken) (unixMilli q.now)
    (unixMilli expiresAt) (unixMilli q.now)
  pure ({ s with grants := grants, sessions := s.sessions ++ [row] },
    ⟨sessionToken, expiresAt, grant.returnTo⟩)

inductive MobileCall
  | start (q : MobileFlowStart)
  | callback (q : MobileCallback)
  | exchange (q : HandoffExchange)
  deriving DecidableEq

inductive MobileAnswer
  | started
  | granted (g : HandoffGrant)
  | exchanged (x : MobileOIDCExchange)
  | failed (e : StoreError)
  deriving DecidableEq, Repr

/-- One transaction; an error rolls it back. -/
def mobileCall (s : MobileOIDCState) : MobileCall → MobileOIDCState × MobileAnswer
  | .start q =>
      match createMobileOIDCFlow hashes s q with
      | .ok s' => (s', .started)
      | .error e => (s, .failed e)
  | .callback q =>
      match createMobileOIDCHandoffGrant hashes s q with
      | .ok (s', g) => (s', .granted g)
      | .error e => (s, .failed e)
  | .exchange q =>
      match exchangeMobileOIDCHandoff hashes s q with
      | .ok (s', x) => (s', .exchanged x)
      | .error e => (s, .failed e)

end

/-- The state of the tables, and the calls so far with their answers. -/
structure MobileRun where
  state : MobileOIDCState
  log : List (MobileCall × MobileAnswer) := []

def MobileRun.step (hashes : OAuthHashes) (r : MobileRun) (c : MobileCall) : MobileRun :=
  ⟨(mobileCall hashes r.state c).1, r.log ++ [(c, (mobileCall hashes r.state c).2)]⟩

/-! ## The log -/

def startedOf : MobileCall × MobileAnswer → Option MobileFlowStart
  | (.start q, .started) => some q
  | _ => none

def grantedOf : MobileCall × MobileAnswer → Option (MobileCallback × HandoffGrant)
  | (.callback q, .granted g) => some (q, g)
  | _ => none

def exchangedOf : MobileCall × MobileAnswer → Option (HandoffExchange × MobileOIDCExchange)
  | (.exchange q, .exchanged x) => some (q, x)
  | _ => none

namespace MobileRun

/-- The flows that were started. -/
def started (r : MobileRun) : List MobileFlowStart := r.log.filterMap startedOf

/-- The callbacks that were answered with a grant. -/
def granted (r : MobileRun) : List (MobileCallback × HandoffGrant) := r.log.filterMap grantedOf

/-- The exchanges that were answered with a session. -/
def exchanged (r : MobileRun) : List (HandoffExchange × MobileOIDCExchange) := r.log.filterMap exchangedOf

end MobileRun

section

variable (hashes : OAuthHashes)

/-- The callback `q` of the flow `f`, the grant that answers it, and the row of the grant. -/
structure GrantOf (f : MobileFlowStart) (q : MobileCallback) (g : HandoffGrant) (row : HandoffGrantRow) :
    Prop where
  same_state : f.stateHash hashes = q.stateHash hashes
  in_time : unixMilli q.now < unixMilli f.expiresAt
  presented : trimSpace q.rawState ≠ ""
  drawn : ∃ draw, g.code = randomRawURLToken draw
  codeHash : row.codeHash = hashes.hashToken g.code
  userID : row.userID = q.userID
  flowStateHash : row.flowStateHash = q.stateHash hashes
  challenge : row.handoffChallenge = trimSpace f.handoffChallenge
  returnTo : row.returnTo = f.returnTo
  expiresAt : row.expiresAt = unixMilli q.expiresAt

/-- The exchange `x` presents the code of a grant, with the state and a verifier of the flow that
led to it, and the session is one for the user of the callback. The callback came before the flow
expired, and the exchange before the grant did. -/
def HandedOver (starts : List MobileFlowStart) (grants : List (MobileCallback × HandoffGrant))
    (x : HandoffExchange × MobileOIDCExchange) (session : SessionRow) : Prop :=
  ∃ f ∈ starts, ∃ c ∈ grants,
    f.stateHash hashes = c.1.stateHash hashes ∧ unixMilli c.1.now < unixMilli f.expiresAt ∧
    x.1.codeHash hashes = hashes.hashToken c.2.code ∧ x.1.stateHash hashes = c.1.stateHash hashes ∧
    x.1.challenge hashes = trimSpace f.handoffChallenge ∧ unixMilli x.1.now < unixMilli c.1.expiresAt ∧
    session.userID = c.1.userID ∧ session.tokenHash = hashes.hashToken x.2.sessionToken

/-- A request of the app that started the flow `f`, with the code of the grant for the callback
`c`, that comes in time and draws a token that no session has. -/
structure RightHolder (t : MobileOIDCState) (f : MobileFlowStart) (c : MobileCallback × HandoffGrant)
    (x : HandoffExchange) : Prop where
  code : trimSpace x.rawCode = c.2.code
  state : trimSpace x.rawState = trimSpace c.1.rawState
  verifier : trimSpace x.verifier ≠ ""
  challenge : x.challenge hashes = trimSpace f.handoffChallenge
  in_time : unixMilli x.now < unixMilli c.1.expiresAt
  draws : ∃ draw, x.draw = some draw ∧
    hashes.hashToken (randomRawURLToken draw) ∉ t.sessions.map (·.tokenHash)

/-- What a run from the tables `s` promises. -/
structure HandsOverOnce (s : MobileOIDCState) (r : MobileRun) : Prop where
  one_grant : (r.granted.map fun c => c.1.stateHash hashes).Nodup
  one_session : (r.exchanged.map fun x => x.1.codeHash hashes).Nodup
  sessions : ∃ created, r.state.sessions = s.sessions ++ created ∧
    List.Forall₂ (HandedOver hashes r.started r.granted) r.exchanged created
  redeemable : ∀ f ∈ r.started, ∀ c ∈ r.granted, f.stateHash hashes = c.1.stateHash hashes →
    (∀ y ∈ r.exchanged, y.1.codeHash hashes ≠ hashes.hashToken c.2.code) →
    ∀ x, RightHolder hashes r.state f c x → (exchangeMobileOIDCHandoff hashes r.state x).isOk

/-- What the tables `t` hold after these starts, callbacks and exchanges that succeeded. -/
structure MobileInv (s t : MobileOIDCState) (starts : List MobileFlowStart)
    (grants : List (MobileCallback × HandoffGrant))
    (exchanges : List (HandoffExchange × MobileOIDCExchange)) : Prop where
  users : t.users = s.users
  flow_started : ∀ row ∈ t.flows, ∃ f ∈ starts, row.stateHash = f.stateHash hashes ∧
    row.handoffChallenge = trimSpace f.handoffChallenge ∧ row.returnTo = f.returnTo ∧
    row.expiresAt = unixMilli f.expiresAt
  flow_hashes : t.flows.map (·.stateHash) = starts.map (·.stateHash hashes)
  flow_keys : (t.flows.map (·.stateHash)).Nodup
  flow_granted : ∀ c ∈ grants, ∃ row ∈ t.flows, row.stateHash = c.1.stateHash hashes ∧
    row.callbackConsumedAt.isSome
  one_grant : (grants.map fun c => c.1.stateHash hashes).Nodup
  grant_users : ∀ row ∈ t.grants, row.userID ∈ s.users
  grants_of : ∀ row ∈ t.grants, ∃ f ∈ starts, ∃ c ∈ grants, GrantOf hashes f c.1 c.2 row
  row_of : ∀ c ∈ grants, ∃ f ∈ starts, ∃ row ∈ t.grants, GrantOf hashes f c.1 c.2 row
  grant_keys : (t.grants.map (·.codeHash)).Nodup
  consumed_iff : ∀ row ∈ t.grants, row.consumedAt.isSome ↔
    ∃ x ∈ exchanges, x.1.codeHash hashes = row.codeHash
  exchange_row : ∀ x ∈ exchanges, ∃ row ∈ t.grants, row.codeHash = x.1.codeHash hashes
  one_session : (exchanges.map fun x => x.1.codeHash hashes).Nodup
  sessions : ∃ created, t.sessions = s.sessions ++ created ∧
    List.Forall₂ (HandedOver hashes starts grants) exchanges created

end

section

variable {hashes : OAuthHashes} {s t t' : MobileOIDCState}

theorem randomRawURLToken_spec (draw : RandomBytes) :
    trimSpace (randomRawURLToken draw) = randomRawURLToken draw ∧ randomRawURLToken draw ≠ "" := by
  constructor
  · apply trimSpace_eq_self
    intro c hc
    rw [randomRawURLToken, encodeBytesToString, String.toList_ofList] at hc
    obtain ⟨n, hn, rfl⟩ := List.mem_map.mp hc
    exact (base64Char_ne n (sextets_lt draw.lt_256 n hn)).2
  · intro hempty
    have hbytes : draw.bytes = [] := encodeBytesToString_inj draw.lt_256 (by simp) hempty
    have hlength := draw.length_eq
    rw [hbytes] at hlength
    cases hlength

theorem createMobileOIDCFlow_eq_ok {q : MobileFlowStart} (h : createMobileOIDCFlow hashes t q = .ok t') :
    q.stateHash hashes ∉ t.flows.map (·.stateHash) ∧ t' = { t with
      flows := t.flows ++ [⟨q.stateHash hashes, trimSpace q.handoffChallenge, q.returnTo,
        unixMilli q.now, unixMilli q.expiresAt, none⟩] } := by
  simp only [createMobileOIDCFlow, bind_eq_ok, reject_eq_ok, pure_eq_ok] at h
  obtain ⟨_, _, _, hnew, rfl⟩ := h
  exact ⟨hnew, rfl⟩

theorem createMobileOIDCHandoffGrant_eq_ok {q : MobileCallback} {g : HandoffGrant}
    (h : createMobileOIDCHandoffGrant hashes t q = .ok (t', g)) :
    ∃ flow ∈ t.flows, flow.stateHash = q.stateHash hashes ∧ flow.callbackConsumedAt = none ∧
      unixMilli q.now < flow.expiresAt ∧ trimSpace q.rawState ≠ "" ∧
      (∃ draw, g.code = randomRawURLToken draw) ∧ hashes.hashToken g.code ∉ t.grants.map (·.codeHash) ∧
      q.userID ∈ t.users ∧ t' = { t with
        flows := updateWhere (q.consumes hashes) (·.consume (unixMilli q.now)) t.flows
        grants := t.grants ++ [⟨hashes.hashToken g.code, q.userID, q.stateHash hashes,
          flow.handoffChallenge, flow.returnTo, unixMilli q.now, unixMilli q.expiresAt, none⟩] } := by
  simp only [createMobileOIDCHandoffGrant, bind_eq_ok, reject_eq_ok, not_or, not_le] at h
  obtain ⟨_, ⟨_, hstate⟩, h⟩ := h
  split at h
  · rename_i flow hfind
    simp only [bind_eq_ok, reject_eq_ok, not_or, not_le] at h
    obtain ⟨_, ⟨hfresh, hintime⟩, _, _, h⟩ := h
    split at h
    · rename_i draw hdraw
      simp only [bind_eq_ok, reject_eq_ok, pure_eq_ok, not_or, not_not, Prod.mk.injEq] at h
      obtain ⟨_, ⟨hcode, huser⟩, rfl, rfl⟩ := h
      exact ⟨flow, List.mem_of_find?_eq_some hfind, by simpa using List.find?_some hfind,
        by simpa using hfresh, hintime, hstate, ⟨draw, rfl⟩, hcode, huser, rfl⟩
    · simp at h
  · simp at h

theorem exchangeMobileOIDCHandoff_eq_ok {q : HandoffExchange} {x : MobileOIDCExchange}
    (h : exchangeMobileOIDCHandoff hashes t q = .ok (t', x)) :
    ∃ grant ∈ t.grants, grant.codeHash = q.codeHash hashes ∧ grant.consumedAt = none ∧
      unixMilli q.now < grant.expiresAt ∧ grant.flowStateHash = q.stateHash hashes ∧
      grant.handoffChallenge = q.challenge hashes ∧ ∃ expiresAt, t' = { t with
        grants := updateWhere (q.consumes hashes) (·.consume (unixMilli q.now)) t.grants
        sessions := t.sessions ++ [⟨grant.userID, hashes.hashToken x.sessionToken, unixMilli q.now,
          expiresAt, unixMilli q.now⟩] } := by
  simp only [exchangeMobileOIDCHandoff, bind_eq_ok, reject_eq_ok] at h
  obtain ⟨_, _, h⟩ := h
  split at h
  · rename_i grant hfind
    simp only [bind_eq_ok, reject_eq_ok, not_or, not_le, not_not] at h
    obtain ⟨_, ⟨hfresh, hintime, hstate, hchallenge⟩, _, _, h⟩ := h
    split at h
    · rename_i draw hdraw
      simp only [bind_eq_ok, reject_eq_ok, pure_eq_ok, not_or, not_not, Prod.mk.injEq] at h
      obtain ⟨_, _, rfl, rfl⟩ := h
      exact ⟨grant, List.mem_of_find?_eq_some hfind, by simpa using List.find?_some hfind,
        by simpa using hfresh, hintime, hstate, hchallenge, _, rfl⟩
    · simp at h
  · simp at h

end

section

variable {hashes : OAuthHashes} {s t t' : MobileOIDCState} {starts starts' : List MobileFlowStart}
  {grants grants' : List (MobileCallback × HandoffGrant)}
  {exchanges : List (HandoffExchange × MobileOIDCExchange)}

theorem HandedOver.mono {x : HandoffExchange × MobileOIDCExchange} {session : SessionRow}
    (h : HandedOver hashes starts grants x session) (hstarts : starts ⊆ starts') (hgrants : grants ⊆ grants') :
    HandedOver hashes starts' grants' x session := by
  obtain ⟨f, hf, c, hc, hrest⟩ := h
  exact ⟨f, hstarts hf, c, hgrants hc, hrest⟩

namespace MobileInv

theorem start (h : MobileInv hashes s t starts grants exchanges) {q : MobileFlowStart}
    (hq : createMobileOIDCFlow hashes t q = .ok t') :
    MobileInv hashes s t' (starts ++ [q]) grants exchanges := by
  obtain ⟨hnew, rfl⟩ := createMobileOIDCFlow_eq_ok hq
  have hmore : starts ⊆ starts ++ [q] := List.subset_append_left _ _
  exact {
    users := h.users
    flow_started := by
      intro row hrow
      rcases List.mem_append.mp hrow with hrow | hrow
      · obtain ⟨f, hf, hrest⟩ := h.flow_started row hrow
        exact ⟨f, hmore hf, hrest⟩
      · rw [List.mem_singleton.mp hrow]
        exact ⟨q, by simp, rfl, rfl, rfl, rfl⟩
    flow_hashes := by simp [h.flow_hashes]
    flow_keys := by
      rw [List.map_append, List.map_singleton]
      exact List.nodup_append.mpr ⟨h.flow_keys, List.nodup_singleton _,
        fun a ha b hb hab => hnew ((List.mem_singleton.mp hb : b = q.stateHash hashes) ▸ hab ▸ ha)⟩
    flow_granted := by
      intro c hc
      obtain ⟨row, hrow, hrest⟩ := h.flow_granted c hc
      exact ⟨row, List.mem_append_left _ hrow, hrest⟩
    one_grant := h.one_grant
    grant_users := h.grant_users
    grants_of := by
      intro row hrow
      obtain ⟨f, hf, hrest⟩ := h.grants_of row hrow
      exact ⟨f, hmore hf, hrest⟩
    row_of := by
      intro c hc
      obtain ⟨f, hf, hrest⟩ := h.row_of c hc
      exact ⟨f, hmore hf, hrest⟩
    grant_keys := h.grant_keys
    consumed_iff := h.consumed_iff
    exchange_row := h.exchange_row
    one_session := h.one_session
    sessions := by
      obtain ⟨created, heq, hall⟩ := h.sessions
      exact ⟨created, heq, hall.imp fun _ _ hx => hx.mono hmore (List.Subset.refl _)⟩ }

theorem callback (h : MobileInv hashes s t starts grants exchanges) {q : MobileCallback} {g : HandoffGrant}
    (hq : createMobileOIDCHandoffGrant hashes t q = .ok (t', g)) :
    MobileInv hashes s t' starts (grants ++ [(q, g)]) exchanges := by
  obtain ⟨flow, hflow, hhash, hfresh, hintime, hpresented, hdraw, hcode, huser, rfl⟩ :=
    createMobileOIDCHandoffGrant_eq_ok hq
  have hmore : grants ⊆ grants ++ [(q, g)] := List.subset_append_left _ _
  have hconsumes : q.consumes hashes flow = true := by
    simp [MobileCallback.consumes, hhash, hfresh, hintime]
  obtain ⟨f, hf, hfhash, hfchallenge, hfreturn, hfexpires⟩ := h.flow_started flow hflow
  -- the row of the new grant
  have hgrant : ∃ f ∈ starts, GrantOf hashes f q g ⟨hashes.hashToken g.code, q.userID, q.stateHash hashes,
      flow.handoffChallenge, flow.returnTo, unixMilli q.now, unixMilli q.expiresAt, none⟩ :=
    ⟨f, hf, hfhash.symm.trans hhash, hfexpires ▸ hintime, hpresented, hdraw, rfl, rfl, rfl, hfchallenge,
      hfreturn, rfl⟩
  have hkeys : (updateWhere (q.consumes hashes) (·.consume (unixMilli q.now)) t.flows).map (·.stateHash) =
      t.flows.map (·.stateHash) := map_updateWhere (f := MobileFlowRow.consume _) _ (fun _ => rfl) _
  -- a state that was answered before has no flow left
  have hunanswered : ∀ c ∈ grants, c.1.stateHash hashes ≠ q.stateHash hashes := by
    intro c hc heq
    obtain ⟨row, hrow, hrowhash, hspent⟩ := h.flow_granted c hc
    have hsame : row = flow :=
      List.inj_on_of_nodup_map h.flow_keys hrow hflow (hrowhash.trans (heq.trans hhash.symm))
    rw [hsame, hfresh] at hspent
    cases hspent
  exact {
    users := h.users
    flow_started := by
      intro row hrow
      obtain ⟨row₀, hrow₀, rfl⟩ := mem_updateWhere.mp hrow
      obtain ⟨f, hf, hrest⟩ := h.flow_started row₀ hrow₀
      refine ⟨f, hf, ?_⟩
      split
      · exact hrest
      · exact hrest
    flow_hashes := by
      rw [← h.flow_hashes]
      exact hkeys
    flow_keys := by
      rw [hkeys]
      exact h.flow_keys
    flow_granted := by
      intro c hc
      rcases List.mem_append.mp hc with hc | hc
      · obtain ⟨row, hrow, hrowhash, hspent⟩ := h.flow_granted c hc
        refine ⟨_, mem_updateWhere.mpr ⟨row, hrow, rfl⟩, ?_⟩
        split
        · exact ⟨hrowhash, rfl⟩
        · exact ⟨hrowhash, hspent⟩
      · rw [List.mem_singleton.mp hc]
        exact ⟨_, mem_updateWhere.mpr ⟨flow, hflow, rfl⟩, by rw [if_pos hconsumes]; exact ⟨hhash, rfl⟩⟩
    one_grant := by
      rw [List.map_append, List.map_singleton]
      refine List.nodup_append.mpr ⟨h.one_grant, List.nodup_singleton _, fun a ha b hb => ?_⟩
      obtain ⟨c, hc, rfl⟩ := List.mem_map.mp ha
      rw [List.mem_singleton.mp hb]
      exact hunanswered c hc
    grant_users := by
      intro row hrow
      rcases List.mem_append.mp hrow with hrow | hrow
      · exact h.grant_users row hrow
      · rw [List.mem_singleton.mp hrow]
        exact h.users ▸ huser
    grants_of := by
      intro row hrow
      rcases List.mem_append.mp hrow with hrow | hrow
      · obtain ⟨f, hf, c, hc, hrest⟩ := h.grants_of row hrow
        exact ⟨f, hf, c, hmore hc, hrest⟩
      · obtain ⟨f, hf, hrest⟩ := hgrant
        exact ⟨f, hf, (q, g), by simp, List.mem_singleton.mp hrow ▸ hrest⟩
    row_of := by
      intro c hc
      rcases List.mem_append.mp hc with hc | hc
      · obtain ⟨f, hf, row, hrow, hrest⟩ := h.row_of c hc
        exact ⟨f, hf, row, List.mem_append_left _ hrow, hrest⟩
      · obtain ⟨f, hf, hrest⟩ := hgrant
        exact ⟨f, hf, _, List.mem_append_right _ (List.mem_singleton_self _), List.mem_singleton.mp hc ▸ hrest⟩
    grant_keys := by
      rw [List.map_append, List.map_singleton]
      exact List.nodup_append.mpr ⟨h.grant_keys, List.nodup_singleton _,
        fun a ha b hb hab => hcode ((List.mem_singleton.mp hb : b = hashes.hashToken g.code) ▸ hab ▸ ha)⟩
    consumed_iff := by
      intro row hrow
      rcases List.mem_append.mp hrow with hrow | hrow
      · exact h.consumed_iff row hrow
      · rw [List.mem_singleton.mp hrow]
        constructor
        · intro hnone
          cases hnone
        · rintro ⟨x, hx, heq⟩
          obtain ⟨row', hrow', hrowhash⟩ := h.exchange_row x hx
          exact absurd (List.mem_map.mpr ⟨row', hrow', hrowhash.trans heq⟩) hcode
    exchange_row := by
      intro x hx
      obtain ⟨row, hrow, hrest⟩ := h.exchange_row x hx
      exact ⟨row, List.mem_append_left _ hrow, hrest⟩
    one_session := h.one_session
    sessions := by
      obtain ⟨created, heq, hall⟩ := h.sessions
      exact ⟨created, heq, hall.imp fun _ _ hx => hx.mono (List.Subset.refl _) hmore⟩ }

theorem exchange (h : MobileInv hashes s t starts grants exchanges) {q : HandoffExchange}
    {x : MobileOIDCExchange} (hq : exchangeMobileOIDCHandoff hashes t q = .ok (t', x)) :
    MobileInv hashes s t' starts grants (exchanges ++ [(q, x)]) := by
  obtain ⟨grant, hgrant, hcode, hfresh, hintime, hstate, hchallenge, expiresAt, rfl⟩ :=
    exchangeMobileOIDCHandoff_eq_ok hq
  have hconsumes : q.consumes hashes grant = true := by
    simp [HandoffExchange.consumes, hcode, hfresh, hintime]
  have hkeys : (updateWhere (q.consumes hashes) (·.consume (unixMilli q.now)) t.grants).map (·.codeHash) =
      t.grants.map (·.codeHash) := map_updateWhere (f := HandoffGrantRow.consume _) _ (fun _ => rfl) _
  have hunredeemed : ∀ y ∈ exchanges, y.1.codeHash hashes ≠ q.codeHash hashes := by
    intro y hy heq
    have hspent := (h.consumed_iff grant hgrant).mpr ⟨y, hy, heq.trans hcode.symm⟩
    rw [hfresh] at hspent
    cases hspent
  obtain ⟨f, hf, c, hc, hof⟩ := h.grants_of grant hgrant
  have hupdated : ∀ {row : HandoffGrantRow} {P : HandoffGrantRow → Prop}, P row →
      P (row.consume (unixMilli q.now)) →
      P (if q.consumes hashes row = true then row.consume (unixMilli q.now) else row) := by
    intro row P hkept hspent
    split
    · exact hspent
    · exact hkept
  exact {
    users := h.users
    flow_started := h.flow_started
    flow_hashes := h.flow_hashes
    flow_keys := h.flow_keys
    flow_granted := h.flow_granted
    one_grant := h.one_grant
    grant_users := by
      intro row hrow
      obtain ⟨row₀, hrow₀, rfl⟩ := mem_updateWhere.mp hrow
      exact hupdated (P := fun r => r.userID ∈ s.users) (h.grant_users row₀ hrow₀) (h.grant_users row₀ hrow₀)
    grants_of := by
      intro row hrow
      obtain ⟨row₀, hrow₀, rfl⟩ := mem_updateWhere.mp hrow
      obtain ⟨f, hf, c, hc, hof⟩ := h.grants_of row₀ hrow₀
      exact ⟨f, hf, c, hc, hupdated (P := fun r => GrantOf hashes f c.1 c.2 r) hof { hof with }⟩
    row_of := by
      intro c hc
      obtain ⟨f, hf, row, hrow, hof⟩ := h.row_of c hc
      exact ⟨f, hf, _, mem_updateWhere.mpr ⟨row, hrow, rfl⟩,
        hupdated (P := fun r => GrantOf hashes f c.1 c.2 r) hof { hof with }⟩
    grant_keys := by
      rw [hkeys]
      exact h.grant_keys
    consumed_iff := by
      intro row hrow
      obtain ⟨row₀, hrow₀, rfl⟩ := mem_updateWhere.mp hrow
      have hmem : ∀ k, (∃ y ∈ exchanges ++ [(q, x)], y.1.codeHash hashes = k) ↔
          (∃ y ∈ exchanges, y.1.codeHash hashes = k) ∨ q.codeHash hashes = k := by
        intro k
        simp [or_and_right, exists_or]
      rw [hmem]
      by_cases hsame : q.codeHash hashes = row₀.codeHash
      · have hrow : row₀ = grant :=
          List.inj_on_of_nodup_map h.grant_keys hrow₀ hgrant (hsame.symm.trans hcode.symm)
        rw [hrow, if_pos hconsumes]
        exact ⟨fun _ => .inr hcode.symm, fun _ => rfl⟩
      · have hother : q.consumes hashes row₀ = false := by
          simp [HandoffExchange.consumes, Ne.symm hsame]
        rw [hother, if_neg (by simp), h.consumed_iff row₀ hrow₀]
        exact ⟨.inl, fun hor => hor.resolve_right hsame⟩
    exchange_row := by
      intro y hy
      obtain ⟨row, hrow, hrowhash⟩ : ∃ row ∈ t.grants, row.codeHash = y.1.codeHash hashes := by
        rcases List.mem_append.mp hy with hy | hy
        · exact h.exchange_row y hy
        · exact ⟨grant, hgrant, List.mem_singleton.mp hy ▸ hcode⟩
      exact ⟨_, mem_updateWhere.mpr ⟨row, hrow, rfl⟩,
        hupdated (P := fun r => r.codeHash = y.1.codeHash hashes) hrowhash hrowhash⟩
    one_session := by
      rw [List.map_append, List.map_singleton]
      refine List.nodup_append.mpr ⟨h.one_session, List.nodup_singleton _, fun a ha b hb => ?_⟩
      obtain ⟨y, hy, rfl⟩ := List.mem_map.mp ha
      rw [List.mem_singleton.mp hb]
      exact hunredeemed y hy
    sessions := by
      obtain ⟨created, heq, hall⟩ := h.sessions
      refine ⟨created ++ [_], by rw [heq, List.append_assoc], List.rel_append hall (.cons ?_ .nil)⟩
      exact ⟨f, hf, c, hc, hof.same_state, hof.in_time, hcode.symm.trans hof.codeHash,
        hstate.symm.trans hof.flowStateHash, hchallenge.symm.trans hof.challenge, hof.expiresAt ▸ hintime,
        hof.userID, rfl⟩ }

/-- The grant of a callback stays redeemable until it is redeemed. -/
theorem redeemable (h : MobileInv hashes s t starts grants exchanges) {f : MobileFlowStart} (hf : f ∈ starts)
    {c : MobileCallback × HandoffGrant} (hc : c ∈ grants) (hstate : f.stateHash hashes = c.1.stateHash hashes)
    (hopen : ∀ y ∈ exchanges, y.1.codeHash hashes ≠ hashes.hashToken c.2.code) {x : HandoffExchange}
    (hx : RightHolder hashes t f c x) : (exchangeMobileOIDCHandoff hashes t x).isOk := by
  obtain ⟨f', hf', row, hrow, hof⟩ := h.row_of c hc
  have hsame : f' = f := List.inj_on_of_nodup_map (h.flow_hashes ▸ h.flow_keys) hf' hf
    (hof.same_state.trans hstate.symm)
  subst hsame
  obtain ⟨draw, hdraw, htoken⟩ := hx.draws
  obtain ⟨codeDraw, hcodeDraw⟩ := hof.drawn
  have hcode : x.codeHash hashes = row.codeHash := by
    rw [hof.codeHash, HandoffExchange.codeHash, hx.code]
  obtain ⟨t₁, t₂, hsplit, hothers⟩ := exists_split_key h.grant_keys hrow
  have hfind : t.grants.find? (·.codeHash == x.codeHash hashes) = some row := by
    rw [hsplit, hcode]
    exact find?_split hothers
  have hfresh : row.consumedAt = none := by
    rw [← Option.not_isSome_iff_eq_none, h.consumed_iff row hrow]
    rintro ⟨y, hy, heq⟩
    exact hopen y hy (heq.trans hof.codeHash)
  have hintime : unixMilli x.now < row.expiresAt := hof.expiresAt ▸ hx.in_time
  have hcount : t.grants.countP (x.consumes hashes) = 1 := by
    have hnone : ∀ l, l ⊆ t₁ ++ t₂ → l.countP (x.consumes hashes) = 0 := by
      intro l hl
      refine List.countP_eq_zero.mpr fun y hy => ?_
      simp [HandoffExchange.consumes, hcode, hothers y (hl hy)]
    rw [hsplit, List.countP_append, hnone t₁ (List.subset_append_left _ _), List.countP_cons_of_pos,
      hnone t₂ (List.subset_append_right _ _)]
    simp [HandoffExchange.consumes, hcode, hfresh, hintime]
  have hfull : ¬ (trimSpace x.rawCode = "" ∨ trimSpace x.rawState = "" ∨ trimSpace x.verifier = "") := by
    rw [hx.code, hcodeDraw, hx.state]
    exact fun hor => hor.elim (randomRawURLToken_spec codeDraw).2 fun hor => hor.elim hof.presented hx.verifier
  have hmatches : ¬ (row.consumedAt.isSome ∨ row.expiresAt ≤ unixMilli x.now ∨
      row.flowStateHash ≠ x.stateHash hashes ∨ row.handoffChallenge ≠ x.challenge hashes) := by
    have hflow : row.flowStateHash = x.stateHash hashes := by
      rw [hof.flowStateHash, HandoffExchange.stateHash, hx.state, MobileCallback.stateHash]
    simp [hfresh, hintime, hflow, hof.challenge, hx.challenge]
  have huser : row.userID ∈ t.users := h.users ▸ h.grant_users row hrow
  unfold exchangeMobileOIDCHandoff
  rw [reject_bind_of_not hfull, hfind]
  dsimp only
  rw [reject_bind_of_not hmatches, reject_bind_of_not (by simp [hcount]), hdraw]
  dsimp only
  rw [reject_bind_of_not (by simp [htoken, huser])]
  rfl

theorem step (h : MobileInv hashes s t starts grants exchanges) (c : MobileCall) :
    MobileInv hashes s (mobileCall hashes t c).1
      (starts ++ (startedOf (c, (mobileCall hashes t c).2)).toList)
      (grants ++ (grantedOf (c, (mobileCall hashes t c).2)).toList)
      (exchanges ++ (exchangedOf (c, (mobileCall hashes t c).2)).toList) := by
  cases c with
  | start q =>
      cases hq : createMobileOIDCFlow hashes t q with
      | error e => simpa [mobileCall, hq, startedOf, grantedOf, exchangedOf] using h
      | ok t' => simpa [mobileCall, hq, startedOf, grantedOf, exchangedOf] using h.start hq
  | callback q =>
      cases hq : createMobileOIDCHandoffGrant hashes t q with
      | error e => simpa [mobileCall, hq, startedOf, grantedOf, exchangedOf] using h
      | ok r => simpa [mobileCall, hq, startedOf, grantedOf, exchangedOf] using h.callback hq
  | exchange q =>
      cases hq : exchangeMobileOIDCHandoff hashes t q with
      | error e => simpa [mobileCall, hq, startedOf, grantedOf, exchangedOf] using h
      | ok r => simpa [mobileCall, hq, startedOf, grantedOf, exchangedOf] using h.exchange hq

end MobileInv

theorem filterMap_concat {α β : Type} (f : α → Option β) (l : List α) (a : α) :
    (l ++ [a]).filterMap f = l.filterMap f ++ (f a).toList := by
  rw [List.filterMap_append]
  cases h : f a <;> simp [h]

theorem mobileInv_run (hashes : OAuthHashes) (users : List ℤ) (sessions : List SessionRow)
    (calls : List MobileCall) :
    let s : MobileOIDCState := { users := users, sessions := sessions }
    let r := run (MobileRun.step hashes) ⟨s, []⟩ calls
    MobileInv hashes s r.state r.started r.granted r.exchanged := by
  intro s r
  induction calls using List.reverseRecOn with
  | nil =>
      exact ⟨rfl, by simp [r, s], rfl, by simp [r, s], by simp [r, MobileRun.granted],
        by simp [r, MobileRun.granted], by simp [r, s], by simp [r, s], by simp [r, MobileRun.granted],
        by simp [r, s], by simp [r, s], by simp [r, MobileRun.exchanged], by simp [r, MobileRun.exchanged],
        [], by simp [r], .nil⟩
  | append_singleton calls c ih =>
      have hstep := ih.step c
      simpa only [r, run_concat, MobileRun.step, MobileRun.started, MobileRun.granted, MobileRun.exchanged,
        filterMap_concat] using hstep

end

/-- A sign-in hands over one session, to the app that started the flow, however the requests
interleave. -/
theorem mobile_handoff_once (hashes : OAuthHashes) (users : List ℤ) (sessions : List SessionRow)
    (calls : List MobileCall) :
    HandsOverOnce hashes { users := users, sessions := sessions }
      (run (MobileRun.step hashes) ⟨{ users := users, sessions := sessions }, []⟩ calls) := by
  have h := mobileInv_run hashes users sessions calls
  exact ⟨h.one_grant, h.one_session, h.sessions, fun f hf c hc hstate hopen x hx =>
    h.redeemable hf hc hstate hopen hx⟩

/-- An app on the user 7, that starts its flow at midnight and exchanges the code five seconds
after the callback that the provider delayed. -/
def slowSignIn : List MobileCall :=
  let draw (b : Fin 256) : RandomBytes :=
    ⟨List.replicate 32 b, by simp, fun n hn => by rw [List.eq_of_mem_replicate hn]; exact b.isLt⟩
  [.start ⟨"state", "Sverifier", "/", 0, 0⟩,
    .callback ⟨"state", 7, 0, 599 * second, some (draw 1)⟩,
    .exchange ⟨randomRawURLToken (draw 1), "state", "verifier", 0, 604 * second, some (draw 2)⟩]

/-- A session may be handed over after the flow expired, since the grant lives longer. -/
theorem exchange_after_flow_expired :
    let hashes : OAuthHashes := ⟨id, fun v => "S" ++ v⟩
    let r := run (MobileRun.step hashes) ⟨{ users := [7] }, []⟩ slowSignIn
    ∃ f ∈ r.started, ∃ x ∈ r.exchanged, x.1.stateHash hashes = f.stateHash hashes ∧
      unixMilli f.expiresAt ≤ unixMilli x.1.now := by
  decide +kernel

end Scrumboy
