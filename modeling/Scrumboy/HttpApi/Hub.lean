import Scrumboy.Go.Channel
import Scrumboy.Transition.Runs
import Mathlib.Data.Int.Order.Basic
import Mathlib.Order.Nat
import Mathlib.Data.List.Perm.Basic

/-!
# The event hub

Streams of events subscribe to a project or to a user. An event is sent to the subscribers of
a topic that were there when it was emitted: the set is copied under the lock and the sends
follow after it. A subscriber that leaves, or whose buffer is full, is deleted under the lock
and its channel is closed after that.

The goroutines are a list of tasks, and a schedule says which one takes the next step. A step
is what happens under the lock, a send, or a close.
-/

set_option linter.dupNamespace false

namespace Scrumboy

open Go Transition

/-- `byProjectID` and `byUserID` are used in the same way. -/
inductive Topic
  | project (id : ℤ)
  | user (id : ℤ)
  deriving DecidableEq, Repr

structure Subscriber (ε : Type) where
  topic : Topic
  ch : Chan ε
  /-- `closeOnce` has run. -/
  closeOnce : Bool := false

/-- The place of a goroutine in the hub. -/
inductive HubTask (ε : Type)
  | emit (topic : Topic) (event : ε)
  | sending (topic : Topic) (event : ε) (snapshot : List ℕ)
  /-- `remove`, and the sends that follow if it is an eviction. -/
  | remove (topic : Topic) (sub : ℕ) (rest : Option (ε × List ℕ))
  | close (topic : Topic) (sub : ℕ) (rest : Option (ε × List ℕ))
  | done

/-- The subscribers are numbered in the order in which they came. -/
structure Hub (ε : Type) where
  members : Topic → List ℕ
  channelBuffer : ℕ
  subscribers : ℕ → Subscriber ε
  count : ℕ
  tasks : List (HubTask ε)
  faults : List ChanFault

def defaultSubscriberBuffer : ℕ := 32

def newHub (ε : Type) (channelBuffer : ℤ) : Hub ε where
  members _ := []
  channelBuffer := if channelBuffer ≤ 0 then defaultSubscriberBuffer else channelBuffer.toNat
  subscribers _ := ⟨.project 0, { buffer := 0 }, false⟩
  count := 0
  tasks := []
  faults := []

inductive HubAct (ε : Type)
  | subscribe (topic : Topic)
  /-- A call of `Emit` or `EmitUser` begins. -/
  | emit (topic : Topic) (event : ε)
  /-- A call of the function that `Subscribe` returned begins. -/
  | unsubscribe (sub : ℕ)
  | receive (sub : ℕ)
  /-- A goroutine takes its next step; a copy of the set is in some order. -/
  | advance (task : ℕ) (order : List ℕ)

namespace HubTask

variable {ε : Type}

/-- The subscribers to which the goroutine is going to send. -/
def pending : HubTask ε → List ℕ
  | .sending _ _ snapshot => snapshot
  | .remove _ _ rest | .close _ _ rest => (rest.map (·.2)).getD []
  | .emit _ _ | .done => []

def topic : HubTask ε → Option Topic
  | .emit topic _ | .sending topic _ _ | .remove topic _ _ | .close topic _ _ => some topic
  | .done => none

/-- The subscriber whose `close` is next. -/
def closing : HubTask ε → Option ℕ
  | .close _ sub _ => some sub
  | _ => none

/-- What follows a removal. -/
def after (topic : Topic) : Option (ε × List ℕ) → HubTask ε
  | none => .done
  | some (event, snapshot) => .sending topic event snapshot

end HubTask

namespace Hub

variable {ε : Type}

def setChan (h : Hub ε) (sub : ℕ) (ch : Chan ε) : Hub ε :=
  { h with subscribers := Function.update h.subscribers sub { h.subscribers sub with ch := ch } }

def subscribe (h : Hub ε) (topic : Topic) : Hub ε :=
  { h with
    subscribers := Function.update h.subscribers h.count ⟨topic, { buffer := h.channelBuffer }, false⟩
    members := Function.update h.members topic (h.members topic ++ [h.count])
    count := h.count + 1 }

/-- `sub.close()`. -/
def closeSubscriber (h : Hub ε) (sub : ℕ) : Hub ε :=
  let s := h.subscribers sub
  if s.closeOnce then h
  else
    let h := { h with subscribers := Function.update h.subscribers sub { s with closeOnce := true } }
    match s.ch.close with
    | .ok ch => h.setChan sub ch
    | .error f => { h with faults := h.faults ++ [f] }

/-- A send to the first subscriber of a copy. A subscriber that is too slow is disconnected. -/
def sendTo (h : Hub ε) (topic : Topic) (event : ε) (sub : ℕ) (snapshot : List ℕ) : Hub ε × HubTask ε :=
  match (h.subscribers sub).ch.trySend event with
  | .error f => ({ h with faults := h.faults ++ [f] }, .done)
  | .ok (some ch) => (h.setChan sub ch, .sending topic event snapshot)
  | .ok none => (h, .remove topic sub (some (event, snapshot)))

/-- The next step of a goroutine, and its place after that. -/
def advance (h : Hub ε) (order : List ℕ) : HubTask ε → Hub ε × HubTask ε
  | .emit topic event =>
      (h, .sending topic event (if order.Perm (h.members topic) then order else h.members topic))
  | .sending _ _ [] => (h, .done)
  | .sending topic event (sub :: snapshot) => h.sendTo topic event sub snapshot
  | .remove topic sub rest =>
      ({ h with members := Function.update h.members topic ((h.members topic).filter (· ≠ sub)) },
        .close topic sub rest)
  | .close topic sub rest => (h.closeSubscriber sub, .after topic rest)
  | .done => (h, .done)

def step (h : Hub ε) : HubAct ε → Hub ε
  | .subscribe topic => h.subscribe topic
  | .emit topic event => { h with tasks := h.tasks ++ [.emit topic event] }
  | .unsubscribe sub =>
      if sub < h.count then
        { h with tasks := h.tasks ++ [.remove (h.subscribers sub).topic sub none] }
      else h
  | .receive sub => h.setChan sub (h.subscribers sub).ch.receive
  | .advance i order =>
      match h.tasks[i]? with
      | none => h
      | some task =>
          let out := h.advance order task
          { out.1 with tasks := out.1.tasks.set i out.2 }

/-- The subscriber whose channel is closed next. -/
def closing (h : Hub ε) : HubAct ε → Option ℕ
  | .advance i _ => (h.tasks[i]?.bind HubTask.closing).filter fun sub => !(h.subscribers sub).closeOnce
  | _ => none

/-- A channel is closed only when no goroutine is going to send on it. -/
def ClosesUnsent (h : Hub ε) (act : HubAct ε) : Prop :=
  ∀ sub ∈ h.closing act, ∀ task ∈ h.tasks, sub ∉ task.pending

instance (h : Hub ε) (act : HubAct ε) : Decidable (h.ClosesUnsent act) :=
  inferInstanceAs (Decidable (∀ sub ∈ h.closing act, ∀ task ∈ h.tasks, sub ∉ task.pending))

/-! ## Closing once -/

section

variable {h : Hub ε} {sub : ℕ}

/-- A channel is closed when `closeOnce` has run, and nothing else went wrong at a close. -/
structure ClosedOnce (h : Hub ε) : Prop where
  once : ∀ i, (h.subscribers i).closeOnce = (h.subscribers i).ch.closed
  faults : ∀ f ∈ h.faults, f = .sendOnClosed

theorem ClosedOnce.setChan (hc : h.ClosedOnce) {ch : Chan ε}
    (hch : ch.closed = (h.subscribers sub).ch.closed) : (h.setChan sub ch).ClosedOnce := by
  refine ⟨fun i => ?_, hc.faults⟩
  by_cases hi : i = sub
  · subst hi
    simpa [Hub.setChan, hch] using hc.once i
  · simpa [Hub.setChan, Function.update_of_ne hi] using hc.once i

/-- What closing does, when the flag tells whether the channel is closed. -/
theorem ClosedOnce.closeSubscriber_eq (hc : h.ClosedOnce) (sub : ℕ) :
    h.closeSubscriber sub = h ∨ (h.subscribers sub).closeOnce = false ∧
      h.closeSubscriber sub = { h with
        subscribers := Function.update h.subscribers sub
          { h.subscribers sub with
            closeOnce := true
            ch := { (h.subscribers sub).ch with closed := true } } } := by
  unfold closeSubscriber
  cases honce : (h.subscribers sub).closeOnce with
  | true => simp [honce]
  | false =>
      have hopen : (h.subscribers sub).ch.closed = false := hc.once sub ▸ honce
      refine .inr ⟨rfl, ?_⟩
      simp [honce, Chan.close_of_open hopen, Hub.setChan]

theorem ClosedOnce.closeSubscriber (hc : h.ClosedOnce) (sub : ℕ) : (h.closeSubscriber sub).ClosedOnce := by
  rcases hc.closeSubscriber_eq sub with heq | ⟨_, heq⟩
  · rw [heq]
    exact hc
  · rw [heq]
    refine ⟨fun i => ?_, hc.faults⟩
    by_cases hi : i = sub
    · subst hi
      simp
    · simpa [Function.update_of_ne hi] using hc.once i

theorem trySend_closed {c ch : Chan ε} {event : ε} (h : c.trySend event = .ok (some ch)) :
    ch.closed = c.closed ∧ c.closed = false := by
  unfold Chan.trySend at h
  split at h
  · cases h
  · next hopen =>
    split at h
    · cases h
    · cases h
      exact ⟨rfl, by simpa using hopen⟩

theorem trySend_error {c : Chan ε} {event : ε} {f : ChanFault} (h : c.trySend event = .error f) :
    f = .sendOnClosed ∧ c.closed = true := by
  unfold Chan.trySend at h
  split at h
  · next hclosed =>
    cases h
    exact ⟨rfl, hclosed⟩
  · split at h <;> cases h

theorem ClosedOnce.advance (hc : h.ClosedOnce) (order : List ℕ) (task : HubTask ε) :
    (h.advance order task).1.ClosedOnce := by
  cases task with
  | emit topic event => exact hc
  | done => exact hc
  | remove topic sub rest => exact ⟨hc.once, hc.faults⟩
  | close topic sub rest => exact hc.closeSubscriber sub
  | sending topic event snapshot =>
      cases snapshot with
      | nil => exact hc
      | cons sub snapshot =>
          simp only [Hub.advance, Hub.sendTo]
          split
          · next f hsend =>
            refine ⟨hc.once, fun g hg => ?_⟩
            rcases List.mem_append.mp hg with hg | hg
            · exact hc.faults g hg
            · exact List.mem_singleton.mp hg ▸ (trySend_error hsend).1
          · next ch hsend => exact hc.setChan (trySend_closed hsend).1
          · exact hc

theorem ClosedOnce.step (hc : h.ClosedOnce) (act : HubAct ε) : (h.step act).ClosedOnce := by
  cases act with
  | subscribe topic =>
      refine ⟨fun i => ?_, hc.faults⟩
      by_cases hi : i = h.count
      · subst hi
        simp [Hub.step, Hub.subscribe]
      · simpa [Hub.step, Hub.subscribe, Function.update_of_ne hi] using hc.once i
  | emit topic event => exact ⟨hc.once, hc.faults⟩
  | unsubscribe sub =>
      simp only [Hub.step]
      split
      · exact ⟨hc.once, hc.faults⟩
      · exact hc
  | receive sub => exact hc.setChan rfl
  | advance i order =>
      simp only [Hub.step]
      split
      · exact hc
      · next task _ =>
        have hadvance := hc.advance order task
        exact ⟨hadvance.once, hadvance.faults⟩

/-! ## Sending to open channels -/

/-- What a goroutine relies on at its place: the channels that it is going to send on are
open, and a subscriber that it is going to close is no longer a member. -/
structure TaskOk (h : Hub ε) (task : HubTask ε) : Prop where
  unclosed : ∀ i ∈ task.pending, i < h.count ∧ (h.subscribers i).ch.closed = false
  topics : ∀ i ∈ task.pending, task.topic = some (h.subscribers i).topic
  nodup : task.pending.Nodup
  remove : ∀ topic sub rest, task = .remove topic sub rest →
    sub < h.count ∧ (h.subscribers sub).topic = topic ∧ sub ∉ task.pending
  close : ∀ topic sub rest, task = .close topic sub rest →
    sub < h.count ∧ (∀ topic, sub ∉ h.members topic) ∧ sub ∉ task.pending

/-- Members are open and know their topic, every goroutine can go on, and nothing went wrong. -/
structure Safe (h : Hub ε) : Prop extends h.ClosedOnce where
  members : ∀ topic, ∀ i ∈ h.members topic,
    i < h.count ∧ (h.subscribers i).topic = topic ∧ (h.subscribers i).ch.closed = false
  nodup : ∀ topic, (h.members topic).Nodup
  tasks : ∀ task ∈ h.tasks, h.TaskOk task
  quiet : h.faults = []

/-- What a step keeps of the facts about a goroutine. -/
theorem TaskOk.frame {h' : Hub ε} {task : HubTask ε} (ht : h.TaskOk task) (hcount : h.count ≤ h'.count)
    (htopic : ∀ i < h.count, (h'.subscribers i).topic = (h.subscribers i).topic)
    (hopen : ∀ i ∈ task.pending, (h.subscribers i).ch.closed = false → (h'.subscribers i).ch.closed = false)
    (hmembers : ∀ i < h.count, ∀ topic, i ∈ h'.members topic → i ∈ h.members topic) : h'.TaskOk task where
  unclosed i hi := ⟨(ht.unclosed i hi).1.trans_le hcount, hopen i hi (ht.unclosed i hi).2⟩
  topics i hi := by
    rw [htopic i (ht.unclosed i hi).1]
    exact ht.topics i hi
  nodup := ht.nodup
  remove topic sub rest heq := by
    obtain ⟨hlt, htop, hpending⟩ := ht.remove topic sub rest heq
    exact ⟨hlt.trans_le hcount, (htopic sub hlt).trans htop, hpending⟩
  close topic sub rest heq := by
    obtain ⟨hlt, hgone, hpending⟩ := ht.close topic sub rest heq
    exact ⟨hlt.trans_le hcount, fun topic hmem => hgone topic (hmembers sub hlt topic hmem), hpending⟩

theorem TaskOk.of_pending_nil {task : HubTask ε} (hpending : task.pending = [])
    (hremove : ∀ topic sub rest, task ≠ .remove topic sub rest)
    (hclose : ∀ topic sub rest, task ≠ .close topic sub rest) : h.TaskOk task where
  unclosed := by simp [hpending]
  topics := by simp [hpending]
  nodup := by simp [hpending]
  remove topic sub rest heq := absurd heq (hremove topic sub rest)
  close topic sub rest heq := absurd heq (hclose topic sub rest)

theorem TaskOk.sending {topic : Topic} {event : ε} {snapshot : List ℕ}
    (hsnapshot : ∀ i ∈ snapshot, i < h.count ∧ (h.subscribers i).topic = topic ∧
      (h.subscribers i).ch.closed = false) (hnodup : snapshot.Nodup) :
    h.TaskOk (.sending topic event snapshot) where
  unclosed i hi := ⟨(hsnapshot i hi).1, (hsnapshot i hi).2.2⟩
  topics i hi := congrArg some (hsnapshot i hi).2.1.symm
  nodup := hnodup
  remove _ _ _ heq := by cases heq
  close _ _ _ heq := by cases heq

/-- A channel whose state of being closed does not change. -/
theorem Safe.setChan (hs : h.Safe) {ch : Chan ε} (hch : ch.closed = (h.subscribers sub).ch.closed) :
    (h.setChan sub ch).Safe := by
  have hsubs : ∀ i, ((h.setChan sub ch).subscribers i).topic = (h.subscribers i).topic ∧
      ((h.setChan sub ch).subscribers i).ch.closed = (h.subscribers i).ch.closed := by
    intro i
    by_cases hi : i = sub
    · subst hi
      simp [Hub.setChan, hch]
    · simp [Hub.setChan, Function.update_of_ne hi]
  refine ⟨hs.toClosedOnce.setChan hch, fun topic i hi => ?_, hs.nodup, fun task htask => ?_, hs.quiet⟩
  · rw [(hsubs i).1, (hsubs i).2]
    exact hs.members topic i hi
  · exact (hs.tasks task htask).frame le_rfl (fun i _ => (hsubs i).1)
      (fun i _ hopen => (hsubs i).2.trans hopen) fun i _ topic hi => hi

/-- Putting a goroutine at its next place. -/
theorem Safe.setTask (hs : h.Safe) {task : HubTask ε} (htask : h.TaskOk task) (i : ℕ) :
    ({ h with tasks := h.tasks.set i task } : Hub ε).Safe := by
  refine ⟨⟨hs.once, hs.faults⟩, hs.members, hs.nodup, fun t ht => ?_, hs.quiet⟩
  rcases List.mem_or_eq_of_mem_set ht with ht | rfl
  · have hok := hs.tasks t ht
    exact ⟨hok.unclosed, hok.topics, hok.nodup, hok.remove, hok.close⟩
  · exact ⟨htask.unclosed, htask.topics, htask.nodup, htask.remove, htask.close⟩

theorem Safe.addTask (hs : h.Safe) {task : HubTask ε} (htask : h.TaskOk task) :
    ({ h with tasks := h.tasks ++ [task] } : Hub ε).Safe := by
  refine ⟨⟨hs.once, hs.faults⟩, hs.members, hs.nodup, fun t ht => ?_, hs.quiet⟩
  rcases List.mem_append.mp ht with ht | ht
  · have hok := hs.tasks t ht
    exact ⟨hok.unclosed, hok.topics, hok.nodup, hok.remove, hok.close⟩
  · rw [List.mem_singleton.mp ht]
    exact ⟨htask.unclosed, htask.topics, htask.nodup, htask.remove, htask.close⟩

theorem Safe.subscribe (hs : h.Safe) (topic : Topic) : (h.subscribe topic).Safe := by
  have hold : ∀ i < h.count, (h.subscribe topic).subscribers i = h.subscribers i :=
    fun i hi => Function.update_of_ne hi.ne _ _
  have hnew : (h.subscribe topic).subscribers h.count = ⟨topic, { buffer := h.channelBuffer }, false⟩ :=
    Function.update_self _ _ _
  have hmem : ∀ t i, i ∈ (h.subscribe topic).members t ↔ i ∈ h.members t ∨ t = topic ∧ i = h.count := by
    intro t i
    by_cases ht : t = topic
    · subst ht
      simp [Hub.subscribe]
    · simp [Hub.subscribe, ht]
  refine ⟨hs.toClosedOnce.step (.subscribe topic), fun t i hi => ?_, fun t => ?_, fun task htask => ?_, hs.quiet⟩
  · rcases (hmem t i).mp hi with hi | ⟨rfl, rfl⟩
    · obtain ⟨hlt, htop, hopen⟩ := hs.members t i hi
      rw [hold i hlt]
      exact ⟨hlt.trans (Nat.lt_succ_self _), htop, hopen⟩
    · rw [hnew]
      exact ⟨Nat.lt_succ_self _, rfl, rfl⟩
  · by_cases ht : t = topic
    · subst ht
      have hfresh : h.count ∉ h.members t := fun hc => (hs.members t _ hc).1.ne rfl
      simpa [Hub.subscribe, List.nodup_append] using
        ⟨hs.nodup t, fun a ha heq => hfresh (heq ▸ ha)⟩
    · simpa [Hub.subscribe, Function.update_of_ne ht] using hs.nodup t
  · refine (hs.tasks task htask).frame (Nat.le_succ _) (fun i hi => by rw [hold i hi]) ?_ ?_
    · intro i hi hopen
      rw [hold i ((hs.tasks task htask).unclosed i hi).1]
      exact hopen
    · intro i hi t hmem'
      rcases (hmem t i).mp hmem' with hmem' | ⟨_, rfl⟩
      · exact hmem'
      · exact absurd hi (lt_irrefl _)

/-- The members of a topic without one of them. -/
theorem Safe.removeMember (hs : h.Safe) (topic : Topic) :
    ({ h with
      members := Function.update h.members topic ((h.members topic).filter (· ≠ sub)) } : Hub ε).Safe := by
  have hsub : ∀ t, (Function.update h.members topic ((h.members topic).filter (· ≠ sub)) t).Sublist
      (h.members t) := by
    intro t
    by_cases ht : t = topic
    · subst ht
      rw [Function.update_self]
      exact List.filter_sublist
    · rw [Function.update_of_ne ht]
  refine ⟨⟨hs.once, hs.faults⟩, fun t i hi => hs.members t i ((hsub t).subset hi),
    fun t => (hs.nodup t).sublist (hsub t), fun task htask => ?_, hs.quiet⟩
  exact (hs.tasks task htask).frame le_rfl (fun _ _ => rfl) (fun _ _ hopen => hopen)
    fun i _ t hi => (hsub t).subset hi

/-- Closing a channel on which no goroutine is going to send and that no member has. -/
theorem Safe.closeSubscriber (hs : h.Safe) (hgone : ∀ topic, sub ∉ h.members topic)
    (hunsent : (h.subscribers sub).closeOnce = true ∨ ∀ task ∈ h.tasks, sub ∉ task.pending) :
    (h.closeSubscriber sub).Safe ∧ (h.closeSubscriber sub).tasks = h.tasks ∧
      ∀ i, i ≠ sub → (h.closeSubscriber sub).subscribers i = h.subscribers i := by
  have hclosed := hs.toClosedOnce.closeSubscriber sub
  rcases hs.toClosedOnce.closeSubscriber_eq sub with heq | ⟨honce, heq⟩
  · rw [heq]
    exact ⟨hs, rfl, fun _ _ => rfl⟩
  · have hunsent : ∀ task ∈ h.tasks, sub ∉ task.pending := by
      rcases hunsent with htrue | hunsent
      · rw [honce] at htrue
        cases htrue
      · exact hunsent
    rw [heq] at hclosed ⊢
    refine ⟨⟨hclosed, fun t i hi => ?_, hs.nodup, fun task htask => ?_, hs.quiet⟩, rfl,
      fun i hi => Function.update_of_ne hi _ _⟩
    · have hi' : i ≠ sub := fun h => hgone t (h ▸ hi)
      simpa [Function.update_of_ne hi'] using hs.members t i hi
    · refine (hs.tasks task htask).frame le_rfl (fun i _ => ?_) (fun i hi hopen => ?_) fun _ _ _ hi => hi
      · by_cases hi : i = sub
        · subst hi
          simp
        · simp [Function.update_of_ne hi]
      · have hi' : i ≠ sub := fun h => hunsent task htask (h ▸ hi)
        simpa [Function.update_of_ne hi'] using hopen

/-- The rest of a copy after a removal. -/
theorem TaskOk.after {topic : Topic} {rest : Option (ε × List ℕ)} {task : HubTask ε} (ht : h.TaskOk task)
    (htopic : task.topic = some topic) (hpending : task.pending = (rest.map (·.2)).getD []) :
    h.TaskOk (.after topic rest) := by
  cases rest with
  | none => exact .of_pending_nil rfl (by simp [HubTask.after]) (by simp [HubTask.after])
  | some rest =>
      have hpending : task.pending = rest.2 := hpending
      refine .sending (fun i hi => ?_) (hpending ▸ ht.nodup)
      have hi := hpending ▸ hi
      obtain ⟨hlt, hopen⟩ := ht.unclosed i hi
      exact ⟨hlt, Option.some.inj ((ht.topics i hi).symm.trans htopic), hopen⟩

theorem Safe.emit (hs : h.Safe) (order : List ℕ) (topic : Topic) (event : ε) :
    h.TaskOk (h.advance order (.emit topic event)).2 := by
  simp only [Hub.advance]
  split
  · next hperm =>
    exact .sending (fun i hi => hs.members topic i (hperm.mem_iff.mp hi)) (hperm.nodup_iff.mpr (hs.nodup topic))
  · exact .sending (fun i hi => hs.members topic i hi) (hs.nodup topic)

theorem Safe.sendTo (hs : h.Safe) {topic : Topic} {event : ε} {snapshot : List ℕ}
    (ht : h.TaskOk (.sending topic event (sub :: snapshot))) :
    (h.sendTo topic event sub snapshot).1.Safe ∧
      (h.sendTo topic event sub snapshot).1.TaskOk (h.sendTo topic event sub snapshot).2 := by
  have hsub := ht.unclosed sub List.mem_cons_self
  have hnodup := List.nodup_cons.mp ht.nodup
  have hrest : ∀ i ∈ snapshot, i < h.count ∧ (h.subscribers i).topic = topic ∧
      (h.subscribers i).ch.closed = false := by
    intro i hi
    have hi := List.mem_cons_of_mem sub hi
    exact ⟨(ht.unclosed i hi).1, (Option.some.inj (ht.topics i hi)).symm, (ht.unclosed i hi).2⟩
  simp only [Hub.sendTo]
  split
  · next f hsend =>
    rw [(trySend_error hsend).2] at hsub
    cases hsub.2
  · next ch hsend =>
    refine ⟨hs.setChan (trySend_closed hsend).1, .sending (fun i hi => ?_) hnodup.2⟩
    have hne : i ≠ sub := fun heq => hnodup.1 (heq ▸ hi)
    simpa [Hub.setChan, Function.update_of_ne hne] using hrest i hi
  · refine ⟨hs, fun i hi => ⟨(hrest i hi).1, (hrest i hi).2.2⟩, fun i hi => ?_, hnodup.2, ?_, ?_⟩
    · exact congrArg some (hrest i hi).2.1.symm
    · rintro _ _ _ ⟨⟩
      exact ⟨hsub.1, (Option.some.inj (ht.topics sub List.mem_cons_self)).symm, hnodup.1⟩
    · intro _ _ _ heq
      cases heq

theorem Safe.advance (hs : h.Safe) (order : List ℕ) {task : HubTask ε} (htask : task ∈ h.tasks)
    (hunsent : ∀ topic sub rest, task = .close topic sub rest →
      (h.subscribers sub).closeOnce = true ∨ ∀ task ∈ h.tasks, sub ∉ task.pending) :
    (h.advance order task).1.Safe ∧ (h.advance order task).1.TaskOk (h.advance order task).2 := by
  have ht := hs.tasks task htask
  cases task with
  | emit topic event => exact ⟨hs, hs.emit order topic event⟩
  | done => exact ⟨hs, ht⟩
  | sending topic event snapshot =>
      cases snapshot with
      | nil => exact ⟨hs, .of_pending_nil rfl (by simp [Hub.advance]) (by simp [Hub.advance])⟩
      | cons sub snapshot => exact hs.sendTo ht
  | remove topic sub rest =>
      obtain ⟨hlt, htopic, hpending⟩ := ht.remove topic sub rest rfl
      refine ⟨hs.removeMember topic, ht.unclosed, ht.topics, ht.nodup, ?_, ?_⟩
      · intro _ _ _ heq
        cases heq
      · rintro _ _ _ ⟨⟩
        refine ⟨hlt, fun t hmem => ?_, hpending⟩
        -- the subscriber was a member of its own topic only
        by_cases heq : t = topic
        · subst heq
          simp [Hub.advance] at hmem
        · have hmem : sub ∈ h.members t := by simpa [Hub.advance, Function.update_of_ne heq] using hmem
          exact heq ((hs.members t sub hmem).2.1.symm.trans htopic)
  | close topic sub rest =>
      obtain ⟨hlt, hgone, hpending⟩ := ht.close topic sub rest rfl
      obtain ⟨hsafe, htasks, _⟩ := hs.closeSubscriber hgone (hunsent topic sub rest rfl)
      refine ⟨hsafe, ?_⟩
      have ht' := hsafe.tasks (.close topic sub rest) (htasks ▸ htask)
      exact ht'.after rfl rfl

theorem Safe.step (hs : h.Safe) {act : HubAct ε} (hact : h.ClosesUnsent act) : (h.step act).Safe := by
  cases act with
  | subscribe topic => exact hs.subscribe topic
  | emit topic event => exact hs.addTask (.of_pending_nil rfl (by simp) (by simp))
  | unsubscribe sub =>
      simp only [Hub.step]
      split
      · next hlt =>
        refine hs.addTask ⟨by simp [HubTask.pending], by simp [HubTask.pending], by simp [HubTask.pending], ?_, ?_⟩
        · rintro _ _ _ ⟨⟩
          exact ⟨hlt, rfl, by simp [HubTask.pending]⟩
        · intro _ _ _ heq
          cases heq
      · exact hs
  | receive sub => exact hs.setChan rfl
  | advance i order =>
      simp only [Hub.step]
      split
      · exact hs
      · next task hget =>
        obtain ⟨hsafe, hok⟩ := hs.advance order (List.mem_of_getElem? hget) (by
          rintro topic sub rest rfl
          cases honce : (h.subscribers sub).closeOnce with
          | true => exact .inl rfl
          | false => exact .inr (hact sub (by simp [Hub.closing, hget, HubTask.closing, honce])))
        exact hsafe.setTask hok i

theorem newHub_safe (channelBuffer : ℤ) : (newHub ε channelBuffer).Safe := by
  constructor
  · exact ⟨fun _ => rfl, by simp [newHub]⟩
  · simp [newHub]
  · simp [newHub]
  · simp [newHub]
  · rfl

end

end Hub

/-- A run in which every channel is closed only when no call of `Emit` that has copied the
subscribers is still going to send on it has no send on a closed channel; in every run, no
channel is closed twice. -/
theorem hub_sends_to_open {ε : Type} (channelBuffer : ℤ) (acts : List (HubAct ε)) :
    (∀ f ∈ (run Hub.step (newHub ε channelBuffer) acts).faults, f ≠ .closeOfClosed) ∧
      (Along Hub.ClosesUnsent Hub.step (newHub ε channelBuffer) acts →
        (run Hub.step (newHub ε channelBuffer) acts).faults = []) := by
  constructor
  · intro f hf heq
    have hclosed : (run Hub.step (newHub ε channelBuffer) acts).ClosedOnce :=
      run_history (P := fun _ (h : Hub ε) => h.ClosedOnce) (Hub.newHub_safe channelBuffer).toClosedOnce
        (fun _ _ act hc => hc.step act) acts
    rw [hclosed.faults f hf] at heq
    cases heq
  · intro halong
    exact (run_along (fun _ _ hs hact => hs.step hact) (Hub.newHub_safe channelBuffer) halong).quiet

/-- A stream subscribes to a project and an event is emitted. The stream leaves after it was
sent, or between the copy and the send. -/
def leavingStream (early : Bool) : List (HubAct Unit) :=
  let leave : List (HubAct Unit) := [.unsubscribe 0, .advance 1 [], .advance 1 []]
  let send : List (HubAct Unit) := [.advance 0 [], .advance 0 []]
  [HubAct.subscribe (.project 1), .emit (.project 1) (), .advance 0 []] ++
    if early then leave ++ send else send ++ leave

theorem hub_sends_to_open_late :
    Along Hub.ClosesUnsent Hub.step (newHub Unit 0) (leavingStream false) ∧
      (run Hub.step (newHub Unit 0) (leavingStream false)).faults = [] := by
  have halong : Along Hub.ClosesUnsent Hub.step (newHub Unit 0) (leavingStream false) := by decide
  exact ⟨halong, (hub_sends_to_open 0 (leavingStream false)).2 halong⟩

theorem send_after_unsubscribe :
    .sendOnClosed ∈ (run Hub.step (newHub Unit 0) (leavingStream true)).faults := by
  decide

end Scrumboy
