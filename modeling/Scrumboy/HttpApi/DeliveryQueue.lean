import Scrumboy.Go.Channel
import Scrumboy.Transition.Runs
import Mathlib.Data.Int.Notation

/-!
# The delivery queue and its worker

Webhooks and mails wait in a bounded queue for one worker, which sends each of them up to three
times. `Enqueue` appends under the lock and wakes the worker after that, through a channel of
one slot. The worker drains the queue until it is empty. It stops for good when its run context
is cancelled, after a last drain, and starts no new attempt once its retry context is.

A schedule says whose step is next: a call of `Enqueue`, the worker, or one of the operations of
a shutdown. The sends are steps of the worker, and their results come with the schedule.
An item carries the number of the call that brought it, and `appended` and `cutoff` record what
was appended, and how much of it before the run context was cancelled; nothing reads them.
-/

set_option linter.dupNamespace false

namespace Scrumboy

open Go Transition

/-- An item, and the number of its call of `Enqueue`. -/
structure Queued (τ : Type) where
  call : ℕ
  item : τ
  deriving DecidableEq, Repr

structure DeliveryQueue (τ : Type) where
  items : List (Queued τ) := []
  cap : ℤ
  notify : Chan Unit := { buffer := 1 }
  sealed : Bool := false
  deriving DecidableEq, Repr

def newDeliveryQueue (τ : Type) (capacity : ℤ) : DeliveryQueue τ := { cap := capacity }

namespace DeliveryQueue

variable {τ : Type}

/-- What `Enqueue` does under the lock, and whether it accepted the item. -/
def append (q : DeliveryQueue τ) (d : Queued τ) : DeliveryQueue τ × Bool :=
  if q.sealed then (q, false)
  else if q.cap ≤ q.items.length then (q, false)
  else ({ q with items := q.items ++ [d] }, true)

/-- What `Enqueue` does after that. -/
def wake (q : DeliveryQueue τ) : DeliveryQueue τ :=
  match q.notify.trySend () with
  | .ok (some ch) => { q with notify := ch }
  | .ok none | .error _ => q

end DeliveryQueue

/-- The place of a call of `Enqueue`. -/
inductive EnqueueCall (τ : Type)
  | start (item : τ)
  | notify (item : τ)
  | returned (item : τ) (accepted : Bool)
  deriving DecidableEq, Repr

inductive SendResult
  | sent
  | failed
  | permanent
  deriving DecidableEq, Repr

/-- An item that the worker has taken up, and what its sends returned. -/
structure Delivery (τ : Type) where
  item : Queued τ
  results : List SendResult
  deriving DecidableEq, Repr

/-- `deliveryBackoff`, in milliseconds. -/
def deliveryBackoff : List ℕ := [0, 100, 400]

/-- The place of the worker. A flush is the last one when the run context was seen cancelled. -/
inductive WorkerPC (τ : Type)
  /-- In the select of `Run`. -/
  | select
  /-- At the inner select, after a wake-up. -/
  | woken
  /-- At the head of the loop of `flush`. -/
  | flush (last : Bool)
  | drain (last : Bool)
  /-- At the head of the loop over a batch. -/
  | batch (last : Bool) (rest : List (Queued τ))
  /-- At the head of the loop of `deliver`. -/
  | attempt (last : Bool) (rest : List (Queued τ)) (d : Queued τ) (attempt : ℕ)
  | backoff (last : Bool) (rest : List (Queued τ)) (d : Queued τ) (attempt : ℕ)
  /-- At the check after the timer. -/
  | recheck (last : Bool) (rest : List (Queued τ)) (d : Queued τ) (attempt : ℕ)
  | send (last : Bool) (rest : List (Queued τ)) (d : Queued τ) (attempt : ℕ)
  /-- `Run` has left its loop. -/
  | deferred
  | done
  deriving DecidableEq, Repr

structure DeliveryState (τ : Type) where
  queue : DeliveryQueue τ
  calls : List (EnqueueCall τ) := []
  runDone : Bool := false
  retryDone : Bool := false
  shutdownStarted : Bool := false
  worker : WorkerPC τ := .select
  deliveries : List (Delivery τ) := []
  appended : List (Queued τ) := []
  cutoff : Option ℕ := none
  deriving DecidableEq, Repr

inductive DeliveryAct (τ : Type)
  /-- A call of `Enqueue` begins. -/
  | call (item : τ)
  /-- A call of `Enqueue` takes its next step. -/
  | enqueue (call : ℕ)
  | sealQueue
  /-- The context of the shutdown is closed already, or not. -/
  | beginShutdown (closed : Bool)
  | cancelRun
  /-- The context of the shutdown expires. -/
  | cancelRetry
  /-- The worker takes its next step; it takes a cancellation if it may choose and `cancelled` says so. -/
  | work (cancelled : Bool) (result : SendResult)
  deriving DecidableEq, Repr

variable {τ : Type}

/-- Where a flush returns to. -/
def WorkerPC.afterFlush (last : Bool) : WorkerPC τ := if last then .deferred else .select

namespace DeliveryState

/-- The next step of a call of `Enqueue`. -/
def enqueue (s : DeliveryState τ) (i : ℕ) : DeliveryState τ :=
  match s.calls[i]? with
  | some (.start item) =>
      let (queue, accepted) := s.queue.append ⟨i, item⟩
      if accepted then
        { s with queue := queue, calls := s.calls.set i (.notify item), appended := s.appended ++ [⟨i, item⟩] }
      else { s with calls := s.calls.set i (.returned item false) }
  | some (.notify item) =>
      { s with queue := s.queue.wake, calls := s.calls.set i (.returned item true) }
  | some (.returned _ _) | none => s

/-- The result of a send is the last one of its delivery. -/
def record (s : DeliveryState τ) (r : SendResult) : List (Delivery τ) :=
  match s.deliveries.getLast? with
  | some d => s.deliveries.dropLast ++ [{ d with results := d.results ++ [r] }]
  | none => []

/-- The next step of the worker. -/
def work (s : DeliveryState τ) (cancelled : Bool) (result : SendResult) : DeliveryState τ :=
  match s.worker with
  | .select =>
      if s.runDone ∧ (cancelled ∨ s.queue.notify.queue = []) then { s with worker := .flush true }
      else if s.queue.notify.queue = [] then s
      else { s with queue := { s.queue with notify := s.queue.notify.receive }, worker := .woken }
  | .woken => { s with worker := .flush s.runDone }
  | .flush last => { s with worker := if s.retryDone then .afterFlush last else .drain last }
  | .drain last =>
      if s.queue.items = [] then { s with worker := .afterFlush last }
      else { s with queue := { s.queue with items := [] }, worker := .batch last s.queue.items }
  | .batch last [] => { s with worker := .flush last }
  | .batch last (d :: rest) =>
      if s.retryDone then { s with worker := .afterFlush last }
      else { s with worker := .attempt last rest d 0, deliveries := s.deliveries ++ [⟨d, []⟩] }
  | .attempt last rest d attempt =>
      { s with
        worker := if s.retryDone then .batch last rest
          else if 0 < attempt then .backoff last rest d attempt else .send last rest d attempt }
  | .backoff last rest d attempt =>
      { s with
        worker := if s.retryDone ∧ cancelled then .batch last rest else .recheck last rest d attempt }
  | .recheck last rest d attempt =>
      { s with worker := if s.retryDone then .batch last rest else .send last rest d attempt }
  | .send last rest d attempt =>
      { s with
        deliveries := s.record result
        worker := if result = .failed ∧ attempt + 1 < deliveryBackoff.length
          then .attempt last rest d (attempt + 1) else .batch last rest }
  | .deferred => { s with retryDone := true, worker := .done }
  | .done => s

def step (s : DeliveryState τ) : DeliveryAct τ → DeliveryState τ
  | .call item => { s with calls := s.calls ++ [.start item] }
  | .enqueue i => s.enqueue i
  | .sealQueue => { s with queue := { s.queue with sealed := true } }
  | .beginShutdown closed =>
      if s.shutdownStarted then s
      else { s with shutdownStarted := true, retryDone := s.retryDone || closed }
  | .cancelRun =>
      if s.runDone then s else { s with runDone := true, cutoff := some s.appended.length }
  | .cancelRetry => { s with retryDone := true }
  | .work cancelled result => s.work cancelled result

/-- The worker does not close or replace the channel. -/
theorem work_notify (s : DeliveryState τ) (cancelled : Bool) (result : SendResult) :
    (s.work cancelled result).queue.notify.closed = s.queue.notify.closed ∧
      (s.work cancelled result).queue.notify.buffer = s.queue.notify.buffer := by
  unfold work
  split
  all_goals first | exact ⟨rfl, rfl⟩ | skip
  · split
    · exact ⟨rfl, rfl⟩
    · split <;> exact ⟨rfl, rfl⟩
  · split <;> exact ⟨rfl, rfl⟩
  · split <;> exact ⟨rfl, rfl⟩

/-- The calls and what they appended are not the worker's. -/
theorem work_calls (s : DeliveryState τ) (cancelled : Bool) (result : SendResult) :
    (s.work cancelled result).calls = s.calls ∧ (s.work cancelled result).appended = s.appended ∧
      (s.work cancelled result).runDone = s.runDone ∧ (s.work cancelled result).cutoff = s.cutoff := by
  unfold work
  split
  all_goals first | exact ⟨rfl, rfl, rfl, rfl⟩ | skip
  · split
    · exact ⟨rfl, rfl, rfl, rfl⟩
    · split <;> exact ⟨rfl, rfl, rfl, rfl⟩
  · split <;> exact ⟨rfl, rfl, rfl, rfl⟩
  · split <;> exact ⟨rfl, rfl, rfl, rfl⟩

/-- The deliveries that were handed to `send`. -/
def handed (s : DeliveryState τ) : List (Delivery τ) := s.deliveries.filter fun d => !d.results.isEmpty

end DeliveryState

end Scrumboy
