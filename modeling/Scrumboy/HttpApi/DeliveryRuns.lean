import Scrumboy.HttpApi.DeliveryQueue
import Mathlib.Data.List.Nodup

/-!
# Accepted deliveries are sent

The invariants of a run: what the calls of `Enqueue` leave in the queue, which part of it the
worker has taken up, and that a worker that waits has nothing to do or is about to be woken.
-/

set_option linter.dupNamespace false

namespace Scrumboy

open Go Transition

variable {τ : Type} {s : DeliveryState τ}

namespace DeliveryQueue

variable {q : DeliveryQueue τ} {d : Queued τ}

theorem append_accepted (h : (q.append d).2 = true) :
    (q.append d).1 = { q with items := q.items ++ [d] } := by
  unfold append at h ⊢
  split
  · rw [if_pos ‹_›] at h
    cases h
  · rw [if_neg ‹_›] at h
    split
    · rw [if_pos ‹_›] at h
      cases h
    · rfl

@[simp] theorem wake_items : q.wake.items = q.items := by
  unfold wake
  split <;> rfl

/-- After a wake-up the slot is taken. -/
theorem wake_full (hopen : q.notify.closed = false) (hslot : q.notify.buffer = 1) :
    q.wake.notify.full = true ∧ q.wake.notify.closed = false ∧ q.wake.notify.buffer = 1 := by
  unfold wake
  rw [Chan.trySend_of_open hopen]
  cases hfull : q.notify.full with
  | true => exact ⟨hfull, hopen, hslot⟩
  | false => exact ⟨by simp [Chan.full, hslot], hopen, hslot⟩

end DeliveryQueue

/-! ## Calls -/

/-- The calls of `Enqueue` and what they appended. -/
structure CallsInv (s : DeliveryState τ) : Prop where
  opened : s.queue.notify.closed = false
  slot : s.queue.notify.buffer = 1
  once : (s.appended.map (·.call)).Nodup
  called : ∀ d ∈ s.appended, s.calls[d.call]? = some (.notify d.item) ∨
    s.calls[d.call]? = some (.returned d.item true)
  accepted : ∀ i item, s.calls[i]? = some (.notify item) ∨ s.calls[i]? = some (.returned item true) →
    ⟨i, item⟩ ∈ s.appended

namespace CallsInv

/-- What does not touch the calls keeps this. -/
theorem congr {s' : DeliveryState τ} (h : CallsInv s)
    (hnotify : s'.queue.notify.closed = s.queue.notify.closed ∧
      s'.queue.notify.buffer = s.queue.notify.buffer)
    (hcalls : s'.calls = s.calls) (happended : s'.appended = s.appended) : CallsInv s' where
  opened := hnotify.1.trans h.opened
  slot := hnotify.2.trans h.slot
  once := happended ▸ h.once
  called := by
    rw [happended, hcalls]
    exact h.called
  accepted := by
    rw [happended, hcalls]
    exact h.accepted

theorem call (h : CallsInv s) (item : τ) : CallsInv { s with calls := s.calls ++ [.start item] } where
  opened := h.opened
  slot := h.slot
  once := h.once
  called := by
    intro d hd
    refine (h.called d hd).imp ?_ ?_
    · exact fun hcall => by rw [List.getElem?_append_left (List.getElem?_eq_some_iff.mp hcall).1, hcall]
    · exact fun hcall => by rw [List.getElem?_append_left (List.getElem?_eq_some_iff.mp hcall).1, hcall]
  accepted := by
    intro i item' hcall
    refine h.accepted i item' ?_
    by_cases hi : i < s.calls.length
    · rwa [List.getElem?_append_left hi] at hcall
    · rw [List.getElem?_append_right (Nat.le_of_not_lt hi)] at hcall
      exfalso
      cases hsub : i - s.calls.length with
      | zero => simp [hsub] at hcall
      | succ n => simp [hsub] at hcall

/-- A call goes on: at its place before the step, and at no other. -/
theorem getElem?_set_calls {i j : ℕ} {c c' : EnqueueCall τ} (hi : s.calls[i]? = some c) :
    (s.calls.set i c')[j]? = if i = j then some c' else s.calls[j]? := by
  have hlt := (List.getElem?_eq_some_iff.mp hi).1
  rw [List.getElem?_set]
  split
  · rfl
  · rfl

theorem enqueue (h : CallsInv s) (i : ℕ) : CallsInv (s.enqueue i) := by
  unfold DeliveryState.enqueue
  split
  · next item hi =>
    dsimp only
    have hnew : ∀ d ∈ s.appended, d.call ≠ i := by
      rintro d hd rfl
      rcases h.called d hd with hcall | hcall
      · simp [hcall] at hi
      · simp [hcall] at hi
    split
    · next haccepted =>
      have hqueue := DeliveryQueue.append_accepted haccepted
      refine ⟨hqueue ▸ h.opened, hqueue ▸ h.slot, ?_, ?_, ?_⟩
      · rw [List.map_append, List.nodup_append]
        refine ⟨h.once, List.nodup_singleton _, fun a ha b hb => ?_⟩
        obtain ⟨d, hd, rfl⟩ := List.mem_map.mp ha
        rw [List.mem_singleton.mp hb]
        exact hnew d hd
      · intro d hd
        rw [getElem?_set_calls hi]
        rcases List.mem_append.mp hd with hd | hd
        · rw [if_neg (Ne.symm (hnew d hd))]
          exact h.called d hd
        · rw [List.mem_singleton.mp hd, if_pos rfl]
          exact .inl rfl
      · intro j item' hcall
        rw [getElem?_set_calls hi] at hcall
        split at hcall
        · next hij =>
          subst hij
          have hitem : item = item' := by simpa using hcall
          exact List.mem_append_right _ (List.mem_singleton.mpr (hitem ▸ rfl))
        · exact List.mem_append_left _ (h.accepted j item' hcall)
    · refine ⟨h.opened, h.slot, h.once, ?_, ?_⟩
      · intro d hd
        rw [getElem?_set_calls hi, if_neg (Ne.symm (hnew d hd))]
        exact h.called d hd
      · intro j item' hcall
        rw [getElem?_set_calls hi] at hcall
        split at hcall
        · simp at hcall
        · exact h.accepted j item' hcall
  · next item hi =>
    obtain ⟨_, hopen, hslot⟩ := DeliveryQueue.wake_full h.opened h.slot
    have hmem := h.accepted i item (.inl hi)
    refine ⟨hopen, hslot, h.once, ?_, ?_⟩
    · intro d hd
      rw [getElem?_set_calls hi]
      split
      · next hij =>
        subst hij
        rcases h.called d hd with hcall | hcall
        · exact .inr (by simpa using hi.symm.trans hcall)
        · simp [hcall] at hi
      · exact h.called d hd
    · intro j item' hcall
      rw [getElem?_set_calls hi] at hcall
      split at hcall
      · next hij =>
        subst hij
        have hitem : item = item' := by simpa using hcall
        exact hitem ▸ hmem
      · exact h.accepted j item' hcall
  · exact h
  · exact h

end CallsInv

/-! ## Deliveries -/

namespace WorkerPC

/-- What is left of the batch. -/
def rest : WorkerPC τ → List (Queued τ)
  | .batch _ rest | .attempt _ rest _ _ | .backoff _ rest _ _ | .recheck _ rest _ _ | .send _ rest _ _ => rest
  | .select | .woken | .flush _ | .drain _ | .deferred | .done => []

/-- The item that is being delivered, and the number of its attempts so far. -/
def current : WorkerPC τ → Option (Queued τ × ℕ)
  | .attempt _ _ d n | .backoff _ _ d n | .recheck _ _ d n | .send _ _ d n => some (d, n)
  | .select | .woken | .flush _ | .drain _ | .batch _ _ | .deferred | .done => none

/-- The run context was seen cancelled. -/
def isLast : WorkerPC τ → Bool
  | .flush last | .drain last | .batch last _ | .attempt last _ _ _ | .backoff last _ _ _
  | .recheck last _ _ _ | .send last _ _ _ => last
  | .select | .woken => false
  | .deferred | .done => true

/-- `Run` has left its loop. -/
def returned : WorkerPC τ → Bool
  | .deferred | .done => true
  | _ => false

@[simp] theorem rest_afterFlush (last : Bool) : (afterFlush last : WorkerPC τ).rest = [] := by
  cases last <;> rfl

@[simp] theorem current_afterFlush (last : Bool) : (afterFlush last : WorkerPC τ).current = none := by
  cases last <;> rfl

end WorkerPC

/-- An item is sent again only after a failure that is not permanent. -/
def Delivery.Fits (d : Delivery τ) : Prop :=
  d.results.length ≤ deliveryBackoff.length ∧ ∀ r ∈ d.results.dropLast, r = .failed

theorem fits_replicate {d : Queued τ} {n : ℕ} (hn : n < deliveryBackoff.length) (r : SendResult) :
    Delivery.Fits ⟨d, List.replicate n SendResult.failed ++ [r]⟩ := by
  refine ⟨by simpa using Nat.succ_le_of_lt hn, fun r' hr' => ?_⟩
  rw [List.dropLast_concat] at hr'
  exact List.eq_of_mem_replicate hr'

/-- What the worker has taken up, in the order in which it was appended. -/
structure WorkInv (s : DeliveryState τ) : Prop where
  flow : ∃ lost, s.appended = s.deliveries.map (·.item) ++ lost ++ s.worker.rest ++ s.queue.items ∧
    (s.retryDone = false → lost = [])
  fits : ∀ d ∈ s.deliveries, d.Fits
  before : ∀ d ∈ s.deliveries.dropLast, d.results ≠ []
  current : ∀ d n, s.worker.current = some (d, n) → n < deliveryBackoff.length ∧
    ∃ ds, s.deliveries = ds ++ [⟨d, List.replicate n .failed⟩]
  idle : s.worker.current = none → s.retryDone = false → ∀ d ∈ s.deliveries, d.results ≠ []

namespace WorkInv

theorem cancelRetry (h : WorkInv s) : WorkInv { s with retryDone := true } where
  flow := h.flow.imp fun _ hflow => ⟨hflow.1, fun hfalse => by cases hfalse⟩
  fits := h.fits
  before := h.before
  current := h.current
  idle _ hfalse := by cases hfalse

theorem move (h : WorkInv s) {pc : WorkerPC τ} (hrest : pc.rest = s.worker.rest)
    (hcurrent : pc.current = s.worker.current) : WorkInv { s with worker := pc } where
  flow := hrest ▸ h.flow
  fits := h.fits
  before := h.before
  current d n hpc := h.current d n (hcurrent ▸ hpc)
  idle hpc := h.idle (hcurrent ▸ hpc)

/-- The worker gives up what it holds. -/
theorem drop (h : WorkInv s) (hretry : s.retryDone = true) {pc : WorkerPC τ} (hcurrent : pc.current = none)
    (hrest : pc.rest = [] ∨ pc.rest = s.worker.rest) : WorkInv { s with worker := pc } where
  flow := by
    obtain ⟨lost, hflow, _⟩ := h.flow
    rcases hrest with hrest | hrest
    · exact ⟨lost ++ s.worker.rest, by simpa [hrest] using hflow, fun hfalse => by simp [hretry] at hfalse⟩
    · exact ⟨lost, by rw [hrest, hflow], fun hfalse => by simp [hretry] at hfalse⟩
  fits := h.fits
  before := h.before
  current d n hpc := by
    rw [hcurrent] at hpc
    cases hpc
  idle _ hfalse := by simp [hretry] at hfalse

/-- The next item of a batch. -/
theorem takeUp (h : WorkInv s) {last : Bool} {d : Queued τ} {rest : List (Queued τ)}
    (hpc : s.worker = .batch last (d :: rest)) (hretry : s.retryDone = false) :
    WorkInv { s with worker := .attempt last rest d 0, deliveries := s.deliveries ++ [⟨d, []⟩] } where
  flow := by
    obtain ⟨lost, hflow, hlost⟩ := h.flow
    refine ⟨[], ?_, fun _ => rfl⟩
    rw [hflow, hpc, hlost hretry]
    simp [WorkerPC.rest]
  fits := by
    intro d' hd'
    rcases List.mem_append.mp hd' with hd' | hd'
    · exact h.fits d' hd'
    · rw [List.mem_singleton.mp hd']
      exact ⟨Nat.zero_le _, fun r hr => (List.not_mem_nil hr).elim⟩
  before := by
    intro d' hd'
    rw [List.dropLast_concat] at hd'
    exact h.idle (by rw [hpc]; rfl) hretry d' hd'
  current := by
    intro d' n hcurrent
    cases hcurrent
    exact ⟨by decide, s.deliveries, rfl⟩
  idle hnone := by cases hnone

/-- A send returns. -/
theorem send (h : WorkInv s) {last : Bool} {d : Queued τ} {rest : List (Queued τ)} {n : ℕ}
    (hpc : s.worker = .send last rest d n) (r : SendResult) :
    WorkInv { s with
      deliveries := s.record r
      worker := if r = .failed ∧ n + 1 < deliveryBackoff.length
        then .attempt last rest d (n + 1) else .batch last rest } := by
  obtain ⟨hn, ds, hds⟩ := h.current d n (by rw [hpc]; rfl)
  have hrecord : s.record r = ds ++ [⟨d, List.replicate n SendResult.failed ++ [r]⟩] := by
    simp [DeliveryState.record, hds]
  have hitems : (s.record r).map (·.item) = s.deliveries.map (·.item) := by simp [hrecord, hds]
  have hbefore : ∀ d' ∈ ds, d'.results ≠ [] := fun d' hd' => h.before d' (by rwa [hds, List.dropLast_concat])
  refine ⟨?_, ?_, ?_, ?_, ?_⟩
  · obtain ⟨lost, hflow, hlost⟩ := h.flow
    refine ⟨lost, ?_, hlost⟩
    dsimp only
    rw [hflow, hpc, hitems]
    split <;> rfl
  · dsimp only
    rw [hrecord]
    intro d' hd'
    rcases List.mem_append.mp hd' with hd' | hd'
    · exact h.fits d' (hds ▸ List.mem_append_left _ hd')
    · exact List.mem_singleton.mp hd' ▸ fits_replicate hn r
  · dsimp only
    rw [hrecord, List.dropLast_concat]
    exact hbefore
  · intro d' m hcurrent
    dsimp only at hcurrent ⊢
    split at hcurrent
    · next hagain =>
      cases hcurrent
      refine ⟨hagain.2, ds, ?_⟩
      rw [hrecord, hagain.1, List.replicate_succ']
    · cases hcurrent
  · intro _ _ d' hd'
    dsimp only at hd'
    rw [hrecord] at hd'
    rcases List.mem_append.mp hd' with hd' | hd'
    · exact hbefore d' hd'
    · rw [List.mem_singleton.mp hd']
      simp

theorem work (h : WorkInv s) (cancelled : Bool) (result : SendResult) : WorkInv (s.work cancelled result) := by
  unfold DeliveryState.work
  cases hpc : s.worker with
  | select =>
      dsimp only
      split
      · exact h.move (by rw [hpc]; rfl) (by rw [hpc]; rfl)
      · split
        · exact h
        · have hmoved : WorkInv { s with worker := .woken } := h.move (by rw [hpc]; rfl) (by rw [hpc]; rfl)
          exact ⟨hmoved.flow, hmoved.fits, hmoved.before, hmoved.current, hmoved.idle⟩
  | woken => exact h.move (by rw [hpc]; rfl) (by rw [hpc]; rfl)
  | flush last =>
      dsimp only
      split
      · exact h.move (by rw [WorkerPC.rest_afterFlush, hpc]; rfl) (by rw [WorkerPC.current_afterFlush, hpc]; rfl)
      · exact h.move (by rw [hpc]; rfl) (by rw [hpc]; rfl)
  | drain last =>
      dsimp only
      split
      · exact h.move (by rw [WorkerPC.rest_afterFlush, hpc]; rfl) (by rw [WorkerPC.current_afterFlush, hpc]; rfl)
      · obtain ⟨lost, hflow, hlost⟩ := h.flow
        refine ⟨⟨lost, ?_, hlost⟩, h.fits, h.before, ?_, fun _ => h.idle (by rw [hpc]; rfl)⟩
        · rw [hflow, hpc]
          simp [WorkerPC.rest]
        · intro d n hcurrent
          cases hcurrent
  | batch last rest =>
      cases rest with
      | nil => exact h.move (by rw [hpc]; rfl) (by rw [hpc]; rfl)
      | cons d rest =>
          dsimp only
          split
          · next hretry => exact h.drop hretry (by simp) (.inl (by simp))
          · next hretry => exact h.takeUp hpc (by simpa using hretry)
  | attempt last rest d n =>
      dsimp only
      split
      · next hretry => exact h.drop hretry rfl (.inr (by rw [hpc]; rfl))
      · split
        · exact h.move (by rw [hpc]; rfl) (by rw [hpc]; rfl)
        · exact h.move (by rw [hpc]; rfl) (by rw [hpc]; rfl)
  | backoff last rest d n =>
      dsimp only
      split
      · next hretry => exact h.drop hretry.1 rfl (.inr (by rw [hpc]; rfl))
      · exact h.move (by rw [hpc]; rfl) (by rw [hpc]; rfl)
  | recheck last rest d n =>
      dsimp only
      split
      · next hretry => exact h.drop hretry rfl (.inr (by rw [hpc]; rfl))
      · exact h.move (by rw [hpc]; rfl) (by rw [hpc]; rfl)
  | send last rest d n => exact h.send hpc result
  | deferred => exact (h.cancelRetry).move (by rw [hpc]; rfl) (by rw [hpc]; rfl)
  | done => exact h

/-- An accepted item waits behind the others. -/
theorem enqueue (h : WorkInv s) (i : ℕ) : WorkInv (s.enqueue i) := by
  unfold DeliveryState.enqueue
  split
  · dsimp only
    split
    · next haccepted =>
      rw [DeliveryQueue.append_accepted haccepted]
      obtain ⟨lost, hflow, hlost⟩ := h.flow
      exact ⟨⟨lost, by simp [hflow], hlost⟩, h.fits, h.before, h.current, h.idle⟩
    · exact ⟨h.flow, h.fits, h.before, h.current, h.idle⟩
  · refine ⟨?_, h.fits, h.before, h.current, h.idle⟩
    dsimp only
    rw [DeliveryQueue.wake_items]
    exact h.flow
  · exact h
  · exact h

theorem step (h : WorkInv s) (a : DeliveryAct τ) : WorkInv (s.step a) := by
  cases a with
  | call item => exact ⟨h.flow, h.fits, h.before, h.current, h.idle⟩
  | enqueue i => exact h.enqueue i
  | sealQueue => exact ⟨h.flow, h.fits, h.before, h.current, h.idle⟩
  | beginShutdown closed =>
      unfold DeliveryState.step
      dsimp only
      split
      · exact h
      · cases closed with
        | false =>
            rw [Bool.or_false]
            exact ⟨h.flow, h.fits, h.before, h.current, h.idle⟩
        | true =>
            rw [Bool.or_true]
            have hdone := h.cancelRetry
            exact ⟨hdone.flow, hdone.fits, hdone.before, hdone.current, hdone.idle⟩
  | cancelRun =>
      unfold DeliveryState.step
      dsimp only
      split
      · exact h
      · exact ⟨h.flow, h.fits, h.before, h.current, h.idle⟩
  | cancelRetry => exact h.cancelRetry
  | work cancelled result => exact h.work cancelled result

/-- Nothing but the last delivery may have been given up before its first attempt. -/
theorem handed_eq (h : WorkInv s) : s.handed = s.deliveries ∨ s.handed = s.deliveries.dropLast := by
  have hbefore : s.deliveries.dropLast.filter (fun d => !d.results.isEmpty) = s.deliveries.dropLast :=
    List.filter_eq_self.mpr fun d hd => by simpa using h.before d hd
  cases hlast : s.deliveries.getLast? with
  | none =>
      rw [List.getLast?_eq_none_iff] at hlast
      simp [DeliveryState.handed, hlast]
  | some d =>
      have hsplit : s.deliveries = s.deliveries.dropLast ++ [d] := (List.dropLast_append_getLast? d hlast).symm
      have hhanded : s.handed = s.deliveries.dropLast ++ [d].filter fun d => !d.results.isEmpty := by
        rw [DeliveryState.handed, hsplit, List.filter_append, ← hsplit, hbefore]
      cases hresults : d.results with
      | nil => exact .inr (by simpa [hresults] using hhanded)
      | cons r results => exact .inl (by rw [hhanded, List.filter_singleton]; simp [hresults, ← hsplit])

theorem deliveries_prefix (h : WorkInv s) : s.deliveries.map (·.item) <+: s.appended := by
  obtain ⟨lost, hflow, _⟩ := h.flow
  rw [hflow, List.append_assoc, List.append_assoc]
  exact List.prefix_append _ _

/-- What was handed to `send` is in the order in which it was appended. -/
theorem handed_prefix (h : WorkInv s) : s.handed.map (·.item) <+: s.appended := by
  rcases h.handed_eq with heq | heq
  · exact heq ▸ h.deliveries_prefix
  · rw [heq]
    exact ((List.dropLast_prefix s.deliveries).map (·.item)).trans h.deliveries_prefix

end WorkInv

/-! ## Wake-ups -/

/-- A worker that waits while there is something to do is about to be woken. -/
def Woken (s : DeliveryState τ) : Prop :=
  s.worker = .select → s.queue.items ≠ [] → s.retryDone = false →
    s.queue.notify.full = true ∨ (∃ item, .notify item ∈ s.calls) ∨ s.runDone = true

theorem Woken.work (cancelled : Bool) (result : SendResult) (h : Woken s) :
    Woken (s.work cancelled result) := by
  unfold DeliveryState.work
  cases hpc : s.worker with
  | select =>
      dsimp only
      split
      · intro hselect
        cases hselect
      · split
        · exact h
        · intro hselect
          cases hselect
  | woken =>
      intro hselect
      cases hselect
  | flush last =>
      dsimp only
      split
      · next hretry => exact fun _ _ hfalse => by simp [hretry] at hfalse
      · intro hselect
        cases hselect
  | drain last =>
      dsimp only
      split
      · next hempty => exact fun _ hne => absurd hempty hne
      · intro hselect
        cases hselect
  | batch last rest =>
      cases rest with
      | nil =>
          intro hselect
          cases hselect
      | cons d rest =>
          dsimp only
          split
          · next hretry => exact fun _ _ hfalse => by simp [hretry] at hfalse
          · intro hselect
            cases hselect
  | attempt last rest d n =>
      intro hselect
      dsimp only at hselect
      split at hselect
      · cases hselect
      · split at hselect
        · cases hselect
        · cases hselect
  | backoff last rest d n =>
      intro hselect
      dsimp only at hselect
      split at hselect
      · cases hselect
      · cases hselect
  | recheck last rest d n =>
      intro hselect
      dsimp only at hselect
      split at hselect
      · cases hselect
      · cases hselect
  | send last rest d n =>
      intro hselect
      dsimp only at hselect
      split at hselect
      · cases hselect
      · cases hselect
  | deferred =>
      intro hselect
      cases hselect
  | done => exact h

theorem Woken.enqueue (i : ℕ) (hcalls : CallsInv s) (h : Woken s) : Woken (s.enqueue i) := by
  unfold DeliveryState.enqueue
  split
  · next item hi =>
    have hlt := (List.getElem?_eq_some_iff.mp hi).1
    dsimp only
    split
    · exact fun _ _ _ => .inr (.inl ⟨item, List.mem_set hlt _⟩)
    · intro hselect hne hretry
      refine (h hselect hne hretry).imp_right (Or.imp_left ?_)
      -- a call that is about to notify is another one
      rintro ⟨item', hmem⟩
      obtain ⟨j, hj⟩ := List.getElem?_of_mem hmem
      have hij : i ≠ j := by
        rintro rfl
        simp [hj] at hi
      exact ⟨item', List.mem_of_getElem? (by rw [CallsInv.getElem?_set_calls hi, if_neg hij, hj])⟩
  · obtain ⟨hfull, _⟩ := DeliveryQueue.wake_full hcalls.opened hcalls.slot
    exact fun _ _ _ => .inl hfull
  · exact h
  · exact h

structure DeliveryInv (s : DeliveryState τ) : Prop where
  calls : CallsInv s
  work : WorkInv s
  woken : Woken s

theorem deliveryInv_new (capacity : ℤ) : DeliveryInv { queue := newDeliveryQueue τ capacity } where
  calls := ⟨rfl, rfl, List.nodup_nil, by simp, by simp⟩
  work := ⟨⟨[], rfl, fun _ => rfl⟩, by simp, by simp, fun _ _ hcurrent => (nomatch hcurrent), by simp⟩
  woken := fun _ hne => absurd rfl hne

theorem DeliveryInv.step (h : DeliveryInv s) (a : DeliveryAct τ) : DeliveryInv (s.step a) := by
  have hwork := h.work.step a
  cases a with
  | call item =>
      refine ⟨h.calls.call item, hwork, fun hselect hne hretry => ?_⟩
      refine (h.woken hselect hne hretry).imp_right (Or.imp_left ?_)
      exact fun ⟨item', hmem⟩ => ⟨item', List.mem_append_left _ hmem⟩
  | enqueue i => exact ⟨h.calls.enqueue i, hwork, h.woken.enqueue i h.calls⟩
  | sealQueue => exact ⟨h.calls.congr ⟨rfl, rfl⟩ rfl rfl, hwork, h.woken⟩
  | beginShutdown closed =>
      unfold DeliveryState.step at hwork ⊢
      dsimp only at hwork ⊢
      split
      · exact h
      · next hstarted =>
        rw [if_neg hstarted] at hwork
        refine ⟨h.calls.congr ⟨rfl, rfl⟩ rfl rfl, hwork, fun hselect hne hretry => ?_⟩
        exact h.woken hselect hne (Bool.or_eq_false_iff.mp hretry).1
  | cancelRun =>
      unfold DeliveryState.step at hwork ⊢
      dsimp only at hwork ⊢
      split
      · exact h
      · next hdone =>
        rw [if_neg hdone] at hwork
        exact ⟨h.calls.congr ⟨rfl, rfl⟩ rfl rfl, hwork, fun _ _ _ => .inr (.inr rfl)⟩
  | cancelRetry =>
      refine ⟨h.calls.congr ⟨rfl, rfl⟩ rfl rfl, hwork, fun _ _ hretry => ?_⟩
      cases hretry
  | work cancelled result =>
      exact ⟨h.calls.congr (s.work_notify cancelled result) (s.work_calls cancelled result).1
        (s.work_calls cancelled result).2.1, hwork, h.woken.work cancelled result⟩

/-! ## The last flush -/

/-- An act that leaves the retry context alone. -/
def DeliveryAct.KeepsRetry : DeliveryAct τ → Prop
  | .cancelRetry | .beginShutdown true => False
  | _ => True

/-- What was appended before the run context was cancelled is handed to `send` before `Run` returns. -/
structure LastInv (s : DeliveryState τ) : Prop where
  cutoff : s.cutoff.isSome = s.runDone
  cutoff_le : ∀ n ∈ s.cutoff, n ≤ s.appended.length
  last : s.worker.isLast = true → s.runDone = true
  retry : s.retryDone = true → s.worker = .done
  handed : s.worker.returned = true → ∀ n ∈ s.cutoff, s.appended.take n <+: s.handed.map (·.item)

namespace LastInv

theorem new (capacity : ℤ) : LastInv { queue := newDeliveryQueue τ capacity } where
  cutoff := rfl
  cutoff_le := by simp
  last h := by cases h
  retry h := by cases h
  handed h := by cases h

/-- The worker moves on, and stays in `Run`. -/
theorem move (h : LastInv s) {s' : DeliveryState τ} (hsame : s'.cutoff = s.cutoff ∧ s'.appended = s.appended ∧
    s'.runDone = s.runDone ∧ s'.retryDone = s.retryDone) (hlast : s'.worker.isLast = true → s.runDone = true)
    (hworker : s.worker ≠ .done) (hreturned : s'.worker.returned = false) : LastInv s' where
  cutoff := by
    rw [hsame.1, hsame.2.2.1]
    exact h.cutoff
  cutoff_le := by
    rw [hsame.1, hsame.2.1]
    exact h.cutoff_le
  last hl := hsame.2.2.1 ▸ hlast hl
  retry hretry := absurd (h.retry (hsame.2.2.2 ▸ hretry)) hworker
  handed hr := by
    rw [hreturned] at hr
    cases hr

theorem enqueue (h : LastInv s) (i : ℕ) : LastInv (s.enqueue i) := by
  unfold DeliveryState.enqueue
  split
  · dsimp only
    split
    · refine ⟨h.cutoff, fun n hn => ?_, h.last, h.retry, fun hr n hn => ?_⟩
      · exact Nat.le_trans (h.cutoff_le n hn) (by simp)
      · dsimp only at hn ⊢
        rw [List.take_append_of_le_length (h.cutoff_le n hn)]
        exact h.handed hr n hn
    · exact ⟨h.cutoff, h.cutoff_le, h.last, h.retry, h.handed⟩
  · exact ⟨h.cutoff, h.cutoff_le, h.last, h.retry, h.handed⟩
  · exact h
  · exact h

/-- The last flush found the queue empty. -/
theorem leave (h : LastInv s) (hwork : WorkInv s) (hpc : s.worker = .drain true) (hempty : s.queue.items = []) :
    LastInv { s with worker := .deferred } where
  cutoff := h.cutoff
  cutoff_le := h.cutoff_le
  last _ := h.last (by rw [hpc]; rfl)
  retry hretry := absurd (h.retry hretry) (by simp [hpc])
  handed _ n _ := by
    have hretry : s.retryDone = false := by
      cases hretry : s.retryDone with
      | false => rfl
      | true => exact absurd (h.retry hretry) (by simp [hpc])
    obtain ⟨lost, hflow, hlost⟩ := hwork.flow
    have hall : s.appended = s.deliveries.map (·.item) := by
      rw [hflow, hlost hretry, hpc, hempty]
      simp [WorkerPC.rest]
    have hhanded : s.handed = s.deliveries :=
      List.filter_eq_self.mpr fun d hd => by simpa using hwork.idle (by rw [hpc]; rfl) hretry d hd
    change s.appended.take n <+: s.handed.map (·.item)
    rw [hhanded, ← hall]
    exact List.take_prefix n _

theorem work (h : LastInv s) (hwork : WorkInv s) (cancelled : Bool) (result : SendResult) :
    LastInv (s.work cancelled result) := by
  have hretry : s.worker ≠ .done → s.retryDone = false := fun hne => by
    cases hretry : s.retryDone with
    | false => rfl
    | true => exact absurd (h.retry hretry) hne
  have hlast : ∀ last, s.worker.isLast = last → last = true → s.runDone = true :=
    fun last heq hl => h.last (heq.trans hl)
  unfold DeliveryState.work
  cases hpc : s.worker with
  | select =>
      dsimp only
      split
      · next hdone => exact h.move ⟨rfl, rfl, rfl, rfl⟩ (fun _ => hdone.1) (by simp [hpc]) rfl
      · split
        · exact h
        · exact h.move ⟨rfl, rfl, rfl, rfl⟩ (fun hl => by cases hl) (by simp [hpc]) rfl
  | woken => exact h.move ⟨rfl, rfl, rfl, rfl⟩ id (by simp [hpc]) rfl
  | flush last =>
      rw [hretry (by simp [hpc])]
      exact h.move ⟨rfl, rfl, rfl, (hretry (by simp [hpc])).symm⟩ (hlast last (by rw [hpc]; rfl))
        (by simp [hpc]) rfl
  | drain last =>
      dsimp only
      split
      · next hempty =>
        cases last with
        | true => exact h.leave hwork hpc hempty
        | false => exact h.move ⟨rfl, rfl, rfl, rfl⟩ (fun hl => by cases hl) (by simp [hpc]) rfl
      · exact h.move ⟨rfl, rfl, rfl, rfl⟩ (hlast last (by rw [hpc]; rfl)) (by simp [hpc]) rfl
  | batch last rest =>
      cases rest with
      | nil => exact h.move ⟨rfl, rfl, rfl, rfl⟩ (hlast last (by rw [hpc]; rfl)) (by simp [hpc]) rfl
      | cons d rest =>
          rw [hretry (by simp [hpc])]
          exact h.move ⟨rfl, rfl, rfl, (hretry (by simp [hpc])).symm⟩ (hlast last (by rw [hpc]; rfl))
            (by simp [hpc]) rfl
  | attempt last rest d n =>
      rw [hretry (by simp [hpc])]
      refine h.move ⟨rfl, rfl, rfl, (hretry (by simp [hpc])).symm⟩ ?_ (by simp [hpc]) ?_
      · intro hl
        refine hlast last (by rw [hpc]; rfl) ?_
        by_cases hn : 0 < n
        · simpa [hn, WorkerPC.isLast] using hl
        · simpa [hn, WorkerPC.isLast] using hl
      · by_cases hn : 0 < n
        · simp [hn, WorkerPC.returned]
        · simp [hn, WorkerPC.returned]
  | backoff last rest d n =>
      rw [hretry (by simp [hpc])]
      refine h.move ⟨rfl, rfl, rfl, (hretry (by simp [hpc])).symm⟩ (hlast last (by rw [hpc]; rfl)) (by simp [hpc]) ?_
      simp [WorkerPC.returned]
  | recheck last rest d n =>
      rw [hretry (by simp [hpc])]
      exact h.move ⟨rfl, rfl, rfl, (hretry (by simp [hpc])).symm⟩ (hlast last (by rw [hpc]; rfl))
        (by simp [hpc]) rfl
  | send last rest d n =>
      refine h.move ⟨rfl, rfl, rfl, rfl⟩ ?_ (by simp [hpc]) ?_
      · intro hl
        refine hlast last (by rw [hpc]; rfl) ?_
        dsimp only at hl
        split at hl
        · exact hl
        · exact hl
      · dsimp only
        split
        · rfl
        · rfl
  | deferred =>
      refine ⟨h.cutoff, h.cutoff_le, fun _ => h.last (by rw [hpc]; rfl), fun _ => rfl, fun _ => ?_⟩
      exact h.handed (by rw [hpc]; rfl)
  | done => exact h

theorem step (h : LastInv s) (hwork : WorkInv s) {a : DeliveryAct τ} (ha : a.KeepsRetry) : LastInv (s.step a) := by
  cases a with
  | call item => exact ⟨h.cutoff, h.cutoff_le, h.last, h.retry, h.handed⟩
  | enqueue i => exact h.enqueue i
  | sealQueue => exact ⟨h.cutoff, h.cutoff_le, h.last, h.retry, h.handed⟩
  | beginShutdown closed =>
      cases closed with
      | true => exact ha.elim
      | false =>
          unfold DeliveryState.step
          dsimp only
          split
          · exact h
          · rw [Bool.or_false]
            exact ⟨h.cutoff, h.cutoff_le, h.last, h.retry, h.handed⟩
  | cancelRun =>
      unfold DeliveryState.step
      dsimp only
      split
      · exact h
      · next hdone =>
        -- a worker that saw the cancellation saw one that was there
        have hin : s.worker.isLast = false := by
          cases hl : s.worker.isLast with
          | false => rfl
          | true => exact absurd (h.last hl) hdone
        refine ⟨rfl, fun n hn => ?_, fun _ => rfl, h.retry, fun hr => ?_⟩
        · cases hn
          exact Nat.le_refl _
        · exfalso
          cases hpc : s.worker with
          | deferred => simp [hpc, WorkerPC.isLast] at hin
          | done => simp [hpc, WorkerPC.isLast] at hin
          | _ => simp [hpc, WorkerPC.returned] at hr
  | cancelRetry => exact ha.elim
  | work cancelled result => exact h.work hwork cancelled result

end LastInv

/-! ## Runs -/

/-- What holds in every state of a run. -/
structure Delivers (s : DeliveryState τ) : Prop where
  woken : s.worker = .select → s.queue.items ≠ [] → s.retryDone = false →
    s.queue.notify.full = true ∨ (∃ item, .notify item ∈ s.calls) ∨ s.runDone = true
  in_order : s.handed.map (·.item) <+: s.appended
  once : (s.appended.map (·.call)).Nodup
  attempts : ∀ d ∈ s.deliveries, d.results.length ≤ deliveryBackoff.length ∧
    ∀ r ∈ d.results.dropLast, r = .failed
  accepted : ∀ i item, s.calls[i]? = some (.returned item true) → ⟨i, item⟩ ∈ s.appended
  refused : ∀ i item, s.calls[i]? = some (.returned item false) → ∀ d ∈ s.deliveries, d.item.call ≠ i

theorem DeliveryInv.delivers (h : DeliveryInv s) : Delivers s where
  woken := h.woken
  in_order := h.work.handed_prefix
  once := h.calls.once
  attempts := h.work.fits
  accepted i item hi := h.calls.accepted i item (.inr hi)
  refused := by
    rintro i item hi d hd rfl
    have hmem : d.item ∈ s.appended := h.work.deliveries_prefix.subset (List.mem_map_of_mem hd)
    rcases h.calls.called d.item hmem with hcall | hcall
    · simp [hcall] at hi
    · simp [hcall] at hi

/-- Accepted deliveries are neither lost nor duplicated, in whatever order the calls, the worker
and the shutdown take their steps. -/
theorem deliveries_kept (capacity : ℤ) (acts : List (DeliveryAct τ)) :
    let s := run DeliveryState.step { queue := newDeliveryQueue τ capacity } acts
    Delivers s ∧ ((∀ a ∈ acts, a.KeepsRetry) → s.worker.returned = true →
      ∀ n ∈ s.cutoff, s.appended.take n <+: s.handed.map (·.item)) := by
  intro s
  have hrun : DeliveryInv s ∧ ((∀ a ∈ acts, a.KeepsRetry) → LastInv s) := by
    refine run_history (P := fun past s => DeliveryInv s ∧ ((∀ a ∈ past, a.KeepsRetry) → LastInv s))
      ⟨deliveryInv_new capacity, fun _ => .new capacity⟩ (fun past s a ih => ⟨ih.1.step a, fun hall => ?_⟩) acts
    have hpast := ih.2 fun b hb => hall b (List.mem_append_left _ hb)
    exact hpast.step ih.1.work (hall a (List.mem_append_right _ (List.mem_singleton_self a)))
  exact ⟨hrun.1.delivers, fun hall => (hrun.2 hall).handed⟩

/-- An item waits for a worker that was woken after the retry context expired. -/
theorem expired_worker_waits :
    let s := run DeliveryState.step { queue := newDeliveryQueue String 8 }
      [.call "mail", .enqueue 0, .enqueue 0, .cancelRetry, .work false .sent, .work false .sent, .work false .sent]
    s.worker = .select ∧ s.queue.items ≠ [] ∧ s.queue.notify.full = false ∧
      (∀ c ∈ s.calls, c = .returned "mail" true) ∧ s.runDone = false := by
  decide

end Scrumboy
