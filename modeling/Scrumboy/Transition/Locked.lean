import Scrumboy.Transition.Runs

/-!
# Operations under a lock

Operations on a store of which some take two steps: the first prepares something from what it
reads, and the second takes effect. Most of them hold a lock over their steps; others take
effect at once and do not ask for the lock. When each second step finds the store such that
the first would prepare the same again, the operations have taken effect one after the other.
-/

set_option linter.dupNamespace false

namespace Transition

variable {σ α β γ : Type*}

/-- The state and the results after operations one after the other. -/
def serially (f : σ → α → σ × β) (s : σ) (l : List α) : σ × List (α × β) :=
  l.foldl (fun t a => ((f t.1 a).1, t.2 ++ [(a, (f t.1 a).2)])) (s, [])

theorem serially_concat (f : σ → α → σ × β) (s : σ) (l : List α) (a : α) :
    serially f s (l ++ [a]) = ((f (serially f s l).1 a).1,
      (serially f s l).2 ++ [(a, (f (serially f s l).1 a).2)]) := by
  simp [serially]

/-- An operation takes effect at its start, or it prepares something there and takes effect
at its next step. -/
structure Operations (σ α β γ : Type*) where
  start : σ → α → (σ × β) ⊕ γ
  finish : σ → γ → σ × β

/-- The two steps of an operation with nothing between them. -/
def Operations.serial (ops : Operations σ α β γ) (s : σ) (a : α) : σ × β :=
  match ops.start s a with
  | .inl r => r
  | .inr g => ops.finish s g

/-- The store, the operation that holds the lock with what it has prepared, and the operations
that have returned, with their results. -/
structure Locked (σ α β γ : Type*) where
  store : σ
  holder : Option (α × Option γ) := none
  log : List (α × β) := []

inductive LockEvent (α : Type*)
  | lock (a : α)
  | step
  | free (a : α)

namespace Operations

variable (ops : Operations σ α β γ)

/-- An operation waits for the lock, the holder takes a step and gives the lock back when it
returns, or an operation without the lock takes effect. -/
def step (t : Locked σ α β γ) : LockEvent α → Locked σ α β γ
  | .lock a =>
      match t.holder with
      | none => { t with holder := some (a, none) }
      | some _ => t
  | .step =>
      match t.holder with
      | none => t
      | some (a, none) =>
          match ops.start t.store a with
          | .inl r => ⟨r.1, none, t.log ++ [(a, r.2)]⟩
          | .inr g => { t with holder := some (a, some g) }
      | some (a, some g) => ⟨(ops.finish t.store g).1, none, t.log ++ [(a, (ops.finish t.store g).2)]⟩
  | .free a => ⟨(ops.serial t.store a).1, t.holder, t.log ++ [(a, (ops.serial t.store a).2)]⟩

/-- A second step finds the store such that the first would prepare the same. -/
def Current (t : Locked σ α β γ) : LockEvent α → Prop
  | .step => ∀ a g, t.holder = some (a, some g) → ops.start t.store a = .inr g
  | _ => True

variable {ops} {t : Locked σ α β γ} {e : LockEvent α}

/-- What a step does: nothing to the store, or a whole operation. -/
theorem step_cases (h : ops.Current t e) :
    ((ops.step t e).store = t.store ∧ (ops.step t e).log = t.log) ∨
      ∃ a, (e = .free a ∨ e = .step ∧ ∃ g, t.holder = some (a, g)) ∧
        (ops.step t e).store = (ops.serial t.store a).1 ∧
        (ops.step t e).log = t.log ++ [(a, (ops.serial t.store a).2)] := by
  cases e with
  | lock a =>
      left
      dsimp only [step]
      cases t.holder <;> exact ⟨rfl, rfl⟩
  | free a => exact .inr ⟨a, .inl rfl, rfl, rfl⟩
  | step =>
      unfold step
      match hholder : t.holder with
      | none => exact .inl ⟨rfl, rfl⟩
      | some (a, none) =>
          dsimp only
          cases hstart : ops.start t.store a with
          | inl r => exact .inr ⟨a, .inr ⟨rfl, none, rfl⟩, by simp [serial, hstart], by simp [serial, hstart]⟩
          | inr g => exact .inl ⟨rfl, rfl⟩
      | some (a, some g) =>
          have hstart := h a g hholder
          exact .inr ⟨a, .inr ⟨rfl, some g, rfl⟩, by simp [serial, hstart], by simp [serial, hstart]⟩

/-- The operations that have returned ran one after the other. -/
theorem serially_step {s : σ} (ht : serially ops.serial s (t.log.map (·.1)) = (t.store, t.log))
    (h : ops.Current t e) :
    serially ops.serial s ((ops.step t e).log.map (·.1)) = ((ops.step t e).store, (ops.step t e).log) := by
  rcases step_cases h with ⟨hstore, hlog⟩ | ⟨a, _, hstore, hlog⟩
  · rw [hstore, hlog, ht]
  · rw [hstore, hlog, List.map_append, List.map_singleton, serially_concat, ht]

/-- What the holder of the lock has prepared comes from its first step. -/
def Prepared (ops : Operations σ α β γ) (t : Locked σ α β γ) : Prop :=
  ∀ a g, t.holder = some (a, some g) → ∃ s, ops.start s a = .inr g

theorem prepared_step (ht : ops.Prepared t) (e : LockEvent α) : ops.Prepared (ops.step t e) := by
  intro a g hholder
  cases e with
  | lock b =>
      dsimp only [step] at hholder
      cases hold : t.holder with
      | none =>
          rw [hold] at hholder
          cases hholder
      | some held =>
          rw [hold] at hholder
          exact ht a g hholder
  | free b => exact ht a g hholder
  | step =>
      dsimp only [step] at hholder
      match hold : t.holder with
      | none =>
          rw [hold] at hholder
          exact ht a g hholder
      | some (b, none) =>
          rw [hold] at hholder
          dsimp only at hholder
          cases hstart : ops.start t.store b with
          | inl r =>
              rw [hstart] at hholder
              cases hholder
          | inr g' =>
              rw [hstart] at hholder
              cases hholder
              exact ⟨t.store, hstart⟩
      | some (b, some g') =>
          rw [hold] at hholder
          cases hholder

end Operations

end Transition
