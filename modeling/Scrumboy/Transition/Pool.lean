import Scrumboy.Transition.Runs
import Mathlib.Data.List.Basic

/-!
# Processes on a shared state

Any number of processes that take steps on one shared state. A step of a process reads
and writes the shared state and leaves the process at its next place; a schedule says
which process takes the next step, and what the environment gives it.

`Pool.Inv` is an invariant in two parts: what holds of the shared state, and what each
process knows at its place. A step has to keep the first part, to establish the second
for the process that takes it, and not to spoil it for the others. `PairInv` adds what holds
between any two of the processes, where not to spoil it may need that they are two.
`countP_step` follows the number of processes at certain places.
-/

namespace Transition

variable {σ ρ α : Type*}

structure Pool (σ ρ : Type*) where
  shared : σ
  procs : List ρ

namespace Pool

/-- The next step of process `i`; there may be no such process. -/
def step (f : σ → ρ → α → σ × ρ) (s : Pool σ ρ) (ia : ℕ × α) : Pool σ ρ :=
  match s.procs[ia.1]? with
  | none => s
  | some p => ⟨(f s.shared p ia.2).1, s.procs.set ia.1 (f s.shared p ia.2).2⟩

theorem step_of_none {f : σ → ρ → α → σ × ρ} {s : Pool σ ρ} {i : ℕ} {a : α} (h : s.procs[i]? = none) :
    s.step f (i, a) = s := by
  rw [step, h]

theorem step_of_some {f : σ → ρ → α → σ × ρ} {s : Pool σ ρ} {i : ℕ} {a : α} {p : ρ}
    (h : s.procs[i]? = some p) :
    s.step f (i, a) = ⟨(f s.shared p a).1, s.procs.set i (f s.shared p a).2⟩ := by
  rw [step, h]

structure Inv (I : σ → Prop) (P : σ → ρ → Prop) (s : Pool σ ρ) : Prop where
  shared : I s.shared
  procs : ∀ p ∈ s.procs, P s.shared p

theorem Inv.step {I : σ → Prop} {P : σ → ρ → Prop} {f : σ → ρ → α → σ × ρ} {s : Pool σ ρ} {i : ℕ}
    {a : α} (h : s.Inv I P)
    (hf : ∀ p, s.procs[i]? = some p → P s.shared p →
      I (f s.shared p a).1 ∧ P (f s.shared p a).1 (f s.shared p a).2 ∧
        ∀ q, P s.shared q → P (f s.shared p a).1 q) :
    (s.step f (i, a)).Inv I P := by
  cases hp : s.procs[i]? with
  | none =>
      rw [step_of_none hp]
      exact h
  | some p =>
      obtain ⟨hshared, hself, hothers⟩ := hf p hp (h.procs p (List.mem_of_getElem? hp))
      rw [step_of_some hp]
      refine ⟨hshared, fun q hq => ?_⟩
      rcases List.mem_or_eq_of_mem_set hq with hq | rfl
      · exact hothers q (h.procs q hq)
      · exact hself

structure PairInv (I : σ → Prop) (P : σ → ρ → Prop) (R : ρ → ρ → Prop) (s : Pool σ ρ) : Prop
    extends s.Inv I P where
  pairs : ∀ (i j : ℕ) p q, i ≠ j → s.procs[i]? = some p → s.procs[j]? = some q → R p q

theorem PairInv.step {I : σ → Prop} {P : σ → ρ → Prop} {R : ρ → ρ → Prop} {f : σ → ρ → α → σ × ρ}
    {s : Pool σ ρ} {i : ℕ} {a : α} (h : s.PairInv I P R) (hsymm : ∀ p q, R p q → R q p)
    (hf : ∀ p, s.procs[i]? = some p → P s.shared p →
      I (f s.shared p a).1 ∧ P (f s.shared p a).1 (f s.shared p a).2 ∧
        ∀ q, R p q → P s.shared q → P (f s.shared p a).1 q ∧ R (f s.shared p a).2 q) :
    (s.step f (i, a)).PairInv I P R := by
  cases hp : s.procs[i]? with
  | none =>
      rw [step_of_none hp]
      exact h
  | some p =>
      obtain ⟨hshared, hself, hothers⟩ := hf p hp (h.procs p (List.mem_of_getElem? hp))
      rw [step_of_some hp]
      -- a process at another place is as before, and it is not the one that took the step
      have hother : ∀ j q, i ≠ j → (s.procs.set i (f s.shared p a).2)[j]? = some q →
          P (f s.shared p a).1 q ∧ R (f s.shared p a).2 q := by
        intro j q hij hq
        rw [List.getElem?_set_ne hij] at hq
        exact hothers q (h.pairs i j p q hij hp hq) (h.procs q (List.mem_of_getElem? hq))
      have hat : ∀ q, (s.procs.set i (f s.shared p a).2)[i]? = some q → q = (f s.shared p a).2 := by
        intro q hq
        rw [List.getElem?_set_self (List.getElem?_eq_some_iff.mp hp).1] at hq
        exact (Option.some.inj hq).symm
      refine ⟨⟨hshared, fun q hq => ?_⟩, fun j k q r hjk hq hr => ?_⟩
      · obtain ⟨j, hq⟩ := List.getElem?_of_mem hq
        by_cases hij : i = j
        · subst hij
          exact hat q hq ▸ hself
        · exact (hother j q hij hq).1
      · dsimp only at hq hr
        by_cases hij : i = j
        · subst hij
          exact hat q hq ▸ (hother k r hjk hr).2
        · by_cases hik : i = k
          · subst hik
            exact hsymm _ _ (hat r hr ▸ (hother j q hij hq).2)
          · rw [List.getElem?_set_ne hij] at hq
            rw [List.getElem?_set_ne hik] at hr
            exact h.pairs j k q r hjk hq hr

/-- The number of processes at places that `q` selects, around a step. -/
theorem countP_step {f : σ → ρ → α → σ × ρ} {s : Pool σ ρ} {i : ℕ} {a : α} {p : ρ}
    (h : s.procs[i]? = some p) (q : ρ → Bool) :
    (s.step f (i, a)).procs.countP q + (if q p then 1 else 0) =
      s.procs.countP q + if q (f s.shared p a).2 then 1 else 0 := by
  obtain ⟨hi, hget⟩ := List.getElem?_eq_some_iff.mp h
  have hpos : q p = true → 0 < s.procs.countP q := fun hp =>
    List.countP_pos_iff.mpr ⟨p, List.mem_of_getElem? h, hp⟩
  rw [step_of_some h, List.countP_set hi, hget]
  split
  · rename_i hp
    have hp := hpos hp
    omega
  · rfl

end Pool

end Transition
