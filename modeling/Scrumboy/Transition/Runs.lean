import Mathlib.Data.List.Induction

/-!
# Runs of a transition function

A system whose step is a function of the state and an input, and its runs on
lists of inputs. `run_history` is induction over a run from its beginning, with
the inputs seen so far in view; `run_along` is the rule for an invariant that a
step keeps only under a condition on the state before it.
-/

namespace Transition

variable {σ α : Type*}

/-- The state after a list of inputs. -/
def run (step : σ → α → σ) (s : σ) (l : List α) : σ := l.foldl step s

@[simp] theorem run_nil (step : σ → α → σ) (s : σ) : run step s [] = s := rfl

@[simp] theorem run_cons (step : σ → α → σ) (s : σ) (a : α) (l : List α) :
    run step s (a :: l) = run step (step s a) l := rfl

@[simp] theorem run_concat (step : σ → α → σ) (s : σ) (l : List α) (a : α) :
    run step s (l ++ [a]) = step (run step s l) a := by
  simp [run]

theorem run_append (step : σ → α → σ) (s : σ) (l₁ l₂ : List α) :
    run step s (l₁ ++ l₂) = run step (run step s l₁) l₂ := by
  simp [run]

theorem run_history {step : σ → α → σ} {P : List α → σ → Prop} {s : σ} (h0 : P [] s)
    (hstep : ∀ past s a, P past s → P (past ++ [a]) (step s a)) (l : List α) :
    P l (run step s l) := by
  induction l using List.reverseRecOn with
  | nil => exact h0
  | append_singleton l a ih =>
      rw [run_concat]
      exact hstep l _ a ih

/-- Every step of the run meets the condition `C` on the state before it. -/
def Along (C : σ → α → Prop) (step : σ → α → σ) : σ → List α → Prop
  | _, [] => True
  | s, a :: l => C s a ∧ Along C step (step s a) l

instance Along.decidable {C : σ → α → Prop} [∀ s a, Decidable (C s a)] {step : σ → α → σ} :
    ∀ s l, Decidable (Along C step s l)
  | _, [] => .isTrue trivial
  | s, a :: l =>
      have : Decidable (Along C step (step s a) l) := Along.decidable (step s a) l
      inferInstanceAs (Decidable (C s a ∧ Along C step (step s a) l))

theorem Along.of_append {C : σ → α → Prop} {step : σ → α → σ} {s : σ} {l₁ l₂ : List α}
    (h : Along C step s (l₁ ++ l₂)) : Along C step s l₁ := by
  induction l₁ generalizing s with
  | nil => trivial
  | cons a l₁ ih => exact ⟨h.1, ih h.2⟩

theorem Along.drop {C : σ → α → Prop} {step : σ → α → σ} {s : σ} {l₁ l₂ : List α}
    (h : Along C step s (l₁ ++ l₂)) : Along C step (run step s l₁) l₂ := by
  induction l₁ generalizing s with
  | nil => exact h
  | cons a l₁ ih => exact ih h.2

theorem along_concat {C : σ → α → Prop} {step : σ → α → σ} {s : σ} {l : List α} {a : α} :
    Along C step s (l ++ [a]) ↔ Along C step s l ∧ C (run step s l) a := by
  induction l generalizing s with
  | nil => exact ⟨fun h => ⟨trivial, h.1⟩, fun h => ⟨h.2, trivial⟩⟩
  | cons b l ih => exact (and_congr_right fun _ => ih).trans and_assoc.symm

theorem run_along {step : σ → α → σ} {I : σ → Prop} {C : σ → α → Prop}
    (hstep : ∀ s a, I s → C s a → I (step s a)) {s : σ} {l : List α} (hs : I s)
    (hl : Along C step s l) : I (run step s l) := by
  induction l generalizing s with
  | nil => exact hs
  | cons a l ih => exact ih (hstep s a hs hl.1) hl.2

/-- A preorder that every step follows holds between any two states of a run. -/
theorem run_rel {step : σ → α → σ} {I : σ → Prop} {C : σ → α → Prop} {R : σ → σ → Prop}
    (hrefl : ∀ s, R s s) (htrans : ∀ s₁ s₂ s₃, R s₁ s₂ → R s₂ s₃ → R s₁ s₃)
    (hstep : ∀ s a, I s → C s a → I (step s a) ∧ R s (step s a)) {s : σ} {l₁ l₂ : List α} (hs : I s)
    (hl : Along C step s (l₁ ++ l₂)) : R (run step s l₁) (run step s (l₁ ++ l₂)) := by
  have hfirst : I (run step s l₁) := run_along (fun s a hs hC => (hstep s a hs hC).1) hs hl.of_append
  have hrest := hl.drop
  rw [run_append]
  generalize run step s l₁ = t at hfirst hrest
  clear hl
  induction l₂ generalizing t with
  | nil => exact hrefl t
  | cons a l₂ ih =>
      obtain ⟨hnext, hrel⟩ := hstep t a hfirst hrest.1
      exact htrans _ _ _ hrel (ih _ hnext hrest.2)

/-- What the steps of a run give out, in order. -/
def outputs {β : Type*} (step : σ → α → σ) (out : σ → α → List β) : σ → List α → List β
  | _, [] => []
  | s, a :: l => out s a ++ outputs step out (step s a) l

theorem outputs_concat {β : Type*} {step : σ → α → σ} {out : σ → α → List β} {s : σ} {l : List α} {a : α} :
    outputs step out s (l ++ [a]) = outputs step out s l ++ out (run step s l) a := by
  induction l generalizing s with
  | nil => exact List.append_nil _
  | cons b l ih => rw [List.cons_append, outputs, outputs, ih, List.append_assoc, run_cons]

end Transition
