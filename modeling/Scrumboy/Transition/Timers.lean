import Mathlib.Data.List.Basic

/-!
# Timers and their handles

A program arms a timer, keeps the handle in a variable, and cancels the timer through it. `Held`
says that no timer is pending but the ones in the variables, one for each kind: clearing a
variable together with its timer then leaves no timer of that kind behind.
-/

set_option linter.dupNamespace false

namespace Transition

variable {κ ι : Type*}

/-- The pending timers with their handles and what they are for. -/
structure Timers (κ : Type*) where
  pending : List (ℕ × κ) := []
  next : ℕ := 0
  deriving DecidableEq, Repr

namespace Timers

/-- A new timer, whose handle is `next`. -/
def set (timers : Timers κ) (k : κ) : Timers κ where
  pending := timers.pending ++ [(timers.next, k)]
  next := timers.next + 1

/-- Cancel the timer with the handle; one that is gone, or no handle, does nothing. -/
def clear (timers : Timers κ) (handle : Option ℕ) : Timers κ :=
  { timers with pending := timers.pending.filter (some ·.1 != handle) }

/-- What the timer with the handle is for, while it is pending. -/
def find? (timers : Timers κ) (handle : ℕ) : Option κ :=
  (timers.pending.find? (·.1 == handle)).map (·.2)

/-- Every pending timer is in the variable of its kind. -/
def Held (timers : Timers κ) (kind : κ → ι) (held : ι → Option ℕ) : Prop :=
  ∀ t ∈ timers.pending, held (kind t.2) = some t.1

theorem mem_pending_clear {timers : Timers κ} {handle : Option ℕ} {t : ℕ × κ} :
    t ∈ (timers.clear handle).pending ↔ t ∈ timers.pending ∧ some t.1 ≠ handle := by
  rw [clear, List.mem_filter, bne_iff_ne]

theorem mem_of_find? {timers : Timers κ} {handle : ℕ} {k : κ} (h : timers.find? handle = some k) :
    (handle, k) ∈ timers.pending := by
  obtain ⟨t, ht, rfl⟩ := Option.map_eq_some_iff.mp h
  have hhandle : (t.1 == handle) = true :=
    List.find?_some (p := fun u : ℕ × κ => u.1 == handle) ht
  rw [beq_iff_eq] at hhandle
  exact hhandle ▸ List.mem_of_find?_eq_some ht

variable {timers : Timers κ} {kind : κ → ι} {held held' : ι → Option ℕ}

theorem Held.clear_other (h : timers.Held kind held) (handle : Option ℕ) :
    (timers.clear handle).Held kind held :=
  fun t ht => h t (mem_pending_clear.mp ht).1

/-- A timer that is cleared through its variable is gone, whatever the variable holds then. -/
theorem Held.clear (h : timers.Held kind held) (i : ι) (hrest : ∀ j, j ≠ i → held' j = held j) :
    (timers.clear (held i)).Held kind held' := by
  intro t ht
  obtain ⟨hmem, hne⟩ := mem_pending_clear.mp ht
  have hkind : kind t.2 ≠ i := by
    rintro rfl
    exact hne (h t hmem).symm
  rw [hrest _ hkind]
  exact h t hmem

/-- A new timer goes into the variable of its kind, which was empty. -/
theorem Held.set (h : timers.Held kind held) {k : κ} (hnone : held (kind k) = none)
    (hself : held' (kind k) = some timers.next) (hrest : ∀ j, j ≠ kind k → held' j = held j) :
    (timers.set k).Held kind held' := by
  intro t ht
  rcases List.mem_append.mp ht with hmem | hmem
  · have hkind : kind t.2 ≠ kind k := by
      intro heq
      have hheld := h t hmem
      rw [heq, hnone] at hheld
      cases hheld
    rw [hrest _ hkind]
    exact h t hmem
  · rw [List.mem_singleton.mp hmem]
    exact hself

/-- A timer that fires is gone, whatever its variable holds then. -/
theorem Held.fire (h : timers.Held kind held) {handle : ℕ} {k : κ}
    (hfind : timers.find? handle = some k) (hrest : ∀ j, j ≠ kind k → held' j = held j) :
    (timers.clear (some handle)).Held kind held' := by
  rw [← h _ (mem_of_find? hfind)]
  exact h.clear (kind k) hrest

/-- Without a timer in the variables there is none. -/
theorem Held.pending_eq_nil (h : timers.Held kind held) (hnone : ∀ i, held i = none) :
    timers.pending = [] := by
  rw [List.eq_nil_iff_forall_not_mem]
  intro t ht
  have hheld := h t ht
  rw [hnone] at hheld
  cases hheld

end Timers

end Transition
