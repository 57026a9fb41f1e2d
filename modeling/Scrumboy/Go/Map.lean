import Mathlib.Algebra.BigOperators.Group.List.Basic
import Mathlib.Algebra.Order.Group.Int
import Mathlib.Algebra.Ring.Int.Defs
import Mathlib.Data.List.AList

/-!
# Maps

A map with an entry for each of finitely many keys. `m.get k` is `m[k]`, which is the zero
value for a key without an entry, and `total` adds up a number for each entry.
-/

namespace Go

abbrev Map (κ ν : Type) := AList fun _ : κ => ν

namespace Map

variable {κ ν : Type}

def total (f : ν → ℤ) (m : Map κ ν) : ℤ := (m.entries.map fun e => f e.2).sum

variable [DecidableEq κ]

def get [Zero ν] (m : Map κ ν) (k : κ) : ν := (m.lookup k).getD 0

theorem sum_kerase (f : ν → ℤ) (k : κ) (l : List (Sigma fun _ : κ => ν)) :
    (l.map fun e => f e.2).sum =
      (l.dlookup k).elim 0 f + ((l.kerase k).map fun e => f e.2).sum := by
  induction l with
  | nil => simp
  | cons e l ih =>
      obtain ⟨k', v⟩ := e
      by_cases hk : k = k'
      · subst hk
        simp
      · rw [List.dlookup_cons_ne _ _ hk, List.kerase_cons_ne hk, List.map_cons, List.sum_cons, ih,
          List.map_cons, List.sum_cons]
        exact add_left_comm _ _ _

/-- The entry of one key and the entries of the others. -/
theorem total_eq_add_erase (f : ν → ℤ) (k : κ) (m : Map κ ν) :
    total f m = (m.lookup k).elim 0 f + total f (m.erase k) :=
  sum_kerase f k m.entries

theorem total_insert (f : ν → ℤ) (k : κ) (v : ν) (m : Map κ ν) :
    total f (m.insert k v) = f v + total f (m.erase k) := by
  unfold total
  rw [AList.entries_insert, List.map_cons, List.sum_cons]
  rfl

section

variable [Zero ν] {k k' : κ} (m : Map κ ν) (v : ν)

@[simp] theorem get_insert : get (m.insert k v) k = v := by
  simp [get]

theorem get_insert_of_ne (h : k' ≠ k) : get (m.insert k v) k' = get m k' := by
  simp [get, AList.lookup_insert_ne h]

@[simp] theorem get_erase : get (m.erase k) k = 0 := by
  simp [get]

theorem get_erase_of_ne (h : k' ≠ k) : get (m.erase k) k' = get m k' := by
  simp [get, AList.lookup_erase_ne h]

end

end Map

end Go
