import Mathlib.Data.List.Basic
import Mathlib.Data.Prod.Basic

/-!
# Simple graphs as edge lists

A graph is kept as a list of edges, and `ends` reads the two vertices off an
edge. The direction of an edge carries no meaning. `IsSimple` says that the
edges join present vertices, that there are no loops, and that no two edges join
the same pair; the rules below say how insertion of an edge, deletion of edges
and deletion of a vertex with its incident edges keep it.
-/

namespace Graph

variable {ε ν : Type*} {ends : ε → ν × ν} {V W : Set ν} {es fs : List ε}

/-- Two edges join the same unordered pair of vertices. -/
def SamePair (a b : ν × ν) : Prop := a = b ∨ a = b.swap

theorem samePair_equivalence : Equivalence (@SamePair ν) where
  refl a := .inl rfl
  symm h := by
    rcases h with rfl | rfl
    · exact .inl rfl
    · exact .inr (Prod.swap_swap _).symm
  trans h h' := by
    rcases h with rfl | rfl
    · exact h'
    · rcases h' with rfl | rfl
      · exact .inr rfl
      · exact .inl (Prod.swap_swap _)

instance [DecidableEq ν] (a b : ν × ν) : Decidable (SamePair a b) :=
  inferInstanceAs (Decidable (_ ∨ _))

structure IsSimple (ends : ε → ν × ν) (V : Set ν) (es : List ε) : Prop where
  anchored : ∀ e ∈ es, (ends e).1 ∈ V ∧ (ends e).2 ∈ V
  loopless : ∀ e ∈ es, (ends e).1 ≠ (ends e).2
  pairs : es.Pairwise fun e f => ¬ SamePair (ends e) (ends f)

theorem IsSimple.nil : IsSimple ends V [] := ⟨by simp, by simp, .nil⟩

/-- Deleting edges. -/
theorem IsSimple.sublist (h : IsSimple ends V es) (hsub : fs.Sublist es) : IsSimple ends V fs where
  anchored e he := h.anchored e (hsub.subset he)
  loopless e he := h.loopless e (hsub.subset he)
  pairs := h.pairs.sublist hsub

/-- Changing the set of vertices around the edges. -/
theorem IsSimple.mono (h : IsSimple ends V es)
    (hV : ∀ e ∈ es, (ends e).1 ∈ V → (ends e).2 ∈ V → (ends e).1 ∈ W ∧ (ends e).2 ∈ W) :
    IsSimple ends W es where
  anchored e he := hV e he (h.anchored e he).1 (h.anchored e he).2
  loopless := h.loopless
  pairs := h.pairs

/-- Inserting an edge between two present vertices that no edge joins yet. -/
theorem IsSimple.concat (h : IsSimple ends V es) {e : ε} (hfst : (ends e).1 ∈ V)
    (hsnd : (ends e).2 ∈ V) (hloop : (ends e).1 ≠ (ends e).2)
    (hnew : ∀ f ∈ es, ¬ SamePair (ends f) (ends e)) : IsSimple ends V (es ++ [e]) where
  anchored f hf := by
    rcases List.mem_append.mp hf with hf | hf
    · exact h.anchored f hf
    · rw [List.mem_singleton.mp hf]
      exact ⟨hfst, hsnd⟩
  loopless f hf := by
    rcases List.mem_append.mp hf with hf | hf
    · exact h.loopless f hf
    · rw [List.mem_singleton.mp hf]
      exact hloop
  pairs := by
    rw [List.pairwise_append]
    refine ⟨h.pairs, List.pairwise_singleton _ _, ?_⟩
    intro f hf g hg
    rw [List.mem_singleton.mp hg]
    exact hnew f hf

/-- Deleting a vertex together with its incident edges: any smaller set of
vertices will do that keeps every vertex but the deleted one. -/
theorem IsSimple.delete_vertex (h : IsSimple ends V es) {v : ν} {p : ε → Bool}
    (hp : ∀ e, p e = true → (ends e).1 ≠ v ∧ (ends e).2 ≠ v)
    (hW : ∀ x ∈ V, x ≠ v → x ∈ W) : IsSimple ends W (es.filter p) := by
  refine (h.sublist List.filter_sublist).mono fun e he hfst hsnd => ?_
  have hkept := hp e (List.mem_filter.mp he).2
  exact ⟨hW _ hfst hkept.1, hW _ hsnd hkept.2⟩

end Graph
