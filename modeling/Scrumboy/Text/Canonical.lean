import Mathlib.Logic.Relation

/-!
# Texts that are canonically equivalent

A character may be written as itself or as what it is composed of, and characters that combine with
the one before them may stand in either order. A reader that does not tell these apart reads
equivalent texts alike.
-/

namespace Canonical

variable {α σ : Type*}

/-- What the characters are composed of, and which of them combine with the one before. -/
structure Table (α : Type*) where
  decompose : α → List α
  combines : α → Prop

/-- One character is taken apart, or two are exchanged. -/
inductive Step (t : Table α) : List α → List α → Prop
  | decompose (before after : List α) (c : α) :
      Step t (before ++ c :: after) (before ++ (t.decompose c ++ after))
  | exchange (before after : List α) {c d : α} (hc : t.combines c) (hd : t.combines d) :
      Step t (before ++ c :: d :: after) (before ++ d :: c :: after)

def Equivalent (t : Table α) : List α → List α → Prop := Relation.EqvGen (Step t)

variable {t : Table α} {l l' : List α}

theorem Equivalent.refl (l : List α) : Equivalent t l l := Relation.EqvGen.refl l

theorem Equivalent.symm (h : Equivalent t l l') : Equivalent t l' l := Relation.EqvGen.symm _ _ h

theorem Equivalent.trans {l'' : List α} (h : Equivalent t l l') (h' : Equivalent t l' l'') :
    Equivalent t l l'' := Relation.EqvGen.trans _ _ _ h h'

theorem Step.cons (h : Step t l l') (c : α) : Step t (c :: l) (c :: l') := by
  cases h with
  | decompose before after d => exact .decompose (c :: before) after d
  | exchange before after ha hb => exact .exchange (c :: before) after ha hb

theorem Equivalent.cons (h : Equivalent t l l') (c : α) : Equivalent t (c :: l) (c :: l') := by
  induction h with
  | rel _ _ hstep => exact .rel _ _ (hstep.cons c)
  | refl _ => exact .refl _
  | symm _ _ _ ih => exact ih.symm
  | trans _ _ _ _ _ ih ih' => exact ih.trans ih'

/-- A reader for which a character is what it is composed of, and which does not see the order of
combining characters, ends in the same state. -/
theorem Equivalent.foldl_eq {f : σ → α → σ} (hdecompose : ∀ s c, (t.decompose c).foldl f s = f s c)
    (hexchange : ∀ s c d, t.combines c → t.combines d → f (f s c) d = f (f s d) c)
    (h : Equivalent t l l') (s : σ) : l.foldl f s = l'.foldl f s := by
  induction h with
  | rel _ _ hstep =>
      cases hstep with
      | decompose before after c =>
          rw [List.foldl_append, List.foldl_append, List.foldl_append, hdecompose, List.foldl_cons]
      | exchange before after hc hd =>
          rw [List.foldl_append, List.foldl_append, List.foldl_cons, List.foldl_cons, List.foldl_cons,
            List.foldl_cons, hexchange _ _ _ hc hd]
  | refl _ => rfl
  | symm _ _ _ ih => exact ih.symm
  | trans _ _ _ _ _ ih ih' => exact ih.trans ih'

end Canonical
