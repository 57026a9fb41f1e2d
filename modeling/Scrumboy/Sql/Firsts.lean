import Mathlib.Data.List.Nodup
import Mathlib.Data.List.Induction

/-!
# First of its key

A loop that goes through a list and keeps an element when no kept element has its key, as a
program does with a map of the keys that it has seen. What it keeps are the elements whose
key no earlier element of the list has.
-/

namespace Sql

variable {α κ : Type*} [DecidableEq κ]

/-- The elements of a list whose key is new, in their order. -/
def firsts (key : α → κ) (l : List α) : List α :=
  l.foldl (fun kept a => if key a ∈ kept.map key then kept else kept ++ [a]) []

@[simp] theorem firsts_nil (key : α → κ) : firsts key [] = [] := rfl

theorem firsts_concat (key : α → κ) (l : List α) (a : α) :
    firsts key (l ++ [a]) =
      if key a ∈ (firsts key l).map key then firsts key l else firsts key l ++ [a] := by
  simp [firsts]

theorem firsts_sublist (key : α → κ) (l : List α) : (firsts key l).Sublist l := by
  induction l using List.reverseRecOn with
  | nil => exact .refl _
  | append_singleton l a ih =>
      rw [firsts_concat]
      split
      · exact ih.trans (List.sublist_append_left _ _)
      · exact ih.append (.refl _)

theorem mem_map_firsts (key : α → κ) (l : List α) (k : κ) :
    k ∈ (firsts key l).map key ↔ k ∈ l.map key := by
  induction l using List.reverseRecOn with
  | nil => rfl
  | append_singleton l a ih =>
      rw [firsts_concat, List.map_append, List.mem_append, List.map_singleton, List.mem_singleton]
      split
      · rename_i hseen
        rw [ih]
        refine ⟨.inl, fun h => h.elim id ?_⟩
        rintro rfl
        exact ih.mp hseen
      · simp [ih]

/-- No two kept elements have the same key. -/
theorem nodup_map_firsts (key : α → κ) (l : List α) : ((firsts key l).map key).Nodup := by
  induction l using List.reverseRecOn with
  | nil => exact .nil
  | append_singleton l a ih =>
      rw [firsts_concat]
      split
      · exact ih
      · rename_i hnew
        rw [List.map_append, List.nodup_append]
        refine ⟨ih, List.nodup_singleton _, fun x hx y hy => ?_⟩
        rintro rfl
        exact hnew (List.mem_singleton.mp hy ▸ hx)

theorem mem_firsts {key : α → κ} {l : List α} {a : α} :
    a ∈ firsts key l ↔ ∃ l₁ l₂, l = l₁ ++ a :: l₂ ∧ key a ∉ l₁.map key := by
  induction l using List.reverseRecOn with
  | nil => simp
  | append_singleton l b ih =>
      have hmem : a ∈ firsts key (l ++ [b]) ↔
          a ∈ firsts key l ∨ a = b ∧ key b ∉ l.map key := by
        rw [firsts_concat, ← mem_map_firsts key l (key b)]
        split
        · rename_i hseen
          exact ⟨.inl, fun h => h.elim id fun h => absurd hseen h.2⟩
        · rename_i hnew
          simp [hnew]
      rw [hmem, ih]
      constructor
      · rintro (⟨l₁, l₂, rfl, hnew⟩ | ⟨rfl, hnew⟩)
        · exact ⟨l₁, l₂ ++ [b], by simp, hnew⟩
        · exact ⟨l, [], rfl, hnew⟩
      · rintro ⟨l₁, l₂, heq, hnew⟩
        rcases List.eq_nil_or_concat l₂ with rfl | ⟨l₂, c, rfl⟩
        · obtain ⟨rfl, hab⟩ := List.append_inj' heq rfl
          obtain rfl := List.singleton_injective hab
          exact .inr ⟨rfl, hnew⟩
        · rw [List.concat_eq_append, ← List.cons_append, ← List.append_assoc] at heq
          obtain ⟨rfl, _⟩ := List.append_inj' heq rfl
          exact .inl ⟨l₁, l₂, rfl, hnew⟩

/-- A kept element is known by its key. -/
theorem eq_of_mem_firsts {key : α → κ} {l : List α} {a b : α} (ha : a ∈ firsts key l)
    (hb : b ∈ firsts key l) (h : key a = key b) : a = b :=
  List.inj_on_of_nodup_map (nodup_map_firsts key l) ha hb h

/-- Under an equivalence that respects the keys, the first element of each class is kept
exactly when the keys tell the classes apart. -/
theorem firsts_keep_classes_iff {key : α → κ} {r : α → α → Prop} [DecidableRel r] (hr : Equivalence r)
    (hkey : ∀ a b, r a b → key a = key b) (l : List α) :
    (∀ l₁ a l₂, l = l₁ ++ a :: l₂ → (∀ b ∈ l₁, ¬ r b a) → a ∈ firsts key l) ↔
      ∀ a ∈ l, ∀ b ∈ l, key a = key b → r a b := by
  constructor
  · intro h
    have hfirst : ∀ a ∈ l, ∃ b ∈ firsts key l, r a b := by
      intro a ha
      obtain ⟨b, hb⟩ := Option.isSome_iff_exists.mp
        (List.find?_isSome (p := fun b => decide (r b a)) |>.mpr ⟨a, ha, by simpa using hr.refl a⟩)
      obtain ⟨hba, l₁, l₂, hl, hbefore⟩ := List.find?_eq_some_iff_append.mp hb
      refine ⟨b, h l₁ b l₂ hl fun c hc hcb => ?_, hr.symm (by simpa using hba)⟩
      have hnot := hbefore c hc
      simp only [Bool.not_eq_true', decide_eq_false_iff_not] at hnot
      exact hnot (hr.trans hcb (by simpa using hba))
    intro a ha b hb hab
    obtain ⟨a', ha', haa'⟩ := hfirst a ha
    obtain ⟨b', hb', hbb'⟩ := hfirst b hb
    have hkeys : key a' = key b' := by rw [← hkey a a' haa', ← hkey b b' hbb', hab]
    obtain rfl := eq_of_mem_firsts ha' hb' hkeys
    exact hr.trans haa' (hr.symm hbb')
  · intro h l₁ a l₂ hl hnew
    refine mem_firsts.mpr ⟨l₁, l₂, hl, fun hin => ?_⟩
    obtain ⟨b, hb, hba⟩ := List.mem_map.mp hin
    exact hnew b hb (h b (by simp [hl, hb]) a (by simp [hl]) hba)

end Sql
