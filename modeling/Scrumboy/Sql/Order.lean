import Scrumboy.Sql.Table
import Mathlib.Data.Prod.Lex

/-!
# Ordered reads

`orderBy key t` is the result of a query with an `ORDER BY` clause, a stable sort
of the rows by a key. When the keys of a table tell its rows apart, the place of
a row in the sorted list carries exactly the information of its key, which is
what a renumbering of the rows by their places relies on.
-/

namespace Sql

variable {α β κ : Type*} [LinearOrder κ]

/-- `SELECT … ORDER BY key`. -/
def orderBy (key : α → κ) (t : List α) : List α :=
  t.insertionSort fun a b => key a ≤ key b

theorem orderBy_perm (key : α → κ) (t : List α) : (orderBy key t).Perm t :=
  List.perm_insertionSort _ t

@[simp] theorem mem_orderBy {key : α → κ} {t : List α} {a : α} : a ∈ orderBy key t ↔ a ∈ t :=
  (orderBy_perm key t).mem_iff

@[simp] theorem length_orderBy (key : α → κ) (t : List α) :
    (orderBy key t).length = t.length :=
  (orderBy_perm key t).length_eq

theorem pairwise_orderBy (key : α → κ) (t : List α) :
    (orderBy key t).Pairwise fun a b => key a ≤ key b := by
  have htotal : Std.Total fun a b : α => key a ≤ key b :=
    ⟨fun a b => le_total (key a) (key b)⟩
  have htrans : IsTrans α fun a b : α => key a ≤ key b :=
    ⟨fun _ _ _ hab hbc => le_trans hab hbc⟩
  exact List.pairwise_insertionSort _ t

theorem orderedInsert_concat {key : α → κ} {a x : α} (h : key a ≤ key x) (l : List α) :
    (l ++ [x]).orderedInsert (fun a b => key a ≤ key b) a =
      l.orderedInsert (fun a b => key a ≤ key b) a ++ [x] := by
  induction l with
  | nil => simp [h]
  | cons b l ih =>
      rw [List.cons_append, List.orderedInsert_cons, List.orderedInsert_cons, ih]
      split <;> rfl

/-- A row with the largest key comes last. -/
theorem orderBy_concat {key : α → κ} {t : List α} {x : α} (h : ∀ a ∈ t, key a ≤ key x) :
    orderBy key (t ++ [x]) = orderBy key t ++ [x] := by
  induction t with
  | nil => rfl
  | cons a t ih =>
      have ih := ih fun b hb => h b (List.mem_cons_of_mem a hb)
      unfold orderBy at ih ⊢
      rw [List.cons_append, List.insertionSort_cons, List.insertionSort_cons, ih]
      exact orderedInsert_concat (h a List.mem_cons_self) _

/-- Rows can be projected before they are sorted, if the key is kept. -/
theorem map_orderBy {key : α → κ} {key' : β → κ} {f : α → β} (h : ∀ a, key' (f a) = key a) (t : List α) :
    (orderBy key t).map f = orderBy key' (t.map f) := by
  refine List.map_insertionSort _ _ f t fun a _ b _ => ?_
  rw [h, h]

/-- Among rows with distinct names, the place of a row in the sorted list of
names is a copy of its key. -/
theorem idxOf_orderBy_lt_iff [DecidableEq β] {key : α → κ} {name : α → β} {t : List α}
    (hname : (t.map name).Nodup)
    (hkey : ∀ a ∈ t, ∀ b ∈ t, key a = key b → name a = name b) {a b : α}
    (ha : a ∈ t) (hb : b ∈ t) :
    ((orderBy key t).map name).idxOf (name a) < ((orderBy key t).map name).idxOf (name b) ↔
      key a < key b := by
  have hlt : ∀ a ∈ t, ∀ b ∈ t,
      ((orderBy key t).map name).idxOf (name a) < ((orderBy key t).map name).idxOf (name b) →
        key a < key b := by
    intro a ha b hb hidx
    have hmem : name b ∈ (orderBy key t).map name :=
      List.mem_map_of_mem (mem_orderBy.mpr hb)
    have hnodup : ((orderBy key t).map name).Nodup :=
      ((orderBy_perm key t).map name).nodup_iff.mpr hname
    have hb' := List.idxOf_lt_length_of_mem hmem
    have hgeta := List.getElem_idxOf (lt_trans hidx hb')
    have hgetb := List.getElem_idxOf hb'
    rw [List.getElem_map] at hgeta hgetb
    have hinj := List.inj_on_of_nodup_map hname
    have heqa := hinj (mem_orderBy.mp (List.getElem_mem _)) ha hgeta
    have heqb := hinj (mem_orderBy.mp (List.getElem_mem _)) hb hgetb
    have hle := List.pairwise_iff_getElem.mp (pairwise_orderBy key t) _ _
      (by simpa using lt_trans hidx hb') (by simpa using hb') hidx
    rw [heqa, heqb] at hle
    refine lt_of_le_of_ne hle fun heq => ?_
    rw [hkey a ha b hb heq] at hidx
    exact lt_irrefl _ hidx
  refine ⟨hlt a ha b hb, fun hab => ?_⟩
  rcases lt_trichotomy (((orderBy key t).map name).idxOf (name a))
    (((orderBy key t).map name).idxOf (name b)) with h | h | h
  · exact h
  · have hname' : name a = name b := (List.idxOf_inj
      (List.mem_map_of_mem (mem_orderBy.mpr ha))).mp h
    have := List.inj_on_of_nodup_map hname ha hb hname'
    rw [this] at hab
    exact absurd hab (lt_irrefl _)
  · exact absurd (lt_trans hab (hlt b hb a ha h)) (lt_irrefl _)

end Sql
