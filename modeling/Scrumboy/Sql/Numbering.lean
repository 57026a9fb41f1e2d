import Scrumboy.Sql.Table
import Mathlib.Data.List.Range

/-!
# Numbered rows

Rows that carry a position: `Numbered pos l` says that the positions of the rows of `l`
are `0`, `1` up to their number, in whatever order the rows stand. A table keeps this
when a row is put at the end, when a row goes in between and the ones behind it move
up, and when the rows are renumbered by their places in a list.
-/

namespace Sql

variable {α : Type*}

/-- The positions of the rows are `0` up to the number of rows. -/
def Numbered (pos : α → ℤ) (l : List α) : Prop :=
  (l.map pos).Perm ((List.range l.length).map fun i : ℕ => (i : ℤ))

instance (pos : α → ℤ) (l : List α) : Decidable (Numbered pos l) :=
  inferInstanceAs (Decidable (List.Perm _ _))

section

variable {pos : α → ℤ} {l l' : List α}

theorem Numbered.perm (h : Numbered pos l) (hl : l'.Perm l) : Numbered pos l' := by
  unfold Numbered at *
  rw [hl.length_eq]
  exact (hl.map pos).trans h

theorem Numbered.congr {β : Type*} {pos' : β → ℤ} {m : List β} (h : Numbered pos l)
    (heq : m.map pos' = l.map pos) : Numbered pos' m := by
  have hlen : m.length = l.length := by simpa using congrArg List.length heq
  unfold Numbered at *
  rwa [hlen, heq]

/-- A row at the end of the list. -/
theorem Numbered.concat (h : Numbered pos l) {a : α} (ha : pos a = l.length) :
    Numbered pos (l ++ [a]) := by
  unfold Numbered at *
  rw [List.map_append, List.length_append, List.length_singleton, List.range_succ, List.map_append]
  refine h.append ?_
  simp [ha]

/-- Rows that are numbered by their places. -/
theorem numbered_zipIdx {β : Type*} (set : β → ℕ → α) (hset : ∀ b i, pos (set b i) = i) (m : List β) :
    Numbered pos (m.zipIdx.map fun p => set p.1 p.2) := by
  have hpos : (m.zipIdx.map fun p => set p.1 p.2).map pos =
      (List.range m.length).map fun i : ℕ => (i : ℤ) := by
    rw [List.map_map, List.range_eq_range', ← List.zipIdx_map_snd 0 m, List.map_map]
    apply List.map_congr_left
    intro p _
    exact hset p.1 p.2
  unfold Numbered
  rw [hpos]
  simp

/-- The places of the rows once room was made for one at `d`. -/
def shiftAt (d i : ℕ) : ℕ := if d ≤ i then i + 1 else i

theorem range_shiftAt_perm {d n : ℕ} (hd : d ≤ n) :
    ((List.range n).map (shiftAt d) ++ [d]).Perm (List.range (n + 1)) := by
  have hinj : Function.Injective (shiftAt d) := by
    intro i j hij
    unfold shiftAt at hij
    split at hij <;> split at hij <;> omega
  have hd' : d ∉ (List.range n).map (shiftAt d) := by
    rw [List.mem_map]
    rintro ⟨i, _, hi⟩
    unfold shiftAt at hi
    split at hi <;> omega
  rw [List.perm_ext_iff_of_nodup]
  · intro k
    simp only [List.mem_append, List.mem_map, List.mem_range, List.mem_singleton, shiftAt]
    constructor
    · rintro (⟨i, hi, rfl⟩ | rfl)
      · split <;> omega
      · omega
    · intro hk
      rcases lt_trichotomy k d with h | h | h
      · exact .inl ⟨k, by omega, by rw [if_neg (by omega)]⟩
      · exact .inr h
      · exact .inl ⟨k - 1, by omega, by rw [if_pos (by omega)]; omega⟩
  · rw [List.nodup_append]
    refine ⟨List.nodup_range.map hinj, List.nodup_singleton d, fun a ha b hb => ?_⟩
    rw [List.mem_singleton.mp hb]
    rintro rfl
    exact hd' ha
  · exact List.nodup_range

/-- A row between others, and those behind it one place further. -/
theorem numbered_insert {β : Type*} (set : β → ℕ → α) (hset : ∀ b i, pos (set b i) = i) {m : List β}
    {d : ℕ} (hd : d ≤ m.length) {a : α} (ha : pos a = d) :
    Numbered pos ((m.zipIdx.map fun p => set p.1 (shiftAt d p.2)) ++ [a]) := by
  have hpos : (m.zipIdx.map fun p => set p.1 (shiftAt d p.2)).map pos =
      ((List.range m.length).map (shiftAt d)).map fun i : ℕ => (i : ℤ) := by
    rw [List.map_map, List.range_eq_range', ← List.zipIdx_map_snd 0 m, List.map_map, List.map_map]
    apply List.map_congr_left
    intro p _
    exact hset p.1 _
  unfold Numbered
  rw [List.map_append, hpos, List.map_singleton, ha, List.length_append, List.length_map,
    List.length_zipIdx, List.length_singleton]
  have hperm := (range_shiftAt_perm hd).map fun i : ℕ => (i : ℤ)
  rwa [List.map_append, List.map_singleton] at hperm

end

/-- The row that is found, and the others. -/
theorem find?_cons_eraseP_perm {p : α → Bool} {l : List α} {a : α} (h : l.find? p = some a) :
    l.Perm (a :: l.eraseP p) := by
  obtain ⟨ha, as, bs, rfl, has⟩ := List.find?_eq_some_iff_append.mp h
  rw [List.eraseP_append_right _ (fun b hb => by simpa using has b hb), List.eraseP_cons_of_pos ha]
  exact List.perm_middle

section

variable (name : α → ℤ) (set : α → ℤ → α)

/-- `UPDATE t SET position = ? WHERE id = ?` for the rows of a list, one by one. -/
def renumber (f : ℕ → ℤ) (rows t : List α) : List α :=
  (rows.zipIdx.map fun p => (name p.1, f p.2)).foldl
    (fun t p => updateWhere (fun r => name r == p.1) (fun r => set r p.2) t) t

variable {name set} {sel : α → Bool} {rows t : List α} {f : ℕ → ℤ}

theorem map_eq_zipIdx_map {β : Type*} (h : α → β) (m : List α) :
    m.map h = m.zipIdx.map fun p => h p.1 := by
  nth_rewrite 1 [← List.zipIdx_map_fst 0 m]
  rw [List.map_map]
  rfl

theorem lookup_zipIdx_of_mem {m : List α} (hnodup : (m.map name).Nodup) (n : ℕ) {a : α} {i : ℕ}
    (h : (a, i) ∈ m.zipIdx n) :
    ((m.zipIdx n).map fun p => (name p.1, f p.2)).lookup (name a) = some (f i) := by
  induction m generalizing n with
  | nil => simp at h
  | cons b m ih =>
      rw [List.map_cons, List.nodup_cons] at hnodup
      rw [List.zipIdx_cons] at h ⊢
      rw [List.map_cons, List.lookup_cons]
      rcases List.mem_cons.mp h with heq | h
      · obtain ⟨rfl, rfl⟩ := Prod.mk.inj heq
        simp
      · have hne : name a ≠ name b := by
          intro heq
          exact hnodup.1 (heq ▸ List.mem_map_of_mem (List.fst_mem_of_mem_zipIdx h))
        rw [beq_eq_false_iff_ne.mpr hne]
        exact ih hnodup.2 (n + 1) h

/-- Renumbering the selected rows of a table gives each of them the number of its place,
and leaves the others alone. -/
theorem renumber_spec (hname : ∀ r n, name (set r n) = name r) (hsel : ∀ r n, sel (set r n) = sel r)
    (hnodup : (t.map name).Nodup) (hrows : rows.Perm (t.filter sel)) :
    ∃ g : α → α, renumber name set f rows t = t.map g ∧ (∀ r, g r = r ∨ ∃ n, g r = set r n) ∧
      (∀ r ∈ t, sel r = false → g r = r) ∧
      ((renumber name set f rows t).filter sel).Perm
        (rows.zipIdx.map fun p => set p.1 (f p.2)) := by
  have hnames : (rows.map name).Nodup :=
    (hrows.map name).nodup_iff.mpr (hnodup.sublist (List.filter_sublist.map name))
  have hkeys : ((rows.zipIdx.map fun p => (name p.1, f p.2)).map Prod.fst) = rows.map name := by
    rw [List.map_map, map_eq_zipIdx_map name rows]
    rfl
  have heq := foldl_updateWhere name set hname (rows.zipIdx.map fun p => (name p.1, f p.2)) t
    (hkeys ▸ hnames)
  refine ⟨_, heq, fun r => ?_, fun r hr hout => ?_, ?_⟩
  · cases (rows.zipIdx.map fun p => (name p.1, f p.2)).lookup (name r) with
    | none => exact .inl rfl
    | some n => exact .inr ⟨n, rfl⟩
  · have hnone : (rows.zipIdx.map fun p => (name p.1, f p.2)).lookup (name r) = none := by
      rw [List.lookup_eq_none_iff]
      intro p hp
      obtain ⟨q, hq, rfl⟩ := List.mem_map.mp hp
      have hmem := hrows.mem_iff.mp (List.fst_mem_of_mem_zipIdx hq)
      obtain ⟨hqt, hqsel⟩ := List.mem_filter.mp hmem
      rw [bne_iff_ne]
      intro hsame
      rw [List.inj_on_of_nodup_map hnodup hr hqt hsame, hqsel] at hout
      cases hout
    rw [hnone]
    rfl
  · have hg : ∀ r, sel (((rows.zipIdx.map fun p => (name p.1, f p.2)).lookup (name r)).map
        (set r) |>.getD r) = sel r := by
      intro r
      cases (rows.zipIdx.map fun p => (name p.1, f p.2)).lookup (name r) with
      | none => rfl
      | some n => exact hsel r n
    have hplaces : (rows.map fun r => ((rows.zipIdx.map fun p => (name p.1, f p.2)).lookup
        (name r)).map (set r) |>.getD r) = rows.zipIdx.map fun p => set p.1 (f p.2) := by
      rw [map_eq_zipIdx_map]
      apply List.map_congr_left
      rintro ⟨r, i⟩ hri
      rw [lookup_zipIdx_of_mem hnames 0 hri]
      rfl
    rw [renumber, heq, List.filter_map, ← hplaces]
    simp only [Function.comp_def, hg]
    exact (hrows.map _).symm

/-! ## Rows that belong to an owner -/

variable {owner : α → ℤ} {q q' : ℤ}

variable (set) in
/-- Renumbering the rows of one owner leaves the names and the rows of other owners alone. -/
theorem renumber_owned (f : ℕ → ℤ) (hname : ∀ r n, name (set r n) = name r)
    (howner : ∀ r n, owner (set r n) = owner r) (hnodup : (t.map name).Nodup)
    (hrows : rows.Perm (t.filter fun r => owner r == q)) :
    (renumber name set f rows t).map name = t.map name ∧
      (∀ q', q' ≠ q → (renumber name set f rows t).filter (fun r => owner r == q') =
        t.filter fun r => owner r == q') ∧
      ((renumber name set f rows t).filter fun r => owner r == q).Perm
        (rows.zipIdx.map fun p => set p.1 (f p.2)) := by
  have hsel : ∀ r n, (owner (set r n) == q) = (owner r == q) := by
    intro r n
    rw [howner]
  obtain ⟨g, heq, hset, hother, hperm⟩ := renumber_spec hname hsel hnodup hrows
  have hg : ∀ r, name (g r) = name r ∧ owner (g r) = owner r := by
    intro r
    rcases hset r with hr | ⟨n, hr⟩
    · rw [hr]
      exact ⟨rfl, rfl⟩
    · rw [hr]
      exact ⟨hname r n, howner r n⟩
  refine ⟨?_, fun q' hq' => ?_, hperm⟩
  · rw [heq, List.map_map]
    apply List.map_congr_left
    intro r _
    exact (hg r).1
  · rw [heq, List.filter_map]
    simp only [Function.comp_def, (hg _).2]
    refine (List.map_congr_left fun r hr => ?_).trans (List.map_id _)
    obtain ⟨hmem, hr⟩ := List.mem_filter.mp hr
    rw [beq_iff_eq] at hr
    exact hother r hmem (beq_eq_false_iff_ne.mpr (hr ▸ hq'))

/-- The rows of an owner without one of them. -/
theorem delete_owned_perm {target : α} (hnodup : (t.map name).Nodup)
    (hperm : (t.filter fun r => owner r == q).Perm (target :: rows)) :
    ((deleteWhere (fun r => name r == name target) t).filter fun r => owner r == q).Perm rows := by
  have hnames : ((target :: rows).map name).Nodup :=
    (hperm.map _).nodup_iff.mp (hnodup.sublist (List.filter_sublist.map _))
  rw [List.map_cons, List.nodup_cons] at hnames
  have hrows : (target :: rows).filter (fun r => !(name r == name target)) = rows := by
    rw [List.filter_cons_of_neg (by simp), List.filter_eq_self]
    intro r hr
    rw [Bool.not_eq_true', beq_eq_false_iff_ne]
    intro heq
    exact hnames.1 (heq ▸ List.mem_map_of_mem hr)
  have hcomm : (deleteWhere (fun r => name r == name target) t).filter (fun r => owner r == q) =
      (t.filter fun r => owner r == q).filter fun r => !(name r == name target) := by
    rw [deleteWhere, List.filter_filter, List.filter_filter]
    apply List.filter_congr
    intro r _
    exact Bool.and_comm _ _
  rw [hcomm]
  exact (hperm.filter _).trans (.of_eq hrows)

/-- A row of one owner goes, and the others keep theirs. -/
theorem delete_owned_eq {target : α} (hnodup : (t.map name).Nodup)
    (htarget : target ∈ t.filter fun r => owner r == q) (hq : q' ≠ q) :
    (deleteWhere (fun r => name r == name target) t).filter (fun r => owner r == q') =
      t.filter fun r => owner r == q' := by
  obtain ⟨hmem, hown⟩ := List.mem_filter.mp htarget
  apply filter_deleteWhere
  intro r hr hrq
  rw [beq_eq_false_iff_ne]
  intro heq
  rw [beq_iff_eq] at hown hrq
  rw [List.inj_on_of_nodup_map hnodup hr hmem heq, hown] at hrq
  exact hq hrq.symm

end

end Sql
