import Mathlib.Data.List.Sort

/-!
# Tables

A table is the list of its rows in insertion order. The statements of SQL that
change a table are `updateWhere` and `deleteWhere` on that list, together with
appending a row at its end, and the aggregate behind automatic row ids is
`coalesceMax`.
-/

namespace Sql

variable {α : Type*}

/-- `UPDATE t SET f WHERE p`. -/
def updateWhere (p : α → Bool) (f : α → α) (t : List α) : List α :=
  t.map fun r => if p r then f r else r

/-- `DELETE FROM t WHERE p`. -/
def deleteWhere (p : α → Bool) (t : List α) : List α := t.filter fun r => !p r

/-- `COALESCE(MAX(c), 0)` over the values of a column. -/
def coalesceMax (l : List ℤ) : ℤ := l.max?.getD 0

/-- The row id that SQLite gives to the next row of a table with these ids. -/
def nextRowid (ids : List ℤ) : ℤ := coalesceMax ids + 1

/-- `LOWER`, which knows ASCII letters only. -/
def lower (s : String) : String := String.ofList (s.toList.map Char.toLower)

/-- A pattern of `LIKE` against a text: `%` stands for any text, `_` for any character,
and other characters for themselves in either case of ASCII. -/
def likeList : List Char → List Char → Bool
  | [], text => text.isEmpty
  | p :: pattern, text =>
      if p = '%' then text.tails.any (likeList pattern)
      else
        match text with
        | [] => false
        | c :: text => (p == '_' || p.toLower == c.toLower) && likeList pattern text

/-- `text LIKE pattern`. -/
def like (pattern text : String) : Bool := likeList pattern.toList text.toList

/-- The same with a character that takes the meaning off the one behind it. -/
def likeEscapeList (esc : Char) : List Char → List Char → Bool
  | [], text => text.isEmpty
  | p :: pattern, text =>
      if p = esc then
        match pattern, text with
        | q :: pattern, c :: text => q.toLower == c.toLower && likeEscapeList esc pattern text
        | _, _ => false
      else if p = '%' then text.tails.any (likeEscapeList esc pattern)
      else
        match text with
        | [] => false
        | c :: text => (p == '_' || p.toLower == c.toLower) && likeEscapeList esc pattern text

/-- `text LIKE pattern ESCAPE esc`. -/
def likeEscape (esc : Char) (pattern text : String) : Bool :=
  likeEscapeList esc pattern.toList text.toList

theorem mem_updateWhere {p : α → Bool} {f : α → α} {t : List α} {r : α} :
    r ∈ updateWhere p f t ↔ ∃ r₀ ∈ t, r = if p r₀ then f r₀ else r₀ := by
  rw [updateWhere, List.mem_map]
  exact exists_congr fun _ => and_congr_right fun _ => eq_comm

@[simp] theorem mem_deleteWhere {p : α → Bool} {t : List α} {r : α} :
    r ∈ deleteWhere p t ↔ r ∈ t ∧ p r = false := by
  simp [deleteWhere]

/-- The selected rows of a table when none of them goes. -/
theorem filter_deleteWhere {p sel : α → Bool} {t : List α}
    (h : ∀ a ∈ t, sel a = true → p a = false) : (deleteWhere p t).filter sel = t.filter sel := by
  rw [deleteWhere, List.filter_filter]
  apply List.filter_congr
  intro a ha
  cases hsel : sel a with
  | false => rfl
  | true => simp [h a ha hsel]

/-- The first hit in a table when no row that goes is one. -/
theorem findSome?_deleteWhere {β : Type*} {p : α → Bool} {g : α → Option β} {t : List α}
    (h : ∀ a ∈ t, p a = true → g a = none) : (deleteWhere p t).findSome? g = t.findSome? g := by
  unfold deleteWhere
  induction t with
  | nil => rfl
  | cons a t ih =>
      have ih := ih fun b hb => h b (List.mem_cons_of_mem _ hb)
      cases hp : p a with
      | true => rw [List.filter_cons_of_neg (by simp [hp]), ih, List.findSome?_cons, h a List.mem_cons_self hp]
      | false => rw [List.filter_cons_of_pos (by simp [hp]), List.findSome?_cons, List.findSome?_cons, ih]

theorem findSome?_updateWhere {β : Type*} {p : α → Bool} {f : α → α} {g : α → Option β} {t : List α}
    (h : ∀ a ∈ t, p a = true → g (f a) = g a) : (updateWhere p f t).findSome? g = t.findSome? g := by
  unfold updateWhere
  induction t with
  | nil => rfl
  | cons a t ih =>
      have ha : g (if p a then f a else a) = g a := by
        split
        · rename_i hp
          exact h a List.mem_cons_self hp
        · rfl
      rw [List.map_cons, List.findSome?_cons, List.findSome?_cons, ha,
        ih fun b hb => h b (List.mem_cons_of_mem _ hb)]

/-- An update that keeps a column leaves the list of its values alone. -/
theorem map_updateWhere {β : Type*} {p : α → Bool} {f : α → α} (g : α → β)
    (h : ∀ r, g (f r) = g r) (t : List α) :
    (updateWhere p f t).map g = t.map g := by
  rw [updateWhere, List.map_map]
  apply List.map_congr_left
  intro r _
  by_cases hp : p r <;> simp [hp, h]

/-- An update that makes no row a hit does not add to the number of hits. -/
theorem countP_updateWhere_le {p q : α → Bool} {f : α → α} (h : ∀ r, q (f r) = true → q r = true)
    (t : List α) : (updateWhere p f t).countP q ≤ t.countP q := by
  rw [updateWhere, List.countP_map]
  apply List.countP_mono_left
  intro r _ hr
  by_cases hp : p r = true
  · exact h r (by simpa [hp] using hr)
  · simpa [hp] using hr

/-- If it takes a hit away, there are fewer. -/
theorem countP_updateWhere_lt {p q : α → Bool} {f : α → α} {t : List α} {r : α}
    (h : ∀ r, q (f r) = true → q r = true) (hr : r ∈ t) (hp : p r = true) (hq : q r = true)
    (hf : q (f r) = false) : (updateWhere p f t).countP q < t.countP q := by
  obtain ⟨t₁, t₂, rfl⟩ := List.append_of_mem hr
  have h₁ := countP_updateWhere_le (p := p) h t₁
  have h₂ := countP_updateWhere_le (p := p) h t₂
  simp only [updateWhere, List.map_append, List.map_cons, hp, if_true, List.countP_append,
    List.countP_cons, hf, hq, Bool.false_eq_true, if_false] at h₁ h₂ ⊢
  omega

/-- Two updates that write the same are one. -/
theorem updateWhere_updateWhere {p q : α → Bool} {f : α → α} (hq : ∀ r, q (f r) = q r)
    (hf : ∀ r, f (f r) = f r) (t : List α) :
    updateWhere q f (updateWhere p f t) = updateWhere (fun r => p r || q r) f t := by
  rw [updateWhere, updateWhere, updateWhere, List.map_map]
  apply List.map_congr_left
  intro r _
  cases hp : p r <;> cases hqr : q r <;> simp [hp, hqr, hq, hf]

/-- The row that a query by key finds after an update by key. -/
theorem find?_updateWhere {κ : Type*} [DecidableEq κ] (key : α → κ) {f : α → α} {k : κ}
    (hkey : ∀ r, key r = k → key (f r) = k) (k' : κ) (t : List α) :
    (updateWhere (fun r => key r == k) f t).find? (fun r => key r == k') =
      (t.find? fun r => key r == k').map fun r => if k' = k then f r else r := by
  have hcomp : ((fun r => key r == k') ∘ fun r => if (key r == k) = true then f r else r) =
      fun r => key r == k' := by
    funext r
    by_cases hr : key r = k
    · simp [hr, hkey r hr]
    · simp [hr]
  rw [updateWhere, List.find?_map, hcomp]
  cases hfind : t.find? fun r => key r == k' with
  | none => rfl
  | some r =>
      have hr : key r = k' := by simpa using List.find?_some hfind
      simp [hr]

/-- A row of a table with a key, between rows of other keys. -/
theorem exists_split_key {κ : Type*} {key : α → κ} {t : List α} (hkeys : (t.map key).Nodup) {r : α}
    (hr : r ∈ t) : ∃ t₁ t₂, t = t₁ ++ r :: t₂ ∧ ∀ x ∈ t₁ ++ t₂, key x ≠ key r := by
  obtain ⟨t₁, t₂, rfl⟩ := List.append_of_mem hr
  refine ⟨t₁, t₂, rfl, fun x hx heq => ?_⟩
  have hperm : ((r :: (t₁ ++ t₂)).map key).Nodup :=
    ((List.perm_middle (a := r)).map key).nodup_iff.mp hkeys
  rw [List.map_cons, List.nodup_cons] at hperm
  exact hperm.1 (List.mem_map.mpr ⟨x, hx, heq⟩)

section

variable {κ : Type*} [BEq κ] [LawfulBEq κ] {key : α → κ} {t₁ t₂ : List α} {r : α}
  (hne : ∀ x ∈ t₁ ++ t₂, key x ≠ key r)

include hne

/-- Deleting by key takes the row out. -/
theorem deleteWhere_split : deleteWhere (fun x => key x == key r) (t₁ ++ r :: t₂) = t₁ ++ t₂ := by
  have hkeep : (t₁ ++ t₂).filter (fun x => !(key x == key r)) = t₁ ++ t₂ :=
    List.filter_eq_self.mpr fun x hx => by simpa using hne x hx
  rw [List.filter_append] at hkeep
  simp [deleteWhere, List.filter_append, hkeep]

/-- Updating by key changes the row in its place. -/
theorem updateWhere_split (f : α → α) :
    updateWhere (fun x => key x == key r) f (t₁ ++ r :: t₂) = t₁ ++ f r :: t₂ := by
  have hkeep : ∀ t : List α, (∀ x ∈ t, x ∈ t₁ ++ t₂) →
      (t.map fun x => if (key x == key r) = true then f x else x) = t := by
    intro t ht
    refine (List.map_congr_left fun x hx => ?_).trans (List.map_id' t)
    simp [hne x (ht x hx)]
  simp only [updateWhere, List.map_append, List.map_cons, beq_self_eq_true, if_true]
  rw [hkeep t₁ fun x hx => List.mem_append_left _ hx, hkeep t₂ fun x hx => List.mem_append_right _ hx]

/-- A query by key finds the row. -/
theorem find?_split : (t₁ ++ r :: t₂).find? (fun x => key x == key r) = some r := by
  have hnone : t₁.find? (fun x => key x == key r) = none := by
    rw [List.find?_eq_none]
    intro x hx
    simpa using hne x (List.mem_append_left _ hx)
  simp [List.find?_append, hnone]

end

/-- A run of single-row updates that name their rows by distinct keys is one pass
over the table. -/
theorem foldl_updateWhere {κ β : Type*} [DecidableEq κ] (key : α → κ) (set : α → β → α)
    (hkey : ∀ r b, key (set r b) = key r) (ps : List (κ × β)) (t : List α)
    (hps : (ps.map Prod.fst).Nodup) :
    ps.foldl (fun t p => updateWhere (fun r => key r == p.1) (fun r => set r p.2) t) t =
      t.map fun r => ((ps.lookup (key r)).map (set r)).getD r := by
  induction ps generalizing t with
  | nil => simp
  | cons p ps ih =>
      rw [List.map_cons, List.nodup_cons] at hps
      rw [List.foldl_cons, ih _ hps.2, updateWhere, List.map_map]
      apply List.map_congr_left
      intro r _
      obtain ⟨k, b⟩ := p
      by_cases hr : key r = k
      · have hnone : ps.lookup k = none := by
          rw [List.lookup_eq_none_iff]
          intro p hp
          have hne : p.1 ≠ k := by
            rintro rfl
            exact hps.1 (List.mem_map.mpr ⟨p, hp, rfl⟩)
          simpa using fun h => hne h.symm
        simp [hr, hkey, hnone]
      · simp [hr, List.lookup_cons, beq_eq_false_iff_ne.mpr hr]

@[simp] theorem coalesceMax_nil : coalesceMax [] = 0 := rfl

@[simp] theorem coalesceMax_singleton (x : ℤ) : coalesceMax [x] = x := rfl

theorem le_coalesceMax {l : List ℤ} {x : ℤ} (h : x ∈ l) : x ≤ coalesceMax l := by
  cases hl : l.max? with
  | none => simp [List.max?_eq_none_iff.mp hl] at h
  | some m =>
      rw [coalesceMax, hl]
      exact (List.max?_eq_some_iff.mp hl).2 x h

theorem coalesceMax_mem {l : List ℤ} (h : l ≠ []) : coalesceMax l ∈ l := by
  cases hl : l.max? with
  | none => exact absurd (List.max?_eq_none_iff.mp hl) h
  | some m =>
      rw [coalesceMax, hl]
      exact (List.max?_eq_some_iff.mp hl).1

theorem coalesceMax_concat {l : List ℤ} (h : l ≠ []) (x : ℤ) :
    coalesceMax (l ++ [x]) = max (coalesceMax l) x := by
  apply le_antisymm
  · rcases List.mem_append.mp (coalesceMax_mem (l := l ++ [x]) (by simp)) with hmem | hmem
    · exact (le_coalesceMax hmem).trans (le_max_left _ _)
    · exact (List.mem_singleton.mp hmem).le.trans (le_max_right _ _)
  · apply max_le
    · exact le_coalesceMax (List.mem_append_left _ (coalesceMax_mem h))
    · exact le_coalesceMax (List.mem_append_right _ (List.mem_singleton_self x))

/-- The next row id is not in use. -/
theorem nextRowid_not_mem (ids : List ℤ) : nextRowid ids ∉ ids := by
  intro h
  have := le_coalesceMax h
  unfold nextRowid at this
  omega

/-- A table that numbers its rows keeps their ids distinct. -/
theorem nodup_concat_nextRowid {ids : List ℤ} (h : ids.Nodup) : (ids ++ [nextRowid ids]).Nodup := by
  rw [List.nodup_append]
  refine ⟨h, List.nodup_singleton _, fun x hx y hy => ?_⟩
  rw [List.mem_singleton.mp hy]
  rintro rfl
  exact nextRowid_not_mem ids hx

theorem lt_nextRowid {ids : List ℤ} {x : ℤ} (h : x ∈ ids) : x < nextRowid ids := by
  have := le_coalesceMax h
  unfold nextRowid
  omega

/-- Row ids start from one as long as none in use is below. -/
theorem nextRowid_pos {ids : List ℤ} (h : ∀ x ∈ ids, 0 < x) : 0 < nextRowid ids := by
  by_cases hids : ids = []
  · simp [hids, nextRowid]
  · have := h _ (coalesceMax_mem hids)
    unfold nextRowid
    omega

end Sql
