import Scrumboy.Store.LinkHistory

/-!
# The link picker

`SearchTodosForLinkPicker` reads a limited number of rows and then drops the ones that the caller
excluded, so that an excluded row takes a place among the results.
-/

set_option linter.dupNamespace false

namespace Scrumboy

open Go Sql

def pickerLimit (limit : ℤ) : ℕ := if limit ≤ 0 ∨ 50 < limit then 20 else limit.toNat

/-- What the search text selects by. -/
inductive PickerQuery
  | recent
  | localID (n : ℤ)
  | title (q : String)
  deriving DecidableEq, Repr

def pickerQuery (q : String) : PickerQuery :=
  let q := trimSpace q
  if q = "" then .recent
  else
    match parseInt q with
    | some n => if 0 < n then .localID n else .title q
    | none => .title q

/-- The rows of a query in its order, without its limit. -/
def PickerQuery.rows (db : DB) (projectID : ℤ) : PickerQuery → List TodoRow
  | .recent =>
      orderBy (fun t => toLex (-t.updatedAt, t.localID))
        (db.todos.filter fun t => t.projectID == projectID && t.archivedAt == none)
  | .localID n =>
      db.todos.filter fun t => t.projectID == projectID && t.localID == n && t.archivedAt == none
  | .title q =>
      orderBy (·.localID)
        (db.todos.filter fun t => t.projectID == projectID && t.archivedAt == none &&
          like ("%" ++ lower q ++ "%") (lower t.title))

def PickerQuery.limit (limit : ℤ) : PickerQuery → ℕ
  | .localID _ => 1
  | _ => pickerLimit limit

def isExcluded (excludeLocalIDs : List ℤ) (t : TodoRow) : Bool :=
  decide (0 < t.localID) && excludeLocalIDs.contains t.localID

def TodoRow.pickerTarget (t : TodoRow) : TodoLinkTarget := ⟨t.localID, t.title, "relates_to", none⟩

def searchTodosForLinkPicker (ctx : Ctx) (db : DB) (projectID : ℤ) (q : String) (limit : ℤ)
    (excludeLocalIDs : List ℤ) : Result (List TodoLinkTarget) := do
  let _ ← getProjectForRead ctx db projectID
  let query := pickerQuery q
  let rows := (query.rows db projectID).take (query.limit limit)
  pure ((rows.filter (!isExcluded excludeLocalIDs ·)).map TodoRow.pickerTarget)

/-- All todos that match and are not excluded, in the order of the query. -/
def pickerCandidates (db : DB) (projectID : ℤ) (q : String) (excludeLocalIDs : List ℤ) : List TodoRow :=
  ((pickerQuery q).rows db projectID).filter (!isExcluded excludeLocalIDs ·)

/-- The first results among all that match and are not excluded. -/
def bestMatches (db : DB) (projectID : ℤ) (q : String) (limit : ℤ) (excludeLocalIDs : List ℤ) :
    List TodoLinkTarget :=
  ((pickerCandidates db projectID q excludeLocalIDs).take (pickerLimit limit)).map TodoRow.pickerTarget

theorem pickerLimit_pos (limit : ℤ) : 0 < pickerLimit limit := by
  unfold pickerLimit
  split <;> omega

section

variable {α β : Type*} (p : α → Bool) (n : ℕ) (l : List α)

/-- What a limit takes behind a filter starts with what it takes before it. -/
theorem take_filter_eq_append :
    (l.filter p).take n =
      (l.take n).filter p ++ ((l.drop n).filter p).take (n - ((l.take n).filter p).length) := by
  have hsplit : l.filter p = (l.take n).filter p ++ (l.drop n).filter p := by
    rw [← List.filter_append, List.take_append_drop]
  have hle : ((l.take n).filter p).length ≤ n :=
    (List.length_filter_le _ _).trans (List.length_take_le _ _)
  rw [hsplit, List.take_append, List.take_of_length_le hle]

/-- A limit before a filter takes the same as behind it if the filter keeps all that the limit
takes, or nothing that it leaves. -/
theorem map_filter_take_eq_iff (f : α → β) :
    ((l.take n).filter p).map f = ((l.filter p).take n).map f ↔
      (∀ a ∈ l.take n, p a = true) ∨ ∀ a ∈ l.drop n, p a = false := by
  have hkept : ((l.take n).filter p).length = (l.take n).length ↔ ∀ a ∈ l.take n, p a = true :=
    List.length_filter_eq_length_iff
  have hnone : (l.drop n).filter p = [] ↔ ∀ a ∈ l.drop n, p a = false := by
    simp only [List.filter_eq_nil_iff, Bool.not_eq_true]
  rw [take_filter_eq_append, List.map_append, List.self_eq_append_right, List.map_eq_nil_iff,
    List.take_eq_nil_iff, ← hkept, ← hnone]
  constructor
  · rintro (hfull | hempty)
    · left
      have hle := List.length_filter_le p (l.take n)
      have htake := List.length_take_le n l
      omega
    · exact .inr hempty
  · rintro (hall | hempty)
    · by_cases hlen : n ≤ l.length
      · left
        rw [hall, List.length_take_of_le hlen, Nat.sub_self]
      · right
        rw [List.drop_eq_nil_of_le (by omega), List.filter_nil]
    · exact .inr hempty

end

/-- A number finds one todo of a project at most, so that its query needs no other limit. -/
theorem take_picker_rows {db : DB} (htable : TodoTable db) (projectID : ℤ) (query : PickerQuery)
    (limit : ℤ) : (query.rows db projectID).take (query.limit limit) =
      (query.rows db projectID).take (pickerLimit limit) := by
  cases query with
  | recent => rfl
  | title q => rfl
  | localID n =>
      have hlen : (PickerQuery.rows db projectID (.localID n)).length ≤ 1 := by
        have hone : ∀ t ∈ PickerQuery.rows db projectID (.localID n),
            (t.projectID, t.localID) = (projectID, n) := by
          intro t ht
          simp only [PickerQuery.rows, List.mem_filter, Bool.and_eq_true, beq_iff_eq] at ht
          rw [ht.2.1.1, ht.2.1.2]
        have hnodup : ((PickerQuery.rows db projectID (.localID n)).map fun t =>
            (t.projectID, t.localID)).Nodup := htable.localIDs.sublist (List.filter_sublist.map _)
        rw [List.map_eq_replicate_iff.mpr hone] at hnodup
        exact List.nodup_replicate.mp hnodup
      have hpos := pickerLimit_pos limit
      change List.take 1 _ = _
      rw [List.take_of_length_le hlen, List.take_of_length_le (by omega)]

/-- The picker returns the best matches exactly if the limit takes no excluded row, or leaves
excluded rows only. -/
theorem link_picker_best_iff {db : DB} (htable : TodoTable db) (ctx : Ctx) (projectID sourceLocalID : ℤ)
    (q : String) (limit : ℤ) (excludeLocalIDs : List ℤ) {out : List TodoLinkTarget}
    (h : searchTodosForLinkPicker ctx db projectID q limit (sourceLocalID :: excludeLocalIDs) = .ok out) :
    (out = bestMatches db projectID q limit (sourceLocalID :: excludeLocalIDs) ∧
        (pickerLimit limit ≤ (pickerCandidates db projectID q (sourceLocalID :: excludeLocalIDs)).length →
          out.length = pickerLimit limit)) ↔
      (∀ t ∈ ((pickerQuery q).rows db projectID).take (pickerLimit limit),
          isExcluded (sourceLocalID :: excludeLocalIDs) t = false) ∨
        ∀ t ∈ ((pickerQuery q).rows db projectID).drop (pickerLimit limit),
          isExcluded (sourceLocalID :: excludeLocalIDs) t = true := by
  obtain ⟨p, hp, hout⟩ := bind_eq_ok.mp h
  rw [pure_eq_ok] at hout
  rw [take_picker_rows htable] at hout
  have hiff := map_filter_take_eq_iff (!isExcluded (sourceLocalID :: excludeLocalIDs) ·) (pickerLimit limit)
    ((pickerQuery q).rows db projectID) TodoRow.pickerTarget
  simp only [Bool.not_eq_true', Bool.not_eq_false'] at hiff
  rw [← hiff, ← hout]
  refine and_iff_left_of_imp fun hbest hmany => ?_
  rw [hbest]
  unfold bestMatches
  rw [List.length_map, List.length_take_of_le hmany]

theorem link_picker_skips_excluded :
    searchTodosForLinkPicker ⟨none, 5⟩ linkBoard 1 "" 1 [2, 3] = .ok [⟨1, "a", "relates_to", none⟩] ∧
      [⟨1, "a", "relates_to", none⟩] = bestMatches linkBoard 1 "" 1 [2, 3] :=
  have hout : searchTodosForLinkPicker ⟨none, 5⟩ linkBoard 1 "" 1 [2, 3] =
      .ok [⟨1, "a", "relates_to", none⟩] := by decide +kernel
  ⟨hout, ((link_picker_best_iff todoTable_linkBoard ⟨none, 5⟩ 1 2 "" 1 [3] hout).mpr
    (.inl (by decide +kernel))).1⟩

/-- The first row by the order of the query is excluded, and the second is never read. -/
theorem excluded_row_takes_place :
    searchTodosForLinkPicker ⟨none, 5⟩ linkBoard 1 "" 1 [1] = .ok [] ∧
      bestMatches linkBoard 1 "" 1 [1] = [⟨2, "b", "relates_to", none⟩] := by
  decide +kernel

end Scrumboy
