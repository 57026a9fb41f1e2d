import Mathlib.Data.List.Dedup
import Scrumboy.Store.Board
import Scrumboy.Store.Lanes
import Scrumboy.Store.Placement
import Scrumboy.Store.TagLookup

/-!
# Tags on the wall and on the board

The board shows a tag by its group, one label for all rows of a logical tag. The wall has the names
of the rows joined with commas by the query and cuts the text at its commas again, so that a name
with a comma falls apart, and a name that is not its own label stays as it is.
-/

set_option linter.dupNamespace false

namespace Scrumboy

open Go Sql

/-- The names of the tags that are attached to a todo, in table order. -/
def attachedTagNames (db : DB) (todoID : ℤ) : List String :=
  (db.todoTags.filter fun tt => tt.todoID == todoID).flatMap fun tt =>
    (db.tags.filter fun g => g.id == tt.tagID).map (·.name)

/-- `strings.Split` at commas. -/
def splitCommas (s : String) : List String := (s.toList.splitOn ',').map String.ofList

/-- The tags of a story from `GROUP_CONCAT`. -/
def wallTags (names : List String) : List String :=
  let tagsCSV := join "," names
  if tagsCSV ≠ "" then sortStrings (splitCommas tagsCSV).dedup else []

/-- A placement with its todo as the wall shows it, without custom fields. -/
structure WallStory where
  placement : WallStoryPlacement
  todo : Todo
  deriving DecidableEq, Repr

/-- `listWallStoryPlacementsTx`. The query reads no due date. -/
def listWallStories (db : DB) (projectID : ℤ) : List WallStory :=
  (orderBy (·.todoID) (db.placements.filter fun p => p.projectID == projectID)).flatMap fun p =>
    (db.todos.filter fun t => t.id == p.todoID && t.projectID == p.projectID).map fun t =>
      { placement := ⟨p.todoID, t.localID, p.x, p.y, p.version⟩
        todo :=
          { row := { t with dueAt := none, dueRemindedAt := none }
            tags := wallTags (attachedTagNames db t.id)
            customFields := [] } }

/-- The label of a tag on the board of a project. -/
def boardLabel (rt : Runtime) (durable : Bool) (name : String) : String :=
  if durable then tagGroupKey rt name else name

/-- A comma is a character of its own in every text. -/
def KeepsCommas (rt : Runtime) : Prop := ∀ s : String, ',' ∈ s.toList → ',' ∈ (rt.nfc s).toList

/-! ## The placements -/

theorem exists_of_mem_listWallStories {db : DB} {projectID : ℤ} {s : WallStory}
    (hs : s ∈ listWallStories db projectID) :
    ∃ t ∈ db.todos, t.id = s.placement.todoID ∧ t.projectID = projectID ∧
      s.todo.tags = wallTags (attachedTagNames db s.placement.todoID) := by
  obtain ⟨p, hp, hs⟩ := List.mem_flatMap.mp hs
  obtain ⟨t, ht, rfl⟩ := List.mem_map.mp hs
  rw [mem_orderBy, List.mem_filter, beq_iff_eq] at hp
  rw [List.mem_filter, Bool.and_eq_true, beq_iff_eq, beq_iff_eq] at ht
  refine ⟨t, ht.1, ht.2.1, ht.2.2.trans hp.2, ?_⟩
  dsimp only
  rw [ht.2.1]

/-! ## Names joined and cut -/

theorem join_nil (sep : String) : join sep [] = "" := by with_unfolding_all rfl

theorem join_singleton (sep s : String) : join sep [s] = s := by with_unfolding_all rfl

theorem join_cons_cons (sep s t : String) (names : List String) :
    join sep (s :: t :: names) = s ++ sep ++ join sep (t :: names) := by with_unfolding_all rfl

theorem join_eq_empty_iff {names : List String} : join "," names = "" ↔ names = [] ∨ names = [""] := by
  match names with
  | [] => exact ⟨fun _ => .inl rfl, fun _ => join_nil _⟩
  | [s] =>
      rw [join_singleton]
      simp
  | s :: t :: names =>
      rw [join_cons_cons, String.ext_iff]
      simp

theorem splitOn_join {names : List String} (hne : names ≠ []) :
    (join "," names).toList.splitOn ',' = names.flatMap fun name => name.toList.splitOn ',' := by
  match names with
  | [s] =>
      rw [join_singleton, List.flatMap_singleton]
  | s :: t :: names =>
      have ih : (join "," (t :: names)).toList.splitOn ',' =
          (t :: names).flatMap fun name => name.toList.splitOn ',' := splitOn_join (List.cons_ne_nil _ _)
      have htext : (join "," (s :: t :: names)).toList =
          s.toList ++ ',' :: (join "," (t :: names)).toList := by
        rw [join_cons_cons]
        simp
      rw [htext, List.splitOn_append_cons_self, ih]
      rfl

theorem mem_splitCommas_join {names : List String} (hne : names ≠ []) {label : String} :
    label ∈ splitCommas (join "," names) ↔ ∃ name ∈ names, label ∈ splitCommas name := by
  simp only [splitCommas, splitOn_join hne, List.map_flatMap, List.mem_flatMap]

theorem not_mem_of_mem_splitOn {l w : List Char} (h : w ∈ l.splitOn ',') : ',' ∉ w := by
  induction l generalizing w with
  | nil =>
      rw [List.splitOn_nil, List.mem_singleton] at h
      rw [h]
      exact List.not_mem_nil
  | cons c l ih =>
      rw [List.splitOn_cons_eq_if_modifyHead] at h
      split at h
      · rcases List.mem_cons.mp h with rfl | h
        · exact List.not_mem_nil
        · exact ih h
      · next hc =>
        cases hsplit : l.splitOn ',' with
        | nil => exact absurd hsplit (List.splitOn_ne_nil _ _)
        | cons v vs =>
            rw [hsplit] at h ih
            rcases List.mem_cons.mp h with rfl | h
            · rw [List.mem_cons, not_or]
              exact ⟨fun heq => hc (by rw [heq, beq_self_eq_true]), ih List.mem_cons_self⟩
            · exact ih (List.mem_cons_of_mem _ h)

theorem comma_not_mem_of_mem_splitCommas {label name : String} (h : label ∈ splitCommas name) :
    ',' ∉ label.toList := by
  obtain ⟨w, hw, rfl⟩ := List.mem_map.mp h
  rw [String.toList_ofList]
  exact not_mem_of_mem_splitOn hw

theorem splitCommas_of_not_mem {name : String} (h : ',' ∉ name.toList) : splitCommas name = [name] := by
  rw [splitCommas, List.splitOn_eq_singleton h]
  simp

theorem mem_wallTags {names : List String} {label : String} :
    label ∈ wallTags names ↔ (names ≠ [] ∧ names ≠ [""]) ∧ ∃ name ∈ names, label ∈ splitCommas name := by
  unfold wallTags
  dsimp only
  simp only [ne_eq, join_eq_empty_iff, not_or]
  split
  · next h =>
    rw [sortStrings, List.mem_insertionSort, List.mem_dedup, mem_splitCommas_join h.1]
    exact (and_iff_right h).symm
  · next h => simp only [h, false_and, List.not_mem_nil]

/-! ## Labels -/

section

variable {rt : Runtime} {durable : Bool}

theorem boardLabel_boardLabel (hstable : CanonicalStable rt) (name : String) :
    boardLabel rt durable (boardLabel rt durable name) = boardLabel rt durable name := by
  cases durable with
  | false => rfl
  | true =>
      change tagGroupKey rt (tagGroupKey rt name) = tagGroupKey rt name
      by_cases hname : canonicalizeTag rt name = ""
      · have hkey : tagGroupKey rt name = name := if_pos hname
        rw [hkey, hkey]
      · have hkey : tagGroupKey rt name = canonicalizeTag rt name := if_neg hname
        rw [hkey, (hstable.isCanonicalTag hname).groupKey]

/-- A name with a comma has no canonical form and stays as it is. -/
theorem boardLabel_of_comma (hcomma : KeepsCommas rt) {name : String} (hname : ',' ∈ name.toList) :
    boardLabel rt durable name = name := by
  have hnone : canonicalizeTag rt name = "" :=
    canonicalizeTag_of_refused (by decide +kernel) (by decide) (by decide +kernel) (by decide +kernel)
      (by decide +kernel) hcomma hname
  cases durable with
  | false => rfl
  | true => exact if_pos hnone

theorem boardLabel_eq_self_iff {p : ProjectRow} {name : String} :
    boardLabel rt p.expiresAt.isNone name = name ↔ (p.expiresAt = none → tagGroupKey rt name = name) := by
  rw [boardLabel, ← Option.isNone_iff_eq_none]
  by_cases hdurable : p.expiresAt.isNone = true
  · rw [if_pos hdurable]
    exact ⟨fun h _ => h, fun h => h hdurable⟩
  · rw [if_neg hdurable]
    exact iff_of_true rfl fun h => absurd h hdurable

/-- The board lists the labels of the names that are attached. -/
theorem mem_listTagsForTodos {db : DB} (htable : TodoTable db) (hprojects : (db.projects.map (·.id)).Nodup)
    {t : TodoRow} (ht : t ∈ db.todos) {p : ProjectRow} (hp : p ∈ db.projects) (hpid : p.id = t.projectID)
    {label : String} : label ∈ listTagsForTodos rt db [t.id] t.id ↔
      ∃ name ∈ attachedTagNames db t.id, label = boardLabel rt p.expiresAt.isNone name := by
  rw [listTagsForTodos, if_pos (List.mem_singleton_self _), sortStrings, List.mem_insertionSort, List.mem_dedup]
  constructor
  · intro h
    obtain ⟨tt, htt, h⟩ := List.mem_flatMap.mp h
    obtain ⟨g, hg, h⟩ := List.mem_flatMap.mp h
    obtain ⟨t', ht', h⟩ := List.mem_flatMap.mp h
    obtain ⟨p', hp', rfl⟩ := List.mem_map.mp h
    rw [List.mem_filter, beq_iff_eq] at ht' hp'
    have hid : t'.id = t.id := ht'.2.trans (beq_iff_eq.mp (List.mem_filter.mp htt).2)
    obtain rfl := List.inj_on_of_nodup_map htable.ids ht'.1 ht hid
    obtain rfl := List.inj_on_of_nodup_map hprojects hp'.1 hp (hp'.2.trans hpid.symm)
    exact ⟨g.name, List.mem_flatMap.mpr ⟨tt, htt, List.mem_map_of_mem hg⟩, rfl⟩
  · rintro ⟨name, hname, rfl⟩
    obtain ⟨tt, htt, hname⟩ := List.mem_flatMap.mp hname
    obtain ⟨g, hg, rfl⟩ := List.mem_map.mp hname
    have htodo : tt.todoID = t.id := beq_iff_eq.mp (List.mem_filter.mp htt).2
    refine List.mem_flatMap.mpr ⟨tt, htt, List.mem_flatMap.mpr ⟨g, hg, List.mem_flatMap.mpr ⟨t, ?_, ?_⟩⟩⟩
    · exact List.mem_filter.mpr ⟨ht, beq_iff_eq.mpr htodo.symm⟩
    · exact List.mem_map.mpr ⟨p, List.mem_filter.mpr ⟨hp, beq_iff_eq.mpr hpid⟩, rfl⟩

/-- The names that are joined and cut are the labels exactly if every name is its own label and has
no comma, and the names are not the empty one alone. -/
theorem mem_wallTags_iff (hstable : CanonicalStable rt) (hcomma : KeepsCommas rt) {names : List String} :
    (∀ label, label ∈ wallTags names ↔ ∃ name ∈ names, label = boardLabel rt durable name) ↔
      names ≠ [""] ∧ ∀ name ∈ names, ',' ∉ name.toList ∧ boardLabel rt durable name = name := by
  constructor
  · intro h
    have hnot : names ≠ [""] := by
      rintro rfl
      have hmem := (h (boardLabel rt durable "")).mpr ⟨"", List.mem_singleton_self _, rfl⟩
      exact (mem_wallTags.mp hmem).1.2 rfl
    refine ⟨hnot, fun name hname => ?_⟩
    have hne : names ≠ [] := List.ne_nil_of_mem hname
    have hfree : ',' ∉ name.toList := by
      intro hmem
      -- its label has the comma, and no piece does
      have hlabel := (h name).mpr ⟨name, hname, (boardLabel_of_comma hcomma hmem).symm⟩
      obtain ⟨_, other, _, hpiece⟩ := mem_wallTags.mp hlabel
      exact comma_not_mem_of_mem_splitCommas hpiece hmem
    have hself : name ∈ wallTags names := by
      refine mem_wallTags.mpr ⟨⟨hne, hnot⟩, name, hname, ?_⟩
      rw [splitCommas_of_not_mem hfree]
      exact List.mem_singleton_self _
    obtain ⟨other, _, hother⟩ := (h name).mp hself
    refine ⟨hfree, ?_⟩
    rw [hother, boardLabel_boardLabel hstable]
  · rintro ⟨hnot, hnames⟩ label
    rw [mem_wallTags]
    constructor
    · rintro ⟨-, name, hname, hpiece⟩
      obtain ⟨hfree, hlabel⟩ := hnames name hname
      rw [splitCommas_of_not_mem hfree, List.mem_singleton] at hpiece
      exact ⟨name, hname, hpiece.trans hlabel.symm⟩
    · rintro ⟨name, hname, rfl⟩
      obtain ⟨hfree, hlabel⟩ := hnames name hname
      refine ⟨⟨List.ne_nil_of_mem hname, hnot⟩, name, hname, ?_⟩
      rw [splitCommas_of_not_mem hfree, hlabel]
      exact List.mem_singleton_self _

end

/-- A story shows the same tags on the wall and on the board exactly if each of its tag rows has a
name without commas that is its own label, and it has not the empty name as its only one. -/
theorem wall_shows_board_tags_iff {rt : Runtime} (hstable : CanonicalStable rt) (hcomma : KeepsCommas rt)
    {db : DB} (htable : TodoTable db) (hprojects : (db.projects.map (·.id)).Nodup) {p : ProjectRow}
    (hp : p ∈ db.projects) {s : WallStory} (hs : s ∈ listWallStories db p.id) :
    (∀ label, label ∈ s.todo.tags ↔
        label ∈ listTagsForTodos rt db [s.placement.todoID] s.placement.todoID) ↔
      attachedTagNames db s.placement.todoID ≠ [""] ∧
        ∀ name ∈ attachedTagNames db s.placement.todoID,
          ',' ∉ name.toList ∧ (p.expiresAt = none → tagGroupKey rt name = name) := by
  obtain ⟨t, ht, hid, hpid, htags⟩ := exists_of_mem_listWallStories hs
  rw [htags, ← hid]
  simp only [mem_listTagsForTodos htable hprojects ht hp hpid.symm, mem_wallTags_iff hstable hcomma,
    boardLabel_eq_self_iff]

/-- A runtime that knows one text without a comma. -/
def bugRuntime : Runtime := { plainRuntime with nfc := fun s => if s = "bug" then s else "," }

theorem keepsCommas_bug : KeepsCommas bugRuntime := by
  intro s hmem
  have hne : s ≠ "bug" := by
    rintro rfl
    exact absurd hmem (by decide)
  change ',' ∈ (if s = "bug" then s else ",").toList
  rw [if_neg hne]
  decide

theorem canonicalStable_bug : CanonicalStable bugRuntime := by
  intro name hname
  have hbug : canonicalizeTag bugRuntime name = "bug" := by
    by_cases htrim : trimSpace name = "bug"
    · rw [canonicalizeTag, htrim]
      decide +kernel
    · refine absurd ?_ hname
      rw [canonicalizeTag]
      have hnfc : bugRuntime.nfc (trimSpace name) = "," := if_neg htrim
      have hscan : (bugRuntime.nfc (toLower ",")).toList.foldlM TagScan.step {} = none := by decide +kernel
      simp only [hnfc, hscan]
      split <;> rfl
  rw [hbug]
  decide +kernel

/-- A story with a tag, on the wall of its board. -/
def taggedWall (names : List (ℤ × String)) : DB where
  projects := [{ defaultProjectRow 0 with id := 1, name := "Board", slug := "board" }]
  todos := [⟨1, 1, 1, "a", "", "backlog", 1000, none, none, none, none, none, 0, 0, none, none, none, none⟩]
  tags := names.map fun n => ⟨n.1, some n.1, n.2, 0, none, none⟩
  todoTags := names.map fun n => ⟨1, n.1⟩
  placements := [⟨1, 1, 0, 0, 1⟩]

theorem wall_shows_board_tags_bug :
    (listWallStories (taggedWall [(1, "bug")]) 1).map (·.todo.tags) = [["bug"]] ∧
      ∀ s ∈ listWallStories (taggedWall [(1, "bug")]) 1, ∀ label, label ∈ s.todo.tags ↔
        label ∈ listTagsForTodos bugRuntime (taggedWall [(1, "bug")]) [s.placement.todoID] s.placement.todoID := by
  have htable : TodoTable (taggedWall [(1, "bug")]) := ⟨by decide, by decide, by decide⟩
  refine ⟨by decide +kernel, fun s hs => ?_⟩
  have htodo : s.placement.todoID = 1 := by
    have hall : ∀ s ∈ listWallStories (taggedWall [(1, "bug")]) 1, s.placement.todoID = 1 := by decide +kernel
    exact hall s hs
  refine (wall_shows_board_tags_iff canonicalStable_bug keepsCommas_bug htable (by decide)
    (List.mem_singleton_self _) hs).mpr ?_
  rw [htodo]
  decide +kernel

/-- Two rows of one logical tag are two tags on the wall, and a name with a comma is two as well. -/
theorem wall_splits_tags :
    (listWallStories (taggedWall [(1, "make space"), (2, "make-space")]) 1).map (·.todo.tags) =
        [["make space", "make-space"]] ∧
      listTagsForTodos plainRuntime (taggedWall [(1, "make space"), (2, "make-space")]) [1] 1 =
        ["make-space"] ∧
      (listWallStories (taggedWall [(1, "red,blue")]) 1).map (·.todo.tags) = [["blue", "red"]] ∧
      listTagsForTodos plainRuntime (taggedWall [(1, "red,blue")]) [1] 1 = ["red,blue"] := by
  decide +kernel

end Scrumboy
