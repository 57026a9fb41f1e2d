import Scrumboy.Store.BoardLanes
import Mathlib.Data.List.Dedup
import Mathlib.Data.List.Perm.Subperm

/-!
# Tag filters of the board

A request names tags, and a todo passes when it has them all. One tag of a request can
stand for several rows, so a filter is a list of groups of rows: any row of a group will
do, and every group has to be met. There are three forms of the query for the todos that
meet the groups, and they agree with what the names mean.
-/

set_option linter.dupNamespace false

namespace Scrumboy

open Go Sql

/-! ## The forms of the query -/

/-- One leg: the todos with a tag of the group. -/
def tagLeg (db : DB) (group : List ℤ) : List ℤ :=
  (db.todoTags.filter fun tt => group.contains tt.tagID).map (·.todoID)

/-- The form for one group, `SELECT DISTINCT`. -/
def singleTagFilterCTE (db : DB) (group : List ℤ) : List ℤ := (tagLeg db group).dedup

/-- The form with `INTERSECT` between the legs, which leaves no duplicates. Without legs
there is no query, and the board does not ask for one. -/
def intersectBoardTagFilterCTE (db : DB) : List (List ℤ) → List ℤ
  | [] => []
  | group :: groups =>
      groups.foldl (fun ids group => ids.filter fun id => (tagLeg db group).contains id)
        (tagLeg db group).dedup

/-- The rows `(tag_id, group_no)` of the table of selected tags. -/
def selectedTags (groups : List (List ℤ)) : List (ℤ × ℕ) :=
  groups.zipIdx.flatMap fun g => g.1.map fun tagID => (tagID, g.2 + 1)

/-- The group numbers that the tags of a todo are in, with repetitions. -/
def todoGroups (db : DB) (groups : List (List ℤ)) (todoID : ℤ) : List ℕ :=
  (db.todoTags.filter fun tt => tt.todoID == todoID).flatMap fun tt =>
    ((selectedTags groups).filter fun st => st.1 == tt.tagID).map (·.2)

/-- The form with `GROUP BY tt.todo_id HAVING COUNT(DISTINCT st.group_no) = ?`. -/
def groupedValuesBoardTagFilterCTE (db : DB) (groups : List (List ℤ)) : List ℤ :=
  (db.todoTags.map (·.todoID)).dedup.filter fun todoID =>
    decide ((todoGroups db groups todoID).dedup.length = groups.length)

def boardTagFilterCTE (db : DB) (filter : BoardTagFilter) : List ℤ :=
  match filter.tagIDGroups with
  | [group] => singleTagFilterCTE db group
  | groups => intersectBoardTagFilterCTE db groups

section

variable {db : DB} {groups : List (List ℤ)} {todoID : ℤ}

theorem mem_tagLeg {group : List ℤ} :
    todoID ∈ tagLeg db group ↔ ∃ tt ∈ db.todoTags, tt.todoID = todoID ∧ tt.tagID ∈ group := by
  simp only [tagLeg, List.mem_map, List.mem_filter, List.contains_iff_mem]
  constructor
  · rintro ⟨tt, ⟨htt, hgroup⟩, heq⟩
    exact ⟨tt, htt, heq, hgroup⟩
  · rintro ⟨tt, htt, heq, hgroup⟩
    exact ⟨tt, ⟨htt, hgroup⟩, heq⟩

/-- A todo meets a list of groups. -/
def MeetsGroups (db : DB) (groups : List (List ℤ)) (todoID : ℤ) : Prop :=
  ∀ group ∈ groups, ∃ tt ∈ db.todoTags, tt.todoID = todoID ∧ tt.tagID ∈ group

theorem mem_singleTagFilterCTE {group : List ℤ} :
    todoID ∈ singleTagFilterCTE db group ↔ MeetsGroups db [group] todoID := by
  rw [singleTagFilterCTE, List.mem_dedup, mem_tagLeg]
  simp [MeetsGroups]

theorem mem_foldl_intersect {ids : List ℤ} :
    todoID ∈ groups.foldl (fun ids group => ids.filter fun id => (tagLeg db group).contains id) ids ↔
      todoID ∈ ids ∧ MeetsGroups db groups todoID := by
  induction groups generalizing ids with
  | nil => simp [MeetsGroups]
  | cons group groups ih =>
      rw [List.foldl_cons, ih, List.mem_filter, List.contains_iff_mem, mem_tagLeg, and_assoc]
      simp [MeetsGroups]

theorem mem_intersectBoardTagFilterCTE (hne : groups ≠ []) :
    todoID ∈ intersectBoardTagFilterCTE db groups ↔ MeetsGroups db groups todoID := by
  cases groups with
  | nil => exact absurd rfl hne
  | cons group groups =>
      rw [intersectBoardTagFilterCTE, mem_foldl_intersect, List.mem_dedup, mem_tagLeg]
      simp [MeetsGroups]

theorem mem_todoGroups {n : ℕ} :
    n ∈ todoGroups db groups todoID ↔ ∃ i group, groups[i]? = some group ∧ n = i + 1 ∧
      ∃ tt ∈ db.todoTags, tt.todoID = todoID ∧ tt.tagID ∈ group := by
  simp only [todoGroups, selectedTags, List.mem_flatMap, List.mem_filter, beq_iff_eq, List.mem_map,
    Prod.exists, List.mem_zipIdx_iff_getElem?]
  constructor
  · rintro ⟨tt, ⟨htt, htodo⟩, tagID, m, ⟨⟨group, i, hgroup, tagID', hmem, heq⟩, htag⟩, rfl⟩
    obtain ⟨rfl, rfl⟩ := Prod.mk.inj heq
    exact ⟨i, group, by simpa using hgroup, rfl, tt, htt, htodo, htag ▸ hmem⟩
  · rintro ⟨i, group, hgroup, rfl, tt, htt, htodo, hmem⟩
    exact ⟨tt, ⟨htt, htodo⟩, tt.tagID, i + 1,
      ⟨⟨group, i, by simpa using hgroup, tt.tagID, hmem, rfl⟩, rfl⟩, rfl⟩

/-- Counting the distinct groups of a todo finds out whether it meets them all. -/
theorem length_dedup_todoGroups :
    (todoGroups db groups todoID).dedup.length = groups.length ↔ MeetsGroups db groups todoID := by
  have hsub : (todoGroups db groups todoID).dedup ⊆ List.range' 1 groups.length := by
    intro n hn
    obtain ⟨i, group, hgroup, rfl, _⟩ := mem_todoGroups.mp (List.mem_dedup.mp hn)
    have hlt := (List.getElem?_eq_some_iff.mp hgroup).1
    rw [List.mem_range'_1]
    omega
  have hsubperm := List.subperm_of_subset (List.nodup_dedup (todoGroups db groups todoID)) hsub
  constructor
  · intro hlength group hgroup
    have hperm := hsubperm.perm_of_length_le (by rw [List.length_range', hlength])
    obtain ⟨i, hi, rfl⟩ := List.mem_iff_getElem.mp hgroup
    have hmem : i + 1 ∈ todoGroups db groups todoID := by
      rw [← List.mem_dedup, hperm.mem_iff, List.mem_range'_1]
      omega
    obtain ⟨j, group', hgroup', hij, htag⟩ := mem_todoGroups.mp hmem
    obtain rfl : i = j := Nat.succ_injective hij
    rw [List.getElem?_eq_getElem hi] at hgroup'
    rw [Option.some.inj hgroup']
    exact htag
  · intro hmeets
    have hsup : List.range' 1 groups.length ⊆ (todoGroups db groups todoID).dedup := by
      intro n hn
      rw [List.mem_range'_1] at hn
      have hi : n - 1 < groups.length := by omega
      rw [List.mem_dedup, mem_todoGroups]
      exact ⟨n - 1, groups[n - 1], List.getElem?_eq_getElem hi, by omega,
        hmeets _ (List.getElem_mem hi)⟩
    have hback := List.subperm_of_subset (List.nodup_range' : (List.range' 1 groups.length).Nodup) hsup
    have hle := hsubperm.length_le
    have hge := hback.length_le
    rw [List.length_range'] at hle hge
    omega

theorem mem_groupedValuesBoardTagFilterCTE (hne : groups ≠ []) :
    todoID ∈ groupedValuesBoardTagFilterCTE db groups ↔ MeetsGroups db groups todoID := by
  rw [groupedValuesBoardTagFilterCTE, List.mem_filter, decide_eq_true_eq, length_dedup_todoGroups,
    List.mem_dedup]
  refine and_iff_right_of_imp fun hmeets => ?_
  obtain ⟨group, hgroup⟩ := List.exists_mem_of_ne_nil groups hne
  obtain ⟨tt, htt, rfl, _⟩ := hmeets group hgroup
  exact List.mem_map_of_mem htt

theorem mem_boardTagFilterCTE {filter : BoardTagFilter} (hne : filter.tagIDGroups ≠ []) :
    todoID ∈ boardTagFilterCTE db filter ↔ MeetsGroups db filter.tagIDGroups todoID := by
  unfold boardTagFilterCTE
  split
  · rename_i group hgroups
    rw [hgroups, mem_singleTagFilterCTE]
  · exact mem_intersectBoardTagFilterCTE hne

theorem taggedTodo_iff {filter : BoardTagFilter} (hfilter : filter.noFilter = false) :
    taggedTodo db filter todoID = true ↔ MeetsGroups db filter.tagIDGroups todoID := by
  simp [taggedTodo, hfilter, MeetsGroups]

end

/-! ## What the names mean -/

/-- The logical tag that a name stands for: its group key on a durable project, and the name
itself on a temporary board, in both cases without the blanks around it. -/
def logicalTag (rt : Runtime) (durable : Bool) (name : String) : String :=
  if durable then tagGroupKey rt (trimSpace name) else trimSpace name

/-- A tag row is in the scope of a board when it is on a todo of the board. -/
def InScope (db : DB) (projectID : ℤ) (g : TagRow) : Prop :=
  g ∈ db.tags ∧ ∃ tt ∈ db.todoTags, tt.tagID = g.id ∧
    ∃ t ∈ db.todos, t.id = tt.todoID ∧ t.projectID = projectID

/-- A todo has a logical tag when a row of that tag is attached to it. -/
def HasTag (rt : Runtime) (db : DB) (projectID : ℤ) (durable : Bool) (todoID : ℤ) (tag : String) :
    Prop :=
  ∃ g, InScope db projectID g ∧ logicalTag rt durable g.name = tag ∧
    ∃ tt ∈ db.todoTags, tt.todoID = todoID ∧ tt.tagID = g.id

/-- The logical tags that the filters of a request name; blank filters name none. -/
def Named (rt : Runtime) (durable : Bool) (rawFilters : List String) (tag : String) : Prop :=
  ∃ raw ∈ rawFilters, trimSpace raw ≠ "" ∧ logicalTag rt durable raw = tag

section

variable {rt : Runtime} {db : DB} {projectID : ℤ} {durable : Bool} {rawFilters : List String}

theorem logicalTag_ne_empty {name : String} (h : trimSpace name ≠ "") :
    logicalTag rt durable name ≠ "" := by
  unfold logicalTag tagGroupKey
  split
  · split
    · exact h
    · rename_i hcanonical
      exact hcanonical
  · exact h

theorem normalizeTagFilter_eq (name : String) :
    normalizeTagFilter rt name durable =
      if trimSpace name = "" then "" else logicalTag rt durable name := rfl

theorem normalizeTagFilter_trimSpace (name : String) :
    normalizeTagFilter rt (trimSpace name) durable = normalizeTagFilter rt name durable := by
  unfold normalizeTagFilter
  rw [trimSpace_trimSpace]

/-- The keys of the filters are the tags that they name. -/
theorem mem_normalizeBoardTagFilters {tag : String} :
    tag ∈ normalizeBoardTagFilters rt rawFilters durable ↔ Named rt durable rawFilters tag := by
  have hfold : ∀ (raws keys : List String), tag ∈ raws.foldl (fun keys raw =>
      let key := normalizeTagFilter rt (trimSpace raw) durable
      if key = "" ∨ key ∈ keys then keys else keys ++ [key]) keys ↔
        tag ∈ keys ∨ Named rt durable raws tag := by
    intro raws
    induction raws with
    | nil => simp [Named]
    | cons raw raws ih =>
        intro keys
        rw [List.foldl_cons, ih]
        have hnamed : Named rt durable (raw :: raws) tag ↔
            trimSpace raw ≠ "" ∧ logicalTag rt durable raw = tag ∨ Named rt durable raws tag := by
          simp [Named]
        rw [hnamed]
        have hkey : normalizeTagFilter rt (trimSpace raw) durable =
            if trimSpace raw = "" then "" else logicalTag rt durable raw := by
          rw [normalizeTagFilter_trimSpace, normalizeTagFilter_eq]
        generalize normalizeTagFilter rt (trimSpace raw) durable = key at hkey
        by_cases hblank : trimSpace raw = ""
        · rw [if_pos hblank] at hkey
          simp [hkey, hblank]
        · rw [if_neg hblank] at hkey
          have hne : key ≠ "" := hkey ▸ logicalTag_ne_empty hblank
          rw [← hkey]
          by_cases hseen : key ∈ keys
          · simp only [hseen, or_true, if_true, ne_eq, hblank, not_false_eq_true, true_and]
            constructor
            · rintro (h | h)
              · exact .inl h
              · exact .inr (.inr h)
            · rintro (h | rfl | h)
              · exact .inl h
              · exact .inl hseen
              · exact .inr h
          · simp only [hne, hseen, or_self, if_false, List.mem_append, List.mem_singleton, ne_eq,
              hblank, not_false_eq_true, true_and, or_assoc, eq_comm]
  rw [normalizeBoardTagFilters, hfold]
  simp

/-- The tag rows that a board scans to resolve its filters. -/
theorem mem_scan {g : TagRow} :
    g ∈ orderBy (·.id) (db.tags.filter fun g => db.todoTags.any fun tt => tt.tagID == g.id &&
        db.todos.any fun t => t.id == tt.todoID && t.projectID == projectID) ↔
      InScope db projectID g := by
  simp [InScope]

/-- The group of a key has the rows in scope that are of the tag. -/
theorem mem_group {key : String} (hkey : key ≠ "") {tagID : ℤ} :
    tagID ∈ ((orderBy (·.id) (db.tags.filter fun g => db.todoTags.any fun tt => tt.tagID == g.id &&
        db.todos.any fun t => t.id == tt.todoID && t.projectID == projectID)).filter fun g =>
          normalizeTagFilter rt g.name durable == key).map (·.id) ↔
      ∃ g, InScope db projectID g ∧ logicalTag rt durable g.name = key ∧ g.id = tagID := by
  rw [List.mem_map]
  constructor
  · rintro ⟨g, hg, rfl⟩
    obtain ⟨hscan, hname⟩ := List.mem_filter.mp hg
    rw [beq_iff_eq, normalizeTagFilter_eq] at hname
    split at hname
    · exact absurd hname.symm hkey
    · exact ⟨g, mem_scan.mp hscan, hname, rfl⟩
  · rintro ⟨g, hscope, hname, rfl⟩
    refine ⟨g, List.mem_filter.mpr ⟨mem_scan.mpr hscope, ?_⟩, rfl⟩
    rw [beq_iff_eq, normalizeTagFilter_eq, if_neg, hname]
    intro hblank
    apply hkey
    have hcanonical : canonicalizeTag rt "" = "" := if_pos (by decide +kernel)
    rw [← hname, logicalTag, hblank, tagGroupKey, if_pos hcanonical, ite_self]

theorem resolveBoardTagFilter_noFilter :
    (resolveBoardTagFilter rt db projectID durable rawFilters).noFilter = true ↔
      ∀ tag, ¬ Named rt durable rawFilters tag := by
  have hkeys : normalizeBoardTagFilters rt rawFilters durable = [] ↔
      ∀ tag, ¬ Named rt durable rawFilters tag := by
    rw [List.eq_nil_iff_forall_not_mem]
    exact forall_congr' fun tag => mem_normalizeBoardTagFilters.not
  rw [← hkeys, resolveBoardTagFilter]
  split
  · rename_i h
    exact iff_of_true rfl h
  · rename_i h
    exact iff_of_false (by simp) h

theorem Named.ne_empty {tag : String} (h : Named rt durable rawFilters tag) : tag ≠ "" := by
  obtain ⟨raw, _, hblank, rfl⟩ := h
  exact logicalTag_ne_empty hblank

/-- The groups of a filter, tag by tag. -/
theorem forall_tagIDGroups {P : List ℤ → Prop}
    (hfilter : (resolveBoardTagFilter rt db projectID durable rawFilters).noFilter = false) :
    (∀ group ∈ (resolveBoardTagFilter rt db projectID durable rawFilters).tagIDGroups, P group) ↔
      ∀ tag, Named rt durable rawFilters tag →
        P (((orderBy (·.id) (db.tags.filter fun g => db.todoTags.any fun tt => tt.tagID == g.id &&
          db.todos.any fun t => t.id == tt.todoID && t.projectID == projectID)).filter fun g =>
            normalizeTagFilter rt g.name durable == tag).map (·.id)) := by
  have hkeys : normalizeBoardTagFilters rt rawFilters durable ≠ [] := by
    intro hnil
    rw [resolveBoardTagFilter, if_pos hnil] at hfilter
    cases hfilter
  rw [resolveBoardTagFilter, if_neg hkeys]
  simp only [List.forall_mem_map, mem_normalizeBoardTagFilters]

theorem meetsGroups_iff (todoID : ℤ)
    (hfilter : (resolveBoardTagFilter rt db projectID durable rawFilters).noFilter = false) :
    MeetsGroups db (resolveBoardTagFilter rt db projectID durable rawFilters).tagIDGroups todoID ↔
      ∀ tag, Named rt durable rawFilters tag → HasTag rt db projectID durable todoID tag := by
  rw [MeetsGroups, forall_tagIDGroups hfilter]
  refine forall₂_congr fun tag hnamed => ?_
  constructor
  · rintro ⟨tt, htt, htodo, hgroup⟩
    obtain ⟨g, hscope, hname, hid⟩ := (mem_group hnamed.ne_empty).mp hgroup
    exact ⟨g, hscope, hname, tt, htt, htodo, hid.symm⟩
  · rintro ⟨g, hscope, hname, tt, htt, htodo, hid⟩
    exact ⟨tt, htt, htodo, (mem_group hnamed.ne_empty).mpr ⟨g, hscope, hname, hid.symm⟩⟩

theorem tagIDGroups_ne_nil
    (hfilter : (resolveBoardTagFilter rt db projectID durable rawFilters).noFilter = false) :
    (resolveBoardTagFilter rt db projectID durable rawFilters).tagIDGroups ≠ [] := by
  have hkeys : normalizeBoardTagFilters rt rawFilters durable ≠ [] := by
    intro hnil
    rw [resolveBoardTagFilter, if_pos hnil] at hfilter
    cases hfilter
  rw [resolveBoardTagFilter, if_neg hkeys]
  simpa using hkeys

/-- A filter matches nothing when a tag that it names has no row in scope. -/
theorem boardTagFilterMatchesNothing_iff :
    boardTagFilterMatchesNothing (resolveBoardTagFilter rt db projectID durable rawFilters) = true ↔
      ∃ tag, Named rt durable rawFilters tag ∧
        ∀ g, InScope db projectID g → logicalTag rt durable g.name ≠ tag := by
  cases hfilter : (resolveBoardTagFilter rt db projectID durable rawFilters).noFilter with
  | true =>
      refine iff_of_false (by simp [boardTagFilterMatchesNothing, hfilter]) ?_
      rintro ⟨tag, hnamed, _⟩
      exact resolveBoardTagFilter_noFilter.mp hfilter tag hnamed
  | false =>
      have hempty : (resolveBoardTagFilter rt db projectID durable rawFilters).tagIDGroups.isEmpty =
          false := by
        rw [List.isEmpty_eq_false_iff]
        exact tagIDGroups_ne_nil hfilter
      have hnonempty := forall_tagIDGroups (P := fun group => group ≠ []) hfilter
      rw [boardTagFilterMatchesNothing, hfilter, hempty, Bool.not_false, Bool.true_and,
        Bool.false_or, ← not_iff_not]
      simp only [Bool.not_eq_true, List.any_eq_false, List.isEmpty_iff, not_exists, not_and,
        not_forall, not_not]
      refine hnonempty.trans (forall₂_congr fun tag hnamed => ?_)
      rw [List.ne_nil_iff_exists_cons]
      constructor
      · rintro ⟨tagID, rest, hcons⟩
        obtain ⟨g, hscope, hname, _⟩ := (mem_group hnamed.ne_empty).mp
          (hcons ▸ List.mem_cons_self)
        exact ⟨g, hscope, hname⟩
      · rintro ⟨g, hscope, hname⟩
        exact List.ne_nil_iff_exists_cons.mp (List.ne_nil_of_mem
          ((mem_group hnamed.ne_empty).mpr ⟨g, hscope, hname, rfl⟩))

/-- In every form of the query a todo passes exactly when it has every tag that the filters
name, and the filter matches nothing exactly when one of these tags has no row on the
board, in which case no todo passes. -/
theorem board_tag_filter (rt : Runtime) (db : DB) (projectID : ℤ) (durable : Bool)
    (rawFilters : List String) :
    let filter := resolveBoardTagFilter rt db projectID durable rawFilters
    let Passes := fun todoID => ∀ tag, Named rt durable rawFilters tag →
      HasTag rt db projectID durable todoID tag
    (filter.noFilter = true ↔ ∀ tag, ¬ Named rt durable rawFilters tag) ∧
      (filter.noFilter = false → ∀ todoID,
        (todoID ∈ boardTagFilterCTE db filter ↔ Passes todoID) ∧
        (∀ group, filter.tagIDGroups = [group] →
          (todoID ∈ singleTagFilterCTE db group ↔ Passes todoID)) ∧
        (todoID ∈ intersectBoardTagFilterCTE db filter.tagIDGroups ↔ Passes todoID) ∧
        (todoID ∈ groupedValuesBoardTagFilterCTE db filter.tagIDGroups ↔ Passes todoID)) ∧
      (∀ (f : BoardFilter) (cond : TodoRow → Bool) (t : TodoRow),
        t ∈ filteredTodos db projectID filter f cond ↔
          t ∈ db.todos ∧ boardWhere db projectID f t = true ∧ cond t = true ∧ Passes t.id) ∧
      (boardTagFilterMatchesNothing filter = true ↔
        ∃ tag, Named rt durable rawFilters tag ∧
          ∀ g, InScope db projectID g → logicalTag rt durable g.name ≠ tag) ∧
      (boardTagFilterMatchesNothing filter = true → ∀ f cond,
        filteredTodos db projectID filter f cond = []) := by
  intro filter Passes
  have hmatches : boardTagFilterMatchesNothing filter = true → ∀ todoID, ¬ Passes todoID := by
    intro hnothing todoID hpasses
    obtain ⟨tag, hnamed, hnone⟩ := boardTagFilterMatchesNothing_iff.mp hnothing
    obtain ⟨g, hscope, hname, _⟩ := hpasses tag hnamed
    exact hnone g hscope hname
  have htagged : ∀ todoID, taggedTodo db filter todoID = true ↔ Passes todoID := by
    intro todoID
    cases hfilter : filter.noFilter with
    | true =>
        refine iff_of_true (by simp [taggedTodo, hfilter]) ?_
        intro tag hnamed
        exact absurd hnamed (resolveBoardTagFilter_noFilter.mp hfilter tag)
    | false => exact (taggedTodo_iff hfilter).trans (meetsGroups_iff todoID hfilter)
  refine ⟨resolveBoardTagFilter_noFilter, ?_, ?_, boardTagFilterMatchesNothing_iff, ?_⟩
  · intro hfilter todoID
    have hne := tagIDGroups_ne_nil hfilter
    have hmeets := meetsGroups_iff todoID hfilter
    refine ⟨(mem_boardTagFilterCTE hne).trans hmeets, ?_,
      (mem_intersectBoardTagFilterCTE hne).trans hmeets,
      (mem_groupedValuesBoardTagFilterCTE hne).trans hmeets⟩
    intro group hgroup
    rw [mem_singleTagFilterCTE, ← hgroup]
    exact hmeets
  · intro f cond t
    unfold filteredTodos
    split
    · rename_i hnothing
      refine iff_of_false (by simp) ?_
      rintro ⟨_, _, _, hpasses⟩
      exact hmatches hnothing t.id hpasses
    · rw [List.mem_filter, Bool.and_eq_true, Bool.and_eq_true, htagged]
      constructor
      · rintro ⟨ht, ⟨hpasses, hwhere⟩, hcond⟩
        exact ⟨ht, hwhere, hcond, hpasses⟩
      · rintro ⟨ht, hwhere, hcond, hpasses⟩
        exact ⟨ht, ⟨hpasses, hwhere⟩, hcond⟩
  · intro hnothing f cond
    rw [filteredTodos, if_pos hnothing]

end

end Scrumboy
