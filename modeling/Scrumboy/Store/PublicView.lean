import Scrumboy.Store.PublicBoard

/-!
# What the public board depends on

`PublicView` is the part of a project that its public board may depend on: the columns of
the project row that are shown, the lanes, the priorities, the numbers of the sprints, the
todos that are not archived with the columns that are shown, their tags by name and shared
color, and the links between them. Ids of rows are not part of it; of the ids of the tags
only the order counts, in which the tags are listed. The reads of the store are functions
of this view, so two stores with the same view cannot be told apart by them.
-/

set_option linter.dupNamespace false

namespace Scrumboy

open Go Sql

/-- A todo with the columns that are shown, and its rank. -/
structure PublicTodo where
  localID : ℤ
  title : String
  body : String
  columnKey : String
  rank : ℤ
  estimationPoints : Option ℤ
  priorityKey : Option String
  sprintNumber : Option ℤ
  deriving DecidableEq, Repr

def PublicTodo.of (db : DB) (t : TodoRow) : PublicTodo where
  localID := t.localID
  title := t.title
  body := t.body
  columnKey := t.columnKey
  rank := t.rank
  estimationPoints := t.estimationPoints
  priorityKey := t.priorityKey
  sprintNumber := publicSprintNumber db t

def PublicTodo.orderKey (v : PublicTodo) : ℤ ×ₗ ℤ := toLex (v.rank, v.localID)

def PublicTodo.projection (v : PublicTodo) (tags : List PublicTodoTagProjection) :
    PublicTodoProjection where
  localID := v.localID
  title := v.title
  body := v.body
  columnKey := v.columnKey
  estimationPoints := v.estimationPoints
  priorityKey := v.priorityKey
  sprintNumber := v.sprintNumber
  tags := tags

/-- A tag of a todo, by name and shared color. -/
structure PublicTag where
  localID : ℤ
  name : String
  color : String
  deriving DecidableEq, Repr

def TagAssociation.shown (a : TagAssociation) : PublicTag := ⟨a.localID, a.name, a.color⟩

def ProjectRow.shown (p : ProjectRow) : PublicProjectProjection :=
  ⟨p.slug, p.name, p.dominantColor, p.estimationMode, p.sprintsEnabled⟩

def WorkflowColumn.shown (c : WorkflowColumn) : PublicWorkflowProjection :=
  ⟨c.key, c.name, c.color, c.isDone, c.position⟩

def PriorityTier.shown (p : PriorityTier) : PublicPriorityProjection :=
  ⟨p.key, p.name, p.color, p.position⟩

/-- The todos that are not archived, as the board shows them. -/
def publicTodos (db : DB) (projectID : ℤ) : List PublicTodo :=
  (db.todos.filter (isPublicTodo projectID)).map (PublicTodo.of db)

/-- Their tags, in the order of the ids of the tags. -/
def publicTags (db : DB) (projectID : ℤ) : List PublicTag :=
  (orderBy TagAssociation.byTag (publicTagJoin db projectID)).map TagAssociation.shown

def publicLinks (db : DB) (projectID : ℤ) : List (ℤ × ℤ) :=
  (publicLinkJoin db projectID).map fun l => (l.1.localID, l.2.localID)

def hasSprint (db : DB) (projectID number : ℤ) : Bool :=
  db.sprints.any fun sp => sp.projectID == projectID && sp.number == number

structure PublicView where
  project : Option PublicProjectProjection
  workflow : List PublicWorkflowProjection
  priorities : List PublicPriorityProjection
  hasSprint : ℤ → Bool
  todos : List PublicTodo
  tags : List PublicTag

def publicView (s : PublicStore) (projectID : ℤ) : PublicView where
  project := (publicProjectRow s projectID).map ProjectRow.shown
  workflow := listPublicWorkflowTx s.db projectID
  priorities := listPublicPrioritiesTx s.db projectID
  hasSprint := hasSprint s.db projectID
  todos := orderBy PublicTodo.orderKey (publicTodos s.db projectID)
  tags := publicTags s.db projectID

/-- The keys of the tables. -/
structure PublicTable (db : DB) : Prop where
  todo_ids : (db.todos.map (·.id)).Nodup
  local_ids : (db.todos.map fun t => (t.projectID, t.localID)).Nodup
  todo_tags : db.todoTags.Nodup
  tag_ids : (db.tags.map (·.id)).Nodup
  sprint_ids : (db.sprints.map (·.id)).Nodup
  column_keys : (db.columns.map fun c => (c.projectID, c.key)).Nodup
  priority_keys : (db.priorities.map fun p => (p.projectID, p.key)).Nodup

/-! ## The reads as functions of the view -/

namespace PublicView

variable (rt : Runtime)

def tagsMatch (v : PublicView) (tags : List String) (localID : ℤ) : Bool :=
  tags.zipIdx.all fun (key, i) => !(tags.drop (i + 1)).contains key &&
    v.tags.any fun a => a.localID == localID && tagGroupKey rt a.name == key

def todoWhere (v : PublicView) (columnKey : String) (query : PublicBoardQuery) (includeAfter : Bool)
    (t : PublicTodo) : Bool :=
  t.columnKey == columnKey && publicSearchMatches query.search t.title t.body &&
    v.tagsMatch rt query.tags t.localID &&
    (query.sprintNumber.all fun number => t.sprintNumber == some number) &&
    (query.priorityKey.all fun key => t.priorityKey == some key) &&
    (!includeAfter || query.after.all fun after =>
      decide (after.rank < t.rank) || (t.rank == after.rank && decide (after.localID < t.localID)))

def todoTags (v : PublicView) (localID : ℤ) : List PublicTodoTagProjection :=
  let rows := v.tags.filter fun a => a.localID == localID
  (sortStrings (rows.map fun a => tagGroupKey rt a.name).dedup).map fun name =>
    let colors := (rows.filter fun a => tagGroupKey rt a.name == name).map (·.color)
    ⟨name, resolvePublicTagColor rt name ((colors.foldl mergeTagColor none).getD "")⟩

def item (v : PublicView) (t : PublicTodo) : PublicTodoProjection := t.projection (v.todoTags rt t.localID)

def validate (v : PublicView) (columnKey : String) (query : PublicBoardQuery) : Result Unit := do
  reject (columnKey ∉ v.workflow.map (·.key)) ⟨.validation, "unknown public lane"⟩
  reject (∃ key ∈ query.priorityKey, key ∉ v.priorities.map (·.key))
    ⟨.validation, "unknown public priority"⟩
  reject (∃ number ∈ query.sprintNumber, v.hasSprint number = false) ⟨.validation, "unknown public sprint"⟩

def lane (v : PublicView) (columnKey : String) (query : PublicBoardQuery) :
    Result PublicLaneProjection := do
  reject (query.limit < 1 ∨ 50 < query.limit) ⟨.validation, "invalid public page limit"⟩
  v.validate columnKey query
  let fetched := (v.todos.filter (v.todoWhere rt columnKey query true)).take (query.limit + 1).toNat
  let hasMore := decide (query.limit < fetched.length)
  let page := if hasMore then fetched.take query.limit.toNat else fetched
  let nextOrder := if hasMore then page.getLast?.map fun t => ⟨t.rank, t.localID⟩ else none
  pure
    { items := page.map (v.item rt)
      hasMore
      nextOrder
      totalCount := (v.todos.filter (v.todoWhere rt columnKey query false)).length }

def tagList (v : PublicView) : List PublicTagProjection :=
  (sortStrings (v.tags.map fun a => tagGroupKey rt a.name).dedup).map fun name =>
    let members := v.tags.filter fun a => tagGroupKey rt a.name == name
    { name := name
      color := resolvePublicTagColor rt name (((members.map (·.color)).find? colorHexRe).getD "")
      activeCount := (members.map (·.localID)).dedup.length }

def load (v : PublicView) (expectedSlug : String) : Result PublicProjectProjection := do
  let some p := v.project.filter (·.slug == expectedSlug) | throw ⟨.notFound, ""⟩
  reject (isValidSlug p.slug = false ∨ isReservedProjectSlug p.slug = true) ⟨.notFound, ""⟩
  pure p

end PublicView

/-! ## Tables -/

section

variable {db : DB} {projectID : ℤ} {rt : Runtime}

theorem mem_publicTagJoin {a : TagAssociation} :
    a ∈ publicTagJoin db projectID ↔ ∃ t ∈ db.todos, isPublicTodo projectID t = true ∧
      ∃ tt ∈ db.todoTags, tt.todoID = t.id ∧ ∃ g ∈ db.tags, g.id = tt.tagID ∧
        a = ⟨g.id, t.localID, g.name, g.color.getD ""⟩ := by
  simp only [publicTagJoin, List.mem_flatMap, List.mem_filter, List.mem_map, beq_iff_eq, and_assoc]
  exact exists_congr fun t => and_congr_right fun _ => and_congr_right fun _ => exists_congr fun tt =>
    and_congr_right fun _ => and_congr_right fun _ => exists_congr fun g => and_congr_right fun _ =>
      and_congr_right fun _ => eq_comm

theorem PublicTable.eq_of_localID (h : PublicTable db) {t t' : TodoRow} (ht : t ∈ db.todos)
    (ht' : t' ∈ db.todos) (hp : isPublicTodo projectID t = true) (hp' : isPublicTodo projectID t' = true)
    (hlocal : t.localID = t'.localID) : t = t' := by
  simp only [isPublicTodo, Bool.and_eq_true, beq_iff_eq] at hp hp'
  exact List.inj_on_of_nodup_map h.local_ids ht ht' (Prod.ext (hp.1.trans hp'.1.symm) hlocal)

/-- Rows of the join with the same ids are the same row. -/
theorem PublicTable.eq_of_byTag (h : PublicTable db) {a b : TagAssociation}
    (ha : a ∈ publicTagJoin db projectID) (hb : b ∈ publicTagJoin db projectID)
    (htag : a.tagID = b.tagID) (hlocal : a.localID = b.localID) : a = b := by
  obtain ⟨t, ht, hp, tt, _, _, g, hg, _, rfl⟩ := mem_publicTagJoin.mp ha
  obtain ⟨t', ht', hp', tt', _, _, g', hg', _, rfl⟩ := mem_publicTagJoin.mp hb
  have heq := List.inj_on_of_nodup_map h.tag_ids hg hg' htag
  dsimp only at hlocal
  rw [heq, hlocal]

theorem PublicTable.nodup_publicTagJoin (h : PublicTable db) : (publicTagJoin db projectID).Nodup := by
  unfold publicTagJoin
  rw [List.nodup_flatMap]
  constructor
  · intro t _
    rw [List.nodup_flatMap]
    constructor
    · intro tt _
      have hnodup : (db.tags.filter fun g => g.id == tt.tagID).Nodup :=
        (List.Nodup.of_map _ h.tag_ids).filter _
      refine hnodup.map_on fun g hg g' hg' heq => ?_
      exact List.inj_on_of_nodup_map h.tag_ids (List.mem_filter.mp hg).1 (List.mem_filter.mp hg').1
        (congrArg TagAssociation.tagID heq)
    · refine (h.todo_tags.filter _).imp_of_mem fun {tt tt'} htt htt' hne => ?_
      rw [List.mem_filter, beq_iff_eq] at htt htt'
      intro a ha ha'
      obtain ⟨g, hg, rfl⟩ := List.mem_map.mp ha
      obtain ⟨g', hg', heq⟩ := List.mem_map.mp ha'
      rw [List.mem_filter, beq_iff_eq] at hg hg'
      have hid : g'.id = g.id := congrArg TagAssociation.tagID heq
      apply hne
      cases tt
      cases tt'
      simp_all
  · have hids := List.Nodup.of_map _ h.todo_ids
    refine (hids.filter _).imp_of_mem fun {t t'} ht ht' hne => ?_
    rw [List.mem_filter] at ht ht'
    intro a ha ha'
    obtain ⟨tt, _, ha⟩ := List.mem_flatMap.mp ha
    obtain ⟨g, _, rfl⟩ := List.mem_map.mp ha
    obtain ⟨tt', _, ha'⟩ := List.mem_flatMap.mp ha'
    obtain ⟨g', _, heq⟩ := List.mem_map.mp ha'
    exact hne (h.eq_of_localID ht.1 ht'.1 ht.2 ht'.2 (congrArg TagAssociation.localID heq).symm)

theorem PublicTable.nodup_byTag (h : PublicTable db) :
    ((publicTagJoin db projectID).map TagAssociation.byTag).Nodup := by
  refine h.nodup_publicTagJoin.map_on fun a ha b hb heq => ?_
  have hkey := Prod.mk.inj (toLex.injective heq)
  exact h.eq_of_byTag ha hb hkey.1 hkey.2

theorem PublicTable.nodup_byTodo (h : PublicTable db) :
    ((publicTagJoin db projectID).map TagAssociation.byTodo).Nodup := by
  refine h.nodup_publicTagJoin.map_on fun a ha b hb heq => ?_
  have hkey := Prod.mk.inj (toLex.injective heq)
  exact h.eq_of_byTag ha hb hkey.2 hkey.1

/-- The rows of one todo come in the same order from both queries. -/
theorem PublicTable.todoRows_eq (h : PublicTable db) {localIDs : List ℤ} {localID : ℤ}
    (hmem : localID ∈ localIDs) :
    (orderBy TagAssociation.byTodo
      ((publicTagJoin db projectID).filter fun a => localIDs.contains a.localID)).filter
        (fun a => a.localID == localID) =
      (orderBy TagAssociation.byTag (publicTagJoin db projectID)).filter fun a => a.localID == localID := by
  refine eq_of_pairwise_lt TagAssociation.byTag ?_ ?_ ?_
  · refine ((orderBy_perm _ _).filter _).trans (List.Perm.trans ?_ ((orderBy_perm _ _).filter _).symm)
    rw [List.filter_filter]
    refine List.Perm.of_eq (List.filter_congr fun a _ => ?_)
    by_cases ha : a.localID = localID
    · simp [ha, hmem]
    · simp [ha]
  · have hnodup : ((publicTagJoin db projectID).map TagAssociation.byTodo).Nodup := h.nodup_byTodo
    have hkeys := hnodup.sublist ((List.filter_sublist (p := fun a => localIDs.contains a.localID)).map TagAssociation.byTodo)
    refine ((pairwise_lt_orderBy hkeys).filter _).imp_of_mem fun {a b} ha hb hlt => ?_
    have hla := (List.mem_filter.mp ha).2
    have hlb := (List.mem_filter.mp hb).2
    rw [beq_iff_eq] at hla hlb
    rw [TagAssociation.byTodo, TagAssociation.byTodo, Prod.Lex.toLex_lt_toLex, hla, hlb] at hlt
    rw [TagAssociation.byTag, TagAssociation.byTag, Prod.Lex.toLex_lt_toLex]
    exact .inl (by simpa using hlt)
  · exact (pairwise_lt_orderBy h.nodup_byTag).filter _

theorem PublicTable.todoTags_eq (h : PublicTable db) (v : PublicView) (hv : v.tags = publicTags db projectID)
    {localIDs : List ℤ} {localID : ℤ} (hmem : localID ∈ localIDs) :
    listPublicTodoTagsTx rt db projectID localIDs localID = v.todoTags rt localID := by
  unfold listPublicTodoTagsTx PublicView.todoTags
  rw [h.todoRows_eq hmem, hv, publicTags, List.filter_map]
  simp only [List.map_map, List.filter_map, Function.comp_def, TagAssociation.shown]

/-- A filter by a tag asks for a tag of the todo with the name of the filter. -/
theorem PublicTable.any_todoTags (h : PublicTable db) {t : TodoRow} (ht : t ∈ db.todos)
    (hp : isPublicTodo projectID t = true) (key : String) :
    (db.todoTags.any fun tt => tt.todoID == t.id && (((orderBy (·.id) (db.tags.filter fun g =>
      db.todoTags.any fun tt => tt.tagID == g.id &&
        db.todos.any fun t => t.id == tt.todoID && t.projectID == projectID)).filter
          fun g => tagGroupKey rt g.name == key).map (·.id)).contains tt.tagID) =
      (publicTags db projectID).any fun a => a.localID == t.localID && tagGroupKey rt a.name == key := by
  rw [Bool.eq_iff_iff]
  simp only [List.any_eq_true, Bool.and_eq_true, beq_iff_eq, List.contains_iff_mem, List.mem_map,
    List.mem_filter, mem_orderBy, publicTags, mem_publicTagJoin]
  constructor
  · rintro ⟨tt, htt, htodo, g, ⟨⟨hg, _⟩, hkey⟩, hid⟩
    exact ⟨_, ⟨_, ⟨t, ht, hp, tt, htt, htodo, g, hg, hid, rfl⟩, rfl⟩, rfl, hkey⟩
  · rintro ⟨_, ⟨_, ⟨t', ht', hp', tt, htt, htodo, g, hg, hid, rfl⟩, rfl⟩, hlocal, hkey⟩
    have heq := h.eq_of_localID ht ht' hp hp' hlocal.symm
    subst heq
    refine ⟨tt, htt, htodo, g, ⟨⟨hg, tt, htt, hid.symm, t, ht, htodo.symm, ?_⟩, hkey⟩, hid⟩
    simp only [isPublicTodo, Bool.and_eq_true, beq_iff_eq] at hp
    exact hp.1

theorem PublicTable.tagsMatch_eq (h : PublicTable db) (v : PublicView)
    (hv : v.tags = publicTags db projectID) {t : TodoRow} (ht : t ∈ db.todos)
    (hp : isPublicTodo projectID t = true) {query : PublicBoardQuery} (hquery : query.tagIDGroups = none) :
    publicTagsMatch db (resolvePublicTagFiltersTx rt db projectID query).tagIDGroups t =
      v.tagsMatch rt query.tags t.localID := by
  unfold resolvePublicTagFiltersTx PublicView.tagsMatch
  by_cases htags : query.tags = []
  · simp [htags, publicTagsMatch, hquery]
  · rw [if_neg (by simp [htags, hquery]), publicTagsMatch]
    simp only [Option.getD_some, List.all_map, Function.comp_def]
    congr 1
    funext ⟨key, i⟩
    by_cases hlater : key ∈ query.tags.drop (i + 1)
    · simp [hlater]
    · rw [if_neg hlater, h.any_todoTags ht hp key, hv]
      simp [hlater]

theorem PublicTable.sprintMatch_eq (h : PublicTable db) (t : TodoRow) (number : ℤ) :
    (db.sprints.any fun sp => t.sprintID == some sp.id && sp.projectID == t.projectID &&
      sp.number == number) = (publicSprintNumber db t == some number) := by
  rw [Bool.eq_iff_iff]
  simp only [List.any_eq_true, Bool.and_eq_true, beq_iff_eq, publicSprintNumber, Option.map_eq_some_iff]
  constructor
  · rintro ⟨sp, hsp, ⟨hid, hproject⟩, hnumber⟩
    have hsome : (db.sprints.find? fun sp => t.sprintID == some sp.id &&
        sp.projectID == t.projectID).isSome := by
      rw [List.find?_isSome]
      exact ⟨sp, hsp, by simp [hid, hproject]⟩
    obtain ⟨sp', hsp'⟩ := Option.isSome_iff_exists.mp hsome
    have hsel := List.find?_some hsp'
    simp only [Bool.and_eq_true, beq_iff_eq] at hsel
    have heq := List.inj_on_of_nodup_map h.sprint_ids (List.mem_of_find?_eq_some hsp') hsp
      (Option.some.inj (hsel.1.symm.trans hid))
    exact ⟨sp', hsp', heq ▸ hnumber⟩
  · rintro ⟨sp, hsp, hnumber⟩
    have hsel := List.find?_some hsp
    simp only [Bool.and_eq_true, beq_iff_eq] at hsel
    exact ⟨sp, List.mem_of_find?_eq_some hsp, hsel, hnumber⟩

/-- Resolving the tag filters leaves the rest of a query alone. -/
theorem resolvePublicTagFiltersTx_eq (rt : Runtime) (db : DB) (projectID : ℤ) (query : PublicBoardQuery) :
    resolvePublicTagFiltersTx rt db projectID query =
      { query with tagIDGroups := (resolvePublicTagFiltersTx rt db projectID query).tagIDGroups } := by
  unfold resolvePublicTagFiltersTx
  split
  · rfl
  · rfl

theorem PublicTable.where_eq (h : PublicTable db) (v : PublicView) (hv : v.tags = publicTags db projectID)
    {t : TodoRow} (ht : t ∈ db.todos) {query : PublicBoardQuery} (hquery : query.tagIDGroups = none)
    (columnKey : String) (includeAfter : Bool) :
    publicTodoWhere db projectID columnKey (resolvePublicTagFiltersTx rt db projectID query)
        includeAfter t =
      (isPublicTodo projectID t && v.todoWhere rt columnKey query includeAfter (PublicTodo.of db t)) := by
  cases hp : isPublicTodo projectID t with
  | false => simp [publicTodoWhere, hp]
  | true =>
      unfold publicTodoWhere
      rw [h.tagsMatch_eq v hv ht hp hquery, resolvePublicTagFiltersTx_eq]
      simp only [hp, PublicView.todoWhere, PublicTodo.of, h.sprintMatch_eq, Bool.true_and]
      rfl

theorem PublicTable.filter_where (h : PublicTable db) (v : PublicView)
    (hv : v.tags = publicTags db projectID) {query : PublicBoardQuery} (hquery : query.tagIDGroups = none)
    (columnKey : String) (includeAfter : Bool) :
    db.todos.filter (publicTodoWhere db projectID columnKey
        (resolvePublicTagFiltersTx rt db projectID query) includeAfter) =
      (db.todos.filter (isPublicTodo projectID)).filter fun t =>
        v.todoWhere rt columnKey query includeAfter (PublicTodo.of db t) := by
  rw [List.filter_filter]
  apply List.filter_congr
  intro t ht
  rw [h.where_eq v hv ht hquery, Bool.and_comm]

theorem PublicTable.nodup_publicTodos (h : PublicTable db) :
    ((publicTodos db projectID).map PublicTodo.orderKey).Nodup := by
  have hrows : (db.todos.filter (isPublicTodo projectID)).Nodup := (List.Nodup.of_map _ h.todo_ids).filter _
  rw [publicTodos, List.map_map]
  refine hrows.map_on fun t ht t' ht' heq => ?_
  rw [List.mem_filter] at ht ht'
  have hkey := Prod.mk.inj (toLex.injective heq)
  exact h.eq_of_localID ht.1 ht'.1 ht.2 ht'.2 hkey.2

/-- The rows of a lane, sorted by the store and as part of the view. -/
theorem PublicTable.map_orderBy_where (rt : Runtime) (h : PublicTable db) (v : PublicView)
    (hv : v.tags = publicTags db projectID)
    (htodos : v.todos = orderBy PublicTodo.orderKey (publicTodos db projectID))
    {query : PublicBoardQuery} (hquery : query.tagIDGroups = none) (columnKey : String)
    (includeAfter : Bool) :
    (orderBy publicOrderKey (db.todos.filter (publicTodoWhere db projectID columnKey
      (resolvePublicTagFiltersTx rt db projectID query) includeAfter))).map (PublicTodo.of db) =
      v.todos.filter (v.todoWhere rt columnKey query includeAfter) := by
  rw [h.filter_where v hv hquery, htodos, ← orderBy_filter h.nodup_publicTodos, publicTodos,
    List.filter_map]
  have hkey : ∀ t, (PublicTodo.of db t).orderKey = publicOrderKey t := fun _ => rfl
  exact map_orderBy hkey _

theorem mem_workflow_keys {columnKey : String} :
    columnKey ∈ (listPublicWorkflowTx db projectID).map (·.key) ↔
      ∃ c ∈ db.columns, c.projectID = projectID ∧ c.key = columnKey := by
  simp only [listPublicWorkflowTx, List.map_map, List.mem_map, mem_orderBy, List.mem_filter, beq_iff_eq,
    and_assoc, Function.comp_def]

theorem mem_priority_keys {key : String} :
    key ∈ (listPublicPrioritiesTx db projectID).map (·.key) ↔
      ∃ p ∈ db.priorities, p.projectID = projectID ∧ p.key = key := by
  simp only [listPublicPrioritiesTx, List.map_map, List.mem_map, mem_orderBy, List.mem_filter, beq_iff_eq,
    and_assoc, Function.comp_def]

theorem hasSprint_eq_false {number : ℤ} : hasSprint db projectID number = false ↔
    ¬ ∃ sp ∈ db.sprints, sp.projectID = projectID ∧ sp.number = number := by
  simp [hasSprint, not_and]

theorem validate_eq {s : PublicStore} (columnKey : String) (query : PublicBoardQuery) :
    validatePublicLaneQueryTx s.db projectID columnKey query =
      (publicView s projectID).validate columnKey query := by
  unfold validatePublicLaneQueryTx PublicView.validate
  rw [reject_congr (not_congr mem_workflow_keys.symm),
    reject_congr (d := ∃ key ∈ query.priorityKey, key ∉ (publicView s projectID).priorities.map (·.key))
      (exists_congr fun key => and_congr_right fun _ => not_congr mem_priority_keys.symm),
    reject_congr (d := ∃ number ∈ query.sprintNumber, (publicView s projectID).hasSprint number = false)
      (exists_congr fun number => and_congr_right fun _ => hasSprint_eq_false.symm)]
  rfl

/-- A lane is a function of the view. -/
theorem listPublicLaneTx_eq {s : PublicStore} (h : PublicTable s.db) {query : PublicBoardQuery}
    (hquery : query.tagIDGroups = none) (columnKey : String) :
    listPublicLaneTx rt s.db projectID columnKey (resolvePublicTagFiltersTx rt s.db projectID query) =
      (publicView s projectID).lane rt columnKey query := by
  have hrows := fun b => h.map_orderBy_where rt (publicView s projectID) rfl rfl hquery columnKey b
  have hvalidate : validatePublicLaneQueryTx s.db projectID columnKey
      (resolvePublicTagFiltersTx rt s.db projectID query) =
      (publicView s projectID).validate columnKey query := by
    rw [validate_eq, resolvePublicTagFiltersTx_eq]
    rfl
  have hlimit : (resolvePublicTagFiltersTx rt s.db projectID query).limit = query.limit := by
    rw [resolvePublicTagFiltersTx_eq]
  have htotal : (s.db.todos.filter (publicTodoWhere s.db projectID columnKey
      (resolvePublicTagFiltersTx rt s.db projectID query) false)).length =
      ((publicView s projectID).todos.filter
        ((publicView s projectID).todoWhere rt columnKey query false)).length := by
    rw [← hrows false, List.length_map, length_orderBy]
  have hitems : ∀ page : List TodoRow, (page.map fun t => { publicTodoOf s.db t with
      tags := listPublicTodoTagsTx rt s.db projectID (page.map (·.localID)) t.localID }) =
      (page.map (PublicTodo.of s.db)).map ((publicView s projectID).item rt) := by
    intro page
    rw [List.map_map]
    apply List.map_congr_left
    intro t ht
    rw [h.todoTags_eq (publicView s projectID) rfl (List.mem_map_of_mem ht)]
    rfl
  have hlast : ∀ page : List TodoRow, (page.getLast?.map fun t => PublicTodoOrder.mk t.rank t.localID) =
      (page.map (PublicTodo.of s.db)).getLast?.map fun t => PublicTodoOrder.mk t.rank t.localID := by
    intro page
    rw [List.getLast?_map, Option.map_map]
    rfl
  unfold listPublicLaneTx PublicView.lane
  rw [hvalidate, hlimit, htotal, ← hrows true]
  simp only [hitems, hlast, ← List.map_take, List.length_map, apply_ite (List.map (PublicTodo.of s.db))]

end

end Scrumboy
