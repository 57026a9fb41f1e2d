import Scrumboy.Store.PublicView

/-!
# The public board reveals nothing else

Two stores that agree on the public part of a project, whatever else differs, give the
same answers to every read of the public board. Agreement is up to the order of the rows
in the tables and up to the ids of rows, the order of the ids of the tags excepted.
-/

namespace Scrumboy

open Go Sql

/-! ## The other reads as functions of the view -/

namespace PublicView

variable (rt : Runtime)

def snapshot (v : PublicView) (expectedSlug : String) (query : PublicBoardQuery) :
    Result PublicBoardSnapshotProjection := do
  let project ← v.load expectedSlug
  let lanes ← v.workflow.mapM fun column => do
    let page ← v.lane rt column.key query
    pure (column.key, page)
  pure { project, workflow := v.workflow, priorities := v.priorities, tags := v.tagList rt, lanes }

def detail (v : PublicView) (expectedSlug : String) (localID : ℤ) : Result PublicTodoProjection := do
  let _ ← v.load expectedSlug
  let some t := v.todos.find? (·.localID == localID) | throw ⟨.notFound, ""⟩
  pure (v.item rt t)

def titleOf (v : PublicView) (localID : ℤ) : String :=
  ((v.todos.find? (·.localID == localID)).map (·.title)).getD ""

/-- The links of a todo, among the pairs of local ids that are linked. -/
def linksOf (v : PublicView) (links : List (ℤ × ℤ)) (localID : ℤ) : List PublicTodoLinkProjection :=
  (links.filter (·.1 == localID)).map (fun l => ⟨"outbound", l.2, v.titleOf l.2⟩) ++
    (links.filter (·.2 == localID)).map fun l => ⟨"inbound", l.1, v.titleOf l.1⟩

end PublicView

section

variable {s : PublicStore} {projectID : ℤ} {rt : Runtime}

theorem loadEligiblePublicProjectTx_eq (s : PublicStore) (projectID : ℤ) (expectedSlug : String) :
    loadEligiblePublicProjectTx s projectID expectedSlug = (publicView s projectID).load expectedSlug := by
  unfold loadEligiblePublicProjectTx PublicView.load publicView
  cases publicProjectRow s projectID with
  | none => rfl
  | some p =>
      by_cases hslug : p.slug = expectedSlug
      · simp [Option.filter, ProjectRow.shown, hslug]
      · simp [Option.filter, ProjectRow.shown, hslug]

theorem listPublicTagsTx_eq (rt : Runtime) (s : PublicStore) (projectID : ℤ) :
    listPublicTagsTx rt s.db projectID = (publicView s projectID).tagList rt := by
  unfold listPublicTagsTx PublicView.tagList publicView publicTags
  simp only [List.map_map, List.filter_map, Function.comp_def, TagAssociation.shown]

theorem getPublicBoardLane_eq (h : PublicTable s.db) (expectedSlug columnKey : String)
    {query : PublicBoardQuery} (hquery : query.tagIDGroups = none) :
    getPublicBoardLane rt s projectID expectedSlug columnKey query = (do
      let _ ← (publicView s projectID).load expectedSlug
      (publicView s projectID).lane rt columnKey query) := by
  unfold getPublicBoardLane
  rw [loadEligiblePublicProjectTx_eq, listPublicLaneTx_eq h hquery]

theorem getPublicBoardSnapshot_eq (h : PublicTable s.db) (expectedSlug : String)
    {query : PublicBoardQuery} (hquery : query.tagIDGroups = none) :
    getPublicBoardSnapshot rt s projectID expectedSlug query =
      (publicView s projectID).snapshot rt expectedSlug query := by
  unfold getPublicBoardSnapshot PublicView.snapshot
  simp only [loadEligiblePublicProjectTx_eq, listPublicTagsTx_eq, listPublicLaneTx_eq h hquery]
  rfl

theorem mem_view_todos {v : PublicTodo} : v ∈ (publicView s projectID).todos ↔
    ∃ t ∈ s.db.todos, isPublicTodo projectID t = true ∧ PublicTodo.of s.db t = v := by
  simp only [publicView, mem_orderBy, publicTodos, List.mem_map, List.mem_filter, and_assoc]

/-- A local id names one todo of the view. -/
theorem PublicTable.find_view (h : PublicTable s.db) {t : TodoRow} (ht : t ∈ s.db.todos)
    (hp : isPublicTodo projectID t = true) :
    (publicView s projectID).todos.find? (·.localID == t.localID) = some (PublicTodo.of s.db t) := by
  have hmem : PublicTodo.of s.db t ∈ (publicView s projectID).todos := mem_view_todos.mpr ⟨t, ht, hp, rfl⟩
  have hsome : ((publicView s projectID).todos.find? (·.localID == t.localID)).isSome := by
    rw [List.find?_isSome]
    exact ⟨_, hmem, by simp [PublicTodo.of]⟩
  obtain ⟨v, hv⟩ := Option.isSome_iff_exists.mp hsome
  obtain ⟨t', ht', hp', rfl⟩ := mem_view_todos.mp (List.mem_of_find?_eq_some hv)
  have hlocal := List.find?_some hv
  rw [beq_iff_eq] at hlocal
  rw [hv, h.eq_of_localID ht' ht hp' hp hlocal]

theorem PublicTable.titleOf_eq (h : PublicTable s.db) {t : TodoRow} (ht : t ∈ s.db.todos)
    (hp : isPublicTodo projectID t = true) : (publicView s projectID).titleOf t.localID = t.title := by
  rw [PublicView.titleOf, h.find_view ht hp]
  rfl

theorem getPublicTodoDetail_eq (h : PublicTable s.db) (expectedSlug : String) (localID : ℤ) :
    getPublicTodoDetail rt s projectID expectedSlug localID =
      (publicView s projectID).detail rt expectedSlug localID := by
  unfold getPublicTodoDetail PublicView.detail
  rw [loadEligiblePublicProjectTx_eq, h.todoTags_eq (publicView s projectID) rfl List.mem_cons_self]
  congr 1
  funext _
  cases hfind : s.db.todos.find? fun t => isPublicTodo projectID t && t.localID == localID with
  | none =>
      have hnone : (publicView s projectID).todos.find? (·.localID == localID) = none := by
        rw [List.find?_eq_none] at hfind ⊢
        intro v hv hlocal
        obtain ⟨t, ht, hp, rfl⟩ := mem_view_todos.mp hv
        rw [beq_iff_eq] at hlocal
        exact hfind t ht (by simp [hp, ← hlocal, PublicTodo.of])
      rw [hnone]
  | some t =>
      have hsel := List.find?_some hfind
      rw [Bool.and_eq_true, beq_iff_eq] at hsel
      obtain ⟨hp, rfl⟩ := hsel
      rw [h.find_view (List.mem_of_find?_eq_some hfind) hp]
      rfl

theorem mem_publicLinkJoin {l : TodoRow × TodoRow} (h : l ∈ publicLinkJoin s.db projectID) :
    (l.1 ∈ s.db.todos ∧ isPublicTodo projectID l.1 = true) ∧
      l.2 ∈ s.db.todos ∧ isPublicTodo projectID l.2 = true := by
  simp only [publicLinkJoin, List.mem_flatMap, List.mem_filter, List.mem_map, Bool.and_eq_true] at h
  obtain ⟨link, _, source, ⟨hs, hps, _⟩, target, ⟨ht, hpt, _⟩, rfl⟩ := h
  exact ⟨⟨hs, hps⟩, ht, hpt⟩

theorem listPublicTodoLinks_eq (h : PublicTable s.db) (expectedSlug : String) (localID : ℤ) :
    listPublicTodoLinks s projectID expectedSlug localID = (do
      let _ ← (publicView s projectID).load expectedSlug
      reject ((publicView s projectID).todos.find? (·.localID == localID) = none) ⟨.notFound, ""⟩
      pure (orderBy PublicTodoLinkProjection.orderKey
        ((publicView s projectID).linksOf (publicLinks s.db projectID) localID))) := by
  have hexists : (¬ ∃ t ∈ s.db.todos, isPublicTodo projectID t = true ∧ t.localID = localID) ↔
      (publicView s projectID).todos.find? (·.localID == localID) = none := by
    rw [List.find?_eq_none]
    constructor
    · rintro hnone v hv hlocal
      obtain ⟨t, ht, hp, rfl⟩ := mem_view_todos.mp hv
      exact hnone ⟨t, ht, hp, beq_iff_eq.mp hlocal⟩
    · rintro hnone ⟨t, ht, hp, hlocal⟩
      exact hnone _ (mem_view_todos.mpr ⟨t, ht, hp, rfl⟩) (beq_iff_eq.mpr hlocal)
  have hlinks : ((publicLinkJoin s.db projectID).filter (·.1.localID == localID)).map
        (fun l => PublicTodoLinkProjection.mk "outbound" l.2.localID l.2.title) ++
      ((publicLinkJoin s.db projectID).filter (·.2.localID == localID)).map
        (fun l => PublicTodoLinkProjection.mk "inbound" l.1.localID l.1.title) =
      (publicView s projectID).linksOf (publicLinks s.db projectID) localID := by
    unfold PublicView.linksOf publicLinks
    rw [List.filter_map, List.filter_map, List.map_map, List.map_map]
    congr 1
    · apply List.map_congr_left
      intro l hl
      obtain ⟨_, ht, hp⟩ := mem_publicLinkJoin (List.mem_filter.mp hl).1
      simp only [Function.comp_def, h.titleOf_eq ht hp]
    · apply List.map_congr_left
      intro l hl
      obtain ⟨⟨ht, hp⟩, _⟩ := mem_publicLinkJoin (List.mem_filter.mp hl).1
      simp only [Function.comp_def, h.titleOf_eq ht hp]
  unfold listPublicTodoLinks
  rw [loadEligiblePublicProjectTx_eq, reject_congr hexists]
  simp only [hlinks]

end

/-! ## Agreement -/

/-- Two stores with the same public part of a project. -/
structure PublicAgree (projectID : ℤ) (a b : PublicStore) : Prop where
  project : (publicProjectRow a projectID).map ProjectRow.shown =
    (publicProjectRow b projectID).map ProjectRow.shown
  workflow : ((a.db.columns.filter (·.projectID == projectID)).map WorkflowColumn.shown).Perm
    ((b.db.columns.filter (·.projectID == projectID)).map WorkflowColumn.shown)
  priorities : ((a.db.priorities.filter (·.projectID == projectID)).map PriorityTier.shown).Perm
    ((b.db.priorities.filter (·.projectID == projectID)).map PriorityTier.shown)
  sprints : ((a.db.sprints.filter (·.projectID == projectID)).map (·.number)).Perm
    ((b.db.sprints.filter (·.projectID == projectID)).map (·.number))
  todos : (publicTodos a.db projectID).Perm (publicTodos b.db projectID)
  tags : publicTags a.db projectID = publicTags b.db projectID
  links : (publicLinks a.db projectID).Perm (publicLinks b.db projectID)

/-- The todos that a query by tags selects, by their local ids. -/
def TagFilterSelects (rt : Runtime) (db : DB) (projectID : ℤ) (query : PublicBoardQuery) (localID : ℤ) :
    Prop :=
  ∃ t ∈ db.todos, isPublicTodo projectID t = true ∧ t.localID = localID ∧
    publicTagsMatch db (resolvePublicTagFiltersTx rt db projectID query).tagIDGroups t = true

section

variable {a b : PublicStore} {projectID : ℤ} {rt : Runtime}

theorem mem_project_numbers {db : DB} {number : ℤ} :
    number ∈ (db.sprints.filter (·.projectID == projectID)).map (·.number) ↔
      hasSprint db projectID number = true := by
  simp only [hasSprint, List.mem_map, List.mem_filter, beq_iff_eq, List.any_eq_true, Bool.and_eq_true,
    and_assoc]

theorem PublicAgree.workflow_eq (h : PublicAgree projectID a b) (ha : PublicTable a.db) :
    listPublicWorkflowTx a.db projectID = listPublicWorkflowTx b.db projectID := by
  have hmap : ∀ columns : List WorkflowColumn,
      (orderBy (fun c => toLex (c.position, c.key)) columns).map WorkflowColumn.shown =
        orderBy (fun c : PublicWorkflowProjection => toLex (c.position, c.key))
          (columns.map WorkflowColumn.shown) := map_orderBy fun _ => rfl
  refine (hmap _).trans (Eq.trans ?_ (hmap _).symm)
  refine orderBy_eq_of_perm h.workflow fun c hc d hd heq => ?_
  obtain ⟨c', hc', rfl⟩ := List.mem_map.mp hc
  obtain ⟨d', hd', rfl⟩ := List.mem_map.mp hd
  rw [List.mem_filter, beq_iff_eq] at hc' hd'
  have hname := (Prod.mk.inj (toLex.injective heq)).2
  exact congrArg WorkflowColumn.shown (List.inj_on_of_nodup_map ha.column_keys hc'.1 hd'.1
    (Prod.ext (hc'.2.trans hd'.2.symm) hname))

theorem PublicAgree.priorities_eq (h : PublicAgree projectID a b) (ha : PublicTable a.db) :
    listPublicPrioritiesTx a.db projectID = listPublicPrioritiesTx b.db projectID := by
  have hmap : ∀ priorities : List PriorityTier,
      (orderBy (fun p => toLex (p.position, p.key)) priorities).map PriorityTier.shown =
        orderBy (fun p : PublicPriorityProjection => toLex (p.position, p.key))
          (priorities.map PriorityTier.shown) := map_orderBy fun _ => rfl
  refine (hmap _).trans (Eq.trans ?_ (hmap _).symm)
  refine orderBy_eq_of_perm h.priorities fun p hp q hq heq => ?_
  obtain ⟨p', hp', rfl⟩ := List.mem_map.mp hp
  obtain ⟨q', hq', rfl⟩ := List.mem_map.mp hq
  rw [List.mem_filter, beq_iff_eq] at hp' hq'
  have hname := (Prod.mk.inj (toLex.injective heq)).2
  exact congrArg PriorityTier.shown (List.inj_on_of_nodup_map ha.priority_keys hp'.1 hq'.1
    (Prod.ext (hp'.2.trans hq'.2.symm) hname))

theorem PublicAgree.view_eq (h : PublicAgree projectID a b) (ha : PublicTable a.db) :
    publicView a projectID = publicView b projectID := by
  have hsprints : hasSprint a.db projectID = hasSprint b.db projectID := by
    funext number
    rw [Bool.eq_iff_iff, ← mem_project_numbers, ← mem_project_numbers]
    exact h.sprints.mem_iff
  have htodos : orderBy PublicTodo.orderKey (publicTodos a.db projectID) =
      orderBy PublicTodo.orderKey (publicTodos b.db projectID) :=
    orderBy_eq_of_perm h.todos fun _ ht _ ht' =>
      List.inj_on_of_nodup_map ha.nodup_publicTodos ht ht'
  unfold publicView
  rw [h.project, h.workflow_eq ha, h.priorities_eq ha, hsprints, htodos, h.tags]

/-- The links of a todo do not depend on the order in which they are stored. -/
theorem orderBy_linksOf (v : PublicView) {links links' : List (ℤ × ℤ)} (h : links.Perm links')
    (localID : ℤ) : orderBy PublicTodoLinkProjection.orderKey (v.linksOf links localID) =
      orderBy PublicTodoLinkProjection.orderKey (v.linksOf links' localID) := by
  have htitle : ∀ l ∈ v.linksOf links localID, l.title = v.titleOf l.localID := by
    intro l hl
    rcases List.mem_append.mp hl with hl | hl
    · obtain ⟨_, _, rfl⟩ := List.mem_map.mp hl
      rfl
    · obtain ⟨_, _, rfl⟩ := List.mem_map.mp hl
      rfl
  refine orderBy_eq_of_perm (((h.filter _).map _).append ((h.filter _).map _)) fun l hl l' hl' heq => ?_
  obtain ⟨hdirection, hlocal⟩ := Prod.mk.inj (toLex.injective heq)
  have hl := htitle l hl
  have hl' := htitle l' hl'
  cases l
  cases l'
  simp_all

theorem tagFilterSelects_iff {s : PublicStore} (h : PublicTable s.db) {query : PublicBoardQuery}
    (hquery : query.tagIDGroups = none) {localID : ℤ} :
    TagFilterSelects rt s.db projectID query localID ↔
      ∃ v ∈ (publicView s projectID).todos, v.localID = localID ∧
        (publicView s projectID).tagsMatch rt query.tags localID = true := by
  constructor
  · rintro ⟨t, ht, hp, rfl, hmatch⟩
    rw [h.tagsMatch_eq (publicView s projectID) rfl ht hp hquery] at hmatch
    exact ⟨_, mem_view_todos.mpr ⟨t, ht, hp, rfl⟩, rfl, hmatch⟩
  · rintro ⟨v, hv, hlocal, hmatch⟩
    obtain ⟨t, ht, hp, rfl⟩ := mem_view_todos.mp hv
    refine ⟨t, ht, hp, hlocal, ?_⟩
    rw [h.tagsMatch_eq (publicView s projectID) rfl ht hp hquery]
    rw [← hlocal] at hmatch
    exact hmatch

/-- Stores that agree on the public part of a project answer every read of its public board
alike. -/
theorem public_board_reveals_nothing {a b : PublicStore} {projectID : ℤ} (ha : PublicTable a.db)
    (hb : PublicTable b.db) (h : PublicAgree projectID a b) (rt : Runtime) (expectedSlug columnKey : String)
    (query : PublicBoardQuery) (hquery : query.tagIDGroups = none) (localID : ℤ) :
    getPublicBoardSnapshot rt a projectID expectedSlug query =
        getPublicBoardSnapshot rt b projectID expectedSlug query ∧
      getPublicBoardLane rt a projectID expectedSlug columnKey query =
        getPublicBoardLane rt b projectID expectedSlug columnKey query ∧
      getPublicTodoDetail rt a projectID expectedSlug localID =
        getPublicTodoDetail rt b projectID expectedSlug localID ∧
      listPublicTodoLinks a projectID expectedSlug localID =
        listPublicTodoLinks b projectID expectedSlug localID ∧
      (TagFilterSelects rt a.db projectID query localID ↔
        TagFilterSelects rt b.db projectID query localID) := by
  have hview := h.view_eq ha
  refine ⟨?_, ?_, ?_, ?_, ?_⟩
  · rw [getPublicBoardSnapshot_eq ha _ hquery, getPublicBoardSnapshot_eq hb _ hquery, hview]
  · rw [getPublicBoardLane_eq ha _ _ hquery, getPublicBoardLane_eq hb _ _ hquery, hview]
  · rw [getPublicTodoDetail_eq ha, getPublicTodoDetail_eq hb, hview]
  · rw [listPublicTodoLinks_eq ha, listPublicTodoLinks_eq hb, hview,
      orderBy_linksOf _ h.links localID]
  · rw [tagFilterSelects_iff ha hquery, tagFilterSelects_iff hb hquery, hview]

end

/-- A public board with one story, and whatever else is given. -/
def boardBeside (assignee : Option ℤ) (archived : List TodoRow) (tagged : List TodoTagRow) : PublicStore where
  db :=
    { projects := [{ defaultProjectRow 0 with id := 1, name := "Board", slug := "board" }]
      columns := [⟨1, 1, "backlog", "Backlog", "#9ca3af", 0, false, true⟩]
      todos := ⟨1, 1, 1, "a", "", "backlog", 1000, none, assignee, assignee, none, none, 0, 0, none, none,
        assignee, none⟩ :: archived
      tags := [⟨1, some 1, "ui", 0, none, none⟩, ⟨2, some 2, "UI", 0, none, some "#ff0000"⟩]
      todoTags := ⟨1, 1⟩ :: tagged }
  publicViewEnabled := [1]

/-- An archived story with a tag of its own, and an assignee, make no difference. -/
theorem public_board_reveals_nothing_archived :
    let a := boardBeside none [] []
    let b := boardBeside (some 7) [⟨2, 1, 2, "secret", "", "backlog", 500, none, some 7, none, none, none, 0, 0,
      none, some 5, none, none⟩] [⟨2, 2⟩]
    let rt : Runtime := { nfc := id, isHTTPURL := fun _ => true, isLocation := fun _ => true }
    PublicAgree 1 a b ∧ (a.db = b.db → False) ∧
      getPublicBoardLane rt a 1 "board" "backlog" { tags := ["ui"], limit := 20 } =
        getPublicBoardLane rt b 1 "board" "backlog" { tags := ["ui"], limit := 20 } := by
  intro a b rt
  have hagree : PublicAgree 1 a b := by
    constructor <;> decide +kernel
  have htable : PublicTable a.db ∧ PublicTable b.db := by
    constructor <;> constructor <;> decide +kernel
  refine ⟨hagree, by decide +kernel, ?_⟩
  exact (public_board_reveals_nothing htable.1 htable.2 hagree rt "board" "backlog"
    { tags := ["ui"], limit := 20 } rfl 1).2.1

end Scrumboy
