import Scrumboy.Application.McpRead

/-!
# Following the tokens of a board read

A read changes nothing that the next one looks at: it may give the project its default
columns, and it may record activity. So a column of the successive reads of a client that
sends back the token of that column is read like a lane of the store, whatever the client
does with the tokens of the other columns in the meantime.
-/

set_option linter.dupNamespace false

namespace Scrumboy

open Go Sql

/-! ## What a read leaves alone -/

/-- Whether a project has an expiry date is not activity. -/
theorem isNone_expiresAt_quiet (p : ProjectRow) : p.quiet.expiresAt.isNone = p.expiresAt.isNone := by
  cases h : p.expiresAt <;> simp [ProjectRow.quiet, h]

/-- Two databases that give the board of a project the same answers. -/
structure SameAnswers (projectID : ℤ) (db db' : DB) : Prop where
  tables : db' = { db with columns := db'.columns, projects := db'.projects }
  quiet : db'.projects.map ProjectRow.quiet = db.projects.map ProjectRow.quiet
  workflow : ∀ workflow, (∃ db₁, getProjectWorkflow db projectID = .ok (db₁, workflow)) →
    ∃ db₁, getProjectWorkflow db' projectID = .ok (db₁, workflow)

theorem SameAnswers.refl (projectID : ℤ) (db : DB) : SameAnswers projectID db db :=
  ⟨rfl, rfl, fun _ h => h⟩

section

variable {rt : Runtime} {db db' db₁ : DB} {projectID : ℤ} {workflow : List WorkflowColumn}

theorem loadWorkflow_ne_nil (h : getProjectWorkflow db projectID = .ok (db₁, workflow)) :
    workflow ≠ [] := by
  unfold getProjectWorkflow workflowForUpdate at h
  split at h
  · simp only [ensureDefaultWorkflowColumns, bind_eq_ok, pure_eq_ok, Prod.mk.injEq,
      validateExactlyOneDoneColumn, reject_eq_ok, not_not] at h
    obtain ⟨_, _, db₂, ⟨_, hdone, rfl⟩, rfl, rfl⟩ := h
    intro hnil
    have hlength := congrArg List.length hnil
    rw [loadWorkflow, length_orderBy, List.length_nil, List.length_eq_zero_iff] at hlength
    rw [hlength] at hdone
    cases hdone
  · rename_i hne
    rw [pure_eq_ok, Prod.mk.injEq] at h
    exact h.2 ▸ hne

/-- Once a workflow has been read, it is there to be read again. -/
theorem getProjectWorkflow_again (h : getProjectWorkflow db projectID = .ok (db₁, workflow))
    (hcolumns : db'.columns = db₁.columns) :
    getProjectWorkflow db' projectID = .ok (db', workflow) := by
  have hload : loadWorkflow db' projectID = workflow := by
    rw [(workflowForUpdate_spec h).2.2.2, loadWorkflow, loadWorkflow, DB.columnsOf, DB.columnsOf,
      hcolumns]
  have hne := loadWorkflow_ne_nil h
  unfold getProjectWorkflow workflowForUpdate
  rw [hload, if_neg hne]
  rfl

/-- The database after the workflow has been read. -/
theorem SameAnswers.of_workflow {s : DB} (h : SameAnswers projectID db s)
    (hworkflow : getProjectWorkflow s projectID = .ok (db₁, workflow)) :
    SameAnswers projectID db db₁ := by
  obtain ⟨columns, hcolumns⟩ := (workflowForUpdate_spec hworkflow).1.exists_eq
  refine ⟨?_, ?_, ?_⟩
  · rw [hcolumns, h.tables]
  · rw [hcolumns]
    exact h.quiet
  · intro workflow' hexists
    obtain ⟨db₂, hdb₂⟩ := h.workflow workflow' hexists
    rw [hworkflow] at hdb₂
    obtain ⟨_, rfl⟩ := Prod.mk.inj (Except.ok.inj hdb₂)
    exact ⟨_, getProjectWorkflow_again hworkflow rfl⟩

/-- The database after the activity has been recorded. -/
theorem SameAnswers.of_activity {s s' : DB} (h : SameAnswers projectID db s)
    (hactivity : ActivityOnly s s') (hworkflow : loadWorkflow s projectID ≠ []) :
    SameAnswers projectID db s' := by
  have hload : loadWorkflow s' projectID = loadWorkflow s projectID := by
    rw [hactivity.tables]
    rfl
  refine ⟨?_, hactivity.quiet.trans h.quiet, ?_⟩
  · rw [hactivity.tables, h.tables]
  · intro workflow' hexists
    obtain ⟨db₂, hdb₂⟩ := h.workflow workflow' hexists
    have hs : getProjectWorkflow s projectID = .ok (s, loadWorkflow s projectID) := by
      unfold getProjectWorkflow workflowForUpdate
      rw [if_neg hworkflow]
      rfl
    rw [hs] at hdb₂
    obtain ⟨rfl, rfl⟩ := Prod.mk.inj (Except.ok.inj hdb₂)
    exact ⟨_, getProjectWorkflow_again hs (by rw [hactivity.tables])⟩

/-- The database after a read. -/
theorem SameAnswers.read {pc : ProjectContext} {s : DB} (h : SameAnswers pc.project.id db s)
    (hworkflow : getProjectWorkflow s pc.project.id = .ok (db₁, workflow)) (ctx : Ctx) :
    SameAnswers pc.project.id db (recordBoardRead ctx pc db₁) := by
  refine (h.of_workflow hworkflow).of_activity ?_ ?_
  · unfold recordBoardRead
    split
    · exact updateBoardActivity_activityOnly ctx db₁ pc.project.id
    · exact ⟨rfl, rfl⟩
  · rw [← (workflowForUpdate_spec hworkflow).2.2.2]
    exact loadWorkflow_ne_nil hworkflow

/-- The flags that the projects of an id contribute to a join. -/
theorem map_isNone_expiresAt (h : db'.projects.map ProjectRow.quiet = db.projects.map ProjectRow.quiet)
    (projectID : ℤ) :
    (db'.projects.filter fun p => p.id == projectID).map (·.expiresAt.isNone) =
      (db.projects.filter fun p => p.id == projectID).map (·.expiresAt.isNone) := by
  have hquiet : ∀ ps : List ProjectRow,
      (ps.filter fun p => p.id == projectID).map (·.expiresAt.isNone) =
        ((ps.map ProjectRow.quiet).filter fun p => p.id == projectID).map (·.expiresAt.isNone) := by
    intro ps
    rw [List.filter_map, List.map_map]
    apply List.map_congr_left
    intro p _
    exact (isNone_expiresAt_quiet p).symm
  rw [hquiet db'.projects, hquiet db.projects, h]

theorem SameAnswers.hydrateTodo_eq (h : SameAnswers projectID db db') (rt : Runtime) (t : TodoRow) :
    hydrateTodo rt db' t = hydrateTodo rt db t := by
  have hnames : ∀ (pid : ℤ) (name : String),
      ((db'.projects.filter fun p => p.id == pid).map fun p =>
        if p.expiresAt.isNone then tagGroupKey rt name else name) =
      (db.projects.filter fun p => p.id == pid).map fun p =>
        if p.expiresAt.isNone then tagGroupKey rt name else name := by
    intro pid name
    have hmap := congrArg (List.map fun durable : Bool => if durable then tagGroupKey rt name else name)
      (map_isNone_expiresAt h.quiet pid)
    simpa only [List.map_map, Function.comp_def] using hmap
  have htags : listTagsForTodos rt db' [t.id] t.id = listTagsForTodos rt db [t.id] t.id := by
    unfold listTagsForTodos
    simp only [hnames]
    rw [h.tables]
  have hfields : listCustomFieldsForTodos db' [t.id] t.id =
      listCustomFieldsForTodos db [t.id] t.id := by
    rw [h.tables]
    rfl
  rw [hydrateTodo, htags, hfields]
  rfl

theorem SameAnswers.filteredTodos_eq (h : SameAnswers projectID db db') (pid : ℤ)
    (tagFilter : BoardTagFilter) (filter : BoardFilter) (cond : TodoRow → Bool) :
    filteredTodos db' pid tagFilter filter cond = filteredTodos db pid tagFilter filter cond := by
  rw [h.tables]
  rfl

theorem SameAnswers.resolveBoardTagFilter_eq (h : SameAnswers projectID db db') (rt : Runtime)
    (pid : ℤ) (durable : Bool) (rawFilters : List String) :
    resolveBoardTagFilter rt db' pid durable rawFilters =
      resolveBoardTagFilter rt db pid durable rawFilters := by
  rw [h.tables]
  rfl

/-- What is left of a lane after a cursor. -/
theorem SameAnswers.laneAfter_eq (h : SameAnswers projectID db db') (rt : Runtime) (pid : ℤ)
    (columnKey : String) (tagFilter : BoardTagFilter) (filter : BoardFilter)
    (sortOrder : SortOrder) (cursor : ℤ × ℤ) :
    laneAfter rt db' pid columnKey tagFilter filter sortOrder cursor =
      laneAfter rt db pid columnKey tagFilter filter sortOrder cursor := by
  unfold laneAfter laneTodos
  rw [h.filteredTodos_eq]
  apply List.map_congr_left
  intro t _
  exact h.hydrateTodo_eq rt t

/-- The project is found, with the same flag. -/
theorem SameAnswers.getProject (h : SameAnswers projectID db db') {pid : ℤ} {p : ProjectRow}
    (hp : Scrumboy.getProject db pid = .ok p) :
    ∃ p', Scrumboy.getProject db' pid = .ok p' ∧ p'.expiresAt.isNone = p.expiresAt.isNone := by
  have hfind : ∀ ps : List ProjectRow,
      (ps.find? fun p => p.id == pid && p.importBatchID == none).map ProjectRow.quiet =
        (ps.map ProjectRow.quiet).find? fun p => p.id == pid && p.importBatchID == none := by
    intro ps
    rw [List.find?_map]
    rfl
  have hsame := hfind db'.projects
  rw [h.quiet, ← hfind db.projects] at hsame
  unfold Scrumboy.getProject at hp ⊢
  cases hfound : db.projects.find? fun p => p.id == pid && p.importBatchID == none with
  | none =>
      rw [hfound] at hp
      cases hp
  | some q =>
      rw [hfound] at hp hsame
      cases hp
      obtain ⟨p', hp', hquiet⟩ := Option.map_eq_some_iff.mp hsame
      refine ⟨p', by rw [hp'], ?_⟩
      rw [← isNone_expiresAt_quiet p', hquiet, isNone_expiresAt_quiet]

end

/-! ## Tokens -/

section

variable {db : DB} {sortOrder : SortOrder} {todo : Todo}

/-- The two cursor texts are one. -/
theorem mcpBoardLaneCursor_eq (todo : Todo) (sortOrder : SortOrder) :
    mcpBoardLaneCursor todo sortOrder = laneCursor todo sortOrder := by
  cases sortOrder <;> rfl

theorem exists_laneCursor_eq (todo : Todo) (sortOrder : SortOrder) :
    ∃ a, laneCursor todo sortOrder = formatInt a ++ ":" ++ formatInt todo.row.id := by
  cases sortOrder with
  | due =>
      cases hdue : todo.row.dueAt with
      | none => exact ⟨maxInt64, by simp only [laneCursor, hdue]⟩
      | some ms => exact ⟨ms, by simp only [laneCursor, hdue]⟩
  | _ => exact ⟨_, rfl⟩

theorem ascii_laneCursor {c : Char} (h : c ∈ (laneCursor todo sortOrder).toList) : c.toNat < 128 := by
  have hdigit : ∀ {n : ℤ}, c ∈ (formatInt n).toList → c.toNat < 128 := by
    intro n hc
    rcases isDigit_of_mem_formatInt hc with rfl | hd
    · decide
    · rw [Char.isDigit, Bool.and_eq_true, decide_eq_true_eq, decide_eq_true_eq] at hd
      have hle : c.toNat ≤ '9'.toNat := hd.2
      exact hle.trans_lt (by decide)
  obtain ⟨a, ha⟩ := exists_laneCursor_eq todo sortOrder
  rw [ha, String.toList_append, String.toList_append, List.mem_append, List.mem_append] at h
  rcases h with (h | h) | h
  · exact hdigit h
  · rw [List.mem_singleton.mp h]
    decide
  · exact hdigit h

theorem laneCursor_ne_empty : laneCursor todo sortOrder ≠ "" := by
  obtain ⟨a, ha⟩ := exists_laneCursor_eq todo sortOrder
  rw [ha]
  intro heq
  simpa using congrArg (fun s => ':' ∈ s.toList) heq

/-- A token gives back the position of the todo that it was made from. -/
theorem mcpBoardCursor_encode (htable : BoardTable db) (ht : todo.row ∈ db.todos)
    (sortOrder : SortOrder) (columnKey : String) :
    mcpBoardCursor sortOrder columnKey
        (some (encodeMcpBoardCursor (mcpBoardLaneCursor todo sortOrder))) =
      .ok (parseLaneCursor (laneCursor todo sortOrder)) := by
  have hid : (parseLaneCursor (laneCursor todo sortOrder)).2 = todo.row.id := by
    have hkey := congrArg (fun k => (ofLex k).2)
      (cursorKey_parseLaneCursor sortOrder htable ht)
    cases sortOrder <;>
      simpa [cursorKey, laneKey, orderKey, laneOrderBy, Term.key] using hkey
  have hpos := htable.id_pos _ ht
  have hascii : ∀ c ∈ (laneCursor todo sortOrder).toList, c.toNat < 128 := fun c hc =>
    ascii_laneCursor hc
  rw [mcpBoardLaneCursor_eq, mcpBoardCursor, encodeMcpBoardCursor,
    if_neg (trimSpace_encodeToString_ne hascii laneCursor_ne_empty), decodeMcpBoardCursor,
    decodeString_encodeToString hascii]
  refine reject_bind_of_not ?_
  rintro ⟨_, hzero⟩
  omega

end

/-! ## Reads -/

/-- The calls and checks of a read that succeeded. -/
theorem readMcpBoard_eq_ok {rt : Runtime} {ctx : Ctx} {pc : ProjectContext} {db : DB}
    {query : McpBoardReadQuery} {db' : DB} {result : McpBoardReadResult} :
    readMcpBoard rt ctx pc db query = .ok (db', result) ↔
      ∃ sprintFilter db₁ workflow columns,
        resolveSprintFilter db pc.project query.sprintID = .ok sprintFilter ∧
        getProjectWorkflow db pc.project.id = .ok (db₁, workflow) ∧
        ¬ (trimSpace query.columnKey ≠ "" ∧ trimSpace query.columnKey ∉ workflow.map (·.key)) ∧
        (∀ entry ∈ query.cursorByColumn, entry.1 ∈ workflow.map (·.key)) ∧
        (workflow.filter fun column => trimSpace query.columnKey == "" ||
          column.key == trimSpace query.columnKey).mapM
            (readMcpBoardColumn rt db₁ pc.project query sprintFilter) = .ok columns ∧
        recordBoardRead ctx pc db₁ = db' ∧
        { project := pc.project, role := pc.role, columns } = result := by
  simp only [readMcpBoard, bind_eq_ok, mapError_eq_ok, reject_eq_ok, pure_eq_ok, Prod.mk.injEq,
    Prod.exists, forM_eq_ok, not_not]
  constructor
  · rintro ⟨sf, hsf, db₁, workflow, hworkflow, _, hfilter, _, hcursors, columns, hcolumns, hdb, hres⟩
    exact ⟨sf, db₁, workflow, columns, hsf, hworkflow, hfilter, hcursors, hcolumns, hdb, hres⟩
  · rintro ⟨sf, db₁, workflow, columns, hsf, hworkflow, hfilter, hcursors, hcolumns, hdb, hres⟩
    exact ⟨sf, hsf, db₁, workflow, hworkflow, (), hfilter, (), hcursors, columns, hcolumns, hdb, hres⟩

/-- The column of one read, from the token of the client, and the state after it: the
database that the read leaves and the token that it hands out. The client may send any
tokens for the other columns. -/
def McpStep (rt : Runtime) (pc : ProjectContext) (query : McpBoardReadQuery) (key : String)
    (s : DB × Option String) (page : McpBoardReadColumn) (next : Option (DB × Option String)) :
    Prop :=
  ∃ ctx cursors db' result,
    cursors.lookup key = s.2 ∧
      readMcpBoard rt ctx pc s.1 { query with cursorByColumn := cursors } = .ok (db', result) ∧
      page ∈ result.columns ∧ page.workflow.key = key ∧
      next = page.nextCursor.map fun token => (db', some token)

/-- The todos of a lane as the tool server shows them. -/
def mcpTodos (project : ProjectRow) (todos : List Todo) : List Todo :=
  suppressDisabledSprintAssignmentsInTodos project todos

section

variable {project : ProjectRow}

theorem mcpTodos_take (n : ℕ) (todos : List Todo) :
    mcpTodos project (todos.take n) = (mcpTodos project todos).take n := by
  unfold mcpTodos suppressDisabledSprintAssignmentsInTodos
  split
  · rfl
  · exact List.map_take

theorem mcpTodos_drop (n : ℕ) (todos : List Todo) :
    mcpTodos project (todos.drop n) = (mcpTodos project todos).drop n := by
  unfold mcpTodos suppressDisabledSprintAssignmentsInTodos
  split
  · rfl
  · exact List.map_drop

theorem length_mcpTodos (todos : List Todo) : (mcpTodos project todos).length = todos.length := by
  unfold mcpTodos suppressDisabledSprintAssignmentsInTodos
  split
  · rfl
  · exact List.length_map _

/-- Hiding a sprint does not change the cursor. -/
theorem getLast?_mcpTodos (project : ProjectRow) (todos : List Todo) (sortOrder : SortOrder) :
    ((mcpTodos project todos).getLast?.map fun last => mcpBoardLaneCursor last sortOrder) =
      todos.getLast?.map fun last => laneCursor last sortOrder := by
  unfold mcpTodos suppressDisabledSprintAssignmentsInTodos
  split
  · rfl
  · rw [List.getLast?_map, Option.map_map]
    rfl

end

/-! ## One column of successive reads -/

section

variable {rt : Runtime} {pc : ProjectContext} {query : McpBoardReadQuery} {key : String} {db : DB}
  {p : ProjectRow} {sprintFilter : SprintFilter}

/-- What a client has yet to read of a column: the rows after the position of its token. -/
structure McpLeft (rt : Runtime) (pc : ProjectContext) (query : McpBoardReadQuery) (key : String)
    (db : DB) (tagFilter : BoardTagFilter) (sprintFilter : SprintFilter) (s : DB × Option String)
    (left : List Todo) : Prop where
  same : SameAnswers pc.project.id db s.1
  left_eq : ∃ cursor, mcpBoardCursor query.sortOrder key s.2 = .ok cursor ∧
    left = mcpTodos pc.project (laneAfter rt db pc.project.id key tagFilter
      (query.filter sprintFilter) query.sortOrder cursor)

/-- The page of a column that has been read. -/
theorem readMcpBoardColumn_spec {s : DB} (hsame : SameAnswers pc.project.id db s)
    (hproject : getProject db pc.project.id = .ok p) (hlimit : IsInt64 query.limit)
    {cursor : ℤ × ℤ} {cursors : List (String × String)} {column : WorkflowColumn}
    (hcursor : mcpBoardCursor query.sortOrder column.key (cursors.lookup column.key) = .ok cursor) :
    ∃ page, readMcpBoardColumn rt s pc.project { query with cursorByColumn := cursors } sprintFilter
        column = .ok page ∧
      ∃ left, left = laneAfter rt db pc.project.id column.key (resolveBoardTagFilter rt db
          pc.project.id p.expiresAt.isNone query.tagFilters) (query.filter sprintFilter)
          query.sortOrder cursor ∧
        page.workflow = column ∧
        page.todos = (mcpTodos pc.project left).take (pageSize query.limit) ∧
        page.hasMore = decide (pageSize query.limit < left.length) ∧
        page.nextCursor = if pageSize query.limit < left.length then
          (left.take (pageSize query.limit)).getLast?.map fun last =>
            encodeMcpBoardCursor (laneCursor last query.sortOrder) else none := by
  obtain ⟨p', hp', hflag⟩ := hsame.getProject hproject
  obtain ⟨hitems, hmore, _⟩ := listTodosForBoardLaneResolved_spec rt s pc.project.id column.key
    (resolveBoardTagFilter rt s pc.project.id p'.expiresAt.isNone query.tagFilters)
    (query.filter sprintFilter) query.sortOrder hlimit cursor
  rw [hsame.laneAfter_eq, hsame.resolveBoardTagFilter_eq, hflag] at hitems hmore
  generalize hleft : laneAfter rt db pc.project.id column.key (resolveBoardTagFilter rt db
    pc.project.id p.expiresAt.isNone query.tagFilters) (query.filter sprintFilter) query.sortOrder
    cursor = left at hitems hmore
  have hlist : listTodosForBoardLane rt s pc.project.id column.key query.limit cursor.1 cursor.2
      query.tagFilters (query.filter sprintFilter) query.sortOrder =
      .ok (listTodosForBoardLaneResolved rt s pc.project.id column.key query.limit cursor.1 cursor.2
        (resolveBoardTagFilter rt db pc.project.id p.expiresAt.isNone query.tagFilters)
        (query.filter sprintFilter) query.sortOrder) := by
    rw [listTodosForBoardLane, hp', ← hflag, ← hsame.resolveBoardTagFilter_eq]
    rfl
  generalize listTodosForBoardLaneResolved rt s pc.project.id column.key query.limit cursor.1
    cursor.2 (resolveBoardTagFilter rt db pc.project.id p.expiresAt.isNone query.tagFilters)
    (query.filter sprintFilter) query.sortOrder = lanePage at hitems hmore hlist
  obtain ⟨total, hcount⟩ : ∃ total, countTodosForBoardLane rt s pc.project.id column.key
      query.tagFilters (query.filter sprintFilter) = .ok total := by
    rw [countTodosForBoardLane, hp']
    exact ⟨_, rfl⟩
  have hread : readMcpBoardColumn rt s pc.project { query with cursorByColumn := cursors }
      sprintFilter column = .ok
        { workflow := column
          todos := mcpTodos pc.project lanePage.items
          nextCursor := if lanePage.hasMore then
            (mcpTodos pc.project lanePage.items).getLast?.map fun last =>
              encodeMcpBoardCursor (mcpBoardLaneCursor last query.sortOrder) else none
          hasMore := lanePage.hasMore
          totalCount := total } := by
    simp only [readMcpBoardColumn, bind_eq_ok, mapError_eq_ok, pure_eq_ok]
    exact ⟨cursor, hcursor, lanePage, hlist, total, hcount, rfl⟩
  refine ⟨_, hread, left, rfl, rfl, ?_, hmore, ?_⟩
  · rw [hitems, mcpTodos_take]
  · simp only [hmore, hitems, decide_eq_true_eq]
    have hlast := congrArg (Option.map encodeMcpBoardCursor)
      (getLast?_mcpTodos pc.project (left.take (pageSize query.limit)) query.sortOrder)
    rw [Option.map_map, Option.map_map] at hlast
    exact if_congr Iff.rfl hlast rfl

theorem readMcpBoardColumn_workflow {s : DB} {query : McpBoardReadQuery} {column : WorkflowColumn}
    {page : McpBoardReadColumn}
    (h : readMcpBoardColumn rt s pc.project query sprintFilter column = .ok page) :
    page.workflow = column := by
  simp only [readMcpBoardColumn, bind_eq_ok, pure_eq_ok] at h
  obtain ⟨_, _, _, _, _, _, rfl⟩ := h
  rfl

theorem SameAnswers.resolveSprintFilter_eq {projectID : ℤ} {s : DB} (h : SameAnswers projectID db s)
    (project : ProjectRow) (sprintID : Option ℤ) :
    resolveSprintFilter s project sprintID = resolveSprintFilter db project sprintID := by
  rw [h.tables]
  rfl

/-- One read of the column. -/
theorem McpStep.spec (htable : BoardTable db) (hproject : getProject db pc.project.id = .ok p)
    (hsprint : resolveSprintFilter db pc.project query.sprintID = .ok sprintFilter)
    (hlimit : IsInt64 query.limit) {s : DB × Option String} {left : List Todo}
    (hleft : McpLeft rt pc query key db (resolveBoardTagFilter rt db pc.project.id
      p.expiresAt.isNone query.tagFilters) sprintFilter s left)
    {page : McpBoardReadColumn} {next : Option (DB × Option String)}
    (hstep : McpStep rt pc query key s page next) :
    page.todos = left.take (pageSize query.limit) ∧
      page.hasMore = decide (pageSize query.limit < left.length) ∧
      (left.length ≤ pageSize query.limit → next = none) ∧
      (pageSize query.limit < left.length → ∃ s', next = some s' ∧
        McpLeft rt pc query key db (resolveBoardTagFilter rt db pc.project.id p.expiresAt.isNone
          query.tagFilters) sprintFilter s' (left.drop (pageSize query.limit))) := by
  obtain ⟨ctx, cursors, db', result, htoken, hread, hpage, hkey, hnext⟩ := hstep
  obtain ⟨hsame, cursor, hcursor, rfl⟩ := hleft
  obtain ⟨sf, db₁, workflow, columns, hsf, hworkflow, _, _, hcolumns, rfl, rfl⟩ :=
    readMcpBoard_eq_ok.mp hread
  have hsf : resolveSprintFilter s.1 pc.project query.sprintID = .ok sf := hsf
  rw [hsame.resolveSprintFilter_eq, hsprint] at hsf
  cases hsf
  obtain ⟨column, _, hcolumn⟩ := mem_of_mapM hcolumns hpage
  have hck : column.key = key := by rw [← hkey, readMcpBoardColumn_workflow hcolumn]
  subst hck
  rw [← htoken] at hcursor
  obtain ⟨page', hpage', lane, rfl, _, htodos, hmore, hcursor'⟩ :=
    readMcpBoardColumn_spec (hsame.of_workflow hworkflow) hproject hlimit hcursor
  rw [hcolumn] at hpage'
  cases hpage'
  rw [length_mcpTodos]
  refine ⟨htodos, hmore, ?_, ?_⟩
  · intro hle
    rw [if_neg (not_lt.mpr hle)] at hcursor'
    rw [hnext, hcursor']
    rfl
  · intro hlt
    have hpos := pageSize_pos query.limit
    have hne : (laneAfter rt db pc.project.id column.key (resolveBoardTagFilter rt db pc.project.id
        p.expiresAt.isNone query.tagFilters) (query.filter sprintFilter) query.sortOrder
        cursor).take (pageSize query.limit) ≠ [] := by
      rw [ne_eq, List.take_eq_nil_iff]
      rintro (h | h)
      · omega
      · simp [h] at hlt
    obtain ⟨last, hlast⟩ := Option.ne_none_iff_exists'.mp (List.getLast?_eq_none_iff.not.mpr hne)
    have hmem : last.row ∈ db.todos := by
      have hmem := List.mem_of_mem_take (List.mem_of_getLast? hlast)
      obtain ⟨row, hrow, rfl⟩ := List.mem_map.mp hmem
      rw [rowsAfter, mem_orderBy] at hrow
      exact mem_of_mem_filteredTodos (List.mem_of_mem_filter hrow)
    rw [if_pos hlt, hlast] at hcursor'
    have htoken' := mcpBoardCursor_encode htable hmem query.sortOrder column.key
    rw [mcpBoardLaneCursor_eq] at htoken'
    refine ⟨(recordBoardRead ctx pc db₁, some (encodeMcpBoardCursor
      (laneCursor last query.sortOrder))), by rw [hnext, hcursor']; rfl,
      hsame.read hworkflow ctx, _, htoken', ?_⟩
    rw [laneAfter_parseLaneCursor htable hlast, mcpTodos_drop]

/-- In every position there is a read, the one with the token of the column alone. -/
theorem McpStep.exists_page {ctx : Ctx} {db' : DB} {result : McpBoardReadResult}
    (hproject : getProject db pc.project.id = .ok p) (hlimit : IsInt64 query.limit)
    (hfirst : readMcpBoard rt ctx pc db { query with cursorByColumn := [] } = .ok (db', result))
    (hkey : key ∈ result.columns.map (·.workflow.key)) {tagFilter : BoardTagFilter}
    {s : DB × Option String} {left : List Todo}
    (hleft : McpLeft rt pc query key db tagFilter sprintFilter s left) :
    ∃ page next, McpStep rt pc query key s page next := by
  obtain ⟨hsame, cursor, hcursor, -⟩ := hleft
  obtain ⟨sf, db₁, workflow, columns, hsf, hworkflow, hfilter, -, hcolumns, rfl, rfl⟩ :=
    readMcpBoard_eq_ok.mp hfirst
  obtain ⟨db₂, hworkflow₂⟩ := hsame.workflow workflow ⟨db₁, hworkflow⟩
  obtain ⟨page, hpage, rfl⟩ := List.mem_map.mp hkey
  obtain ⟨column, hshown, hcolumn⟩ := mem_of_mapM hcolumns hpage
  have hck : page.workflow = column := readMcpBoardColumn_workflow hcolumn
  rw [hck] at hcursor
  let cursors : List (String × String) := s.2.toList.map fun token => (column.key, token)
  have hlookup : cursors.lookup column.key = s.2 := by
    cases hs : s.2 <;> simp [cursors, hs]
  have hcursors : ∀ col : WorkflowColumn, ∃ c, mcpBoardCursor query.sortOrder col.key
      (cursors.lookup col.key) = .ok c := by
    intro col
    by_cases heq : col.key = column.key
    · rw [heq, hlookup]
      exact ⟨cursor, hcursor⟩
    · have hnone : cursors.lookup col.key = none := by
        cases hs : s.2 <;> simp [cursors, hs, List.lookup_cons, beq_eq_false_iff_ne.mpr heq]
      rw [hnone]
      exact ⟨_, rfl⟩
  obtain ⟨out, hout, hmem⟩ := exists_mapM_eq_ok (l := workflow.filter fun col =>
      trimSpace query.columnKey == "" || col.key == trimSpace query.columnKey)
    (f := readMcpBoardColumn rt db₂ pc.project { query with cursorByColumn := cursors } sf) (by
      intro col _
      obtain ⟨c, hc⟩ := hcursors col
      obtain ⟨page', hpage', -⟩ :=
        readMcpBoardColumn_spec (hsame.of_workflow hworkflow₂) hproject hlimit hc
      exact ⟨page', hpage'⟩)
  obtain ⟨page', hpage', hread'⟩ := hmem column hshown
  refine ⟨page', _, ctx, cursors, _, _, hck ▸ hlookup, readMcpBoard_eq_ok.mpr
    ⟨sf, db₂, workflow, out, ?_, hworkflow₂, hfilter, ?_, hout, rfl, rfl⟩, hpage', ?_, rfl⟩
  · exact (hsame.resolveSprintFilter_eq _ _).trans hsf
  · intro entry hentry
    obtain ⟨token, _, rfl⟩ := List.mem_map.mp hentry
    exact List.mem_map_of_mem (List.mem_of_mem_filter hshown)
  · rw [readMcpBoardColumn_workflow hread', hck]

/-- Following the tokens of a column reads the lane of the column. -/
theorem mcpStep_readsAll (htable : BoardTable db) {ctx : Ctx} {db' : DB} {result : McpBoardReadResult}
    (hlimit : IsInt64 query.limit)
    (hfirst : readMcpBoard rt ctx pc db { query with cursorByColumn := [] } = .ok (db', result))
    (hkey : key ∈ result.columns.map (·.workflow.key))
    (hproject : getProject db pc.project.id = .ok p)
    (hsprint : resolveSprintFilter db pc.project query.sprintID = .ok sprintFilter) :
    ReadsAll (McpStep rt pc query key) McpBoardReadColumn.todos McpBoardReadColumn.hasMore (db, none)
      (mcpTodos pc.project (wholeLane rt db pc.project.id key (resolveBoardTagFilter rt db
        pc.project.id p.expiresAt.isNone query.tagFilters) (query.filter sprintFilter)
        query.sortOrder)) := by
  have hpages : Pages (McpStep rt pc query key) McpBoardReadColumn.todos McpBoardReadColumn.hasMore
      (McpLeft rt pc query key db (resolveBoardTagFilter rt db pc.project.id p.expiresAt.isNone
        query.tagFilters) sprintFilter) (pageSize query.limit) :=
    { pos := pageSize_pos query.limit
      answers := fun s left hleft => McpStep.exists_page hproject hlimit hfirst hkey hleft
      items_eq := fun s left page next hleft hstep =>
        (McpStep.spec htable hproject hsprint hlimit hleft hstep).1
      more_eq := fun s left page next hleft hstep =>
        (McpStep.spec htable hproject hsprint hlimit hleft hstep).2.1
      next := by
        intro s left page s' hleft hstep
        obtain ⟨_, _, hdone, hnext⟩ := McpStep.spec htable hproject hsprint hlimit hleft hstep
        by_cases hlt : pageSize query.limit < left.length
        · obtain ⟨s'', heq, hleft'⟩ := hnext hlt
          exact ⟨hlt, Option.some.inj heq ▸ hleft'⟩
        · cases hdone (not_lt.mp hlt)
      done := by
        intro s left page hleft hstep
        obtain ⟨_, _, _, hnext⟩ := McpStep.spec htable hproject hsprint hlimit hleft hstep
        by_contra hlt
        obtain ⟨s'', heq, _⟩ := hnext (not_le.mp hlt)
        cases heq }
  refine hpages.readsAll ⟨.refl _ db, laneCursorSentinel query.sortOrder, rfl, ?_⟩
  rw [laneAfter_laneCursorSentinel htable]

end

/-- The pages of a lane one after the other are the whole lane in its order with each todo
once, and only the last of them says that there is no more: for the pages of the store,
with their cursors written out and read back, and for each column of the reads of the tool
server, with its own start and its own tokens. -/
theorem lane_pages_exact {db : DB} (htable : BoardTable db) (rt : Runtime) :
    (∀ projectID columnKey tagFilter filter sortOrder limit, IsInt64 limit →
      ReadsAll (LaneStep rt db projectID columnKey limit tagFilter filter sortOrder) LanePage.items
          LanePage.hasMore (laneCursorSentinel sortOrder)
          (wholeLane rt db projectID columnKey tagFilter filter sortOrder) ∧
        ((wholeLane rt db projectID columnKey tagFilter filter sortOrder).map (·.row.id)).Nodup) ∧
      ∀ ctx pc query db' result, IsInt64 query.limit →
        readMcpBoard rt ctx pc db { query with cursorByColumn := [] } = .ok (db', result) →
        ∀ column ∈ result.columns, ∃ p sprintFilter,
          getProject db pc.project.id = .ok p ∧
            resolveSprintFilter db pc.project query.sprintID = .ok sprintFilter ∧
            ReadsAll (McpStep rt pc query column.workflow.key) McpBoardReadColumn.todos
              McpBoardReadColumn.hasMore (db, none)
              (mcpTodos pc.project (wholeLane rt db pc.project.id column.workflow.key
                (resolveBoardTagFilter rt db pc.project.id p.expiresAt.isNone query.tagFilters)
                (query.filter sprintFilter) query.sortOrder)) := by
  refine ⟨fun _ _ _ _ _ _ hlimit => ⟨laneStep_readsAll htable hlimit, nodup_wholeLane htable⟩, ?_⟩
  intro ctx pc query db' result hlimit hfirst column hcolumn
  obtain ⟨sprintFilter, db₁, workflow, columns, hsprint, hworkflow, -, -, hcolumns, -, rfl⟩ :=
    readMcpBoard_eq_ok.mp hfirst
  obtain ⟨p, hproject⟩ : ∃ p, getProject db pc.project.id = .ok p := by
    obtain ⟨_, _, hread⟩ := mem_of_mapM hcolumns hcolumn
    simp only [readMcpBoardColumn, listTodosForBoardLane, bind_eq_ok, mapError_eq_ok] at hread
    obtain ⟨_, _, _, ⟨p, hp, _⟩, _⟩ := hread
    rw [(workflowForUpdate_spec hworkflow).1] at hp
    exact ⟨p, hp⟩
  exact ⟨p, sprintFilter, hproject, hsprint, mcpStep_readsAll htable hlimit hfirst
    (List.mem_map_of_mem hcolumn) hproject hsprint⟩

/-- A reader of the board with `crowdedBoard`'s project. -/
def crowdedReader : ProjectContext := ⟨{ defaultProjectRow 0 with id := 1 }, none⟩

/-- A lane of two todos, newest first, one a page. -/
theorem lane_pages_exact_crowded :
    (∃ pages, Follows (LaneStep plainRuntime crowdedBoard 1 "backlog" 1 { noFilter := true } {}
        .newest) (laneCursorSentinel .newest) pages none ∧
      (pages.flatMap LanePage.items).map (·.row.id) = [2, 1]) ∧
    ∃ pages, Follows (McpStep plainRuntime crowdedReader { limit := 1, sortOrder := .newest }
        "backlog") (crowdedBoard, none) pages none ∧
      (pages.flatMap McpBoardReadColumn.todos).map (·.row.id) = [2, 1] := by
  have hexact := lane_pages_exact boardTable_crowdedBoard plainRuntime
  refine ⟨?_, ?_⟩
  · have hreads := (hexact.1 1 "backlog" { noFilter := true } {} .newest 1 (by decide)).1
    obtain ⟨pages, hpages⟩ := hreads.exists_pages
    refine ⟨pages, hpages, ?_⟩
    rw [hreads.items_eq pages hpages]
    decide +kernel
  · obtain ⟨⟨db', result⟩, hread⟩ := exists_of_isOk (x := readMcpBoard plainRuntime ⟨none, 0⟩ crowdedReader
      crowdedBoard
      { limit := 1, sortOrder := .newest, cursorByColumn := [] }) (by decide +kernel)
    have hkey : ((readMcpBoard plainRuntime ⟨none, 0⟩ crowdedReader
        crowdedBoard { limit := 1, sortOrder := .newest, cursorByColumn := [] }).toOption.map
        fun r => r.2.columns.map (·.workflow.key)) = some ["backlog", "done"] := by decide +kernel
    rw [hread] at hkey
    have hkeys : result.columns.map (·.workflow.key) = ["backlog", "done"] := Option.some.inj hkey
    have hmem : "backlog" ∈ result.columns.map (·.workflow.key) := hkeys ▸ List.mem_cons_self
    obtain ⟨column, hcolumn, hck⟩ := List.mem_map.mp hmem
    obtain ⟨p, sprintFilter, hp, hsprint, hreads⟩ := hexact.2 ⟨none, 0⟩
      crowdedReader { limit := 1, sortOrder := .newest } db' result
      (by decide) hread column hcolumn
    rw [hck] at hreads
    obtain ⟨pages, hpages⟩ := hreads.exists_pages
    refine ⟨pages, hpages, ?_⟩
    rw [hreads.items_eq pages hpages]
    have hproject : (getProject crowdedBoard 1).toOption.map (·.expiresAt) = some none := by
      decide +kernel
    have hp : getProject crowdedBoard 1 = .ok p := hp
    rw [hp] at hproject
    have hexpires : p.expiresAt = none := Option.some.inj hproject
    cases hsprint
    rw [hexpires]
    decide +kernel

end Scrumboy
