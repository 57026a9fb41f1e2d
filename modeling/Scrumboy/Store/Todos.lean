import Scrumboy.Store.CustomFields
import Scrumboy.Store.Ordering
import Scrumboy.Store.Priorities
import Scrumboy.Store.Tags
import Scrumboy.Store.Wall

/-!
# Todos

Creating, moving, deleting, archiving and restoring todos. Each operation is one
transaction: it yields the new database, or an error and no change. Audit
entries, the assets of a body and the notifications of a change are not part of
the database here.
-/

set_option linter.dupNamespace false

namespace Scrumboy

open Go Sql

/-- A todo as the store returns it: its row, its tags and its custom field values. -/
structure Todo where
  row : TodoRow
  tags : List String
  customFields : List (String × FieldValue)
  deriving DecidableEq, Repr

structure CreateTodoInput where
  title : String
  body : String := ""
  tags : List String := []
  columnKey : String := ""
  estimationPoints : Option ℤ := none
  sprintID : Option ℤ := none
  assigneeUserID : Option ℤ := none
  priorityKey : Option String := none
  dueAt : Option ℤ := none
  afterID : Option ℤ := none
  beforeID : Option ℤ := none
  customFields : CustomFieldValues := []
  deriving DecidableEq, Repr

/-- The column of a new todo; without one it goes to the backlog. -/
def CreateTodoInput.lane (input : CreateTodoInput) : String :=
  if input.columnKey = "" then defaultColumnBacklog else input.columnKey

/-- The first millisecond of the year 2100. -/
def maxDueAtMs : ℤ := 4102444800000

def validateDueAt (dueAt : Option ℤ) : Result Unit :=
  reject (∃ ms ∈ dueAt, ms ≤ 0 ∨ maxDueAtMs ≤ ms) ⟨.validation, "dueAt out of range"⟩

def estimationScale : List ℤ := [1, 2, 3, 5, 8, 13, 20, 40]

def validateEstimationPoints (points : Option ℤ) : Result Unit :=
  reject (∃ v ∈ points, v ∉ estimationScale)
    ⟨.validation, "estimation points must be one of 1,2,3,5,8,13,20,40"⟩

/-- The value that `done_at` gets, if it is written at all. -/
def resolveDoneAtForColumnTransition (previousDone newDone : Bool) (nowMs : ℤ) : Option ℤ :=
  if newDone && !previousDone then some nowMs else none

def lockProjectSprintsEnabled (db : DB) (projectID : ℤ) : Result Unit :=
  if db.projects.any fun p => p.id == projectID && p.sprintsEnabled then pure ()
  else do
    reject (projectID ∉ db.projects.map (·.id)) ⟨.notFound, ""⟩
    throw ⟨.sprintsDisabled, ""⟩

/-! ## Creating -/

/-- The checks of a new todo that need no database; the result is the list of its
tags in canonical form. -/
def checkTodoInput (rt : Runtime) (input : CreateTodoInput) : Result (List String) := do
  let title := trimSpace input.title
  reject (title = "" ∨ 200 < byteLen title) ⟨.validation, "invalid title"⟩
  reject (20000 < byteLen input.body) ⟨.validation, "body too large"⟩
  validateEstimationPoints input.estimationPoints
  validateDueAt input.dueAt
  normalizeTags rt input.tags

/-- The rule for assigning a new todo: on a board with accounts, a maintainer may
assign it to a member. -/
def checkAssignee (ctx : Ctx) (db : DB) (p : ProjectRow) : Option ℤ → Result Unit
  | none => pure ()
  | some assignee =>
      if isAnonymousTemporaryBoard p then
        throw ⟨.validation, "assignment is not allowed in anonymous mode"⟩
      else
        match ctx.userID with
        | none => throw ⟨.unauthorized, ""⟩
        | some actorID => do
            reject (actorID = 0) ⟨.unauthorized, ""⟩
            reject (getProjectRole db p.id actorID = none) ⟨.unauthorized, ""⟩
            reject (assignee ∉ db.users) ⟨.validation, "assignee does not exist"⟩
            reject (getProjectRole db p.id assignee = none)
              ⟨.validation, "assignee is not a project member"⟩
            reject (getProjectRole db p.id actorID ≠ some .maintainer) ⟨.unauthorized, ""⟩

/-- The tags that are kept and the user that owns them. Without a user, tags are
kept on a board with an expiry date only. -/
def tagOwner (ctx : Ctx) (db : DB) (p : ProjectRow) (tags : List String) :
    Result (List String × Option ℤ) :=
  match ctx.userID with
  | some userID => pure (tags, some userID)
  | none =>
      if tags = [] ∨ isTemporaryProject p then pure (tags, none)
      else if authEnabled db then throw ⟨.unauthorized, "userID required for tag operations"⟩
      else pure ([], none)

def checkPriority (db : DB) (projectID : ℤ) : Option String → Result Unit
  | none => pure ()
  | some key => do
      let _ ← validateProjectPriorityKey db projectID key
      pure ()

def checkSprint (db : DB) (projectID : ℤ) : Option ℤ → Result Unit
  | none => pure ()
  | some sprintID => do
      lockProjectSprintsEnabled db projectID
      match db.sprints.find? fun s => s.id == sprintID with
      | none => throw ⟨.validation, "sprint not found"⟩
      | some s =>
          reject (s.projectID ≠ projectID) ⟨.validation, "sprint does not belong to project"⟩

/-- The local id after the largest one of the project. -/
def nextLocalID (db : DB) (projectID : ℤ) : ℤ :=
  wrap (coalesceMax ((db.todos.filter fun t => t.projectID == projectID).map (·.localID)) + 1)

/-- `INSERT INTO todos`, which the table numbers. A local id that is in use
violates the index. -/
def insertTodo (db : DB) (t : TodoRow) (e : StoreError) : Result (DB × TodoRow) := do
  reject (∃ u ∈ db.todos, u.projectID = t.projectID ∧ u.localID = t.localID) e
  let t := { t with id := nextRowid (db.todos.map (·.id)) }
  pure ({ db with todos := db.todos ++ [t] }, t)

/-- Whether a new todo has its tags written, and whether they are tags of the board. -/
def setNewTodoTags (rt : Runtime) (ctx : Ctx) (db : DB) (p : ProjectRow) (todoID : ℤ)
    (userID : Option ℤ) (tags : List String) : Result DB :=
  let useBoardScopedTags := isAnonymousTemporaryBoard p || (isTemporaryProject p && userID.isNone)
  if userID.isSome || useBoardScopedTags then
    setTodoTags rt ctx db p.id todoID userID useBoardScopedTags tags
  else pure db

def setNewTodoFields (rt : Runtime) (db : DB) (projectID todoID : ℤ)
    (values : CustomFieldValues) : Result (DB × List (String × FieldValue)) :=
  if values = [] then pure (db, [])
  else do
    let patch ← resolveCustomFieldPatch rt db projectID values
    let (db, _, next) := applyCustomFieldPatch db todoID [] patch
    pure (db, next)

/-- `CreateTodo`. A collision on the local id is retried, but the next attempt
starts from the same state and meets it again. -/
def createTodo (rt : Runtime) (ctx : Ctx) (db : DB) (projectID : ℤ) (input : CreateTodoInput) :
    Result (DB × Todo) := do
  let tags ← checkTodoInput rt input
  let p ← getProjectForWrite ctx db projectID
  requireTodoRight ctx db p canCreateTodo
  checkAssignee ctx db p input.assigneeUserID
  let (tags, userID) ← tagOwner ctx db p tags
  let localID := nextLocalID db projectID
  let targetCol ← validateProjectColumnKey db projectID input.lane
  checkPriority db projectID input.priorityKey
  let (db, newRank) ← computeNewRank db projectID targetCol.key none input.afterID input.beforeID
  checkSprint db projectID input.sprintID
  let (db, row) ← insertTodo db
    { id := 0
      projectID := projectID
      localID := localID
      title := trimSpace input.title
      body := input.body
      columnKey := input.lane
      rank := newRank
      estimationPoints := input.estimationPoints
      assigneeUserID := input.assigneeUserID
      createdByUserID := userID
      sprintID := input.sprintID
      priorityKey := input.priorityKey
      createdAt := ctx.nowMs
      updatedAt := ctx.nowMs
      doneAt := resolveDoneAtForColumnTransition false targetCol.isDone ctx.nowMs
      archivedAt := none
      dueAt := input.dueAt
      dueRemindedAt := none }
    ⟨.conflict, "could not allocate local_id (too much contention)"⟩
  let db ← setNewTodoTags rt ctx db p row.id userID tags
  let (db, values) ← setNewTodoFields rt db projectID row.id input.customFields
  let db := touchProject db projectID ctx.nowMs
  pure (updateBoardActivity ctx db projectID, ⟨row, tags, values⟩)

/-! ## Moving -/

def getTodo (db : DB) (todoID : ℤ) : Result TodoRow :=
  match db.todos.find? (·.id == todoID) with
  | some t => .ok t
  | none => .error ⟨.notFound, ""⟩

def todoArchivedError : StoreError :=
  ⟨.conflict, "todo is archived; restore it before modifying"⟩

/-- `UPDATE todos SET column_key, rank, updated_at`, with `done_at` if it is written. -/
def TodoRow.moved (columnKey : String) (rank nowMs : ℤ) (doneAt : Option ℤ) (t : TodoRow) :
    TodoRow :=
  { t with columnKey := columnKey, rank := rank, updatedAt := nowMs, doneAt := doneAt.or t.doneAt }

def moveTodo (ctx : Ctx) (db : DB) (todoID : ℤ) (toColumnKey : String)
    (afterID beforeID : Option ℤ) : Result (DB × TodoRow) := do
  reject (afterID = some todoID) ⟨.validation, "afterId cannot equal todoId"⟩
  reject (beforeID = some todoID) ⟨.validation, "beforeId cannot equal todoId"⟩
  let existing ← getTodo db todoID
  let p ← getProject db existing.projectID
  requireTodoRight ctx db p canMoveTodo
  reject (existing.archivedAt ≠ none) todoArchivedError
  let targetCol ← validateProjectColumnKey db existing.projectID toColumnKey
  let currentCol ← validateProjectColumnKey db existing.projectID existing.columnKey
  let (db, newRank) ← computeNewRank db existing.projectID toColumnKey (some todoID) afterID
    beforeID
  let doneAt := resolveDoneAtForColumnTransition currentCol.isDone targetCol.isDone ctx.nowMs
  let moved := TodoRow.moved toColumnKey newRank ctx.nowMs doneAt
  let db := { db with todos := updateWhere (·.id == todoID) moved db.todos }
  let db := touchProject db existing.projectID ctx.nowMs
  pure (updateBoardActivity ctx db existing.projectID, moved existing)

/-! ## Deleting -/

/-- `DELETE FROM todos WHERE id = ?` with the rows of other tables that the
foreign keys delete along. -/
def deleteTodoRow (db : DB) (todoID : ℤ) : DB :=
  { db with
    todos := deleteWhere (·.id == todoID) db.todos
    todoTags := deleteWhere (·.todoID == todoID) db.todoTags
    customFieldValues := deleteWhere (·.todoID == todoID) db.customFieldValues
    placements := deleteWhere (·.todoID == todoID) db.placements }

/-- `DELETE FROM todo_links`: the links that name the todo at either end. -/
def deleteTodoLinks (db : DB) (t : TodoRow) : DB :=
  { db with
    links := deleteWhere (fun l => l.projectID == t.projectID &&
      (l.fromLocalID == t.localID || l.toLocalID == t.localID)) db.links }

/-- A wall that lost a placement or an edge with a todo has its version increased. -/
def bumpWallAfterDelete (ctx : Ctx) (db : DB) (projectID : ℤ) (wallChanged : Bool)
    (placementCount : ℕ) : Result DB :=
  if wallChanged || 0 < placementCount then bumpWallVersion ctx db projectID else pure db

def deleteTodo (ctx : Ctx) (db : DB) (todoID : ℤ) : Result DB := do
  let existing ← getTodo db todoID
  let p ← getProjectForWrite ctx db existing.projectID
  requireTodoRight ctx db p canDeleteTodo
  let db := deleteTodoLinks db existing
  let placementCount := (db.placements.filter fun r =>
    r.projectID == existing.projectID && r.todoID == todoID).length
  let db := deleteTodoRow db todoID
  let (db, wallChanged) := removeWallStoryEdges db existing.projectID
    (formatWallStoryEndpoint existing.localID)
  let db ← bumpWallAfterDelete ctx db existing.projectID wallChanged placementCount
  let db := touchProject db existing.projectID ctx.nowMs
  pure (updateBoardActivity ctx db existing.projectID)

/-! ## Archiving and restoring -/

def maxTodoArchiveBatch : ℕ := 500

def validateArchiveIDs (ids : List ℤ) : Result Unit := do
  reject (ids.length < 1 ∨ maxTodoArchiveBatch < ids.length)
    ⟨.validation, "localIds must contain between 1 and 500 items"⟩
  reject (∃ id ∈ ids, id ≤ 0) ⟨.validation, "localIds must be positive"⟩
  reject (¬ ids.Nodup) ⟨.validation, "localIds must be unique"⟩

structure TodoArchiveBatchResult where
  requestedCount : ℕ
  transitionedLocalIDs : List ℤ
  unchangedLocalIDs : List ℤ
  transitionedAt : Option ℤ
  deriving DecidableEq, Repr

/-- `UPDATE todos SET archived_at = ? WHERE id = ? AND archived_at IS [NOT] NULL`. -/
def setArchived (nowMs : ℤ) (archive : Bool) (todos : List TodoRow) (id : ℤ) : List TodoRow :=
  updateWhere (fun t => t.id == id && t.archivedAt.isSome != archive)
    (fun t => { t with archivedAt := if archive then some nowMs else none }) todos

/-- `archiveTodosByLocalID`, which archives or restores a batch of todos and leaves
everything else about them alone. -/
def archiveTodosByLocalID (ctx : Ctx) (db : DB) (projectID : ℤ) (ids : List ℤ)
    (archive : Bool) : Result (DB × TodoArchiveBatchResult) := do
  validateArchiveIDs ids
  let p ← getProjectForWrite ctx db projectID
  requireTodoRight ctx db p canArchiveTodo
  let rows := ids.filterMap (todoByLocalID db projectID)
  reject (rows.length ≠ ids.length) ⟨.notFound, ""⟩
  let changing := rows.filter fun t => t.archivedAt.isSome != archive
  let result : TodoArchiveBatchResult :=
    { requestedCount := ids.length
      transitionedLocalIDs := changing.map (·.localID)
      unchangedLocalIDs := (rows.filter fun t => t.archivedAt.isSome == archive).map (·.localID)
      transitionedAt := if changing = [] then none else some ctx.nowMs }
  let db := { db with todos := (changing.map (·.id)).foldl (setArchived ctx.nowMs archive) db.todos }
  if changing = [] then pure (db, result)
  else pure (updateBoardActivity ctx (touchProject db projectID ctx.nowMs) projectID, result)

/-! ## What the operations do to the tables -/

theorem insertTodo_eq_ok {db db' : DB} {t row : TodoRow} {e : StoreError}
    (h : insertTodo db t e = .ok (db', row)) :
    (∀ u ∈ db.todos, u.projectID = t.projectID → u.localID ≠ t.localID) ∧
      row = { t with id := nextRowid (db.todos.map (·.id)) } ∧
      db' = { db with todos := db.todos ++ [row] } := by
  simp only [insertTodo, bind_eq_ok, reject_eq_ok, pure_eq_ok, Prod.mk.injEq] at h
  obtain ⟨_, hfree, rfl, rfl⟩ := h
  exact ⟨fun u hu hp hl => hfree ⟨u, hu, hp, hl⟩, rfl, rfl⟩

theorem setNewTodoTags_tagsOnly {rt : Runtime} {ctx : Ctx} {db db' : DB} {p : ProjectRow}
    {todoID : ℤ} {userID : Option ℤ} {tags : List String}
    (h : setNewTodoTags rt ctx db p todoID userID tags = .ok db') : TagsOnly db db' := by
  unfold setNewTodoTags at h
  dsimp only at h
  split at h
  · exact setTodoTags_tagsOnly h
  · exact pure_eq_ok.mp h ▸ .refl db

theorem setNewTodoFields_fieldValuesOnly {rt : Runtime} {db : DB} {projectID todoID : ℤ}
    {values : CustomFieldValues} {out : DB × List (String × FieldValue)}
    (h : setNewTodoFields rt db projectID todoID values = .ok out) :
    FieldValuesOnly db out.1 := by
  unfold setNewTodoFields at h
  split at h
  · exact pure_eq_ok.mp h ▸ .refl db
  · simp only [bind_eq_ok, pure_eq_ok] at h
    obtain ⟨patch, _, rfl⟩ := h
    exact applyCustomFieldPatch_fieldValuesOnly db todoID [] patch

/-- The tables that an operation on a todo may write besides the todos. -/
def SideTables (db db' : DB) : Prop :=
  db' = { db with
    projects := db'.projects
    todos := db'.todos
    tags := db'.tags
    todoTags := db'.todoTags
    projectTags := db'.projectTags
    userTagColors := db'.userTagColors
    customFieldValues := db'.customFieldValues }

/-- What `CreateTodo` puts into the table. -/
structure NewRow (db : DB) (projectID : ℤ) (input : CreateTodoInput) (rank : ℤ) (row : TodoRow) :
    Prop where
  id_eq : row.id = nextRowid (db.todos.map (·.id))
  projectID_eq : row.projectID = projectID
  project_mem : projectID ∈ db.projects.map (·.id)
  localID_eq : row.localID = nextLocalID db projectID
  localID_free : ∀ u ∈ db.todos, u.projectID = projectID → u.localID ≠ row.localID
  columnKey_eq : row.columnKey = input.lane
  lane_mem : input.lane ∈ db.columnKeys projectID
  rank_eq : row.rank = rank
  active : row.archivedAt = none

theorem createTodo_spec {rt : Runtime} {ctx : Ctx} {db db' : DB} {projectID : ℤ}
    {input : CreateTodoInput} {todo : Todo}
    (h : createTodo rt ctx db projectID input = .ok (db', todo)) :
    ∃ db₁ rank, computeNewRank db projectID input.lane none input.afterID input.beforeID =
        .ok (db₁, rank) ∧
      NewRow db projectID input rank todo.row ∧ db'.todos = db₁.todos ++ [todo.row] ∧
      SideTables db db' ∧ db'.projects.map ProjectRow.quiet = db.projects.map ProjectRow.quiet := by
  simp only [createTodo, bind_eq_ok, pure_eq_ok, Prod.mk.injEq] at h
  obtain ⟨tags, _, p, hp, _, _, _, _, ⟨tags', userID⟩, _, col, hcol, _, _, ⟨db₁, rank⟩, hrank,
    _, _, ⟨db₂, row⟩, hins, db₃, htags, ⟨db₄, values⟩, hfields, hdb, rfl⟩ := h
  obtain ⟨_, hcolpid, hcolkey⟩ := validateProjectColumnKey_eq_ok hcol
  have hlane : input.lane ∈ db.columnKeys projectID := by
    rw [← validateProjectColumnKey_isOk_iff, hcol]
    rfl
  obtain ⟨hpmem, hpid, _⟩ := getProject_eq_ok (getProjectForWrite_eq_ok hp)
  have hproject : projectID ∈ db.projects.map (·.id) := List.mem_map.mpr ⟨p, hpmem, hpid⟩
  rw [hcolkey] at hrank
  obtain ⟨hfree, hrow, rfl⟩ := insertTodo_eq_ok hins
  have hact := touch_update_activityOnly ctx db₄ projectID
  rw [hdb] at hact
  have hquiet := hact.quiet
  obtain ⟨_, rfl⟩ := hact.exists_eq
  obtain ⟨_, _, _, _, rfl⟩ := (setNewTodoTags_tagsOnly htags).exists_eq
  obtain ⟨_, rfl⟩ := (setNewTodoFields_fieldValuesOnly hfields).exists_eq
  obtain ⟨r, rfl⟩ := computeNewRank_ranksOnly hrank
  refine ⟨_, rank, hrank, ?_, rfl, rfl, hquiet⟩
  subst hrow
  refine ⟨by simp [DB.withRanks, Function.comp_def], rfl, hproject, rfl, ?_, rfl, hlane, rfl, rfl⟩
  intro u hu hpid
  exact hfree { u with rank := r u } (List.mem_map_of_mem hu) hpid

theorem getTodo_eq_ok {db : DB} {todoID : ℤ} {t : TodoRow} (h : getTodo db todoID = .ok t) :
    t ∈ db.todos ∧ t.id = todoID := by
  unfold getTodo at h
  split at h
  · rename_i u hfind
    cases h
    exact ⟨List.mem_of_find?_eq_some hfind, by simpa using List.find?_some hfind⟩
  · cases h

theorem moveTodo_spec {ctx : Ctx} {db db' : DB} {todoID : ℤ} {toColumnKey : String}
    {afterID beforeID : Option ℤ} {row : TodoRow}
    (h : moveTodo ctx db todoID toColumnKey afterID beforeID = .ok (db', row)) :
    ∃ existing db₁ rank doneAt, (existing ∈ db.todos ∧ existing.id = todoID ∧
        existing.archivedAt = none) ∧
      toColumnKey ∈ db.columnKeys existing.projectID ∧
      (afterID ≠ some todoID ∧ beforeID ≠ some todoID) ∧
      computeNewRank db existing.projectID toColumnKey (some todoID) afterID beforeID =
        .ok (db₁, rank) ∧
      row = existing.moved toColumnKey rank ctx.nowMs doneAt ∧
      db'.todos = updateWhere (·.id == todoID) (.moved toColumnKey rank ctx.nowMs doneAt)
        db₁.todos ∧
      SideTables db db' ∧ db'.projects.map ProjectRow.quiet = db.projects.map ProjectRow.quiet := by
  simp only [moveTodo, bind_eq_ok, reject_eq_ok, pure_eq_ok, Prod.mk.injEq, not_not] at h
  obtain ⟨_, hafter, _, hbefore, existing, hget, p, hp, _, _, _, hactive, target, htarget,
    current, hcurrent, ⟨db₁, rank⟩, hrank, hdb, rfl⟩ := h
  have hlane : toColumnKey ∈ db.columnKeys existing.projectID := by
    rw [← validateProjectColumnKey_isOk_iff, htarget]
    rfl
  have hact := touch_update_activityOnly ctx
    { db₁ with todos := updateWhere (·.id == todoID) (TodoRow.moved toColumnKey rank ctx.nowMs
        (resolveDoneAtForColumnTransition current.isDone target.isDone ctx.nowMs)) db₁.todos }
    existing.projectID
  rw [hdb] at hact
  have hquiet := hact.quiet
  obtain ⟨_, rfl⟩ := hact.exists_eq
  obtain ⟨hmem, hid⟩ := getTodo_eq_ok hget
  obtain ⟨r, rfl⟩ := computeNewRank_ranksOnly hrank
  exact ⟨existing, _, rank, _, ⟨hmem, hid, hactive⟩, hlane, ⟨hafter, hbefore⟩, hrank, rfl, rfl,
    rfl, hquiet⟩

theorem bumpWallAfterDelete_spec {ctx : Ctx} {db db' : DB} {projectID : ℤ} {wallChanged : Bool}
    {placementCount : ℕ}
    (h : bumpWallAfterDelete ctx db projectID wallChanged placementCount = .ok db') :
    (∃ walls, db' = { db with walls := walls }) ∧
      ∀ other, db'.wallDoc other = db.wallDoc other := by
  unfold bumpWallAfterDelete at h
  split at h
  · obtain ⟨htables, hdoc⟩ := bumpWallVersion_spec h
    exact ⟨⟨_, htables⟩, hdoc⟩
  · rw [pure_eq_ok] at h
    subst h
    exact ⟨⟨_, rfl⟩, fun _ => rfl⟩

/-- `DeleteTodo` deletes the row, the rows that depend on it, and the edges at the
story on the wall of its project. -/
theorem deleteTodo_spec {ctx : Ctx} {db db' : DB} {todoID : ℤ}
    (h : deleteTodo ctx db todoID = .ok db') :
    ∃ existing ∈ db.todos, existing.id = todoID ∧
      (∃ projects links walls,
        db' = { deleteTodoRow db todoID with projects := projects, links := links, walls := walls } ∧
        projects.map ProjectRow.quiet = db.projects.map ProjectRow.quiet) ∧
      ∀ other, db'.wallDoc other = if other = existing.projectID then
          ((db.wallDoc other).1, (db.wallDoc other).2.filter fun e =>
            !e.touches (formatWallStoryEndpoint existing.localID))
        else db.wallDoc other := by
  simp only [deleteTodo, bind_eq_ok, pure_eq_ok] at h
  obtain ⟨existing, hget, p, _, _, _, db₁, hbump, hdb⟩ := h
  obtain ⟨hmem, hid⟩ := getTodo_eq_ok hget
  have hact := touch_update_activityOnly ctx db₁ existing.projectID
  rw [hdb] at hact
  have hquiet := hact.quiet
  obtain ⟨projects, rfl⟩ := hact.exists_eq
  obtain ⟨walls, hremove, hdoc⟩ := removeWallStoryEdges_spec
    (deleteTodoRow (deleteTodoLinks db existing) todoID) existing.projectID
    (formatWallStoryEndpoint existing.localID)
  rw [hremove] at hbump
  obtain ⟨⟨walls', rfl⟩, hdoc'⟩ := bumpWallAfterDelete_spec hbump
  refine ⟨existing, hmem, hid, ⟨projects, _, walls', rfl, hquiet⟩, fun other => ?_⟩
  exact (hdoc' other).trans (hdoc other)

/-- A batch of archivals changes `archived_at` and nothing else about a todo. -/
theorem archiveTodosByLocalID_spec {ctx : Ctx} {db : DB} {projectID : ℤ} {ids : List ℤ}
    {archive : Bool} {out : DB × TodoArchiveBatchResult}
    (h : archiveTodosByLocalID ctx db projectID ids archive = .ok out) :
    SideTables db out.1 ∧
      out.1.todos.map (fun t => { t with archivedAt := none }) =
        db.todos.map (fun t => { t with archivedAt := none }) ∧
      out.1.projects.map ProjectRow.quiet = db.projects.map ProjectRow.quiet := by
  have hset : ∀ (l : List ℤ) (ts : List TodoRow),
      (l.foldl (setArchived ctx.nowMs archive) ts).map (fun t => { t with archivedAt := none }) =
        ts.map (fun t => { t with archivedAt := none }) := by
    intro l
    induction l with
    | nil => exact fun ts => rfl
    | cons id l ih =>
        intro ts
        rw [List.foldl_cons, ih, setArchived]
        apply map_updateWhere
        intro t
        rfl
  simp only [archiveTodosByLocalID, bind_eq_ok] at h
  obtain ⟨_, _, p, _, _, _, _, _, h⟩ := h
  split at h
  · rw [pure_eq_ok] at h
    subst h
    exact ⟨rfl, hset _ _, rfl⟩
  · rw [pure_eq_ok] at h
    subst h
    have hact := touch_update_activityOnly ctx { db with
      todos := ((((ids.filterMap (todoByLocalID db projectID)).filter fun t =>
        t.archivedAt.isSome != archive).map (·.id)).foldl (setArchived ctx.nowMs archive)
          db.todos) } projectID
    have hquiet := hact.quiet
    obtain ⟨projects, hprojects⟩ := hact.exists_eq
    dsimp only
    rw [hprojects] at hquiet ⊢
    exact ⟨rfl, hset _ _, hquiet⟩

end Scrumboy
