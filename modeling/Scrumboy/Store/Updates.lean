import Scrumboy.Store.Todos

/-!
# Editing todos

`UpdateTodo` and the links between todos. An edit takes the fields that its caller
left out from the row that it reads in its own transaction. On a durable project with
accounts a maintainer may edit everything, and a contributor the body of a todo that
is assigned to them.
-/

set_option linter.dupNamespace false

namespace Scrumboy

open Go Sql

structure UpdateTodoInput where
  title : String := ""
  body : String := ""
  tags : List String := []
  estimationPoints : Option ℤ := none
  assigneeUserID : Option ℤ := none
  sprintID : Option ℤ := none
  clearSprint : Bool := false
  priorityKey : Option String := none
  priorityKeyPresent : Bool := false
  bodyAppend : String := ""
  bodyReplaces : Bool := false
  keepTitle : Bool := false
  keepBody : Bool := false
  keepTags : Bool := false
  keepEstimationPoints : Bool := false
  keepAssigneeUserID : Bool := false
  dueAt : Option ℤ := none
  dueAtPresent : Bool := false
  customFields : CustomFieldValues := []
  deriving DecidableEq, Repr

/-- `listTodoTagsTx`: the names of a todo's tags, on a durable project by their group. -/
def listTodoTags (rt : Runtime) (db : DB) (t : TodoRow) : List String :=
  let durable := db.projects.any fun p => p.id == t.projectID && p.expiresAt.isNone
  sortStrings ((db.todoTags.filter fun r => r.todoID == t.id).flatMap fun r =>
    (db.tags.filter fun g => g.id == r.tagID).map fun g =>
      if durable then tagGroupKey rt g.name else g.name).dedup

/-- A todo with its tags and custom field values, as `getTodoTx` loads it. -/
def loadTodo (rt : Runtime) (db : DB) (t : TodoRow) : Todo :=
  ⟨t, listTodoTags rt db t, loadTodoCustomFields db t.id⟩

namespace UpdateTodoInput

/-- The body of an edit. Text to append goes behind the stored body, or behind the one
that the edit brings. -/
def newBody (input : UpdateTodoInput) (existing : TodoRow) : String :=
  let body := if input.keepBody then existing.body else input.body
  if input.bodyAppend = "" then body
  else
    let base := if input.bodyReplaces then body else existing.body
    (if base = "" then "" else base ++ "\n\n") ++ input.bodyAppend

/-- The fields that the caller left out are those of the todo. -/
def resolve (input : UpdateTodoInput) (existing : Todo) : UpdateTodoInput :=
  { input with
    title := if input.keepTitle then existing.row.title else input.title
    body := input.newBody existing.row
    tags := if input.keepTags then existing.tags else input.tags
    estimationPoints := if input.keepEstimationPoints then existing.row.estimationPoints
      else input.estimationPoints
    assigneeUserID := if input.keepAssigneeUserID then existing.row.assigneeUserID
      else input.assigneeUserID }

def effectivePriorityKey (input : UpdateTodoInput) (existing : TodoRow) : Option String :=
  if input.priorityKeyPresent then input.priorityKey else existing.priorityKey

def effectiveDueAt (input : UpdateTodoInput) (existing : TodoRow) : Option ℤ :=
  if input.dueAtPresent then input.dueAt else existing.dueAt

/-- The reminder is due again: there is a new due date, or a new assignee who has not
been told. -/
def rearms (input : UpdateTodoInput) (existing : TodoRow) : Bool :=
  existing.dueAt != input.effectiveDueAt existing ||
    (existing.assigneeUserID != input.assigneeUserID && input.assigneeUserID.isSome &&
      existing.dueAt.isSome && existing.dueRemindedAt.isSome)

end UpdateTodoInput

/-- The values of the `UPDATE todos` statements of an edit. -/
def TodoRow.edited (input : UpdateTodoInput) (existing : TodoRow) (nowMs : ℤ) (t : TodoRow) :
    TodoRow :=
  { t with
    title := trimSpace input.title
    body := input.body
    assigneeUserID := input.assigneeUserID
    estimationPoints := input.estimationPoints
    sprintID := if input.clearSprint then none else input.sprintID.or t.sprintID
    priorityKey := input.effectivePriorityKey existing
    updatedAt := nowMs
    dueAt := if existing.dueAt = input.effectiveDueAt existing then t.dueAt
      else input.effectiveDueAt existing
    dueRemindedAt := if input.rearms existing then none else t.dueRemindedAt }

def TodoRow.withBody (body : String) (nowMs : ℤ) (t : TodoRow) : TodoRow :=
  { t with body := body, updatedAt := nowMs }

/-! ## Rights -/

inductive TodoEditScope
  | full
  | bodyOnly
  | none
  deriving DecidableEq, Repr

def getTodoEditScope (role : Option ProjectRole) (userID : ℤ) (t : TodoRow) : TodoEditScope :=
  if role = some .maintainer then .full
  else if role = some .contributor ∧ t.assigneeUserID = some userID then .bodyOnly
  else .none

/-- What a request may edit. The rule holds on durable projects with accounts. -/
def editScope (ctx : Ctx) (db : DB) (p : ProjectRow) (t : TodoRow) : TodoEditScope :=
  if p.expiresAt.isNone && authEnabled db then
    match ctx.userID with
    | none => .none
    | some userID => getTodoEditScope (getProjectRole db p.id userID) userID t
  else .full

/-- The role of the user of a request, if there is one. -/
def actorRole (ctx : Ctx) (db : DB) (projectID : ℤ) : Option ProjectRole :=
  ctx.userID.bind (getProjectRole db projectID)

/-- A user is needed for a change of the assignee. -/
def checkReassignment (ctx : Ctx) (existing : TodoRow) (assignee : Option ℤ) : Result Unit :=
  reject (existing.assigneeUserID ≠ assignee ∧ (ctx.userID = none ∨ ctx.userID = some 0))
    ⟨.unauthorized, ""⟩

/-- The assignee after an edit, changed or not, is a member, and a maintainer edits. -/
def checkEditAssignee (ctx : Ctx) (db : DB) (p : ProjectRow) : Option ℤ → Result Unit
  | none => pure ()
  | some assignee =>
      if isAnonymousTemporaryBoard p then pure ()
      else do
        reject (actorRole ctx db p.id = none) ⟨.unauthorized, ""⟩
        reject (assignee ∉ db.users) ⟨.validation, "assignee does not exist"⟩
        reject (getProjectRole db p.id assignee = none)
          ⟨.validation, "assignee is not a project member"⟩
        reject (actorRole ctx db p.id ≠ some .maintainer) ⟨.unauthorized, ""⟩

/-- A todo enters another sprint only while the project has sprints at all. -/
def lockSprintChange (db : DB) (existing : TodoRow) (sprintID : ℤ) : Result Unit :=
  if existing.sprintID = some sprintID then pure ()
  else lockProjectSprintsEnabled db existing.projectID

/-- The sprint that an edit names is one of the project. -/
def checkEditSprint (db : DB) (existing : TodoRow) : Option ℤ → Result Unit
  | none => pure ()
  | some sprintID => do
      lockSprintChange db existing sprintID
      match db.sprints.find? fun s => s.id == sprintID with
      | none => throw ⟨.validation, "sprint not found"⟩
      | some s =>
          reject (s.projectID ≠ existing.projectID)
            ⟨.validation, "sprint does not belong to project"⟩

/-- Only a maintainer changes the sprint of a todo. -/
def checkSprintChange (ctx : Ctx) (db : DB) (existing : TodoRow) (input : UpdateTodoInput) :
    Result Unit :=
  if input.clearSprint || input.sprintID.isSome then do
    reject (hasMinimumRole (actorRole ctx db existing.projectID) .maintainer = false)
      ⟨.unauthorized, ""⟩
    checkEditSprint db existing input.sprintID
  else pure ()

def checkDueAtGiven (input : UpdateTodoInput) : Result Unit :=
  if input.dueAtPresent then validateDueAt input.dueAt else pure ()

/-! ## The edit -/

/-- The custom field values of an edit; without any, none is touched. -/
def patchTodoFields (db : DB) (existing : Todo) (patch : List ResolvedCustomField) :
    DB × List (String × FieldValue) :=
  if patch = [] then (db, existing.customFields)
  else
    let (db, _, next) := applyCustomFieldPatch db existing.row.id existing.customFields patch
    (db, next)

/-- The edit of a contributor: the body of a todo that is assigned to them. -/
def updateTodoBody (ctx : Ctx) (db : DB) (existing : Todo) (input : UpdateTodoInput) :
    Result (DB × Todo) := do
  reject (input.customFields ≠ []) ⟨.unauthorized, ""⟩
  reject (20000 < byteLen input.body) ⟨.validation, "body too large"⟩
  let row := existing.row
  let db := { db with
    todos := updateWhere (·.id == row.id) (TodoRow.withBody input.body ctx.nowMs) db.todos }
  let db := touchProject db row.projectID ctx.nowMs
  pure (updateBoardActivity ctx db row.projectID,
    { existing with row := row.withBody input.body ctx.nowMs })

def updateTodoFull (rt : Runtime) (ctx : Ctx) (db : DB) (p : ProjectRow) (existing : Todo)
    (input : UpdateTodoInput) : Result (DB × Todo) := do
  let row := existing.row
  reject (trimSpace input.title = "" ∨ 200 < byteLen (trimSpace input.title))
    ⟨.validation, "invalid title"⟩
  reject (20000 < byteLen input.body) ⟨.validation, "body too large"⟩
  validateEstimationPoints input.estimationPoints
  let tags ← normalizeTags rt input.tags
  checkReassignment ctx row input.assigneeUserID
  checkEditAssignee ctx db p input.assigneeUserID
  checkSprintChange ctx db row input
  checkPriority db row.projectID (input.effectivePriorityKey row)
  checkDueAtGiven input
  let patch ← resolveCustomFieldPatch rt db row.projectID input.customFields
  let (tags, userID) ← tagOwner ctx db p tags
  let edited := TodoRow.edited input row ctx.nowMs
  let db := { db with todos := updateWhere (·.id == row.id) edited db.todos }
  let db ← setNewTodoTags rt ctx db p row.id userID tags
  let (db, values) := patchTodoFields db existing patch
  let db := touchProject db row.projectID ctx.nowMs
  let writesTags := userID.isSome || isTemporaryProject p
  pure (updateBoardActivity ctx db row.projectID,
    ⟨edited row, if writesTags then tags else existing.tags, values⟩)

def updateTodo (rt : Runtime) (ctx : Ctx) (db : DB) (todoID : ℤ) (input : UpdateTodoInput) :
    Result (DB × Todo) := do
  let row ← getTodo db todoID
  let existing := loadTodo rt db row
  let input := input.resolve existing
  let p ← getProjectForWrite ctx db row.projectID
  reject (isAnonymousTemporaryBoard p = true ∧ input.assigneeUserID ≠ none)
    ⟨.validation, "assignment is not allowed in anonymous mode"⟩
  reject (editScope ctx db p row = .none) ⟨.unauthorized, ""⟩
  reject (row.archivedAt ≠ none) todoArchivedError
  if editScope ctx db p row = .bodyOnly then updateTodoBody ctx db existing input
  else updateTodoFull rt ctx db p existing input

/-! ## By local id -/

/-- `getProjectForReadTx`. -/
def getProjectForRead (ctx : Ctx) (db : DB) (projectID : ℤ) : Result ProjectRow := do
  let p ← getProject db projectID
  if p.expiresAt.isSome then do
    rejectIfExpiredTemporaryProject ctx p
    pure p
  else if authEnabled db then
    match ctx.userID with
    | none => throw ⟨.unauthorized, ""⟩
    | some userID => do
        let hasAccess ← userHasProjectRole db projectID userID .viewer
        reject (hasAccess = false) ⟨.notFound, ""⟩
        pure p
  else pure p

def getTodoRowByLocalID (db : DB) (projectID localID : ℤ) : Result TodoRow :=
  match todoByLocalID db projectID localID with
  | some t => .ok t
  | none => .error ⟨.notFound, ""⟩

def getTodoByLocalID (ctx : Ctx) (db : DB) (projectID localID : ℤ) : Result TodoRow := do
  let _ ← getProjectForRead ctx db projectID
  getTodoRowByLocalID db projectID localID

def updateTodoByLocalID (rt : Runtime) (ctx : Ctx) (db : DB) (projectID localID : ℤ)
    (input : UpdateTodoInput) : Result (DB × Todo) := do
  let t ← getTodoByLocalID ctx db projectID localID
  updateTodo rt ctx db t.id input

def deleteTodoByLocalID (ctx : Ctx) (db : DB) (projectID localID : ℤ) : Result DB := do
  let t ← getTodoByLocalID ctx db projectID localID
  deleteTodo ctx db t.id

/-- The id of a neighbour that is named by its local id. -/
def neighbourID (db : DB) (projectID : ℤ) : Option ℤ → Result (Option ℤ)
  | none => pure none
  | some localID => do
      let t ← getTodoRowByLocalID db projectID localID
      pure (some t.id)

def moveTodoByLocalID (ctx : Ctx) (db : DB) (projectID localID : ℤ) (toColumnKey : String)
    (afterLocalID beforeLocalID : Option ℤ) : Result (DB × TodoRow) := do
  let t ← getTodoRowByLocalID db projectID localID
  let afterID ← neighbourID db projectID afterLocalID
  let beforeID ← neighbourID db projectID beforeLocalID
  moveTodo ctx db t.id toColumnKey afterID beforeID

/-! ## Links -/

def linkTypes : List String := ["relates_to", "blocks", "duplicates", "parent"]

/-- The ends of a link that is about to change: two todos that are not archived. -/
def checkLinkEnds (db : DB) (projectID fromLocalID toLocalID : ℤ) : Result Unit := do
  let source ← getTodoRowByLocalID db projectID fromLocalID
  let target ← getTodoRowByLocalID db projectID toLocalID
  reject (source.archivedAt ≠ none ∨ target.archivedAt ≠ none) todoArchivedError

/-- A link is told apart by its project and its ends. -/
def LinkRow.isBetween (projectID fromLocalID toLocalID : ℤ) (l : LinkRow) : Bool :=
  l.projectID == projectID && l.fromLocalID == fromLocalID && l.toLocalID == toLocalID

def addLink (ctx : Ctx) (db : DB) (projectID fromLocalID toLocalID : ℤ) (linkType : String) :
    Result DB := do
  reject (fromLocalID = toLocalID) ⟨.validation, "cannot link todo to itself"⟩
  let linkType := if linkType = "" then "relates_to" else linkType
  reject (linkType ∉ linkTypes) ⟨.validation, "invalid link_type"⟩
  let _ ← getTodoByLocalID ctx db projectID fromLocalID
  let _ ← getTodoByLocalID ctx db projectID toLocalID
  let _ ← getProjectForWrite ctx db projectID
  checkLinkEnds db projectID fromLocalID toLocalID
  pure (if db.links.any (LinkRow.isBetween projectID fromLocalID toLocalID) then db
    else { db with links := db.links ++ [⟨projectID, fromLocalID, toLocalID, linkType, ctx.nowMs⟩] })

def removeLink (ctx : Ctx) (db : DB) (projectID fromLocalID toLocalID : ℤ) : Result DB := do
  let _ ← getProjectForWrite ctx db projectID
  checkLinkEnds db projectID fromLocalID toLocalID
  reject (db.links.any (LinkRow.isBetween projectID fromLocalID toLocalID) = false) ⟨.notFound, ""⟩
  pure { db with links := deleteWhere (LinkRow.isBetween projectID fromLocalID toLocalID) db.links }

/-! ## What the operations do to the tables -/

section

variable {rt : Runtime} {ctx : Ctx} {db db' : DB} {todoID : ℤ}

theorem patchTodoFields_fieldValuesOnly (db : DB) (existing : Todo)
    (patch : List ResolvedCustomField) :
    FieldValuesOnly db (patchTodoFields db existing patch).1 := by
  unfold patchTodoFields
  split
  · exact .refl db
  · exact applyCustomFieldPatch_fieldValuesOnly db _ _ patch

/-- An edit of a todo by a user who may edit everything. -/
structure FullEdit (ctx : Ctx) (db : DB) (p : ProjectRow) (existing : TodoRow)
    (input : UpdateTodoInput) : Prop where
  /-- The assignee is a member, and a board without accounts has none. -/
  assignee : ∀ a ∈ input.assigneeUserID, isAnonymousTemporaryBoard p = false ∧
    getProjectRole db existing.projectID a ≠ none
  priority : ∀ key ∈ input.effectivePriorityKey existing, key ∈ db.priorityKeys existing.projectID

/-- What an edit does to the table of todos. -/
inductive TodoEdit (ctx : Ctx) (db db' : DB) (todoID : ℤ) (p : ProjectRow) (existing : TodoRow) : Prop
  | body (text : String) (htodos : db'.todos =
      updateWhere (·.id == todoID) (TodoRow.withBody text ctx.nowMs) db.todos)
  | full (input : UpdateTodoInput) (hinput : FullEdit ctx db p existing input) (htodos : db'.todos =
      updateWhere (·.id == todoID) (TodoRow.edited input existing ctx.nowMs) db.todos)

theorem checkEditAssignee_eq_ok {p : ProjectRow} {assignee : Option ℤ}
    (hboard : ¬ (isAnonymousTemporaryBoard p = true ∧ assignee ≠ none))
    (h : checkEditAssignee ctx db p assignee = .ok ()) :
    ∀ a ∈ assignee, isAnonymousTemporaryBoard p = false ∧ getProjectRole db p.id a ≠ none := by
  rintro a rfl
  have hfalse : isAnonymousTemporaryBoard p = false := by simpa using hboard
  simp only [checkEditAssignee, hfalse, Bool.false_eq_true, if_false, bind_eq_ok, reject_eq_ok] at h
  obtain ⟨_, _, _, _, _, hmember, _⟩ := h
  exact ⟨hfalse, hmember⟩

theorem checkPriority_eq_ok {projectID : ℤ} {key : Option String}
    (h : checkPriority db projectID key = .ok ()) : ∀ k ∈ key, k ∈ db.priorityKeys projectID := by
  rintro k rfl
  simp only [checkPriority, bind_eq_ok, validateProjectPriorityKey] at h
  obtain ⟨tier, htier, _⟩ := h
  split at htier
  · rename_i t hfind
    have hsel := List.find?_some hfind
    simp only [Bool.and_eq_true, beq_iff_eq] at hsel
    refine List.mem_map.mpr ⟨t, List.mem_filter.mpr ⟨List.mem_of_find?_eq_some hfind, ?_⟩, hsel.2⟩
    simpa using hsel.1
  · cases htier

/-- What `UpdateTodo` does: a todo that is not archived, in a project that may be
written, gets a new body or is edited. -/
theorem updateTodo_spec {input : UpdateTodoInput} {todo : Todo}
    (h : updateTodo rt ctx db todoID input = .ok (db', todo)) :
    ∃ existing p, (existing ∈ db.todos ∧ existing.id = todoID ∧ existing.archivedAt = none) ∧
      getProjectForWrite ctx db existing.projectID = .ok p ∧
      TodoEdit ctx db db' todoID p existing ∧ SideTables db db' ∧
      db'.projects.map ProjectRow.quiet = db.projects.map ProjectRow.quiet := by
  simp only [updateTodo, bind_eq_ok, reject_eq_ok, not_not] at h
  obtain ⟨existing, hget, p, hp, _, hboard, _, _, _, hactive, h⟩ := h
  obtain ⟨hmem, hid⟩ := getTodo_eq_ok hget
  obtain ⟨_, hpid, _⟩ := getProject_eq_ok (getProjectForWrite_eq_ok hp)
  refine ⟨existing, p, ⟨hmem, hid, hactive⟩, hp, ?_⟩
  subst hid
  split at h
  · simp only [updateTodoBody, bind_eq_ok, reject_eq_ok, pure_eq_ok, Prod.mk.injEq] at h
    obtain ⟨_, _, _, _, hdb, _⟩ := h
    have hact := ActivityOnly.of_touch hdb
    have hquiet := hact.quiet
    obtain ⟨_, rfl⟩ := hact.exists_eq
    exact ⟨.body _ rfl, rfl, hquiet⟩
  · simp only [updateTodoFull, bind_eq_ok, reject_eq_ok, pure_eq_ok, Prod.mk.injEq] at h
    obtain ⟨_, _, _, _, _, _, tags, _, _, _, _, hassignee, _, _, _, hpriority, _, _, patch, _,
      ⟨tags', userID⟩, _, db₁, htags, hdb, _⟩ := h
    have hinput : FullEdit ctx db p existing (input.resolve (loadTodo rt db existing)) :=
      ⟨hpid ▸ checkEditAssignee_eq_ok hboard hassignee, checkPriority_eq_ok hpriority⟩
    have hact := ActivityOnly.of_touch hdb
    have hquiet := hact.quiet
    obtain ⟨_, rfl⟩ := hact.exists_eq
    obtain ⟨_, _, _, _, rfl⟩ := (setNewTodoTags_tagsOnly htags).exists_eq
    obtain ⟨_, hvalues⟩ := (patchTodoFields_fieldValuesOnly _ (loadTodo rt db existing) patch).exists_eq
    rw [hvalues] at hquiet ⊢
    exact ⟨.full _ hinput rfl, rfl, hquiet⟩

end

end Scrumboy
