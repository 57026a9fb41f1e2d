import Scrumboy.Backup.Preflight
import Scrumboy.Backup.Walls
import Scrumboy.Store.Projects

/-!
# Parts of an import

What the import modes share: the record of where each todo of a backup landed, the
row that a todo of a backup becomes, and the sprints, tags and links around it.
Every function reads and writes one database, inside the transaction of its mode.
-/

set_option linter.dupNamespace false

namespace Scrumboy

open Go Sql

/-- The result of an import: its counters and its warnings. -/
structure ImportResult where
  imported : ℕ := 0
  updated : ℕ := 0
  created : ℕ := 0
  warnings : List String := []
  deriving DecidableEq, Repr

def ImportResult.warn (r : ImportResult) (warning : String) : ImportResult :=
  { r with warnings := r.warnings ++ [warning] }

/-! ## Where todos land -/

/-- `importedTodos`: the todo of the destination for each todo of the backup so far,
in the order of the backup, the local id for each local id of the backup, and the
todos that the import created. -/
structure ImportedTodos where
  todoIDs : List ℤ := []
  localIDs : List (ℤ × ℤ) := []
  created : List ℤ := []
  deriving DecidableEq, Repr

namespace ImportedTodos

/-- The next todo of the backup landed as `todoID`. The first todo that carries a
local id of the backup owns it. -/
def record (m : ImportedTodos) (sourceLocalID destLocalID todoID : ℤ) (created : Bool) :
    ImportedTodos :=
  { todoIDs := m.todoIDs ++ [todoID]
    localIDs := if (m.localIDs.lookup sourceLocalID).isSome then m.localIDs
      else m.localIDs ++ [(sourceLocalID, destLocalID)]
    created := if created then m.created ++ [todoID] else m.created }

def wasCreated (m : ImportedTodos) (todoID : ℤ) : Bool := m.created.contains todoID

/-- `linkEndpoint`, and `storyResolver`. -/
def linkEndpoint (m : ImportedTodos) (db : DB) (projectID : ℤ) (keepUnimported : Bool)
    (sourceLocalID : ℤ) : Option ℤ :=
  match m.localIDs.lookup sourceLocalID with
  | some dest => some dest
  | none =>
      if keepUnimported then
        match todoByLocalID db projectID sourceLocalID with
        | none => none
        | some t => if m.wasCreated t.id then none else some sourceLocalID
      else none

end ImportedTodos

/-! ## The row of an imported todo -/

/-- An assignee is kept if they are a member of the destination. -/
def resolveImportAssignee (db : DB) (projectID : ℤ) (assigneeUserID : Option ℤ) : Option ℤ :=
  assigneeUserID.filter fun userID =>
    db.members.any fun m => m.projectID == projectID && m.userID == userID

/-- A creator is never kept: the ids of users mean nothing in another database. -/
def resolveImportCreatedBy (_createdByUserID : Option ℤ) : Option ℤ := none

/-- The legacy status of a status text, which is the backlog if there is none. -/
def importStatus (t : TodoExport) : Status := (parseStatus t.status).getD .backlog

def resolveImportDoneAt (exportDoneAt : Option ℤ) (status : Status) (updatedAtMs : ℤ) : Option ℤ :=
  match exportDoneAt with
  | some ms => some ms
  | none => if status = .done then some updatedAtMs else none

def priorityKeyForInsert (t : TodoExport) : Option String :=
  if t.priorityKeyPresent then t.priorityKey.map fun key => toLower (trimSpace key) else none

/-- The values of `INSERT INTO todos` for a todo of a backup. -/
def importRow (db : DB) (projectID localID : ℤ) (columnKey : String) (rank : ℤ)
    (sprintID : Option ℤ) (t : TodoExport) : TodoRow where
  id := 0
  projectID := projectID
  localID := localID
  title := t.title
  body := t.body
  columnKey := columnKey
  rank := rank
  estimationPoints := t.estimationPoints
  assigneeUserID := resolveImportAssignee db projectID t.assigneeUserID
  createdByUserID := resolveImportCreatedBy t.createdByUserID
  sprintID := sprintID
  priorityKey := priorityKeyForInsert t
  createdAt := t.createdAt
  updatedAt := t.updatedAt
  doneAt := resolveImportDoneAt t.doneAt (importStatus t) t.updatedAt
  archivedAt := if t.archivedAtPresent then t.archivedAt else none
  dueAt := t.dueAt
  dueRemindedAt := none

/-- The checks of a todo at its insertion. -/
def checkImportTodo (db : DB) (projectID : ℤ) (t : TodoExport) : Result Unit := do
  reject (t.localID = 0) ⟨.validation, "todo missing localId"⟩
  reject (t.title = "") ⟨.validation, "todo missing title"⟩
  validateEstimationPoints t.estimationPoints
  checkPriority db projectID (priorityKeyForInsert t)

def warnLane (warned : Bool) (t : TodoExport) (r : ImportResult) : ImportResult :=
  if warned then r.warn ("Unknown status " ++ quote t.status ++ " for todo " ++ quote t.title ++
    ", defaulting to backlog")
  else r

/-- `COALESCE(MAX(local_id), 0)` over the todos of a project. -/
def maxLocalID (db : DB) (projectID : ℤ) : ℤ :=
  coalesceMax ((db.todos.filter fun t => t.projectID == projectID).map (·.localID))

/-! ## Sprints -/

def parseSprintState : String → Option SprintState
  | "" => some .planned
  | "PLANNED" => some .planned
  | "ACTIVE" => some .active
  | "CLOSED" => some .closed
  | _ => none

/-- One sprint of a backup. A sprint with its number is changed; a second active
sprint violates an index. -/
def upsertSprint (ctx : Ctx) (projectID : ℤ) (db : DB) (se : SprintExport) : Result DB :=
  match parseSprintState se.state with
  | none => throw ⟨.internal, "insert sprint " ++ formatInt se.number ++
      ": CHECK constraint failed"⟩
  | some state => do
      reject (state = .active ∧ ∃ s ∈ db.sprints, s.projectID = projectID ∧
          s.number ≠ se.number ∧ s.state = .active)
        ⟨.internal, "insert sprint " ++ formatInt se.number ++ ": UNIQUE constraint failed"⟩
      if db.sprints.any fun s => s.projectID == projectID && s.number == se.number then
        pure { db with
          sprints := updateWhere (fun s => s.projectID == projectID && s.number == se.number)
            (fun s => { s with
              name := se.name
              plannedStartAt := se.plannedStartAt
              plannedEndAt := se.plannedEndAt
              state := state
              startedAt := se.startedAt
              closedAt := se.closedAt
              updatedAt := ctx.nowMs }) db.sprints }
      else
        pure { db with sprints := db.sprints ++
          [{ id := nextRowid (db.sprints.map (·.id))
             projectID := projectID
             number := se.number
             name := se.name
             plannedStartAt := se.plannedStartAt
             plannedEndAt := se.plannedEndAt
             state := state
             startedAt := se.startedAt
             closedAt := se.closedAt
             createdAt := ctx.nowMs
             updatedAt := ctx.nowMs }] }

def insertSprintsForImport (ctx : Ctx) (db : DB) (projectID : ℤ) (sprints : List SprintExport) :
    Result DB :=
  sprints.foldlM (upsertSprint ctx projectID) db

/-- The entry of a sprint number in the map that `insertSprintsForImport` returns. -/
def sprintIDByNumber (db : DB) (projectID : ℤ) (sprints : List SprintExport) (number : ℤ) :
    Option ℤ :=
  if number ∈ sprints.map (·.number) then
    (db.sprints.find? fun s => s.projectID == projectID && s.number == number).map (·.id)
  else none

/-! ## Todos in bulk -/

/-- The loop of an import over the todos of one project. -/
structure TodoScan where
  db : DB
  imported : ImportedTodos := {}
  result : ImportResult

def strictCheck (db : DB) (projectID : ℤ) (t : TodoExport) : Result Unit := do
  reject (t.localID = 0) ⟨.validation, "todo missing localId"⟩
  reject (∃ u ∈ db.todos, u.projectID = projectID ∧ u.localID = t.localID)
    ⟨.conflict, "local_id " ++ formatInt t.localID ++ " already exists in project " ++
      formatInt projectID⟩

/-- The rank of a todo in bulk; a zero stands for the end of its lane. -/
def importRank (db : DB) (projectID : ℤ) (columnKey : String) (rank : ℤ) : ℤ :=
  if rank = 0 then
    wrap (coalesceMax ((db.todos.filter fun t =>
      t.projectID == projectID && t.columnKey == columnKey).map (·.rank)) + 1000)
  else rank

/-- A todo of the backup whose sprint is not there. -/
def warnSprint (sprintID : ℤ → Option ℤ) (t : TodoExport) (r : ImportResult) : ImportResult :=
  match t.sprintNumber with
  | none => r
  | some n =>
      if (sprintID n).isSome then r
      else r.warn ("Sprint number " ++ formatInt n ++ " for todo " ++ quote t.title ++
        " not found, using backlog")

def bulkInsertTodo (projectID : ℤ) (sprintID : ℤ → Option ℤ) (s : TodoScan) (t : TodoExport) :
    Result TodoScan := do
  checkImportTodo s.db projectID t
  let (columnKey, warned) := resolveImportColumnKey s.db projectID t.status
  let rank := importRank s.db projectID columnKey t.rank
  let (db, row) ← insertTodo s.db
    (importRow s.db projectID t.localID columnKey rank (t.sprintNumber.bind sprintID) t)
    ⟨.internal, "insert todo (strict mode): UNIQUE constraint failed"⟩
  pure { db := db
         imported := s.imported.record t.localID t.localID row.id true
         result := warnSprint sprintID t (warnLane warned t s.result) }

/-- `bulkInsertTodos` in strict mode, the only one in which it is called: a local id
that is in use ends the import. -/
def bulkInsertTodos (db : DB) (projectID : ℤ) (todos : List TodoExport)
    (sprintID : ℤ → Option ℤ) (result : ImportResult) : Result TodoScan := do
  todos.forM (strictCheck db projectID)
  todos.foldlM (bulkInsertTodo projectID sprintID) { db := db, result := result }

/-! ## Tags -/

/-- The user whose tags an import in bulk uses. -/
def bulkTagUser (ctx : Ctx) (db : DB) : Option ℤ := ctx.userID.or db.users.head?

def validTagColor (color : Option String) : Option String :=
  (color.map trimSpace).filter colorHexRe

/-- The tags of a backup under their canonical names. The first valid colour of a
name wins. -/
def dedupeTags (rt : Runtime) (acc : List TagExport) (te : TagExport) : Result (List TagExport) := do
  let key := canonicalizeTag rt te.name
  reject (key = "") ⟨.validation, "invalid tag name " ++ quote te.name⟩
  if acc.any (·.name == key) then
    pure (acc.map fun t => if t.name == key then { t with color := t.color.or (validTagColor te.color) }
      else t)
  else pure (acc ++ [⟨key, validTagColor te.color⟩])

/-- `INSERT INTO user_tag_colors … ON CONFLICT DO UPDATE`. -/
def setUserTagColor (db : DB) (userID tagID : ℤ) (color : String) : DB :=
  if db.userTagColors.any fun c => c.userID == userID && c.tagID == tagID then
    { db with
      userTagColors := updateWhere (fun c => c.userID == userID && c.tagID == tagID)
        (fun c => { c with color := color }) db.userTagColors }
  else { db with userTagColors := db.userTagColors ++ [⟨userID, tagID, color⟩] }

/-- A colour that is not empty is set. -/
def setTagColor (db : DB) (userID tagID : ℤ) : Option String → DB
  | none => db
  | some color => if color = "" then db else setUserTagColor db userID tagID color

def bulkUpsertTag (rt : Runtime) (ctx : Ctx) (projectID userID : ℤ)
    (s : DB × List (String × ℤ)) (te : TagExport) : Result (DB × List (String × ℤ)) := do
  let (db, tagID) ← getOrCreateTag rt ctx s.1 userID te.name
  let db := linkProjectTag ctx db projectID tagID
  pure (setTagColor db userID tagID te.color, s.2 ++ [(te.name, tagID)])

/-- `bulkUpsertTags`: the tags of a backup as tags of the importing user, and their
ids by name. Without any user the tags are skipped. -/
def bulkUpsertTags (rt : Runtime) (ctx : Ctx) (db : DB) (projectID : ℤ) (tags : List TagExport) :
    Result (DB × List (String × ℤ)) :=
  match bulkTagUser ctx db with
  | none => pure (db, [])
  | some userID => do
      let deduped ← tags.foldlM (dedupeTags rt) []
      deduped.foldlM (bulkUpsertTag rt ctx projectID userID) (db, [])

/-- The tags of one todo; a tag outside of the list of tags is skipped. -/
def bulkLinkTags (rt : Runtime) (tagIDs : List (String × ℤ)) (db : DB) (tt : ℤ × List String) :
    Result DB := do
  let normalized ← normalizeTags rt tt.2
  pure ((normalized.filterMap fun name => tagIDs.lookup name).foldl (fun db tagID => linkTodoTag db tt.1 tagID) db)

/-- `buildTodoTagMap`, in the order of the backup. -/
def buildTodoTagMap (todos : List TodoExport) (imported : ImportedTodos) : List (ℤ × List String) :=
  (todos.zip imported.todoIDs).filterMap fun (t, todoID) =>
    if todoID = 0 ∨ t.tags = [] then none else some (todoID, t.tags)

def bulkLinkTodoTags (rt : Runtime) (db : DB) (todoTags : List (ℤ × List String))
    (tagIDs : List (String × ℤ)) : Result DB :=
  todoTags.foldlM (bulkLinkTags rt tagIDs) db

/-- The user whose tags are imported into a project; without one, tags are skipped. -/
def importTagUser (ctx : Ctx) (db : DB) (isAnonymousBoard : Bool) : Result (Option (Option ℤ)) :=
  match ctx.userID with
  | some userID => pure (some (some userID))
  | none =>
      if isAnonymousBoard then pure (some none)
      else if authEnabled db then throw ⟨.unauthorized, "userID required for tag import"⟩
      else pure (db.users.head?.map some)

def importTodoTags (rt : Runtime) (ctx : Ctx) (db : DB) (projectID todoID : ℤ)
    (tagNames : List String) : Result DB := do
  let p ← getProject db projectID
  match ← importTagUser ctx db (isAnonymousTemporaryBoard p) with
  | none => pure db
  | some userID =>
      let tags ← normalizeTags rt tagNames
      setTodoTags rt ctx db projectID todoID userID (isAnonymousTemporaryBoard p) tags

/-- A tag of a board without accounts, which keeps its colour in its own row. -/
def importBoardTag (ctx : Ctx) (db : DB) (projectID : ℤ) (name : String) (color : Option String) :
    DB × ℤ :=
  match db.tags.find? fun t => t.projectID == some projectID && t.name == name && t.userID == none with
  | none => appendTag db ⟨0, none, name, ctx.nowMs, some projectID, color⟩
  | some t =>
      match color with
      | none => (db, t.id)
      | some color =>
          if color = "" then (db, t.id)
          else ({ db with
            tags := updateWhere (·.id == t.id) (fun t => { t with color := some color }) db.tags }, t.id)

def importUserTag (rt : Runtime) (ctx : Ctx) (db : DB) (userID : Option ℤ) (name : String)
    (color : Option String) : Result (DB × ℤ) :=
  match userID with
  | none => throw ⟨.internal, "userID required for user-owned tags"⟩
  | some userID => do
      let (db, tagID) ← getOrCreateTag rt ctx db userID name
      pure (setTagColor db userID tagID color, tagID)

/-- The row for a tag of a backup: of the board, or of the user. -/
def importTagRow (rt : Runtime) (ctx : Ctx) (db : DB) (p : ProjectRow) (userID : Option ℤ)
    (name : String) (color : Option String) : Result (DB × ℤ) :=
  if isAnonymousTemporaryBoard p then pure (importBoardTag ctx db p.id name color)
  else importUserTag rt ctx db userID name color

def importTag (rt : Runtime) (ctx : Ctx) (projectID : ℤ) (db : DB) (te : TagExport) :
    Result DB := do
  let p ← getProject db projectID
  match ← importTagUser ctx db (isAnonymousTemporaryBoard p) with
  | none => pure db
  | some userID =>
      let tags ← normalizeTags rt [te.name]
      match tags.head? with
      | none => throw ⟨.validation, "invalid tag name"⟩
      | some name =>
          let (db, tagID) ← importTagRow rt ctx db p userID name te.color
          pure (linkProjectTag ctx db projectID tagID)

/-! ## Links -/

/-- `INSERT OR IGNORE INTO todo_links`, whose key is the pair of ends. -/
def insertLink (db : DB) (l : LinkRow) : DB :=
  if db.links.any fun k => k.projectID == l.projectID && k.fromLocalID == l.fromLocalID &&
      k.toLocalID == l.toLocalID then db
  else { db with links := db.links ++ [l] }

def importLink (ctx : Ctx) (projectID : ℤ) (resolve : ℤ → Option ℤ) (db : DB) (l : LinkExport) : DB :=
  if l.fromLocalID = l.toLocalID ∨ l.type ∉ linkTypesAllowed then db
  else
    match resolve l.fromLocalID, resolve l.toLocalID with
    | some source, some target =>
        if source = target ∨ (todoByLocalID db projectID source).isNone ∨
            (todoByLocalID db projectID target).isNone then db
        else insertLink db ⟨projectID, source, target, l.type, ctx.nowMs⟩
    | _, _ => db

def bulkInsertLinks (ctx : Ctx) (db : DB) (projectID : ℤ) (links : List LinkExport)
    (imported : ImportedTodos) (keepUnimported : Bool) : DB :=
  links.foldl (importLink ctx projectID (imported.linkEndpoint db projectID keepUnimported)) db

end Scrumboy
