import Scrumboy.Backup.Bulk

/-!
# Importing a backup

The four ways in which a backup is imported. Merge matches projects by slug and
todos by local id, and updates what it finds; copy makes a new project of each
project of the backup; replace stages new projects, one transaction each, and then
swaps them for the old ones; and on a server without accounts a backup can be
imported into a board. All but replace are one transaction.
-/

set_option linter.dupNamespace false

namespace Scrumboy

open Go Sql

/-- An import under way: the database and the result so far. -/
structure ImportTx where
  db : DB
  result : ImportResult := {}

/-! ## The project of an import -/

/-- A setting that is given is checked. -/
def checkGiven (validate : String → Result String) (s : String) : Result Unit :=
  if s = "" then pure ()
  else do
    let _ ← validate s
    pure ()

/-- The settings of the agenda that a backup carries; empty ones are kept. -/
def applyAgendaFlags (rt : Runtime) (db : DB) (projectID : ℤ) (p : ProjectExport) : Result DB := do
  let title := trimSpace p.agendaTitle
  let tz := trimSpace p.agendaTimezone
  let color := trimSpace p.agendaColor
  reject (tz ≠ "" ∧ rt.isLocation tz = false) (invalid "invalid agenda timezone")
  checkGiven validateAgendaTitle title
  checkGiven validateAgendaColor color
  pure { db with
    projects := updateWhere (·.id == projectID) (fun row => { row with
      agendaEnabled := p.agendaEnabled.getD row.agendaEnabled
      agendaTimezone := if tz = "" then row.agendaTimezone else tz
      agendaTitle := if title = "" then row.agendaTitle else title
      agendaColor := if color = "" then row.agendaColor else color }) db.projects }

/-- A number of weeks outside of the range is two. -/
def importSprintWeeks (p : ProjectExport) : ℤ :=
  if p.defaultSprintWeeks = 1 ∨ p.defaultSprintWeeks = 2 then p.defaultSprintWeeks else 2

def importImage (p : ProjectExport) : Option String := some (p.image.getD "/scrumboy.png")

def importDominantColor (p : ProjectExport) : String :=
  if p.dominantColor = "" then "#888888" else p.dominantColor

/-- The values of `INSERT INTO projects` for a project of a backup. -/
def importProjectRow (ctx : Ctx) (p : ProjectExport) (slug : String) (ownerUserID expiresAt : Option ℤ)
    (importBatchID : Option String) : ProjectRow :=
  { defaultProjectRow ctx.nowMs with
    name := p.name
    image := importImage p
    dominantColor := importDominantColor p
    slug := slug
    defaultSprintWeeks := importSprintWeeks p
    sprintsEnabled := p.sprintsEnabled.getD true
    ownerUserID := ownerUserID
    creatorUserID := if p.expiresAt.isSome then ctx.userID else none
    expiresAt := expiresAt
    createdAt := p.createdAt
    updatedAt := p.updatedAt
    importBatchID := importBatchID }

def importOwner (ctx : Ctx) (db : DB) (mode : Mode) : Result (Option ℤ) :=
  if mode = .full then projectOwner ctx db else pure none

/-- A temporary board gets a fresh term on a server without accounts. -/
def importExpiresAt (ctx : Ctx) (mode : Mode) (p : ProjectExport) : Option ℤ :=
  p.expiresAt.map fun ms => if mode = .anonymous then temporaryBoardExpiresAtMs ctx.nowMs else ms

/-- The columns of a backup take the place of those of the project. -/
def replaceWorkflow (db : DB) (projectID : ℤ) (p : ProjectExport) : Result DB :=
  insertWorkflowColumns (deleteProjectWorkflowColumns db projectID) projectID
    (workflowColumnsFromExport p.workflowColumns)

/-- The workflow of a new project. -/
def importWorkflow (db : DB) (projectID : ℤ) (p : ProjectExport) : Result DB :=
  if 2 ≤ p.workflowColumns.length then replaceWorkflow db projectID p
  else ensureDefaultWorkflowColumns db projectID

def replaceProjectPriorityTiersFromExport (db : DB) (projectID : ℤ) (p : ProjectExport) : Result DB :=
  insertPriorityTiers (deleteProjectPriorities db projectID) projectID
    (priorityTiersFromExport p.priorityTiers)

/-- `SELECT EXISTS(SELECT 1 FROM projects WHERE slug = ?)`. -/
def slugTaken (db : DB) (slug : String) : Bool := db.projects.any (·.slug == slug)

/-- The first slug of a list that is neither reserved nor taken. -/
def firstFreeSlug (db : DB) (mode : Mode) (candidates : List String) : Result String :=
  match candidates.find? fun slug =>
      !(mode == .full && isReservedProjectSlug slug) && !slugTaken db slug with
  | some slug => .ok slug
  | none => .error ⟨.conflict, "could not generate unique slug"⟩

/-- A new project of an import, up to its sprints. -/
def createImportProject (rt : Runtime) (ctx : Ctx) (db : DB) (mode : Mode) (p : ProjectExport)
    (slug : String) : Result (DB × ℤ) := do
  let owner ← importOwner ctx db mode
  let (db, projectID) := appendProject db
    (importProjectRow ctx p slug owner (importExpiresAt ctx mode p) none)
  let db ← applyAgendaFlags rt db projectID p
  let db ← importWorkflow (insertOwner db projectID ctx.nowMs owner) projectID p
  let db ← replaceProjectPriorityTiersFromExport db projectID p
  pure (db, projectID)

/-- What surrounds the todos of a project: links, custom fields and the wall. -/
def importContent (rt : Runtime) (ctx : Ctx) (draws : ProjectDraws) (db : DB) (projectID : ℤ)
    (p : ProjectExport) (imported : ImportedTodos) (keepUnimported : Bool) (r : ImportResult) :
    Result ImportTx := do
  let db := bulkInsertLinks ctx db projectID p.links imported keepUnimported
  let db ← importCustomFields rt db projectID p imported.todoIDs
  let (db, warnings) ← upsertWallForImport ctx draws db projectID p.wall
    (imported.linkEndpoint db projectID keepUnimported) r.warnings
  pure ⟨db, { r with warnings := warnings }⟩

/-! ## Merge -/

/-- The keys of priorities that todos would keep although the backup drops them. -/
def strandedPriorities (db : DB) (projectID : ℤ) (p : ProjectExport) : List String :=
  let newKeys := (priorityTiersFromExport p.priorityTiers).map (·.key)
  (db.todos.filter fun t => t.projectID == projectID).filterMap fun t => do
    let current ← t.priorityKey
    let effective ← match p.todos.reverse.find? fun e => e.localID == t.localID with
      | none => some (toLower (trimSpace current))
      | some e =>
          if e.priorityKeyPresent then e.priorityKey.map fun key => toLower (trimSpace key)
          else some (toLower (trimSpace current))
    if effective ∈ newKeys then none else some effective

def validatePriorityReplacement (db : DB) (projectID : ℤ) (p : ProjectExport) : Result Unit :=
  if p.priorityTiersPresent then
    let stranded := strandedPriorities db projectID p
    reject (stranded ≠ []) (invalid ("cannot replace priority tiers for project " ++ quote p.name ++
      ": existing todos would retain removed priorities: " ++ join ", " (sortStrings stranded.dedup)))
  else pure ()

/-- The columns of a backup replace those of a project that is there; a backup without
columns leaves them alone. -/
def mergeWorkflow (db : DB) (projectID : ℤ) (p : ProjectExport) : Result DB :=
  if 2 ≤ p.workflowColumns.length then replaceWorkflow db projectID p else pure db

def mergePriorities (db : DB) (projectID : ℤ) (p : ProjectExport) : Result DB :=
  if p.priorityTiersPresent then replaceProjectPriorityTiersFromExport db projectID p else pure db

/-- The project that a merge found is updated. -/
def mergeExistingProject (rt : Runtime) (ctx : Ctx) (db : DB) (projectID : ℤ) (p : ProjectExport) :
    Result DB := do
  validatePriorityReplacement db projectID p
  let db := { db with
    projects := updateWhere (·.id == projectID) (fun row => { row with
      name := p.name
      image := importImage p
      dominantColor := importDominantColor p
      defaultSprintWeeks := importSprintWeeks p
      sprintsEnabled := p.sprintsEnabled.getD true
      updatedAt := ctx.nowMs }) db.projects }
  let db ← applyAgendaFlags rt db projectID p
  let db ← mergeWorkflow db projectID p
  mergePriorities db projectID p

/-- The slugs that a merge tries for a new project: that of its name, then with
numbers. A name without a slug gets a random one. -/
def mergeSlugCandidates (p : ProjectExport) (draws : ProjectDraws) : List String :=
  match generateSlugFromName p.name with
  | .ok base => (List.range 100).map (slugCandidate base)
  | .error _ => draws.slug :: (List.range' 1 99).map (slugCandidate "")

def mergeNewProject (rt : Runtime) (ctx : Ctx) (draws : ProjectDraws) (s : ImportTx)
    (p : ProjectExport) : Result (ImportTx × ℤ) := do
  let slug ← firstFreeSlug s.db .full (mergeSlugCandidates p draws)
  let (db, projectID) ← createImportProject rt ctx s.db .full p slug
  let r := if slug = p.slug then s.result
    else s.result.warn ("Slug " ++ quote p.slug ++ " rewritten to " ++ quote slug)
  pure (⟨db, { r with created := r.created + 1 }⟩, projectID)

/-- The project that a merge found or makes for a project of the backup. -/
def mergeTarget (rt : Runtime) (ctx : Ctx) (draws : ProjectDraws) (selected : Selector)
    (s : ImportTx) (p : ProjectExport) : Result (ImportTx × ℤ) :=
  match findProject s.db selected p.slug with
  | some row => do
      let db ← mergeExistingProject rt ctx s.db row.id p
      pure (⟨db, { s.result with updated := s.result.updated + 1 }⟩, row.id)
  | none => mergeNewProject rt ctx draws s p

/-- The values of `UPDATE todos` for a todo that a merge found. A missing assignee,
priority, due date or archive time is kept, and a reminder is due again when the due
date or the assignee changed. -/
def mergedRow (db : DB) (projectID : ℤ) (columnKey : String) (sprintID : Option ℤ) (t : TodoExport)
    (u : TodoRow) : TodoRow :=
  let assignee := resolveImportAssignee db projectID t.assigneeUserID
  let assigneeChanged := assignee.isSome && assignee != u.assigneeUserID
  { u with
    title := t.title
    body := t.body
    columnKey := columnKey
    rank := t.rank
    estimationPoints := t.estimationPoints
    assigneeUserID := assignee.or u.assigneeUserID
    sprintID := sprintID
    priorityKey := if t.priorityKeyPresent then priorityKeyForInsert t else u.priorityKey
    updatedAt := t.updatedAt
    doneAt := resolveImportDoneAt t.doneAt (importStatus t) t.updatedAt
    archivedAt := if t.archivedAtPresent then t.archivedAt else u.archivedAt
    dueAt := t.dueAt.or u.dueAt
    dueRemindedAt := match t.dueAt with
      | some due => if u.dueAt = some due ∧ assigneeChanged = false then u.dueRemindedAt else none
      | none => if assigneeChanged && u.dueAt.isSome then none else u.dueRemindedAt }

/-- The local id that a merge gives to a new todo: its own, if that is larger than
every one of the project. -/
def mergeLocalID (db : DB) (projectID localID : ℤ) : ℤ :=
  if localID ≤ maxLocalID db projectID then wrap (maxLocalID db projectID + 1) else localID

def warnLocalID (db : DB) (projectID localID : ℤ) (r : ImportResult) : ImportResult :=
  if localID ≤ maxLocalID db projectID then
    r.warn ("Todo localId " ++ formatInt localID ++ " collided, regenerated to " ++
      formatInt (mergeLocalID db projectID localID))
  else r

/-- The insertion of a new todo. If the local id is in use after all, the next one
is tried once. -/
def insertMergedTodo (db : DB) (projectID : ℤ) (row : ℤ → TodoRow) (localID : ℤ)
    (r : ImportResult) : Result (DB × TodoRow × ImportResult) :=
  match insertTodo db (row (mergeLocalID db projectID localID)) ⟨.internal, "insert todo"⟩ with
  | .ok (db', u) => pure (db', u, r)
  | .error _ => do
      let retry := wrap (maxLocalID db projectID + 1)
      let (db', u) ← insertTodo db (row retry)
        ⟨.internal, "insert todo with regenerated local_id: UNIQUE constraint failed"⟩
      pure (db', u, r.warn ("Todo localId collided again, regenerated to " ++ formatInt retry))

/-- The todo of the destination that a todo of the backup is matched with: one with
its local id that this import did not create. -/
def mergeMatch (s : TodoScan) (projectID localID : ℤ) : Option TodoRow :=
  (todoByLocalID s.db projectID localID).filter fun u => !s.imported.wasCreated u.id

def mergeTodo (rt : Runtime) (ctx : Ctx) (projectID : ℤ) (sprintID : ℤ → Option ℤ) (s : TodoScan)
    (t : TodoExport) : Result TodoScan := do
  checkImportTodo s.db projectID t
  let (columnKey, warned) := resolveImportColumnKey s.db projectID t.status
  let r := warnLane warned t s.result
  match mergeMatch s projectID t.localID with
  | some u =>
      let db := { s.db with
        todos := updateWhere (·.id == u.id)
          (mergedRow s.db projectID columnKey (t.sprintNumber.bind sprintID) t) s.db.todos }
      let db ← importTodoTags rt ctx db projectID u.id t.tags
      pure { db := db
             imported := s.imported.record t.localID t.localID u.id false
             result := { r with updated := r.updated + 1 } }
  | none =>
      let (db, u, r) ← insertMergedTodo s.db projectID
        (fun localID => importRow s.db projectID localID columnKey t.rank
          (t.sprintNumber.bind sprintID) t) t.localID (warnLocalID s.db projectID t.localID r)
      let db ← importTodoTags rt ctx db projectID u.id t.tags
      pure { db := db
             imported := s.imported.record t.localID u.localID u.id true
             result := { r with created := r.created + 1 } }

/-- The todos of one project of a merge. -/
def mergeTodos (rt : Runtime) (ctx : Ctx) (db : DB) (projectID : ℤ) (sprintID : ℤ → Option ℤ)
    (todos : List TodoExport) (r : ImportResult) : Result TodoScan :=
  todos.foldlM (mergeTodo rt ctx projectID sprintID) { db := db, result := r }

def clearLinks (db : DB) (projectID : ℤ) : DB :=
  { db with links := deleteWhere (fun l => l.projectID == projectID) db.links }

/-- One project of a merge; the ids of the projects so far are carried along. -/
def mergeProject (rt : Runtime) (ctx : Ctx) (draws : ℕ → ProjectDraws) (selected : Selector)
    (s : ImportTx × List ℤ) (pi : ProjectExport × ℕ) : Result (ImportTx × List ℤ) := do
  let (p, i) := pi
  reject (p.slug = "") (invalid "project missing slug")
  reject (p.name = "") (invalid "project missing name")
  let (tx, projectID) ← mergeTarget rt ctx (draws i) selected s.1 p
  let db ← insertSprintsForImport ctx tx.db projectID p.sprints
  let scan ← mergeTodos rt ctx db projectID (sprintIDByNumber db projectID p.sprints) p.todos tx.result
  let db ← p.tags.foldlM (importTag rt ctx projectID) scan.db
  let tx ← importContent rt ctx (draws i) (clearLinks db projectID) projectID p scan.imported true
    scan.result
  pure (tx, s.2 ++ [projectID])

/-- Every priority of a todo is one of its project. -/
def assertProjectPriorityIntegrity (db : DB) (projectID : ℤ) : Result Unit :=
  match db.todos.find? fun t => t.projectID == projectID &&
      t.priorityKey.any fun key => !(db.priorityKeys projectID).contains key with
  | none => pure ()
  | some t => throw ⟨.internal, "priority invariant: todo local_id " ++ formatInt t.localID ++
      " references missing priority " ++ quote (t.priorityKey.getD "")⟩

/-- `importMergeUpdate` on a server with accounts. -/
def importMerge (rt : Runtime) (ctx : Ctx) (draws : ℕ → ProjectDraws) (db : DB) (data : ExportData) :
    Result (DB × ImportResult) := do
  let selected ← exportableProjectsSelector ctx db .full
  data.projects.forM (checkImportRight "merge" ctx db)
  let (tx, projectIDs) ← data.projects.zipIdx.foldlM (mergeProject rt ctx draws selected) (⟨db, {}⟩, [])
  projectIDs.forM (assertProjectPriorityIntegrity tx.db)
  pure (tx.db, { tx.result with imported := data.projects.length })

/-! ## Copy -/

/-- The slugs that a copy tries for a new project. -/
def copySlugCandidates (p : ProjectExport) (draws : ProjectDraws) : List String :=
  let base := match generateSlugFromName p.name with
    | .ok base => base
    | .error _ => draws.slug
  (base ++ "-imported") :: (List.range' 3 99).map fun i => base ++ "-" ++ formatInt i

/-- The local id of a copied todo: its own, unless it is in use. -/
def copyLocalID (db : DB) (projectID localID : ℤ) : ℤ :=
  if (todoByLocalID db projectID localID).isSome then wrap (maxLocalID db projectID + 1) else localID

def warnCopyLocalID (db : DB) (projectID localID : ℤ) (r : ImportResult) : ImportResult :=
  if (todoByLocalID db projectID localID).isSome then
    r.warn ("Todo localId " ++ formatInt localID ++ " collided, regenerated to " ++
      formatInt (copyLocalID db projectID localID))
  else r

def copyTodo (rt : Runtime) (ctx : Ctx) (projectID : ℤ) (sprintID : ℤ → Option ℤ) (s : TodoScan)
    (t : TodoExport) : Result TodoScan := do
  checkImportTodo s.db projectID t
  let (columnKey, warned) := resolveImportColumnKey s.db projectID t.status
  let (db, u) ← insertTodo s.db
    (importRow s.db projectID (copyLocalID s.db projectID t.localID) columnKey t.rank
      (t.sprintNumber.bind sprintID) t) ⟨.internal, "insert todo: UNIQUE constraint failed"⟩
  let db ← importTodoTags rt ctx db projectID u.id t.tags
  pure { db := db
         imported := s.imported.record t.localID u.localID u.id true
         result := warnCopyLocalID s.db projectID t.localID (warnLane warned t s.result) }

/-- The todos of one project of a copy. -/
def copyTodos (rt : Runtime) (ctx : Ctx) (db : DB) (projectID : ℤ) (sprintID : ℤ → Option ℤ)
    (todos : List TodoExport) (r : ImportResult) : Result TodoScan :=
  todos.foldlM (copyTodo rt ctx projectID sprintID) { db := db, result := r }

def copyProject (rt : Runtime) (ctx : Ctx) (draws : ℕ → ProjectDraws) (mode : Mode) (s : ImportTx)
    (pi : ProjectExport × ℕ) : Result ImportTx := do
  let (p, i) := pi
  reject (p.slug = "") (invalid "project missing slug")
  reject (p.name = "") (invalid "project missing name")
  let slug ← firstFreeSlug s.db mode (copySlugCandidates p (draws i))
  let (db, projectID) ← createImportProject rt ctx s.db mode p slug
  let r := if slug = p.slug then s.result
    else s.result.warn ("Slug " ++ quote p.slug ++ " rewritten to " ++ quote slug)
  let db ← insertSprintsForImport ctx db projectID p.sprints
  let scan ← copyTodos rt ctx db projectID (sprintIDByNumber db projectID p.sprints) p.todos r
  let db ← p.tags.foldlM (importTag rt ctx projectID) scan.db
  let tx ← importContent rt ctx (draws i) db projectID p scan.imported false scan.result
  pure { tx with result := { tx.result with created := tx.result.created + 1 } }

def importCreateCopy (rt : Runtime) (ctx : Ctx) (draws : ℕ → ProjectDraws) (db : DB)
    (data : ExportData) (mode : Mode) : Result (DB × ImportResult) := do
  let tx ← data.projects.zipIdx.foldlM (copyProject rt ctx draws mode) ⟨db, {}⟩
  pure (tx.db, { tx.result with imported := data.projects.length })

/-- `importMergeUpdate`. Without accounts there is nothing to match with. -/
def importMergeUpdate (rt : Runtime) (ctx : Ctx) (draws : ℕ → ProjectDraws) (db : DB)
    (data : ExportData) (mode : Mode) : Result (DB × ImportResult) :=
  if mode = .anonymous then importCreateCopy rt ctx draws db data mode
  else importMerge rt ctx draws db data

/-! ## Into a board -/

/-- The local id of a todo that is imported into a board. -/
def boardLocalID (db : DB) (projectID : ℤ) : ℤ :=
  match ((db.todos.filter fun t => t.projectID == projectID).map (·.localID)).max? with
  | none => 1
  | some m => wrap (m + 1)

def boardTodo (rt : Runtime) (ctx : Ctx) (projectID : ℤ) (s : TodoScan) (t : TodoExport) :
    Result TodoScan := do
  let (columnKey, warned) := resolveImportColumnKey s.db projectID t.status
  validateEstimationPoints t.estimationPoints
  checkPriority s.db projectID (priorityKeyForInsert t)
  let r := warnLane warned t s.result
  let (db, u) ← insertTodo s.db
    (importRow s.db projectID (boardLocalID s.db projectID) columnKey t.rank none t)
    ⟨.internal, "insert todo: UNIQUE constraint failed"⟩
  let db ← importTodoTags rt ctx db projectID u.id t.tags
  pure { db := db
         imported := s.imported.record t.localID u.localID u.id true
         result := { r with created := r.created + 1 } }

/-- The todos of one project that is imported into a board. -/
def boardTodos (rt : Runtime) (ctx : Ctx) (db : DB) (projectID : ℤ) (todos : List TodoExport)
    (r : ImportResult) : Result TodoScan :=
  todos.foldlM (boardTodo rt ctx projectID) { db := db, result := r }

/-- One project of a backup goes into a board without its wall. -/
def boardProject (rt : Runtime) (ctx : Ctx) (projectID : ℤ) (s : ImportTx) (p : ProjectExport) :
    Result ImportTx := do
  let scan ← boardTodos rt ctx s.db projectID p.todos s.result
  let db ← p.tags.foldlM (importTag rt ctx projectID) scan.db
  let db := bulkInsertLinks ctx db projectID p.links scan.imported false
  let db ← importCustomFields rt db projectID p scan.imported.todoIDs
  pure ⟨db, scan.result⟩

def importIntoBoard (rt : Runtime) (ctx : Ctx) (db : DB) (data : ExportData) (targetSlug : String) :
    Result (DB × ImportResult) := do
  let target ← getProjectBySlug db targetSlug
  rejectImportWorkLimit rt data
  reject (target.expiresAt = none) (invalid "target board is not an anonymous board")
  rejectIfExpiredTemporaryProject ctx target
  let tx ← data.projects.foldlM (boardProject rt ctx target.id) ⟨db, {}⟩
  let db := { tx.db with
    projects := updateWhere (·.id == target.id) (fun p => { p with lastActivityAt := ctx.nowMs })
      tx.db.projects }
  pure (db, { tx.result with imported := data.projects.length })

/-! ## Replace -/

/-- The slugs that a staged project tries when its own is taken. -/
def stagingSlugCandidates (base : String) : List String :=
  (List.range 100).map fun i =>
    let suffix := "-" ++ formatInt (i + 1)
    let maxBaseLen := maxSlugLen - byteLen suffix
    if maxBaseLen < byteLen base then trimRightChar '-' (takeBytes maxBaseLen base) ++ suffix
    else base ++ suffix

/-- A staged project of the batch has the slug, up to the case of ASCII letters. -/
def stagedSlug (db : DB) (batchID slug : String) : Bool :=
  db.projects.any fun p => p.importBatchID == some batchID && Sql.lower p.slug == Sql.lower slug

/-- The slug of a staged project. -/
def stagingSlug (db : DB) (mode : Mode) (batchID : String) (p : ProjectExport)
    (draws : ProjectDraws) : Result String :=
  let base := if p.slug ≠ "" then p.slug else
    match generateSlugFromName p.name with
    | .ok base => base
    | .error _ => draws.slug
  if stagedSlug db batchID base || (mode == .full && isReservedProjectSlug base) then
    match (stagingSlugCandidates base).find? fun slug =>
        !(mode == .full && isReservedProjectSlug slug) && !stagedSlug db batchID slug with
    | some slug => .ok slug
    | none => .error ⟨.conflict, "could not generate unique slug in staging"⟩
  else .ok base

/-- The owner of a staged project becomes a maintainer, unless it is temporary. -/
def insertStagedOwner (db : DB) (projectID nowMs : ℤ) (p : ProjectExport) (owner : Option ℤ) : DB :=
  if p.expiresAt.isSome then db else insertOwner db projectID nowMs owner

def insertProjectWithBatchID (ctx : Ctx) (db : DB) (mode : Mode) (batchID : String)
    (p : ProjectExport) (draws : ProjectDraws) : Result (DB × ℤ) := do
  reject (p.name = "") (invalid "project missing name")
  let slug ← stagingSlug db mode batchID p draws
  let owner ← importOwner ctx db mode
  let (db, projectID) := appendProject db (importProjectRow ctx p slug owner p.expiresAt (some batchID))
  pure (insertStagedOwner db projectID ctx.nowMs p owner, projectID)

/-- One project of a replace, in a transaction of its own. -/
def stageProject (rt : Runtime) (ctx : Ctx) (draws : ℕ → ProjectDraws) (mode : Mode)
    (batchID : String) (s : ImportTx) (pi : ProjectExport × ℕ) : Result ImportTx := do
  let (p, i) := pi
  let (db, projectID) ← insertProjectWithBatchID ctx s.db mode batchID p (draws i)
  let db ← applyAgendaFlags rt db projectID p
  let db ← importWorkflow db projectID p
  let db ← replaceProjectPriorityTiersFromExport db projectID p
  let db ← insertSprintsForImport ctx db projectID p.sprints
  let scan ← bulkInsertTodos db projectID p.todos (sprintIDByNumber db projectID p.sprints) s.result
  let (db, tagIDs) ← bulkUpsertTags rt ctx scan.db projectID p.tags
  let db ← bulkLinkTodoTags rt db (buildTodoTagMap p.todos scan.imported) tagIDs
  let tx ← importContent rt ctx (draws i) db projectID p scan.imported false scan.result
  pure { tx with result := { tx.result with created := tx.result.created + 1 } }

/-- Phase A. The projects before the one that fails are committed. -/
def stageProjects (rt : Runtime) (ctx : Ctx) (draws : ℕ → ProjectDraws) (mode : Mode)
    (batchID : String) : ImportTx → List (ProjectExport × ℕ) → DB × Result ImportResult
  | s, [] => (s.db, .ok s.result)
  | s, pi :: rest =>
      match stageProject rt ctx draws mode batchID s pi with
      | .error e => (s.db, .error e)
      | .ok s' => stageProjects rt ctx draws mode batchID s' rest

/-- `DELETE FROM projects` with the rows that the foreign keys delete along. The
sprint of a todo is always one of its own project, so no reference is left to clear. -/
def deleteProjects (db : DB) (gone : ProjectRow → Bool) : DB :=
  let projectGone := fun id : ℤ => db.projects.any fun p => p.id == id && gone p
  let todoGone := fun id : ℤ => db.todos.any fun t => t.id == id && projectGone t.projectID
  let tagGone := fun id : ℤ => db.tags.any fun t => t.id == id && t.projectID.any projectGone
  let fieldGone := fun id : ℤ => db.customFields.any fun f => f.id == id && projectGone f.projectID
  { db with
    projects := deleteWhere gone db.projects
    members := deleteWhere (fun m => projectGone m.projectID) db.members
    columns := deleteWhere (fun c => projectGone c.projectID) db.columns
    priorities := deleteWhere (fun t => projectGone t.projectID) db.priorities
    sprints := deleteWhere (fun s => projectGone s.projectID) db.sprints
    todos := deleteWhere (fun t => projectGone t.projectID) db.todos
    tags := deleteWhere (fun t => t.projectID.any projectGone) db.tags
    todoTags := deleteWhere (fun r => todoGone r.todoID || tagGone r.tagID) db.todoTags
    projectTags := deleteWhere (fun r => projectGone r.projectID || tagGone r.tagID) db.projectTags
    userTagColors := deleteWhere (fun r => tagGone r.tagID) db.userTagColors
    links := deleteWhere (fun l => projectGone l.projectID) db.links
    customFields := deleteWhere (fun f => projectGone f.projectID) db.customFields
    customFieldValues := deleteWhere (fun v => todoGone v.todoID || fieldGone v.fieldID)
      db.customFieldValues
    walls := deleteWhere (fun w => projectGone w.projectID) db.walls
    placements := deleteWhere (fun p => projectGone p.projectID || todoGone p.todoID) db.placements }

/-- The staged projects of a batch become visible. The index on slugs then covers
them. -/
def promoteStaging (db : DB) (batchID : String) : Result DB := do
  let projects := updateWhere (·.importBatchID == some batchID)
    (fun p => { p with importBatchID := none }) db.projects
  reject (¬ ((projects.filter (·.importBatchID == none)).map (·.slug)).Nodup)
    ⟨.internal, "promote staging: UNIQUE constraint failed"⟩
  pure { db with projects := projects }

/-- Phase B: the old projects go and the staged ones take their place. -/
def swapStaging (ctx : Ctx) (db : DB) (mode : Mode) (batchID : String) : Result DB := do
  let staged := db.projects.filter (·.importBatchID == some batchID)
  let slugs := staged.map fun p => Sql.lower p.slug
  reject (¬ slugs.Nodup) (invalid ("duplicate slug " ++ quote
    (((staged.find? fun p => 1 < slugs.count (Sql.lower p.slug)).map (·.slug)).getD "") ++
    " in staging (promotion would fail)"))
  let selected ← exportableProjectsSelector ctx db mode
  promoteStaging (deleteProjects db fun p => selected db p && p.importBatchID == none) batchID

/-- The slugs of the file once more. -/
def checkReplaceSlug (seen : List String) (pi : ProjectExport × ℕ) : Result (List String) := do
  let (p, i) := pi
  reject (p.name = "") (invalid ("project at index " ++ formatInt i ++ " missing name"))
  if p.slug = "" then pure seen
  else do
    let slug := toLower (trimSpace p.slug)
    reject (slug ∈ seen) (invalid ("duplicate slug " ++ quote p.slug ++ " in import file"))
    pure (slug :: seen)

/-- What is left of a batch when a replace fails. -/
def cleanupStaging (db : DB) (batchID : String) : DB :=
  deleteProjects db (·.importBatchID == some batchID)

def importReplaceAll (rt : Runtime) (ctx : Ctx) (draws : ℕ → ProjectDraws) (batchID : String)
    (db : DB) (data : ExportData) (mode : Mode) : DB × Result ImportResult :=
  match data.projects.zipIdx.foldlM checkReplaceSlug [] with
  | .error e => (db, .error e)
  | .ok _ =>
      match stageProjects rt ctx draws mode batchID ⟨db, {}⟩ data.projects.zipIdx with
      | (staged, .error e) => (cleanupStaging staged batchID, .error e)
      | (staged, .ok r) =>
          match swapStaging ctx staged mode batchID with
          | .error e => (cleanupStaging staged batchID, .error e)
          | .ok db => (db, .ok r)

/-! ## The entry -/

/-- A transaction: an error leaves the database as it was. -/
def transact {α : Type} (db : DB) : Result (DB × α) → DB × Result α
  | .ok (db', a) => (db', .ok a)
  | .error e => (db, .error e)

/-- What an import is asked for, with the random numbers that it draws. -/
structure ImportRequest where
  data : ExportData
  mode : Mode
  importMode : ImportMode
  targetSlug : String := ""
  batchID : String
  draws : ℕ → ProjectDraws

/-- The checks at the beginning of `importProjects`. -/
def checkImport (ctx : Ctx) (req : ImportRequest) : Result Unit := do
  validateBackupData ctx req.data
  reject (req.data.scope = "full" ∧ req.mode = .anonymous)
    (invalid "cannot import full scope into anonymous mode")
  reject (req.importMode = .replace ∧ req.mode = .anonymous)
    (invalid "Replace All is forbidden in anonymous mode")

/-- The database after an import, and its result. A replace that fails late leaves
the tags behind that it had made for the importing user. -/
def importProjects (rt : Runtime) (ctx : Ctx) (db : DB) (req : ImportRequest) :
    DB × Result ImportResult :=
  match checkImport ctx req with
  | .error e => (db, .error e)
  | .ok _ =>
      if req.targetSlug ≠ "" ∧ req.mode = .anonymous then
        transact db (importIntoBoard rt ctx db req.data req.targetSlug)
      else
        match validateImportPreflight rt ctx db req.data req.mode req.importMode with
        | .error e => (db, .error e)
        | .ok _ =>
            match req.importMode with
            | .replace => importReplaceAll rt ctx req.draws req.batchID db req.data req.mode
            | .merge => transact db (importMergeUpdate rt ctx req.draws db req.data req.mode)
            | .copy => transact db (importCreateCopy rt ctx req.draws db req.data req.mode)
            | .other name => (db, .error (invalid ("invalid import mode " ++ quote name)))

end Scrumboy
