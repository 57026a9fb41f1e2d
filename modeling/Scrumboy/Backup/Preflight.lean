import Scrumboy.Backup.Fields
import Scrumboy.Backup.Lanes
import Scrumboy.Store.Todos

/-!
# Checks before an import

What `importProjects` asks of a backup before anything is written: the version and
the time stamps of the file, then the content of each project, then the content
against the projects it would be merged into. The first check that fails is the
error of the import.
-/

set_option linter.dupNamespace false

namespace Scrumboy

open Go Sql

/-- The way in which an import treats the projects that are there. The request
names it by a text, of which only three are known. -/
inductive ImportMode
  | replace
  | merge
  | copy
  | other (name : String)
  deriving DecidableEq, Repr

/-! ## The file -/

def supportedExportVersion (v : String) : Bool := v == "1.1" || v == "1.2"

def importArchivedAtFutureSlackMs : ℤ := 24 * 60 * 60 * 1000

/-- One round of the loop of `validateBackupData` over the todos of a project. The
local ids seen so far are carried along. -/
def validateBackupTodo (ctx : Ctx) (version projectName : String) (seen : List ℤ)
    (t : TodoExport) : Result (List ℤ) := do
  reject (t.localID ≠ 0 ∧ t.localID ∈ seen)
    (invalid ("project " ++ quote projectName ++ " has duplicate todo localId " ++
      formatInt t.localID))
  reject (version = "1.1" ∧ t.archivedAtPresent)
    (invalid ("format 1.1 todo " ++ formatInt t.localID ++ " contains 1.2 archivedAt data"))
  reject (∃ ms ∈ t.dueAt, ms ≤ 0 ∨ maxDueAtMs ≤ ms)
    (invalid ("todo " ++ formatInt t.localID ++ " dueAt out of range"))
  reject (∃ ms ∈ t.archivedAt, ms < 0)
    (invalid ("todo " ++ formatInt t.localID ++ " archivedAt must be non-negative"))
  reject (∃ ms ∈ t.archivedAt, ctx.nowMs + importArchivedAtFutureSlackMs < ms)
    (invalid ("todo " ++ formatInt t.localID ++ " archivedAt " ++
      formatInt (t.archivedAt.getD 0) ++ " is implausibly far in the future"))
  pure (if t.localID = 0 then seen else t.localID :: seen)

def validateBackupProject (ctx : Ctx) (version : String) (p : ProjectExport) : Result Unit := do
  let _ ← p.todos.foldlM (validateBackupTodo ctx version p.name) []
  pure ()

def validateBackupData (ctx : Ctx) (data : ExportData) : Result Unit := do
  reject (data.version = "1.3")
    (invalid "backups with images (format 1.3) must be imported as a .sbz archive")
  reject (supportedExportVersion data.version = false)
    (invalid ("unsupported export version " ++ quote data.version ++ " (expected 1.2)"))
  data.projects.forM (validateBackupProject ctx data.version)

/-! ## One project of the file -/

/-- The slugs of a backup are told apart without regard to case. -/
def preflightSlug (importMode : ImportMode) (seen : List String) (p : ProjectExport) :
    Result (List String) :=
  if p.slug ≠ "" then do
    let slug := toLower (trimSpace p.slug)
    reject (slug ∈ seen) (invalid ("duplicate slug " ++ quote p.slug ++ " in import file"))
    pure (slug :: seen)
  else do
    reject (importMode = .merge)
      (invalid ("project " ++ quote p.name ++ " missing slug (required for merge)"))
    pure seen

/-- One column of a backup: the keys seen so far and the number of done columns. -/
def preflightColumn (name : String) (s : List String × ℕ) (ci : WorkflowColumnExport × ℕ) :
    Result (List String × ℕ) := do
  let (seenKeys, doneCount) := s
  let (c, i) := ci
  let key := trimSpace c.key
  reject (key = "") (invalid ("project " ++ quote name ++ " workflow column at index " ++
    formatInt i ++ " has empty key"))
  reject (isValidColumnKey key = false) (invalid ("project " ++ quote name ++
    " workflow column key " ++ quote key ++ " is invalid"))
  reject (toLower key ∈ seenKeys) (invalid ("project " ++ quote name ++
    " workflow column key " ++ quote key ++ " is duplicate"))
  reject (trimSpace c.name = "") (invalid ("project " ++ quote name ++ " workflow column " ++
    quote key ++ " has empty name"))
  reject (trimSpace c.color ≠ "" ∧ colorHexRe (trimSpace c.color) = false)
    (invalid ("project " ++ quote name ++ " workflow column " ++ quote key ++
      " has invalid color " ++ quote c.color))
  pure (toLower key :: seenKeys, if c.isDone then doneCount + 1 else doneCount)

/-- The keys of the workflow of a backup, if it has one. -/
def preflightColumns (p : ProjectExport) : Result (Option (List String)) :=
  if p.workflowColumns = [] then pure none
  else do
    reject (p.workflowColumns.length < 2)
      (invalid ("project " ++ quote p.name ++ " workflowColumns must have at least 2 columns"))
    let (keys, doneCount) ← p.workflowColumns.zipIdx.foldlM (preflightColumn p.name) ([], 0)
    reject (doneCount ≠ 1) (invalid ("project " ++ quote p.name ++
      " workflow must have exactly one done column, got " ++ formatInt doneCount))
    pure (some keys)

/-- The tiers of a backup in their exported order. A backup without any gets the
default ones. -/
def priorityTiersFromExport (exported : List PriorityTierExport) : List PriorityTier :=
  if exported = [] then defaultPriorityTiers
  else (orderBy (·.position) exported).zipIdx.map fun (t, i) =>
    let color := trimSpace t.color
    { id := 0
      projectID := 0
      key := toLower (trimSpace t.key)
      name := trimSpace t.name
      color := if color = "" then defaultPriorityColor else color
      position := i }

def preflightTier (name : String) (seen : List String) (ti : PriorityTierExport × ℕ) :
    Result (List String) := do
  let (t, i) := ti
  let key := toLower (trimSpace t.key)
  let reason := priorityTierDefinitionReason key t.name t.color true true
  reject (reason = some .invalidPriorityKey) (invalid ("project " ++ quote name ++
    " priority tier at index " ++ formatInt i ++ " has invalid key " ++ quote t.key))
  reject (key ∈ seen) (invalid ("project " ++ quote name ++ " priority tier key " ++
    quote t.key ++ " is duplicate"))
  reject (reason = some .invalidPriorityTierName) (invalid ("project " ++ quote name ++
    " priority tier " ++ quote t.key ++ " has invalid name"))
  reject (reason = some .invalidPriorityTierColor) (invalid ("project " ++ quote name ++
    " priority tier " ++ quote t.key ++ " has invalid color " ++ quote t.color))
  pure (key :: seen)

def validatePriorityTierExports (projectName : String) (exported : List PriorityTierExport) :
    Result (List PriorityTier) := do
  reject (maxPriorityTiers < exported.length) (invalid ("project " ++ quote projectName ++
    " may have at most 12 priority tiers"))
  let _ ← exported.zipIdx.foldlM (preflightTier projectName) []
  pure (priorityTiersFromExport exported)

def preflightTiers (p : ProjectExport) : Result (List String) :=
  if p.priorityTiersPresent then do
    let tiers ← validatePriorityTierExports p.name p.priorityTiers
    pure (tiers.map (·.key))
  else pure []

def preflightSprint (name : String) (seen : List ℤ) (sp : SprintExport) : Result (List ℤ) := do
  reject (sp.number ∈ seen) (invalid ("project " ++ quote name ++
    " has duplicate sprint number " ++ formatInt sp.number))
  reject (sp.plannedEndAt < sp.plannedStartAt) (invalid ("project " ++ quote name ++
    " sprint " ++ formatInt sp.number ++ " has plannedEndAt before plannedStartAt"))
  let state := trimSpace sp.state
  reject (state ≠ "" ∧ state ∉ ["PLANNED", "ACTIVE", "CLOSED"])
    (invalid ("project " ++ quote name ++ " sprint " ++ formatInt sp.number ++
      " has invalid state " ++ quote sp.state))
  pure (sp.number :: seen)

/-- The sprint numbers of a backup, if it has sprints. -/
def preflightSprints (p : ProjectExport) : Result (Option (List ℤ)) :=
  if p.sprints = [] then pure none
  else some <$> p.sprints.foldlM (preflightSprint p.name) []

def preflightTodoSprint (name : String) (sprints : Option (List ℤ)) (t : TodoExport) :
    Result Unit :=
  match t.sprintNumber, sprints with
  | none, _ => pure ()
  | some n, none => throw (invalid ("todo " ++ quote t.title ++ " in project " ++ quote name ++
      ": SprintNumber " ++ formatInt n ++ " but project has no sprints in backup"))
  | some n, some numbers => reject (n ∉ numbers) (invalid ("todo " ++ quote t.title ++
      " in project " ++ quote name ++ ": SprintNumber " ++ formatInt n ++
      " does not match any sprint in backup"))

def preflightTodo (p : ProjectExport) (columns : Option (List String)) (tiers : List String)
    (sprints : Option (List ℤ)) (t : TodoExport) : Result Unit := do
  reject (t.localID = 0) (invalid ("todo in project " ++ quote p.name ++ " missing localId"))
  reject (t.title = "") (invalid ("todo localId " ++ formatInt t.localID ++ " in project " ++
    quote p.name ++ " missing title"))
  (validateEstimationPoints t.estimationPoints).mapError fun e =>
    invalid ("todo " ++ quote t.title ++ ": validation: " ++ e.text)
  reject (∃ keys ∈ columns, statusResolvesInWorkflow t.status keys = false)
    (invalid ("todo " ++ quote t.title ++ " in project " ++ quote p.name ++
      ": unknown workflow column " ++ quote t.status ++ " (not in backup workflowColumns)"))
  reject (p.priorityTiersPresent = true ∧ t.priorityKeyPresent = true ∧
      ∃ key ∈ t.priorityKey, toLower (trimSpace key) ∉ tiers)
    (invalid ("todo " ++ quote t.title ++ " in project " ++ quote p.name ++
      " has unknown priority key " ++ quote (t.priorityKey.getD "")))
  preflightTodoSprint p.name sprints t

def linkTypesAllowed : List String := ["relates_to", "blocks", "duplicates", "parent"]

/-- The type of a link; an empty one is the plain relation. -/
def LinkExport.type (l : LinkExport) : String := if l.linkType = "" then "relates_to" else l.linkType

def preflightLink (p : ProjectExport) (l : LinkExport) : Result Unit := do
  let todoLocalIDs := p.todos.map (·.localID)
  reject (l.fromLocalID = l.toLocalID) (invalid ("invalid link in project " ++ quote p.name ++
    ": self-link " ++ formatInt l.fromLocalID ++ "->" ++ formatInt l.toLocalID))
  reject (l.fromLocalID ∉ todoLocalIDs) (invalid ("invalid link in project " ++ quote p.name ++
    ": fromLocalId " ++ formatInt l.fromLocalID ++ " does not match any todo"))
  reject (l.toLocalID ∉ todoLocalIDs) (invalid ("invalid link in project " ++ quote p.name ++
    ": toLocalId " ++ formatInt l.toLocalID ++ " does not match any todo"))
  reject (l.type ∉ linkTypesAllowed) (invalid ("invalid link type " ++ quote l.linkType ++
    " in project " ++ quote p.name ++ " (link " ++ formatInt l.fromLocalID ++ "->" ++
    formatInt l.toLocalID ++ ")"))

def preflightTag (p : ProjectExport) (tag : TagExport) : Result Unit :=
  reject (tag.name = "") (invalid ("project " ++ quote p.name ++ " has tag with empty name"))

/-- The checks of one project that need no database. -/
def preflightProject (importMode : ImportMode) (seen : List String) (pi : ProjectExport × ℕ) :
    Result (List String) := do
  let (p, i) := pi
  reject (p.name = "") (invalid ("project at index " ++ formatInt i ++ " missing name"))
  let seen ← preflightSlug importMode seen p
  let columns ← preflightColumns p
  let tiers ← preflightTiers p
  let sprints ← preflightSprints p
  p.todos.forM (preflightTodo p columns tiers sprints)
  p.links.forM (preflightLink p)
  p.tags.forM (preflightTag p)
  pure seen

/-! ## The projects that are there -/

/-- A condition on projects in a query; it may look at other tables of the database
that the query runs on. -/
abbrev Selector := DB → ProjectRow → Bool

/-- The projects that a user may export, replace and merge into. -/
def exportableProjectsSelector (ctx : Ctx) (db : DB) (mode : Mode) : Result Selector :=
  if mode = .anonymous then
    throw ⟨.internal, "anonymous mode selector should not be called directly"⟩
  else if authEnabled db then
    match ctx.userID with
    | none => throw ⟨.unauthorized, ""⟩
    | some userID => pure fun db p =>
        (p.expiresAt.isSome && p.creatorUserID == some userID) ||
        (p.expiresAt.isNone && db.members.any fun m =>
          m.projectID == p.id && m.userID == userID && m.role == .maintainer)
  else pure fun _ _ => true

/-- `SELECT id FROM projects WHERE slug = ? AND (selector)`. -/
def findProject (db : DB) (selected : Selector) (slug : String) : Option ProjectRow :=
  db.projects.find? fun p => p.slug == slug && selected db p

/-- The columns that todos outside of the backup would lose. -/
def strandedColumns (db : DB) (projectID : ℤ) (p : ProjectExport) : List String :=
  ((db.todos.filter fun t => t.projectID == projectID &&
      !(p.todos.map (·.localID)).contains t.localID).map fun t =>
        toLower (trimSpace t.columnKey)).filter fun key =>
    key != "" && !(validColumnKeysFromWorkflowExport p.workflowColumns).contains key

/-- The orphan check of one project. -/
def checkOrphans (db : DB) (selected : Selector) (p : ProjectExport) : Result Unit :=
  if p.slug = "" ∨ p.workflowColumns.length < 2 then pure ()
  else
    match findProject db selected p.slug with
    | none => pure ()
    | some row =>
        let stranded := strandedColumns db row.id p
        reject (stranded ≠ []) (invalid ("cannot replace workflow for project " ++ quote p.slug ++
          ": existing todos reference removed columns: " ++ join ", " (sortStrings stranded.dedup)))

/-- The maintainer check of one project; `verb` is the word of its error text. -/
def checkImportRight (verb : String) (ctx : Ctx) (db : DB) (p : ProjectExport) : Result Unit :=
  if p.slug = "" then pure ()
  else
    match db.projects.find? fun row => row.slug == p.slug && row.importBatchID == none with
    | none => pure ()
    | some row =>
        if row.expiresAt.isSome then pure ()
        else
          match ctx.userID with
          | none => throw ⟨.unauthorized, "cannot " ++ verb ++ " into project " ++ quote p.slug ++
              ": authentication required"⟩
          | some userID => do
              let ok ← userHasProjectRole db row.id userID .maintainer
              reject (ok = false) ⟨.unauthorized, "cannot " ++ verb ++ " into project " ++
                quote p.slug ++ ": maintainer role required"⟩

/-- The definitions that the custom fields of a backup are combined with. -/
def existingFields (db : DB) (selected : Option Selector) (p : ProjectExport) :
    List CustomField :=
  match selected with
  | none => []
  | some selected =>
      if p.slug = "" then []
      else
        match findProject db selected p.slug with
        | none => []
        | some row => listCustomFields db row.id

def validateImportCustomFieldsPreflight (rt : Runtime) (ctx : Ctx) (db : DB) (data : ExportData)
    (mode : Mode) (importMode : ImportMode) : Result Unit := do
  let matchExisting := importMode = .merge ∧ mode ≠ .anonymous
  let selected ← if matchExisting then some <$> exportableProjectsSelector ctx db mode
    else pure none
  data.projects.forM fun p =>
    if projectExportUsesCustomFields p then
      validateImportCustomFields rt p (existingFields db selected p)
    else pure ()

def importWorkCounts (data : ExportData) : ℕ × ℕ :=
  (data.projects.length, (data.projects.map fun p => p.todos.length).sum)

def rejectImportWorkLimit (rt : Runtime) (data : ExportData) : Result Unit := do
  let (projects, todos) := importWorkCounts data
  reject (rt.maxImportProjects < projects) (invalid ("import has " ++ formatInt projects ++
    " projects; maximum is " ++ formatInt rt.maxImportProjects))
  reject (rt.maxImportTodos < todos) (invalid ("import has " ++ formatInt todos ++
    " stories; maximum is " ++ formatInt rt.maxImportTodos))

def preflightOrphans (ctx : Ctx) (db : DB) (data : ExportData) (mode : Mode)
    (importMode : ImportMode) : Result Unit :=
  if importMode = .merge ∧ mode ≠ .anonymous then do
    let selected ← exportableProjectsSelector ctx db mode
    data.projects.forM (checkOrphans db selected)
  else pure ()

def preflightRights (ctx : Ctx) (db : DB) (data : ExportData) (mode : Mode)
    (importMode : ImportMode) : Result Unit :=
  if mode = .full ∧ (importMode = .replace ∨ importMode = .merge) then
    data.projects.forM (checkImportRight "import" ctx db)
  else pure ()

def validateImportPreflight (rt : Runtime) (ctx : Ctx) (db : DB) (data : ExportData) (mode : Mode)
    (importMode : ImportMode) : Result Unit :=
  if data.projects = [] then pure ()
  else do
    if mode = .anonymous then rejectImportWorkLimit rt data
    let _ ← data.projects.zipIdx.foldlM (preflightProject importMode) []
    preflightOrphans ctx db data mode importMode
    preflightRights ctx db data mode importMode
    validateImportCustomFieldsPreflight rt ctx db data mode importMode

end Scrumboy
