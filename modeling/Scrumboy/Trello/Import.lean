import Scrumboy.Trello.Transform
import Scrumboy.Backup.Import

/-!
# Import of a Trello board

A new project with the columns of the backup, the default priorities and the stories.
-/

namespace Scrumboy

open Go Sql

/-- The slugs that are tried for a durable project. -/
def trelloSlugCandidates (name : String) : List String :=
  let baseSlug := match generateSlugFromName name with
    | .ok slug => slug
    | .error _ => "trello-board"
  baseSlug :: (List.range' 2 99).map fun i =>
    let suffix := "-" ++ formatInt i
    let base :=
      if maxSlugLen - byteLen suffix < byteLen baseSlug then
        trimRightChar '-' (takeBytes (maxSlugLen - byteLen suffix) baseSlug)
      else baseSlug
    (if base = "" then "trello-board" else base) ++ suffix

/-- `INSERT INTO projects`, unless a visible project has the slug. -/
def visibleSlugTaken (db : DB) (slug : String) : Bool :=
  db.projects.any fun p => p.importBatchID.isNone && p.slug == slug

def insertTrelloDurableProjectRow (ctx : Ctx) (db : DB) (name : String) (p : ProjectExport) :
    Result (DB × ℤ) := do
  let owner ← projectOwner ctx db
  let color := trimSpace p.dominantColor
  match (trelloSlugCandidates name).find? fun slug =>
      !isReservedProjectSlug slug && !visibleSlugTaken db slug with
  | none => throw ⟨.conflict, "could not generate unique slug after 100 attempts"⟩
  | some slug =>
      let (db, projectID) := appendProject db { defaultProjectRow ctx.nowMs with
        name := name
        image := some "/scrumboy.png"
        dominantColor := if color = "" then "#888888" else color
        slug := slug
        ownerUserID := owner }
      pure (insertOwner db projectID ctx.nowMs owner, projectID)

/-- A temporary board, whose slug is the first of the drawn ones that is free. -/
def insertTrelloTemporaryProjectRow (ctx : Ctx) (draws : List String) (db : DB) (name : String) :
    Result (DB × ℤ) :=
  match (draws.take 100).find? fun slug => !visibleSlugTaken db slug with
  | none => throw ⟨.conflict, "could not generate temporary board slug after 100 attempts"⟩
  | some slug => pure (appendProject db { defaultProjectRow ctx.nowMs with
      name := name
      image := some "/scrumboy.png"
      slug := slug
      creatorUserID := ctx.userID
      expiresAt := some (temporaryBoardExpiresAtMs ctx.nowMs) })

def insertTrelloProjectRow (ctx : Ctx) (draws : List String) (db : DB) (p : ProjectExport) (mode : Mode) :
    Result (DB × ℤ) := do
  let name := trimSpace p.name
  reject (name = "") ⟨.validation, "invalid project name"⟩
  if mode = .anonymous then insertTrelloTemporaryProjectRow ctx draws db name
  else insertTrelloDurableProjectRow ctx db name p

/-- One story. It has no assignee, no sprint, no priority and no due date. -/
def importTrelloTodo (rt : Runtime) (ctx : Ctx) (projectID : ℤ) (db : DB) (t : TodoExport) : Result DB := do
  validateEstimationPoints t.estimationPoints
  let (columnKey, warned) := resolveImportColumnKey db projectID t.status
  reject (warned = true)
    ⟨.validation, "todo " ++ quote t.title ++ " resolved to an unknown workflow column"⟩
  let row := importRow db projectID t.localID columnKey t.rank none t
  let (db, u) ← insertTodo db { row with assigneeUserID := none, priorityKey := none, dueAt := none }
    ⟨.internal, "insert Trello todo " ++ quote t.title ++ ": UNIQUE constraint failed"⟩
  importTodoTags rt ctx db projectID u.id t.tags

def importTrelloProject (rt : Runtime) (ctx : Ctx) (draws : List String) (db : DB) (data : ExportData)
    (metadataLocalIDs : List ℤ) (mode : Mode) : Result (DB × ℤ) :=
  match data.projects with
  | [p] => do
      validateBackupData ctx data
      validateImportPreflight rt ctx db data mode .copy
      let (db, projectID) ← insertTrelloProjectRow ctx draws db p mode
      let db ← if 2 ≤ p.workflowColumns.length then
          insertWorkflowColumns db projectID (workflowColumnsFromExport p.workflowColumns)
        else ensureDefaultWorkflowColumns db projectID
      let db ← p.todos.foldlM (importTrelloTodo rt ctx projectID) (ensureDefaultPriorityTiers db projectID)
      reject (∃ id ∈ metadataLocalIDs, id ∉ p.todos.map (·.localID))
        ⟨.internal, "Trello todo metadata does not match any imported todo"⟩
      let db ← p.tags.foldlM (importTag rt ctx projectID) db
      pure (db, projectID)
  | _ => throw ⟨.validation, "Trello import requires exactly one project payload"⟩

end Scrumboy
