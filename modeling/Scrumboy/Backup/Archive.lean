import Scrumboy.Backup.Import
import Scrumboy.Store.Assets

/-!
# Importing an archive

An archive is a backup with images. The files of the images are written before the import
begins, each under a new name; the import inserts their rows, or reuses rows of the same bytes
that a project has, and then writes the stories with the new names in their bodies. The import
modes are those of a backup, and everything but the images is imported as from a backup.
-/

set_option linter.dupNamespace false

namespace Scrumboy

open Go Sql

/-! ## The format -/

/-- An image in the manifest of an archive. -/
structure AssetExport where
  id : String
  mimeType : AssetType
  sizeBytes : ℤ
  width : ℤ
  height : ℤ
  sha256 : String
  name : String := ""
  deriving DecidableEq, Repr

structure ArchiveProject where
  project : ProjectExport
  assets : List AssetExport := []
  deriving DecidableEq, Repr

structure ArchiveData where
  version : String := "1.3"
  scope : String := "full"
  projects : List ArchiveProject
  deriving DecidableEq, Repr

/-- The backup without its images. -/
def ArchiveData.backup (data : ArchiveData) : ExportData where
  version := data.version
  scope := data.scope
  projects := data.projects.map (·.project)

/-- An image whose file is written under the new name. -/
structure ImportStagedAsset where
  archiveID : String
  newUUID : String
  mimeType : AssetType
  sha256 : String
  name : String
  sizeBytes : ℤ
  width : ℤ
  height : ℤ
  deriving DecidableEq, Repr

/-- The budgets, and the two functions on the text of a story: which images it embeds, and the
text with other names for them. Both rest on a Markdown library. -/
structure ArchiveRules where
  budgets : AssetBudgets := {}
  extract : String → List String
  remap : String → (String → Option String) → Except String String

/-! ## The images of a project -/

/-- The images of one project under way: the tables, the new names that got a row, and the
name for each image of the archive. -/
structure ImageScan where
  store : AssetStore
  used : List String := []
  mapping : List (String × String) := []

def ImportStagedAsset.input (a : ImportStagedAsset) (projectID : ℤ) : CreateProjectAssetInput where
  uuid := a.newUUID
  projectID := projectID
  todoLocalID := none
  mimeType := a.mimeType
  sizeBytes := a.sizeBytes
  width := a.width
  height := a.height
  sha256 := a.sha256
  originalName := a.name

/-- The row of an image that no user uploaded. -/
def insertImportedAssetTx (s : AssetStore) (input : CreateProjectAssetInput) (nowMs : ℤ) :
    Result AssetStore := do
  let (_, a) ← insertProjectAssetTx s input 0 nowMs
  pure { s with assets := s.assets ++ [{ a with uploaderUserID := none }] }

/-- One round of the first loop of `applyImportAssetsTx`. -/
def applyStagedAsset (budgets : AssetBudgets) (projectID nowMs : ℤ) (s : ImageScan)
    (a : ImportStagedAsset) : Except AssetError ImageScan :=
  match findProjectAssetBySHATx s.store projectID a.sha256 with
  | some existing => pure { s with
      store := (refreshDedupedAssetTx s.store existing nowMs).1
      mapping := (a.archiveID, existing.uuid) :: s.mapping }
  | none => do
      checkAssetBudget budgets s.store projectID a.sizeBytes
      let store ← (insertImportedAssetTx s.store (a.input projectID) nowMs).mapError .store
      pure { store
             used := s.used ++ [a.newUUID]
             mapping := (a.archiveID, a.newUUID) :: s.mapping }

/-- The names in the text of a story are replaced. Every image of the manifest that the story
embeds must have a name. -/
def restoreTodo (rules : ArchiveRules) (inManifest : List String) (mapping : List (String × String))
    (t : TodoExport) : Result TodoExport :=
  match (rules.extract t.body).find? fun id => inManifest.contains id && (mapping.lookup id).isNone with
  | some id => throw (invalid ("story " ++ formatInt t.localID ++ " embeds image " ++ id ++
      ", which was not restored"))
  | none =>
      if mapping = [] then pure t
      else
        match rules.remap t.body fun id => mapping.lookup id with
        | .ok body => pure { t with body }
        | .error text => throw (invalid ("story " ++ formatInt t.localID ++
            " images could not be remapped: " ++ text))

/-- The images of one project of an archive and its stories with the new names. -/
def applyImportAssetsTx (rules : ArchiveRules) (s : AssetStore) (used : List String)
    (staged : List ImportStagedAsset) (projectID : ℤ) (p : ArchiveProject) (nowMs : ℤ) :
    Except AssetError (AssetStore × List String × List TodoExport) := do
  let images ← staged.foldlM (applyStagedAsset rules.budgets projectID nowMs) { store := s, used }
  let todos ← (p.project.todos.mapM (restoreTodo rules (p.assets.map (·.id)) images.mapping)).mapError .store
  pure (images.store, images.used, todos)

/-! ## The modes -/

/-- An import of an archive under way. -/
structure ArchiveTx where
  store : AssetStore
  result : ImportResult := {}
  used : List String := []

/-- One round of the loop over the stories of a project: what the mode does with it, and then
the rows of its images. The two write different tables. -/
def syncedTodo (rules : ArchiveRules) (ctx : Ctx) (projectID : ℤ)
    (step : TodoScan → TodoExport → Result TodoScan) (s : TodoScan × AssetStore) (t : TodoExport) :
    Result (TodoScan × AssetStore) := do
  let scan ← step s.1 t
  let store ← syncTodoAssetsTx rules.extract { s.2 with db := scan.db } projectID
    (scan.imported.todoIDs.getLastD 0) t.body ctx.nowMs
  pure (scan, store)

section

variable (rt : Runtime) (ctx : Ctx) (rules : ArchiveRules) (draws : ℕ → ProjectDraws)
  (plan : ℕ → List ImportStagedAsset)

/-- One project of a merge. -/
def mergeArchiveProject (selected : Selector) (s : ArchiveTx × List ℤ) (pi : ArchiveProject × ℕ) :
    Except AssetError (ArchiveTx × List ℤ) := do
  let (q, i) := pi
  let p := q.project
  reject (p.slug = "") (.store (invalid "project missing slug"))
  reject (p.name = "") (.store (invalid "project missing name"))
  let (tx, projectID) ← (mergeTarget rt ctx (draws i) selected ⟨s.1.store.db, s.1.result⟩ p).mapError .store
  let db ← (insertSprintsForImport ctx tx.db projectID p.sprints).mapError .store
  let (store, used, todos) ← applyImportAssetsTx rules { s.1.store with db } s.1.used (plan i) projectID q
    ctx.nowMs
  let (scan, store) ← (todos.foldlM (syncedTodo rules ctx projectID
    (mergeTodo rt ctx projectID (sprintIDByNumber db projectID p.sprints)))
    ({ db, result := tx.result }, store)).mapError .store
  let db ← (p.tags.foldlM (importTag rt ctx projectID) scan.db).mapError .store
  let tx ← (importContent rt ctx (draws i) (clearLinks db projectID) projectID p scan.imported true
    scan.result).mapError .store
  pure (⟨{ store with db := tx.db }, tx.result, used⟩, s.2 ++ [projectID])

/-- What an import reports: the result, the new names that got a row, and the files of the
projects that it replaced. -/
structure ImportReport where
  result : ImportResult
  used : List String
  removed : List AssetFileRef := []

def importArchiveMerge (s : AssetStore) (data : ArchiveData) :
    Except AssetError (AssetStore × ImportReport) := do
  let selected ← (exportableProjectsSelector ctx s.db .full).mapError .store
  (data.backup.projects.forM (checkImportRight "merge" ctx s.db)).mapError .store
  let (tx, projectIDs) ← data.projects.zipIdx.foldlM (mergeArchiveProject rt ctx rules draws plan selected)
    ({ store := s }, [])
  (projectIDs.forM (assertProjectPriorityIntegrity tx.store.db)).mapError .store
  pure (tx.store, { result := { tx.result with imported := data.projects.length }, used := tx.used })

/-- One project of a copy. -/
def copyArchiveProject (mode : Mode) (s : ArchiveTx) (pi : ArchiveProject × ℕ) :
    Except AssetError ArchiveTx := do
  let (q, i) := pi
  let p := q.project
  reject (p.slug = "") (.store (invalid "project missing slug"))
  reject (p.name = "") (.store (invalid "project missing name"))
  let slug ← (firstFreeSlug s.store.db mode (copySlugCandidates p (draws i))).mapError .store
  let (db, projectID) ← (createImportProject rt ctx s.store.db mode p slug).mapError .store
  let r := if slug = p.slug then s.result
    else s.result.warn ("Slug " ++ quote p.slug ++ " rewritten to " ++ quote slug)
  let db ← (insertSprintsForImport ctx db projectID p.sprints).mapError .store
  let (store, used, todos) ← applyImportAssetsTx rules { s.store with db } s.used (plan i) projectID q
    ctx.nowMs
  let (scan, store) ← (todos.foldlM (syncedTodo rules ctx projectID
    (copyTodo rt ctx projectID (sprintIDByNumber db projectID p.sprints)))
    ({ db, result := r }, store)).mapError .store
  let db ← (p.tags.foldlM (importTag rt ctx projectID) scan.db).mapError .store
  let tx ← (importContent rt ctx (draws i) db projectID p scan.imported false scan.result).mapError .store
  pure ⟨{ store with db := tx.db }, { tx.result with created := tx.result.created + 1 }, used⟩

def importArchiveCopy (s : AssetStore) (data : ArchiveData) (mode : Mode) :
    Except AssetError (AssetStore × ImportReport) := do
  let tx ← data.projects.zipIdx.foldlM (copyArchiveProject rt ctx rules draws plan mode) { store := s }
  pure (tx.store, { result := { tx.result with imported := data.projects.length }, used := tx.used })

/-- One project of a replace, in a transaction of its own. -/
def stageArchiveProject (mode : Mode) (batchID : String) (s : ArchiveTx) (pi : ArchiveProject × ℕ) :
    Except AssetError ArchiveTx := do
  let (q, i) := pi
  let p := q.project
  let (db, projectID) ← (insertProjectWithBatchID ctx s.store.db mode batchID p (draws i)).mapError .store
  let db ← (applyAgendaFlags rt db projectID p).mapError .store
  let db ← (importWorkflow db projectID p).mapError .store
  let db ← (replaceProjectPriorityTiersFromExport db projectID p).mapError .store
  let db ← (insertSprintsForImport ctx db projectID p.sprints).mapError .store
  let (store, used, todos) ← applyImportAssetsTx rules { s.store with db } s.used (plan i) projectID q
    ctx.nowMs
  (todos.forM (strictCheck db projectID)).mapError .store
  let (scan, store) ← (todos.foldlM (syncedTodo rules ctx projectID
    (bulkInsertTodo projectID (sprintIDByNumber db projectID p.sprints)))
    ({ db, result := s.result }, store)).mapError .store
  let (db, tagIDs) ← (bulkUpsertTags rt ctx scan.db projectID p.tags).mapError .store
  let db ← (bulkLinkTodoTags rt db (buildTodoTagMap p.todos scan.imported) tagIDs).mapError .store
  let tx ← (importContent rt ctx (draws i) db projectID p scan.imported false scan.result).mapError .store
  pure ⟨{ store with db := tx.db }, { tx.result with created := tx.result.created + 1 }, used⟩

end

/-- `DELETE FROM projects` with the images of the projects. A story references images of its own
project only, so no image is left that loses a reference. -/
def AssetStore.deleteProjects (s : AssetStore) (gone : ProjectRow → Bool) : AssetStore :=
  let projectGone := fun id : ℤ => s.db.projects.any fun p => p.id == id && gone p
  let todoGone := fun id : ℤ => s.db.todos.any fun t => t.id == id && projectGone t.projectID
  let assetGone := fun id : ℤ => s.assets.any fun a => a.id == id && projectGone a.projectID
  { db := Scrumboy.deleteProjects s.db gone
    assets := deleteWhere (fun a => projectGone a.projectID) s.assets
    todoAssets := deleteWhere (fun r => todoGone r.todoID || assetGone r.assetID) s.todoAssets }

/-- `listProjectAssetUUIDsTx` for the projects that are about to go. -/
def listProjectAssetUUIDs (s : AssetStore) (gone : ProjectRow → Bool) : List AssetFileRef :=
  (s.assets.filter fun a => s.db.projects.any fun p => p.id == a.projectID && gone p).map ProjectAsset.file

/-- The swap, and the files of the old projects. -/
def swapArchiveStaging (ctx : Ctx) (s : AssetStore) (mode : Mode) (batchID : String) :
    Result (AssetStore × List AssetFileRef) := do
  let selected ← exportableProjectsSelector ctx s.db mode
  let gone := fun p : ProjectRow => selected s.db p && p.importBatchID == none
  let db ← swapStaging ctx s.db mode batchID
  pure ({ s.deleteProjects gone with db }, listProjectAssetUUIDs s gone)

def cleanupArchiveStaging (s : AssetStore) (batchID : String) : AssetStore :=
  s.deleteProjects (·.importBatchID == some batchID)

/-! ## The entry -/

/-- Which transactions of an import fail for a reason outside of the database, such as a
request that is cancelled: that of the project with an index (a merge or a copy has one
transaction, that of index zero), the swap of a replace, and the deletion of what a failed
replace has staged. -/
structure ImportFaults where
  transaction : ℕ → Bool := fun _ => false
  swap : Bool := false
  cleanup : Bool := false

def databaseFailure : AssetError := .store ⟨.internal, "database failure"⟩

/-- A transaction: an error leaves the tables as they were. -/
def AssetStore.transact {α : Type} (s : AssetStore) (fault : Bool) :
    Except AssetError (AssetStore × α) → AssetStore × Except AssetError α
  | .ok (s', a) => if fault then (s, .error databaseFailure) else (s', .ok a)
  | .error e => (s, .error e)

/-- What an import of an archive is asked for, with the random numbers that it draws and the
images whose files are written. -/
structure ArchiveRequest where
  data : ArchiveData
  mode : Mode
  importMode : ImportMode
  batchID : String
  draws : ℕ → ProjectDraws
  plan : ℕ → List ImportStagedAsset

section

variable (rt : Runtime) (ctx : Ctx) (rules : ArchiveRules) (faults : ImportFaults)

/-- Phase A of a replace. The projects before the one that fails are committed. -/
def stageArchiveProjects (req : ArchiveRequest) :
    ArchiveTx → List (ArchiveProject × ℕ) → AssetStore × Except AssetError ArchiveTx
  | s, [] => (s.store, .ok s)
  | s, pi :: rest =>
      match stageArchiveProject rt ctx rules req.draws req.plan req.mode req.batchID s pi with
      | .error e => (s.store, .error e)
      | .ok s' =>
          if faults.transaction pi.2 then (s.store, .error databaseFailure)
          else stageArchiveProjects req s' rest

/-- The end of a replace that failed. -/
def failReplace {α : Type} (s : AssetStore) (batchID : String) (e : AssetError) :
    AssetStore × Except AssetError α :=
  (if faults.cleanup then s else cleanupArchiveStaging s batchID, .error e)

def importArchiveReplaceAll (s : AssetStore) (req : ArchiveRequest) :
    AssetStore × Except AssetError ImportReport :=
  match req.data.backup.projects.zipIdx.foldlM checkReplaceSlug [] with
  | .error e => (s, .error (.store e))
  | .ok _ =>
      match stageArchiveProjects rt ctx rules faults req { store := s } req.data.projects.zipIdx with
      | (staged, .error e) => failReplace faults staged req.batchID e
      | (staged, .ok tx) =>
          match swapArchiveStaging ctx staged req.mode req.batchID with
          | .error e => failReplace faults staged req.batchID (.store e)
          | .ok (store, removed) =>
              if faults.swap then failReplace faults staged req.batchID databaseFailure
              else (store, .ok ⟨tx.result, tx.used, removed⟩)

/-- The checks at the beginning of `importProjects`, for an archive. -/
def checkArchiveImport (req : ArchiveRequest) : Result Unit := do
  reject (req.data.version ≠ "1.3")
    (invalid ("unsupported archive export version " ++ quote req.data.version ++ " (expected 1.3)"))
  req.data.backup.projects.forM (validateBackupProject ctx req.data.version)
  reject (req.data.scope = "full" ∧ req.mode = .anonymous)
    (invalid "cannot import full scope into anonymous mode")
  reject (req.importMode = .replace ∧ req.mode = .anonymous)
    (invalid "Replace All is forbidden in anonymous mode")

/-- The tables after an import of an archive, and its report. -/
def importProjectsWithAssets (s : AssetStore) (req : ArchiveRequest) :
    AssetStore × Except AssetError ImportReport :=
  match checkArchiveImport ctx req with
  | .error e => (s, .error (.store e))
  | .ok _ =>
      match validateImportPreflight rt ctx s.db req.data.backup req.mode req.importMode with
      | .error e => (s, .error (.store e))
      | .ok _ =>
          match req.importMode with
          | .replace => importArchiveReplaceAll rt ctx rules faults s req
          | .merge =>
              s.transact (faults.transaction 0) (if req.mode = .anonymous then
                importArchiveCopy rt ctx rules req.draws req.plan s req.data req.mode
              else importArchiveMerge rt ctx rules req.draws req.plan s req.data)
          | .copy =>
              s.transact (faults.transaction 0)
                (importArchiveCopy rt ctx rules req.draws req.plan s req.data req.mode)
          | .other name => (s, .error (.store (invalid ("invalid import mode " ++ quote name))))

end

end Scrumboy
