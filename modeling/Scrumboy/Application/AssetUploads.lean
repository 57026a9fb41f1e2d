import Scrumboy.Store.Assets
import Scrumboy.Transition.Pool

/-!
# Uploads, the collector and the sweep

The files of images lie beside the database, with no transaction over both. An upload looks
for an image of the same bytes, writes its file under a new name and inserts the row. The
janitor deletes rows that nothing references and then their files, and it sweeps files that
have no row; it does one of these at a time. The uploads and the janitor take their steps
in any order; each transaction and each operation on a file is one step.

The names of files are random. `newRandom n` is the name that is drawn as number `n`.
-/

set_option linter.dupNamespace false

namespace Scrumboy

open Go Sql Transition

/-- An image that passed the checks. -/
structure CheckedImage where
  type : AssetType
  sizeBytes : ℤ
  width : ℤ
  height : ℤ
  sha256 : String
  deriving DecidableEq, Repr

structure UploadRequest where
  userID : Option ℤ
  projectID : ℤ
  todoLocalID : Option ℤ
  originalName : String
  image : CheckedImage
  deriving DecidableEq, Repr

inductive UploadError
  | asset (err : AssetError)
  | invalidAsset
  | fileExists
  | failed
  deriving DecidableEq, Repr

abbrev UploadResult := Except UploadError (ProjectAsset × Bool)

/-- Where an upload stands. From `create` on it has a name, which it holds until `done`. -/
inductive UploadPC
  | lookup
  | reuse (existing : ProjectAsset)
  | budget
  | draw
  | create (uuid : String)
  | write (uuid : String)
  | insert (uuid : String)
  | cleanup (uuid : String) (result : UploadResult)
  | release (uuid : String) (result : UploadResult)
  | done (result : UploadResult)
  deriving DecidableEq, Repr

/-- The image that the upload found. -/
def UploadPC.found : UploadPC → Option ProjectAsset
  | .reuse existing => some existing
  | _ => none

structure Upload where
  request : UploadRequest
  pc : UploadPC := .lookup
  deriving DecidableEq, Repr

/-- Where the janitor stands. -/
inductive JanitorPC
  | idle
  | reconciling
  | collecting
  | removing (refs : List AssetFileRef) (again : Bool)
  | walking (batch : List AssetFileRef)
  | looking (file : AssetFileRef) (batch : List AssetFileRef)
  | flushing (rest batch : List AssetFileRef) (existing : List String) (last : Bool)
  | unlinking (file : AssetFileRef) (rest batch : List AssetFileRef) (existing : List String) (last : Bool)
  deriving DecidableEq, Repr

/-- What uploads and the janitor share: the database, the files, the names that are held,
and how many names have been drawn. -/
structure AssetShared where
  store : AssetStore
  blobs : List AssetFileRef := []
  pending : List String := []
  drawn : ℕ := 0
  janitor : JanitorPC := .idle
  reconcileCursor : ℤ := 0
  reconciled : Bool := false
  deriving DecidableEq, Repr

/-- The configuration: the budgets, the parser of bodies, and the names that are drawn. -/
structure AssetConfig where
  budgets : AssetBudgets := {}
  extract : String → List String
  newRandom : ℕ → String

/-! ## Steps of an upload -/

namespace AssetShared

/-- `CreateExclusive` opens its file. -/
def openExclusive (s : AssetShared) (file : AssetFileRef) : Except UploadError AssetShared := do
  reject (isCanonicalUUID file.1 = false) .invalidAsset
  reject (file ∈ s.blobs) .fileExists
  pure { s with blobs := file :: s.blobs }

def removeFile (s : AssetShared) (file : AssetFileRef) : AssetShared :=
  { s with blobs := deleteWhere (· == file) s.blobs }

end AssetShared

def Upload.input (u : Upload) (uuid : String) : CreateProjectAssetInput where
  uuid := uuid
  projectID := u.request.projectID
  todoLocalID := u.request.todoLocalID
  mimeType := u.request.image.type
  sizeBytes := u.request.image.sizeBytes
  width := u.request.image.width
  height := u.request.image.height
  sha256 := u.request.image.sha256
  originalName := u.request.originalName

/-- The row of an image that was found is asked for with the columns of that row. -/
def Upload.reuseInput (u : Upload) (existing : ProjectAsset) : CreateProjectAssetInput where
  uuid := existing.uuid
  projectID := u.request.projectID
  todoLocalID := u.request.todoLocalID
  mimeType := existing.mimeType
  sizeBytes := existing.sizeBytes
  width := existing.width
  height := existing.height
  sha256 := existing.sha256
  originalName := u.request.originalName

/-- What the machine gives to a step of an upload: the clock, and whether the database or the
file system did what it was asked for. -/
structure UploadEnv where
  nowMs : ℤ
  ok : Bool := true
  deriving DecidableEq, Repr

/-- Where an upload goes on when its step failed. The lock of a name cannot fail. -/
def UploadPC.afterFailure : UploadPC → UploadPC
  | .lookup | .reuse _ | .budget | .draw => .done (.error .failed)
  | .create uuid => .release uuid (.error .failed)
  | .write uuid | .insert uuid => .cleanup uuid (.error .failed)
  | .cleanup uuid result => .release uuid result
  | .release uuid result => .release uuid result
  | .done result => .done result

def uploadProceed (cfg : AssetConfig) (s : AssetShared) (u : Upload) (nowMs : ℤ) : AssetShared × UploadPC :=
  let file := fun uuid : String => (uuid, u.request.image.type)
  let create := createProjectAsset cfg.budgets ⟨u.request.userID, nowMs⟩ s.store
  match u.pc with
  | .lookup =>
      match findProjectAssetBySHATx s.store u.request.projectID u.request.image.sha256 with
      | some existing => (s, .reuse existing)
      | none => (s, .budget)
  | .reuse existing =>
      match create (u.reuseInput existing) with
      | .ok (store, a, _) => ({ s with store }, .done (.ok (a, true)))
      | .error e => (s, .done (.error (.asset e)))
  | .budget =>
      match checkAssetBudget cfg.budgets s.store u.request.projectID u.request.image.sizeBytes with
      | .ok () => (s, .draw)
      | .error e => (s, .done (.error (.asset e)))
  | .draw =>
      ({ s with drawn := s.drawn + 1, pending := cfg.newRandom s.drawn :: s.pending },
        .create (cfg.newRandom s.drawn))
  | .create uuid =>
      match s.openExclusive (file uuid) with
      | .ok s => (s, .write uuid)
      | .error e => (s, .release uuid (.error e))
  | .write uuid => (s, .insert uuid)
  | .insert uuid =>
      match create (u.input uuid) with
      | .ok (store, a, false) => ({ s with store }, .release uuid (.ok (a, false)))
      | .ok (store, a, true) => ({ s with store }, .cleanup uuid (.ok (a, true)))
      | .error e => (s, .cleanup uuid (.error (.asset e)))
  | .cleanup uuid result => (s.removeFile (file uuid), .release uuid result)
  | .release uuid result => ({ s with pending := s.pending.erase uuid }, .done result)
  | .done result => (s, .done result)

def uploadStep (cfg : AssetConfig) (s : AssetShared) (u : Upload) (env : UploadEnv) : AssetShared × Upload :=
  if env.ok then
    ((uploadProceed cfg s u env.nowMs).1, { u with pc := (uploadProceed cfg s u env.nowMs).2 })
  else (s, { u with pc := u.pc.afterFailure })

/-! ## Steps of the janitor -/

def draftRetention : ℤ := 7 * 24 * 60 * 60 * 1000

inductive Removal
  | removed
  | held
  | failed
  deriving DecidableEq, Repr

/-- What the janitor does next. `visit` is the next file of the walk, and `look` tells
whether it is old enough; `stop` is the end of its work, for an error or for the time. -/
inductive JanitorAct
  | startReconcile
  | reconcile (nowMs : ℤ)
  | startGC
  | collect (nowMs : ℤ)
  | remove (outcome : Removal)
  | startSweep
  | visit (file : AssetFileRef)
  | look (old : Bool)
  | flush (last : Bool)
  | unlink (outcome : Removal)
  | stop
  deriving DecidableEq, Repr

/-- One transaction of the reconciliation. -/
def AssetShared.reconcileBatch (cfg : AssetConfig) (s : AssetShared) (nowMs : ℤ) : AssetShared :=
  match reconcileTodoAssets cfg.extract s.store s.reconcileCursor 200 nowMs with
  | .ok (store, cursor, _, finished) =>
      { s with
        store
        reconcileCursor := cursor
        reconciled := s.reconciled || finished
        janitor := if finished then .idle else .reconciling }
  | .error _ => { s with janitor := .idle }

/-- The transaction of the collection, whose files are removed next. -/
def AssetShared.collectBatch (cfg : AssetConfig) (s : AssetShared) (nowMs : ℤ) : AssetShared :=
  match collectGarbageAssets cfg.extract s.store nowMs { retention := draftRetention } with
  | .ok (store, result) =>
      { s with store, janitor := .removing result.deleted (decide (200 ≤ result.considered)) }
  | .error _ => { s with janitor := .idle }

/-- The next file of a batch is passed over if it has a row or is held. After the last one
the batch is empty again. -/
def AssetShared.checkNext (s : AssetShared) (rest batch : List AssetFileRef) (existing : List String)
    (last : Bool) : JanitorPC :=
  match rest with
  | [] => if last then .idle else .walking []
  | file :: rest =>
      if file.1 ∈ existing ∨ file.1 ∈ s.pending then .flushing rest batch existing last
      else .unlinking file rest batch existing last

/-- A file of the batch is removed. While removals are held the walk goes on with the batch
as it is. -/
def AssetShared.sweepFile (s : AssetShared) (file : AssetFileRef) (rest batch : List AssetFileRef)
    (existing : List String) (last : Bool) : Removal → AssetShared
  | .removed => { s.removeFile file with janitor := .flushing rest batch existing last }
  | .held => { s with janitor := if last then .idle else .walking batch }
  | .failed => { s with janitor := .flushing rest batch existing last }

def janitorStep (cfg : AssetConfig) (s : AssetShared) (act : JanitorAct) : AssetShared :=
  match s.janitor, act with
  | .idle, .startReconcile => if s.reconciled then s else { s with janitor := .reconciling }
  | .reconciling, .reconcile nowMs => s.reconcileBatch cfg nowMs
  | .idle, .startGC => if s.reconciled then { s with janitor := .collecting } else s
  | .collecting, .collect nowMs => s.collectBatch cfg nowMs
  | .removing (file :: refs) again, .remove .removed =>
      { s.removeFile file with janitor := .removing refs again }
  | .removing (_ :: refs) again, .remove _ => { s with janitor := .removing refs again }
  | .removing [] again, .remove _ => { s with janitor := if again then .collecting else .idle }
  | .idle, .startSweep => { s with janitor := .walking [] }
  | .walking batch, .visit file => if file ∈ s.blobs then { s with janitor := .looking file batch } else s
  | .looking file batch, .look old =>
      if old = true ∧ file.1 ∉ s.pending then { s with janitor := .walking (batch ++ [file]) }
      else { s with janitor := .walking batch }
  | .walking batch, .flush last =>
      { s with janitor := .flushing batch batch (existingAssetUUIDs s.store (batch.map (·.1))) last }
  | .flushing rest batch existing last, .flush _ =>
      { s with janitor := s.checkNext rest batch existing last }
  | .unlinking file rest batch existing last, .unlink outcome =>
      s.sweepFile file rest batch existing last outcome
  | .reconciling, .stop | .collecting, .stop | .walking _, .stop => { s with janitor := .idle }
  | _, _ => s

/-! ## The system -/

/-- A step of an upload or of the janitor, any other writing of the database with the
references of a story, or a restart of the process. -/
inductive AssetAct
  | upload (i : ℕ) (env : UploadEnv)
  | janitor (act : JanitorAct)
  | edit (db : DB) (projectID todoID : ℤ) (body : String) (nowMs : ℤ)
  | restart
  deriving DecidableEq, Repr

abbrev AssetSystem := Pool AssetShared Upload

def AssetShared.edit (cfg : AssetConfig) (s : AssetShared) (db : DB) (projectID todoID : ℤ) (body : String)
    (nowMs : ℤ) : AssetShared :=
  match syncTodoAssetsTx cfg.extract { s.store with db } projectID todoID body nowMs with
  | .ok store => { s with store }
  | .error _ => s

/-- The database and the files outlive the process. -/
def AssetShared.restart (s : AssetShared) : AssetShared where
  store := s.store
  blobs := s.blobs
  drawn := s.drawn

/-- The uploads under way end; the others may begin with the new process. -/
def Upload.restart (u : Upload) : Upload where
  request := u.request
  pc := match u.pc with
    | .lookup => .lookup
    | .done result => .done result
    | _ => .done (.error .failed)

def assetStep (cfg : AssetConfig) (s : AssetSystem) : AssetAct → AssetSystem
  | .upload i env => s.step (uploadStep cfg) (i, env)
  | .janitor act => { s with shared := janitorStep cfg s.shared act }
  | .edit db projectID todoID body nowMs =>
      { s with shared := s.shared.edit cfg db projectID todoID body nowMs }
  | .restart => ⟨s.shared.restart, s.procs.map Upload.restart⟩

/-- A database without images, no files, and the uploads that will come. -/
def AssetSystem.start (db : DB) (requests : List UploadRequest) : AssetSystem :=
  ⟨{ store := { db } }, requests.map fun request => { request }⟩

/-- If the upload that takes its step has found an image of the same bytes before, then there
still is one. -/
def StillStored (s : AssetSystem) : AssetAct → Prop
  | .upload i _ => ∀ u ∈ s.procs[i]?, ∀ existing ∈ u.pc.found,
      (findProjectAssetBySHATx s.shared.store u.request.projectID existing.sha256).isSome = true
  | _ => True

instance StillStored.decidable (s : AssetSystem) : ∀ act, Decidable (StillStored s act)
  | .upload i _ => inferInstanceAs (Decidable (∀ u ∈ s.procs[i]?, ∀ existing ∈ u.pc.found,
      (findProjectAssetBySHATx s.shared.store u.request.projectID existing.sha256).isSome = true))
  | .janitor _ | .edit _ _ _ _ _ | .restart => .isTrue trivial

end Scrumboy
