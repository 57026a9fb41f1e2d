import Scrumboy.Application.AssetUploads
import Scrumboy.Backup.ArchiveImages
import Scrumboy.Store.Placement

/-!
# Files of an imported archive

`ImportArchive` writes the files of the images that stories embed, each under a new name, then
imports the archive into the database, and then removes the files that did not get a row and
those of the projects that were replaced. What the machine does is an input: how far each step
comes, and which files can be removed. While the operator holds removals, none can.
-/

set_option linter.dupNamespace false

namespace Scrumboy

open Go Sql

inductive ArchiveError
  | store (err : AssetError)
  | invalidArchive (text : String)
  | invalidAsset
  | fileExists
  | failed
  deriving DecidableEq, Repr

/-! ## The images that are needed -/

def assetSHAExists (s : AssetStore) (sha : String) : Bool := s.assets.any (·.sha256 == sha)

/-- The images of a project that a story embeds. -/
def ArchiveProject.embeds (rules : ArchiveRules) (q : ArchiveProject) (t : TodoExport) : List String :=
  (rules.extract t.body).filter (q.assets.map (·.id)).contains

/-- A dry run over the text of a story, with names that are not used again. -/
def checkStoryImages (rules : ArchiveRules) (dryName : TodoExport → String → String) (q : ArchiveProject)
    (t : TodoExport) : Except ArchiveError Unit :=
  if q.embeds rules t = [] then pure ()
  else
    match rules.remap t.body fun id => if id ∈ q.embeds rules t then some (dryName t id) else none with
    | .ok _ => pure ()
    | .error text => throw (.invalidArchive ("story " ++ formatInt t.localID ++ " in project " ++
        quote q.project.name ++ ": images cannot be restored: " ++ text))

/-- The images of a project that some story embeds, and a warning for each other one. -/
def neededOfProject (rules : ArchiveRules) (dryName : TodoExport → String → String) (q : ArchiveProject) :
    Except ArchiveError (List AssetExport × List String) := do
  q.project.todos.forM (checkStoryImages rules dryName q)
  let used := fun a : AssetExport => q.project.todos.any fun t => (q.embeds rules t).contains a.id
  pure (q.assets.filter used, (q.assets.filter (!used ·)).map fun a => "Image " ++ a.id ++ " in project " ++
    quote q.project.name ++ " is not embedded by any story and was skipped")

def neededAssets (rules : ArchiveRules) (dryName : TodoExport → String → String) (data : ArchiveData) :
    Except ArchiveError (List (List AssetExport) × List String) := do
  let needed ← data.projects.mapM (neededOfProject rules dryName)
  pure (needed.map (·.1), (needed.map (·.2)).flatten)

/-- The bytes that a project may add: those of images whose bytes are not stored yet. -/
def importBytes (s : AssetStore) (images : List AssetExport) : ℤ :=
  ((images.filter fun a => !assetSHAExists s a.sha256).map (·.sizeBytes)).sum

def checkImportAssetBudget (b : AssetBudgets) (s : AssetStore) (perProject : List ℤ) :
    Except AssetError Unit := do
  perProject.forM fun n => reject (0 < b.projectBytes ∧ b.projectBytes < n) (.budget "project" b.projectBytes 0)
  let used := (assetUsage s 0).2
  reject (0 < b.instanceBytes ∧ b.instanceBytes < used + perProject.sum) (.budget "instance" b.instanceBytes used)

/-! ## What the machine does -/

/-- How far the writing of a file comes. -/
inductive WriteOutcome
  | refused
  | broken
  | written
  deriving DecidableEq, Repr

/-- What happens to one image: the result of reading and checking it, the name that is drawn for
it, and the writing of its file. -/
structure ImageEnv where
  checked : Except ArchiveError CheckedImage
  newID : Except ArchiveError String
  write : WriteOutcome := .written

/-- What happens in an import: the archive that is opened, whether the queries before the first
file succeed, the order in which the projects with images are visited, the images by project and
by name in the archive, the transactions of the import and the query after it, and which files
can be removed. -/
structure ArchiveEnv where
  opened : Except ArchiveError ArchiveData
  queriesFail : Bool := false
  dryName : TodoExport → String → String
  visit : List ℕ
  image : ℕ → String → ImageEnv
  faults : ImportFaults := {}
  existFails : Bool := false
  removable : AssetFileRef → Bool

/-- The database and the files. -/
structure ArchiveHost where
  store : AssetStore
  blobs : List AssetFileRef := []
  deriving DecidableEq, Repr

/-! ## Files -/

/-- `CreateExclusive`. A file that is not complete is removed again, if it can be. -/
def createExclusive (removable : AssetFileRef → Bool) (blobs : List AssetFileRef) (file : AssetFileRef)
    (write : WriteOutcome) : List AssetFileRef × Except ArchiveError Unit :=
  if isCanonicalUUID file.1 = false then (blobs, .error .invalidAsset)
  else if file ∈ blobs then (blobs, .error .fileExists)
  else
    match write with
    | .refused => (blobs, .error .failed)
    | .broken => (if removable file then blobs else file :: blobs, .error .failed)
    | .written => (file :: blobs, .ok ())

/-- The files that are written so far, and the images that they are for. -/
structure Staging where
  blobs : List AssetFileRef
  staged : List AssetFileRef := []
  plan : List (ℕ × ImportStagedAsset) := []

/-- The files of the staging are removed, but for those under the names to keep. -/
def Staging.cleanupStaged (st : Staging) (removable : AssetFileRef → Bool) (keep : List String) :
    List AssetFileRef :=
  deleteWhere (fun f => st.staged.contains f && !keep.contains f.1 && removable f) st.blobs

def removeFiles (removable : AssetFileRef → Bool) (refs blobs : List AssetFileRef) : List AssetFileRef :=
  deleteWhere (fun f => refs.contains f && removable f) blobs

/-- The image is as the manifest says, and it has a new name. -/
def ImageEnv.accept (e : ImageEnv) (a : AssetExport) : Except ArchiveError (CheckedImage × String) := do
  let res ← e.checked
  reject (res.sha256 ≠ a.sha256 ∨ res.type ≠ a.mimeType)
    (.invalidArchive ("image " ++ a.id ++ " does not match its manifest"))
  let newID ← e.newID
  pure (res, newID)

def CheckedImage.staged (res : CheckedImage) (a : AssetExport) (newID : String) : ImportStagedAsset where
  archiveID := a.id
  newUUID := newID
  mimeType := res.type
  sha256 := res.sha256
  name := a.name
  sizeBytes := res.sizeBytes
  width := res.width
  height := res.height

/-- One round of the loop over the images. -/
def stageImage (env : ArchiveEnv) (st : Staging) (x : ℕ × AssetExport) : Staging × Except ArchiveError Unit :=
  let e := env.image x.1 x.2.id
  match e.accept x.2 with
  | .error err => (st, .error err)
  | .ok (res, newID) =>
      match createExclusive env.removable st.blobs (newID, res.type) e.write with
      | (blobs, .error err) => ({ st with blobs }, .error err)
      | (blobs, .ok ()) =>
          ({ blobs
             staged := st.staged ++ [(newID, res.type)]
             plan := st.plan ++ [(x.1, res.staged x.2 newID)] }, .ok ())

def stageImages (env : ArchiveEnv) : Staging → List (ℕ × AssetExport) → Staging × Except ArchiveError Unit
  | st, [] => (st, .ok ())
  | st, x :: rest =>
      match stageImage env st x with
      | (st, .error err) => (st, .error err)
      | (st, .ok ()) => stageImages env st rest

def Staging.planOf (st : Staging) (i : ℕ) : List ImportStagedAsset :=
  (st.plan.filter (·.1 == i)).map (·.2)

/-! ## The import -/

/-- What an import of an archive is asked for, and the random numbers of the database part. -/
structure ArchiveImportRequest where
  mode : Mode
  importMode : ImportMode
  batchID : String
  draws : ℕ → ProjectDraws

section

variable (rt : Runtime) (ctx : Ctx) (rules : ArchiveRules) (env : ArchiveEnv)

def ArchiveImportRequest.with (req : ArchiveImportRequest) (data : ArchiveData)
    (plan : ℕ → List ImportStagedAsset) : ArchiveRequest where
  data := data
  mode := req.mode
  importMode := req.importMode
  batchID := req.batchID
  draws := req.draws
  plan := plan

/-- `PreflightImport` of an archive. -/
def preflightArchive (s : AssetStore) (data : ArchiveData) (req : ArchiveImportRequest) : Result Unit := do
  checkArchiveImport ctx (req.with data fun _ => [])
  match req.importMode with
  | .other name => throw (invalid ("invalid import mode " ++ quote name))
  | _ => validateImportPreflight rt ctx s.db data.backup req.mode req.importMode

/-- What is done before the first file is written: the archive, its images in the order of the
loop, and the warnings. -/
def prepareArchive (s : AssetStore) (req : ArchiveImportRequest) :
    Except ArchiveError (ArchiveData × List (ℕ × AssetExport) × List String) := do
  let data ← env.opened
  (preflightArchive rt ctx s data req).mapError fun err => .store (.store err)
  let (needed, warnings) ← neededAssets rules env.dryName data
  (checkImportAssetBudget rules.budgets s (needed.map (importBytes s))).mapError .store
  reject (env.queriesFail = true) .failed
  pure (data, env.visit.flatMap fun i => (needed[i]?.getD []).map (i, ·), warnings)

/-- The files that are left after the import of the rows failed. -/
def filesAfterFailure (st : Staging) (store : AssetStore) : List AssetFileRef :=
  if env.existFails then st.blobs
  else st.cleanupStaged env.removable (existingAssetUUIDs store (st.staged.map (·.1)))

def filesAfterImport (st : Staging) (report : ImportReport) : List AssetFileRef :=
  removeFiles env.removable report.removed (st.cleanupStaged env.removable report.used)

def importArchive (s : ArchiveHost) (req : ArchiveImportRequest) :
    ArchiveHost × Except ArchiveError ImportResult :=
  match prepareArchive rt ctx rules env s.store req with
  | .error err => (s, .error err)
  | .ok (data, images, warnings) =>
      match stageImages env { blobs := s.blobs } images with
      | (st, .error err) => ({ s with blobs := st.cleanupStaged env.removable [] }, .error err)
      | (st, .ok ()) =>
          match importProjectsWithAssets rt ctx rules env.faults s.store (req.with data st.planOf) with
          | (store, .error err) => (⟨store, filesAfterFailure env st store⟩, .error (.store err))
          | (store, .ok report) =>
              (⟨store, filesAfterImport env st report⟩,
                .ok { report.result with warnings := report.result.warnings ++ warnings })

end

end Scrumboy
