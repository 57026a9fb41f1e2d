import Scrumboy.Store.Updates

/-!
# Images of stories

The rows of images that belong to a project, and the table that says which stories embed
them. The second table is derived from the bodies of the stories: `syncTodoAssetsTx` brings
the rows of one story in line with its body, and triggers keep `unreferenced_at`. The parser
that finds the images in a body is a parameter, `extract`; it is built on a library.
-/

set_option linter.dupNamespace false

namespace Scrumboy

open Go Sql

/-- The types of images, by the extension of the file. -/
inductive AssetType
  | png
  | jpg
  | gif
  deriving DecidableEq, Repr

structure ProjectAsset where
  id : ℤ
  uuid : String
  projectID : ℤ
  uploaderUserID : Option ℤ
  mimeType : AssetType
  sizeBytes : ℤ
  width : ℤ
  height : ℤ
  sha256 : String
  originalName : String
  createdAt : ℤ
  unreferencedAt : Option ℤ
  deriving DecidableEq, Repr

structure TodoAssetRow where
  todoID : ℤ
  assetID : ℤ
  createdAt : ℤ
  deriving DecidableEq, Repr

/-- The database with the tables of images. -/
structure AssetStore where
  db : DB := {}
  assets : List ProjectAsset := []
  todoAssets : List TodoAssetRow := []
  deriving DecidableEq, Repr

/-- The name of a file of an image. -/
abbrev AssetFileRef := String × AssetType

instance : LawfulBEq AssetFileRef := inferInstance

def ProjectAsset.file (a : ProjectAsset) : AssetFileRef := (a.uuid, a.mimeType)

inductive AssetError
  | store (err : StoreError)
  | budget (scope : String) (limitBytes usedBytes : ℤ)
  deriving DecidableEq, Repr

def canonicalPathPrefix : String := "/api/assets/"

def isLowerHex (c : Char) : Bool := ('0' ≤ c && c ≤ '9') || ('a' ≤ c && c ≤ 'f')

/-- A UUID of version 4 in lower case. -/
def isCanonicalUUID (s : String) : Bool :=
  s.toList.length == 36 && s.toList.zipIdx.all fun (c, i) =>
    if i = 8 ∨ i = 13 ∨ i = 18 ∨ i = 23 then c == '-'
    else isLowerHex c && (i != 14 || c == '4') && (i != 19 || c ∈ ['8', '9', 'a', 'b'])

/-! ## References -/

/-- A row of `todo_assets` is inserted, unless it is there. The triggers refuse an image of
another project, and note that the image is referenced. -/
def insertTodoAsset (s : AssetStore) (row : TodoAssetRow) : Result AssetStore := do
  reject ((s.db.todos.find? (·.id == row.todoID)).map (·.projectID) ≠
    (s.assets.find? (·.id == row.assetID)).map (·.projectID))
    ⟨.internal, "todo_assets cross-project reference"⟩
  if s.todoAssets.any fun r => r.todoID == row.todoID && r.assetID == row.assetID then pure s
  else pure { s with
    todoAssets := s.todoAssets ++ [row]
    assets := updateWhere (·.id == row.assetID) (fun a => { a with unreferencedAt := none }) s.assets }

/-- Rows of `todo_assets` are deleted. The trigger notes the time for an image whose last
reference goes. -/
def deleteTodoAssets (s : AssetStore) (nowMs : ℤ) (p : TodoAssetRow → Bool) : AssetStore :=
  let kept := deleteWhere p s.todoAssets
  { s with
    todoAssets := kept
    assets := updateWhere (fun a => s.todoAssets.any (fun r => p r && r.assetID == a.id) &&
      !kept.any fun r => r.assetID == a.id) (fun a => { a with unreferencedAt := some nowMs }) s.assets }

def resolveProjectAssetIDsTx (s : AssetStore) (projectID : ℤ) (uuids : List String) : List ℤ :=
  (s.assets.filter fun a => a.projectID == projectID && uuids.contains a.uuid).map (·.id)

def todoAssetIDsTx (s : AssetStore) (todoID : ℤ) : List ℤ :=
  (s.todoAssets.filter fun r => r.todoID == todoID).map (·.assetID)

/-- The rows of a story become the images of its project that its body embeds. -/
def syncTodoAssetsTx (extract : String → List String) (s : AssetStore) (projectID todoID : ℤ)
    (body : String) (nowMs : ℤ) : Result AssetStore :=
  let want := resolveProjectAssetIDsTx s projectID (extract body)
  let present := todoAssetIDsTx s todoID
  let s := deleteTodoAssets s nowMs fun r => r.todoID == todoID && !want.contains r.assetID
  (want.filter fun id => !present.contains id).foldlM
    (fun s id => insertTodoAsset s ⟨todoID, id, nowMs⟩) s

/-! ## Uploads -/

structure AssetBudgets where
  projectBytes : ℤ := 0
  instanceBytes : ℤ := 0
  deriving DecidableEq, Repr

def AssetBudgets.check (b : AssetBudgets) (projectUsed instanceUsed addBytes : ℤ) :
    Except AssetError Unit := do
  reject (0 < b.projectBytes ∧ b.projectBytes < projectUsed + addBytes)
    (.budget "project" b.projectBytes projectUsed)
  reject (0 < b.instanceBytes ∧ b.instanceBytes < instanceUsed + addBytes)
    (.budget "instance" b.instanceBytes instanceUsed)

/-- The bytes of the images of a project and of all projects. -/
def assetUsage (s : AssetStore) (projectID : ℤ) : ℤ × ℤ :=
  (((s.assets.filter (·.projectID == projectID)).map (·.sizeBytes)).sum, (s.assets.map (·.sizeBytes)).sum)

def checkAssetBudget (budgets : AssetBudgets) (s : AssetStore) (projectID addBytes : ℤ) :
    Except AssetError Unit :=
  budgets.check (assetUsage s projectID).1 (assetUsage s projectID).2 addBytes

structure CreateProjectAssetInput where
  uuid : String
  projectID : ℤ
  todoLocalID : Option ℤ
  mimeType : AssetType
  sizeBytes : ℤ
  width : ℤ
  height : ℤ
  sha256 : String
  originalName : String
  deriving DecidableEq, Repr

/-- A user who may edit the story, or create one if there is none yet, on a durable
project. -/
def authorizeAssetUploadTx (ctx : Ctx) (db : DB) (projectID : ℤ) (todoLocalID : Option ℤ) : Result ℤ := do
  let some userID := ctx.userID.filter (· ≠ 0) | throw ⟨.unauthorized, ""⟩
  reject (((db.projects.find? (·.id == projectID)).any fun p =>
    p.expiresAt.isNone && p.importBatchID.isNone) = false) ⟨.notFound, ""⟩
  let role := getProjectRole db projectID userID
  reject (role = none) ⟨.notFound, ""⟩
  match todoLocalID with
  | none => do
      reject (canCreateTodo role = false) ⟨.forbidden, ""⟩
      pure userID
  | some localID => do
      let todo ← getTodoRowByLocalID db projectID localID
      reject (getTodoEditScope role userID todo = .none) ⟨.forbidden, ""⟩
      reject (todo.archivedAt ≠ none) todoArchivedError
      pure userID

/-- The oldest image of the project with these bytes. -/
def findProjectAssetBySHATx (s : AssetStore) (projectID : ℤ) (sha : String) : Option ProjectAsset :=
  (orderBy (·.id) (s.assets.filter fun a => a.projectID == projectID && a.sha256 == sha)).head?

/-- The time of an image that nothing references starts anew. -/
def refreshDedupedAssetTx (s : AssetStore) (a : ProjectAsset) (nowMs : ℤ) : AssetStore × ProjectAsset :=
  if a.unreferencedAt = none then (s, a)
  else
    ({ s with
      assets := updateWhere (fun b => b.id == a.id && b.unreferencedAt.isSome)
        (fun b => { b with unreferencedAt := some nowMs }) s.assets },
      { a with unreferencedAt := some nowMs })

def isLowerHex64 (s : String) : Bool := s.toList.length == 64 && s.toList.all isLowerHex

/-- Text for display: without control characters and slashes, of at most 255 bytes. -/
def sanitizeAssetOriginalName (name : String) : String :=
  trimSpace (takeBytes 255 (trimSpace (String.ofList (name.toList.filter fun c =>
    !(c == '/' || c == '\\' || c.toNat < 32 || (127 ≤ c.toNat && c.toNat < 160) || c.toNat == 0xFFFD)))))

def insertProjectAssetTx (s : AssetStore) (input : CreateProjectAssetInput) (uploader : ℤ) (nowMs : ℤ) :
    Result (AssetStore × ProjectAsset) := do
  reject (isCanonicalUUID input.uuid = false) ⟨.validation, "invalid asset uuid"⟩
  reject (input.projectID ≤ 0 ∨ input.sizeBytes ≤ 0 ∨ input.width ≤ 0 ∨ input.height ≤ 0)
    ⟨.validation, "invalid asset metadata"⟩
  reject (isLowerHex64 input.sha256 = false) ⟨.validation, "invalid asset sha256"⟩
  reject (input.uuid ∈ s.assets.map (·.uuid)) ⟨.conflict, "asset uuid already exists"⟩
  let a : ProjectAsset :=
    { id := nextRowid (s.assets.map (·.id))
      uuid := input.uuid
      projectID := input.projectID
      uploaderUserID := some uploader
      mimeType := input.mimeType
      sizeBytes := input.sizeBytes
      width := input.width
      height := input.height
      sha256 := input.sha256
      originalName := sanitizeAssetOriginalName input.originalName
      createdAt := nowMs
      unreferencedAt := some nowMs }
  pure ({ s with assets := s.assets ++ [a] }, a)

/-- The row of an uploaded image, or the one of the same bytes that is there. -/
def createProjectAsset (budgets : AssetBudgets) (ctx : Ctx) (s : AssetStore)
    (input : CreateProjectAssetInput) : Except AssetError (AssetStore × ProjectAsset × Bool) := do
  let userID ← (authorizeAssetUploadTx ctx s.db input.projectID input.todoLocalID).mapError .store
  match findProjectAssetBySHATx s input.projectID input.sha256 with
  | some existing =>
      let (s, existing) := refreshDedupedAssetTx s existing ctx.nowMs
      pure (s, existing, true)
  | none => do
      checkAssetBudget budgets s input.projectID input.sizeBytes
      let (s, a) ← (insertProjectAssetTx s input userID ctx.nowMs).mapError .store
      pure (s, a, false)

/-! ## Garbage collection -/

/-- `instr(body, ?) > 0`. -/
def containsText (body text : String) : Bool := body.toList.tails.any (text.toList.isPrefixOf ·)

structure GCOptions where
  retention : ℤ
  limit : ℕ := 200
  bodyBudget : ℕ := 2000
  deriving DecidableEq, Repr

structure GCResult where
  deleted : List AssetFileRef := []
  repaired : ℕ := 0
  considered : ℕ := 0
  deriving DecidableEq, Repr

/-- The stories that mention the path of the image and embed it get their rows back. -/
def repairCanonicalEmbedTx (extract : String → List String) (s : AssetStore) (c : ProjectAsset)
    (nowMs : ℤ) : Result (AssetStore × Bool × ℕ) := do
  let notes := orderBy (·.id) (s.db.todos.filter fun t =>
    t.projectID == c.projectID && containsText t.body (canonicalPathPrefix ++ c.uuid))
  let embedding := notes.filter fun t => (extract t.body).contains c.uuid
  let s ← embedding.foldlM (fun s t => syncTodoAssetsTx extract s c.projectID t.id t.body nowMs) s
  pure (s, !embedding.isEmpty, notes.length)

/-- The row of an image that is not referenced since the cutoff is deleted. -/
def deleteGCCandidate (s : AssetStore) (id cutoff : ℤ) : AssetStore × List AssetFileRef :=
  let p := fun a : ProjectAsset => a.id == id && a.unreferencedAt.any (· < cutoff) &&
    !s.todoAssets.any fun r => r.assetID == a.id
  ({ s with
    assets := deleteWhere p s.assets
    todoAssets := deleteWhere (fun r => (s.assets.filter p).any (·.id == r.assetID)) s.todoAssets },
    (s.assets.filter p).map ProjectAsset.file)

/-- The loop over the candidates, which ends early when enough bodies have been examined. -/
def collectCandidates (extract : String → List String) (nowMs cutoff : ℤ) (bodyBudget : ℕ) :
    List ProjectAsset → AssetStore → GCResult → ℕ → Result (AssetStore × GCResult)
  | [], s, result, _ => pure (s, result)
  | c :: cands, s, result, examined =>
      if bodyBudget ≤ examined then pure (s, result)
      else do
        let (s, repaired, n) ← repairCanonicalEmbedTx extract s c nowMs
        let result := { result with considered := result.considered + 1 }
        if repaired then
          collectCandidates extract nowMs cutoff bodyBudget cands s
            { result with repaired := result.repaired + 1 } (examined + n)
        else
          let (s, deleted) := deleteGCCandidate s c.id cutoff
          collectCandidates extract nowMs cutoff bodyBudget cands s
            { result with deleted := result.deleted ++ deleted } (examined + n)

/-- `ORDER BY unreferenced_at, id`. -/
def ProjectAsset.gcKey (a : ProjectAsset) : ℤ ×ₗ ℤ := toLex (a.unreferencedAt.getD 0, a.id)

def collectGarbageAssets (extract : String → List String) (s : AssetStore) (nowMs : ℤ) (opts : GCOptions) :
    Result (AssetStore × GCResult) :=
  let cutoff := nowMs - opts.retention
  let cands := (orderBy ProjectAsset.gcKey
    (s.assets.filter fun a => a.unreferencedAt.any (· < cutoff))).take opts.limit
  collectCandidates extract nowMs cutoff opts.bodyBudget cands s {} 0

/-! ## Reconciliation -/

def symmetricDiff (a b : List ℤ) : ℕ :=
  (a.filter fun id => !b.contains id).length + (b.filter fun id => !a.contains id).length

/-- The stories of a batch get their rows. The position for the next batch, the number of
rows that changed, and whether this was the last batch. -/
def reconcileTodoAssets (extract : String → List String) (s : AssetStore) (afterTodoID : ℤ) (limit : ℕ)
    (nowMs : ℤ) : Result (AssetStore × ℤ × ℕ × Bool) := do
  let items := (orderBy (·.id) (s.db.todos.filter fun t => decide (afterTodoID < t.id))).take limit
  match items.getLast? with
  | none => pure (s, afterTodoID, 0, true)
  | some last => do
      let (s, changed) ← items.foldlM (fun (s, changed) t => do
        let s' ← syncTodoAssetsTx extract s t.projectID t.id t.body nowMs
        pure (s', changed + symmetricDiff (todoAssetIDsTx s t.id) (todoAssetIDsTx s' t.id))) (s, 0)
      pure (s, last.id, changed, decide (items.length < limit))

def existingAssetUUIDs (s : AssetStore) (uuids : List String) : List String :=
  (s.assets.filter fun a => uuids.contains a.uuid).map (·.uuid)

/-! ## What the operations leave alone -/

/-- The columns of an image that never change. -/
def ProjectAsset.identity (a : ProjectAsset) : ProjectAsset := { a with unreferencedAt := none }

section

variable {extract : String → List String} {s s' : AssetStore}

/-- Only the references and their times differ. -/
structure SameAssets (s s' : AssetStore) : Prop where
  db : s'.db = s.db
  assets : s'.assets.map ProjectAsset.identity = s.assets.map ProjectAsset.identity

theorem SameAssets.refl (s : AssetStore) : SameAssets s s := ⟨rfl, rfl⟩

theorem SameAssets.trans {s₁ s₂ s₃ : AssetStore} (h : SameAssets s₁ s₂) (h' : SameAssets s₂ s₃) :
    SameAssets s₁ s₃ :=
  ⟨h'.db.trans h.db, h'.assets.trans h.assets⟩

theorem map_identity_updateWhere (p : ProjectAsset → Bool) (time : Option ℤ) (l : List ProjectAsset) :
    (updateWhere p (fun a => { a with unreferencedAt := time }) l).map ProjectAsset.identity =
      l.map ProjectAsset.identity := by
  apply map_updateWhere
  intro a
  rfl

theorem insertTodoAsset_sameAssets {row : TodoAssetRow} (h : insertTodoAsset s row = .ok s') :
    SameAssets s s' := by
  simp only [insertTodoAsset, bind_eq_ok, reject_eq_ok] at h
  obtain ⟨_, _, h⟩ := h
  split at h
  · rw [pure_eq_ok] at h
    exact h ▸ .refl s
  · rw [pure_eq_ok] at h
    subst h
    exact ⟨rfl, map_identity_updateWhere _ _ _⟩

theorem deleteTodoAssets_sameAssets (s : AssetStore) (nowMs : ℤ) (p : TodoAssetRow → Bool) :
    SameAssets s (deleteTodoAssets s nowMs p) :=
  ⟨rfl, map_identity_updateWhere _ _ _⟩

theorem syncTodoAssetsTx_sameAssets {projectID todoID nowMs : ℤ} {body : String}
    (h : syncTodoAssetsTx extract s projectID todoID body nowMs = .ok s') : SameAssets s s' :=
  foldlM_inv (fun _ _ _ _ hs hinsert => hs.trans (insertTodoAsset_sameAssets hinsert))
    (deleteTodoAssets_sameAssets s nowMs _) h

theorem repairCanonicalEmbedTx_sameAssets {c : ProjectAsset} {nowMs : ℤ} {r : Bool × ℕ}
    (h : repairCanonicalEmbedTx extract s c nowMs = .ok (s', r)) : SameAssets s s' := by
  simp only [repairCanonicalEmbedTx, bind_eq_ok, pure_eq_ok, Prod.mk.injEq] at h
  obtain ⟨s₁, hsync, rfl, _⟩ := h
  exact foldlM_inv (fun _ _ _ _ hs hstep => hs.trans (syncTodoAssetsTx_sameAssets hstep)) (.refl s) hsync

theorem reconcileTodoAssets_sameAssets {afterTodoID nowMs : ℤ} {limit : ℕ} {r : ℤ × ℕ × Bool}
    (h : reconcileTodoAssets extract s afterTodoID limit nowMs = .ok (s', r)) : SameAssets s s' := by
  dsimp only [reconcileTodoAssets] at h
  split at h
  · rw [pure_eq_ok, Prod.mk.injEq] at h
    exact h.1 ▸ .refl s
  · simp only [bind_eq_ok, pure_eq_ok, Prod.mk.injEq] at h
    obtain ⟨⟨s₁, changed⟩, hfold, rfl, _⟩ := h
    refine foldlM_inv (P := fun p : AssetStore × ℕ => SameAssets s p.1) ?_ (.refl s) hfold
    intro p t p' _ hp hstep
    simp only [bind_eq_ok, pure_eq_ok] at hstep
    obtain ⟨s₂, hsync, rfl⟩ := hstep
    exact hp.trans (syncTodoAssetsTx_sameAssets hsync)

theorem refreshDedupedAssetTx_sameAssets (s : AssetStore) (a : ProjectAsset) (nowMs : ℤ) :
    SameAssets s (refreshDedupedAssetTx s a nowMs).1 := by
  unfold refreshDedupedAssetTx
  split
  · exact .refl s
  · exact ⟨rfl, map_identity_updateWhere _ _ _⟩

def AssetStore.files (s : AssetStore) : List AssetFileRef := s.assets.map ProjectAsset.file

def AssetStore.uuids (s : AssetStore) : List String := s.files.map (·.1)

theorem AssetStore.uuids_eq (s : AssetStore) : s.uuids = s.assets.map (·.uuid) := by
  rw [uuids, files, List.map_map]
  rfl

theorem SameAssets.files (h : SameAssets s s') : s'.files = s.files := by
  have hfile : ∀ l : List ProjectAsset,
      l.map ProjectAsset.file = (l.map ProjectAsset.identity).map ProjectAsset.file := by
    intro l
    rw [List.map_map]
    rfl
  rw [AssetStore.files, AssetStore.files, hfile, hfile s.assets, h.assets]

theorem insertProjectAssetTx_spec {input : CreateProjectAssetInput} {uploader nowMs : ℤ} {a : ProjectAsset}
    (h : insertProjectAssetTx s input uploader nowMs = .ok (s', a)) :
    input.uuid ∉ s.uuids ∧ s'.files = s.files ++ [(input.uuid, input.mimeType)] := by
  simp only [insertProjectAssetTx, bind_eq_ok, reject_eq_ok, pure_eq_ok, Prod.mk.injEq] at h
  obtain ⟨_, _, _, _, _, _, _, hnew, rfl, rfl⟩ := h
  rw [AssetStore.uuids_eq]
  refine ⟨hnew, ?_⟩
  simp [AssetStore.files, ProjectAsset.file]

/-- A row is added only if the project has no image of these bytes. -/
theorem createProjectAsset_cases {budgets : AssetBudgets} {ctx : Ctx} {input : CreateProjectAssetInput}
    {a : ProjectAsset} {deduped : Bool}
    (h : createProjectAsset budgets ctx s input = .ok (s', a, deduped)) :
    (deduped = true ∧ SameAssets s s') ∨
      deduped = false ∧ findProjectAssetBySHATx s input.projectID input.sha256 = none ∧
        input.uuid ∉ s.uuids ∧ s'.files = s.files ++ [(input.uuid, input.mimeType)] := by
  simp only [createProjectAsset, bind_eq_ok, mapError_eq_ok] at h
  obtain ⟨userID, _, h⟩ := h
  split at h
  · next existing _ =>
    simp only [pure_eq_ok, Prod.mk.injEq] at h
    obtain ⟨rfl, _, rfl⟩ := h
    exact .inl ⟨rfl, refreshDedupedAssetTx_sameAssets s existing ctx.nowMs⟩
  · next hnone =>
    simp only [bind_eq_ok, mapError_eq_ok, pure_eq_ok, Prod.mk.injEq] at h
    obtain ⟨_, _, ⟨s₁, a₁⟩, hinsert, rfl, rfl, rfl⟩ := h
    exact .inr ⟨rfl, hnone, insertProjectAssetTx_spec hinsert⟩

/-! ## What a collection deletes -/

theorem deleteGCCandidate_perm (s : AssetStore) (id cutoff : ℤ) :
    ((deleteGCCandidate s id cutoff).1.files ++ (deleteGCCandidate s id cutoff).2).Perm s.files := by
  dsimp only [deleteGCCandidate, AssetStore.files, deleteWhere]
  rw [← List.map_append]
  apply List.Perm.map
  refine List.perm_append_comm.trans ?_
  exact List.filter_append_perm _ s.assets

theorem collectCandidates_perm {nowMs cutoff : ℤ} {bodyBudget : ℕ} {cands : List ProjectAsset}
    {result result' : GCResult} {examined : ℕ}
    (h : collectCandidates extract nowMs cutoff bodyBudget cands s result examined = .ok (s', result')) :
    (s'.files ++ result'.deleted).Perm (s.files ++ result.deleted) := by
  induction cands generalizing s result examined with
  | nil =>
      simp only [collectCandidates, pure_eq_ok, Prod.mk.injEq] at h
      rw [h.1, h.2]
  | cons c cands ih =>
      rw [collectCandidates] at h
      split at h
      · simp only [pure_eq_ok, Prod.mk.injEq] at h
        rw [h.1, h.2]
      · simp only [bind_eq_ok] at h
        obtain ⟨⟨s₁, repaired, n⟩, hrepair, h⟩ := h
        have hsame := (repairCanonicalEmbedTx_sameAssets hrepair).files
        cases repaired with
        | true =>
            rw [if_pos rfl] at h
            have h := ih h
            exact hsame ▸ h
        | false =>
            rw [if_neg Bool.false_ne_true] at h
            have hdelete := (deleteGCCandidate_perm s₁ c.id cutoff).append_right result.deleted
            refine (ih h).trans (List.Perm.trans ?_ (hsame ▸ hdelete))
            rw [List.append_assoc]
            exact List.perm_append_comm.append_left _

/-- The files of the rows that are left and those of the rows that were deleted. -/
theorem collectGarbageAssets_perm {nowMs : ℤ} {opts : GCOptions} {result : GCResult}
    (h : collectGarbageAssets extract s nowMs opts = .ok (s', result)) :
    (s'.files ++ result.deleted).Perm s.files := by
  have h := collectCandidates_perm h
  rwa [List.append_nil] at h

end

end Scrumboy
