import Scrumboy.Application.ArchiveImport

/-!
# An import leaves files and rows consistent

While the images are staged their files belong to the import: they were not there before, and
they have no rows. The rows that the import inserts are rows of these files. So whatever is
removed afterwards is either a file of the import without a row, or the file of a row that the
swap has deleted.
-/

set_option linter.dupNamespace false

namespace Scrumboy

open Go Sql

section

variable {rt : Runtime} {ctx : Ctx} {rules : ArchiveRules} {env : ArchiveEnv}

/-! ## The files of the staging -/

/-- The staging of an import that began with the files `before`. -/
structure StagingInv (env : ArchiveEnv) (before : List AssetFileRef) (st : Staging) : Prop where
  grown : ∀ f ∈ before, f ∈ st.blobs
  present : ∀ f ∈ st.staged, f ∈ st.blobs
  fresh : ∀ f ∈ st.staged, f ∉ before
  written : ∀ f ∈ st.blobs, f ∈ before ∨ f ∈ st.staged ∨ env.removable f = false
  planned : ∀ x ∈ st.plan, (x.2.newUUID, x.2.mimeType) ∈ st.staged
  drawn : ∀ f ∈ st.staged, ∃ i id res,
    (env.image i id).newID = .ok f.1 ∧ (env.image i id).checked = .ok res ∧ res.type = f.2

theorem StagingInv.start (before : List AssetFileRef) : StagingInv env before { blobs := before } where
  grown _ h := h
  present _ h := absurd h List.not_mem_nil
  fresh _ h := absurd h List.not_mem_nil
  written _ h := .inl h
  planned _ h := absurd h List.not_mem_nil
  drawn _ h := absurd h List.not_mem_nil

/-- A failed creation leaves at most a file that cannot be removed. -/
theorem createExclusive_error {removable : AssetFileRef → Bool} {blobs blobs' : List AssetFileRef}
    {file : AssetFileRef} {write : WriteOutcome} {e : ArchiveError}
    (h : createExclusive removable blobs file write = (blobs', .error e)) :
    blobs' = blobs ∨ removable file = false ∧ blobs' = file :: blobs := by
  unfold createExclusive at h
  split at h
  · cases h
    exact .inl rfl
  · split at h
    · cases h
      exact .inl rfl
    · cases write with
      | refused =>
          cases h
          exact .inl rfl
      | broken =>
          cases hremovable : removable file <;> simp only [hremovable, if_true, if_false, Bool.false_eq_true] at h
          · cases h
            exact .inr ⟨rfl, rfl⟩
          · cases h
            exact .inl rfl
      | written => cases h

theorem createExclusive_ok {removable : AssetFileRef → Bool} {blobs blobs' : List AssetFileRef}
    {file : AssetFileRef} {write : WriteOutcome}
    (h : createExclusive removable blobs file write = (blobs', .ok ())) :
    file ∉ blobs ∧ blobs' = file :: blobs := by
  unfold createExclusive at h
  split at h
  · cases h
  · split at h
    · cases h
    · next hmem =>
      cases write with
      | refused => cases h
      | broken => cases h
      | written =>
          cases h
          exact ⟨hmem, rfl⟩

theorem ImageEnv.accept_eq_ok {e : ImageEnv} {a : AssetExport} {res : CheckedImage} {newID : String}
    (h : e.accept a = .ok (res, newID)) : e.checked = .ok res ∧ e.newID = .ok newID := by
  simp only [accept, bind_eq_ok, pure_eq_ok, Prod.mk.injEq] at h
  obtain ⟨_, hchecked, _, _, _, hnew, rfl, rfl⟩ := h
  exact ⟨hchecked, hnew⟩

theorem stageImage_inv {before : List AssetFileRef} {st st' : Staging} {x : ℕ × AssetExport}
    {r : Except ArchiveError Unit} (hst : StagingInv env before st) (h : stageImage env st x = (st', r)) :
    StagingInv env before st' := by
  dsimp only [stageImage] at h
  split at h
  · cases h
    exact hst
  · next res newID haccept =>
    obtain ⟨hchecked, hnew⟩ := ImageEnv.accept_eq_ok haccept
    split at h
    · next blobs err hcreate =>
      cases h
      rcases createExclusive_error hcreate with rfl | ⟨hheld, rfl⟩
      · exact hst
      · constructor
        · exact fun f hf => List.mem_cons_of_mem _ (hst.grown f hf)
        · exact fun f hf => List.mem_cons_of_mem _ (hst.present f hf)
        · exact hst.fresh
        · intro f hf
          rcases List.mem_cons.mp hf with rfl | hf
          · exact .inr (.inr hheld)
          · exact hst.written f hf
        · exact hst.planned
        · exact hst.drawn
    · next blobs hcreate =>
      cases h
      obtain ⟨hnone, rfl⟩ := createExclusive_ok hcreate
      constructor
      · exact fun f hf => List.mem_cons_of_mem _ (hst.grown f hf)
      · intro f hf
        rcases List.mem_append.mp hf with hf | hf
        · exact List.mem_cons_of_mem _ (hst.present f hf)
        · rw [List.mem_singleton.mp hf]
          exact List.mem_cons_self
      · intro f hf hbefore
        rcases List.mem_append.mp hf with hf | hf
        · exact hst.fresh f hf hbefore
        · rw [List.mem_singleton.mp hf] at hbefore
          exact hnone (hst.grown _ hbefore)
      · intro f hf
        rcases List.mem_cons.mp hf with rfl | hf
        · exact .inr (.inl (List.mem_append_right _ (List.mem_singleton_self _)))
        · rcases hst.written f hf with hf | hf | hf
          · exact .inl hf
          · exact .inr (.inl (List.mem_append_left _ hf))
          · exact .inr (.inr hf)
      · intro y hy
        rcases List.mem_append.mp hy with hy | hy
        · exact List.mem_append_left _ (hst.planned y hy)
        · rw [List.mem_singleton.mp hy]
          exact List.mem_append_right _ (List.mem_singleton_self _)
      · intro f hf
        rcases List.mem_append.mp hf with hf | hf
        · exact hst.drawn f hf
        · rw [List.mem_singleton.mp hf]
          exact ⟨x.1, x.2.id, res, hnew, hchecked, rfl⟩

theorem stageImages_inv {before : List AssetFileRef} {st st' : Staging} {l : List (ℕ × AssetExport)}
    {r : Except ArchiveError Unit} (hst : StagingInv env before st) (h : stageImages env st l = (st', r)) :
    StagingInv env before st' := by
  induction l generalizing st with
  | nil =>
      cases h
      exact hst
  | cons x rest ih =>
      rw [stageImages] at h
      split at h
      · next st₁ err hstage =>
        cases h
        exact stageImage_inv hst hstage
      · next st₁ hstage => exact ih (stageImage_inv hst hstage) h

theorem StagingInv.planOf {before : List AssetFileRef} {st : Staging} (h : StagingInv env before st) (i : ℕ) :
    ∀ a ∈ st.planOf i, (a.newUUID, a.mimeType) ∈ st.staged := by
  intro a ha
  obtain ⟨x, hx, rfl⟩ := List.mem_map.mp ha
  exact h.planned x (List.mem_of_mem_filter hx)

/-! ## The rows of the import -/

/-- Each row was there before or belongs to a staged file whose name is in use. -/
structure RowsAdded (s₀ : AssetStore) (staged : List AssetFileRef) (s : AssetStore) (used : List String) :
    Prop where
  rows : ∀ f ∈ s.files, f ∈ s₀.files ∨ f ∈ staged ∧ f.1 ∈ used
  distinct : s.uuids.Nodup

theorem insertImportedAssetTx_spec {s s' : AssetStore} {input : CreateProjectAssetInput} {nowMs : ℤ}
    (h : insertImportedAssetTx s input nowMs = .ok s') :
    input.uuid ∉ s.uuids ∧ s'.files = s.files ++ [(input.uuid, input.mimeType)] := by
  simp only [insertImportedAssetTx, bind_eq_ok, pure_eq_ok] at h
  obtain ⟨⟨s₁, a⟩, hinsert, rfl⟩ := h
  obtain ⟨hnew, hfiles⟩ := insertProjectAssetTx_spec hinsert
  simp only [insertProjectAssetTx, bind_eq_ok, pure_eq_ok, Prod.mk.injEq] at hinsert
  obtain ⟨_, _, _, _, _, _, _, _, _, rfl⟩ := hinsert
  exact ⟨hnew, by simp [AssetStore.files, ProjectAsset.file]⟩

theorem rowsAdded_imageRule (budgets : AssetBudgets) (s₀ : AssetStore) (staged : List AssetFileRef) :
    ImageRule budgets (fun a => (a.newUUID, a.mimeType) ∈ staged) (RowsAdded s₀ staged) where
  same := by
    intro s s' used hsame hs
    have hfiles : s'.files = s.files :=
      SameAssets.files (s := { s with db := s'.db }) ⟨rfl, hsame⟩
    constructor
    · rw [hfiles]
      exact hs.rows
    · rw [AssetStore.uuids, hfiles]
      exact hs.distinct
  insert := by
    intro s s' used a projectID nowMs ha hs _ h
    obtain ⟨hnew, hfiles⟩ := insertImportedAssetTx_spec h
    constructor
    · rw [hfiles]
      intro f hf
      rcases List.mem_append.mp hf with hf | hf
      · exact (hs.rows f hf).imp_right fun h => ⟨h.1, List.mem_append_left _ h.2⟩
      · rw [List.mem_singleton.mp hf]
        exact .inr ⟨ha, List.mem_append_right _ (List.mem_singleton_self _)⟩
    · rw [AssetStore.uuids, hfiles, List.map_append]
      exact List.concat_eq_append ▸ hs.distinct.concat hnew

/-- What the rows are after the import of the rows. -/
structure RowsOutcome (s₀ : AssetStore) (staged : List AssetFileRef)
    (out : AssetStore × Except AssetError ImportReport) : Prop where
  rows : ∀ f ∈ out.1.files, f ∈ s₀.files ∨ f ∈ staged
  used : ∀ report, out.2 = .ok report → ∀ f ∈ out.1.files, f ∈ s₀.files ∨ f.1 ∈ report.used
  removed : ∀ report, out.2 = .ok report → ∀ f ∈ out.1.files, f ∉ report.removed

variable {s₀ : AssetStore} {staged : List AssetFileRef}

theorem RowsOutcome.of_error {s : AssetStore} {e : AssetError}
    (h : ∀ f ∈ s.files, f ∈ s₀.files ∨ f ∈ staged) : RowsOutcome s₀ staged (s, .error e) where
  rows := h
  used _ heq := by cases heq
  removed _ heq := by cases heq

theorem RowsAdded.outcome {s : AssetStore} {report : ImportReport} (h : RowsAdded s₀ staged s report.used)
    (hremoved : report.removed = []) : RowsOutcome s₀ staged (s, .ok report) where
  rows f hf := (h.rows f hf).imp_right And.left
  used _ heq f hf := by
    cases heq
    exact (h.rows f hf).imp_right And.right
  removed _ heq f _ := by
    cases heq
    rw [hremoved]
    exact List.not_mem_nil

theorem RowsAdded.fewer {s s' : AssetStore} {used : List String} (h : RowsAdded s₀ staged s used)
    (hfewer : FewerImages s s') : ∀ f ∈ s'.files, f ∈ s₀.files ∨ f ∈ staged :=
  fun f hf => (h.rows f (hfewer.files.subset hf)).imp_right And.left

theorem transact_outcome {fault : Bool} {x : Except AssetError (AssetStore × ImportReport)}
    (hx : ∀ s report, x = .ok (s, report) → RowsAdded s₀ staged s report.used ∧ report.removed = []) :
    RowsOutcome s₀ staged (s₀.transact fault x) := by
  rcases AssetStore.transact_cases s₀ fault x with ⟨s, report, hok, h⟩ | ⟨e, h⟩
  · rw [h]
    exact (hx s report hok).1.outcome (hx s report hok).2
  · rw [h]
    exact .of_error fun f hf => .inl hf

variable {faults : ImportFaults} {req : ArchiveRequest}

theorem failReplace_outcome {s : AssetStore} {used : List String} (h : RowsAdded s₀ staged s used)
    (batchID : String) (e : AssetError) : RowsOutcome s₀ staged (failReplace faults s batchID e) := by
  unfold failReplace
  split
  · exact .of_error (h.fewer (SameAssets.refl s).fewer)
  · exact .of_error (h.fewer (deleteProjects_fewer s _))

theorem importArchiveReplaceAll_outcome
    (hplan : ∀ i, ∀ a ∈ req.plan i, (a.newUUID, a.mimeType) ∈ staged) (hnodup : s₀.uuids.Nodup) :
    RowsOutcome s₀ staged (importArchiveReplaceAll rt ctx rules faults s₀ req) := by
  have hrule := rowsAdded_imageRule rules.budgets s₀ staged
  have hstart : RowsAdded s₀ staged s₀ [] := ⟨fun f hf => .inl hf, hnodup⟩
  unfold importArchiveReplaceAll
  split
  · exact .of_error fun f hf => .inl hf
  · split
    · next staged e hstage =>
      obtain ⟨⟨used, hrows⟩, _⟩ := hrule.stageArchiveProjects hplan hstart hstage
      exact failReplace_outcome hrows _ _
    · next staged tx hstage =>
      have hrows := (hrule.stageArchiveProjects hplan hstart hstage).2 tx rfl
      split
      · exact failReplace_outcome hrows _ _
      · next store removed hswap =>
        split
        · exact failReplace_outcome hrows _ _
        · have hfewer := swapArchiveStaging_fewer hswap
          constructor
          · exact hrows.fewer hfewer
          · intro report heq f hf
            cases heq
            exact (hrows.rows f (hfewer.files.subset hf)).imp_right And.right
          · intro report heq f hf hremoved
            cases heq
            -- the names of all rows before the swap differ
            have hdistinct : (store.files.map (·.1) ++ removed.map (·.1)).Nodup := by
              rw [← List.map_append]
              exact ((swapArchiveStaging_perm hswap).map _).nodup_iff.mpr hrows.distinct
            exact (List.nodup_append.mp hdistinct).2.2 f.1 (List.mem_map_of_mem hf) f.1
              (List.mem_map_of_mem hremoved) rfl

theorem importProjectsWithAssets_outcome
    (hplan : ∀ i, ∀ a ∈ req.plan i, (a.newUUID, a.mimeType) ∈ staged) (hnodup : s₀.uuids.Nodup) :
    RowsOutcome s₀ staged (importProjectsWithAssets rt ctx rules faults s₀ req) := by
  have hrule := rowsAdded_imageRule rules.budgets s₀ staged
  have hstart : RowsAdded s₀ staged s₀ [] := ⟨fun f hf => .inl hf, hnodup⟩
  have hcopy : ∀ s report,
      importArchiveCopy rt ctx rules req.draws req.plan s₀ req.data req.mode = .ok (s, report) →
        RowsAdded s₀ staged s report.used ∧ report.removed = [] := by
    intro s report h
    refine ⟨hrule.importArchiveCopy hplan hstart h, ?_⟩
    simp only [importArchiveCopy, bind_eq_ok, pure_eq_ok, Prod.mk.injEq] at h
    obtain ⟨_, _, _, rfl⟩ := h
    rfl
  have hmerge : ∀ s report,
      importArchiveMerge rt ctx rules req.draws req.plan s₀ req.data = .ok (s, report) →
        RowsAdded s₀ staged s report.used ∧ report.removed = [] := by
    intro s report h
    refine ⟨hrule.importArchiveMerge hplan hstart h, ?_⟩
    simp only [importArchiveMerge, bind_eq_ok, pure_eq_ok, Prod.mk.injEq] at h
    obtain ⟨_, _, _, _, _, _, _, _, _, rfl⟩ := h
    rfl
  unfold importProjectsWithAssets
  split
  · exact .of_error fun f hf => .inl hf
  · split
    · exact .of_error fun f hf => .inl hf
    · split
      · exact importArchiveReplaceAll_outcome hplan hnodup
      · split
        · exact transact_outcome hcopy
        · exact transact_outcome hmerge
      · exact transact_outcome hcopy
      · exact .of_error fun f hf => .inl hf

/-! ## Cleaning up -/

/-- Every name that is drawn is new and drawn for one image only. -/
structure NewNames (env : ArchiveEnv) (s : AssetStore) : Prop where
  fresh : ∀ i id uuid, (env.image i id).newID = .ok uuid → uuid ∉ s.uuids
  distinct : ∀ i id j id' uuid, (env.image i id).newID = .ok uuid → (env.image j id').newID = .ok uuid →
    i = j ∧ id = id'

/-- A row has its file, unless it is an old one that had none. -/
def RowsHaveFiles (s s' : ArchiveHost) : Prop :=
  ∀ f ∈ s'.store.files, (f ∈ s.store.files → f ∈ s.blobs) → f ∈ s'.blobs

/-- A new file has a row, unless it could not be removed. -/
def NewFilesHaveRows (env : ArchiveEnv) (s s' : ArchiveHost) : Prop :=
  ∀ f ∈ s'.blobs, f ∈ s.blobs ∨ f ∈ s'.store.files ∨ env.removable f = false

theorem mem_cleanupStaged {st : Staging} {removable : AssetFileRef → Bool} {keep : List String}
    {f : AssetFileRef} : f ∈ st.cleanupStaged removable keep ↔
      f ∈ st.blobs ∧ (f ∈ st.staged → f.1 ∈ keep ∨ removable f = false) := by
  rw [Staging.cleanupStaged, mem_deleteWhere]
  by_cases hstaged : f ∈ st.staged <;> by_cases hkeep : f.1 ∈ keep <;> simp [hstaged, hkeep]

variable {before : List AssetFileRef} {st : Staging} {store : AssetStore}

/-- A staged file whose name has a row belongs to that row. -/
theorem StagingInv.file_of_uuid (h : StagingInv env before st) (hnames : NewNames env s₀)
    (hrows : ∀ f ∈ store.files, f ∈ s₀.files ∨ f ∈ st.staged) {f : AssetFileRef} (hf : f ∈ st.staged)
    (huuid : f.1 ∈ store.uuids) : f ∈ store.files := by
  obtain ⟨i, id, res, hnew, hchecked, htype⟩ := h.drawn f hf
  obtain ⟨g, hg, hname⟩ := List.mem_map.mp huuid
  rcases hrows g hg with hold | hstaged
  · exact absurd (hname ▸ List.mem_map_of_mem hold) (hnames.fresh i id f.1 hnew)
  · obtain ⟨j, id', res', hnew', hchecked', htype'⟩ := h.drawn g hstaged
    obtain ⟨rfl, rfl⟩ := hnames.distinct i id j id' f.1 hnew (hname ▸ hnew')
    have hres : res = res' := Except.ok.inj (hchecked.symm.trans hchecked')
    have heq : g = f := Prod.ext hname (by rw [← htype, ← htype', hres])
    exact heq ▸ hg

theorem mem_existingAssetUUIDs {s : AssetStore} {uuids : List String} {uuid : String} :
    uuid ∈ existingAssetUUIDs s uuids ↔ uuid ∈ uuids ∧ uuid ∈ s.uuids := by
  rw [AssetStore.uuids_eq]
  simp only [existingAssetUUIDs, List.mem_map, List.mem_filter, List.contains_iff_mem]
  constructor
  · rintro ⟨a, ⟨ha, hmem⟩, rfl⟩
    exact ⟨hmem, a, ha, rfl⟩
  · rintro ⟨hmem, a, ha, rfl⟩
    exact ⟨a, ⟨ha, hmem⟩, rfl⟩

theorem filesAfterFailure_rows {s : ArchiveHost} (h : StagingInv env s.blobs st)
    (hrows : ∀ f ∈ store.files, f ∈ s.store.files ∨ f ∈ st.staged) :
    RowsHaveFiles s ⟨store, filesAfterFailure env st store⟩ := by
  intro f hf hold
  have hpresent : f ∈ st.blobs := by
    rcases hrows f hf with hbefore | hstaged
    · exact h.grown f (hold hbefore)
    · exact h.present f hstaged
  dsimp only [filesAfterFailure]
  split
  · exact hpresent
  · refine mem_cleanupStaged.mpr ⟨hpresent, fun hstaged => .inl ?_⟩
    exact mem_existingAssetUUIDs.mpr ⟨List.mem_map_of_mem hstaged, List.mem_map_of_mem hf⟩

theorem filesAfterFailure_new {s : ArchiveHost} (h : StagingInv env s.blobs st)
    (hnames : NewNames env s.store) (hrows : ∀ f ∈ store.files, f ∈ s.store.files ∨ f ∈ st.staged)
    (hexist : env.existFails = false) :
    NewFilesHaveRows env s ⟨store, filesAfterFailure env st store⟩ := by
  intro f hf
  dsimp only [filesAfterFailure] at hf
  rw [hexist, if_neg Bool.false_ne_true, mem_cleanupStaged] at hf
  obtain ⟨hblob, hkept⟩ := hf
  rcases h.written f hblob with hbefore | hstaged | hheld
  · exact .inl hbefore
  · refine .inr ((hkept hstaged).imp_left fun hkeep => ?_)
    exact h.file_of_uuid hnames hrows hstaged (mem_existingAssetUUIDs.mp hkeep).2
  · exact .inr (.inr hheld)

theorem filesAfterImport_rows {s : ArchiveHost} (h : StagingInv env s.blobs st) {report : ImportReport}
    (hout : RowsOutcome s.store st.staged (store, .ok report)) :
    RowsHaveFiles s ⟨store, filesAfterImport env st report⟩ := by
  intro f hf hold
  dsimp only [filesAfterImport, removeFiles]
  rw [mem_deleteWhere, mem_cleanupStaged]
  refine ⟨?_, by simp [hout.removed report rfl f hf]⟩
  by_cases hbefore : f ∈ s.store.files
  · exact ⟨h.grown f (hold hbefore), fun hstaged => absurd (hold hbefore) (h.fresh f hstaged)⟩
  · have hstaged := (hout.rows f hf).resolve_left hbefore
    have hused := (hout.used report rfl f hf).resolve_left hbefore
    exact ⟨h.present f hstaged, fun _ => .inl hused⟩

/-- However an import of an archive ends, every row has its file, but for old rows that had
none. When it fails, every file that it wrote has a row, but for files that could not be removed,
as far as the query for the rows succeeds. -/
theorem importArchive_files {s s' : ArchiveHost} {req : ArchiveImportRequest}
    {r : Except ArchiveError ImportResult} (hnodup : s.store.uuids.Nodup) (hnames : NewNames env s.store)
    (h : importArchive rt ctx rules env s req = (s', r)) :
    RowsHaveFiles s s' ∧
      ∀ e, r = .error e → env.existFails = false → NewFilesHaveRows env s s' := by
  unfold importArchive at h
  split at h
  · cases h
    exact ⟨fun f hf hold => hold hf, fun _ _ _ f hf => .inl hf⟩
  · next data images warnings _ =>
    split at h
    · next st e hstage =>
      cases h
      have hst := stageImages_inv (StagingInv.start s.blobs) hstage
      constructor
      · intro f hf hold
        refine mem_cleanupStaged.mpr ⟨hst.grown f (hold hf), fun hstaged => ?_⟩
        exact absurd (hold hf) (hst.fresh f hstaged)
      · intro _ _ _ f hf
        obtain ⟨hblob, hkept⟩ := mem_cleanupStaged.mp hf
        rcases hst.written f hblob with hbefore | hstaged | hheld
        · exact .inl hbefore
        · exact .inr (.inr ((hkept hstaged).resolve_left List.not_mem_nil))
        · exact .inr (.inr hheld)
    · next st hstage =>
      have hst := stageImages_inv (StagingInv.start s.blobs) hstage
      have hout : RowsOutcome s.store st.staged
          (importProjectsWithAssets rt ctx rules env.faults s.store (req.with data st.planOf)) :=
        importProjectsWithAssets_outcome hst.planOf hnodup
      split at h
      · next store e himport =>
        cases h
        rw [himport] at hout
        exact ⟨filesAfterFailure_rows hst hout.rows, fun _ _ => filesAfterFailure_new hst hnames hout.rows⟩
      · next store report himport =>
        cases h
        rw [himport] at hout
        exact ⟨filesAfterImport_rows hst hout, fun _ heq => by cases heq⟩

end

/-! ## An import that fails at its second image -/

def sampleImage (id : String) : AssetExport where
  id := id
  mimeType := .png
  sizeBytes := 60
  width := 2
  height := 2
  sha256 := ""

/-- A board with one story that embeds the images `a` and `b`. -/
def twoImageArchive : ArchiveData where
  projects :=
    [{ project := { slug := "board", name := "Board", todos := [{ localID := 1, title := "t", status := "BACKLOG" }] }
       assets := [sampleImage "a", sampleImage "b"] }]

def twoImageRules : ArchiveRules where
  extract _ := ["a", "b"]
  remap body _ := .ok body

/-- The first image is written; the second cannot be read. -/
def twoImageEnv (held : Bool) : ArchiveEnv where
  opened := .ok twoImageArchive
  dryName _ id := id
  visit := [0]
  image i id :=
    { checked := if id = "a" then .ok ⟨.png, 60, 2, 2, ""⟩ else .error .failed
      newID := if i = 0 ∧ id = "a" then .ok "11111111-1111-4111-8111-111111111111" else .error .failed }
  removable _ := !held

def copyRequest : ArchiveImportRequest where
  mode := .full
  importMode := .copy
  batchID := "batch"
  draws _ := ⟨"slug", fun _ => 0, fun _ => 0⟩

theorem twoImageEnv_newNames (held : Bool) (s : AssetStore) (hs : s.assets = []) :
    NewNames (twoImageEnv held) s := by
  have hdrawn : ∀ i id uuid, ((twoImageEnv held).image i id).newID = .ok uuid → i = 0 ∧ id = "a" := by
    intro i id uuid h
    by_contra hne
    simp [twoImageEnv, hne] at h
  constructor
  · intro i id uuid _
    rw [AssetStore.uuids_eq, hs]
    exact List.not_mem_nil
  · intro i id j id' uuid h h'
    obtain ⟨rfl, rfl⟩ := hdrawn i id uuid h
    obtain ⟨rfl, rfl⟩ := hdrawn j id' uuid h'
    exact ⟨rfl, rfl⟩

def emptyHost : ArchiveHost where
  store := { db := { users := [1] } }

def twoImageImport (held : Bool) : ArchiveHost × Except ArchiveError ImportResult :=
  importArchive plainRuntime ⟨some 1, 5⟩ twoImageRules (twoImageEnv held) emptyHost copyRequest

/-- While removals are held, the file of the first image stays, and it has no row. -/
theorem file_left_under_hold :
    (twoImageImport true).2.isOk = false ∧ (twoImageEnv true).existFails = false ∧
      ∃ f ∈ (twoImageImport true).1.blobs, f ∉ emptyHost.blobs ∧ f ∉ (twoImageImport true).1.store.files := by
  decide +kernel

/-- Otherwise it is removed. -/
theorem no_file_left :
    (twoImageImport false).2.isOk = false ∧ RowsHaveFiles emptyHost (twoImageImport false).1 ∧
      ∀ e, (twoImageImport false).2 = .error e → (twoImageEnv false).existFails = false →
        NewFilesHaveRows (twoImageEnv false) emptyHost (twoImageImport false).1 :=
  ⟨by decide +kernel,
    importArchive_files (by decide) (twoImageEnv_newNames false _ rfl) (Prod.eta (twoImageImport false)).symm⟩

end Scrumboy
