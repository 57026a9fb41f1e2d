import Scrumboy.Application.AssetUploads
import Scrumboy.Store.Projects

/-!
# Every image has its file

The rows of images and the files are kept in step by who may touch a name. An upload owns
the name that it drew; until its row is inserted the janitor does not know the name, because
it passes over names that are held. A file is removed when there is no row with its name and
no upload is left that could insert one.

There is one step that does not keep this: an upload that has found an image of the same
bytes asks for a row under the name of that image, which it does not own. If the image has
been collected since, the row is inserted without a file.
-/

set_option linter.dupNamespace false

namespace Scrumboy

open Go Sql Transition

/-! ## The invariant -/

/-- One of the first `n` names that are drawn. -/
def Drawn (cfg : AssetConfig) (n : ℕ) (uuid : String) : Prop := ∃ k < n, cfg.newRandom k = uuid

/-- The names that the janitor has found to be free of uploads. -/
def JanitorPC.passed : JanitorPC → List String
  | .removing refs _ => refs.map (·.1)
  | .walking batch => batch.map (·.1)
  | .looking _ batch => batch.map (·.1)
  | .flushing rest batch _ _ => (rest ++ batch).map (·.1)
  | .unlinking file rest batch _ _ => (file :: (rest ++ batch)).map (·.1)
  | _ => []

/-- The names that the janitor knows. -/
def JanitorPC.met : JanitorPC → List String
  | .looking file batch => file.1 :: batch.map (·.1)
  | pc => pc.passed

/-- The names whose files the janitor may remove. -/
def JanitorPC.doomed : JanitorPC → List String
  | .removing refs _ => refs.map (·.1)
  | .flushing rest _ existing _ => (rest.map (·.1)).filter (· ∉ existing)
  | .unlinking file rest _ existing _ => file.1 :: (rest.map (·.1)).filter (· ∉ existing)
  | _ => []

theorem JanitorPC.passed_of_doomed {pc : JanitorPC} {uuid : String} (h : uuid ∈ pc.doomed) :
    uuid ∈ pc.passed := by
  cases pc with
  | removing refs again => exact h
  | flushing rest batch existing last =>
      rw [passed, List.map_append]
      exact List.mem_append_left _ (List.mem_of_mem_filter h)
  | unlinking file rest batch existing last =>
      rw [passed, List.map_cons, List.map_append, List.mem_cons]
      rcases List.mem_cons.mp h with h | h
      · exact .inl h
      · exact .inr (List.mem_append_left _ (List.mem_of_mem_filter h))
  | _ => simp [doomed] at h

theorem JanitorPC.met_of_passed {pc : JanitorPC} {uuid : String} (h : uuid ∈ pc.passed) :
    uuid ∈ pc.met := by
  cases pc with
  | looking file batch => exact List.mem_cons_of_mem _ h
  | _ => exact h

/-- What holds of the database, the files and the janitor. -/
structure FilesKept (cfg : AssetConfig) (s : AssetShared) : Prop where
  present : ∀ f ∈ s.store.files, f ∈ s.blobs
  distinct : s.store.uuids.Nodup
  drawn : ∀ f ∈ s.blobs, Drawn cfg s.drawn f.1
  met : ∀ uuid ∈ s.janitor.met, Drawn cfg s.drawn uuid
  doomed : ∀ uuid ∈ s.janitor.doomed, uuid ∉ s.store.uuids

structure Held (cfg : AssetConfig) (s : AssetShared) (uuid : String) : Prop where
  pending : uuid ∈ s.pending
  drawn : Drawn cfg s.drawn uuid

/-- A name that has no row. -/
structure Rowless (cfg : AssetConfig) (s : AssetShared) (uuid : String) : Prop extends Held cfg s uuid where
  fresh : uuid ∉ s.store.uuids

/-- A name that has no row yet. -/
structure Awaited (cfg : AssetConfig) (s : AssetShared) (uuid : String) : Prop
    extends Rowless cfg s uuid where
  unseen : uuid ∉ s.janitor.passed

/-- What an upload knows at its place. -/
def UploadInv (cfg : AssetConfig) (s : AssetShared) (u : Upload) : Prop :=
  match u.pc with
  | .create uuid => Awaited cfg s uuid
  | .write uuid | .insert uuid => Awaited cfg s uuid ∧ (uuid, u.request.image.type) ∈ s.blobs
  | .cleanup uuid _ => Rowless cfg s uuid
  | .release uuid _ => Held cfg s uuid
  | _ => True

def UploadPC.owned : UploadPC → Option String
  | .create uuid | .write uuid | .insert uuid | .cleanup uuid _ | .release uuid _ => some uuid
  | _ => none

/-- No name belongs to both uploads. -/
def OwnNames (u v : Upload) : Prop := ∀ uuid ∈ u.pc.owned, uuid ∉ v.pc.owned

theorem OwnNames.symm (u v : Upload) (h : OwnNames u v) : OwnNames v u := by
  intro uuid hv hu
  exact h uuid hu hv

abbrev AssetInv (cfg : AssetConfig) (s : AssetSystem) : Prop :=
  s.PairInv (FilesKept cfg) (UploadInv cfg) OwnNames

section

variable {cfg : AssetConfig} {s s' : AssetShared} {uuid : String}

theorem Drawn.mono {n m : ℕ} (h : Drawn cfg n uuid) (hnm : n ≤ m) : Drawn cfg m uuid := by
  obtain ⟨k, hk, rfl⟩ := h
  exact ⟨k, by omega, rfl⟩

theorem not_drawn_next (hnames : Function.Injective cfg.newRandom) (n : ℕ) :
    ¬ Drawn cfg n (cfg.newRandom n) := by
  rintro ⟨k, hk, heq⟩
  have := hnames heq
  omega

theorem UploadInv.held {u : Upload} (h : UploadInv cfg s u) (hu : uuid ∈ u.pc.owned) :
    Held cfg s uuid := by
  unfold UploadInv at h
  cases hpc : u.pc <;> rw [hpc] at h hu <;>
    simp only [UploadPC.owned, Option.mem_def, Option.some.injEq, reduceCtorEq] at hu <;> subst hu
  case create => exact h.toHeld
  case write => exact h.1.toHeld
  case insert => exact h.1.toHeld
  case cleanup => exact h.toHeld
  case release => exact h

theorem mem_uuids {store : AssetStore} {f : AssetFileRef} (h : f ∈ store.files) : f.1 ∈ store.uuids :=
  List.mem_map_of_mem h

/-- The step leaves alone what an upload knows of its name. -/
structure Leaves (s s' : AssetShared) (uuid : String) : Prop where
  drawn : s.drawn ≤ s'.drawn
  pending : uuid ∈ s.pending → uuid ∈ s'.pending
  fresh : uuid ∉ s.store.uuids → uuid ∉ s'.store.uuids
  unseen : uuid ∈ s.pending → uuid ∉ s.store.uuids → uuid ∉ s.janitor.passed → uuid ∉ s'.janitor.passed
  blobs : uuid ∉ s.store.uuids → uuid ∉ s.janitor.passed → ∀ type, (uuid, type) ∈ s.blobs →
    (uuid, type) ∈ s'.blobs

theorem Held.leaves (h : Held cfg s uuid) (hl : Leaves s s' uuid) : Held cfg s' uuid :=
  ⟨hl.pending h.pending, h.drawn.mono hl.drawn⟩

theorem Rowless.leaves (h : Rowless cfg s uuid) (hl : Leaves s s' uuid) : Rowless cfg s' uuid :=
  ⟨h.toHeld.leaves hl, hl.fresh h.fresh⟩

theorem Awaited.leaves (h : Awaited cfg s uuid) (hl : Leaves s s' uuid) : Awaited cfg s' uuid :=
  ⟨h.toRowless.leaves hl, hl.unseen h.pending h.fresh h.unseen⟩

theorem UploadInv.leaves {u : Upload} (h : UploadInv cfg s u)
    (hl : ∀ uuid ∈ u.pc.owned, Leaves s s' uuid) : UploadInv cfg s' u := by
  unfold UploadInv at h ⊢
  cases hpc : u.pc with
  | create uuid =>
      rw [hpc] at h hl
      exact h.leaves (hl uuid rfl)
  | write uuid =>
      rw [hpc] at h hl
      exact ⟨h.1.leaves (hl uuid rfl), (hl uuid rfl).blobs h.1.fresh h.1.unseen _ h.2⟩
  | insert uuid =>
      rw [hpc] at h hl
      exact ⟨h.1.leaves (hl uuid rfl), (hl uuid rfl).blobs h.1.fresh h.1.unseen _ h.2⟩
  | cleanup uuid result =>
      rw [hpc] at h hl
      exact h.leaves (hl uuid rfl)
  | release uuid result =>
      rw [hpc] at h hl
      exact h.leaves (hl uuid rfl)
  | _ => trivial

/-! ## Steps on what is shared -/

theorem Leaves.refl (s : AssetShared) (uuid : String) : Leaves s s uuid where
  drawn := le_rfl
  pending := id
  fresh := id
  unseen _ _ h := h
  blobs _ _ _ h := h

/-- The janitor goes on to another place. -/
theorem Leaves.of_janitor {pc : JanitorPC}
    (h : uuid ∈ s.pending → uuid ∈ pc.passed → uuid ∈ s.janitor.passed) :
    Leaves s { s with janitor := pc } uuid where
  drawn := le_rfl
  pending := id
  fresh := id
  unseen hp _ hunseen hmem := hunseen (h hp hmem)
  blobs _ _ _ h := h

/-- A file is removed under another name. -/
theorem Leaves.of_removeFile {file : AssetFileRef} {pc : JanitorPC}
    (hfile : uuid ∉ s.store.uuids → uuid ∉ s.janitor.passed → uuid ≠ file.1)
    (h : uuid ∈ pc.passed → uuid ∈ s.janitor.passed) :
    Leaves s { s.removeFile file with janitor := pc } uuid where
  drawn := le_rfl
  pending := id
  fresh := id
  unseen _ _ hunseen hmem := hunseen (h hmem)
  blobs hfresh hunseen type hmem := by
    rw [AssetShared.removeFile, mem_deleteWhere]
    refine ⟨hmem, beq_eq_false_iff_ne.mpr fun heq => hfile hfresh hunseen ?_⟩
    rw [← heq]

/-- The rows of images stay as they are. -/
theorem Leaves.of_files {store : AssetStore} {pc : JanitorPC} {cursor : ℤ} {reconciled : Bool}
    (hfiles : store.files = s.store.files) (h : uuid ∈ pc.passed → uuid ∈ s.janitor.passed) :
    Leaves s { s with store, janitor := pc, reconcileCursor := cursor, reconciled } uuid where
  drawn := le_rfl
  pending := id
  fresh hfresh := by
    rw [AssetStore.uuids, hfiles]
    exact hfresh
  unseen _ _ hunseen hmem := hunseen (h hmem)
  blobs _ _ _ h := h

theorem FilesKept.of_janitor {pc : JanitorPC} (h : FilesKept cfg s)
    (hmet : ∀ uuid ∈ pc.met, Drawn cfg s.drawn uuid) (hdoomed : ∀ uuid ∈ pc.doomed, uuid ∉ s.store.uuids) :
    FilesKept cfg { s with janitor := pc } :=
  ⟨h.present, h.distinct, h.drawn, hmet, hdoomed⟩

/-- The janitor forgets some of what it knows. -/
theorem FilesKept.forget {pc : JanitorPC} (h : FilesKept cfg s) (hmet : pc.met ⊆ s.janitor.met)
    (hdoomed : pc.doomed ⊆ s.janitor.doomed) : FilesKept cfg { s with janitor := pc } :=
  h.of_janitor (fun uuid hmem => h.met uuid (hmet hmem)) fun uuid hmem => h.doomed uuid (hdoomed hmem)

theorem FilesKept.removeFile {file : AssetFileRef} (h : FilesKept cfg s) (hfile : file.1 ∉ s.store.uuids) :
    FilesKept cfg (s.removeFile file) where
  present f hf := by
    rw [AssetShared.removeFile, mem_deleteWhere]
    refine ⟨h.present f hf, beq_eq_false_iff_ne.mpr fun heq => hfile ?_⟩
    rw [← heq]
    exact mem_uuids hf
  distinct := h.distinct
  drawn f hf := by
    rw [AssetShared.removeFile, mem_deleteWhere] at hf
    exact h.drawn f hf.1
  met := h.met
  doomed := h.doomed

theorem FilesKept.of_files {store : AssetStore} {cursor : ℤ} {reconciled : Bool} (h : FilesKept cfg s)
    (hfiles : store.files = s.store.files) :
    FilesKept cfg { s with store, reconcileCursor := cursor, reconciled } := by
  have huuids : store.uuids = s.store.uuids := by rw [AssetStore.uuids, hfiles, AssetStore.uuids]
  constructor
  · exact hfiles ▸ h.present
  · exact huuids ▸ h.distinct
  · exact h.drawn
  · exact h.met
  · exact huuids ▸ h.doomed

/-- The janitor has deleted rows, and their files go next. -/
theorem FilesKept.collected {store : AssetStore} {refs : List AssetFileRef} {again : Bool}
    (h : FilesKept cfg s) (hperm : (store.files ++ refs).Perm s.store.files) :
    FilesKept cfg { s with store, janitor := .removing refs again } := by
  have hnodup : (store.files.map (·.1) ++ refs.map (·.1)).Nodup := by
    rw [← List.map_append]
    exact (hperm.map _).nodup_iff.mpr h.distinct
  have hsub : ∀ f ∈ store.files ++ refs, f ∈ s.blobs := fun f hf => h.present f (hperm.mem_iff.mp hf)
  constructor
  · intro f hf
    exact hsub f (List.mem_append_left _ hf)
  · exact (List.nodup_append.mp hnodup).1
  · exact h.drawn
  · intro uuid hmem
    obtain ⟨f, hf, rfl⟩ := List.mem_map.mp hmem
    exact h.drawn f (hsub f (List.mem_append_right _ hf))
  · intro uuid hmem hrow
    exact (List.nodup_append.mp hnodup).2.2 uuid hrow uuid hmem rfl

theorem Leaves.of_collected {store : AssetStore} {refs : List AssetFileRef} {again : Bool}
    (hperm : (store.files ++ refs).Perm s.store.files) :
    Leaves s { s with store, janitor := .removing refs again } uuid := by
  have hmem : ∀ l, l ⊆ store.files ++ refs → uuid ∈ l.map (·.1) → uuid ∈ s.store.uuids := by
    intro l hl hmem
    obtain ⟨f, hf, rfl⟩ := List.mem_map.mp hmem
    exact mem_uuids (hperm.mem_iff.mp (hl hf))
  constructor
  · exact le_rfl
  · exact id
  · intro hfresh hrow
    exact hfresh (hmem _ (List.subset_append_left _ _) hrow)
  · intro _ hfresh _ hrow
    exact hfresh (hmem _ (List.subset_append_right _ _) hrow)
  · intro _ _ _ h
    exact h

/-! ## The janitor -/

/-- A step of the janitor keeps the invariant, and leaves alone what the uploads know. -/
structure Keeps (cfg : AssetConfig) (s s' : AssetShared) : Prop where
  kept : FilesKept cfg s'
  leaves : ∀ uuid, Leaves s s' uuid

theorem Keeps.refl (h : FilesKept cfg s) : Keeps cfg s s := ⟨h, Leaves.refl s⟩

theorem Keeps.forget {pc : JanitorPC} (h : FilesKept cfg s) (hmet : pc.met ⊆ s.janitor.met)
    (hpassed : pc.passed ⊆ s.janitor.passed) (hdoomed : pc.doomed ⊆ s.janitor.doomed) :
    Keeps cfg s { s with janitor := pc } :=
  ⟨h.forget hmet hdoomed, fun _ => .of_janitor fun _ hmem => hpassed hmem⟩

theorem Keeps.idle (h : FilesKept cfg s) : Keeps cfg s { s with janitor := .idle } :=
  .forget h (List.nil_subset _) (List.nil_subset _) (List.nil_subset _)

/-- The file of a name that is doomed is removed. -/
theorem Keeps.removeFile {file : AssetFileRef} {pc : JanitorPC} (h : FilesKept cfg s)
    (hfile : file.1 ∈ s.janitor.doomed) (hmet : pc.met ⊆ s.janitor.met)
    (hpassed : pc.passed ⊆ s.janitor.passed) (hdoomed : pc.doomed ⊆ s.janitor.doomed) :
    Keeps cfg s { s.removeFile file with janitor := pc } := by
  refine ⟨(h.removeFile (h.doomed _ hfile)).forget hmet hdoomed, fun uuid => ?_⟩
  refine .of_removeFile (fun _ hunseen heq => hunseen ?_) fun hmem => hpassed hmem
  exact heq ▸ JanitorPC.passed_of_doomed hfile

theorem Keeps.reconcileBatch (h : FilesKept cfg s) (nowMs : ℤ) :
    Keeps cfg s (s.reconcileBatch cfg nowMs) := by
  unfold AssetShared.reconcileBatch
  split
  · next store cursor _ finished hreconcile =>
    have hfiles := (reconcileTodoAssets_sameAssets hreconcile).files
    have hpassed : (if finished then JanitorPC.idle else .reconciling).passed = [] := by
      split <;> rfl
    have hmet : (if finished then JanitorPC.idle else .reconciling).met = [] := by
      split <;> rfl
    have hdoomed : (if finished then JanitorPC.idle else .reconciling).doomed = [] := by
      split <;> rfl
    refine ⟨(h.of_files hfiles).forget ?_ ?_, fun uuid => .of_files hfiles fun hmem => ?_⟩
    · rw [hmet]
      exact List.nil_subset _
    · rw [hdoomed]
      exact List.nil_subset _
    · rw [hpassed] at hmem
      exact absurd hmem List.not_mem_nil
  · exact .idle h

theorem Keeps.collectBatch (h : FilesKept cfg s) (nowMs : ℤ) : Keeps cfg s (s.collectBatch cfg nowMs) := by
  unfold AssetShared.collectBatch
  split
  · next store result hcollect =>
    have hperm := collectGarbageAssets_perm hcollect
    exact ⟨h.collected hperm, fun _ => .of_collected hperm⟩
  · exact .idle h

/-- The janitor has seen that the file is old and that no upload holds its name. -/
theorem Keeps.look {file : AssetFileRef} {batch : List AssetFileRef} (h : FilesKept cfg s)
    (hpc : s.janitor = .looking file batch) (hfile : file.1 ∉ s.pending) :
    Keeps cfg s { s with janitor := .walking (batch ++ [file]) } := by
  have hmem : ∀ {uuid}, uuid ∈ (JanitorPC.walking (batch ++ [file])).passed →
      uuid = file.1 ∨ uuid ∈ batch.map (·.1) := by
    intro uuid hmem
    rw [JanitorPC.passed, List.map_append, List.mem_append, List.map_singleton, List.mem_singleton] at hmem
    exact hmem.symm
  refine ⟨h.of_janitor (fun uuid hmet => h.met uuid ?_) (by simp [JanitorPC.doomed]), fun uuid => ?_⟩
  · rw [hpc, JanitorPC.met, List.mem_cons]
    exact hmem hmet
  · refine .of_janitor fun hpending hpassed => ?_
    rw [hpc, JanitorPC.passed]
    refine (hmem hpassed).resolve_left ?_
    rintro rfl
    exact hfile hpending

/-- The janitor has asked which files of its batch have rows. -/
theorem Keeps.flush {batch : List AssetFileRef} {last : Bool} (h : FilesKept cfg s)
    (hpc : s.janitor = .walking batch) :
    Keeps cfg s { s with
      janitor := .flushing batch batch (existingAssetUUIDs s.store (batch.map (·.1))) last } := by
  have hmem : ∀ {uuid}, uuid ∈ (batch ++ batch).map (·.1) → uuid ∈ s.janitor.passed := by
    intro uuid hmem
    rw [hpc, JanitorPC.passed]
    rwa [List.map_append, List.mem_append, or_self] at hmem
  refine ⟨h.of_janitor ?_ ?_, fun uuid => .of_janitor fun _ hpassed => hmem hpassed⟩
  · exact fun uuid hmet => h.met uuid (JanitorPC.met_of_passed (hmem hmet))
  · intro uuid hdoomed hrow
    rw [JanitorPC.doomed, List.mem_filter] at hdoomed
    rw [AssetStore.uuids_eq] at hrow
    obtain ⟨a, ha, rfl⟩ := List.mem_map.mp hrow
    have hexisting : a.uuid ∈ existingAssetUUIDs s.store (batch.map (·.1)) :=
      List.mem_map_of_mem (List.mem_filter.mpr ⟨ha, List.contains_iff_mem.mpr hdoomed.1⟩)
    exact of_decide_eq_true hdoomed.2 hexisting

theorem Keeps.checkNext {rest batch : List AssetFileRef} {existing : List String} {last : Bool}
    (h : FilesKept cfg s) (hpc : s.janitor = .flushing rest batch existing last) :
    Keeps cfg s { s with janitor := s.checkNext rest batch existing last } := by
  unfold AssetShared.checkNext
  split
  · split
    · exact .idle h
    · exact .forget h (List.nil_subset _) (List.nil_subset _) (List.nil_subset _)
  · next file rest =>
    split
    · apply Keeps.forget h <;> rw [hpc]
      · exact List.map_subset _ (List.subset_cons_self file (rest ++ batch))
      · exact List.map_subset _ (List.subset_cons_self file (rest ++ batch))
      · rw [JanitorPC.doomed, JanitorPC.doomed, List.map_cons]
        exact ((List.sublist_cons_self _ _).filter _).subset
    · next hskip =>
      apply Keeps.forget h <;> rw [hpc]
      · exact List.Subset.refl _
      · exact List.Subset.refl _
      · rw [JanitorPC.doomed, JanitorPC.doomed, List.map_cons, List.filter_cons_of_pos]
        · exact List.Subset.refl _
        · exact decide_eq_true fun hexisting => hskip (.inl hexisting)

theorem Keeps.sweepFile {file : AssetFileRef} {rest batch : List AssetFileRef} {existing : List String}
    {last : Bool} (h : FilesKept cfg s) (hpc : s.janitor = .unlinking file rest batch existing last)
    (outcome : Removal) : Keeps cfg s (s.sweepFile file rest batch existing last outcome) := by
  have hpassed : (JanitorPC.flushing rest batch existing last).passed ⊆ s.janitor.passed := by
    rw [hpc]
    exact List.subset_cons_self _ _
  have hdoomed : (JanitorPC.flushing rest batch existing last).doomed ⊆ s.janitor.doomed := by
    rw [hpc]
    exact List.subset_cons_self _ _
  have hmet : (JanitorPC.flushing rest batch existing last).met ⊆ s.janitor.met := fun _ hmem =>
    JanitorPC.met_of_passed (hpassed hmem)
  cases outcome with
  | removed =>
      refine .removeFile h ?_ hmet hpassed hdoomed
      rw [hpc]
      exact List.mem_cons_self
  | held =>
      rw [AssetShared.sweepFile]
      split
      · exact .idle h
      · have hbatch : (JanitorPC.walking batch).passed ⊆ s.janitor.passed := fun uuid hmem =>
          hpassed (List.map_subset _ (List.subset_append_right rest batch) hmem)
        refine .forget h (fun uuid hmem => ?_) hbatch (List.nil_subset _)
        exact JanitorPC.met_of_passed (hbatch hmem)
  | failed => exact .forget h hmet hpassed hdoomed

theorem janitorStep_keeps (h : FilesKept cfg s) (act : JanitorAct) : Keeps cfg s (janitorStep cfg s act) := by
  unfold janitorStep
  split
  case h_1 =>
    split
    · exact .refl h
    · exact .forget h (List.nil_subset _) (List.nil_subset _) (List.nil_subset _)
  case h_2 => exact .reconcileBatch h _
  case h_3 =>
    split
    · exact .forget h (List.nil_subset _) (List.nil_subset _) (List.nil_subset _)
    · exact .refl h
  case h_4 => exact .collectBatch h _
  case h_5 file refs again hpc =>
    apply Keeps.removeFile h <;> rw [hpc]
    · exact List.mem_cons_self
    all_goals exact List.subset_cons_self _ _
  case h_6 file refs again outcome _ hpc =>
    apply Keeps.forget h <;> rw [hpc] <;> exact List.subset_cons_self _ _
  case h_7 =>
    split
    · exact .forget h (List.nil_subset _) (List.nil_subset _) (List.nil_subset _)
    · exact .idle h
  case h_8 => exact .forget h (List.nil_subset _) (List.nil_subset _) (List.nil_subset _)
  case h_9 batch file hpc =>
    split
    · next hfile =>
      refine ⟨h.of_janitor (fun uuid hmem => ?_) (by simp [JanitorPC.doomed]), fun uuid => ?_⟩
      · rcases List.mem_cons.mp hmem with rfl | hmem
        · exact h.drawn _ hfile
        · exact h.met uuid (hpc ▸ hmem)
      · exact .of_janitor fun _ hmem => hpc ▸ hmem
    · exact .refl h
  case h_10 file batch old hpc =>
    split
    · next hlook => exact .look h hpc hlook.2
    · apply Keeps.forget h <;> rw [hpc]
      · exact List.subset_cons_self _ _
      · exact List.Subset.refl _
      · exact List.Subset.refl _
  case h_11 hpc => exact .flush h hpc
  case h_12 hpc => exact .checkNext h hpc
  case h_13 outcome hpc => exact .sweepFile h hpc outcome
  case h_14 => exact .idle h
  case h_15 => exact .idle h
  case h_16 => exact .idle h
  case h_17 => exact .refl h

/-! ## Uploads -/

/-- A step of an upload keeps the invariant, for itself and for the others. -/
structure UploadKeeps (cfg : AssetConfig) (s : AssetShared) (u : Upload) (s' : AssetShared) (pc : UploadPC) :
    Prop where
  kept : FilesKept cfg s'
  self : UploadInv cfg s' { u with pc }
  others : ∀ v, OwnNames u v → UploadInv cfg s v → UploadInv cfg s' v ∧ OwnNames { u with pc } v

variable {u : Upload} {pc : UploadPC}

/-- Only the name of the upload is touched, and it takes no other. -/
theorem UploadKeeps.of_leaves (kept : FilesKept cfg s') (self : UploadInv cfg s' { u with pc })
    (hleaves : ∀ uuid ∉ u.pc.owned, Leaves s s' uuid) (howned : ∀ uuid ∈ pc.owned, uuid ∈ u.pc.owned) :
    UploadKeeps cfg s u s' pc := by
  refine ⟨kept, self, fun v hown hv => ⟨hv.leaves fun uuid hmem => ?_, fun uuid hmem => ?_⟩⟩
  · exact hleaves uuid fun hu => hown uuid hu hmem
  · exact hown uuid (howned uuid hmem)

theorem UploadKeeps.stay (kept : FilesKept cfg s) (self : UploadInv cfg s { u with pc })
    (howned : ∀ uuid ∈ pc.owned, uuid ∈ u.pc.owned) : UploadKeeps cfg s u s pc :=
  .of_leaves kept self (fun uuid _ => .refl s uuid) howned

/-- The upload is over and owns no name. -/
theorem UploadKeeps.done (kept : FilesKept cfg s) (result : UploadResult) :
    UploadKeeps cfg s u s (.done result) :=
  .stay kept trivial (by simp [UploadPC.owned])

/-- The upload got an image that is there. -/
theorem UploadKeeps.deduped {store : AssetStore} (kept : FilesKept cfg s) (hsame : SameAssets s.store store)
    (hinv : UploadInv cfg s { u with pc }) (howned : ∀ uuid ∈ pc.owned, uuid ∈ u.pc.owned) :
    UploadKeeps cfg s u { s with store } pc := by
  have hleaves : ∀ uuid, Leaves s { s with store } uuid := fun _ => .of_files hsame.files id
  exact .of_leaves (kept.of_files hsame.files) (hinv.leaves fun uuid _ => hleaves uuid)
    (fun uuid _ => hleaves uuid) howned

theorem UploadKeeps.draw (hnames : Function.Injective cfg.newRandom) (h : FilesKept cfg s) :
    UploadKeeps cfg s u
      { s with drawn := s.drawn + 1, pending := cfg.newRandom s.drawn :: s.pending }
      (.create (cfg.newRandom s.drawn)) := by
  have hnew := not_drawn_next hnames s.drawn
  have hleaves : ∀ uuid, Leaves s
      { s with drawn := s.drawn + 1, pending := cfg.newRandom s.drawn :: s.pending } uuid := fun uuid =>
    { drawn := Nat.le_succ _
      pending := List.mem_cons_of_mem _
      fresh := id
      unseen := fun _ _ hunseen => hunseen
      blobs := fun _ _ _ hmem => hmem }
  refine ⟨⟨h.present, h.distinct, ?_, ?_, h.doomed⟩, ⟨⟨⟨List.mem_cons_self, ?_⟩, ?_⟩, ?_⟩, fun v _ hv => ?_⟩
  · exact fun f hf => (h.drawn f hf).mono (Nat.le_succ _)
  · exact fun uuid hmem => (h.met uuid hmem).mono (Nat.le_succ _)
  · exact ⟨s.drawn, Nat.lt_succ_self _, rfl⟩
  · intro hrow
    obtain ⟨f, hf, heq⟩ := List.mem_map.mp hrow
    exact hnew (heq ▸ h.drawn f (h.present f hf))
  · exact fun hpassed => hnew (h.met _ (JanitorPC.met_of_passed hpassed))
  · refine ⟨hv.leaves fun uuid _ => hleaves uuid, fun uuid hmem hother => hnew ?_⟩
    rw [UploadPC.owned, Option.mem_some_iff] at hmem
    exact hmem ▸ (hv.held hother).drawn

/-- The file is there, and is going to be written. -/
theorem UploadKeeps.opened {uuid : String} {file : AssetFileRef} (h : FilesKept cfg s)
    (hpc : u.pc = .create uuid) (hinv : Awaited cfg s uuid) (hfile : file = (uuid, u.request.image.type)) :
    UploadKeeps cfg s u { s with blobs := file :: s.blobs } (.write uuid) := by
  have hleaves : ∀ uuid, Leaves s { s with blobs := file :: s.blobs } uuid := fun uuid =>
    { drawn := le_rfl
      pending := id
      fresh := id
      unseen := fun _ _ hunseen => hunseen
      blobs := fun _ _ _ hmem => List.mem_cons_of_mem _ hmem }
  refine .of_leaves ⟨?_, h.distinct, ?_, h.met, h.doomed⟩ ⟨hinv.leaves (hleaves uuid), ?_⟩
    (fun uuid _ => hleaves uuid) ?_
  · exact fun f hf => List.mem_cons_of_mem _ (h.present f hf)
  · intro f hf
    rcases List.mem_cons.mp hf with rfl | hf
    · exact hfile ▸ hinv.drawn
    · exact h.drawn f hf
  · exact hfile ▸ List.mem_cons_self
  · rw [hpc]
    exact fun _ hmem => hmem

/-- The row of the upload is inserted. -/
theorem UploadKeeps.inserted {uuid : String} {store : AssetStore} {result : UploadResult}
    (h : FilesKept cfg s) (hpc : u.pc = .insert uuid) (hinv : Awaited cfg s uuid)
    (hfile : (uuid, u.request.image.type) ∈ s.blobs) (hfiles : store.files = s.store.files ++ [(uuid, u.request.image.type)]) :
    UploadKeeps cfg s u { s with store } (.release uuid result) := by
  have huuids : store.uuids = s.store.uuids ++ [uuid] := by
    rw [AssetStore.uuids, hfiles, List.map_append]
    rfl
  refine .of_leaves ⟨?_, ?_, h.drawn, h.met, ?_⟩ ⟨hinv.pending, hinv.drawn⟩ (fun other hother => ?_) ?_
  · intro f hf
    rw [hfiles, List.mem_append, List.mem_singleton] at hf
    rcases hf with hf | rfl
    · exact h.present f hf
    · exact hfile
  · rw [huuids]
    refine List.nodup_append.mpr ⟨h.distinct, List.nodup_singleton uuid, fun a ha b hb => ?_⟩
    rw [List.mem_singleton.mp hb]
    rintro rfl
    exact hinv.fresh ha
  · intro other hdoomed hrow
    rw [huuids, List.mem_append, List.mem_singleton] at hrow
    rcases hrow with hrow | rfl
    · exact h.doomed other hdoomed hrow
    · exact hinv.unseen (JanitorPC.passed_of_doomed hdoomed)
  · refine ⟨le_rfl, id, fun hfresh hrow => ?_, fun _ _ hunseen => hunseen, fun _ _ _ hmem => hmem⟩
    rw [huuids, List.mem_append, List.mem_singleton] at hrow
    rcases hrow with hrow | rfl
    · exact hfresh hrow
    · rw [hpc] at hother
      exact hother rfl
  · rw [hpc]
    exact fun _ hmem => hmem

theorem UploadKeeps.cleaned {uuid : String} {result result' : UploadResult} (h : FilesKept cfg s)
    (hpc : u.pc = .cleanup uuid result) (hinv : Rowless cfg s uuid) :
    UploadKeeps cfg s u (s.removeFile (uuid, u.request.image.type)) (.release uuid result') := by
  refine .of_leaves (h.removeFile hinv.fresh) ⟨hinv.pending, hinv.drawn⟩ (fun other hother => ?_) ?_
  · refine .of_removeFile (fun _ _ heq => hother ?_) id
    rw [hpc, heq]
    rfl
  · rw [hpc]
    exact fun _ hmem => hmem

theorem UploadKeeps.released {uuid : String} {result result' : UploadResult} (h : FilesKept cfg s)
    (hpc : u.pc = .release uuid result) :
    UploadKeeps cfg s u { s with pending := s.pending.erase uuid } (.done result') := by
  refine .of_leaves ⟨h.present, h.distinct, h.drawn, h.met, h.doomed⟩ trivial (fun other hother => ?_)
    (by simp [UploadPC.owned])
  refine ⟨le_rfl, fun hmem => ?_, id, fun _ _ hunseen => hunseen, fun _ _ _ hmem => hmem⟩
  refine (List.mem_erase_of_ne ?_).mpr hmem
  rintro rfl
  rw [hpc] at hother
  exact hother rfl

/-- The upload that found an image gets one that is there. -/
theorem uploadProceed_reuse_keeps {existing : ProjectAsset} (h : FilesKept cfg s)
    (hpc : u.pc = .reuse existing)
    (hstored : (findProjectAssetBySHATx s.store u.request.projectID existing.sha256).isSome = true)
    (nowMs : ℤ) :
    UploadKeeps cfg s u (uploadProceed cfg s u nowMs).1 (uploadProceed cfg s u nowMs).2 := by
  simp only [uploadProceed, hpc]
  split
  · next store a deduped hcreate =>
    rcases createProjectAsset_cases hcreate with ⟨_, hsame⟩ | ⟨_, hnone, _⟩
    · exact .deduped h hsame trivial (by simp [UploadPC.owned])
    · rw [Upload.reuseInput] at hnone
      rw [hnone] at hstored
      exact absurd hstored Bool.false_ne_true
  · exact .done h _

theorem uploadProceed_create_keeps {uuid : String} (h : FilesKept cfg s) (hpc : u.pc = .create uuid)
    (hinv : Awaited cfg s uuid) (nowMs : ℤ) :
    UploadKeeps cfg s u (uploadProceed cfg s u nowMs).1 (uploadProceed cfg s u nowMs).2 := by
  simp only [uploadProceed, hpc]
  split
  · next s₁ hopen =>
    simp only [AssetShared.openExclusive, bind_eq_ok, reject_eq_ok, pure_eq_ok] at hopen
    obtain ⟨_, _, _, _, rfl⟩ := hopen
    exact .opened h hpc hinv rfl
  · refine .stay h hinv.toHeld ?_
    rw [hpc]
    exact fun _ hmem => hmem

theorem uploadProceed_insert_keeps {uuid : String} (h : FilesKept cfg s) (hpc : u.pc = .insert uuid)
    (hinv : Awaited cfg s uuid) (hfile : (uuid, u.request.image.type) ∈ s.blobs) (nowMs : ℤ) :
    UploadKeeps cfg s u (uploadProceed cfg s u nowMs).1 (uploadProceed cfg s u nowMs).2 := by
  have howned : ∀ x ∈ some uuid, x ∈ u.pc.owned := by
    rw [hpc]
    exact fun _ hmem => hmem
  simp only [uploadProceed, hpc]
  split
  · next store a hcreate =>
    rcases createProjectAsset_cases hcreate with ⟨hdeduped, _⟩ | ⟨_, _, _, hfiles⟩
    · exact absurd hdeduped Bool.false_ne_true
    · exact .inserted h hpc hinv hfile hfiles
  · next store a hcreate =>
    rcases createProjectAsset_cases hcreate with ⟨_, hsame⟩ | ⟨hdeduped, _⟩
    · exact .deduped h hsame hinv.toRowless howned
    · exact absurd hdeduped.symm Bool.false_ne_true
  · exact .stay h hinv.toRowless howned

theorem uploadProceed_keeps (hnames : Function.Injective cfg.newRandom) (h : FilesKept cfg s)
    (hu : UploadInv cfg s u)
    (hstored : ∀ existing ∈ u.pc.found,
      (findProjectAssetBySHATx s.store u.request.projectID existing.sha256).isSome = true) (nowMs : ℤ) :
    UploadKeeps cfg s u (uploadProceed cfg s u nowMs).1 (uploadProceed cfg s u nowMs).2 := by
  unfold UploadInv at hu
  cases hpc : u.pc with
  | lookup =>
      simp only [uploadProceed, hpc]
      split
      · exact .stay h trivial (by simp [UploadPC.owned])
      · exact .stay h trivial (by simp [UploadPC.owned])
  | reuse existing =>
      rw [hpc] at hstored
      exact uploadProceed_reuse_keeps h hpc (hstored existing rfl) nowMs
  | budget =>
      simp only [uploadProceed, hpc]
      split
      · exact .stay h trivial (by simp [UploadPC.owned])
      · exact .done h _
  | draw =>
      simp only [uploadProceed, hpc]
      exact .draw hnames h
  | create uuid =>
      rw [hpc] at hu
      exact uploadProceed_create_keeps h hpc hu nowMs
  | write uuid =>
      rw [hpc] at hu
      simp only [uploadProceed, hpc]
      refine .stay h hu ?_
      rw [hpc]
      exact fun _ hmem => hmem
  | insert uuid =>
      rw [hpc] at hu
      exact uploadProceed_insert_keeps h hpc hu.1 hu.2 nowMs
  | cleanup uuid result =>
      rw [hpc] at hu
      simp only [uploadProceed, hpc]
      exact .cleaned h hpc hu
  | release uuid result =>
      simp only [uploadProceed, hpc]
      exact .released h hpc
  | done result =>
      simp only [uploadProceed, hpc]
      exact .done h result

theorem afterFailure_keeps (h : FilesKept cfg s) (hu : UploadInv cfg s u) :
    UploadKeeps cfg s u s u.pc.afterFailure := by
  unfold UploadInv at hu
  cases hpc : u.pc with
  | create uuid =>
      rw [hpc] at hu
      refine .stay h hu.toHeld ?_
      rw [hpc]
      exact fun _ hmem => hmem
  | write uuid =>
      rw [hpc] at hu
      refine .stay h hu.1.toRowless ?_
      rw [hpc]
      exact fun _ hmem => hmem
  | insert uuid =>
      rw [hpc] at hu
      refine .stay h hu.1.toRowless ?_
      rw [hpc]
      exact fun _ hmem => hmem
  | cleanup uuid result =>
      rw [hpc] at hu
      refine .stay h hu.toHeld ?_
      rw [hpc]
      exact fun _ hmem => hmem
  | release uuid result =>
      rw [hpc] at hu
      refine .stay h hu ?_
      rw [hpc]
      exact fun _ hmem => hmem
  | _ => exact .done h _

end

/-! ## Runs -/

section

variable {cfg : AssetConfig} {s : AssetSystem}

theorem AssetInv.start (db : DB) (requests : List UploadRequest) : AssetInv cfg (.start db requests) := by
  have hpc : ∀ u ∈ (AssetSystem.start db requests).procs, u.pc = .lookup := by
    intro u hu
    obtain ⟨request, _, rfl⟩ := List.mem_map.mp hu
    rfl
  refine ⟨⟨⟨?_, List.nodup_nil, ?_, ?_, ?_⟩, fun u hu => ?_⟩, fun i j u v _ hu _ uuid hmem => ?_⟩
  · exact fun f hf => absurd hf List.not_mem_nil
  · exact fun f hf => absurd hf List.not_mem_nil
  · exact fun f hf => absurd hf List.not_mem_nil
  · exact fun f hf => absurd hf List.not_mem_nil
  · rw [UploadInv, hpc u hu]
    trivial
  · rw [hpc u (List.mem_of_getElem? hu)] at hmem
    exact absurd hmem (by simp [UploadPC.owned])

/-- What is shared changes, and the uploads stay where they are. -/
theorem AssetInv.keeps (h : AssetInv cfg s) {shared : AssetShared} (hkeeps : Keeps cfg s.shared shared) :
    AssetInv cfg ⟨shared, s.procs⟩ :=
  ⟨⟨hkeeps.kept, fun u hu => (h.procs u hu).leaves fun uuid _ => hkeeps.leaves uuid⟩, h.pairs⟩

theorem Keeps.edit {s : AssetShared} (h : FilesKept cfg s) (db : DB) (projectID todoID : ℤ) (body : String)
    (nowMs : ℤ) : Keeps cfg s (s.edit cfg db projectID todoID body nowMs) := by
  unfold AssetShared.edit
  split
  · next store hsync =>
    have hfiles := (syncTodoAssetsTx_sameAssets hsync).files
    exact ⟨h.of_files hfiles, fun _ => .of_files hfiles id⟩
  · exact .refl h

theorem Upload.owned_restart (u : Upload) : u.restart.pc.owned = none := by
  unfold Upload.restart
  cases u.pc <;> rfl

theorem Upload.inv_restart (u : Upload) (s : AssetShared) : UploadInv cfg s u.restart := by
  unfold UploadInv Upload.restart
  cases u.pc <;> trivial

theorem AssetInv.restart (h : AssetInv cfg s) :
    AssetInv cfg ⟨s.shared.restart, s.procs.map Upload.restart⟩ := by
  obtain ⟨present, distinct, drawn, _, _⟩ := h.shared
  refine ⟨⟨⟨present, distinct, drawn, ?_, ?_⟩, fun u hu => ?_⟩, fun i j u v _ hu _ uuid hmem => ?_⟩
  · exact fun f hf => absurd hf List.not_mem_nil
  · exact fun f hf => absurd hf List.not_mem_nil
  · obtain ⟨u, _, rfl⟩ := List.mem_map.mp hu
    exact u.inv_restart _
  · obtain ⟨u, _, rfl⟩ := List.mem_map.mp (List.mem_of_getElem? hu)
    rw [u.owned_restart] at hmem
    exact absurd hmem (by simp)

theorem AssetInv.step (hnames : Function.Injective cfg.newRandom) (act : AssetAct) (h : AssetInv cfg s)
    (hstored : StillStored s act) : AssetInv cfg (assetStep cfg s act) := by
  cases act with
  | upload i env =>
      refine Pool.PairInv.step h OwnNames.symm fun u hu hinv => ?_
      have hkeeps : UploadKeeps cfg s.shared u (uploadStep cfg s.shared u env).1
          (uploadStep cfg s.shared u env).2.pc := by
        unfold uploadStep
        split
        · exact uploadProceed_keeps hnames h.shared hinv (hstored u hu) env.nowMs
        · exact afterFailure_keeps h.shared hinv
      have hnext : (uploadStep cfg s.shared u env).2 =
          { u with pc := (uploadStep cfg s.shared u env).2.pc } := by
        unfold uploadStep
        split <;> rfl
      rw [hnext]
      exact ⟨hkeeps.kept, hkeeps.self, hkeeps.others⟩
  | janitor act => exact h.keeps (janitorStep_keeps h.shared act)
  | edit db projectID todoID body nowMs => exact h.keeps (.edit h.shared db projectID todoID body nowMs)
  | restart => exact h.restart

/-- In a run where every upload that found an image still finds one when it asks for it, every
row of an image has its file, in every state of the run. -/
theorem asset_files_present (hnames : Function.Injective cfg.newRandom) (db : DB)
    (requests : List UploadRequest) (past future : List AssetAct)
    (hstored : Along StillStored (assetStep cfg) (.start db requests) (past ++ future)) :
    ∀ a ∈ (run (assetStep cfg) (.start db requests) past).shared.store.assets,
      a.file ∈ (run (assetStep cfg) (.start db requests) past).shared.blobs := by
  have hinv : AssetInv cfg (run (assetStep cfg) (.start db requests) past) :=
    run_along (fun _ act h hstored => h.step hnames act hstored) (.start db requests) hstored.of_append
  exact fun a ha => hinv.shared.present a.file (List.mem_map_of_mem ha)

end

/-- A name and longer and longer ones. -/
def padded (name : List Char) (n : ℕ) : String := String.ofList (name ++ List.replicate n 'x')

theorem padded_injective (name : List Char) : Function.Injective (padded name) := by
  intro n m h
  have h := congrArg (fun s : String => s.toList.length) h
  simp only [padded, String.toList_ofList, List.length_append, List.length_replicate] at h
  exact Nat.add_left_cancel h

/-- The names of a run in which one name is drawn; it is the only one that is a UUID. -/
def oneName : ℕ → String := padded "6a7d1f6e-3c1b-4e0a-9d52-8f0c2b7a1e34".toList

/-- No story embeds an image. -/
def plainConfig : AssetConfig where
  extract _ := []
  newRandom := oneName

def soloBoard : DB :=
  { projects := [{ defaultProjectRow 0 with id := 1, name := "Board", slug := "board" }]
    members := [⟨1, 1, .maintainer, 0⟩] }

def dotUpload : UploadRequest where
  userID := some 1
  projectID := 1
  todoLocalID := none
  originalName := "dot.png"
  image := ⟨.png, 68, 1, 1, "ebf4f635a17d10d6eb46ba680b70142419aa3220f228001a036d311a22ee9d2a"⟩

/-- The steps of the first upload, after the references have been reconciled. -/
def firstUpload : List AssetAct :=
  [AssetAct.janitor .startReconcile, .janitor (.reconcile 0)] ++ List.replicate 7 (.upload 0 { nowMs := 0 })

/-- The second upload finds the image of the first, and asks for it at once. -/
def promptReuse : List AssetAct :=
  firstUpload ++ [AssetAct.upload 1 { nowMs := 1 }, .upload 1 { nowMs := 1 }, .janitor .startSweep,
    .janitor (.visit ("6a7d1f6e-3c1b-4e0a-9d52-8f0c2b7a1e34", .png)), .janitor (.look true),
    .janitor (.flush true), .janitor (.flush true), .janitor (.flush true)]

theorem asset_files_present_reuse :
    (run (assetStep plainConfig) (.start soloBoard [dotUpload, dotUpload]) promptReuse).shared.store.files =
        [("6a7d1f6e-3c1b-4e0a-9d52-8f0c2b7a1e34", .png)] ∧
      ∀ a ∈ (run (assetStep plainConfig) (.start soloBoard [dotUpload, dotUpload])
          promptReuse).shared.store.assets,
        a.file ∈ (run (assetStep plainConfig) (.start soloBoard [dotUpload, dotUpload])
          promptReuse).shared.blobs :=
  ⟨by decide +kernel, asset_files_present (padded_injective _) soloBoard [dotUpload, dotUpload] promptReuse []
    (by decide +kernel)⟩

/-- The second upload finds the image of the first, and asks for it eight days later, when it
has been collected. -/
def lateReuse : List AssetAct :=
  firstUpload ++ [AssetAct.upload 1 { nowMs := 1 }, .janitor .startGC, .janitor (.collect 691200000),
    .janitor (.remove .removed), .upload 1 { nowMs := 691200000 }]

/-- The row is inserted again without its file. -/
theorem reused_row_without_file :
    ¬ ∀ cfg : AssetConfig, Function.Injective cfg.newRandom → ∀ db requests acts,
      ∀ a ∈ (run (assetStep cfg) (.start db requests) acts).shared.store.assets,
        a.file ∈ (run (assetStep cfg) (.start db requests) acts).shared.blobs := by
  intro h
  have h := h plainConfig (padded_injective _) soloBoard [dotUpload, dotUpload] lateReuse
  exact absurd h (by decide +kernel)

end Scrumboy
