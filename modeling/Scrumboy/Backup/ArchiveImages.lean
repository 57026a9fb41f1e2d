import Scrumboy.Backup.Archive

/-!
# What an import of an archive does with images

Of the tables of images an import changes the times and the references, and it inserts rows of
staged images. `ImageRule` says what a property must survive for that, and one lemma for each
mode draws the conclusion.
-/

namespace Scrumboy

open Go Sql

/-- A property of the tables of images and of the new names with a row that an import of the
images `staged` keeps. -/
structure ImageRule (budgets : AssetBudgets) (staged : ImportStagedAsset → Prop)
    (P : AssetStore → List String → Prop) : Prop where
  same : ∀ {s s' : AssetStore} {used : List String},
    s'.assets.map ProjectAsset.identity = s.assets.map ProjectAsset.identity → P s used → P s' used
  insert : ∀ {s s' : AssetStore} {used : List String} {a : ImportStagedAsset} {projectID nowMs : ℤ},
    staged a → P s used → checkAssetBudget budgets s projectID a.sizeBytes = .ok () →
      insertImportedAssetTx s (a.input projectID) nowMs = .ok s' → P s' (used ++ [a.newUUID])

section

variable {rt : Runtime} {ctx : Ctx} {rules : ArchiveRules} {draws : ℕ → ProjectDraws}
  {plan : ℕ → List ImportStagedAsset} {staged : ImportStagedAsset → Prop}
  {P : AssetStore → List String → Prop}

namespace ImageRule

/-- The other tables do not matter. -/
theorem withDB {budgets : AssetBudgets} (hP : ImageRule budgets staged P) {s : AssetStore}
    {used : List String} (hs : P s used) (db : DB) : P { s with db } used := by
  have hsame : { s with db }.assets.map ProjectAsset.identity = s.assets.map ProjectAsset.identity := rfl
  exact hP.same hsame hs

theorem applyStagedAsset (hP : ImageRule rules.budgets staged P) {projectID nowMs : ℤ}
    {s s' : ImageScan} {a : ImportStagedAsset} (ha : staged a) (hs : P s.store s.used)
    (h : applyStagedAsset rules.budgets projectID nowMs s a = .ok s') : P s'.store s'.used := by
  unfold Scrumboy.applyStagedAsset at h
  split at h
  · next existing _ =>
    rw [pure_eq_ok] at h
    subst h
    exact hP.same (refreshDedupedAssetTx_sameAssets s.store existing nowMs).assets hs
  · simp only [bind_eq_ok, mapError_eq_ok, pure_eq_ok] at h
    obtain ⟨_, hcheck, store, hinsert, rfl⟩ := h
    exact hP.insert ha hs hcheck hinsert

theorem applyImportAssetsTx (hP : ImageRule rules.budgets staged P) {s s' : AssetStore}
    {used used' : List String} {images : List ImportStagedAsset} {projectID nowMs : ℤ}
    {p : ArchiveProject} {todos : List TodoExport} (himages : ∀ a ∈ images, staged a) (hs : P s used)
    (h : applyImportAssetsTx rules s used images projectID p nowMs = .ok (s', used', todos)) :
    P s' used' := by
  simp only [Scrumboy.applyImportAssetsTx, bind_eq_ok, mapError_eq_ok, pure_eq_ok, Prod.mk.injEq] at h
  obtain ⟨scan, hscan, _, _, rfl, rfl, _⟩ := h
  refine foldlM_inv (P := fun scan : ImageScan => P scan.store scan.used) ?_ hs hscan
  intro scan a scan' ha hs hstep
  exact hP.applyStagedAsset (himages a ha) hs hstep

theorem syncedTodos (hP : ImageRule rules.budgets staged P) {projectID : ℤ}
    {step : TodoScan → TodoExport → Result TodoScan} {s s' : TodoScan × AssetStore} {used : List String}
    {todos : List TodoExport} (hs : P s.2 used)
    (h : todos.foldlM (syncedTodo rules ctx projectID step) s = .ok s') : P s'.2 used := by
  refine foldlM_inv (P := fun s : TodoScan × AssetStore => P s.2 used) ?_ hs h
  intro s t s' _ hs hstep
  simp only [syncedTodo, bind_eq_ok, pure_eq_ok] at hstep
  obtain ⟨scan, _, store, hsync, rfl⟩ := hstep
  exact hP.same (syncTodoAssetsTx_sameAssets hsync).assets (hP.withDB hs scan.db)

theorem mergeArchiveProject (hP : ImageRule rules.budgets staged P) (hplan : ∀ i, ∀ a ∈ plan i, staged a)
    {selected : Selector} {s s' : ArchiveTx × List ℤ} {pi : ArchiveProject × ℕ}
    (hs : P s.1.store s.1.used)
    (h : mergeArchiveProject rt ctx rules draws plan selected s pi = .ok s') :
    P s'.1.store s'.1.used := by
  simp only [Scrumboy.mergeArchiveProject, bind_eq_ok, mapError_eq_ok, pure_eq_ok] at h
  obtain ⟨_, _, _, _, ⟨tx, projectID⟩, _, db, _, ⟨store, used, todos⟩, himages, ⟨scan, store'⟩, hscan,
    _, _, _, _, rfl⟩ := h
  have himages : P store used := hP.applyImportAssetsTx (hplan pi.2) (hP.withDB hs _) himages
  exact hP.withDB (hP.syncedTodos himages hscan) _

theorem copyArchiveProject (hP : ImageRule rules.budgets staged P) (hplan : ∀ i, ∀ a ∈ plan i, staged a)
    {mode : Mode} {s s' : ArchiveTx} {pi : ArchiveProject × ℕ} (hs : P s.store s.used)
    (h : copyArchiveProject rt ctx rules draws plan mode s pi = .ok s') : P s'.store s'.used := by
  simp only [Scrumboy.copyArchiveProject, bind_eq_ok, mapError_eq_ok, pure_eq_ok] at h
  obtain ⟨_, _, _, _, slug, _, ⟨db, projectID⟩, _, db', _, ⟨store, used, todos⟩, himages,
    ⟨scan, store'⟩, hscan, _, _, _, _, rfl⟩ := h
  have himages : P store used := hP.applyImportAssetsTx (hplan pi.2) (hP.withDB hs _) himages
  exact hP.withDB (hP.syncedTodos himages hscan) _

theorem stageArchiveProject (hP : ImageRule rules.budgets staged P) (hplan : ∀ i, ∀ a ∈ plan i, staged a)
    {mode : Mode} {batchID : String} {s s' : ArchiveTx} {pi : ArchiveProject × ℕ}
    (hs : P s.store s.used)
    (h : stageArchiveProject rt ctx rules draws plan mode batchID s pi = .ok s') :
    P s'.store s'.used := by
  simp only [Scrumboy.stageArchiveProject, bind_eq_ok, mapError_eq_ok, pure_eq_ok] at h
  obtain ⟨⟨db, projectID⟩, _, _, _, _, _, _, _, _, _, ⟨store, used, todos⟩, himages, _, _,
    ⟨scan, store'⟩, hscan, _, _, _, _, _, _, rfl⟩ := h
  have himages : P store used := hP.applyImportAssetsTx (hplan pi.2) (hP.withDB hs _) himages
  exact hP.withDB (hP.syncedTodos himages hscan) _

theorem importArchiveMerge (hP : ImageRule rules.budgets staged P) (hplan : ∀ i, ∀ a ∈ plan i, staged a)
    {s s' : AssetStore} {data : ArchiveData} {report : ImportReport} (hs : P s [])
    (h : importArchiveMerge rt ctx rules draws plan s data = .ok (s', report)) : P s' report.used := by
  simp only [Scrumboy.importArchiveMerge, bind_eq_ok, mapError_eq_ok, pure_eq_ok, Prod.mk.injEq] at h
  obtain ⟨selected, _, _, _, ⟨tx, projectIDs⟩, hfold, _, _, rfl, rfl⟩ := h
  exact foldlM_inv (P := fun s : ArchiveTx × List ℤ => P s.1.store s.1.used)
    (fun _ _ _ _ hs hstep => hP.mergeArchiveProject hplan hs hstep) hs hfold

theorem importArchiveCopy (hP : ImageRule rules.budgets staged P) (hplan : ∀ i, ∀ a ∈ plan i, staged a)
    {s s' : AssetStore} {data : ArchiveData} {mode : Mode} {report : ImportReport} (hs : P s [])
    (h : importArchiveCopy rt ctx rules draws plan s data mode = .ok (s', report)) :
    P s' report.used := by
  simp only [Scrumboy.importArchiveCopy, bind_eq_ok, pure_eq_ok, Prod.mk.injEq] at h
  obtain ⟨tx, hfold, rfl, rfl⟩ := h
  exact foldlM_inv (P := fun s : ArchiveTx => P s.store s.used)
    (fun _ _ _ _ hs hstep => hP.copyArchiveProject hplan hs hstep) hs hfold

/-- Phase A of a replace keeps the property, whether it ends with an error or not. -/
theorem stageArchiveProjects {faults : ImportFaults} {req : ArchiveRequest}
    (hP : ImageRule rules.budgets staged P) (hplan : ∀ i, ∀ a ∈ req.plan i, staged a) {tx : ArchiveTx}
    {l : List (ArchiveProject × ℕ)} {s : AssetStore} {r : Except AssetError ArchiveTx}
    (htx : P tx.store tx.used) (h : stageArchiveProjects rt ctx rules faults req tx l = (s, r)) :
    (∃ used, P s used) ∧ ∀ tx', r = .ok tx' → P s tx'.used := by
  induction l generalizing tx with
  | nil =>
      cases h
      exact ⟨⟨tx.used, htx⟩, fun tx' heq => by cases heq; exact htx⟩
  | cons pi rest ih =>
      rw [Scrumboy.stageArchiveProjects] at h
      split at h
      · cases h
        exact ⟨⟨tx.used, htx⟩, fun tx' heq => by cases heq⟩
      · next tx' hstage =>
        split at h
        · cases h
          exact ⟨⟨tx.used, htx⟩, fun tx' heq => by cases heq⟩
        · exact ih (hP.stageArchiveProject hplan htx hstage) h

end ImageRule

/-- What is left of the tables when a transaction is over: the new ones if it went through, or
the old ones. -/
theorem AssetStore.transact_cases {α : Type} (s : AssetStore) (fault : Bool)
    (x : Except AssetError (AssetStore × α)) :
    (∃ s' a, x = .ok (s', a) ∧ s.transact fault x = (s', .ok a)) ∨ ∃ e, s.transact fault x = (s, .error e) := by
  unfold AssetStore.transact
  split
  · next s' a =>
    cases fault with
    | false => exact .inl ⟨s', a, rfl, rfl⟩
    | true => exact .inr ⟨databaseFailure, rfl⟩
  · next e => exact .inr ⟨e, rfl⟩

/-! ## Deletions -/

/-- The rows of images become fewer. -/
def FewerImages (s s' : AssetStore) : Prop :=
  (s'.assets.map ProjectAsset.identity).Sublist (s.assets.map ProjectAsset.identity)

theorem FewerImages.trans {s₁ s₂ s₃ : AssetStore} (h : FewerImages s₁ s₂) (h' : FewerImages s₂ s₃) :
    FewerImages s₁ s₃ :=
  List.Sublist.trans h' h

theorem SameAssets.fewer {s s' : AssetStore} (h : SameAssets s s') : FewerImages s s' := by
  rw [FewerImages, h.assets]

theorem deleteProjects_fewer (s : AssetStore) (gone : ProjectRow → Bool) :
    FewerImages s (s.deleteProjects gone) :=
  (List.filter_sublist).map ProjectAsset.identity

theorem FewerImages.files {s s' : AssetStore} (h : FewerImages s s') : s'.files.Sublist s.files := by
  have hfile : ∀ l : List ProjectAsset,
      l.map ProjectAsset.file = (l.map ProjectAsset.identity).map ProjectAsset.file := by
    intro l
    rw [List.map_map]
    rfl
  rw [AssetStore.files, AssetStore.files, hfile, hfile s.assets]
  exact h.map ProjectAsset.file

/-- The files of the rows that a swap leaves and those of the rows that it deletes. -/
theorem swapArchiveStaging_perm {s s' : AssetStore} {mode : Mode} {batchID : String}
    {removed : List AssetFileRef} (h : swapArchiveStaging ctx s mode batchID = .ok (s', removed)) :
    (s'.files ++ removed).Perm s.files := by
  simp only [swapArchiveStaging, bind_eq_ok, pure_eq_ok, Prod.mk.injEq] at h
  obtain ⟨selected, _, db, _, rfl, rfl⟩ := h
  dsimp only [AssetStore.files, AssetStore.deleteProjects, listProjectAssetUUIDs, deleteWhere]
  rw [← List.map_append]
  apply List.Perm.map
  refine List.perm_append_comm.trans ?_
  exact List.filter_append_perm _ s.assets

theorem swapArchiveStaging_fewer {s s' : AssetStore} {mode : Mode} {batchID : String}
    {removed : List AssetFileRef} (h : swapArchiveStaging ctx s mode batchID = .ok (s', removed)) :
    FewerImages s s' := by
  simp only [swapArchiveStaging, bind_eq_ok, pure_eq_ok, Prod.mk.injEq] at h
  obtain ⟨selected, _, db, _, rfl, _⟩ := h
  exact deleteProjects_fewer s _

end

end Scrumboy
