import Mathlib.Algebra.Order.BigOperators.Group.List
import Scrumboy.Backup.ArchiveImages
import Scrumboy.Store.Placement
import Scrumboy.Transition.Runs

/-!
# The budgets of images

A row of an image is inserted by an upload or by an import of an archive, each time right after
a check of both budgets against the rows that the same transaction sees; deletions only free
bytes. The transactions of the server come one after another, in any order. An import is a run
of these transactions: a replace commits each project that it stages before the swap.
-/

set_option linter.dupNamespace false

namespace Scrumboy

open Go Sql Transition

/-- The budgets that are set are respected. -/
structure WithinBudgets (b : AssetBudgets) (s : AssetStore) : Prop where
  project : 0 < b.projectBytes → ∀ projectID, (assetUsage s projectID).1 ≤ b.projectBytes
  whole : 0 < b.instanceBytes → ∀ projectID, (assetUsage s projectID).2 ≤ b.instanceBytes

/-- The budgets are respected by images of positive size, as the table demands of them. -/
structure Budgeted (b : AssetBudgets) (s : AssetStore) : Prop extends WithinBudgets b s where
  size : ∀ a ∈ s.assets, 0 < a.sizeBytes

section

variable {b : AssetBudgets} {s s' : AssetStore}

/-! ## One row -/

theorem checkAssetBudget_eq_ok {projectID addBytes : ℤ} (h : checkAssetBudget b s projectID addBytes = .ok ()) :
    (0 < b.projectBytes → (assetUsage s projectID).1 + addBytes ≤ b.projectBytes) ∧
      (0 < b.instanceBytes → (assetUsage s projectID).2 + addBytes ≤ b.instanceBytes) := by
  simp only [checkAssetBudget, AssetBudgets.check, bind_eq_ok, reject_eq_ok] at h
  obtain ⟨_, hproject, hwhole⟩ := h
  constructor
  · intro hpos
    exact not_lt.mp fun hlt => hproject ⟨hpos, hlt⟩
  · intro hpos
    exact not_lt.mp fun hlt => hwhole ⟨hpos, hlt⟩

/-- A row that passed the check is inserted. -/
theorem Budgeted.insert (h : Budgeted b s) {a : ProjectAsset} (hassets : s'.assets = s.assets ++ [a])
    (hpos : 0 < a.sizeBytes) (hcheck : checkAssetBudget b s a.projectID a.sizeBytes = .ok ()) :
    Budgeted b s' := by
  obtain ⟨hproject, hwhole⟩ := checkAssetBudget_eq_ok hcheck
  constructor
  · constructor
    · intro hb projectID
      have hbefore := h.project hb projectID
      have hadded := hproject hb
      simp only [assetUsage, hassets, List.filter_append, List.map_append, List.sum_append] at hbefore hadded ⊢
      -- the bytes of the project grow only if the image is one of it
      by_cases heq : a.projectID = projectID
      · subst heq
        simpa using hadded
      · simpa [heq] using hbefore
    · intro hb projectID
      have hadded := hwhole hb
      simpa [assetUsage, hassets] using hadded
  · intro a' ha'
    rw [hassets, List.mem_append, List.mem_singleton] at ha'
    rcases ha' with ha' | rfl
    · exact h.size a' ha'
    · exact hpos

theorem insertProjectAssetTx_row {input : CreateProjectAssetInput} {uploader nowMs : ℤ} {a : ProjectAsset}
    (h : insertProjectAssetTx s input uploader nowMs = .ok (s', a)) :
    s'.assets = s.assets ++ [a] ∧ a.projectID = input.projectID ∧ a.sizeBytes = input.sizeBytes ∧
      0 < a.sizeBytes := by
  simp only [insertProjectAssetTx, bind_eq_ok, reject_eq_ok, pure_eq_ok, Prod.mk.injEq] at h
  obtain ⟨_, _, _, hmeta, _, _, _, _, rfl, rfl⟩ := h
  exact ⟨rfl, rfl, rfl, by dsimp only; omega⟩

/-! ## Fewer rows -/

/-- The usage reads the columns that never change. -/
theorem assetUsage_eq (s : AssetStore) (projectID : ℤ) :
    assetUsage s projectID =
      ((((s.assets.map ProjectAsset.identity).filter (·.projectID == projectID)).map (·.sizeBytes)).sum,
        ((s.assets.map ProjectAsset.identity).map (·.sizeBytes)).sum) := by
  rw [List.filter_map, List.map_map, List.map_map]
  rfl

theorem size_identity {P : ℤ → Prop} : (∀ a ∈ s.assets, P a.sizeBytes) ↔
    ∀ a ∈ s.assets.map ProjectAsset.identity, P a.sizeBytes := by
  rw [List.forall_mem_map]
  rfl

theorem FewerImages.budgeted (h : FewerImages s s') (hs : Budgeted b s) : Budgeted b s' := by
  have hsize := size_identity.mp hs.size
  have hle : ∀ projectID, (assetUsage s' projectID).1 ≤ (assetUsage s projectID).1 ∧
      (assetUsage s' projectID).2 ≤ (assetUsage s projectID).2 := by
    intro projectID
    rw [assetUsage_eq, assetUsage_eq s]
    constructor
    · refine ((h.filter _).map _).sum_le_sum fun n hn => ?_
      obtain ⟨a, ha, rfl⟩ := List.mem_map.mp hn
      exact (hsize a (List.mem_of_mem_filter ha)).le
    · refine (h.map _).sum_le_sum fun n hn => ?_
      obtain ⟨a, ha, rfl⟩ := List.mem_map.mp hn
      exact (hsize a ha).le
  constructor
  · constructor
    · intro hb projectID
      exact (hle projectID).1.trans (hs.project hb projectID)
    · intro hb projectID
      exact (hle projectID).2.trans (hs.whole hb projectID)
  · exact size_identity.mpr fun a ha => hsize a (h.subset ha)

/-! ## The operations -/

theorem createProjectAsset_budgeted {ctx : Ctx} {input : CreateProjectAssetInput} {r : ProjectAsset × Bool}
    (hs : Budgeted b s) (h : createProjectAsset b ctx s input = .ok (s', r)) : Budgeted b s' := by
  simp only [createProjectAsset, bind_eq_ok, mapError_eq_ok] at h
  obtain ⟨userID, _, h⟩ := h
  split at h
  · next existing _ =>
    simp only [pure_eq_ok, Prod.mk.injEq] at h
    obtain ⟨rfl, _⟩ := h
    exact (refreshDedupedAssetTx_sameAssets s existing ctx.nowMs).fewer.budgeted hs
  · simp only [bind_eq_ok, mapError_eq_ok, pure_eq_ok, Prod.mk.injEq] at h
    obtain ⟨_, hcheck, ⟨s₁, a⟩, hinsert, rfl, _⟩ := h
    obtain ⟨hassets, hproject, hsize, hpos⟩ := insertProjectAssetTx_row hinsert
    refine hs.insert hassets hpos ?_
    rw [hproject, hsize]
    exact hcheck

/-- Every image that an import inserts has passed the check in the same transaction. -/
theorem budgeted_imageRule (b : AssetBudgets) (staged : ImportStagedAsset → Prop) :
    ImageRule b staged fun s _ => Budgeted b s where
  same h hs := FewerImages.budgeted (by rw [FewerImages, h]) hs
  insert := by
    intro s s' used a projectID nowMs _ hs hcheck h
    simp only [insertImportedAssetTx, bind_eq_ok, pure_eq_ok] at h
    obtain ⟨⟨s₁, row⟩, hinsert, rfl⟩ := h
    obtain ⟨_, hproject, hsize, hpos⟩ := insertProjectAssetTx_row hinsert
    refine hs.insert rfl hpos ?_
    dsimp only
    rw [hproject, hsize]
    exact hcheck

theorem collectCandidates_fewer {extract : String → List String} {nowMs cutoff : ℤ} {bodyBudget : ℕ}
    {cands : List ProjectAsset} {result result' : GCResult} {examined : ℕ}
    (h : collectCandidates extract nowMs cutoff bodyBudget cands s result examined = .ok (s', result')) :
    FewerImages s s' := by
  induction cands generalizing s result examined with
  | nil =>
      simp only [collectCandidates, pure_eq_ok, Prod.mk.injEq] at h
      exact h.1 ▸ (SameAssets.refl s).fewer
  | cons c cands ih =>
      rw [collectCandidates] at h
      split at h
      · simp only [pure_eq_ok, Prod.mk.injEq] at h
        exact h.1 ▸ (SameAssets.refl s).fewer
      · simp only [bind_eq_ok] at h
        obtain ⟨⟨s₁, repaired, n⟩, hrepair, h⟩ := h
        have hfewer := (repairCanonicalEmbedTx_sameAssets hrepair).fewer
        cases repaired with
        | true =>
            rw [if_pos rfl] at h
            exact hfewer.trans (ih h)
        | false =>
            rw [if_neg Bool.false_ne_true] at h
            have hdelete : FewerImages s₁ (deleteGCCandidate s₁ c.id cutoff).1 :=
              List.filter_sublist.map ProjectAsset.identity
            exact hfewer.trans (hdelete.trans (ih h))

end

/-! ## The transactions -/

/-- The transactions that write the tables of images. A story is written with the references of
its text, together with any change of the other tables; the references of stories go with the
stories; a project is deleted with its images, as the removal of a project, the end of a
temporary board and the sweep of abandoned imports do. -/
inductive ImageTransaction
  | upload (ctx : Ctx) (input : CreateProjectAssetInput)
  | merge (ctx : Ctx) (req : ArchiveRequest)
  | copy (ctx : Ctx) (req : ArchiveRequest)
  | stage (ctx : Ctx) (req : ArchiveRequest) (result : ImportResult) (used : List String)
      (pi : ArchiveProject × ℕ)
  | swap (ctx : Ctx) (mode : Mode) (batchID : String)
  | cleanup (batchID : String)
  | deleteProjects (gone : ProjectRow → Bool)
  | collect (nowMs : ℤ) (opts : GCOptions)
  | reconcile (afterTodoID : ℤ) (limit : ℕ) (nowMs : ℤ)
  | writeStory (db : DB) (projectID todoID : ℤ) (body : String) (nowMs : ℤ)
  | dropStories (db : DB) (gone : TodoAssetRow → Bool) (nowMs : ℤ)

/-- The new tables of a transaction that goes through. -/
def ImageTransaction.exec (rt : Runtime) (rules : ArchiveRules) (s : AssetStore) :
    ImageTransaction → Except AssetError AssetStore
  | .upload ctx input => Prod.fst <$> createProjectAsset rules.budgets ctx s input
  | .merge ctx req => Prod.fst <$> importArchiveMerge rt ctx rules req.draws req.plan s req.data
  | .copy ctx req => Prod.fst <$> importArchiveCopy rt ctx rules req.draws req.plan s req.data req.mode
  | .stage ctx req result used pi =>
      ArchiveTx.store <$> stageArchiveProject rt ctx rules req.draws req.plan req.mode req.batchID
        ⟨s, result, used⟩ pi
  | .swap ctx mode batchID => Prod.fst <$> (swapArchiveStaging ctx s mode batchID).mapError .store
  | .cleanup batchID => .ok (cleanupArchiveStaging s batchID)
  | .deleteProjects gone => .ok (s.deleteProjects gone)
  | .collect nowMs opts => Prod.fst <$> (collectGarbageAssets rules.extract s nowMs opts).mapError .store
  | .reconcile afterTodoID limit nowMs =>
      Prod.fst <$> (reconcileTodoAssets rules.extract s afterTodoID limit nowMs).mapError .store
  | .writeStory db projectID todoID body nowMs =>
      (syncTodoAssetsTx rules.extract { s with db } projectID todoID body nowMs).mapError .store
  | .dropStories db gone nowMs => .ok (deleteTodoAssets { s with db } nowMs gone)

/-- A transaction that fails leaves the tables as they are. -/
def imageStep (rt : Runtime) (rules : ArchiveRules) (s : AssetStore) (tx : ImageTransaction) : AssetStore :=
  (tx.exec rt rules s).toOption.getD s

theorem imageStep_of_ok {rt : Runtime} {rules : ArchiveRules} {s s' : AssetStore} {tx : ImageTransaction}
    (h : tx.exec rt rules s = .ok s') : imageStep rt rules s tx = s' := by
  rw [imageStep, h]
  rfl

section

variable {rt : Runtime} {rules : ArchiveRules} {s : AssetStore}

theorem ImageTransaction.exec_budgeted {s' : AssetStore} {tx : ImageTransaction} (hs : Budgeted rules.budgets s)
    (h : tx.exec rt rules s = .ok s') : Budgeted rules.budgets s' := by
  have hrule := budgeted_imageRule rules.budgets fun _ => True
  have hplan : ∀ (plan : ℕ → List ImportStagedAsset) i, ∀ a ∈ plan i, True := fun _ _ _ _ => trivial
  cases tx <;> simp only [exec, map_eq_ok, mapError_eq_ok, Except.ok.injEq] at h
  case upload ctx input =>
    obtain ⟨⟨_, r⟩, h, rfl⟩ := h
    exact createProjectAsset_budgeted hs h
  case merge ctx req =>
    obtain ⟨⟨_, report⟩, h, rfl⟩ := h
    exact hrule.importArchiveMerge (hplan req.plan) hs h
  case copy ctx req =>
    obtain ⟨⟨_, report⟩, h, rfl⟩ := h
    exact hrule.importArchiveCopy (hplan req.plan) hs h
  case stage ctx req result used pi =>
    obtain ⟨tx, h, rfl⟩ := h
    exact hrule.stageArchiveProject (hplan req.plan) hs h
  case swap ctx mode batchID =>
    obtain ⟨⟨_, removed⟩, h, rfl⟩ := h
    exact (swapArchiveStaging_fewer h).budgeted hs
  case cleanup batchID =>
    exact h ▸ (deleteProjects_fewer s _).budgeted hs
  case deleteProjects gone =>
    exact h ▸ (deleteProjects_fewer s gone).budgeted hs
  case collect nowMs opts =>
    obtain ⟨⟨_, result⟩, h, rfl⟩ := h
    exact (collectCandidates_fewer h).budgeted hs
  case reconcile afterTodoID limit nowMs =>
    obtain ⟨⟨_, r⟩, h, rfl⟩ := h
    exact (reconcileTodoAssets_sameAssets h).fewer.budgeted hs
  case writeStory db projectID todoID body nowMs =>
    exact (syncTodoAssetsTx_sameAssets h).fewer.budgeted ⟨⟨hs.project, hs.whole⟩, hs.size⟩
  case dropStories db gone nowMs =>
    exact h ▸ (deleteTodoAssets_sameAssets _ nowMs gone).fewer.budgeted ⟨⟨hs.project, hs.whole⟩, hs.size⟩

theorem imageStep_budgeted (tx : ImageTransaction) (hs : Budgeted rules.budgets s) :
    Budgeted rules.budgets (imageStep rt rules s tx) := by
  unfold imageStep
  cases h : tx.exec rt rules s with
  | error e => exact hs
  | ok s' => exact ImageTransaction.exec_budgeted hs h

/-! ## Imports as runs -/

/-- The tables `s'` come from `s` by transactions. -/
def Reaches (rt : Runtime) (rules : ArchiveRules) (s s' : AssetStore) : Prop :=
  ∃ txs, run (imageStep rt rules) s txs = s'

theorem Reaches.refl (s : AssetStore) : Reaches rt rules s s := ⟨[], rfl⟩

theorem Reaches.of_exec {s' : AssetStore} (tx : ImageTransaction) (h : tx.exec rt rules s = .ok s') :
    Reaches rt rules s s' :=
  ⟨[tx], imageStep_of_ok h⟩

theorem Reaches.trans {s₁ s₂ s₃ : AssetStore} (h : Reaches rt rules s₁ s₂) (h' : Reaches rt rules s₂ s₃) :
    Reaches rt rules s₁ s₃ := by
  obtain ⟨txs, rfl⟩ := h
  obtain ⟨txs', rfl⟩ := h'
  exact ⟨txs ++ txs', run_append _ _ _ _⟩

variable {ctx : Ctx} {faults : ImportFaults} {req : ArchiveRequest}

theorem stageArchiveProjects_reaches (tx : ArchiveTx) (l : List (ArchiveProject × ℕ)) :
    Reaches rt rules tx.store (stageArchiveProjects rt ctx rules faults req tx l).1 := by
  induction l generalizing tx with
  | nil => exact .refl tx.store
  | cons pi rest ih =>
      rw [stageArchiveProjects]
      split
      · exact .refl tx.store
      · next tx' hstage =>
        split
        · exact .refl tx.store
        · refine Reaches.trans (.of_exec (.stage ctx req tx.result tx.used pi) ?_) (ih tx')
          rw [ImageTransaction.exec, map_eq_ok]
          exact ⟨tx', hstage, rfl⟩

theorem failReplace_reaches {α : Type} (s : AssetStore) (batchID : String) (e : AssetError) :
    Reaches rt rules s (failReplace (α := α) faults s batchID e).1 := by
  unfold failReplace
  split
  · exact .refl s
  · exact .of_exec (.cleanup batchID) rfl

theorem importArchiveReplaceAll_reaches (s : AssetStore) :
    Reaches rt rules s (importArchiveReplaceAll rt ctx rules faults s req).1 := by
  have hstage : Reaches rt rules s
      (stageArchiveProjects rt ctx rules faults req { store := s } req.data.projects.zipIdx).1 :=
    stageArchiveProjects_reaches { store := s } _
  unfold importArchiveReplaceAll
  split
  · exact .refl s
  · split
    · next staged e heq =>
      rw [heq] at hstage
      exact hstage.trans (failReplace_reaches staged req.batchID e)
    · next staged tx heq =>
      rw [heq] at hstage
      refine hstage.trans ?_
      split
      · exact failReplace_reaches staged req.batchID _
      · next store removed hswap =>
        split
        · exact failReplace_reaches staged req.batchID _
        · refine .of_exec (.swap ctx req.mode req.batchID) ?_
          rw [ImageTransaction.exec, hswap]
          rfl

theorem transact_reaches {α : Type} (tx : ImageTransaction) {fault : Bool}
    {x : Except AssetError (AssetStore × α)} (hx : tx.exec rt rules s = Prod.fst <$> x) :
    Reaches rt rules s (s.transact fault x).1 := by
  rcases AssetStore.transact_cases s fault x with ⟨s', a, rfl, h⟩ | ⟨e, h⟩
  · rw [h]
    exact .of_exec tx hx
  · rw [h]
    exact .refl s

/-- An import of an archive is a run of transactions. -/
theorem importProjectsWithAssets_reaches (s : AssetStore) :
    Reaches rt rules s (importProjectsWithAssets rt ctx rules faults s req).1 := by
  unfold importProjectsWithAssets
  split
  · exact .refl s
  · split
    · exact .refl s
    · split
      · exact importArchiveReplaceAll_reaches s
      · split
        · exact transact_reaches (.copy ctx req) rfl
        · exact transact_reaches (.merge ctx req) rfl
      · exact transact_reaches (.copy ctx req) rfl
      · exact .refl s

/-- After every transaction, whatever their order, the bytes of each project and of all projects
are within the budgets; and imports are made of these transactions. -/
theorem image_budgets_kept (hsize : ∀ a ∈ s.assets, 0 < a.sizeBytes) (hs : WithinBudgets rules.budgets s) :
    (∀ txs, WithinBudgets rules.budgets (run (imageStep rt rules) s txs)) ∧
      ∀ ctx faults req s', Reaches rt rules s' (importProjectsWithAssets rt ctx rules faults s' req).1 := by
  refine ⟨fun txs => ?_, fun ctx faults req s' => importProjectsWithAssets_reaches s'⟩
  refine (run_history (P := fun _ s => Budgeted rules.budgets s) ⟨hs, hsize⟩ ?_ txs).toWithinBudgets
  intro _ s tx hs
  exact imageStep_budgeted tx hs

end

/-- A project with an image of sixty bytes. -/
def oneImage : AssetStore where
  assets :=
    [{ id := 1
       uuid := "11111111-1111-4111-8111-111111111111"
       projectID := 1
       uploaderUserID := none
       mimeType := .png
       sizeBytes := 60
       width := 2
       height := 2
       sha256 := ""
       originalName := "dot.png"
       createdAt := 0
       unreferencedAt := none }]

def plainRules : ArchiveRules where
  budgets := ⟨100, 150⟩
  extract _ := []
  remap body _ := .ok body

theorem oneImage_within : WithinBudgets plainRules.budgets oneImage := by
  constructor
  · intro _ projectID
    by_cases h : (1 : ℤ) = projectID <;> simp [assetUsage, oneImage, plainRules, h]
  · intro _ projectID
    simp [assetUsage, oneImage, plainRules]

theorem oneImage_budgets_kept :
    (assetUsage oneImage 1 = (60, 60)) ∧
      ∀ txs, WithinBudgets plainRules.budgets (run (imageStep plainRuntime plainRules) oneImage txs) :=
  ⟨by decide, (image_budgets_kept (by decide) oneImage_within).1⟩

end Scrumboy
