import Scrumboy.Backup.Activities
import Scrumboy.Store.PriorityShape

/-!
# Priorities through runs

In every run of actions and imports the priority of a todo is a tier of its project, and
the tiers of a project have distinct keys and positions without gaps. A merge replaces
the tiers of a project before its todos land; it looks at the projects that it wrote
once more at its end, and so these are exempt on the way.
-/

set_option linter.dupNamespace false

namespace Scrumboy

open Go Sql

/-- The priorities of todos are tiers of their projects, the projects `ids` apart. -/
structure PriorityInv (ids : List ℤ) (db : DB) : Prop where
  tiers : TierInv db
  todos : TodoTable db
  key : ∀ t ∈ db.todos, t.projectID ∉ ids → ∀ k ∈ t.priorityKey, k ∈ db.priorityKeys t.projectID

section

variable {ids : List ℤ} {db db' : DB} {projectID : ℤ} {p : ProjectExport}

theorem PriorityInv.mono {ids' : List ℤ} (h : PriorityInv ids db) (hids : ids ⊆ ids') :
    PriorityInv ids' db :=
  ⟨h.tiers, h.todos, fun t ht hout => h.key t ht fun hmem => hout (hids hmem)⟩

theorem priorityKeys_congr (h : db'.priorities = db.priorities) (q : ℤ) :
    db'.priorityKeys q = db.priorityKeys q := by
  rw [DB.priorityKeys, DB.prioritiesOf, h, DB.priorityKeys, DB.prioritiesOf]

/-! ## Landing -/

/-- A todo lands with a priority of its project, or with the one it had. -/
theorem PriorityInv.lands {s s' : TodoScan} {t : TodoExport} (h : PriorityInv ids s.db)
    (hproject : projectID ∈ s.db.projects.map (·.id)) (hlands : Lands projectID s s' t) :
    PriorityInv ids s'.db := by
  have hkeeps := hlands.keepsSettings
  refine ⟨h.tiers.congr hkeeps.priorities (by rw [hkeeps.projects]),
    hlands.todoTable h.todos hproject, fun v hv hout k hk => ?_⟩
  rw [priorityKeys_congr hkeeps.priorities]
  rcases hlands.lands with ⟨u, hon⟩ | ⟨u, hnew⟩
  · rcases (hon.mem_todos h.todos v).mp hv with ⟨sprintID, rfl, _⟩ | ⟨hmem, _⟩
    · simp only [mergedRow] at hk hout ⊢
      split at hk
      · rw [hon.projectID_eq]
        exact hlands.priority k hk
      · exact h.key u hon.mem hout k hk
    · exact h.key v hmem hout k hk
  · rw [hnew.todos, List.mem_append, List.mem_singleton] at hv
    rcases hv with hmem | rfl
    · exact h.key v hmem hout k hk
    · rw [hnew.projectID_eq]
      obtain ⟨sprintID, hrow⟩ := hnew.row
      rw [hrow] at hk
      exact hlands.priority k hk

theorem PriorityInv.landsAll {s s' : TodoScan} {todos : List TodoExport} (h : PriorityInv ids s.db)
    (hproject : projectID ∈ s.db.projects.map (·.id)) (hall : LandsAll projectID todos s s') :
    PriorityInv ids s'.db := by
  induction hall with
  | nil s => exact h
  | cons hfirst _ ih =>
      exact ih (h.lands hproject hfirst) (hfirst.keepsSettings.projects ▸ hproject)

theorem PriorityInv.contentOnly (h : PriorityInv ids db) (hcontent : ContentOnly db db') :
    PriorityInv ids db' where
  tiers := h.tiers.congr hcontent.priorities (by rw [hcontent.projects])
  todos := hcontent.todoTable h.todos
  key t ht hout k hk := by
    rw [priorityKeys_congr hcontent.priorities]
    exact h.key t (hcontent.todos ▸ ht) hout k hk

/-- The todos of a project land once its settings are there. -/
theorem PriorityInv.brings {W : DB → Prop} (hbrings : Brings p projectID W db')
    (hsettings : ∀ db₁, W db₁ → PriorityInv ids db₁ ∧ projectID ∈ db₁.projects.map (·.id)) :
    PriorityInv ids db' := by
  obtain ⟨db₁, r, scan, hw, htodos, hcontent⟩ := hbrings
  obtain ⟨h, hproject⟩ := hsettings db₁ hw
  have hscan : PriorityInv ids scan.db :=
    PriorityInv.landsAll (s := { db := db₁, result := r }) h hproject htodos
  exact hscan.contentOnly hcontent

/-! ## Settings -/

theorem priorityTiersFromExport_positions (exported : List PriorityTierExport) :
    (priorityTiersFromExport exported).map (·.position) =
      (List.range' 0 (priorityTiersFromExport exported).length).map fun i : ℕ => (i : ℤ) := by
  unfold priorityTiersFromExport
  split
  · decide
  · rw [List.map_map, List.length_map, List.length_zipIdx, ← List.zipIdx_map_snd 0, List.map_map]
    rfl

/-- The tiers of a backup take the place of those of a project. -/
theorem replaceTiers_retiers (h : replaceProjectPriorityTiersFromExport db projectID p = .ok db') :
    Retiers projectID db db' := by
  have hempty : (deleteProjectPriorities db projectID).prioritiesOf projectID = [] := by
    rw [DB.prioritiesOf, List.filter_eq_nil_iff]
    intro t ht hp
    obtain ⟨_, hkept⟩ := mem_deleteWhere.mp ht
    rw [hp] at hkept
    cases hkept
  have hdelete : Retiers projectID db (deleteProjectPriorities db projectID) := by
    refine ⟨fun hids => hids.sublist (List.filter_sublist.map _), ?_, fun q hq => ?_⟩
    · rw [hempty]
      exact isTierList_nil
    · apply filter_deleteWhere
      intro t _ ht
      rw [beq_iff_eq] at ht
      exact beq_eq_false_iff_ne.mpr (ht ▸ hq)
  refine hdelete.trans (insertPriorityTiers_retiers hdelete.tiers ?_ h).2
  rw [hempty]
  exact priorityTiersFromExport_positions p.priorityTiers

/-- A new project has no todos yet. -/
theorem PriorityInv.founds (h : PriorityInv ids db) {face : ProjectFace}
    (hfounds : Founds p face db db') :
    PriorityInv ids db' ∧ face.id ∈ db'.projects.map (·.id) := by
  obtain ⟨hfresh, hids⟩ := hfounds.projectIDs
  have htodos := hfounds.todos
  have htable := hfounds.todoTable h.todos
  obtain ⟨projects, members, db₁, db₂, sprints, _, _, _, hworkflow, htiers, hdb⟩ := hfounds
  have hpriorities : db₁.priorities = db.priorities := by
    obtain ⟨_, rfl⟩ := (importWorkflow_columnsOnly hworkflow).exists_eq
    rfl
  have hr : Retiers face.id db db' :=
    (replaceTiers_retiers htiers).congr hpriorities (by rw [hdb])
  refine ⟨⟨h.tiers.adds hfresh hr hids, htable, fun t ht hout k hk => ?_⟩, ?_⟩
  · rw [htodos] at ht
    have hne : t.projectID ≠ face.id := fun heq => hfresh (heq ▸ h.todos.project t ht)
    rw [DB.priorityKeys, hr.other _ hne]
    exact h.key t ht hout k hk
  · rw [hids]
    exact List.mem_append_right _ (List.mem_singleton.mpr rfl)

/-- The tiers of a project that is there may lose the priorities of its todos. -/
theorem PriorityInv.rewrites (h : PriorityInv ids db) (hproject : projectID ∈ db.projects.map (·.id))
    (hrewrites : Rewrites p projectID db db') : PriorityInv (ids ++ [projectID]) db' := by
  have hids := hrewrites.projectIDs
  have htodos := hrewrites.todos
  have htable := hrewrites.todoTable h.todos
  obtain ⟨projects, db₁, db₂, sprints, _, _, hworkflow, htiers, hdb⟩ := hrewrites
  have hpriorities : db₁.priorities = db.priorities := by
    obtain ⟨_, rfl⟩ := (mergeWorkflow_columnsOnly hworkflow).exists_eq
    rfl
  have hr : Retiers projectID db db' := by
    unfold mergePriorities at htiers
    split at htiers
    · exact (replaceTiers_retiers htiers).congr hpriorities (by rw [hdb])
    · rw [pure_eq_ok] at htiers
      have heq : db'.priorities = db.priorities := by rw [hdb, ← htiers, hpriorities]
      refine ⟨fun hnodup => heq ▸ hnodup, ?_, fun q _ => ?_⟩
      · rw [DB.prioritiesOf, heq]
        exact h.tiers.tiers projectID
      · rw [DB.prioritiesOf, heq, DB.prioritiesOf]
  refine ⟨h.tiers.retiers_of_mem hr hproject hids, htable, fun t ht hout k hk => ?_⟩
  rw [List.mem_append, List.mem_singleton, not_or] at hout
  rw [DB.priorityKeys, hr.other _ hout.2]
  exact h.key t (htodos ▸ ht) hout.1 k hk

theorem PriorityInv.deleteProjects (h : PriorityInv ids db) (gone : ProjectRow → Bool) :
    PriorityInv ids (Scrumboy.deleteProjects db gone) := by
  have hnodup := h.tiers.projects
  have htiers : ∀ q, (db.projects.any fun p => p.id == q && gone p) = false →
      (Scrumboy.deleteProjects db gone).prioritiesOf q = db.prioritiesOf q := by
    intro q hq
    apply filter_deleteWhere
    intro t _ ht
    rw [beq_iff_eq] at ht
    exact ht ▸ hq
  refine ⟨⟨hnodup.sublist (List.filter_sublist.map _), h.tiers.ids.sublist (List.filter_sublist.map _),
    fun t ht => ?_, fun q => ?_⟩, h.todos.deleteProjects hnodup gone, fun t ht hout k hk => ?_⟩
  · obtain ⟨hmem, hkept⟩ := mem_deleteWhere.mp ht
    exact (mem_deleteProjects_ids hnodup).mpr ⟨h.tiers.owned t hmem, hkept⟩
  · cases hgone : db.projects.any fun p => p.id == q && gone p with
    | false => exact htiers q hgone ▸ h.tiers.tiers q
    | true =>
        have hnil : (Scrumboy.deleteProjects db gone).prioritiesOf q = [] := by
          rw [List.eq_nil_iff_forall_not_mem]
          intro t ht
          obtain ⟨hmem, hp⟩ := DB.mem_prioritiesOf.mp ht
          have hkept := (mem_deleteWhere.mp hmem).2
          rw [hp] at hkept
          cases hgone.symm.trans hkept
        rw [hnil]
        exact isTierList_nil
  · obtain ⟨hmem, hkept⟩ := mem_deleteWhere.mp ht
    rw [DB.priorityKeys, htiers _ hkept]
    exact h.key t hmem hout k hk

/-! ## Imports -/

/-- The check at the end of a merge. -/
theorem assertProjectPriorityIntegrity_eq_ok
    (h : assertProjectPriorityIntegrity db projectID = .ok ()) {t : TodoRow} (ht : t ∈ db.todos)
    (hp : t.projectID = projectID) {k : String} (hk : k ∈ t.priorityKey) :
    k ∈ db.priorityKeys projectID := by
  unfold assertProjectPriorityIntegrity at h
  split at h
  · rename_i hnone
    by_contra hout
    have hgood := List.find?_eq_none.mp hnone t ht
    simp [hp, Option.mem_def.mp hk, hout] at hgood
  · cases h

/-- A merge exempts the projects that it writes, until it has looked at them. -/
theorem PriorityInv.importMerge (h : PriorityInv [] db) {rt : Runtime} {ctx : Ctx}
    {draws : ℕ → ProjectDraws} {data : ExportData} {r : ImportResult}
    (hok : Scrumboy.importMerge rt ctx draws db data = .ok (db', r)) : PriorityInv [] db' := by
  simp only [Scrumboy.importMerge, bind_eq_ok, pure_eq_ok, Prod.mk.injEq] at hok
  obtain ⟨selected, _, _, _, ⟨tx, ids⟩, hfold, _, hassert, rfl, _⟩ := hok
  have hmerged : PriorityInv ids tx.db := by
    refine foldlM_inv (P := fun s => PriorityInv s.2 s.1.db) (fun s pi s' _ hs hstep => ?_) h hfold
    rcases mergeProject_brings hstep with ⟨row, hrow, hids, hbrings⟩ | ⟨face, hids, hbrings⟩
    · rw [hids]
      refine PriorityInv.brings hbrings fun db₁ hrewrites => ?_
      have hproject := List.mem_map_of_mem (f := (·.id)) hrow
      exact ⟨hs.rewrites hproject hrewrites, hrewrites.projectIDs ▸ hproject⟩
    · rw [hids]
      refine (PriorityInv.brings hbrings fun db₁ hfounds => ?_).mono (List.subset_append_left _ _)
      exact hs.founds hfounds
  refine ⟨hmerged.tiers, hmerged.todos, fun t ht _ k hk => ?_⟩
  by_cases hp : t.projectID ∈ ids
  · exact assertProjectPriorityIntegrity_eq_ok (forM_eq_ok.mp hassert _ hp) ht rfl hk
  · exact hmerged.key t ht hp k hk

theorem PriorityInv.importProjects (h : PriorityInv [] db) (rt : Runtime) (ctx : Ctx)
    (req : ImportRequest) : PriorityInv [] (Scrumboy.importProjects rt ctx db req).1 := by
  have hfounded : ∀ (p : ProjectExport) db₁ db₂ face, PriorityInv [] db₁ →
      Brings p face.id (Founds p face db₁) db₂ → PriorityInv [] db₂ :=
    fun p db₁ db₂ face hdb₁ hbrings => .brings hbrings fun db₃ hfounds => hdb₁.founds hfounds
  have hprojects : ∀ (db₁ : DB) projects, projects.map (·.id) = db₁.projects.map (·.id) →
      PriorityInv [] db₁ → PriorityInv [] { db₁ with projects := projects } := by
    intro db₁ projects hids hdb₁
    refine ⟨hdb₁.tiers.congr rfl hids, hdb₁.todos.congr rfl fun id hid => ?_, hdb₁.key⟩
    exact hids ▸ hid
  rcases importProjects_cases rt ctx db req with heq | ⟨_, r, hok⟩ | ⟨_, _, _, hout⟩
  · rwa [heq]
  · refine importIntoBoard_inv (fun row _ p _ db₁ db₂ hrow hdb₁ hbrings => ?_) hprojects h hok
    refine .brings hbrings fun db₃ heq => ?_
    exact heq ▸ ⟨hdb₁, List.mem_map_of_mem hrow⟩
  · generalize (Scrumboy.importProjects rt ctx db req).1 = db' at hout ⊢
    cases hout with
    | replaced himport hout =>
        rw [← hout]
        refine importReplaceAll_inv (fun s p i s' _ hs hstep => ?_)
          (fun db₁ gone hdb₁ => hdb₁.deleteProjects gone) (fun db₁ db₂ hdb₁ hok => ?_) h
        · obtain ⟨face, hbrings⟩ := stageProject_brings hstep
          exact hfounded p s.db s'.db face hs hbrings
        · rw [promoteStaging_eq_ok hok]
          refine hprojects db₁ _ ?_ hdb₁
          apply map_updateWhere
          intro p
          rfl
    | merged himport hmode r hout => exact h.importMerge hout
    | copied himport r hout =>
        refine importCreateCopy_inv (fun s p i s' _ hs hstep => ?_) h hout
        obtain ⟨face, hbrings⟩ := copyProject_brings hstep
        exact hfounded p s.db s'.db face hs hbrings

/-! ## Actions and boards -/

/-- A new project with the default tiers. -/
theorem createProject_retiers (h : TierInv db) {ctx : Ctx} {name : String}
    {workflow : Option (List WorkflowColumn)} {id : ℤ}
    (hok : createProjectWithWorkflow ctx db name workflow = .ok (db', id)) :
    Retiers (nextRowid (db.projects.map (·.id))) db db' := by
  simp only [createProjectWithWorkflow, bind_eq_ok, pure_eq_ok, Prod.mk.injEq] at hok
  obtain ⟨_, _, owner, _, base, _, slug, _, db₂, hworkflow, hprio, _⟩ := hok
  obtain ⟨members, hmembers⟩ := insertOwner_eq
    (appendProject db (newProjectRow ctx.nowMs (trimSpace name) slug owner)).1
    (appendProject db (newProjectRow ctx.nowMs (trimSpace name) slug owner)).2 ctx.nowMs owner
  rw [hmembers] at hworkflow
  have hpriorities : db₂.priorities = db.priorities := by rw [(createWorkflow_spec hworkflow).1]; rfl
  have hempty : db₂.prioritiesOf (nextRowid (db.projects.map (·.id))) = [] := by
    rw [DB.prioritiesOf, hpriorities]
    exact h.prioritiesOf_eq_nil (nextRowid_not_mem _)
  rw [← hprio]
  exact (ensureDefaultPriorityTiers_retiers hempty).congr hpriorities rfl

/-- The tiers after a new project. -/
theorem TierInv.priorityKeys_of_adds (h : TierInv db) (hfresh : projectID ∉ db.projects.map (·.id))
    (hr : Retiers projectID db db') {q : ℤ} {k : String} (hk : k ∈ db.priorityKeys q) :
    k ∈ db'.priorityKeys q := by
  have hne : q ≠ projectID := by
    rintro rfl
    rw [DB.priorityKeys, h.prioritiesOf_eq_nil hfresh] at hk
    cases hk
  rwa [DB.priorityKeys, hr.other q hne]

/-- The tiers after an action: no key is gone, or a key goes that no todo has. -/
theorem TierInv.settingsStep (h : TierInv db) {ctx : Ctx} {a : Action}
    (hstep : SettingsStep ctx db db' a) :
    TierInv db' ∧ ((∀ q, ∀ k ∈ db.priorityKeys q, k ∈ db'.priorityKeys q) ∨
      db'.todos = db.todos ∧ ∀ t ∈ db.todos, ∀ k ∈ t.priorityKey, k ∈ db.priorityKeys t.projectID →
        k ∈ db'.priorityKeys t.projectID) := by
  cases hstep with
  | same hprojects hcolumns hpriorities =>
      refine ⟨h.congr hpriorities hprojects, .inl fun q k hk => ?_⟩
      rwa [priorityKeys_congr hpriorities]
  | createProject hok =>
      have hr := createProject_retiers h hok
      have hfresh := nextRowid_not_mem (db.projects.map (·.id))
      refine ⟨h.adds hfresh hr ?_, .inl fun q k hk => h.priorityKeys_of_adds hfresh hr hk⟩
      obtain ⟨⟨_, _, _, _, heq⟩, _⟩ := createProjectWithWorkflow_spec hok
      dsimp only at heq
      rw [heq, List.map_append, List.map_singleton]
  | addWorkflowColumn hok =>
      obtain ⟨_, rfl⟩ := (addWorkflowColumn_spec hok).1.exists_eq
      exact ⟨h.congr rfl rfl, .inl fun _ _ hk => hk⟩
  | deleteWorkflowColumn hok =>
      obtain ⟨_, rfl⟩ := (deleteWorkflowColumn_columnsOnly hok).exists_eq
      exact ⟨h.congr rfl rfl, .inl fun _ _ hk => hk⟩
  | addPriorityTier hok =>
      obtain ⟨hproject, hr, hkeys⟩ := addPriorityTier_retiers h hok
      obtain ⟨_, rfl⟩ := (addPriorityTier_prioritiesOnly hok).exists_eq
      exact ⟨h.retiers_of_mem hr hproject rfl, .inl hkeys⟩
  | deletePriorityTier hok =>
      obtain ⟨hproject, hr, hkeys⟩ := deletePriorityTier_retiers h hok
      obtain ⟨_, rfl⟩ := (deletePriorityTier_prioritiesOnly hok).exists_eq
      exact ⟨h.retiers_of_mem hr hproject rfl, .inr ⟨rfl, hkeys⟩⟩

/-- A row keeps its priority, or an edit gave it one of the project. -/
theorem RowStep.priorityKey {ctx : Ctx} {t t' : TodoRow} (h : RowStep ctx db t t') :
    t'.priorityKey = t.priorityKey ∨ ∀ k ∈ t'.priorityKey, k ∈ db.priorityKeys t.projectID := by
  cases h with
  | edited p input hinput => exact .inr hinput.priority
  | ranked | moved | archived | body | unassigned | reminded => exact .inl rfl

theorem PriorityInv.exec (h : PriorityInv [] db) {rt : Runtime} {ctx : Ctx} {a : Action}
    (hok : a.exec rt ctx db = .ok db') : PriorityInv [] db' := by
  obtain ⟨htiers, hkeys⟩ := h.tiers.settingsStep (Action.exec_settingsStep hok)
  refine ⟨htiers, h.todos.exec_action hok, fun t ht _ k hk => ?_⟩
  rcases hkeys with hkeys | ⟨htodos, hkeys⟩
  · apply hkeys
    rcases (Action.exec_todosStep h.todos.ids hok).source ht with ⟨u, hu, hstep⟩ | hnew
    · have hp : t.projectID = u.projectID := congrArg TodoKey.projectID hstep.key_eq
      rw [hp]
      rcases hstep.priorityKey with heq | hedit
      · exact h.key u hu (by simp) k (heq ▸ hk)
      · exact hedit k hk
    · exact hnew.priority k hk
  · rw [htodos] at ht
    exact hkeys t ht k hk (h.key t ht (by simp) k hk)

theorem PriorityInv.createAnonymousBoard (h : PriorityInv [] db) (rt : Runtime) (ctx : Ctx)
    (draws : List String) :
    PriorityInv [] (Scrumboy.createAnonymousBoard rt ctx db draws).1 := by
  rcases createAnonymousBoard_spec rt ctx db draws with heq | ⟨p, hid, hprojects, hpriorities, htodos, _⟩
  · rwa [heq]
  · generalize (Scrumboy.createAnonymousBoard rt ctx db draws).1 = db' at *
    have hfresh : p.id ∉ db.projects.map (·.id) := by
      rw [hid]
      exact nextRowid_not_mem _
    have hempty := h.tiers.prioritiesOf_eq_nil hfresh
    have hdefault : Retiers p.id { db with projects := db.projects ++ [p] }
        (ensureDefaultPriorityTiers { db with projects := db.projects ++ [p] } p.id) :=
      ensureDefaultPriorityTiers_retiers hempty
    have hr : Retiers p.id db db' := hdefault.congr rfl hpriorities
    have hids : db'.projects.map (·.id) = db.projects.map (·.id) ++ [p.id] := by
      rw [hprojects, List.map_append, List.map_singleton]
    refine ⟨h.tiers.adds hfresh hr hids, h.todos.congr ?_ fun id hmem => ?_, fun t ht hout k hk => ?_⟩
    · rw [DB.todoKeys, htodos, DB.todoKeys]
    · rw [hids]
      exact List.mem_append_left _ hmem
    · exact h.tiers.priorityKeys_of_adds hfresh hr (h.key t (htodos ▸ ht) hout k hk)

/-! ## Runs -/

theorem PriorityInv.proceed (h : PriorityInv [] db) (rt : Runtime) (a : Ctx × Activity) :
    PriorityInv [] (Scrumboy.proceed rt db a) := by
  obtain ⟨ctx, a⟩ := a
  cases a with
  | action a => exact act_inv (P := PriorityInv []) h fun db' hok => h.exec hok
  | createAnonymousBoard draws => exact h.createAnonymousBoard rt ctx draws
  | importProjects req => exact h.importProjects rt ctx req

theorem PriorityInv.run (h : PriorityInv [] db) (rt : Runtime) (acts : List (Ctx × Activity)) :
    PriorityInv [] (Transition.run (Scrumboy.proceed rt) db acts) := by
  induction acts generalizing db with
  | nil => exact h
  | cons a acts ih => exact ih (h.proceed rt a)

end

/-- Whatever a store has gone through, the priority of a todo is a tier of its own
project, and the tiers of a project have distinct keys and positions without gaps. -/
theorem priorities_of_run (rt : Runtime) (db₀ : DB) (hprojects : db₀.projects = [])
    (htiers : db₀.priorities = []) (htodos : db₀.todos = []) (acts : List (Ctx × Activity)) (db : DB)
    (hdb : db = Transition.run (proceed rt) db₀ acts) :
    (∀ t ∈ db.todos, ∀ key ∈ t.priorityKey,
      ∃ tier ∈ db.priorities, tier.projectID = t.projectID ∧ tier.key = key) ∧
    ∀ p ∈ db.projects, ((db.prioritiesOf p.id).map (·.key)).Nodup ∧
      Numbered (·.position) (db.prioritiesOf p.id) := by
  have hempty : PriorityInv [] db₀ := by
    refine ⟨⟨?_, ?_, ?_, fun q => ?_⟩, ⟨?_, ?_, ?_⟩, ?_⟩
    case refine_4 =>
      rw [DB.prioritiesOf, htiers]
      exact isTierList_nil
    all_goals simp [hprojects, htiers, htodos]
  have hinv := hempty.run rt acts
  rw [← hdb] at hinv
  constructor
  · intro t ht key hkey
    obtain ⟨tier, htier, heq⟩ := List.mem_map.mp (hinv.key t ht (by simp) key hkey)
    obtain ⟨hmem, hp⟩ := DB.mem_prioritiesOf.mp htier
    exact ⟨tier, hmem, hp, heq⟩
  · intro p _
    exact ⟨(hinv.tiers.tiers p.id).keys, (hinv.tiers.tiers p.id).positions⟩

/-- A project with a todo of high priority, in which a tier is added and one deleted. -/
def tierEdits : List (Ctx × Activity) :=
  [(⟨some 1, 5⟩, .action (.request (.createProject "Board" none))),
   (⟨some 1, 6⟩, .action (.request (.createTodo 1 { title := "t", priorityKey := some "high" }))),
   (⟨some 1, 7⟩, .action (.addPriorityTier 1 "Blocker")),
   (⟨some 1, 8⟩, .action (.deletePriorityTier 1 "low"))]

theorem priorities_of_run_tierEdits :
    ((Transition.run (proceed plainRuntime) { users := [1] } tierEdits).todos.map (·.priorityKey) =
        [some "high"] ∧
      (Transition.run (proceed plainRuntime) { users := [1] } tierEdits).priorities.map (·.key) =
        ["medium", "high", "urgent", "blocker"]) ∧
    ∀ p ∈ (Transition.run (proceed plainRuntime) { users := [1] } tierEdits).projects,
      Numbered (·.position)
        ((Transition.run (proceed plainRuntime) { users := [1] } tierEdits).prioritiesOf p.id) := by
  have hrun := priorities_of_run plainRuntime { users := [1] } rfl rfl rfl tierEdits _ rfl
  exact ⟨by decide +kernel, fun p hp => (hrun.2 p hp).2⟩

end Scrumboy
