import Scrumboy.Backup.Activities
import Scrumboy.Store.WorkflowShape

/-!
# Workflows through runs

In every run of actions and imports every project has a workflow of the right shape. The
maximum number of columns is another matter: only the request that adds a column looks
at it, so it holds as long as nobody creates or imports a project with more.
-/

set_option linter.dupNamespace false

namespace Scrumboy

open Go Sql

section

variable {limit : Option ℕ} {db db' db₁ db₁' : DB} {projectID : ℤ} {n : ℕ}

theorem WorkflowInv.congr (h : WorkflowInv limit db) (hcolumns : db'.columns = db.columns)
    (hprojects : db'.projects.map (·.id) = db.projects.map (·.id)) : WorkflowInv limit db' where
  projects := hprojects ▸ h.projects
  ids := hcolumns ▸ h.ids
  owned c hc := hprojects ▸ h.owned c (hcolumns ▸ hc)
  workflow q hq := by
    rw [DB.columnsOf, hcolumns]
    exact h.workflow q (hprojects ▸ hq)
  size q hq := by
    rw [DB.columnsOf, hcolumns]
    exact h.size q (hprojects ▸ hq)

theorem WorkflowInv.keepsSettings (h : WorkflowInv limit db) (hkeeps : KeepsSettings db db') :
    WorkflowInv limit db' :=
  h.congr hkeeps.columns (by rw [hkeeps.projects])

/-- A deletion of projects keeps the columns of the others. -/
theorem deleteProjects_columnsOf (hnodup : (db.projects.map (·.id)).Nodup) {gone : ProjectRow → Bool}
    {q : ℤ} (hq : q ∈ (deleteProjects db gone).projects.map (·.id)) :
    (deleteProjects db gone).columnsOf q = db.columnsOf q := by
  apply filter_deleteWhere
  intro c _ hc
  rw [beq_iff_eq] at hc
  exact hc ▸ ((mem_deleteProjects_ids hnodup).mp hq).2

theorem WorkflowInv.deleteProjects (h : WorkflowInv limit db) (gone : ProjectRow → Bool) :
    WorkflowInv limit (Scrumboy.deleteProjects db gone) := by
  refine ⟨h.projects.sublist (List.filter_sublist.map _), h.ids.sublist (List.filter_sublist.map _),
    fun c hc => ?_, fun q hq => ?_, fun q hq => ?_⟩
  · obtain ⟨hmem, hkept⟩ := mem_deleteWhere.mp hc
    exact (mem_deleteProjects_ids h.projects).mpr ⟨h.owned c hmem, hkept⟩
  · rw [deleteProjects_columnsOf h.projects hq]
    exact h.workflow q ((mem_deleteProjects_ids h.projects).mp hq).1
  · rw [deleteProjects_columnsOf h.projects hq]
    exact h.size q ((mem_deleteProjects_ids h.projects).mp hq).1

/-- One project more, with a workflow. -/
theorem WorkflowInv.adds (h : WorkflowInv limit db) (hfresh : projectID ∉ db.projects.map (·.id))
    (hr : Reshapes projectID n db db')
    (hids : db'.projects.map (·.id) = db.projects.map (·.id) ++ [projectID])
    (hn : ∀ m ∈ limit, n ≤ m) : WorkflowInv limit db' := by
  refine h.reshapes hr ?_ (fun q => ?_) hn
  · rw [hids, ← List.concat_eq_append]
    exact List.Nodup.concat hfresh h.projects
  · rw [hids, List.mem_append, List.mem_singleton]

/-! ## The workflow of an import -/

variable {p : ProjectExport}

/-- The number of columns of a new project of an import. -/
def importSize (p : ProjectExport) : ℕ :=
  if 2 ≤ p.workflowColumns.length then p.workflowColumns.length else defaultWorkflowColumns.length

theorem length_workflowColumnsFromExport (cols : List WorkflowColumnExport) :
    (workflowColumnsFromExport cols).length = cols.length := by
  rw [workflowColumnsFromExport, List.length_map, List.length_zipIdx, length_orderBy]

theorem replaceWorkflow_reshapes (h : replaceWorkflow db projectID p = .ok db') :
    Reshapes projectID p.workflowColumns.length db db' := by
  have hempty : (deleteProjectWorkflowColumns db projectID).columnsOf projectID = [] := by
    rw [DB.columnsOf, List.filter_eq_nil_iff]
    intro c hc hp
    obtain ⟨_, hkept⟩ := mem_deleteWhere.mp hc
    rw [hp] at hkept
    cases hkept
  have hinsert := insertWorkflowColumns_reshapes hempty h
  rw [length_workflowColumnsFromExport] at hinsert
  refine ⟨fun hids => hinsert.ids (hids.sublist (List.filter_sublist.map _)), hinsert.workflow,
    hinsert.size, fun q hq => (hinsert.other q hq).trans ?_⟩
  apply filter_deleteWhere
  intro c _ hc
  rw [beq_iff_eq] at hc
  exact beq_eq_false_iff_ne.mpr (hc ▸ hq)

theorem importWorkflow_reshapes (hempty : db.columnsOf projectID = [])
    (h : importWorkflow db projectID p = .ok db') : Reshapes projectID (importSize p) db db' := by
  unfold importWorkflow at h
  unfold importSize
  split at h
  · rename_i hlen
    rw [if_pos hlen]
    exact replaceWorkflow_reshapes h
  · rename_i hlen
    rw [if_neg hlen]
    exact ensureDefaultWorkflowColumns_reshapes hempty h

theorem Founds.reshapes (h : WorkflowInv limit db) {face : ProjectFace}
    (hfounds : Founds p face db db') : Reshapes face.id (importSize p) db db' := by
  have hempty := h.columnsOf_eq_nil hfounds.projectIDs.1
  obtain ⟨projects, members, db₁, db₂, sprints, _, _, _, hworkflow, htiers, hdb⟩ := hfounds
  have hcolumns : db'.columns = db₁.columns := by
    rw [hdb]
    exact (replaceProjectPriorityTiersFromExport_prioritiesOnly htiers).columns
  exact (importWorkflow_reshapes (by exact hempty) hworkflow).congr rfl hcolumns

theorem WorkflowInv.founds (h : WorkflowInv limit db) {face : ProjectFace}
    (hfounds : Founds p face db db') (hn : ∀ m ∈ limit, importSize p ≤ m) :
    WorkflowInv limit db' := by
  obtain ⟨hfresh, hids⟩ := hfounds.projectIDs
  exact h.adds hfresh (hfounds.reshapes h) hids hn

/-- A merge replaces a workflow, or leaves it alone. -/
theorem Rewrites.reshapes (h : Rewrites p projectID db db') :
    (2 ≤ p.workflowColumns.length ∧ Reshapes projectID p.workflowColumns.length db db') ∨
      (¬ 2 ≤ p.workflowColumns.length ∧ db'.columns = db.columns) := by
  obtain ⟨projects, db₁, db₂, sprints, _, _, hworkflow, htiers, hdb⟩ := h
  have hcolumns : db'.columns = db₁.columns := by
    rw [hdb]
    exact (mergePriorities_prioritiesOnly htiers).columns
  unfold mergeWorkflow at hworkflow
  split at hworkflow
  · rename_i hlen
    exact .inl ⟨hlen, (replaceWorkflow_reshapes hworkflow).congr rfl hcolumns⟩
  · rename_i hlen
    rw [pure_eq_ok] at hworkflow
    exact .inr ⟨hlen, by rw [hcolumns, ← hworkflow]⟩

theorem WorkflowInv.rewrites (h : WorkflowInv limit db) (hproject : projectID ∈ db.projects.map (·.id))
    (hrewrites : Rewrites p projectID db db') (hn : ∀ m ∈ limit, importSize p ≤ m) :
    WorkflowInv limit db' := by
  have hids := hrewrites.projectIDs
  rcases hrewrites.reshapes with ⟨hlen, hr⟩ | ⟨_, hcolumns⟩
  · refine h.reshapes hr (hids ▸ h.projects) (fun q => ?_) ?_
    · rw [hids]
      exact ⟨.inl, fun hq => hq.elim id fun heq => heq ▸ hproject⟩
    · rwa [importSize, if_pos hlen] at hn
  · exact h.congr hcolumns hids

theorem WorkflowInv.joins (h : WorkflowInv limit db) (hbrings : Brings p projectID (· = db) db') :
    WorkflowInv limit db' := by
  obtain ⟨db₁, r, scan, rfl, htodos, hcontent⟩ := hbrings
  exact h.keepsSettings (htodos.keepsSettings.trans hcontent.keepsSettings)

theorem WorkflowInv.importStep (h : WorkflowInv limit db) (hstep : ImportStep p db db')
    (hn : ∀ m ∈ limit, importSize p ≤ m) : WorkflowInv limit db' := by
  cases hstep with
  | founded face hbrings =>
      obtain ⟨db₁, r, scan, hfounds, htodos, hcontent⟩ := hbrings
      exact (h.founds hfounds hn).keepsSettings
        (htodos.keepsSettings.trans hcontent.keepsSettings)
  | rewritten row hrow hbrings =>
      obtain ⟨db₁, r, scan, hrewrites, htodos, hcontent⟩ := hbrings
      exact (h.rewrites (List.mem_map_of_mem hrow) hrewrites hn).keepsSettings
        (htodos.keepsSettings.trans hcontent.keepsSettings)
  | joined row hrow hbrings => exact h.joins hbrings

theorem WorkflowInv.importProjects (h : WorkflowInv limit db) {rt : Runtime} {ctx : Ctx}
    {req : ImportRequest}
    (hn : ¬ req.IntoBoard → ∀ p ∈ req.data.projects, ∀ m ∈ limit, importSize p ≤ m) :
    WorkflowInv limit (Scrumboy.importProjects rt ctx db req).1 := by
  refine importProjects_inv (fun db₁ gone hdb₁ => hdb₁.deleteProjects gone)
    (fun db₁ projects hids hdb₁ => hdb₁.congr rfl hids) ?_ ?_ h
  · exact fun _ p _ row db₁ db₂ _ hdb₁ hbrings => hdb₁.joins hbrings
  · exact fun hboard p hp db₁ db₂ hdb₁ hstep => hdb₁.importStep hstep (hn hboard p hp)

/-! ## Actions and boards -/

/-- A new project, with a workflow of its own or the default one. -/
theorem WorkflowInv.createProject (h : WorkflowInv limit db) {ctx : Ctx} {name : String}
    {workflow : Option (List WorkflowColumn)} {id : ℤ}
    (hn : ∀ m ∈ limit, (workflow.map List.length).getD defaultWorkflowColumns.length ≤ m)
    (hok : createProjectWithWorkflow ctx db name workflow = .ok (db', id)) :
    WorkflowInv limit db' := by
  obtain ⟨hfresh, hreshapes, hids⟩ := createProjectWithWorkflow_reshapes h hok
  exact h.adds hfresh hreshapes hids hn

/-- A board gets the default workflow, unless no slug was free. -/
theorem createAnonymousBoard_reshapes (h : WorkflowInv limit db) (rt : Runtime) (ctx : Ctx)
    (draws : List String) :
    (Scrumboy.createAnonymousBoard rt ctx db draws).1 = db ∨
      ∃ id, id ∉ db.projects.map (·.id) ∧
        Reshapes id defaultWorkflowColumns.length db
          (Scrumboy.createAnonymousBoard rt ctx db draws).1 ∧
        (Scrumboy.createAnonymousBoard rt ctx db draws).1.projects.map (·.id) =
          db.projects.map (·.id) ++ [id] := by
  unfold Scrumboy.createAnonymousBoard
  split
  · exact .inl rfl
  · rename_i slug _
    obtain ⟨hid, p, ⟨hp, _⟩, htags⟩ := insertAnonymousBoard_spec rt ctx db slug
    generalize insertAnonymousBoard rt ctx db slug = out at hid hp htags ⊢
    have hprio := ensureDefaultPriorityTiers_prioritiesOnly { db with
      projects := db.projects ++ [p] } p.id
    have hcolumns : out.1.columns = db.columns := htags.contentOnly.columns.trans hprio.columns
    have hfresh : out.2 ∉ db.projects.map (·.id) := by
      rw [hid]
      exact nextRowid_not_mem _
    have hempty : out.1.columnsOf out.2 = [] := by
      rw [DB.columnsOf, hcolumns]
      exact h.columnsOf_eq_nil hfresh
    dsimp only
    rw [ensureDefaultWorkflowColumns_eq hempty]
    have hreshapes := foldl_defaultColumns_reshapes hempty
    obtain ⟨columns, heq⟩ := (foldl_insertOrIgnoreColumn_spec out.2 defaultWorkflowColumns
      out.1).1.exists_eq
    refine .inr ⟨out.2, hfresh, hreshapes.congr hcolumns rfl, ?_⟩
    obtain ⟨_, hprojects⟩ := hprio.exists_eq
    rw [heq]
    dsimp only
    rw [htags.contentOnly.projects, hprojects, List.map_append, List.map_singleton, hp]

/-- A board keeps the workflows of the others. -/
theorem WorkflowInv.createAnonymousBoard (h : WorkflowInv limit db) (rt : Runtime) (ctx : Ctx)
    (draws : List String) (hn : ∀ m ∈ limit, defaultWorkflowColumns.length ≤ m) :
    WorkflowInv limit (Scrumboy.createAnonymousBoard rt ctx db draws).1 := by
  rcases createAnonymousBoard_reshapes h rt ctx draws with heq | ⟨id, hfresh, hreshapes, hids⟩
  · rwa [heq]
  · exact h.adds hfresh hreshapes hids hn

theorem WorkflowInv.settingsStep (h : WorkflowInv limit db) {ctx : Ctx} {a : Action}
    (hstep : SettingsStep ctx db db' a)
    (hcreate : ∀ name workflow, a = .request (.createProject name workflow) →
      ∀ m ∈ limit, (workflow.map List.length).getD defaultWorkflowColumns.length ≤ m)
    (hadd : ∀ m ∈ limit, maxWorkflowColumns ≤ m) : WorkflowInv limit db' := by
  cases hstep with
  | same hprojects hcolumns hpriorities => exact h.congr hcolumns hprojects
  | createProject hok => exact h.createProject (hcreate _ _ rfl) hok
  | @addWorkflowColumn projectID name col hok =>
      obtain ⟨hproject, ⟨n, hn, hr⟩, _⟩ := addWorkflowColumn_reshapes h hok
      obtain ⟨_, rfl⟩ := (addWorkflowColumn_spec hok).1.exists_eq
      refine h.reshapes hr h.projects (fun q => ?_) fun m hm => hn.trans (hadd m hm)
      exact ⟨.inl, fun hq => hq.elim id fun heq => heq ▸ hproject⟩
  | @deleteWorkflowColumn projectID key hok =>
      obtain ⟨hproject, ⟨n, hn, hr⟩, _⟩ := deleteWorkflowColumn_reshapes h hok
      obtain ⟨_, rfl⟩ := (deleteWorkflowColumn_columnsOnly hok).exists_eq
      refine h.reshapes hr h.projects (fun q => ?_) fun m hm =>
        hn.le.trans (h.size projectID hproject m hm)
      exact ⟨.inl, fun hq => hq.elim id fun heq => heq ▸ hproject⟩
  | addPriorityTier hok =>
      obtain ⟨_, rfl⟩ := (addPriorityTier_prioritiesOnly hok).exists_eq
      exact h.congr rfl rfl
  | deletePriorityTier hok =>
      obtain ⟨_, rfl⟩ := (deletePriorityTier_prioritiesOnly hok).exists_eq
      exact h.congr rfl rfl

/-! ## Runs -/

/-- The numbers of columns that an activity lists for the workflow of a project. -/
def Activity.listed : Activity → List ℕ
  | .action (.request (.createProject _ (some workflow))) => [workflow.length]
  | .importProjects req =>
      if req.IntoBoard then [] else req.data.projects.map (·.workflowColumns.length)
  | _ => []

/-- An activity keeps the workflows, and the limit as long as it lists no more columns. -/
theorem WorkflowInv.proceed (h : WorkflowInv limit db) (rt : Runtime) (a : Ctx × Activity)
    (hlimit : ∀ m ∈ limit, maxWorkflowColumns ≤ m) (hlisted : ∀ m ∈ limit, ∀ n ∈ a.2.listed, n ≤ m) :
    WorkflowInv limit (Scrumboy.proceed rt db a) := by
  have hdefault : ∀ m ∈ limit, defaultWorkflowColumns.length ≤ m :=
    fun m hm => le_trans (by decide) (hlimit m hm)
  obtain ⟨ctx, a⟩ := a
  cases a with
  | action a =>
      refine act_inv (P := WorkflowInv limit) h fun db' hok => ?_
      refine h.settingsStep (Action.exec_settingsStep hok) ?_ hlimit
      rintro name workflow rfl m hm
      cases workflow with
      | none => exact hdefault m hm
      | some workflow => exact hlisted m hm _ List.mem_cons_self
  | createAnonymousBoard draws => exact h.createAnonymousBoard rt ctx draws hdefault
  | importProjects req =>
      refine h.importProjects fun hboard p hp m hm => ?_
      unfold importSize
      split
      · refine hlisted m hm _ ?_
        rw [Activity.listed, if_neg hboard]
        exact List.mem_map_of_mem hp
      · exact hdefault m hm

theorem WorkflowInv.run (h : WorkflowInv limit db) (rt : Runtime) (acts : List (Ctx × Activity))
    (hlimit : ∀ m ∈ limit, maxWorkflowColumns ≤ m)
    (hlisted : ∀ m ∈ limit, ∀ a ∈ acts, ∀ n ∈ a.2.listed, n ≤ m) :
    WorkflowInv limit (Transition.run (Scrumboy.proceed rt) db acts) := by
  induction acts generalizing db with
  | nil => exact h
  | cons a acts ih =>
      refine ih (h.proceed rt a hlimit fun m hm => hlisted m hm a List.mem_cons_self) ?_
      exact fun m hm b hb => hlisted m hm b (List.mem_cons_of_mem _ hb)

end

/-- Whatever a store has gone through, the workflow of every project has one done column,
two columns or more, distinct and valid keys, and positions without gaps. It has at most
twelve columns if no list of columns on the way had more. -/
theorem workflow_of_run (rt : Runtime) (db₀ : DB) (hprojects : db₀.projects = [])
    (hcolumns : db₀.columns = []) (acts : List (Ctx × Activity)) (db : DB)
    (hdb : db = Transition.run (proceed rt) db₀ acts) :
    (∀ p ∈ db.projects, IsWorkflow (db.columnsOf p.id)) ∧
      ((∀ a ∈ acts, ∀ n ∈ a.2.listed, n ≤ maxWorkflowColumns) →
        ∀ p ∈ db.projects, (db.columnsOf p.id).length ≤ maxWorkflowColumns) := by
  have hempty : ∀ limit, WorkflowInv limit db₀ := by
    intro limit
    constructor <;> simp [hprojects, hcolumns]
  rw [hdb]
  constructor
  · intro p hp
    have hinv : WorkflowInv none _ := (hempty none).run rt acts (by simp) (by simp)
    exact hinv.workflow p.id (List.mem_map_of_mem hp)
  · intro hlisted p hp
    have hinv : WorkflowInv (some maxWorkflowColumns) _ :=
      (hempty _).run rt acts (by simp) (by simpa using hlisted)
    exact hinv.size p.id (List.mem_map_of_mem hp) _ rfl

/-- A new store in which somebody creates a project with `n` columns, of which the first
is the done one. -/
def boardOfLanes (n : ℕ) : List (Ctx × Activity) :=
  [(⟨none, 5⟩, .action (.request (.createProject "Board" (some ((List.range n).map fun i =>
    ⟨0, 0, "lane" ++ toString i, "Lane", "", 0, i == 0, false⟩)))))]

/-- A project with three columns is within the limit. -/
theorem workflow_of_run_three :
    (Transition.run (proceed plainRuntime) {} (boardOfLanes 3)).projects.map (·.slug) = ["board"] ∧
      ∀ p ∈ (Transition.run (proceed plainRuntime) {} (boardOfLanes 3)).projects,
        IsWorkflow ((Transition.run (proceed plainRuntime) {} (boardOfLanes 3)).columnsOf p.id) ∧
        ((Transition.run (proceed plainRuntime) {} (boardOfLanes 3)).columnsOf p.id).length ≤
          maxWorkflowColumns := by
  have hrun := workflow_of_run plainRuntime {} rfl rfl (boardOfLanes 3) _ rfl
  refine ⟨by decide +kernel, fun p hp => ⟨hrun.1 p hp, hrun.2 ?_ p hp⟩⟩
  decide +kernel

/-- A project can be created with thirteen columns, one more than can be added. -/
theorem workflow_exceeds_limit :
    ¬ ∀ p ∈ (Transition.run (proceed plainRuntime) {} (boardOfLanes 13)).projects,
      ((Transition.run (proceed plainRuntime) {} (boardOfLanes 13)).columnsOf p.id).length ≤
        maxWorkflowColumns := by
  decide +kernel

end Scrumboy
