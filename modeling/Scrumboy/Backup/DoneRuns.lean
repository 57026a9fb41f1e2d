import Scrumboy.Backup.WorkflowRuns
import Scrumboy.Backup.ImportLanes
import Scrumboy.Store.DoneLane

/-!
# Done dates through runs

An import writes the done date that the backup has. Where the backup has none, it looks
for the legacy status of a finished todo and not at the lane that the todo lands in, so
a todo can get into a done lane without a date. A merge can also make another lane the
done one, with todos in it that the backup does not name.
-/

set_option linter.dupNamespace false

namespace Scrumboy

open Go Sql

/-- The lane that a status of a backup leads to in a project with the lanes `keys`. -/
def resolveLane (keys : List String) (status : String) : String :=
  match parseStatus status with
  | some s => statusToColumnKey s
  | none =>
      if toLower (trimSpace status) ≠ "" ∧ toLower (trimSpace status) ∈ keys then
        toLower (trimSpace status)
      else defaultColumnBacklog

/-- A todo of a backup that gets a done date if it lands in the done one of the lanes. -/
def LandsDated (lanes : List (String × Bool)) (t : TodoExport) : Prop :=
  (resolveLane (lanes.map (·.1)) t.status, true) ∈ lanes →
    t.doneAt ≠ none ∨ importStatus t = .done

instance (lanes : List (String × Bool)) (t : TodoExport) : Decidable (LandsDated lanes t) :=
  inferInstanceAs (Decidable (_ → _))

section

variable {db : DB} {projectID : ℤ} {t : TodoExport}

theorem resolveLane_eq (db : DB) (projectID : ℤ) (status : String) :
    (resolveImportColumnKey db projectID status).1 = resolveLane (db.columnKeys projectID) status := by
  unfold resolveImportColumnKey resolveLane
  cases parseStatus status with
  | some s => rfl
  | none =>
      simp only [validateProjectColumnKey_isOk_iff]
      split
      · rfl
      · rfl

theorem resolveLane_congr {keys keys' : List String} (h : ∀ k, k ∈ keys' ↔ k ∈ keys)
    (status : String) : resolveLane keys' status = resolveLane keys status := by
  simp only [resolveLane, h]

theorem DB.lanes_keys (db : DB) (projectID : ℤ) :
    (db.lanes projectID).map (·.1) = db.columnKeys projectID := by
  rw [DB.lanes, List.map_map]
  rfl

/-- The date of a todo that landed in the done lane. -/
theorem LandsDated.date {lanes : List (String × Bool)} (h : LandsDated lanes t)
    (hlanes : ∀ lane, lane ∈ db.lanes projectID ↔ lane ∈ lanes)
    (hdone : ((resolveImportColumnKey db projectID t.status).1, true) ∈ db.lanes projectID) :
    resolveImportDoneAt t.doneAt (importStatus t) t.updatedAt ≠ none := by
  have hkeys : ∀ k, k ∈ db.columnKeys projectID ↔ k ∈ lanes.map (·.1) := by
    intro k
    rw [← DB.lanes_keys, List.mem_map, List.mem_map]
    exact exists_congr fun lane => and_congr_left' (hlanes lane)
  rw [resolveLane_eq, resolveLane_congr hkeys, hlanes] at hdone
  unfold resolveImportDoneAt
  rcases h hdone with hdate | hstatus
  · obtain ⟨ms, hms⟩ := Option.ne_none_iff_exists'.mp hdate
    simp [hms]
  · cases t.doneAt with
    | some ms => simp
    | none => simp [hstatus]

end

/-! ## The lanes of an import -/

/-- The lanes of a project of a backup. -/
def backupLanes (p : ProjectExport) : List (String × Bool) :=
  p.workflowColumns.map fun c => (toLower (trimSpace c.key), c.isDone)

def defaultLanes : List (String × Bool) := defaultWorkflowColumns.map fun c => (c.key, c.isDone)

/-- The lanes of a new project of an import. -/
def importLanes (p : ProjectExport) : List (String × Bool) :=
  if 2 ≤ p.workflowColumns.length then backupLanes p else defaultLanes

section

variable {limit : Option ℕ} {db db' : DB} {projectID : ℤ} {p : ProjectExport}

theorem lanes_of_append {new : List WorkflowColumn} {cols : List (String × Bool)}
    (hempty : db.columnsOf projectID = []) (hnew : ∀ c ∈ new, c.projectID = projectID)
    (h : db' = { db with columns := db.columns ++ new })
    (hcols : new.map (fun c => (c.key, c.isDone)) = cols) : db'.lanes projectID = cols := by
  rw [DB.lanes, columnsOf_append hnew h, hempty, if_pos rfl, List.nil_append, hcols]

theorem replaceWorkflow_lanes (hvalid : ∀ c ∈ p.workflowColumns, IsColumnKey (trimSpace c.key))
    (h : replaceWorkflow db projectID p = .ok db') (lane : String × Bool) :
    lane ∈ db'.lanes projectID ↔ lane ∈ backupLanes p := by
  have hempty : (deleteProjectWorkflowColumns db projectID).columnsOf projectID = [] := by
    rw [DB.columnsOf, List.filter_eq_nil_iff]
    intro c hc hp
    obtain ⟨_, hkept⟩ := mem_deleteWhere.mp hc
    rw [hp] at hkept
    cases hkept
  obtain ⟨new, hdb, hnew, hmap, _⟩ := insertWorkflowColumns_spec h
  have hstored : new.map (fun c => (c.key, c.isDone)) =
      (orderBy (·.position) p.workflowColumns).map fun c =>
        (trimSpace (toLower (toLower (trimSpace c.key))), c.isDone) := by
    have hlanes := congrArg (List.map fun c => (c.key, c.isDone)) hmap
    rw [List.map_map, List.map_map] at hlanes
    have hcols := map_eq_zipIdx_map (fun c => (trimSpace (toLower c.key), c.isDone))
      (workflowColumnsFromExport p.workflowColumns)
    refine (hlanes.trans hcols.symm).trans ?_
    rw [workflowColumnsFromExport, List.map_map]
    exact (map_eq_zipIdx_map (fun (c : WorkflowColumnExport) =>
      (trimSpace (toLower (toLower (trimSpace c.key))), c.isDone)) _).symm
  rw [lanes_of_append hempty (fun c hc => (hnew c hc).1) hdb hstored, backupLanes, List.mem_map,
    List.mem_map]
  refine exists_congr fun c => ?_
  rw [mem_orderBy]
  refine and_congr_right fun hc => ?_
  have hkey := hvalid c hc
  rw [hkey.toLower_eq, hkey.toLower_eq, hkey.1]

theorem importWorkflow_lanes (hvalid : ∀ c ∈ p.workflowColumns, IsColumnKey (trimSpace c.key))
    (hempty : db.columnsOf projectID = []) (h : importWorkflow db projectID p = .ok db')
    (lane : String × Bool) : lane ∈ db'.lanes projectID ↔ lane ∈ importLanes p := by
  unfold importWorkflow at h
  unfold importLanes
  split at h
  · rename_i hlen
    rw [if_pos hlen]
    exact replaceWorkflow_lanes hvalid h lane
  · rename_i hlen
    have hkeys : db.columnKeys projectID = [] := by
      rw [DB.columnKeys, hempty]
      rfl
    rw [ensureDefaultWorkflowColumns_eq hempty, Except.ok.injEq,
      foldl_insertOrIgnoreColumn isWorkflow_default.keys (by simp [hkeys])] at h
    obtain ⟨new, hnew, hpid, hmap⟩ := foldl_appendColumn projectID defaultWorkflowColumns db
    have hlanes := congrArg (List.map fun c => (c.key, c.isDone)) hmap
    rw [List.map_map, List.map_map] at hlanes
    rw [if_neg hlen, lanes_of_append hempty hpid (h.symm.trans hnew) hlanes]
    rfl

theorem Founds.lanes (h : WorkflowInv limit db) {face : ProjectFace} (hfounds : Founds p face db db')
    (hvalid : ∀ c ∈ p.workflowColumns, IsColumnKey (trimSpace c.key)) (lane : String × Bool) :
    lane ∈ db'.lanes face.id ↔ lane ∈ importLanes p := by
  have hempty := h.columnsOf_eq_nil hfounds.projectIDs.1
  obtain ⟨projects, members, db₁, db₂, sprints, _, _, _, hworkflow, htiers, hdb⟩ := hfounds
  have hcolumns : db'.columns = db₁.columns := by
    rw [hdb]
    exact (replaceProjectPriorityTiersFromExport_prioritiesOnly htiers).columns
  rw [lanes_congr hcolumns]
  exact importWorkflow_lanes hvalid (by exact hempty) hworkflow lane

theorem Rewrites.lanes (h : Rewrites p projectID db db')
    (hvalid : ∀ c ∈ p.workflowColumns, IsColumnKey (trimSpace c.key)) (lane : String × Bool) :
    lane ∈ db'.lanes projectID ↔
      lane ∈ if 2 ≤ p.workflowColumns.length then backupLanes p else db.lanes projectID := by
  obtain ⟨projects, db₁, db₂, sprints, _, _, hworkflow, htiers, hdb⟩ := h
  have hcolumns : db'.columns = db₁.columns := by
    rw [hdb]
    exact (mergePriorities_prioritiesOnly htiers).columns
  rw [lanes_congr hcolumns]
  unfold mergeWorkflow at hworkflow
  split at hworkflow
  · rename_i hlen
    rw [if_pos hlen]
    exact replaceWorkflow_lanes hvalid hworkflow lane
  · rename_i hlen
    rw [pure_eq_ok] at hworkflow
    rw [if_neg hlen, ← hworkflow]
    rfl

theorem SameBoard.lanes {q : ℤ} (h : SameBoard q db db') : db'.lanes q = db.lanes q := by
  rw [DB.lanes, h.columns, DB.lanes]

end

/-! ## Todos that land -/

section

variable {projectID : ℤ} {s s' : TodoScan} {t : TodoExport} {u : TodoRow}
  {lanes : List (String × Bool)}

theorem inDoneLane_congr {db db' : DB} (h : db'.columns = db.columns) (v : TodoRow) :
    InDoneLane db' v ↔ InDoneLane db v := by
  rw [InDoneLane, lanes_congr h, InDoneLane]

section

variable (h : LandsDated lanes t) (hlanes : ∀ lane, lane ∈ s.db.lanes projectID ↔ lane ∈ lanes)

include h hlanes

theorem LandsDated.mergedRow (hu : u.projectID = projectID) (sprintID : Option ℤ)
    (hdone : InDoneLane s.db (Scrumboy.mergedRow s.db projectID
      (resolveImportColumnKey s.db projectID t.status).1 sprintID t u)) :
    (Scrumboy.mergedRow s.db projectID (resolveImportColumnKey s.db projectID t.status).1 sprintID t
      u).doneAt ≠ none := by
  have hlane : ((resolveImportColumnKey s.db projectID t.status).1, true) ∈
      s.db.lanes u.projectID := hdone
  rw [hu] at hlane
  exact h.date hlanes hlane

theorem LandsDated.newRow (hnew : LandsNew projectID s s' t u) (hdone : InDoneLane s.db u) :
    u.doneAt ≠ none := by
  rw [InDoneLane, hnew.projectID_eq, hnew.columnKey_eq] at hdone
  obtain ⟨sprintID, hrow⟩ := hnew.row
  rw [hrow]
  exact h.date hlanes hdone

/-- A todo that lands keeps the todos of done lanes dated. -/
theorem Dated.lands (hdated : Dated s.db) (htable : TodoTable s.db)
    (hlands : Lands projectID s s' t) : Dated s'.db := by
  intro v hv hdone
  rw [inDoneLane_congr hlands.keepsSettings.columns] at hdone
  rcases hlands.lands with ⟨u, hon⟩ | ⟨u, hnew⟩
  · rcases (hon.mem_todos htable v).mp hv with ⟨sprintID, rfl, _⟩ | ⟨hv, _⟩
    · exact h.mergedRow hlanes hon.projectID_eq sprintID hdone
    · exact hdated v hv hdone
  · rcases List.mem_append.mp (hnew.todos ▸ hv) with hv | hv
    · exact hdated v hv hdone
    · obtain rfl := List.mem_singleton.mp hv
      exact h.newRow hlanes hnew hdone

end

theorem Dated.landsAll {todos : List TodoExport} (h : Dated s.db) (htable : TodoTable s.db)
    (hproject : projectID ∈ s.db.projects.map (·.id))
    (hlanes : ∀ lane, lane ∈ s.db.lanes projectID ↔ lane ∈ lanes)
    (hfits : ∀ t ∈ todos, LandsDated lanes t) (hall : LandsAll projectID todos s s') :
    Dated s'.db := by
  induction hall with
  | nil s => exact h
  | cons hfirst _ ih =>
      have hsettings := hfirst.keepsSettings
      refine ih ?_ (hfirst.todoTable htable hproject) (hsettings.projects ▸ hproject) ?_ ?_
      · exact h.lands (hfits _ List.mem_cons_self) hlanes htable hfirst
      · rwa [lanes_congr hsettings.columns]
      · exact fun t ht => hfits t (List.mem_cons_of_mem _ ht)

/-- The todos of a merge, of which the pending ones may lack a date. -/
theorem Pending.dated {rt : Runtime} {ctx : Ctx} {sprintID : ℤ → Option ℤ} {todos : List TodoExport}
    (h : Pending projectID todos s fun v => InDoneLane s.db v → v.doneAt ≠ none)
    (htable : TodoTable s.db) (hproject : projectID ∈ s.db.projects.map (·.id))
    (hlanes : ∀ lane, lane ∈ s.db.lanes projectID ↔ lane ∈ lanes)
    (hfits : ∀ t ∈ todos, LandsDated lanes t)
    (hok : todos.foldlM (mergeTodo rt ctx projectID sprintID) s = .ok s') : Dated s'.db := by
  induction todos generalizing s with
  | nil =>
      rw [List.foldlM_nil, pure_eq_ok] at hok
      exact hok ▸ h.settled
  | cons t todos ih =>
      rw [List.foldlM_cons, bind_eq_ok] at hok
      obtain ⟨s₁, hstep, hrest⟩ := hok
      have hlands := mergeTodo_lands hstep
      have hsettings := hlands.keepsSettings
      have hfirst := hfits t List.mem_cons_self
      refine ih ?_ (hlands.todoTable htable hproject) (hsettings.projects ▸ hproject) ?_ ?_ hrest
      · simp only [inDoneLane_congr hsettings.columns]
        rcases mergeTodo_cases hstep with ⟨u, _, hon⟩ | ⟨u, hmatch, hnew, _⟩
        · exact h.landsOn htable hon fun sprintID => hfirst.mergedRow hlanes hon.projectID_eq sprintID
        · exact h.landsNew htable hmatch hnew (hfirst.newRow hlanes hnew)
      · rwa [lanes_congr hsettings.columns]
      · exact fun t ht => hfits t (List.mem_cons_of_mem _ ht)

end

/-! ## One project -/

/-- Projects have workflows, and the todos in their done lanes have dates. -/
structure DoneInv (db : DB) : Prop where
  workflows : WorkflowInv none db
  todos : TodoTable db
  dated : Dated db

/-- The lanes that a project of a backup has after a merge. -/
def mergeLanes (db : DB) (selected : Selector) (p : ProjectExport) : List (String × Bool) :=
  if 2 ≤ p.workflowColumns.length then backupLanes p
  else
    match findProject db selected p.slug with
    | some row => db.lanes row.id
    | none => defaultLanes

/-- The todos of a matched project that the backup does not name have dates, if the
done lane of the backup is theirs. -/
def KeepsDated (db : DB) (selected : Selector) (p : ProjectExport) : Prop :=
  2 ≤ p.workflowColumns.length → ∀ row ∈ findProject db selected p.slug, ∀ t ∈ db.todos,
    t.projectID = row.id → t.localID ∉ p.todos.map (·.localID) →
      (t.columnKey, true) ∈ backupLanes p → t.doneAt ≠ none

section

variable {rt : Runtime} {ctx : Ctx} {db₀ db db' : DB} {p : ProjectExport} {selected : Selector}

theorem Dated.congr (h : Dated db) (htodos : db'.todos = db.todos) (hcolumns : db'.columns = db.columns) :
    Dated db' := by
  intro t ht hdone
  exact h t (htodos ▸ ht) ((inDoneLane_congr hcolumns t).mp hdone)

theorem DoneInv.congr (h : DoneInv db) (htodos : db'.todos = db.todos)
    (hcolumns : db'.columns = db.columns)
    (hprojects : db'.projects.map (·.id) = db.projects.map (·.id)) : DoneInv db' where
  workflows := h.workflows.congr hcolumns hprojects
  todos := h.todos.congr (by rw [DB.todoKeys, htodos, DB.todoKeys]) fun _ hid => hprojects ▸ hid
  dated := h.dated.congr htodos hcolumns

theorem DoneInv.contentOnly (h : DoneInv db) (hcontent : ContentOnly db db') : DoneInv db' :=
  h.congr hcontent.todos hcontent.columns (by rw [hcontent.projects])

theorem DoneInv.landsAll (h : DoneInv db) {projectID : ℤ} {r : ImportResult} {scan : TodoScan}
    {lanes : List (String × Bool)} (hproject : projectID ∈ db.projects.map (·.id))
    (hlanes : ∀ lane, lane ∈ db.lanes projectID ↔ lane ∈ lanes)
    (hfits : ∀ t ∈ p.todos, LandsDated lanes t)
    (hall : LandsAll projectID p.todos { db := db, result := r } scan) : DoneInv scan.db where
  workflows := h.workflows.keepsSettings hall.keepsSettings
  todos := hall.todoTable h.todos hproject
  dated := Dated.landsAll h.dated h.todos hproject hlanes hfits hall

/-- A new project has no todos, so its done lane has none without a date. -/
theorem DoneInv.founds (h : DoneInv db) {face : ProjectFace} (hfounds : Founds p face db db') :
    DoneInv db' where
  workflows := h.workflows.founds hfounds (by simp)
  todos := hfounds.todoTable h.todos
  dated t ht hdone := by
    rw [hfounds.todos] at ht
    have hne : t.projectID ≠ face.id := by
      intro heq
      exact hfounds.projectIDs.1 (heq ▸ h.todos.project t ht)
    rw [InDoneLane, (hfounds.sameBoard hne).lanes] at hdone
    exact h.dated t ht hdone

section

variable (hvalid : ∀ c ∈ p.workflowColumns, IsColumnKey (trimSpace c.key))

include hvalid

theorem DoneInv.founded (h : DoneInv db) {face : ProjectFace}
    (hfits : ∀ t ∈ p.todos, LandsDated (importLanes p) t)
    (hbrings : Brings p face.id (Founds p face db) db') : DoneInv db' := by
  obtain ⟨db₁, r, scan, hfounds, hall, hcontent⟩ := hbrings
  have hproject : face.id ∈ db₁.projects.map (·.id) := by
    rw [hfounds.projectIDs.2]
    exact List.mem_append_right _ List.mem_cons_self
  exact ((h.founds hfounds).landsAll hproject (hfounds.lanes h.workflows hvalid) hfits
    hall).contentOnly hcontent

/-- One project of a merge, seen from the database before the merge. -/
theorem DoneInv.mergeStep (h : DoneInv db)
    (hfits : ∀ t ∈ p.todos, LandsDated (mergeLanes db₀ selected p) t)
    (hkept : KeepsDated db₀ selected p) (hstep : MergeStep rt ctx selected p db₀ db db') :
    DoneInv db' := by
  cases hstep with
  | new hfind face hmerges =>
      refine h.founded hvalid ?_ hmerges.brings
      unfold mergeLanes at hfits
      rw [hfind] at hfits
      exact hfits
  | found row hfind hproject hsame hmerges =>
      obtain ⟨db₁, sprintID, r, scan, hrewrites, htodos, hcontent⟩ := hmerges
      have hproject₁ : row.id ∈ db₁.projects.map (·.id) := hrewrites.projectIDs ▸ hproject
      have hworkflows := h.workflows.rewrites hproject hrewrites (by simp)
      have htable := hrewrites.todoTable h.todos
      have hlanes := hrewrites.lanes hvalid
      have hafter : mergeLanes db₀ selected p =
          if 2 ≤ p.workflowColumns.length then backupLanes p else db.lanes row.id := by
        simp only [mergeLanes, hfind, hsame.lanes]
      rw [hafter] at hfits
      have hpending : Pending row.id p.todos { db := db₁, result := r } fun v =>
          InDoneLane db₁ v → v.doneAt ≠ none := by
        intro v hv
        have hv : v ∈ db.todos := hrewrites.todos ▸ hv
        by_cases hpid : v.projectID = row.id
        · by_cases hin : v.localID ∈ p.todos.map (·.localID)
          · exact .inr ⟨hpid, hin, by simp⟩
          · refine .inl fun hdone => ?_
            rw [InDoneLane, hpid, hlanes] at hdone
            split at hdone
            · rename_i hlen
              exact hkept hlen row hfind v ((hsame.todos v hpid).mp hv) hpid hin hdone
            · exact h.dated v hv (by rwa [InDoneLane, hpid])
        · refine .inl fun hdone => h.dated v hv ?_
          rwa [InDoneLane, (hrewrites.sameBoard hpid).lanes] at hdone
      have hall := landsAll_of_foldlM (fun _ _ _ => mergeTodo_lands) htodos
      have hscan : DoneInv scan.db :=
        { workflows := hworkflows.keepsSettings hall.keepsSettings
          todos := hall.todoTable htable hproject₁
          dated := hpending.dated htable hproject₁ hlanes hfits htodos }
      exact hscan.contentOnly hcontent

end

theorem DoneInv.joined (h : DoneInv db) {row : ProjectRow} (hrow : row ∈ db.projects)
    (hfits : ∀ t ∈ p.todos, LandsDated (db.lanes row.id) t)
    (hbrings : Brings p row.id (· = db) db') : DoneInv db' := by
  obtain ⟨db₁, r, scan, rfl, hall, hcontent⟩ := hbrings
  exact (h.landsAll (List.mem_map_of_mem hrow) (fun _ => Iff.rfl) hfits hall).contentOnly hcontent

theorem DoneInv.deleteProjects (h : DoneInv db) (gone : ProjectRow → Bool) :
    DoneInv (Scrumboy.deleteProjects db gone) := by
  have htable := h.todos.deleteProjects h.workflows.projects gone
  refine ⟨h.workflows.deleteProjects gone, htable, fun t ht hdone => ?_⟩
  refine h.dated t (mem_deleteWhere.mp ht).1 ?_
  rwa [InDoneLane, DB.lanes, deleteProjects_columnsOf h.workflows.projects (htable.project t ht)]
    at hdone

end

/-! ## Runs -/

/-- Every todo that an import brings to a done lane has a done date in the backup or the
legacy status of a finished one; and where a merge gives a project another workflow, the
todos that stay in its done lane have dates. -/
def ImportDated (rt : Runtime) (ctx : Ctx) (db : DB) (req : ImportRequest) : Prop :=
  if req.IntoBoard then
    ∀ row ∈ (getProjectBySlug db req.targetSlug).toOption, ∀ p ∈ req.data.projects, ∀ t ∈ p.todos,
      LandsDated (db.lanes row.id) t
  else
    validateImportPreflight rt ctx db req.data req.mode req.importMode = .ok () →
      if req.importMode = .merge ∧ req.mode = .full then
        ∀ selected ∈ (exportableProjectsSelector ctx db .full).toOption,
          (∀ p ∈ req.data.projects,
            (∀ t ∈ p.todos, LandsDated (mergeLanes db selected p) t) ∧ KeepsDated db selected p) ∧
          NoCapture (fun slug => (findProject db selected slug).isSome) req.draws
            (db.faces.map (·.slug)) [] req.data.projects.zipIdx
      else ∀ p ∈ req.data.projects, ∀ t ∈ p.todos, LandsDated (importLanes p) t

def ActivityDated (rt : Runtime) (db : DB) (a : Ctx × Activity) : Prop :=
  match a.2 with
  | .importProjects req => ImportDated rt a.1 db req
  | _ => True

section

variable {rt : Runtime} {ctx : Ctx} {db : DB}

theorem DoneInv.importProjects (h : DoneInv db) {req : ImportRequest}
    (hfits : ImportDated rt ctx db req) : DoneInv (Scrumboy.importProjects rt ctx db req).1 := by
  rcases importProjects_cases rt ctx db req with heq | ⟨hboard, r, hok⟩ |
    ⟨hboard, hchecked, hpre, hout⟩
  · rwa [heq]
  · rw [ImportDated, if_pos hboard] at hfits
    have hinv := importIntoBoard_inv (I := fun d => DoneInv d ∧ d.columns = db.columns)
      (fun row hrow p hp db₁ db₂ hmem hdb₁ hbrings => ?_) (fun db₁ projects hids hdb₁ => ?_)
      ⟨h, rfl⟩ hok
    · exact hinv.1
    · have hlanes := hfits row (by rw [hrow]; rfl) p hp
      rw [← lanes_congr hdb₁.2] at hlanes
      refine ⟨hdb₁.1.joined hmem hlanes hbrings, ?_⟩
      obtain ⟨_, r, scan, rfl, hall, hcontent⟩ := hbrings
      rw [hcontent.columns, hall.keepsSettings.columns]
      exact hdb₁.2
    · exact ⟨hdb₁.1.congr rfl rfl hids, hdb₁.2⟩
  · rw [ImportDated, if_neg hboard] at hfits
    have hfits := hfits hpre
    have hvalid := fun p hp => (hchecked.project p hp).columnKey
    generalize (Scrumboy.importProjects rt ctx db req).1 = db' at hout ⊢
    cases hout with
    | replaced himport hout =>
        rw [if_neg (by simp [himport])] at hfits
        rw [← hout]
        refine importReplaceAll_inv (fun s p i s' hp hs hstep => ?_)
          (fun db₁ gone hdb₁ => hdb₁.deleteProjects gone) (fun db₁ db₂ hdb₁ hok => ?_) h
        · obtain ⟨face, hbrings⟩ := stageProject_brings hstep
          exact hs.founded (hvalid p hp) (hfits p hp) hbrings
        · rw [promoteStaging_eq_ok hok]
          refine hdb₁.congr rfl rfl ?_
          apply map_updateWhere
          intro _
          rfl
    | merged himport hmode r hout =>
        rw [if_pos ⟨himport, hmode⟩] at hfits
        rw [himport] at hchecked
        have hsel := hout
        simp only [importMerge, bind_eq_ok] at hsel
        obtain ⟨selected, hselected, _⟩ := hsel
        obtain ⟨hdated, hcapture⟩ := hfits selected (by rw [hselected]; rfl)
        refine importMerge_walk h.workflows.projects (fun _ hdb => hdb.todos) hchecked hselected
          hcapture (fun p hp db₁ db₂ hdb₁ hstep => ?_) h hout
        exact hdb₁.mergeStep (hvalid p hp) (hdated p hp).1 (hdated p hp).2 hstep
    | copied himport r hout =>
        have hcopy : ¬ (req.importMode = .merge ∧ req.mode = .full) := by
          rintro ⟨hmerge, hmode⟩
          rcases himport with hcopy | ⟨_, hanon⟩
          · simp [hmerge] at hcopy
          · simp [hmode] at hanon
        rw [if_neg hcopy] at hfits
        refine importCreateCopy_inv (fun s p i s' hp hs hstep => ?_) h hout
        obtain ⟨face, hbrings⟩ := copyProject_brings hstep
        exact hs.founded (hvalid p hp) (hfits p hp) hbrings

theorem DoneInv.createAnonymousBoard (h : DoneInv db) (draws : List String) :
    DoneInv (Scrumboy.createAnonymousBoard rt ctx db draws).1 := by
  have hinv := h.workflows.createAnonymousBoard rt ctx draws (by simp)
  rcases createAnonymousBoard_reshapes h.workflows rt ctx draws with heq | ⟨id, hfresh, hr, hids⟩
  · rwa [heq]
  · rcases createAnonymousBoard_spec rt ctx db draws with heq | ⟨p, _, _, _, htodos, _⟩
    · rwa [heq]
    · refine ⟨hinv, h.todos.congr (by rw [DB.todoKeys, htodos, DB.todoKeys]) fun q hq => ?_,
        fun t ht hdone => ?_⟩
      · rw [hids]
        exact List.mem_append_left _ hq
      · rw [htodos] at ht
        have hne : t.projectID ≠ id := fun heq => hfresh (heq ▸ h.todos.project t ht)
        rw [InDoneLane, hr.lanes hne] at hdone
        exact h.dated t ht hdone

theorem DoneInv.proceed (h : DoneInv db) (a : Ctx × Activity) (hfits : ActivityDated rt db a) :
    DoneInv (Scrumboy.proceed rt db a) := by
  obtain ⟨ctx, a⟩ := a
  cases a with
  | action a =>
      have hworkflows := h.workflows.proceed rt (ctx, .action a) (by simp) (by simp)
      exact ⟨hworkflows, act_inv (P := TodoTable) h.todos fun db' hok => h.todos.exec_action hok,
        act_inv (P := Dated) h.dated fun db' hok => h.dated.exec_action h.workflows h.todos hok⟩
  | createAnonymousBoard draws => exact h.createAnonymousBoard draws
  | importProjects req => exact h.importProjects hfits

/-- The tables of todos and of columns are in order after every activity. -/
theorem tables_proceed (h : WorkflowInv none db ∧ TodoTable db) (a : Ctx × Activity) :
    WorkflowInv none (Scrumboy.proceed rt db a) ∧ TodoTable (Scrumboy.proceed rt db a) := by
  refine ⟨h.1.proceed rt a (by simp) (by simp), ?_⟩
  obtain ⟨ctx, a⟩ := a
  cases a with
  | action a => exact act_inv (P := TodoTable) h.2 fun db' hok => h.2.exec_action hok
  | createAnonymousBoard draws =>
      rcases createAnonymousBoard_spec rt ctx db draws with heq | ⟨p, _, hprojects, _, htodos, _⟩
      · exact (congrArg TodoTable heq).mpr h.2
      · refine h.2.congr (by rw [DB.todoKeys, DB.todoKeys]; exact congrArg _ htodos) fun q hq => ?_
        change q ∈ (Scrumboy.createAnonymousBoard rt ctx db draws).1.projects.map (·.id)
        rw [hprojects, List.map_append]
        exact List.mem_append_left _ hq
  | importProjects req =>
      refine (importProjects_inv (I := fun d => WorkflowInv none d ∧ TodoTable d)
        (fun db₁ gone hdb₁ => ?_) (fun db₁ projects hids hdb₁ => ?_)
        (fun _ p _ row db₁ db₂ hrow hdb₁ hbrings => ?_) (fun _ p _ db₁ db₂ hdb₁ hstep => ?_) h).2
      · exact ⟨hdb₁.1.deleteProjects gone, hdb₁.2.deleteProjects hdb₁.1.projects gone⟩
      · exact ⟨hdb₁.1.congr rfl hids, hdb₁.2.congr rfl fun _ hid => hids ▸ hid⟩
      · exact ⟨hdb₁.1.joins hbrings, hdb₁.2.importStep (.joined row hrow hbrings)⟩
      · exact ⟨hdb₁.1.importStep hstep (by simp), hdb₁.2.importStep hstep⟩

theorem tables_run (rt : Runtime) (h : WorkflowInv none db ∧ TodoTable db) (acts : List (Ctx × Activity)) :
    WorkflowInv none (Transition.run (Scrumboy.proceed rt) db acts) ∧
      TodoTable (Transition.run (Scrumboy.proceed rt) db acts) := by
  induction acts generalizing db with
  | nil => exact h
  | cons a acts ih => exact ih (tables_proceed h a)

end

theorem DB.IsEmpty.tables {db : DB} (h : db.IsEmpty) : WorkflowInv none db ∧ TodoTable db := by
  obtain ⟨hprojects, hcolumns, htodos⟩ := h
  refine ⟨?_, by simp [htodos], by simp [htodos], by simp [htodos]⟩
  constructor <;> simp [hprojects, hcolumns]

/-- In every run in which imports bring dated todos to done lanes, the todos in done lanes
have done dates. In every run, whatever was imported, an action changes the done date of a
todo only when it takes the todo from another lane to the done lane. -/
theorem doneAt_of_run (rt : Runtime) (db₀ : DB) (hempty : db₀.IsEmpty)
    (acts : List (Ctx × Activity)) (db : DB) (hdb : db = Transition.run (proceed rt) db₀ acts) :
    (Transition.Along (ActivityDated rt) (proceed rt) db₀ acts →
      ∀ t ∈ db.todos, InDoneLane db t → t.doneAt ≠ none) ∧
    ∀ (a : Ctx × Action), ∀ t ∈ db.todos, ∀ t' ∈ (act rt db a).todos, t'.id = t.id →
      t'.doneAt ≠ t.doneAt → ¬ InDoneLane db t ∧ InDoneLane (act rt db a) t' := by
  have htables := hempty.tables
  constructor
  · intro hfits
    have hinv : DoneInv db₀ := ⟨htables.1, htables.2, fun t ht => by simp [hempty.2.2] at ht⟩
    rw [hdb]
    exact (Transition.run_along (fun _ a h hfit => h.proceed a hfit) hinv hfits).dated
  · intro a t ht t' ht' hid hchange
    have hrun := tables_run rt htables acts
    rw [← hdb] at hrun
    obtain ⟨hworkflow, htable⟩ := hrun
    exact doneAt_of_action hworkflow htable a ht ht' hid hchange

/-- A backup of a board whose done lane has the key `shipped`, with a todo in it. -/
def shippedBackup (doneAt : Option ℤ) : ImportRequest where
  data := { projects := [{
    slug := "board"
    name := "Board"
    workflowColumns := [⟨"todo", "To do", "#64748b", 0, false⟩,
      ⟨"shipped", "Shipped", "#64748b", 1, true⟩]
    todos := [{ localID := 1, title := "t", status := "SHIPPED", doneAt := doneAt }] }] }
  mode := .full
  importMode := .copy
  batchID := "batch"
  draws := fun _ => ⟨"slug", fun _ => 0, fun _ => 0⟩

/-- A board with a todo that moves to its done lane, and a copy of a shipped board. -/
def shippedRun (doneAt : Option ℤ) : List (Ctx × Activity) :=
  [(⟨some 1, 5⟩, .action (.request (.createProject "Board" none))),
   (⟨some 1, 6⟩, .action (.request (.createTodo 1 { title := "t" }))),
   (⟨some 1, 7⟩, .action (.request (.moveTodo 1 "done" none none))),
   (⟨some 1, 8⟩, .importProjects (shippedBackup doneAt))]

/-- A backup with done dates leaves no todo of a done lane without one. -/
theorem doneAt_of_run_shipped :
    (Transition.run (proceed plainRuntime) { users := [1] } (shippedRun (some 3))).todos.map
        (fun t => (t.columnKey, t.doneAt)) = [("done", some 7), ("shipped", some 3)] ∧
      ∀ t ∈ (Transition.run (proceed plainRuntime) { users := [1] } (shippedRun (some 3))).todos,
        InDoneLane (Transition.run (proceed plainRuntime) { users := [1] } (shippedRun (some 3))) t →
          t.doneAt ≠ none := by
  refine ⟨by decide +kernel, (doneAt_of_run plainRuntime { users := [1] } ⟨rfl, rfl, rfl⟩
    (shippedRun (some 3)) _ rfl).1 ⟨trivial, trivial, trivial, ?_, trivial⟩⟩
  change ImportDated _ _ _ _
  rw [ImportDated, if_neg (by decide)]
  intro _
  rw [if_neg (by decide)]
  decide +kernel

/-- Without a date in the backup, the todo in the lane `shipped` has none. -/
theorem doneAt_missing_after_copy :
    ¬ ∀ t ∈ (Transition.run (proceed plainRuntime) { users := [1] } (shippedRun none)).todos,
      InDoneLane (Transition.run (proceed plainRuntime) { users := [1] } (shippedRun none)) t →
        t.doneAt ≠ none := by
  decide +kernel

end Scrumboy
