import Scrumboy.Backup.Operations

/-!
# Lanes through an import

An import writes the lane of every todo that it brings, and a merge may also take
away the lanes of todos that are there. The todos of the backup settle one by one;
until the loop is through, a todo that a later one of the backup matches may still be
in a lane that is gone.
-/

set_option linter.dupNamespace false

namespace Scrumboy

open Go Sql

/-- The status of a backup leads to one of the lanes `keys`: the lane of a legacy
literal is there, and any other status is a lane itself or falls back to the
backlog. -/
def LaneKnown (keys : List String) (status : String) : Prop :=
  (∀ s ∈ parseStatus status, statusToColumnKey s ∈ keys) ∧
    (parseStatus status = none →
      toLower (trimSpace status) ∈ keys ∨ defaultColumnBacklog ∈ keys)

instance (keys : List String) (status : String) : Decidable (LaneKnown keys status) :=
  inferInstanceAs (Decidable (_ ∧ _))

def LanesKnown (keys : List String) (p : ProjectExport) : Prop := ∀ t ∈ p.todos, LaneKnown keys t.status

instance (keys : List String) (p : ProjectExport) : Decidable (LanesKnown keys p) :=
  inferInstanceAs (Decidable (∀ t ∈ p.todos, _))

/-- A status that leads to a lane is resolved to a lane of the project. -/
theorem LaneKnown.resolves {db : DB} {projectID : ℤ} {keys : List String} {status : String}
    (h : LaneKnown keys status) (hcols : ColumnTable db.columns)
    (hkeys : ∀ k ∈ keys, k ∈ db.columnKeys projectID) :
    (resolveImportColumnKey db projectID status).1 ∈ db.columnKeys projectID := by
  cases hparse : parseStatus status with
  | some s =>
      rw [resolveImportColumnKey_of_parse hparse]
      exact hkeys _ (h.1 s hparse)
  | none =>
      by_cases hmem : toLower (trimSpace status) ∈ db.columnKeys projectID
      · have hne : toLower (trimSpace status) ≠ "" := by
          obtain ⟨c, hc, _, hkey⟩ := DB.mem_columnKeys.mp hmem
          exact hkey ▸ (hcols.keys c hc).ne_empty
        rwa [resolveImportColumnKey_of_mem hparse hmem hne]
      · have hback : resolveImportColumnKey db projectID status = (defaultColumnBacklog, true) := by
          have hbad : ¬ (validateProjectColumnKey db projectID (toLower (trimSpace status))).isOk :=
            fun hok => hmem (validateProjectColumnKey_isOk_iff.mp hok)
          simp [resolveImportColumnKey, hparse, hbad]
        rw [hback]
        rcases h.2 hparse with hkey | hkey
        · exact absurd (hkeys _ hkey) hmem
        · exact hkeys _ hkey

/-! ## One todo -/

section

variable {projectID : ℤ} {s s' : TodoScan} {t : TodoExport} {u : TodoRow}

theorem LandsOn.boards (h : LandsOn projectID s s' t u) :
    s'.db.columns = s.db.columns ∧ s'.db.projects = s.db.projects := by
  obtain ⟨sprintID, htags⟩ := h.tables
  exact ⟨htags.contentOnly.columns, htags.contentOnly.projects⟩

theorem LandsNew.boards (h : LandsNew projectID s s' t u) :
    s'.db.columns = s.db.columns ∧ s'.db.projects = s.db.projects :=
  ⟨h.tables.contentOnly.columns, h.tables.contentOnly.projects⟩

theorem LandsNew.columnKey_eq (h : LandsNew projectID s s' t u) :
    u.columnKey = (resolveImportColumnKey s.db projectID t.status).1 := by
  obtain ⟨sprintID, hrow⟩ := h.row
  rw [hrow]
  rfl

/-- The rows of a table after a todo landed on one of them. -/
theorem LandsOn.mem_todos (h : LandsOn projectID s s' t u) (htable : TodoTable s.db) (v : TodoRow) :
    v ∈ s'.db.todos ↔ (∃ sprintID, v = mergedRow s.db projectID
        (resolveImportColumnKey s.db projectID t.status).1 sprintID t u ∧ v ∈ s'.db.todos) ∨
      v ∈ s.db.todos ∧ v.id ≠ u.id := by
  obtain ⟨sprintID, htags⟩ := h.tables
  have hiff : v ∈ s'.db.todos ↔ ∃ w ∈ s.db.todos, v = if w.id == u.id then mergedRow s.db projectID
      (resolveImportColumnKey s.db projectID t.status).1 sprintID t w else w := by
    rw [htags.contentOnly.todos, mem_updateWhere]
  constructor
  · intro hv
    obtain ⟨w, hw, heq⟩ := hiff.mp hv
    split at heq
    · rename_i hid
      obtain rfl := htable.eq_of_id hw h.mem (by simpa using hid)
      exact .inl ⟨sprintID, heq, hv⟩
    · rename_i hid
      exact .inr ⟨heq ▸ hw, by simpa [heq] using hid⟩
  · rintro (⟨_, _, hv⟩ | ⟨hv, hid⟩)
    · exact hv
    · exact hiff.mpr ⟨v, hv, by simp [hid]⟩

theorem TodoTable.landsOn (h : TodoTable s.db) (hon : LandsOn projectID s s' t u) :
    TodoTable s'.db :=
  h.congr hon.todoKeys fun _ hid => hon.boards.2 ▸ hid

theorem TodoTable.landsNew (h : TodoTable s.db) (hnew : LandsNew projectID s s' t u)
    (hproject : projectID ∈ s.db.projects.map (·.id)) : TodoTable s'.db := by
  refine h.concat hnew.id_eq ?_ ?_ hnew.todos (by rw [hnew.boards.2])
  · rw [hnew.projectID_eq]
    exact hnew.free
  · exact hnew.projectID_eq ▸ hproject

/-! ## Todos that settle -/

/-- Every todo is settled, or it is one that a todo of the rest of a merge is going to
land on. -/
def Pending (projectID : ℤ) (rest : List TodoExport) (s : TodoScan) (settled : TodoRow → Prop) :
    Prop :=
  ∀ v ∈ s.db.todos, settled v ∨
    v.projectID = projectID ∧ v.localID ∈ rest.map (·.localID) ∧ v.id ∉ s.imported.created

theorem Pending.landsOn {rest : List TodoExport} {settled : TodoRow → Prop}
    (h : Pending projectID (t :: rest) s settled) (htable : TodoTable s.db)
    (hon : LandsOn projectID s s' t u)
    (hrow : ∀ sprintID, settled (mergedRow s.db projectID
      (resolveImportColumnKey s.db projectID t.status).1 sprintID t u)) :
    Pending projectID rest s' settled := by
  intro v hv
  rcases (hon.mem_todos htable v).mp hv with ⟨sprintID, rfl, _⟩ | ⟨hv, hne⟩
  · exact .inl (hrow sprintID)
  · rcases h v hv with hok | ⟨hp, hl, hold⟩
    · exact .inl hok
    · right
      refine ⟨hp, ?_, by simpa [hon.imported, ImportedTodos.record] using hold⟩
      -- The todo with the local id of `t` is the one that it landed on.
      rcases List.mem_cons.mp hl with heq | hl
      · have heq : v = u := htable.eq_of_localID hv hon.mem (hp.trans hon.projectID_eq.symm)
          (heq.trans hon.localID_eq.symm)
        exact absurd (congrArg TodoRow.id heq) hne
      · exact hl

theorem Pending.landsNew {rest : List TodoExport} {settled : TodoRow → Prop}
    (h : Pending projectID (t :: rest) s settled) (htable : TodoTable s.db)
    (hmatch : mergeMatch s projectID t.localID = none) (hnew : LandsNew projectID s s' t u)
    (hrow : settled u) : Pending projectID rest s' settled := by
  intro v hv
  rcases List.mem_append.mp (hnew.todos ▸ hv) with hv | hv
  · rcases h v hv with hok | ⟨hp, hl, hold⟩
    · exact .inl hok
    · right
      have hfresh : v.id ≠ u.id := (hnew.id_lt v.key (List.mem_map_of_mem hv)).ne
      refine ⟨hp, ?_, by simp [hnew.imported, ImportedTodos.record, hold, hfresh]⟩
      -- A todo that was there with the local id of `t` would have been matched.
      rcases List.mem_cons.mp hl with heq | hl
      · exfalso
        cases hfind : todoByLocalID s.db projectID t.localID with
        | none => exact todoByLocalID_eq_none.mp hfind (DB.mem_localIDs.mpr ⟨v, hv, hp, heq⟩)
        | some w =>
            obtain ⟨hw, hwp, hwl⟩ := todoByLocalID_eq_some hfind
            obtain rfl := htable.eq_of_localID hv hw (hp.trans hwp.symm) (heq.trans hwl.symm)
            rw [mergeMatch, hfind, Option.filter_eq_none_iff] at hmatch
            exact hmatch v rfl (by simpa [ImportedTodos.wasCreated] using hold)
      · exact hl
  · exact .inl (List.mem_singleton.mp hv ▸ hrow)

theorem Pending.settled {settled : TodoRow → Prop} (h : Pending projectID [] s settled) :
    ∀ v ∈ s.db.todos, settled v := by
  intro v hv
  rcases h v hv with hok | ⟨_, hl, _⟩
  · exact hok
  · simp at hl

/-- The loop of a merge with the todos `rest` to go: a todo is in a lane of its
project, or it is one that a todo of the rest is going to land on. -/
structure Settling (projectID : ℤ) (rest : List TodoExport) (s : TodoScan) : Prop where
  projects : (s.db.projects.map (·.id)).Nodup
  project : projectID ∈ s.db.projects.map (·.id)
  columns : ColumnTable s.db.columns
  todos : TodoTable s.db
  lane : ∀ v ∈ s.db.todos, v.columnKey ∈ s.db.columnKeys v.projectID ∨
    v.projectID = projectID ∧ v.localID ∈ rest.map (·.localID) ∧ v.id ∉ s.imported.created

theorem columnKeys_congr {db db' : DB} (h : db'.columns = db.columns) (q : ℤ) :
    db'.columnKeys q = db.columnKeys q := by
  simp only [DB.columnKeys, DB.columnsOf, h]

theorem Settling.landsOn {rest : List TodoExport} (h : Settling projectID (t :: rest) s)
    (hlane : (resolveImportColumnKey s.db projectID t.status).1 ∈ s.db.columnKeys projectID)
    (hon : LandsOn projectID s s' t u) : Settling projectID rest s' := by
  obtain ⟨hcols, hprojects⟩ := hon.boards
  have hpending : Pending projectID (t :: rest) s fun v =>
      v.columnKey ∈ s.db.columnKeys v.projectID := h.lane
  refine ⟨hprojects ▸ h.projects, hprojects ▸ h.project, hcols ▸ h.columns, h.todos.landsOn hon, ?_⟩
  simp only [columnKeys_congr hcols]
  refine hpending.landsOn h.todos hon fun sprintID => ?_
  exact hon.projectID_eq ▸ hlane

theorem Settling.landsNew {rest : List TodoExport} (h : Settling projectID (t :: rest) s)
    (hlane : (resolveImportColumnKey s.db projectID t.status).1 ∈ s.db.columnKeys projectID)
    (hmatch : mergeMatch s projectID t.localID = none) (hnew : LandsNew projectID s s' t u) :
    Settling projectID rest s' := by
  obtain ⟨hcols, hprojects⟩ := hnew.boards
  have hpending : Pending projectID (t :: rest) s fun v =>
      v.columnKey ∈ s.db.columnKeys v.projectID := h.lane
  refine ⟨hprojects ▸ h.projects, hprojects ▸ h.project, hcols ▸ h.columns,
    h.todos.landsNew hnew h.project, ?_⟩
  simp only [columnKeys_congr hcols]
  refine hpending.landsNew h.todos hmatch hnew ?_
  rw [hnew.projectID_eq, hnew.columnKey_eq]
  exact hlane

end

section

variable {rt : Runtime} {ctx : Ctx} {projectID : ℤ} {sprintID : ℤ → Option ℤ} {s s' : TodoScan}
  {keys : List String}

/-- After the last todo of the backup, every todo is in a lane. -/
theorem Settling.laneInv (h : Settling projectID [] s) : LaneInv s.db where
  projects := h.projects
  columns := h.columns
  todos := h.todos
  lane := Pending.settled (show Pending projectID [] s _ from h.lane)

theorem Settling.mergeTodos {todos : List TodoExport} (h : Settling projectID todos s)
    (hkeys : ∀ k ∈ keys, k ∈ s.db.columnKeys projectID)
    (hknown : ∀ t ∈ todos, LaneKnown keys t.status)
    (hok : todos.foldlM (mergeTodo rt ctx projectID sprintID) s = .ok s') : LaneInv s'.db := by
  induction todos generalizing s with
  | nil =>
      rw [List.foldlM_nil, pure_eq_ok] at hok
      exact hok ▸ h.laneInv
  | cons t todos ih =>
      rw [List.foldlM_cons, bind_eq_ok] at hok
      obtain ⟨s₁, hstep, hrest⟩ := hok
      have hlane := (hknown t List.mem_cons_self).resolves h.columns hkeys
      have hrestKnown : ∀ t ∈ todos, LaneKnown keys t.status :=
        fun t ht => hknown t (List.mem_cons_of_mem _ ht)
      rcases mergeTodo_cases hstep with ⟨u, _, hon⟩ | ⟨u, hmatch, hnew, _⟩
      · refine ih (h.landsOn hlane hon) ?_ hrestKnown hrest
        rwa [columnKeys_congr hon.boards.1]
      · refine ih (h.landsNew hlane hmatch hnew) ?_ hrestKnown hrest
        rwa [columnKeys_congr hnew.boards.1]

/-- A loop that makes a new row of every todo of the backup. -/
theorem LaneInv.newTodos {step : TodoScan → TodoExport → Result TodoScan}
    (hstep : ∀ s t s', step s t = .ok s' → ∃ u, LandsNew projectID s s' t u)
    {todos : List TodoExport} (h : LaneInv s.db) (hproject : projectID ∈ s.db.projects.map (·.id))
    (hkeys : ∀ k ∈ keys, k ∈ s.db.columnKeys projectID)
    (hknown : ∀ t ∈ todos, LaneKnown keys t.status) (hok : todos.foldlM step s = .ok s') :
    LaneInv s'.db := by
  induction todos generalizing s with
  | nil =>
      rw [List.foldlM_nil, pure_eq_ok] at hok
      exact hok ▸ h
  | cons t todos ih =>
      rw [List.foldlM_cons, bind_eq_ok] at hok
      obtain ⟨s₁, hok₁, hrest⟩ := hok
      obtain ⟨u, hnew⟩ := hstep s t s₁ hok₁
      obtain ⟨hcols, hprojects⟩ := hnew.boards
      have hlane := (hknown t List.mem_cons_self).resolves h.columns hkeys
      refine ih ?_ (hprojects ▸ hproject) ?_ (fun t ht => hknown t (List.mem_cons_of_mem _ ht)) hrest
      · refine ⟨hprojects ▸ h.projects, hcols ▸ h.columns, h.todos.landsNew hnew hproject, ?_⟩
        intro v hv
        rw [columnKeys_congr hcols]
        rcases List.mem_append.mp (hnew.todos ▸ hv) with hv | hv
        · exact h.lane v hv
        · rw [List.mem_singleton.mp hv, hnew.projectID_eq, hnew.columnKey_eq]
          exact hlane
      · rwa [columnKeys_congr hcols]

end

/-! ## One project -/

section

variable {rt : Runtime} {ctx : Ctx} {db db' : DB} {p : ProjectExport}

theorem LaneInv.contentOnly (h : LaneInv db) (hcontent : ContentOnly db db') : LaneInv db' := by
  refine ⟨hcontent.projects ▸ h.projects, hcontent.columns ▸ h.columns, ?_, ?_⟩
  · refine h.todos.congr ?_ fun _ hid => hcontent.projects ▸ hid
    simp only [DB.todoKeys, hcontent.todos]
  · intro t ht
    rw [columnKeys_congr hcontent.columns]
    exact h.lane t (hcontent.todos ▸ ht)

theorem AddsProject.projects_nodup {face : ProjectFace} (hadds : AddsProject face db db')
    (h : (db.projects.map (·.id)).Nodup) : (db'.projects.map (·.id)).Nodup := by
  rw [DB.projectIDs_eq, hadds.faces, List.map_append, ← DB.projectIDs_eq, List.map_singleton,
    hadds.id_eq]
  exact nodup_concat_nextRowid h

theorem AddsProject.mem_projects {face : ProjectFace} (hadds : AddsProject face db db') (id : ℤ) :
    id ∈ db'.projects.map (·.id) ↔ id ∈ db.projects.map (·.id) ∨ id = face.id := by
  rw [DB.projectIDs_eq, hadds.faces, List.map_append, ← DB.projectIDs_eq, List.mem_append]
  simp

/-- A new project has no todos, so it takes no lane away from one. -/
theorem LaneInv.addsProject {face : ProjectFace} {keys : List String} (h : LaneInv db)
    (hsets : SetsUp face.id keys db db') (hadds : AddsProject face db db') : LaneInv db' := by
  refine ⟨hadds.projects_nodup h.projects, hsets.columns h.columns, ?_, ?_⟩
  · refine h.todos.congr ?_ fun id hid => (hadds.mem_projects id).mpr (.inl hid)
    simp only [DB.todoKeys, hsets.tables.todos]
  · intro t ht
    rw [hsets.tables.todos] at ht
    have hne : t.projectID ≠ face.id := by
      rw [hadds.id_eq]
      exact (lt_nextRowid (h.todos.project t ht)).ne
    exact (hsets.other _ hne _).mpr (h.lane t ht)

variable (hvalid : ∀ c ∈ p.workflowColumns, IsColumnKey (trimSpace c.key))
  (hknown : LanesKnown (importKeys p) p)

include hvalid hknown

theorem LaneInv.copyProject {draws : ℕ → ProjectDraws} {mode : Mode} {i : ℕ} {s s' : ImportTx}
    (h : LaneInv s.db) (hok : Scrumboy.copyProject rt ctx draws mode s (p, i) = .ok s') :
    LaneInv s'.db := by
  obtain ⟨face, db₁, _, _, scan, hsets, _, hadds, htodos, hcontent⟩ := copyProject_stages hvalid hok
  have hscan : LaneInv scan.db := by
    refine LaneInv.newTodos (fun s t s' hstep => ?_) (h.addsProject hsets hadds)
      ((hadds.mem_projects _).mpr (.inr rfl)) hsets.keys hknown htodos
    obtain ⟨u, hnew, _⟩ := copyTodo_landsNew hstep
    exact ⟨u, hnew⟩
  exact hscan.contentOnly hcontent

theorem LaneInv.stageProject {draws : ℕ → ProjectDraws} {mode : Mode} {batchID : String} {i : ℕ}
    {s s' : ImportTx} (h : LaneInv s.db)
    (hok : Scrumboy.stageProject rt ctx draws mode batchID s (p, i) = .ok s') : LaneInv s'.db := by
  obtain ⟨face, db₁, _, _, scan, hsets, _, hadds, htodos, hcontent⟩ := stageProject_stages hvalid hok
  simp only [bulkInsertTodos, bind_eq_ok] at htodos
  obtain ⟨_, _, htodos⟩ := htodos
  have hscan : LaneInv scan.db := by
    refine LaneInv.newTodos (fun s t s' hstep => ?_) (h.addsProject hsets hadds)
      ((hadds.mem_projects _).mpr (.inr rfl)) hsets.keys hknown htodos
    obtain ⟨u, hnew, _⟩ := bulkInsertTodo_landsNew hstep
    exact ⟨u, hnew⟩
  exact hscan.contentOnly hcontent

end

end Scrumboy
