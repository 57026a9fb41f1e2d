import Scrumboy.Backup.Matching
import Scrumboy.Backup.Settling
import Scrumboy.Store.Actions
import Scrumboy.Store.AnonymousBoards

/-!
# Actions and imports

The store as one transition system with all of its inputs: the actions on todos, new
boards, and imports of every mode, into a board as well. Whatever the mode, an import
brings the projects of a backup one after the other: it founds a project, or rewrites
the settings of one, or joins one as it is, and then the todos land. An invariant is
carried through an import along these steps.
-/

set_option linter.dupNamespace false

namespace Scrumboy

open Go Sql

inductive Activity
  | action (a : Action)
  | createAnonymousBoard (draws : List String)
  | importProjects (req : ImportRequest)

/-- An activity as a transition. -/
def proceed (rt : Runtime) (db : DB) (a : Ctx × Activity) : DB :=
  match a.2 with
  | .action a' => act rt db (a.1, a')
  | .createAnonymousBoard draws => (createAnonymousBoard rt a.1 db draws).1
  | .importProjects req => (importProjects rt a.1 db req).1

/-! ## Landing -/

/-- The settings of all projects are equal. -/
structure KeepsSettings (db db' : DB) : Prop where
  projects : db'.projects = db.projects
  members : db'.members = db.members
  columns : db'.columns = db.columns
  priorities : db'.priorities = db.priorities

/-- A todo of a backup lands in a project, with a priority that the project has. -/
structure Lands (projectID : ℤ) (s s' : TodoScan) (t : TodoExport) : Prop where
  priority : ∀ key ∈ priorityKeyForInsert t, key ∈ s.db.priorityKeys projectID
  lands : (∃ u, LandsOn projectID s s' t u) ∨ ∃ u, LandsNew projectID s s' t u

/-- The todos of a backup land one after the other. -/
inductive LandsAll (projectID : ℤ) : List TodoExport → TodoScan → TodoScan → Prop
  | nil (s : TodoScan) : LandsAll projectID [] s s
  | cons {s s₁ s' : TodoScan} {t : TodoExport} {todos : List TodoExport}
      (hfirst : Lands projectID s s₁ t) (hrest : LandsAll projectID todos s₁ s') :
      LandsAll projectID (t :: todos) s s'

section

variable {rt : Runtime} {ctx : Ctx} {projectID : ℤ} {sprintID : ℤ → Option ℤ} {db db₁ db' : DB}
  {s s' : TodoScan} {t : TodoExport} {todos : List TodoExport}

theorem KeepsSettings.refl (db : DB) : KeepsSettings db db := ⟨rfl, rfl, rfl, rfl⟩

theorem KeepsSettings.trans (h : KeepsSettings db db₁) (h' : KeepsSettings db₁ db') :
    KeepsSettings db db' where
  projects := h'.projects.trans h.projects
  members := h'.members.trans h.members
  columns := h'.columns.trans h.columns
  priorities := h'.priorities.trans h.priorities

theorem ContentOnly.keepsSettings (h : ContentOnly db db') : KeepsSettings db db' :=
  ⟨h.projects, h.members, h.columns, h.priorities⟩

theorem Lands.keepsSettings (h : Lands projectID s s' t) : KeepsSettings s.db s'.db := by
  rcases h.lands with ⟨u, hon⟩ | ⟨u, hnew⟩
  · obtain ⟨_, htags⟩ := hon.tables
    have hcontent := htags.contentOnly
    exact ⟨hcontent.projects, hcontent.members, hcontent.columns, hcontent.priorities⟩
  · have hcontent := hnew.tables.contentOnly
    exact ⟨hcontent.projects, hcontent.members, hcontent.columns, hcontent.priorities⟩

theorem LandsAll.keepsSettings (h : LandsAll projectID todos s s') : KeepsSettings s.db s'.db := by
  induction h with
  | nil s => exact .refl s.db
  | cons hfirst _ ih => exact hfirst.keepsSettings.trans ih

theorem landsAll_of_foldlM {step : TodoScan → TodoExport → Result TodoScan}
    (hstep : ∀ s t s', step s t = .ok s' → Lands projectID s s' t)
    (h : todos.foldlM step s = .ok s') : LandsAll projectID todos s s' := by
  induction todos generalizing s with
  | nil =>
      rw [List.foldlM_nil, pure_eq_ok] at h
      exact h ▸ .nil s
  | cons t todos ih =>
      rw [List.foldlM_cons, bind_eq_ok] at h
      obtain ⟨s₁, hfirst, hrest⟩ := h
      exact .cons (hstep s t s₁ hfirst) (ih hrest)

theorem checkImportTodo_priority (h : checkImportTodo db projectID t = .ok ()) :
    ∀ key ∈ priorityKeyForInsert t, key ∈ db.priorityKeys projectID := by
  simp only [checkImportTodo, bind_eq_ok] at h
  obtain ⟨_, _, _, _, _, _, h⟩ := h
  exact checkPriority_eq_ok h

theorem mergeTodo_lands (h : mergeTodo rt ctx projectID sprintID s t = .ok s') :
    Lands projectID s s' t where
  priority := by
    simp only [mergeTodo, bind_eq_ok] at h
    exact checkImportTodo_priority h.choose_spec.1
  lands := by
    rcases mergeTodo_cases h with ⟨u, _, hon⟩ | ⟨u, _, hnew, _⟩
    · exact .inl ⟨u, hon⟩
    · exact .inr ⟨u, hnew⟩

theorem copyTodo_lands (h : copyTodo rt ctx projectID sprintID s t = .ok s') :
    Lands projectID s s' t where
  priority := by
    simp only [copyTodo, bind_eq_ok] at h
    exact checkImportTodo_priority h.choose_spec.1
  lands := by
    obtain ⟨u, hnew, _⟩ := copyTodo_landsNew h
    exact .inr ⟨u, hnew⟩

theorem bulkInsertTodo_lands (h : bulkInsertTodo projectID sprintID s t = .ok s') :
    Lands projectID s s' t where
  priority := by
    simp only [bulkInsertTodo, bind_eq_ok] at h
    exact checkImportTodo_priority h.choose_spec.1
  lands := by
    obtain ⟨u, hnew, _⟩ := bulkInsertTodo_landsNew h
    exact .inr ⟨u, hnew⟩

theorem boardTodo_lands (h : boardTodo rt ctx projectID s t = .ok s') : Lands projectID s s' t where
  priority := by
    simp only [boardTodo, bind_eq_ok] at h
    obtain ⟨_, _, _, hpriority, _⟩ := h
    exact checkPriority_eq_ok hpriority
  lands := by
    obtain ⟨u, hnew, _⟩ := boardTodo_landsNew h
    exact .inr ⟨u, hnew⟩

end

/-! ## Bringing one project -/

/-- Once the settings of a project satisfy `W`, its todos land, and what surrounds them
is written. -/
inductive Brings (p : ProjectExport) (projectID : ℤ) (W : DB → Prop) (db' : DB) : Prop
  | intro (db₁ : DB) (r : ImportResult) (scan : TodoScan) (hsettings : W db₁)
      (htodos : LandsAll projectID p.todos { db := db₁, result := r } scan)
      (hcontent : ContentOnly scan.db db')

/-- What an import does with one project of a backup. -/
inductive ImportStep (p : ProjectExport) (db db' : DB) : Prop
  | founded (face : ProjectFace) (h : Brings p face.id (Founds p face db) db')
  | rewritten (row : ProjectRow) (hrow : row ∈ db.projects)
      (h : Brings p row.id (Rewrites p row.id db) db')
  | joined (row : ProjectRow) (hrow : row ∈ db.projects) (h : Brings p row.id (· = db) db')

section

variable {rt : Runtime} {ctx : Ctx} {p : ProjectExport}

theorem copyProject_brings {draws : ℕ → ProjectDraws} {mode : Mode} {i : ℕ} {s s' : ImportTx}
    (h : copyProject rt ctx draws mode s (p, i) = .ok s') :
    ∃ face, Brings p face.id (Founds p face s.db) s'.db := by
  obtain ⟨face, db₁, _, r, scan, _, hfounds, htodos, hcontent⟩ := copyProject_writes h
  have hall := landsAll_of_foldlM (fun _ _ _ => copyTodo_lands) htodos
  exact ⟨face, db₁, r, scan, hfounds, hall, hcontent⟩

theorem stageProject_brings {draws : ℕ → ProjectDraws} {mode : Mode} {batchID : String} {i : ℕ}
    {s s' : ImportTx} (h : stageProject rt ctx draws mode batchID s (p, i) = .ok s') :
    ∃ face, Brings p face.id (Founds p face s.db) s'.db := by
  obtain ⟨face, db₁, _, r, scan, _, hfounds, htodos, hcontent⟩ := stageProject_writes h
  simp only [bulkInsertTodos, bind_eq_ok] at htodos
  obtain ⟨_, _, htodos⟩ := htodos
  have hall := landsAll_of_foldlM (fun _ _ _ => bulkInsertTodo_lands) htodos
  exact ⟨face, db₁, r, scan, hfounds, hall, hcontent⟩

theorem mergeProject_brings {draws : ℕ → ProjectDraws} {selected : Selector} {i : ℕ}
    {s s' : ImportTx × List ℤ} (h : mergeProject rt ctx draws selected s (p, i) = .ok s') :
    (∃ row ∈ s.1.db.projects, s'.2 = s.2 ++ [row.id] ∧
      Brings p row.id (Rewrites p row.id s.1.db) s'.1.db) ∨
    ∃ face, s'.2 = s.2 ++ [face.id] ∧ Brings p face.id (Founds p face s.1.db) s'.1.db := by
  obtain ⟨db₁, projectID, _, r, scan, htarget, htodos, hcontent, hids⟩ := mergeProject_writes h
  have hall := landsAll_of_foldlM (fun _ _ _ => mergeTodo_lands) htodos
  rcases htarget with ⟨row, hfind, rfl, hrewrites⟩ | ⟨face, _, rfl, _, _, hfounds⟩
  · exact .inl ⟨row, (findProject_eq_some hfind).1, hids, db₁, r, scan, hrewrites, hall, hcontent⟩
  · exact .inr ⟨face, hids, db₁, r, scan, hfounds, hall, hcontent⟩

theorem boardProject_brings {projectID : ℤ} {s s' : ImportTx}
    (h : boardProject rt ctx projectID s p = .ok s') : Brings p projectID (· = s.db) s'.db := by
  simp only [boardProject, bind_eq_ok, pure_eq_ok] at h
  obtain ⟨scan, htodos, db₁, htags, db₂, hfields, rfl⟩ := h
  have hall := landsAll_of_foldlM (fun _ _ _ => boardTodo_lands) htodos
  refine ⟨s.db, s.result, scan, rfl, hall, ?_⟩
  exact ((importTags_tagsOnly htags).contentOnly.trans
    (bulkInsertLinks_contentOnly ctx db₁ projectID p.links scan.imported false)).trans
    (importCustomFields_contentOnly hfields)

theorem Brings.keepsProjects {projectID : ℤ} {db db' : DB} (h : Brings p projectID (· = db) db') :
    db'.projects = db.projects := by
  obtain ⟨db₁, r, scan, rfl, htodos, hcontent⟩ := h
  exact hcontent.projects.trans htodos.keepsSettings.projects

end

/-! ## Deleting projects -/

/-- The projects that a deletion leaves. -/
theorem mem_deleteProjects_ids {db : DB} {gone : ProjectRow → Bool}
    (hnodup : (db.projects.map (·.id)).Nodup) {q : ℤ} :
    q ∈ (deleteProjects db gone).projects.map (·.id) ↔
      q ∈ db.projects.map (·.id) ∧ (db.projects.any fun p => p.id == q && gone p) = false := by
  constructor
  · intro hq
    obtain ⟨p, hp, rfl⟩ := List.mem_map.mp hq
    obtain ⟨hmem, hkept⟩ := mem_deleteWhere.mp hp
    refine ⟨List.mem_map_of_mem hmem, ?_⟩
    rw [List.any_eq_false]
    intro p' hp' hgone
    rw [Bool.and_eq_true, beq_iff_eq] at hgone
    rw [List.inj_on_of_nodup_map hnodup hp' hmem hgone.1, hkept] at hgone
    exact absurd hgone.2 (by simp)
  · rintro ⟨hq, hkept⟩
    obtain ⟨p, hp, rfl⟩ := List.mem_map.mp hq
    refine List.mem_map_of_mem (mem_deleteWhere.mpr ⟨hp, ?_⟩)
    simp only [List.any_eq_false, Bool.and_eq_true, beq_iff_eq, not_and] at hkept
    simpa using hkept p hp rfl

/-! ## The table of todos -/

section

variable {projectID : ℤ} {db db' : DB} {p : ProjectExport} {s s' : TodoScan} {t : TodoExport}

theorem ContentOnly.todoTable (hcontent : ContentOnly db db') (h : TodoTable db) : TodoTable db' :=
  h.congr (by rw [DB.todoKeys, hcontent.todos, DB.todoKeys]) fun _ hid => hcontent.projects ▸ hid

theorem Lands.todoTable (hlands : Lands projectID s s' t) (h : TodoTable s.db)
    (hproject : projectID ∈ s.db.projects.map (·.id)) : TodoTable s'.db := by
  rcases hlands.lands with ⟨u, hon⟩ | ⟨u, hnew⟩
  · exact h.landsOn hon
  · exact h.landsNew hnew hproject

theorem LandsAll.todoTable {todos : List TodoExport} (hall : LandsAll projectID todos s s')
    (h : TodoTable s.db) (hproject : projectID ∈ s.db.projects.map (·.id)) : TodoTable s'.db := by
  induction hall with
  | nil s => exact h
  | cons hfirst _ ih =>
      exact ih (hfirst.todoTable h hproject) (hfirst.keepsSettings.projects ▸ hproject)

theorem Founds.todos {face : ProjectFace} (h : Founds p face db db') : db'.todos = db.todos := by
  obtain ⟨projects, members, db₁, db₂, sprints, _, _, _, hworkflow, htiers, rfl⟩ := h
  obtain ⟨_, rfl⟩ := (importWorkflow_columnsOnly hworkflow).exists_eq
  obtain ⟨_, rfl⟩ := (replaceProjectPriorityTiersFromExport_prioritiesOnly htiers).exists_eq
  rfl

theorem Founds.todoTable {face : ProjectFace} (hfounds : Founds p face db db') (h : TodoTable db) :
    TodoTable db' := by
  refine h.congr (by rw [DB.todoKeys, hfounds.todos, DB.todoKeys]) fun id hid => ?_
  rw [hfounds.projectIDs.2]
  exact List.mem_append_left _ hid

theorem Rewrites.todos (h : Rewrites p projectID db db') : db'.todos = db.todos := by
  obtain ⟨projects, db₁, db₂, sprints, _, _, hworkflow, htiers, rfl⟩ := h
  obtain ⟨_, rfl⟩ := (mergeWorkflow_columnsOnly hworkflow).exists_eq
  obtain ⟨_, rfl⟩ := (mergePriorities_prioritiesOnly htiers).exists_eq
  rfl

theorem Rewrites.todoTable (hrewrites : Rewrites p projectID db db') (h : TodoTable db) :
    TodoTable db' :=
  h.congr (by rw [DB.todoKeys, hrewrites.todos, DB.todoKeys]) fun _ hid => hrewrites.projectIDs ▸ hid

theorem TodoTable.deleteProjects (h : TodoTable db) (hnodup : (db.projects.map (·.id)).Nodup)
    (gone : ProjectRow → Bool) : TodoTable (Scrumboy.deleteProjects db gone) := by
  refine h.sublist List.filter_sublist fun t ht => ?_
  obtain ⟨hmem, hkept⟩ := mem_deleteWhere.mp ht
  exact (mem_deleteProjects_ids hnodup).mpr ⟨h.project t hmem, hkept⟩

theorem TodoTable.importStep (h : TodoTable db) (hstep : ImportStep p db db') : TodoTable db' := by
  cases hstep with
  | founded face hbrings =>
      obtain ⟨db₁, r, scan, hfounds, hall, hcontent⟩ := hbrings
      have hproject : face.id ∈ db₁.projects.map (·.id) := by
        rw [hfounds.projectIDs.2]
        exact List.mem_append_right _ List.mem_cons_self
      exact hcontent.todoTable (hall.todoTable (hfounds.todoTable h) hproject)
  | rewritten row hrow hbrings =>
      obtain ⟨db₁, r, scan, hrewrites, hall, hcontent⟩ := hbrings
      have hproject : row.id ∈ db₁.projects.map (·.id) :=
        hrewrites.projectIDs ▸ List.mem_map_of_mem hrow
      exact hcontent.todoTable (hall.todoTable (hrewrites.todoTable h) hproject)
  | joined row hrow hbrings =>
      obtain ⟨db₁, r, scan, rfl, hall, hcontent⟩ := hbrings
      exact hcontent.todoTable (hall.todoTable h (List.mem_map_of_mem hrow))

end

/-! ## Rules for invariants -/

section

variable {I : DB → Prop} {rt : Runtime} {ctx : Ctx} {data : ExportData} {db : DB}

/-- An import into a board joins the board, and then notes the activity. -/
theorem importIntoBoard_inv {targetSlug : String} {db' : DB} {r : ImportResult}
    (hjoin : ∀ row, getProjectBySlug db targetSlug = .ok row → ∀ p ∈ data.projects, ∀ db₁ db₂,
      row ∈ db₁.projects → I db₁ → Brings p row.id (· = db₁) db₂ → I db₂)
    (hprojects : ∀ db₁ projects, projects.map (·.id) = db₁.projects.map (·.id) → I db₁ →
      I { db₁ with projects := projects })
    (hdb : I db) (h : importIntoBoard rt ctx db data targetSlug = .ok (db', r)) : I db' := by
  simp only [importIntoBoard, bind_eq_ok, pure_eq_ok, Prod.mk.injEq] at h
  obtain ⟨row, hget, _, _, _, _, _, _, tx, hfold, rfl, _⟩ := h
  have htarget := hget
  have hrow : row ∈ db.projects := by
    simp only [getProjectBySlug, bind_eq_ok] at hget
    obtain ⟨_, _, hget⟩ := hget
    split at hget
    · rename_i p hfind
      exact pure_eq_ok.mp hget ▸ List.mem_of_find?_eq_some hfind
    · cases hget
  have htx : I tx.db ∧ tx.db.projects = db.projects := by
    refine foldlM_inv (P := fun s => I s.db ∧ s.db.projects = db.projects)
      (fun s p s' hp hs hstep => ?_) ⟨hdb, rfl⟩ hfold
    have hbrings := boardProject_brings hstep
    exact ⟨hjoin row htarget p hp s.db s'.db (hs.2 ▸ hrow) hs.1 hbrings, hbrings.keepsProjects.trans hs.2⟩
  refine hprojects tx.db _ ?_ htx.1
  apply map_updateWhere
  intro p
  rfl

theorem importMerge_inv {draws : ℕ → ProjectDraws} {db' : DB} {r : ImportResult}
    (hproject : ∀ p ∈ data.projects, ∀ db₁ db₂, I db₁ → ImportStep p db₁ db₂ → I db₂)
    (hdb : I db) (h : importMerge rt ctx draws db data = .ok (db', r)) : I db' := by
  simp only [importMerge, bind_eq_ok, pure_eq_ok, Prod.mk.injEq] at h
  obtain ⟨selected, _, _, _, ⟨tx, ids⟩, hfold, _, _, rfl, _⟩ := h
  refine foldlM_inv (P := fun s => I s.1.db) (fun s pi s' hpi hs hstep => ?_) hdb hfold
  refine hproject pi.1 (List.fst_mem_of_mem_zipIdx hpi) s.1.db s'.1.db hs ?_
  rcases mergeProject_brings hstep with ⟨row, hrow, _, hbrings⟩ | ⟨face, _, hbrings⟩
  · exact .rewritten row hrow hbrings
  · exact .founded face hbrings

/-- An import that goes into a board, whatever its mode. -/
def ImportRequest.IntoBoard (req : ImportRequest) : Prop :=
  req.targetSlug ≠ "" ∧ req.mode = .anonymous

instance (req : ImportRequest) : Decidable req.IntoBoard := inferInstanceAs (Decidable (_ ∧ _))

/-- The ways in which an import ends: nothing happened, or it went into a board, or it
passed the checks of a backup. -/
theorem importProjects_cases (rt : Runtime) (ctx : Ctx) (db : DB) (req : ImportRequest) :
    (importProjects rt ctx db req).1 = db ∨
      (req.IntoBoard ∧ ∃ r, importIntoBoard rt ctx db req.data req.targetSlug =
        .ok ((importProjects rt ctx db req).1, r)) ∨
      (¬ req.IntoBoard ∧ BackupChecked req.importMode req.data ∧
        validateImportPreflight rt ctx db req.data req.mode req.importMode = .ok () ∧
        ImportOutcome rt ctx db req (importProjects rt ctx db req).1) := by
  by_cases hboard : req.IntoBoard
  · unfold importProjects
    cases checkImport ctx req with
    | error e => exact .inl rfl
    | ok u =>
        simp only [if_pos (show req.targetSlug ≠ "" ∧ req.mode = .anonymous from hboard)]
        rcases transact_fst db (importIntoBoard rt ctx db req.data req.targetSlug) with heq | ⟨r, hr⟩
        · exact .inl heq
        · exact .inr (.inl ⟨hboard, r, hr⟩)
  · have heq : (importProjects rt ctx db req).1 = importBackup rt ctx db req := by
      unfold importBackup importProjects
      rw [if_neg (show ¬ (req.targetSlug ≠ "" ∧ req.mode = .anonymous) from hboard),
        if_neg (by simp)]
      rfl
    rw [heq]
    rcases importBackup_cases rt ctx db req with hsame | hout
    · exact .inl hsame
    · exact .inr (.inr ⟨hboard, hout⟩)

section

variable {req : ImportRequest}
  (hdelete : ∀ db₁ gone, I db₁ → I (deleteProjects db₁ gone))
  (hprojects : ∀ db₁ projects, projects.map (·.id) = db₁.projects.map (·.id) → I db₁ →
    I { db₁ with projects := projects })

include hdelete hprojects

/-- An invariant of the store that every step of an import keeps, and that survives the
deletion of projects and changes of their rows. -/
theorem importOutcome_inv {db' : DB}
    (hproject : ∀ p ∈ req.data.projects, ∀ db₁ db₂, I db₁ → ImportStep p db₁ db₂ → I db₂)
    (hdb : I db) (hout : ImportOutcome rt ctx db req db') : I db' := by
  cases hout with
  | replaced himport hout =>
      rw [← hout]
      refine importReplaceAll_inv (fun s p i s' hp hs hstep => ?_) hdelete ?_ hdb
      · obtain ⟨face, hbrings⟩ := stageProject_brings hstep
        exact hproject p hp s.db s'.db hs (.founded face hbrings)
      · intro db₁ db₂ hdb₁ hok
        rw [promoteStaging_eq_ok hok]
        refine hprojects db₁ _ ?_ hdb₁
        apply map_updateWhere
        intro p
        rfl
  | merged himport hmode r hout => exact importMerge_inv hproject hdb hout
  | copied himport r hout =>
      refine importCreateCopy_inv (fun s p i s' hp hs hstep => ?_) hdb hout
      obtain ⟨face, hbrings⟩ := copyProject_brings hstep
      exact hproject p hp s.db s'.db hs (.founded face hbrings)

/-- The same for every import. One that goes into a board joins it. -/
theorem importProjects_inv
    (hjoin : req.IntoBoard → ∀ p ∈ req.data.projects, ∀ row db₁ db₂, row ∈ db₁.projects → I db₁ →
      Brings p row.id (· = db₁) db₂ → I db₂)
    (hproject : ¬ req.IntoBoard → ∀ p ∈ req.data.projects, ∀ db₁ db₂, I db₁ →
      ImportStep p db₁ db₂ → I db₂)
    (hdb : I db) : I (importProjects rt ctx db req).1 := by
  rcases importProjects_cases rt ctx db req with heq | ⟨hboard, r, hok⟩ | ⟨hboard, _, _, hout⟩
  · rwa [heq]
  · refine importIntoBoard_inv (fun row _ p hp db₁ db₂ hrow => ?_) hprojects hdb hok
    exact hjoin hboard p hp row db₁ db₂ hrow
  · exact importOutcome_inv hdelete hprojects (hproject hboard) hdb hout

end

end

end Scrumboy
