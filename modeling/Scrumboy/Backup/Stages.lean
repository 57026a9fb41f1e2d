import Scrumboy.Backup.Identity

/-!
# The stages of an import

An import of a project has three stages: the project is found or made and its
settings are written, its todos are written, and then what surrounds the todos. The
first and the last stage leave the todos alone. For the first one it is said what it
does to the lanes and to the projects that the rest of the import can match with.
-/

set_option linter.dupNamespace false

namespace Scrumboy

open Go Sql

/-! ## Around the todos -/

/-- The tables that surround the todos; everything else is equal. -/
def ContentOnly (db db' : DB) : Prop :=
  db' = { db with
    tags := db'.tags
    todoTags := db'.todoTags
    projectTags := db'.projectTags
    userTagColors := db'.userTagColors
    links := db'.links
    customFields := db'.customFields
    customFieldSeq := db'.customFieldSeq
    customFieldValues := db'.customFieldValues
    walls := db'.walls
    placements := db'.placements }

/-- Links, custom fields and walls; everything else is equal. -/
def AroundOnly (db db' : DB) : Prop :=
  db' = { db with
    links := db'.links
    customFields := db'.customFields
    customFieldSeq := db'.customFieldSeq
    customFieldValues := db'.customFieldValues
    walls := db'.walls
    placements := db'.placements }

section

variable {db db' : DB}

theorem ContentOnly.trans {a b c : DB} (hab : ContentOnly a b) (hbc : ContentOnly b c) :
    ContentOnly a c := by
  unfold ContentOnly at *
  rw [hbc, hab]

theorem TagsOnly.contentOnly (h : TagsOnly db db') : ContentOnly db db' := by
  obtain ⟨_, _, _, _, rfl⟩ := h.exists_eq
  rfl

theorem AroundOnly.refl (db : DB) : AroundOnly db db := rfl

theorem AroundOnly.trans {a b c : DB} (hab : AroundOnly a b) (hbc : AroundOnly b c) :
    AroundOnly a c := by
  unfold AroundOnly at *
  rw [hbc, hab]

theorem AroundOnly.contentOnly (h : AroundOnly db db') : ContentOnly db db' := by
  unfold AroundOnly at h
  unfold ContentOnly
  rw [h]

theorem FieldValuesOnly.aroundOnly (h : FieldValuesOnly db db') : AroundOnly db db' := by
  obtain ⟨_, rfl⟩ := h.exists_eq
  rfl

namespace ContentOnly

theorem todos (h : ContentOnly db db') : db'.todos = db.todos := by rw [h]

theorem columns (h : ContentOnly db db') : db'.columns = db.columns := by rw [h]

theorem projects (h : ContentOnly db db') : db'.projects = db.projects := by rw [h]

theorem members (h : ContentOnly db db') : db'.members = db.members := by rw [h]

theorem priorities (h : ContentOnly db db') : db'.priorities = db.priorities := by rw [h]

theorem users (h : ContentOnly db db') : db'.users = db.users := by rw [h]

end ContentOnly

end

section

variable {rt : Runtime} {ctx : Ctx} {db db' : DB} {projectID : ℤ}

theorem importLink_aroundOnly (ctx : Ctx) (projectID : ℤ) (resolve : ℤ → Option ℤ) (db : DB)
    (l : LinkExport) : AroundOnly db (importLink ctx projectID resolve db l) := by
  unfold importLink
  split
  · exact .refl db
  · split
    · split
      · exact .refl db
      · unfold insertLink
        split <;> rfl
    · exact .refl db

theorem bulkInsertLinks_aroundOnly (ctx : Ctx) (db : DB) (projectID : ℤ) (links : List LinkExport)
    (imported : ImportedTodos) (keepUnimported : Bool) :
    AroundOnly db (bulkInsertLinks ctx db projectID links imported keepUnimported) := by
  unfold bulkInsertLinks
  generalize imported.linkEndpoint db projectID keepUnimported = resolve
  induction links generalizing db with
  | nil => exact .refl db
  | cons l links ih => exact (importLink_aroundOnly ctx projectID resolve db l).trans (ih _)

theorem createPlannedFields_aroundOnly (db : DB) (projectID : ℤ) (plan : FieldPlan) :
    AroundOnly db (createPlannedFields db projectID plan).1 := by
  unfold createPlannedFields
  generalize plan.byKey = byKey
  induction plan.toCreate generalizing db byKey with
  | nil => exact .refl db
  | cons f fields ih =>
      have hstep : AroundOnly db (insertCustomField db projectID f).1 := rfl
      exact hstep.trans (ih _ _)

theorem importFieldValues_fieldValuesOnly {p : ProjectExport} {byKey : List CustomField}
    {ti : TodoExport × ℤ} (h : importFieldValues rt p byKey db ti = .ok db') :
    FieldValuesOnly db db' := by
  obtain ⟨t, todoID⟩ := ti
  unfold importFieldValues at h
  dsimp only at h
  split at h
  · exact pure_eq_ok.mp h ▸ .refl db
  · simp only [bind_eq_ok, pure_eq_ok] at h
    obtain ⟨_, _, patch, _, rfl⟩ := h
    exact applyCustomFieldPatch_fieldValuesOnly db todoID _ patch

theorem importCustomFields_aroundOnly {p : ProjectExport} {todoIDs : List ℤ}
    (h : importCustomFields rt db projectID p todoIDs = .ok db') : AroundOnly db db' := by
  unfold importCustomFields at h
  split at h
  · simp only [bind_eq_ok] at h
    obtain ⟨plan, _, h⟩ := h
    refine foldlM_inv (P := AroundOnly db) (fun _ _ _ _ hs hstep => ?_)
      (createPlannedFields_aroundOnly db projectID plan) h
    exact hs.trans (importFieldValues_fieldValuesOnly hstep).aroundOnly
  · exact pure_eq_ok.mp h ▸ .refl db

theorem importStory_aroundOnly {resolveStory : ℤ → Option ℤ} {s s' : StoryScan}
    {story : WallStoryPlacementExport}
    (h : importStory projectID resolveStory s story = .ok s') : AroundOnly s.db s'.db := by
  unfold importStory at h
  split at h
  · exact pure_eq_ok.mp h ▸ .refl s.db
  · split at h
    · exact pure_eq_ok.mp h ▸ .refl s.db
    · split at h
      · exact pure_eq_ok.mp h ▸ .refl s.db
      · split at h
        · exact pure_eq_ok.mp h ▸ .refl s.db
        · simp only [bind_eq_ok, pure_eq_ok] at h
          obtain ⟨_, _, rfl⟩ := h
          rfl

theorem importStories_aroundOnly {payload : WallExport} {resolveStory : ℤ → Option ℤ}
    {warnings : List String} {s : StoryScan}
    (h : importStories db projectID payload resolveStory warnings = .ok s) : AroundOnly db s.db := by
  unfold importStories at h
  split at h
  · refine foldlM_inv (P := fun s => AroundOnly db s.db)
      (fun _ _ _ _ hs hstep => hs.trans (importStory_aroundOnly hstep)) ?_ h
    rfl
  · exact pure_eq_ok.mp h ▸ .refl db

theorem upsertWallForImport_aroundOnly {draws : ProjectDraws} {payload : Option WallExport}
    {resolveStory : ℤ → Option ℤ} {warnings : List String} {out : DB × List String}
    (h : upsertWallForImport ctx draws db projectID payload resolveStory warnings = .ok out) :
    AroundOnly db out.1 := by
  cases payload with
  | none => exact pure_eq_ok.mp h ▸ .refl db
  | some payload =>
      simp only [upsertWallForImport, bind_eq_ok, pure_eq_ok] at h
      obtain ⟨stories, hstories, db₁, hwall, rfl⟩ := h
      refine (importStories_aroundOnly hstories).trans ?_
      dsimp only
      rw [(upsertWall_spec (by intro v _; rfl) hwall).1]
      rfl

theorem importContent_aroundOnly {draws : ProjectDraws} {p : ProjectExport}
    {imported : ImportedTodos} {keepUnimported : Bool} {r : ImportResult} {tx : ImportTx}
    (h : importContent rt ctx draws db projectID p imported keepUnimported r = .ok tx) :
    AroundOnly db tx.db := by
  simp only [importContent, bind_eq_ok, pure_eq_ok] at h
  obtain ⟨db₁, hfields, ⟨db₂, warnings⟩, hwall, rfl⟩ := h
  exact ((bulkInsertLinks_aroundOnly ctx db projectID p.links imported keepUnimported).trans
    (importCustomFields_aroundOnly hfields)).trans (upsertWallForImport_aroundOnly hwall)

theorem bulkInsertLinks_contentOnly (ctx : Ctx) (db : DB) (projectID : ℤ) (links : List LinkExport)
    (imported : ImportedTodos) (keepUnimported : Bool) :
    ContentOnly db (bulkInsertLinks ctx db projectID links imported keepUnimported) :=
  (bulkInsertLinks_aroundOnly ctx db projectID links imported keepUnimported).contentOnly

theorem importCustomFields_contentOnly {p : ProjectExport} {todoIDs : List ℤ}
    (h : importCustomFields rt db projectID p todoIDs = .ok db') : ContentOnly db db' :=
  (importCustomFields_aroundOnly h).contentOnly

theorem importContent_contentOnly {draws : ProjectDraws} {p : ProjectExport}
    {imported : ImportedTodos} {keepUnimported : Bool} {r : ImportResult} {tx : ImportTx}
    (h : importContent rt ctx draws db projectID p imported keepUnimported r = .ok tx) :
    ContentOnly db tx.db :=
  (importContent_aroundOnly h).contentOnly

end

/-! ## The settings of a project -/

/-- The tables that hold the settings of projects; everything else is equal. -/
def SettingsOnly (db db' : DB) : Prop :=
  db' = { db with
    projects := db'.projects
    members := db'.members
    columns := db'.columns
    priorities := db'.priorities
    sprints := db'.sprints }

section

variable {db db' db₁ : DB}

theorem SettingsOnly.trans {a b c : DB} (hab : SettingsOnly a b) (hbc : SettingsOnly b c) :
    SettingsOnly a c := by
  unfold SettingsOnly at *
  rw [hbc, hab]

theorem SettingsOnly.todos (h : SettingsOnly db db') : db'.todos = db.todos := by rw [h]

theorem ColumnsOnly.settingsOnly (h : ColumnsOnly db db') : SettingsOnly db db' := by
  obtain ⟨_, rfl⟩ := h.exists_eq
  rfl

theorem PrioritiesOnly.settingsOnly (h : PrioritiesOnly db db') : SettingsOnly db db' := by
  obtain ⟨_, rfl⟩ := h.exists_eq
  rfl

end

/-- The keys of the columns of a backup. -/
def backupKeys (p : ProjectExport) : List String :=
  p.workflowColumns.map fun c => toLower (trimSpace c.key)

/-- The keys of the columns of a new project of an import. -/
def importKeys (p : ProjectExport) : List String :=
  if 2 ≤ p.workflowColumns.length then backupKeys p else defaultWorkflowColumns.map (·.key)

/-- The settings of the project `projectID` are written, among them a workflow that
has the keys `keys`. -/
structure SetsUp (projectID : ℤ) (keys : List String) (db db' : DB) : Prop where
  tables : SettingsOnly db db'
  columns : ColumnTable db.columns → ColumnTable db'.columns
  keys : ∀ k ∈ keys, k ∈ db'.columnKeys projectID
  other : ∀ q, q ≠ projectID → ∀ k, k ∈ db'.columnKeys q ↔ k ∈ db.columnKeys q

section

variable {rt : Runtime} {ctx : Ctx} {db db' : DB} {projectID : ℤ} {p : ProjectExport}

theorem columnKeys_deleteProjectWorkflowColumns {q : ℤ} (hq : q ≠ projectID) :
    (deleteProjectWorkflowColumns db projectID).columnKeys q = db.columnKeys q := by
  unfold DB.columnKeys DB.columnsOf deleteProjectWorkflowColumns deleteWhere
  rw [List.filter_filter]
  congr 1
  apply List.filter_congr
  intro c _
  by_cases hc : c.projectID = q
  · simp [hc, hq]
  · simp [hc]

/-- A key of the backup that is valid is stored as it is. -/
theorem mem_storedKeys (hvalid : ∀ c ∈ p.workflowColumns, IsColumnKey (trimSpace c.key)) {k : String}
    (hk : k ∈ backupKeys p) :
    k ∈ (workflowColumnsFromExport p.workflowColumns).map fun c => trimSpace (toLower c.key) := by
  obtain ⟨c, hc, rfl⟩ := List.mem_map.mp hk
  have hkey := hvalid c hc
  have hstored : trimSpace (toLower (toLower (trimSpace c.key))) = toLower (trimSpace c.key) := by
    rw [hkey.toLower_eq, hkey.toLower_eq, hkey.1]
  have hmem : c ∈ orderBy (·.position) p.workflowColumns := mem_orderBy.mpr hc
  rw [← List.zipIdx_map_fst 0 (orderBy (·.position) p.workflowColumns)] at hmem
  obtain ⟨ci, hci, rfl⟩ := List.mem_map.mp hmem
  unfold workflowColumnsFromExport
  rw [List.map_map]
  exact List.mem_map.mpr ⟨ci, hci, hstored⟩

theorem replaceWorkflow_columnsOnly (h : replaceWorkflow db projectID p = .ok db') :
    ColumnsOnly db db' :=
  ColumnsOnly.trans (b := deleteProjectWorkflowColumns db projectID) rfl
    (insertWorkflowColumns_columnsOnly h)

theorem importWorkflow_columnsOnly (h : importWorkflow db projectID p = .ok db') :
    ColumnsOnly db db' := by
  unfold importWorkflow at h
  split at h
  · exact replaceWorkflow_columnsOnly h
  · exact (ensureDefaultWorkflowColumns_spec h).1

theorem mergeWorkflow_columnsOnly (h : mergeWorkflow db projectID p = .ok db') :
    ColumnsOnly db db' := by
  unfold mergeWorkflow at h
  split at h
  · exact replaceWorkflow_columnsOnly h
  · exact pure_eq_ok.mp h ▸ .refl db

theorem replaceWorkflow_setsUp (hvalid : ∀ c ∈ p.workflowColumns, IsColumnKey (trimSpace c.key))
    (h : replaceWorkflow db projectID p = .ok db') :
    SetsUp projectID (backupKeys p) db db' := by
  have htables := replaceWorkflow_columnsOnly h
  have hkeys := insertWorkflowColumns_columnKeys h
  refine ⟨htables.settingsOnly, fun hcols => insertWorkflowColumns_columnTable h ?_, ?_, ?_⟩
  · refine ⟨hcols.ids.sublist (List.Sublist.map _ List.filter_sublist), fun c hc => ?_⟩
    exact hcols.keys c (mem_deleteWhere.mp hc).1
  · intro k hk
    rw [hkeys, if_pos rfl]
    exact List.mem_append_right _ (mem_storedKeys hvalid hk)
  · intro q hq k
    rw [hkeys, if_neg (Ne.symm hq), List.append_nil, columnKeys_deleteProjectWorkflowColumns hq]

theorem importWorkflow_setsUp (hvalid : ∀ c ∈ p.workflowColumns, IsColumnKey (trimSpace c.key))
    (h : importWorkflow db projectID p = .ok db') :
    SetsUp projectID (importKeys p) db db' := by
  unfold importWorkflow at h
  unfold importKeys
  split at h
  · rename_i hlen
    rw [if_pos hlen]
    exact replaceWorkflow_setsUp hvalid h
  · rename_i hlen
    rw [if_neg hlen]
    obtain ⟨htables, hcols, hkeys⟩ := ensureDefaultWorkflowColumns_spec h
    refine ⟨htables.settingsOnly, hcols, fun k hk => (hkeys _ _).mpr (.inr ⟨rfl, hk⟩), ?_⟩
    intro q hq k
    rw [hkeys]
    exact or_iff_left fun hk => hq hk.1.symm

/-- Settings of a project besides its workflow. -/
theorem SetsUp.of_columns_eq (htables : SettingsOnly db db') (hcols : db'.columns = db.columns) :
    SetsUp projectID [] db db' where
  tables := htables
  columns h := hcols ▸ h
  keys := by simp
  other q _ k := by simp only [DB.columnKeys, DB.columnsOf, hcols]

theorem SetsUp.trans {db₁ : DB} {keys keys' : List String} (h : SetsUp projectID keys db db₁)
    (h' : SetsUp projectID keys' db₁ db') : SetsUp projectID keys' db db' where
  tables := h.tables.trans h'.tables
  columns hc := h'.columns (h.columns hc)
  keys := h'.keys
  other q hq k := (h'.other q hq k).trans (h.other q hq k)

/-- Later settings that leave the workflow alone. -/
theorem SetsUp.trans_of_columns_eq {db₁ : DB} {keys : List String} (h : SetsUp projectID keys db db₁)
    (htables : SettingsOnly db₁ db') (hcols : db'.columns = db₁.columns) :
    SetsUp projectID keys db db' where
  tables := h.tables.trans htables
  columns hc := hcols ▸ h.columns hc
  keys k hk := by
    have := h.keys k hk
    simpa only [DB.columnKeys, DB.columnsOf, hcols] using this
  other q hq k := by
    rw [← h.other q hq k]
    simp only [DB.columnKeys, DB.columnsOf, hcols]

theorem replaceProjectPriorityTiersFromExport_prioritiesOnly
    (h : replaceProjectPriorityTiersFromExport db projectID p = .ok db') : PrioritiesOnly db db' :=
  PrioritiesOnly.trans (b := deleteProjectPriorities db projectID) rfl
    (insertPriorityTiers_prioritiesOnly h)

/-! ## The projects of a database -/

/-- No project appears or goes, and none changes its face or its members. -/
structure KeepsProjects (db db' : DB) : Prop where
  faces : db'.faces = db.faces
  members : db'.members = db.members

/-- One project more. -/
structure AddsProject (face : ProjectFace) (db db' : DB) : Prop where
  id_eq : face.id = nextRowid (db.projects.map (·.id))
  faces : db'.faces = db.faces ++ [face]
  members : ∀ m : MemberRow, m.projectID ≠ face.id → (m ∈ db'.members ↔ m ∈ db.members)

theorem KeepsProjects.trans {db₁ : DB} (h : KeepsProjects db db₁) (h' : KeepsProjects db₁ db') :
    KeepsProjects db db' := ⟨h'.faces.trans h.faces, h'.members.trans h.members⟩

theorem applyAgendaFlags_spec (h : applyAgendaFlags rt db projectID p = .ok db') :
    (∃ projects, db' = { db with projects := projects }) ∧ KeepsProjects db db' := by
  simp only [applyAgendaFlags, bind_eq_ok, pure_eq_ok] at h
  obtain ⟨_, _, _, _, _, _, rfl⟩ := h
  refine ⟨⟨_, rfl⟩, ?_, rfl⟩
  apply map_updateWhere
  intro row
  rfl

theorem insertOwner_members (db : DB) (projectID nowMs : ℤ) (owner : Option ℤ) (m : MemberRow)
    (hm : m.projectID ≠ projectID) :
    m ∈ (insertOwner db projectID nowMs owner).members ↔ m ∈ db.members := by
  cases owner with
  | none => rfl
  | some userID =>
      unfold insertOwner insertMaintainer
      dsimp only
      split
      · rfl
      · rw [List.mem_append, List.mem_singleton]
        refine or_iff_left fun heq => hm ?_
        rw [heq]

theorem insertOwner_settingsOnly (db : DB) (projectID nowMs : ℤ) (owner : Option ℤ) :
    ∃ members, insertOwner db projectID nowMs owner = { db with members := members } ∧
      ∀ m : MemberRow, m.projectID ≠ projectID → (m ∈ members ↔ m ∈ db.members) := by
  obtain ⟨members, hmembers⟩ := insertOwner_eq db projectID nowMs owner
  refine ⟨members, hmembers, fun m hm => ?_⟩
  rw [← insertOwner_members db projectID nowMs owner m hm, hmembers]

/-- A new project of an import with its settings: its row and its members, then its
workflow, its priorities and its sprints. -/
inductive Founds (p : ProjectExport) (face : ProjectFace) (db db' : DB) : Prop
  | intro (projects : List ProjectRow) (members : List MemberRow) (db₁ db₂ : DB)
      (sprints : List SprintRow) (hid : face.id = nextRowid (db.projects.map (·.id)))
      (hfaces : projects.map ProjectRow.face = db.faces ++ [face])
      (hmembers : ∀ m : MemberRow, m.projectID ≠ face.id → (m ∈ members ↔ m ∈ db.members))
      (hworkflow : importWorkflow { db with projects := projects, members := members } face.id p =
        .ok db₁)
      (hpriorities : replaceProjectPriorityTiersFromExport db₁ face.id p = .ok db₂)
      (hdb : db' = { db₂ with sprints := sprints })

/-- The settings of a project that is there, as a merge writes them. -/
inductive Rewrites (p : ProjectExport) (projectID : ℤ) (db db' : DB) : Prop
  | intro (projects : List ProjectRow) (db₁ db₂ : DB) (sprints : List SprintRow)
      (hfaces : projects.map ProjectRow.face = db.faces)
      (hkept : validatePriorityReplacement db projectID p = .ok ())
      (hworkflow : mergeWorkflow { db with projects := projects } projectID p = .ok db₁)
      (hpriorities : mergePriorities db₁ projectID p = .ok db₂)
      (hdb : db' = { db₂ with sprints := sprints })

/-- A row of the table of projects, with its members. -/
theorem appendProject_spec (db : DB) (row : ProjectRow) (projects : List ProjectRow)
    (nowMs : ℤ) (owner : Option ℤ)
    (hfaces : projects.map ProjectRow.face = (appendProject db row).1.faces) :
    ∃ members, insertOwner { (appendProject db row).1 with projects := projects }
        (appendProject db row).2 nowMs owner = { db with projects := projects, members := members } ∧
      projects.map ProjectRow.face =
        db.faces ++ [({ row.face with id := nextRowid (db.projects.map (·.id)) } : ProjectFace)] ∧
      ∀ m : MemberRow, m.projectID ≠ nextRowid (db.projects.map (·.id)) →
        (m ∈ members ↔ m ∈ db.members) := by
  obtain ⟨members, hmembers, hother⟩ := insertOwner_settingsOnly
    { (appendProject db row).1 with projects := projects } (appendProject db row).2 nowMs owner
  refine ⟨members, hmembers, hfaces.trans ?_, hother⟩
  simp [DB.faces, appendProject, ProjectRow.face]

/-- A new project of an import, and then its sprints. -/
theorem createImportProject_founds {mode : Mode} {slug : String} {out : DB × ℤ}
    {sprints : List SprintRow} (h : createImportProject rt ctx db mode p slug = .ok out) :
    ∃ face, face.id = out.2 ∧ face.slug = slug ∧ face.importBatchID = none ∧
      Founds p face db { out.1 with sprints := sprints } := by
  simp only [createImportProject, bind_eq_ok, pure_eq_ok] at h
  obtain ⟨owner, _, db₁, hagenda, db₂, hworkflow, db₃, htiers, rfl⟩ := h
  obtain ⟨⟨projects, rfl⟩, hkeep⟩ := applyAgendaFlags_spec hagenda
  obtain ⟨members, heq, hfaces, hmembers⟩ := appendProject_spec db
    (importProjectRow ctx p slug owner (importExpiresAt ctx mode p) none) projects ctx.nowMs owner
    hkeep.faces
  rw [heq] at hworkflow
  exact ⟨_, rfl, rfl, rfl, projects, members, db₂, db₃, sprints, rfl, hfaces, hmembers, hworkflow,
    htiers, rfl⟩

theorem insertProjectWithBatchID_spec {mode : Mode} {batchID : String} {draws : ProjectDraws}
    {out : DB × ℤ} (h : insertProjectWithBatchID ctx db mode batchID p draws = .ok out) :
    ∃ row owner, (appendProject db row).2 = out.2 ∧ (row.importBatchID = some batchID ∧
        stagingSlug db mode batchID p draws = .ok row.slug) ∧
      out.1 = insertOwner (appendProject db row).1 (appendProject db row).2 ctx.nowMs owner := by
  simp only [insertProjectWithBatchID, bind_eq_ok, pure_eq_ok] at h
  obtain ⟨_, _, slug, hslug, owner, _, rfl⟩ := h
  refine ⟨importProjectRow ctx p slug owner p.expiresAt (some batchID),
    if p.expiresAt.isSome then none else owner, rfl, ⟨rfl, hslug⟩, ?_⟩
  unfold insertStagedOwner
  dsimp only
  split
  · rfl
  · rfl

/-- Settings besides members, before the members or after them. -/
theorem insertOwner_projects (db : DB) (projects : List ProjectRow) (projectID nowMs : ℤ)
    (owner : Option ℤ) :
    { insertOwner db projectID nowMs owner with projects := projects } =
      insertOwner { db with projects := projects } projectID nowMs owner := by
  cases owner with
  | none => rfl
  | some userID =>
      unfold insertOwner insertMaintainer
      dsimp only
      split
      · rfl
      · rfl

theorem mergeExistingProject_rewrites {sprints : List SprintRow}
    (h : mergeExistingProject rt ctx db projectID p = .ok db') :
    Rewrites p projectID db { db' with sprints := sprints } := by
  simp only [mergeExistingProject, bind_eq_ok] at h
  obtain ⟨_, hkept, db₁, hagenda, db₂, hworkflow, htiers⟩ := h
  obtain ⟨⟨projects, rfl⟩, hkeep⟩ := applyAgendaFlags_spec hagenda
  refine .intro projects db₂ db' sprints (hkeep.faces.trans ?_) hkept hworkflow htiers rfl
  apply map_updateWhere
  intro row
  rfl

theorem Founds.projectIDs {face : ProjectFace} (h : Founds p face db db') :
    face.id ∉ db.projects.map (·.id) ∧
      db'.projects.map (·.id) = db.projects.map (·.id) ++ [face.id] := by
  obtain ⟨projects, members, db₁, db₂, sprints, hid, hfaces, _, hworkflow, htiers, rfl⟩ := h
  obtain ⟨_, rfl⟩ := (importWorkflow_columnsOnly hworkflow).exists_eq
  obtain ⟨_, rfl⟩ := (replaceProjectPriorityTiersFromExport_prioritiesOnly htiers).exists_eq
  refine ⟨hid ▸ nextRowid_not_mem _, ?_⟩
  have hmap := congrArg (List.map ProjectFace.id) hfaces
  rw [List.map_map, List.map_append, ← DB.projectIDs_eq] at hmap
  exact hmap

/-- A new project with its settings has the lanes of the import. -/
theorem Founds.setsUp {face : ProjectFace}
    (hvalid : ∀ c ∈ p.workflowColumns, IsColumnKey (trimSpace c.key)) (h : Founds p face db db') :
    SetsUp face.id (importKeys p) db db' ∧ AddsProject face db db' := by
  obtain ⟨projects, members, db₁, db₂, sprints, hid, hfaces, hmembers, hworkflow, htiers, rfl⟩ := h
  have hsets := importWorkflow_setsUp hvalid hworkflow
  have hcols := importWorkflow_columnsOnly hworkflow
  have hprio := replaceProjectPriorityTiersFromExport_prioritiesOnly htiers
  obtain ⟨_, rfl⟩ := hcols.exists_eq
  obtain ⟨_, rfl⟩ := hprio.exists_eq
  have hsets₀ : SetsUp face.id [] db { db with projects := projects, members := members } :=
    .of_columns_eq rfl rfl
  exact ⟨(hsets₀.trans hsets).trans_of_columns_eq rfl rfl, hid, hfaces, hmembers⟩

theorem mergeWorkflow_setsUp (hvalid : ∀ c ∈ p.workflowColumns, IsColumnKey (trimSpace c.key))
    (h : mergeWorkflow db projectID p = .ok db') :
    SetsUp projectID (if 2 ≤ p.workflowColumns.length then backupKeys p else db.columnKeys projectID)
      db db' := by
  unfold mergeWorkflow at h
  split at h
  · rename_i hlen
    rw [if_pos hlen]
    exact replaceWorkflow_setsUp hvalid h
  · rename_i hlen
    rw [if_neg hlen]
    obtain rfl := pure_eq_ok.mp h
    exact ⟨rfl, id, fun _ hk => hk, fun _ _ _ => Iff.rfl⟩

theorem mergePriorities_prioritiesOnly (h : mergePriorities db projectID p = .ok db') :
    PrioritiesOnly db db' := by
  unfold mergePriorities at h
  split at h
  · exact replaceProjectPriorityTiersFromExport_prioritiesOnly h
  · exact pure_eq_ok.mp h ▸ .refl db

theorem Rewrites.projectIDs (h : Rewrites p projectID db db') :
    db'.projects.map (·.id) = db.projects.map (·.id) := by
  obtain ⟨projects, db₁, db₂, sprints, hfaces, _, hworkflow, htiers, rfl⟩ := h
  obtain ⟨_, rfl⟩ := (mergeWorkflow_columnsOnly hworkflow).exists_eq
  obtain ⟨_, rfl⟩ := (mergePriorities_prioritiesOnly htiers).exists_eq
  have hmap := congrArg (List.map ProjectFace.id) hfaces
  rw [List.map_map, ← DB.projectIDs_eq] at hmap
  exact hmap

/-- The project that a merge found has the lanes of the backup, or its own. -/
theorem Rewrites.setsUp (hvalid : ∀ c ∈ p.workflowColumns, IsColumnKey (trimSpace c.key))
    (h : Rewrites p projectID db db') :
    SetsUp projectID (if 2 ≤ p.workflowColumns.length then backupKeys p else db.columnKeys projectID)
      db db' ∧ KeepsProjects db db' := by
  obtain ⟨projects, db₁, db₂, sprints, hfaces, _, hworkflow, htiers, rfl⟩ := h
  have hsets := mergeWorkflow_setsUp hvalid hworkflow
  have hcols := mergeWorkflow_columnsOnly hworkflow
  have hprio := mergePriorities_prioritiesOnly htiers
  obtain ⟨_, rfl⟩ := hcols.exists_eq
  obtain ⟨_, rfl⟩ := hprio.exists_eq
  have hsets₀ : SetsUp projectID [] db { db with projects := projects } := .of_columns_eq rfl rfl
  exact ⟨(hsets₀.trans hsets).trans_of_columns_eq rfl rfl, hfaces, rfl⟩

theorem upsertSprint_sprintsOnly {se : SprintExport} (h : upsertSprint ctx projectID db se = .ok db') :
    ∃ sprints, db' = { db with sprints := sprints } := by
  unfold upsertSprint at h
  split at h
  · cases h
  · simp only [bind_eq_ok] at h
    obtain ⟨_, _, h⟩ := h
    split at h
    · exact ⟨_, (pure_eq_ok.mp h).symm⟩
    · exact ⟨_, (pure_eq_ok.mp h).symm⟩

theorem insertSprintsForImport_sprintsOnly {sprints : List SprintExport}
    (h : insertSprintsForImport ctx db projectID sprints = .ok db') :
    ∃ sprints, db' = { db with sprints := sprints } := by
  refine foldlM_inv (P := fun db' => ∃ sprints, db' = { db with sprints := sprints })
    (fun _ _ _ _ hs hstep => ?_) ⟨_, rfl⟩ h
  obtain ⟨_, rfl⟩ := hs
  obtain ⟨_, rfl⟩ := upsertSprint_sprintsOnly hstep
  exact ⟨_, rfl⟩

end

/-! ## The stages of each mode -/

/-- The project that a merge writes to: one that was found, with the workflow of the
backup or its own, or a new one. -/
inductive MergeTarget (rt : Runtime) (ctx : Ctx) (draws : ProjectDraws) (selected : Selector)
    (p : ProjectExport) (db db' : DB) (projectID : ℤ) : Prop
  | found (row : ProjectRow) (hfind : findProject db selected p.slug = some row)
      (hid : projectID = row.id)
      (hsets : SetsUp projectID
        (if 2 ≤ p.workflowColumns.length then backupKeys p else db.columnKeys projectID) db db')
      (hkeep : KeepsProjects db db')
  | new (face : ProjectFace) (hfind : findProject db selected p.slug = none)
      (hid : projectID = face.id)
      (hslug : firstFreeSlug db .full (mergeSlugCandidates p draws) = .ok face.slug)
      (hbatch : face.importBatchID = none)
      (hsets : SetsUp projectID (importKeys p) db db') (hadds : AddsProject face db db')

section

variable {rt : Runtime} {ctx : Ctx} {p : ProjectExport}

/-- The settings that a merge writes: those of the project it found, or of a new one. -/
theorem mergeTarget_writes {draws : ProjectDraws} {selected : Selector} {s tx : ImportTx}
    {projectID : ℤ} {sprints : List SprintRow}
    (h : mergeTarget rt ctx draws selected s p = .ok (tx, projectID)) :
    (∃ row, findProject s.db selected p.slug = some row ∧ projectID = row.id ∧
      Rewrites p projectID s.db { tx.db with sprints := sprints }) ∨
    ∃ face, findProject s.db selected p.slug = none ∧ projectID = face.id ∧
      firstFreeSlug s.db .full (mergeSlugCandidates p draws) = .ok face.slug ∧
      face.importBatchID = none ∧ Founds p face s.db { tx.db with sprints := sprints } := by
  unfold mergeTarget at h
  split at h
  · rename_i row hfind
    simp only [bind_eq_ok, pure_eq_ok, Prod.mk.injEq] at h
    obtain ⟨db, hmerge, rfl, rfl⟩ := h
    exact .inl ⟨row, hfind, rfl, mergeExistingProject_rewrites hmerge⟩
  · rename_i hfind
    simp only [mergeNewProject, bind_eq_ok, pure_eq_ok, Prod.mk.injEq] at h
    obtain ⟨slug, hslug, ⟨db, id⟩, hcreate, rfl, rfl⟩ := h
    obtain ⟨face, hid, rfl, hbatch, hfounds⟩ := createImportProject_founds hcreate
    exact .inr ⟨face, hfind, hid.symm, hslug, hbatch, hfounds⟩

/-- One project of a merge: its settings, its todos, and what surrounds them. -/
theorem mergeProject_writes {draws : ℕ → ProjectDraws} {selected : Selector} {i : ℕ}
    {s s' : ImportTx × List ℤ} (h : mergeProject rt ctx draws selected s (p, i) = .ok s') :
    ∃ db₁ projectID sprintID r scan,
      ((∃ row, findProject s.1.db selected p.slug = some row ∧ projectID = row.id ∧
        Rewrites p projectID s.1.db db₁) ∨
      ∃ face, findProject s.1.db selected p.slug = none ∧ projectID = face.id ∧
        firstFreeSlug s.1.db .full (mergeSlugCandidates p (draws i)) = .ok face.slug ∧
        face.importBatchID = none ∧ Founds p face s.1.db db₁) ∧
      mergeTodos rt ctx db₁ projectID sprintID p.todos r = .ok scan ∧
      ContentOnly scan.db s'.1.db ∧ s'.2 = s.2 ++ [projectID] := by
  simp only [mergeProject, bind_eq_ok, pure_eq_ok] at h
  obtain ⟨_, _, _, _, ⟨tx, projectID⟩, htarget, db₁, hsprints, scan, htodos, db₂, htags, tx', hcontent,
    rfl⟩ := h
  obtain ⟨sprints, rfl⟩ := insertSprintsForImport_sprintsOnly hsprints
  refine ⟨_, projectID, _, _, scan, mergeTarget_writes htarget, htodos, ?_, rfl⟩
  have hlinks : ContentOnly db₂ (clearLinks db₂ projectID) := rfl
  exact ((importTags_tagsOnly htags).contentOnly.trans hlinks).trans
    (importContent_contentOnly hcontent)

/-- One project of a copy. -/
theorem copyProject_writes {draws : ℕ → ProjectDraws} {mode : Mode} {i : ℕ} {s s' : ImportTx}
    (h : copyProject rt ctx draws mode s (p, i) = .ok s') :
    ∃ face db₁ sprintID r scan, (face.importBatchID = none ∧
        firstFreeSlug s.db mode (copySlugCandidates p (draws i)) = .ok face.slug) ∧
      Founds p face s.db db₁ ∧ copyTodos rt ctx db₁ face.id sprintID p.todos r = .ok scan ∧ ContentOnly scan.db s'.db := by
  simp only [copyProject, bind_eq_ok, pure_eq_ok] at h
  obtain ⟨_, _, _, _, slug, hslug, ⟨db₀, projectID⟩, hcreate, db₁, hsprints, scan, htodos, db₂, htags,
    tx, hcontent, rfl⟩ := h
  obtain ⟨sprints, rfl⟩ := insertSprintsForImport_sprintsOnly hsprints
  obtain ⟨face, rfl, rfl, hbatch, hfounds⟩ := createImportProject_founds hcreate
  refine ⟨face, _, _, _, scan, ⟨hbatch, hslug⟩, hfounds, htodos, ?_⟩
  have hcontent := importContent_contentOnly hcontent
  exact (importTags_tagsOnly htags).contentOnly.trans hcontent

/-- The settings of a staged project, and then its sprints. -/
theorem stageProject_founds {mode : Mode} {batchID : String} {draws : ProjectDraws}
    {db db₁ db₂ db₃ : DB} {out : DB × ℤ} {sprints : List SprintRow}
    (hinsert : insertProjectWithBatchID ctx db mode batchID p draws = .ok out)
    (hagenda : applyAgendaFlags rt out.1 out.2 p = .ok db₁)
    (hworkflow : importWorkflow db₁ out.2 p = .ok db₂)
    (htiers : replaceProjectPriorityTiersFromExport db₂ out.2 p = .ok db₃) :
    ∃ face : ProjectFace, face.id = out.2 ∧ (face.importBatchID = some batchID ∧
      stagingSlug db mode batchID p draws = .ok face.slug) ∧
      Founds p face db { db₃ with sprints := sprints } := by
  obtain ⟨db₀, projectID⟩ := out
  obtain ⟨row, owner, rfl, hbatch, rfl⟩ := insertProjectWithBatchID_spec hinsert
  obtain ⟨⟨projects, rfl⟩, hkeep⟩ := applyAgendaFlags_spec hagenda
  have hfaces : projects.map ProjectRow.face = (appendProject db row).1.faces := by
    obtain ⟨_, heq⟩ := insertOwner_eq (appendProject db row).1 (appendProject db row).2
      ctx.nowMs owner
    simpa only [DB.faces, heq] using hkeep.faces
  obtain ⟨members, heq, hfaces', hmembers⟩ := appendProject_spec db row projects ctx.nowMs owner
    hfaces
  dsimp only at hworkflow
  rw [insertOwner_projects, heq] at hworkflow
  exact ⟨_, rfl, hbatch, .intro projects members db₂ db₃ sprints rfl hfaces' hmembers hworkflow htiers
    rfl⟩

/-- One project of a replace. -/
theorem stageProject_writes {draws : ℕ → ProjectDraws} {mode : Mode} {batchID : String} {i : ℕ}
    {s s' : ImportTx} (h : stageProject rt ctx draws mode batchID s (p, i) = .ok s') :
    ∃ face db₁ sprintID r scan, (face.importBatchID = some batchID ∧
        stagingSlug s.db mode batchID p (draws i) = .ok face.slug) ∧
      Founds p face s.db db₁ ∧ bulkInsertTodos db₁ face.id p.todos sprintID r = .ok scan ∧ ContentOnly scan.db s'.db := by
  simp only [stageProject, bind_eq_ok, pure_eq_ok] at h
  obtain ⟨⟨db₀, projectID⟩, hinsert, db₁, hagenda, db₂, hworkflow, db₃, htiers, db₄, hsprints, scan,
    htodos, ⟨db₅, tagIDs⟩, htags, db₆, hlink, tx, hcontent, rfl⟩ := h
  obtain ⟨sprints, rfl⟩ := insertSprintsForImport_sprintsOnly hsprints
  obtain ⟨face, rfl, hslug, hfounds⟩ := stageProject_founds hinsert hagenda hworkflow htiers
  refine ⟨face, _, _, _, scan, hslug, hfounds, htodos, ?_⟩
  have hcontent := importContent_contentOnly hcontent
  exact ((bulkUpsertTags_tagsOnly htags).contentOnly.trans
    (bulkLinkTodoTags_tagsOnly hlink).contentOnly).trans hcontent

/-! ## The lanes after the first stage -/

variable (hvalid : ∀ c ∈ p.workflowColumns, IsColumnKey (trimSpace c.key))

include hvalid

theorem mergeProject_stages {draws : ℕ → ProjectDraws} {selected : Selector} {i : ℕ}
    {s s' : ImportTx × List ℤ} (h : mergeProject rt ctx draws selected s (p, i) = .ok s') :
    ∃ db₁ projectID sprintID r scan,
      MergeTarget rt ctx (draws i) selected p s.1.db db₁ projectID ∧
      mergeTodos rt ctx db₁ projectID sprintID p.todos r = .ok scan ∧
      ContentOnly scan.db s'.1.db ∧ s'.2 = s.2 ++ [projectID] := by
  obtain ⟨db₁, projectID, sprintID, r, scan, htarget, hrest⟩ := mergeProject_writes h
  refine ⟨db₁, projectID, sprintID, r, scan, ?_, hrest⟩
  rcases htarget with ⟨row, hfind, hid, hrewrites⟩ | ⟨face, hfind, hid, hslug, hbatch, hfounds⟩
  · obtain ⟨hsets, hkeep⟩ := hrewrites.setsUp hvalid
    exact .found row hfind hid hsets hkeep
  · obtain ⟨hsets, hadds⟩ := hfounds.setsUp hvalid
    exact .new face hfind hid hslug hbatch (hid ▸ hsets) hadds

theorem copyProject_stages {draws : ℕ → ProjectDraws} {mode : Mode} {i : ℕ} {s s' : ImportTx}
    (h : copyProject rt ctx draws mode s (p, i) = .ok s') :
    ∃ face db₁ sprintID r scan, SetsUp face.id (importKeys p) s.db db₁ ∧
      face.importBatchID = none ∧ AddsProject face s.db db₁ ∧
      copyTodos rt ctx db₁ face.id sprintID p.todos r = .ok scan ∧ ContentOnly scan.db s'.db := by
  obtain ⟨face, db₁, sprintID, r, scan, ⟨hbatch, _⟩, hfounds, hrest⟩ := copyProject_writes h
  obtain ⟨hsets, hadds⟩ := hfounds.setsUp hvalid
  exact ⟨face, db₁, sprintID, r, scan, hsets, hbatch, hadds, hrest⟩

theorem stageProject_stages {draws : ℕ → ProjectDraws} {mode : Mode} {batchID : String} {i : ℕ}
    {s s' : ImportTx} (h : stageProject rt ctx draws mode batchID s (p, i) = .ok s') :
    ∃ face db₁ sprintID r scan, SetsUp face.id (importKeys p) s.db db₁ ∧
      face.importBatchID = some batchID ∧ AddsProject face s.db db₁ ∧
      bulkInsertTodos db₁ face.id p.todos sprintID r = .ok scan ∧ ContentOnly scan.db s'.db := by
  obtain ⟨face, db₁, sprintID, r, scan, ⟨hbatch, _⟩, hfounds, hrest⟩ := stageProject_writes h
  obtain ⟨hsets, hadds⟩ := hfounds.setsUp hvalid
  exact ⟨face, db₁, sprintID, r, scan, hsets, hbatch, hadds, hrest⟩

end

end Scrumboy
