import Scrumboy.Backup.MergeSteps
import Scrumboy.Backup.WallImports
import Scrumboy.Store.WallVersions

/-!
# The wall of a project in a merge

A merge writes the wall of a project when the backup has one for it, with the version of the
backup. Every other wall reads as before: todos keep their keys, and new ones get ids that no
placement has.
-/

set_option linter.dupNamespace false

namespace Scrumboy

open Go Sql

/-- The version under which the wall of a backup is stored. -/
def WallExport.storedVersion (payload : WallExport) : ℤ := if payload.version ≤ 0 then 1 else payload.version

/-- The tables of walls and placements are equal, and todos were only added. -/
structure WallsAlone (db db' : DB) : Prop where
  walls : db'.walls = db.walls
  placements : db'.placements = db.placements
  keys : KeysGrow db db'
  todoIDs : (db.todos.map (·.id)).Nodup → (db'.todos.map (·.id)).Nodup

section

variable {rt : Runtime} {ctx : Ctx} {db db₁ db' : DB} {projectID q : ℤ}

theorem WallsAlone.of_todos (hwalls : db'.walls = db.walls) (hplacements : db'.placements = db.placements)
    (htodos : db'.todos = db.todos) : WallsAlone db db' :=
  ⟨hwalls, hplacements, .of_eq (by simp only [DB.todoKeys, htodos]), fun h => htodos ▸ h⟩

theorem WallsAlone.refl (db : DB) : WallsAlone db db := .of_todos rfl rfl rfl

theorem WallsAlone.trans (h : WallsAlone db db₁) (h' : WallsAlone db₁ db') : WallsAlone db db' :=
  ⟨h'.walls.trans h.walls, h'.placements.trans h.placements, h.keys.trans h'.keys,
    fun hids => h'.todoIDs (h.todoIDs hids)⟩

theorem TagsOnly.wallsAlone (h : TagsOnly db db') : WallsAlone db db' := by
  obtain ⟨_, _, _, _, rfl⟩ := h.exists_eq
  exact .of_todos rfl rfl rfl

theorem Lands.wallsAlone {s s' : TodoScan} {t : TodoExport} (h : Lands projectID s s' t) :
    WallsAlone s.db s'.db := by
  rcases h.lands with ⟨u, hon⟩ | ⟨u, hnew⟩
  · have hids : s'.db.todos.map (·.id) = s.db.todos.map (·.id) := by
      have := congrArg (List.map TodoKey.id) hon.todoKeys
      rwa [DB.todoKeys, DB.todoKeys, List.map_map, List.map_map] at this
    obtain ⟨sprintID, htags⟩ := hon.tables
    exact ⟨htags.wallsAlone.walls, htags.wallsAlone.placements, hon.keysGrow, fun h => hids ▸ h⟩
  · refine ⟨hnew.tables.wallsAlone.walls, hnew.tables.wallsAlone.placements, hnew.keysGrow, fun h => ?_⟩
    rw [hnew.todos, List.map_append, List.map_singleton, hnew.id_eq]
    exact nodup_concat_nextRowid h

theorem mergeTodos_wallsAlone {sprintID : ℤ → Option ℤ} {todos : List TodoExport} {r : ImportResult}
    {scan : TodoScan} (h : mergeTodos rt ctx db projectID sprintID todos r = .ok scan) :
    WallsAlone db scan.db :=
  foldlM_inv (P := fun s => WallsAlone db s.db)
    (fun _ _ _ _ hs hstep => hs.trans (mergeTodo_lands hstep).wallsAlone) (.refl db) h

theorem bulkInsertLinks_wallsAlone (ctx : Ctx) (db : DB) (projectID : ℤ) (links : List LinkExport)
    (imported : ImportedTodos) (keepUnimported : Bool) :
    WallsAlone db (bulkInsertLinks ctx db projectID links imported keepUnimported) := by
  unfold bulkInsertLinks
  generalize imported.linkEndpoint db projectID keepUnimported = resolve
  have hlink : ∀ (db : DB) (l : LinkExport), WallsAlone db (importLink ctx projectID resolve db l) := by
    intro db l
    unfold importLink
    split
    · exact .refl db
    · split
      · split
        · exact .refl db
        · unfold insertLink
          split <;> exact .of_todos rfl rfl rfl
      · exact .refl db
  induction links generalizing db with
  | nil => exact .refl db
  | cons l links ih => exact (hlink db l).trans (ih _)

theorem createPlannedFields_wallsAlone (db : DB) (projectID : ℤ) (plan : FieldPlan) :
    WallsAlone db (createPlannedFields db projectID plan).1 := by
  unfold createPlannedFields
  generalize plan.byKey = byKey
  induction plan.toCreate generalizing db byKey with
  | nil => exact .refl db
  | cons f fields ih =>
      have hstep : WallsAlone db (insertCustomField db projectID f).1 := .of_todos rfl rfl rfl
      exact hstep.trans (ih _ _)

theorem importCustomFields_wallsAlone {p : ProjectExport} {todoIDs : List ℤ}
    (h : importCustomFields rt db projectID p todoIDs = .ok db') : WallsAlone db db' := by
  unfold importCustomFields at h
  split at h
  · simp only [bind_eq_ok] at h
    obtain ⟨plan, _, h⟩ := h
    refine foldlM_inv (P := WallsAlone db) (fun _ _ _ _ hs hstep => ?_)
      (createPlannedFields_wallsAlone db projectID plan) h
    obtain ⟨_, rfl⟩ := (importFieldValues_fieldValuesOnly hstep).exists_eq
    exact hs.trans (.of_todos rfl rfl rfl)
  · exact pure_eq_ok.mp h ▸ .refl db

/-! ## Reading a wall after a stage -/

/-- The local ids under which the todo of a placement is found. -/
theorem localIDs_of_keys (db : DB) (todoID projectID : ℤ) :
    (db.todos.filter fun t => t.id == todoID && t.projectID == projectID).map (·.localID) =
      (db.todoKeys.filter fun k => k.id == todoID && k.projectID == projectID).map (·.localID) := by
  rw [DB.todoKeys, List.filter_map, List.map_map]
  rfl

theorem WallsAlone.getWall (h : WallsAlone db db')
    (hplaced : ∀ p ∈ db.placements, ∃ t ∈ db.todos, t.id = p.todoID ∧ t.projectID = p.projectID) :
    getWall db' projectID = getWall db projectID := by
  refine getWall_congr (by rw [h.walls]) (by rw [h.placements]) fun p hp _ => ?_
  obtain ⟨new, hnew, hlt⟩ := h.keys
  obtain ⟨t, ht, hid, _⟩ := hplaced p hp
  have hnone : new.filter (fun k => k.id == p.todoID && k.projectID == p.projectID) = [] := by
    rw [List.filter_eq_nil_iff]
    intro k hk hsel
    rw [Bool.and_eq_true, beq_iff_eq] at hsel
    exact absurd (hid.trans hsel.1.symm) (hlt k hk t.key (List.mem_map_of_mem ht)).ne
  rw [localIDs_of_keys, localIDs_of_keys, hnew, List.filter_append, hnone, List.append_nil]

theorem WallsAlone.tables (h : WallsAlone db db') (hdb : WallTables projectID db)
    (hproject : projectID ∈ db'.projects.map (·.id)) (hprojects : (db'.projects.map (·.id)).Nodup) :
    WallTables projectID db' := by
  refine ⟨hproject, hprojects, h.todoIDs hdb.todoIDs, fun p hp => ?_⟩
  rw [h.placements] at hp
  obtain ⟨t, ht, hid, htp⟩ := hdb.placed p hp
  obtain ⟨u, hu, hkey⟩ := List.mem_map.mp (h.keys.mem (List.mem_map_of_mem (f := TodoRow.key) ht))
  have hkeys : u.id = t.id ∧ u.projectID = t.projectID :=
    ⟨congrArg TodoKey.id hkey, congrArg TodoKey.projectID hkey⟩
  exact ⟨u, hu, hkeys.1.trans hid, hkeys.2.trans htp⟩

/-! ## The wall of a backup -/

/-- The stories of a backup change the placements of their own project. -/
theorem importStories_placements {payload : WallExport} {resolveStory : ℤ → Option ℤ} {warnings : List String}
    {s : StoryScan} (h : importStories db q payload resolveStory warnings = .ok s)
    (hplaced : ∀ p ∈ db.placements, ∃ t ∈ db.todos, t.id = p.todoID ∧ t.projectID = p.projectID) :
    ∃ placements, s.db = { db with placements := placements } ∧
      (∀ p ∈ placements, ∃ t ∈ db.todos, t.id = p.todoID ∧ t.projectID = p.projectID) ∧
      ∀ projectID, projectID ≠ q → (placements.filter fun p => p.projectID == projectID) =
        db.placements.filter fun p => p.projectID == projectID := by
  unfold importStories at h
  split at h
  · refine foldlM_inv (P := fun s => ∃ placements, s.db = { db with placements := placements } ∧
      (∀ p ∈ placements, ∃ t ∈ db.todos, t.id = p.todoID ∧ t.projectID = p.projectID) ∧
      ∀ projectID, projectID ≠ q → (placements.filter fun p => p.projectID == projectID) =
        db.placements.filter fun p => p.projectID == projectID) ?_ ?_ h
    · rintro s story s' _ ⟨placements, hdb, hall, hother⟩ hstep
      cases importStory_step hstep with
      | dropped hs _ _ _ => exact ⟨placements, hs.trans hdb, hall, hother⟩
      | dangling hs _ _ _ _ _ => exact ⟨placements, hs.trans hdb, hall, hother⟩
      | placed p t dest hproject htodo ht _ hs _ _ _ _ =>
          obtain ⟨hmem, htp, _⟩ := todoByLocalID_eq_some ht
          rw [hdb] at hmem
          refine ⟨placements ++ [p], by rw [hs, hdb], fun p' hp' => ?_, fun projectID hne => ?_⟩
          · rcases List.mem_append.mp hp' with hp' | hp'
            · exact hall p' hp'
            · obtain rfl := List.mem_singleton.mp hp'
              exact ⟨t, hmem, htodo.symm, htp.trans hproject.symm⟩
          · rw [List.filter_append, hother projectID hne]
            simp [hproject, Ne.symm hne]
    · refine ⟨_, rfl, fun p hp => hplaced p (mem_deleteWhere.mp hp).1, fun projectID hne => ?_⟩
      refine filter_deleteWhere fun p _ hsel => ?_
      rw [beq_iff_eq] at hsel
      simp [hsel, hne]
  · obtain rfl := pure_eq_ok.mp h
    exact ⟨db.placements, rfl, hplaced, fun _ _ => rfl⟩

/-- The wall of a backup is stored with its version, and no other wall changes. -/
theorem upsertWallForImport_wall {draws : ProjectDraws} {payload : Option WallExport}
    {resolveStory : ℤ → Option ℤ} {warnings : List String} {out : DB × List String}
    (hdb : WallTables projectID db)
    (h : upsertWallForImport ctx draws db q payload resolveStory warnings = .ok out) :
    WallTables projectID out.1 ∧ (getWall out.1 projectID = getWall db projectID ∨
      projectID = q ∧ ∃ w ∈ payload, (getWall out.1 projectID).version = w.storedVersion) := by
  cases payload with
  | none =>
      obtain rfl := pure_eq_ok.mp h
      exact ⟨hdb, .inl rfl⟩
  | some payload =>
      simp only [upsertWallForImport, bind_eq_ok, pure_eq_ok] at h
      obtain ⟨stories, hstories, db₁, hupsert, rfl⟩ := h
      obtain ⟨placements, hplacements, hplaced, hother⟩ := importStories_placements hstories hdb.placed
      obtain ⟨htables, hfind⟩ := upsertWall_spec (by intro v _; rfl) hupsert
      rw [hplacements] at htables hfind
      refine ⟨by rw [htables]; exact hdb.set_placements hplaced, ?_⟩
      by_cases hq : projectID = q
      · refine .inr ⟨hq, payload, rfl, ?_⟩
        rw [getWall_version, hfind, if_pos hq]
        cases db.walls.find? fun v => v.projectID == projectID <;> rfl
      · left
        have hrow := hfind projectID
        rw [if_neg hq] at hrow
        rw [htables]
        rw [htables] at hrow
        exact getWall_congr hrow (hother projectID hq) fun _ _ _ => rfl

/-! ## One project of a merge -/

theorem Founds.wallsAlone {p : ProjectExport} {face : ProjectFace} (h : Founds p face db db') :
    WallsAlone db db' ∧ AddsProject face db db' := by
  obtain ⟨projects, members, db₁, db₂, sprints, hid, hfaces, hmembers, hworkflow, htiers, rfl⟩ := h
  obtain ⟨_, rfl⟩ := (importWorkflow_columnsOnly hworkflow).exists_eq
  obtain ⟨_, rfl⟩ := (replaceProjectPriorityTiersFromExport_prioritiesOnly htiers).exists_eq
  exact ⟨.of_todos rfl rfl rfl, hid, hfaces, hmembers⟩

theorem Rewrites.wallsAlone {p : ProjectExport} (h : Rewrites p q db db') :
    WallsAlone db db' ∧ KeepsProjects db db' := by
  obtain ⟨projects, db₁, db₂, sprints, hfaces, _, hworkflow, htiers, rfl⟩ := h
  obtain ⟨_, rfl⟩ := (mergeWorkflow_columnsOnly hworkflow).exists_eq
  obtain ⟨_, rfl⟩ := (mergePriorities_prioritiesOnly htiers).exists_eq
  exact ⟨.of_todos rfl rfl rfl, hfaces, rfl⟩

theorem KeepsProjects.projectIDs (h : KeepsProjects db db') :
    db'.projects.map (·.id) = db.projects.map (·.id) := by
  rw [DB.projectIDs_eq, h.faces, ← DB.projectIDs_eq]

theorem AddsProject.projectIDs {face : ProjectFace} (h : AddsProject face db db') :
    db'.projects.map (·.id) = db.projects.map (·.id) ++ [nextRowid (db.projects.map (·.id))] := by
  rw [DB.projectIDs_eq, h.faces, List.map_append, ← DB.projectIDs_eq, List.map_singleton, h.id_eq]

theorem mergeProject_wall {draws : ℕ → ProjectDraws} {selected : Selector} {p : ProjectExport} {i : ℕ}
    {s s' : ImportTx × List ℤ} (hdb : WallTables projectID s.1.db)
    (h : mergeProject rt ctx draws selected s (p, i) = .ok s') :
    WallTables projectID s'.1.db ∧ (getWall s'.1.db projectID = getWall s.1.db projectID ∨
      (∃ row, findProject s.1.db selected p.slug = some row ∧ row.id = projectID) ∧
        ∃ w ∈ p.wall, (getWall s'.1.db projectID).version = w.storedVersion) := by
  simp only [mergeProject, bind_eq_ok, pure_eq_ok] at h
  obtain ⟨_, _, _, _, ⟨tx, target⟩, htarget, db₁, hsprints, scan, htodos, db₂, htags, tx', hcontent,
    rfl⟩ := h
  obtain ⟨sprints, rfl⟩ := insertSprintsForImport_sprintsOnly hsprints
  simp only [importContent, bind_eq_ok, pure_eq_ok] at hcontent
  obtain ⟨db₃, hfields, ⟨db₄, warnings⟩, hwall, rfl⟩ := hcontent
  -- the settings, and where they go
  have hsettings : WallsAlone s.1.db { tx.db with sprints := sprints } ∧
      WallTables projectID { tx.db with sprints := sprints } ∧
      (target = projectID → ∃ row, findProject s.1.db selected p.slug = some row ∧ row.id = projectID) := by
    rcases @mergeTarget_writes rt ctx p (draws i) selected s.1 tx target sprints htarget with
      ⟨row, hfind, rfl, hrewrites⟩ | ⟨face, _, rfl, _, _, hfounds⟩
    · obtain ⟨halone, hkeep⟩ := hrewrites.wallsAlone
      refine ⟨halone, halone.tables hdb ?_ ?_, fun heq => ⟨row, hfind, heq⟩⟩
      · exact hkeep.projectIDs ▸ hdb.project
      · exact hkeep.projectIDs ▸ hdb.projectIDs
    · obtain ⟨halone, hadds⟩ := hfounds.wallsAlone
      refine ⟨halone, halone.tables hdb ?_ ?_, fun heq => ?_⟩
      · rw [hadds.projectIDs]
        exact List.mem_append_left _ hdb.project
      · rw [hadds.projectIDs]
        exact nodup_concat_nextRowid hdb.projectIDs
      · exact absurd heq.symm (hadds.fresh hdb.project)
  obtain ⟨hsettings, htables, hfound⟩ := hsettings
  have hrest : WallsAlone { tx.db with sprints := sprints } db₃ := by
    have hlinks : WallsAlone db₂ (clearLinks db₂ target) := .of_todos rfl rfl rfl
    exact ((((mergeTodos_wallsAlone htodos).trans (importTags_tagsOnly htags).wallsAlone).trans
      hlinks).trans (bulkInsertLinks_wallsAlone ..)).trans (importCustomFields_wallsAlone hfields)
  have hprojects : KeepsProjects { tx.db with sprints := sprints } db₃ := by
    have hlinks : ContentOnly db₂ (clearLinks db₂ target) := rfl
    have hcontent := (((importTags_tagsOnly htags).contentOnly.trans hlinks).trans
      (bulkInsertLinks_contentOnly ..)).trans (importCustomFields_contentOnly hfields)
    exact (mergeTodos_keepsProjects htodos).trans
      ⟨by simp only [DB.faces, hcontent.projects], hcontent.members⟩
  have htables₃ : WallTables projectID db₃ :=
    hrest.tables htables (hprojects.projectIDs ▸ htables.project) (hprojects.projectIDs ▸ htables.projectIDs)
  obtain ⟨hout, hread⟩ := upsertWallForImport_wall htables₃ hwall
  rw [(hsettings.trans hrest).getWall hdb.placed] at hread
  exact ⟨hout, hread.imp_right (And.imp_left fun heq => hfound heq.symm)⟩

/-- One project of a merge keeps the projects that were there. -/
theorem Progress.mergeProject {draws : ℕ → ProjectDraws} {selected : Selector} {p : ProjectExport} {i : ℕ}
    {s s' : ImportTx × List ℤ} {db₀ : DB} {created : List String} (hs : Progress db₀ created s.1.db)
    (h : Scrumboy.mergeProject rt ctx draws selected s (p, i) = .ok s') :
    ∃ created', Progress db₀ created' s'.1.db := by
  obtain ⟨db₁, target, sprintID, r, scan, htarget, htodos, hcontent, _⟩ := mergeProject_writes h
  have hloop := mergeTodos_keepsProjects htodos
  rcases htarget with ⟨row, _, _, hrewrites⟩ | ⟨face, _, _, _, _, hfounds⟩
  · exact ⟨created, ((hs.keeps hrewrites.wallsAlone.2).keeps hloop).content hcontent⟩
  · exact ⟨created ++ [face.slug], ((hs.adds hfounds.wallsAlone.2).keeps hloop).content hcontent⟩

/-- A project that was there before a merge is found as before. -/
theorem Progress.found_before {db₀ : DB} {created : List String} (h : Progress db₀ created db)
    {selected : Selector} (hlocal : IsLocal selected) (hids : (db.projects.map (·.id)).Nodup) {slug : String}
    {row : ProjectRow} (hfind : Scrumboy.findProject db selected slug = some row)
    (hrow : row.id ∈ db₀.projects.map (·.id)) :
    ∃ row₀, Scrumboy.findProject db₀ selected slug = some row₀ ∧ row₀.id = row.id := by
  cases hbefore : Scrumboy.findProject db₀ selected slug with
  | some row₀ =>
      obtain ⟨row', hrow', hface⟩ := (h.findProject hlocal slug).1 row₀ hbefore
      obtain rfl := Option.some.inj (hfind.symm.trans hrow')
      exact ⟨row₀, rfl, (congrArg ProjectFace.id hface).symm⟩
  | none =>
      exfalso
      obtain ⟨row₀, hmem₀, hid⟩ := List.mem_map.mp hrow
      obtain ⟨new, hfaces, _⟩ := h.faces
      have hmem : row₀.face ∈ db.faces := hfaces ▸ List.mem_append_left _ (List.mem_map_of_mem hmem₀)
      obtain ⟨row', hrow', hface⟩ := List.mem_map.mp hmem
      have hsame : row' = row := by
        refine List.inj_on_of_nodup_map hids hrow' (findProject_eq_some hfind).1 ?_
        exact (congrArg ProjectFace.id hface).trans hid
      subst hsame
      have hsel := List.find?_some hfind
      rw [Bool.and_eq_true, beq_iff_eq] at hsel
      rw [Scrumboy.findProject, List.find?_eq_none] at hbefore
      apply hbefore row₀ hmem₀
      have hslug : row'.slug = row₀.slug := congrArg ProjectFace.slug hface
      rw [Bool.and_eq_true, beq_iff_eq, ← hslug]
      refine ⟨hsel.1, ?_⟩
      rw [← hlocal db₀ db row₀ row' hface, hsel.2]
      exact fun m hm => h.members m (hm ▸ List.mem_map_of_mem hmem₀)

end

/-- The walls that a merge writes to a project. -/
def mergedWalls (ctx : Ctx) (db : DB) (data : ExportData) (projectID : ℤ) : List WallExport :=
  match exportableProjectsSelector ctx db .full with
  | .error _ => []
  | .ok selected => data.projects.filterMap fun p =>
      if (findProject db selected p.slug).any (·.id == projectID) then p.wall else none

/-- A merge leaves a wall as it is, or stores it with the version of a wall that it writes. -/
theorem importMerge_wall {rt : Runtime} {ctx : Ctx} {draws : ℕ → ProjectDraws} {db : DB} {data : ExportData}
    {projectID : ℤ} {out : DB × ImportResult} (hdb : WallTables projectID db)
    (h : importMerge rt ctx draws db data = .ok out) :
    WallTables projectID out.1 ∧ (getWall out.1 projectID = getWall db projectID ∨
      ∃ w ∈ mergedWalls ctx db data projectID, (getWall out.1 projectID).version = w.storedVersion) := by
  simp only [importMerge, bind_eq_ok, pure_eq_ok] at h
  obtain ⟨selected, hselected, _, _, ⟨tx, projectIDs⟩, hfold, _, _, rfl⟩ := h
  have hlocal := exportableProjectsSelector_isLocal hselected
  have hinv := foldlM_inv (P := fun s : ImportTx × List ℤ => (∃ created, Progress db created s.1.db) ∧
    WallTables projectID s.1.db ∧ (getWall s.1.db projectID = getWall db projectID ∨
      ∃ w ∈ mergedWalls ctx db data projectID, (getWall s.1.db projectID).version = w.storedVersion))
    ?_ ⟨⟨[], .refl db⟩, hdb, .inl rfl⟩ hfold
  · exact hinv.2
  · rintro s ⟨p, i⟩ s' hmem ⟨⟨created, hprogress⟩, htables, hwall⟩ hstep
    obtain ⟨htables', hwall'⟩ := mergeProject_wall htables hstep
    refine ⟨hprogress.mergeProject hstep, htables', ?_⟩
    rcases hwall' with heq | ⟨⟨row, hfind, hid⟩, w, hw, hversion⟩
    · rwa [heq]
    · right
      obtain ⟨row₀, hfind₀, hid₀⟩ := hprogress.found_before hlocal htables.projectIDs hfind (hid ▸ hdb.project)
      refine ⟨w, ?_, hversion⟩
      rw [mergedWalls, hselected]
      refine List.mem_filterMap.mpr ⟨p, List.fst_mem_of_mem_zipIdx hmem, ?_⟩
      rw [if_pos (by simp [hfind₀, hid₀, hid])]
      exact hw

end Scrumboy
