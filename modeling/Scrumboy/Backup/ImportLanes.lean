import Scrumboy.Backup.Append
import Scrumboy.Backup.MergeSteps

/-!
# Lanes through runs

Requests and imports together keep every todo in a lane of its project, as long as
every status of a backup leads to a lane of the workflow that its project will have,
and no project of a merge matches one that the same merge made.
-/

set_option linter.dupNamespace false

namespace Scrumboy

open Go Sql

/-! ## One project of a merge -/

/-- The keys of the workflow that a project of a backup has after a merge. -/
def mergeKeys (db : DB) (selected : Selector) (p : ProjectExport) : List String :=
  if 2 ≤ p.workflowColumns.length then backupKeys p
  else
    match findProject db selected p.slug with
    | some row => db.columnKeys row.id
    | none => defaultWorkflowColumns.map (·.key)

section

variable {rt : Runtime} {ctx : Ctx} {p : ProjectExport} {db₀ db db' : DB} {created : List String}
  {selected : Selector} {projectID : ℤ}

/-- A todo outside of the backup is in a lane of the backup. -/
theorem checkOrphans_eq_ok (h : checkOrphans db selected p = .ok ()) (hslug : p.slug ≠ "")
    (hlen : 2 ≤ p.workflowColumns.length) {row : ProjectRow}
    (hfind : findProject db selected p.slug = some row) {t : TodoRow} (ht : t ∈ db.todos)
    (hpid : t.projectID = row.id) (hout : t.localID ∉ p.todos.map (·.localID))
    (hkey : IsColumnKey t.columnKey) : t.columnKey ∈ backupKeys p := by
  have hchecks : ¬ (p.slug = "" ∨ p.workflowColumns.length < 2) := by
    rintro (hempty | hshort)
    · exact hslug hempty
    · omega
  unfold checkOrphans at h
  rw [if_neg hchecks, hfind] at h
  simp only [reject_eq_ok, not_not] at h
  by_contra hnot
  have hnorm : toLower (trimSpace t.columnKey) = t.columnKey := by
    rw [hkey.1, hkey.toLower_eq]
  have hmem : t.columnKey ∈ strandedColumns db row.id p := by
    unfold strandedColumns
    rw [List.mem_filter, List.mem_map]
    refine ⟨⟨t, List.mem_filter.mpr ⟨ht, ?_⟩, hnorm⟩, ?_⟩
    · simpa [hpid] using hout
    · have hvalid : t.columnKey ∉ validColumnKeysFromWorkflowExport p.workflowColumns := by
        intro hv
        exact hnot (List.mem_filter.mp hv).1
      simpa [hkey.ne_empty] using hvalid
  rw [h] at hmem
  simp at hmem

theorem LaneInv.isColumnKey (h : LaneInv db) {t : TodoRow} (ht : t ∈ db.todos) :
    IsColumnKey t.columnKey := by
  obtain ⟨c, hc, _, hkey⟩ := DB.mem_columnKeys.mp (h.lane t ht)
  exact hkey ▸ h.columns.keys c hc

/-- A project that was found, once its settings are written: its todos are in a lane
of the new workflow, or the backup has them. -/
theorem settling_of_found (h₀ : LaneInv db₀) (h : LaneInv db) {row : ProjectRow}
    (hfind : findProject db₀ selected p.slug = some row) (hsame : SameBoard row.id db₀ db)
    (horphans : checkOrphans db₀ selected p = .ok ()) (hslug : p.slug ≠ "")
    (hproject : row.id ∈ db.projects.map (·.id))
    (hsets : SetsUp row.id
      (if 2 ≤ p.workflowColumns.length then backupKeys p else db.columnKeys row.id) db db')
    (hkeep : KeepsProjects db db') (r : ImportResult) :
    Settling row.id p.todos { db := db', result := r } := by
  have hids : db'.projects.map (·.id) = db.projects.map (·.id) := by
    rw [DB.projectIDs_eq, hkeep.faces, ← DB.projectIDs_eq]
  refine ⟨?_, ?_, hsets.columns h.columns, ?_, ?_⟩
  · rw [hids]
    exact h.projects
  · rw [hids]
    exact hproject
  · refine h.todos.congr ?_ fun id hid => hids ▸ hid
    simp only [DB.todoKeys, hsets.tables.todos]
  · intro v hv
    rw [hsets.tables.todos] at hv
    by_cases hpid : v.projectID = row.id
    · by_cases hin : v.localID ∈ p.todos.map (·.localID)
      · exact .inr ⟨hpid, hin, by simp⟩
      · left
        rw [hpid]
        apply hsets.keys
        split
        · rename_i hlen
          have hv₀ := (hsame.todos v hpid).mp hv
          exact checkOrphans_eq_ok horphans hslug hlen hfind hv₀ hpid hin (h₀.isColumnKey hv₀)
        · exact hpid ▸ h.lane v hv
    · exact .inl ((hsets.other _ hpid _).mpr (h.lane v hv))

/-- What the checks say about one project of a merge, against the database before. -/
structure MergeReady (db₀ : DB) (selected : Selector) (p : ProjectExport) : Prop where
  checked : ProjectChecked p
  orphans : checkOrphans db₀ selected p = .ok ()
  slug : p.slug ≠ ""
  known : LanesKnown (mergeKeys db₀ selected p) p

/-- One project of a merge, seen from the database before the merge. -/
theorem LaneInv.mergeStep (h₀ : LaneInv db₀) (h : LaneInv db) (hready : MergeReady db₀ selected p)
    (hstep : MergeStep rt ctx selected p db₀ db db') : LaneInv db' := by
  cases hstep with
  | found row hfind hproject hsame hmerges =>
      obtain ⟨db₁, sprintID, r, scan, hrewrites, htodos, hcontent⟩ := hmerges
      obtain ⟨hsets, hkeep⟩ := hrewrites.setsUp hready.checked.columnKey
      have hsettling := settling_of_found h₀ h hfind hsame hready.orphans hready.slug hproject hsets
        hkeep r
      have hkeys : ∀ k ∈ mergeKeys db₀ selected p, k ∈ db₁.columnKeys row.id := by
        intro k hk
        apply hsets.keys
        unfold mergeKeys at hk
        split at hk
        · rename_i hlen
          rwa [if_pos hlen]
        · rename_i hlen
          rw [hfind] at hk
          rwa [if_neg hlen, DB.columnKeys, hsame.columns]
      exact (hsettling.mergeTodos hkeys hready.known htodos).contentOnly hcontent
  | new hfind face hmerges =>
      obtain ⟨db₁, sprintID, r, scan, hfounds, htodos, hcontent⟩ := hmerges
      obtain ⟨hsets, hadds⟩ := hfounds.setsUp hready.checked.columnKey
      have hlanes := h.addsProject hsets hadds
      have hproject : face.id ∈ db₁.projects.map (·.id) := (hadds.mem_projects _).mpr (.inr rfl)
      have hsettling : Settling face.id p.todos { db := db₁, result := r } :=
        ⟨hlanes.projects, hproject, hlanes.columns, hlanes.todos, fun v hv => .inl (hlanes.lane v hv)⟩
      have hkeys : ∀ k ∈ mergeKeys db₀ selected p, k ∈ db₁.columnKeys face.id := by
        intro k hk
        apply hsets.keys
        unfold mergeKeys at hk
        rw [hfind] at hk
        exact hk
      exact (hsettling.mergeTodos hkeys hready.known htodos).contentOnly hcontent

end

/-! ## The other modes -/

section

variable {db db' : DB}

/-- A project goes with its lanes and its todos. -/
theorem LaneInv.deleteProjects (h : LaneInv db) (gone : ProjectRow → Bool) :
    LaneInv (Scrumboy.deleteProjects db gone) := by
  have hprojects : (Scrumboy.deleteProjects db gone).projects.Sublist db.projects :=
    List.filter_sublist
  have hcolumns : (Scrumboy.deleteProjects db gone).columns.Sublist db.columns := List.filter_sublist
  have htodos : (Scrumboy.deleteProjects db gone).todos.Sublist db.todos := List.filter_sublist
  refine ⟨h.projects.sublist (hprojects.map _), ?_, h.todos.sublist htodos fun t ht => ?_,
    fun t ht => ?_⟩
  · exact ⟨h.columns.ids.sublist (hcolumns.map _), fun c hc => h.columns.keys c (hcolumns.subset hc)⟩
  · obtain ⟨hmem, hkept⟩ := mem_deleteWhere.mp ht
    obtain ⟨p, hp, hid⟩ := List.mem_map.mp (h.todos.project t hmem)
    simp only [List.any_eq_false, Bool.and_eq_true, beq_iff_eq, not_and] at hkept
    refine List.mem_map.mpr ⟨p, mem_deleteWhere.mpr ⟨hp, ?_⟩, hid⟩
    simpa using hkept p hp hid
  · obtain ⟨hmem, hkept⟩ := mem_deleteWhere.mp ht
    obtain ⟨c, hc, hcp, hkey⟩ := DB.mem_columnKeys.mp (h.lane t hmem)
    exact DB.mem_columnKeys.mpr ⟨c, mem_deleteWhere.mpr ⟨hc, hcp ▸ hkept⟩, hcp, hkey⟩

theorem LaneInv.promoteStaging (h : LaneInv db) {batchID : String}
    (hok : Scrumboy.promoteStaging db batchID = .ok db') : LaneInv db' := by
  have hids : db'.projects.map (·.id) = db.projects.map (·.id) := by
    rw [promoteStaging_eq_ok hok]
    apply map_updateWhere
    intro _
    rfl
  obtain rfl := promoteStaging_eq_ok hok
  exact ⟨hids ▸ h.projects, h.columns, h.todos.congr rfl fun id hid => hids ▸ hid, h.lane⟩

end

/-! ## Runs -/

/-- Every status of the backup leads to a lane of the workflow that its project is
going to have, and no project of a merge matches one that the merge made. -/
def ImportFits (rt : Runtime) (ctx : Ctx) (db : DB) (req : ImportRequest) : Prop :=
  validateImportPreflight rt ctx db req.data req.mode req.importMode = .ok () →
    if req.importMode = .merge ∧ req.mode = .full then
      ∀ selected ∈ (exportableProjectsSelector ctx db .full).toOption,
        (∀ p ∈ req.data.projects, LanesKnown (mergeKeys db selected p) p) ∧
        NoCapture (fun slug => (findProject db selected slug).isSome) req.draws
          (db.faces.map (·.slug)) [] req.data.projects.zipIdx
    else ∀ p ∈ req.data.projects, LanesKnown (importKeys p) p

def OperationFits (rt : Runtime) (db : DB) (op : Ctx × Operation) : Prop :=
  match op.2 with
  | .request _ => True
  | .importBackup req => ImportFits rt op.1 db req

section

variable {rt : Runtime} {ctx : Ctx} {db : DB}

theorem LaneInv.importMerge {draws : ℕ → ProjectDraws} {data : ExportData} {db' : DB}
    {r : ImportResult} (h : LaneInv db) (hchecked : BackupChecked .merge data)
    (hpre : validateImportPreflight rt ctx db data .full .merge = .ok ()) {selected : Selector}
    (hselected : exportableProjectsSelector ctx db .full = .ok selected)
    (hknown : ∀ p ∈ data.projects, LanesKnown (mergeKeys db selected p) p)
    (hcapture : NoCapture (fun slug => (findProject db selected slug).isSome) draws
      (db.faces.map (·.slug)) [] data.projects.zipIdx)
    (hok : Scrumboy.importMerge rt ctx draws db data = .ok (db', r)) : LaneInv db' := by
  obtain ⟨_, hslug⟩ := hchecked.slugs rfl
  refine importMerge_walk h.projects (fun _ hdb => hdb.todos) hchecked hselected hcapture
    (fun p hp db₁ db₂ hdb₁ hstep => h.mergeStep hdb₁ ?_ hstep) h hok
  exact ⟨hchecked.project _ hp, validateImportPreflight_orphans hpre hselected hp, hslug _ hp,
    hknown _ hp⟩

theorem LaneInv.importBackup (h : LaneInv db) {req : ImportRequest}
    (hfits : ImportFits rt ctx db req) : LaneInv (Scrumboy.importBackup rt ctx db req) := by
  rcases importBackup_cases rt ctx db req with heq | ⟨hchecked, hpre, hout⟩
  · rwa [heq]
  · have hvalid := fun p hp => (hchecked.project p hp).columnKey
    have hfits := hfits hpre
    generalize Scrumboy.importBackup rt ctx db req = db' at hout ⊢
    cases hout with
    | replaced himport hout =>
        rw [if_neg (by simp [himport])] at hfits
        rw [← hout]
        refine importReplaceAll_inv (fun s p i s' hp hs hstep => ?_) ?_ ?_ h
        · exact hs.stageProject (hvalid p hp) (hfits p hp) hstep
        · exact fun db gone hdb => hdb.deleteProjects gone
        · exact fun db db' hdb hok => hdb.promoteStaging hok
    | merged himport hmode r hout =>
        rw [if_pos ⟨himport, hmode⟩] at hfits
        rw [himport, hmode] at hpre
        have hsel := hout
        simp only [Scrumboy.importMerge, bind_eq_ok] at hsel
        obtain ⟨selected, hselected, _⟩ := hsel
        obtain ⟨hknown, hcapture⟩ := hfits selected (by rw [hselected]; rfl)
        exact h.importMerge (himport ▸ hchecked) hpre hselected hknown hcapture hout
    | copied himport r hout =>
        have hcopy : ¬ (req.importMode = .merge ∧ req.mode = .full) := by
          rintro ⟨hmerge, hmode⟩
          rcases himport with hcopy | ⟨_, hanon⟩
          · simp [hmerge] at hcopy
          · simp [hmode] at hanon
        rw [if_neg hcopy] at hfits
        refine importCreateCopy_inv (fun s p i s' hp hs hstep => ?_) h hout
        exact hs.copyProject (hvalid p hp) (hfits p hp) hstep

theorem LaneInv.perform (h : LaneInv db) {op : Ctx × Operation} (hfits : OperationFits rt db op) :
    LaneInv (Scrumboy.perform rt db op) := by
  obtain ⟨ctx, op⟩ := op
  cases op with
  | request r => exact serve_inv h fun db' hok => h.exec hok
  | importBackup req => exact h.importBackup hfits

end

/-- A store without projects. -/
def DB.IsEmpty (db : DB) : Prop := db.projects = [] ∧ db.columns = [] ∧ db.todos = []

theorem DB.IsEmpty.laneInv {db : DB} (h : db.IsEmpty) : LaneInv db := by
  obtain ⟨hprojects, hcolumns, htodos⟩ := h
  refine ⟨by simp [hprojects], ⟨by simp [hcolumns], by simp [hcolumns]⟩, ?_, by simp [htodos]⟩
  exact ⟨by simp [htodos], by simp [htodos], by simp [htodos]⟩

/-- In every state of a run of requests and imports, every todo is in a lane of its
project, if every backup leads to lanes when it is imported. -/
theorem lanes_reachable (rt : Runtime) (db₀ : DB) (hempty : db₀.IsEmpty)
    (ops : List (Ctx × Operation)) (hfits : Transition.Along (OperationFits rt) (perform rt) db₀ ops)
    (past future : List (Ctx × Operation)) (hsplit : ops = past ++ future) :
    ∀ t ∈ (Transition.run (perform rt) db₀ past).todos,
      t.columnKey ∈ (Transition.run (perform rt) db₀ past).columnKeys t.projectID := by
  subst hsplit
  have hinv : LaneInv (Transition.run (perform rt) db₀ past) :=
    Transition.run_along (fun _ _ h hop => h.perform hop) hempty.laneInv hfits.of_append
  exact hinv.lane

/-- A backup of two projects that a merge matches with a board called Board, and with
nothing. -/
def twoBoards : ImportRequest where
  data := { projects := [
    { slug := "board", name := "Board", todos := [{ backlogTodo 1 with status := "IN_PROGRESS" }] },
    { slug := "notes", name := "Notes", todos := [backlogTodo 1] }] }
  mode := .full
  importMode := .merge
  batchID := "batch"
  draws := fun _ => ⟨"slug", fun _ => 0, fun _ => 0⟩

/-- A board is made, it gets a todo, and a merge moves this todo and makes another
board. -/
def mergeSession : List (Ctx × Operation) :=
  [(⟨some 1, 5⟩, .request (.createProject "Board" none)),
    (⟨some 1, 6⟩, .request (.createTodo 1 { title := "t" })),
    (⟨some 1, 7⟩, .importBackup twoBoards)]

/-- The todos of such a session are in lanes. -/
theorem lanes_reachable_merge :
    (Transition.run (perform plainRuntime) { users := [1] } mergeSession).todos.length = 2 ∧
      ∀ t ∈ (Transition.run (perform plainRuntime) { users := [1] } mergeSession).todos,
        t.columnKey ∈ (Transition.run (perform plainRuntime) { users := [1] } mergeSession).columnKeys
          t.projectID := by
  refine ⟨by decide +kernel, lanes_reachable plainRuntime { users := [1] } ⟨rfl, rfl, rfl⟩ mergeSession
    ⟨trivial, trivial, fun _ => ?_, trivial⟩ mergeSession [] (by simp)⟩
  decide +kernel

/-- A backup of a board with the lanes `in_progress` and `done`, and a todo in the
first of them as an export writes it. -/
def inProgressBackup : ImportRequest where
  data := { projects := [{
    slug := "board"
    name := "Board"
    workflowColumns := [⟨"in_progress", "In progress", "#64748b", 0, false⟩,
      ⟨"done", "Done", "#64748b", 1, true⟩]
    todos := [{ backlogTodo 1 with status := "IN_PROGRESS" }] }] }
  mode := .full
  importMode := .replace
  batchID := "batch"
  draws := fun _ => ⟨"slug", fun _ => 0, fun _ => 0⟩

/-- The todo of that backup, which passes the checks, ends up in a lane that its board
does not have. -/
theorem lane_missing_after_replace :
    (validateImportPreflight plainRuntime ⟨some 1, 5⟩ { users := [1] } inProgressBackup.data .full
      .replace).isOk = true ∧
    ∃ t ∈ (Transition.run (perform plainRuntime) { users := [1] }
        [(⟨some 1, 5⟩, .importBackup inProgressBackup)]).todos,
      t.columnKey ∉ (Transition.run (perform plainRuntime) { users := [1] }
        [(⟨some 1, 5⟩, .importBackup inProgressBackup)]).columnKeys t.projectID := by
  decide +kernel

end Scrumboy
