import Scrumboy.Backup.Stages

/-!
# Backups that passed the checks

What the checks before an import establish about a backup: each project by itself,
the slugs of all projects together, and for a merge also the todos of the projects
that are there.
-/

namespace Scrumboy

open Go Sql

/-- What the checks establish about one project of a backup. -/
structure ProjectChecked (p : ProjectExport) : Prop where
  name : p.name ≠ ""
  columns : p.workflowColumns = [] ∨ 2 ≤ p.workflowColumns.length
  columnKey : ∀ c ∈ p.workflowColumns, IsColumnKey (trimSpace c.key)
  lane : 2 ≤ p.workflowColumns.length →
    ∀ t ∈ p.todos, statusResolvesInWorkflow t.status (backupKeys p) = true
  localID : ∀ t ∈ p.todos, t.localID ≠ 0
  link : ∀ l ∈ p.links, l.fromLocalID ≠ l.toLocalID ∧ l.fromLocalID ∈ p.todos.map (·.localID) ∧
    l.toLocalID ∈ p.todos.map (·.localID) ∧ l.type ∈ linkTypesAllowed

section

variable {p : ProjectExport}

theorem statusResolvesInWorkflow_congr {status : String} {keys keys' : List String}
    (h : ∀ k, k ∈ keys ↔ k ∈ keys') :
    statusResolvesInWorkflow status keys = statusResolvesInWorkflow status keys' := by
  unfold statusResolvesInWorkflow
  simp only [h]

theorem preflightColumn_eq_ok {name : String} {s s' : List String × ℕ}
    {ci : WorkflowColumnExport × ℕ} (h : preflightColumn name s ci = .ok s') :
    IsColumnKey (trimSpace ci.1.key) ∧ toLower (trimSpace ci.1.key) ∉ s.1 ∧
      s'.1 = toLower (trimSpace ci.1.key) :: s.1 := by
  simp only [preflightColumn, bind_eq_ok, reject_eq_ok, pure_eq_ok] at h
  obtain ⟨_, _, _, hvalid, _, hseen, _, _, _, _, rfl⟩ := h
  exact ⟨⟨trimSpace_trimSpace _, by simpa using hvalid⟩, hseen, rfl⟩

/-- The workflow of a backup: none, or at least two columns whose keys are returned. -/
theorem preflightColumns_eq_ok {columns : Option (List String)}
    (h : preflightColumns p = .ok columns) :
    (p.workflowColumns = [] ∨ 2 ≤ p.workflowColumns.length) ∧
      (∀ c ∈ p.workflowColumns, IsColumnKey (trimSpace c.key)) ∧
      (2 ≤ p.workflowColumns.length →
        ∃ keys, columns = some keys ∧ ∀ k, k ∈ keys ↔ k ∈ backupKeys p) := by
  unfold preflightColumns at h
  split at h
  · rename_i hnil
    simp [hnil]
  · simp only [bind_eq_ok, reject_eq_ok, pure_eq_ok, not_lt] at h
    obtain ⟨_, hlen, ⟨keys, doneCount⟩, hfold, _, _, rfl⟩ := h
    have hzip : ∀ f : WorkflowColumnExport → String,
        p.workflowColumns.zipIdx.map (fun ci => f ci.1) = p.workflowColumns.map f := by
      intro f
      conv => rhs; rw [← List.zipIdx_map_fst 0 p.workflowColumns, List.map_map]
      rfl
    refine ⟨.inr hlen, ?_, fun _ => ⟨keys, rfl, fun k => ?_⟩⟩
    · intro c hc
      rw [← List.zipIdx_map_fst 0 p.workflowColumns] at hc
      obtain ⟨ci, hci, rfl⟩ := List.mem_map.mp hc
      exact foldlM_forall (fun ci => IsColumnKey (trimSpace ci.1.key))
        (fun _ _ _ hstep => (preflightColumn_eq_ok hstep).1) hfold ci hci
    · have hkeys := (foldlM_nodup Prod.fst (fun ci => toLower (trimSpace ci.1.key))
        (fun _ _ _ _ hstep => (preflightColumn_eq_ok hstep).2) hfold).2.2 k
      rw [hzip fun c => toLower (trimSpace c.key)] at hkeys
      simpa [backupKeys] using hkeys

theorem preflightProject_eq_ok {importMode : ImportMode} {seen seen' : List String}
    {pi : ProjectExport × ℕ} (h : preflightProject importMode seen pi = .ok seen') :
    ProjectChecked pi.1 ∧ preflightSlug importMode seen pi.1 = .ok seen' := by
  obtain ⟨p, i⟩ := pi
  simp only [preflightProject, bind_eq_ok, reject_eq_ok, pure_eq_ok, forM_eq_ok] at h
  obtain ⟨_, hname, slugs, hslug, columns, hcolumns, tiers, _, sprints, _, _, htodos, _, hlinks, _, _,
    rfl⟩ := h
  obtain ⟨hlen, hkeys, hresolve⟩ := preflightColumns_eq_ok hcolumns
  have htodo : ∀ t ∈ p.todos, t.localID ≠ 0 ∧
      ¬ ∃ keys ∈ columns, statusResolvesInWorkflow t.status keys = false := by
    intro t ht
    have hok := htodos t ht
    simp only [preflightTodo, bind_eq_ok, reject_eq_ok] at hok
    obtain ⟨_, hid, _, _, _, _, _, hstatus, _⟩ := hok
    exact ⟨hid, hstatus⟩
  refine ⟨⟨hname, hlen, hkeys, ?_, fun t ht => (htodo t ht).1, ?_⟩, hslug⟩
  · intro htwo t ht
    obtain ⟨keys, rfl, hiff⟩ := hresolve htwo
    rw [← statusResolvesInWorkflow_congr hiff, ← Bool.not_eq_false]
    intro hfalse
    exact (htodo t ht).2 ⟨keys, rfl, hfalse⟩
  · intro l hl
    have hok := hlinks l hl
    simp only [preflightLink, bind_eq_ok, reject_eq_ok, not_not] at hok
    obtain ⟨_, hne, _, hfrom, _, hto, htype⟩ := hok
    exact ⟨hne, hfrom, hto, htype⟩

end

/-- What the checks establish about a whole backup. -/
structure BackupChecked (importMode : ImportMode) (data : ExportData) : Prop where
  project : ∀ p ∈ data.projects, ProjectChecked p
  localIDs : ∀ p ∈ data.projects, (p.todos.map (·.localID)).Nodup
  slugs : importMode = .merge →
    (data.projects.map fun p => toLower (trimSpace p.slug)).Nodup ∧ ∀ p ∈ data.projects, p.slug ≠ ""

section

variable {rt : Runtime} {ctx : Ctx} {db : DB} {data : ExportData} {mode : Mode}
  {importMode : ImportMode}

theorem preflightSlug_merge {seen seen' : List String} {p : ProjectExport}
    (h : preflightSlug .merge seen p = .ok seen') :
    p.slug ≠ "" ∧ toLower (trimSpace p.slug) ∉ seen ∧ seen' = toLower (trimSpace p.slug) :: seen := by
  unfold preflightSlug at h
  split at h
  · rename_i hne
    simp only [bind_eq_ok, reject_eq_ok, pure_eq_ok] at h
    obtain ⟨_, hseen, rfl⟩ := h
    exact ⟨hne, hseen, rfl⟩
  · simp at h

theorem validateBackupData_localIDs (h : validateBackupData ctx data = .ok ()) {p : ProjectExport}
    (hp : p ∈ data.projects) (hid : ∀ t ∈ p.todos, t.localID ≠ 0) :
    (p.todos.map (·.localID)).Nodup := by
  simp only [validateBackupData, bind_eq_ok, forM_eq_ok] at h
  obtain ⟨_, _, _, _, hall⟩ := h
  have hproject := hall p hp
  simp only [validateBackupProject, bind_eq_ok] at hproject
  obtain ⟨seen, hfold, _⟩ := hproject
  refine (foldlM_nodup id (·.localID) (fun s t s' ht hstep => ?_) hfold).1
  simp only [validateBackupTodo, bind_eq_ok, reject_eq_ok, pure_eq_ok] at hstep
  obtain ⟨_, hdup, _, _, _, _, _, _, _, _, rfl⟩ := hstep
  exact ⟨fun hmem => hdup ⟨hid t ht, hmem⟩, if_neg (hid t ht)⟩

theorem validateImportPreflight_projects
    (h : validateImportPreflight rt ctx db data mode importMode = .ok ()) :
    ∃ seen, data.projects.zipIdx.foldlM (preflightProject importMode) [] = .ok seen := by
  unfold validateImportPreflight at h
  split at h
  · rename_i hnil
    exact ⟨[], by rw [hnil]; rfl⟩
  · split at h
    · simp only [bind_eq_ok] at h
      obtain ⟨_, _, seen, hseen, _⟩ := h
      exact ⟨seen, hseen⟩
    · simp only [bind_eq_ok] at h
      obtain ⟨seen, hseen, _⟩ := h
      exact ⟨seen, hseen⟩

theorem backupChecked (hdata : validateBackupData ctx data = .ok ())
    (h : validateImportPreflight rt ctx db data mode importMode = .ok ()) :
    BackupChecked importMode data := by
  obtain ⟨seen, hfold⟩ := validateImportPreflight_projects h
  have hproject : ∀ p ∈ data.projects, ProjectChecked p := by
    intro p hp
    rw [← List.zipIdx_map_fst 0 data.projects] at hp
    obtain ⟨pi, hpi, rfl⟩ := List.mem_map.mp hp
    exact foldlM_forall (fun pi => ProjectChecked pi.1)
      (fun _ _ _ hstep => (preflightProject_eq_ok hstep).1) hfold pi hpi
  refine ⟨hproject, fun p hp => validateBackupData_localIDs hdata hp (hproject p hp).localID, ?_⟩
  rintro rfl
  have hstep : ∀ (s : List String) (pi : ProjectExport × ℕ) (s' : List String),
      preflightProject .merge s pi = .ok s' →
      pi.1.slug ≠ "" ∧ toLower (trimSpace pi.1.slug) ∉ s ∧ s' = toLower (trimSpace pi.1.slug) :: s :=
    fun s pi s' hok => preflightSlug_merge (preflightProject_eq_ok hok).2
  constructor
  · have hnodup := (foldlM_nodup id (fun pi => toLower (trimSpace pi.1.slug))
      (fun s pi s' _ hok => (hstep s pi s' hok).2) hfold).1
    rwa [← List.zipIdx_map_fst 0 data.projects, List.map_map]
  · intro p hp
    rw [← List.zipIdx_map_fst 0 data.projects] at hp
    obtain ⟨pi, hpi, rfl⟩ := List.mem_map.mp hp
    exact foldlM_forall (fun pi => pi.1.slug ≠ "") (fun _ _ _ hok => (hstep _ _ _ hok).1) hfold pi hpi

/-- Before a merge, no todo outside of the backup is in a lane that the backup drops. -/
theorem validateImportPreflight_orphans
    (h : validateImportPreflight rt ctx db data .full .merge = .ok ()) {selected : Selector}
    (hselected : exportableProjectsSelector ctx db .full = .ok selected) {p : ProjectExport}
    (hp : p ∈ data.projects) : checkOrphans db selected p = .ok () := by
  unfold validateImportPreflight at h
  split at h
  · rename_i hnil
    simp [hnil] at hp
  · split at h
    · rename_i hmode
      cases hmode
    · simp only [bind_eq_ok] at h
      obtain ⟨_, _, _, horphans, _⟩ := h
      unfold preflightOrphans at horphans
      rw [if_pos ⟨rfl, by decide⟩, hselected, ok_bind, forM_eq_ok] at horphans
      exact horphans p hp

end

end Scrumboy
