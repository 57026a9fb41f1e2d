import Scrumboy.Backup.Format
import Scrumboy.Store.Workflow

/-!
# Lanes in a backup

A backup names the lane of a todo by a status text. Two functions read it: the
preflight asks whether the text resolves in the workflow of the backup, and at
the import it is turned into the key of a column. The exporter writes the upper-case
form of the key.
-/

namespace Scrumboy

open Go Sql

/-- The status text that `ExportAllProjects` writes for a todo in a lane. -/
def exportStatus (columnKey : String) : String := toUpper columnKey

/-- The columns of a backup in their exported order. Columns that share a position
keep the order of the file, as Go's `sort.Slice` leaves them in a short list. -/
def workflowColumnsFromExport (cols : List WorkflowColumnExport) : List WorkflowColumn :=
  (orderBy (·.position) cols).zipIdx.map fun (c, i) =>
    let color := trimSpace c.color
    { id := 0
      projectID := 0
      key := toLower (trimSpace c.key)
      name := trimSpace c.name
      color := if color = "" ∨ colorHexRe color = false then "#64748b" else color
      position := i
      isDone := c.isDone
      system := false }

def validColumnKeysFromWorkflowExport (cols : List WorkflowColumnExport) : List String :=
  (cols.map fun c => toLower (trimSpace c.key)).filter (· ≠ "")

def statusResolvesInWorkflow (statusFromExport : String) (validColumnKeys : List String) :
    Bool :=
  let statusKey := toLower (trimSpace statusFromExport)
  if statusKey = "" then false
  else if statusKey ∈ validColumnKeys then true
  else match parseStatus statusFromExport with
    | some s => decide (statusToColumnKey s ∈ validColumnKeys)
    | none => false

/-- The column key for a status of a backup, and whether it was unknown and fell
back to the backlog. -/
def resolveImportColumnKey (db : DB) (projectID : ℤ) (statusFromExport : String) :
    String × Bool :=
  match parseStatus statusFromExport with
  | some s => (statusToColumnKey s, false)
  | none =>
      let candidate := toLower (trimSpace statusFromExport)
      if candidate ≠ "" ∧ (validateProjectColumnKey db projectID candidate).isOk then
        (candidate, false)
      else (defaultColumnBacklog, true)

theorem resolveImportColumnKey_of_parse {db : DB} {projectID : ℤ} {status : String} {s : Status}
    (hparse : parseStatus status = some s) :
    resolveImportColumnKey db projectID status = (statusToColumnKey s, false) := by
  simp [resolveImportColumnKey, hparse]

/-- A known column key is what a status that is no legacy literal resolves to. -/
theorem resolveImportColumnKey_of_mem {db : DB} {projectID : ℤ} {status : String}
    (hparse : parseStatus status = none)
    (hmem : toLower (trimSpace status) ∈ db.columnKeys projectID)
    (hne : toLower (trimSpace status) ≠ "") :
    resolveImportColumnKey db projectID status = (toLower (trimSpace status), false) := by
  have hok := validateProjectColumnKey_isOk_iff.mpr hmem
  simp [resolveImportColumnKey, hparse, hne, hok]

/-- The lower-case form of a legacy literal is the key it stands for, with one
exception. -/
theorem toLower_trimSpace_string (s : Status) :
    toLower (trimSpace s.string) =
      if s = .inProgress then "in_progress" else statusToColumnKey s := by
  cases s <;> decide +kernel

/-- The preflight accepts a status that the import then sends outside of the
workflow only when the status is the literal of a lane keyed `in_progress`. -/
theorem resolveImportColumnKey_mem {db : DB} {projectID : ℤ} {status : String}
    (hkey : "in_progress" ∉ db.columnKeys projectID)
    (hres : statusResolvesInWorkflow status (db.columnKeys projectID) = true) :
    (resolveImportColumnKey db projectID status).1 ∈ db.columnKeys projectID := by
  unfold statusResolvesInWorkflow at hres
  dsimp only at hres
  split at hres
  · cases hres
  rename_i hne
  cases hparse : parseStatus status with
  | some s =>
      have hlit := toLower_trimSpace_string s
      rw [← parseStatus_eq_some_iff.mp hparse] at hlit
      rw [resolveImportColumnKey_of_parse hparse]
      split at hres
      · rename_i hmem
        by_cases hs : s = .inProgress
        · rw [hlit, if_pos hs] at hmem
          exact absurd hmem hkey
        · rwa [hlit, if_neg hs] at hmem
      · simpa [hparse] using hres
  | none =>
      split at hres
      · rename_i hmem
        rw [resolveImportColumnKey_of_mem hparse hmem hne]
        exact hmem
      · simp [hparse] at hres

/-- A lane that is not keyed `in_progress` survives the trip through a backup. -/
theorem resolveImportColumnKey_exportStatus {db : DB} {projectID : ℤ} {key : String}
    (hvalid : IsColumnKey key) (hmem : key ∈ db.columnKeys projectID) (hne : key ≠ "in_progress") :
    (resolveImportColumnKey db projectID (exportStatus key)).1 = key := by
  have hback : toLower (trimSpace (exportStatus key)) = key := hvalid.toLower_trimSpace_toUpper
  cases hparse : parseStatus (exportStatus key) with
  | some s =>
      have hlit := toLower_trimSpace_string s
      rw [← parseStatus_eq_some_iff.mp hparse, hback] at hlit
      by_cases hs : s = .inProgress
      · rw [if_pos hs] at hlit
        exact absurd hlit hne
      · rw [if_neg hs] at hlit
        rw [resolveImportColumnKey_of_parse hparse, ← hlit]
  | none =>
      rw [resolveImportColumnKey_of_mem hparse (hback.symm ▸ hmem) (hback.symm ▸ hvalid.ne_empty)]
      exact hback

/-- Preflight and import agree on the lanes of a workflow, and the exporter's
status texts lead back to them, exactly when no column is keyed `in_progress`.
The legacy literal `IN_PROGRESS`, which is the status text of that lane, always
resolves to the default lane `doing`. -/
theorem lanes_agree_iff (db db' : DB) (projectID : ℤ) (cols : List WorkflowColumn)
    (hnew : db.columnKeys projectID = [])
    (hok : insertWorkflowColumns db projectID cols = .ok db') :
    ((∀ status, statusResolvesInWorkflow status (db'.columnKeys projectID) = true →
          (resolveImportColumnKey db' projectID status).1 ∈ db'.columnKeys projectID) ∧
        ∀ key ∈ db'.columnKeys projectID,
          (resolveImportColumnKey db' projectID (exportStatus key)).1 = key) ↔
      ∀ col ∈ cols, trimSpace (toLower col.key) ≠ "in_progress" := by
  have hkeys : db'.columnKeys projectID = cols.map (fun c => trimSpace (toLower c.key)) := by
    rw [insertWorkflowColumns_columnKeys hok, hnew, if_pos rfl, List.nil_append]
  have hvalid : ∀ key ∈ db'.columnKeys projectID, IsColumnKey key := by
    obtain ⟨new, rfl, hall, _, _⟩ := insertWorkflowColumns_spec hok
    intro key hkey
    obtain ⟨c, hc, hpid, rfl⟩ := DB.mem_columnKeys.mp hkey
    rcases List.mem_append.mp hc with hold | hc
    · exact absurd (DB.mem_columnKeys.mpr ⟨c, hold, hpid, rfl⟩) (by simp [hnew])
    · exact (hall c hc).2
  have hcond : (∀ col ∈ cols, trimSpace (toLower col.key) ≠ "in_progress") ↔
      "in_progress" ∉ db'.columnKeys projectID := by
    rw [hkeys]
    simp
  rw [hcond]
  constructor
  · rintro ⟨_, hback⟩ hmem
    have hparse : parseStatus (exportStatus "in_progress") = some .inProgress := by
      decide +kernel
    have hdoing := hback _ hmem
    rw [resolveImportColumnKey_of_parse hparse] at hdoing
    exact absurd hdoing (by decide)
  · intro hnot
    refine ⟨fun status => resolveImportColumnKey_mem hnot, ?_⟩
    intro key hkey
    refine resolveImportColumnKey_exportStatus (hvalid key hkey) hkey ?_
    rintro rfl
    exact hnot hkey

/-- The workflow of two lanes, `todo` and `done`, satisfies the condition. -/
theorem lanes_agree_todo_done :
    ∃ db', insertWorkflowColumns {} 1
        [⟨0, 0, "todo", "To do", "", 0, false, false⟩,
         ⟨0, 0, "done", "Done", "", 1, true, false⟩] = .ok db' ∧
      (∀ status, statusResolvesInWorkflow status (db'.columnKeys 1) = true →
          (resolveImportColumnKey db' 1 status).1 ∈ db'.columnKeys 1) ∧
        ∀ key ∈ db'.columnKeys 1, (resolveImportColumnKey db' 1 (exportStatus key)).1 = key := by
  obtain ⟨db', hok⟩ := exists_of_isOk (x := insertWorkflowColumns {} 1
    [⟨0, 0, "todo", "To do", "", 0, false, false⟩,
     ⟨0, 0, "done", "Done", "", 1, true, false⟩]) (by decide +kernel)
  exact ⟨db', hok, (lanes_agree_iff {} db' 1 _ rfl hok).mpr (by decide +kernel)⟩

/-- The workflow of the lanes `in_progress` and `done`: the status of the first
passes the preflight, but a todo there is imported into `doing`, which is no lane
of this workflow. -/
theorem lanes_disagree_in_progress :
    ∃ db', insertWorkflowColumns {} 1
        [⟨0, 0, "in_progress", "In progress", "", 0, false, false⟩,
         ⟨0, 0, "done", "Done", "", 1, true, false⟩] = .ok db' ∧
      statusResolvesInWorkflow (exportStatus "in_progress") (db'.columnKeys 1) = true ∧
      (resolveImportColumnKey db' 1 (exportStatus "in_progress")).1 ∉ db'.columnKeys 1 ∧
      (resolveImportColumnKey db' 1 (exportStatus "in_progress")).1 ≠ "in_progress" := by
  obtain ⟨db', hok⟩ := exists_of_isOk (x := insertWorkflowColumns {} 1
    [⟨0, 0, "in_progress", "In progress", "", 0, false, false⟩,
     ⟨0, 0, "done", "Done", "", 1, true, false⟩]) (by decide +kernel)
  have hkeys := insertWorkflowColumns_columnKeys hok 1
  refine ⟨db', hok, ?_⟩
  have hparse : parseStatus (exportStatus "in_progress") = some .inProgress := by
    decide +kernel
  rw [resolveImportColumnKey_of_parse hparse, hkeys]
  decide +kernel

end Scrumboy
