import Scrumboy.Backup.Checked

/-!
# Columns of a backup that are accepted

The checks of an import accept columns in their stored form exactly when they have names, their
keys are distinct and one of them is done. A new project then gets all of them.
-/

namespace Scrumboy

open Go Sql

/-! ## Columns of a new project -/

/-- A column whose normal form passes the checks. -/
structure Storable (col : WorkflowColumn) : Prop where
  name : trimSpace col.name ≠ ""
  key : isValidColumnKey (trimSpace (toLower col.key)) = true
  color : colorHexRe (normalizeWorkflowColumn 0 col).color = true

section

variable {db db' : DB} {projectID : ℤ}

theorem checkWorkflowColumns_of_storable {cols : List WorkflowColumn} (seen : List String) (i : ℕ)
    (hcols : ∀ c ∈ cols, Storable c) (hnodup : (cols.map fun c => trimSpace (toLower c.key)).Nodup)
    (hnew : ∀ c ∈ cols, trimSpace (toLower c.key) ∉ seen) :
    ∃ out, checkWorkflowColumns i seen cols = .ok out := by
  induction cols generalizing i seen with
  | nil => exact ⟨[], rfl⟩
  | cons c cols ih =>
      obtain ⟨hc, hcols⟩ := List.forall_mem_cons.mp hcols
      obtain ⟨hc', hnew⟩ := List.forall_mem_cons.mp hnew
      rw [List.map_cons, List.nodup_cons] at hnodup
      obtain ⟨out, hout⟩ := ih (trimSpace (toLower c.key) :: seen) (i + 1) hcols hnodup.2
        fun d hd hmem => by
          rcases List.mem_cons.mp hmem with heq | hmem
          · exact hnodup.1 (heq ▸ List.mem_map_of_mem hd)
          · exact hnew d hd hmem
      refine ⟨normalizeWorkflowColumn i c :: out, ?_⟩
      have hkey : ¬ isValidColumnKey (normalizeWorkflowColumn i c).key = false := by
        rw [normalizeWorkflowColumn_key, hc.key]
        exact Bool.noConfusion
      have hcolor : ¬ colorHexRe (normalizeWorkflowColumn i c).color = false := by
        have hcolor := hc.color
        simp only [normalizeWorkflowColumn] at hcolor ⊢
        rw [hcolor]
        exact Bool.noConfusion
      rw [checkWorkflowColumns]
      rw [reject_bind_of_not (show ¬ (normalizeWorkflowColumn i c).name = "" from hc.name), reject_bind_of_not hkey,
        reject_bind_of_not hcolor, reject_bind_of_not (show (normalizeWorkflowColumn i c).key ∉ seen from hc')]
      rw [normalizeWorkflowColumn_key, hout]
      rfl

theorem foldlM_insertWorkflowColumn_of_new (db : DB) {cols : List WorkflowColumn} (hnodup : (cols.map (·.key)).Nodup)
    (hnew : ∀ c ∈ cols, c.key ∉ db.columnKeys projectID) :
    ∃ db', cols.foldlM (fun db col => insertWorkflowColumn db projectID col) db = .ok db' := by
  induction cols generalizing db with
  | nil => exact ⟨db, rfl⟩
  | cons c cols ih =>
      obtain ⟨hc, hnew⟩ := List.forall_mem_cons.mp hnew
      rw [List.map_cons, List.nodup_cons] at hnodup
      obtain ⟨db', hrest⟩ := ih (appendColumn db projectID c) hnodup.2 fun d hd hmem => by
        rw [appendColumn_columnKeys, if_pos rfl, List.mem_append, List.mem_singleton] at hmem
        rcases hmem with hmem | heq
        · exact hnew d hd hmem
        · exact hnodup.1 (heq ▸ List.mem_map_of_mem hd)
      refine ⟨db', ?_⟩
      rw [List.foldlM_cons, insertWorkflowColumn, if_neg hc]
      exact hrest

/-- A project without columns gets the columns of a workflow. -/
theorem insertWorkflowColumns_of_storable {cols : List WorkflowColumn} (hlen : 2 ≤ cols.length)
    (hcols : ∀ c ∈ cols, Storable c) (hnodup : (cols.map fun c => trimSpace (toLower c.key)).Nodup)
    (hdone : (cols.filter (·.isDone)).length = 1) (hnew : db.columnKeys projectID = []) :
    ∃ db', insertWorkflowColumns db projectID cols = .ok db' := by
  obtain ⟨out, hout⟩ := checkWorkflowColumns_of_storable [] 0 hcols hnodup (by simp)
  obtain ⟨heq, _, hkeys⟩ := checkWorkflowColumns_spec hout
  have hone : (out.filter (·.isDone)).length = 1 := by
    rw [← hdone, ← List.countP_eq_length_filter, ← List.countP_eq_length_filter, heq, List.countP_map]
    calc (cols.zipIdx.countP ((·.isDone) ∘ fun p => normalizeWorkflowColumn p.2 p.1))
        = (cols.zipIdx.map (·.1)).countP (·.isDone) := by
          rw [List.countP_map]
          rfl
      _ = cols.countP (·.isDone) := by rw [List.zipIdx_map_fst]
  obtain ⟨db', hinsert⟩ := foldlM_insertWorkflowColumn_of_new db hkeys fun c _ => by
    rw [hnew]
    exact List.not_mem_nil
  refine ⟨db', ?_⟩
  rw [insertWorkflowColumns, reject_bind_of_not (not_lt.mpr hlen), hout, ok_bind, reject_bind_of_not (by simp [hone])]
  exact hinsert

end

/-! ## Columns of a backup -/

/-- Columns in their stored form: valid keys and colours. -/
structure StoredForm (cols : List WorkflowColumnExport) : Prop where
  two : 2 ≤ cols.length
  keys : ∀ c ∈ cols, IsColumnKey c.key
  colors : ∀ c ∈ cols, trimSpace c.color ≠ "" ∧ colorHexRe (trimSpace c.color) = true

/-- Columns with names and keys of their own, one of them done. -/
structure Complete (cols : List WorkflowColumnExport) : Prop where
  names : ∀ c ∈ cols, trimSpace c.name ≠ ""
  distinct : (cols.map (·.key)).Nodup
  done : (cols.filter (·.isDone)).length = 1

section

variable {name : String} {c : WorkflowColumnExport} {cols : List WorkflowColumnExport}

theorem preflightColumn_eq_ok_iff (hkey : IsColumnKey c.key)
    (hcolor : trimSpace c.color ≠ "" ∧ colorHexRe (trimSpace c.color) = true) (i : ℕ) {s s' : List String × ℕ} :
    preflightColumn name s (c, i) = .ok s' ↔ trimSpace c.name ≠ "" ∧ c.key ∉ s.1 ∧
      s' = (c.key :: s.1, if c.isDone then s.2 + 1 else s.2) := by
  simp only [preflightColumn, bind_eq_ok, reject_eq_ok, pure_eq_ok, hkey.1, hkey.toLower_eq, hkey.2,
    hkey.ne_empty, hcolor.2]
  constructor
  · rintro ⟨_, _, _, _, _, hseen, _, hname, _, _, rfl⟩
    exact ⟨hname, hseen, rfl⟩
  · rintro ⟨hname, hseen, rfl⟩
    exact ⟨(), not_false, (), Bool.noConfusion, (), hseen, (), hname, (), fun h => Bool.noConfusion h.2, rfl⟩

theorem foldlM_preflightColumn (hkeys : ∀ c ∈ cols, IsColumnKey c.key)
    (hcolors : ∀ c ∈ cols, trimSpace c.color ≠ "" ∧ colorHexRe (trimSpace c.color) = true) (i : ℕ)
    {s s' : List String × ℕ} :
    (cols.zipIdx i).foldlM (preflightColumn name) s = .ok s' ↔ (∀ c ∈ cols, trimSpace c.name ≠ "") ∧
      (cols.map (·.key)).Nodup ∧ (∀ c ∈ cols, c.key ∉ s.1) ∧
      s' = ((cols.map (·.key)).reverse ++ s.1, s.2 + cols.countP (·.isDone)) := by
  induction cols generalizing i s with
  | nil =>
      rw [List.zipIdx_nil, List.foldlM_nil, pure_eq_ok]
      constructor
      · rintro rfl
        simp
      · rintro ⟨_, _, _, rfl⟩
        simp
  | cons c cols ih =>
      obtain ⟨hkey, hkeys⟩ := List.forall_mem_cons.mp hkeys
      obtain ⟨hcolor, hcolors⟩ := List.forall_mem_cons.mp hcolors
      simp only [List.zipIdx_cons, List.foldlM_cons, bind_eq_ok, preflightColumn_eq_ok_iff hkey hcolor,
        ih hkeys hcolors, List.forall_mem_cons, List.map_cons, List.nodup_cons, List.countP_cons]
      have hcount : (if c.isDone then s.2 + 1 else s.2) + cols.countP (·.isDone) =
          s.2 + (cols.countP (·.isDone) + if c.isDone then 1 else 0) := by
        split <;> omega
      constructor
      · rintro ⟨_, ⟨hname, hseen, rfl⟩, hnames, hnodup, hnew, rfl⟩
        refine ⟨⟨hname, hnames⟩, ⟨fun hmem => ?_, hnodup⟩, ⟨hseen, fun d hd => ?_⟩, ?_⟩
        · obtain ⟨d, hd, heq⟩ := List.mem_map.mp hmem
          exact hnew d hd (heq ▸ List.mem_cons_self)
        · exact fun hmem => hnew d hd (List.mem_cons_of_mem _ hmem)
        · rw [List.reverse_cons, List.append_assoc, hcount]
          rfl
      · rintro ⟨⟨hname, hnames⟩, ⟨hnot, hnodup⟩, ⟨hseen, hnew⟩, rfl⟩
        refine ⟨_, ⟨hname, hseen, rfl⟩, hnames, hnodup, fun d hd hmem => ?_, ?_⟩
        · rcases List.mem_cons.mp hmem with heq | hmem
          · exact hnot (heq ▸ List.mem_map_of_mem hd)
          · exact hnew d hd hmem
        · rw [List.reverse_cons, List.append_assoc, hcount]
          rfl

/-- The checks before an import. -/
theorem preflightColumns_iff {p : ProjectExport} (h : StoredForm p.workflowColumns) {columns : Option (List String)} :
    preflightColumns p = .ok columns ↔
      Complete p.workflowColumns ∧ columns = some (p.workflowColumns.map (·.key)).reverse := by
  have hne : p.workflowColumns ≠ [] := by
    intro hnil
    have := h.two
    simp [hnil] at this
  rw [preflightColumns, if_neg hne, reject_bind_of_not (not_lt.mpr h.two)]
  simp only [bind_eq_ok, foldlM_preflightColumn h.keys h.colors, reject_eq_ok, pure_eq_ok]
  constructor
  · rintro ⟨_, ⟨hnames, hnodup, _, rfl⟩, _, hdone, rfl⟩
    refine ⟨⟨hnames, hnodup, ?_⟩, by simp⟩
    simpa [List.countP_eq_length_filter] using hdone
  · rintro ⟨hcomplete, rfl⟩
    refine ⟨_, ⟨hcomplete.names, hcomplete.distinct, by simp, rfl⟩, (), ?_, by simp⟩
    simpa [List.countP_eq_length_filter] using hcomplete.done

/-- The columns that pass the checks are those that a new project gets. -/
theorem insertExportedColumns_ok {db : DB} {projectID : ℤ} (h : StoredForm cols) (hcomplete : Complete cols)
    (hnew : db.columnKeys projectID = []) :
    ∃ db', insertWorkflowColumns db projectID (workflowColumnsFromExport cols) = .ok db' := by
  have hperm := orderBy_perm (fun c : WorkflowColumnExport => c.position) cols
  have hzip : ∀ {β : Type} (f : WorkflowColumnExport → β),
      (orderBy (·.position) cols).zipIdx.map (fun ci => f ci.1) = (orderBy (·.position) cols).map f := by
    intro β f
    conv => rhs; rw [← List.zipIdx_map_fst 0 (orderBy (·.position) cols), List.map_map]
    rfl
  have hkeys : (workflowColumnsFromExport cols).map (fun c => trimSpace (toLower c.key)) =
      (orderBy (·.position) cols).map (·.key) := by
    rw [workflowColumnsFromExport, List.map_map, ← hzip]
    refine List.map_congr_left fun ci hci => ?_
    have hkey := h.keys ci.1 (mem_orderBy.mp (List.fst_mem_of_mem_zipIdx hci))
    show trimSpace (toLower (toLower (trimSpace ci.1.key))) = ci.1.key
    rw [hkey.1, hkey.toLower_eq, hkey.toLower_eq, hkey.1]
  refine insertWorkflowColumns_of_storable ?_ (fun col hcol => ?_) ?_ ?_ hnew
  · rw [workflowColumnsFromExport, List.length_map, List.length_zipIdx, hperm.length_eq]
    exact h.two
  · obtain ⟨ci, hci, rfl⟩ := List.mem_map.mp hcol
    have hc := mem_orderBy.mp (List.fst_mem_of_mem_zipIdx hci)
    have hkey := h.keys ci.1 hc
    obtain ⟨hblank, hhex⟩ := h.colors ci.1 hc
    refine ⟨?_, ?_, ?_⟩
    · show trimSpace (trimSpace ci.1.name) ≠ ""
      rw [trimSpace_trimSpace]
      exact hcomplete.names ci.1 hc
    · show isValidColumnKey (trimSpace (toLower (toLower (trimSpace ci.1.key)))) = true
      rw [hkey.1, hkey.toLower_eq, hkey.toLower_eq, hkey.1]
      exact hkey.2
    · simp [normalizeWorkflowColumn, hblank, hhex]
  · rw [hkeys]
    exact (hperm.map _).nodup_iff.mpr hcomplete.distinct
  · rw [← hcomplete.done, ← List.countP_eq_length_filter, ← List.countP_eq_length_filter, ← hperm.countP_eq,
      workflowColumnsFromExport, List.countP_map]
    calc ((orderBy (·.position) cols).zipIdx.countP _)
        = ((orderBy (·.position) cols).zipIdx.map (·.1)).countP (·.isDone) := by
          rw [List.countP_map]
          rfl
      _ = (orderBy (·.position) cols).countP (·.isDone) := by rw [List.zipIdx_map_fst]

end

end Scrumboy
