import Scrumboy.Sql.Numbering
import Scrumboy.Store.Projects

/-!
# The shape of workflows

A workflow has one done column, at least two columns, distinct keys and positions
without gaps. Every way of writing a workflow leaves one of that shape: the default
columns, a custom list at the creation of a project, a column before the done one, and
a column that goes.
-/

set_option linter.dupNamespace false

namespace Scrumboy

open Go Sql

structure IsWorkflow (cols : List WorkflowColumn) : Prop where
  done : (cols.filter (·.isDone)).length = 1
  two_le : 2 ≤ cols.length
  keys : (cols.map (·.key)).Nodup
  valid : ∀ c ∈ cols, IsColumnKey c.key
  positions : Numbered (·.position) cols

/-- The lanes of a project, each with whether it is the done one. -/
def DB.lanes (db : DB) (projectID : ℤ) : List (String × Bool) :=
  (db.columnsOf projectID).map fun c => (c.key, c.isDone)

/-- What the shape of a workflow depends on. -/
def WorkflowColumn.shape (c : WorkflowColumn) : String × Bool × ℤ := (c.key, c.isDone, c.position)

section

variable {cols cols' : List WorkflowColumn}

theorem length_filter_isDone_congr (h : cols'.map (·.isDone) = cols.map (·.isDone)) :
    (cols'.filter (·.isDone)).length = (cols.filter (·.isDone)).length := by
  have hcount : ∀ l : List WorkflowColumn,
      (l.filter (·.isDone)).length = ((l.map (·.isDone)).filter id).length := by
    intro l
    rw [List.filter_map, List.length_map]
    rfl
  rw [hcount, h, ← hcount]

theorem isColumnKey_congr (h : cols'.map (·.key) = cols.map (·.key))
    (hvalid : ∀ c ∈ cols, IsColumnKey c.key) : ∀ c ∈ cols', IsColumnKey c.key := by
  intro c hc
  have hmem : c.key ∈ cols.map (·.key) := h ▸ List.mem_map_of_mem hc
  obtain ⟨d, hd, hkey⟩ := List.mem_map.mp hmem
  exact hkey ▸ hvalid d hd

/-- Lanes with the same keys, in new positions. -/
theorem IsWorkflow.reposition (h : IsWorkflow cols) (hkeys : cols'.map (·.key) = cols.map (·.key))
    (hdone : cols'.map (·.isDone) = cols.map (·.isDone)) (hpos : Numbered (·.position) cols') :
    IsWorkflow cols' where
  done := by rw [length_filter_isDone_congr hdone, h.done]
  two_le := by
    have hlen := congrArg List.length hkeys
    rw [List.length_map, List.length_map] at hlen
    exact hlen ▸ h.two_le
  keys := hkeys ▸ h.keys
  valid := isColumnKey_congr hkeys h.valid
  positions := hpos

theorem IsWorkflow.congr (h : IsWorkflow cols)
    (heq : cols'.map WorkflowColumn.shape = cols.map WorkflowColumn.shape) : IsWorkflow cols' := by
  have hkeys : cols'.map (·.key) = cols.map (·.key) := by
    simpa [List.map_map, Function.comp_def, WorkflowColumn.shape] using
      congrArg (List.map Prod.fst) heq
  have hdone : cols'.map (·.isDone) = cols.map (·.isDone) := by
    simpa [List.map_map, Function.comp_def, WorkflowColumn.shape] using
      congrArg (List.map fun s => s.2.1) heq
  have hpos : cols'.map (·.position) = cols.map (·.position) := by
    simpa [List.map_map, Function.comp_def, WorkflowColumn.shape] using
      congrArg (List.map fun s => s.2.2) heq
  exact h.reposition hkeys hdone (h.positions.congr hpos)

end

theorem IsWorkflow.perm {cols cols' : List WorkflowColumn} (h : IsWorkflow cols)
    (hperm : cols'.Perm cols) : IsWorkflow cols' where
  done := by rw [(hperm.filter _).length_eq, h.done]
  two_le := hperm.length_eq ▸ h.two_le
  keys := (hperm.map _).nodup_iff.mpr h.keys
  valid c hc := h.valid c (hperm.mem_iff.mp hc)
  positions := h.positions.perm hperm

theorem isWorkflow_default : IsWorkflow defaultWorkflowColumns where
  done := by decide
  two_le := by decide
  keys := by decide
  valid := isColumnKey_default
  positions := by decide

/-! ## Writing the workflow of one project -/

/-- The project gets a workflow of `n` columns, and the columns of others stay. -/
structure Reshapes (projectID : ℤ) (n : ℕ) (db db' : DB) : Prop where
  ids : (db.columns.map (·.id)).Nodup → (db'.columns.map (·.id)).Nodup
  workflow : IsWorkflow (db'.columnsOf projectID)
  size : (db'.columnsOf projectID).length = n
  other : ∀ q, q ≠ projectID → db'.columnsOf q = db.columnsOf q

section

variable {db db' : DB} {projectID : ℤ}

/-- New columns of a project without columns. -/
theorem columnsOf_append {new : List WorkflowColumn} (hnew : ∀ c ∈ new, c.projectID = projectID)
    (h : db' = { db with columns := db.columns ++ new }) (q : ℤ) :
    db'.columnsOf q = db.columnsOf q ++ if q = projectID then new else [] := by
  subst h
  rw [DB.columnsOf, DB.columnsOf, List.filter_append]
  congr 1
  split
  · rename_i heq
    exact List.filter_eq_self.mpr fun c hc => by simp [hnew c hc, heq]
  · rename_i hne
    exact List.filter_eq_nil_iff.mpr fun c hc => by simp [hnew c hc, Ne.symm hne]

theorem Reshapes.of_append {new cols : List WorkflowColumn} (hempty : db.columnsOf projectID = [])
    (hnew : ∀ c ∈ new, c.projectID = projectID)
    (h : db' = { db with columns := db.columns ++ new })
    (hids : (db.columns.map (·.id)).Nodup → (db'.columns.map (·.id)).Nodup)
    (hshape : new.map WorkflowColumn.shape = cols.map WorkflowColumn.shape)
    (hcols : IsWorkflow cols) : Reshapes projectID cols.length db db' where
  ids := hids
  workflow := by
    rw [columnsOf_append hnew h, hempty, if_pos rfl]
    exact hcols.congr hshape
  size := by
    rw [columnsOf_append hnew h, hempty, if_pos rfl, List.nil_append]
    simpa using congrArg List.length hshape
  other q hq := by rw [columnsOf_append hnew h, if_neg hq, List.append_nil]

/-- A custom list of columns that was accepted. -/
theorem insertWorkflowColumns_reshapes {cols : List WorkflowColumn}
    (hempty : db.columnsOf projectID = []) (h : insertWorkflowColumns db projectID cols = .ok db') :
    Reshapes projectID cols.length db db' := by
  obtain ⟨new, hdb, hnew, hmap, _⟩ := insertWorkflowColumns_spec h
  simp only [insertWorkflowColumns, bind_eq_ok, reject_eq_ok, not_not] at h
  obtain ⟨_, hlen, out, hout, _, hdone, hfold⟩ := h
  obtain ⟨heq, hall, hnodup⟩ := checkWorkflowColumns_spec hout
  have hlength : out.length = cols.length := by simp [heq]
  have hworkflow : IsWorkflow out := by
    refine ⟨hdone, by omega, hnodup, fun c hc => (hall c hc).1, ?_⟩
    rw [heq]
    exact numbered_zipIdx (fun c i => normalizeWorkflowColumn i c) (fun _ _ => rfl) cols
  rw [← hlength]
  refine .of_append hempty (fun c hc => (hnew c hc).1) hdb ?_ ?_ hworkflow
  · intro hids
    rw [foldlM_insertWorkflowColumn hfold]
    exact foldl_appendColumn_columnIDs hids
  · have hshape := congrArg (List.map WorkflowColumn.shape) hmap
    rw [List.map_map, List.map_map] at hshape
    rw [heq, List.map_map]
    exact hshape

/-- Without any of its columns there, the whole default workflow is inserted. -/
theorem foldl_insertOrIgnoreColumn {cols : List WorkflowColumn} (hnodup : (cols.map (·.key)).Nodup)
    (hnew : ∀ col ∈ cols, col.key ∉ db.columnKeys projectID) :
    cols.foldl (insertOrIgnoreColumn projectID) db =
      cols.foldl (fun db col => appendColumn db projectID col) db := by
  induction cols generalizing db with
  | nil => rfl
  | cons col cols ih =>
      rw [List.map_cons, List.nodup_cons] at hnodup
      rw [List.foldl_cons, List.foldl_cons, insertOrIgnoreColumn,
        if_neg (hnew col List.mem_cons_self)]
      refine ih hnodup.2 fun c hc hmem => ?_
      rw [appendColumn_columnKeys, if_pos rfl, List.mem_append, List.mem_singleton] at hmem
      rcases hmem with hmem | heq
      · exact hnew c (List.mem_cons_of_mem _ hc) hmem
      · exact hnodup.1 (List.mem_map.mpr ⟨c, hc, heq⟩)

theorem foldl_defaultColumns_reshapes (hempty : db.columnsOf projectID = []) :
    Reshapes projectID defaultWorkflowColumns.length db
      (defaultWorkflowColumns.foldl (insertOrIgnoreColumn projectID) db) := by
  have hkeys : db.columnKeys projectID = [] := by
    rw [DB.columnKeys, hempty]
    rfl
  rw [foldl_insertOrIgnoreColumn isWorkflow_default.keys (by simp [hkeys])]
  obtain ⟨new, hnew, hpid, hmap⟩ := foldl_appendColumn projectID defaultWorkflowColumns db
  refine .of_append hempty hpid hnew foldl_appendColumn_columnIDs ?_ isWorkflow_default
  have hshape := congrArg (List.map WorkflowColumn.shape) hmap
  rw [List.map_map, List.map_map] at hshape
  exact hshape

/-- The default workflow of a project without columns is always accepted. -/
theorem ensureDefaultWorkflowColumns_eq (hempty : db.columnsOf projectID = []) :
    ensureDefaultWorkflowColumns db projectID =
      .ok (defaultWorkflowColumns.foldl (insertOrIgnoreColumn projectID) db) := by
  have hdone := (foldl_defaultColumns_reshapes hempty).workflow.done
  simp [ensureDefaultWorkflowColumns, validateExactlyOneDoneColumn, hdone]

theorem ensureDefaultWorkflowColumns_reshapes (hempty : db.columnsOf projectID = [])
    (h : ensureDefaultWorkflowColumns db projectID = .ok db') :
    Reshapes projectID defaultWorkflowColumns.length db db' := by
  rw [ensureDefaultWorkflowColumns_eq hempty, Except.ok.injEq] at h
  rw [← h]
  exact foldl_defaultColumns_reshapes hempty

theorem createWorkflow_reshapes {workflow : Option (List WorkflowColumn)}
    (hempty : db.columnsOf projectID = []) (h : createWorkflow db projectID workflow = .ok db') :
    Reshapes projectID ((workflow.map List.length).getD defaultWorkflowColumns.length) db db' := by
  cases workflow with
  | none => exact ensureDefaultWorkflowColumns_reshapes hempty h
  | some cols => exact insertWorkflowColumns_reshapes hempty h

/-! ## Changing a workflow -/

/-- Every project has a workflow, of at most `limit` columns if that is given, and every
column belongs to a project. -/
structure WorkflowInv (limit : Option ℕ) (db : DB) : Prop where
  projects : (db.projects.map (·.id)).Nodup
  ids : (db.columns.map (·.id)).Nodup
  owned : ∀ c ∈ db.columns, c.projectID ∈ db.projects.map (·.id)
  workflow : ∀ q ∈ db.projects.map (·.id), IsWorkflow (db.columnsOf q)
  size : ∀ q ∈ db.projects.map (·.id), ∀ n ∈ limit, (db.columnsOf q).length ≤ n

variable {limit : Option ℕ}

theorem DB.mem_columnsOf {q : ℤ} {c : WorkflowColumn} :
    c ∈ db.columnsOf q ↔ c ∈ db.columns ∧ c.projectID = q := by
  simp [DB.columnsOf]

/-- A project that is not there has no columns. -/
theorem WorkflowInv.columnsOf_eq_nil (h : WorkflowInv limit db) {q : ℤ}
    (hq : q ∉ db.projects.map (·.id)) : db.columnsOf q = [] := by
  rw [List.eq_nil_iff_forall_not_mem]
  intro c hc
  obtain ⟨hmem, hp⟩ := DB.mem_columnsOf.mp hc
  exact hq (hp ▸ h.owned c hmem)

theorem WorkflowInv.reshapes (h : WorkflowInv limit db) {n : ℕ} (hr : Reshapes projectID n db db')
    (hnodup : (db'.projects.map (·.id)).Nodup)
    (hprojects : ∀ q, q ∈ db'.projects.map (·.id) ↔ q ∈ db.projects.map (·.id) ∨ q = projectID)
    (hn : ∀ m ∈ limit, n ≤ m) : WorkflowInv limit db' where
  projects := hnodup
  ids := hr.ids h.ids
  owned c hc := by
    rw [hprojects]
    by_cases hp : c.projectID = projectID
    · exact .inr hp
    · have hmem : c ∈ db'.columnsOf c.projectID := DB.mem_columnsOf.mpr ⟨hc, rfl⟩
      rw [hr.other _ hp] at hmem
      exact .inl (h.owned c (DB.mem_columnsOf.mp hmem).1)
  workflow q hq := by
    by_cases hp : q = projectID
    · exact hp ▸ hr.workflow
    · rw [hr.other q hp]
      exact h.workflow q (((hprojects q).mp hq).resolve_right hp)
  size q hq m hm := by
    by_cases hp : q = projectID
    · rw [hp, hr.size]
      exact hn m hm
    · rw [hr.other q hp]
      exact h.size q (((hprojects q).mp hq).resolve_right hp) m hm

/-- A mutation of a workflow starts from the one that is there. -/
theorem WorkflowInv.workflowForUpdate (h : WorkflowInv limit db) {workflow : List WorkflowColumn}
    {db₁ : DB} (hok : Scrumboy.workflowForUpdate db projectID = .ok (db₁, workflow)) :
    db₁ = db ∧ projectID ∈ db.projects.map (·.id) ∧ workflow.Perm (db.columnsOf projectID) := by
  unfold Scrumboy.workflowForUpdate at hok
  have hperm : (loadWorkflow db projectID).Perm (db.columnsOf projectID) := orderBy_perm _ _
  split at hok
  · rename_i hnil
    simp only [bind_eq_ok, reject_eq_ok, not_not] at hok
    obtain ⟨_, hproject, _⟩ := hok
    have htwo := (h.workflow projectID hproject).two_le
    rw [← hperm.length_eq, hnil] at htwo
    simp at htwo
  · rename_i hne
    rw [pure_eq_ok, Prod.mk.injEq] at hok
    obtain ⟨rfl, rfl⟩ := hok
    refine ⟨rfl, ?_, hperm⟩
    by_contra hproject
    rw [h.columnsOf_eq_nil hproject] at hperm
    exact hne hperm.eq_nil

theorem setColumnPositions_eq (f : ℕ → ℤ) (rows : List WorkflowColumn) (db : DB) :
    setColumnPositions db (rows.zipIdx.map fun p => (p.1.id, f p.2)) = { db with
      columns := renumber (·.id) (fun c n => { c with position := n }) f rows db.columns } := by
  unfold setColumnPositions renumber
  generalize rows.zipIdx.map (fun p => (p.1.id, f p.2)) = ps
  induction ps generalizing db with
  | nil => rfl
  | cons p ps ih => rw [List.foldl_cons, ih, List.foldl_cons]

theorem appendColumn_columnsOf (db : DB) (projectID q : ℤ) (col : WorkflowColumn) :
    (appendColumn db projectID col).columnsOf q = db.columnsOf q ++ if q = projectID then
      [({ col with id := nextRowid (db.columns.map (·.id)), projectID := projectID } : WorkflowColumn)]
        else [] :=
  columnsOf_append (by simp) rfl q

/-- The columns after the rows of a project were renumbered. -/
theorem setColumnPositions_columnsOf (f : ℕ → ℤ) {rows : List WorkflowColumn}
    (hids : (db.columns.map (·.id)).Nodup) (hrows : rows.Perm (db.columnsOf projectID)) :
    (setColumnPositions db (rows.zipIdx.map fun p => (p.1.id, f p.2))).columns.map (·.id) =
        db.columns.map (·.id) ∧
      (∀ q, q ≠ projectID →
        (setColumnPositions db (rows.zipIdx.map fun p => (p.1.id, f p.2))).columnsOf q =
          db.columnsOf q) ∧
      ((setColumnPositions db (rows.zipIdx.map fun p => (p.1.id, f p.2))).columnsOf projectID).Perm
        (rows.zipIdx.map fun p => { p.1 with position := f p.2 }) := by
  rw [setColumnPositions_eq]
  exact renumber_owned (fun (c : WorkflowColumn) n => { c with position := n }) f
    (fun _ _ => rfl) (fun _ _ => rfl) hids hrows

/-- The lanes of a list of columns in other positions. -/
theorem positioned_lanes (f : ℕ → ℤ) (rows : List WorkflowColumn) :
    (rows.zipIdx.map fun p => { p.1 with position := f p.2 }).map (fun c => (c.key, c.isDone)) =
      rows.map fun c => (c.key, c.isDone) := by
  rw [List.map_map, map_eq_zipIdx_map (fun c => (c.key, c.isDone)) rows]
  rfl

/-- The columns of a list, each in the position that `f` gives to its place. -/
theorem positioned_eq (f : ℕ → ℤ) (rows : List WorkflowColumn) :
    (rows.zipIdx.map fun p => { p.1 with position := f p.2 }).map (·.key) = rows.map (·.key) ∧
      (rows.zipIdx.map fun p => { p.1 with position := f p.2 }).map (·.isDone) =
        rows.map (·.isDone) := by
  rw [List.map_map, List.map_map, map_eq_zipIdx_map (·.key) rows, map_eq_zipIdx_map (·.isDone) rows]
  exact ⟨rfl, rfl⟩

/-- A workflow with one lane more before those from the place `d` on. -/
theorem IsWorkflow.insert {cols : List WorkflowColumn} (h : IsWorkflow cols) {d : ℕ}
    (hd : d ≤ cols.length) {col : WorkflowColumn} (hpos : col.position = d) (hkey : IsColumnKey col.key)
    (hnew : col.key ∉ cols.map (·.key)) (hopen : col.isDone = false) :
    IsWorkflow ((cols.zipIdx.map fun p => { p.1 with position := ((shiftAt d p.2 : ℕ) : ℤ) }) ++
      [col]) := by
  obtain ⟨hkeys, hdone⟩ := positioned_eq (fun i => ((shiftAt d i : ℕ) : ℤ)) cols
  refine ⟨?_, ?_, ?_, fun c hc => ?_, ?_⟩
  · rw [List.filter_append, List.filter_singleton, hopen, List.length_append,
      length_filter_isDone_congr hdone, h.done]
    rfl
  · have := h.two_le
    simp
    omega
  · rw [List.map_append, hkeys, List.map_singleton, ← List.concat_eq_append]
    exact List.Nodup.concat hnew h.keys
  · rcases List.mem_append.mp hc with hc | hc
    · exact isColumnKey_congr hkeys h.valid c hc
    · exact List.mem_singleton.mp hc ▸ hkey
  · exact numbered_insert (fun (c : WorkflowColumn) (i : ℕ) => { c with position := (i : ℤ) })
      (fun _ _ => rfl) hd hpos

theorem addWorkflowColumn_reshapes {name : String} {out : DB × WorkflowColumn}
    (hinv : WorkflowInv limit db) (h : addWorkflowColumn db projectID name = .ok out) :
    projectID ∈ db.projects.map (·.id) ∧
      (∃ n ≤ maxWorkflowColumns, Reshapes projectID n db out.1) ∧
      ∃ key, (out.1.lanes projectID).Perm (db.lanes projectID ++ [(key, false)]) := by
  simp only [addWorkflowColumn, bind_eq_ok, pure_eq_ok, mapError_eq_ok, reject_eq_ok] at h
  obtain ⟨_, _, ⟨db₁, workflow⟩, hload, _, hmax, _, _, key, hkey, db₃, hins, _, _, rfl⟩ := h
  obtain ⟨rfl, hproject, hperm⟩ := hinv.workflowForUpdate hload
  have hworkflow := (hinv.workflow projectID hproject).perm hperm
  have hd : workflow.findIdx (·.isDone) ≤ workflow.length := List.findIdx_le_length
  have hshift : ∀ f : WorkflowColumn × ℕ → ℤ × ℤ,
      (∀ c i, f (c, i) = (c.id, if workflow.findIdx (·.isDone) ≤ i then (i : ℤ) + 1 else i)) →
      workflow.zipIdx.map f =
        workflow.zipIdx.map fun p => (p.1.id, ((shiftAt (workflow.findIdx (·.isDone)) p.2 : ℕ) : ℤ)) := by
    intro f hf
    apply List.map_congr_left
    rintro ⟨c, i⟩ _
    rw [hf]
    by_cases hi : workflow.findIdx (·.isDone) ≤ i
    · simp [shiftAt, hi]
    · simp [shiftAt, hi]
  dsimp only at hins hmax ⊢
  rw [hshift _ fun _ _ => rfl] at hins
  obtain ⟨hids, hother, hcols⟩ := setColumnPositions_columnsOf
    (fun i => ((shiftAt (workflow.findIdx (·.isDone)) i : ℕ) : ℤ)) hinv.ids hperm
  generalize setColumnPositions db₁ (workflow.zipIdx.map fun p =>
    (p.1.id, ((shiftAt (workflow.findIdx (·.isDone)) p.2 : ℕ) : ℤ))) = db₂ at hins hids hother hcols
  have hkeys : (db₂.columnKeys projectID).Perm (workflow.map (·.key)) := by
    have hmap := (positioned_eq
      (fun i => ((shiftAt (workflow.findIdx (·.isDone)) i : ℕ) : ℤ)) workflow).1
    exact (hcols.map _).trans (.of_eq hmap)
  have hnew : key ∉ workflow.map (·.key) := by
    rw [← hkeys.mem_iff]
    intro hmem
    simp [insertWorkflowColumn, hmem] at hins
  obtain rfl := insertWorkflowColumn_eq_ok hins
  have hcol : IsColumnKey key :=
    isColumnKey_uniqueWorkflowKey (keyChars_workflowKeyFromName _) hkey
  refine ⟨hproject, ⟨workflow.length + 1, by omega, fun hnodup => ?_, ?_, ?_, fun q hq => ?_⟩,
    key, ?_⟩
  · simpa [appendColumn] using nodup_concat_nextRowid (hids ▸ hnodup)
  · rw [appendColumn_columnsOf, if_pos rfl]
    exact (hworkflow.insert hd rfl hcol hnew rfl).perm (hcols.append_right _)
  · rw [appendColumn_columnsOf, if_pos rfl, List.length_append, hcols.length_eq]
    simp
  · rw [appendColumn_columnsOf, if_neg hq, List.append_nil, hother q hq]
  · have hlanes := hcols.map fun c => (c.key, c.isDone)
    rw [positioned_lanes fun i => ((shiftAt (workflow.findIdx (·.isDone)) i : ℕ) : ℤ)] at hlanes
    rw [DB.lanes, appendColumn_columnsOf, if_pos rfl, List.map_append]
    exact (hlanes.trans (hperm.map _)).append_right _

/-- A workflow without one of its open lanes. -/
theorem IsWorkflow.erase {target : WorkflowColumn} {rest : List WorkflowColumn}
    (h : IsWorkflow (target :: rest)) (hopen : target.isDone = false) (hlen : 2 ≤ rest.length) :
    IsWorkflow (rest.zipIdx.map fun p => { p.1 with position := (p.2 : ℤ) }) := by
  obtain ⟨hkeys, hdone⟩ := positioned_eq (fun i => (i : ℤ)) rest
  refine ⟨?_, by simpa using hlen, ?_, isColumnKey_congr hkeys fun c hc => ?_, ?_⟩
  · have hcount := h.done
    rw [List.filter_cons, hopen] at hcount
    rw [length_filter_isDone_congr hdone]
    exact hcount
  · have hnodup := h.keys
    rw [List.map_cons, List.nodup_cons] at hnodup
    exact hkeys ▸ hnodup.2
  · exact h.valid c (List.mem_cons_of_mem _ hc)
  · refine numbered_zipIdx (fun (c : WorkflowColumn) (i : ℕ) => { c with position := (i : ℤ) })
      (fun _ _ => ?_) rest
    rfl

/-- The lane that goes is not the done one, and there are more than two. -/
theorem deleteWorkflowColumn_reshapes {key : String} (hinv : WorkflowInv limit db)
    (h : deleteWorkflowColumn db projectID key = .ok db') :
    projectID ∈ db.projects.map (·.id) ∧
      (∃ n < (db.columnsOf projectID).length, Reshapes projectID n db db') ∧
      ∃ key, (db.lanes projectID).Perm ((key, false) :: db'.lanes projectID) := by
  simp only [deleteWorkflowColumn, bind_eq_ok, reject_eq_ok] at h
  obtain ⟨_, _, ⟨db₁, workflow⟩, hload, h⟩ := h
  obtain ⟨rfl, hproject, hperm⟩ := hinv.workflowForUpdate hload
  have hworkflow := (hinv.workflow projectID hproject).perm hperm
  split at h
  · rename_i target hfind
    simp only [bind_eq_ok, reject_eq_ok, pure_eq_ok] at h
    obtain ⟨_, hopen, _, htwo, _, _, _, _, rfl⟩ := h
    dsimp only at hfind htwo ⊢
    generalize hrest : workflow.eraseP (·.key == trimSpace key) = rest
    have hcons : workflow.Perm (target :: rest) := hrest ▸ find?_cons_eraseP_perm hfind
    have hlen := hcons.length_eq
    rw [List.length_cons] at hlen
    have hdelete := delete_owned_perm hinv.ids (hperm.symm.trans hcons)
    have hids₂ : (List.map WorkflowColumn.id (DB.columns { db₁ with
        columns := deleteWhere (fun c => c.id == target.id) db₁.columns })).Nodup :=
      hinv.ids.sublist (List.filter_sublist.map _)
    obtain ⟨hids, hother, hcols⟩ := setColumnPositions_columnsOf (fun i => (i : ℤ)) hids₂
      hdelete.symm
    have hopen : target.isDone = false := by simpa using hopen
    refine ⟨hproject, ⟨rest.length, ?_, fun _ => hids ▸ hids₂, ?_, ?_, fun q hq => ?_⟩, target.key, ?_⟩
    · rw [← hperm.length_eq]
      omega
    · exact ((hworkflow.perm hcons.symm).erase hopen (by omega)).perm hcols
    · rw [hcols.length_eq]
      simp
    · refine (hother q hq).trans (delete_owned_eq hinv.ids ?_ hq)
      exact (hperm.symm.trans hcons).mem_iff.mpr List.mem_cons_self
    · have hlanes := hcols.map fun c => (c.key, c.isDone)
      rw [positioned_lanes fun i => (i : ℤ)] at hlanes
      refine (((hperm.symm.trans hcons).map _).trans ?_)
      rw [List.map_cons, hopen]
      exact hlanes.symm.cons _
  · cases h

/-! ## New projects -/

theorem Reshapes.congr {n : ℕ} {db₁ db₁' : DB} (h : Reshapes projectID n db₁ db₁') (hcolumns : db₁.columns = db.columns)
    (hcolumns' : db'.columns = db₁'.columns) : Reshapes projectID n db db' where
  ids hnodup := hcolumns' ▸ h.ids (hcolumns ▸ hnodup)
  workflow := by
    rw [DB.columnsOf, hcolumns']
    exact h.workflow
  size := by
    rw [DB.columnsOf, hcolumns']
    exact h.size
  other q hq := by
    rw [DB.columnsOf, hcolumns']
    refine (h.other q hq).trans ?_
    rw [DB.columnsOf, hcolumns, DB.columnsOf]

/-- A new project gets a workflow of its own or the default one. -/
theorem createProjectWithWorkflow_reshapes (h : WorkflowInv limit db) {ctx : Ctx} {name : String}
    {workflow : Option (List WorkflowColumn)} {id : ℤ}
    (hok : createProjectWithWorkflow ctx db name workflow = .ok (db', id)) :
    id ∉ db.projects.map (·.id) ∧
      Reshapes id ((workflow.map List.length).getD defaultWorkflowColumns.length) db db' ∧
      db'.projects.map (·.id) = db.projects.map (·.id) ++ [id] := by
  obtain ⟨⟨_, _, _, _, hdb⟩, _⟩ := createProjectWithWorkflow_spec hok
  simp only [createProjectWithWorkflow, bind_eq_ok, pure_eq_ok, Prod.mk.injEq] at hok
  obtain ⟨_, _, owner, _, base, _, slug, _, db₂, hworkflow, hprio, hid⟩ := hok
  have hfresh := nextRowid_not_mem (db.projects.map (·.id))
  obtain ⟨members, hmembers⟩ := insertOwner_eq
    (appendProject db (newProjectRow ctx.nowMs (trimSpace name) slug owner)).1
    (appendProject db (newProjectRow ctx.nowMs (trimSpace name) slug owner)).2 ctx.nowMs owner
  rw [hmembers] at hworkflow
  have hcolumns : db'.columns = db₂.columns := by
    rw [← hprio]
    exact (ensureDefaultPriorityTiers_prioritiesOnly _ _).columns
  have hempty := h.columnsOf_eq_nil hfresh
  rw [← hid]
  refine ⟨hfresh, (createWorkflow_reshapes (by exact hempty) hworkflow).congr rfl hcolumns, ?_⟩
  dsimp only at hdb
  rw [hdb, List.map_append, List.map_singleton]
  rfl

end

end Scrumboy
