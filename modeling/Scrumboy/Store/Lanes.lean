import Scrumboy.Store.Requests

/-!
# Lanes

A todo is in a lane of its project when its column key is the key of a column of
the project. The schema does not ask for this, and every operation on todos and on
columns has to see to it. What the schema does ask for, the keys of the tables
involved, is carried along.
-/

set_option linter.dupNamespace false

namespace Scrumboy

open Go Sql

/-- What a todo keeps for life. -/
structure TodoKey where
  id : ℤ
  projectID : ℤ
  localID : ℤ
  deriving DecidableEq, Repr

def TodoRow.key (t : TodoRow) : TodoKey := ⟨t.id, t.projectID, t.localID⟩

def DB.todoKeys (db : DB) : List TodoKey := db.todos.map TodoRow.key

/-- The keys of the table of todos, and its reference to projects. -/
structure TodoTable (db : DB) : Prop where
  ids : (db.todos.map (·.id)).Nodup
  localIDs : (db.todos.map fun t => (t.projectID, t.localID)).Nodup
  project : ∀ t ∈ db.todos, t.projectID ∈ db.projects.map (·.id)

/-- Every todo, archived or not, is in a lane of its project. -/
structure LaneInv (db : DB) : Prop where
  projects : (db.projects.map (·.id)).Nodup
  columns : ColumnTable db.columns
  todos : TodoTable db
  lane : ∀ t ∈ db.todos, t.columnKey ∈ db.columnKeys t.projectID

section

variable {db db' : DB}

/-- A change that keeps the todos and the projects, whatever it does to their other
columns. -/
theorem TodoTable.congr (h : TodoTable db) (hkeys : db'.todoKeys = db.todoKeys)
    (hprojects : ∀ id ∈ db.projects.map (·.id), id ∈ db'.projects.map (·.id)) : TodoTable db' := by
  have hmap : ∀ {β : Type} (f : TodoKey → β),
      db'.todos.map (fun t => f t.key) = db.todos.map fun t => f t.key := by
    intro β f
    have hf := congrArg (List.map f) hkeys
    simpa only [DB.todoKeys, List.map_map, Function.comp_def] using hf
  refine ⟨hmap (·.id) ▸ h.ids, hmap (fun k => (k.projectID, k.localID)) ▸ h.localIDs, ?_⟩
  intro t ht
  have hmem : t.projectID ∈ db.todos.map (·.projectID) :=
    hmap (·.projectID) ▸ List.mem_map_of_mem ht
  obtain ⟨u, hu, heq⟩ := List.mem_map.mp hmem
  exact hprojects _ (heq ▸ h.project u hu)

/-- A new todo under the next id and a free local id. -/
theorem TodoTable.concat (h : TodoTable db) {u : TodoRow} (hid : u.id = nextRowid (db.todos.map (·.id)))
    (hfree : ∀ t ∈ db.todos, t.projectID = u.projectID → t.localID ≠ u.localID)
    (hproject : u.projectID ∈ db.projects.map (·.id)) (htodos : db'.todos = db.todos ++ [u])
    (hprojects : db'.projects.map (·.id) = db.projects.map (·.id)) : TodoTable db' where
  ids := by
    rw [htodos, List.map_append, List.map_singleton, hid]
    exact nodup_concat_nextRowid h.ids
  localIDs := by
    rw [htodos, List.map_append, List.map_singleton, List.nodup_append]
    refine ⟨h.localIDs, List.nodup_singleton _, fun k hk k' hk' => ?_⟩
    obtain ⟨t, ht, rfl⟩ := List.mem_map.mp hk
    rw [List.mem_singleton.mp hk']
    intro heq
    obtain ⟨hp, hl⟩ := Prod.mk.inj heq
    exact hfree t ht hp hl
  project t ht := by
    rw [hprojects]
    rcases List.mem_append.mp (htodos ▸ ht) with ht | ht
    · exact h.project t ht
    · exact List.mem_singleton.mp ht ▸ hproject

/-- Todos that are deleted, together with projects that no other todo is in. -/
theorem TodoTable.sublist (h : TodoTable db) (hsub : db'.todos.Sublist db.todos)
    (hprojects : ∀ t ∈ db'.todos, t.projectID ∈ db'.projects.map (·.id)) : TodoTable db' where
  ids := h.ids.sublist (hsub.map _)
  localIDs := h.localIDs.sublist (hsub.map _)
  project := hprojects

theorem TodoTable.eq_of_localID (h : TodoTable db) {t u : TodoRow} (ht : t ∈ db.todos)
    (hu : u ∈ db.todos) (hp : t.projectID = u.projectID) (hl : t.localID = u.localID) : t = u :=
  List.inj_on_of_nodup_map h.localIDs ht hu (Prod.ext hp hl)

theorem TodoTable.eq_of_id (h : TodoTable db) {t u : TodoRow} (ht : t ∈ db.todos)
    (hu : u ∈ db.todos) (hid : t.id = u.id) : t = u :=
  List.inj_on_of_nodup_map h.ids ht hu hid

end

theorem keepsKeys_of_eq {db db' : DB} (h : db'.columns = db.columns) : KeepsKeys db db' := by
  intro projectID k hk
  simpa only [DB.columnKeys, DB.columnsOf, h] using hk

/-! ## Requests -/

/-- The ids of projects survive when their activity is recorded. -/
theorem projectIDs_of_quiet {ps ps' : List ProjectRow}
    (h : ps'.map ProjectRow.quiet = ps.map ProjectRow.quiet) : ps'.map (·.id) = ps.map (·.id) := by
  have hids := congrArg (List.map ProjectRow.id) h
  simpa only [List.map_map, Function.comp_def, ProjectRow.quiet] using hids

section

variable {rt : Runtime} {ctx : Ctx} {db db' : DB}

theorem SideTables.columns_eq (h : SideTables db db') : db'.columns = db.columns := by
  rw [h]

theorem TodoTable.createTodo (h : TodoTable db) {projectID : ℤ} {input : CreateTodoInput}
    {out : DB × Todo} (hok : Scrumboy.createTodo rt ctx db projectID input = .ok out) :
    TodoTable out.1 := by
  obtain ⟨db₁, rank, hrank, hrow, htodos, _, hquiet⟩ := createTodo_spec hok
  obtain ⟨r, rfl⟩ := computeNewRank_ranksOnly hrank
  have h₁ : TodoTable (db.withRanks r) := by
    refine h.congr ?_ fun _ hid => hid
    simp [DB.todoKeys, TodoRow.key, DB.withRanks, Function.comp_def]
  refine h₁.concat ?_ ?_ ?_ htodos (projectIDs_of_quiet hquiet)
  · simpa [DB.withRanks, Function.comp_def] using hrow.id_eq
  · intro t ht hp
    obtain ⟨u, hu, rfl⟩ := List.mem_map.mp ht
    exact hrow.localID_free u hu (hp.trans hrow.projectID_eq)
  · exact hrow.projectID_eq ▸ hrow.project_mem

theorem TodoTable.moveTodo (h : TodoTable db) {todoID : ℤ} {toColumnKey : String}
    {afterID beforeID : Option ℤ} {out : DB × TodoRow}
    (hok : Scrumboy.moveTodo ctx db todoID toColumnKey afterID beforeID = .ok out) :
    TodoTable out.1 := by
  obtain ⟨existing, db₁, rank, doneAt, _, _, _, hrank, _, htodos, _, hquiet⟩ := moveTodo_spec hok
  obtain ⟨r, rfl⟩ := computeNewRank_ranksOnly hrank
  refine h.congr ?_ fun id hid => projectIDs_of_quiet hquiet ▸ hid
  rw [DB.todoKeys, htodos, map_updateWhere]
  · simp [DB.todoKeys, TodoRow.key, DB.withRanks, Function.comp_def]
  · intro t
    rfl

/-- A batch of archivals keeps what the columns other than `archived_at` hold. -/
theorem archiveTodosByLocalID_map {β : Type} {projectID : ℤ} {ids : List ℤ} {archive : Bool}
    {out : DB × TodoArchiveBatchResult}
    (hok : archiveTodosByLocalID ctx db projectID ids archive = .ok out) (f : TodoRow → β)
    (hf : ∀ t, f { t with archivedAt := none } = f t) : out.1.todos.map f = db.todos.map f := by
  have hmap := congrArg (List.map f) (archiveTodosByLocalID_spec hok).2.1
  simpa only [List.map_map, Function.comp_def, hf] using hmap

theorem TodoTable.exec (h : TodoTable db) {r : Request} (hok : r.exec rt ctx db = .ok db') :
    TodoTable db' := by
  cases r with
  | createProject name workflow =>
      obtain ⟨out, hout, rfl⟩ := map_eq_ok.mp hok
      obtain ⟨⟨_, _, _, _, heq⟩, _⟩ := createProjectWithWorkflow_spec hout
      rw [heq]
      refine h.congr rfl fun id hid => ?_
      rw [List.map_append]
      exact List.mem_append_left _ hid
  | addWorkflowColumn projectID name =>
      obtain ⟨out, hout, rfl⟩ := map_eq_ok.mp hok
      rw [(addWorkflowColumn_spec hout).1]
      exact h.congr rfl fun _ hid => hid
  | deleteWorkflowColumn projectID key =>
      rw [deleteWorkflowColumn_columnsOnly hok]
      exact h.congr rfl fun _ hid => hid
  | createTodo projectID input =>
      obtain ⟨out, hout, rfl⟩ := map_eq_ok.mp hok
      exact h.createTodo hout
  | moveTodo todoID toColumnKey afterID beforeID =>
      obtain ⟨out, hout, rfl⟩ := map_eq_ok.mp hok
      exact h.moveTodo hout
  | deleteTodo todoID =>
      obtain ⟨t, _, _, ⟨_, _, _, rfl, hquiet⟩, _⟩ := deleteTodo_spec hok
      refine h.sublist List.filter_sublist fun u hu => ?_
      rw [projectIDs_of_quiet hquiet]
      exact h.project u (mem_deleteWhere.mp hu).1
  | archiveTodos projectID ids archive =>
      obtain ⟨out, hout, rfl⟩ := map_eq_ok.mp hok
      refine h.congr (archiveTodosByLocalID_map hout _ fun _ => rfl) fun id hid => ?_
      rw [projectIDs_of_quiet (archiveTodosByLocalID_spec hout).2.2]
      exact hid
  | _ =>
      obtain ⟨_, _, rfl⟩ := (Request.exec_wallOnly rfl rfl hok).exists_eq
      exact h.congr rfl fun _ hid => hid

/-- A todo is in a lane after a change that keeps the todos of every lane. -/
theorem LaneInv.mono (h : LaneInv db) (hprojects : (db'.projects.map (·.id)).Nodup)
    (hcols : ColumnTable db'.columns) (htodos : TodoTable db') (hkeys : KeepsKeys db db')
    (hrows : ∀ t ∈ db'.todos, (∃ u ∈ db.todos, u.projectID = t.projectID ∧ u.columnKey = t.columnKey) ∨
      t.columnKey ∈ db.columnKeys t.projectID) : LaneInv db' := by
  refine ⟨hprojects, hcols, htodos, fun t ht => hkeys _ _ ?_⟩
  rcases hrows t ht with ⟨u, hu, hp, hk⟩ | hmem
  · exact hp ▸ hk ▸ h.lane u hu
  · exact hmem

/-- The ids of projects stay distinct. -/
theorem Request.exec_projectIDs {r : Request} (h : (db.projects.map (·.id)).Nodup)
    (hok : r.exec rt ctx db = .ok db') : (db'.projects.map (·.id)).Nodup := by
  cases r with
  | createProject name workflow =>
      obtain ⟨out, hout, rfl⟩ := map_eq_ok.mp hok
      obtain ⟨⟨_, _, _, _, heq⟩, _⟩ := createProjectWithWorkflow_spec hout
      rw [heq, List.map_append]
      exact nodup_concat_nextRowid h
  | addWorkflowColumn projectID name =>
      obtain ⟨out, hout, rfl⟩ := map_eq_ok.mp hok
      rw [(addWorkflowColumn_spec hout).1]
      exact h
  | deleteWorkflowColumn projectID key =>
      rw [deleteWorkflowColumn_columnsOnly hok]
      exact h
  | createTodo projectID input =>
      obtain ⟨out, hout, rfl⟩ := map_eq_ok.mp hok
      obtain ⟨_, _, _, _, _, _, hquiet⟩ := createTodo_spec hout
      exact projectIDs_of_quiet hquiet ▸ h
  | moveTodo todoID toColumnKey afterID beforeID =>
      obtain ⟨out, hout, rfl⟩ := map_eq_ok.mp hok
      obtain ⟨_, _, _, _, _, _, _, _, _, _, _, hquiet⟩ := moveTodo_spec hout
      exact projectIDs_of_quiet hquiet ▸ h
  | deleteTodo todoID =>
      obtain ⟨_, _, _, ⟨_, _, _, rfl, hquiet⟩, _⟩ := deleteTodo_spec hok
      exact projectIDs_of_quiet hquiet ▸ h
  | archiveTodos projectID ids archive =>
      obtain ⟨out, hout, rfl⟩ := map_eq_ok.mp hok
      exact projectIDs_of_quiet (archiveTodosByLocalID_spec hout).2.2 ▸ h
  | _ =>
      obtain ⟨_, _, rfl⟩ := (Request.exec_wallOnly rfl rfl hok).exists_eq
      exact h

/-- Every request keeps every todo in a lane. -/
theorem LaneInv.exec (h : LaneInv db) {r : Request} (hok : r.exec rt ctx db = .ok db') :
    LaneInv db' := by
  have hprojects := Request.exec_projectIDs h.projects hok
  have htodos := h.todos.exec hok
  cases r with
  | createProject name workflow =>
      obtain ⟨out, hout, rfl⟩ := map_eq_ok.mp hok
      obtain ⟨⟨_, _, _, _, heq⟩, hcols, hkeys⟩ := createProjectWithWorkflow_spec hout
      refine h.mono hprojects (hcols h.columns) htodos hkeys fun t ht => .inl ⟨t, ?_, rfl, rfl⟩
      rw [heq] at ht
      exact ht
  | addWorkflowColumn projectID name =>
      obtain ⟨out, hout, rfl⟩ := map_eq_ok.mp hok
      obtain ⟨htables, hcols, hkeys⟩ := addWorkflowColumn_spec hout
      refine h.mono hprojects (hcols h.columns) htodos hkeys fun t ht => .inl ⟨t, ?_, rfl, rfl⟩
      rw [htables] at ht
      exact ht
  | deleteWorkflowColumn projectID key =>
      obtain ⟨htables, hcols, hlanes⟩ := deleteWorkflowColumn_spec h.columns hok
      refine ⟨hprojects, hcols, htodos, fun t ht => ?_⟩
      rw [htables] at ht
      exact hlanes t ht (h.lane t ht)
  | createTodo projectID input =>
      obtain ⟨out, hout, rfl⟩ := map_eq_ok.mp hok
      obtain ⟨db₁, rank, hrank, hrow, hrows, hside, _⟩ := createTodo_spec hout
      obtain ⟨r, rfl⟩ := computeNewRank_ranksOnly hrank
      have hcols : out.1.columns = db.columns := hside.columns_eq
      refine h.mono hprojects (hcols ▸ h.columns) htodos (keepsKeys_of_eq hcols) fun t ht => ?_
      rcases List.mem_append.mp (hrows ▸ ht) with ht | ht
      · obtain ⟨u, hu, rfl⟩ := List.mem_map.mp ht
        exact .inl ⟨u, hu, rfl, rfl⟩
      · rw [List.mem_singleton.mp ht, hrow.projectID_eq, hrow.columnKey_eq]
        exact .inr hrow.lane_mem
  | moveTodo todoID toColumnKey afterID beforeID =>
      obtain ⟨out, hout, rfl⟩ := map_eq_ok.mp hok
      obtain ⟨existing, db₁, rank, doneAt, ⟨hmem, hid, _⟩, hlane, _, hrank, _, hrows, hside, _⟩ :=
        moveTodo_spec hout
      obtain ⟨r, rfl⟩ := computeNewRank_ranksOnly hrank
      have hcols : out.1.columns = db.columns := hside.columns_eq
      refine h.mono hprojects (hcols ▸ h.columns) htodos (keepsKeys_of_eq hcols) fun t ht => ?_
      rw [hrows, mem_updateWhere] at ht
      obtain ⟨u, hu, rfl⟩ := ht
      obtain ⟨v, hv, rfl⟩ := List.mem_map.mp hu
      split
      · -- The row with this id is the todo whose project was asked for the column.
        rename_i heq
        have hv : v = existing := h.todos.eq_of_id hv hmem (by simpa [hid] using heq)
        exact .inr (hv ▸ hlane)
      · exact .inl ⟨v, hv, rfl, rfl⟩
  | deleteTodo todoID =>
      obtain ⟨t, _, _, ⟨_, _, _, rfl, _⟩, _⟩ := deleteTodo_spec hok
      exact h.mono hprojects h.columns htodos (.refl db) fun u hu =>
        .inl ⟨u, (mem_deleteWhere.mp hu).1, rfl, rfl⟩
  | archiveTodos projectID ids archive =>
      obtain ⟨out, hout, rfl⟩ := map_eq_ok.mp hok
      obtain ⟨hside, _, _⟩ := archiveTodosByLocalID_spec hout
      have hcols : out.1.columns = db.columns := hside.columns_eq
      refine h.mono hprojects (hcols ▸ h.columns) htodos (keepsKeys_of_eq hcols) fun t ht => ?_
      have hmem : (t.projectID, t.columnKey) ∈ db.todos.map fun t => (t.projectID, t.columnKey) :=
        archiveTodosByLocalID_map hout (fun t => (t.projectID, t.columnKey)) (fun _ => rfl) ▸
          List.mem_map_of_mem ht
      obtain ⟨u, hu, heq⟩ := List.mem_map.mp hmem
      exact .inl ⟨u, hu, Prod.mk.inj heq⟩
  | _ =>
      obtain ⟨_, _, rfl⟩ := (Request.exec_wallOnly rfl rfl hok).exists_eq
      exact ⟨hprojects, h.columns, htodos, h.lane⟩

end

end Scrumboy
