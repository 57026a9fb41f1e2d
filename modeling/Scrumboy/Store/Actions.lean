import Scrumboy.Store.Lanes
import Scrumboy.Store.Memberships
import Scrumboy.Store.Reminders

/-!
# Actions on todos

Everything that users and workers do to the todos of a store, as the inputs of one
transition system: the requests, edits and links, changes of memberships and of
priority tiers, and claims of reminders. `TodosStep` says once what an action can do to
the table of todos, row by row; the invariants of runs are read off it.
-/

set_option linter.dupNamespace false

namespace Scrumboy

open Go Sql

inductive Action
  | request (r : Request)
  | updateTodo (todoID : ℤ) (input : UpdateTodoInput)
  | addLink (projectID fromLocalID toLocalID : ℤ) (linkType : String)
  | removeLink (projectID fromLocalID toLocalID : ℤ)
  | addMember (requesterID projectID targetUserID : ℤ) (role : ProjectRole)
  | changeMember (req : MemberRequest)
  | addPriorityTier (projectID : ℤ) (name : String)
  | deletePriorityTier (projectID : ℤ) (key : String)
  | claimDueReminders (setting : String) (limit : ℤ)

def Action.exec (rt : Runtime) (ctx : Ctx) (db : DB) : Action → Result DB
  | .request r => r.exec rt ctx db
  | .updateTodo todoID input => (·.1) <$> Scrumboy.updateTodo rt ctx db todoID input
  | .addLink projectID fromLocalID toLocalID linkType =>
      Scrumboy.addLink ctx db projectID fromLocalID toLocalID linkType
  | .removeLink projectID fromLocalID toLocalID =>
      Scrumboy.removeLink ctx db projectID fromLocalID toLocalID
  | .addMember requesterID projectID targetUserID role =>
      addProjectMember ctx db requesterID projectID targetUserID role
  | .changeMember req => req.exec db
  | .addPriorityTier projectID name => Scrumboy.addPriorityTier db projectID name
  | .deletePriorityTier projectID key => Scrumboy.deletePriorityTier db projectID key
  | .claimDueReminders setting limit =>
      (·.1) <$> Scrumboy.claimDueReminders rt ctx db setting limit

/-- An action as a transition: one that fails changes nothing. -/
def act (rt : Runtime) (db : DB) (a : Ctx × Action) : DB :=
  (a.2.exec rt a.1 db).toOption.getD db

/-! ## What an action does to a row -/

/-- How an action changes a todo that stays. -/
inductive RowStep (ctx : Ctx) (db : DB) (t : TodoRow) : TodoRow → Prop
  | ranked (rank : ℤ) : RowStep ctx db t { t with rank := rank }
  | moved (rank : ℤ) (current target : WorkflowColumn) (hactive : t.archivedAt = none)
      (hcurrent : validateProjectColumnKey db t.projectID t.columnKey = .ok current)
      (htarget : validateProjectColumnKey db t.projectID target.key = .ok target) :
      RowStep ctx db t (t.moved target.key rank ctx.nowMs
        (resolveDoneAtForColumnTransition current.isDone target.isDone ctx.nowMs))
  | archived (ms : Option ℤ) (hchange : t.archivedAt.isSome ≠ ms.isSome) :
      RowStep ctx db t { t with archivedAt := ms }
  | body (text : String) : RowStep ctx db t (t.withBody text ctx.nowMs)
  | edited (p : ProjectRow) (input : UpdateTodoInput) (hinput : FullEdit ctx db p t input) :
      RowStep ctx db t (TodoRow.edited input t ctx.nowMs t)
  | unassigned : RowStep ctx db t { t with assigneeUserID := none }
  | reminded (hpending : t.isPending = true) : RowStep ctx db t (t.markReminded ctx.nowMs)

/-- A todo that an action creates. -/
structure NewTodo (ctx : Ctx) (db : DB) (t : TodoRow) : Prop where
  id_eq : t.id = nextRowid (db.todos.map (·.id))
  project_mem : t.projectID ∈ db.projects.map (·.id)
  localID_eq : t.localID = nextLocalID db t.projectID
  localID_free : ∀ u ∈ db.todos, u.projectID = t.projectID → u.localID ≠ t.localID
  column : ∃ target, validateProjectColumnKey db t.projectID t.columnKey = .ok target ∧
    t.doneAt = resolveDoneAtForColumnTransition false target.isDone ctx.nowMs
  assignee : ∀ a ∈ t.assigneeUserID, getProjectRole db t.projectID a ≠ none
  priority : ∀ key ∈ t.priorityKey, key ∈ db.priorityKeys t.projectID
  active : t.archivedAt = none
  unreminded : t.dueRemindedAt = none

/-- What an action does to the table of todos: it changes rows in place, or adds a row,
or deletes the row of an id. -/
inductive TodosStep (ctx : Ctx) (db : DB) (a : Action) (todos : List TodoRow) : Prop
  | changed (f : TodoRow → TodoRow) (hf : ∀ t ∈ db.todos, RowStep ctx db t (f t))
      (htodos : todos = db.todos.map f)
  | created (r : TodoRow → ℤ) (row : TodoRow) (hrow : NewTodo ctx db row)
      (htodos : todos = db.todos.map (fun t => { t with rank := r t }) ++ [row])
  | deleted (todoID : ℤ) (ha : a = .request (.deleteTodo todoID))
      (htodos : todos = deleteWhere (·.id == todoID) db.todos)

section

variable {rt : Runtime} {ctx : Ctx} {db db' : DB}

theorem RowStep.refl (t : TodoRow) : RowStep ctx db t t := .ranked t.rank

theorem RowStep.key_eq {t t' : TodoRow} (h : RowStep ctx db t t') : t'.key = t.key := by
  cases h <;> rfl

theorem TodosStep.of_eq {a : Action} (h : db'.todos = db.todos) : TodosStep ctx db a db'.todos :=
  .changed id (fun t _ => .refl t) (by simpa using h)

theorem TodosStep.of_updateWhere {a : Action} {p : TodoRow → Bool} {f : TodoRow → TodoRow}
    (hf : ∀ t ∈ db.todos, p t = true → RowStep ctx db t (f t))
    (h : db'.todos = updateWhere p f db.todos) : TodosStep ctx db a db'.todos := by
  refine .changed (fun t => if p t then f t else t) (fun t ht => ?_) h
  split
  · rename_i hp
    exact hf t ht hp
  · exact .refl t

theorem checkAssignee_eq_ok {p : ProjectRow} {assignee : Option ℤ}
    (h : checkAssignee ctx db p assignee = .ok ()) :
    ∀ a ∈ assignee, getProjectRole db p.id a ≠ none := by
  rintro a rfl
  simp only [checkAssignee] at h
  split at h
  · cases h
  · split at h
    · cases h
    · simp only [bind_eq_ok, reject_eq_ok] at h
      obtain ⟨_, _, _, _, _, _, _, hmember, _⟩ := h
      exact hmember

theorem createTodo_newTodo {projectID : ℤ} {input : CreateTodoInput} {todo : Todo}
    (h : createTodo rt ctx db projectID input = .ok (db', todo)) : NewTodo ctx db todo.row := by
  obtain ⟨_, _, _, hnew, _⟩ := createTodo_spec h
  simp only [createTodo, bind_eq_ok, pure_eq_ok, Prod.mk.injEq] at h
  obtain ⟨tags, _, p, hp, _, _, _, hassignee, ⟨tags', userID⟩, _, col, hcol, _, hpriority,
    ⟨db₁, rank⟩, _, _, _, ⟨db₂, row⟩, hins, _, _, _, _, _, rfl⟩ := h
  obtain ⟨_, hpid, _⟩ := getProject_eq_ok (getProjectForWrite_eq_ok hp)
  obtain ⟨_, rfl, _⟩ := insertTodo_eq_ok hins
  exact
    { id_eq := hnew.id_eq
      project_mem := hnew.project_mem
      localID_eq := rfl
      localID_free := hnew.localID_free
      column := ⟨col, hcol, rfl⟩
      assignee := hpid ▸ checkAssignee_eq_ok hassignee
      priority := checkPriority_eq_ok hpriority
      active := rfl
      unreminded := rfl }

/-- The rows after a move: the moved one has the done date of its transition. -/
theorem moveTodo_todos {todoID : ℤ} {toColumnKey : String} {afterID beforeID : Option ℤ}
    {row : TodoRow} (h : moveTodo ctx db todoID toColumnKey afterID beforeID = .ok (db', row)) :
    ∃ existing current target r rank, getTodo db todoID = .ok existing ∧
      existing.archivedAt = none ∧
      validateProjectColumnKey db existing.projectID existing.columnKey = .ok current ∧
      validateProjectColumnKey db existing.projectID toColumnKey = .ok target ∧
      db'.todos = updateWhere (·.id == todoID) (.moved toColumnKey rank ctx.nowMs
        (resolveDoneAtForColumnTransition current.isDone target.isDone ctx.nowMs))
        (db.withRanks r).todos := by
  simp only [moveTodo, bind_eq_ok, reject_eq_ok, pure_eq_ok, Prod.mk.injEq, not_not] at h
  obtain ⟨_, _, _, _, existing, hget, p, _, _, _, _, hactive, target, htarget, current, hcurrent,
    ⟨db₁, rank⟩, hrank, hdb, _⟩ := h
  obtain ⟨r, rfl⟩ := computeNewRank_ranksOnly hrank
  obtain ⟨_, rfl⟩ := (ActivityOnly.of_touch hdb).exists_eq
  exact ⟨existing, current, target, r, rank, hget, hactive, hcurrent, htarget, rfl⟩

/-- A batch of archivals is one pass over the table. -/
theorem foldl_setArchived (nowMs : ℤ) (archive : Bool) (ids : List ℤ) (todos : List TodoRow) :
    ids.foldl (setArchived nowMs archive) todos =
      updateWhere (fun t => decide (t.id ∈ ids) && t.archivedAt.isSome != archive)
        (fun t => { t with archivedAt := if archive then some nowMs else none }) todos := by
  induction ids generalizing todos with
  | nil => simp [updateWhere]
  | cons id ids ih =>
      rw [List.foldl_cons, ih, setArchived, updateWhere, updateWhere, updateWhere, List.map_map]
      apply List.map_congr_left
      intro t _
      by_cases hid : t.id = id
      · cases harch : t.archivedAt <;> cases archive <;> simp [hid, harch]
      · simp [hid]

theorem archiveTodosByLocalID_todos {projectID : ℤ} {ids : List ℤ} {archive : Bool}
    {out : DB × TodoArchiveBatchResult}
    (h : archiveTodosByLocalID ctx db projectID ids archive = .ok out) :
    ∃ p : TodoRow → Bool, (∀ t, p t = true → t.archivedAt.isSome ≠ archive) ∧
      out.1.todos = updateWhere p
        (fun t => { t with archivedAt := if archive then some ctx.nowMs else none }) db.todos := by
  simp only [archiveTodosByLocalID, bind_eq_ok, foldl_setArchived] at h
  obtain ⟨_, _, p, _, _, _, _, _, h⟩ := h
  refine ⟨fun t => decide (t.id ∈ ((ids.filterMap (todoByLocalID db projectID)).filter fun t =>
    t.archivedAt.isSome != archive).map (·.id)) && t.archivedAt.isSome != archive, ?_, ?_⟩
  · intro t ht
    simp only [Bool.and_eq_true, bne_iff_ne] at ht
    exact ht.2
  · split at h
    · rw [pure_eq_ok] at h
      subst h
      rfl
    · rw [pure_eq_ok] at h
      subst h
      rfl

theorem updateTodo_todosStep (hids : (db.todos.map (·.id)).Nodup) {todoID : ℤ}
    {input : UpdateTodoInput} {todo : Todo} {a : Action}
    (h : updateTodo rt ctx db todoID input = .ok (db', todo)) : TodosStep ctx db a db'.todos := by
  obtain ⟨existing, p, ⟨hmem, rfl, hactive⟩, hp, hedit, _, _⟩ := updateTodo_spec h
  cases hedit with
  | body text htodos => exact .of_updateWhere (fun t _ _ => .body text) htodos
  | full input hinput htodos =>
      refine .of_updateWhere (fun t ht hid => ?_) htodos
      obtain rfl := List.inj_on_of_nodup_map hids ht hmem (by simpa using hid)
      exact .edited p input hinput

theorem moveTodo_todosStep (hids : (db.todos.map (·.id)).Nodup) {todoID : ℤ}
    {toColumnKey : String} {afterID beforeID : Option ℤ} {row : TodoRow} {a : Action}
    (h : moveTodo ctx db todoID toColumnKey afterID beforeID = .ok (db', row)) :
    TodosStep ctx db a db'.todos := by
  obtain ⟨existing, current, target, r, rank, hget, hactive, hcurrent, htarget, htodos⟩ :=
    moveTodo_todos h
  obtain ⟨hmem, rfl⟩ := getTodo_eq_ok hget
  obtain ⟨_, _, rfl⟩ := validateProjectColumnKey_eq_ok htarget
  rw [DB.withRanks, updateWhere, List.map_map] at htodos
  refine .changed _ (fun t ht => ?_) htodos
  by_cases hid : t.id = existing.id
  · obtain rfl := List.inj_on_of_nodup_map hids ht hmem hid
    have hmoved : RowStep ctx db t _ := .moved rank current target hactive hcurrent htarget
    simpa [TodoRow.moved] using hmoved
  · simpa [hid] using RowStep.ranked (r t)

theorem Request.exec_todosStep (hids : (db.todos.map (·.id)).Nodup) {r : Request}
    (h : r.exec rt ctx db = .ok db') : TodosStep ctx db (.request r) db'.todos := by
  cases hwrites : r.writesTodos with
  | false => exact .of_eq (Request.exec_todos hwrites h)
  | true =>
      cases r with
      | createTodo projectID input =>
          obtain ⟨⟨db', todo⟩, hout, rfl⟩ := map_eq_ok.mp h
          obtain ⟨db₁, rank, hrank, _, htodos, _⟩ := createTodo_spec hout
          obtain ⟨r, rfl⟩ := computeNewRank_ranksOnly hrank
          exact .created r todo.row (createTodo_newTodo hout) htodos
      | moveTodo todoID toColumnKey afterID beforeID =>
          obtain ⟨⟨db', row⟩, hout, rfl⟩ := map_eq_ok.mp h
          exact moveTodo_todosStep hids hout
      | deleteTodo todoID =>
          obtain ⟨_, _, _, ⟨_, _, _, rfl, _⟩, _⟩ := deleteTodo_spec h
          exact .deleted todoID rfl rfl
      | archiveTodos projectID ids archive =>
          obtain ⟨out, hout, rfl⟩ := map_eq_ok.mp h
          obtain ⟨p, hp, htodos⟩ := archiveTodosByLocalID_todos hout
          refine .of_updateWhere (fun t _ ht => .archived _ ?_) htodos
          have hne := hp t ht
          cases archive <;> simpa using hne
      | _ => cases hwrites

theorem commit_todosStep {req : MemberRequest} {a : Action} (h : req.commit db = .ok db') :
    TodosStep ctx db a db'.todos := by
  unfold MemberRequest.commit at h
  split at h
  · cases h
  · cases req with
    | remove requesterID projectID targetUserID =>
        cases h
        exact .of_updateWhere (fun t _ _ => .unassigned) rfl
    | updateRole requesterID projectID targetUserID newRole =>
        cases h
        exact .of_eq rfl

theorem addPriorityTier_prioritiesOnly {projectID : ℤ} {name : String}
    (h : addPriorityTier db projectID name = .ok db') : PrioritiesOnly db db' := by
  simp only [addPriorityTier, bind_eq_ok, mapError_eq_ok] at h
  obtain ⟨_, _, _, _, _, _, key, _, hins⟩ := h
  exact insertPriorityTier_prioritiesOnly hins

theorem setPriorityPositions_prioritiesOnly (db : DB) (ps : List (ℤ × ℤ)) :
    PrioritiesOnly db (setPriorityPositions db ps) := by
  unfold setPriorityPositions
  induction ps generalizing db with
  | nil => exact .refl db
  | cons p ps ih =>
      refine .trans ?_ (ih _)
      rfl

theorem deletePriorityTier_prioritiesOnly {projectID : ℤ} {key : String}
    (h : deletePriorityTier db projectID key = .ok db') : PrioritiesOnly db db' := by
  simp only [deletePriorityTier, bind_eq_ok] at h
  obtain ⟨_, _, _, _, h⟩ := h
  split at h
  · simp only [bind_eq_ok, pure_eq_ok] at h
    obtain ⟨_, _, _, _, rfl⟩ := h
    refine .trans ?_ (setPriorityPositions_prioritiesOnly _ _)
    rfl
  · cases h

/-- What an action does to the table of todos. -/
theorem Action.exec_todosStep (hids : (db.todos.map (·.id)).Nodup) {a : Action}
    (h : a.exec rt ctx db = .ok db') : TodosStep ctx db a db'.todos := by
  cases a with
  | request r => exact Request.exec_todosStep hids h
  | updateTodo todoID input =>
      obtain ⟨⟨db', todo⟩, hout, rfl⟩ := map_eq_ok.mp h
      exact updateTodo_todosStep hids hout
  | addLink projectID fromLocalID toLocalID linkType =>
      simp only [exec, Scrumboy.addLink, bind_eq_ok, pure_eq_ok] at h
      obtain ⟨_, _, _, _, _, _, _, _, _, _, _, _, rfl⟩ := h
      refine .of_eq ?_
      split <;> rfl
  | removeLink projectID fromLocalID toLocalID =>
      simp only [exec, Scrumboy.removeLink, bind_eq_ok, pure_eq_ok] at h
      obtain ⟨_, _, _, _, _, _, rfl⟩ := h
      exact .of_eq rfl
  | addMember requesterID projectID targetUserID role =>
      simp only [exec, addProjectMember, bind_eq_ok, pure_eq_ok] at h
      obtain ⟨_, _, _, _, _, _, _, _, rfl⟩ := h
      exact .of_eq rfl
  | changeMember req =>
      rcases MemberRequest.exec_eq_ok h with rfl | ⟨_, hcommit⟩
      · exact .of_eq rfl
      · exact commit_todosStep hcommit
  | addPriorityTier projectID name =>
      obtain ⟨_, rfl⟩ := (addPriorityTier_prioritiesOnly h).exists_eq
      exact .of_eq rfl
  | deletePriorityTier projectID key =>
      obtain ⟨_, rfl⟩ := (deletePriorityTier_prioritiesOnly h).exists_eq
      exact .of_eq rfl
  | claimDueReminders setting limit =>
      obtain ⟨⟨db', reminders⟩, hout, rfl⟩ := map_eq_ok.mp h
      obtain ⟨marked, hmarked, rfl, _⟩ := claimDueReminders_spec hids hout
      exact .of_updateWhere (fun t ht hm => .reminded (hmarked t ht hm)) rfl

/-! ## Settings -/

/-- What an action does to the projects, their workflows and their priorities: nothing,
unless it creates a project or is about the columns or the tiers of one. -/
inductive SettingsStep (ctx : Ctx) (db db' : DB) : Action → Prop
  | same {a : Action} (hprojects : db'.projects.map (·.id) = db.projects.map (·.id))
      (hcolumns : db'.columns = db.columns) (hpriorities : db'.priorities = db.priorities) :
      SettingsStep ctx db db' a
  | createProject {name : String} {workflow : Option (List WorkflowColumn)} {id : ℤ}
      (h : createProjectWithWorkflow ctx db name workflow = .ok (db', id)) :
      SettingsStep ctx db db' (.request (.createProject name workflow))
  | addWorkflowColumn {projectID : ℤ} {name : String} {col : WorkflowColumn}
      (h : Scrumboy.addWorkflowColumn db projectID name = .ok (db', col)) :
      SettingsStep ctx db db' (.request (.addWorkflowColumn projectID name))
  | deleteWorkflowColumn {projectID : ℤ} {key : String}
      (h : Scrumboy.deleteWorkflowColumn db projectID key = .ok db') :
      SettingsStep ctx db db' (.request (.deleteWorkflowColumn projectID key))
  | addPriorityTier {projectID : ℤ} {name : String}
      (h : Scrumboy.addPriorityTier db projectID name = .ok db') :
      SettingsStep ctx db db' (.addPriorityTier projectID name)
  | deletePriorityTier {projectID : ℤ} {key : String}
      (h : Scrumboy.deletePriorityTier db projectID key = .ok db') :
      SettingsStep ctx db db' (.deletePriorityTier projectID key)

theorem SettingsStep.of_side {a : Action} (hside : SideTables db db')
    (hquiet : db'.projects.map ProjectRow.quiet = db.projects.map ProjectRow.quiet) :
    SettingsStep ctx db db' a :=
  .same (projectIDs_of_quiet hquiet) (by rw [hside]) (by rw [hside])

theorem Request.exec_settingsStep {r : Request} (h : r.exec rt ctx db = .ok db') :
    SettingsStep ctx db db' (.request r) := by
  cases r with
  | createProject name workflow =>
      obtain ⟨⟨db', id⟩, hout, rfl⟩ := map_eq_ok.mp h
      exact .createProject hout
  | addWorkflowColumn projectID name =>
      obtain ⟨⟨db', col⟩, hout, rfl⟩ := map_eq_ok.mp h
      exact .addWorkflowColumn hout
  | deleteWorkflowColumn projectID key => exact .deleteWorkflowColumn h
  | createTodo projectID input =>
      obtain ⟨⟨db', todo⟩, hout, rfl⟩ := map_eq_ok.mp h
      obtain ⟨_, _, _, _, _, hside, hquiet⟩ := createTodo_spec hout
      exact .of_side hside hquiet
  | moveTodo todoID toColumnKey afterID beforeID =>
      obtain ⟨⟨db', row⟩, hout, rfl⟩ := map_eq_ok.mp h
      obtain ⟨_, _, _, _, _, _, _, _, _, _, hside, hquiet⟩ := moveTodo_spec hout
      exact .of_side hside hquiet
  | deleteTodo todoID =>
      obtain ⟨_, _, _, ⟨_, _, _, rfl, hquiet⟩, _⟩ := deleteTodo_spec h
      exact .same (projectIDs_of_quiet hquiet) rfl rfl
  | archiveTodos projectID ids archive =>
      obtain ⟨out, hout, rfl⟩ := map_eq_ok.mp h
      obtain ⟨hside, _, hquiet⟩ := archiveTodosByLocalID_spec hout
      exact .of_side hside hquiet
  | _ =>
      obtain ⟨_, _, rfl⟩ := (Request.exec_wallOnly rfl rfl h).exists_eq
      exact .same rfl rfl rfl

theorem Action.exec_settingsStep {a : Action} (h : a.exec rt ctx db = .ok db') :
    SettingsStep ctx db db' a := by
  cases a with
  | request r => exact Request.exec_settingsStep h
  | updateTodo todoID input =>
      obtain ⟨⟨db', todo⟩, hout, rfl⟩ := map_eq_ok.mp h
      obtain ⟨_, _, _, _, _, hside, hquiet⟩ := updateTodo_spec hout
      exact .of_side hside hquiet
  | addLink projectID fromLocalID toLocalID linkType =>
      simp only [exec, Scrumboy.addLink, bind_eq_ok, pure_eq_ok] at h
      obtain ⟨_, _, _, _, _, _, _, _, _, _, _, _, rfl⟩ := h
      refine .same ?_ ?_ ?_ <;> split <;> rfl
  | removeLink projectID fromLocalID toLocalID =>
      simp only [exec, Scrumboy.removeLink, bind_eq_ok, pure_eq_ok] at h
      obtain ⟨_, _, _, _, _, _, rfl⟩ := h
      exact .same rfl rfl rfl
  | addMember requesterID projectID targetUserID role =>
      simp only [exec, addProjectMember, bind_eq_ok, pure_eq_ok] at h
      obtain ⟨_, _, _, _, _, _, _, _, rfl⟩ := h
      exact .same rfl rfl rfl
  | changeMember req =>
      rcases MemberRequest.exec_eq_ok h with rfl | ⟨_, hcommit⟩
      · exact .same rfl rfl rfl
      · unfold MemberRequest.commit at hcommit
        split at hcommit
        · cases hcommit
        · cases req with
          | remove requesterID projectID targetUserID =>
              cases hcommit
              exact .same rfl rfl rfl
          | updateRole requesterID projectID targetUserID newRole =>
              cases hcommit
              exact .same rfl rfl rfl
  | addPriorityTier projectID name => exact .addPriorityTier h
  | deletePriorityTier projectID key => exact .deletePriorityTier h
  | claimDueReminders setting limit =>
      obtain ⟨⟨db', reminders⟩, hout, rfl⟩ := map_eq_ok.mp h
      simp only [Scrumboy.claimDueReminders, bind_eq_ok] at hout
      obtain ⟨leadHours, _, hout⟩ := hout
      split at hout
      · rw [pure_eq_ok, Prod.mk.injEq] at hout
        exact hout.1 ▸ .same rfl rfl rfl
      · simp only [bind_eq_ok, pure_eq_ok, Prod.mk.injEq] at hout
        obtain ⟨_, _, rfl, _⟩ := hout
        exact .same rfl rfl rfl

/-- No action deletes a project. -/
theorem SettingsStep.mem_projects {a : Action} (h : SettingsStep ctx db db' a) :
    ∀ id ∈ db.projects.map (·.id), id ∈ db'.projects.map (·.id) := by
  intro id hid
  cases h with
  | same hprojects hcolumns hpriorities => exact hprojects ▸ hid
  | createProject hok =>
      obtain ⟨⟨_, _, _, _, heq⟩, _⟩ := createProjectWithWorkflow_spec hok
      dsimp only at heq
      rw [heq, List.map_append]
      exact List.mem_append_left _ hid
  | addWorkflowColumn hok =>
      obtain ⟨_, rfl⟩ := (addWorkflowColumn_spec hok).1.exists_eq
      exact hid
  | deleteWorkflowColumn hok =>
      obtain ⟨_, rfl⟩ := (deleteWorkflowColumn_columnsOnly hok).exists_eq
      exact hid
  | addPriorityTier hok =>
      obtain ⟨_, rfl⟩ := (addPriorityTier_prioritiesOnly hok).exists_eq
      exact hid
  | deletePriorityTier hok =>
      obtain ⟨_, rfl⟩ := (deletePriorityTier_prioritiesOnly hok).exists_eq
      exact hid

/-- Every action keeps the table of todos in order. -/
theorem TodoTable.exec_action (h : TodoTable db) {a : Action} (hok : a.exec rt ctx db = .ok db') :
    TodoTable db' := by
  have hprojects := (Action.exec_settingsStep hok).mem_projects
  cases Action.exec_todosStep h.ids hok with
  | changed f hf htodos =>
      refine h.congr ?_ hprojects
      rw [DB.todoKeys, DB.todoKeys, htodos, List.map_map]
      apply List.map_congr_left
      intro t ht
      exact (hf t ht).key_eq
  | created r row hrow htodos =>
      have hranked : TodoTable { db' with todos := db.todos.map fun t => { t with rank := r t } } := by
        refine h.congr ?_ hprojects
        rw [DB.todoKeys, DB.todoKeys, List.map_map]
        rfl
      refine hranked.concat ?_ ?_ (hprojects _ hrow.project_mem) htodos rfl
      · simpa [Function.comp_def] using hrow.id_eq
      · intro t ht
        obtain ⟨u, hu, rfl⟩ := List.mem_map.mp ht
        exact hrow.localID_free u hu
  | deleted todoID ha htodos =>
      refine h.sublist (htodos ▸ List.filter_sublist) fun t ht => ?_
      rw [htodos] at ht
      exact hprojects _ (h.project t (mem_deleteWhere.mp ht).1)

/-! ## Runs -/

/-- A property of the database that every successful action keeps holds after every
action. -/
theorem act_inv {P : DB → Prop} {a : Ctx × Action} (hdb : P db)
    (h : ∀ db', a.2.exec rt a.1 db = .ok db' → P db') : P (act rt db a) := by
  unfold act
  cases hexec : a.2.exec rt a.1 db with
  | error e => exact hdb
  | ok db' => exact h db' hexec

/-- An action that fails does nothing to the table of todos. -/
theorem act_todosStep (hids : (db.todos.map (·.id)).Nodup) (a : Ctx × Action) :
    TodosStep a.1 db a.2 (act rt db a).todos := by
  refine act_inv (P := fun s => TodosStep a.1 db a.2 s.todos) ?_ ?_
  · exact .of_eq rfl
  · intro db' h
    exact Action.exec_todosStep hids h

theorem TodosStep.ids (hids : (db.todos.map (·.id)).Nodup) {a : Action} {todos : List TodoRow}
    (h : TodosStep ctx db a todos) : (todos.map (·.id)).Nodup := by
  cases h with
  | changed f hf htodos =>
      have heq : todos.map (·.id) = db.todos.map (·.id) := by
        rw [htodos, List.map_map]
        apply List.map_congr_left
        intro t ht
        exact congrArg TodoKey.id (hf t ht).key_eq
      rwa [heq]
  | created r row hrow htodos =>
      rw [htodos, List.map_append, List.map_map]
      simp only [Function.comp_def, List.map_cons, List.map_nil, hrow.id_eq]
      exact nodup_concat_nextRowid hids
  | deleted todoID ha htodos =>
      rw [htodos]
      exact hids.sublist (List.filter_sublist.map _)

/-- Every run keeps the ids of todos distinct. -/
theorem act_ids (hids : (db.todos.map (·.id)).Nodup) (a : Ctx × Action) :
    ((act rt db a).todos.map (·.id)).Nodup := (act_todosStep hids a).ids hids

theorem run_act_ids (hids : (db.todos.map (·.id)).Nodup) (l : List (Ctx × Action)) :
    ((Transition.run (act rt) db l).todos.map (·.id)).Nodup := by
  induction l generalizing db with
  | nil => exact hids
  | cons a l ih => exact ih (act_ids hids a)

/-- A row after an action was there before, or it is new. -/
theorem TodosStep.source {a : Action} {todos : List TodoRow} (h : TodosStep ctx db a todos)
    {t : TodoRow} (ht : t ∈ todos) : (∃ u ∈ db.todos, RowStep ctx db u t) ∨ NewTodo ctx db t := by
  cases h with
  | changed f hf htodos =>
      rw [htodos] at ht
      obtain ⟨u, hu, rfl⟩ := List.mem_map.mp ht
      exact .inl ⟨u, hu, hf u hu⟩
  | created r row hrow htodos =>
      rw [htodos, List.mem_append, List.mem_singleton] at ht
      rcases ht with ht | rfl
      · obtain ⟨u, hu, rfl⟩ := List.mem_map.mp ht
        exact .inl ⟨u, hu, .ranked (r u)⟩
      · exact .inr hrow
  | deleted todoID ha htodos =>
      rw [htodos] at ht
      exact .inl ⟨t, (mem_deleteWhere.mp ht).1, .refl t⟩

/-- A row before an action is there afterwards, or the action deletes it. -/
theorem TodosStep.kept {a : Action} {todos : List TodoRow} (h : TodosStep ctx db a todos)
    {t : TodoRow} (ht : t ∈ db.todos) :
    (∃ u ∈ todos, RowStep ctx db t u) ∨ a = .request (.deleteTodo t.id) := by
  cases h with
  | changed f hf htodos =>
      rw [htodos]
      exact .inl ⟨f t, List.mem_map_of_mem ht, hf t ht⟩
  | created r row hrow htodos =>
      rw [htodos]
      exact .inl ⟨_, List.mem_append_left _ (List.mem_map_of_mem ht), .ranked (r t)⟩
  | deleted todoID ha htodos =>
      by_cases hid : t.id = todoID
      · exact .inr (hid ▸ ha)
      · rw [htodos]
        exact .inl ⟨t, mem_deleteWhere.mpr ⟨ht, by simpa using hid⟩, .refl t⟩

end

end Scrumboy
