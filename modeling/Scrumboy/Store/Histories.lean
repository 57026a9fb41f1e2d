import Scrumboy.Store.Actions
import Scrumboy.Store.Placement

/-!
# Histories of todos

Properties of runs of actions that no single state shows: whether a local id is issued
twice, who an active todo is assigned to, and how often a reminder is delivered. Each is
carried by a property of the states that one action keeps.
-/

set_option linter.dupNamespace false

namespace Scrumboy

open Go Sql

section

variable {rt : Runtime} {ctx : Ctx} {db db' : DB}

/-! ## Local ids -/

/-- The todo that an action deletes. -/
def Action.deletes : Action → Option ℤ
  | .request (.deleteTodo todoID) => some todoID
  | _ => none

/-- The project in which an action creates a todo. -/
def Action.creates : Action → Option ℤ
  | .request (.createTodo projectID _) => some projectID
  | _ => none

/-- If the action deletes a todo of the project, then one with a larger local id stays,
and if it creates one, then the next local id is a 64-bit integer. -/
def LeavesLargerLocalID (projectID : ℤ) (db : DB) (a : Ctx × Action) : Prop :=
  (∀ todoID ∈ a.2.deletes, ∀ t ∈ db.todos, t.id = todoID → t.projectID = projectID →
    ∃ u ∈ db.todos, u.projectID = projectID ∧ t.localID < u.localID) ∧
  (∀ q ∈ a.2.creates, q = projectID → ∀ t ∈ db.todos, t.projectID = projectID →
    t.localID < maxInt64)

instance (projectID : ℤ) (db : DB) (a : Ctx × Action) :
    Decidable (LeavesLargerLocalID projectID db a) :=
  inferInstanceAs (Decidable (_ ∧ _))

/-- A todo of the project has this local id, or a larger one. -/
def ReachesLocalID (projectID k : ℤ) (db : DB) : Prop :=
  ∃ t ∈ db.todos, t.projectID = projectID ∧ k ≤ t.localID

theorem ReachesLocalID.act {projectID k : ℤ} {a : Ctx × Action} (hids : (db.todos.map (·.id)).Nodup)
    (h : ReachesLocalID projectID k db) (ha : LeavesLargerLocalID projectID db a) :
    ReachesLocalID projectID k (act rt db a) := by
  have hstep : TodosStep a.1 db a.2 (Scrumboy.act rt db a).todos := act_todosStep hids a
  have hkeep : ∀ t ∈ db.todos, t.projectID = projectID → k ≤ t.localID →
      a.2 ≠ .request (.deleteTodo t.id) → ReachesLocalID projectID k (Scrumboy.act rt db a) := by
    intro t ht hp hk hne
    rcases hstep.kept ht with ⟨u, hu, hrow⟩ | hdel
    · have hkey := hrow.key_eq
      exact ⟨u, hu, (congrArg TodoKey.projectID hkey).trans hp,
        hk.trans (congrArg TodoKey.localID hkey).ge⟩
    · exact absurd hdel hne
  obtain ⟨t, ht, hp, hk⟩ := h
  by_cases hdel : a.2 = .request (.deleteTodo t.id)
  · obtain ⟨u, hu, hup, hlt⟩ := ha.1 t.id (by rw [hdel]; rfl) t ht rfl hp
    refine hkeep u hu hup (hk.trans hlt.le) fun hdel' => ?_
    rw [hdel] at hdel'
    have hid : t.id = u.id := by simpa using hdel'
    rw [List.inj_on_of_nodup_map hids ht hu hid] at hlt
    exact lt_irrefl _ hlt
  · exact hkeep t ht hp hk hdel

/-- The table of todos as the schema declares it: the id is the primary key, and the
local id is a 64-bit integer. -/
structure TodoColumns (db : DB) : Prop where
  ids : (db.todos.map (·.id)).Nodup
  localIDs : ∀ t ∈ db.todos, IsInt64 t.localID

theorem TodoColumns.act (h : TodoColumns db) (a : Ctx × Action) : TodoColumns (act rt db a) where
  ids := act_ids h.ids a
  localIDs t ht := by
    rcases (act_todosStep h.ids a).source ht with ⟨u, hu, hrow⟩ | hnew
    · rw [show t.localID = u.localID from congrArg TodoKey.localID hrow.key_eq]
      exact h.localIDs u hu
    · rw [hnew.localID_eq]
      exact wrap_isInt64 _

theorem TodoColumns.run (h : TodoColumns db) (l : List (Ctx × Action)) :
    TodoColumns (Transition.run (Scrumboy.act rt) db l) := by
  induction l generalizing db with
  | nil => exact h
  | cons a l ih => exact ih (h.act a)

/-- The next local id is above all local ids of the project, unless one is the largest
64-bit integer. -/
theorem lt_nextLocalID {projectID : ℤ} {t : TodoRow} (h : TodoColumns db)
    (hmax : ∀ t ∈ db.todos, t.projectID = projectID → t.localID < maxInt64) (ht : t ∈ db.todos)
    (hp : t.projectID = projectID) : t.localID < nextLocalID db projectID := by
  have hmem : t.localID ∈ (db.todos.filter fun t => t.projectID == projectID).map (·.localID) :=
    List.mem_map_of_mem (List.mem_filter.mpr ⟨ht, by simpa using hp⟩)
  obtain ⟨u, hu, hlast⟩ := List.mem_map.mp (coalesceMax_mem (List.ne_nil_of_mem hmem))
  obtain ⟨hu, hup⟩ := List.mem_filter.mp hu
  have hle := le_coalesceMax hmem
  have hu' := hmax u hu (by simpa using hup)
  have hmin := (h.localIDs u hu).1
  rw [hlast] at hu' hmin
  have hwrap := wrap_eq_self (n := coalesceMax ((db.todos.filter fun t =>
    t.projectID == projectID).map (·.localID)) + 1) ⟨by omega, by omega⟩
  rw [nextLocalID, hwrap]
  omega

/-- In a run in which no deletion takes away the largest local id of the project, a
created todo gets a local id that no todo of the project had in any earlier state. -/
theorem localIDs_never_reissued (hdb : TodoColumns db) (projectID : ℤ)
    (past mid : List (Ctx × Action)) (ctx : Ctx) (input : CreateTodoInput)
    (hrun : Transition.Along (LeavesLargerLocalID projectID) (act rt) db
      (past ++ mid ++ [(ctx, Action.request (.createTodo projectID input))])) (db' : DB) (todo : Todo)
    (hcreate : createTodo rt ctx (Transition.run (act rt) db (past ++ mid)) projectID input =
      .ok (db', todo)) :
    ∀ t ∈ (Transition.run (act rt) db past).todos, t.projectID = projectID →
      todo.row.localID ≠ t.localID := by
  intro t ht hp
  have hmid : TodoColumns (Transition.run (act rt) db (past ++ mid)) := hdb.run _
  have hreach : ReachesLocalID projectID t.localID (Transition.run (act rt) db (past ++ mid)) := by
    rw [Transition.run_append]
    have hinv := Transition.run_along (l := mid)
      (I := fun s => TodoColumns s ∧ ReachesLocalID projectID t.localID s)
      (fun s a h ha => ⟨h.1.act a, h.2.act h.1.ids ha⟩) ⟨hdb.run past, t, ht, hp, le_rfl⟩
      (Transition.Along.drop hrun.of_append)
    exact hinv.2
  obtain ⟨u, hu, hup, hle⟩ := hreach
  have hlt := lt_nextLocalID hmid (hrun.drop.1.2 projectID rfl rfl) hu hup
  have hnew := createTodo_newTodo hcreate
  obtain ⟨_, _, _, hrow, _⟩ := createTodo_spec hcreate
  rw [hnew.localID_eq, hrow.projectID_eq]
  omega

end

/-- The todo with the smallest local id is deleted, and the next one gets a new id. -/
theorem localIDs_never_reissued_smallest :
    ∃ db' todo, createTodo plainRuntime ⟨none, 6⟩ (Transition.run (act plainRuntime) crowdedBoard
        [(⟨none, 5⟩, .request (.deleteTodo 1))]) 1 { title := "new" } = .ok (db', todo) ∧
      ∀ t ∈ crowdedBoard.todos, t.projectID = 1 → todo.row.localID ≠ t.localID := by
  obtain ⟨⟨db', todo⟩, hok⟩ := exists_of_isOk (x := createTodo plainRuntime ⟨none, 6⟩
    (Transition.run (act plainRuntime) crowdedBoard [(⟨none, 5⟩, .request (.deleteTodo 1))]) 1
    { title := "new" }) (by decide +kernel)
  exact ⟨db', todo, hok, localIDs_never_reissued ⟨by decide, by decide⟩ 1 []
    [(⟨none, 5⟩, .request (.deleteTodo 1))] ⟨none, 6⟩ { title := "new" } (by decide +kernel) db' todo
    hok⟩

/-- A new project whose only todo is deleted issues its local id again. -/
theorem localID_reissued :
    ∃ start : List (Ctx × Action),
      start = [(⟨none, 1⟩, .request (.createProject "Board" none)),
        (⟨none, 2⟩, .request (.createTodo 1 { title := "first" }))] ∧
      ∃ t ∈ (Transition.run (act plainRuntime) {} start).todos, t.title = "first" ∧
        t.projectID = 1 ∧
        ∃ u ∈ (Transition.run (act plainRuntime) {} (start ++
            [((⟨none, 3⟩ : Ctx), Action.request (.deleteTodo 1)),
              (⟨none, 4⟩, .request (.createTodo 1 { title := "second" }))])).todos,
          u.title = "second" ∧ u.projectID = 1 ∧ u.localID = t.localID :=
  ⟨_, rfl, by decide +kernel⟩

section

variable {rt : Runtime} {ctx : Ctx} {db db' : DB}

/-! ## Reminders -/

/-- The due date and the assignee of a todo, which a reminder is about. -/
def deadline (db : DB) (todoID : ℤ) : Option (Option ℤ × Option ℤ) :=
  (db.todos.find? (·.id == todoID)).map fun t => (t.dueAt, t.assigneeUserID)

theorem deadline_eq (hids : (db.todos.map (·.id)).Nodup) {t : TodoRow} (ht : t ∈ db.todos) :
    deadline db t.id = some (t.dueAt, t.assigneeUserID) := by
  obtain ⟨t₁, t₂, hsplit, hne⟩ := exists_split_key hids ht
  rw [deadline, hsplit, find?_split hne]
  rfl

/-- The todo had its reminder. -/
def Reminded (db : DB) (todoID : ℤ) : Prop :=
  ∃ t ∈ db.todos, t.id = todoID ∧ t.dueRemindedAt ≠ none

/-- An edit that keeps the due date and the assignee does not arm the reminder again. -/
theorem edited_dueRemindedAt {input : UpdateTodoInput} {t : TodoRow} {nowMs : ℤ}
    (hdue : (TodoRow.edited input t nowMs t).dueAt = t.dueAt)
    (hassignee : (TodoRow.edited input t nowMs t).assigneeUserID = t.assigneeUserID) :
    (TodoRow.edited input t nowMs t).dueRemindedAt = t.dueRemindedAt := by
  have hsame : t.dueAt = input.effectiveDueAt t := by
    by_contra hne
    have hnew : (TodoRow.edited input t nowMs t).dueAt = input.effectiveDueAt t := if_neg hne
    exact hne (hdue.symm.trans hnew)
  have hassignee : input.assigneeUserID = t.assigneeUserID := hassignee
  have hrearms : input.rearms t = false := by
    simp [UpdateTodoInput.rearms, ← hsame, hassignee]
  exact if_neg (by simp [hrearms])

/-- A reminded todo stays so as long as its due date and its assignee are the same. -/
theorem Reminded.act (hids : (db.todos.map (·.id)).Nodup) {todoID : ℤ} (h : Reminded db todoID)
    (a : Ctx × Action) (hsame : deadline (act rt db a) todoID = deadline db todoID) :
    Reminded (act rt db a) todoID := by
  obtain ⟨t, ht, rfl, hreminded⟩ := h
  rw [deadline_eq hids ht] at hsame
  obtain ⟨u, hfind, hdeadline⟩ := Option.map_eq_some_iff.mp hsame
  have hu := List.mem_of_find?_eq_some hfind
  have hid : u.id = t.id := by simpa using List.find?_some hfind
  refine ⟨u, hu, hid, ?_⟩
  rw [Prod.mk.injEq] at hdeadline
  rcases (act_todosStep hids a).source hu with ⟨v, hv, hrow⟩ | hnew
  · have hvid : v.id = t.id := (congrArg TodoKey.id hrow.key_eq).symm.trans hid
    obtain rfl := List.inj_on_of_nodup_map hids hv ht hvid
    cases hrow with
    | edited p input hinput =>
        rwa [edited_dueRemindedAt hdeadline.1 hdeadline.2]
    | reminded hpending => simp [TodoRow.markReminded]
    | ranked rank => exact hreminded
    | moved rank current target hactive hcurrent htarget => exact hreminded
    | archived ms hchange => exact hreminded
    | body text => exact hreminded
    | unassigned => exact hreminded
  · have hused : nextRowid (db.todos.map (·.id)) ∈ db.todos.map (·.id) := by
      rw [← hnew.id_eq, hid]
      exact List.mem_map_of_mem ht
    exact absurd hused (nextRowid_not_mem _)

theorem Reminded.run (hids : (db.todos.map (·.id)).Nodup) {todoID : ℤ} (h : Reminded db todoID)
    (l : List (Ctx × Action))
    (hsame : ∀ m, m <+: l → deadline (Transition.run (Scrumboy.act rt) db m) todoID =
      deadline db todoID) : Reminded (Transition.run (Scrumboy.act rt) db l) todoID := by
  induction l using List.reverseRecOn with
  | nil => exact h
  | append_singleton l a ih =>
      have hl := ih fun m hm => hsame m (hm.trans (List.prefix_append l [a]))
      have hlast := hsame _ (List.prefix_refl (l ++ [a]))
      rw [Transition.run_concat] at hlast ⊢
      refine hl.act (run_act_ids hids l) a ?_
      rw [hlast, hsame _ (List.prefix_append l [a])]

/-- The reminders that a claim returns. -/
def claimed (rt : Runtime) (ctx : Ctx) (db : DB) (setting : String) (limit : ℤ) :
    List DueReminder :=
  ((claimDueReminders rt ctx db setting limit).toOption.map (·.2)).getD []

theorem claimed_spec (hids : (db.todos.map (·.id)).Nodup) {setting : String} {limit : ℤ}
    {r : DueReminder} (hr : r ∈ claimed rt ctx db setting limit) :
    ∃ t ∈ db.todos, r.todo.row = t.markReminded ctx.nowMs ∧ t.isPending = true ∧
      remindable db t = true ∧
      r.todo.row ∈ (act rt db (ctx, .claimDueReminders setting limit)).todos := by
  unfold claimed at hr
  cases hclaim : claimDueReminders rt ctx db setting limit with
  | error e =>
      rw [hclaim] at hr
      cases hr
  | ok out =>
      obtain ⟨db', reminders⟩ := out
      rw [hclaim] at hr
      obtain ⟨marked, hmarked, hdb', hall⟩ := claimDueReminders_spec hids hclaim
      obtain ⟨t, ht, hm, hjoin, hrow⟩ := hall r hr
      refine ⟨t, ht, hrow, hmarked t ht hm, hjoin, ?_⟩
      have hact : act rt db (ctx, .claimDueReminders setting limit) = db' := by
        simp [act, Action.exec, hclaim, Except.toOption, Functor.map, Except.map]
      rw [hact, hrow, hdb', mem_updateWhere]
      exact ⟨t, ht, by simp [hm]⟩

/-- A reminder that a claim returned is returned again only after a change of the due
date or of the assignee. What a claim returns is active, in a durable project and in a
column that is not done. -/
theorem reminders_at_most_once (hids : (db.todos.map (·.id)).Nodup)
    (past : List (Ctx × Action)) (ctx : Ctx) (setting : String) (limit : ℤ) (r : DueReminder)
    (hr : r ∈ claimed rt ctx (Transition.run (act rt) db past) setting limit) :
    (∀ mid ctx' setting' limit', ∀ r' ∈ claimed rt ctx' (Transition.run (act rt) db
          (past ++ (ctx, Action.claimDueReminders setting limit) :: mid)) setting' limit',
        r'.todo.row.id = r.todo.row.id →
        ∃ m, m <+: mid ∧ deadline (Transition.run (act rt) db
            (past ++ (ctx, Action.claimDueReminders setting limit) :: m)) r.todo.row.id ≠
          some (r.todo.row.dueAt, r.todo.row.assigneeUserID)) ∧
      r.todo.row.archivedAt = none ∧
      (∃ p ∈ (Transition.run (act rt) db past).projects, p.id = r.todo.row.projectID ∧
        p.expiresAt = none) ∧
      ∃ c ∈ (Transition.run (act rt) db past).columns, c.projectID = r.todo.row.projectID ∧
        c.key = r.todo.row.columnKey ∧ c.isDone = false := by
  generalize hs : Transition.run (act rt) db past = s at hr ⊢
  have hsids : (s.todos.map (·.id)).Nodup := hs ▸ run_act_ids hids past
  obtain ⟨t, ht, hrow, hpending, hjoin, hmarked⟩ := claimed_spec hsids hr
  simp only [remindable, Bool.and_eq_true, List.any_eq_true, beq_iff_eq, Bool.not_eq_true'] at hjoin
  obtain ⟨⟨p, hp, hpid, hdurable⟩, c, hc, ⟨hcp, hck⟩, hdone⟩ := hjoin
  refine ⟨?_, ?_, ?_, ?_⟩
  · intro mid ctx' setting' limit' r' hr' hsame
    by_contra hnone
    push Not at hnone
    -- the state after the first claim, in which the todo is marked
    have hids₁ : ((act rt s (ctx, .claimDueReminders setting limit)).todos.map (·.id)).Nodup :=
      act_ids hsids _
    have hrun : ∀ l, Transition.run (act rt) db
        (past ++ (ctx, Action.claimDueReminders setting limit) :: l) =
        Transition.run (act rt) (act rt s (ctx, .claimDueReminders setting limit)) l := by
      intro l
      rw [Transition.run_append, Transition.run_cons, hs]
    simp only [hrun] at hr' hnone
    have hreminded : Reminded (act rt s (ctx, .claimDueReminders setting limit)) r.todo.row.id :=
      ⟨_, hmarked, rfl, by simp [hrow, TodoRow.markReminded]⟩
    obtain ⟨u, hu, huid, hune⟩ := hreminded.run hids₁ mid fun m hm => by
      rw [hnone m hm, deadline_eq hids₁ hmarked]
    obtain ⟨v, hv, hvrow, hvpending, _⟩ := claimed_spec (run_act_ids hids₁ mid) hr'
    have hvid : v.id = u.id := by
      rw [huid, ← hsame, hvrow]
      rfl
    obtain rfl := List.inj_on_of_nodup_map (run_act_ids hids₁ mid) hv hu hvid
    simp only [TodoRow.isPending, Bool.and_eq_true, Option.isNone_iff_eq_none] at hvpending
    exact hune hvpending.1.2
  · rw [hrow]
    simp only [TodoRow.isPending, Bool.and_eq_true, Option.isNone_iff_eq_none] at hpending
    exact hpending.2
  · exact ⟨p, hp, by rw [hrow]; exact hpid, hdurable⟩
  · exact ⟨c, hc, by rw [hrow]; exact hcp, by rw [hrow]; exact hck, hdone⟩

end

/-- A project and a todo that is due soon. -/
def dueSoon : List (Ctx × Action) :=
  [(⟨none, 1⟩, .request (.createProject "Board" none)),
    (⟨none, 2⟩, .request (.createTodo 1 { title := "first", dueAt := some 1000 }))]

theorem reminders_at_most_once_dueSoon :
    ∃ r ∈ claimed plainRuntime ⟨none, 3⟩ (Transition.run (act plainRuntime) {} dueSoon) "" 10,
      r.todo.row.archivedAt = none ∧
      ∀ mid ctx' setting' limit', ∀ r' ∈ claimed plainRuntime ctx'
          (Transition.run (act plainRuntime) {}
            (dueSoon ++ ((⟨none, 3⟩ : Ctx), Action.claimDueReminders "" 10) :: mid)) setting' limit',
        r'.todo.row.id = r.todo.row.id →
        ∃ m, m <+: mid ∧ deadline (Transition.run (act plainRuntime) {}
            (dueSoon ++ ((⟨none, 3⟩ : Ctx), Action.claimDueReminders "" 10) :: m)) r.todo.row.id ≠
          some (r.todo.row.dueAt, r.todo.row.assigneeUserID) := by
  have hne : claimed plainRuntime ⟨none, 3⟩ (Transition.run (act plainRuntime) {} dueSoon) "" 10 ≠
      [] := by decide +kernel
  obtain ⟨r, hr⟩ := List.exists_mem_of_ne_nil _ hne
  have hids : (({} : DB).todos.map (·.id)).Nodup := List.nodup_nil
  have honce := reminders_at_most_once hids dueSoon ⟨none, 3⟩ "" 10 r hr
  exact ⟨r, hr, honce.2.1, honce.1⟩

/-- A reminder for a todo that nobody is assigned to. -/
theorem reminder_of_unassigned :
    ∃ r ∈ claimed plainRuntime ⟨none, 3⟩ (Transition.run (act plainRuntime) {} dueSoon) "" 10,
      r.todo.row.assigneeUserID = none := by
  decide +kernel

section

variable {rt : Runtime} {ctx : Ctx} {db db' : DB}

/-! ## Assignees -/

theorem getProjectRole_ne_none {projectID userID : ℤ} :
    getProjectRole db projectID userID ≠ none ↔
      (projectID, userID) ∈ db.members.map MemberRow.key := by
  rw [getProjectRole, ne_eq, Option.map_eq_none_iff, List.find?_eq_none, List.mem_map]
  simp [MemberRow.key, MemberRow.beq_key]

theorem insertOwner_keeps {projectID nowMs : ℤ} {owner : Option ℤ} {k : ℤ × ℤ}
    (hk : k ∈ db.members.map MemberRow.key) :
    k ∈ (insertOwner db projectID nowMs owner).members.map MemberRow.key := by
  cases owner with
  | none => exact hk
  | some userID =>
      unfold insertOwner insertMaintainer
      dsimp only
      split
      · exact hk
      · rw [List.map_append]
        exact List.mem_append_left _ hk

theorem createProjectWithWorkflow_members {name : String} {workflow : Option (List WorkflowColumn)}
    {out : DB × ℤ} (h : createProjectWithWorkflow ctx db name workflow = .ok out) {k : ℤ × ℤ}
    (hk : k ∈ db.members.map MemberRow.key) : k ∈ out.1.members.map MemberRow.key := by
  simp only [createProjectWithWorkflow, bind_eq_ok, pure_eq_ok] at h
  obtain ⟨_, _, owner, _, base, _, slug, _, db₂, hworkflow, rfl⟩ := h
  obtain ⟨columns, rfl⟩ := (createWorkflow_spec hworkflow).1.exists_eq
  obtain ⟨priorities, hprio⟩ := (ensureDefaultPriorityTiers_prioritiesOnly _ _).exists_eq
  dsimp only
  rw [hprio]
  exact insertOwner_keeps hk

/-- A request takes no member away. -/
theorem Request.exec_members {r : Request} (h : r.exec rt ctx db = .ok db') {k : ℤ × ℤ}
    (hk : k ∈ db.members.map MemberRow.key) : k ∈ db'.members.map MemberRow.key := by
  cases r with
  | createProject name workflow =>
      obtain ⟨out, hout, rfl⟩ := map_eq_ok.mp h
      exact createProjectWithWorkflow_members hout hk
  | addWorkflowColumn projectID name =>
      obtain ⟨out, hout, rfl⟩ := map_eq_ok.mp h
      rwa [(addWorkflowColumn_spec hout).1]
  | deleteWorkflowColumn projectID key => rwa [deleteWorkflowColumn_columnsOnly h]
  | createTodo projectID input =>
      obtain ⟨⟨db', todo⟩, hout, rfl⟩ := map_eq_ok.mp h
      obtain ⟨_, _, _, _, _, hside, _⟩ := createTodo_spec hout
      rwa [hside]
  | moveTodo todoID toColumnKey afterID beforeID =>
      obtain ⟨⟨db', row⟩, hout, rfl⟩ := map_eq_ok.mp h
      obtain ⟨_, _, _, _, _, _, _, _, _, _, hside, _⟩ := moveTodo_spec hout
      rwa [hside]
  | deleteTodo todoID =>
      obtain ⟨_, _, _, ⟨_, _, _, rfl, _⟩, _⟩ := deleteTodo_spec h
      exact hk
  | archiveTodos projectID ids archive =>
      obtain ⟨out, hout, rfl⟩ := map_eq_ok.mp h
      rwa [(archiveTodosByLocalID_spec hout).1]
  | _ =>
      obtain ⟨_, _, rfl⟩ := (Request.exec_wallOnly rfl rfl h).exists_eq
      exact hk

/-- A member stays a member, or the action removes them and with them the assignments of
the active todos of the project. -/
theorem Action.exec_members {a : Action} (h : a.exec rt ctx db = .ok db') {projectID userID : ℤ}
    (hmember : getProjectRole db projectID userID ≠ none) :
    getProjectRole db' projectID userID ≠ none ∨
      ∀ t ∈ db'.todos, t.projectID = projectID → t.assigneeUserID = some userID →
        t.archivedAt ≠ none := by
  rw [getProjectRole_ne_none] at hmember ⊢
  cases a with
  | request r => exact .inl (Request.exec_members h hmember)
  | updateTodo todoID input =>
      obtain ⟨⟨db', todo⟩, hout, rfl⟩ := map_eq_ok.mp h
      obtain ⟨_, _, _, _, _, hside, _⟩ := updateTodo_spec hout
      left
      rwa [hside]
  | addLink p fromLocalID toLocalID linkType =>
      simp only [exec, Scrumboy.addLink, bind_eq_ok, pure_eq_ok] at h
      obtain ⟨_, _, _, _, _, _, _, _, _, _, _, _, rfl⟩ := h
      left
      split <;> exact hmember
  | removeLink p fromLocalID toLocalID =>
      simp only [exec, Scrumboy.removeLink, bind_eq_ok, pure_eq_ok] at h
      obtain ⟨_, _, _, _, _, _, rfl⟩ := h
      exact .inl hmember
  | addMember requesterID p targetUserID role =>
      simp only [exec, addProjectMember, bind_eq_ok, pure_eq_ok] at h
      obtain ⟨_, _, _, _, _, _, _, _, rfl⟩ := h
      left
      rw [List.map_append]
      exact List.mem_append_left _ hmember
  | changeMember req =>
      rcases MemberRequest.exec_eq_ok h with rfl | ⟨_, hcommit⟩
      · exact .inl hmember
      · unfold MemberRequest.commit at hcommit
        split at hcommit
        · cases hcommit
        cases req with
        | remove requesterID p targetUserID =>
            cases hcommit
            by_cases heq : (projectID, userID) = (p, targetUserID)
            · rw [Prod.mk.injEq] at heq
              obtain ⟨rfl, rfl⟩ := heq
              right
              intro t ht hp hassignee hactive
              obtain ⟨u, hu, rfl⟩ := mem_updateWhere.mp ht
              split at hassignee
              · cases hassignee
              · rename_i hkeep
                rw [if_neg hkeep] at hp hactive
                simp [hp, hassignee, hactive] at hkeep
            · left
              obtain ⟨m, hm, hkey⟩ := List.mem_map.mp hmember
              refine List.mem_map.mpr ⟨m, mem_deleteWhere.mpr ⟨hm, ?_⟩, hkey⟩
              rw [MemberRow.beq_key, hkey, beq_eq_false_iff_ne]
              exact heq
        | updateRole requesterID p targetUserID newRole =>
            cases hcommit
            left
            dsimp only
            rw [map_updateWhere]
            · exact hmember
            · intro m
              rfl
  | addPriorityTier p name =>
      obtain ⟨_, rfl⟩ := (addPriorityTier_prioritiesOnly h).exists_eq
      exact .inl hmember
  | deletePriorityTier p key =>
      obtain ⟨_, rfl⟩ := (deletePriorityTier_prioritiesOnly h).exists_eq
      exact .inl hmember
  | claimDueReminders setting limit =>
      obtain ⟨⟨db', reminders⟩, hout, rfl⟩ := map_eq_ok.mp h
      left
      simp only [Scrumboy.claimDueReminders, bind_eq_ok] at hout
      obtain ⟨leadHours, _, hout⟩ := hout
      split at hout
      · cases hout
        exact hmember
      · simp only [bind_eq_ok, pure_eq_ok, Prod.mk.injEq] at hout
        obtain ⟨_, _, rfl, _⟩ := hout
        exact hmember

/-- The todo is active and assigned to the user, who is no member of its project. -/
def Stranded (db : DB) (todoID userID : ℤ) : Prop :=
  ∃ t ∈ db.todos, t.id = todoID ∧ t.assigneeUserID = some userID ∧ t.archivedAt = none ∧
    getProjectRole db t.projectID userID = none

/-- A step of the run took the todo out of the archive when it was assigned to the user and
the user was no member of its project, and it has been stranded since. -/
def RestoredStranded (rt : Runtime) (db : DB) (run : List (Ctx × Action)) (todoID userID : ℤ) :
    Prop :=
  ∃ past a rest, run = past ++ a :: rest ∧
    (∃ t ∈ (Transition.run (act rt) db past).todos, t.id = todoID ∧ t.assigneeUserID = some userID ∧
      t.archivedAt ≠ none ∧
      getProjectRole (Transition.run (act rt) db past) t.projectID userID = none) ∧
    ∀ m, m <+: rest → Stranded (Transition.run (act rt) db (past ++ a :: m)) todoID userID

theorem RestoredStranded.concat {run : List (Ctx × Action)} {todoID userID : ℤ}
    (h : RestoredStranded rt db run todoID userID) {a : Ctx × Action}
    (hlast : Stranded (Transition.run (act rt) db (run ++ [a])) todoID userID) :
    RestoredStranded rt db (run ++ [a]) todoID userID := by
  obtain ⟨past, b, rest, rfl, hrestored, hsince⟩ := h
  refine ⟨past, b, rest ++ [a], by simp, hrestored, fun m hm => ?_⟩
  rcases List.prefix_concat_iff.mp hm with rfl | hm
  · simpa using hlast
  · exact hsince m hm

/-- A step that leaves a todo stranded found it so, or took it out of the archive. -/
theorem stranded_step (hids : (db.todos.map (·.id)).Nodup) {a : Ctx × Action} {t : TodoRow}
    (ht : t ∈ (act rt db a).todos) (hactive : t.archivedAt = none) {userID : ℤ}
    (hassignee : t.assigneeUserID = some userID)
    (hrole : getProjectRole (act rt db a) t.projectID userID = none) :
    ∃ u ∈ db.todos, u.key = t.key ∧ u.assigneeUserID = some userID ∧
      getProjectRole db u.projectID userID = none := by
  have hout : getProjectRole db t.projectID userID = none := by
    by_contra hmember
    refine absurd hrole ?_
    have hkept : getProjectRole (act rt db a) t.projectID userID ≠ none ∨
        ∀ t' ∈ (act rt db a).todos, t'.projectID = t.projectID →
          t'.assigneeUserID = some userID → t'.archivedAt ≠ none := by
      refine act_inv (P := fun s => getProjectRole s t.projectID userID ≠ none ∨
        ∀ t' ∈ s.todos, t'.projectID = t.projectID → t'.assigneeUserID = some userID →
          t'.archivedAt ≠ none) (.inl hmember) ?_
      intro db' hexec
      exact Action.exec_members hexec hmember
    exact hkept.resolve_right fun hall => hall t ht rfl hassignee hactive
  rcases (act_todosStep hids a).source ht with ⟨u, hu, hrow⟩ | hnew
  · have hkey := hrow.key_eq.symm
    have hp : u.projectID = t.projectID := congrArg TodoKey.projectID hkey
    refine ⟨u, hu, hkey, ?_, hp ▸ hout⟩
    cases hrow with
    | edited p input hinput => exact absurd hout (hinput.assignee userID hassignee).2
    | unassigned => cases hassignee
    | ranked rank => exact hassignee
    | moved rank current target hactive hcurrent htarget => exact hassignee
    | archived ms hchange => exact hassignee
    | body text => exact hassignee
    | reminded hpending => exact hassignee
  · exact absurd hout (hnew.assignee userID hassignee)

/-- After every run, an active todo that is assigned is assigned to a member of its
project, or it came out of the archive with an assignee who was no member any more. -/
theorem assignees_are_members (hids : (db.todos.map (·.id)).Nodup)
    (hstart : ∀ t ∈ db.todos, t.archivedAt = none → ∀ userID ∈ t.assigneeUserID,
      getProjectRole db t.projectID userID ≠ none) (l : List (Ctx × Action)) :
    ∀ t ∈ (Transition.run (act rt) db l).todos, t.archivedAt = none →
      ∀ userID ∈ t.assigneeUserID,
        getProjectRole (Transition.run (act rt) db l) t.projectID userID ≠ none ∨
          RestoredStranded rt db l t.id userID := by
  induction l using List.reverseRecOn with
  | nil => exact fun t ht hactive userID hassignee => .inl (hstart t ht hactive userID hassignee)
  | append_singleton l a ih =>
      intro t ht hactive userID hassignee
      rw [or_iff_not_imp_left, not_not]
      intro hrole
      have hlast : Stranded (Transition.run (act rt) db (l ++ [a])) t.id userID :=
        ⟨t, ht, rfl, hassignee, hactive, hrole⟩
      rw [Transition.run_concat] at ht hrole
      obtain ⟨u, hu, hkey, huassignee, hurole⟩ :=
        stranded_step (run_act_ids hids l) ht hactive hassignee hrole
      have hid : u.id = t.id := congrArg TodoKey.id hkey
      by_cases harch : u.archivedAt = none
      · -- it was stranded before the step, so the step that stranded it is an earlier one
        have hbefore := (ih u hu harch userID huassignee).resolve_left fun hne => hne hurole
        exact (hid ▸ hbefore).concat hlast
      · refine ⟨l, a, [], rfl, ⟨u, hu, hid, huassignee, harch, hurole⟩, fun m hm => ?_⟩
        rw [List.prefix_nil.mp hm]
        exact hlast

end

/-- Two users, the first of whom starts a project, lets the second join and assigns a
todo to them. -/
def assignedRun : List (Ctx × Action) :=
  [(⟨some 1, 1⟩, .request (.createProject "Board" none)),
    (⟨some 1, 2⟩, .addMember 1 1 2 .contributor),
    (⟨some 1, 3⟩, .request (.createTodo 1 { title := "first", assigneeUserID := some 2 }))]

theorem assignees_are_members_assigned :
    ∃ t ∈ (Transition.run (act plainRuntime) { users := [1, 2] } assignedRun).todos,
      t.assigneeUserID = some 2 ∧
      (getProjectRole (Transition.run (act plainRuntime) { users := [1, 2] } assignedRun)
          t.projectID 2 ≠ none ∨
        RestoredStranded plainRuntime { users := [1, 2] } assignedRun t.id 2) := by
  have hrow : ∃ t ∈ (Transition.run (act plainRuntime) { users := [1, 2] } assignedRun).todos,
      t.assigneeUserID = some 2 ∧ t.archivedAt = none := by decide +kernel
  obtain ⟨t, ht, hassignee, hactive⟩ := hrow
  have hids : (({ users := [1, 2] } : DB).todos.map (·.id)).Nodup := List.nodup_nil
  exact ⟨t, ht, hassignee, assignees_are_members hids (by simp) assignedRun t ht hactive 2 hassignee⟩

/-- The todo is archived, its assignee leaves, and the todo is restored. -/
theorem assignee_left_before_restore :
    ∃ t ∈ (Transition.run (act plainRuntime) { users := [1, 2] } (assignedRun ++
        [((⟨some 1, 4⟩ : Ctx), Action.request (.archiveTodos 1 [1] true)),
          (⟨some 1, 5⟩, .changeMember (.remove 1 1 2)),
          (⟨some 1, 6⟩, .request (.archiveTodos 1 [1] false))])).todos,
      t.archivedAt = none ∧ t.assigneeUserID = some 2 ∧
      getProjectRole (Transition.run (act plainRuntime) { users := [1, 2] } (assignedRun ++
        [((⟨some 1, 4⟩ : Ctx), Action.request (.archiveTodos 1 [1] true)),
          (⟨some 1, 5⟩, .changeMember (.remove 1 1 2)),
          (⟨some 1, 6⟩, .request (.archiveTodos 1 [1] false))])) t.projectID 2 = none := by
  decide +kernel

end Scrumboy
