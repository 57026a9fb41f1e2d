import Scrumboy.Auth.Accounts
import Scrumboy.Store.Placement

/-!
# What a new account finds

A foreign key names a user that exists, so the next id is not among them. A plain number may
name an id that was given back. What keeps the next ids free of such numbers is that no
deletion leaves one above the greatest user that remains, and that no board is made in the
name of one.
-/

set_option linter.dupNamespace false

namespace Scrumboy

open Go Sql Transition

/-- Nothing in the database is about the user. -/
structure Untouched (db : DB) (userID : ℤ) : Prop where
  unassigned : ∀ t ∈ db.todos, t.assigneeUserID ≠ some userID
  notOwner : ∀ p ∈ db.projects, p.ownerUserID ≠ some userID
  notCreator : ∀ p ∈ db.projects, p.creatorUserID ≠ some userID
  notMember : ∀ m ∈ db.members, m.userID ≠ userID

/-- Every user that is new in a run from the empty server finds nothing. -/
def AccountsUntouched (rt : Runtime) (l : List (Ctx × SiteAction)) : Prop :=
  ∀ past ctx account future site', l = past ++ (ctx, SiteAction.createUser account) :: future →
    (run (Site.step rt) .empty past).createUser ctx account = .ok site' →
    ∀ u ∈ site'.users, u ∉ (run (Site.step rt) .empty past).users →
      Untouched (run (Site.step rt) .empty past).db u.id

/-- A deletion leaves no todo assigned to an id, and no project created by one, that is above
the users that remain, and a temporary board is made by a user below the next id. -/
def LeavesNothing (site : Site) : Ctx × SiteAction → Prop
  | (_, .deleteUser requesterID targetUserID) =>
      (site.deleteUser requesterID targetUserID).isOk = true →
        ∀ u ∈ site.db.looseRefs, u < nextRowid (deleteWhere (· == targetUserID) site.db.users)
  | (ctx, .createAnonymousBoard draws) =>
      (∃ slug ∈ draws.take 10, slugExists site.db slug = false) →
        ∀ u ∈ ctx.userID, u < site.nextUserID
  | _ => True

instance (site : Site) : ∀ a, Decidable (LeavesNothing site a)
  | (_, .deleteUser _ _) => inferInstanceAs (Decidable (_ → _))
  | (_, .createAnonymousBoard _) => inferInstanceAs (Decidable (_ → _))
  | (_, .createUser _) | (_, .claimTemporaryBoard _ _) | (_, .act _) => .isTrue trivial

/-! ## References to users -/

section

variable {db : DB} {u : ℤ}

theorem DB.mem_looseRefs : u ∈ db.looseRefs ↔
    (∃ t ∈ db.todos, t.assigneeUserID = some u) ∨ ∃ p ∈ db.projects, p.creatorUserID = some u := by
  simp only [DB.looseRefs, List.mem_append, List.mem_filterMap]

theorem DB.owner_mem_userRefs {p : ProjectRow} (hp : p ∈ db.projects) (hu : p.ownerUserID = some u) :
    u ∈ db.userRefs := by
  simp only [DB.userRefs, List.mem_append, List.mem_filterMap]
  exact .inl (.inl (.inl (.inl ⟨p, hp, hu⟩)))

theorem DB.member_mem_userRefs {m : MemberRow} (hm : m ∈ db.members) : m.userID ∈ db.userRefs := by
  simp only [DB.userRefs, List.mem_append]
  exact .inl (.inl (.inl (.inr (List.mem_map_of_mem hm))))

end

/-- Foreign keys hold, and todos have distinct ids. -/
structure AccountInv (site : Site) : Prop where
  todoIDs : (site.db.todos.map (·.id)).Nodup
  keys : ∀ u ∈ site.db.userRefs, u ∈ site.db.users

/-- No plain number names an id that is still to be given. -/
def Settled (site : Site) : Prop := ∀ u ∈ site.db.looseRefs, u < site.nextUserID

section

variable {site site' : Site}

theorem AccountInv.untouched_iff (h : AccountInv site) :
    Untouched site.db site.nextUserID ↔ site.nextUserID ∉ site.db.looseRefs := by
  have hfree : site.nextUserID ∉ site.db.userRefs := fun hmem => nextRowid_not_mem _ (h.keys _ hmem)
  rw [DB.mem_looseRefs]
  constructor
  · rintro huntouched (⟨t, ht, heq⟩ | ⟨p, hp, heq⟩)
    · exact huntouched.unassigned t ht heq
    · exact huntouched.notCreator p hp heq
  · intro hloose
    refine ⟨fun t ht heq => hloose (.inl ⟨t, ht, heq⟩), fun p hp heq => ?_,
      fun p hp heq => hloose (.inr ⟨p, hp, heq⟩), fun m hm heq => ?_⟩
    · exact hfree (DB.owner_mem_userRefs hp heq)
    · exact hfree (heq ▸ DB.member_mem_userRefs hm)

theorem commit_eq_ok {db : DB} : site.commit db = .ok site' ↔
    (∀ u ∈ ({ db with users := site.db.users } : DB).userRefs, u ∈ site.db.users) ∧
      site' = { site with db := { db with users := site.db.users }, agree := site.agree } := by
  simp only [Site.commit, bind_eq_ok, reject_eq_ok, pure_eq_ok, not_exists, not_and, not_not]
  constructor
  · rintro ⟨_, hkeys, rfl⟩
    exact ⟨hkeys, rfl⟩
  · rintro ⟨hkeys, rfl⟩
    exact ⟨(), hkeys, rfl⟩

/-- What a transaction that succeeds leaves. -/
theorem commit_spec_ok {db : DB} (h : site.commit db = .ok site') (hids : (db.todos.map (·.id)).Nodup) :
    AccountInv site' ∧ site'.users = site.users ∧ site'.nextUserID = site.nextUserID ∧
      site'.db.looseRefs = db.looseRefs := by
  obtain ⟨hkeys, rfl⟩ := commit_eq_ok.mp h
  exact ⟨⟨hids, hkeys⟩, rfl, rfl, rfl⟩

end

/-! ## New accounts -/

theorem nextRowid_concat (ids : List ℤ) : nextRowid (ids ++ [nextRowid ids]) = nextRowid ids + 1 := by
  unfold nextRowid
  by_cases hids : ids = []
  · rw [hids]
    rfl
  · rw [coalesceMax_concat hids]
    omega

section

variable {ctx : Ctx} {site site' : Site} {account : NewAccount}

theorem seedDefaultBoardMembership_eq (db : DB) (userID : ℤ) (board : Option (ℤ × ProjectRole)) :
    ∃ members, seedDefaultBoardMembership ctx db userID board = { db with members := members } := by
  unfold seedDefaultBoardMembership
  split
  · exact ⟨_, rfl⟩
  · split
    · exact ⟨_, rfl⟩
    · exact ⟨_, rfl⟩

/-- A new account gets the next id, and nothing but memberships changes besides. -/
structure Joins (site site' : Site) : Prop where
  users : ∃ role, site'.users = site.users ++ [⟨site.nextUserID, role⟩]
  next : site'.nextUserID = site.nextUserID + 1
  loose : site'.db.looseRefs = site.db.looseRefs

theorem insertUser_joins (role : SystemRole) : Joins site (site.insertUser role) where
  users := ⟨role, rfl⟩
  next := nextRowid_concat _
  loose := rfl

theorem insertUser_inv (h : AccountInv site) (role : SystemRole) : AccountInv (site.insertUser role) where
  todoIDs := h.todoIDs
  keys := fun u hu => List.mem_append_left _ (h.keys u hu)

theorem seeded_spec (h : AccountInv site) (role : SystemRole) {userID : ℤ}
    {board : Option (ℤ × ProjectRole)} (hok : (site.insertUser role).commit
      (seedDefaultBoardMembership ctx (site.insertUser role).db userID board) = .ok site') :
    AccountInv site' ∧ Joins site site' := by
  have hjoins := @insertUser_joins site role
  obtain ⟨members, hseed⟩ := @seedDefaultBoardMembership_eq ctx (site.insertUser role).db userID board
  rw [hseed] at hok
  obtain ⟨hinv, husers, hnext, hloose⟩ := commit_spec_ok hok h.todoIDs
  exact ⟨hinv, husers ▸ hjoins.users, hnext.trans hjoins.next, hloose⟩

theorem createUser_spec (h : AccountInv site) (hok : site.createUser ctx account = .ok site') :
    AccountInv site' ∧ Joins site site' := by
  simp only [Site.createUser, bind_eq_ok] at hok
  obtain ⟨_, _, hok⟩ := hok
  split at hok
  · simp only [bind_eq_ok, pure_eq_ok] at hok
    obtain ⟨_, _, rfl⟩ := hok
    exact ⟨insertUser_inv h _, insertUser_joins _⟩
  · exact seeded_spec h _ hok
  · simp only [bind_eq_ok] at hok
    obtain ⟨_, _, hok⟩ := hok
    split at hok
    · cases hok
      exact ⟨insertUser_inv h _, insertUser_joins _⟩
    · exact seeded_spec h _ hok

end

/-! ## Deletions -/

theorem filterMap_updateWhere {α β : Type} {p : α → Bool} {f : α → α} (g : α → Option β)
    (h : ∀ r, g (f r) = g r) (t : List α) : (updateWhere p f t).filterMap g = t.filterMap g := by
  have hid : ∀ t : List α, t.filterMap g = (t.map g).filterMap id := fun t => by
    rw [List.filterMap_map]
    rfl
  rw [hid, hid, map_updateWhere g h]

section

variable {site site' : Site} {requesterID targetUserID : ℤ}

/-- The assignees and the creators stay. -/
theorem looseRefs_without (site : Site) (userID : ℤ) :
    (site.without userID).db.looseRefs = site.db.looseRefs := by
  unfold DB.looseRefs
  simp only [Site.without, deleteUserRows]
  rw [filterMap_updateWhere (f := fun t : TodoRow => { t with createdByUserID := none }) _ fun _ => rfl]

/-- A foreign key that is left names a user that is left. -/
theorem userRefs_without {u userID : ℤ} (howner : ∀ p ∈ site.db.projects, p.ownerUserID ≠ some userID)
    (hu : u ∈ (site.without userID).db.userRefs) : u ∈ site.db.userRefs ∧ u ≠ userID := by
  simp only [DB.userRefs, Site.without, deleteUserRows, List.mem_append, List.mem_filterMap, List.mem_map,
    mem_deleteWhere, mem_updateWhere] at hu ⊢
  rcases hu with (((⟨p, hp, heq⟩ | ⟨m, ⟨hm, hne⟩, rfl⟩) | ⟨t', ⟨t, ht, rfl⟩, heq⟩) | ⟨g, ⟨hg, hne⟩, heq⟩) |
    ⟨c, ⟨hc, hne⟩, rfl⟩
  · exact ⟨.inl (.inl (.inl (.inl ⟨p, hp, heq⟩))), fun hself => howner p hp (hself ▸ heq)⟩
  · exact ⟨.inl (.inl (.inl (.inr ⟨m, hm, rfl⟩))), by simpa using hne⟩
  · split at heq
    · cases heq
    · rename_i hne
      refine ⟨.inl (.inl (.inr ⟨t, ht, heq⟩)), fun hself => hne ?_⟩
      rw [heq, hself]
      exact beq_self_eq_true _
  · refine ⟨.inl (.inr ⟨g, hg, heq⟩), ?_⟩
    rintro rfl
    rw [heq] at hne
    simp at hne
  · exact ⟨.inr ⟨c, hc, rfl⟩, by simp at hne; exact hne.1⟩

theorem deleteUser_inv (h : AccountInv site) (hok : site.deleteUser requesterID targetUserID = .ok site') :
    AccountInv site' := by
  have heq := deleteUser_eq_ok hok
  simp only [Site.deleteUser, bind_eq_ok, reject_eq_ok, not_exists, not_and] at hok
  obtain ⟨_, _, _, _, _, _, _, _, _, howner, _⟩ := hok
  subst heq
  refine ⟨?_, fun u hu => ?_⟩
  · simp only [Site.without, deleteUserRows]
    rw [map_updateWhere (f := fun t : TodoRow => { t with createdByUserID := none }) _ fun _ => rfl]
    exact h.todoIDs
  · obtain ⟨hmem, hne⟩ := userRefs_without howner hu
    exact mem_deleteWhere.mpr ⟨h.keys u hmem, by simpa using hne⟩

theorem deleteUser_settled_iff (hok : site.deleteUser requesterID targetUserID = .ok site') :
    Settled site' ↔ ∀ u ∈ site.db.looseRefs, u < nextRowid (deleteWhere (· == targetUserID) site.db.users) := by
  rw [deleteUser_eq_ok hok, Settled, looseRefs_without]
  rfl

end

/-! ## Boards -/

section

variable {rt : Runtime} {ctx : Ctx} {db : DB} {draws : List String}

/-- The row of a new board is the only one that tells users, but for the tags of a board of nobody. -/
theorem insertAnonymousBoard_refs (slug : String) :
    (insertAnonymousBoard rt ctx db slug).1.todos = db.todos ∧
      (insertAnonymousBoard rt ctx db slug).1.looseRefs = db.looseRefs ++ ctx.userID.toList ∧
      (ctx.userID ≠ none → (insertAnonymousBoard rt ctx db slug).1.userRefs = db.userRefs) := by
  have hrow : ∀ tags todoTags projectTags userTagColors priorities,
      ({ db with
        projects := db.projects ++ [{ anonymousBoardRow ctx slug with id := nextRowid (db.projects.map (·.id)) }]
        priorities := priorities
        tags := tags
        todoTags := todoTags
        projectTags := projectTags
        userTagColors := userTagColors } : DB).looseRefs = db.looseRefs ++ ctx.userID.toList := by
    intro tags todoTags projectTags userTagColors priorities
    rw [DB.looseRefs, DB.looseRefs, List.filterMap_append, List.append_assoc]
    cases huser : ctx.userID with
    | none => simp [anonymousBoardRow, huser]
    | some userID => simp [anonymousBoardRow, huser]
  obtain ⟨priorities, hpriorities⟩ := (ensureDefaultPriorityTiers_prioritiesOnly
    (appendProject db (anonymousBoardRow ctx slug)).1 (appendProject db (anonymousBoardRow ctx slug)).2).exists_eq
  unfold insertAnonymousBoard
  dsimp only
  rw [hpriorities]
  split
  · rename_i huser
    obtain ⟨tags, todoTags, projectTags, userTagColors, htags⟩ := (createDefaultBoardScopedTags_tagsOnly rt ctx
      { (appendProject db (anonymousBoardRow ctx slug)).1 with priorities := priorities }
      (appendProject db (anonymousBoardRow ctx slug)).2).exists_eq
    rw [htags]
    exact ⟨rfl, hrow _ _ _ _ _, fun hsome => absurd huser hsome⟩
  · refine ⟨rfl, hrow _ _ _ _ _, fun _ => ?_⟩
    simp [DB.userRefs, appendProject, anonymousBoardRow, defaultProjectRow]

/-- A board that is made brings its creator. -/
theorem createAnonymousBoard_refs :
    (createAnonymousBoard rt ctx db draws).1 = db ∧ (∀ slug ∈ draws.take 10, slugExists db slug = true) ∨
      (∃ slug ∈ draws.take 10, slugExists db slug = false) ∧
      (createAnonymousBoard rt ctx db draws).1.todos = db.todos ∧
      (createAnonymousBoard rt ctx db draws).1.looseRefs = db.looseRefs ++ ctx.userID.toList ∧
      (ctx.userID ≠ none → (createAnonymousBoard rt ctx db draws).1.userRefs = db.userRefs) := by
  unfold createAnonymousBoard
  split
  · rename_i hfind
    exact .inl ⟨rfl, by simpa using hfind⟩
  · rename_i slug hfind
    obtain ⟨htodos, hloose, hkeys⟩ := @insertAnonymousBoard_refs rt ctx db slug
    refine .inr ⟨⟨slug, List.mem_of_find?_eq_some hfind, by simpa using List.find?_some hfind⟩, ?_⟩
    generalize insertAnonymousBoard rt ctx db slug = out at htodos hloose hkeys
    dsimp only
    split
    · exact ⟨htodos, hloose, hkeys⟩
    · rename_i db' hok
      obtain ⟨_, rfl⟩ := (ensureDefaultWorkflowColumns_spec hok).1.exists_eq
      exact ⟨htodos, hloose, hkeys⟩

end

section

variable {ctx : Ctx} {site site' : Site} {projectID userID : ℤ}

theorem upsertMaintainer_eq (db : DB) (projectID userID nowMs : ℤ) :
    ∃ members, Site.upsertMaintainer db projectID userID nowMs = { db with members := members } := by
  unfold Site.upsertMaintainer
  split
  · exact ⟨_, rfl⟩
  · exact ⟨_, rfl⟩

/-- A claim is open to the creator, and leaves the creator as it is. -/
theorem claimTemporaryBoard_spec (h : AccountInv site)
    (hok : site.claimTemporaryBoard ctx projectID userID = .ok site') :
    AccountInv site' ∧ site'.nextUserID = site.nextUserID ∧ site'.db.looseRefs = site.db.looseRefs := by
  simp only [Site.claimTemporaryBoard, bind_eq_ok] at hok
  obtain ⟨_, _, _, _, _, _, hok⟩ := hok
  obtain ⟨members, hmembers⟩ := upsertMaintainer_eq { site.db with
    projects := updateWhere (Site.claimable projectID userID ctx.nowMs) (fun p => { p with
      ownerUserID := some userID, expiresAt := none, lastActivityAt := ctx.nowMs, updatedAt := ctx.nowMs })
      site.db.projects } projectID userID ctx.nowMs
  rw [hmembers] at hok
  obtain ⟨hinv, _, hnext, hloose⟩ := commit_spec_ok hok h.todoIDs
  refine ⟨hinv, hnext, hloose.trans ?_⟩
  rw [DB.looseRefs, DB.looseRefs, filterMap_updateWhere (f := fun p : ProjectRow => { p with
    ownerUserID := some userID, expiresAt := none, lastActivityAt := ctx.nowMs, updatedAt := ctx.nowMs })
    _ fun _ => rfl]

end

/-! ## Actions on todos -/

section

variable {rt : Runtime} {ctx : Ctx} {db db' : DB}

theorem creators_of_quiet (h : db'.projects.map ProjectRow.quiet = db.projects.map ProjectRow.quiet) :
    db'.projects.filterMap (·.creatorUserID) = db.projects.filterMap (·.creatorUserID) := by
  have hquiet : ∀ db : DB, db.projects.filterMap (·.creatorUserID) =
      (db.projects.map ProjectRow.quiet).filterMap (·.creatorUserID) := fun db => by
    rw [List.filterMap_map]
    rfl
  rw [hquiet, hquiet, h]

/-- A project that somebody creates has an owner, but no creator. -/
theorem createProjectWithWorkflow_creators {name : String} {workflow : Option (List WorkflowColumn)}
    {out : DB × ℤ} (h : createProjectWithWorkflow ctx db name workflow = .ok out) :
    out.1.projects.filterMap (·.creatorUserID) = db.projects.filterMap (·.creatorUserID) := by
  simp only [createProjectWithWorkflow, bind_eq_ok, pure_eq_ok] at h
  obtain ⟨_, _, owner, _, base, _, slug, _, db₂, hworkflow, rfl⟩ := h
  obtain ⟨columns, rfl⟩ := (createWorkflow_spec hworkflow).1.exists_eq
  obtain ⟨members, hmembers⟩ := insertOwner_eq
    (appendProject db (newProjectRow ctx.nowMs (trimSpace name) slug owner)).1
    (appendProject db (newProjectRow ctx.nowMs (trimSpace name) slug owner)).2 ctx.nowMs owner
  rw [hmembers]
  obtain ⟨priorities, hprio⟩ := (ensureDefaultPriorityTiers_prioritiesOnly _ _).exists_eq
  dsimp only
  rw [hprio]
  simp [appendProject, newProjectRow, defaultProjectRow]

theorem Request.exec_creators {r : Request} (h : r.exec rt ctx db = .ok db') :
    db'.projects.filterMap (·.creatorUserID) = db.projects.filterMap (·.creatorUserID) := by
  cases r with
  | createProject name workflow =>
      obtain ⟨⟨db', id⟩, hout, rfl⟩ := map_eq_ok.mp h
      exact createProjectWithWorkflow_creators hout
  | addWorkflowColumn projectID name =>
      obtain ⟨⟨db', col⟩, hout, rfl⟩ := map_eq_ok.mp h
      obtain ⟨_, heq⟩ := (addWorkflowColumn_spec hout).1.exists_eq
      exact congrArg (fun s : DB => s.projects.filterMap (·.creatorUserID)) heq
  | deleteWorkflowColumn projectID key =>
      obtain ⟨_, rfl⟩ := (deleteWorkflowColumn_columnsOnly h).exists_eq
      rfl
  | createTodo projectID input =>
      obtain ⟨⟨db', todo⟩, hout, rfl⟩ := map_eq_ok.mp h
      obtain ⟨_, _, _, _, _, _, hquiet⟩ := createTodo_spec hout
      exact creators_of_quiet hquiet
  | moveTodo todoID toColumnKey afterID beforeID =>
      obtain ⟨⟨db', row⟩, hout, rfl⟩ := map_eq_ok.mp h
      obtain ⟨_, _, _, _, _, _, _, _, _, _, _, hquiet⟩ := moveTodo_spec hout
      exact creators_of_quiet hquiet
  | deleteTodo todoID =>
      obtain ⟨_, _, _, ⟨_, _, _, rfl, hquiet⟩, _⟩ := deleteTodo_spec h
      exact creators_of_quiet hquiet
  | archiveTodos projectID ids archive =>
      obtain ⟨out, hout, rfl⟩ := map_eq_ok.mp h
      obtain ⟨_, _, hquiet⟩ := archiveTodosByLocalID_spec hout
      exact creators_of_quiet hquiet
  | _ =>
      obtain ⟨_, _, rfl⟩ := (Request.exec_wallOnly rfl rfl h).exists_eq
      rfl

/-- No action on todos touches the creator of a project. -/
theorem Action.exec_creators {a : Action} (h : a.exec rt ctx db = .ok db') :
    db'.projects.filterMap (·.creatorUserID) = db.projects.filterMap (·.creatorUserID) := by
  cases a with
  | request r => exact Request.exec_creators h
  | updateTodo todoID input =>
      obtain ⟨⟨db', todo⟩, hout, rfl⟩ := map_eq_ok.mp h
      obtain ⟨_, _, _, _, _, _, hquiet⟩ := updateTodo_spec hout
      exact creators_of_quiet hquiet
  | addLink projectID fromLocalID toLocalID linkType =>
      simp only [exec, Scrumboy.addLink, bind_eq_ok, pure_eq_ok] at h
      obtain ⟨_, _, _, _, _, _, _, _, _, _, _, _, rfl⟩ := h
      split <;> rfl
  | removeLink projectID fromLocalID toLocalID =>
      simp only [exec, Scrumboy.removeLink, bind_eq_ok, pure_eq_ok] at h
      obtain ⟨_, _, _, _, _, _, rfl⟩ := h
      rfl
  | addMember requesterID projectID targetUserID role =>
      simp only [exec, addProjectMember, bind_eq_ok, pure_eq_ok] at h
      obtain ⟨_, _, _, _, _, _, _, _, rfl⟩ := h
      rfl
  | changeMember req =>
      rcases MemberRequest.exec_eq_ok h with rfl | ⟨_, hcommit⟩
      · rfl
      · unfold MemberRequest.commit at hcommit
        split at hcommit
        · cases hcommit
        · cases req with
          | remove requesterID projectID targetUserID =>
              cases hcommit
              rfl
          | updateRole requesterID projectID targetUserID newRole =>
              cases hcommit
              rfl
  | addPriorityTier projectID name =>
      obtain ⟨_, rfl⟩ := (addPriorityTier_prioritiesOnly h).exists_eq
      rfl
  | deletePriorityTier projectID key =>
      obtain ⟨_, rfl⟩ := (deletePriorityTier_prioritiesOnly h).exists_eq
      rfl
  | claimDueReminders setting limit =>
      obtain ⟨⟨db', reminders⟩, hout, rfl⟩ := map_eq_ok.mp h
      simp only [Scrumboy.claimDueReminders, bind_eq_ok] at hout
      obtain ⟨leadHours, _, hout⟩ := hout
      split at hout
      · rw [pure_eq_ok, Prod.mk.injEq] at hout
        rw [← hout.1]
      · simp only [bind_eq_ok, pure_eq_ok, Prod.mk.injEq] at hout
        obtain ⟨_, _, rfl, _⟩ := hout
        rfl

theorem exists_member_of_role {projectID userID : ℤ} (h : getProjectRole db projectID userID ≠ none) :
    ∃ m ∈ db.members, m.userID = userID := by
  obtain ⟨role, hrole⟩ := Option.ne_none_iff_exists'.mp h
  obtain ⟨m, hm, hkey, _⟩ := getProjectRole_eq_some hrole
  exact ⟨m, hm, congrArg Prod.snd hkey⟩

/-- Who is assigned after an action was assigned before, or is a member of a project. -/
theorem Action.exec_looseRefs (hids : (db.todos.map (·.id)).Nodup) {a : Action}
    (h : a.exec rt ctx db = .ok db') {u : ℤ} (hu : u ∈ db'.looseRefs) :
    u ∈ db.looseRefs ∨ ∃ m ∈ db.members, m.userID = u := by
  rcases DB.mem_looseRefs.mp hu with ⟨t, ht, hassigned⟩ | hcreator
  · rcases (Action.exec_todosStep hids h).source ht with ⟨t₀, ht₀, hrow⟩ | hnew
    · have hsame : t₀.assigneeUserID = some u → u ∈ db.looseRefs :=
        fun heq => DB.mem_looseRefs.mpr (.inl ⟨t₀, ht₀, heq⟩)
      cases hrow with
      | edited p input hinput => exact .inr (exists_member_of_role (hinput.assignee u hassigned).2)
      | unassigned => cases hassigned
      | ranked rank => exact .inl (hsame hassigned)
      | moved rank current target hactive hcurrent htarget => exact .inl (hsame hassigned)
      | archived ms hchange => exact .inl (hsame hassigned)
      | body text => exact .inl (hsame hassigned)
      | reminded hpending => exact .inl (hsame hassigned)
    · exact .inr (exists_member_of_role (hnew.assignee u hassigned))
  · left
    have hmem : u ∈ db'.projects.filterMap (·.creatorUserID) := List.mem_filterMap.mpr hcreator
    rw [Action.exec_creators h] at hmem
    exact List.mem_append_right _ hmem

end

/-! ## Runs -/

section

variable {rt : Runtime} {ctx : Ctx} {site site' : Site} {a : SiteAction}

theorem Joins.settled (h : Joins site site') (hs : Settled site) : Settled site' := by
  intro u hu
  rw [h.loose] at hu
  rw [h.next]
  exact Int.lt_add_one_of_le (hs u hu).le

theorem exec_inv (h : AccountInv site) (hok : site.exec rt ctx a = .ok site') : AccountInv site' := by
  cases a with
  | createUser account => exact (createUser_spec h hok).1
  | deleteUser requesterID targetUserID => exact deleteUser_inv h hok
  | createAnonymousBoard draws =>
      refine (commit_spec_ok hok ?_).1
      rcases @createAnonymousBoard_refs rt ctx site.db draws with
        ⟨heq, _⟩ | ⟨_, htodos, _⟩
      · rw [heq]
        exact h.todoIDs
      · rw [htodos]
        exact h.todoIDs
  | claimTemporaryBoard projectID userID => exact (claimTemporaryBoard_spec h hok).1
  | act a =>
      simp only [Site.exec, bind_eq_ok] at hok
      obtain ⟨db, hexec, hok⟩ := hok
      exact (commit_spec_ok hok ((Action.exec_todosStep h.todoIDs hexec).ids h.todoIDs)).1

/-- Only deletions and new boards may give a free id a meaning. -/
theorem exec_settled (h : AccountInv site) (hs : Settled site) (hleaves : LeavesNothing site (ctx, a))
    (hok : site.exec rt ctx a = .ok site') : Settled site' := by
  cases a with
  | createUser account => exact (createUser_spec h hok).2.settled hs
  | deleteUser requesterID targetUserID =>
      have hisOk : (site.deleteUser requesterID targetUserID).isOk = true := by
        rw [show site.deleteUser requesterID targetUserID = .ok site' from hok]
        rfl
      exact (deleteUser_settled_iff hok).mpr (hleaves hisOk)
  | createAnonymousBoard draws =>
      rcases @createAnonymousBoard_refs rt ctx site.db draws with
        ⟨heq, _⟩ | ⟨hfree, htodos, hloose, _⟩
      · obtain ⟨_, _, hnext, hrefs⟩ := commit_spec_ok hok (by rw [heq]; exact h.todoIDs)
        intro u hu
        rw [hrefs, heq] at hu
        rw [hnext]
        exact hs u hu
      · obtain ⟨_, _, hnext, hrefs⟩ := commit_spec_ok hok (by rw [htodos]; exact h.todoIDs)
        intro u hu
        rw [hrefs, hloose, List.mem_append, Option.mem_toList] at hu
        rw [hnext]
        rcases hu with hu | hu
        · exact hs u hu
        · exact hleaves hfree u hu
  | claimTemporaryBoard projectID userID =>
      obtain ⟨_, hnext, hrefs⟩ := claimTemporaryBoard_spec h hok
      rw [Settled, hrefs, hnext]
      exact hs
  | act a =>
      simp only [Site.exec, bind_eq_ok] at hok
      obtain ⟨db, hexec, hok⟩ := hok
      obtain ⟨_, _, hnext, hrefs⟩ :=
        commit_spec_ok hok ((Action.exec_todosStep h.todoIDs hexec).ids h.todoIDs)
      intro u hu
      rw [hrefs] at hu
      rw [hnext]
      rcases Action.exec_looseRefs h.todoIDs hexec hu with hu | ⟨m, hm, rfl⟩
      · exact hs u hu
      · exact lt_nextRowid (h.keys _ (DB.member_mem_userRefs hm))

/-- A step that leaves the free ids without a meaning met the condition. -/
theorem leavesNothing_of_settled (h : AccountInv site) (a : Ctx × SiteAction)
    (hs : Settled (site.step rt a)) : LeavesNothing site a := by
  obtain ⟨ctx, a⟩ := a
  cases a with
  | createUser account => trivial
  | deleteUser requesterID targetUserID =>
      intro hisOk
      obtain ⟨site', hok⟩ := exists_of_isOk hisOk
      have hstep : site.step rt (ctx, .deleteUser requesterID targetUserID) = site' := by
        simp only [Site.step, Site.exec, hok, Except.toOption, Option.getD_some]
      exact (deleteUser_settled_iff hok).mp (hstep ▸ hs)
  | createAnonymousBoard draws =>
      rintro ⟨slug, hslug, hfree⟩ u hu
      rcases @createAnonymousBoard_refs rt ctx site.db draws with
        ⟨_, htaken⟩ | ⟨_, _, hloose, hkeys⟩
      · cases (htaken slug hslug).symm.trans hfree
      · have husers : ∀ u ∈ (createAnonymousBoard rt ctx site.db draws).1.userRefs, u ∈ site.db.users := by
          rw [hkeys (by rw [hu]; simp)]
          exact h.keys
        have hstep : site.step rt (ctx, .createAnonymousBoard draws) = { site with
            db := { (createAnonymousBoard rt ctx site.db draws).1 with users := site.db.users }
            agree := site.agree } := by
          simp only [Site.step, Site.exec, commit_eq_ok.mpr ⟨husers, rfl⟩, Except.toOption, Option.getD_some]
        rw [hstep] at hs
        have hmem : u ∈ (createAnonymousBoard rt ctx site.db draws).1.looseRefs := by
          rw [hloose]
          exact List.mem_append_right _ (Option.mem_toList.mpr hu)
        exact hs u hmem
  | claimTemporaryBoard projectID userID => trivial
  | act a => trivial

/-- A transition keeps what every successful action keeps. -/
theorem step_of_exec {P : Site → Prop} (h : P site) {a : Ctx × SiteAction}
    (hexec : ∀ site', site.exec rt a.1 a.2 = .ok site' → P site') : P (site.step rt a) := by
  unfold Site.step
  cases hok : site.exec rt a.1 a.2 with
  | error e => exact h
  | ok site' => exact hexec site' hok

theorem empty_inv : AccountInv .empty where
  todoIDs := List.nodup_nil
  keys := by simp [Site.empty, DB.userRefs]

theorem empty_settled : Settled .empty := by simp [Settled, Site.empty, DB.looseRefs]

theorem run_accountInv (l : List (Ctx × SiteAction)) (h : AccountInv site) :
    AccountInv (run (Site.step rt) site l) := by
  induction l generalizing site with
  | nil => exact h
  | cons a l ih => exact ih (step_of_exec h fun site' => exec_inv h)

/-- As long as every step meets the condition, the free ids mean nothing. -/
theorem run_settled {l : List (Ctx × SiteAction)} (h : AccountInv site) (hs : Settled site)
    (hl : Along LeavesNothing (Site.step rt) site l) : Settled (run (Site.step rt) site l) := by
  have hboth : AccountInv (run (Site.step rt) site l) ∧ Settled (run (Site.step rt) site l) := by
    refine run_along (I := fun site => AccountInv site ∧ Settled site) ?_ ⟨h, hs⟩ hl
    intro site a hsite hleaves
    exact step_of_exec (P := fun site => AccountInv site ∧ Settled site) hsite fun site' hok =>
      ⟨exec_inv hsite.1 hok, exec_settled hsite.1 hsite.2 hleaves hok⟩
  exact hboth.2

/-- A user who is new has the next id. -/
theorem createUser_new {account : NewAccount} (h : AccountInv site)
    (hok : site.createUser ctx account = .ok site') {u : UserRow} (hu : u ∈ site'.users)
    (hnew : u ∉ site.users) : u.id = site.nextUserID := by
  obtain ⟨role, husers⟩ := (createUser_spec h hok).2.users
  rw [husers, List.mem_append, List.mem_singleton] at hu
  rw [hu.resolve_left hnew]

theorem accountsUntouched_of_along {l : List (Ctx × SiteAction)}
    (hl : Along LeavesNothing (Site.step rt) .empty l) : AccountsUntouched rt l := by
  rintro past ctx account future site' rfl hok u hu hnew
  have hinv := @run_accountInv rt _ past empty_inv
  have hsettled := run_settled empty_inv empty_settled hl.of_append
  rw [createUser_new hinv hok hu hnew, hinv.untouched_iff]
  exact fun hmem => lt_irrefl _ (hsettled _ hmem)

/-- A request that always succeeds. -/
def plainSignUp : NewAccount := ⟨.created, .ok (), none⟩

theorem createUser_plain (h : AccountInv site) :
    site.createUser ctx plainSignUp = .ok (site.insertUser .user) :=
  commit_eq_ok.mpr ⟨(insertUser_inv h .user).keys, rfl⟩

theorem run_signUps (h : AccountInv site) (ctx : Ctx) (n : ℕ) :
    (run (Site.step rt) site (List.replicate n (ctx, .createUser plainSignUp))).nextUserID =
        site.nextUserID + n ∧
      (run (Site.step rt) site (List.replicate n (ctx, .createUser plainSignUp))).db.looseRefs =
        site.db.looseRefs := by
  induction n generalizing site with
  | zero => exact ⟨(Int.add_zero _).symm, rfl⟩
  | succ n ih =>
      have hstep : site.step rt (ctx, .createUser plainSignUp) = site.insertUser .user := by
        simp only [Site.step, Site.exec, createUser_plain h, Except.toOption, Option.getD_some]
      rw [List.replicate_succ, run_cons, hstep]
      obtain ⟨hnext, hloose⟩ := ih (insertUser_inv h .user)
      have hjoins := @insertUser_joins site .user
      refine ⟨?_, hloose.trans hjoins.loose⟩
      rw [hnext, hjoins.next]
      push_cast
      omega

theorem insertUser_mem (site : Site) : ⟨site.nextUserID, .user⟩ ∈ (site.insertUser .user).users :=
  List.mem_append_right _ (List.mem_singleton_self _)

theorem nextUserID_not_mem (site : Site) (role : SystemRole) : ⟨site.nextUserID, role⟩ ∉ site.users := by
  intro hmem
  have hid := List.mem_map_of_mem (f := fun u : UserRow => u.id) hmem
  rw [← site.agree] at hid
  exact nextRowid_not_mem _ hid

/-- An account at the end of a run that finds nothing. -/
theorem AccountsUntouched.last {l : List (Ctx × SiteAction)}
    (h : AccountsUntouched rt (l ++ [(ctx, SiteAction.createUser plainSignUp)])) :
    (run (Site.step rt) .empty l).nextUserID ∉ (run (Site.step rt) .empty l).db.looseRefs := by
  have hinv := @run_accountInv rt _ l empty_inv
  refine hinv.untouched_iff.mp ?_
  exact h l ctx plainSignUp [] _ rfl (createUser_plain hinv) _ (insertUser_mem _) (nextUserID_not_mem _ _)

/-- If no number of new accounts meets a trace of a user, the free ids mean nothing. -/
theorem settled_of_accountsUntouched {l : List (Ctx × SiteAction)}
    (h : ∀ more : List (Ctx × NewAccount),
      AccountsUntouched rt (l ++ more.map fun c => (c.1, SiteAction.createUser c.2))) :
    Settled (run (Site.step rt) .empty l) := by
  intro u hu
  by_contra hlt
  have ctx : Ctx := ⟨none, 0⟩
  obtain ⟨n, hn⟩ : ∃ n : ℕ, u = (run (Site.step rt) .empty l).nextUserID + n :=
    ⟨(u - (run (Site.step rt) .empty l).nextUserID).toNat, by omega⟩
  -- the account after `n` others gets the id `u`
  obtain ⟨hnext, hloose⟩ := @run_signUps rt _ (run_accountInv l empty_inv) ctx n
  have hmore := h (List.replicate (n + 1) (ctx, plainSignUp))
  rw [List.map_replicate, List.replicate_succ', ← List.append_assoc] at hmore
  have hlast := hmore.last
  rw [run_append, hnext, ← hn, hloose] at hlast
  exact hlast hu

end

/-- The condition holds along a run exactly if, after every part of the run, any further accounts
find nothing that is about them. -/
theorem accounts_untouched_iff (rt : Runtime) (l : List (Ctx × SiteAction)) :
    Along LeavesNothing (Site.step rt) .empty l ↔
      ∀ past, past <+: l → ∀ more : List (Ctx × NewAccount),
        AccountsUntouched rt (past ++ more.map fun c => (c.1, SiteAction.createUser c.2)) := by
  constructor
  · rintro hl past ⟨future, rfl⟩ more
    refine accountsUntouched_of_along ?_
    induction more using List.reverseRecOn with
    | nil =>
        rw [List.map_nil, List.append_nil]
        exact hl.of_append
    | append_singleton more c ih =>
        rw [List.map_append, ← List.append_assoc, List.map_singleton]
        exact along_concat.mpr ⟨ih, trivial⟩
  · intro h
    induction l using List.reverseRecOn with
    | nil => trivial
    | append_singleton l a ih =>
        refine along_concat.mpr ⟨ih fun past hpast => h past (hpast.trans (List.prefix_append l [a])), ?_⟩
        have hsettled := settled_of_accountsUntouched (h (l ++ [a]) (List.prefix_refl _))
        rw [run_concat] at hsettled
        exact leavesNothing_of_settled (run_accountInv l empty_inv) a hsettled

/-- The second user is assigned a todo of the first one, makes a temporary board and is deleted. -/
def forgottenUser : List (Ctx × SiteAction) :=
  [(⟨none, 1⟩, .createUser ⟨.bootstrap, .ok (), none⟩),
    (⟨some 1, 2⟩, .createUser plainSignUp),
    (⟨some 1, 3⟩, .act (.request (.createProject "Board" none))),
    (⟨some 1, 4⟩, .act (.addMember 1 1 2 .contributor)),
    (⟨some 1, 5⟩, .act (.request (.createTodo 1 { title := "a", assigneeUserID := some 2 }))),
    (⟨some 2, 6⟩, .createAnonymousBoard ["draft"]),
    (⟨some 1, 7⟩, .deleteUser 1 2)]

/-- The next account has the todo, and may claim the board. -/
theorem account_inherits :
    ¬ AccountsUntouched plainRuntime
        (forgottenUser ++ [((⟨some 1, 8⟩ : Ctx), SiteAction.createUser plainSignUp)]) ∧
      (∃ t ∈ (run (Site.step plainRuntime) .empty
        (forgottenUser ++ [((⟨some 1, 8⟩ : Ctx), SiteAction.createUser plainSignUp)])).db.todos,
          t.assigneeUserID = some 2) ∧
      ((run (Site.step plainRuntime) .empty
        (forgottenUser ++ [((⟨some 1, 8⟩ : Ctx), SiteAction.createUser plainSignUp)])).claimTemporaryBoard
          ⟨some 2, 9⟩ 2 2).isOk = true := by
  refine ⟨fun h => h.last ?_, ?_, ?_⟩
  · decide +kernel
  · decide +kernel
  · decide +kernel

end Scrumboy
