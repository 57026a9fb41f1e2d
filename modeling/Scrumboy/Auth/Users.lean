import Scrumboy.Store.Memberships
import Scrumboy.Store.Projects

/-!
# Users

The accounts of a server with their system roles, and the deletion of a user. The
deletion is one statement on the table of users; what goes along with the row, or stays,
is up to the foreign keys of the other tables. A membership goes, and so does a tag of
the user; a todo keeps its assignee, which is no foreign key; and a project that the user
owns forbids the deletion.
-/

set_option linter.dupNamespace false

namespace Scrumboy

open Go Sql

inductive SystemRole
  | owner
  | admin
  | user
  deriving DecidableEq, Repr

def parseSystemRole : String → Option SystemRole
  | "owner" => some .owner
  | "admin" => some .admin
  | "user" => some .user
  | _ => none

structure UserRow where
  id : ℤ
  systemRole : SystemRole
  deriving DecidableEq, Repr

def UserRow.isOwner (u : UserRow) : Bool := u.systemRole == .owner

/-- A server: the table of users next to the tables of the boards, which know the users
by their ids. -/
structure Site where
  users : List UserRow
  db : DB
  ids : (users.map (·.id)).Nodup
  agree : db.users = users.map (·.id)

namespace Site

def getUser (site : Site) (userID : ℤ) : Result UserRow :=
  match site.users.find? (·.id == userID) with
  | some u => .ok u
  | none => .error ⟨.notFound, ""⟩

def requireOwner (site : Site) (userID : ℤ) : Result Unit := do
  let u ← site.getUser userID
  reject (u.systemRole ≠ .owner) ⟨.unauthorized, ""⟩

def countOwners (site : Site) : ℕ := site.users.countP UserRow.isOwner

end Site

/-- The rows that go along with a user. The creator of a todo is cleared. -/
def deleteUserRows (db : DB) (userID : ℤ) : DB :=
  let tagGone := fun id : ℤ => db.tags.any fun t => t.id == id && t.userID == some userID
  { db with
    users := deleteWhere (· == userID) db.users
    members := deleteWhere (·.userID == userID) db.members
    todos := updateWhere (·.createdByUserID == some userID) (fun t => { t with createdByUserID := none })
      db.todos
    tags := deleteWhere (·.userID == some userID) db.tags
    todoTags := deleteWhere (fun r => tagGone r.tagID) db.todoTags
    projectTags := deleteWhere (fun r => tagGone r.tagID) db.projectTags
    userTagColors := deleteWhere (fun c => c.userID == userID || tagGone c.tagID) db.userTagColors }

namespace Site

/-- The server without a user. -/
def without (site : Site) (userID : ℤ) : Site where
  users := deleteWhere (·.id == userID) site.users
  db := deleteUserRows site.db userID
  ids := site.ids.sublist (List.filter_sublist.map _)
  agree := by
    simp only [deleteUserRows, deleteWhere, site.agree, List.filter_map]
    rfl

/-- `UPDATE users SET system_role = ? WHERE id = ?`. -/
def setRole (site : Site) (userID : ℤ) (role : SystemRole) : Site where
  users := updateWhere (·.id == userID) (fun u => { u with systemRole := role }) site.users
  db := site.db
  ids := by
    rw [map_updateWhere (f := fun u => { u with systemRole := role }) UserRow.id fun _ => rfl]
    exact site.ids
  agree := by
    rw [map_updateWhere (f := fun u => { u with systemRole := role }) UserRow.id fun _ => rfl]
    exact site.agree

/-- The last owner stays. -/
def keepLastOwner (site : Site) (target : UserRow) (text : String) : Result Unit :=
  if target.isOwner then reject (site.countOwners ≤ 1) ⟨.validation, text⟩ else pure ()

/-- `DeleteUser`, one transaction. -/
def deleteUser (site : Site) (requesterID targetUserID : ℤ) : Result Site := do
  reject (requesterID = targetUserID) ⟨.validation, "cannot delete yourself"⟩
  site.requireOwner requesterID
  let target ← site.getUser targetUserID
  site.keepLastOwner target "cannot delete the last owner"
  reject (∃ p ∈ site.db.projects, p.ownerUserID = some targetUserID)
    ⟨.internal, "delete user: FOREIGN KEY constraint failed"⟩
  pure (site.without targetUserID)

end Site

/-! ## What the deletion of a user leaves -/

/-- Every durable project that had a maintainer has one, and no active todo is assigned
to the user. -/
structure LeavesOrder (db db' : DB) (userID : ℤ) : Prop where
  maintained : ∀ p ∈ db.projects, p.expiresAt = none → 1 ≤ countMaintainers db p.id →
    1 ≤ countMaintainers db' p.id
  unassigned : ∀ t ∈ db'.todos, t.archivedAt = none → t.assigneeUserID ≠ some userID

/-- The user may go: a durable project that they maintain has another maintainer, and no
active todo is assigned to them. -/
structure Dispensable (db : DB) (userID : ℤ) : Prop where
  maintained : ∀ p ∈ db.projects, p.expiresAt = none → ∀ m ∈ db.members, m.projectID = p.id →
    m.userID = userID → m.isMaintainer = true →
    ∃ m' ∈ db.members, m'.projectID = p.id ∧ m'.isMaintainer = true ∧ m'.userID ≠ userID
  unassigned : ∀ t ∈ db.todos, t.archivedAt = none → t.assigneeUserID ≠ some userID

theorem one_le_countMaintainers {db : DB} {projectID : ℤ} : 1 ≤ countMaintainers db projectID ↔
    ∃ m ∈ db.members, m.projectID = projectID ∧ m.isMaintainer = true := by
  rw [countMaintainers, Nat.one_le_iff_ne_zero, Ne, List.countP_eq_zero]
  simp only [Bool.and_eq_true, beq_iff_eq, not_forall, not_not, exists_prop]

section

variable {db : DB} {userID : ℤ}

theorem mem_members_deleteUserRows {m : MemberRow} :
    m ∈ (deleteUserRows db userID).members ↔ m ∈ db.members ∧ m.userID ≠ userID := by
  rw [deleteUserRows, mem_deleteWhere, beq_eq_false_iff_ne]

/-- A project keeps a maintainer when one of them is somebody else. -/
theorem maintained_deleteUserRows_iff {projectID : ℤ} :
    (1 ≤ countMaintainers db projectID → 1 ≤ countMaintainers (deleteUserRows db userID) projectID) ↔
      ∀ m ∈ db.members, m.projectID = projectID → m.userID = userID → m.isMaintainer = true →
        ∃ m' ∈ db.members, m'.projectID = projectID ∧ m'.isMaintainer = true ∧ m'.userID ≠ userID := by
  rw [one_le_countMaintainers, one_le_countMaintainers]
  simp only [mem_members_deleteUserRows]
  constructor
  · intro h m hm hproject _ hmaintains
    obtain ⟨m', ⟨hm', hother⟩, hproject', hmaintains'⟩ := h ⟨m, hm, hproject, hmaintains⟩
    exact ⟨m', hm', hproject', hmaintains', hother⟩
  · rintro h ⟨m, hm, hproject, hmaintains⟩
    by_cases hself : m.userID = userID
    · obtain ⟨m', hm', hproject', hmaintains', hother⟩ := h m hm hproject hself hmaintains
      exact ⟨m', ⟨hm', hother⟩, hproject', hmaintains'⟩
    · exact ⟨m, ⟨hm, hself⟩, hproject, hmaintains⟩

/-- The deletion does not touch assignments. -/
theorem unassigned_deleteUserRows_iff :
    (∀ t ∈ (deleteUserRows db userID).todos, t.archivedAt = none → t.assigneeUserID ≠ some userID) ↔
      ∀ t ∈ db.todos, t.archivedAt = none → t.assigneeUserID ≠ some userID := by
  have hmap : (deleteUserRows db userID).todos.map (fun t => (t.archivedAt, t.assigneeUserID)) =
      db.todos.map fun t => (t.archivedAt, t.assigneeUserID) :=
    map_updateWhere (f := fun t => { t with createdByUserID := none }) _ (fun _ => rfl) db.todos
  have hpairs : ∀ todos : List TodoRow,
      (∀ t ∈ todos, t.archivedAt = none → t.assigneeUserID ≠ some userID) ↔
        ∀ r ∈ todos.map (fun t => (t.archivedAt, t.assigneeUserID)), r.1 = none → r.2 ≠ some userID := by
    intro todos
    rw [List.forall_mem_map]
  rw [hpairs, hpairs, hmap]

theorem deleteUser_eq_ok {site site' : Site} {requesterID targetUserID : ℤ}
    (h : site.deleteUser requesterID targetUserID = .ok site') : site' = site.without targetUserID := by
  simp only [Site.deleteUser, bind_eq_ok, reject_eq_ok, pure_eq_ok] at h
  obtain ⟨_, _, _, _, _, _, _, _, _, _, rfl⟩ := h
  rfl

end

/-- The deletion of a user leaves every durable project with a maintainer and no active todo
with the user as its assignee exactly if the user is dispensable. -/
theorem deleteUser_leavesOrder_iff {site site' : Site} {requesterID targetUserID : ℤ}
    (h : site.deleteUser requesterID targetUserID = .ok site') :
    LeavesOrder site.db site'.db targetUserID ↔ Dispensable site.db targetUserID := by
  rw [deleteUser_eq_ok h]
  refine ⟨fun hleaves => ⟨fun p hp hdurable => ?_, ?_⟩, fun hdisp => ⟨fun p hp hdurable => ?_, ?_⟩⟩
  · exact maintained_deleteUserRows_iff.mp (hleaves.maintained p hp hdurable)
  · exact unassigned_deleteUserRows_iff.mp hleaves.unassigned
  · exact maintained_deleteUserRows_iff.mpr (hdisp.maintained p hp hdurable)
  · exact unassigned_deleteUserRows_iff.mpr hdisp.unassigned

/-- Two owners, and a project that the first one made, with a todo of the second one. -/
def soloSite (assignee : Option ℤ) (members : List MemberRow) : Site where
  users := [⟨1, .owner⟩, ⟨2, .owner⟩]
  db :=
    { users := [1, 2]
      projects := [{ defaultProjectRow 0 with id := 1, name := "Board", slug := "board", ownerUserID := some 1 }]
      members := members
      todos := [{ id := 1, projectID := 1, localID := 1, title := "a", body := "", columnKey := "backlog"
                  rank := 1000, estimationPoints := none, assigneeUserID := assignee
                  createdByUserID := some 2, sprintID := none, priorityKey := none, createdAt := 0
                  updatedAt := 0, doneAt := none, archivedAt := none, dueAt := none
                  dueRemindedAt := none }] }
  ids := by decide
  agree := rfl

/-- The other maintainer stays. -/
theorem deleteUser_leavesOrder_shared :
    ∃ site', (soloSite (some 1) [⟨1, 1, .maintainer, 0⟩, ⟨1, 2, .maintainer, 0⟩]).deleteUser 1 2 = .ok site' ∧
      LeavesOrder (soloSite (some 1) [⟨1, 1, .maintainer, 0⟩, ⟨1, 2, .maintainer, 0⟩]).db site'.db 2 := by
  obtain ⟨site', hok⟩ := exists_of_isOk (x := (soloSite (some 1)
    [⟨1, 1, .maintainer, 0⟩, ⟨1, 2, .maintainer, 0⟩]).deleteUser 1 2) (by decide +kernel)
  refine ⟨site', hok, (deleteUser_leavesOrder_iff hok).mpr ⟨?_, ?_⟩⟩
  · decide
  · decide

/-- The only maintainer of a project goes, and a todo stays with them. -/
theorem deleteUser_leaves_unmaintained :
    ∃ site', (soloSite (some 2) [⟨1, 2, .maintainer, 0⟩]).deleteUser 1 2 = .ok site' ∧
      ¬ LeavesOrder (soloSite (some 2) [⟨1, 2, .maintainer, 0⟩]).db site'.db 2 ∧
      countMaintainers site'.db 1 = 0 ∧ ∃ t ∈ site'.db.todos, t.assigneeUserID = some 2 := by
  obtain ⟨site', hok⟩ := exists_of_isOk (x := (soloSite (some 2) [⟨1, 2, .maintainer, 0⟩]).deleteUser 1 2)
    (by decide +kernel)
  have hgone : countMaintainers ((soloSite (some 2) [⟨1, 2, .maintainer, 0⟩]).without 2).db 1 = 0 := by
    decide
  have hassigned : ∃ t ∈ ((soloSite (some 2) [⟨1, 2, .maintainer, 0⟩]).without 2).db.todos,
      t.assigneeUserID = some 2 := by decide
  rw [← deleteUser_eq_ok hok] at hgone hassigned
  refine ⟨site', hok, fun hleaves => ?_, hgone, hassigned⟩
  have hone := hleaves.maintained _ (List.mem_singleton.mpr rfl) rfl (by decide)
  have hone : 1 ≤ countMaintainers site'.db 1 := hone
  omega

end Scrumboy
