import Scrumboy.Auth.Users
import Scrumboy.Store.Actions
import Scrumboy.Store.AnonymousBoards

/-!
# Accounts

The ways in which accounts and boards come and go on a server, as the inputs of one transition
system: a new account, the deletion of a user, a new temporary board and its claim, and every
action on todos. A user id is a row id, so the next account gets the id after the greatest one
in use. Some columns that name users are foreign keys; the assignee of a todo and the creator
of a project are plain numbers.
-/

set_option linter.dupNamespace false

namespace Scrumboy

open Go Sql

/-- The users that foreign keys name. -/
def DB.userRefs (db : DB) : List ℤ :=
  db.projects.filterMap (·.ownerUserID) ++ db.members.map (·.userID) ++
    db.todos.filterMap (·.createdByUserID) ++ db.tags.filterMap (·.userID) ++
    db.userTagColors.map (·.userID)

/-- The users that plain numbers name. -/
def DB.looseRefs (db : DB) : List ℤ :=
  db.todos.filterMap (·.assigneeUserID) ++ db.projects.filterMap (·.creatorUserID)

/-- How an account is made. -/
inductive SignUp
  | bootstrap
  | created
  | oidc (issuerConfigured emailDomainAllowed : Bool)
  deriving DecidableEq, Repr

/-- A request for an account. What the checks of its address, name, password and identity say,
and which default board the settings name, are inputs. -/
structure NewAccount where
  signUp : SignUp
  checked : Result Unit
  defaultBoard : Option (ℤ × ProjectRole)

/-- `seedDefaultBoardMembershipTx`. -/
def seedDefaultBoardMembership (ctx : Ctx) (db : DB) (userID : ℤ) : Option (ℤ × ProjectRole) → DB
  | none => db
  | some (projectID, role) =>
      if (db.projects.any fun p => p.id == projectID && p.importBatchID.isNone && p.expiresAt.isNone) &&
          !db.members.any fun m => m.projectID == projectID && m.userID == userID then
        { db with members := db.members ++ [⟨projectID, userID, role, ctx.nowMs⟩] }
      else db

namespace Site

/-- A server without users and boards. -/
def empty : Site where
  users := []
  db := {}
  ids := List.nodup_nil
  agree := rfl

/-- The end of a transaction: it fails if a foreign key names nobody. -/
def commit (site : Site) (db : DB) : Result Site := do
  reject (∃ u ∈ ({ db with users := site.db.users } : DB).userRefs, u ∉ site.db.users)
    ⟨.internal, "FOREIGN KEY constraint failed"⟩
  pure { site with db := { db with users := site.db.users }, agree := site.agree }

/-- The id of the next account. -/
def nextUserID (site : Site) : ℤ := nextRowid site.db.users

/-- `INSERT INTO users`. -/
def insertUser (site : Site) (role : SystemRole) : Site where
  users := site.users ++ [⟨site.nextUserID, role⟩]
  db := { site.db with users := site.db.users ++ [site.nextUserID] }
  ids := by
    rw [List.map_append, nextUserID, site.agree]
    exact nodup_concat_nextRowid site.ids
  agree := by
    rw [List.map_append, site.agree]
    rfl

/-- `BootstrapUser`, `CreateUser` and `createUserOIDC`. -/
def createUser (ctx : Ctx) (site : Site) (account : NewAccount) : Result Site := do
  account.checked
  let first := site.users.isEmpty
  match account.signUp with
  | .bootstrap => do
      reject (first = false) ⟨.conflict, ""⟩
      pure (site.insertUser .owner)
  | .created => do
      let site' := site.insertUser .user
      site'.commit (seedDefaultBoardMembership ctx site'.db site.nextUserID account.defaultBoard)
  | .oidc issuerConfigured emailDomainAllowed => do
      reject (first = false ∧ emailDomainAllowed = false) ⟨.internal, "email domain not allowed"⟩
      if first && issuerConfigured then pure (site.insertUser .owner)
      else do
        let site' := site.insertUser .user
        site'.commit (seedDefaultBoardMembership ctx site'.db site.nextUserID account.defaultBoard)

/-- The boards that `ClaimTemporaryBoard` finds. -/
def claimable (projectID userID nowMs : ℤ) (p : ProjectRow) : Bool :=
  p.id == projectID && p.ownerUserID.isNone && p.expiresAt.any (nowMs < ·) && p.creatorUserID == some userID

/-- The claimer becomes a maintainer, or is promoted. -/
def upsertMaintainer (db : DB) (projectID userID nowMs : ℤ) : DB :=
  if db.members.any fun m => m.projectID == projectID && m.userID == userID then
    { db with
      members := updateWhere (fun m => m.projectID == projectID && m.userID == userID)
        (fun m => { m with role := .maintainer }) db.members }
  else { db with members := db.members ++ [⟨projectID, userID, .maintainer, nowMs⟩] }

def claimTemporaryBoard (ctx : Ctx) (site : Site) (projectID userID : ℤ) : Result Site := do
  reject (projectID ≤ 0 ∨ userID ≤ 0) ⟨.validation, "invalid ids"⟩
  reject (authEnabled site.db = false) ⟨.conflict, ""⟩
  reject (site.db.projects.countP (claimable projectID userID ctx.nowMs) ≠ 1) ⟨.notFound, ""⟩
  let projects := updateWhere (claimable projectID userID ctx.nowMs)
    (fun p => { p with
      ownerUserID := some userID, expiresAt := none, lastActivityAt := ctx.nowMs, updatedAt := ctx.nowMs })
    site.db.projects
  site.commit (upsertMaintainer { site.db with projects := projects } projectID userID ctx.nowMs)

end Site

inductive SiteAction
  | createUser (account : NewAccount)
  | deleteUser (requesterID targetUserID : ℤ)
  | createAnonymousBoard (draws : List String)
  | claimTemporaryBoard (projectID userID : ℤ)
  | act (a : Action)

namespace Site

def exec (rt : Runtime) (ctx : Ctx) (site : Site) : SiteAction → Result Site
  | .createUser account => site.createUser ctx account
  | .deleteUser requesterID targetUserID => site.deleteUser requesterID targetUserID
  | .createAnonymousBoard draws => site.commit (createAnonymousBoard rt ctx site.db draws).1
  | .claimTemporaryBoard projectID userID => site.claimTemporaryBoard ctx projectID userID
  | .act a => a.exec rt ctx site.db >>= site.commit

/-- An action as a transition: one that fails changes nothing. -/
def step (rt : Runtime) (site : Site) (a : Ctx × SiteAction) : Site :=
  (site.exec rt a.1 a.2).toOption.getD site

end Site

end Scrumboy
