import Scrumboy.Go.Errors
import Scrumboy.Sql.Order
import Scrumboy.Store.Schema

/-!
# Projects and roles

Reading a project for a request, the roles of its members and the rights that
depend on them. Authentication is enabled as soon as there is a user; before
that every project is open. A board with an expiry date is open to whoever holds
its link until it expires.
-/

namespace Scrumboy

open Go Sql

/-- `Rank` orders the roles; the deprecated names rank with their successors. -/
def ProjectRole.rank : ProjectRole → ℕ
  | .viewer => 1
  | .editor => 2
  | .contributor => 2
  | .maintainer => 3
  | .owner => 3

/-- `HasMinimumRole`, where no role at all has the lowest rank. -/
def hasMinimumRole (role : Option ProjectRole) (required : ProjectRole) : Bool :=
  required.rank ≤ (role.map ProjectRole.rank).getD 0

def canCreateTodo (role : Option ProjectRole) : Bool := role == some .maintainer

def canDeleteTodo (role : Option ProjectRole) : Bool := role == some .maintainer

def canMoveTodo (role : Option ProjectRole) : Bool := role == some .maintainer

def canArchiveTodo (role : Option ProjectRole) : Bool := hasMinimumRole role .maintainer

def authEnabled (db : DB) : Bool := !db.users.isEmpty

def getProjectRole (db : DB) (projectID userID : ℤ) : Option ProjectRole :=
  (db.members.find? fun m => m.projectID == projectID && m.userID == userID).map (·.role)

/-- `getProject`, which sees no project of an unfinished import. -/
def getProject (db : DB) (projectID : ℤ) : Result ProjectRow :=
  match db.projects.find? fun p => p.id == projectID && p.importBatchID == none with
  | some p => .ok p
  | none => .error ⟨.notFound, ""⟩

def isAnonymousTemporaryBoard (p : ProjectRow) : Bool :=
  p.expiresAt.isSome && p.creatorUserID.isNone

def isTemporaryProject (p : ProjectRow) : Bool := p.expiresAt.isSome

/-- Ninety days after `fromMs`. -/
def temporaryBoardExpiresAtMs (fromMs : ℤ) : ℤ := fromMs + 90 * 24 * 60 * 60 * 1000

def rejectIfExpiredTemporaryProject (ctx : Ctx) (p : ProjectRow) : Result Unit :=
  reject (∃ t ∈ p.expiresAt, t ≤ ctx.nowMs) ⟨.notFound, ""⟩

def userHasProjectRole (db : DB) (projectID userID : ℤ) (required : ProjectRole) :
    Result Bool := do
  let p ← getProject db projectID
  if p.expiresAt.isSome then pure true
  else if authEnabled db then pure (hasMinimumRole (getProjectRole db projectID userID) required)
  else pure true

def getProjectForWrite (ctx : Ctx) (db : DB) (projectID : ℤ) : Result ProjectRow := do
  let p ← getProject db projectID
  if p.expiresAt.isSome then do
    rejectIfExpiredTemporaryProject ctx p
    pure p
  else if authEnabled db then
    match ctx.userID with
    | none => throw ⟨.unauthorized, ""⟩
    | some userID => do
        let hasAccess ← userHasProjectRole db projectID userID .contributor
        reject (hasAccess = false) ⟨.notFound, ""⟩
        pure p
  else pure p

/-- The role check of a todo mutation on a durable project. -/
def requireTodoRight (ctx : Ctx) (db : DB) (p : ProjectRow)
    (right : Option ProjectRole → Bool) : Result Unit :=
  if p.expiresAt.isNone && authEnabled db then
    match ctx.userID with
    | none => throw ⟨.unauthorized, ""⟩
    | some userID => reject (right (getProjectRole db p.id userID) = false) ⟨.unauthorized, ""⟩
  else pure ()

def touchProject (db : DB) (projectID nowMs : ℤ) : DB :=
  { db with
    projects := updateWhere (fun p => p.id == projectID)
      (fun p => { p with updatedAt := nowMs }) db.projects }

/-- `UpdateBoardActivity`, throttled to once in five minutes. Its error is ignored
by every caller. -/
def updateBoardActivity (ctx : Ctx) (db : DB) (projectID : ℤ) : DB :=
  { db with
    projects := updateWhere
      (fun p => p.id == projectID && p.lastActivityAt < ctx.nowMs - 5 * 60 * 1000)
      (fun p => { p with
        lastActivityAt := ctx.nowMs
        expiresAt := p.expiresAt.map fun _ => temporaryBoardExpiresAtMs ctx.nowMs })
      db.projects }

/-! ## What recording activity leaves alone -/

/-- A project without the columns in which activity is recorded. -/
def ProjectRow.quiet (p : ProjectRow) : ProjectRow :=
  { p with updatedAt := 0, lastActivityAt := 0, expiresAt := p.expiresAt.map fun _ => 0 }

/-- The activity columns of the projects; everything else is equal. -/
structure ActivityOnly (db db' : DB) : Prop where
  tables : db' = { db with projects := db'.projects }
  quiet : db'.projects.map ProjectRow.quiet = db.projects.map ProjectRow.quiet

theorem ActivityOnly.exists_eq {db db' : DB} (h : ActivityOnly db db') :
    ∃ ps, db' = { db with projects := ps } := ⟨_, h.tables⟩

theorem ActivityOnly.trans {a b c : DB} (hab : ActivityOnly a b) (hbc : ActivityOnly b c) :
    ActivityOnly a c where
  tables := by
    rw [hbc.tables, hab.tables]
  quiet := hbc.quiet.trans hab.quiet

theorem touchProject_activityOnly (db : DB) (projectID nowMs : ℤ) :
    ActivityOnly db (touchProject db projectID nowMs) where
  tables := rfl
  quiet := by
    unfold touchProject
    apply map_updateWhere
    intro p
    rfl

theorem updateBoardActivity_activityOnly (ctx : Ctx) (db : DB) (projectID : ℤ) :
    ActivityOnly db (updateBoardActivity ctx db projectID) where
  tables := rfl
  quiet := by
    unfold updateBoardActivity
    apply map_updateWhere
    intro p
    simp [ProjectRow.quiet, Function.comp_def]

/-- The end of every operation on todos. -/
theorem touch_update_activityOnly (ctx : Ctx) (db : DB) (projectID : ℤ) :
    ActivityOnly db (updateBoardActivity ctx (touchProject db projectID ctx.nowMs) projectID) :=
  (touchProject_activityOnly db projectID ctx.nowMs).trans
    (updateBoardActivity_activityOnly ctx _ projectID)

theorem ActivityOnly.of_touch {ctx : Ctx} {db db' : DB} {projectID : ℤ}
    (h : updateBoardActivity ctx (touchProject db projectID ctx.nowMs) projectID = db') :
    ActivityOnly db db' :=
  h ▸ touch_update_activityOnly ctx db projectID

theorem getProject_eq_ok {db : DB} {projectID : ℤ} {p : ProjectRow}
    (h : getProject db projectID = .ok p) :
    p ∈ db.projects ∧ p.id = projectID ∧ p.importBatchID = none := by
  unfold getProject at h
  split at h
  · rename_i q hfind
    cases h
    have hq := List.find?_some hfind
    simp only [Bool.and_eq_true, beq_iff_eq] at hq
    exact ⟨List.mem_of_find?_eq_some hfind, hq⟩
  · cases h

/-- A project that may be written is the project of that id. -/
theorem getProjectForWrite_eq_ok {ctx : Ctx} {db : DB} {projectID : ℤ} {p : ProjectRow}
    (h : getProjectForWrite ctx db projectID = .ok p) : getProject db projectID = .ok p := by
  simp only [getProjectForWrite, bind_eq_ok] at h
  obtain ⟨q, hq, h⟩ := h
  suffices hqp : q = p from hqp ▸ hq
  split at h
  · simp only [bind_eq_ok, pure_eq_ok] at h
    obtain ⟨_, _, heq⟩ := h
    exact heq
  · split at h
    · split at h
      · cases h
      · simp only [bind_eq_ok, pure_eq_ok] at h
        obtain ⟨_, _, _, _, heq⟩ := h
        exact heq
    · exact pure_eq_ok.mp h

end Scrumboy
