import Scrumboy.Store.Todos
import Scrumboy.Transition.Runs

/-!
# Sprints

The sprints of a project: planning, editing, starting, closing and deleting them, and what
runs of these operations keep. A sprint is planned, then active, then closed; a project
has at most one active sprint, and activating another one closes it.
-/

set_option linter.dupNamespace false

namespace Scrumboy

open Go Sql

structure UpdateSprintInput where
  name : Option String := none
  plannedStartAt : Option ℤ := none
  plannedEndAt : Option ℤ := none
  deriving DecidableEq, Repr

def getSprintByID (db : DB) (sprintID : ℤ) : Result SprintRow :=
  match db.sprints.find? fun sp => sp.id == sprintID with
  | some sp => .ok sp
  | none => .error ⟨.notFound, ""⟩

def sprintNameExists (db : DB) (projectID : ℤ) (name : String) (excludeID : ℤ) : Bool :=
  db.sprints.any fun sp => sp.projectID == projectID && sp.name == name && sp.id != excludeID

/-- The checks of a sprint's name, which is stored without the blanks around it. -/
def checkSprintName (db : DB) (projectID : ℤ) (name : String) (excludeID : ℤ) : Result Unit :=
  reject (sprintNameExists db projectID name excludeID)
    ⟨.validation, "a sprint with this name already exists in the project"⟩

def invalidSprintName (name : String) : Prop := name = "" ∨ 200 < byteLen name

instance (name : String) : Decidable (invalidSprintName name) :=
  inferInstanceAs (Decidable (_ ∨ _))

def createSprint (ctx : Ctx) (db : DB) (projectID : ℤ) (name : String)
    (plannedStartAt plannedEndAt : ℤ) : Result DB := do
  let name := trimSpace name
  reject (invalidSprintName name) ⟨.validation, "invalid sprint name"⟩
  reject (plannedEndAt < plannedStartAt) ⟨.validation, "end_at must be >= start_at"⟩
  lockProjectSprintsEnabled db projectID
  checkSprintName db projectID name 0
  let row : SprintRow :=
    { id := nextRowid (db.sprints.map (·.id))
      projectID := projectID
      number := coalesceMax ((db.sprints.filter fun sp => sp.projectID == projectID).map
        (·.number)) + 1
      name := name
      plannedStartAt := plannedStartAt
      plannedEndAt := plannedEndAt
      state := .planned
      startedAt := none
      closedAt := none
      createdAt := ctx.nowMs
      updatedAt := ctx.nowMs }
  pure { db with sprints := db.sprints ++ [row] }

def SprintRow.closed (nowMs : ℤ) (sp : SprintRow) : SprintRow :=
  { sp with state := .closed, closedAt := some (sp.closedAt.getD nowMs), updatedAt := nowMs }

def SprintRow.activated (nowMs : ℤ) (sp : SprintRow) : SprintRow :=
  { sp with state := .active, startedAt := some (sp.startedAt.getD nowMs), updatedAt := nowMs }

def activateSprint (ctx : Ctx) (db : DB) (projectID sprintID : ℤ) : Result DB := do
  let sp ← getSprintByID db sprintID
  reject (sp.projectID ≠ projectID) ⟨.validation, "sprint does not belong to project"⟩
  lockProjectSprintsEnabled db projectID
  if sp.state = .active then pure db
  else do
    reject (sp.state ≠ .planned) ⟨.validation, "sprint must be PLANNED to activate"⟩
    reject (sp.plannedEndAt ≤ ctx.nowMs)
      ⟨.validation, "sprint end date is on or before now; cannot activate"⟩
    let sprints := updateWhere (fun sp => sp.projectID == projectID && sp.state == .active)
      (SprintRow.closed ctx.nowMs) db.sprints
    let isTarget := fun sp : SprintRow => sp.id == sprintID && sp.state == .planned
    reject (sprints.all fun sp => !isTarget sp) ⟨.notFound, ""⟩
    pure { db with sprints := updateWhere isTarget (SprintRow.activated ctx.nowMs) sprints }

def closeSprint (ctx : Ctx) (db : DB) (projectID sprintID : ℤ) : Result DB := do
  lockProjectSprintsEnabled db projectID
  let isTarget := fun sp : SprintRow =>
    sp.id == sprintID && sp.projectID == projectID && sp.state == .active
  reject (db.sprints.all fun sp => !isTarget sp) ⟨.notFound, ""⟩
  pure { db with sprints := updateWhere isTarget (SprintRow.closed ctx.nowMs) db.sprints }

/-- The foreign key of todos takes them out of a sprint that is deleted. -/
def deleteSprint (db : DB) (projectID sprintID : ℤ) : Result DB := do
  let sp ← getSprintByID db sprintID
  reject (sp.projectID ≠ projectID) ⟨.notFound, ""⟩
  lockProjectSprintsEnabled db projectID
  pure { db with
    sprints := deleteWhere (fun sp => sp.id == sprintID) db.sprints
    todos := updateWhere (fun t => t.sprintID == some sprintID)
      (fun t => { t with sprintID := none }) db.todos }

/-- The fields that may be edited in a state. -/
def checkSprintState (state : SprintState) (input : UpdateSprintInput) : Result Unit :=
  match state with
  | .planned => pure ()
  | .active =>
      reject (input.name.isSome ∨ input.plannedStartAt.isSome)
        ⟨.validation, "only endAt can be updated for ACTIVE sprint"⟩
  | .closed =>
      reject (input.plannedStartAt.isSome ∨ input.plannedEndAt.isSome)
        ⟨.validation, "dates cannot be updated for CLOSED sprint"⟩

/-- The row with the fields of the input set. -/
def SprintRow.edited (input : UpdateSprintInput) (nowMs : ℤ) (sp : SprintRow) : SprintRow :=
  { sp with
    name := (input.name.map trimSpace).getD sp.name
    plannedStartAt := input.plannedStartAt.getD sp.plannedStartAt
    plannedEndAt := input.plannedEndAt.getD sp.plannedEndAt
    updatedAt := nowMs }

/-- A new end is compared with the start that is going to be there. A new start alone is not
compared with the end. -/
def updateSprint (ctx : Ctx) (db : DB) (sprintID : ℤ) (input : UpdateSprintInput) : Result DB := do
  let sp ← getSprintByID db sprintID
  lockProjectSprintsEnabled db sp.projectID
  checkSprintState sp.state input
  input.name.forM fun name => do
    reject (invalidSprintName (trimSpace name)) ⟨.validation, "invalid sprint name"⟩
    checkSprintName db sp.projectID (trimSpace name) sprintID
  input.plannedEndAt.forM fun endAt =>
    reject (endAt < input.plannedStartAt.getD sp.plannedStartAt)
      ⟨.validation, "end_at must be >= start_at"⟩
  if input.name = none ∧ input.plannedStartAt = none ∧ input.plannedEndAt = none then pure db
  else pure { db with
    sprints := updateWhere (fun sp => sp.id == sprintID) (SprintRow.edited input ctx.nowMs)
      db.sprints }

/-! ## Operations as steps -/

inductive SprintAction
  | createSprint (projectID : ℤ) (name : String) (plannedStartAt plannedEndAt : ℤ)
  | updateSprint (sprintID : ℤ) (input : UpdateSprintInput)
  | activateSprint (projectID sprintID : ℤ)
  | closeSprint (projectID sprintID : ℤ)
  | deleteSprint (projectID sprintID : ℤ)
  deriving DecidableEq, Repr

def SprintAction.exec (ctx : Ctx) (db : DB) : SprintAction → Result DB
  | .createSprint projectID name plannedStartAt plannedEndAt =>
      Scrumboy.createSprint ctx db projectID name plannedStartAt plannedEndAt
  | .updateSprint sprintID input => Scrumboy.updateSprint ctx db sprintID input
  | .activateSprint projectID sprintID => Scrumboy.activateSprint ctx db projectID sprintID
  | .closeSprint projectID sprintID => Scrumboy.closeSprint ctx db projectID sprintID
  | .deleteSprint projectID sprintID => Scrumboy.deleteSprint db projectID sprintID

/-- An operation as a transition: one that fails changes nothing. -/
def sprintStep (db : DB) (a : Ctx × SprintAction) : DB :=
  (a.2.exec a.1 db).toOption.getD db

end Scrumboy
