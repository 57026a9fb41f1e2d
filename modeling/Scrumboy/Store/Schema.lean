import Scrumboy.Sql.Table
import Mathlib.Data.Rat.Defs

/-!
# The database

The rows of the tables that the store reads and writes, and the database as the
record of these tables. Columns keep the names of the schema; a nullable column
is an `Option`, times are Unix milliseconds, and a `REAL` column holds the
rational number that the stored binary fraction is.

A table with an `INTEGER PRIMARY KEY` gives a new row the id after the largest
one in use. Custom fields are declared `AUTOINCREMENT`, so they also keep the
largest id ever used.
-/

namespace Scrumboy

/-- The sentinel errors of the store that callers distinguish. Everything else,
such as a violated constraint, is internal. -/
inductive ErrKind
  | notFound
  | conflict
  | validation
  | unauthorized
  | forbidden
  | sprintsDisabled
  | internal
  deriving DecidableEq, Repr

/-- An error as the store returns it: the wrapped sentinel and the text after it. -/
structure StoreError where
  kind : ErrKind
  text : String
  deriving DecidableEq, Repr

/-- The operating mode of a server. -/
inductive Mode
  | full
  | anonymous
  deriving DecidableEq, Repr

/-- The role of a project member. `owner` and `editor` are the deprecated names
that the column's check still admits. -/
inductive ProjectRole
  | owner
  | editor
  | viewer
  | maintainer
  | contributor
  deriving DecidableEq, Repr

inductive SprintState
  | planned
  | active
  | closed
  deriving DecidableEq, Repr

inductive CustomFieldType
  | text
  | url
  | number
  deriving DecidableEq, Repr

structure ProjectRow where
  id : ℤ
  name : String
  image : Option String
  dominantColor : String
  slug : String
  estimationMode : String
  defaultSprintWeeks : ℤ
  sprintsEnabled : Bool
  agendaEnabled : Bool
  agendaTimezone : String
  agendaTitle : String
  agendaColor : String
  ownerUserID : Option ℤ
  creatorUserID : Option ℤ
  lastActivityAt : ℤ
  expiresAt : Option ℤ
  createdAt : ℤ
  updatedAt : ℤ
  importBatchID : Option String
  deriving DecidableEq, Repr

structure MemberRow where
  projectID : ℤ
  userID : ℤ
  role : ProjectRole
  createdAt : ℤ
  deriving DecidableEq, Repr

structure WorkflowColumn where
  id : ℤ
  projectID : ℤ
  key : String
  name : String
  color : String
  position : ℤ
  isDone : Bool
  system : Bool
  deriving DecidableEq, Repr

structure PriorityTier where
  id : ℤ
  projectID : ℤ
  key : String
  name : String
  color : String
  position : ℤ
  deriving DecidableEq, Repr

structure SprintRow where
  id : ℤ
  projectID : ℤ
  number : ℤ
  name : String
  plannedStartAt : ℤ
  plannedEndAt : ℤ
  state : SprintState
  startedAt : Option ℤ
  closedAt : Option ℤ
  createdAt : ℤ
  updatedAt : ℤ
  deriving DecidableEq, Repr

structure TodoRow where
  id : ℤ
  projectID : ℤ
  localID : ℤ
  title : String
  body : String
  columnKey : String
  rank : ℤ
  estimationPoints : Option ℤ
  assigneeUserID : Option ℤ
  createdByUserID : Option ℤ
  sprintID : Option ℤ
  priorityKey : Option String
  createdAt : ℤ
  updatedAt : ℤ
  doneAt : Option ℤ
  archivedAt : Option ℤ
  dueAt : Option ℤ
  dueRemindedAt : Option ℤ
  deriving DecidableEq, Repr

structure TagRow where
  id : ℤ
  userID : Option ℤ
  name : String
  createdAt : ℤ
  projectID : Option ℤ
  color : Option String
  deriving DecidableEq, Repr

structure TodoTagRow where
  todoID : ℤ
  tagID : ℤ
  deriving DecidableEq, Repr

structure ProjectTagRow where
  projectID : ℤ
  tagID : ℤ
  createdAt : ℤ
  deriving DecidableEq, Repr

structure UserTagColorRow where
  userID : ℤ
  tagID : ℤ
  color : String
  deriving DecidableEq, Repr

structure LinkRow where
  projectID : ℤ
  fromLocalID : ℤ
  toLocalID : ℤ
  linkType : String
  createdAt : ℤ
  deriving DecidableEq, Repr

structure CustomField where
  id : ℤ
  projectID : ℤ
  key : String
  name : String
  type : CustomFieldType
  position : ℤ
  deriving DecidableEq, Repr

/-- The value of a custom field. The table keeps it in one of two columns, with a
check that exactly one of them is set. -/
inductive FieldValue
  | text (s : String)
  | num (q : ℚ)
  deriving DecidableEq, Repr

structure FieldValueRow where
  todoID : ℤ
  fieldID : ℤ
  value : FieldValue
  deriving DecidableEq, Repr

structure WallNote where
  id : String
  x : ℚ
  y : ℚ
  width : ℚ
  height : ℚ
  color : String
  text : String
  version : ℤ
  deriving DecidableEq, Repr

/-- An edge of a wall. Its two ends are texts that name a note or a story. -/
structure WallEdge where
  id : String
  fromRef : String
  toRef : String
  deriving DecidableEq, Repr

/-- The wall of a project: its JSON documents of notes and edges, decoded. -/
structure WallRow where
  projectID : ℤ
  notes : List WallNote
  edges : List WallEdge
  version : ℤ
  updatedAt : ℤ
  deriving DecidableEq, Repr

structure PlacementRow where
  projectID : ℤ
  todoID : ℤ
  x : ℚ
  y : ℚ
  version : ℤ
  deriving DecidableEq, Repr

/-- A JSON value where any is allowed. Only texts, numbers and null have a
meaning to the store; the rest is `other`. -/
inductive JsonValue
  | null
  | str (s : String)
  | num (q : ℚ)
  | other
  deriving DecidableEq, Repr

/-- The database. Of a user only the id is kept, since no other column of a user
is read here. -/
structure DB where
  users : List ℤ := []
  projects : List ProjectRow := []
  members : List MemberRow := []
  columns : List WorkflowColumn := []
  priorities : List PriorityTier := []
  sprints : List SprintRow := []
  todos : List TodoRow := []
  tags : List TagRow := []
  todoTags : List TodoTagRow := []
  projectTags : List ProjectTagRow := []
  userTagColors : List UserTagColorRow := []
  links : List LinkRow := []
  customFields : List CustomField := []
  customFieldSeq : ℤ := 0
  customFieldValues : List FieldValueRow := []
  walls : List WallRow := []
  placements : List PlacementRow := []
  deriving DecidableEq, Repr

/-- The result of a store call: the value, or the error that rolled it back. -/
abbrev Result (α : Type) := Except StoreError α

/-- What a request carries: the authenticated user and the clock. -/
structure Ctx where
  userID : Option ℤ
  nowMs : ℤ
  deriving DecidableEq, Repr

/-- What the store takes from libraries, from the machine it runs on and from its
configuration: Unicode normalization, the parser of URLs, the time zone database,
and the limits of an anonymous import. -/
structure Runtime where
  nfc : String → String
  isHTTPURL : String → Bool
  isLocation : String → Bool
  maxImportProjects : ℕ := 20
  maxImportTodos : ℕ := 2000

end Scrumboy
