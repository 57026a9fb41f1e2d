import Scrumboy.Store.Schema

/-!
# The backup format

The values that a backup file holds after JSON decoding. Optional fields whose
absence differs from an explicit null carry a presence flag, as the decoder sets
it. The images of `.sbz` archives are not represented: a backup here is a plain
JSON export, which never carries any.
-/

namespace Scrumboy

structure WorkflowColumnExport where
  key : String
  name : String
  color : String
  position : ℤ
  isDone : Bool
  deriving DecidableEq, Repr

structure PriorityTierExport where
  key : String
  name : String
  color : String
  position : ℤ
  deriving DecidableEq, Repr

structure SprintExport where
  number : ℤ
  name : String
  plannedStartAt : ℤ
  plannedEndAt : ℤ
  state : String
  startedAt : Option ℤ := none
  closedAt : Option ℤ := none
  deriving DecidableEq, Repr

structure TagExport where
  name : String
  color : Option String := none
  deriving DecidableEq, Repr

structure LinkExport where
  fromLocalID : ℤ
  toLocalID : ℤ
  linkType : String
  deriving DecidableEq, Repr

structure CustomFieldExport where
  key : String
  name : String
  type : String
  position : ℤ
  deriving DecidableEq, Repr

/-- A todo of a backup. The map of custom field values is listed in the order in
which the importer visits it. -/
structure TodoExport where
  localID : ℤ
  title : String
  body : String := ""
  status : String
  rank : ℤ := 0
  sprintNumber : Option ℤ := none
  estimationPoints : Option ℤ := none
  assigneeUserID : Option ℤ := none
  createdByUserID : Option ℤ := none
  tags : List String := []
  createdAt : ℤ := 0
  updatedAt : ℤ := 0
  doneAt : Option ℤ := none
  archivedAt : Option ℤ := none
  archivedAtPresent : Bool := false
  dueAt : Option ℤ := none
  priorityKey : Option String := none
  priorityKeyPresent : Bool := false
  customFields : List (String × JsonValue) := []
  deriving DecidableEq, Repr

structure WallStoryPlacementExport where
  localID : ℤ
  x : ℚ
  y : ℚ
  version : ℤ
  deriving DecidableEq, Repr

structure WallExport where
  notes : List WallNote
  edges : List WallEdge := []
  stories : List WallStoryPlacementExport := []
  storiesPresent : Bool := false
  version : ℤ := 0
  deriving DecidableEq, Repr

structure ProjectExport where
  slug : String
  name : String
  image : Option String := none
  dominantColor : String := ""
  defaultSprintWeeks : ℤ := 0
  sprintsEnabled : Option Bool := none
  agendaEnabled : Option Bool := none
  agendaTimezone : String := ""
  agendaTitle : String := ""
  agendaColor : String := ""
  expiresAt : Option ℤ := none
  createdAt : ℤ := 0
  updatedAt : ℤ := 0
  workflowColumns : List WorkflowColumnExport := []
  priorityTiers : List PriorityTierExport := []
  priorityTiersPresent : Bool := false
  sprints : List SprintExport := []
  todos : List TodoExport := []
  tags : List TagExport := []
  links : List LinkExport := []
  wall : Option WallExport := none
  customFields : List CustomFieldExport := []
  deriving DecidableEq, Repr

structure ExportData where
  version : String := "1.2"
  scope : String := "full"
  projects : List ProjectExport
  deriving DecidableEq, Repr

end Scrumboy
