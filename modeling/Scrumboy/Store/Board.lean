import Scrumboy.Sql.Keyset
import Scrumboy.Store.Todos
import Mathlib.Data.String.Basic

/-!
# The board

The read of a board: the todos of a project that pass the filters of the request, lane by
lane in the order of the request, a page of each lane at a time. There are two ways to do
it. One query for all lanes is cut into lanes as its rows come in; beyond a soft cap on
the number of todos, each lane is queried and counted on its own. The counts of the tags
that the board shows beside its lanes are not part of the result here.
-/

set_option linter.dupNamespace false

namespace Scrumboy

open Go Sql

/-! ## The filters of a request -/

/-- The order of the todos within a lane. -/
inductive SortOrder
  | default
  | newest
  | oldest
  | due
  deriving DecidableEq, Repr

inductive AssigneeFilter
  | none
  | unassigned
  | user (userID : ℤ)
  deriving DecidableEq, Repr

inductive PriorityFilter
  | none
  | noPriority
  | key (key : String)
  deriving DecidableEq, Repr

inductive SprintFilter
  | none
  | scheduled
  | sprint (sprintID : ℤ)
  | sprintNumber (number : ℤ)
  | unscheduled
  deriving DecidableEq, Repr

/-- The filters besides the one by tags. -/
structure BoardFilter where
  searchFilter : String := ""
  assigneeFilter : AssigneeFilter := .none
  priorityFilter : PriorityFilter := .none
  sprintFilter : SprintFilter := .none
  deriving DecidableEq, Repr

/-- The tag filters of a request, each resolved to the tag rows that satisfy it. -/
structure BoardTagFilter where
  noFilter : Bool := false
  tagIDGroups : List (List ℤ) := []
  deriving DecidableEq, Repr

def normalizeTagFilter (rt : Runtime) (tag : String) (durable : Bool) : String :=
  let trimmed := trimSpace tag
  if trimmed = "" then "" else if durable then tagGroupKey rt trimmed else trimmed

/-- The keys of the filters in the order of their first mention. -/
def normalizeBoardTagFilters (rt : Runtime) (rawFilters : List String) (durable : Bool) :
    List String :=
  rawFilters.foldl (fun keys raw =>
    let key := normalizeTagFilter rt (trimSpace raw) durable
    if key = "" ∨ key ∈ keys then keys else keys ++ [key]) []

def resolveBoardTagFilter (rt : Runtime) (db : DB) (projectID : ℤ) (durable : Bool)
    (rawFilters : List String) : BoardTagFilter :=
  let keys := normalizeBoardTagFilters rt rawFilters durable
  if keys = [] then { noFilter := true }
  else
    let rows := orderBy (·.id) <| db.tags.filter fun g =>
      db.todoTags.any fun tt => tt.tagID == g.id &&
        db.todos.any fun t => t.id == tt.todoID && t.projectID == projectID
    { tagIDGroups := keys.map fun key =>
        (rows.filter fun g => normalizeTagFilter rt g.name durable == key).map (·.id) }

def boardTagFilterMatchesNothing (filter : BoardTagFilter) : Bool :=
  !filter.noFilter && (filter.tagIDGroups.isEmpty || filter.tagIDGroups.any (·.isEmpty))

/-- The common table expression `tagged_todos`: one leg for each group. -/
def taggedTodo (db : DB) (filter : BoardTagFilter) (todoID : ℤ) : Bool :=
  filter.noFilter || filter.tagIDGroups.all fun group =>
    db.todoTags.any fun tt => tt.todoID == todoID && group.contains tt.tagID

def sprintFilterArgs (db : DB) : SprintFilter → TodoRow → Bool
  | .none, _ => true
  | .scheduled, t => t.sprintID.isSome
  | .sprint sprintID, t => t.sprintID == some sprintID
  | .sprintNumber number, t => db.sprints.any fun sp =>
      t.sprintID == some sp.id && sp.projectID == t.projectID && sp.number == number
  | .unscheduled, t => t.sprintID.isNone

def assigneeFilterArgs : AssigneeFilter → TodoRow → Bool
  | .none, _ => true
  | .unassigned, t => t.assigneeUserID.isNone
  | .user userID, t => decide (0 < userID) && t.assigneeUserID == some userID

def priorityFilterArgs : PriorityFilter → TodoRow → Bool
  | .none, _ => true
  | .noPriority, t => t.priorityKey.isNone
  | .key key, t => key != "" && t.priorityKey == some key

/-- The condition on the title and the body of a todo. -/
def searchMatches (searchFilter : String) (t : TodoRow) : Bool :=
  let pattern := "%" ++ lower searchFilter ++ "%"
  searchFilter == "" || like pattern (lower t.title) || like pattern (lower t.body)

/-- The condition that every query of the board has, besides the one on tags. -/
def boardWhere (db : DB) (projectID : ℤ) (filter : BoardFilter) (t : TodoRow) : Bool :=
  t.projectID == projectID && t.archivedAt.isNone && sprintFilterArgs db filter.sprintFilter t &&
    assigneeFilterArgs filter.assigneeFilter t && priorityFilterArgs filter.priorityFilter t &&
    searchMatches filter.searchFilter t

/-- The todos that a query of the board ranges over, with a further condition of its own. -/
def filteredTodos (db : DB) (projectID : ℤ) (tagFilter : BoardTagFilter) (filter : BoardFilter)
    (cond : TodoRow → Bool) : List TodoRow :=
  if boardTagFilterMatchesNothing tagFilter then []
  else db.todos.filter fun t =>
    taggedTodo db tagFilter t.id && boardWhere db projectID filter t && cond t

/-! ## Tags and custom fields -/

/-- The names of the tags of each todo, by group on a durable project. -/
def listTagsForTodos (rt : Runtime) (db : DB) (todoIDs : List ℤ) (todoID : ℤ) : List String :=
  let names := (db.todoTags.filter fun tt => tt.todoID == todoID).flatMap fun tt =>
    (db.tags.filter fun g => g.id == tt.tagID).flatMap fun g =>
      (db.todos.filter fun t => t.id == tt.todoID).flatMap fun t =>
        (db.projects.filter fun p => p.id == t.projectID).map fun p =>
          if p.expiresAt.isNone then tagGroupKey rt g.name else g.name
  if todoID ∈ todoIDs then sortStrings names.dedup else []

def listCustomFieldsForTodos (db : DB) (todoIDs : List ℤ) (todoID : ℤ) : List (String × FieldValue) :=
  if todoID ∈ todoIDs then loadTodoCustomFields db todoID else []

/-- The rows of a query with their tags and custom fields. -/
def hydrateTodos (rt : Runtime) (db : DB) (rows : List TodoRow) : List Todo :=
  let todoIDs := rows.map (·.id)
  rows.map fun t =>
    { row := t
      tags := listTagsForTodos rt db todoIDs t.id
      customFields := listCustomFieldsForTodos db todoIDs t.id }

/-! ## Cursors -/

def laneCursor (t : Todo) (sortOrder : SortOrder) : String :=
  match sortOrder with
  | .newest | .oldest => formatInt t.row.createdAt ++ ":" ++ formatInt t.row.id
  | .due =>
      match t.row.dueAt with
      | none => formatInt maxInt64 ++ ":" ++ formatInt t.row.id
      | some dueAt => formatInt dueAt ++ ":" ++ formatInt t.row.id
  | .default => formatInt t.row.rank ++ ":" ++ formatInt t.row.id

def laneOrderBy : SortOrder → Term TodoRow × Term TodoRow
  | .newest => ({ value := (·.createdAt), desc := true }, { value := (·.id), desc := true })
  | .oldest => ({ value := (·.createdAt) }, { value := (·.id) })
  | .due => ({ value := fun t => t.dueAt.getD maxInt64 }, { value := (·.id) })
  | .default => ({ value := (·.rank) }, { value := (·.id) })

/-- The comparison of row values that continues after the cursor `(a, b)`. -/
def laneCursorPredicate (sortOrder : SortOrder) (a b : ℤ) (t : TodoRow) : Bool :=
  match sortOrder with
  | .newest => decide (toLex (t.createdAt, t.id) < toLex (a, b))
  | .oldest => decide (toLex (a, b) < toLex (t.createdAt, t.id))
  | .due => decide (toLex (a, b) < toLex (t.dueAt.getD maxInt64, t.id))
  | .default => decide (toLex (a, b) < toLex (t.rank, t.id))

def laneCursorSentinel (sortOrder : SortOrder) : ℤ × ℤ :=
  if sortOrder = .newest then (maxInt64, maxInt64) else (minInt64, 0)

def parseLaneCursor (cursor : String) : ℤ × ℤ :=
  if cursor = "" then (0, 0)
  else
    match splitTwo ':' cursor with
    | [r, i] =>
        match parseInt r, parseInt i with
        | some r, some i => (r, i)
        | _, _ => (0, 0)
    | _ => (0, 0)

/-! ## One lane -/

structure LanePage where
  items : List Todo
  nextCursor : String
  hasMore : Bool
  deriving DecidableEq, Repr

/-- One more row than the page holds is fetched, to see whether there is a next page. -/
def listTodosForBoardLaneResolved (rt : Runtime) (db : DB) (projectID : ℤ) (columnKey : String)
    (limit afterA afterB : ℤ) (tagFilter : BoardTagFilter) (filter : BoardFilter)
    (sortOrder : SortOrder) : LanePage :=
  let limit := if limit ≤ 0 then 20 else limit
  let fetchLimit := wrap (limit + 1)
  let rows := filteredTodos db projectID tagFilter filter fun t =>
    t.columnKey == columnKey && laneCursorPredicate sortOrder afterA afterB t
  let out := Sql.limit fetchLimit (orderBy (orderKey (laneOrderBy sortOrder)) rows)
  let hasMore := decide (limit < out.length)
  let items := hydrateTodos rt db (if hasMore then out.take limit.toNat else out)
  let nextCursor :=
    if hasMore then (items.getLast?.map (laneCursor · sortOrder)).getD "" else ""
  { items, nextCursor, hasMore }

def countTodosForBoardLaneResolved (db : DB) (projectID : ℤ) (columnKey : String)
    (tagFilter : BoardTagFilter) (filter : BoardFilter) : ℤ :=
  (filteredTodos db projectID tagFilter filter fun t => t.columnKey == columnKey).length

def listTodosForBoardLane (rt : Runtime) (db : DB) (projectID : ℤ) (columnKey : String)
    (limit afterA afterB : ℤ) (tagFilters : List String) (filter : BoardFilter)
    (sortOrder : SortOrder) : Result LanePage := do
  let p ← getProject db projectID
  let resolved := resolveBoardTagFilter rt db projectID p.expiresAt.isNone tagFilters
  pure (listTodosForBoardLaneResolved rt db projectID columnKey limit afterA afterB resolved
    filter sortOrder)

def countTodosForBoardLane (rt : Runtime) (db : DB) (projectID : ℤ) (columnKey : String)
    (tagFilters : List String) (filter : BoardFilter) : Result ℤ := do
  let p ← getProject db projectID
  let resolved := resolveBoardTagFilter rt db projectID p.expiresAt.isNone tagFilters
  pure (countTodosForBoardLaneResolved db projectID columnKey resolved filter)

/-! ## All lanes -/

structure LaneMeta where
  hasMore : Bool := false
  nextCursor : String := ""
  totalCount : ℤ := 0
  deriving DecidableEq, Repr

/-- The two maps of a board by column key. -/
structure BoardLanes where
  cols : String → Option (List Todo) := fun _ => none
  laneMeta : String → Option LaneMeta := fun _ => none

/-- The maps with the entry of one lane set. -/
def BoardLanes.set (lanes : BoardLanes) (key : String) (items : List Todo) (info : LaneMeta) :
    BoardLanes where
  cols := Function.update lanes.cols key (some items)
  laneMeta := Function.update lanes.laneMeta key (some info)

def countTodosForBoard (db : DB) (projectID : ℤ) (tagFilter : BoardTagFilter)
    (filter : BoardFilter) : ℤ :=
  (filteredTodos db projectID tagFilter filter fun _ => true).length

/-- The key of `ORDER BY t.column_key` before the order of a lane. -/
def boardOrderKey (sortOrder : SortOrder) (t : TodoRow) : String ×ₗ ℤ ×ₗ ℤ :=
  toLex (t.columnKey, orderKey (laneOrderBy sortOrder) t)

def listAllTodosForBoard (rt : Runtime) (db : DB) (projectID : ℤ) (tagFilter : BoardTagFilter)
    (filter : BoardFilter) (sortOrder : SortOrder) : List Todo :=
  hydrateTodos rt db
    (orderBy (boardOrderKey sortOrder) (filteredTodos db projectID tagFilter filter fun _ => true))

structure TodoWithLaneTotal where
  todo : Todo
  laneTotal : ℤ
  deriving DecidableEq, Repr

/-- All lanes in one query, each row with `COUNT(*) OVER (PARTITION BY t.column_key)`. -/
def listAllTodosForBoardWithCounts (rt : Runtime) (db : DB) (projectID : ℤ)
    (tagFilter : BoardTagFilter) (filter : BoardFilter) (sortOrder : SortOrder) :
    List TodoWithLaneTotal :=
  let rows := filteredTodos db projectID tagFilter filter fun _ => true
  (hydrateTodos rt db (orderBy (boardOrderKey sortOrder) rows)).map fun todo =>
    { todo
      laneTotal := (rows.filter fun t => t.columnKey == todo.row.columnKey).length }

def flushLane (key : String) (page : List Todo) (laneTotal limitPerLane : ℤ)
    (sortOrder : SortOrder) (lanes : BoardLanes) : BoardLanes :=
  let hasMore := decide (limitPerLane < page.length)
  let items := if hasMore then page.take limitPerLane.toNat else page
  let nextCursor :=
    if hasMore then (items.getLast?.map (laneCursor · sortOrder)).getD "" else ""
  lanes.set key items { hasMore, nextCursor, totalCount := laneTotal }

/-- The state of the loop that cuts the rows of all lanes into pages. -/
structure LaneScan where
  currentKey : String := ""
  page : List Todo := []
  laneTotal : ℤ := 0
  lanes : BoardLanes

/-- Writing out the lane that the scan is in. -/
def LaneScan.flush (s : LaneScan) (limitPerLane : ℤ) (sortOrder : SortOrder) : BoardLanes :=
  if s.currentKey = "" then s.lanes
  else flushLane s.currentKey s.page s.laneTotal limitPerLane sortOrder s.lanes

def LaneScan.step (limitPerLane : ℤ) (sortOrder : SortOrder) (s : LaneScan)
    (tw : TodoWithLaneTotal) : LaneScan :=
  if tw.todo.row.columnKey ≠ s.currentKey then
    { currentKey := tw.todo.row.columnKey
      page := [tw.todo]
      laneTotal := tw.laneTotal
      lanes := s.flush limitPerLane sortOrder }
  else { s with page := s.page ++ [tw.todo] }

/-- The maps with an empty lane for each column. -/
def emptyLanes (workflow : List WorkflowColumn) : BoardLanes :=
  workflow.foldl (fun lanes col => lanes.set col.key [] {}) {}

/-- The lanes without pages. -/
def groupLanes (workflow : List WorkflowColumn) (todos : List Todo) : BoardLanes where
  cols := todos.foldl (fun cols todo =>
    let key := todo.row.columnKey
    Function.update cols key (some ((cols key).getD [] ++ [todo]))) (emptyLanes workflow).cols

/-- The lanes from the rows of the one query. -/
def partitionLanes (workflow : List WorkflowColumn) (allTodos : List TodoWithLaneTotal)
    (limitPerLane : ℤ) (sortOrder : SortOrder) : BoardLanes :=
  (allTodos.foldl (LaneScan.step limitPerLane sortOrder)
    { lanes := emptyLanes workflow }).flush limitPerLane sortOrder

/-- The lanes from one query and one count each. -/
def getBoardPagedPerLane (rt : Runtime) (db : DB) (projectID : ℤ) (workflow : List WorkflowColumn)
    (tagFilter : BoardTagFilter) (filter : BoardFilter) (sortOrder : SortOrder)
    (limitPerLane : ℤ) : BoardLanes :=
  workflow.foldl (fun lanes col =>
    let start := laneCursorSentinel sortOrder
    let page := listTodosForBoardLaneResolved rt db projectID col.key limitPerLane start.1 start.2
      tagFilter filter sortOrder
    let total := countTodosForBoardLaneResolved db projectID col.key tagFilter filter
    lanes.set col.key page.items
      { hasMore := page.hasMore, nextCursor := page.nextCursor, totalCount := total }) {}

def boardTodoSoftCap : ℤ := 2000

/-- What a request that has been authorized knows of its project. -/
structure ProjectContext where
  project : ProjectRow
  role : Option ProjectRole
  deriving DecidableEq, Repr

structure Board where
  project : ProjectRow
  workflow : List WorkflowColumn
  lanes : BoardLanes

/-- A workflow is read as it is before an update: a project without columns gets the
default ones. -/
def getProjectWorkflow (db : DB) (projectID : ℤ) : Result (DB × List WorkflowColumn) :=
  workflowForUpdate db projectID

/-- The reads of a board with an expiry date count as activity. -/
def recordBoardRead (ctx : Ctx) (pc : ProjectContext) (db : DB) : DB :=
  if pc.project.expiresAt.isSome then updateBoardActivity ctx db pc.project.id else db

def getBoard (rt : Runtime) (ctx : Ctx) (db : DB) (pc : ProjectContext) (tagFilters : List String)
    (filter : BoardFilter) (sortOrder : SortOrder) : Result (DB × Board) := do
  let (db, workflow) ← getProjectWorkflow db pc.project.id
  let resolvedFilter :=
    resolveBoardTagFilter rt db pc.project.id pc.project.expiresAt.isNone tagFilters
  let todos := listAllTodosForBoard rt db pc.project.id resolvedFilter filter sortOrder
  pure (recordBoardRead ctx pc db, ⟨pc.project, workflow, groupLanes workflow todos⟩)

def getBoardPaged (rt : Runtime) (ctx : Ctx) (db : DB) (pc : ProjectContext)
    (tagFilters : List String) (filter : BoardFilter) (sortOrder : SortOrder)
    (limitPerLane : ℤ) : Result (DB × Board) :=
  if limitPerLane ≤ 0 then getBoard rt ctx db pc tagFilters filter sortOrder
  else do
    let (db, workflow) ← getProjectWorkflow db pc.project.id
    let resolvedFilter :=
      resolveBoardTagFilter rt db pc.project.id pc.project.expiresAt.isNone tagFilters
    let totalTodos := countTodosForBoard db pc.project.id resolvedFilter filter
    let lanes :=
      if boardTodoSoftCap < totalTodos then
        getBoardPagedPerLane rt db pc.project.id workflow resolvedFilter filter sortOrder
          limitPerLane
      else
        partitionLanes workflow
          (listAllTodosForBoardWithCounts rt db pc.project.id resolvedFilter filter sortOrder)
          limitPerLane sortOrder
    pure (recordBoardRead ctx pc db, ⟨pc.project, workflow, lanes⟩)

end Scrumboy
