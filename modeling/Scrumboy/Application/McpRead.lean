import Scrumboy.Go.Base64
import Scrumboy.Store.BoardReads
import Scrumboy.Store.Sprints

/-!
# The board read of the tool server

A read of the whole board for a client that speaks the tool protocol. Each column is paged
on its own, with a cursor that the client sends back as an opaque token. The read has its
own start of a lane and its own cursor text, and the store does the rest. A default
workflow that a failed read leaves behind is not tracked.
-/

namespace Scrumboy

open Go Sql

inductive McpBoardReadError
  | invalidSprintID
  | invalidColumnKey
  | unknownCursorColumn (columnKey : String)
  | malformedCursor (columnKey : String)
  | store (err : StoreError)
  deriving DecidableEq, Repr

structure McpBoardReadQuery where
  tagFilters : List String := []
  searchFilter : String := ""
  assigneeFilter : AssigneeFilter := .none
  priorityFilter : PriorityFilter := .none
  sprintID : Option ℤ := none
  columnKey : String := ""
  limit : ℤ := 0
  cursorByColumn : List (String × String) := []
  sortOrder : SortOrder := .default
  deriving DecidableEq, Repr

structure McpBoardReadColumn where
  workflow : WorkflowColumn
  todos : List Todo
  nextCursor : Option String
  hasMore : Bool
  totalCount : ℤ
  deriving DecidableEq, Repr

structure McpBoardReadResult where
  project : ProjectRow
  role : Option ProjectRole
  columns : List McpBoardReadColumn
  deriving DecidableEq, Repr

def suppressDisabledSprintAssignmentsInTodos (project : ProjectRow) (todos : List Todo) : List Todo :=
  if project.sprintsEnabled then todos
  else todos.map fun todo => { todo with row := { todo.row with sprintID := none } }

def resolveSprintFilter (db : DB) (project : ProjectRow) :
    Option ℤ → Except McpBoardReadError SprintFilter
  | none => pure .none
  | some sprintID => do
      reject (sprintID ≤ 0) .invalidSprintID
      reject (project.sprintsEnabled = false) (.store ⟨.sprintsDisabled, ""⟩)
      let sprint ← (getSprintByID db sprintID).mapError .store
      reject (sprint.projectID ≠ project.id) (.store ⟨.notFound, ""⟩)
      pure (.sprint sprintID)

def mcpBoardCursorSentinel (sortOrder : SortOrder) : ℤ × ℤ :=
  if sortOrder = .newest then (maxInt64, maxInt64) else (minInt64, 0)

def mcpBoardLaneCursor (todo : Todo) (sortOrder : SortOrder) : String :=
  match sortOrder with
  | .newest | .oldest => formatInt todo.row.createdAt ++ ":" ++ formatInt todo.row.id
  | .due =>
      match todo.row.dueAt with
      | none => formatInt maxInt64 ++ ":" ++ formatInt todo.row.id
      | some dueAt => formatInt dueAt ++ ":" ++ formatInt todo.row.id
  | .default => formatInt todo.row.rank ++ ":" ++ formatInt todo.row.id

def encodeMcpBoardCursor (raw : String) : String := encodeToString raw

def decodeMcpBoardCursor (token : String) : Option String := decodeString token

/-- The position from which a column is read. -/
def mcpBoardCursor (sortOrder : SortOrder) (columnKey : String) :
    Option String → Except McpBoardReadError (ℤ × ℤ)
  | none => pure (mcpBoardCursorSentinel sortOrder)
  | some token =>
      if trimSpace token = "" then pure (mcpBoardCursorSentinel sortOrder)
      else
        match decodeMcpBoardCursor token with
        | none => throw (.malformedCursor columnKey)
        | some rawCursor => do
            let after := parseLaneCursor rawCursor
            reject (after.1 = 0 ∧ after.2 = 0) (.malformedCursor columnKey)
            pure after

/-- The filters of a read as the store takes them. -/
def McpBoardReadQuery.filter (query : McpBoardReadQuery) (sprintFilter : SprintFilter) :
    BoardFilter where
  searchFilter := query.searchFilter
  assigneeFilter := query.assigneeFilter
  priorityFilter := query.priorityFilter
  sprintFilter := sprintFilter

/-- One round of the loop over the columns. -/
def readMcpBoardColumn (rt : Runtime) (db : DB) (project : ProjectRow) (query : McpBoardReadQuery)
    (sprintFilter : SprintFilter) (column : WorkflowColumn) :
    Except McpBoardReadError McpBoardReadColumn := do
  let after ← mcpBoardCursor query.sortOrder column.key (query.cursorByColumn.lookup column.key)
  let page ← (listTodosForBoardLane rt db project.id column.key query.limit after.1 after.2
    query.tagFilters (query.filter sprintFilter) query.sortOrder).mapError .store
  let todos := suppressDisabledSprintAssignmentsInTodos project page.items
  let totalCount ← (countTodosForBoardLane rt db project.id column.key query.tagFilters
    (query.filter sprintFilter)).mapError .store
  let nextCursor :=
    if page.hasMore then
      todos.getLast?.map fun last => encodeMcpBoardCursor (mcpBoardLaneCursor last query.sortOrder)
    else none
  pure { workflow := column, todos, nextCursor, hasMore := page.hasMore, totalCount }

/-- The read after the project has been authorized. -/
def readMcpBoard (rt : Runtime) (ctx : Ctx) (pc : ProjectContext) (db : DB)
    (query : McpBoardReadQuery) : Except McpBoardReadError (DB × McpBoardReadResult) := do
  let sprintFilter ← resolveSprintFilter db pc.project query.sprintID
  let (db, workflow) ← (getProjectWorkflow db pc.project.id).mapError .store
  let columnKeyFilter := trimSpace query.columnKey
  reject (columnKeyFilter ≠ "" ∧ columnKeyFilter ∉ workflow.map (·.key)) .invalidColumnKey
  query.cursorByColumn.forM fun entry =>
    reject (entry.1 ∉ workflow.map (·.key)) (.unknownCursorColumn entry.1)
  let shown := workflow.filter fun column =>
    columnKeyFilter == "" || column.key == columnKeyFilter
  let columns ← shown.mapM (readMcpBoardColumn rt db pc.project query sprintFilter)
  pure (recordBoardRead ctx pc db, { project := pc.project, role := pc.role, columns })

end Scrumboy
