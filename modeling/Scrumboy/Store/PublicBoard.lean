import Scrumboy.Go.Base64
import Scrumboy.Sql.Keyset
import Scrumboy.Store.Slugs
import Mathlib.Data.String.Basic

/-!
# The public board

What the store shows of a project whose board is public: the project, its lanes, priorities
and tags, a page of each lane, a todo and its links. Every read is one transaction that
checks once more that the project is public, by its id and its slug. The flag
`public_view_enabled` is kept beside the other tables.
-/

set_option linter.dupNamespace false

namespace Scrumboy

open Go Sql

/-- The database with the ids of the projects whose `public_view_enabled` is set. -/
structure PublicStore where
  db : DB
  publicViewEnabled : List ℤ

structure PublicProjectProjection where
  slug : String
  name : String
  dominantColor : String
  estimationMode : String
  sprintsEnabled : Bool
  deriving DecidableEq, Repr

structure PublicWorkflowProjection where
  key : String
  name : String
  color : String
  isDone : Bool
  position : ℤ
  deriving DecidableEq, Repr

structure PublicPriorityProjection where
  key : String
  name : String
  color : String
  position : ℤ
  deriving DecidableEq, Repr

structure PublicTagProjection where
  name : String
  color : String
  activeCount : ℕ
  deriving DecidableEq, Repr

structure PublicTodoTagProjection where
  name : String
  color : String
  deriving DecidableEq, Repr

structure PublicTodoProjection where
  localID : ℤ
  title : String
  body : String
  columnKey : String
  estimationPoints : Option ℤ
  priorityKey : Option String
  sprintNumber : Option ℤ
  tags : List PublicTodoTagProjection := []
  deriving DecidableEq, Repr

structure PublicTodoOrder where
  rank : ℤ
  localID : ℤ
  deriving DecidableEq, Repr

/-- A query; `tagIDGroups` has the tag rows of each filter once they are resolved. -/
structure PublicBoardQuery where
  search : String := ""
  tags : List String := []
  sprintNumber : Option ℤ := none
  priorityKey : Option String := none
  limit : ℤ
  after : Option PublicTodoOrder := none
  tagIDGroups : Option (List (List ℤ)) := none
  deriving DecidableEq, Repr

structure PublicLaneProjection where
  items : List PublicTodoProjection
  hasMore : Bool
  nextOrder : Option PublicTodoOrder
  totalCount : ℕ
  deriving DecidableEq, Repr

/-- The lanes are listed with their keys, in the order of the workflow. -/
structure PublicBoardSnapshotProjection where
  project : PublicProjectProjection
  workflow : List PublicWorkflowProjection
  priorities : List PublicPriorityProjection
  tags : List PublicTagProjection
  lanes : List (String × PublicLaneProjection)
  deriving DecidableEq, Repr

structure PublicTodoLinkProjection where
  direction : String
  localID : ℤ
  title : String
  deriving DecidableEq, Repr

/-! ## Tags -/

def publicTagPalette : List String :=
  ["#ef4444", "#f97316", "#d97706", "#65a30d", "#16a34a", "#0d9488", "#0891b2", "#3b82f6", "#6366f1",
    "#8b5cf6", "#d946ef", "#ec4899"]

/-- The FNV-1a hash of a text with 32 bits. -/
def fnv32a (s : String) : ℕ :=
  (utf8Bytes s).foldl (fun h b => (h ^^^ b) * 16777619 % 4294967296) 2166136261

def resolvePublicTagColor (rt : Runtime) (name sharedColor : String) : String :=
  if colorHexRe sharedColor then sharedColor
  else publicTagPalette.getD (fnv32a (tagGroupKey rt name) % publicTagPalette.length) ""

/-- A row of the join of todos, `todo_tags` and tags. -/
structure TagAssociation where
  tagID : ℤ
  localID : ℤ
  name : String
  color : String
  deriving DecidableEq, Repr

/-- The todos of the project that are not archived. -/
def isPublicTodo (projectID : ℤ) (t : TodoRow) : Bool := t.projectID == projectID && t.archivedAt.isNone

/-- The tags of the todos that are not archived. -/
def publicTagJoin (db : DB) (projectID : ℤ) : List TagAssociation :=
  (db.todos.filter (isPublicTodo projectID)).flatMap fun t =>
    (db.todoTags.filter fun tt => tt.todoID == t.id).flatMap fun tt =>
      (db.tags.filter fun g => g.id == tt.tagID).map fun g => ⟨g.id, t.localID, g.name, g.color.getD ""⟩

/-- `ORDER BY g.id, t.local_id`. -/
def TagAssociation.byTag (a : TagAssociation) : ℤ ×ₗ ℤ := toLex (a.tagID, a.localID)

/-- `ORDER BY t.local_id, g.id`. -/
def TagAssociation.byTodo (a : TagAssociation) : ℤ ×ₗ ℤ := toLex (a.localID, a.tagID)

def listPublicTagsTx (rt : Runtime) (db : DB) (projectID : ℤ) : List PublicTagProjection :=
  let rows := orderBy TagAssociation.byTag (publicTagJoin db projectID)
  (sortStrings (rows.map fun a => tagGroupKey rt a.name).dedup).map fun name =>
    let members := rows.filter fun a => tagGroupKey rt a.name == name
    { name := name
      color := resolvePublicTagColor rt name (((members.map (·.color)).find? colorHexRe).getD "")
      activeCount := (members.map (·.localID)).dedup.length }

/-- The color of a tag so far and the next one: a color that is not valid gives way. -/
def mergeTagColor (existing : Option String) (color : String) : Option String :=
  match existing with
  | none => some color
  | some e => if colorHexRe e = false ∧ colorHexRe color = true then some color else some e

/-- The tags of one of the todos that are listed. -/
def listPublicTodoTagsTx (rt : Runtime) (db : DB) (projectID : ℤ) (localIDs : List ℤ) (localID : ℤ) :
    List PublicTodoTagProjection :=
  let rows := (orderBy TagAssociation.byTodo
    ((publicTagJoin db projectID).filter fun a => localIDs.contains a.localID)).filter fun a =>
      a.localID == localID
  (sortStrings (rows.map fun a => tagGroupKey rt a.name).dedup).map fun name =>
    let colors := (rows.filter fun a => tagGroupKey rt a.name == name).map (·.color)
    ⟨name, resolvePublicTagColor rt name ((colors.foldl mergeTagColor none).getD "")⟩

/-- The rows of each tag filter, among the tags of all todos of the project. A filter that is
named twice has its rows at the last place. -/
def resolvePublicTagFiltersTx (rt : Runtime) (db : DB) (projectID : ℤ) (query : PublicBoardQuery) :
    PublicBoardQuery :=
  if query.tags = [] ∨ query.tagIDGroups.isSome then query
  else
    let rows := orderBy (·.id) <| db.tags.filter fun g =>
      db.todoTags.any fun tt => tt.tagID == g.id &&
        db.todos.any fun t => t.id == tt.todoID && t.projectID == projectID
    { query with
      tagIDGroups := some (query.tags.zipIdx.map fun (key, i) =>
        if key ∈ query.tags.drop (i + 1) then []
        else (rows.filter fun g => tagGroupKey rt g.name == key).map (·.id)) }

/-! ## Lanes -/

/-- A backslash before each character with a meaning in `LIKE`. -/
def publicLikePattern (value : String) : String :=
  "%" ++ String.ofList ((toLower value).toList.flatMap fun c =>
    if c = '\\' ∨ c = '%' ∨ c = '_' then ['\\', c] else [c]) ++ "%"

def publicSearchMatches (search title body : String) : Bool :=
  search == "" || likeEscape '\\' (publicLikePattern search) (lower title) ||
    likeEscape '\\' (publicLikePattern search) (lower body)

/-- The condition on the tags of a todo. An empty group is a condition that nothing meets. -/
def publicTagsMatch (db : DB) (tagIDGroups : Option (List (List ℤ))) (t : TodoRow) : Bool :=
  (tagIDGroups.getD []).all fun group =>
    db.todoTags.any fun tt => tt.todoID == t.id && group.contains tt.tagID

def publicTodoWhere (db : DB) (projectID : ℤ) (columnKey : String) (query : PublicBoardQuery)
    (includeAfter : Bool) (t : TodoRow) : Bool :=
  isPublicTodo projectID t && t.columnKey == columnKey &&
    publicSearchMatches query.search t.title t.body && publicTagsMatch db query.tagIDGroups t &&
    (query.sprintNumber.all fun number => db.sprints.any fun sp =>
      t.sprintID == some sp.id && sp.projectID == t.projectID && sp.number == number) &&
    (query.priorityKey.all fun key => t.priorityKey == some key) &&
    (!includeAfter || query.after.all fun after =>
      decide (after.rank < t.rank) || (t.rank == after.rank && decide (after.localID < t.localID)))

def validatePublicLaneQueryTx (db : DB) (projectID : ℤ) (columnKey : String) (query : PublicBoardQuery) :
    Result Unit := do
  reject (¬ ∃ c ∈ db.columns, c.projectID = projectID ∧ c.key = columnKey)
    ⟨.validation, "unknown public lane"⟩
  reject (∃ key ∈ query.priorityKey, ¬ ∃ p ∈ db.priorities, p.projectID = projectID ∧ p.key = key)
    ⟨.validation, "unknown public priority"⟩
  reject (∃ number ∈ query.sprintNumber,
    ¬ ∃ sp ∈ db.sprints, sp.projectID = projectID ∧ sp.number = number)
    ⟨.validation, "unknown public sprint"⟩

/-- The sprint of a todo, by a join on the id within the project. -/
def publicSprintNumber (db : DB) (t : TodoRow) : Option ℤ :=
  (db.sprints.find? fun sp => t.sprintID == some sp.id && sp.projectID == t.projectID).map (·.number)

def publicTodoOf (db : DB) (t : TodoRow) : PublicTodoProjection where
  localID := t.localID
  title := t.title
  body := t.body
  columnKey := t.columnKey
  estimationPoints := t.estimationPoints
  priorityKey := t.priorityKey
  sprintNumber := publicSprintNumber db t

/-- `ORDER BY t.rank, t.local_id`. -/
def publicOrderKey (t : TodoRow) : ℤ ×ₗ ℤ := toLex (t.rank, t.localID)

def listPublicLaneTx (rt : Runtime) (db : DB) (projectID : ℤ) (columnKey : String)
    (query : PublicBoardQuery) : Result PublicLaneProjection := do
  reject (query.limit < 1 ∨ 50 < query.limit) ⟨.validation, "invalid public page limit"⟩
  validatePublicLaneQueryTx db projectID columnKey query
  let fetched := (orderBy publicOrderKey
    (db.todos.filter (publicTodoWhere db projectID columnKey query true))).take (query.limit + 1).toNat
  let hasMore := decide (query.limit < fetched.length)
  let page := if hasMore then fetched.take query.limit.toNat else fetched
  let items := page.map fun t => { publicTodoOf db t with
    tags := listPublicTodoTagsTx rt db projectID (page.map (·.localID)) t.localID }
  let totalCount := (db.todos.filter (publicTodoWhere db projectID columnKey query false)).length
  let nextOrder := if hasMore then page.getLast?.map fun t => ⟨t.rank, t.localID⟩ else none
  pure { items, hasMore, nextOrder, totalCount }

/-! ## Reads -/

/-- The id of the public project with a slug. -/
def resolveEligiblePublicProject (s : PublicStore) (slug : String) : Result ℤ := do
  reject (isValidSlug slug = false ∨ isReservedProjectSlug slug = true) ⟨.notFound, ""⟩
  let some p := s.db.projects.find? fun p => p.slug == slug && p.importBatchID.isNone &&
      p.expiresAt.isNone && s.publicViewEnabled.contains p.id
    | throw ⟨.notFound, ""⟩
  pure p.id

/-- The row of a public project: visible, without an expiry, and with its flag set. -/
def publicProjectRow (s : PublicStore) (projectID : ℤ) : Option ProjectRow :=
  s.db.projects.find? fun p => p.id == projectID && p.importBatchID.isNone && p.expiresAt.isNone &&
    s.publicViewEnabled.contains p.id

def loadEligiblePublicProjectTx (s : PublicStore) (projectID : ℤ) (expectedSlug : String) :
    Result PublicProjectProjection := do
  let some p := (publicProjectRow s projectID).filter (·.slug == expectedSlug) | throw ⟨.notFound, ""⟩
  reject (isValidSlug p.slug = false ∨ isReservedProjectSlug p.slug = true) ⟨.notFound, ""⟩
  pure ⟨p.slug, p.name, p.dominantColor, p.estimationMode, p.sprintsEnabled⟩

def listPublicWorkflowTx (db : DB) (projectID : ℤ) : List PublicWorkflowProjection :=
  (orderBy (fun c => toLex (c.position, c.key)) (db.columns.filter (·.projectID == projectID))).map
    fun c => ⟨c.key, c.name, c.color, c.isDone, c.position⟩

def listPublicPrioritiesTx (db : DB) (projectID : ℤ) : List PublicPriorityProjection :=
  (orderBy (fun p => toLex (p.position, p.key)) (db.priorities.filter (·.projectID == projectID))).map
    fun p => ⟨p.key, p.name, p.color, p.position⟩

def getPublicBoardSnapshot (rt : Runtime) (s : PublicStore) (projectID : ℤ) (expectedSlug : String)
    (query : PublicBoardQuery) : Result PublicBoardSnapshotProjection := do
  let project ← loadEligiblePublicProjectTx s projectID expectedSlug
  let query := resolvePublicTagFiltersTx rt s.db projectID query
  let workflow := listPublicWorkflowTx s.db projectID
  let priorities := listPublicPrioritiesTx s.db projectID
  let tags := listPublicTagsTx rt s.db projectID
  let lanes ← workflow.mapM fun column => do
    let page ← listPublicLaneTx rt s.db projectID column.key query
    pure (column.key, page)
  pure { project, workflow, priorities, tags, lanes }

def getPublicBoardLane (rt : Runtime) (s : PublicStore) (projectID : ℤ) (expectedSlug columnKey : String)
    (query : PublicBoardQuery) : Result PublicLaneProjection := do
  let _ ← loadEligiblePublicProjectTx s projectID expectedSlug
  listPublicLaneTx rt s.db projectID columnKey (resolvePublicTagFiltersTx rt s.db projectID query)

def getPublicTodoDetail (rt : Runtime) (s : PublicStore) (projectID : ℤ) (expectedSlug : String)
    (localID : ℤ) : Result PublicTodoProjection := do
  let _ ← loadEligiblePublicProjectTx s projectID expectedSlug
  let some t := s.db.todos.find? fun t => isPublicTodo projectID t && t.localID == localID
    | throw ⟨.notFound, ""⟩
  pure { publicTodoOf s.db t with tags := listPublicTodoTagsTx rt s.db projectID [localID] localID }

/-- The links between todos that are not archived, as pairs of todos. -/
def publicLinkJoin (db : DB) (projectID : ℤ) : List (TodoRow × TodoRow) :=
  (db.links.filter (·.projectID == projectID)).flatMap fun link =>
    (db.todos.filter fun source => isPublicTodo projectID source && source.localID == link.fromLocalID).flatMap
      fun source =>
        (db.todos.filter fun target => isPublicTodo projectID target && target.localID == link.toLocalID).map
          fun target => (source, target)

/-- `ORDER BY 1, 2`. -/
def PublicTodoLinkProjection.orderKey (l : PublicTodoLinkProjection) : String ×ₗ ℤ :=
  toLex (l.direction, l.localID)

def listPublicTodoLinks (s : PublicStore) (projectID : ℤ) (expectedSlug : String) (localID : ℤ) :
    Result (List PublicTodoLinkProjection) := do
  let _ ← loadEligiblePublicProjectTx s projectID expectedSlug
  reject (¬ ∃ t ∈ s.db.todos, isPublicTodo projectID t = true ∧ t.localID = localID) ⟨.notFound, ""⟩
  let join := publicLinkJoin s.db projectID
  let outbound := (join.filter (·.1.localID == localID)).map fun l => ⟨"outbound", l.2.localID, l.2.title⟩
  let inbound := (join.filter (·.2.localID == localID)).map fun l => ⟨"inbound", l.1.localID, l.1.title⟩
  pure (orderBy PublicTodoLinkProjection.orderKey (outbound ++ inbound))

end Scrumboy
