import Scrumboy.Go.Json
import Scrumboy.Go.Sha256
import Scrumboy.Store.PublicBoard

/-!
# Reading the public board

The reads that a visitor without an account makes. A query is brought into one form, and a
lane is read page by page with a cursor that the visitor sends back as an opaque token.
The token names the lane, the last todo of the page, and a fingerprint of the query and of
the slug of the project, so that it is of use for this lane and this query only.
-/

namespace Scrumboy

open Go Sql

inductive PublicReadError
  | notFound
  | invalidQuery (message : String)
  | store (err : StoreError)
  deriving DecidableEq, Repr

def defaultPublicPageSize : ℤ := 20

def maxPublicPageSize : ℤ := 50

def maxSearchRunes : ℕ := 200

def maxTagFilters : ℕ := 10

def maxCursorLength : ℕ := 512

/-- A project that was found to be public. -/
structure PreparedRead where
  projectID : ℤ
  slug : String
  deriving DecidableEq, Repr

structure QueryInput where
  search : String := ""
  tags : List String := []
  sprintNumber : Option ℤ := none
  priorityKey : String := ""
  limit : ℤ := 0
  afterCursor : String := ""
  deriving DecidableEq, Repr

structure LaneResult where
  items : List PublicTodoProjection
  hasMore : Bool
  nextCursor : Option String
  totalCount : ℕ
  deriving DecidableEq, Repr

structure SnapshotResult where
  project : PublicProjectProjection
  workflow : List PublicWorkflowProjection
  priorities : List PublicPriorityProjection
  tags : List PublicTagProjection
  lanes : List (String × LaneResult)
  deriving DecidableEq, Repr

structure NormalizedQuery where
  storeQuery : PublicBoardQuery
  fingerprint : String
  deriving DecidableEq, Repr

/-! ## Queries -/

/-- The tags of a query in canonical form, each once. -/
def normalizeTagFilters (rt : Runtime) : List String → List String → Except PublicReadError (List String)
  | seen, [] => pure seen
  | seen, raw :: rest => do
      let tag := canonicalizeTag rt raw
      reject (tag = "") (.invalidQuery "invalid tag filter")
      normalizeTagFilters rt (if tag ∈ seen then seen else seen ++ [tag]) rest

/-- What the fingerprint of a query is made from. A sprint or a priority that is not asked
for is left out. -/
def fingerprintInput (search : String) (tags : List String) (sprintNumber : Option ℤ) (priority : String) :
    List Char :=
  jsonFields ([("q", jsonText search.toList), ("t", jsonTexts tags)] ++
    (sprintNumber.toList.map fun n => ("s", (formatInt n).toList)) ++
    if priority = "" then [] else [("p", jsonText priority.toList)])

/-- The first twelve bytes of the hash. -/
def shortSum (s : String) : List ℕ := (sum256 (utf8Bytes s)).take 12

def normalizeQuery (rt : Runtime) (input : QueryInput) : Except PublicReadError NormalizedQuery := do
  let search := trimSpace input.search
  reject (maxSearchRunes < search.toList.length) (.invalidQuery "search is too long")
  reject (maxTagFilters < input.tags.length) (.invalidQuery "too many tag filters")
  let tags ← normalizeTagFilters rt [] input.tags
  let tags := sortStrings tags
  reject (∃ n ∈ input.sprintNumber, n < 1) (.invalidQuery "invalid sprint number")
  let priority := toLower (trimSpace input.priorityKey)
  reject (priority ≠ "" ∧ isValidColumnKey priority = false) (.invalidQuery "invalid priority key")
  let limit := if input.limit = 0 then defaultPublicPageSize else input.limit
  reject (limit < 1 ∨ maxPublicPageSize < limit) (.invalidQuery "invalid page limit")
  let storeQuery : PublicBoardQuery :=
    { search, tags, sprintNumber := input.sprintNumber
      priorityKey := if priority = "" then none else some priority, limit }
  let encoded := fingerprintInput search tags input.sprintNumber priority
  pure { storeQuery, fingerprint := encodeBytesToString (shortSum (String.ofList encoded)) }

def bindQueryFingerprintToProject (query : NormalizedQuery) (slug : String) : NormalizedQuery :=
  { query with
    fingerprint := encodeBytesToString (shortSum (slug ++ "\x00" ++ query.fingerprint)) }

/-! ## Cursors -/

structure CursorPayload where
  version : ℤ := 0
  columnKey : String := ""
  rank : ℤ := 0
  localID : ℤ := 0
  fingerprint : String := ""
  deriving DecidableEq, Repr

def cursorFields (payload : CursorPayload) : List (String × List Char) :=
  [("v", (formatInt payload.version).toList), ("c", jsonText payload.columnKey.toList),
    ("r", (formatInt payload.rank).toList), ("l", (formatInt payload.localID).toList),
    ("f", jsonText payload.fingerprint.toList)]

def encodeCursor (columnKey fingerprint : String) (order : Option PublicTodoOrder) : Option String :=
  order.map fun order =>
    encodeToString (String.ofList (jsonFields (cursorFields
      { version := 1, columnKey, rank := order.rank, localID := order.localID, fingerprint })))

/-- A member is known by its name in either case, and has a value of its type or null. -/
def CursorPayload.set (payload : CursorPayload) : List Char × JsonScalar → Option CursorPayload
  | ([key], value) =>
      match key.toLower, value with
      | 'v', .int n => some { payload with version := n }
      | 'c', .text s => some { payload with columnKey := String.ofList s }
      | 'r', .int n => some { payload with rank := n }
      | 'l', .int n => some { payload with localID := n }
      | 'f', .text s => some { payload with fingerprint := String.ofList s }
      | 'v', .null | 'c', .null | 'r', .null | 'l', .null | 'f', .null => some payload
      | _, _ => none
  | _ => none

/-- One object and nothing behind it. -/
def readCursorPayload (decoded : String) : Option CursorPayload := do
  let (members, rest) ← readJsonObject decoded.toList
  let payload ← members.foldlM CursorPayload.set {}
  if skipJsonSpace rest = [] then some payload else none

def decodeCursor (raw columnKey fingerprint : String) :
    Except PublicReadError (Option PublicTodoOrder) :=
  if raw = "" then pure none
  else do
    reject (maxCursorLength < byteLen raw) (.invalidQuery "cursor is too long")
    let some decoded := (decodeString raw).filter fun decoded =>
        decoded.toList.length ≠ 0 && decoded.toList.length ≤ maxCursorLength
      | throw (.invalidQuery "invalid cursor")
    let some payload := readCursorPayload decoded | throw (.invalidQuery "invalid cursor")
    reject (payload.version ≠ 1 ∨ payload.columnKey ≠ columnKey ∨ payload.fingerprint ≠ fingerprint ∨
      payload.rank < 0 ∨ payload.localID < 1)
      (.invalidQuery "cursor does not match this lane and filter")
    pure (some ⟨payload.rank, payload.localID⟩)

/-! ## Reads -/

def mapReadError (err : StoreError) : PublicReadError :=
  match err.kind with
  | .notFound => .notFound
  | .validation => .invalidQuery "invalid project-local filter"
  | _ => .store err

/-- A lane with the cursor for its next page. -/
def laneResult (columnKey fingerprint : String) (lane : PublicLaneProjection) : LaneResult where
  items := lane.items
  hasMore := lane.hasMore
  nextCursor := encodeCursor columnKey fingerprint lane.nextOrder
  totalCount := lane.totalCount

def resolvePublicRead (mode : Mode) (publicProjectsEnabled : Bool) (s : PublicStore) (rawSlug : String) :
    Except PublicReadError PreparedRead := do
  reject (mode ≠ .full ∨ publicProjectsEnabled = false) .notFound
  let slug := trimSpace rawSlug
  reject (isValidSlug slug = false ∨ isReservedProjectSlug slug = true) .notFound
  let projectID ← (resolveEligiblePublicProject s slug).mapError fun err =>
    if err.kind = .notFound then .notFound else .store err
  pure ⟨projectID, slug⟩

def readSnapshot (rt : Runtime) (s : PublicStore) (p : PreparedRead) (input : QueryInput) :
    Except PublicReadError SnapshotResult := do
  reject (input.afterCursor ≠ "") (.invalidQuery "snapshot cursor is not supported")
  let query ← normalizeQuery rt input
  let query := bindQueryFingerprintToProject query p.slug
  let projection ← (getPublicBoardSnapshot rt s p.projectID p.slug query.storeQuery).mapError mapReadError
  pure
    { project := projection.project
      workflow := projection.workflow
      priorities := projection.priorities
      tags := projection.tags
      lanes := projection.lanes.map fun lane => (lane.1, laneResult lane.1 query.fingerprint lane.2) }

def readLane (rt : Runtime) (s : PublicStore) (p : PreparedRead) (columnKey : String) (input : QueryInput) :
    Except PublicReadError LaneResult := do
  let columnKey := trimSpace (toLower columnKey)
  reject (isValidColumnKey columnKey = false) (.invalidQuery "invalid lane key")
  let query ← normalizeQuery rt input
  let query := bindQueryFingerprintToProject query p.slug
  let after ← decodeCursor input.afterCursor columnKey query.fingerprint
  let projection ← (getPublicBoardLane rt s p.projectID p.slug columnKey
    { query.storeQuery with after }).mapError mapReadError
  pure (laneResult columnKey query.fingerprint projection)

end Scrumboy
