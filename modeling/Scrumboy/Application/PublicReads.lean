import Scrumboy.Application.PublicPages
import Scrumboy.Store.Placement

/-!
# Reading a public lane to its end

The reads of the application as pages of the rows that are left, and what follows for a
visitor who sends back one token after the other on an unchanged board.
-/

set_option linter.dupNamespace false

namespace Scrumboy

open Go Sql

/-- The tables as the schema and the writers of the store keep them: among the visible
projects a slug stands once, the keys of the lanes are well formed, and ranks and local ids
have 64 bits. -/
structure PublicRows (db : DB) : Prop extends PublicTable db where
  slugs : ((db.projects.filter fun p => p.importBatchID.isNone && p.slug != "").map (·.slug)).Nodup
  lanes : ∀ c ∈ db.columns, IsColumnKey c.key
  numbers : ∀ t ∈ db.todos, IsInt64 t.rank ∧ IsInt64 t.localID

/-- The project is public, the lane is one of its own, and so are the priority and the sprint
of the query. -/
structure Opens (s : PublicStore) (p : PreparedRead) (key : String) (query : PublicBoardQuery) : Prop where
  project : ∃ project, loadEligiblePublicProjectTx s p.projectID p.slug = .ok project
  lane : validatePublicLaneQueryTx s.db p.projectID key query = .ok ()

/-- The key that a read of a lane looks for. -/
def publicLaneKey (columnKey : String) : String := trimSpace (toLower columnKey)

def boundFingerprint (query : NormalizedQuery) (p : PreparedRead) : String :=
  (bindQueryFingerprintToProject query p.slug).fingerprint

section

variable {rt : Runtime} {s : PublicStore} {p : PreparedRead} {columnKey key : String}
  {input : QueryInput} {query : NormalizedQuery}

/-- The rows of the lane that are left after a position. -/
def rowsLeft (rt : Runtime) (db : DB) (projectID : ℤ) (key : String) (query : PublicBoardQuery)
    (after : Option PublicTodoOrder) : List TodoRow :=
  orderBy publicOrderKey (db.todos.filter (publicTodoWhere db projectID key
    (resolvePublicTagFiltersTx rt db projectID { query with after }) true))

theorem resolvePublicTagFiltersTx_after (rt : Runtime) (db : DB) (projectID : ℤ) (query : PublicBoardQuery)
    (after : Option PublicTodoOrder) :
    resolvePublicTagFiltersTx rt db projectID { query with after } =
      { resolvePublicTagFiltersTx rt db projectID query with after } := by
  unfold resolvePublicTagFiltersTx
  split
  · rfl
  · rfl

theorem rowsLeft_none (db : DB) (projectID : ℤ) (query : PublicBoardQuery) :
    rowsLeft rt db projectID key query none = publicLaneRows rt db projectID key query := by
  unfold rowsLeft publicLaneRows
  rw [resolvePublicTagFiltersTx_after]
  congr 1

theorem rowsLeft_some (db : DB) (projectID : ℤ) (query : PublicBoardQuery) (order : PublicTodoOrder) :
    rowsLeft rt db projectID key query (some order) =
      rowsAfter publicOrderKey (db.todos.filter (publicTodoWhere db projectID key
        (resolvePublicTagFiltersTx rt db projectID query) false)) (toLex (order.rank, order.localID)) :=
  orderBy_where_after order

/-! ## The answers -/

/-- The page of a lane that the application hands out. -/
def lanePage (rt : Runtime) (s : PublicStore) (p : PreparedRead) (key : String) (query : NormalizedQuery)
    (left : List TodoRow) : LaneResult :=
  laneResult key (boundFingerprint query p) (publicPage rt s.db p.projectID query.storeQuery.limit.toNat
    (publicLaneRows rt s.db p.projectID key query.storeQuery).length left)

/-- A lane of the store, with the tags of the query resolved. -/
theorem PublicTable.listPublicLane_eq_ok (h : PublicTable s.db) (hquery : NormalForm query)
    (after : Option PublicTodoOrder) {lane : PublicLaneProjection} :
    listPublicLaneTx rt s.db p.projectID key (resolvePublicTagFiltersTx rt s.db p.projectID
        { query.storeQuery with after }) = .ok lane ↔
      validatePublicLaneQueryTx s.db p.projectID key query.storeQuery = .ok () ∧
        lane = publicPage rt s.db p.projectID query.storeQuery.limit.toNat
          (publicLaneRows rt s.db p.projectID key query.storeQuery).length
          (rowsLeft rt s.db p.projectID key query.storeQuery after) := by
  have hlimit : (resolvePublicTagFiltersTx rt s.db p.projectID { query.storeQuery with after }).limit =
      query.storeQuery.limit := by
    rw [resolvePublicTagFiltersTx_eq]
  have hvalid : validatePublicLaneQueryTx s.db p.projectID key
      (resolvePublicTagFiltersTx rt s.db p.projectID { query.storeQuery with after }) =
      validatePublicLaneQueryTx s.db p.projectID key query.storeQuery := by
    rw [resolvePublicTagFiltersTx_eq]
    rfl
  have htotal : (s.db.todos.filter (publicTodoWhere s.db p.projectID key
      (resolvePublicTagFiltersTx rt s.db p.projectID { query.storeQuery with after }) false)).length =
      (publicLaneRows rt s.db p.projectID key query.storeQuery).length := by
    rw [publicLaneRows, length_orderBy, resolvePublicTagFiltersTx_after]
    rfl
  rw [h.listPublicLaneTx_eq_ok (by rw [hlimit]; exact hquery.min) (by rw [hlimit]; exact hquery.max), hvalid,
    htotal, hlimit]
  rfl

/-- The same without a position. -/
theorem PublicTable.listPublicLane_first (h : PublicTable s.db) (hquery : NormalForm query)
    {lane : PublicLaneProjection} :
    listPublicLaneTx rt s.db p.projectID key (resolvePublicTagFiltersTx rt s.db p.projectID
        query.storeQuery) = .ok lane ↔
      validatePublicLaneQueryTx s.db p.projectID key query.storeQuery = .ok () ∧
        lane = publicPage rt s.db p.projectID query.storeQuery.limit.toNat
          (publicLaneRows rt s.db p.projectID key query.storeQuery).length
          (publicLaneRows rt s.db p.projectID key query.storeQuery) := by
  have hrows : rowsLeft rt s.db p.projectID key query.storeQuery query.storeQuery.after =
      publicLaneRows rt s.db p.projectID key query.storeQuery := by
    rw [hquery.after, rowsLeft_none]
  refine Iff.trans (h.listPublicLane_eq_ok hquery query.storeQuery.after) ?_
  rw [hrows]

theorem isValidColumnKey_iff {key : String} (h : trimSpace key = key) :
    isValidColumnKey key = true ↔ IsColumnKey key :=
  ⟨fun hvalid => ⟨h, hvalid⟩, fun hkey => hkey.2⟩

/-- A read of a lane answers with the page behind the position of its token. -/
theorem readLane_eq_ok (h : PublicTable s.db) (hquery : normalizeQuery rt input = .ok query)
    {cursor : String} {page : LaneResult} :
    readLane rt s p columnKey { input with afterCursor := cursor } = .ok page ↔
      IsColumnKey (publicLaneKey columnKey) ∧ Opens s p (publicLaneKey columnKey) query.storeQuery ∧
        ∃ after, decodeCursor cursor (publicLaneKey columnKey) (boundFingerprint query p) = .ok after ∧
          page = lanePage rt s p (publicLaneKey columnKey) query
            (rowsLeft rt s.db p.projectID (publicLaneKey columnKey) query.storeQuery after) := by
  have hnormal := normalizeQuery_normalForm hquery
  have htrim : trimSpace (publicLaneKey columnKey) = publicLaneKey columnKey := trimSpace_trimSpace _
  have hsame : normalizeQuery rt { input with afterCursor := cursor } = .ok query := hquery
  simp only [readLane, bind_eq_ok, reject_eq_ok, pure_eq_ok, mapError_eq_ok, hsame, Except.ok.injEq,
    getPublicBoardLane, exists_eq_left', Bool.not_eq_false]
  constructor
  · rintro ⟨_, hvalid, after, hafter, lane, ⟨project, hproject, hlane⟩, rfl⟩
    obtain ⟨hvalidate, rfl⟩ := (h.listPublicLane_eq_ok hnormal after).mp hlane
    exact ⟨(isValidColumnKey_iff htrim).mp hvalid, ⟨⟨project, hproject⟩, hvalidate⟩, after, hafter, rfl⟩
  · rintro ⟨hkey, ⟨⟨project, hproject⟩, hvalidate⟩, after, hafter, rfl⟩
    exact ⟨(), hkey.2, after, hafter, _, ⟨project, hproject, (h.listPublicLane_eq_ok hnormal after).mpr
      ⟨hvalidate, rfl⟩⟩, rfl⟩

theorem mem_workflow {c : PublicWorkflowProjection} {db : DB} {projectID : ℤ}
    (h : c ∈ listPublicWorkflowTx db projectID) : ∃ d ∈ db.columns, d.projectID = projectID ∧ d.key = c.key :=
  mem_workflow_keys.mp (List.mem_map_of_mem h)

/-- If one lane can be read, then all. -/
theorem Opens.other (h : Opens s p key query.storeQuery) {c : PublicWorkflowProjection}
    (hc : c ∈ listPublicWorkflowTx s.db p.projectID) : Opens s p c.key query.storeQuery := by
  refine ⟨h.project, ?_⟩
  have hlane := h.lane
  simp only [validatePublicLaneQueryTx, bind_eq_ok, reject_eq_ok] at hlane ⊢
  obtain ⟨u, _, v, hpriority, hsprint⟩ := hlane
  exact ⟨u, fun hno => hno (mem_workflow hc), v, hpriority, hsprint⟩

theorem Opens.mem_columns (h : Opens s p key query.storeQuery) :
    ∃ c ∈ s.db.columns, c.projectID = p.projectID ∧ c.key = key := by
  have hlane := h.lane
  simp only [validatePublicLaneQueryTx, bind_eq_ok, reject_eq_ok, not_not] at hlane
  obtain ⟨_, hcolumn, _⟩ := hlane
  exact hcolumn

/-- A lane of a snapshot is its first page. -/
theorem readSnapshot_lane (h : PublicTable s.db) (hquery : normalizeQuery rt input = .ok query)
    {result : SnapshotResult} {page : LaneResult}
    (hread : readSnapshot rt s p { input with afterCursor := "" } = .ok result)
    (hpage : (key, page) ∈ result.lanes) :
    Opens s p key query.storeQuery ∧ page = lanePage rt s p key query
      (publicLaneRows rt s.db p.projectID key query.storeQuery) := by
  have hnormal := normalizeQuery_normalForm hquery
  have hsame : normalizeQuery rt { input with afterCursor := "" } = .ok query := hquery
  simp only [readSnapshot, bind_eq_ok, reject_eq_ok, pure_eq_ok, mapError_eq_ok, hsame, Except.ok.injEq,
    getPublicBoardSnapshot, exists_eq_left'] at hread
  obtain ⟨_, _, snapshot, ⟨project, hproject, lanes, hlanes, rfl⟩, rfl⟩ := hread
  obtain ⟨⟨key', lane⟩, hlane, heq⟩ := List.mem_map.mp hpage
  obtain ⟨column, _, hcolumn⟩ := mem_of_mapM hlanes hlane
  simp only [bind_eq_ok, pure_eq_ok, Prod.mk.injEq] at hcolumn heq
  obtain ⟨lane', hread, hkey, rfl⟩ := hcolumn
  obtain ⟨rfl, rfl⟩ := heq
  rw [bindQueryFingerprintToProject, hkey] at hread
  obtain ⟨hvalidate, rfl⟩ := (h.listPublicLane_first hnormal).mp hread
  exact ⟨⟨⟨project, hproject⟩, hvalidate⟩, rfl⟩

theorem exists_readSnapshot (h : PublicTable s.db) (hquery : normalizeQuery rt input = .ok query)
    (hopens : Opens s p key query.storeQuery) :
    ∃ result page, readSnapshot rt s p { input with afterCursor := "" } = .ok result ∧
      (key, page) ∈ result.lanes := by
  have hnormal := normalizeQuery_normalForm hquery
  have hsame : normalizeQuery rt { input with afterCursor := "" } = .ok query := hquery
  obtain ⟨project, hproject⟩ := hopens.project
  have hall : ∀ column ∈ listPublicWorkflowTx s.db p.projectID, ∃ lane, (do
      let page ← listPublicLaneTx rt s.db p.projectID column.key
        (resolvePublicTagFiltersTx rt s.db p.projectID query.storeQuery)
      pure (column.key, page) : Result (String × PublicLaneProjection)) = .ok lane := by
    intro column hcolumn
    exact ⟨_, bind_eq_ok.mpr ⟨_, (h.listPublicLane_first hnormal).mpr
      ⟨(hopens.other hcolumn).lane, rfl⟩, rfl⟩⟩
  obtain ⟨lanes, hlanes, hmem⟩ := exists_mapM_eq_ok hall
  obtain ⟨column, hcolumn, hkey⟩ := List.mem_map.mp (mem_workflow_keys.mpr hopens.mem_columns)
  obtain ⟨lane, hlane, hread⟩ := hmem column hcolumn
  simp only [bind_eq_ok, pure_eq_ok] at hread
  obtain ⟨page, _, rfl⟩ := hread
  let result : SnapshotResult :=
    { project := project
      workflow := listPublicWorkflowTx s.db p.projectID
      priorities := listPublicPrioritiesTx s.db p.projectID
      tags := listPublicTagsTx rt s.db p.projectID
      lanes := lanes.map fun lane => (lane.1, laneResult lane.1 (boundFingerprint query p) lane.2) }
  refine ⟨result, laneResult key (boundFingerprint query p) page, ?_, List.mem_map.mpr
    ⟨(column.key, page), hlane, by rw [hkey]⟩⟩
  simp only [readSnapshot, bind_eq_ok, reject_eq_ok, pure_eq_ok, mapError_eq_ok, hsame, Except.ok.injEq,
    getPublicBoardSnapshot, exists_eq_left']
  exact ⟨(), by simp, _, ⟨project, hproject, lanes, hlanes, rfl⟩, rfl⟩

end

/-! ## Steps of a visitor -/

/-- Where a visitor stands: before a snapshot, or before a page of the lane with a token,
where the first page has the empty one. -/
inductive PublicPosition
  | snapshot
  | lane (cursor : String)
  deriving DecidableEq, Repr

/-- One read, and where its token leads to. -/
def PublicStep (rt : Runtime) (s : PublicStore) (p : PreparedRead) (columnKey : String) (input : QueryInput) :
    PublicPosition → LaneResult → Option PublicPosition → Prop
  | .snapshot, page, next =>
      (∃ result, readSnapshot rt s p { input with afterCursor := "" } = .ok result ∧
        (publicLaneKey columnKey, page) ∈ result.lanes) ∧ next = page.nextCursor.map .lane
  | .lane cursor, page, next =>
      readLane rt s p columnKey { input with afterCursor := cursor } = .ok page ∧
        next = page.nextCursor.map .lane

/-- The reads from `start` are the pages of `rows`, and each has their number as its total. -/
structure ReadsLane (rt : Runtime) (s : PublicStore) (p : PreparedRead) (columnKey : String)
    (input : QueryInput) (start : PublicPosition) (rows : List TodoRow) : Prop where
  pages : ReadsAll (PublicStep rt s p columnKey input) LaneResult.items LaneResult.hasMore start
    (rows.map (publicItem rt s.db p.projectID))
  totals : ∀ pages next, Follows (PublicStep rt s p columnKey input) start pages next →
    ∀ page ∈ pages, page.totalCount = rows.length

/-- A todo whose token is not refused. -/
def HasToken (t : TodoRow) : Prop := 0 ≤ t.rank ∧ 1 ≤ t.localID

instance (t : TodoRow) : Decidable (HasToken t) := inferInstanceAs (Decidable (_ ∧ _))

def todoPayload (key fingerprint : String) (t : TodoRow) : CursorPayload :=
  { version := 1, columnKey := key, rank := t.rank, localID := t.localID, fingerprint }

section

variable {rt : Runtime} {s : PublicStore} {p : PreparedRead} {columnKey key : String}
  {input : QueryInput} {query : NormalizedQuery} {pos : PublicPosition} {left : List TodoRow}
  {page : LaneResult} {next : Option PublicPosition}

/-- The rows that a position has yet to give. -/
inductive PublicLeft (rt : Runtime) (s : PublicStore) (p : PreparedRead) (key : String)
    (query : NormalizedQuery) : PublicPosition → List TodoRow → Prop
  | snapshot : PublicLeft rt s p key query .snapshot
      (publicLaneRows rt s.db p.projectID key query.storeQuery)
  | first : PublicLeft rt s p key query (.lane "") (publicLaneRows rt s.db p.projectID key query.storeQuery)
  | token {t : TodoRow} (h : t ∈ publicLaneRows rt s.db p.projectID key query.storeQuery) :
      PublicLeft rt s p key query (.lane (cursorToken (todoPayload key (boundFingerprint query p) t)))
        (rowsLeft rt s.db p.projectID key query.storeQuery (some ⟨t.rank, t.localID⟩))

theorem mem_todos_of_mem_publicLaneRows {t : TodoRow}
    (h : t ∈ publicLaneRows rt s.db p.projectID key query.storeQuery) : t ∈ s.db.todos := by
  rw [publicLaneRows, mem_orderBy, List.mem_filter] at h
  exact h.1

theorem PublicRows.issuedPayload (h : PublicRows s.db) (query : NormalizedQuery) (p : PreparedRead)
    (hkey : IsColumnKey key) {t : TodoRow} (ht : t ∈ s.db.todos) :
    IssuedPayload (todoPayload key (boundFingerprint query p) t) := by
  obtain ⟨hrank, hlocal⟩ := h.numbers t ht
  exact ⟨rfl, hkey, hrank, hlocal, isFingerprint_shortSum _⟩

/-- What a read from a position answers. -/
theorem PublicLeft.step_spec (h : PublicRows s.db) (hquery : normalizeQuery rt input = .ok query)
    (hleft : PublicLeft rt s p (publicLaneKey columnKey) query pos left)
    (hstep : PublicStep rt s p columnKey input pos page next) :
    Opens s p (publicLaneKey columnKey) query.storeQuery ∧
      page = lanePage rt s p (publicLaneKey columnKey) query left ∧ next = page.nextCursor.map .lane := by
  cases hleft with
  | snapshot =>
      obtain ⟨⟨result, hread, hpage⟩, hnext⟩ := hstep
      obtain ⟨hopens, hpage⟩ := readSnapshot_lane h.toPublicTable hquery hread hpage
      exact ⟨hopens, hpage, hnext⟩
  | first =>
      obtain ⟨hread, hnext⟩ := hstep
      obtain ⟨_, hopens, after, hafter, hpage⟩ := (readLane_eq_ok h.toPublicTable hquery).mp hread
      rw [decodeCursor, if_pos rfl, pure_eq_ok] at hafter
      rw [← hafter, rowsLeft_none] at hpage
      exact ⟨hopens, hpage, hnext⟩
  | @token t ht =>
      obtain ⟨hread, hnext⟩ := hstep
      obtain ⟨hkey, hopens, after, hafter, hpage⟩ := (readLane_eq_ok h.toPublicTable hquery).mp hread
      have hissued := h.issuedPayload query p hkey (mem_todos_of_mem_publicLaneRows ht)
      obtain ⟨_, rfl⟩ := hissued.decodeCursor_eq_ok.mp hafter
      exact ⟨hopens, hpage, hnext⟩

/-- A token that was of use belongs to a todo that has one. -/
theorem PublicRows.hasToken_of_step (h : PublicRows s.db) (hquery : normalizeQuery rt input = .ok query)
    {t : TodoRow} (ht : t ∈ publicLaneRows rt s.db p.projectID (publicLaneKey columnKey) query.storeQuery)
    (hstep : PublicStep rt s p columnKey input
      (.lane (cursorToken (todoPayload (publicLaneKey columnKey) (boundFingerprint query p) t))) page next) :
    HasToken t := by
  obtain ⟨hkey, _, after, hafter, _⟩ := (readLane_eq_ok h.toPublicTable hquery).mp hstep.1
  have hissued := h.issuedPayload query p hkey (mem_todos_of_mem_publicLaneRows ht)
  obtain ⟨⟨_, _, hrank, hlocal⟩, _⟩ := hissued.decodeCursor_eq_ok.mp hafter
  exact ⟨hrank, hlocal⟩

theorem Opens.isColumnKey (h : PublicRows s.db) (hopens : Opens s p key query.storeQuery) :
    IsColumnKey key := by
  obtain ⟨c, hc, _, hckey⟩ := hopens.mem_columns
  exact hckey ▸ h.lanes c hc

/-- A first read answers, if the lane can be read. -/
theorem Opens.exists_start (h : PublicRows s.db) (hquery : normalizeQuery rt input = .ok query)
    (hopens : Opens s p (publicLaneKey columnKey) query.storeQuery) (hpos : pos = .snapshot ∨ pos = .lane "") :
    ∃ page next, PublicStep rt s p columnKey input pos page next := by
  rcases hpos with rfl | rfl
  · obtain ⟨result, page, hread, hpage⟩ := exists_readSnapshot h.toPublicTable hquery hopens
    exact ⟨page, _, ⟨result, hread, hpage⟩, rfl⟩
  · have hafter : decodeCursor "" (publicLaneKey columnKey) (boundFingerprint query p) = .ok none := rfl
    have hread := (readLane_eq_ok h.toPublicTable hquery).mpr
      ⟨hopens.isColumnKey h, hopens, none, hafter, rfl⟩
    exact ⟨_, _, hread, rfl⟩

/-- A read with a token answers, if the todo has one. -/
theorem Opens.exists_token (h : PublicRows s.db) (hquery : normalizeQuery rt input = .ok query)
    (hopens : Opens s p (publicLaneKey columnKey) query.storeQuery) {t : TodoRow}
    (ht : t ∈ publicLaneRows rt s.db p.projectID (publicLaneKey columnKey) query.storeQuery)
    (htoken : HasToken t) :
    ∃ page next, PublicStep rt s p columnKey input
      (.lane (cursorToken (todoPayload (publicLaneKey columnKey) (boundFingerprint query p) t))) page next := by
  have hkey := hopens.isColumnKey h
  have hafter := (h.issuedPayload query p hkey (mem_todos_of_mem_publicLaneRows ht)).decodeCursor_eq_ok.mpr
    ⟨⟨rfl, rfl, htoken.1, htoken.2⟩, rfl⟩
  have hread := (readLane_eq_ok h.toPublicTable hquery).mpr ⟨hkey, hopens, _, hafter, rfl⟩
  exact ⟨_, _, hread, rfl⟩

/-! ## Rows that are left -/

theorem PublicTable.rowsLeft_of_getElem (h : PublicTable s.db) {i : ℕ} {t : TodoRow}
    (ht : (publicLaneRows rt s.db p.projectID key query.storeQuery)[i]? = some t) :
    rowsLeft rt s.db p.projectID key query.storeQuery (some ⟨t.rank, t.localID⟩) =
      (publicLaneRows rt s.db p.projectID key query.storeQuery).drop (i + 1) := by
  obtain ⟨hi, rfl⟩ := List.getElem?_eq_some_iff.mp ht
  have hsplit := (List.take_append_drop i (publicLaneRows rt s.db p.projectID key query.storeQuery)).symm
  rw [List.drop_eq_getElem_cons hi] at hsplit
  rw [rowsLeft_some]
  exact rowsAfter_of_split (h.nodup_publicOrderKey _) hsplit

theorem PublicLeft.exists_drop (h : PublicTable s.db) (hleft : PublicLeft rt s p key query pos left) :
    ∃ k, left = (publicLaneRows rt s.db p.projectID key query.storeQuery).drop k := by
  cases hleft with
  | snapshot => exact ⟨0, rfl⟩
  | first => exact ⟨0, rfl⟩
  | token ht =>
      obtain ⟨i, hi, rfl⟩ := List.getElem_of_mem ht
      exact ⟨i + 1, h.rowsLeft_of_getElem (List.getElem?_eq_getElem hi)⟩

/-- The position behind a page that is not the last one. -/
theorem PublicLeft.exists_next (h : PublicTable s.db) (hleft : PublicLeft rt s p key query pos left) {n : ℕ}
    (hn : 0 < n) (hlt : n < left.length) :
    ∃ t, left[n - 1]? = some t ∧ t ∈ publicLaneRows rt s.db p.projectID key query.storeQuery ∧
      PublicLeft rt s p key query
        (.lane (cursorToken (todoPayload key (boundFingerprint query p) t))) (left.drop n) := by
  obtain ⟨k, rfl⟩ := hleft.exists_drop h
  have hlast : n - 1 < ((publicLaneRows rt s.db p.projectID key query.storeQuery).drop k).length := by omega
  refine ⟨_, List.getElem?_eq_getElem hlast, List.mem_of_mem_drop (List.getElem_mem hlast), ?_⟩
  have hget := List.getElem?_eq_getElem hlast
  rw [List.getElem?_drop] at hget
  have hrows := h.rowsLeft_of_getElem hget
  have hcount : k + (n - 1) + 1 = k + n := by omega
  rw [hcount, ← List.drop_drop] at hrows
  rw [← hrows]
  exact .token (List.mem_of_mem_drop (List.getElem_mem hlast))

/-- The token of a page stands for its last row, if there is more. -/
theorem lanePage_nextCursor (left : List TodoRow) :
    (lanePage rt s p key query left).nextCursor =
      if query.storeQuery.limit.toNat < left.length then
        left[query.storeQuery.limit.toNat - 1]?.map fun t =>
          cursorToken (todoPayload key (boundFingerprint query p) t)
      else none := by
  unfold lanePage laneResult publicPage encodeCursor
  dsimp only
  split
  · rw [Option.map_map]
    rfl
  · rfl

theorem PublicLeft.done (h : PublicRows s.db) (hquery : normalizeQuery rt input = .ok query)
    (hleft : PublicLeft rt s p (publicLaneKey columnKey) query pos left)
    (hstep : PublicStep rt s p columnKey input pos page none) :
    left.length ≤ query.storeQuery.limit.toNat := by
  have hmin := (normalizeQuery_normalForm hquery).min
  obtain ⟨_, rfl, hnext⟩ := hleft.step_spec h hquery hstep
  by_contra hlt
  rw [not_le] at hlt
  obtain ⟨t, ht, _⟩ := hleft.exists_next h.toPublicTable (by omega) hlt
  rw [lanePage_nextCursor, if_pos hlt, ht] at hnext
  cases hnext

/-- A read with a token leads on by the row at the end of its page. -/
theorem PublicLeft.leads (h : PublicRows s.db) (hquery : normalizeQuery rt input = .ok query)
    (hleft : PublicLeft rt s p (publicLaneKey columnKey) query pos left) {pos' : PublicPosition}
    (hstep : PublicStep rt s p columnKey input pos page (some pos')) :
    query.storeQuery.limit.toNat < left.length ∧
      ∃ t ∈ publicLaneRows rt s.db p.projectID (publicLaneKey columnKey) query.storeQuery,
        left[query.storeQuery.limit.toNat - 1]? = some t ∧
        pos' = .lane (cursorToken (todoPayload (publicLaneKey columnKey) (boundFingerprint query p) t)) ∧
        PublicLeft rt s p (publicLaneKey columnKey) query pos' (left.drop query.storeQuery.limit.toNat) := by
  have hmin := (normalizeQuery_normalForm hquery).min
  obtain ⟨_, rfl, hnext⟩ := hleft.step_spec h hquery hstep
  rw [lanePage_nextCursor] at hnext
  split at hnext
  · rename_i hlt
    obtain ⟨t, ht, hmem, hleft'⟩ := hleft.exists_next h.toPublicTable (by omega) hlt
    rw [ht] at hnext
    cases hnext
    exact ⟨hlt, t, hmem, ht, rfl, hleft'⟩
  · cases hnext

/-- Every page has the number of rows as its total. -/
theorem PublicLeft.totalCount (h : PublicRows s.db) (hquery : normalizeQuery rt input = .ok query)
    {pages : List LaneResult} (hpages : Follows (PublicStep rt s p columnKey input) pos pages next)
    (hleft : PublicLeft rt s p (publicLaneKey columnKey) query pos left) :
    ∀ page ∈ pages, page.totalCount =
      (publicLaneRows rt s.db p.projectID (publicLaneKey columnKey) query.storeQuery).length := by
  induction hpages generalizing left with
  | last hstep =>
      obtain ⟨_, hpage, _⟩ := hleft.step_spec h hquery hstep
      intro page hmem
      rw [List.mem_singleton.mp hmem, hpage]
      rfl
  | more hstep hrest ih =>
      obtain ⟨_, hpage, _⟩ := hleft.step_spec h hquery hstep
      obtain ⟨_, t, _, _, _, hleft'⟩ := hleft.leads h hquery hstep
      intro page hmem
      rcases List.mem_cons.mp hmem with rfl | hmem
      · rw [hpage]
        rfl
      · exact ih hleft' page hmem

/-- Who reads the lane to its end has used tokens of todos that have one. -/
theorem PublicLeft.pageEnds (h : PublicRows s.db) (hquery : normalizeQuery rt input = .ok query)
    {pages : List LaneResult} (hpages : Follows (PublicStep rt s p columnKey input) pos pages none)
    (hleft : PublicLeft rt s p (publicLaneKey columnKey) query pos left) :
    PageEnds query.storeQuery.limit.toNat HasToken left := by
  have hmin := (normalizeQuery_normalForm hquery).min
  have hdone : ∀ pos left page, PublicLeft rt s p (publicLaneKey columnKey) query pos left →
      PublicStep rt s p columnKey input pos page none → left.length ≤ query.storeQuery.limit.toNat := by
    intro pos left page hleft hstep
    exact hleft.done h hquery hstep
  refine hpages.pageEnds (by omega) hdone ?_ ?_ rfl hleft
  · intro pos left page pos' hleft hstep
    obtain ⟨_, _, _, _, _, hleft'⟩ := hleft.leads h hquery hstep
    exact hleft'
  · intro pos left page pos' page' next hleft hstep hstep' t ht
    obtain ⟨_, t', hmem, ht', rfl, _⟩ := hleft.leads h hquery hstep
    rw [ht', Option.some.injEq] at ht
    exact ht ▸ h.hasToken_of_step hquery hmem hstep'

/-- If all pages but the last one end with todos that have a token, the lane is read to its
end. -/
theorem PublicLeft.readsAll (h : PublicRows s.db) (hquery : normalizeQuery rt input = .ok query)
    (hopens : Opens s p (publicLaneKey columnKey) query.storeQuery)
    (hleft : PublicLeft rt s p (publicLaneKey columnKey) query pos left)
    (hstart : ∃ page next, PublicStep rt s p columnKey input pos page next)
    (hends : PageEnds query.storeQuery.limit.toNat HasToken left) :
    ReadsAll (PublicStep rt s p columnKey input) LaneResult.items LaneResult.hasMore pos
      (left.map (publicItem rt s.db p.projectID)) := by
  have hmin := (normalizeQuery_normalForm hquery).min
  have hpages : Pages (PublicStep rt s p columnKey input) LaneResult.items LaneResult.hasMore
      (fun pos items => ∃ left, items = left.map (publicItem rt s.db p.projectID) ∧
        PublicLeft rt s p (publicLaneKey columnKey) query pos left ∧
        PageEnds query.storeQuery.limit.toNat HasToken left ∧
        ∃ page next, PublicStep rt s p columnKey input pos page next)
      query.storeQuery.limit.toNat :=
    { pos := by omega
      answers := by
        rintro pos _ ⟨left, rfl, _, _, hanswers⟩
        exact hanswers
      items_eq := by
        rintro pos _ page next ⟨left, rfl, hleft, _, _⟩ hstep
        obtain ⟨_, rfl, _⟩ := hleft.step_spec h hquery hstep
        exact List.map_take
      more_eq := by
        rintro pos _ page next ⟨left, rfl, hleft, _, _⟩ hstep
        obtain ⟨_, rfl, _⟩ := hleft.step_spec h hquery hstep
        rw [List.length_map]
        rfl
      next := by
        rintro pos _ page pos' ⟨left, rfl, hleft, hends, _⟩ hstep
        obtain ⟨hlt, t, hmem, ht, hpos', hleft'⟩ := hleft.leads h hquery hstep
        rw [List.length_map, ← List.map_drop]
        refine ⟨hlt, _, rfl, hleft', hends.drop (by omega), ?_⟩
        rw [hpos']
        exact hopens.exists_token h hquery hmem (hends.first hlt ht)
      done := by
        rintro pos _ page ⟨left, rfl, hleft, _, _⟩ hstep
        rw [List.length_map]
        exact hleft.done h hquery hstep }
  exact hpages.readsAll ⟨left, rfl, hleft, hends, hstart⟩

end

/-! ## Tokens in another place -/

/-- The read of a project hands out the token for a lane. -/
inductive Issues (rt : Runtime) (s : PublicStore) (p : PreparedRead) (input : QueryInput) :
    String → String → Prop
  | lane {columnKey token : String} {page : LaneResult} (hread : readLane rt s p columnKey input = .ok page)
      (htoken : page.nextCursor = some token) : Issues rt s p input (publicLaneKey columnKey) token
  | snapshot {key token : String} {page : LaneResult} {result : SnapshotResult}
      (hread : readSnapshot rt s p input = .ok result) (hpage : (key, page) ∈ result.lanes)
      (htoken : page.nextCursor = some token) : Issues rt s p input key token

/-- Two queries with the same filters; their limits may differ. -/
def SameFilter (q q' : PublicBoardQuery) : Prop :=
  q.search = q'.search ∧ q.tags = q'.tags ∧ q.sprintNumber = q'.sprintNumber ∧ q.priorityKey = q'.priorityKey

/-- Two texts that the first twelve bytes of the hash do not tell apart. -/
def Collides (a b : String) : Prop := a ≠ b ∧ shortSum a = shortSum b

/-- The text behind a fingerprint that is bound to a project. -/
def boundText (query : NormalizedQuery) (p : PreparedRead) : String :=
  p.slug ++ "\x00" ++ query.fingerprint

section

variable {rt : Runtime} {s : PublicStore} {p p' : PreparedRead} {key : String}
  {input input' : QueryInput} {query query' : NormalizedQuery}

theorem eq_or_collides {a b : String} (h : encodeBytesToString (shortSum a) = encodeBytesToString (shortSum b)) :
    a = b ∨ Collides a b := by
  have hlt : ∀ a, ∀ n ∈ shortSum a, n < 256 := fun a n hn => mem_sum256_lt (List.mem_of_mem_take hn)
  have hsum := encodeBytesToString_inj (hlt a) (hlt b) h
  by_cases heq : a = b
  · exact .inl heq
  · exact .inr ⟨heq, hsum⟩

theorem NormalForm.sameFilter (h : NormalForm query) (h' : NormalForm query')
    (heq : filterText query.storeQuery = filterText query'.storeQuery) :
    SameFilter query.storeQuery query'.storeQuery := by
  obtain ⟨hsearch, htags, hsprint, hpriority⟩ := fingerprintInput_inj (String.ofList_injective heq)
  refine ⟨hsearch, htags, hsprint, ?_⟩
  have hne := h.priority
  have hne' := h'.priority
  cases hq : query.storeQuery.priorityKey with
  | none =>
      cases hq' : query'.storeQuery.priorityKey with
      | none => rfl
      | some k' =>
          rw [hq, hq'] at hpriority
          rw [hq'] at hne'
          exact absurd (congrArg some hpriority.symm) hne'
  | some k =>
      cases hq' : query'.storeQuery.priorityKey with
      | none =>
          rw [hq, hq'] at hpriority
          rw [hq] at hne
          exact absurd (congrArg some hpriority) hne
      | some k' =>
          rw [hq, hq'] at hpriority
          exact congrArg some hpriority

theorem mem_trimSpace {text : String} {c : Char} (hc : c ∈ text.toList) (hspace : isSpace c = false) :
    c ∈ (trimSpace text).toList := by
  have hmem : ∀ l : List Char, c ∈ l → c ∈ l.dropWhile isSpace := by
    intro l hl
    rw [← List.takeWhile_append_dropWhile (p := isSpace) (l := l), List.mem_append] at hl
    rcases hl with hl | hl
    · exact absurd (List.mem_takeWhile_imp hl) (by simp [hspace])
    · exact hl
  rw [trimSpace, toList_trimFunc, List.rdropWhile, List.mem_reverse]
  exact hmem _ (List.mem_reverse.mpr (hmem _ hc))

/-- The slug of a project that was read holds no zero character. -/
theorem Opens.zero_not_mem (h : Opens s p key query.storeQuery) : '\x00' ∉ p.slug.toList := by
  obtain ⟨project, hproject⟩ := h.project
  unfold loadEligiblePublicProjectTx at hproject
  split at hproject
  · rename_i row hrow
    simp only [bind_eq_ok, reject_eq_ok, not_or, Bool.not_eq_false] at hproject
    obtain ⟨_, ⟨hvalid, _⟩, _⟩ := hproject
    have hslug := (Option.filter_eq_some_iff.mp hrow).2
    rw [beq_iff_eq] at hslug
    intro hzero
    have htrim := mem_trimSpace hzero (by decide)
    simp only [isValidSlug, hslug, Bool.and_eq_true, List.all_eq_true] at hvalid
    exact absurd (hvalid.1.2 _ htrim) (by decide)
  · cases hproject

theorem boundText_inj (h : '\x00' ∉ p.slug.toList) (hquery : NormalForm query)
    (heq : boundText query p = boundText query' p') :
    p.slug = p'.slug ∧ query.fingerprint = query'.fingerprint := by
  have hlist := congrArg String.toList heq
  have hzero : ∀ (p : PreparedRead) (query : NormalizedQuery),
      (boundText query p).toList = p.slug.toList ++ '\x00' :: query.fingerprint.toList := by
    intro p query
    simp [boundText]
  have hplain : '\x00' ∉ query.fingerprint.toList := by
    rw [hquery.fingerprint]
    intro hmem
    exact absurd ((isFingerprint_shortSum _).plain.1 _ hmem) (by decide)
  rw [hzero, hzero, List.append_cons_inj_of_notMem h hplain] at hlist
  exact ⟨String.toList_injective hlist.1, String.toList_injective hlist.2.2⟩

/-- One visible project has the slug. -/
theorem PublicRows.eq_of_slug (h : PublicRows s.db) {key' : String} (hopens : Opens s p key query.storeQuery)
    (hopens' : Opens s p' key' query'.storeQuery) (hslug : p.slug = p'.slug) : p = p' := by
  have hrow : ∀ {p : PreparedRead} {key : String} {query : PublicBoardQuery}, Opens s p key query →
      ∃ row ∈ s.db.projects.filter fun p => p.importBatchID.isNone && p.slug != "",
        row.id = p.projectID ∧ row.slug = p.slug := by
    rintro p key query ⟨⟨project, hproject⟩, _⟩
    unfold loadEligiblePublicProjectTx at hproject
    split at hproject
    · rename_i row hrow
      simp only [bind_eq_ok, reject_eq_ok, not_or, Bool.not_eq_false] at hproject
      obtain ⟨_, ⟨hvalid, _⟩, _⟩ := hproject
      obtain ⟨hfind, hslug⟩ := Option.filter_eq_some_iff.mp hrow
      have hsel := List.find?_some hfind
      simp only [Bool.and_eq_true, beq_iff_eq] at hsel hslug
      refine ⟨row, List.mem_filter.mpr ⟨List.mem_of_find?_eq_some hfind, ?_⟩, hsel.1.1.1, hslug⟩
      rw [Bool.and_eq_true, bne_iff_ne]
      refine ⟨hsel.1.1.2, fun hempty => ?_⟩
      rw [hempty] at hvalid
      exact absurd hvalid (by decide +kernel)
    · cases hproject
  obtain ⟨row, hmem, hid, hs⟩ := hrow hopens
  obtain ⟨row', hmem', hid', hs'⟩ := hrow hopens'
  have heq := List.inj_on_of_nodup_map h.slugs hmem hmem' (hs.trans (hslug.trans hs'.symm))
  cases p
  cases p'
  simp_all

/-- A token was issued for a lane that can be read, and stands for one of its todos. -/
theorem Issues.exists_payload (h : PublicRows s.db) (hquery : normalizeQuery rt input = .ok query)
    {token : String} (hissues : Issues rt s p input key token) :
    Opens s p key query.storeQuery ∧ ∃ t ∈ s.db.todos,
      token = cursorToken (todoPayload key (boundFingerprint query p) t) := by
  have hpage : ∀ {key : String} {left : List TodoRow}, (∀ t ∈ left, t ∈ s.db.todos) →
      (lanePage rt s p key query left).nextCursor = some token →
      ∃ t ∈ s.db.todos, token = cursorToken (todoPayload key (boundFingerprint query p) t) := by
    intro key left hleft htoken
    rw [lanePage_nextCursor] at htoken
    split at htoken
    · obtain ⟨t, ht, rfl⟩ := Option.map_eq_some_iff.mp htoken
      exact ⟨t, hleft t (List.mem_of_getElem? ht), rfl⟩
    · cases htoken
  have hrows : ∀ key after, ∀ t ∈ rowsLeft rt s.db p.projectID key query.storeQuery after, t ∈ s.db.todos := by
    intro key after t ht
    rw [rowsLeft, mem_orderBy, List.mem_filter] at ht
    exact ht.1
  cases hissues with
  | @lane columnKey _ page hread htoken =>
      have hread : readLane rt s p columnKey { input with afterCursor := input.afterCursor } = .ok page :=
        hread
      obtain ⟨_, hopens, after, _, rfl⟩ := (readLane_eq_ok h.toPublicTable hquery).mp hread
      exact ⟨hopens, hpage (hrows _ _) htoken⟩
  | @snapshot _ _ page result hread hlane htoken =>
      have hempty : input = { input with afterCursor := "" } := by
        simp only [readSnapshot, bind_eq_ok, reject_eq_ok, not_not] at hread
        obtain ⟨_, hempty, _⟩ := hread
        rw [← hempty]
      rw [hempty] at hread
      obtain ⟨hopens, rfl⟩ := readSnapshot_lane h.toPublicTable hquery hread hlane
      exact ⟨hopens, hpage (fun _ => mem_todos_of_mem_publicLaneRows) htoken⟩

/-- A token that is accepted was issued for the same lane, project and filters, unless the
hash of two of the texts behind the fingerprints collides. -/
theorem PublicRows.token_bound (h : PublicRows s.db) (hquery : normalizeQuery rt input = .ok query)
    (hquery' : normalizeQuery rt input' = .ok query') {token columnKey : String} {page : LaneResult}
    (hissues : Issues rt s p input key token)
    (hread : readLane rt s p' columnKey { input' with afterCursor := token } = .ok page) :
    key = publicLaneKey columnKey ∧
      ((p = p' ∧ SameFilter query.storeQuery query'.storeQuery) ∨
        Collides (filterText query.storeQuery) (filterText query'.storeQuery) ∨
        Collides (boundText query p) (boundText query' p')) := by
  have hnormal := normalizeQuery_normalForm hquery
  have hnormal' := normalizeQuery_normalForm hquery'
  obtain ⟨hopens, t, ht, rfl⟩ := hissues.exists_payload h hquery
  obtain ⟨_, hopens', after, hafter, _⟩ := (readLane_eq_ok h.toPublicTable hquery').mp hread
  obtain ⟨⟨hkey, hfp, _, _⟩, _⟩ :=
    (h.issuedPayload query p (hopens.isColumnKey h) ht).decodeCursor_eq_ok.mp hafter
  refine ⟨hkey, ?_⟩
  have hbound : encodeBytesToString (shortSum (boundText query p)) =
    encodeBytesToString (shortSum (boundText query' p')) := hfp
  rcases eq_or_collides hbound with htext | hcollides
  · obtain ⟨hslug, hfp⟩ := boundText_inj hopens.zero_not_mem hnormal htext
    rw [hnormal.fingerprint, hnormal'.fingerprint] at hfp
    rcases eq_or_collides hfp with hfilter | hcollides
    · exact .inl ⟨h.eq_of_slug hopens hopens' hslug, hnormal.sameFilter hnormal' hfilter⟩
    · exact .inr (.inl hcollides)
  · exact .inr (.inr hcollides)

end

/-- Starting with a snapshot or with the first page of a lane, the tokens lead through the
todos of the lane that pass the filters, each once and in order, with the right total on
every page, exactly if the lane can be read and each page but the last one ends with a todo
whose rank is not negative and whose local id is positive. A token is of no use for another
lane, project or filter, unless the hash collides. -/
theorem public_pages_exact {s : PublicStore} (h : PublicRows s.db) (rt : Runtime) :
    (∀ p columnKey input query, normalizeQuery rt input = .ok query →
      (∀ t, t ∈ publicLaneRows rt s.db p.projectID (publicLaneKey columnKey) query.storeQuery ↔
        t ∈ s.db.todos ∧ MatchesPublicQuery rt s.db p.projectID (publicLaneKey columnKey) query.storeQuery t) ∧
      (publicLaneRows rt s.db p.projectID (publicLaneKey columnKey) query.storeQuery).Pairwise
        (fun a b => publicOrderKey a < publicOrderKey b) ∧
      ∀ start, start = .snapshot ∨ start = .lane "" →
        (ReadsLane rt s p columnKey input start
            (publicLaneRows rt s.db p.projectID (publicLaneKey columnKey) query.storeQuery) ↔
          Opens s p (publicLaneKey columnKey) query.storeQuery ∧
            PageEnds query.storeQuery.limit.toNat (fun t => 0 ≤ t.rank ∧ 1 ≤ t.localID)
              (publicLaneRows rt s.db p.projectID (publicLaneKey columnKey) query.storeQuery))) ∧
    ∀ p p' input input' query query' key columnKey token page,
      normalizeQuery rt input = .ok query → normalizeQuery rt input' = .ok query' →
      Issues rt s p input key token →
      readLane rt s p' columnKey { input' with afterCursor := token } = .ok page →
      key = publicLaneKey columnKey ∧
        ((p = p' ∧ SameFilter query.storeQuery query'.storeQuery) ∨
          Collides (filterText query.storeQuery) (filterText query'.storeQuery) ∨
          Collides (boundText query p) (boundText query' p')) := by
  refine ⟨?_, fun p p' input input' query query' key columnKey token page hquery hquery' hissues hread =>
    h.token_bound hquery hquery' hissues hread⟩
  intro p columnKey input query hquery
  have hnormal := normalizeQuery_normalForm hquery
  refine ⟨fun t => mem_publicLaneRows hnormal.tags hnormal.groups, h.pairwise_publicLaneRows, ?_⟩
  intro start hstart
  have hleft : PublicLeft rt s p (publicLaneKey columnKey) query start
      (publicLaneRows rt s.db p.projectID (publicLaneKey columnKey) query.storeQuery) := by
    rcases hstart with rfl | rfl
    · exact .snapshot
    · exact .first
  constructor
  · rintro ⟨hpages, _⟩
    obtain ⟨pages, hfollows⟩ := hpages.exists_pages
    refine ⟨?_, hleft.pageEnds h hquery hfollows⟩
    cases hfollows with
    | last hstep => exact (hleft.step_spec h hquery hstep).1
    | more hstep _ => exact (hleft.step_spec h hquery hstep).1
  · rintro ⟨hopens, hends⟩
    exact ⟨hleft.readsAll h hquery hopens (hopens.exists_start h hquery hstart) hends,
      fun _ _ hfollows => PublicLeft.totalCount h hquery hfollows hleft⟩

/-- A public board whose lane has two todos, the first of them with the rank given. -/
def twoTodoBoard (rank : ℤ) : PublicStore where
  db :=
    { projects := [{ defaultProjectRow 0 with id := 1, name := "Board", slug := "board" }]
      columns := [⟨1, 1, "backlog", "Backlog", "#9ca3af", 0, false, true⟩]
      todos :=
        [⟨1, 1, 1, "a", "", "backlog", rank, none, none, none, none, none, 0, 0, none, none, none, none⟩,
          ⟨2, 1, 2, "b", "", "backlog", 2000, none, none, none, none, none, 0, 0, none, none, none, none⟩] }
  publicViewEnabled := [1]

theorem publicRows_twoTodoBoard {rank : ℤ} (h : IsInt64 rank) : PublicRows (twoTodoBoard rank).db where
  todo_ids := (by decide : ([1, 2] : List ℤ).Nodup)
  local_ids := (by decide : ([(1, 1), (1, 2)] : List (ℤ × ℤ)).Nodup)
  todo_tags := List.nodup_nil
  tag_ids := List.nodup_nil
  sprint_ids := List.nodup_nil
  column_keys := List.nodup_singleton _
  priority_keys := List.nodup_nil
  slugs := List.nodup_singleton _
  lanes := by
    intro c hc
    rw [List.mem_singleton.mp hc, IsColumnKey]
    decide +kernel
  numbers := by
    intro t ht
    rcases List.mem_cons.mp ht with rfl | ht
    · exact ⟨h, (by decide : IsInt64 1)⟩
    · rw [List.mem_singleton.mp ht]
      exact ⟨(by decide : IsInt64 2000), (by decide : IsInt64 2)⟩

/-- A lane of two todos, one a page. -/
theorem public_pages_exact_two :
    ReadsLane plainRuntime (twoTodoBoard 1000) ⟨1, "board"⟩ "backlog" { limit := 1 } .snapshot
      (publicLaneRows plainRuntime (twoTodoBoard 1000).db 1 "backlog" { limit := 1 }) := by
  obtain ⟨query, hquery⟩ := exists_of_isOk (x := normalizeQuery plainRuntime { limit := 1 })
    (by decide +kernel)
  have hstore : (normalizeQuery plainRuntime { limit := 1 }).toOption.map (·.storeQuery) =
      some { limit := 1 } := by decide +kernel
  rw [hquery] at hstore
  have hstore : query.storeQuery = { limit := 1 } := Option.some.inj hstore
  have hkey : publicLaneKey "backlog" = "backlog" := by decide +kernel
  obtain ⟨_, _, hreads⟩ := (public_pages_exact (publicRows_twoTodoBoard (by decide : IsInt64 1000)) plainRuntime).1
    ⟨1, "board"⟩ "backlog" { limit := 1 } query hquery
  rw [hstore, hkey] at hreads
  refine (hreads .snapshot (.inl rfl)).mpr ⟨⟨exists_of_isOk (by decide +kernel), by decide +kernel⟩, ?_⟩
  intro j _ t ht
  have hall : ∀ t ∈ publicLaneRows plainRuntime (twoTodoBoard 1000).db 1 "backlog" { limit := 1 },
      0 ≤ t.rank ∧ 1 ≤ t.localID := by decide +kernel
  exact hall t (List.mem_of_getElem? ht)

/-- The token of the first page is refused where its todo has a negative rank. -/
theorem negative_rank_token_refused :
    PublicRows (twoTodoBoard (-5)).db ∧
      ∃ page token, readLane plainRuntime (twoTodoBoard (-5)) ⟨1, "board"⟩ "backlog" { limit := 1 } = .ok page ∧
        page.nextCursor = some token ∧
        readLane plainRuntime (twoTodoBoard (-5)) ⟨1, "board"⟩ "backlog"
            { limit := 1, afterCursor := token } =
          .error (.invalidQuery "cursor does not match this lane and filter") := by
  have h : PublicRows (twoTodoBoard (-5)).db := publicRows_twoTodoBoard (by decide)
  refine ⟨h, ?_⟩
  obtain ⟨query, hquery⟩ := exists_of_isOk (x := normalizeQuery plainRuntime { limit := 1 })
    (by decide +kernel)
  have hstore : (normalizeQuery plainRuntime { limit := 1 }).toOption.map (·.storeQuery) =
      some { limit := 1 } := by decide +kernel
  rw [hquery] at hstore
  have hstore : query.storeQuery = { limit := 1 } := Option.some.inj hstore
  have hlane : publicLaneKey "backlog" = "backlog" := by decide +kernel
  have hkey : IsColumnKey "backlog" := h.lanes _ (List.mem_singleton_self _)
  have hopens : Opens (twoTodoBoard (-5)) ⟨1, "board"⟩ (publicLaneKey "backlog") query.storeQuery := by
    rw [hstore, hlane]
    exact ⟨exists_of_isOk (by decide +kernel), by decide +kernel⟩
  have hread := (readLane_eq_ok h.toPublicTable hquery).mpr
    ⟨hlane.symm ▸ hkey, hopens, none, (rfl : decodeCursor "" _ _ = .ok none), rfl⟩
  -- the page ends with the todo of the negative rank
  obtain ⟨t, ht, hrank, hnext⟩ : ∃ t ∈ (twoTodoBoard (-5)).db.todos, t.rank = -5 ∧
      (lanePage plainRuntime (twoTodoBoard (-5)) ⟨1, "board"⟩ "backlog" query
        (rowsLeft plainRuntime (twoTodoBoard (-5)).db 1 "backlog" query.storeQuery none)).nextCursor =
      some (cursorToken (todoPayload "backlog" (boundFingerprint query ⟨1, "board"⟩) t)) := by
    have hrows : rowsLeft plainRuntime (twoTodoBoard (-5)).db 1 "backlog" { limit := 1 } none =
        (twoTodoBoard (-5)).db.todos := by decide +kernel
    rw [lanePage_nextCursor, hstore, hrows]
    exact ⟨_, List.mem_cons_self, rfl, rfl⟩
  rw [hlane] at hread
  refine ⟨_, _, hread, hnext, ?_⟩
  have hissued := h.issuedPayload query ⟨1, "board"⟩ hkey ht
  have hvalid : ¬ isValidColumnKey (publicLaneKey "backlog") = false := by
    rw [hlane, hkey.2]
    decide
  have hsame : ∀ cursor, normalizeQuery plainRuntime { limit := 1, afterCursor := cursor } = .ok query :=
    fun _ => hquery
  unfold readLane
  dsimp only
  rw [← publicLaneKey, reject_bind_of_not hvalid, hsame, ok_bind, hlane, hissued.decodeCursor_eq]
  simp [reject, todoPayload, hrank, bind, Except.bind]

end Scrumboy
