import Scrumboy.Store.BoardLanes
import Scrumboy.Store.Placement

/-!
# Two reads of a board

The query for all lanes and the queries for single lanes give the same board. The rows of
the former come ordered by column key, so the loop that cuts them into lanes meets each
lane once and writes out all of it.
-/

set_option linter.dupNamespace false

namespace Scrumboy

open Go Sql

/-! ## The entry of a lane -/

/-- The entries of the two maps at a key. -/
def BoardLanes.lane (lanes : BoardLanes) (key : String) : Option (List Todo) × Option LaneMeta :=
  (lanes.cols key, lanes.laneMeta key)

/-- The entry for the first page of a lane of `todos`. -/
def pageEntry (limitPerLane : ℤ) (sortOrder : SortOrder) (todos : List Todo) (total : ℤ) :
    Option (List Todo) × Option LaneMeta :=
  let items := todos.take limitPerLane.toNat
  (some items, some
    { hasMore := decide (limitPerLane.toNat < todos.length)
      nextCursor := if limitPerLane.toNat < todos.length then
        (items.getLast?.map (laneCursor · sortOrder)).getD "" else ""
      totalCount := total })

section

variable {lanes : BoardLanes} {key other : String} {limitPerLane : ℤ} {sortOrder : SortOrder}

@[simp] theorem BoardLanes.lane_set_self (items : List Todo) (info : LaneMeta) :
    (lanes.set key items info).lane key = (some items, some info) := by
  simp [BoardLanes.lane, BoardLanes.set]

theorem BoardLanes.lane_set_of_ne (items : List Todo) (info : LaneMeta) (h : other ≠ key) :
    (lanes.set key items info).lane other = lanes.lane other := by
  simp [BoardLanes.lane, BoardLanes.set, h]

theorem lane_flushLane_self (hlimit : 0 < limitPerLane) (page : List Todo) (laneTotal : ℤ) :
    (flushLane key page laneTotal limitPerLane sortOrder lanes).lane key =
      pageEntry limitPerLane sortOrder page laneTotal := by
  have hmore : limitPerLane < page.length ↔ limitPerLane.toNat < page.length := by omega
  simp only [flushLane, BoardLanes.lane_set_self, pageEntry, hmore, decide_eq_true_eq]
  by_cases h : limitPerLane.toNat < page.length
  · simp only [if_pos h]
  · simp only [if_neg h, List.take_of_length_le (not_lt.mp h)]

theorem lane_flushLane_of_ne (page : List Todo) (laneTotal : ℤ) (h : other ≠ key) :
    (flushLane key page laneTotal limitPerLane sortOrder lanes).lane other = lanes.lane other :=
  BoardLanes.lane_set_of_ne _ _ h

/-- A loop over the columns that sets the entry of each leaves the last value. -/
theorem lane_foldl_set (items : String → List Todo) (info : String → LaneMeta)
    {workflow : List WorkflowColumn} (lanes : BoardLanes) (h : key ∈ workflow.map (·.key)) :
    (workflow.foldl (fun lanes col => lanes.set col.key (items col.key) (info col.key)) lanes).lane
      key = (some (items key), some (info key)) := by
  induction workflow using List.reverseRecOn with
  | nil => cases h
  | append_singleton workflow col ih =>
      rw [List.foldl_append, List.foldl_cons, List.foldl_nil]
      by_cases hkey : key = col.key
      · rw [hkey, BoardLanes.lane_set_self]
      · rw [BoardLanes.lane_set_of_ne _ _ hkey]
        apply ih
        simpa [hkey] using h

theorem lane_emptyLanes {workflow : List WorkflowColumn} (h : key ∈ workflow.map (·.key)) :
    (emptyLanes workflow).lane key = (some [], some {}) :=
  lane_foldl_set (fun _ => []) (fun _ => {}) {} h

end

/-! ## The loop over the rows of all lanes -/

/-- The key of a row of the query for all lanes. -/
def TodoWithLaneTotal.key (tw : TodoWithLaneTotal) : String := tw.todo.row.columnKey

/-- The rows of one lane. -/
def rowsOf (l : List TodoWithLaneTotal) (key : String) : List TodoWithLaneTotal :=
  l.filter fun tw => tw.key == key

/-- The entry that the rows `l` make for a lane; a lane without rows keeps what it had. -/
def entryOf (initial : BoardLanes) (limitPerLane : ℤ) (sortOrder : SortOrder)
    (l : List TodoWithLaneTotal) (key : String) : Option (List Todo) × Option LaneMeta :=
  match (rowsOf l key).head? with
  | none => initial.lane key
  | some tw => pageEntry limitPerLane sortOrder ((rowsOf l key).map (·.todo)) tw.laneTotal

/-- The scan after the rows `l`: it is in the lane of the last row and has written out
the lanes before. -/
structure ScanInv (initial : BoardLanes) (limitPerLane : ℤ) (sortOrder : SortOrder)
    (l : List TodoWithLaneTotal) (s : LaneScan) : Prop where
  current : s.currentKey = "" ∨ ∃ tw ∈ l, tw.key = s.currentKey
  last : ∀ tw ∈ l, tw.key ≤ s.currentKey
  page : s.page = (rowsOf l s.currentKey).map (·.todo)
  total : s.currentKey ≠ "" → (rowsOf l s.currentKey).head?.map (·.laneTotal) = some s.laneTotal
  lanes : ∀ key, key ≠ "" → key ≠ s.currentKey →
    s.lanes.lane key = entryOf initial limitPerLane sortOrder l key

section

variable {initial : BoardLanes} {limitPerLane : ℤ} {sortOrder : SortOrder}
  {l : List TodoWithLaneTotal} {s : LaneScan}

/-- Writing out the current lane completes the entries of all lanes. -/
theorem ScanInv.lane_flush (hlimit : 0 < limitPerLane)
    (h : ScanInv initial limitPerLane sortOrder l s) {key : String} (hkey : key ≠ "") :
    (s.flush limitPerLane sortOrder).lane key = entryOf initial limitPerLane sortOrder l key := by
  unfold LaneScan.flush
  split
  · rename_i hcur
    exact h.lanes key hkey (hcur ▸ hkey)
  · rename_i hcur
    by_cases heq : key = s.currentKey
    · obtain ⟨tw, htw, htotal⟩ := Option.map_eq_some_iff.mp (h.total hcur)
      rw [heq, lane_flushLane_self hlimit, h.page, ← htotal, entryOf, htw]
    · rw [lane_flushLane_of_ne _ _ heq]
      exact h.lanes key hkey heq

theorem rowsOf_concat_of_ne {tw : TodoWithLaneTotal} {key : String} (h : tw.key ≠ key) :
    rowsOf (l ++ [tw]) key = rowsOf l key := by
  simp [rowsOf, h]

theorem rowsOf_concat_self (l : List TodoWithLaneTotal) (tw : TodoWithLaneTotal) :
    rowsOf (l ++ [tw]) tw.key = rowsOf l tw.key ++ [tw] := by
  simp [rowsOf]

theorem entryOf_concat_of_ne {tw : TodoWithLaneTotal} {key : String} (h : tw.key ≠ key) :
    entryOf initial limitPerLane sortOrder (l ++ [tw]) key =
      entryOf initial limitPerLane sortOrder l key := by
  unfold entryOf
  rw [rowsOf_concat_of_ne h]

/-- One more row, in the current lane or in a later one. -/
theorem ScanInv.step (hlimit : 0 < limitPerLane) (h : ScanInv initial limitPerLane sortOrder l s)
    {tw : TodoWithLaneTotal} (hsorted : ∀ x ∈ l, x.key ≤ tw.key) :
    ScanInv initial limitPerLane sortOrder (l ++ [tw]) (s.step limitPerLane sortOrder tw) := by
  unfold LaneScan.step
  split
  · rename_i hne
    -- A new lane: all rows so far are in lanes before it.
    have hle : s.currentKey ≤ tw.key := by
      rcases h.current with hcur | ⟨x, hx, hxk⟩
      · rw [hcur]
        exact not_lt.mp fun hlt => List.not_lt_nil _ (String.lt_iff_toList_lt.mp hlt)
      · exact hxk ▸ hsorted x hx
    have hlt : s.currentKey < tw.key := lt_of_le_of_ne hle (Ne.symm hne)
    have hbefore : rowsOf l tw.key = [] := by
      rw [rowsOf, List.filter_eq_nil_iff]
      intro x hx
      simpa using ((h.last x hx).trans_lt hlt).ne
    have hnew : rowsOf (l ++ [tw]) tw.key = [tw] := by
      rw [rowsOf_concat_self, hbefore, List.nil_append]
    exact
      { current := .inr ⟨tw, by simp, rfl⟩
        last := by
          intro x hx
          rcases List.mem_append.mp hx with hx | hx
          · exact hsorted x hx
          · exact (List.mem_singleton.mp hx ▸ le_rfl)
        page := by
          show [tw.todo] = (rowsOf (l ++ [tw]) tw.key).map (·.todo)
          rw [hnew]
          rfl
        total := by
          intro _
          show (rowsOf (l ++ [tw]) tw.key).head?.map (·.laneTotal) = some tw.laneTotal
          rw [hnew]
          rfl
        lanes := by
          intro key hkey hother
          rw [entryOf_concat_of_ne (Ne.symm hother)]
          exact h.lane_flush hlimit hkey }
  · rename_i heq
    have heq : tw.key = s.currentKey := not_not.mp heq
    exact
      { current := .inr ⟨tw, by simp, heq⟩
        last := by
          intro x hx
          rcases List.mem_append.mp hx with hx | hx
          · exact h.last x hx
          · exact List.mem_singleton.mp hx ▸ heq.le
        page := by
          show s.page ++ [tw.todo] = (rowsOf (l ++ [tw]) s.currentKey).map (·.todo)
          rw [← heq, rowsOf_concat_self, h.page, ← heq]
          simp
        total := by
          intro hcur
          show (rowsOf (l ++ [tw]) s.currentKey).head?.map (·.laneTotal) = some s.laneTotal
          have htotal := h.total hcur
          rw [← heq] at htotal ⊢
          rw [rowsOf_concat_self]
          cases hrows : rowsOf l tw.key with
          | nil => simp [hrows] at htotal
          | cons x xs => simpa [hrows] using htotal
        lanes := by
          intro key hkey hother
          have hne : tw.key ≠ key := heq ▸ Ne.symm hother
          rw [entryOf_concat_of_ne hne]
          exact h.lanes key hkey hother }

/-- The whole loop over rows ordered by column key. -/
theorem scanInv_foldl (hlimit : 0 < limitPerLane) (hsorted : l.Pairwise fun x y => x.key ≤ y.key) :
    ScanInv initial limitPerLane sortOrder l
      (l.foldl (LaneScan.step limitPerLane sortOrder) { lanes := initial }) := by
  induction l using List.reverseRecOn with
  | nil =>
      exact { current := .inl rfl, last := by simp, page := rfl, total := fun h => absurd rfl h,
              lanes := fun key _ _ => rfl }
  | append_singleton l tw ih =>
      rw [List.pairwise_append] at hsorted
      rw [List.foldl_append]
      exact (ih hsorted.1).step hlimit fun x hx => hsorted.2.2 x hx tw (by simp)

end

/-! ## The two reads -/

section

variable {rt : Runtime} {db : DB} {projectID : ℤ} {tagFilter : BoardTagFilter}
  {filter : BoardFilter} {sortOrder : SortOrder} {workflow : List WorkflowColumn} {key : String}
  {limitPerLane : ℤ}

theorem countTodosForBoardLaneResolved_eq (rt : Runtime) (sortOrder : SortOrder) :
    countTodosForBoardLaneResolved db projectID key tagFilter filter =
      (wholeLane rt db projectID key tagFilter filter sortOrder).length := by
  rw [wholeLane, List.length_map, length_orderBy]
  rfl

/-- The rows of the board without a further condition, those of one lane. -/
theorem filter_filteredTodos :
    (filteredTodos db projectID tagFilter filter fun _ => true).filter (fun t => t.columnKey == key) =
      laneTodos db projectID key tagFilter filter := by
  rw [laneTodos, ← filteredTodos_and]
  rfl

/-- The entry of a lane that is queried and counted on its own. -/
theorem lane_getBoardPagedPerLane (htable : BoardTable db) (hlimit : IsInt64 limitPerLane)
    (hpos : 0 < limitPerLane) (hkey : key ∈ workflow.map (·.key)) :
    (getBoardPagedPerLane rt db projectID workflow tagFilter filter sortOrder limitPerLane).lane key =
      pageEntry limitPerLane sortOrder (wholeLane rt db projectID key tagFilter filter sortOrder)
        (wholeLane rt db projectID key tagFilter filter sortOrder).length := by
  obtain ⟨hitems, hmore, hcursor⟩ := listTodosForBoardLaneResolved_spec rt db projectID key
    tagFilter filter sortOrder hlimit (laneCursorSentinel sortOrder)
  have hsize : pageSize limitPerLane = limitPerLane.toNat := if_neg (not_le.mpr hpos)
  rw [laneAfter_laneCursorSentinel htable, hsize] at hitems hmore hcursor
  rw [getBoardPagedPerLane]
  refine (lane_foldl_set (fun key => (listTodosForBoardLaneResolved rt db projectID key
    limitPerLane (laneCursorSentinel sortOrder).1 (laneCursorSentinel sortOrder).2 tagFilter filter
    sortOrder).items) (fun key =>
      let page := listTodosForBoardLaneResolved rt db projectID key limitPerLane
        (laneCursorSentinel sortOrder).1 (laneCursorSentinel sortOrder).2 tagFilter filter sortOrder
      { hasMore := page.hasMore
        nextCursor := page.nextCursor
        totalCount := countTodosForBoardLaneResolved db projectID key tagFilter filter }) {}
    hkey).trans ?_
  simp only [hitems, hmore, hcursor, countTodosForBoardLaneResolved_eq rt sortOrder, pageEntry]

theorem nodup_boardOrderKey (projectID : ℤ) (tagFilter : BoardTagFilter) (filter : BoardFilter)
    (sortOrder : SortOrder) (htable : BoardTable db) :
    ((filteredTodos db projectID tagFilter filter fun _ => true).map (boardOrderKey sortOrder)).Nodup := by
  apply List.Nodup.of_map fun k => (ofLex k).2
  rw [List.map_map]
  exact nodup_filteredTodos htable _

/-- The rows of a lane in the query for all lanes are the lane. -/
theorem map_rowsOf_listAllTodosForBoardWithCounts (htable : BoardTable db) :
    (rowsOf (listAllTodosForBoardWithCounts rt db projectID tagFilter filter sortOrder) key).map
        (·.todo) =
      wholeLane rt db projectID key tagFilter filter sortOrder := by
  rw [rowsOf, listAllTodosForBoardWithCounts, hydrateTodos_eq, List.map_map, List.filter_map,
    List.map_map, wholeLane, ← filter_filteredTodos]
  show ((orderBy (boardOrderKey sortOrder) _).filter fun t => t.columnKey == key).map
    (hydrateTodo rt db) = _
  congr 1
  -- Within one lane the order of the board is the order of the lane.
  refine eq_of_pairwise_lt (laneKey sortOrder) ?_ ?_ ?_
  · exact ((orderBy_perm _ _).filter _).trans (orderBy_perm _ _).symm
  · have hsorted := pairwise_lt_orderBy (nodup_boardOrderKey projectID tagFilter filter sortOrder
      htable)
    refine (hsorted.filter fun t => t.columnKey == key).imp_of_mem fun {t u} ht hu hlt => ?_
    have hkeys : t.columnKey = u.columnKey :=
      (beq_iff_eq.mp (List.mem_filter.mp ht).2).trans (beq_iff_eq.mp (List.mem_filter.mp hu).2).symm
    rcases Prod.Lex.toLex_lt_toLex.mp hlt with hfirst | ⟨_, hsecond⟩
    · exact absurd hkeys hfirst.ne
    · exact hsecond
  · apply pairwise_lt_orderBy
    rw [filter_filteredTodos]
    exact nodup_filteredTodos htable _

theorem laneTotal_eq_of_mem_rowsOf {tw : TodoWithLaneTotal}
    (h : tw ∈ rowsOf (listAllTodosForBoardWithCounts rt db projectID tagFilter filter sortOrder)
      key) :
    tw.laneTotal = (wholeLane rt db projectID key tagFilter filter sortOrder).length := by
  obtain ⟨htw, hkey⟩ := List.mem_filter.mp h
  obtain ⟨todo, _, rfl⟩ := List.mem_map.mp htw
  have hkey : todo.row.columnKey = key := beq_iff_eq.mp hkey
  rw [← countTodosForBoardLaneResolved_eq, countTodosForBoardLaneResolved]
  show (((filteredTodos db projectID tagFilter filter fun _ => true).filter
    fun t => t.columnKey == todo.row.columnKey).length : ℤ) = _
  rw [hkey, filter_filteredTodos]
  rfl

theorem pairwise_key_listAllTodosForBoardWithCounts :
    (listAllTodosForBoardWithCounts rt db projectID tagFilter filter sortOrder).Pairwise
      fun x y => x.key ≤ y.key := by
  rw [listAllTodosForBoardWithCounts, hydrateTodos_eq, List.map_map, List.pairwise_map]
  refine (pairwise_orderBy (boardOrderKey sortOrder) _).imp fun {t u} hle => ?_
  exact Prod.Lex.monotone_fst _ _ hle

/-- The entry of a lane that is cut out of the query for all lanes. -/
theorem lane_partitionLanes (htable : BoardTable db) (hpos : 0 < limitPerLane)
    (hkey : key ∈ workflow.map (·.key)) (hne : key ≠ "") :
    (partitionLanes workflow
        (listAllTodosForBoardWithCounts rt db projectID tagFilter filter sortOrder) limitPerLane
        sortOrder).lane key =
      pageEntry limitPerLane sortOrder (wholeLane rt db projectID key tagFilter filter sortOrder)
        (wholeLane rt db projectID key tagFilter filter sortOrder).length := by
  rw [partitionLanes, (scanInv_foldl hpos pairwise_key_listAllTodosForBoardWithCounts).lane_flush
    hpos hne, entryOf, map_rowsOf_listAllTodosForBoardWithCounts htable]
  split
  · rename_i hnone
    have hempty : wholeLane rt db projectID key tagFilter filter sortOrder = [] := by
      rw [← map_rowsOf_listAllTodosForBoardWithCounts htable, List.head?_eq_none_iff.mp hnone]
      rfl
    rw [lane_emptyLanes hkey, hempty]
    simp [pageEntry]
  · rename_i tw hsome
    rw [laneTotal_eq_of_mem_rowsOf (List.mem_of_head? hsome)]

/-- The keys of a workflow are not empty, so the loop takes no lane for the one it starts in. -/
theorem ne_empty_of_mem_workflow {db₁ : DB} (hcolumns : ColumnTable db.columns)
    (hworkflow : getProjectWorkflow db projectID = .ok (db₁, workflow)) {col : WorkflowColumn}
    (hcol : col ∈ workflow) : col.key ≠ "" := by
  obtain ⟨_, htable, _, rfl⟩ := workflowForUpdate_spec hworkflow
  rw [loadWorkflow, mem_orderBy, DB.columnsOf] at hcol
  exact ((htable hcolumns).keys col (List.mem_of_mem_filter hcol)).ne_empty

theorem BoardTable.of_workflow {db₁ : DB} (htable : BoardTable db)
    (hworkflow : getProjectWorkflow db projectID = .ok (db₁, workflow)) : BoardTable db₁ := by
  obtain ⟨columns, hcolumns⟩ := (workflowForUpdate_spec hworkflow).1.exists_eq
  exact htable.congr (by rw [hcolumns])

/-- For every filter, order and page size, the query for all lanes gives each lane of the
workflow the todos, the flag, the cursor and the count that the queries for single lanes
give it, and so the board is the same whichever of the two its size selects. -/
theorem getBoardPaged_paths (rt : Runtime) (ctx : Ctx) (db db₁ : DB) (pc : ProjectContext)
    (tagFilters : List String) (filter : BoardFilter) (sortOrder : SortOrder) (limitPerLane : ℤ)
    (workflow : List WorkflowColumn) (htable : BoardTable db) (hcolumns : ColumnTable db.columns)
    (hlimit : IsInt64 limitPerLane) (hpos : 0 < limitPerLane)
    (hworkflow : getProjectWorkflow db pc.project.id = .ok (db₁, workflow)) :
    (∀ tagFilter, ∀ col ∈ workflow,
      (partitionLanes workflow (listAllTodosForBoardWithCounts rt db₁ pc.project.id tagFilter filter
          sortOrder) limitPerLane sortOrder).lane col.key =
        (getBoardPagedPerLane rt db₁ pc.project.id workflow tagFilter filter sortOrder
          limitPerLane).lane col.key) ∧
      ∃ db' board, getBoardPaged rt ctx db pc tagFilters filter sortOrder limitPerLane =
          .ok (db', board) ∧ board.workflow = workflow ∧
        ∀ col ∈ workflow, board.lanes.lane col.key =
          (getBoardPagedPerLane rt db₁ pc.project.id workflow (resolveBoardTagFilter rt db₁
            pc.project.id pc.project.expiresAt.isNone tagFilters) filter sortOrder
            limitPerLane).lane col.key := by
  have hpaths : ∀ tagFilter, ∀ col ∈ workflow,
      (partitionLanes workflow (listAllTodosForBoardWithCounts rt db₁ pc.project.id tagFilter filter
          sortOrder) limitPerLane sortOrder).lane col.key =
        (getBoardPagedPerLane rt db₁ pc.project.id workflow tagFilter filter sortOrder
          limitPerLane).lane col.key := by
    intro tagFilter col hcol
    have htable₁ := htable.of_workflow hworkflow
    have hkey : col.key ∈ workflow.map (·.key) := List.mem_map_of_mem hcol
    rw [lane_partitionLanes htable₁ hpos hkey (ne_empty_of_mem_workflow hcolumns hworkflow hcol),
      lane_getBoardPagedPerLane htable₁ hlimit hpos hkey]
  refine ⟨hpaths, ?_⟩
  rw [getBoardPaged, if_neg (not_le.mpr hpos), hworkflow]
  refine ⟨_, _, rfl, rfl, fun col hcol => ?_⟩
  dsimp only
  split
  · rfl
  · exact hpaths _ col hcol

end

theorem boardTable_crowdedBoard : BoardTable crowdedBoard where
  ids := by decide
  id_pos := by decide
  id := by decide
  rank := by decide
  createdAt := by decide
  dueAt := by decide
  last := by decide

/-- A board with a lane of two todos, read one todo a lane. -/
theorem getBoardPaged_paths_crowded :
    ∃ db' board, getBoardPaged plainRuntime ⟨none, 0⟩ crowdedBoard
        ⟨{ defaultProjectRow 0 with id := 1 }, none⟩ [] {} .newest 1 = .ok (db', board) ∧
      ∀ col ∈ board.workflow, board.lanes.lane col.key =
        (getBoardPagedPerLane plainRuntime crowdedBoard 1 board.workflow { noFilter := true } {}
          .newest 1).lane col.key := by
  have hcolumns : ColumnTable crowdedBoard.columns :=
    ⟨by decide, by simp only [IsColumnKey]; decide +kernel⟩
  obtain ⟨db', board, hboard, hworkflow, hlanes⟩ := (getBoardPaged_paths plainRuntime ⟨none, 0⟩
    crowdedBoard crowdedBoard ⟨{ defaultProjectRow 0 with id := 1 }, none⟩ [] {} .newest 1
    crowdedBoard.columns boardTable_crowdedBoard hcolumns (by decide) (by decide)
    (by decide +kernel)).2
  refine ⟨db', board, hboard, ?_⟩
  rw [hworkflow]
  exact hlanes

end Scrumboy
