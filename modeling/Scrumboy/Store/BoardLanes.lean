import Scrumboy.Store.Board

/-!
# The lanes of a board

The order of a lane, the cursor texts and the comparison with a cursor all come from one
key: the rows of a page are the first rows whose keys are after the key that the cursor
stands for. From this follow the two results of this module's users: pages put together
are the lane, and the two ways to read a board agree.
-/

set_option linter.dupNamespace false

namespace Scrumboy

open Go Sql

/-- The table of todos as the schema declares it: the id is the primary key and counts from
one, and numbers have 64 bits. No row is at the far end of both time and ids, where the
start of the newest first order is. -/
structure BoardTable (db : DB) : Prop where
  ids : (db.todos.map (·.id)).Nodup
  id_pos : ∀ t ∈ db.todos, 0 < t.id
  id : ∀ t ∈ db.todos, IsInt64 t.id
  rank : ∀ t ∈ db.todos, IsInt64 t.rank
  createdAt : ∀ t ∈ db.todos, IsInt64 t.createdAt
  dueAt : ∀ t ∈ db.todos, ∀ ms ∈ t.dueAt, IsInt64 ms
  last : ∀ t ∈ db.todos, t.createdAt < maxInt64 ∨ t.id < maxInt64

theorem BoardTable.congr {db db' : DB} (h : BoardTable db) (htodos : db'.todos = db.todos) :
    BoardTable db' where
  ids := htodos ▸ h.ids
  id_pos := htodos ▸ h.id_pos
  id := htodos ▸ h.id
  rank := htodos ▸ h.rank
  createdAt := htodos ▸ h.createdAt
  dueAt := htodos ▸ h.dueAt
  last := htodos ▸ h.last

/-- The key of a todo in the order of a lane. -/
def laneKey (sortOrder : SortOrder) : TodoRow → ℤ ×ₗ ℤ := orderKey (laneOrderBy sortOrder)

/-- The key that a cursor stands for. -/
def cursorKey (sortOrder : SortOrder) (cursor : ℤ × ℤ) : ℤ ×ₗ ℤ :=
  if sortOrder = .newest then toLex (-cursor.1, -cursor.2) else toLex cursor

section

variable {db : DB} {t u : TodoRow} {sortOrder : SortOrder}

/-- The comparison with a cursor is the one of keys. -/
theorem laneCursorPredicate_eq (a b : ℤ) :
    laneCursorPredicate sortOrder a b t =
      decide (cursorKey sortOrder (a, b) < laneKey sortOrder t) := by
  cases sortOrder <;>
    simp [laneCursorPredicate, cursorKey, laneKey, orderKey, laneOrderBy, Term.key,
      Prod.Lex.toLex_lt_toLex, eq_comm]

theorem id_eq_of_laneKey (h : laneKey sortOrder t = laneKey sortOrder u) : t.id = u.id := by
  cases sortOrder <;>
    simpa [laneKey, orderKey, laneOrderBy, Term.key] using congrArg (fun k => (ofLex k).2) h

/-- The keys tell the rows of a table apart, as ids do. -/
theorem nodup_laneKey {rows : List TodoRow} (h : (rows.map (·.id)).Nodup) :
    (rows.map (laneKey sortOrder)).Nodup := by
  rw [List.Nodup, List.pairwise_map] at h ⊢
  exact h.imp fun hne heq => hne (id_eq_of_laneKey heq)

/-- Every row is after the start. -/
theorem cursorKey_laneCursorSentinel_lt (htable : BoardTable db) (ht : t ∈ db.todos) :
    cursorKey sortOrder (laneCursorSentinel sortOrder) < laneKey sortOrder t := by
  have hpos := htable.id_pos t ht
  have hid := htable.id t ht
  have hrank := htable.rank t ht
  have hcreated := htable.createdAt t ht
  have hlast := htable.last t ht
  have hdue : IsInt64 (t.dueAt.getD maxInt64) := by
    cases hdue : t.dueAt with
    | none => decide
    | some ms => exact htable.dueAt t ht ms hdue
  unfold IsInt64 at hid hrank hcreated hdue
  cases sortOrder <;>
    simp only [cursorKey, laneCursorSentinel, laneKey, orderKey, laneOrderBy, Term.key,
      Prod.Lex.toLex_lt_toLex, reduceCtorEq, if_true, if_false, Bool.false_eq_true] <;>
    omega

theorem parseLaneCursor_formatInt {a b : ℤ} (ha : IsInt64 a) (hb : IsInt64 b) :
    parseLaneCursor (formatInt a ++ ":" ++ formatInt b) = (a, b) := by
  have hcolon : ':' ∉ (formatInt a).toList := by
    intro hmem
    rcases isDigit_of_mem_formatInt hmem with h | h <;> revert h <;> decide
  have hne : formatInt a ++ ":" ++ formatInt b ≠ "" := by
    intro heq
    simpa using congrArg (fun s => ':' ∈ s.toList) heq
  rw [parseLaneCursor, if_neg hne]
  rw [show splitTwo ':' (formatInt a ++ ":" ++ formatInt b) = [formatInt a, formatInt b] from
    splitTwo_of_not_mem hcolon]
  simp [parseInt_formatInt ha, parseInt_formatInt hb]

/-- The text of a cursor gives back the key of the todo that it was made from. -/
theorem cursorKey_parseLaneCursor (sortOrder : SortOrder) (htable : BoardTable db) {todo : Todo} (ht : todo.row ∈ db.todos) :
    cursorKey sortOrder (parseLaneCursor (laneCursor todo sortOrder)) =
      laneKey sortOrder todo.row := by
  have hid := htable.id _ ht
  have hrank := htable.rank _ ht
  have hcreated := htable.createdAt _ ht
  cases sortOrder with
  | default =>
      rw [laneCursor, parseLaneCursor_formatInt hrank hid]
      rfl
  | newest =>
      rw [laneCursor, parseLaneCursor_formatInt hcreated hid]
      rfl
  | oldest =>
      rw [laneCursor, parseLaneCursor_formatInt hcreated hid]
      rfl
  | due =>
      cases hdue : todo.row.dueAt with
      | none =>
          simp only [laneCursor, hdue]
          rw [parseLaneCursor_formatInt (by decide) hid]
          simp [cursorKey, laneKey, orderKey, laneOrderBy, Term.key, hdue]
      | some ms =>
          simp only [laneCursor, hdue]
          rw [parseLaneCursor_formatInt (htable.dueAt _ ht ms hdue) hid]
          simp [cursorKey, laneKey, orderKey, laneOrderBy, Term.key, hdue]

end

/-! ## Pages of a lane -/

/-- The page size that a limit stands for. -/
def pageSize (limit : ℤ) : ℕ := if limit ≤ 0 then 20 else limit.toNat

theorem pageSize_pos (limit : ℤ) : 0 < pageSize limit := by
  unfold pageSize
  split <;> omega

/-- A todo with its tags and custom fields. -/
def hydrateTodo (rt : Runtime) (db : DB) (t : TodoRow) : Todo where
  row := t
  tags := listTagsForTodos rt db [t.id] t.id
  customFields := listCustomFieldsForTodos db [t.id] t.id

/-- The rows of a query are hydrated one by one. -/
theorem hydrateTodos_eq (rt : Runtime) (db : DB) (rows : List TodoRow) :
    hydrateTodos rt db rows = rows.map (hydrateTodo rt db) := by
  unfold hydrateTodos
  apply List.map_congr_left
  intro t ht
  have hmem : t.id ∈ rows.map (·.id) := List.mem_map_of_mem ht
  simp [hydrateTodo, listTagsForTodos, listCustomFieldsForTodos, hmem]

section

variable {rt : Runtime} {db : DB} {projectID : ℤ} {columnKey : String} {tagFilter : BoardTagFilter}
  {filter : BoardFilter} {sortOrder : SortOrder}

/-- The todos of a lane that pass the filters, in no particular order. -/
def laneTodos (db : DB) (projectID : ℤ) (columnKey : String) (tagFilter : BoardTagFilter)
    (filter : BoardFilter) : List TodoRow :=
  filteredTodos db projectID tagFilter filter fun t => t.columnKey == columnKey

/-- The whole lane in its order. -/
def wholeLane (rt : Runtime) (db : DB) (projectID : ℤ) (columnKey : String)
    (tagFilter : BoardTagFilter) (filter : BoardFilter) (sortOrder : SortOrder) : List Todo :=
  (orderBy (laneKey sortOrder) (laneTodos db projectID columnKey tagFilter filter)).map
    (hydrateTodo rt db)

/-- What is left of the lane after a cursor. -/
def laneAfter (rt : Runtime) (db : DB) (projectID : ℤ) (columnKey : String)
    (tagFilter : BoardTagFilter) (filter : BoardFilter) (sortOrder : SortOrder) (cursor : ℤ × ℤ) :
    List Todo :=
  (rowsAfter (laneKey sortOrder) (laneTodos db projectID columnKey tagFilter filter)
    (cursorKey sortOrder cursor)).map (hydrateTodo rt db)

theorem filteredTodos_and (cond cond' : TodoRow → Bool) :
    filteredTodos db projectID tagFilter filter (fun t => cond t && cond' t) =
      (filteredTodos db projectID tagFilter filter cond).filter cond' := by
  unfold filteredTodos
  split
  · rfl
  · rw [List.filter_filter]
    apply List.filter_congr
    intro t _
    rw [Bool.and_comm (cond' t), Bool.and_assoc (_ && _)]

theorem mem_of_mem_filteredTodos {cond : TodoRow → Bool} {t : TodoRow}
    (h : t ∈ filteredTodos db projectID tagFilter filter cond) : t ∈ db.todos := by
  unfold filteredTodos at h
  split at h
  · cases h
  · exact List.mem_of_mem_filter h

theorem nodup_filteredTodos (htable : BoardTable db) (cond : TodoRow → Bool) :
    ((filteredTodos db projectID tagFilter filter cond).map (laneKey sortOrder)).Nodup := by
  apply nodup_laneKey
  unfold filteredTodos
  split
  · exact List.nodup_nil
  · exact htable.ids.sublist (List.filter_sublist.map _)

/-- The lane is what is left of it at the start. -/
theorem laneAfter_laneCursorSentinel (htable : BoardTable db) :
    laneAfter rt db projectID columnKey tagFilter filter sortOrder (laneCursorSentinel sortOrder) =
      wholeLane rt db projectID columnKey tagFilter filter sortOrder := by
  unfold laneAfter wholeLane
  rw [rowsAfter_of_forall]
  intro t ht
  exact cursorKey_laneCursorSentinel_lt htable (mem_of_mem_filteredTodos ht)

/-- Of a list, a query with one more row than the page holds sees whether it has more. -/
theorem limit_succ {α : Type*} {n : ℤ} (hn : IsInt64 n) (hpos : 0 < n) (r : List α) :
    decide (n < (Sql.limit (wrap (n + 1)) r).length) = decide (n.toNat < r.length) ∧
      (Sql.limit (wrap (n + 1)) r).take n.toNat = r.take n.toNat ∧
      (r.length ≤ n.toNat → Sql.limit (wrap (n + 1)) r = r) := by
  by_cases hmax : n = maxInt64
  · -- One more than the largest integer is the smallest, which is no limit.
    have hwrap : wrap (n + 1) < 0 := by rw [hmax]; decide
    rw [Sql.limit, if_pos hwrap]
    exact ⟨decide_eq_decide.mpr (by omega), rfl, fun _ => rfl⟩
  · have hwrap : wrap (n + 1) = n + 1 := by
      apply wrap_eq_self
      unfold IsInt64 minInt64 maxInt64 at *
      omega
    have hnat : (n + 1).toNat = n.toNat + 1 := by omega
    rw [Sql.limit, if_neg (by omega), hwrap, hnat, List.length_take, List.take_take,
      min_eq_left (Nat.le_succ _)]
    refine ⟨decide_eq_decide.mpr (by omega), rfl, fun hle => ?_⟩
    exact List.take_of_length_le (by omega)

/-- The items of a page are the first of what is left, and it has more when there are
others. -/
theorem listTodosForBoardLaneResolved_spec (rt : Runtime) (db : DB) (projectID : ℤ)
    (columnKey : String) (tagFilter : BoardTagFilter) (filter : BoardFilter)
    (sortOrder : SortOrder) {limit : ℤ} (hlimit : IsInt64 limit) (cursor : ℤ × ℤ) :
    let page := listTodosForBoardLaneResolved rt db projectID columnKey limit cursor.1 cursor.2
      tagFilter filter sortOrder
    let left := laneAfter rt db projectID columnKey tagFilter filter sortOrder cursor
    page.items = left.take (pageSize limit) ∧
      page.hasMore = decide (pageSize limit < left.length) ∧
      page.nextCursor = if pageSize limit < left.length then
        ((left.take (pageSize limit)).getLast?.map (laneCursor · sortOrder)).getD "" else "" := by
  intro page left
  have hrows : orderBy (orderKey (laneOrderBy sortOrder)) (filteredTodos db projectID tagFilter filter
      fun t => t.columnKey == columnKey && laneCursorPredicate sortOrder cursor.1 cursor.2 t) =
      rowsAfter (laneKey sortOrder) (laneTodos db projectID columnKey tagFilter filter)
        (cursorKey sortOrder cursor) := by
    rw [filteredTodos_and, rowsAfter]
    congr 1
    apply List.filter_congr
    intro t _
    exact laneCursorPredicate_eq cursor.1 cursor.2
  have hsize : (if limit ≤ 0 then 20 else limit).toNat = pageSize limit := by
    unfold pageSize
    split <;> rfl
  obtain ⟨hmore, htake, hall⟩ := limit_succ (n := if limit ≤ 0 then 20 else limit)
    (by split; decide; exact hlimit) (by split <;> omega) (rowsAfter (laneKey sortOrder)
      (laneTodos db projectID columnKey tagFilter filter) (cursorKey sortOrder cursor))
  rw [hsize] at hmore htake hall
  have hleft : left = (rowsAfter (laneKey sortOrder)
      (laneTodos db projectID columnKey tagFilter filter) (cursorKey sortOrder cursor)).map
      (hydrateTodo rt db) := rfl
  have hlength := congrArg List.length hleft
  rw [List.length_map] at hlength
  have hitems : page.items = left.take (pageSize limit) := by
    simp only [page, listTodosForBoardLaneResolved, hrows, hydrateTodos_eq, hmore, hsize, htake]
    rw [hleft, ← List.map_take]
    congr 1
    by_cases hlt : pageSize limit < left.length
    · rw [if_pos (decide_eq_true (hlength ▸ hlt))]
    · rw [if_neg (by simpa [← hlength] using hlt), hall (by omega)]
      exact (List.take_of_length_le (by omega)).symm
  have hmore : page.hasMore = decide (pageSize limit < left.length) := by
    rw [hlength, ← hmore, ← hrows]
    rfl
  refine ⟨hitems, hmore, ?_⟩
  have hnext : page.nextCursor = if page.hasMore then
      (page.items.getLast?.map (laneCursor · sortOrder)).getD "" else "" := rfl
  rw [hnext, hmore, hitems]
  simp only [decide_eq_true_eq]

/-- The cursor text of the last todo of a page leaves what the page left. -/
theorem laneAfter_parseLaneCursor (htable : BoardTable db) {cursor : ℤ × ℤ} {n : ℕ} {last : Todo}
    (hlast : ((laneAfter rt db projectID columnKey tagFilter filter sortOrder cursor).take n).getLast?
      = some last) :
    laneAfter rt db projectID columnKey tagFilter filter sortOrder
        (parseLaneCursor (laneCursor last sortOrder)) =
      (laneAfter rt db projectID columnKey tagFilter filter sortOrder cursor).drop n := by
  unfold laneAfter at hlast ⊢
  rw [← List.map_take, List.getLast?_map, Option.map_eq_some_iff] at hlast
  obtain ⟨row, hrow, rfl⟩ := hlast
  have hmem : (hydrateTodo rt db row).row ∈ db.todos := by
    have hmem := List.mem_of_mem_take (List.mem_of_getLast? hrow)
    rw [rowsAfter, mem_orderBy] at hmem
    exact mem_of_mem_filteredTodos (List.mem_of_mem_filter hmem)
  rw [cursorKey_parseLaneCursor _ htable hmem, ← List.map_drop,
    show (hydrateTodo rt db row).row = row from rfl]
  exact congrArg _ (rowsAfter_getLast (nodup_filteredTodos htable _) hrow)

/-- A page of a lane and the cursor that it hands out, decoded. -/
def LaneStep (rt : Runtime) (db : DB) (projectID : ℤ) (columnKey : String) (limit : ℤ)
    (tagFilter : BoardTagFilter) (filter : BoardFilter) (sortOrder : SortOrder) (cursor : ℤ × ℤ)
    (page : LanePage) (next : Option (ℤ × ℤ)) : Prop :=
  page = listTodosForBoardLaneResolved rt db projectID columnKey limit cursor.1 cursor.2 tagFilter
      filter sortOrder ∧
    next = if page.hasMore then some (parseLaneCursor page.nextCursor) else none

theorem laneStep_pages (htable : BoardTable db) {limit : ℤ} (hlimit : IsInt64 limit) :
    Pages (LaneStep rt db projectID columnKey limit tagFilter filter sortOrder) LanePage.items
      LanePage.hasMore
      (fun cursor left => left = laneAfter rt db projectID columnKey tagFilter filter sortOrder cursor)
      (pageSize limit) where
  pos := pageSize_pos limit
  answers cursor left _ := ⟨_, _, rfl, rfl⟩
  items_eq cursor left page next hleft hstep := by
    rw [hstep.1, hleft]
    exact (listTodosForBoardLaneResolved_spec _ _ _ _ _ _ _ hlimit cursor).1
  more_eq cursor left page next hleft hstep := by
    rw [hstep.1, hleft]
    exact (listTodosForBoardLaneResolved_spec _ _ _ _ _ _ _ hlimit cursor).2.1
  next cursor left page next hleft hstep := by
    obtain ⟨hpage, hnext⟩ := hstep
    obtain ⟨_, hmore, hcursor⟩ := listTodosForBoardLaneResolved_spec rt db projectID
      columnKey tagFilter filter sortOrder hlimit cursor
    rw [← hpage, ← hleft] at hmore hcursor
    split at hnext
    · rename_i hhas
      have hlt : pageSize limit < left.length := of_decide_eq_true (hmore ▸ hhas)
      refine ⟨hlt, ?_⟩
      have hpos := pageSize_pos limit
      have hne : left.take (pageSize limit) ≠ [] := by
        rw [ne_eq, List.take_eq_nil_iff]
        rintro (h | rfl)
        · omega
        · simp at hlt
      obtain ⟨last, hlast⟩ := Option.ne_none_iff_exists'.mp (List.getLast?_eq_none_iff.not.mpr hne)
      rw [if_pos hlt, hlast, Option.map_some, Option.getD_some] at hcursor
      rw [Option.some.inj hnext, hcursor, hleft]
      exact (laneAfter_parseLaneCursor htable (hleft ▸ hlast)).symm
    · cases hnext
  done cursor left page hleft hstep := by
    obtain ⟨hpage, hnext⟩ := hstep
    have hmore := (listTodosForBoardLaneResolved_spec rt db projectID
      columnKey tagFilter filter sortOrder hlimit cursor).2.1
    rw [← hpage, ← hleft] at hmore
    split at hnext
    · cases hnext
    · rename_i hhas
      rw [hmore, decide_eq_true_eq] at hhas
      omega

/-- Following the cursors of a lane from the start reads the whole lane. -/
theorem laneStep_readsAll (htable : BoardTable db) {limit : ℤ} (hlimit : IsInt64 limit) :
    ReadsAll (LaneStep rt db projectID columnKey limit tagFilter filter sortOrder) LanePage.items
      LanePage.hasMore (laneCursorSentinel sortOrder)
      (wholeLane rt db projectID columnKey tagFilter filter sortOrder) :=
  (laneStep_pages htable hlimit).readsAll (laneAfter_laneCursorSentinel htable).symm

theorem nodup_wholeLane (htable : BoardTable db) :
    ((wholeLane rt db projectID columnKey tagFilter filter sortOrder).map (·.row.id)).Nodup := by
  unfold wholeLane
  rw [List.map_map]
  refine (((orderBy_perm _ _).map _).nodup_iff).mpr ?_
  show ((filteredTodos db projectID tagFilter filter _).map (·.id)).Nodup
  unfold filteredTodos
  split
  · exact List.nodup_nil
  · exact htable.ids.sublist (List.filter_sublist.map _)

end

end Scrumboy
