import Scrumboy.Store.Projects
import Scrumboy.Store.Todos

/-!
# Placing todos

What creating and moving a todo do to the order of a column. `Placed` collects
it: where the todo stands among its neighbours, that the other todos of the
column keep their order, and that no other row changes. The two operations reach
it through the rank they compute and the ranks that a renumbering writes.

Without neighbours a todo is appended. There the rank is the largest rank of the
column plus `rankStep`, modulo `2 ^ 64`, and the last part of this module says
exactly when the todo ends up last.
-/

set_option linter.dupNamespace false

namespace Scrumboy

open Go Sql

/-- The todo `row` was placed in a column between two optional neighbours. -/
structure Placed (db db' : DB) (projectID : ℤ) (columnKey : String) (row : TodoRow)
    (afterID beforeID : Option ℤ) : Prop where
  mem : row ∈ db'.lane projectID columnKey
  /-- The other todos of the column are the same, up to their ranks. -/
  others : ((db'.lane projectID columnKey).filter (·.id ≠ row.id)).map (fun t => { t with rank := 0 }) =
    ((db.lane projectID columnKey).filter (·.id ≠ row.id)).map (fun t => { t with rank := 0 })
  /-- They keep their order. -/
  order : ∀ a ∈ db.lane projectID columnKey, ∀ b ∈ db.lane projectID columnKey,
    ∀ a' ∈ db'.lane projectID columnKey, ∀ b' ∈ db'.lane projectID columnKey,
    a'.id = a.id → b'.id = b.id → a.id ≠ row.id → b.id ≠ row.id →
      (a'.slot < b'.slot ↔ a.slot < b.slot)
  after_lt : ∀ x, afterID = some x → ∃ a ∈ db'.lane projectID columnKey, a.id = x ∧ a.slot < row.slot
  lt_before : ∀ y, beforeID = some y →
    ∃ b ∈ db'.lane projectID columnKey, b.id = y ∧ row.slot < b.slot
  /-- Between neighbours with nothing in between, nothing else comes to lie there. -/
  between : ∀ a ∈ db.lane projectID columnKey, ∀ b ∈ db.lane projectID columnKey,
    afterID = some a.id → beforeID = some b.id →
    (∀ t ∈ db.lane projectID columnKey, t.id ≠ row.id → ¬ (a.slot < t.slot ∧ t.slot < b.slot)) →
    ∀ a' ∈ db'.lane projectID columnKey, ∀ b' ∈ db'.lane projectID columnKey,
      a'.id = a.id → b'.id = b.id →
      ∀ t ∈ db'.lane projectID columnKey, a'.slot < t.slot ∧ t.slot < b'.slot ↔ t = row
  /-- The rows outside the column are the same. -/
  rest : (db'.todos.filter fun t => t.id ≠ row.id && !t.inLane projectID columnKey) =
    db.todos.filter fun t => t.id ≠ row.id && !t.inLane projectID columnKey
  pos : ∀ t ∈ db'.lane projectID columnKey, 0 < t.rank

section

variable {db db' : DB} {projectID : ℤ} {columnKey : String}

/-- A table in which one row was written and every other row got the rank `r`. -/
structure Rewritten (db db' : DB) (r : TodoRow → ℤ) (row : TodoRow) : Prop where
  mem : row ∈ db'.todos
  unique : ∀ t ∈ db'.todos, t.id = row.id → t = row
  others : db'.todos.filter (·.id ≠ row.id) =
    (db.todos.filter (·.id ≠ row.id)).map fun t => { t with rank := r t }

theorem Rewritten.lane_others {r : TodoRow → ℤ} {row : TodoRow} (h : Rewritten db db' r row)
    (projectID : ℤ) (columnKey : String) :
    (db'.lane projectID columnKey).filter (·.id ≠ row.id) =
      ((db.lane projectID columnKey).filter (·.id ≠ row.id)).map
        fun t => { t with rank := r t } := by
  have hcomm : ∀ ts : List TodoRow, (ts.filter (TodoRow.inLane projectID columnKey)).filter
      (·.id ≠ row.id) = (ts.filter (·.id ≠ row.id)).filter (TodoRow.inLane projectID columnKey) := by
    intro ts
    rw [List.filter_filter, List.filter_filter]
    simp only [Bool.and_comm]
  rw [DB.lane, DB.lane, hcomm, hcomm, h.others, List.filter_map]
  rfl

/-- A row of the column is the written one, or a renumbered one. -/
theorem Rewritten.mem_lane {r : TodoRow → ℤ} {row : TodoRow} (h : Rewritten db db' r row)
    {t : TodoRow} (ht : t ∈ db'.lane projectID columnKey) :
    t = row ∨ ∃ u ∈ db.lane projectID columnKey, u.id ≠ row.id ∧ t = { u with rank := r u } := by
  by_cases hid : t.id = row.id
  · exact .inl (h.unique t (List.mem_filter.mp ht).1 hid)
  · have hmem : t ∈ (db'.lane projectID columnKey).filter (·.id ≠ row.id) :=
      List.mem_filter.mpr ⟨ht, by simpa using hid⟩
    rw [h.lane_others, List.mem_map] at hmem
    obtain ⟨u, hu, rfl⟩ := hmem
    have hu := List.mem_filter.mp hu
    exact .inr ⟨u, hu.1, by simpa using hu.2, rfl⟩

theorem Rewritten.renumbered_mem_lane {r : TodoRow → ℤ} {row : TodoRow}
    (h : Rewritten db db' r row) {u : TodoRow} (hu : u ∈ db.lane projectID columnKey)
    (hid : u.id ≠ row.id) : { u with rank := r u } ∈ db'.lane projectID columnKey := by
  have hmem : { u with rank := r u } ∈ (db'.lane projectID columnKey).filter (·.id ≠ row.id) := by
    rw [h.lane_others]
    exact List.mem_map.mpr ⟨u, List.mem_filter.mpr ⟨hu, by simpa using hid⟩, rfl⟩
  exact (List.mem_filter.mp hmem).1

/-- The renumbered row of an id. -/
theorem Rewritten.eq_of_id {r : TodoRow → ℤ} {row : TodoRow} (h : Rewritten db db' r row)
    (hids : (db.todos.map (·.id)).Nodup) {t u : TodoRow} (ht : t ∈ db'.lane projectID columnKey)
    (hu : u ∈ db.lane projectID columnKey) (htu : t.id = u.id) (hid : u.id ≠ row.id) :
    t = { u with rank := r u } := by
  rcases h.mem_lane ht with rfl | ⟨v, hv, _, rfl⟩
  · exact absurd htu.symm hid
  · rw [List.inj_on_of_nodup_map (nodup_lane_ids hids projectID columnKey) hv hu htu]

/-- A computed rank, written into a row of the column, places the row. -/
theorem Rewritten.placed {r : TodoRow → ℤ} {row : TodoRow} {afterID beforeID : Option ℤ}
    (h : Rewritten db db' r row) (hids : (db.todos.map (·.id)).Nodup)
    (hkeep : KeepsOrder db projectID columnKey r)
    (hfits : RankFits db projectID columnKey r afterID beforeID row.rank)
    (hlane : row.inLane projectID columnKey = true)
    (hafter : afterID ≠ some row.id) (hbefore : beforeID ≠ some row.id) :
    Placed db db' projectID columnKey row afterID beforeID where
  mem := List.mem_filter.mpr ⟨h.mem, hlane⟩
  others := by
    rw [h.lane_others, List.map_map]
    rfl
  order a ha b hb a' ha' b' hb' haa hbb hane hbne := by
    rw [h.eq_of_id hids ha' ha haa hane, h.eq_of_id hids hb' hb hbb hbne]
    exact hkeep.order a ha b hb
  after_lt x hx := by
    obtain ⟨a, ha, rfl, hlt⟩ := hfits.after_lt x hx
    have hane : a.id ≠ row.id := fun heq => hafter (heq ▸ hx)
    exact ⟨_, h.renumbered_mem_lane ha hane, rfl, TodoRow.slot_lt_of_rank_lt hlt⟩
  lt_before y hy := by
    obtain ⟨b, hb, rfl, hlt⟩ := hfits.lt_before y hy
    have hbne : b.id ≠ row.id := fun heq => hbefore (heq ▸ hy)
    exact ⟨_, h.renumbered_mem_lane hb hbne, rfl, TodoRow.slot_lt_of_rank_lt hlt⟩
  between a ha b hb hax hby hadj a' ha' b' hb' haa hbb t ht := by
    have hane : a.id ≠ row.id := fun heq => hafter (heq ▸ hax)
    have hbne : b.id ≠ row.id := fun heq => hbefore (heq ▸ hby)
    have hinj := List.inj_on_of_nodup_map (nodup_lane_ids hids projectID columnKey)
    rw [h.eq_of_id hids ha' ha haa hane, h.eq_of_id hids hb' hb hbb hbne]
    constructor
    · rintro ⟨hat, htb⟩
      rcases h.mem_lane ht with rfl | ⟨u, hu, hune, rfl⟩
      · rfl
      · exact absurd ⟨(hkeep.order a ha u hu).mp hat, (hkeep.order u hu b hb).mp htb⟩
          (hadj u hu hune)
    · rintro rfl
      obtain ⟨c, hc, hca, hlow⟩ := hfits.after_lt a.id hax
      obtain ⟨d, hd, hdb, hhigh⟩ := hfits.lt_before b.id hby
      rw [hinj hc ha hca] at hlow
      rw [hinj hd hb hdb] at hhigh
      exact ⟨TodoRow.slot_lt_of_rank_lt hlow, TodoRow.slot_lt_of_rank_lt hhigh⟩
  rest := by
    have hsplit : ∀ ts : List TodoRow, ts.filter (fun t => t.id ≠ row.id &&
        !t.inLane projectID columnKey) =
        (ts.filter (·.id ≠ row.id)).filter fun t => !t.inLane projectID columnKey := by
      intro ts
      rw [List.filter_filter]
      simp only [Bool.and_comm]
    rw [hsplit, hsplit, h.others, List.filter_map]
    refine (List.map_congr_left ?_).trans (List.map_id' _)
    intro t ht
    obtain ⟨ht, hout⟩ := List.mem_filter.mp ht
    have hout : (!t.inLane projectID columnKey) = true := hout
    rw [hkeep.other t (List.mem_filter.mp ht).1 (by simpa using hout)]
  pos t ht := by
    rcases h.mem_lane ht with rfl | ⟨u, hu, _, rfl⟩
    · exact hfits.pos
    · exact hkeep.pos u hu

/-- Creating a todo writes a row under a new id. -/
theorem rewritten_of_append {r : TodoRow → ℤ} {row : TodoRow}
    (hid : row.id = nextRowid (db.todos.map (·.id)))
    (htodos : db'.todos = (db.withRanks r).todos ++ [row]) : Rewritten db db' r row where
  mem := by simp [htodos]
  unique t ht htid := by
    rw [htodos, List.mem_append, List.mem_singleton] at ht
    rcases ht with ht | rfl
    · obtain ⟨u, hu, rfl⟩ := List.mem_map.mp ht
      have hused : row.id ∈ db.todos.map (·.id) := List.mem_map.mpr ⟨u, hu, htid⟩
      exact absurd (hid ▸ hused) (nextRowid_not_mem _)
    · rfl
  others := by
    rw [htodos, List.filter_append, DB.withRanks, List.filter_map]
    simp [Function.comp_def]

/-- Moving a todo writes the row of its id. -/
theorem rewritten_of_move (hids : (db.todos.map (·.id)).Nodup) {r : TodoRow → ℤ}
    {existing : TodoRow} (hmem : existing ∈ db.todos) {key : String} {rank nowMs : ℤ}
    {doneAt : Option ℤ}
    (htodos : db'.todos = updateWhere (·.id == existing.id) (.moved key rank nowMs doneAt)
      (db.withRanks r).todos) :
    Rewritten db db' r (existing.moved key rank nowMs doneAt) where
  mem := by
    rw [htodos, mem_updateWhere]
    exact ⟨{ existing with rank := r existing }, List.mem_map_of_mem hmem, by
      simp [TodoRow.moved]⟩
  unique t ht htid := by
    rw [htodos, mem_updateWhere] at ht
    obtain ⟨u, hu, rfl⟩ := ht
    obtain ⟨v, hv, rfl⟩ := List.mem_map.mp hu
    by_cases hid : v.id = existing.id
    · rw [List.inj_on_of_nodup_map hids hv hmem hid]
      simp [TodoRow.moved]
    · rw [if_neg (by simpa using hid)] at htid
      exact absurd htid hid
  others := by
    rw [htodos, DB.withRanks, updateWhere, List.map_map, List.filter_map]
    have hfilter : ∀ t : TodoRow, ((fun t : TodoRow => decide
        (t.id ≠ (existing.moved key rank nowMs doneAt).id)) ∘
        (fun t => if (t.id == existing.id) = true then t.moved key rank nowMs doneAt else t) ∘
          fun t => { t with rank := r t }) t = decide (t.id ≠ existing.id) := by
      intro t
      by_cases hid : t.id = existing.id <;> simp [TodoRow.moved, hid]
    rw [List.filter_congr (fun t _ => hfilter t)]
    apply List.map_congr_left
    intro t ht
    have hid : t.id ≠ existing.id := by simpa using (List.mem_filter.mp ht).2
    simp [hid]

theorem createTodo_placed (hids : (db.todos.map (·.id)).Nodup) {rt : Runtime} {ctx : Ctx}
    {input : CreateTodoInput} {todo : Todo} (hrange : RankRange (db.lane projectID input.lane))
    (h : createTodo rt ctx db projectID input = .ok (db', todo)) :
    Placed db db' projectID input.lane todo.row input.afterID input.beforeID := by
  obtain ⟨db₁, rank, hrank, hrow, htodos, _, _⟩ := createTodo_spec h
  obtain ⟨r, rfl, hkeep, hfits⟩ := computeNewRank_spec hids hrange hrank
  have hnew : ∀ t ∈ db.lane projectID input.lane, t.id ≠ todo.row.id := by
    intro t ht heq
    have hused : todo.row.id ∈ db.todos.map (·.id) :=
      List.mem_map.mpr ⟨t, (List.mem_filter.mp ht).1, heq⟩
    exact nextRowid_not_mem _ (hrow.id_eq ▸ hused)
  refine (rewritten_of_append hrow.id_eq htodos).placed hids hkeep (hrow.rank_eq ▸ hfits) ?_ ?_ ?_
  · simp [TodoRow.inLane, hrow.projectID_eq, hrow.columnKey_eq, hrow.active]
  · intro hafter
    obtain ⟨a, ha, haid, _⟩ := hfits.after_lt _ hafter
    exact hnew a ha haid
  · intro hbefore
    obtain ⟨b, hb, hbid, _⟩ := hfits.lt_before _ hbefore
    exact hnew b hb hbid

theorem moveTodo_placed (hids : (db.todos.map (·.id)).Nodup) {ctx : Ctx} {todoID : ℤ}
    {afterID beforeID : Option ℤ} {row : TodoRow}
    (hrange : RankRange (db.lane row.projectID columnKey))
    (h : moveTodo ctx db todoID columnKey afterID beforeID = .ok (db', row)) :
    Placed db db' row.projectID columnKey row afterID beforeID := by
  obtain ⟨existing, db₁, rank, doneAt, ⟨hmem, rfl, hactive⟩, _, ⟨hafter, hbefore⟩, hrank, rfl,
    htodos, _, _⟩ := moveTodo_spec h
  obtain ⟨r, rfl, hkeep, hfits⟩ := computeNewRank_spec hids hrange hrank
  refine (rewritten_of_move hids hmem htodos).placed hids hkeep hfits ?_ hafter hbefore
  simp [TodoRow.inLane, TodoRow.moved, hactive]

end

/-- Creating a todo in a column or moving one there, with whatever neighbours the
request names, puts it in its place and disturbs nothing else. -/
theorem rank_operations_place {db : DB} (hids : (db.todos.map (·.id)).Nodup) {projectID : ℤ}
    {columnKey : String} (hrange : RankRange (db.lane projectID columnKey)) :
    (∀ rt ctx input db' todo, input.lane = columnKey →
      createTodo rt ctx db projectID input = .ok (db', todo) →
        Placed db db' projectID columnKey todo.row input.afterID input.beforeID) ∧
    (∀ ctx todoID afterID beforeID db' row, row.projectID = projectID →
      moveTodo ctx db todoID columnKey afterID beforeID = .ok (db', row) →
        Placed db db' projectID columnKey row afterID beforeID) := by
  refine ⟨?_, ?_⟩
  · intro rt ctx input db' todo hlane h
    subst hlane
    exact createTodo_placed hids hrange h
  · intro ctx todoID afterID beforeID db' row hpid h
    subst hpid
    exact moveTodo_placed hids hrange h

/-- A board before the first user, with a column of two todos whose ranks leave no
room between them and a todo in another column. -/
def crowdedBoard : DB where
  projects := [{ defaultProjectRow 0 with id := 1, name := "Board", slug := "board" }]
  columns := [⟨1, 1, "backlog", "Backlog", "#9CA3AF", 0, false, true⟩,
    ⟨2, 1, "done", "Done", "#EF4444", 1, true, true⟩]
  todos := [(1, "backlog", 7), (2, "backlog", 8), (3, "done", 1000)].map fun (id, key, rank) =>
    { id := id, projectID := 1, localID := id, title := "t", body := "", columnKey := key
      rank := rank, estimationPoints := none, assigneeUserID := none, createdByUserID := none
      sprintID := none, priorityKey := none, createdAt := 0, updatedAt := 0, doneAt := none
      archivedAt := none, dueAt := none, dueRemindedAt := none }

def plainRuntime : Runtime :=
  { nfc := id, isHTTPURL := fun _ => false, isLocation := fun _ => false }

theorem rank_operations_place_crowded :
    (∃ db' todo, createTodo plainRuntime ⟨none, 5⟩ crowdedBoard 1
        { title := "new", afterID := some 1, beforeID := some 2 } = .ok (db', todo) ∧
      Placed crowdedBoard db' 1 "backlog" todo.row (some 1) (some 2)) ∧
    ∃ db' row, moveTodo ⟨none, 5⟩ crowdedBoard 3 "backlog" (some 1) (some 2) = .ok (db', row) ∧
      row.projectID = 1 ∧ Placed crowdedBoard db' 1 "backlog" row (some 1) (some 2) := by
  have hids : (crowdedBoard.todos.map (·.id)).Nodup := by decide
  have hrange : RankRange (crowdedBoard.lane 1 "backlog") := ⟨by decide, by decide, by decide⟩
  have hplace := rank_operations_place hids hrange
  refine ⟨?_, ?_⟩
  · obtain ⟨⟨db', todo⟩, hok⟩ := exists_of_isOk (x := createTodo plainRuntime ⟨none, 5⟩
      crowdedBoard 1 { title := "new", afterID := some 1, beforeID := some 2 }) (by decide +kernel)
    exact ⟨db', todo, hok, hplace.1 _ _ _ _ _ (by decide) hok⟩
  · obtain ⟨⟨db', row⟩, hok⟩ := exists_of_isOk (x := moveTodo ⟨none, 5⟩ crowdedBoard 3 "backlog"
      (some 1) (some 2)) (by decide +kernel)
    obtain ⟨existing, _, _, _, ⟨hmem, _, _⟩, _, _, _, hrow, _⟩ := moveTodo_spec hok
    have hall : ∀ t ∈ crowdedBoard.todos, t.projectID = 1 := by decide
    have hpid : row.projectID = 1 := by
      rw [hrow]
      exact hall existing hmem
    exact ⟨db', row, hok, hpid, hplace.2 _ _ _ _ _ _ hpid hok⟩

/-! ## Appending -/

/-- The todo of an id comes after every other todo of the column. -/
def IsLast (db : DB) (projectID : ℤ) (columnKey : String) (row : TodoRow) : Prop :=
  ∀ t ∈ db.lane projectID columnKey, t.id ≠ row.id → t.slot < row.slot

/-- The largest rank of a column leaves room for one more step. -/
def HasRoom (db : DB) (projectID : ℤ) (columnKey : String) : Prop :=
  maxRankInColumn db projectID columnKey ≤ maxInt64 - rankStep

/-- What a rank loses when the next step leaves the 64-bit range. -/
def rankWrap : ℤ := 18446744073709551616 - rankStep

theorem computeNewRank_append {db db₁ : DB} {projectID n : ℤ} {columnKey : String}
    {movingID : Option ℤ}
    (h : computeNewRank db projectID columnKey movingID none none = .ok (db₁, n)) :
    db₁ = db.withRanks TodoRow.rank ∧
      n = wrap (maxRankInColumn db projectID columnKey + rankStep) := by
  simp only [computeNewRank, bind_eq_ok, reject_eq_ok] at h
  obtain ⟨after, hafter, before, hbefore, _, _, _, _, _, _, h⟩ := h
  cases hafter
  cases hbefore
  cases h
  exact ⟨db.withRanks_rank.symm, rfl⟩

section

variable {db db' : DB} {projectID : ℤ} {columnKey : String} {row : TodoRow}

/-- With room for one more step, the appended rank is above every rank of the column. -/
theorem wrap_maxRank_of_hasRoom (hint : ∀ t ∈ db.lane projectID columnKey, IsInt64 t.rank)
    (hroom : HasRoom db projectID columnKey) :
    wrap (maxRankInColumn db projectID columnKey + rankStep) =
      maxRankInColumn db projectID columnKey + rankStep := by
  have hmin : minInt64 ≤ maxRankInColumn db projectID columnKey := by
    rcases maxRankInColumn_cases db projectID columnKey with ⟨_, h0⟩ | ⟨t, ht, hrank⟩
    · rw [h0]
      decide
    · exact hrank ▸ (hint t ht).1
  apply wrap_eq_self
  unfold HasRoom at hroom
  unfold IsInt64
  unfold rankStep at *
  omega

/-- Without room the appended rank is negative, at the other end of the range. -/
theorem wrap_maxRank_of_not_hasRoom (hint : ∀ t ∈ db.lane projectID columnKey, IsInt64 t.rank)
    (hroom : ¬ HasRoom db projectID columnKey) :
    wrap (maxRankInColumn db projectID columnKey + rankStep) =
      maxRankInColumn db projectID columnKey - rankWrap := by
  have hmax : maxRankInColumn db projectID columnKey ≤ maxInt64 := by
    rcases maxRankInColumn_cases db projectID columnKey with ⟨_, h0⟩ | ⟨t, ht, hrank⟩
    · rw [h0]
      decide
    · exact hrank ▸ (hint t ht).2
  unfold HasRoom at hroom
  rw [wrap_eq_sub (by omega) (by unfold rankStep; omega)]
  unfold rankWrap
  omega

/-- A row with the appended rank is last exactly when there was room, or when it
had no company above the wrapped rank. -/
theorem Rewritten.isLast_iff (h : Rewritten db db' TodoRow.rank row)
    (hint : ∀ t ∈ db.lane projectID columnKey, IsInt64 t.rank)
    (hrank : row.rank = wrap (maxRankInColumn db projectID columnKey + rankStep)) :
    IsLast db' projectID columnKey row ↔ HasRoom db projectID columnKey ∨
      ∀ t ∈ db.lane projectID columnKey, t.id ≠ row.id →
        t.slot < toLex (maxRankInColumn db projectID columnKey - rankWrap, row.id) := by
  have hothers : IsLast db' projectID columnKey row ↔
      ∀ t ∈ db.lane projectID columnKey, t.id ≠ row.id → t.slot < row.slot := by
    constructor
    · intro hlast t ht hne
      exact hlast _ (h.renumbered_mem_lane ht hne) hne
    · intro hlast t ht hne
      rcases h.mem_lane ht with rfl | ⟨u, hu, hune, rfl⟩
      · exact absurd rfl hne
      · exact hlast u hu hune
  rw [hothers]
  by_cases hroom : HasRoom db projectID columnKey
  · refine iff_of_true ?_ (.inl hroom)
    intro t ht _
    apply TodoRow.slot_lt_of_rank_lt
    have hle := le_maxRankInColumn ht
    rw [hrank, wrap_maxRank_of_hasRoom hint hroom]
    unfold rankStep
    omega
  · rw [TodoRow.slot, hrank, wrap_maxRank_of_not_hasRoom hint hroom]
    simp [hroom]

/-- A created todo has a column with company, so it is last only if there was room. -/
theorem createTodo_isLast_iff (hint : ∀ t ∈ db.lane projectID columnKey, IsInt64 t.rank)
    {rt : Runtime} {ctx : Ctx} {input : CreateTodoInput} {todo : Todo}
    (hafter : input.afterID = none) (hbefore : input.beforeID = none)
    (hlane : input.lane = columnKey)
    (h : createTodo rt ctx db projectID input = .ok (db', todo)) :
    IsLast db' projectID columnKey todo.row ↔ HasRoom db projectID columnKey := by
  subst hlane
  obtain ⟨db₁, rank, hrank, hrow, htodos, _, _⟩ := createTodo_spec h
  rw [hafter, hbefore] at hrank
  obtain ⟨rfl, rfl⟩ := computeNewRank_append hrank
  rw [(rewritten_of_append hrow.id_eq htodos).isLast_iff hint hrow.rank_eq]
  refine ⟨fun hlast => ?_, .inl⟩
  rcases hlast with hroom | hbelow
  · exact hroom
  · rcases maxRankInColumn_cases db projectID input.lane with ⟨_, h0⟩ | ⟨t, ht, hmax⟩
    · rw [HasRoom, h0]
      decide
    · have hne : t.id ≠ todo.row.id := by
        intro heq
        have hused : todo.row.id ∈ db.todos.map (·.id) :=
          List.mem_map.mpr ⟨t, (List.mem_filter.mp ht).1, heq⟩
        exact nextRowid_not_mem _ (hrow.id_eq ▸ hused)
      have hlt := Prod.Lex.toLex_lt_toLex.mp (hbelow t ht hne)
      rw [hmax] at hlt
      unfold rankWrap rankStep at hlt
      omega

/-- A moved todo may be the one with the largest rank itself, and then what counts
is the rest of the column. -/
theorem moveTodo_isLast_iff (hids : (db.todos.map (·.id)).Nodup)
    (hint : ∀ t ∈ db.lane row.projectID columnKey, IsInt64 t.rank) {ctx : Ctx} {todoID : ℤ}
    (h : moveTodo ctx db todoID columnKey none none = .ok (db', row)) :
    IsLast db' row.projectID columnKey row ↔ HasRoom db row.projectID columnKey ∨
      ∀ t ∈ db.lane row.projectID columnKey, t.id ≠ todoID →
        t.slot < toLex (maxRankInColumn db row.projectID columnKey - rankWrap, todoID) := by
  obtain ⟨existing, db₁, rank, doneAt, ⟨hmem, rfl, hactive⟩, _, _, hrank, rfl, htodos, _, _⟩ :=
    moveTodo_spec h
  obtain ⟨rfl, rfl⟩ := computeNewRank_append hrank
  exact (rewritten_of_move hids hmem htodos).isLast_iff hint rfl

end

end Scrumboy
