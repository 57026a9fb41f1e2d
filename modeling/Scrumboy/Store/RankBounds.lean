import Scrumboy.Store.Placement
import Scrumboy.Store.Requests

/-!
# The ranks that requests produce

Every request that places a todo exceeds the ranks before it by at most
`rankStep`, and a renumbering stays below the number of todos times `rankStep`.
So a run of fewer than `2 ^ 53` requests keeps every column inside the range in
which no rank computation wraps.
-/

namespace Scrumboy

open Go Sql

/-- The ranks and the number of the todos after `n` requests. -/
structure RanksWithin (n : ℕ) (db : DB) : Prop where
  ids : (db.todos.map (·.id)).Nodup
  rank : ∀ t ∈ db.todos, 0 < t.rank ∧ t.rank ≤ n * rankStep
  length : db.todos.length ≤ n

section

variable {n : ℕ} {db db' : DB}

theorem RanksWithin.rankRange (h : RanksWithin n db) (hn : (n + 1 : ℤ) * rankStep ≤ maxInt64)
    (projectID : ℤ) (columnKey : String) : RankRange (db.lane projectID columnKey) where
  pos t ht := (h.rank t (List.mem_filter.mp ht).1).1
  le t ht := by
    have hrank := (h.rank t (List.mem_filter.mp ht).1).2
    unfold rankStep at *
    omega
  length_le := by
    have hlen : (db.lane projectID columnKey).length ≤ n :=
      List.filter_sublist.length_le.trans h.length
    unfold rankStep at *
    omega

/-- A table whose rows come from rows with the same id and no larger rank. -/
theorem RanksWithin.mono (h : RanksWithin n db) (hids : (db'.todos.map (·.id)).Nodup)
    (hlen : db'.todos.length ≤ db.todos.length)
    (hrank : ∀ t ∈ db'.todos, ∃ u ∈ db.todos, t.rank = u.rank) : RanksWithin (n + 1) db' where
  ids := hids
  rank t ht := by
    obtain ⟨u, hu, heq⟩ := hrank t ht
    obtain ⟨hpos, hle⟩ := h.rank u hu
    unfold rankStep at *
    push_cast
    omega
  length := (hlen.trans h.length).trans (Nat.le_succ n)

/-- A renumbering stays within the bound, and the new rank exceeds it by a step. -/
theorem RanksWithin.computeNewRank (h : RanksWithin n db)
    (hn : (n + 1 : ℤ) * rankStep ≤ maxInt64) {projectID rank : ℤ} {columnKey : String}
    {movingID afterID beforeID : Option ℤ} {db₁ : DB}
    (hok : Scrumboy.computeNewRank db projectID columnKey movingID afterID beforeID =
      .ok (db₁, rank)) :
    ∃ r, db₁ = db.withRanks r ∧ (∀ t ∈ db.todos, 0 < r t ∧ r t ≤ n * rankStep) ∧
      0 < rank ∧ rank ≤ (n + 1 : ℤ) * rankStep := by
  obtain ⟨r, rfl, hkeep, hfits⟩ := computeNewRank_spec h.ids (h.rankRange hn projectID columnKey) hok
  have hr : ∀ t ∈ db.todos, 0 < r t ∧ r t ≤ n * rankStep := by
    intro t ht
    cases hlane : t.inLane projectID columnKey with
    | false =>
        rw [hkeep.other t ht hlane]
        exact h.rank t ht
    | true =>
        have hmem : t ∈ db.lane projectID columnKey := List.mem_filter.mpr ⟨ht, hlane⟩
        refine ⟨hkeep.pos t hmem, (hkeep.le t hmem).trans (max_le (h.rank t ht).2 ?_)⟩
        have hlen : (db.lane projectID columnKey).length ≤ n :=
          List.filter_sublist.length_le.trans h.length
        unfold rankStep
        omega
  refine ⟨r, rfl, hr, hfits.pos, ?_⟩
  have hle := hfits.le (n * rankStep) (by unfold rankStep; omega)
    fun t ht => (hr t (List.mem_filter.mp ht).1).2
  unfold rankStep at hle ⊢
  omega

theorem RanksWithin.createTodo (h : RanksWithin n db) (hn : (n + 1 : ℤ) * rankStep ≤ maxInt64)
    {rt : Runtime} {ctx : Ctx} {projectID : ℤ} {input : CreateTodoInput} {out : DB × Todo}
    (hok : Scrumboy.createTodo rt ctx db projectID input = .ok out) : RanksWithin (n + 1) out.1 := by
  obtain ⟨db₁, rank, hrank, hrow, htodos, _, _⟩ := createTodo_spec hok
  obtain ⟨r, rfl, hr, hpos, hle⟩ := h.computeNewRank hn hrank
  refine ⟨?_, fun t ht => ?_, ?_⟩
  · have hmap : out.1.todos.map (·.id) = db.todos.map (·.id) ++ [nextRowid (db.todos.map (·.id))] := by
      simp [htodos, DB.withRanks, Function.comp_def, hrow.id_eq]
    rw [hmap]
    exact nodup_concat_nextRowid h.ids
  · rw [htodos, List.mem_append, List.mem_singleton] at ht
    push_cast
    rcases ht with ht | rfl
    · obtain ⟨u, hu, rfl⟩ := List.mem_map.mp ht
      have := hr u hu
      unfold rankStep at *
      dsimp only
      omega
    · rw [hrow.rank_eq]
      exact ⟨hpos, hle⟩
  · have := h.length
    simp [htodos, DB.withRanks]
    omega

theorem RanksWithin.moveTodo (h : RanksWithin n db) (hn : (n + 1 : ℤ) * rankStep ≤ maxInt64)
    {ctx : Ctx} {todoID : ℤ} {toColumnKey : String} {afterID beforeID : Option ℤ}
    {out : DB × TodoRow}
    (hok : Scrumboy.moveTodo ctx db todoID toColumnKey afterID beforeID = .ok out) :
    RanksWithin (n + 1) out.1 := by
  obtain ⟨existing, db₁, rank, doneAt, _, _, _, hrank, _, htodos, _, _⟩ := moveTodo_spec hok
  obtain ⟨r, rfl, hr, hpos, hle⟩ := h.computeNewRank hn hrank
  refine ⟨?_, fun t ht => ?_, ?_⟩
  · have hmap : out.1.todos.map (·.id) = db.todos.map (·.id) := by
      rw [htodos, map_updateWhere]
      · simp [DB.withRanks, Function.comp_def]
      · intro t
        rfl
    rw [hmap]
    exact h.ids
  · rw [htodos, mem_updateWhere] at ht
    obtain ⟨u, hu, rfl⟩ := ht
    obtain ⟨v, hv, rfl⟩ := List.mem_map.mp hu
    push_cast
    split
    · exact ⟨hpos, hle⟩
    · have := hr v hv
      unfold rankStep at *
      dsimp only
      omega
  · have := h.length
    simp [htodos, DB.withRanks, updateWhere]
    omega

theorem RanksWithin.exec (h : RanksWithin n db) (hn : (n + 1 : ℤ) * rankStep ≤ maxInt64)
    {rt : Runtime} {ctx : Ctx} {r : Request} (hok : r.exec rt ctx db = .ok db') :
    RanksWithin (n + 1) db' := by
  cases htodos : r.writesTodos with
  | false =>
      have heq := Request.exec_todos htodos hok
      exact h.mono (heq ▸ h.ids) (heq ▸ le_refl _) fun t ht => ⟨t, heq ▸ ht, rfl⟩
  | true =>
      cases r with
      | createTodo projectID input =>
          obtain ⟨out, hout, rfl⟩ := map_eq_ok.mp hok
          exact h.createTodo hn hout
      | moveTodo todoID toColumnKey afterID beforeID =>
          obtain ⟨out, hout, rfl⟩ := map_eq_ok.mp hok
          exact h.moveTodo hn hout
      | deleteTodo todoID =>
          obtain ⟨t, ht, rfl, ⟨_, _, _, rfl, _⟩, _⟩ := deleteTodo_spec hok
          have hsub : (deleteWhere (fun u => u.id == t.id) db.todos).Sublist db.todos :=
            List.filter_sublist
          exact h.mono (h.ids.sublist (hsub.map _)) hsub.length_le
            fun u hu => ⟨u, hsub.subset hu, rfl⟩
      | archiveTodos projectID ids archive =>
          obtain ⟨out, hout, rfl⟩ := map_eq_ok.mp hok
          obtain ⟨_, hmap, _⟩ := archiveTodosByLocalID_spec hout
          have hids := congrArg (List.map TodoRow.id) hmap
          have hlen := congrArg List.length hmap
          simp only [List.map_map, Function.comp_def, List.length_map] at hids hlen
          refine h.mono (hids ▸ h.ids) (le_of_eq hlen) fun t ht => ?_
          have hmem : { t with archivedAt := none } ∈ db.todos.map fun t => { t with archivedAt := none } :=
            hmap ▸ List.mem_map_of_mem ht
          obtain ⟨u, hu, heq⟩ := List.mem_map.mp hmem
          rw [TodoRow.mk.injEq] at heq
          exact ⟨u, hu, heq.2.2.2.2.2.2.1.symm⟩
      | _ => cases htodos

end

/-- In a run of fewer than `2 ^ 53` requests from an empty table of todos, every
column is in the range in which no rank computation wraps. -/
theorem rankRange_reachable {rt : Runtime} {db : DB} (hdb : db.todos = [])
    (rs : List (Ctx × Request)) (hlen : rs.length < 2 ^ 53) (projectID : ℤ) (columnKey : String) :
    RankRange ((Transition.run (serve rt) db rs).lane projectID columnKey) := by
  have hrun : RanksWithin rs.length (Transition.run (serve rt) db rs) := by
    refine Transition.run_history
      (P := fun past s => past.length < 2 ^ 53 → RanksWithin past.length s) ?_ ?_ rs hlen
    · intro _
      exact ⟨by simp [hdb], by simp [hdb], by simp [hdb]⟩
    · intro past s r ih hpast
      rw [List.length_append, List.length_singleton] at hpast ⊢
      have ih := ih (by omega)
      refine serve_inv ?_ fun db' hok => ih.exec (by unfold rankStep maxInt64; omega) hok
      exact ih.mono ih.ids (le_refl _) fun t ht => ⟨t, ht, rfl⟩
  exact hrun.rankRange (by unfold rankStep maxInt64; omega) projectID columnKey

theorem rankRange_two_todos :
    RankRange ((Transition.run (serve plainRuntime) { crowdedBoard with todos := [] }
      [(⟨none, 5⟩, .createTodo 1 { title := "first" }),
        (⟨none, 6⟩, .createTodo 1 { title := "second" })]).lane 1 "backlog") :=
  rankRange_reachable rfl _ (by norm_num) 1 "backlog"

end Scrumboy
