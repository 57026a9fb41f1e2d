import Scrumboy.Go.Errors
import Scrumboy.Go.Int64
import Scrumboy.Sql.Order
import Scrumboy.Store.Schema

/-!
# Ranks

The active todos of a column are ordered by rank and, within a rank, by id. A
todo is placed by computing a rank from its neighbours; when there is no room
left the column is renumbered in steps of `rankStep` first. Ranks are 64-bit
integers, and the arithmetic on them wraps.
-/

set_option linter.dupNamespace false

namespace Scrumboy

open Go Sql

def rankStep : ℤ := 1000

structure Neighbor where
  id : ℤ
  rank : ℤ
  deriving DecidableEq, Repr

def lessByRankID (rankA idA rankB idB : ℤ) : Bool :=
  if rankA < rankB then true
  else if rankB < rankA then false
  else idA < idB

/-- The place of a todo in its column. -/
def TodoRow.slot (t : TodoRow) : ℤ ×ₗ ℤ := toLex (t.rank, t.id)

/-- The condition that every query of this module puts on a row. -/
def TodoRow.inLane (projectID : ℤ) (columnKey : String) (t : TodoRow) : Bool :=
  t.projectID == projectID && t.columnKey == columnKey && t.archivedAt == none

/-- The active todos of a column. -/
def DB.lane (db : DB) (projectID : ℤ) (columnKey : String) : List TodoRow :=
  db.todos.filter (TodoRow.inLane projectID columnKey)

def getNeighbor (db : DB) (projectID : ℤ) (columnKey : String) (id : ℤ) : Result Neighbor :=
  match (db.lane projectID columnKey).find? (·.id == id) with
  | some t => .ok ⟨t.id, t.rank⟩
  | none => .error ⟨.notFound, ""⟩

/-- The neighbour that a request names, if it names one. -/
def getNeighborOpt (db : DB) (projectID : ℤ) (columnKey : String) :
    Option ℤ → Result (Option Neighbor)
  | none => .ok none
  | some id => (getNeighbor db projectID columnKey id).map some

def maxRankInColumn (db : DB) (projectID : ℤ) (columnKey : String) : ℤ :=
  coalesceMax ((db.lane projectID columnKey).map (·.rank))

/-- The ids of a column in order, each with the rank that a renumbering gives it. -/
def rebalancedRanks (db : DB) (projectID : ℤ) (columnKey : String) : List (ℤ × ℤ) :=
  ((orderBy TodoRow.slot (db.lane projectID columnKey)).map (·.id)).zipIdx.map fun p =>
    (p.1, wrap (((p.2 : ℤ) + 1) * rankStep))

/-- `UPDATE todos SET rank = ? WHERE id = ?` for each pair. -/
def setRanks (ranks : List (ℤ × ℤ)) (todos : List TodoRow) : List TodoRow :=
  ranks.foldl (fun ts p => updateWhere (fun t => t.id == p.1) (fun t => { t with rank := p.2 }) ts)
    todos

def rebalanceColumn (db : DB) (projectID : ℤ) (columnKey : String) : DB :=
  { db with todos := setRanks (rebalancedRanks db projectID columnKey) db.todos }

/-- Both neighbours are given, and not in this order. -/
def misordered : Option Neighbor → Option Neighbor → Bool
  | some a, some b => !lessByRankID a.rank a.id b.rank b.id
  | _, _ => false

/-- A neighbour is the moving todo itself. -/
def isMoving (movingID : Option ℤ) (n : Option Neighbor) : Bool :=
  match movingID, n with
  | some m, some n => n.id == m
  | _, _ => false

/-- The rank in front of a neighbour. -/
def rankBefore (db : DB) (projectID : ℤ) (columnKey : String) (before : Neighbor) :
    Result (DB × ℤ) :=
  if rankStep < before.rank then .ok (db, wrap (before.rank - rankStep))
  else do
    let db := rebalanceColumn db projectID columnKey
    let before2 ← getNeighbor db projectID columnKey before.id
    if rankStep < before2.rank then pure (db, wrap (before2.rank - rankStep))
    else pure (db, before2.rank.tdiv 2)

/-- The rank between two neighbours. -/
def rankBetween (db : DB) (projectID : ℤ) (columnKey : String) (after before : Neighbor) :
    Result (DB × ℤ) :=
  let gap := wrap (before.rank - after.rank)
  if 2 ≤ gap then .ok (db, wrap (after.rank + gap.tdiv 2))
  else do
    let db := rebalanceColumn db projectID columnKey
    let after2 ← getNeighbor db projectID columnKey after.id
    let before2 ← getNeighbor db projectID columnKey before.id
    reject (lessByRankID after2.rank after2.id before2.rank before2.id = false)
      ⟨.conflict, "afterId must come before beforeId"⟩
    let gap := wrap (before2.rank - after2.rank)
    reject (gap < 2) ⟨.conflict, "cannot compute rank"⟩
    pure (db, wrap (after2.rank + gap.tdiv 2))

def computeNewRank (db : DB) (projectID : ℤ) (columnKey : String)
    (movingID afterID beforeID : Option ℤ) : Result (DB × ℤ) := do
  let after ← getNeighborOpt db projectID columnKey afterID
  let before ← getNeighborOpt db projectID columnKey beforeID
  reject (misordered after before = true) ⟨.conflict, "afterId must come before beforeId"⟩
  reject (isMoving movingID after = true) ⟨.validation, "invalid afterId"⟩
  reject (isMoving movingID before = true) ⟨.validation, "invalid beforeId"⟩
  match after, before with
  | none, none => pure (db, wrap (maxRankInColumn db projectID columnKey + rankStep))
  | none, some before => rankBefore db projectID columnKey before
  | some after, none => pure (db, wrap (after.rank + rankStep))
  | some after, some before => rankBetween db projectID columnKey after before

/-! ## Order and neighbours -/

theorem lessByRankID_iff {a b : TodoRow} :
    lessByRankID a.rank a.id b.rank b.id = true ↔ a.slot < b.slot := by
  rw [TodoRow.slot, TodoRow.slot, Prod.Lex.toLex_lt_toLex]
  unfold lessByRankID
  split
  · simp [*]
  · split
    · simp; omega
    · simp; omega

theorem TodoRow.slot_lt_of_rank_lt {a b : TodoRow} (h : a.rank < b.rank) : a.slot < b.slot :=
  Prod.Lex.toLex_lt_toLex.mpr (.inl h)

theorem TodoRow.rank_le_of_slot_lt {a b : TodoRow} (h : a.slot < b.slot) : a.rank ≤ b.rank := by
  rcases Prod.Lex.toLex_lt_toLex.mp h with h | h
  · exact le_of_lt h
  · exact le_of_eq h.1

theorem getNeighbor_eq_ok {db : DB} {projectID : ℤ} {columnKey : String} {id : ℤ} {n : Neighbor}
    (h : getNeighbor db projectID columnKey id = .ok n) :
    ∃ t ∈ db.lane projectID columnKey, t.id = id ∧ n = ⟨t.id, t.rank⟩ := by
  unfold getNeighbor at h
  split at h
  · rename_i t hfind
    cases h
    have hid := List.find?_some hfind
    exact ⟨t, List.mem_of_find?_eq_some hfind, by simpa using hid, rfl⟩
  · cases h

theorem getNeighborOpt_eq_ok {db : DB} {projectID : ℤ} {columnKey : String} {id : Option ℤ}
    {n : Option Neighbor} (h : getNeighborOpt db projectID columnKey id = .ok n) :
    (id = none ∧ n = none) ∨
      ∃ t ∈ db.lane projectID columnKey, id = some t.id ∧ n = some ⟨t.id, t.rank⟩ := by
  cases id with
  | none =>
      cases h
      exact .inl ⟨rfl, rfl⟩
  | some id =>
      change (getNeighbor db projectID columnKey id).map some = .ok n at h
      cases hn : getNeighbor db projectID columnKey id with
      | error e =>
          rw [hn] at h
          cases h
      | ok m =>
          rw [hn] at h
          cases h
          obtain ⟨t, ht, rfl, rfl⟩ := getNeighbor_eq_ok hn
          exact .inr ⟨t, ht, rfl, rfl⟩

/-- The largest rank of a column is that of one of its todos, unless it has none. -/
theorem maxRankInColumn_cases (db : DB) (projectID : ℤ) (columnKey : String) :
    (db.lane projectID columnKey = [] ∧ maxRankInColumn db projectID columnKey = 0) ∨
      ∃ t ∈ db.lane projectID columnKey, t.rank = maxRankInColumn db projectID columnKey := by
  unfold maxRankInColumn
  by_cases hnil : db.lane projectID columnKey = []
  · exact .inl ⟨hnil, by rw [hnil]; rfl⟩
  · have hmem := coalesceMax_mem (l := (db.lane projectID columnKey).map (·.rank)) (by simpa using hnil)
    exact .inr (List.mem_map.mp hmem)

theorem le_maxRankInColumn {db : DB} {projectID : ℤ} {columnKey : String} {t : TodoRow}
    (ht : t ∈ db.lane projectID columnKey) : t.rank ≤ maxRankInColumn db projectID columnKey :=
  le_coalesceMax (List.mem_map_of_mem ht)

/-! ## Renumbering -/

/-- The table of todos with the rank of every row replaced. -/
def DB.withRanks (db : DB) (r : TodoRow → ℤ) : DB :=
  { db with todos := db.todos.map fun t => { t with rank := r t } }

/-- New ranks for a column that leave the other columns alone, keep the order of
the column and are positive. -/
structure KeepsOrder (db : DB) (projectID : ℤ) (columnKey : String) (r : TodoRow → ℤ) :
    Prop where
  other : ∀ t ∈ db.todos, t.inLane projectID columnKey = false → r t = t.rank
  order : ∀ a ∈ db.lane projectID columnKey, ∀ b ∈ db.lane projectID columnKey,
    (toLex (r a, a.id) < toLex (r b, b.id) ↔ a.slot < b.slot)
  pos : ∀ t ∈ db.lane projectID columnKey, 0 < r t
  le : ∀ t ∈ db.lane projectID columnKey,
    r t ≤ max t.rank ((db.lane projectID columnKey).length * rankStep)

theorem DB.withRanks_rank (db : DB) : db.withRanks TodoRow.rank = db := by
  simp [DB.withRanks]

/-- The ranks that a column has are a renumbering of it. -/
theorem KeepsOrder.rank {db : DB} {projectID : ℤ} {columnKey : String}
    (hpos : ∀ t ∈ db.lane projectID columnKey, 0 < t.rank) :
    KeepsOrder db projectID columnKey TodoRow.rank where
  other _ _ _ := rfl
  order _ _ _ _ := Iff.rfl
  pos := hpos
  le _ _ := le_max_left _ _

theorem lookup_zipIdx_map {l : List ℤ} (f : ℕ → ℤ) (n : ℕ) (x : ℤ) :
    ((l.zipIdx n).map fun p => (p.1, f p.2)).lookup x =
      if x ∈ l then some (f (l.idxOf x + n)) else none := by
  induction l generalizing n with
  | nil => simp
  | cons y l ih =>
      rw [List.zipIdx_cons, List.map_cons, List.lookup_cons, ih]
      by_cases hxy : x = y
      · simp [hxy]
      · have hidx : (y :: l).idxOf x = l.idxOf x + 1 := List.idxOf_cons_ne _ (Ne.symm hxy)
        have hbeq : (x == y) = false := beq_eq_false_iff_ne.mpr hxy
        by_cases hx : x ∈ l
        · simp [hxy, hx, hidx, hbeq, Nat.add_assoc, Nat.add_comm 1 n]
        · simp [hxy, hx, hbeq]

/-- The rank that `rebalanceColumn` gives to a row. -/
def rebalancedRank (db : DB) (projectID : ℤ) (columnKey : String) (t : TodoRow) : ℤ :=
  if t.inLane projectID columnKey then
    wrap (((((orderBy TodoRow.slot (db.lane projectID columnKey)).map (·.id)).idxOf t.id : ℕ) +
      1 : ℤ) * rankStep)
  else t.rank

theorem nodup_lane_ids {db : DB} (hids : (db.todos.map (·.id)).Nodup) (projectID : ℤ)
    (columnKey : String) : ((db.lane projectID columnKey).map (·.id)).Nodup :=
  hids.sublist (List.Sublist.map _ List.filter_sublist)

/-- In a table with distinct ids, a row is in a column as soon as its id is that of
a row of the column. -/
theorem inLane_iff_id_mem {db : DB} (hids : (db.todos.map (·.id)).Nodup) {projectID : ℤ}
    {columnKey : String} {t : TodoRow} (ht : t ∈ db.todos) :
    t.id ∈ (db.lane projectID columnKey).map (·.id) ↔ t.inLane projectID columnKey = true := by
  constructor
  · intro h
    obtain ⟨u, hu, hid⟩ := List.mem_map.mp h
    have hmem := List.mem_filter.mp hu
    rw [← List.inj_on_of_nodup_map hids hmem.1 ht hid]
    exact hmem.2
  · intro h
    exact List.mem_map_of_mem (List.mem_filter.mpr ⟨ht, h⟩)

theorem rebalanceColumn_eq {db : DB} (hids : (db.todos.map (·.id)).Nodup) (projectID : ℤ)
    (columnKey : String) :
    rebalanceColumn db projectID columnKey =
      db.withRanks (rebalancedRank db projectID columnKey) := by
  have hperm := (orderBy_perm TodoRow.slot (db.lane projectID columnKey)).map (·.id)
  have hnodup : ((rebalancedRanks db projectID columnKey).map Prod.fst).Nodup := by
    have : (rebalancedRanks db projectID columnKey).map Prod.fst =
        (orderBy TodoRow.slot (db.lane projectID columnKey)).map (·.id) := by
      rw [rebalancedRanks, List.map_map]
      exact List.zipIdx_map_fst 0 _
    rw [this]
    exact hperm.nodup_iff.mpr (nodup_lane_ids hids projectID columnKey)
  have hfold := foldl_updateWhere (fun t : TodoRow => t.id) (fun t r => { t with rank := r })
    (fun _ _ => rfl) (rebalancedRanks db projectID columnKey) db.todos hnodup
  rw [rebalanceColumn, setRanks, hfold, DB.withRanks]
  congr 1
  apply List.map_congr_left
  intro t ht
  rw [rebalancedRanks, lookup_zipIdx_map (fun i => wrap (((i : ℤ) + 1) * rankStep)) 0 t.id]
  by_cases hlane : t.inLane projectID columnKey = true
  · have hmem : t.id ∈ (orderBy TodoRow.slot (db.lane projectID columnKey)).map (·.id) :=
      hperm.mem_iff.mpr ((inLane_iff_id_mem hids ht).mpr hlane)
    simp [rebalancedRank, hlane, hmem]
  · have hmem : t.id ∉ (orderBy TodoRow.slot (db.lane projectID columnKey)).map (·.id) :=
      fun h => hlane ((inLane_iff_id_mem hids ht).mp (hperm.mem_iff.mp h))
    simp [rebalancedRank, hlane, hmem]

/-- The ranks and the length of a column under which no rank computation leaves
the 64-bit range. A run of interactive operations stays in this range for as long
as it has fewer than `2 ^ 53` steps. -/
structure RankRange (lane : List TodoRow) : Prop where
  pos : ∀ t ∈ lane, 0 < t.rank
  le : ∀ t ∈ lane, t.rank + rankStep ≤ maxInt64
  length_le : (lane.length : ℤ) * rankStep ≤ maxInt64

theorem wrap_of_pos {n : ℤ} (h : 0 ≤ n) (h' : n ≤ maxInt64) : wrap n = n :=
  wrap_eq_self ⟨by unfold minInt64; omega, h'⟩

/-- The midpoint of two ranks that are at least two apart lies strictly between
them. -/
theorem midpoint_between {x y : ℤ} (hx : 0 < x) (hxy : x + 2 ≤ y) (hy : y ≤ maxInt64) :
    x < wrap (x + (wrap (y - x)).tdiv 2) ∧ wrap (x + (wrap (y - x)).tdiv 2) < y := by
  have hgap : wrap (y - x) = y - x := wrap_of_pos (by omega) (by omega)
  have hdiv : (y - x).tdiv 2 = (y - x) / 2 := Int.tdiv_eq_ediv_of_nonneg (by omega)
  rw [hgap, hdiv, wrap_of_pos (by omega) (by omega)]
  omega

/-- Inside the range a renumbered row of the column has a positive multiple of the
step, which counts its place. -/
theorem rebalancedRank_eq {db : DB} {projectID : ℤ} {columnKey : String}
    (hrange : RankRange (db.lane projectID columnKey)) {t : TodoRow}
    (ht : t ∈ db.lane projectID columnKey) :
    ∃ i : ℕ, i = ((orderBy TodoRow.slot (db.lane projectID columnKey)).map (·.id)).idxOf t.id ∧
      i < (db.lane projectID columnKey).length ∧
      rebalancedRank db projectID columnKey t = ((i : ℤ) + 1) * rankStep := by
  refine ⟨_, rfl, ?_⟩
  have hmem : t.id ∈ (orderBy TodoRow.slot (db.lane projectID columnKey)).map (·.id) :=
    List.mem_map_of_mem (mem_orderBy.mpr ht)
  have hlt := List.idxOf_lt_length_of_mem hmem
  rw [List.length_map, length_orderBy] at hlt
  refine ⟨hlt, ?_⟩
  have hlane : t.inLane projectID columnKey = true := (List.mem_filter.mp ht).2
  have hlen := hrange.length_le
  rw [rebalancedRank, if_pos hlane]
  unfold rankStep at hlen ⊢
  apply wrap_of_pos <;> omega

theorem rebalancedRank_lt_iff {db : DB} (hids : (db.todos.map (·.id)).Nodup) {projectID : ℤ}
    {columnKey : String} (hrange : RankRange (db.lane projectID columnKey)) {a b : TodoRow}
    (ha : a ∈ db.lane projectID columnKey) (hb : b ∈ db.lane projectID columnKey) :
    rebalancedRank db projectID columnKey a < rebalancedRank db projectID columnKey b ↔
      a.slot < b.slot := by
  obtain ⟨i, hi, -, hra⟩ := rebalancedRank_eq hrange ha
  obtain ⟨j, hj, -, hrb⟩ := rebalancedRank_eq hrange hb
  have hslot : ∀ a ∈ db.lane projectID columnKey, ∀ b ∈ db.lane projectID columnKey,
      a.slot = b.slot → a.id = b.id := by
    intro a _ b _ h
    exact (Prod.mk.inj (toLex.injective h)).2
  have hidx := idxOf_orderBy_lt_iff (nodup_lane_ids hids projectID columnKey) hslot ha hb
  rw [← hi, ← hj] at hidx
  rw [← hidx, hra, hrb]
  unfold rankStep
  omega

theorem rebalancedRank_keepsOrder {db : DB} (hids : (db.todos.map (·.id)).Nodup) {projectID : ℤ}
    {columnKey : String} (hrange : RankRange (db.lane projectID columnKey)) :
    KeepsOrder db projectID columnKey (rebalancedRank db projectID columnKey) where
  other t _ h := by simp [rebalancedRank, h]
  order a ha b hb := by
    rw [Prod.Lex.toLex_lt_toLex, rebalancedRank_lt_iff hids hrange ha hb]
    constructor
    · rintro (h | ⟨heq, hid⟩)
      · exact h
      · -- Equal new ranks mean equal places, hence equal ids.
        have hab := mt (rebalancedRank_lt_iff hids hrange ha hb).mpr (by omega)
        have hba := mt (rebalancedRank_lt_iff hids hrange hb ha).mpr (by omega)
        have hslot : a.slot = b.slot := le_antisymm (not_lt.mp hba) (not_lt.mp hab)
        have := (Prod.mk.inj (toLex.injective hslot)).2
        omega
    · exact Or.inl
  pos t ht := by
    obtain ⟨i, -, -, hr⟩ := rebalancedRank_eq hrange ht
    rw [hr]
    unfold rankStep
    omega
  le t ht := by
    obtain ⟨i, -, hi, hr⟩ := rebalancedRank_eq hrange ht
    apply le_max_of_le_right
    rw [hr]
    unfold rankStep
    omega

theorem withRanks_lane (db : DB) (r : TodoRow → ℤ) (projectID : ℤ) (columnKey : String) :
    (db.withRanks r).lane projectID columnKey =
      (db.lane projectID columnKey).map fun t => { t with rank := r t } := by
  rw [DB.lane, DB.withRanks, DB.lane, List.filter_map]
  rfl

/-- The neighbour that a renumbered column has under an id. -/
theorem getNeighbor_withRanks {db : DB} {r : TodoRow → ℤ} {projectID : ℤ} {columnKey : String}
    {id : ℤ} {n : Neighbor} (h : getNeighbor (db.withRanks r) projectID columnKey id = .ok n) :
    ∃ t ∈ db.lane projectID columnKey, t.id = id ∧ n = ⟨t.id, r t⟩ := by
  obtain ⟨t, ht, hid, hn⟩ := getNeighbor_eq_ok h
  rw [withRanks_lane] at ht
  obtain ⟨u, hu, rfl⟩ := List.mem_map.mp ht
  exact ⟨u, hu, hid, hn⟩

/-! ## What rank writes leave alone -/

/-- The ranks of the todos; everything else is equal. -/
def RanksOnly (db db' : DB) : Prop := ∃ r, db' = db.withRanks r

theorem RanksOnly.refl (db : DB) : RanksOnly db db := ⟨TodoRow.rank, by simp [DB.withRanks]⟩

theorem RanksOnly.trans {a b c : DB} (hab : RanksOnly a b) (hbc : RanksOnly b c) :
    RanksOnly a c := by
  obtain ⟨r, rfl⟩ := hab
  obtain ⟨r', rfl⟩ := hbc
  exact ⟨fun t => r' { t with rank := r t }, by simp [DB.withRanks, Function.comp_def]⟩

theorem rebalanceColumn_ranksOnly (db : DB) (projectID : ℤ) (columnKey : String) :
    RanksOnly db (rebalanceColumn db projectID columnKey) := by
  unfold rebalanceColumn setRanks
  induction rebalancedRanks db projectID columnKey generalizing db with
  | nil => exact .refl db
  | cons p ps ih =>
      have hstep : RanksOnly db { db with
          todos := updateWhere (fun t => t.id == p.1) (fun t => { t with rank := p.2 })
            db.todos } := by
        refine ⟨fun t => if t.id = p.1 then p.2 else t.rank, ?_⟩
        simp only [DB.withRanks, updateWhere]
        congr 1
        apply List.map_congr_left
        intro t _
        by_cases ht : t.id = p.1 <;> simp [ht]
      exact hstep.trans (ih _)

/-! ## The computed rank -/

/-- A rank for a todo between two optional neighbours of a column whose rows have
the ranks `r`. -/
structure RankFits (db : DB) (projectID : ℤ) (columnKey : String) (r : TodoRow → ℤ)
    (afterID beforeID : Option ℤ) (n : ℤ) : Prop where
  pos : 0 < n
  after_lt : ∀ x, afterID = some x →
    ∃ a ∈ db.lane projectID columnKey, a.id = x ∧ r a < n
  lt_before : ∀ y, beforeID = some y →
    ∃ b ∈ db.lane projectID columnKey, b.id = y ∧ n < r b
  le : ∀ m, 0 ≤ m → (∀ t ∈ db.lane projectID columnKey, r t ≤ m) → n ≤ m + rankStep

/-- A rank in front of a neighbour is below every bound of the column. -/
theorem RankFits.of_lt_before {db : DB} {projectID : ℤ} {columnKey : String} {r : TodoRow → ℤ}
    {afterID : Option ℤ} {n : ℤ} {b : TodoRow} (hb : b ∈ db.lane projectID columnKey)
    (hpos : 0 < n) (hlt : n < r b)
    (hafter : ∀ x, afterID = some x → ∃ a ∈ db.lane projectID columnKey, a.id = x ∧ r a < n) :
    RankFits db projectID columnKey r afterID (some b.id) n where
  pos := hpos
  after_lt := hafter
  lt_before y hy := ⟨b, hb, by simpa using hy, hlt⟩
  le m _ hm := by
    have := hm b hb
    unfold rankStep
    omega

section

variable {db : DB} {projectID : ℤ} {columnKey : String}

theorem rankBefore_spec (hids : (db.todos.map (·.id)).Nodup)
    (hrange : RankRange (db.lane projectID columnKey)) {b : TodoRow}
    (hb : b ∈ db.lane projectID columnKey) {db₁ : DB} {n : ℤ}
    (h : rankBefore db projectID columnKey ⟨b.id, b.rank⟩ = .ok (db₁, n)) :
    ∃ r, db₁ = db.withRanks r ∧ KeepsOrder db projectID columnKey r ∧
      RankFits db projectID columnKey r none (some b.id) n := by
  have hle := hrange.le b hb
  unfold rankBefore at h
  split at h
  · rename_i hgt
    cases h
    dsimp only at hgt ⊢
    have hw : wrap (b.rank - rankStep) = b.rank - rankStep := by
      unfold rankStep at hgt hle ⊢
      apply wrap_of_pos <;> omega
    rw [hw]
    refine ⟨TodoRow.rank, db.withRanks_rank.symm, .rank hrange.pos, .of_lt_before hb ?_ ?_ (by simp)⟩
    · unfold rankStep at hgt ⊢
      omega
    · unfold rankStep
      omega
  · rw [rebalanceColumn_eq hids, bind_eq_ok] at h
    obtain ⟨before2, hn, hrest⟩ := h
    obtain ⟨c, hc, hcid, rfl⟩ := getNeighbor_withRanks hn
    have hcb : c = b := List.inj_on_of_nodup_map (nodup_lane_ids hids projectID columnKey) hc hb hcid
    subst hcb
    obtain ⟨i, -, hi, hr⟩ := rebalancedRank_eq hrange hc
    have hlen := hrange.length_le
    refine ⟨_, ?_, rebalancedRank_keepsOrder hids hrange, ?_⟩
    · split at hrest <;> cases hrest <;> rfl
    · have hn : 0 < n ∧ n < rebalancedRank db projectID columnKey c := by
        dsimp only at hrest
        rw [hr] at hrest ⊢
        unfold rankStep at hrest hlen ⊢
        split at hrest
        · cases hrest
          rw [wrap_of_pos (by omega) (by omega)]
          omega
        · cases hrest
          rw [Int.tdiv_eq_ediv_of_nonneg (by omega)]
          omega
      exact .of_lt_before hc hn.1 hn.2 (by simp)

theorem rankBetween_spec (hids : (db.todos.map (·.id)).Nodup)
    (hrange : RankRange (db.lane projectID columnKey)) {a b : TodoRow}
    (ha : a ∈ db.lane projectID columnKey) (hb : b ∈ db.lane projectID columnKey)
    (hab : a.slot < b.slot) {db₁ : DB} {n : ℤ}
    (h : rankBetween db projectID columnKey ⟨a.id, a.rank⟩ ⟨b.id, b.rank⟩ = .ok (db₁, n)) :
    ∃ r, db₁ = db.withRanks r ∧ KeepsOrder db projectID columnKey r ∧
      RankFits db projectID columnKey r (some a.id) (some b.id) n := by
  have hapos := hrange.pos a ha
  have hble := hrange.le b hb
  have hrank := TodoRow.rank_le_of_slot_lt hab
  have hbmax : b.rank ≤ maxInt64 := by
    unfold rankStep at hble
    omega
  have hgap : wrap (b.rank - a.rank) = b.rank - a.rank := wrap_of_pos (by omega) (by omega)
  unfold rankBetween at h
  dsimp only at h
  split at h
  · rename_i hwide
    cases h
    rw [hgap] at hwide
    obtain ⟨hlow, hhigh⟩ := midpoint_between hapos (by omega) hbmax
    refine ⟨TodoRow.rank, db.withRanks_rank.symm, .rank hrange.pos,
      .of_lt_before hb (by omega) hhigh ?_⟩
    intro x hx
    exact ⟨a, ha, by simpa using hx, hlow⟩
  · rw [rebalanceColumn_eq hids] at h
    simp only [bind_eq_ok, reject_eq_ok, pure_eq_ok, Prod.mk.injEq] at h
    obtain ⟨after2, hafter, before2, hbefore, _, _, _, _, rfl, rfl⟩ := h
    obtain ⟨a', ha', haid, rfl⟩ := getNeighbor_withRanks hafter
    obtain ⟨b', hb', hbid, rfl⟩ := getNeighbor_withRanks hbefore
    have hinj := List.inj_on_of_nodup_map (nodup_lane_ids hids projectID columnKey)
    have haa : a' = a := hinj ha' ha haid
    have hbb : b' = b := hinj hb' hb hbid
    subst haa hbb
    have hlt := (rebalancedRank_lt_iff hids hrange ha hb).mpr hab
    obtain ⟨i, -, hi, hra⟩ := rebalancedRank_eq hrange ha
    obtain ⟨j, -, hj, hrb⟩ := rebalancedRank_eq hrange hb
    have hlen := hrange.length_le
    obtain ⟨hlow, hhigh⟩ := midpoint_between (x := rebalancedRank db projectID columnKey a')
      (y := rebalancedRank db projectID columnKey b')
      (by rw [hra]; unfold rankStep; omega)
      (by rw [hra, hrb] at hlt ⊢; unfold rankStep at hlt ⊢; omega)
      (by rw [hrb]; unfold rankStep at hlen ⊢; omega)
    have hpos := (rebalancedRank_keepsOrder hids hrange).pos a' ha
    exact ⟨_, rfl, rebalancedRank_keepsOrder hids hrange, .of_lt_before hb (lt_trans hpos hlow)
      hhigh fun x hx => ⟨a', ha, by simpa using hx, hlow⟩⟩

/-- Whatever neighbours are named, the computed rank lies between them in the
column as it is after the computation, and the column has kept its order. -/
theorem computeNewRank_spec (hids : (db.todos.map (·.id)).Nodup)
    (hrange : RankRange (db.lane projectID columnKey)) {movingID afterID beforeID : Option ℤ}
    {db₁ : DB} {n : ℤ}
    (h : computeNewRank db projectID columnKey movingID afterID beforeID = .ok (db₁, n)) :
    ∃ r, db₁ = db.withRanks r ∧ KeepsOrder db projectID columnKey r ∧
      RankFits db projectID columnKey r afterID beforeID n := by
  simp only [computeNewRank, bind_eq_ok, reject_eq_ok] at h
  obtain ⟨after, hafter, before, hbefore, _, hmis, _, _, _, _, hmatch⟩ := h
  rcases getNeighborOpt_eq_ok hafter with ⟨rfl, rfl⟩ | ⟨a, ha, rfl, rfl⟩
  · rcases getNeighborOpt_eq_ok hbefore with ⟨rfl, rfl⟩ | ⟨b, hb, rfl, rfl⟩
    · simp only [pure_eq_ok, Prod.mk.injEq] at hmatch
      obtain ⟨rfl, rfl⟩ := hmatch
      refine ⟨TodoRow.rank, db.withRanks_rank.symm, .rank hrange.pos, ?_⟩
      have hmax : 0 ≤ maxRankInColumn db projectID columnKey ∧
          maxRankInColumn db projectID columnKey + rankStep ≤ maxInt64 := by
        rcases maxRankInColumn_cases db projectID columnKey with ⟨_, h0⟩ | ⟨t, ht, hrank⟩
        · rw [h0]
          decide
        · rw [← hrank]
          exact ⟨le_of_lt (hrange.pos t ht), hrange.le t ht⟩
      rw [wrap_of_pos (by unfold rankStep; omega) hmax.2]
      refine ⟨by unfold rankStep; omega, by simp, by simp, ?_⟩
      intro m hm hle
      have hmax_le : maxRankInColumn db projectID columnKey ≤ m := by
        rcases maxRankInColumn_cases db projectID columnKey with ⟨_, h0⟩ | ⟨t, ht, hrank⟩
        · exact h0 ▸ hm
        · exact hrank ▸ hle t ht
      omega
    · exact rankBefore_spec hids hrange hb hmatch
  · rcases getNeighborOpt_eq_ok hbefore with ⟨rfl, rfl⟩ | ⟨b, hb, rfl, rfl⟩
    · simp only [pure_eq_ok, Prod.mk.injEq] at hmatch
      obtain ⟨rfl, rfl⟩ := hmatch
      have hapos := hrange.pos a ha
      have hale := hrange.le a ha
      have hw : wrap (a.rank + rankStep) = a.rank + rankStep := by
        refine wrap_of_pos ?_ hale
        unfold rankStep
        omega
      rw [hw]
      refine ⟨TodoRow.rank, db.withRanks_rank.symm, .rank hrange.pos, ?_, ?_, by simp, ?_⟩
      · unfold rankStep
        omega
      · intro x hx
        exact ⟨a, ha, by simpa using hx, by unfold rankStep; omega⟩
      · intro m _ hle
        have := hle a ha
        omega
    · have hslot : a.slot < b.slot := by
        rw [← lessByRankID_iff]
        simpa [misordered] using hmis
      exact rankBetween_spec hids hrange ha hb hslot hmatch

theorem rankBefore_ranksOnly {before : Neighbor} {db₁ : DB} {n : ℤ}
    (h : rankBefore db projectID columnKey before = .ok (db₁, n)) : RanksOnly db db₁ := by
  unfold rankBefore at h
  split at h
  · cases h
    exact .refl db
  · rw [bind_eq_ok] at h
    obtain ⟨before2, _, h⟩ := h
    split at h <;> cases h <;> exact rebalanceColumn_ranksOnly db projectID columnKey

theorem rankBetween_ranksOnly {after before : Neighbor} {db₁ : DB} {n : ℤ}
    (h : rankBetween db projectID columnKey after before = .ok (db₁, n)) : RanksOnly db db₁ := by
  unfold rankBetween at h
  dsimp only at h
  split at h
  · cases h
    exact .refl db
  · simp only [bind_eq_ok, pure_eq_ok, Prod.mk.injEq] at h
    obtain ⟨_, _, _, _, _, _, _, _, rfl, _⟩ := h
    exact rebalanceColumn_ranksOnly db projectID columnKey

/-- Computing a rank changes nothing but ranks, whatever the column holds. -/
theorem computeNewRank_ranksOnly {movingID afterID beforeID : Option ℤ} {db₁ : DB} {n : ℤ}
    (h : computeNewRank db projectID columnKey movingID afterID beforeID = .ok (db₁, n)) :
    RanksOnly db db₁ := by
  simp only [computeNewRank, bind_eq_ok] at h
  obtain ⟨after, _, before, _, _, _, _, _, _, _, h⟩ := h
  rcases after with _ | after
  · rcases before with _ | before
    · cases h
      exact .refl db
    · exact rankBefore_ranksOnly h
  · rcases before with _ | before
    · cases h
      exact .refl db
    · exact rankBetween_ranksOnly h

end

end Scrumboy
