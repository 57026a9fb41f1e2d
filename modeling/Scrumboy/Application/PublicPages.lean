import Scrumboy.Application.PublicCursor
import Scrumboy.Store.PublicView

/-!
# Following the tokens of the public board

A visitor starts with a snapshot of the board or with the first page of a lane, and sends
back the token of each page. The rows of the lane are told apart by rank and local id, so
the rows after the token are those that are left. A token is refused when the rank of its
todo is negative or the local id is not positive, although it was handed out: the lane is
read to its end exactly if no page before the last one ends with such a todo.
-/

namespace Scrumboy

open Go Sql

/-- A todo of the lane that is not archived and passes every filter of the query. -/
structure MatchesPublicQuery (rt : Runtime) (db : DB) (projectID : ℤ) (columnKey : String)
    (query : PublicBoardQuery) (t : TodoRow) : Prop where
  project : t.projectID = projectID
  archived : t.archivedAt = none
  lane : t.columnKey = columnKey
  search : publicSearchMatches query.search t.title t.body = true
  tags : ∀ key ∈ query.tags, ∃ tt ∈ db.todoTags, tt.todoID = t.id ∧
    ∃ g ∈ db.tags, g.id = tt.tagID ∧ tagGroupKey rt g.name = key
  sprint : ∀ number ∈ query.sprintNumber, ∃ sp ∈ db.sprints,
    t.sprintID = some sp.id ∧ sp.projectID = projectID ∧ sp.number = number
  priority : ∀ key ∈ query.priorityKey, t.priorityKey = some key

/-- The rows of a lane that pass the filters, in the order of the board. -/
def publicLaneRows (rt : Runtime) (db : DB) (projectID : ℤ) (columnKey : String)
    (query : PublicBoardQuery) : List TodoRow :=
  orderBy publicOrderKey (db.todos.filter (publicTodoWhere db projectID columnKey
    (resolvePublicTagFiltersTx rt db projectID query) false))

/-- A todo with its tags, as a read of this todo alone shows it. -/
def publicItem (rt : Runtime) (db : DB) (projectID : ℤ) (t : TodoRow) : PublicTodoProjection :=
  { publicTodoOf db t with tags := listPublicTodoTagsTx rt db projectID [t.localID] t.localID }

/-- The page of the rows that are left. -/
def publicPage (rt : Runtime) (db : DB) (projectID : ℤ) (n : ℕ) (total : ℕ) (left : List TodoRow) :
    PublicLaneProjection where
  items := (left.take n).map (publicItem rt db projectID)
  hasMore := decide (n < left.length)
  nextOrder := if n < left.length then left[n - 1]?.map fun t => ⟨t.rank, t.localID⟩ else none
  totalCount := total

/-! ## Pages of the store -/

section

variable {rt : Runtime} {db : DB} {projectID : ℤ} {columnKey : String} {query : PublicBoardQuery}

theorem not_mem_drop_of_nodup {l : List String} (h : l.Nodup) {key : String} {i : ℕ}
    (hmem : (key, i) ∈ l.zipIdx) : key ∉ l.drop (i + 1) := by
  obtain ⟨hi, rfl⟩ := List.getElem?_eq_some_iff.mp (List.mk_mem_zipIdx_iff_getElem?.mp hmem)
  have hdrop : (l.drop i).Nodup := h.sublist (List.drop_sublist i l)
  rw [List.drop_eq_getElem_cons hi, List.nodup_cons] at hdrop
  exact hdrop.1

/-- The filter by tags asks for a tag of each name. -/
theorem publicTagsMatch_iff (rt : Runtime) (hnodup : query.tags.Nodup) (hgroups : query.tagIDGroups = none)
    {t : TodoRow} (ht : t ∈ db.todos) (hproject : t.projectID = projectID) :
    publicTagsMatch db (resolvePublicTagFiltersTx rt db projectID query).tagIDGroups t = true ↔
      ∀ key ∈ query.tags, ∃ tt ∈ db.todoTags, tt.todoID = t.id ∧
        ∃ g ∈ db.tags, g.id = tt.tagID ∧ tagGroupKey rt g.name = key := by
  unfold resolvePublicTagFiltersTx
  by_cases htags : query.tags = []
  · simp [htags, publicTagsMatch, hgroups]
  rw [if_neg (by simp [htags, hgroups]), publicTagsMatch]
  simp only [Option.getD_some, List.all_eq_true, List.mem_map, Prod.exists, forall_exists_index, and_imp,
    List.any_eq_true, Bool.and_eq_true, beq_iff_eq, List.contains_iff_mem]
  constructor
  · intro h key hkey
    obtain ⟨i, hi, rfl⟩ := List.getElem_of_mem hkey
    have hzip : (query.tags[i], i) ∈ query.tags.zipIdx :=
      List.mk_mem_zipIdx_iff_getElem?.mpr (List.getElem?_eq_getElem hi)
    obtain ⟨tt, htt, htodo, hgroup⟩ := h _ _ _ hzip rfl
    rw [if_neg (not_mem_drop_of_nodup hnodup hzip)] at hgroup
    simp only [List.mem_map, List.mem_filter, mem_orderBy, beq_iff_eq] at hgroup
    obtain ⟨g, ⟨⟨hg, _⟩, hname⟩, hid⟩ := hgroup
    exact ⟨tt, htt, htodo, g, hg, hid, hname⟩
  · rintro h group key i hzip rfl
    have hkey : key ∈ query.tags :=
      List.mem_of_getElem? (List.mk_mem_zipIdx_iff_getElem?.mp hzip)
    obtain ⟨tt, htt, htodo, g, hg, hid, hname⟩ := h key hkey
    refine ⟨tt, htt, htodo, ?_⟩
    rw [if_neg (not_mem_drop_of_nodup hnodup hzip)]
    simp only [List.mem_map, List.mem_filter, mem_orderBy, beq_iff_eq, List.any_eq_true, Bool.and_eq_true]
    exact ⟨g, ⟨⟨hg, tt, htt, hid.symm, t, ht, htodo.symm, hproject⟩, hname⟩, hid⟩

theorem publicTodoWhere_iff (hnodup : query.tags.Nodup) (hgroups : query.tagIDGroups = none) {t : TodoRow}
    (ht : t ∈ db.todos) :
    publicTodoWhere db projectID columnKey (resolvePublicTagFiltersTx rt db projectID query) false t = true ↔
      MatchesPublicQuery rt db projectID columnKey query t := by
  have hrest := resolvePublicTagFiltersTx_eq rt db projectID query
  by_cases hproject : t.projectID = projectID
  · have htags := publicTagsMatch_iff rt hnodup hgroups ht hproject
    unfold publicTodoWhere
    rw [Bool.and_eq_true, Bool.and_eq_true, Bool.and_eq_true, Bool.and_eq_true, Bool.and_eq_true,
      Bool.and_eq_true, htags, hrest]
    simp only [isPublicTodo, hproject, beq_self_eq_true, Bool.true_and, Option.isNone_iff_eq_none, beq_iff_eq,
      Option.all_eq_true, List.any_eq_true, Bool.and_eq_true, Bool.not_false, Bool.true_or, and_true]
    constructor
    · rintro ⟨⟨⟨⟨⟨harchived, hlane⟩, hsearch⟩, htags⟩, hsprint⟩, hpriority⟩
      refine ⟨hproject, harchived, hlane, hsearch, htags, ?_, hpriority⟩
      intro number hnumber
      obtain ⟨sp, hsp, ⟨hid, hp⟩, hn⟩ := hsprint number hnumber
      exact ⟨sp, hsp, hid, hp, hn⟩
    · rintro ⟨_, harchived, hlane, hsearch, htags, hsprint, hpriority⟩
      refine ⟨⟨⟨⟨⟨harchived, hlane⟩, hsearch⟩, htags⟩, ?_⟩, hpriority⟩
      intro number hnumber
      obtain ⟨sp, hsp, hid, hp, hn⟩ := hsprint number hnumber
      exact ⟨sp, hsp, ⟨hid, hp⟩, hn⟩
  · constructor
    · intro h
      simp [publicTodoWhere, isPublicTodo, hproject] at h
    · intro h
      exact absurd h.project hproject

theorem PublicTable.nodup_publicOrderKey (h : PublicTable db) (query : PublicBoardQuery) :
    ((db.todos.filter (publicTodoWhere db projectID columnKey query false)).map publicOrderKey).Nodup := by
  have hrows := (List.Nodup.of_map _ h.todo_ids).filter (publicTodoWhere db projectID columnKey query false)
  refine hrows.map_on fun t ht t' ht' heq => ?_
  rw [List.mem_filter] at ht ht'
  have hp : ∀ t, publicTodoWhere db projectID columnKey query false t = true →
      isPublicTodo projectID t = true := by
    intro t hwhere
    simp only [publicTodoWhere, Bool.and_eq_true] at hwhere
    exact hwhere.1.1.1.1.1.1
  have hkey := Prod.mk.inj (toLex.injective heq)
  exact h.eq_of_localID ht.1 ht'.1 (hp t ht.2) (hp t' ht'.2) hkey.2

theorem mem_publicLaneRows (hnodup : query.tags.Nodup) (hgroups : query.tagIDGroups = none) {t : TodoRow} :
    t ∈ publicLaneRows rt db projectID columnKey query ↔
      t ∈ db.todos ∧ MatchesPublicQuery rt db projectID columnKey query t := by
  rw [publicLaneRows, mem_orderBy, List.mem_filter]
  exact and_congr_right fun ht => publicTodoWhere_iff hnodup hgroups ht

theorem PublicTable.pairwise_publicLaneRows (h : PublicTable db) :
    (publicLaneRows rt db projectID columnKey query).Pairwise
      fun a b => publicOrderKey a < publicOrderKey b :=
  pairwise_lt_orderBy (h.nodup_publicOrderKey _)

/-- The rows after a position are those with a greater key. -/
theorem orderBy_where_after (order : PublicTodoOrder) :
    orderBy publicOrderKey (db.todos.filter (publicTodoWhere db projectID columnKey
        (resolvePublicTagFiltersTx rt db projectID { query with after := some order }) true)) =
      rowsAfter publicOrderKey (db.todos.filter (publicTodoWhere db projectID columnKey
        (resolvePublicTagFiltersTx rt db projectID query) false)) (toLex (order.rank, order.localID)) := by
  have hgroups : (resolvePublicTagFiltersTx rt db projectID { query with after := some order }).tagIDGroups =
      (resolvePublicTagFiltersTx rt db projectID query).tagIDGroups := by
    unfold resolvePublicTagFiltersTx
    split
    · rfl
    · rfl
  rw [rowsAfter, List.filter_filter]
  congr 1
  apply List.filter_congr
  intro t _
  rw [publicTodoWhere, publicTodoWhere, hgroups, resolvePublicTagFiltersTx_eq,
    resolvePublicTagFiltersTx_eq rt db projectID query]
  have hlt : decide (toLex (order.rank, order.localID) < publicOrderKey t) =
      (decide (order.rank < t.rank) || (t.rank == order.rank && decide (order.localID < t.localID))) := by
    rw [Bool.eq_iff_iff]
    simp only [publicOrderKey, Prod.Lex.toLex_lt_toLex, decide_eq_true_eq, Bool.or_eq_true, Bool.and_eq_true,
      beq_iff_eq, eq_comm (a := t.rank)]
  simp only [hlt, Bool.not_true, Bool.false_or, Bool.not_false, Bool.true_or, Bool.and_true, Option.all_some]
  rw [Bool.and_comm]

theorem getLast?_take_of_lt {left : List TodoRow} {n : ℕ} (hn : 0 < n) (hlt : n < left.length) :
    (left.take n).getLast? = left[n - 1]? := by
  rw [List.getLast?_eq_getElem?, List.length_take, min_eq_left hlt.le, List.getElem?_take_of_lt (by omega)]

/-- A page of the store has the first of the rows that are left. -/
theorem PublicTable.listPublicLaneTx_eq_ok (h : PublicTable db) (hmin : 1 ≤ query.limit)
    (hmax : query.limit ≤ 50) {lane : PublicLaneProjection} :
    listPublicLaneTx rt db projectID columnKey query = .ok lane ↔
      validatePublicLaneQueryTx db projectID columnKey query = .ok () ∧
        lane = publicPage rt db projectID query.limit.toNat
          (db.todos.filter (publicTodoWhere db projectID columnKey query false)).length
          (orderBy publicOrderKey (db.todos.filter (publicTodoWhere db projectID columnKey query true))) := by
  generalize hleft : orderBy publicOrderKey
    (db.todos.filter (publicTodoWhere db projectID columnKey query true)) = left
  have hpos : 0 < query.limit.toNat := by omega
  have hmore : query.limit < ((left.take (query.limit + 1).toNat).length : ℕ) ↔
      query.limit.toNat < left.length := by
    rw [List.length_take]
    omega
  have hpage : (if decide (query.limit < ((left.take (query.limit + 1).toNat).length : ℕ)) = true then
      (left.take (query.limit + 1).toNat).take query.limit.toNat
      else left.take (query.limit + 1).toNat) = left.take query.limit.toNat := by
    split
    · rw [List.take_take, min_eq_left (by omega)]
    · rename_i hless
      rw [decide_eq_true_eq, hmore] at hless
      rw [List.take_of_length_le (by omega), List.take_of_length_le (by omega)]
  have hitems : ((left.take query.limit.toNat).map fun t => { publicTodoOf db t with
      tags := listPublicTodoTagsTx rt db projectID ((left.take query.limit.toNat).map (·.localID))
        t.localID }) = (left.take query.limit.toNat).map (publicItem rt db projectID) := by
    apply List.map_congr_left
    intro t ht
    have hv : (publicView ⟨db, []⟩ projectID).tags = publicTags db projectID := rfl
    rw [publicItem, h.todoTags_eq _ hv (List.mem_map_of_mem ht), h.todoTags_eq _ hv List.mem_cons_self]
  have hlast : (if decide (query.limit < ((left.take (query.limit + 1).toNat).length : ℕ)) = true then
      (left.take query.limit.toNat).getLast?.map fun t => PublicTodoOrder.mk t.rank t.localID else none) =
      if query.limit.toNat < left.length then left[query.limit.toNat - 1]?.map fun t => ⟨t.rank, t.localID⟩
      else none := by
    simp only [decide_eq_true_eq, hmore]
    split
    · rename_i hlt
      rw [getLast?_take_of_lt hpos hlt]
    · rfl
  unfold listPublicLaneTx
  rw [reject_bind_of_not (by omega)]
  simp only [hleft, bind_eq_ok, pure_eq_ok]
  rw [hpage, hitems, hlast, decide_eq_decide.mpr hmore]
  constructor
  · rintro ⟨_, hvalid, hlane⟩
    exact ⟨hvalid, hlane.symm⟩
  · rintro ⟨hvalid, hlane⟩
    exact ⟨(), hvalid, hlane.symm⟩

end

/-! ## Queries -/

section

variable {rt : Runtime} {input : QueryInput} {query : NormalizedQuery}

theorem normalizeTagFilters_nodup {seen tags out : List String} (hseen : seen.Nodup)
    (h : normalizeTagFilters rt seen tags = .ok out) : out.Nodup := by
  induction tags generalizing seen with
  | nil =>
      rw [normalizeTagFilters, pure_eq_ok] at h
      exact h ▸ hseen
  | cons raw rest ih =>
      simp only [normalizeTagFilters, bind_eq_ok, reject_eq_ok] at h
      obtain ⟨_, _, hrest⟩ := h
      refine ih ?_ hrest
      split
      · exact hseen
      · rename_i hnew
        exact List.nodup_append.mpr ⟨hseen, by simp, by
          intro a ha b hb heq
          rw [List.mem_singleton] at hb
          exact hnew (hb ▸ heq ▸ ha)⟩

theorem sortStrings_perm (l : List String) : (sortStrings l).Perm l := by
  unfold sortStrings
  apply List.perm_insertionSort

/-- The text behind the fingerprint of a query. -/
def filterText (query : PublicBoardQuery) : String :=
  String.ofList (fingerprintInput query.search query.tags query.sprintNumber (query.priorityKey.getD ""))

/-- What a query is after it has been brought into its form. -/
structure NormalForm (query : NormalizedQuery) : Prop where
  tags : query.storeQuery.tags.Nodup
  groups : query.storeQuery.tagIDGroups = none
  after : query.storeQuery.after = none
  min : 1 ≤ query.storeQuery.limit
  max : query.storeQuery.limit ≤ 50
  priority : query.storeQuery.priorityKey ≠ some ""
  fingerprint : query.fingerprint = encodeBytesToString (shortSum (filterText query.storeQuery))

theorem normalizeQuery_normalForm (h : normalizeQuery rt input = .ok query) : NormalForm query := by
  simp only [normalizeQuery, bind_eq_ok, reject_eq_ok, pure_eq_ok] at h
  obtain ⟨_, _, _, _, tags, htags, _, _, _, _, _, hlimit, rfl⟩ := h
  have hnodup := normalizeTagFilters_nodup List.nodup_nil htags
  refine ⟨?_, rfl, rfl, ?_, ?_, ?_, ?_⟩
  · exact (sortStrings_perm tags).nodup_iff.mpr hnodup
  · exact not_lt.mp fun hlt => hlimit (.inl hlt)
  · exact not_lt.mp fun hlt => hlimit (.inr hlt)
  · dsimp only
    split
    · simp
    · rename_i hpriority
      simpa using hpriority
  · dsimp only [filterText]
    split
    · rename_i hpriority
      rw [hpriority]
      rfl
    · rfl

end

end Scrumboy
