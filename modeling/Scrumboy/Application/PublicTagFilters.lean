import Mathlib.Algebra.BigOperators.Group.List.Basic
import Scrumboy.Application.PublicReads
import Scrumboy.Trello.LabelImport

/-!
# The tags of a public board as filters

The list of tags has a tag for each group of rows, under the canonical form of their names. A
name without a canonical form is listed as it is stored, and a filter with it is refused.
-/

set_option linter.dupNamespace false

namespace Scrumboy

open Go Sql

/-- The todo has a tag of the group. -/
def TaggedAs (rt : Runtime) (db : DB) (t : TodoRow) (name : String) : Prop :=
  ∃ tt ∈ db.todoTags, tt.todoID = t.id ∧ ∃ g ∈ db.tags, g.id = tt.tagID ∧ tagGroupKey rt g.name = name

/-- A tag of the list, given back as a filter, is accepted, and the lanes show the todos that
have it, as many as the list counts. -/
def Selects (rt : Runtime) (s : PublicStore) (p : PreparedRead) (tag : PublicTagProjection) : Prop :=
  ∃ query result, normalizeQuery rt { tags := [tag.name] } = .ok query ∧
    readSnapshot rt s p { tags := [tag.name] } = .ok result ∧
    (result.lanes.map fun lane => lane.2.totalCount).sum = tag.activeCount ∧
    ∀ t ∈ s.db.todos, (∃ column ∈ result.workflow, publicTodoWhere s.db p.projectID column.key
      (resolvePublicTagFiltersTx rt s.db p.projectID query.storeQuery) false t = true) ↔
        isPublicTodo p.projectID t = true ∧ TaggedAs rt s.db t tag.name

/-- Every tag of a todo of the board has a name with a canonical form. -/
def CanonicalNames (rt : Runtime) (db : DB) (projectID : ℤ) : Prop :=
  ∀ t ∈ db.todos, isPublicTodo projectID t = true → ∀ tt ∈ db.todoTags, tt.todoID = t.id →
    ∀ g ∈ db.tags, g.id = tt.tagID → canonicalizeTag rt g.name ≠ ""

/-! ## Reading each lane, and sums over lanes -/

/-- A loop that collects results, with a result known for each call. -/
theorem mapM_eq_ok_map {α β ε : Type} {f : α → Except ε β} {g : α → β} {l : List α}
    (h : ∀ a ∈ l, f a = .ok (g a)) : l.mapM f = .ok (l.map g) := by
  induction l with
  | nil => rfl
  | cons a l ih =>
      obtain ⟨ha, hl⟩ := List.forall_mem_cons.mp h
      simp only [List.mapM_cons, bind_eq_ok, pure_eq_ok]
      exact ⟨g a, ha, l.map g, ih hl, rfl⟩

section

variable {α κ : Type*} [DecidableEq κ] {keys : List κ}

theorem sum_map_single (hkeys : keys.Nodup) {key : κ} (hmem : key ∈ keys) (n : ℕ) :
    (keys.map fun k => if key = k then n else 0).sum = n := by
  induction keys with
  | nil => cases hmem
  | cons k keys ih =>
      obtain ⟨hk, hrest⟩ := List.nodup_cons.mp hkeys
      by_cases heq : key = k
      · subst heq
        have hzero : (keys.map fun k => if key = k then n else 0) = keys.map fun _ => 0 :=
          List.map_congr_left fun k' hk' => if_neg fun hsame => hk (by rwa [hsame])
        rw [List.map_cons, List.sum_cons, if_pos rfl, hzero]
        simp
      · rw [List.map_cons, List.sum_cons, if_neg heq, Nat.zero_add]
        exact ih hrest ((List.mem_cons.mp hmem).resolve_left heq)

/-- A sum over keys, of which each element that counts has one. -/
theorem sum_filter_keys (hkeys : keys.Nodup) {l : List α} {f : α → κ} {q : α → Bool}
    (hf : ∀ a ∈ l, q a = true → f a ∈ keys) :
    (keys.map fun k => (l.filter fun a => f a == k && q a).length).sum = (l.filter q).length := by
  induction l with
  | nil => simp
  | cons a l ih =>
      obtain ⟨ha, hl⟩ := List.forall_mem_cons.mp hf
      cases hq : q a with
      | false => simpa [hq] using ih hl
      | true =>
          have hsplit : ∀ k, ((a :: l).filter fun a => f a == k && q a).length =
              (if f a = k then 1 else 0) + (l.filter fun a => f a == k && q a).length := by
            intro k
            by_cases hk : f a = k
            · simp [hk, hq, Nat.add_comm]
            · simp [hk]
          simp only [hsplit]
          rw [List.sum_map_add, sum_map_single hkeys (ha hq), ih hl, List.filter_cons_of_pos hq,
            List.length_cons, Nat.add_comm]

end

section

variable {rt : Runtime} {s : PublicStore} {p : PreparedRead} {name : String}

/-! ## One tag as a query -/

/-- The query of one tag filter. -/
def tagQuery (name : String) : PublicBoardQuery := { tags := [name], limit := defaultPublicPageSize }

theorem sortStrings_singleton (name : String) : sortStrings [name] = [name] := by
  simp [sortStrings]

theorem normalizeQuery_tag (hname : IsCanonicalTag rt name) :
    ∃ query, normalizeQuery rt { tags := [name] } = .ok query ∧ query.storeQuery = tagQuery name := by
  have htags : normalizeTagFilters rt [] [name] = .ok [name] := by
    rw [normalizeTagFilters, hname.fixed, reject_bind_of_not hname.nonempty]
    rfl
  have hspace : trimSpace "" = "" := by decide +kernel
  have hlower : toLower "" = "" := by decide +kernel
  have hlength : ¬ maxTagFilters < [name].length := by
    simp [maxTagFilters]
  have hsprint : ¬ ∃ n ∈ (none : Option ℤ), n < 1 := by simp
  let encoded := fingerprintInput "" [name] none ""
  refine ⟨⟨tagQuery name, encodeBytesToString (shortSum (String.ofList encoded))⟩, ?_, rfl⟩
  simp only [normalizeQuery, htags, hspace, hlower, ok_bind, if_true, sortStrings_singleton]
  rw [reject_bind_of_not (by decide), reject_bind_of_not hlength, reject_bind_of_not hsprint,
    reject_bind_of_not (by simp), reject_bind_of_not (by decide)]
  rfl

theorem canonicalizeTag_of_normalizeQuery {query : NormalizedQuery}
    (h : normalizeQuery rt { tags := [name] } = .ok query) : canonicalizeTag rt name ≠ "" := by
  simp only [normalizeQuery, bind_eq_ok, normalizeTagFilters, reject_eq_ok] at h
  obtain ⟨_, _, _, _, _, ⟨_, hname, _⟩, _⟩ := h
  exact hname

theorem taggedAs_iff_any {db : DB} {t : TodoRow} : TaggedAs rt db t name ↔
    (db.todoTags.any fun tt => tt.todoID == t.id &&
      db.tags.any fun g => g.id == tt.tagID && tagGroupKey rt g.name == name) = true := by
  simp [TaggedAs]

instance {db : DB} {t : TodoRow} : Decidable (TaggedAs rt db t name) := decidable_of_iff _ taggedAs_iff_any.symm

/-- A lane shows the todos of its own with the tag. -/
theorem publicTodoWhere_tag {db : DB} {projectID : ℤ} {columnKey : String} {t : TodoRow} (ht : t ∈ db.todos) :
    publicTodoWhere db projectID columnKey (resolvePublicTagFiltersTx rt db projectID (tagQuery name)) false t =
      (t.columnKey == columnKey && (isPublicTodo projectID t && decide (TaggedAs rt db t name))) := by
  rw [Bool.eq_iff_iff, publicTodoWhere_iff (List.nodup_singleton name) rfl ht]
  simp only [isPublicTodo, Bool.and_eq_true, beq_iff_eq, decide_eq_true_eq, Option.isNone_iff_eq_none]
  constructor
  · intro h
    exact ⟨h.lane, ⟨h.project, h.archived⟩, h.tags name (List.mem_singleton.mpr rfl)⟩
  · rintro ⟨hlane, ⟨hproject, hactive⟩, htags⟩
    refine ⟨hproject, hactive, hlane, rfl, ?_, by simp [tagQuery], by simp [tagQuery]⟩
    intro key hkey
    exact List.mem_singleton.mp hkey ▸ htags

/-! ## The snapshot -/

theorem mem_listPublicTags {db : DB} {projectID : ℤ} {tag : PublicTagProjection}
    (h : tag ∈ listPublicTagsTx rt db projectID) :
    (∃ a ∈ publicTagJoin db projectID, tagGroupKey rt a.name = tag.name) ∧
      tag.activeCount = (((publicTagJoin db projectID).filter fun a =>
        tagGroupKey rt a.name == tag.name).map (·.localID)).dedup.length := by
  obtain ⟨name, hname, rfl⟩ := List.mem_map.mp h
  rw [sortStrings, List.mem_insertionSort, List.mem_dedup] at hname
  obtain ⟨a, ha, hkey⟩ := List.mem_map.mp hname
  have hperm := ((orderBy_perm TagAssociation.byTag (publicTagJoin db projectID)).filter fun a =>
    tagGroupKey rt a.name == name).map (·.localID)
  exact ⟨⟨a, mem_orderBy.mp ha, hkey⟩, hperm.dedup.length_eq⟩

theorem exists_listPublicTags {db : DB} {projectID : ℤ} {a : TagAssociation} (ha : a ∈ publicTagJoin db projectID) :
    ∃ tag ∈ listPublicTagsTx rt db projectID, tag.name = tagGroupKey rt a.name := by
  have hmem : tagGroupKey rt a.name ∈
      sortStrings ((orderBy TagAssociation.byTag (publicTagJoin db projectID)).map
        fun a => tagGroupKey rt a.name).dedup := by
    rw [sortStrings, List.mem_insertionSort, List.mem_dedup]
    exact List.mem_map.mpr ⟨a, mem_orderBy.mpr ha, rfl⟩
  exact ⟨_, List.mem_map.mpr ⟨_, hmem, rfl⟩, rfl⟩

/-- The number that the list counts is the number of todos with the tag. -/
theorem PublicTable.activeCount_eq (h : PublicTable s.db) :
    (((publicTagJoin s.db p.projectID).filter fun a => tagGroupKey rt a.name == name).map
      (·.localID)).dedup.length =
      (s.db.todos.filter fun t => isPublicTodo p.projectID t && decide (TaggedAs rt s.db t name)).length := by
  let todos := s.db.todos.filter fun t => isPublicTodo p.projectID t && decide (TaggedAs rt s.db t name)
  have hnodup : (todos.map (·.localID)).Nodup := by
    refine List.Nodup.map_on ?_ ((List.Nodup.of_map _ h.todo_ids).filter _)
    intro t ht t' ht' hlocal
    rw [List.mem_filter, Bool.and_eq_true] at ht ht'
    exact h.eq_of_localID ht.1 ht'.1 ht.2.1 ht'.2.1 hlocal
  have hperm : (((publicTagJoin s.db p.projectID).filter fun a => tagGroupKey rt a.name == name).map
      (·.localID)).dedup.Perm (todos.map (·.localID)) := by
    rw [List.perm_ext_iff_of_nodup (List.nodup_dedup _) hnodup]
    intro localID
    simp only [List.mem_dedup, List.mem_map, List.mem_filter, mem_publicTagJoin, beq_iff_eq, todos,
      Bool.and_eq_true, decide_eq_true_eq]
    constructor
    · rintro ⟨_, ⟨⟨t, ht, hpublic, tt, htt, hid, g, hg, hgid, rfl⟩, hkey⟩, rfl⟩
      exact ⟨t, ⟨ht, hpublic, tt, htt, hid, g, hg, hgid, hkey⟩, rfl⟩
    · rintro ⟨t, ⟨ht, hpublic, tt, htt, hid, g, hg, hgid, hkey⟩, rfl⟩
      exact ⟨_, ⟨⟨t, ht, hpublic, tt, htt, hid, g, hg, hgid, rfl⟩, hkey⟩, rfl⟩
  rw [hperm.length_eq, List.length_map]

/-- The snapshot of a query that names nothing but tags has a first page of each lane. -/
theorem PublicTable.readSnapshot_tag (h : PublicTable s.db) {project : PublicProjectProjection}
    (hproject : loadEligiblePublicProjectTx s p.projectID p.slug = .ok project) {query : NormalizedQuery}
    (hquery : normalizeQuery rt { tags := [name] } = .ok query) (hstore : query.storeQuery = tagQuery name) :
    ∃ result, readSnapshot rt s p { tags := [name] } = .ok result ∧
      result.workflow = listPublicWorkflowTx s.db p.projectID ∧
      result.lanes = result.workflow.map fun column => (column.key,
        lanePage rt s p column.key query (publicLaneRows rt s.db p.projectID column.key query.storeQuery)) := by
  have hnormal := normalizeQuery_normalForm hquery
  have hlane : ∀ column ∈ listPublicWorkflowTx s.db p.projectID,
      (do
        let page ← listPublicLaneTx rt s.db p.projectID column.key
          (resolvePublicTagFiltersTx rt s.db p.projectID query.storeQuery)
        pure (column.key, page) : Result (String × PublicLaneProjection)) =
      .ok (column.key, publicPage rt s.db p.projectID query.storeQuery.limit.toNat
        (publicLaneRows rt s.db p.projectID column.key query.storeQuery).length
        (publicLaneRows rt s.db p.projectID column.key query.storeQuery)) := by
    intro column hcolumn
    have hvalid : validatePublicLaneQueryTx s.db p.projectID column.key query.storeQuery = .ok () := by
      simp only [validatePublicLaneQueryTx, bind_eq_ok, reject_eq_ok, hstore, tagQuery]
      exact ⟨(), fun hno => hno (mem_workflow hcolumn), (), by simp, by simp⟩
    exact bind_eq_ok.mpr ⟨_, (h.listPublicLane_first hnormal).mpr ⟨hvalid, rfl⟩, rfl⟩
  let result : SnapshotResult :=
    { project := project
      workflow := listPublicWorkflowTx s.db p.projectID
      priorities := listPublicPrioritiesTx s.db p.projectID
      tags := listPublicTagsTx rt s.db p.projectID
      lanes := (listPublicWorkflowTx s.db p.projectID).map fun column => (column.key,
        lanePage rt s p column.key query (publicLaneRows rt s.db p.projectID column.key query.storeQuery)) }
  refine ⟨result, ?_, rfl, rfl⟩
  simp only [readSnapshot, bind_eq_ok, reject_eq_ok, pure_eq_ok, mapError_eq_ok, hquery, Except.ok.injEq,
    getPublicBoardSnapshot, exists_eq_left']
  refine ⟨(), by simp, _, ⟨project, hproject, _, mapM_eq_ok_map hlane, rfl⟩, ?_⟩
  rw [List.map_map]
  rfl

/-! ## The list as filters -/

theorem PublicTable.nodup_workflow_keys (h : PublicTable s.db) :
    ((listPublicWorkflowTx s.db p.projectID).map (·.key)).Nodup := by
  have hkeys : ((s.db.columns.filter (·.projectID == p.projectID)).map (·.key)).Nodup := by
    refine List.Nodup.map_on ?_ ((List.Nodup.of_map _ h.column_keys).filter _)
    intro c hc c' hc' hkey
    rw [List.mem_filter, beq_iff_eq] at hc hc'
    exact List.inj_on_of_nodup_map h.column_keys hc.1 hc'.1 (Prod.ext (hc.2.trans hc'.2.symm) hkey)
  rw [listPublicWorkflowTx, List.map_map]
  exact ((orderBy_perm _ _).map _).nodup_iff.mpr hkeys

/-- Without the condition on names: a tag with a canonical name selects its todos. -/
theorem PublicTable.selects (h : PublicTable s.db)
    (hlanes : ∀ t ∈ s.db.todos, isPublicTodo p.projectID t = true → t.columnKey ∈ s.db.columnKeys p.projectID)
    {project : PublicProjectProjection} (hproject : loadEligiblePublicProjectTx s p.projectID p.slug = .ok project)
    {tag : PublicTagProjection} (htag : tag ∈ listPublicTagsTx rt s.db p.projectID)
    (hname : IsCanonicalTag rt tag.name) : Selects rt s p tag := by
  obtain ⟨query, hquery, hstore⟩ := normalizeQuery_tag hname
  obtain ⟨result, hread, hworkflow, hpages⟩ := h.readSnapshot_tag hproject hquery hstore
  have hkeys : (result.workflow.map (·.key)).Nodup := by
    rw [hworkflow]
    exact h.nodup_workflow_keys
  have hwithin : ∀ t ∈ s.db.todos, (isPublicTodo p.projectID t && decide (TaggedAs rt s.db t tag.name)) = true →
      t.columnKey ∈ result.workflow.map (·.key) := by
    intro t ht hshown
    rw [Bool.and_eq_true] at hshown
    rw [hworkflow, mem_workflow_keys]
    exact DB.mem_columnKeys.mp (hlanes t ht hshown.1)
  refine ⟨query, result, hquery, hread, ?_, ?_⟩
  · have htotals : result.lanes.map (fun lane => lane.2.totalCount) = (result.workflow.map (·.key)).map fun key =>
        (s.db.todos.filter fun t => t.columnKey == key &&
          (isPublicTodo p.projectID t && decide (TaggedAs rt s.db t tag.name))).length := by
      rw [hpages, List.map_map, List.map_map]
      refine List.map_congr_left fun column _ => ?_
      have hrows : s.db.todos.filter (publicTodoWhere s.db p.projectID column.key
          (resolvePublicTagFiltersTx rt s.db p.projectID (tagQuery tag.name)) false) =
          s.db.todos.filter fun t => t.columnKey == column.key &&
            (isPublicTodo p.projectID t && decide (TaggedAs rt s.db t tag.name)) :=
        List.filter_congr fun t ht => publicTodoWhere_tag ht
      show (publicLaneRows rt s.db p.projectID column.key query.storeQuery).length = _
      rw [publicLaneRows, length_orderBy, hstore, hrows]
      rfl
    rw [htotals, sum_filter_keys hkeys hwithin, (mem_listPublicTags htag).2, h.activeCount_eq]
  · intro t ht
    simp only [hstore, publicTodoWhere_tag ht, Bool.and_eq_true, beq_iff_eq, decide_eq_true_eq]
    constructor
    · rintro ⟨_, _, _, hshown⟩
      exact hshown
    · intro hshown
      obtain ⟨column, hcolumn, hkey⟩ := List.mem_map.mp (hwithin t ht (by simp [hshown]))
      exact ⟨column, hcolumn, hkey.symm, hshown⟩

end

/-- A public board with two todos, each with a tag of its own. -/
def twoTagBoard (first second : String) : PublicStore where
  db :=
    { (twoTodoBoard 1000).db with
      tags := [⟨1, some 1, first, 0, none, none⟩, ⟨2, some 2, second, 0, none, some "#ff0000"⟩]
      todoTags := [⟨1, 1⟩, ⟨2, 2⟩] }
  publicViewEnabled := [1]

theorem publicTable_twoTagBoard (first second : String) : PublicTable (twoTagBoard first second).db where
  todo_ids := (by decide : ([1, 2] : List ℤ).Nodup)
  local_ids := (by decide : ([(1, 1), (1, 2)] : List (ℤ × ℤ)).Nodup)
  todo_tags := (by decide : ([⟨1, 1⟩, ⟨2, 2⟩] : List TodoTagRow).Nodup)
  tag_ids := (by decide : ([1, 2] : List ℤ).Nodup)
  sprint_ids := List.nodup_nil
  column_keys := List.nodup_singleton _
  priority_keys := List.nodup_nil

end Scrumboy
