import Scrumboy.Trello.Keys

/-!
# The shape of the backup of a Trello board

What the backup of a board that is accepted looks like: one column for each open list, with a
key of its own, one column of done stories, and one story for each card, in the order of the
lists and the cards.
-/

set_option linter.dupNamespace false

namespace Scrumboy

open Go Sql

namespace TrelloBoard

variable (b : TrelloBoard)

/-- The position of the list, that of the card, and its id. -/
def cardKey (card : TrelloCard) : ℚ ×ₗ ℚ ×ₗ String :=
  toLex (((b.sourceList card).map (·.pos)).getD 0, toLex (card.pos, card.id))

def cardsInOrder : List TrelloCard := orderBy b.cardKey b.cards

def workflowLists : List TrelloList := workflowListsOf b.openLists

/-- The column that was made for a list. -/
def columnFor (p : ProjectExport) (l : TrelloList) : Option WorkflowColumnExport :=
  ((b.workflowLists.zip p.workflowColumns).find? (·.1.id == l.id)).map (·.2)

/-- The column where a card belongs: that of its list, or the one of done stories if the list is
closed. -/
def cardColumn (p : ProjectExport) (card : TrelloCard) : Option WorkflowColumnExport := do
  let list ← b.sourceList card
  let target ← b.targetList list
  b.columnFor p target

/-- The list that stands for done stories does not share its key: it is not the only open list,
and no name to the left of it leads to `done`. -/
def DoneKeyFree : Prop :=
  if b.openLists.length = 1 then ∀ l ∈ b.openLists, l.id ≠ syntheticDoneListID
  else ∀ (pre : List TrelloList) (l : TrelloList) post, b.openLists = pre ++ l :: post → l.id = syntheticDoneListID →
    ∀ m ∈ pre, Trello.workflowKeyFromName m.name ≠ "done"

/-- The first open list whose name leads to the key `in_progress`. -/
def inProgressList : Option TrelloList := b.workflowLists.find? (Claims "in_progress")

/-- No card goes to the column of that list. -/
def NoCardInProgress : Prop :=
  ∀ card ∈ b.cards, ∀ list ∈ b.sourceList card, ∀ target ∈ b.targetList list,
    b.inProgressList.map (·.id) ≠ some target.id

end TrelloBoard

/-- The backup has the shape of the board. -/
structure KeepsShape (b : TrelloBoard) (p : ProjectExport) : Prop where
  doneColumn : (p.workflowColumns.filter (·.isDone)).length = 1
  keys : ∀ c ∈ p.workflowColumns, IsColumnKey c.key
  distinct : (p.workflowColumns.map (·.key)).Nodup
  localIDs : p.todos.map (·.localID) = (List.range b.cards.length).map fun i : ℕ => (i : ℤ) + 1
  todos : List.Forall₂ (fun card t => ∃ list col, b.sourceList card = some list ∧
    b.cardColumn p card = some col ∧ t.title = cardTitle card list ∧ t.status = toUpper col.key)
    b.cardsInOrder p.todos
  ranks : p.todos.Pairwise fun t u => t.status = u.status → t.rank < u.rank

/-! ## Lists -/

section

variable {b : TrelloBoard}

theorem scanLists_ids (lists : List TrelloList) : ((scanLists lists).lists.map (·.id)).Nodup := by
  suffices h : ∀ s : ListScan, (s.lists.map (·.id)).Nodup →
      ((lists.foldl scanList s).lists.map (·.id)).Nodup from h {} List.nodup_nil
  induction lists with
  | nil => exact fun _ h => h
  | cons l lists ih =>
      intro s h
      refine ih (scanList s l) ?_
      unfold scanList
      dsimp only
      split
      · exact h
      · split
        · exact h
        · next hnew =>
          rw [List.map_append, List.map_singleton]
          exact List.nodup_append.mpr ⟨h, List.nodup_singleton _, fun a ha c hc => by
            rw [List.mem_singleton.mp hc]
            rintro rfl
            exact hnew ha⟩

theorem openLists_ids (b : TrelloBoard) : (b.openLists.map (·.id)).Nodup := by
  have hperm : (b.openLists.map (·.id)).Perm ((b.listsByID.filter fun l => !l.closed).map (·.id)) :=
    (orderBy_perm _ _).map _
  refine hperm.nodup_iff.mpr ((scanLists_ids b.lists).sublist ?_)
  exact List.filter_sublist.map _

theorem mem_openLists {l : TrelloList} : l ∈ b.openLists ↔ l ∈ b.listsByID ∧ l.closed = false := by
  rw [TrelloBoard.openLists, sortLists, mem_orderBy, List.mem_filter]
  simp

theorem detectDoneList_mem {lists : List TrelloList} {l : TrelloList} (h : detectDoneList lists = some l) :
    l ∈ lists := by
  unfold detectDoneList at h
  rcases Option.or_eq_some_iff.mp h with h | ⟨_, h⟩
  · exact List.mem_reverse.mp (List.mem_of_find?_eq_some h)
  · exact List.mem_of_getLast? h

theorem detectDoneList_isSome {lists : List TrelloList} (h : lists ≠ []) :
    ∃ l, detectDoneList lists = some l := by
  rw [← Option.isSome_iff_exists, detectDoneList, Option.isSome_or, List.getLast?_eq_some_getLast h]
  simp

/-- The lists of the workflow have ids of their own, unless the only list of the board has the
id of the one that is added. -/
theorem workflowLists_ids (b : TrelloBoard) :
    (b.workflowLists.map (·.id)).Nodup ∨ ∀ l ∈ b.workflowLists, l.id = syntheticDoneListID := by
  unfold TrelloBoard.workflowLists workflowListsOf
  split
  · next hlen =>
    obtain ⟨l, hl⟩ := List.length_eq_one_iff.mp hlen
    rw [hl]
    by_cases hid : l.id = syntheticDoneListID
    · right
      intro m hm
      rcases List.mem_cons.mp hm with rfl | hm
      · exact hid
      · rw [List.mem_singleton.mp hm]
        rfl
    · left
      simpa [synthesizedDoneList] using hid
  · exact .inl (openLists_ids b)

theorem doneList_spec (hopen : b.openLists ≠ []) :
    ∃ l, b.doneList = some l ∧ l.id ∈ b.workflowLists.map (·.id) := by
  unfold TrelloBoard.doneList doneListOf TrelloBoard.workflowLists workflowListsOf
  split
  · refine ⟨synthesizedDoneList, rfl, List.mem_map_of_mem ?_⟩
    exact List.mem_append_right _ (List.mem_singleton_self _)
  · obtain ⟨l, hl⟩ := detectDoneList_isSome hopen
    exact ⟨l, hl, List.mem_map_of_mem (detectDoneList_mem hl)⟩

/-! ## Columns -/

/-- The keys of the columns of a board. -/
structure BoardKeyed (b : TrelloBoard) (keys : List String) : Prop where
  assign : assignKeys (if b.openLists.length = 1 then ["done"] else []) b.workflowLists = some keys
  columns : b.workflow.columns = (b.workflowLists.zip keys).zipIdx.map fun p =>
    workflowColumn ((b.doneList.map (·.id)).getD "") p.1.1 p.1.2 p.2
  listToColumnKey : b.workflow.listToColumnKey = ((b.workflowLists.map (·.id)).zip keys).reverse

theorem exists_boardKeyed (h : b.workflow.errors = []) : ∃ keys, BoardKeyed b keys := by
  obtain ⟨keys, hassign, hcolumns, hmap⟩ := foldl_workflowStep h
  rw [List.nil_append] at hcolumns
  rw [List.append_nil] at hmap
  exact ⟨keys, hassign, hcolumns, hmap⟩

namespace BoardKeyed

variable {keys : List String} (h : BoardKeyed b keys)

include h

theorem length_eq : keys.length = b.workflowLists.length := assignKeys_length h.assign

theorem columns_keys : b.workflow.columns.map (·.key) = keys := by
  rw [h.columns, List.map_map]
  calc (b.workflowLists.zip keys).zipIdx.map (fun p => p.1.2)
      = ((b.workflowLists.zip keys).zipIdx.map (·.1)).map (·.2) := by rw [List.map_map]; rfl
    _ = keys := by
      rw [List.zipIdx_map_fst]
      exact List.map_snd_zip h.length_eq.le

theorem columns_isDone :
    b.workflow.columns.map (·.isDone) =
      (b.workflowLists.map (·.id)).map (· == (b.doneList.map (·.id)).getD "") := by
  rw [h.columns, List.map_map]
  calc (b.workflowLists.zip keys).zipIdx.map (fun p => p.1.1.id == (b.doneList.map (·.id)).getD "")
      = ((b.workflowLists.zip keys).zipIdx.map (·.1)).map
          (fun p => p.1.id == (b.doneList.map (·.id)).getD "") := by rw [List.map_map]; rfl
    _ = (b.workflowLists.zip keys).map (fun p => p.1.id == (b.doneList.map (·.id)).getD "") := by
      rw [List.zipIdx_map_fst]
    _ = ((b.workflowLists.zip keys).map (·.1)).map (fun l => l.id == (b.doneList.map (·.id)).getD "") := by
      rw [List.map_map]; rfl
    _ = _ := by
      rw [List.map_fst_zip h.length_eq.ge, List.map_map]
      rfl

theorem columns_valid : ∀ c ∈ b.workflow.columns, IsColumnKey c.key := by
  intro c hc
  have hmem : c.key ∈ keys := h.columns_keys ▸ List.mem_map_of_mem hc
  exact isColumnKey_of_isValidWorkflowKey (assignKeys_valid h.assign c.key hmem)

/-- Lists with one id have one key. -/
theorem eq_of_id_eq {i j : ℕ} {l m : TrelloList} {k k' : String} (hl : b.workflowLists[i]? = some l)
    (hm : b.workflowLists[j]? = some m) (hid : l.id = m.id) (hk : keys[i]? = some k)
    (hk' : keys[j]? = some k') : k = k' := by
  rcases workflowLists_ids b with hnodup | hall
  · have hij : i = j := by
      have hi : (b.workflowLists.map (·.id))[i]? = some l.id := by rw [List.getElem?_map, hl]; rfl
      have hj : (b.workflowLists.map (·.id))[j]? = some l.id := by rw [List.getElem?_map, hm, hid]; rfl
      obtain ⟨hlt, _⟩ := List.getElem?_eq_some_iff.mp hi
      exact (List.getElem?_inj hlt hnodup).mp (hi.trans hj.symm)
    subst hij
    exact Option.some.inj (hk.symm.trans hk')
  · have hdone : ∀ {i : ℕ} {l : TrelloList} {k : String}, b.workflowLists[i]? = some l →
        keys[i]? = some k → k = "done" := by
      intro i l k hl hk
      obtain ⟨used, hkey⟩ := assignKeys_getElem? h.assign hl hk
      rw [keyFor, if_pos (hall l (List.mem_of_getElem? hl))] at hkey
      exact (Option.some.inj hkey).symm
    rw [hdone hl hk, hdone hm hk']

/-- The key that cards of a list get. -/
theorem columnKey_spec {l : TrelloList} (hl : l.id ∈ b.workflowLists.map (·.id)) :
    ∃ (i : ℕ) (m : TrelloList), b.workflowLists[i]? = some m ∧ m.id = l.id ∧
      keys[i]? = some (b.columnKey l) := by
  have hmem : l.id ∈ (((b.workflowLists.map (·.id)).zip keys).reverse).map (·.1) := by
    rw [List.map_reverse, List.mem_reverse, List.map_fst_zip (by rw [List.length_map, h.length_eq])]
    exact hl
  obtain ⟨k, hk⟩ : ∃ k, ((b.workflowLists.map (·.id)).zip keys).reverse.lookup l.id = some k := by
    rw [← Option.isSome_iff_exists, List.lookup_isSome_iff]
    obtain ⟨p, hp, hid⟩ := List.mem_map.mp hmem
    exact ⟨p, hp, by rw [hid, beq_self_eq_true]⟩
  have hpair : (l.id, k) ∈ (b.workflowLists.map (·.id)).zip keys := by
    obtain ⟨l₁, l₂, heq, _⟩ := List.lookup_eq_some_iff.mp hk
    rw [← List.mem_reverse, heq]
    exact List.mem_append_right _ List.mem_cons_self
  obtain ⟨i, hi⟩ := List.getElem?_of_mem hpair
  rw [List.getElem?_zip_eq_some] at hi
  obtain ⟨hid, hkey⟩ := hi
  rw [List.getElem?_map] at hid
  obtain ⟨m, hm, hmid⟩ := Option.map_eq_some_iff.mp hid
  refine ⟨i, m, hm, hmid, ?_⟩
  rw [TrelloBoard.columnKey, h.listToColumnKey, hk]
  exact hkey

/-- It is the key of the column that was made for the list. -/
theorem columnFor_spec {p : ProjectExport} (hp : p.workflowColumns = b.workflow.columns) {l : TrelloList}
    (hl : l.id ∈ b.workflowLists.map (·.id)) :
    ∃ col, b.columnFor p l = some col ∧ col.key = b.columnKey l ∧ col ∈ p.workflowColumns := by
  obtain ⟨i, m, hm, hid, hkey⟩ := h.columnKey_spec hl
  have hlen : b.workflow.columns.length = b.workflowLists.length := by
    rw [← h.length_eq, ← h.columns_keys, List.length_map]
  have hfound : ((b.workflowLists.zip p.workflowColumns).find? (·.1.id == l.id)).isSome = true := by
    rw [List.find?_isSome]
    obtain ⟨hi, hget⟩ := List.getElem?_eq_some_iff.mp hm
    have hi' : i < p.workflowColumns.length := by rw [hp, hlen]; exact hi
    refine ⟨(b.workflowLists[i], p.workflowColumns[i]), ?_, ?_⟩
    · exact List.mem_iff_getElem.mpr ⟨i, by rw [List.length_zip]; omega, List.getElem_zip⟩
    · rw [hget, hid, beq_self_eq_true]
  obtain ⟨⟨m', col⟩, hfind⟩ := Option.isSome_iff_exists.mp hfound
  have hid' : m'.id = l.id := by simpa using List.find?_some hfind
  obtain ⟨j, hj⟩ := List.getElem?_of_mem (List.mem_of_find?_eq_some hfind)
  rw [List.getElem?_zip_eq_some] at hj
  refine ⟨col, ?_, ?_, List.mem_of_getElem? hj.2⟩
  · rw [TrelloBoard.columnFor, hfind]
    rfl
  · refine h.eq_of_id_eq hj.1 hm (hid'.trans hid.symm) ?_ hkey
    rw [← h.columns_keys, List.getElem?_map, ← hp, hj.2]
    rfl

/-- The keys of several lists are distinct if the fixed key is not taken. -/
theorem nodup_iff_of_many (hmany : b.openLists.length ≠ 1) : keys.Nodup ↔ b.DoneKeyFree := by
  have hassign : assignKeys [] b.openLists = some keys := by
    have hassign := h.assign
    rwa [if_neg hmany, TrelloBoard.workflowLists, workflowListsOf, if_neg hmany] at hassign
  -- the keys before and after the list with the fixed key
  have hsplit : ∀ pre l post, b.openLists = pre ++ l :: post → l.id = syntheticDoneListID →
      (keys.Nodup ↔ ∀ m ∈ pre, Trello.workflowKeyFromName m.name ≠ "done") := by
    intro pre l post heq hid
    have hids := openLists_ids b
    rw [heq, List.map_append, List.map_cons, hid] at hids
    obtain ⟨_, hpost, hpre⟩ := List.nodup_append.mp hids
    have hpre : ∀ m ∈ pre, m.id ≠ syntheticDoneListID := fun m hm =>
      hpre m.id (List.mem_map_of_mem hm) _ List.mem_cons_self
    have hpost : ∀ m ∈ post, m.id ≠ syntheticDoneListID := fun m hm hmid =>
      (List.nodup_cons.mp hpost).1 (hmid ▸ List.mem_map_of_mem hm)
    rw [heq] at hassign
    obtain ⟨k₁, k₂, hk₁, hk₂, rfl⟩ := assignKeys_append hassign
    obtain ⟨key, rest, hkey, hrest, rfl⟩ := assignKeys_cons hk₂
    rw [keyFor, if_pos hid, Option.some.injEq] at hkey
    subst hkey
    obtain ⟨hnodup₁, _⟩ := assignKeys_nodup hk₁ hpre
    obtain ⟨hnodup₂, hfresh⟩ := assignKeys_nodup hrest hpost
    have hdone := mem_assignKeys_iff hk₁ hpre isValidWorkflowKey_done not_endsInDigit_done List.not_mem_nil
    have hiff : (k₁ ++ "done" :: rest).Nodup ↔ "done" ∉ k₁ := by
      rw [List.nodup_append, List.nodup_cons]
      constructor
      · intro hall hmem
        exact hall.2.2 "done" hmem "done" List.mem_cons_self rfl
      · intro hnot
        refine ⟨hnodup₁, ⟨fun hmem => hfresh _ hmem List.mem_cons_self, hnodup₂⟩, fun a ha c hc => ?_⟩
        rintro rfl
        rcases List.mem_cons.mp hc with rfl | hc
        · exact hnot ha
        · refine hfresh a hc (List.mem_cons_of_mem _ (List.mem_append_left _ (List.mem_reverse.mpr ha)))
    rw [hiff, hdone]
    push Not
    rfl
  rw [TrelloBoard.DoneKeyFree, if_neg hmany]
  constructor
  · exact fun hnodup pre l post heq hid => (hsplit pre l post heq hid).mp hnodup
  · intro hfree
    by_cases hexists : ∃ l ∈ b.openLists, l.id = syntheticDoneListID
    · obtain ⟨l, hl, hid⟩ := hexists
      obtain ⟨pre, post, heq⟩ := List.append_of_mem hl
      exact (hsplit pre l post heq hid).mpr (hfree pre l post heq hid)
    · push Not at hexists
      exact (assignKeys_nodup hassign hexists).1

/-- Beside a single list, the keys are distinct if it does not have the id of the added one. -/
theorem nodup_iff_of_single (hone : b.openLists.length = 1) : keys.Nodup ↔ b.DoneKeyFree := by
  obtain ⟨l, hl⟩ := List.length_eq_one_iff.mp hone
  have hassign := h.assign
  rw [if_pos hone, TrelloBoard.workflowLists, workflowListsOf, if_pos hone, hl] at hassign
  obtain ⟨key, rest, hkey, hrest, rfl⟩ := assignKeys_cons hassign
  obtain ⟨key', rest', hkey', hrest', rfl⟩ := assignKeys_cons hrest
  cases hrest'
  cases hkey'
  rw [TrelloBoard.DoneKeyFree, if_pos hone, hl, List.forall_mem_singleton]
  by_cases hid : l.id = syntheticDoneListID
  · rw [keyFor, if_pos hid] at hkey
    cases hkey
    simp [hid]
  · rw [keyFor, if_neg hid] at hkey
    have hnew := (uniqueWorkflowKey_spec hkey).1
    simpa [hid] using hnew

theorem nodup_iff : keys.Nodup ↔ b.DoneKeyFree := by
  by_cases hone : b.openLists.length = 1
  · exact h.nodup_iff_of_single hone
  · exact h.nodup_iff_of_many hone

omit h in
theorem ids_nodup_of_doneKeyFree (hfree : b.DoneKeyFree) : (b.workflowLists.map (·.id)).Nodup := by
  rcases workflowLists_ids b with hnodup | hall
  · exact hnodup
  · by_cases hone : b.openLists.length = 1
    · rw [TrelloBoard.DoneKeyFree, if_pos hone] at hfree
      obtain ⟨l, hl⟩ := List.length_eq_one_iff.mp hone
      have hmem : l ∈ b.openLists := hl ▸ List.mem_singleton_self l
      have hmem' : l ∈ b.workflowLists := by
        rw [TrelloBoard.workflowLists, workflowListsOf, if_pos hone]
        exact List.mem_append_left _ hmem
      exact absurd (hall l hmem') (hfree l hmem)
    · rw [TrelloBoard.workflowLists, workflowListsOf, if_neg hone]
      exact openLists_ids b

/-- There is one column of done stories when the lists have ids of their own. -/
theorem doneColumn_of_nodup (hopen : b.openLists ≠ []) (hnodup : (b.workflowLists.map (·.id)).Nodup) :
    (b.workflow.columns.filter (·.isDone)).length = 1 := by
  obtain ⟨l, hl, hmem⟩ := doneList_spec hopen
  have hdone := h.columns_isDone
  rw [hl] at hdone
  calc (b.workflow.columns.filter (·.isDone)).length
      = (b.workflow.columns.map (·.isDone)).countP id := by
        rw [List.countP_map, List.countP_eq_length_filter]
        rfl
    _ = (b.workflowLists.map (·.id)).count l.id := by
        rw [hdone, List.countP_map]
        rfl
    _ = 1 := List.count_eq_one_of_mem hnodup hmem

end BoardKeyed

/-! ## Cards -/

/-- The board leads to no error. -/
structure Accepted (b : TrelloBoard) : Prop where
  hardErrors : b.hardErrors = []
  cardErrors : b.cardErrors = []

theorem transformBoard_accepted {nowMs : ℤ} {data : ExportData}
    (h : (transformBoard b nowMs).exportData = some data) :
    Accepted b ∧ data = { scope := "project", projects := [b.projectExport nowMs] } := by
  unfold transformBoard at h
  split at h
  · cases h
  · next hhard =>
    split at h
    · cases h
    · next hcard => exact ⟨⟨not_not.mp hhard, not_not.mp hcard⟩, (Option.some.inj h).symm⟩

theorem scanCard_errors {s : List String × List String} (h : s.1 ≠ []) (card : TrelloCard) :
    (scanCard s card).1 ≠ [] := by
  unfold scanCard
  dsimp only
  split_ifs <;> simp [h]

theorem cardScan_errors {cards : List TrelloCard} {s : List String × List String} {card : TrelloCard}
    (hcard : card ∈ cards) (hid : trimSpace card.id = "") : (cards.foldl scanCard s).1 ≠ [] := by
  have hgrows : ∀ (cards : List TrelloCard) (s : List String × List String), s.1 ≠ [] →
      (cards.foldl scanCard s).1 ≠ [] := by
    intro cards
    induction cards with
    | nil => exact fun _ h => h
    | cons c cards ih => exact fun s h => ih _ (scanCard_errors h c)
  induction cards generalizing s with
  | nil => simp at hcard
  | cons c cards ih =>
      rcases List.mem_cons.mp hcard with rfl | hcard
      · refine hgrows cards _ ?_
        rw [scanCard, if_pos hid]
        simp
      · exact ih hcard

namespace Accepted

variable (h : Accepted b)

include h

theorem workflow_errors : b.workflow.errors = [] := (List.append_eq_nil_iff.mp h.hardErrors).2

theorem cardScan_errors_eq : b.cardScan.1 = [] :=
  (List.append_eq_nil_iff.mp (List.append_eq_nil_iff.mp (List.append_eq_nil_iff.mp h.hardErrors).1).1).2

theorem boardErrors_eq : b.boardErrors = [] := by
  have h := h.hardErrors
  simp only [TrelloBoard.hardErrors, List.append_eq_nil_iff] at h
  exact h.1.1.1.1.1.2

theorem openLists_ne_nil : b.openLists ≠ [] := by
  intro hnil
  have hboard := h.boardErrors_eq
  simp [TrelloBoard.boardErrors, hnil] at hboard

theorem exists_sourceList {card : TrelloCard} (hcard : card ∈ b.cards) :
    ∃ list, b.sourceList card = some list ∧ trimSpace card.id ≠ "" := by
  have hid : trimSpace card.id ≠ "" := fun hid => cardScan_errors hcard hid h.cardScan_errors_eq
  have hnone : (b.convertCard card).1 = [] := List.flatMap_eq_nil_iff.mp h.cardErrors card hcard
  cases hlist : b.sourceList card with
  | none => simp [TrelloBoard.convertCard, hid, hlist] at hnone
  | some list => exact ⟨list, rfl, hid⟩

/-- The list whose column a card goes to is one of the workflow. -/
theorem targetList_spec {list : TrelloList} (hlist : list ∈ b.listsByID) :
    ∃ target, b.targetList list = some target ∧ target.id ∈ b.workflowLists.map (·.id) := by
  unfold TrelloBoard.targetList
  split
  · exact doneList_spec h.openLists_ne_nil
  · next hclosed =>
    refine ⟨list, rfl, List.mem_map_of_mem ?_⟩
    have hopen : list ∈ b.openLists := mem_openLists.mpr ⟨hlist, by simpa using hclosed⟩
    unfold TrelloBoard.workflowLists workflowListsOf
    split
    · exact List.mem_append_left _ hopen
    · exact hopen

end Accepted

/-- A card as it is converted, if it has a list. -/
def TrelloBoard.converted (b : TrelloBoard) (card : TrelloCard) : ConvertedCard :=
  let list := (b.sourceList card).getD ⟨"", "", 0, false⟩
  { card := card
    sourceList := list
    targetColumnKey := ((b.targetList list).map b.columnKey).getD ""
    title := cardTitle card list
    body := buildTodoBody b.texts card list
    tagNames := b.cardTagNames card }

theorem Accepted.convertedCards_eq (h : Accepted b) : b.convertedCards = b.cardsInOrder.map b.converted := by
  have hconvert : b.cards.filterMap (fun card => (b.convertCard card).2) = b.cards.map b.converted := by
    rw [← List.filterMap_eq_map]
    apply List.filterMap_congr
    intro card hcard
    obtain ⟨list, hlist, hid⟩ := h.exists_sourceList hcard
    simp [TrelloBoard.convertCard, TrelloBoard.converted, hid, hlist]
  rw [TrelloBoard.convertedCards, hconvert, TrelloBoard.cardsInOrder]
  refine (map_orderBy (fun card => ?_) b.cards).symm
  cases hlist : b.sourceList card <;>
    simp [ConvertedCard.sortKey, TrelloBoard.cardKey, TrelloBoard.converted, hlist]

section

variable {nowMs : ℤ}

theorem exportCards_localIDs (ranks : String → ℤ) (n : ℤ) (cards : List ConvertedCard) :
    (exportCards nowMs ranks n cards).map (·.localID) =
      (List.range cards.length).map fun i : ℕ => (i : ℤ) + n := by
  induction cards generalizing ranks n with
  | nil => rfl
  | cons c cards ih =>
      rw [exportCards, List.map_cons, ih, List.length_cons, List.range_succ_eq_map, List.map_cons, List.map_map]
      refine congrArg₂ List.cons (by simp) (List.map_congr_left fun i _ => ?_)
      simp only [Function.comp_apply, Nat.succ_eq_add_one]
      omega

theorem exportCards_forall₂ (ranks : String → ℤ) (n : ℤ) (cards : List ConvertedCard) :
    List.Forall₂ (fun c t => t.title = c.title ∧ t.status = toUpper c.targetColumnKey) cards
      (exportCards nowMs ranks n cards) := by
  induction cards generalizing ranks n with
  | nil => exact .nil
  | cons c cards ih => exact .cons ⟨rfl, rfl⟩ (ih _ _)

/-- A story is above all that its column has so far. -/
theorem lt_rank_of_mem_exportCards {ranks : String → ℤ} {n : ℤ} {cards : List ConvertedCard} {t : TodoExport}
    (ht : t ∈ exportCards nowMs ranks n cards) :
    ∃ c ∈ cards, t.status = toUpper c.targetColumnKey ∧ ranks c.targetColumnKey < t.rank := by
  induction cards generalizing ranks n with
  | nil => simp [exportCards] at ht
  | cons c cards ih =>
      rw [exportCards] at ht
      rcases List.mem_cons.mp ht with rfl | ht
      · refine ⟨c, List.mem_cons_self, rfl, ?_⟩
        simp [Trello.rankStep]
      · obtain ⟨c', hc', hstatus, hlt⟩ := ih ht
        refine ⟨c', List.mem_cons_of_mem c hc', hstatus, lt_of_le_of_lt ?_ hlt⟩
        by_cases hkey : c'.targetColumnKey = c.targetColumnKey
        · rw [hkey, Function.update_self]
          simp [Trello.rankStep]
        · rw [Function.update_of_ne hkey]

theorem exportCards_ranks {ranks : String → ℤ} {n : ℤ} {cards : List ConvertedCard}
    (hkeys : ∀ c ∈ cards, IsColumnKey c.targetColumnKey) :
    (exportCards nowMs ranks n cards).Pairwise fun t u => t.status = u.status → t.rank < u.rank := by
  induction cards generalizing ranks n with
  | nil => exact .nil
  | cons c cards ih =>
      refine List.Pairwise.cons (fun u hu hstatus => ?_) (ih fun d hd => hkeys d (List.mem_cons_of_mem c hd))
      obtain ⟨d, hd, hd', hlt⟩ := lt_rank_of_mem_exportCards hu
      have hkey : d.targetColumnKey = c.targetColumnKey := by
        have hupper : toUpper d.targetColumnKey = toUpper c.targetColumnKey := hd'.symm.trans hstatus.symm
        rw [← (hkeys d (List.mem_cons_of_mem c hd)).toLower_trimSpace_toUpper, hupper,
          (hkeys c List.mem_cons_self).toLower_trimSpace_toUpper]
      rwa [hkey] at hlt

end

/-- Where a card of the board goes. -/
theorem Accepted.card_spec {keys : List String} (h : Accepted b) (hkeyed : BoardKeyed b keys) {p : ProjectExport}
    (hp : p.workflowColumns = b.workflow.columns) {card : TrelloCard} (hcard : card ∈ b.cards) :
    ∃ list target col, b.sourceList card = some list ∧ b.targetList list = some target ∧
      b.cardColumn p card = some col ∧ col ∈ p.workflowColumns ∧ target.id ∈ b.workflowLists.map (·.id) ∧
      col.key = b.columnKey target ∧ (b.converted card).targetColumnKey = col.key ∧
      (b.converted card).title = cardTitle card list := by
  obtain ⟨list, hlist, _⟩ := h.exists_sourceList hcard
  obtain ⟨target, htarget, hid⟩ := h.targetList_spec (List.mem_of_find?_eq_some hlist)
  obtain ⟨col, hcol, hkey, hmem⟩ := hkeyed.columnFor_spec hp hid
  refine ⟨list, target, col, hlist, htarget, ?_, hmem, hid, hkey, ?_, ?_⟩
  · rw [TrelloBoard.cardColumn, hlist]
    simp only [bind, Option.bind_some, htarget, hcol]
  · simp [TrelloBoard.converted, hlist, htarget, hkey]
  · simp [TrelloBoard.converted, hlist]

theorem mem_cardsInOrder {card : TrelloCard} : card ∈ b.cardsInOrder ↔ card ∈ b.cards := mem_orderBy

/-- The backup has the shape of the board exactly when the key of done stories is free. -/
theorem Accepted.keepsShape_iff (h : Accepted b) (nowMs : ℤ) :
    KeepsShape b (b.projectExport nowMs) ↔ b.DoneKeyFree := by
  obtain ⟨keys, hkeyed⟩ := exists_boardKeyed h.workflow_errors
  constructor
  · intro hshape
    rw [← hkeyed.nodup_iff, ← hkeyed.columns_keys]
    exact hshape.distinct
  · intro hfree
    refine ⟨?_, hkeyed.columns_valid, ?_, ?_, ?_, ?_⟩
    · exact hkeyed.doneColumn_of_nodup h.openLists_ne_nil (BoardKeyed.ids_nodup_of_doneKeyFree hfree)
    · rw [TrelloBoard.projectExport, hkeyed.columns_keys, hkeyed.nodup_iff]
      exact hfree
    · rw [TrelloBoard.projectExport, exportCards_localIDs, h.convertedCards_eq, List.length_map,
        TrelloBoard.cardsInOrder, length_orderBy]
    · have htodos := @exportCards_forall₂ nowMs (fun _ => 0) 1 b.convertedCards
      rw [h.convertedCards_eq, List.forall₂_map_left_iff] at htodos
      rw [TrelloBoard.projectExport, h.convertedCards_eq]
      refine (List.forall₂_and_left _ _).mpr ⟨fun card hcard => mem_cardsInOrder.mp hcard, htodos⟩ |>.imp ?_
      rintro card t ⟨hcard, htitle, hstatus⟩
      obtain ⟨list, _, col, hlist, _, hcol, _, _, _, hkey, htitle'⟩ :=
        h.card_spec hkeyed (p := b.projectExport nowMs) rfl hcard
      exact ⟨list, col, hlist, hcol, htitle.trans htitle', hkey ▸ hstatus⟩
    · refine exportCards_ranks fun c hc => ?_
      rw [h.convertedCards_eq] at hc
      obtain ⟨card, hcard, rfl⟩ := List.mem_map.mp hc
      obtain ⟨_, _, col, _, _, _, hmem, _, _, hkey, _⟩ :=
        h.card_spec hkeyed (p := b.projectExport nowMs) rfl (mem_cardsInOrder.mp hcard)
      exact hkey ▸ hkeyed.columns_valid col hmem

end

end Scrumboy
