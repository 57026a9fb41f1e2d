import Scrumboy.Store.Expiry
import Scrumboy.Web.DragDrop

/-!
# Where a dropped card lands

The client names the cards next to the place of a drop, as far as it has loaded the lane, and the
server turns one neighbour into a rank a fixed step away from it. Cards that are not loaded may
stand within that step.
-/

set_option linter.dupNamespace false

namespace Scrumboy

open Go Sql

/-! ## The request -/

/-- Names of lanes from before workflows had keys of their own. -/
def legacyLaneNames : List (String × String) :=
  [("BACKLOG", "backlog"), ("NOT_STARTED", "not_started"), ("IN_PROGRESS", "doing"), ("TESTING", "testing"),
    ("DONE", "done")]

def normalizeLaneKey (v : String) : String :=
  (legacyLaneNames.lookup (trimSpace (toUpper v))).getD (toLower (trimSpace v))

/-- The handler of a move, on a project that was resolved. -/
def handleMove (ctx : Ctx) (db : DB) (projectID : ℤ) (m : MoveRequest) : Result (DB × TodoRow) := do
  let toColumnKey := if m.toStatus = "" then "" else normalizeLaneKey m.toStatus
  reject (toColumnKey = "") ⟨.validation, "missing toColumnKey"⟩
  moveTodoByLocalID ctx db projectID m.todoLocalId toColumnKey m.afterId m.beforeId

/-! ## The drop -/

/-- The cards of a lane of which some are loaded, without the one that is dragged. -/
def dropList (db : DB) (projectID : ℤ) (key : String) (loaded : ℕ) (card : TodoRow) : List TodoRow :=
  ((orderBy TodoRow.slot (db.lane projectID key)).take loaded).filter (·.id ≠ card.id)

def parseLocalId (t : TodoRow) : Option ℤ := if 0 < t.localID then some t.localID else none

/-- The card that is displayed above the place `i`. -/
def cardAbove (shown : List TodoRow) : ℕ → Option TodoRow
  | 0 => none
  | i + 1 => shown[i]?

/-- A drop of a card on the list of a lane, at the place `i` among the cards that are shown. -/
def dropEvent (card : TodoRow) (key : String) (oldIndex i : ℕ) (shown : List TodoRow) : DropEvent where
  todoLocalId := parseLocalId card
  toStatus := key
  fromStatus := some card.columnKey
  sameList := card.columnKey == key
  oldIndex := oldIndex
  newIndex := i
  previousSibling := (cardAbove shown i).bind parseLocalId
  nextSibling := shown[i]?.bind parseLocalId

/-- The keys of the todos. -/
structure DropTable (db : DB) : Prop where
  ids : (db.todos.map (·.id)).Nodup
  local_ids : (db.todos.map fun t => (t.projectID, t.localID)).Nodup
  local_pos : ∀ t ∈ db.todos, 0 < t.localID

/-- The card stands in the lane right behind another one, or first. -/
def LandsBehind (db : DB) (projectID : ℤ) (key : String) (cardID : ℤ) (above : Option ℤ) : Prop :=
  ∃ row ∈ db.lane projectID key, row.id = cardID ∧
    match above with
    | none => ∀ t ∈ db.lane projectID key, t.id ≠ cardID → row.slot < t.slot
    | some id => ∃ a ∈ db.lane projectID key, a.id = id ∧ a.slot < row.slot ∧
        ∀ t ∈ db.lane projectID key, ¬ (a.slot < t.slot ∧ t.slot < row.slot)

instance (db : DB) (projectID : ℤ) (key : String) (cardID : ℤ) :
    ∀ above, Decidable (LandsBehind db projectID key cardID above)
  | none => inferInstanceAs (Decidable (∃ row ∈ db.lane projectID key, row.id = cardID ∧
      ∀ t ∈ db.lane projectID key, t.id ≠ cardID → row.slot < t.slot))
  | some id => inferInstanceAs (Decidable (∃ row ∈ db.lane projectID key, row.id = cardID ∧
      ∃ a ∈ db.lane projectID key, a.id = id ∧ a.slot < row.slot ∧
        ∀ t ∈ db.lane projectID key, ¬ (a.slot < t.slot ∧ t.slot < row.slot)))

/-- The other cards behind the one displayed above leave room for a step and the card. With none
displayed there is no other card. -/
def HasStep (db : DB) (projectID : ℤ) (key : String) (cardID : ℤ) : Option TodoRow → Prop
  | none => ∀ t ∈ db.lane projectID key, t.id = cardID
  | some a => ∀ t ∈ db.lane projectID key, t.id ≠ cardID → a.slot < t.slot →
      toLex (a.rank + rankStep, cardID) < t.slot

section

variable {db db' : DB} {projectID : ℤ} {key : String} {card row : TodoRow} {ctx : Ctx}

theorem normalizeLaneKey_eq (h : IsColumnKey key) :
    normalizeLaneKey key = if key = "in_progress" then "doing" else key := by
  split_ifs with hkey
  · subst hkey
    decide +kernel
  · have hback := h.toLower_trimSpace_toUpper
    unfold normalizeLaneKey
    generalize trimSpace (toUpper key) = upper at hback
    cases hlookup : legacyLaneNames.lookup upper with
    | none => rw [Option.getD_none, h.1, h.toLower_eq]
    | some name =>
        obtain ⟨l₁, l₂, hmem, _⟩ := List.lookup_eq_some_iff.mp hlookup
        have hmem : (upper, name) ∈ legacyLaneNames := by
          rw [hmem]
          exact List.mem_append_right _ List.mem_cons_self
        have hall : ∀ entry ∈ legacyLaneNames, toLower entry.1 = entry.2 ∨ toLower entry.1 = "in_progress" := by
          decide +kernel
        rw [Option.getD_some, ← hback]
        rcases hall _ hmem with hsame | hprogress
        · exact hsame.symm
        · exact absurd (hback.symm.trans hprogress) hkey

/-- What the end of the drag sends, without a filter and in manual order. -/
theorem handleEnd_dropEvent {p p' : DragPage} {c : DragCallbacks} {oldIndex i : ℕ} {shown : List TodoRow}
    {m : MoveRequest} (hsort : isChronologicalSortActive p.filters = false)
    (hfilter : hasActiveBoardSubsetFilter p.filters = false)
    (h : p.handleEnd c (dropEvent card key oldIndex i shown) = (p', .move m)) :
    key ≠ "" ∧ parseLocalId card = some m.todoLocalId ∧ m.toStatus = key ∧
      m.afterId = (cardAbove shown i).bind parseLocalId ∧ m.beforeId = shown[i]?.bind parseLocalId := by
  have hsend : ∀ (p : DragPage) (id : ℤ) (afterId beforeId : Option ℤ),
      (p.sendMove c (dropEvent card key oldIndex i shown) id afterId beforeId).2 = .move m →
        m.todoLocalId = id ∧ m.toStatus = key ∧ m.afterId = afterId ∧ m.beforeId = beforeId := by
    intro p id afterId beforeId hmove
    unfold DragPage.sendMove at hmove
    split_ifs at hmove
    · cases hmove
    · cases hmove
    · obtain rfl := DropOutcome.move.inj hmove
      exact ⟨rfl, rfl, rfl, rfl⟩
  have h : (p.handleEnd c (dropEvent card key oldIndex i shown)).2 = .move m := by rw [h]
  unfold DragPage.handleEnd at h
  split_ifs at h with hcurrent hflight
  have hmanual : c.chronological = false := by
    rw [DragPage.callbackIsCurrent, Bool.and_eq_false_iff, not_or] at hcurrent
    simpa [hsort] using hcurrent.2
  rw [DragPage.tryMove] at h
  cases hid : parseLocalId card with
  | none =>
      rw [show (dropEvent card key oldIndex i shown).todoLocalId = none from hid] at h
      cases h
  | some id =>
      rw [show (dropEvent card key oldIndex i shown).todoLocalId = some id from hid] at h
      dsimp only at h
      have hnotab : ¬ (dropEvent card key oldIndex i shown).isTabDrop = true := Bool.false_ne_true
      have hall : ¬ (hasActiveBoardSubsetFilter { p with dragInProgress := false }.filters = true ∧
          (dropEvent card key oldIndex i shown).nextSibling = none) :=
        fun hsubset => Bool.false_ne_true (hfilter.symm.trans hsubset.1)
      rw [hmanual, if_neg Bool.false_ne_true, if_neg hnotab, if_neg hall] at h
      split_ifs at h with hempty
      · cases h
      · obtain ⟨hid, hstatus, hafter, hbefore⟩ := hsend _ _ _ _ h
        exact ⟨hempty, congrArg some hid.symm, hstatus, hafter, hbefore⟩

/-! ## The lane behind the request -/

theorem todoByLocalID_eq (hlocals : (db.todos.map fun t => (t.projectID, t.localID)).Nodup)
    (hcard : card ∈ db.todos) : todoByLocalID db card.projectID card.localID = some card := by
  cases hfind : todoByLocalID db card.projectID card.localID with
  | none =>
      have hno := List.find?_eq_none.mp hfind card hcard
      simp at hno
  | some t =>
      have hsel := List.find?_some hfind
      rw [Bool.and_eq_true, beq_iff_eq, beq_iff_eq] at hsel
      rw [List.inj_on_of_nodup_map hlocals (List.mem_of_find?_eq_some hfind) hcard (Prod.ext hsel.1 hsel.2)]

/-- The cards of a list that is sorted come before a card of a prefix or behind it. -/
theorem le_or_le_cardAbove {all shown : List TodoRow} (hsorted : all.Pairwise fun a b => a.slot < b.slot)
    (hbegins : shown <+: all) {i : ℕ} {b t : TodoRow} (hb : shown[i]? = some b) (ht : t ∈ all) :
    b.slot ≤ t.slot ∨ ∃ a ∈ cardAbove shown i, t.slot ≤ a.slot := by
  obtain ⟨j, hj, rfl⟩ := List.mem_iff_getElem.mp ht
  obtain ⟨hi, rfl⟩ := List.getElem?_eq_some_iff.mp hb
  have hle : ∀ {m n : ℕ} (hm : m < all.length) (hn : n < all.length), m ≤ n → all[m].slot ≤ all[n].slot := by
    intro m n hm hn hmn
    rcases hmn.eq_or_lt with rfl | hlt
    · exact le_rfl
    · exact (List.pairwise_iff_getElem.mp hsorted m n hm hn hlt).le
  have hin : ∀ {m : ℕ}, m < shown.length → m < all.length := fun hm => hm.trans_le hbegins.length_le
  have hsame : ∀ {m : ℕ} (hm : m < shown.length) (_ : m < all.length), shown[m] = all[m] :=
    fun hm _ => hbegins.getElem hm
  rcases le_or_gt i j with hij | hji
  · exact .inl (hsame hi (hin hi) ▸ hle _ hj hij)
  · cases i with
    | zero => exact absurd hji (Nat.not_lt_zero j)
    | succ i =>
        have hlast : i < shown.length := Nat.lt_of_succ_lt hi
        refine .inr ⟨shown[i], List.getElem?_eq_getElem hlast, ?_⟩
        rw [hsame hlast (hin hlast)]
        exact hle hj _ (Nat.lt_succ_iff.mp hji)

/-- With ranks `r` in the lane, the row is the next behind a card, or the first. -/
def StandsBehind (db : DB) (projectID : ℤ) (key : String) (r : TodoRow → ℤ) (row : TodoRow) :
    Option TodoRow → Prop
  | none => ∀ t ∈ db.lane projectID key, t.id ≠ row.id → row.slot < toLex (r t, t.id)
  | some a => toLex (r a, a.id) < row.slot ∧
      ∀ t ∈ db.lane projectID key, t.id ≠ row.id → a.slot < t.slot → row.slot < toLex (r t, t.id)

theorem Rewritten.lands_iff {r : TodoRow → ℤ} (h : Rewritten db db' r row) (hids : (db.todos.map (·.id)).Nodup)
    (hkeep : KeepsOrder db projectID key r) (hrow : row.inLane projectID key = true) {above : Option TodoRow}
    (habove : ∀ a ∈ above, a ∈ db.lane projectID key ∧ a.id ≠ row.id) :
    LandsBehind db' projectID key row.id (above.map (·.id)) ↔ StandsBehind db projectID key r row above := by
  have hmem : row ∈ db'.lane projectID key := List.mem_filter.mpr ⟨h.mem, hrow⟩
  have hunique : ∀ t ∈ db'.lane projectID key, t.id = row.id → t = row :=
    fun t ht => h.unique t (List.mem_filter.mp ht).1
  have hne : ∀ u : TodoRow, u.id ≠ row.id → row.slot ≠ toLex (r u, u.id) :=
    fun u hu heq => hu (congrArg (fun slot => (ofLex slot).2) heq).symm
  cases above with
  | none =>
      constructor
      · rintro ⟨row', hrow', hid, hfirst⟩ t ht htid
        obtain rfl := hunique row' hrow' hid
        exact hfirst _ (h.renumbered_mem_lane ht htid) htid
      · intro hfirst
        refine ⟨row, hmem, rfl, fun t ht htid => ?_⟩
        rcases h.mem_lane ht with rfl | ⟨u, hu, huid, rfl⟩
        · exact absurd rfl htid
        · exact hfirst u hu huid
  | some a =>
      obtain ⟨ha, haid⟩ := habove a rfl
      constructor
      · rintro ⟨row', hrow', hid, a', ha', haa, hlt, hnone⟩
        obtain rfl := hunique row' hrow' hid
        obtain rfl := h.eq_of_id hids ha' ha haa haid
        refine ⟨hlt, fun t ht htid hat => ?_⟩
        have hbehind : toLex (r a, a.id) < toLex (r t, t.id) := (hkeep.order a ha t ht).mpr hat
        have hnot := hnone _ (h.renumbered_mem_lane ht htid)
        exact lt_of_le_of_ne (not_lt.mp fun hbefore => hnot ⟨hbehind, hbefore⟩) (hne t htid)
      · rintro ⟨hlt, hrest⟩
        refine ⟨row, hmem, rfl, _, h.renumbered_mem_lane ha haid, rfl, hlt, ?_⟩
        rintro t ht ⟨hat, htrow⟩
        rcases h.mem_lane ht with rfl | ⟨u, hu, huid, rfl⟩
        · exact lt_irrefl _ htrow
        · exact lt_asymm htrow (hrest u hu huid ((hkeep.order a ha u hu).mp hat))

/-- Below a neighbour and above none, the rank is a step away. -/
theorem computeNewRank_below {db₁ : DB} {n id : ℤ} {movingID : Option ℤ}
    (h : computeNewRank db projectID key movingID (some id) none = .ok (db₁, n)) :
    ∃ a ∈ db.lane projectID key, a.id = id ∧ db₁ = db.withRanks TodoRow.rank ∧ n = wrap (a.rank + rankStep) := by
  simp only [computeNewRank, bind_eq_ok, reject_eq_ok] at h
  obtain ⟨after, hafter, before, hbefore, _, _, _, _, _, _, hmatch⟩ := h
  cases hbefore
  rcases getNeighborOpt_eq_ok hafter with ⟨hnone, _⟩ | ⟨a, ha, hid, rfl⟩
  · exact absurd hnone nofun
  · cases hmatch
    exact ⟨a, ha, (Option.some.inj hid).symm, db.withRanks_rank.symm, rfl⟩

/-- A move lands between neighbours that are next to each other, or in front of the first card. -/
theorem moveTodo_lands_above (hids : (db.todos.map (·.id)).Nodup) (hrange : RankRange (db.lane projectID key))
    (hcard : card ∈ db.todos) (hproject : card.projectID = projectID) {above : Option TodoRow} {b : TodoRow}
    (habove : ∀ a ∈ above, a ∈ db.lane projectID key ∧ a.id ≠ card.id) (hb : b ∈ db.lane projectID key)
    (hnext : ∀ t ∈ db.lane projectID key, t.id ≠ card.id → b.slot ≤ t.slot ∨ ∃ a ∈ above, t.slot ≤ a.slot)
    (h : moveTodo ctx db card.id key (above.map (·.id)) (some b.id) = .ok (db', row)) :
    LandsBehind db' projectID key card.id (above.map (·.id)) := by
  obtain ⟨existing, db₁, rank, doneAt, ⟨hmem, hid, hactive⟩, _, _, hrank, rfl, htodos, _, _⟩ := moveTodo_spec h
  obtain rfl := List.inj_on_of_nodup_map hids hmem hcard hid
  rw [hproject] at hrank
  obtain ⟨r, rfl, hkeep, hfits⟩ := computeNewRank_spec hids hrange hrank
  have hinj := List.inj_on_of_nodup_map (nodup_lane_ids hids projectID key)
  have hlane : (existing.moved key rank ctx.nowMs doneAt).inLane projectID key = true := by
    simp [TodoRow.inLane, TodoRow.moved, hactive, hproject]
  refine ((rewritten_of_move hids hmem htodos).lands_iff hids hkeep hlane habove).mpr ?_
  obtain ⟨b', hb', hb'id, hlt⟩ := hfits.lt_before b.id rfl
  obtain rfl := hinj hb' hb hb'id
  -- the row comes before the card below it, and so before every card behind that one
  have hfirst : ∀ t ∈ db.lane projectID key, b'.slot ≤ t.slot →
      toLex (rank, existing.id) < toLex (r t, t.id) := by
    intro t ht hle
    have hrow : toLex (rank, existing.id) < toLex (r b', b'.id) := Prod.Lex.toLex_lt_toLex.mpr (.inl hlt)
    rcases hle.eq_or_lt with heq | hbt
    · have hsame : b'.id = t.id := congrArg (fun slot => (ofLex slot).2) heq
      obtain rfl := hinj hb' ht hsame
      exact hrow
    · exact hrow.trans ((hkeep.order b' hb' t ht).mpr hbt)
  cases above with
  | none =>
      intro t ht htid
      refine hfirst t ht ((hnext t ht htid).resolve_right ?_)
      rintro ⟨_, hnone, _⟩
      cases hnone
  | some a =>
      obtain ⟨a', ha', ha'id, hlow⟩ := hfits.after_lt a.id rfl
      obtain rfl := hinj ha' (habove a rfl).1 ha'id
      refine ⟨Prod.Lex.toLex_lt_toLex.mpr (.inl hlow), fun t ht htid hat => ?_⟩
      refine hfirst t ht ((hnext t ht htid).resolve_right ?_)
      rintro ⟨_, heq, hle⟩
      cases heq
      exact absurd hat hle.not_gt

/-- The ranks that the end of a lane is given: a step behind the card above, or behind the last. -/
theorem computeNewRank_end {db₁ : DB} {n : ℤ} {movingID : Option ℤ} (hids : (db.todos.map (·.id)).Nodup)
    (hrange : RankRange (db.lane projectID key)) {above : Option TodoRow}
    (habove : ∀ a ∈ above, a ∈ db.lane projectID key)
    (h : computeNewRank db projectID key movingID (above.map (·.id)) none = .ok (db₁, n)) :
    db₁ = db.withRanks TodoRow.rank ∧
      n = (above.map (·.rank)).getD (maxRankInColumn db projectID key) + rankStep := by
  cases above with
  | none =>
      obtain ⟨hdb, rfl⟩ := computeNewRank_append h
      refine ⟨hdb, ?_⟩
      rcases maxRankInColumn_cases db projectID key with ⟨_, h0⟩ | ⟨t, ht, hmax⟩
      · rw [h0]
        decide
      · have hpos := hrange.pos t ht
        rw [← hmax]
        exact wrap_of_pos (by unfold rankStep; omega) (hrange.le t ht)
  | some a =>
      obtain ⟨a', ha', hid, hdb, rfl⟩ := computeNewRank_below h
      obtain rfl := List.inj_on_of_nodup_map (nodup_lane_ids hids projectID key) ha' (habove a rfl) hid
      have hpos := hrange.pos a' ha'
      exact ⟨hdb, wrap_of_pos (by unfold rankStep; omega) (hrange.le a' ha')⟩

/-- A move to the end lands there if and only if the step leads to no card that stands behind. -/
theorem moveTodo_lands_end_iff (hids : (db.todos.map (·.id)).Nodup) (hrange : RankRange (db.lane projectID key))
    (hcard : card ∈ db.todos) (hproject : card.projectID = projectID) {above : Option TodoRow}
    (habove : ∀ a ∈ above, a ∈ db.lane projectID key ∧ a.id ≠ card.id)
    (h : moveTodo ctx db card.id key (above.map (·.id)) none = .ok (db', row)) :
    LandsBehind db' projectID key card.id (above.map (·.id)) ↔ HasStep db projectID key card.id above := by
  obtain ⟨existing, db₁, rank, doneAt, ⟨hmem, hid, hactive⟩, _, _, hrank, rfl, htodos, _, _⟩ := moveTodo_spec h
  obtain rfl := List.inj_on_of_nodup_map hids hmem hcard hid
  rw [hproject] at hrank
  obtain ⟨rfl, rfl⟩ := computeNewRank_end hids hrange (fun a ha => (habove a ha).1) hrank
  have hlane : ∀ rank : ℤ, (existing.moved key rank ctx.nowMs doneAt).inLane projectID key = true := by
    intro rank
    simp [TodoRow.inLane, TodoRow.moved, hactive, hproject]
  refine ((rewritten_of_move hids hmem htodos).lands_iff hids (.rank hrange.pos) (hlane _) habove).trans ?_
  cases above with
  | none =>
      constructor
      · intro hfirst t ht
        by_contra htid
        have hlow := TodoRow.rank_le_of_slot_lt (hfirst t ht htid)
        have hmax := le_maxRankInColumn ht
        dsimp only [TodoRow.moved, Option.map_none, Option.getD_none] at hlow
        unfold rankStep at hlow
        omega
      · intro hempty t ht htid
        exact absurd (hempty t ht) htid
  | some a =>
      have hstep : toLex (a.rank, a.id) < toLex (a.rank + rankStep, existing.id) := by
        refine Prod.Lex.toLex_lt_toLex.mpr (.inl ?_)
        unfold rankStep
        dsimp only
        omega
      exact and_iff_right hstep

/-! ## What is shown -/

theorem mem_dropList {loaded : ℕ} {t : TodoRow} (h : t ∈ dropList db projectID key loaded card) :
    t ∈ db.lane projectID key ∧ t.id ≠ card.id := by
  obtain ⟨hmem, hid⟩ := List.mem_filter.mp h
  exact ⟨mem_orderBy.mp (List.mem_of_mem_take hmem), by simpa using hid⟩

theorem mem_of_cardAbove {shown : List TodoRow} {i : ℕ} {a : TodoRow} (h : a ∈ cardAbove shown i) : a ∈ shown := by
  cases i with
  | zero => cases h
  | succ i => exact List.mem_of_getElem? h

/-- The other cards of a lane, in order. -/
def otherCards (db : DB) (projectID : ℤ) (key : String) (card : TodoRow) : List TodoRow :=
  (orderBy TodoRow.slot (db.lane projectID key)).filter (·.id ≠ card.id)

theorem dropList_prefix (loaded : ℕ) :
    dropList db projectID key loaded card <+: otherCards db projectID key card :=
  (List.take_prefix loaded _).filter _

theorem DropTable.pairwise_otherCards (h : DropTable db) :
    (otherCards db projectID key card).Pairwise fun a b => a.slot < b.slot := by
  have hids : ((orderBy TodoRow.slot (db.lane projectID key)).map (·.id)).Nodup :=
    ((orderBy_perm _ _).map _).nodup_iff.mpr (nodup_lane_ids h.ids projectID key)
  have hne := List.pairwise_map.mp hids
  refine ((pairwise_orderBy TodoRow.slot (db.lane projectID key)).and hne).filter _ |>.imp ?_
  rintro a b ⟨hle, hid⟩
  exact lt_of_le_of_ne hle fun heq => hid (congrArg (fun slot => (ofLex slot).2) heq)

theorem DropTable.parseLocalId_eq (h : DropTable db) {t : TodoRow} (ht : t ∈ db.todos) :
    parseLocalId t = some t.localID := if_pos (h.local_pos t ht)

theorem DropTable.neighbourID_eq (h : DropTable db) {neighbour : Option TodoRow}
    (hlane : ∀ t ∈ neighbour, t ∈ db.lane projectID key) :
    neighbourID db projectID (neighbour.bind parseLocalId) = .ok (neighbour.map (·.id)) := by
  cases neighbour with
  | none => rfl
  | some t =>
      obtain ⟨ht, hin⟩ := List.mem_filter.mp (hlane t rfl)
      have hproject : t.projectID = projectID := by
        simp only [TodoRow.inLane, Bool.and_eq_true, beq_iff_eq] at hin
        exact hin.1.1
      have hfind := todoByLocalID_eq h.local_ids ht
      rw [hproject] at hfind
      rw [Option.bind_some, h.parseLocalId_eq ht, neighbourID, getTodoRowByLocalID, hfind]
      rfl

/-- The request of a drop is a move between the cards that are shown next to it. -/
theorem DropTable.moveTodo_of_drop (h : DropTable db) (hkey : IsColumnKey key) (hcard : card ∈ db.todos)
    (hproject : card.projectID = projectID) {m : MoveRequest} {above below : Option TodoRow}
    (habove : ∀ a ∈ above, a ∈ db.lane projectID key) (hbelow : ∀ b ∈ below, b ∈ db.lane projectID key)
    (hid : parseLocalId card = some m.todoLocalId) (hstatus : m.toStatus = key)
    (hafter : m.afterId = above.bind parseLocalId) (hbefore : m.beforeId = below.bind parseLocalId)
    (hmove : handleMove ctx db projectID m = .ok (db', row)) :
    moveTodo ctx db card.id (if key = "in_progress" then "doing" else key) (above.map (·.id))
      (below.map (·.id)) = .ok (db', row) := by
  have hfind := todoByLocalID_eq h.local_ids hcard
  rw [h.parseLocalId_eq hcard] at hid
  rw [hproject, Option.some.inj hid] at hfind
  simp only [handleMove, hstatus, if_neg hkey.ne_empty, normalizeLaneKey_eq hkey, bind_eq_ok] at hmove
  obtain ⟨_, _, hmove⟩ := hmove
  rw [moveTodoByLocalID, getTodoRowByLocalID, hfind, hafter, hbefore, h.neighbourID_eq habove,
    h.neighbourID_eq hbelow] at hmove
  exact hmove

/-- A card that was moved to one lane is in no other. -/
theorem not_lands_of_moveTodo {toKey : String} {afterID beforeID above : Option ℤ}
    (hne : toKey ≠ key) (h : moveTodo ctx db card.id toKey afterID beforeID = .ok (db', row)) :
    ¬ LandsBehind db' projectID key card.id above := by
  obtain ⟨existing, db₁, rank, doneAt, ⟨hmem, hid, _⟩, _, _, hrank, _, htodos, _, _⟩ := moveTodo_spec h
  rintro ⟨row', hrow', hrowid, _⟩
  obtain ⟨hin, hlane⟩ := List.mem_filter.mp hrow'
  rw [htodos, mem_updateWhere] at hin
  obtain ⟨u, _, rfl⟩ := hin
  by_cases hu : (u.id == card.id) = true
  · rw [if_pos hu] at hlane
    simp only [TodoRow.inLane, TodoRow.moved, Bool.and_eq_true, beq_iff_eq] at hlane
    exact hne hlane.1.2
  · rw [if_neg hu] at hrowid
    exact hu (by simpa using hrowid)

end

/-- A card that is dropped on a lane lands behind the card that is displayed above it, if and only
if the key of the lane is not an old name of another one, and the card is dropped above another one
or there is a step of room behind. -/
theorem drop_lands_iff {db db' : DB} {projectID : ℤ} {key : String} {card row : TodoRow} {ctx : Ctx}
    (htable : DropTable db) (hrange : RankRange (db.lane projectID key)) (hkey : IsColumnKey key)
    (hcard : card ∈ db.todos) (hproject : card.projectID = projectID) {p p' : DragPage} {c : DragCallbacks}
    (hsort : isChronologicalSortActive p.filters = false) (hfilter : hasActiveBoardSubsetFilter p.filters = false)
    {loaded oldIndex i : ℕ} {m : MoveRequest} (hi : i ≤ (dropList db projectID key loaded card).length)
    (hend : p.handleEnd c (dropEvent card key oldIndex i (dropList db projectID key loaded card)) = (p', .move m))
    (hmove : handleMove ctx db projectID m = .ok (db', row)) :
    LandsBehind db' projectID key card.id ((cardAbove (dropList db projectID key loaded card) i).map (·.id)) ↔
      key ≠ "in_progress" ∧ (i < (dropList db projectID key loaded card).length ∨
        HasStep db projectID key card.id (cardAbove (dropList db projectID key loaded card) i)) := by
  generalize hshown : dropList db projectID key loaded card = shown at hi hend
  have hmem : ∀ t ∈ shown, t ∈ db.lane projectID key ∧ t.id ≠ card.id := fun t ht => mem_dropList (hshown ▸ ht)
  have habove : ∀ a ∈ cardAbove shown i, a ∈ db.lane projectID key ∧ a.id ≠ card.id :=
    fun a ha => hmem a (mem_of_cardAbove ha)
  have hbelow : ∀ b ∈ shown[i]?, b ∈ db.lane projectID key ∧ b.id ≠ card.id :=
    fun b hb => hmem b (List.mem_of_getElem? hb)
  obtain ⟨_, hid, hstatus, hafter, hbefore⟩ := handleEnd_dropEvent hsort hfilter hend
  have hrequest := htable.moveTodo_of_drop hkey hcard hproject (fun a ha => (habove a ha).1)
    (fun b hb => (hbelow b hb).1) hid hstatus hafter hbefore hmove
  by_cases hprogress : key = "in_progress"
  · rw [if_pos hprogress] at hrequest
    have hne : "doing" ≠ key := by rw [hprogress]; decide
    exact iff_of_false (not_lands_of_moveTodo hne hrequest) fun h => h.1 hprogress
  · rw [if_neg hprogress] at hrequest
    rw [and_iff_right hprogress]
    rcases hi.eq_or_lt with rfl | hlt
    · rw [List.getElem?_eq_none le_rfl] at hrequest
      rw [or_iff_right (lt_irrefl _)]
      exact moveTodo_lands_end_iff htable.ids hrange hcard hproject habove hrequest
    · have hb : shown[i]? = some shown[i] := List.getElem?_eq_getElem hlt
      rw [hb] at hrequest
      refine iff_of_true ?_ (.inl hlt)
      refine moveTodo_lands_above htable.ids hrange hcard hproject habove (hbelow _ hb).1 ?_ hrequest
      intro t ht htid
      have hother : t ∈ otherCards db projectID key card :=
        List.mem_filter.mpr ⟨mem_orderBy.mpr ht, by simpa using htid⟩
      exact le_or_le_cardAbove htable.pairwise_otherCards (hshown ▸ dropList_prefix loaded) hb hother

/-- A lane whose second card was put between the two others, and a card in another lane. -/
def midpointBoard : DB :=
  { crowdedBoard with
    todos := [(1, "backlog", 1000), (2, "backlog", 1500), (3, "backlog", 2000), (4, "done", 1000)].map
      fun (id, key, rank) =>
        { id := id, projectID := 1, localID := id, title := "t", body := "", columnKey := key
          rank := rank, estimationPoints := none, assigneeUserID := none, createdByUserID := none
          sprintID := none, priorityKey := none, createdAt := 0, updatedAt := 0, doneAt := none
          archivedAt := none, dueAt := none, dueRemindedAt := none } }

def doneCard : TodoRow :=
  { id := 4, projectID := 1, localID := 4, title := "t", body := "", columnKey := "done"
    rank := 1000, estimationPoints := none, assigneeUserID := none, createdByUserID := none
    sprintID := none, priorityKey := none, createdAt := 0, updatedAt := 0, doneAt := none
    archivedAt := none, dueAt := none, dueRemindedAt := none }

/-- Dropped below the first card, with all of them loaded. -/
theorem drop_lands_between_loaded :
    let shown := dropList midpointBoard 1 "backlog" 20 doneCard
    ∃ p' m db' row, { slug := some "board" : DragPage }.handleEnd ⟨0, false⟩
        (dropEvent doneCard "backlog" 0 1 shown) = (p', .move m) ∧
      handleMove ⟨none, 5⟩ midpointBoard 1 m = .ok (db', row) ∧
      LandsBehind db' 1 "backlog" 4 ((cardAbove shown 1).map (·.id)) := by
  have htable : DropTable midpointBoard := ⟨by decide, by decide, by decide⟩
  have hrange : RankRange (midpointBoard.lane 1 "backlog") := ⟨by decide, by decide, by decide⟩
  let m : MoveRequest := ⟨some "board", 4, "backlog", some 1, some 2⟩
  have hend : { slug := some "board" : DragPage }.handleEnd ⟨0, false⟩
      (dropEvent doneCard "backlog" 0 1 (dropList midpointBoard 1 "backlog" 20 doneCard)) =
        ({ slug := some "board", moveInFlight := true }, .move m) := rfl
  obtain ⟨⟨db', row⟩, hmove⟩ := exists_of_isOk (x := handleMove ⟨none, 5⟩ midpointBoard 1 m) (by decide +kernel)
  have hlands := (drop_lands_iff htable hrange (by unfold IsColumnKey; decide +kernel) (by decide) rfl rfl rfl
    (by decide) hend hmove).mpr ⟨by decide, .inl (by decide)⟩
  exact ⟨_, m, db', row, hend, hmove, hlands⟩

/-- Dropped below it with one card loaded, it goes to the end of the lane. -/
theorem drop_passes_hidden_cards :
    let shown := dropList midpointBoard 1 "backlog" 1 doneCard
    ∃ p' m db' row, shown.map (·.id) = [1] ∧ { slug := some "board" : DragPage }.handleEnd ⟨0, false⟩
        (dropEvent doneCard "backlog" 0 1 shown) = (p', .move m) ∧
      handleMove ⟨none, 5⟩ midpointBoard 1 m = .ok (db', row) ∧
      ((orderBy TodoRow.slot (db'.lane 1 "backlog")).map fun t => (t.id, t.rank)) =
        [(1, 1000), (2, 1500), (3, 2000), (4, 2000)] ∧
      ¬ LandsBehind db' 1 "backlog" 4 ((cardAbove shown 1).map (·.id)) := by
  let m : MoveRequest := ⟨some "board", 4, "backlog", some 1, none⟩
  have hend : { slug := some "board" : DragPage }.handleEnd ⟨0, false⟩
      (dropEvent doneCard "backlog" 0 1 (dropList midpointBoard 1 "backlog" 1 doneCard)) =
        ({ slug := some "board", moveInFlight := true }, .move m) := rfl
  obtain ⟨⟨db', row⟩, hmove⟩ := exists_of_isOk (x := handleMove ⟨none, 5⟩ midpointBoard 1 m) (by decide +kernel)
  have hlane : (handleMove ⟨none, 5⟩ midpointBoard 1 m).toOption.map (fun r =>
      (((orderBy TodoRow.slot (r.1.lane 1 "backlog")).map fun t => (t.id, t.rank)),
        decide (LandsBehind r.1 1 "backlog" 4 (some 1)))) =
      some ([(1, 1000), (2, 1500), (3, 2000), (4, 2000)], false) := by
    decide +kernel
  rw [hmove] at hlane
  obtain ⟨horder, hlands⟩ := Prod.ext_iff.mp (Option.some.inj hlane)
  exact ⟨_, m, db', row, by decide, hend, hmove, horder, of_decide_eq_false hlands⟩

end Scrumboy
