import Mathlib.Data.List.Nodup
import Mathlib.Order.Basic
import Scrumboy.Transition.Runs

/-!
# Loads of the member board

The board in state comes from `loadBoardBySlug`, and further cards of a lane come in pages. Loads
are ordered by a sequence number and compared with the URL when they arrive. A page is appended to
whatever board is there when it arrives, and the lane data of a load are put in place before its
board, which may first wait for the members of the project.
-/

set_option linter.dupNamespace false

namespace Scrumboy

open Transition

/-- What the URL asks for: a board and its filters and sort. -/
structure BoardQuery where
  slug : String
  tags : List String := []
  search : String := ""
  sprintId : Option String := none
  assignee : Option String := none
  sort : Option String := none
  priority : Option String := none
  deriving DecidableEq, Repr

/-- A card on the board, with the query that it was fetched with. -/
structure BoardCard where
  id : ℕ
  query : BoardQuery
  deriving DecidableEq, Repr

/-- A cursor is good for a query and continues after a card. -/
structure LaneCursor where
  query : BoardQuery
  after : ℕ
  deriving DecidableEq, Repr

/-- Cards of a lane as the server sends them, no card twice. -/
structure CardPage where
  items : List ℕ
  hasMore : Bool
  nodup : items.Nodup

namespace CardPage

def cards (page : CardPage) (query : BoardQuery) : List BoardCard := page.items.map (⟨·, query⟩)

/-- With more to come, the cursor behind the last card. -/
def nextCursor (page : CardPage) (query : BoardQuery) : Option LaneCursor :=
  if page.hasMore then page.items.getLast?.map (⟨query, ·⟩) else none

end CardPage

structure LaneMetaState where
  hasMore : Bool := false
  nextCursor : Option LaneCursor := none
  loading : Bool := false
  deriving DecidableEq, Repr

/-- A board in state, with the query that it was loaded with. -/
structure LoadedBoard where
  query : BoardQuery
  columns : String → List BoardCard

abbrev Lanes := List (String × CardPage)

def loadedBoard (query : BoardQuery) (lanes : Lanes) : LoadedBoard where
  query := query
  columns lane := ((lanes.lookup lane).map (·.cards query)).getD []

def buildLaneMetaFromBoard (query : BoardQuery) (lanes : Lanes) (lane : String) : Option LaneMetaState :=
  (lanes.lookup lane).map fun page =>
    { hasMore := page.hasMore, nextCursor := page.nextCursor query }

/-- A load that waits for the board, or has the board and waits for the members. -/
structure BoardLoad where
  seq : ℕ
  query : BoardQuery
  lanes : Option Lanes := none

structure PageRequest where
  id : ℕ
  lane : String
  query : BoardQuery
  cursor : Option LaneCursor
  deriving DecidableEq, Repr

/-- How the request for a board ends. -/
inductive BoardAnswer
  | board (lanes : Lanes) (hasMembers : Bool) (priorityExists : Bool)
  | invalidSprint
  | failed

/-- The state of the board view. `lanesAhead` only observes: the lane data in place are those of a
board that has not been shown. -/
structure BoardView where
  url : BoardQuery
  slug : Option String := none
  search : String := ""
  board : Option LoadedBoard := none
  boardLaneMeta : String → Option LaneMetaState := fun _ => none
  boardLoadSequence : ℕ := 0
  loads : List BoardLoad := []
  nextPage : ℕ := 0
  pages : List PageRequest := []
  lanesAhead : Bool := false

inductive BoardViewEvent
  | setUrl (url : BoardQuery)
  | setSlug (slug : Option String)
  | setSearch (search : String)
  /-- The board is left. -/
  | clearBoard
  | load (query : BoardQuery)
  | boardArrives (seq : ℕ) (answer : BoardAnswer)
  | membersArrive (seq : ℕ)
  | loadMore (lane : String)
  | pageArrives (id : ℕ) (page : Option CardPage)

namespace BoardView

/-- `loadBoardBySlug` up to its request. -/
def loadBoardBySlug (v : BoardView) (query : BoardQuery) : BoardView :=
  { v with
    boardLoadSequence := v.boardLoadSequence + 1
    loads := v.loads ++ [{ seq := v.boardLoadSequence + 1, query }] }

def removeLoad (v : BoardView) (seq : ℕ) : BoardView :=
  { v with loads := v.loads.filter (·.seq != seq) }

/-- The end of a load: the board is put in place. -/
def showBoard (v : BoardView) (query : BoardQuery) (lanes : Lanes) : BoardView :=
  { v with board := some (loadedBoard query lanes), lanesAhead := false }

/-- The answer is of no use: it failed, or is not the one that the URL asks for now. -/
def Drops (v : BoardView) (l : BoardLoad) : BoardAnswer → Prop
  | .failed => True
  | .invalidSprint => l.query.sprintId = none
  | .board _ _ _ => l.seq ≠ v.boardLoadSequence ∨ v.url ≠ l.query

instance (v : BoardView) (l : BoardLoad) (answer : BoardAnswer) : Decidable (v.Drops l answer) := by
  unfold Drops
  split <;> infer_instance

/-- `loadBoardBySlug` from the answer on, up to the request for the members. -/
def receiveBoard (v : BoardView) (l : BoardLoad) (answer : BoardAnswer) : BoardView :=
  if v.Drops l answer then v
  else
    match answer with
    | .failed => v
    | .invalidSprint =>
        { v with url := { v.url with sprintId := none } }.loadBoardBySlug
          { l.query with sprintId := none }
    | .board lanes hasMembers priorityExists =>
        if l.query.priority ≠ none ∧ priorityExists = false then
          { v with url := { v.url with priority := none } }.loadBoardBySlug
            { l.query with priority := none }
        else
          let v := { v with
            slug := some l.query.slug
            search := l.query.search
            boardLaneMeta := buildLaneMetaFromBoard l.query lanes
            lanesAhead := true }
          if hasMembers then { v with loads := v.loads ++ [{ l with lanes := some lanes }] }
          else v.showBoard l.query lanes

/-- No other load began, and the board was not left. -/
def IsCurrent (v : BoardView) (l : BoardLoad) : Prop :=
  l.seq = v.boardLoadSequence ∧ v.slug = some l.query.slug

instance (v : BoardView) (l : BoardLoad) : Decidable (v.IsCurrent l) :=
  inferInstanceAs (Decidable (_ ∧ _))

def setLaneLoading (v : BoardView) (lane : String) (loading : Bool) : BoardView :=
  { v with
    boardLaneMeta := Function.update v.boardLaneMeta lane
      (some { (v.boardLaneMeta lane).getD {} with loading }) }

def appendLaneTodos (v : BoardView) (lane : String) (items : List BoardCard)
    (nextCursor : Option LaneCursor) (hasMore : Bool) : BoardView :=
  match v.board with
  | none => v
  | some board =>
      { v with
        board := some { board with
          columns := Function.update board.columns lane (board.columns lane ++ items) }
        boardLaneMeta := Function.update v.boardLaneMeta lane
          (some { hasMore, nextCursor, loading := false }) }

/-- `handleLoadMore` up to its request. -/
def handleLoadMore (v : BoardView) (lane : String) : BoardView :=
  match v.slug, v.boardLaneMeta lane with
  | some slug, some laneMeta =>
      if laneMeta.hasMore = false ∨ laneMeta.loading = true then v
      else
        { v.setLaneLoading lane true with
          nextPage := v.nextPage + 1
          pages := v.pages ++ [⟨v.nextPage, lane, { v.url with slug, search := v.search },
            laneMeta.nextCursor⟩] }
  | _, _ => v

/-- `handleLoadMore` from the answer on. -/
def receivePage (v : BoardView) (p : PageRequest) (page : Option CardPage) : BoardView :=
  match page with
  | some page => (v.appendLaneTodos p.lane (page.cards p.query) (page.nextCursor p.query)
      page.hasMore).setLaneLoading p.lane false
  | none => v.setLaneLoading p.lane false

/-- The load with the number, at the given stage. -/
def findLoad (v : BoardView) (seq : ℕ) (hasBoard : Bool) : Option BoardLoad :=
  v.loads.find? fun l => l.seq == seq && l.lanes.isSome == hasBoard

def step (v : BoardView) : BoardViewEvent → BoardView
  | .setUrl url => { v with url }
  | .setSlug slug => { v with slug }
  | .setSearch search => { v with search }
  | .clearBoard => { v with board := none }
  | .load query => v.loadBoardBySlug query
  | .boardArrives seq answer =>
      match v.findLoad seq false with
      | some l => (v.removeLoad seq).receiveBoard l answer
      | none => v
  | .membersArrive seq =>
      match v.findLoad seq true with
      | some l => if v.IsCurrent l then (v.removeLoad seq).showBoard l.query (l.lanes.getD [])
          else v.removeLoad seq
      | none => v
  | .loadMore lane => v.handleLoadMore lane
  | .pageArrives id page =>
      match v.pages.find? (·.id == id) with
      | some p => { v with pages := v.pages.filter (·.id != id) }.receivePage p page
      | none => v

/-! ## The claim -/

/-- The lane has each card once, all fetched as the board was, and its cursor goes on after them. -/
structure LaneRight (query : BoardQuery) (cards : List BoardCard) (laneMeta : Option LaneMetaState) :
    Prop where
  nodup : (cards.map (·.id)).Nodup
  sameQuery : ∀ card ∈ cards, card.query = query
  cursor : ∀ cursor ∈ laneMeta.bind (·.nextCursor),
    cursor.query = query ∧ (cards.map (·.id)).getLast? = some cursor.after

def BoardRight (v : BoardView) : Prop :=
  ∀ board ∈ v.board, ∀ lane, LaneRight board.query (board.columns lane) (v.boardLaneMeta lane)

/-- No request is outstanding. -/
def Quiet (v : BoardView) : Prop := v.loads = [] ∧ v.pages = []

/-- A page that arrives was requested with the query of the board that is shown, whose lane data
are in place, and has no card that is in the lane; and the last load does not end in vain while
the lane data in place are those of a board that was not shown. -/
def Fits (v : BoardView) : BoardViewEvent → Prop
  | .pageArrives id (some page) => ∀ p ∈ v.pages.find? (·.id == id), ∀ board ∈ v.board,
      v.lanesAhead = false ∧ p.query = board.query ∧
        ∀ card ∈ board.columns p.lane, card.id ∉ page.items
  | .boardArrives seq answer => ∀ l ∈ v.findLoad seq false, v.Drops l answer →
      l.seq = v.boardLoadSequence → v.board.isNone = true ∨ v.lanesAhead = false
  | .membersArrive seq => ∀ l ∈ v.findLoad seq true, ¬ v.IsCurrent l →
      l.seq = v.boardLoadSequence → v.board.isNone = true
  | _ => True

instance (v : BoardView) (event : BoardViewEvent) : Decidable (v.Fits event) := by
  unfold Fits
  split <;> infer_instance

/-! ## The invariant -/

/-- The cursor of a lane, which is all of its data that matters. -/
def cursorOf (laneMeta : Option LaneMetaState) : Option LaneCursor := laneMeta.bind (·.nextCursor)

structure Good (v : BoardView) : Prop where
  seq_le : ∀ l ∈ v.loads, l.seq ≤ v.boardLoadSequence
  right : v.lanesAhead = false → v.BoardRight
  /-- Lane data of a board that was not shown are going to be replaced. -/
  ahead : v.lanesAhead = true → v.board.isNone = true ∨ ∃ l ∈ v.loads, l.seq = v.boardLoadSequence
  /-- The last load, when it waits for the members, has its lane data in place. -/
  waiting : ∀ l ∈ v.loads, ∀ lanes ∈ l.lanes, l.seq = v.boardLoadSequence → v.lanesAhead = true ∧
    ∀ lane, cursorOf (v.boardLaneMeta lane) = cursorOf (buildLaneMetaFromBoard l.query lanes lane)

variable {v : BoardView}

theorem LaneRight.congr {query : BoardQuery} {cards : List BoardCard}
    {laneMeta laneMeta' : Option LaneMetaState}
    (h : LaneRight query cards laneMeta) (hcursor : cursorOf laneMeta' = cursorOf laneMeta) :
    LaneRight query cards laneMeta' := by
  refine ⟨h.nodup, h.sameQuery, fun cursor hmem => h.cursor cursor ?_⟩
  have heq : laneMeta'.bind (·.nextCursor) = laneMeta.bind (·.nextCursor) := hcursor
  rwa [heq] at hmem

theorem map_id_cards (page : CardPage) (query : BoardQuery) :
    (page.cards query).map (·.id) = page.items := by
  rw [CardPage.cards, List.map_map]
  exact List.map_id _

theorem cursor_nextCursor {page : CardPage} {query : BoardQuery} {cursor : LaneCursor}
    (h : cursor ∈ page.nextCursor query) :
    cursor.query = query ∧ page.items.getLast? = some cursor.after := by
  unfold CardPage.nextCursor at h
  split at h
  · obtain ⟨after, hlast, rfl⟩ := Option.map_eq_some_iff.mp h
    exact ⟨rfl, hlast⟩
  · cases h

/-- A lane as it was loaded. -/
theorem laneRight_loadedBoard (query : BoardQuery) (lanes : Lanes) (lane : String) :
    LaneRight query ((loadedBoard query lanes).columns lane) (buildLaneMetaFromBoard query lanes lane) := by
  unfold loadedBoard buildLaneMetaFromBoard
  dsimp only
  cases lanes.lookup lane with
  | none => exact ⟨List.nodup_nil, fun card hcard => absurd hcard (by simp), fun cursor h => by cases h⟩
  | some page =>
      refine ⟨?_, fun card hcard => ?_, fun cursor h => ?_⟩
      · exact (map_id_cards page query).symm ▸ page.nodup
      · obtain ⟨id, -, rfl⟩ := List.mem_map.mp hcard
        rfl
      · obtain ⟨hquery, hlast⟩ := cursor_nextCursor h
        exact ⟨hquery, (map_id_cards page query).symm ▸ hlast⟩

/-- A lane with another page behind its cards. -/
theorem LaneRight.append {query : BoardQuery} {cards : List BoardCard} {laneMeta : Option LaneMetaState}
    (h : LaneRight query cards laneMeta) {page : CardPage}
    (hnew : ∀ card ∈ cards, card.id ∉ page.items) :
    LaneRight query (cards ++ page.cards query)
      (some { hasMore := page.hasMore, nextCursor := page.nextCursor query }) := by
  refine ⟨?_, fun card hcard => ?_, fun cursor hmem => ?_⟩
  · rw [List.map_append, map_id_cards, List.nodup_append]
    refine ⟨h.nodup, page.nodup, fun id hid id' hid' heq => ?_⟩
    obtain ⟨card, hcard, rfl⟩ := List.mem_map.mp hid
    exact hnew card hcard (heq ▸ hid')
  · rcases List.mem_append.mp hcard with hcard | hcard
    · exact h.sameQuery card hcard
    · obtain ⟨id, -, rfl⟩ := List.mem_map.mp hcard
      rfl
  · obtain ⟨hquery, hlast⟩ := cursor_nextCursor hmem
    refine ⟨hquery, ?_⟩
    rw [List.map_append, map_id_cards, List.getLast?_append, hlast]
    rfl

/-! ## The steps -/

theorem cursorOf_setLaneLoading (v : BoardView) (lane : String) (loading : Bool) (lane' : String) :
    cursorOf ((v.setLaneLoading lane loading).boardLaneMeta lane') = cursorOf (v.boardLaneMeta lane') := by
  unfold setLaneLoading
  dsimp only
  by_cases heq : lane' = lane
  · subst heq
    rw [Function.update_self]
    cases v.boardLaneMeta lane' <;> rfl
  · rw [Function.update_of_ne heq]

theorem Good.setLaneLoading (h : Good v) (lane : String) (loading : Bool) :
    Good (v.setLaneLoading lane loading) where
  seq_le := h.seq_le
  right hahead board hboard lane' :=
    (h.right hahead board hboard lane').congr (cursorOf_setLaneLoading v lane loading lane')
  ahead := h.ahead
  waiting l hl lanes hlanes hseq := by
    obtain ⟨hahead, hcursor⟩ := h.waiting l hl lanes hlanes hseq
    exact ⟨hahead, fun lane' => (cursorOf_setLaneLoading v lane loading lane').trans (hcursor lane')⟩

/-- A load begins, and is the last one. -/
theorem good_loadBoardBySlug (hle : ∀ l ∈ v.loads, l.seq ≤ v.boardLoadSequence)
    (hright : v.lanesAhead = false → v.BoardRight) (query : BoardQuery) :
    Good (v.loadBoardBySlug query) := by
  refine ⟨fun l hl => ?_, hright, fun _ => .inr ⟨_, List.mem_append_right _ List.mem_cons_self, rfl⟩,
    fun l hl lanes hlanes hseq => ?_⟩
  · rcases List.mem_append.mp hl with hl | hl
    · exact Nat.le_succ_of_le (hle l hl)
    · rw [List.mem_singleton.mp hl]
      exact Nat.le_refl _
  · rcases List.mem_append.mp hl with hl | hl
    · have hlt := hle l hl
      have heq : l.seq = v.boardLoadSequence + 1 := hseq
      omega
    · rw [List.mem_singleton.mp hl] at hlanes
      cases hlanes

theorem mem_removeLoad {seq : ℕ} {l : BoardLoad} :
    l ∈ (v.removeLoad seq).loads ↔ l ∈ v.loads ∧ l.seq ≠ seq := by
  rw [removeLoad, List.mem_filter, bne_iff_ne]

/-- A load ends in vain. -/
theorem Good.removeLoad (h : Good v) {seq : ℕ}
    (hvain : seq = v.boardLoadSequence → v.board.isNone = true ∨ v.lanesAhead = false) :
    Good (v.removeLoad seq) where
  seq_le l hl := h.seq_le l (mem_removeLoad.mp hl).1
  right := h.right
  ahead hahead := by
    rcases h.ahead hahead with hnone | ⟨l, hl, hseq⟩
    · exact .inl hnone
    · by_cases heq : l.seq = seq
      · rcases hvain (heq ▸ hseq) with hnone | hnot
        · exact .inl hnone
        · rw [show v.lanesAhead = true from hahead] at hnot
          cases hnot
      · exact .inr ⟨l, mem_removeLoad.mpr ⟨hl, heq⟩, hseq⟩
  waiting l hl := h.waiting l (mem_removeLoad.mp hl).1

/-- The last load shows its board. -/
theorem good_showBoard (h : Good v) {seq : ℕ} (hseq : seq = v.boardLoadSequence) {query : BoardQuery}
    {lanes : Lanes} {v' : BoardView} (hloads : v'.loads = (v.removeLoad seq).loads)
    (hsequence : v'.boardLoadSequence = v.boardLoadSequence)
    (hcursor : ∀ lane, cursorOf (v'.boardLaneMeta lane) =
      cursorOf (buildLaneMetaFromBoard query lanes lane)) : Good (v'.showBoard query lanes) where
  seq_le l hl := by
    rw [showBoard, hloads] at hl
    exact hsequence ▸ h.seq_le l (mem_removeLoad.mp hl).1
  right _ board hboard lane := by
    cases hboard
    exact (laneRight_loadedBoard query lanes lane).congr (hcursor lane)
  ahead hahead := by cases hahead
  waiting l hl lanes hlanes hlast := by
    rw [showBoard, hloads] at hl
    exact absurd (hlast.trans (hsequence.trans hseq.symm)) (mem_removeLoad.mp hl).2

theorem findLoad_eq_some {seq : ℕ} {hasBoard : Bool} {l : BoardLoad}
    (h : v.findLoad seq hasBoard = some l) :
    l ∈ v.loads ∧ l.seq = seq ∧ l.lanes.isSome = hasBoard := by
  have hfound := List.find?_some (p := fun l : BoardLoad => l.seq == seq && l.lanes.isSome == hasBoard) h
  rw [Bool.and_eq_true, beq_iff_eq, beq_iff_eq] at hfound
  exact ⟨List.mem_of_find?_eq_some h, hfound⟩

theorem good_receiveBoard (h : Good v) {seq : ℕ} {l : BoardLoad} (hfind : v.findLoad seq false = some l)
    {answer : BoardAnswer} (hfits : v.Fits (.boardArrives seq answer)) :
    Good ((v.removeLoad seq).receiveBoard l answer) := by
  obtain ⟨hl, hseq, -⟩ := findLoad_eq_some hfind
  have hle : ∀ l ∈ (v.removeLoad seq).loads, l.seq ≤ v.boardLoadSequence :=
    fun l hl => h.seq_le l (mem_removeLoad.mp hl).1
  unfold receiveBoard
  split
  · rename_i hdrops
    exact h.removeLoad fun hlast => hfits l hfind hdrops (hseq.trans hlast)
  · rename_i hkept
    split
    · exact absurd trivial hkept
    · refine good_loadBoardBySlug ?_ ?_ _
      · exact hle
      · exact h.right
    · rename_i lanes hasMembers priorityExists
      have hlast : seq = v.boardLoadSequence := by
        by_contra hne
        exact hkept (.inl (hseq ▸ hne))
      split
      · refine good_loadBoardBySlug ?_ ?_ _
        · exact hle
        · exact h.right
      · dsimp only
        split
        · refine ⟨fun l' hl' => ?_, fun hahead => ?_, fun _ => .inr ⟨_,
            List.mem_append_right _ List.mem_cons_self, hseq.trans hlast⟩,
            fun l' hl' lanes' hlanes' hseq' => ?_⟩
          · rcases List.mem_append.mp hl' with hl' | hl'
            · exact hle l' hl'
            · rw [List.mem_singleton.mp hl']
              exact h.seq_le l hl
          · cases hahead
          · rcases List.mem_append.mp hl' with hl' | hl'
            · exact absurd (hseq'.trans hlast.symm) (mem_removeLoad.mp hl').2
            · rw [List.mem_singleton.mp hl'] at hlanes' ⊢
              cases hlanes'
              exact ⟨rfl, fun _ => rfl⟩
        · exact good_showBoard h hlast rfl rfl fun _ => rfl

theorem good_membersArrive (h : Good v) {seq : ℕ} {l : BoardLoad} (hfind : v.findLoad seq true = some l)
    (hfits : v.Fits (.membersArrive seq)) :
    Good (if v.IsCurrent l then (v.removeLoad seq).showBoard l.query (l.lanes.getD []) else
      v.removeLoad seq) := by
  obtain ⟨hl, hseq, hsome⟩ := findLoad_eq_some hfind
  split
  · rename_i hcurrent
    obtain ⟨lanes, hlanes⟩ := Option.isSome_iff_exists.mp hsome
    obtain ⟨-, hcursor⟩ := h.waiting l hl lanes hlanes hcurrent.1
    refine good_showBoard h (hseq.symm.trans hcurrent.1) rfl rfl fun lane => ?_
    rw [hlanes]
    exact hcursor lane
  · rename_i hcurrent
    exact h.removeLoad fun hlast => .inl (hfits l hfind hcurrent (hseq.trans hlast))

theorem good_receivePage (h : Good v) {id : ℕ} {p : PageRequest} {page : Option CardPage}
    (hfind : v.pages.find? (·.id == id) = some p) (hfits : v.Fits (.pageArrives id page)) :
    Good (({ v with pages := v.pages.filter (·.id != id) } : BoardView).receivePage p page) := by
  have hrest : Good { v with pages := v.pages.filter (·.id != id) } :=
    ⟨h.seq_le, h.right, h.ahead, h.waiting⟩
  cases page with
  | none => exact hrest.setLaneLoading p.lane false
  | some page =>
      refine Good.setLaneLoading ?_ p.lane false
      unfold appendLaneTodos
      split
      · exact hrest
      · rename_i board hboard
        obtain ⟨hahead, hquery, hnew⟩ := hfits p hfind board hboard
        have hnot : v.lanesAhead ≠ true := by simp [hahead]
        refine ⟨h.seq_le, fun _ board' hboard' lane => ?_, fun hahead' => absurd hahead' hnot,
          fun l hl lanes hlanes hseq => absurd (h.waiting l hl lanes hlanes hseq).1 hnot⟩
        · cases hboard'
          dsimp only
          by_cases heq : lane = p.lane
          · subst heq
            rw [Function.update_self, Function.update_self, hquery]
            exact (h.right hahead board hboard p.lane).append hnew
          · rw [Function.update_of_ne heq, Function.update_of_ne heq]
            exact h.right hahead board hboard lane

theorem good_step (h : Good v) {event : BoardViewEvent} (hfits : v.Fits event) : Good (v.step event) := by
  cases event with
  | setUrl url => exact ⟨h.seq_le, h.right, h.ahead, h.waiting⟩
  | setSlug slug => exact ⟨h.seq_le, h.right, h.ahead, h.waiting⟩
  | setSearch search => exact ⟨h.seq_le, h.right, h.ahead, h.waiting⟩
  | clearBoard =>
      refine ⟨h.seq_le, fun _ board hboard => ?_, fun _ => .inl rfl, h.waiting⟩
      cases hboard
  | load query => exact good_loadBoardBySlug h.seq_le h.right query
  | boardArrives seq answer =>
      dsimp only [step]
      split
      · rename_i l hfind
        exact good_receiveBoard h hfind hfits
      · exact h
  | membersArrive seq =>
      dsimp only [step]
      split
      · rename_i l hfind
        exact good_membersArrive h hfind hfits
      · exact h
  | loadMore lane =>
      dsimp only [step]
      unfold handleLoadMore
      split
      · split
        · exact h
        · have hloading := h.setLaneLoading lane true
          exact ⟨hloading.seq_le, hloading.right, hloading.ahead, hloading.waiting⟩
      · exact h
  | pageArrives id page =>
      dsimp only [step]
      split
      · rename_i p hfind
        exact good_receivePage h hfind hfits
      · exact h

theorem good_run {url : BoardQuery} {events : List BoardViewEvent}
    (h : Along Fits step { url } events) : Good (run step { url } events) :=
  run_along (I := Good) (fun _ _ hgood => good_step hgood)
    ⟨by simp, (by simp [BoardRight]), by simp, by simp⟩ h

end BoardView

open BoardView in
/-- The lanes hold their own cards, each once, in every run whose pages arrive at the board they
were requested for. -/
theorem lanes_hold_own_cards {url : BoardQuery} {events : List BoardViewEvent}
    (h : Along Fits step { url } events) (hquiet : (run step { url } events).Quiet) :
    (run step { url } events).BoardRight := by
  have hgood := good_run h
  cases hahead : (run step { url } events).lanesAhead with
  | false => exact hgood.right hahead
  | true =>
      rcases hgood.ahead hahead with hnone | ⟨l, hl, -⟩
      · intro board hboard
        rw [Option.isNone_iff_eq_none.mp hnone] at hboard
        cases hboard
      · rw [hquiet.1] at hl
        cases hl

theorem nodup_firstPage : ([1, 2] : List ℕ).Nodup := by decide

/-- A board is loaded, and the next page of its lane is requested. -/
def pageRequested : List BoardViewEvent :=
  [.setSlug (some "plan"), .load { slug := "plan" },
    .boardArrives 1 (.board [("todo", ⟨[1, 2], true, nodup_firstPage⟩)] false true), .loadMore "todo"]

def secondPage : CardPage := ⟨[3, 4], false, by decide⟩

/-- The page arrives at its board. -/
theorem lanes_hold_own_cards_page : (run BoardView.step { url := { slug := "plan" } }
    (pageRequested ++ [BoardViewEvent.pageArrives 0 (some secondPage)])).BoardRight :=
  lanes_hold_own_cards (by decide +kernel) ⟨by rfl, by rfl⟩

/-- The user filters by a tag while the page is under way. -/
def filteredMeanwhile : List BoardViewEvent :=
  pageRequested ++ [BoardViewEvent.setUrl { slug := "plan", tags := ["bug"] }, .load { slug := "plan", tags := ["bug"] },
    .boardArrives 2 (.board [("todo", ⟨[2], false, by decide⟩)] false true),
    .pageArrives 0 (some secondPage)]

/-- The cards of the page are in the lane of the filtered board. -/
theorem page_overtaken : ¬ ∀ (url : BoardQuery) (events : List BoardViewEvent),
    (run BoardView.step { url } events).Quiet → (run BoardView.step { url } events).BoardRight := by
  intro h
  have hright := h { slug := "plan" } filteredMeanwhile ⟨by rfl, by rfl⟩
  have hcolumn : (run BoardView.step { url := { slug := "plan" } } filteredMeanwhile).board.map
      (fun board => (board.query.tags, (board.columns "todo").map fun card => card.query.tags)) =
        some (["bug"], [["bug"], [], []]) := by decide +kernel
  obtain ⟨board, hboard, heq⟩ := Option.map_eq_some_iff.mp hcolumn
  have hsame := (hright board hboard "todo").sameQuery
  rw [Prod.mk.injEq] at heq
  have hmem : ([] : List String) ∈ (board.columns "todo").map fun card => card.query.tags := by
    rw [heq.2]
    decide
  obtain ⟨card, hcard, htags⟩ := List.mem_map.mp hmem
  rw [hsame card hcard, heq.1] at htags
  cases htags

end Scrumboy
