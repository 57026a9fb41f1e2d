import Scrumboy.Web.BoardRealtime
import Scrumboy.Web.ScriptText

/-!
# Dragging cards

The end of a drag sends the new place of a card to the server. On a filtered board the end of a
lane is looked up first, and a drop may fall into this time, or into that of a request that is
under way.
-/

set_option linter.dupNamespace false

namespace Scrumboy

open Transition

def isChronologicalSortActive (filters : BoardFilters) : Bool :=
  filters.sort == some "newest" || filters.sort == some "oldest" || filters.sort == some "due"

/-- A filter of the URL that has something in it. -/
def isFilterSet (filter : Option String) : Bool := filter.any fun s => trimScript s != ""

def hasActiveBoardSubsetFilter (filters : BoardFilters) : Bool :=
  !filters.tags.isEmpty || isFilterSet filters.search || isFilterSet filters.sprintId ||
    isFilterSet filters.assignee || isFilterSet filters.priority

/-- Whether the lane has cards that are not loaded, and where they begin. -/
structure LaneRest where
  hasMore : Bool
  nextCursor : Option String
  deriving DecidableEq, Repr

/-- What a call of `initDnD` leaves to the callbacks that it installs. -/
structure DragCallbacks where
  generation : ℕ
  chronological : Bool
  deriving DecidableEq, Repr

structure DragPage where
  slug : Option String := none
  filters : BoardFilters := {}
  boardLaneMeta : String → Option LaneRest := fun _ => none
  dragDropGeneration : ℕ := 0
  dragInProgress : Bool := false
  moveInFlight : Bool := false

/-- The end of a drag: the card, the list it was taken from and the one it was dropped on, the
cards next to it, and the last card of the lane. The ids are those of `parseLocalId`. -/
structure DropEvent where
  todoLocalId : Option ℤ
  toStatus : String
  fromStatus : Option String := none
  sameList : Bool := false
  oldIndex : ℕ := 0
  newIndex : ℕ := 0
  isTabDrop : Bool := false
  previousSibling : Option ℤ := none
  nextSibling : Option ℤ := none
  laneEnd : Option ℤ := none
  deriving DecidableEq, Repr

/-- A request for the first card of a lane that is not loaded. -/
structure BoundaryRequest where
  slug : String
  status : String
  afterCursor : String
  filters : BoardFilters
  deriving DecidableEq, Repr

structure MoveRequest where
  slug : Option String
  todoLocalId : ℤ
  toStatus : String
  afterId : Option ℤ
  beforeId : Option ℤ
  deriving DecidableEq, Repr

/-- A call of `handleEnd` that waits for a boundary; there may be nothing to ask for. -/
structure BoundaryWait where
  callbacks : DragCallbacks
  drop : DropEvent
  todoLocalId : ℤ
  afterId : Option ℤ
  request : Option BoundaryRequest
  deriving DecidableEq, Repr

/-- Where a call of `handleEnd` is when it gives control away. -/
inductive DropOutcome
  | returned
  | lookup (w : BoundaryWait)
  | move (r : MoveRequest)
  deriving DecidableEq, Repr

namespace DropOutcome

def isMove : DropOutcome → Bool
  | move _ => true
  | _ => false

end DropOutcome

namespace DragPage

def callbackIsCurrent (p : DragPage) (c : DragCallbacks) : Bool :=
  c.generation == p.dragDropGeneration && c.chronological == isChronologicalSortActive p.filters

/-- The `finally` of `handleEnd`. -/
def finish (p : DragPage) : DragPage × DropOutcome := ({ p with moveInFlight := false }, .returned)

/-- `getHiddenLaneBoundaryLocalId` up to its request. -/
def hiddenLaneBoundary (p : DragPage) (status : String) : Option BoundaryRequest := do
  let slug ← p.slug.filter (· != "")
  let rest ← (p.boardLaneMeta status).filter (·.hasMore)
  let afterCursor ← rest.nextCursor.filter (· != "")
  pure { slug, status, afterCursor, filters := p.filters }

/-- `handleEnd` from the neighbours on, up to the request. -/
def sendMove (p : DragPage) (c : DragCallbacks) (e : DropEvent) (todoLocalId : ℤ)
    (afterId beforeId : Option ℤ) : DragPage × DropOutcome :=
  if p.callbackIsCurrent c = false then p.finish
  else if e.isTabDrop = false ∧ e.sameList = true ∧ e.oldIndex = e.newIndex then p.finish
  else
    ({ p with moveInFlight := true },
      .move { slug := p.slug, todoLocalId, toStatus := e.toStatus, afterId, beforeId })

def sameLane (e : DropEvent) : Bool := e.sameList || e.fromStatus == some e.toStatus

/-- The `try` block of `handleEnd` up to the place where it waits first, or to its end. -/
def tryMove (p : DragPage) (c : DragCallbacks) (e : DropEvent) : DragPage × DropOutcome :=
  match e.todoLocalId with
  | none => p.finish
  | some todoLocalId =>
      let filteredSubsetActive := hasActiveBoardSubsetFilter p.filters
      let wait (afterId : Option ℤ) : BoundaryWait :=
        { callbacks := c, drop := e, todoLocalId, afterId, request := p.hiddenLaneBoundary e.toStatus }
      if e.toStatus = "" then p.finish
      else if c.chronological = true then
        if sameLane e = true then p.finish else p.sendMove c e todoLocalId none none
      else if e.isTabDrop = true then
        if filteredSubsetActive = true then (p, .lookup (wait e.laneEnd))
        else p.sendMove c e todoLocalId none none
      else if filteredSubsetActive = true ∧ e.nextSibling = none then (p, .lookup (wait e.previousSibling))
      else p.sendMove c e todoLocalId e.previousSibling e.nextSibling

def handleEnd (p : DragPage) (c : DragCallbacks) (e : DropEvent) : DragPage × DropOutcome :=
  if p.callbackIsCurrent c = false then (p, .returned)
  else if p.moveInFlight = true then ({ p with dragInProgress := false }, .returned)
  else { p with dragInProgress := false }.tryMove c e

/-- `handleEnd` from the end of the lookup on. -/
def resumeBoundary (p : DragPage) (w : BoundaryWait) (answer : Except Unit (Option ℤ)) :
    DragPage × DropOutcome :=
  match w.request, answer with
  | none, _ => p.sendMove w.callbacks w.drop w.todoLocalId w.afterId none
  | some _, .ok beforeId => p.sendMove w.callbacks w.drop w.todoLocalId w.afterId beforeId
  | some _, .error _ => p.finish

def initDnD (p : DragPage) : DragPage :=
  { p with dragDropGeneration := p.dragDropGeneration + 1, dragInProgress := false }

/-- The callbacks of the last call of `initDnD`, for the sort of that time. -/
def callbacks (p : DragPage) : DragCallbacks :=
  { generation := p.dragDropGeneration, chronological := isChronologicalSortActive p.filters }

def onStart (p : DragPage) (c : DragCallbacks) : DragPage :=
  if p.callbackIsCurrent c = true then { p with dragInProgress := true } else p

end DragPage

/-! ## Calls next to each other -/

/-- The page, the calls that wait for a boundary, and the requests for a move that are
outstanding. -/
structure DragState where
  page : DragPage
  installed : List DragCallbacks := []
  lookups : List BoundaryWait := []
  moves : List MoveRequest := []

inductive DragAct
  /-- The URL or the lanes of the page change. -/
  | navigate (slug : Option String) (filters : BoardFilters) (boardLaneMeta : String → Option LaneRest)
  | initDnD
  | start (installed : ℕ)
  | drop (installed : ℕ) (e : DropEvent)
  /-- The answer to a lookup, or its failure. -/
  | boundary (i : ℕ) (answer : Except Unit (Option ℤ))
  /-- The answer to a move, or its failure. -/
  | moved (i : ℕ) (answer : Except Unit Unit)

namespace DragState

/-- After a stretch of a call. -/
def settle (s : DragState) (r : DragPage × DropOutcome) : DragState :=
  match r.2 with
  | .returned => { s with page := r.1 }
  | .lookup w => { s with page := r.1, lookups := s.lookups ++ [w] }
  | .move m => { s with page := r.1, moves := s.moves ++ [m] }

def step (s : DragState) : DragAct → DragState
  | .navigate slug filters boardLaneMeta => { s with page := { s.page with slug, filters, boardLaneMeta } }
  | .initDnD =>
      let page := s.page.initDnD
      { s with page, installed := s.installed ++ [page.callbacks] }
  | .start n =>
      match s.installed[n]? with
      | none => s
      | some c => { s with page := s.page.onStart c }
  | .drop n e =>
      match s.installed[n]? with
      | none => s
      | some c => s.settle (s.page.handleEnd c e)
  | .boundary i answer =>
      match s.lookups[i]? with
      | none => s
      | some w => { s with lookups := s.lookups.eraseIdx i }.settle (s.page.resumeBoundary w answer)
  | .moved i _ =>
      match s.moves[i]? with
      | none => s
      | some _ => { s with page := { s.page with moveInFlight := false }, moves := s.moves.eraseIdx i }

end DragState

/-- A lookup ends only while no move is outstanding. -/
def LookupsApart (s : DragState) : DragAct → Prop
  | .boundary _ _ => s.moves = []
  | _ => True

instance (s : DragState) (a : DragAct) : Decidable (LookupsApart s a) := by
  unfold LookupsApart
  split <;> infer_instance

/-- One move at most is outstanding, and the flag tells whether there is one. -/
structure OneMove (s : DragState) : Prop where
  one : s.moves.length ≤ 1
  flag : s.page.moveInFlight = true ↔ s.moves ≠ []

section

variable {s : DragState} {p : DragPage} {c : DragCallbacks} {e : DropEvent} {w : BoundaryWait}

/-- A stretch that clears the flag, or sets it and sends a move. -/
structure Decides (r : DragPage × DropOutcome) : Prop where
  flag : r.1.moveInFlight = r.2.isMove
  lookup : ∀ w, r.2 ≠ .lookup w

theorem decides_finish (p : DragPage) : Decides p.finish := ⟨rfl, fun _ h => nomatch h⟩

theorem decides_sendMove (todoLocalId : ℤ) (afterId beforeId : Option ℤ) :
    Decides (p.sendMove c e todoLocalId afterId beforeId) := by
  unfold DragPage.sendMove
  split_ifs
  · exact decides_finish p
  · exact decides_finish p
  · exact ⟨rfl, fun _ h => nomatch h⟩

theorem decides_resumeBoundary (answer : Except Unit (Option ℤ)) : Decides (p.resumeBoundary w answer) := by
  unfold DragPage.resumeBoundary
  split
  · exact decides_sendMove _ _ _
  · exact decides_sendMove _ _ _
  · exact decides_finish p

/-- While the flag is set a drop is ignored. -/
theorem handleEnd_of_inFlight (h : p.moveInFlight = true) :
    (p.handleEnd c e).1.moveInFlight = true ∧ (p.handleEnd c e).2 = .returned := by
  rw [DragPage.handleEnd, if_pos h]
  split_ifs
  · exact ⟨h, rfl⟩
  · exact ⟨h, rfl⟩

theorem tryMove_flag (h : p.moveInFlight = false) :
    (p.tryMove c e).1.moveInFlight = (p.tryMove c e).2.isMove := by
  unfold DragPage.tryMove
  split
  · rfl
  · dsimp only
    split_ifs
    · rfl
    · rfl
    · exact (decides_sendMove _ _ _).flag
    · exact h
    · exact (decides_sendMove _ _ _).flag
    · exact h
    · exact (decides_sendMove _ _ _).flag

/-- While it is clear a drop waits for a boundary, with the flag clear, or decides at once. -/
theorem handleEnd_of_free (h : p.moveInFlight = false) :
    (p.handleEnd c e).1.moveInFlight = (p.handleEnd c e).2.isMove := by
  have hfree : ¬ p.moveInFlight = true := by rw [h]; exact Bool.false_ne_true
  rw [DragPage.handleEnd, if_neg hfree]
  split_ifs
  · exact h
  · exact tryMove_flag h

theorem settle_page (r : DragPage × DropOutcome) : (s.settle r).page = r.1 := by
  unfold DragState.settle
  split <;> rfl

theorem settle_moves_of_not_move {r : DragPage × DropOutcome} (h : r.2.isMove = false) :
    (s.settle r).moves = s.moves := by
  unfold DragState.settle
  split
  · rfl
  · rfl
  · next heq =>
    rw [heq] at h
    cases h

theorem settle_moves_of_move {r : DragPage × DropOutcome} (h : r.2.isMove = true) :
    ∃ m, (s.settle r).moves = s.moves ++ [m] := by
  unfold DragState.settle
  split
  · next heq =>
    rw [heq] at h
    cases h
  · next heq =>
    rw [heq] at h
    cases h
  · next m _ => exact ⟨m, rfl⟩

/-- A stretch that begins when nothing is outstanding. -/
theorem OneMove.settle (hs : s.moves = []) {r : DragPage × DropOutcome} (hr : r.1.moveInFlight = r.2.isMove) :
    OneMove (s.settle r) := by
  cases hmove : r.2.isMove with
  | false =>
      rw [hmove] at hr
      have hmoves := (settle_moves_of_not_move hmove).trans hs
      exact ⟨by simp [hmoves], by simp [settle_page, hr, hmoves]⟩
  | true =>
      rw [hmove] at hr
      obtain ⟨m, hmoves⟩ := settle_moves_of_move (s := s) hmove
      rw [hs, List.nil_append] at hmoves
      exact ⟨by simp [hmoves], by simp [settle_page, hr, hmoves]⟩

theorem OneMove.moves_eq_nil (h : OneMove s) (hflag : s.page.moveInFlight = false) : s.moves = [] := by
  by_contra hne
  rw [h.flag.mpr hne] at hflag
  cases hflag

theorem OneMove.step (h : OneMove s) {a : DragAct} (ha : LookupsApart s a) : OneMove (s.step a) := by
  cases a with
  | navigate slug filters boardLaneMeta => exact ⟨h.one, h.flag⟩
  | initDnD => exact ⟨h.one, h.flag⟩
  | start n =>
      dsimp only [DragState.step]
      split
      · exact h
      · refine ⟨h.one, ?_⟩
        unfold DragPage.onStart
        split_ifs
        · exact h.flag
        · exact h.flag
  | drop n e =>
      dsimp only [DragState.step]
      split
      · exact h
      · next c _ =>
        cases hflag : s.page.moveInFlight with
        | false => exact .settle (h.moves_eq_nil hflag) (handleEnd_of_free hflag)
        | true =>
            obtain ⟨hkept, hreturned⟩ := handleEnd_of_inFlight (c := c) (e := e) hflag
            have hmoves : (s.settle (s.page.handleEnd c e)).moves = s.moves :=
              settle_moves_of_not_move (by rw [hreturned]; rfl)
            refine ⟨hmoves ▸ h.one, ?_⟩
            rw [settle_page, hkept, hmoves, ← h.flag, hflag]
  | boundary i answer =>
      dsimp only [DragState.step]
      split
      · exact h
      · exact OneMove.settle (s := { s with lookups := s.lookups.eraseIdx i }) ha (decides_resumeBoundary answer).flag
  | moved i answer =>
      dsimp only [DragState.step]
      split
      · exact h
      · next m hm =>
        have hlength : (s.moves.eraseIdx i).length = 0 := by
          have hi := (List.getElem?_eq_some_iff.mp hm).1
          rw [List.length_eraseIdx_of_lt hi]
          have hone := h.one
          omega
        have hnil := List.length_eq_zero_iff.mp hlength
        exact ⟨by simp [hnil], by simp [hnil]⟩

/-- A lookup that ends, ends with a move or with the flag clear. -/
theorem step_boundary {i : ℕ} (hi : i < s.lookups.length) (answer : Except Unit (Option ℤ)) :
    (∃ m, (s.step (.boundary i answer)).moves = s.moves ++ [m]) ∨
      (s.step (.boundary i answer)).moves = s.moves ∧
        (s.step (.boundary i answer)).page.moveInFlight = false := by
  let rest : DragState := { s with lookups := s.lookups.eraseIdx i }
  let r := s.page.resumeBoundary s.lookups[i] answer
  have hstep : s.step (.boundary i answer) = rest.settle r := by
    dsimp only [DragState.step]
    rw [List.getElem?_eq_getElem hi]
  have hflag : r.1.moveInFlight = r.2.isMove := (decides_resumeBoundary answer).flag
  rw [hstep]
  cases hmove : r.2.isMove with
  | false => exact .inr ⟨settle_moves_of_not_move hmove, by rw [settle_page, hflag, hmove]⟩
  | true => exact .inl (settle_moves_of_move hmove)

/-- A drop on another lane, in front of a card. -/
def crossDrop : DropEvent := { todoLocalId := some 1, toStatus := "doing", nextSibling := some 2 }

theorem tryMove_crossDrop (p : DragPage) (c : DragCallbacks) :
    ∃ beforeId, p.tryMove c crossDrop = p.sendMove c crossDrop 1 none beforeId := by
  cases h : c.chronological with
  | false => exact ⟨some 2, by simp [DragPage.tryMove, crossDrop, h]⟩
  | true => exact ⟨none, by simp [DragPage.tryMove, crossDrop, DragPage.sameLane, h]⟩

theorem handleEnd_crossDrop (hflag : p.moveInFlight = false) (hcurrent : p.callbackIsCurrent c = true) :
    (p.handleEnd c crossDrop).2.isMove = true := by
  have hfree : ¬ p.moveInFlight = true := by rw [hflag]; exact Bool.false_ne_true
  let started : DragPage := { p with dragInProgress := false }
  have hstarted : started.callbackIsCurrent c = true := hcurrent
  obtain ⟨beforeId, htry⟩ := tryMove_crossDrop started c
  rw [DragPage.handleEnd, if_neg (by simp [hcurrent]), if_neg hfree, htry, DragPage.sendMove,
    if_neg (by simp [hstarted]), if_neg (by simp [crossDrop])]
  rfl

/-- With the flag clear, one more drop sends a move, whatever is outstanding. -/
theorem exists_second_move (hflag : s.page.moveInFlight = false) (hmoves : s.moves ≠ []) :
    ∃ acts, 2 ≤ (run DragState.step s acts).moves.length := by
  refine ⟨[.initDnD, .drop s.installed.length crossDrop], ?_⟩
  have hinstalled : (s.step .initDnD).installed[s.installed.length]? = some s.page.initDnD.callbacks := by
    simp [DragState.step]
  have hcurrent : (s.step .initDnD).page.callbackIsCurrent s.page.initDnD.callbacks = true := by
    simp [DragState.step, DragPage.callbackIsCurrent, DragPage.callbacks]
  have hmove := handleEnd_crossDrop (p := (s.step .initDnD).page) hflag hcurrent
  obtain ⟨m, hsettle⟩ := settle_moves_of_move (s := s.step .initDnD) hmove
  have hstep : run DragState.step s [.initDnD, .drop s.installed.length crossDrop] =
      (s.step .initDnD).settle ((s.step .initDnD).page.handleEnd s.page.initDnD.callbacks crossDrop) := by
    rw [run_cons, run_cons, run_nil]
    conv_lhs => rw [DragState.step.eq_4, hinstalled]
  rw [hstep, hsettle, List.length_append]
  have hpos := List.length_pos_iff.mpr hmoves
  exact Nat.succ_le_succ hpos

end

/-- A page as it is opened. -/
def opened (slug : Option String) (filters : BoardFilters) (boardLaneMeta : String → Option LaneRest) : DragState :=
  { page := { slug, filters, boardLaneMeta } }

/-- One move at most is in flight, in every run whose lookups end while none is outstanding; a
lookup that ends at another time sends a second move, or lets the next drop do so. -/
theorem drag_moves_apart (slug : Option String) (filters : BoardFilters)
    (boardLaneMeta : String → Option LaneRest) (acts : List DragAct)
    (hacts : Along LookupsApart DragState.step (opened slug filters boardLaneMeta) acts) :
    let s := run DragState.step (opened slug filters boardLaneMeta) acts
    (s.moves.length ≤ 1 ∧ (s.moves = [] → s.page.moveInFlight = false)) ∧
      ∀ i answer, i < s.lookups.length → ¬ LookupsApart s (.boundary i answer) →
        ∃ more, 2 ≤ (run DragState.step (s.step (.boundary i answer)) more).moves.length := by
  intro s
  have hopened : OneMove (opened slug filters boardLaneMeta) := ⟨Nat.zero_le 1, by simp [opened]⟩
  have hs : OneMove s := run_along (fun s a hs ha => hs.step ha) hopened hacts
  refine ⟨⟨hs.one, fun hnil => ?_⟩, fun i answer hi hapart => ?_⟩
  · rw [Bool.eq_false_iff, ne_eq, hs.flag, not_not]
    exact hnil
  · rcases step_boundary hi answer with ⟨m, hm⟩ | ⟨hsame, hflag⟩
    · refine ⟨[], ?_⟩
      rw [run_nil, hm, List.length_append]
      exact Nat.succ_le_succ (List.length_pos_iff.mpr hapart)
    · exact exists_second_move hflag (hsame ▸ hapart)

/-- A board filtered by a tag, with a lane that has more cards. -/
def filteredPage : DragState :=
  opened (some "board") { tags := ["ui"] } fun status =>
    if status = "doing" then some { hasMore := true, nextCursor := some "1000:1" } else none

/-- A drop onto the tab of the lane. -/
def tabDrop (todoLocalId : ℤ) : DropEvent :=
  { todoLocalId := some todoLocalId, toStatus := "doing", fromStatus := some "backlog", isTabDrop := true,
    laneEnd := some 3 }

/-- A second drop in the time of a lookup, and each of them sends a move. -/
theorem two_drags_in_flight :
    let s := run DragState.step filteredPage [.initDnD, .drop 0 (tabDrop 1), .drop 0 (tabDrop 2),
      .boundary 0 (.ok (some 4)), .boundary 0 (.ok (some 4))]
    s.moves = [⟨some "board", 1, "doing", some 3, some 4⟩, ⟨some "board", 2, "doing", some 3, some 4⟩] ∧
      ¬ s.moves.length ≤ 1 := by
  decide +kernel

/-- One drop after the other. -/
theorem drags_apart_in_turn :
    let s := run DragState.step filteredPage [.initDnD, .drop 0 (tabDrop 1), .boundary 0 (.ok (some 4)),
      .drop 0 (tabDrop 2), .moved 0 (.ok ()), .drop 0 (tabDrop 2)]
    s.moves.length ≤ 1 ∧ (s.moves = [] → s.page.moveInFlight = false) :=
  (drag_moves_apart _ _ _ _ (by decide +kernel)).1

end Scrumboy
