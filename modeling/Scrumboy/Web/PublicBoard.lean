import Mathlib
import Scrumboy.Transition.Runs

/-!
# The public board in the browser

A session shows the snapshot of a public board, and further cards of a lane come in pages. One
epoch counter orders the filter reloads, the refreshes that the stream asks for and the pages:
what was requested in an earlier epoch is dropped when it arrives.
-/

set_option linter.dupNamespace false

namespace Scrumboy.Web

open Transition

structure PublicBoardQuery where
  search : String := ""
  tags : List String := []
  sprintNumber : Option ℕ := none
  priority : Option String := none
  deriving DecidableEq, Repr

/-- `EMPTY_PUBLIC_QUERY` -/
def emptyPublicQuery : PublicBoardQuery := {}

def isPublicQueryActive (query : PublicBoardQuery) : Bool :=
  query.search != "" || query.tags != [] || query.sprintNumber.isSome || query.priority.any (· != "")

/-- Cards of a lane as the server sends them, no card twice. -/
structure PublicLanePage where
  items : List ℕ
  hasMore : Bool := false
  nextCursor : Option String := none
  nodup : items.Nodup

structure PublicBoardSnapshot where
  lanes : List (String × PublicLanePage)
  sprintsEnabled : Bool := false

/-- A card on display, with the query it was fetched with. `snapshot` only observes: it numbers
the snapshot that has the card, or that the page with the card goes on from. -/
structure PublicCard where
  localId : ℕ
  query : PublicBoardQuery
  snapshot : ℕ
  deriving DecidableEq, Repr

/-- A cursor of the server. `snapshot` only observes: it numbers the snapshot that it goes on
from. -/
structure PublicCursor where
  token : String
  snapshot : ℕ
  deriving DecidableEq, Repr

structure PublicLaneState where
  hasMore : Bool
  nextCursor : Option PublicCursor
  loading : Bool := false
  error : Bool := false
  deriving DecidableEq, Repr

inductive LoadKind
  | initial
  | filter
  | refresh
  deriving DecidableEq, Repr

structure SnapshotRequest where
  epoch : ℕ
  kind : LoadKind
  query : PublicBoardQuery
  aborted : Bool := false
  deriving DecidableEq, Repr

/-- `lane` is the state of the lane when the page was requested. -/
structure PublicPageRequest where
  id : ℕ
  epoch : ℕ
  key : String
  lane : PublicLaneState
  cursor : PublicCursor
  query : PublicBoardQuery
  aborted : Bool := false
  deriving DecidableEq, Repr

structure SprintsRequest where
  seq : ℕ
  aborted : Bool := false
  deriving DecidableEq, Repr

def SnapshotRequest.abort (r : SnapshotRequest) : SnapshotRequest := { r with aborted := true }
def PublicPageRequest.abort (p : PublicPageRequest) : PublicPageRequest := { p with aborted := true }
def SprintsRequest.abort (r : SprintsRequest) : SprintsRequest := { r with aborted := true }

/-- How a request ends. An invalid request is one whose filter the board does not support. -/
inductive PublicOutcome (α : Type)
  | success (value : α)
  | failed
  | invalidRequest
  | notFound
  | aborted

/-- The board of a session and the requests for it. `shown`, `unshown` and `interrupted` only
observe: the number of the snapshot on display, whether the query has changed since it was put
there, and whether a lane page was aborted since. -/
structure PublicBoardData where
  query : PublicBoardQuery
  columns : String → List PublicCard := fun _ => []
  lanes : String → Option PublicLaneState := fun _ => none
  dataEpoch : ℕ := 0
  filterError : Bool := false
  snapshots : List SnapshotRequest := []
  pages : List PublicPageRequest := []
  shown : ℕ := 0
  unshown : Bool := false
  interrupted : Bool := false

/-- `current` is whether the session is the one of the page. `renders` and `requests` only
observe how often it drew and asked the server. -/
structure PublicSession extends PublicBoardData where
  slug : String
  sprintsEnabled : Bool := false
  sprints : List ℕ := []
  sprintsLoaded : Bool := false
  sprintsSeq : ℕ := 0
  sprintRequests : List SprintsRequest := []
  refreshTimer : Bool := false
  refreshInFlight : Bool := false
  refreshQueued : Bool := false
  nextPage : ℕ := 0
  current : Bool := true
  renders : ℕ := 0
  requests : ℕ := 0

inductive PublicEvent
  | setQuery (query : PublicBoardQuery)
  | applyPublicBoardRoute (slug : String) (query : PublicBoardQuery)
  | requestRefresh
  | refreshTimerFires
  | retry
  | loadMore (key : String)
  | snapshotEnds (epoch : ℕ) (outcome : PublicOutcome PublicBoardSnapshot)
  | pageEnds (id : ℕ) (outcome : PublicOutcome PublicLanePage)
  | sprintsEnd (seq : ℕ) (outcome : PublicOutcome (List ℕ))
  | accessRevoked
  | stop

namespace PublicOutcome

variable {α : Type}

/-- The request ends so, when it was aborted or not. -/
def Possible (aborted : Bool) : PublicOutcome α → Prop
  | .aborted => aborted = true
  | _ => True

instance (aborted : Bool) (outcome : PublicOutcome α) : Decidable (outcome.Possible aborted) := by
  unfold Possible
  split <;> infer_instance

end PublicOutcome

namespace PublicSession

def renderBoardRegions (s : PublicSession) : PublicSession :=
  if s.current then { s with renders := s.renders + 1 } else s

def lanesFromSnapshot (shown : ℕ) (snapshot : PublicBoardSnapshot) (key : String) :
    Option PublicLaneState :=
  (snapshot.lanes.lookup key).map fun page =>
    { hasMore := page.hasMore, nextCursor := page.nextCursor.map (⟨·, shown⟩) }

def columnsFromSnapshot (query : PublicBoardQuery) (shown : ℕ) (snapshot : PublicBoardSnapshot)
    (key : String) : List PublicCard :=
  ((snapshot.lanes.lookup key).map fun page => page.items.map (⟨·, query, shown⟩)).getD []

/-- The snapshot was fetched with the query. -/
def applySnapshot (s : PublicSession) (query : PublicBoardQuery) (snapshot : PublicBoardSnapshot) :
    PublicSession :=
  { s with
    columns := columnsFromSnapshot query (s.shown + 1) snapshot
    lanes := lanesFromSnapshot (s.shown + 1) snapshot
    sprintsEnabled := snapshot.sprintsEnabled
    shown := s.shown + 1
    unshown := false
    interrupted := false }

def teardown (s : PublicSession) : PublicSession :=
  { s with
    refreshTimer := false
    refreshQueued := false
    snapshots := s.snapshots.map (·.abort)
    pages := s.pages.map (·.abort)
    sprintsSeq := s.sprintsSeq + 1
    sprintRequests := s.sprintRequests.map (·.abort) }

def stopPublicBoard (s : PublicSession) : PublicSession :=
  if s.current then { s with current := false }.teardown else s

def enterUnavailable (s : PublicSession) : PublicSession :=
  if s.current then
    { ({ s with current := false } : PublicSession).teardown with
      columns := fun _ => []
      lanes := fun _ => none
      renders := s.renders + 1 }
  else s

/-- `reloadSnapshot` up to its request. -/
def reloadSnapshot (s : PublicSession) (kind : LoadKind) : PublicSession :=
  if s.current then
    { s with
      dataEpoch := s.dataEpoch + 1
      snapshots := s.snapshots.map (·.abort) ++
        [{ epoch := s.dataEpoch + 1, kind, query := s.query }]
      pages := s.pages.map (·.abort)
      interrupted := s.interrupted || s.pages.any (!·.aborted)
      requests := s.requests + 1 }
  else s

/-- The query, with what `next` changes in it, is normalized. -/
def setQuery (s : PublicSession) (query : PublicBoardQuery) : PublicSession :=
  if s.current = true ∧ query ≠ s.query then
    { s with query, unshown := true, renders := s.renders + 1 }.reloadSnapshot .filter
  else s

/-- In-board navigation: the URL has the query. -/
def applyPublicBoardRoute (s : PublicSession) (slug : String) (query : PublicBoardQuery) :
    PublicSession :=
  if s.current = true ∧ s.slug = slug ∧ query ≠ s.query then
    ({ s with query, unshown := true }.renderBoardRegions).reloadSnapshot .filter
  else s

def requestRefresh (s : PublicSession) : PublicSession :=
  if s.current then { s with refreshTimer := true } else s

/-- `runRefresh` up to the end of its reload. -/
def runRefresh (s : PublicSession) : PublicSession :=
  if s.current = false then s
  else if s.refreshInFlight then { s with refreshQueued := true }
  else { s with refreshInFlight := true }.reloadSnapshot .refresh

/-- `runRefresh` from the end of its reload on. -/
def finishReload (s : PublicSession) (kind : LoadKind) : PublicSession :=
  if kind = .refresh then
    let s := { s with refreshInFlight := false }
    if s.refreshQueued = true ∧ s.current = true then
      { s with refreshQueued := false }.requestRefresh
    else s
  else s

def loadSprints (s : PublicSession) : PublicSession :=
  { s with
    sprintsSeq := s.sprintsSeq + 1
    sprintRequests := s.sprintRequests.map (·.abort) ++ [{ seq := s.sprintsSeq + 1 }]
    requests := s.requests + 1 }

def clearSprintFilter (s : PublicSession) : PublicSession :=
  if s.current = true ∧ s.query.sprintNumber ≠ none then
    (s.setQuery { s.query with sprintNumber := none }).renderBoardRegions
  else s

/-- The vocabulary of a board without sprints. -/
def dropSprints (s : PublicSession) : PublicSession :=
  let s := { s with
    sprintsSeq := s.sprintsSeq + 1
    sprintRequests := s.sprintRequests.map (·.abort)
    sprintsLoaded := false }
  if s.sprints = [] then s else { s with sprints := [] }.renderBoardRegions

def syncSprintVocabulary (s : PublicSession) (kind : LoadKind) : PublicSession :=
  if s.current = false then s
  else if s.sprintsEnabled = false then s.dropSprints.clearSprintFilter
  else if kind = .filter ∧ s.sprintsLoaded = true then s
  else s.loadSprints

/-- A reload that failed: the cards of the last query are not shown under new filters. -/
def reloadFailed (s : PublicSession) (kind : LoadKind) : PublicSession :=
  if kind = .filter then { s with filterError := true }.renderBoardRegions else s

/-- The answer to a request of an earlier epoch is dropped. -/
def Applies (s : PublicSession) (epoch : ℕ) : Prop := s.current = true ∧ epoch = s.dataEpoch

instance (s : PublicSession) (epoch : ℕ) : Decidable (s.Applies epoch) :=
  inferInstanceAs (Decidable (_ ∧ _))

/-- `reloadSnapshot` from the answer on. -/
def receiveSnapshot (s : PublicSession) (r : SnapshotRequest) :
    PublicOutcome PublicBoardSnapshot → PublicSession
  | .success snapshot =>
      (({ s with filterError := false }.applySnapshot r.query snapshot).renderBoardRegions)
        |>.syncSprintVocabulary r.kind
  | .notFound => s.enterUnavailable
  | .invalidRequest =>
      if isPublicQueryActive r.query then
        ({ s with query := emptyPublicQuery, unshown := true }.renderBoardRegions).reloadSnapshot .filter
      else s.reloadFailed r.kind
  | .failed => s.reloadFailed r.kind
  | .aborted => s

/-- `loadMore` up to its request. The controller of a lane is the one of its last request. -/
def loadMore (s : PublicSession) (key : String) : PublicSession :=
  match s.lanes key with
  | none => s
  | some lane =>
      match lane.nextCursor with
      | none => s
      | some cursor =>
          if s.current = true ∧ lane.loading = false then
            { s with
              lanes := Function.update s.lanes key (some { lane with loading := true, error := false })
              renders := s.renders + 1
              pages := s.pages.map (fun p => if p.key = key then p.abort else p) ++
                [{ id := s.nextPage, epoch := s.dataEpoch, key, lane, cursor, query := s.query }]
              nextPage := s.nextPage + 1
              requests := s.requests + 1 }
          else s

/-- The cards of the page that are not in the lane. -/
def additions (p : PublicPageRequest) (cards : List PublicCard) (page : PublicLanePage) :
    List PublicCard :=
  (page.items.filter (· ∉ cards.map (·.localId))).map (⟨·, p.query, p.cursor.snapshot⟩)

/-- `loadMore` from the answer on. -/
def receivePage (s : PublicSession) (p : PublicPageRequest) : PublicOutcome PublicLanePage → PublicSession
  | .success page =>
      { s with
        columns := Function.update s.columns p.key
          (s.columns p.key ++ additions p (s.columns p.key) page)
        lanes := Function.update s.lanes p.key (some {
          hasMore := page.hasMore
          nextCursor := page.nextCursor.map (⟨·, p.cursor.snapshot⟩) }) }.renderBoardRegions
  | .notFound => s.enterUnavailable
  | .invalidRequest | .failed =>
      { s with
        lanes := Function.update s.lanes p.key
          (some { p.lane with loading := false, error := true }) }.renderBoardRegions
  | .aborted => s

/-- `loadSprints` from the answer on. -/
def receiveSprints (s : PublicSession) : PublicOutcome (List ℕ) → PublicSession
  | .success sprints =>
      if s.sprintsEnabled = false then s
      else
        let s := { s with sprints, sprintsLoaded := true }
        if s.query.sprintNumber.any (· ∉ sprints) then s.clearSprintFilter else s.renderBoardRegions
  | .notFound => s.enterUnavailable
  | _ => s

/-- The session that `resolvePublicBoard` begins with the snapshot of the query. -/
def resolvePublicBoard (slug : String) (query : PublicBoardQuery) (snapshot : PublicBoardSnapshot) :
    PublicSession :=
  ((({ slug, query } : PublicSession).applySnapshot query snapshot).renderBoardRegions)
    |>.syncSprintVocabulary .initial

def step (s : PublicSession) : PublicEvent → PublicSession
  | .setQuery query => s.setQuery query
  | .applyPublicBoardRoute slug query => s.applyPublicBoardRoute slug query
  | .requestRefresh => s.requestRefresh
  | .refreshTimerFires => if s.refreshTimer then { s with refreshTimer := false }.runRefresh else s
  | .retry => s.reloadSnapshot .filter
  | .loadMore key => s.loadMore key
  | .snapshotEnds epoch outcome =>
      match s.snapshots.find? (·.epoch == epoch) with
      | none => s
      | some r =>
          if outcome.Possible r.aborted then
            let s := { s with snapshots := s.snapshots.erase r }
            (if s.Applies r.epoch then s.receiveSnapshot r outcome else s).finishReload r.kind
          else s
  | .pageEnds id outcome =>
      match s.pages.find? (·.id == id) with
      | none => s
      | some p =>
          if outcome.Possible p.aborted then
            let s := { s with pages := s.pages.erase p }
            if s.Applies p.epoch then s.receivePage p outcome else s
          else s
  | .sprintsEnd seq outcome =>
      match s.sprintRequests.find? (·.seq == seq) with
      | none => s
      | some r =>
          if outcome.Possible r.aborted then
            let s := { s with sprintRequests := s.sprintRequests.erase r }
            if s.current = true ∧ r.seq = s.sprintsSeq then s.receiveSprints outcome else s
          else s
  | .accessRevoked => s.enterUnavailable
  | .stop => s.stopPublicBoard

/-! ## The claim -/

end PublicSession

namespace PublicBoardData

/-- The cards on display were fetched with the query, in the snapshot on display or in a page that
goes on from it. -/
def ShowsQuery (b : PublicBoardData) : Prop :=
  ∀ key, ∀ card ∈ b.columns key, card.query = b.query ∧ card.snapshot = b.shown

end PublicBoardData

namespace PublicSession

structure Right (s : PublicSession) : Prop where
  shows : s.snapshots = [] → s.filterError = true ∨ s.ShowsQuery
  nodup : ∀ key, ((s.columns key).map (·.localId)).Nodup
  /-- A lane that loads waits for a page of its own or for a snapshot. -/
  loading : ∀ key, ∀ lane ∈ s.lanes key, lane.loading = true →
    (∃ p ∈ s.pages, p.key = key ∧ p.epoch = s.dataEpoch) ∨ ∃ r ∈ s.snapshots, r.epoch = s.dataEpoch
  oneSnapshot : (s.snapshots.filter fun r => decide (s.Applies r.epoch)).length ≤ 1

/-- Whatever happens, the session draws nothing more and asks for nothing more. -/
def Silent (s : PublicSession) : Prop :=
  ∀ later, (run step s later).renders = s.renders ∧ (run step s later).requests = s.requests

/-- The answer of a reload leaves the board as it is. -/
def Fails (query : PublicBoardQuery) : PublicOutcome PublicBoardSnapshot → Prop
  | .failed => True
  | .invalidRequest => isPublicQueryActive query = false
  | _ => False

instance (query : PublicBoardQuery) (outcome : PublicOutcome PublicBoardSnapshot) :
    Decidable (Fails query outcome) := by
  unfold Fails
  split <;> infer_instance

/-- The page changes its lane. -/
def ChangesLane : PublicOutcome PublicLanePage → Prop
  | .success _ | .failed | .invalidRequest => True
  | _ => False

instance (outcome : PublicOutcome PublicLanePage) : Decidable (ChangesLane outcome) := by
  unfold ChangesLane
  split <;> infer_instance

/-- A reload that fails aborted no lane page, and as a refresh it did not take the place of the
reload for a new filter; and a page that changes its lane goes on from the snapshot on display. -/
def Fits (s : PublicSession) : PublicEvent → Prop
  | .snapshotEnds epoch outcome => ∀ r ∈ s.snapshots.find? (·.epoch == epoch),
      s.Applies r.epoch → Fails r.query outcome →
        s.interrupted = false ∧ (r.kind = .filter ∨ s.unshown = false ∨ s.filterError = true)
  | .pageEnds id outcome => ∀ p ∈ s.pages.find? (·.id == id),
      s.Applies p.epoch → ChangesLane outcome → p.cursor.snapshot = s.shown
  | _ => True

instance (s : PublicSession) (event : PublicEvent) : Decidable (s.Fits event) := by
  unfold Fits
  split <;> infer_instance

end PublicSession

/-! ## The invariant -/

namespace PublicBoardData

/-- What a reload keeps. -/
structure Stored (b : PublicBoardData) : Prop where
  epoch_le : ∀ r ∈ b.snapshots, r.epoch ≤ b.dataEpoch
  epochs : (b.snapshots.map (·.epoch)).Nodup
  page_le : ∀ p ∈ b.pages, p.epoch ≤ b.dataEpoch
  page_cursor : ∀ p ∈ b.pages, p.lane.nextCursor = some p.cursor
  cursors : ∀ key, ∀ lane ∈ b.lanes key, ∀ cursor ∈ lane.nextCursor, cursor.snapshot = b.shown
  nodup : ∀ key, ((b.columns key).map (·.localId)).Nodup
  shows : b.unshown = false → b.ShowsQuery
  loading : ∀ key, ∀ lane ∈ b.lanes key, lane.loading = true → b.interrupted = true ∨
    ∃ p ∈ b.pages, p.key = key ∧ p.epoch = b.dataEpoch ∧ p.aborted = false

/-- A snapshot is under way that can still be put on display. -/
def Reloading (b : PublicBoardData) : Prop := ∃ r ∈ b.snapshots, r.epoch = b.dataEpoch

structure Live (b : PublicBoardData) : Prop extends Stored b where
  alive : ∀ r ∈ b.snapshots, r.epoch = b.dataEpoch → r.aborted = false ∧ r.query = b.query
  page_query : ∀ p ∈ b.pages, p.epoch = b.dataEpoch → p.query = b.query
  waits : b.unshown = true → b.filterError = true ∨ b.Reloading
  replaces : b.interrupted = true → b.Reloading

variable {b : PublicBoardData}

/-- A change of the query is not shown yet. -/
theorem Stored.changeQuery (h : Stored b) (query : PublicBoardQuery) :
    Stored { b with query, unshown := true } :=
  ⟨h.epoch_le, h.epochs, h.page_le, h.page_cursor, h.cursors, h.nodup, nofun, h.loading⟩

theorem Stored.erase (h : Stored b) (r : SnapshotRequest) :
    Stored { b with snapshots := b.snapshots.erase r } :=
  ⟨fun r' hr' => h.epoch_le r' (List.mem_of_mem_erase hr'),
    h.epochs.sublist (List.erase_sublist.map _), h.page_le, h.page_cursor, h.cursors, h.nodup,
    h.shows, h.loading⟩

/-- A snapshot that arrives too late. -/
theorem Live.erase (h : Live b) {r : SnapshotRequest} (hlate : r.epoch ≠ b.dataEpoch) :
    Live { b with snapshots := b.snapshots.erase r } := by
  have hkeep : b.Reloading → Reloading { b with snapshots := b.snapshots.erase r } := by
    rintro ⟨r', hr', hepoch⟩
    refine ⟨r', (List.mem_erase_of_ne ?_).mpr hr', hepoch⟩
    rintro rfl
    exact hlate hepoch
  exact ⟨h.toStored.erase r, fun r' hr' => h.alive r' (List.mem_of_mem_erase hr'), h.page_query,
    fun hun => (h.waits hun).imp_right hkeep, fun hint => hkeep (h.replaces hint)⟩

end PublicBoardData

namespace PublicSession

open PublicBoardData

variable {s : PublicSession}

@[simp] theorem renderBoardRegions_data (s : PublicSession) :
    s.renderBoardRegions.toPublicBoardData = s.toPublicBoardData := by
  unfold renderBoardRegions
  split <;> rfl

@[simp] theorem renderBoardRegions_current (s : PublicSession) :
    s.renderBoardRegions.current = s.current := by
  unfold renderBoardRegions
  split <;> rfl

@[simp] theorem requestRefresh_data (s : PublicSession) :
    s.requestRefresh.toPublicBoardData = s.toPublicBoardData := by
  unfold requestRefresh
  split <;> rfl

@[simp] theorem finishReload_data (s : PublicSession) (kind : LoadKind) :
    (s.finishReload kind).toPublicBoardData = s.toPublicBoardData := by
  unfold finishReload
  split
  · dsimp only
    split
    · exact requestRefresh_data _
    · rfl
  · rfl

@[simp] theorem dropSprints_data (s : PublicSession) :
    s.dropSprints.toPublicBoardData = s.toPublicBoardData := by
  unfold dropSprints
  dsimp only
  split
  · rfl
  · exact renderBoardRegions_data _

theorem live_reloadSnapshot (h : Stored s.toPublicBoardData) (hcurrent : s.current = true)
    (kind : LoadKind) : Live (s.reloadSnapshot kind).toPublicBoardData := by
  unfold reloadSnapshot
  rw [if_pos hcurrent]
  have hold : ∀ r ∈ s.snapshots.map (·.abort), r.epoch ≤ s.dataEpoch := by
    intro r hr
    obtain ⟨r', hr', rfl⟩ := List.mem_map.mp hr
    exact h.epoch_le r' hr'
  have hpage : ∀ p ∈ s.pages.map (·.abort), p.epoch ≤ s.dataEpoch := by
    intro p hp
    obtain ⟨p', hp', rfl⟩ := List.mem_map.mp hp
    exact h.page_le p' hp'
  have hlast : Reloading { s.toPublicBoardData with
      dataEpoch := s.dataEpoch + 1
      snapshots := s.snapshots.map (·.abort) ++ [{ epoch := s.dataEpoch + 1, kind, query := s.query }] } :=
    ⟨_, List.mem_append_right _ List.mem_cons_self, rfl⟩
  refine ⟨⟨fun r hr => ?_, ?_, fun p hp => Nat.le_succ_of_le (hpage p hp), fun p hp => ?_, h.cursors,
    h.nodup, h.shows, fun key lane hlane hloading => .inl ?_⟩, fun r hr hepoch => ?_,
    fun p hp hepoch => ?_, fun _ => .inr hlast, fun _ => hlast⟩
  · rcases List.mem_append.mp hr with hr | hr
    · exact Nat.le_succ_of_le (hold r hr)
    · exact Nat.le_of_eq (congrArg _ (List.mem_singleton.mp hr))
  · rw [List.map_append, List.map_map, List.nodup_append]
    refine ⟨h.epochs, List.nodup_singleton _, fun e he e' he' heq => ?_⟩
    obtain ⟨r, hr, rfl⟩ := List.mem_map.mp he
    rw [List.map_singleton, List.mem_singleton] at he'
    have hle := h.epoch_le r hr
    have hsame : r.epoch = s.dataEpoch + 1 := heq.trans he'
    omega
  · obtain ⟨p', hp', rfl⟩ := List.mem_map.mp hp
    exact h.page_cursor p' hp'
  · dsimp only
    rcases h.loading key lane hlane hloading with hint | ⟨p, hp, -, -, haborted⟩
    · rw [hint, Bool.true_or]
    · rw [Bool.or_eq_true, List.any_eq_true]
      exact .inr ⟨p, hp, by rw [haborted, Bool.not_false]⟩
  · rcases List.mem_append.mp hr with hr | hr
    · have hle := hold r hr
      have heq : r.epoch = s.dataEpoch + 1 := hepoch
      omega
    · rw [List.mem_singleton.mp hr]
      exact ⟨rfl, rfl⟩
  · have hle := hpage p hp
    have heq : p.epoch = s.dataEpoch + 1 := hepoch
    omega

theorem live_setQuery (h : Live s.toPublicBoardData) (query : PublicBoardQuery) :
    Live (s.setQuery query).toPublicBoardData := by
  unfold setQuery
  split
  · rename_i hchange
    refine live_reloadSnapshot ?_ ?_ .filter
    · exact h.changeQuery query
    · exact hchange.1
  · exact h

theorem live_clearSprintFilter (h : Live s.toPublicBoardData) :
    Live s.clearSprintFilter.toPublicBoardData := by
  unfold clearSprintFilter
  split
  · rw [renderBoardRegions_data]
    exact live_setQuery h _
  · exact h

theorem live_syncSprintVocabulary (h : Live s.toPublicBoardData) (kind : LoadKind) :
    Live (s.syncSprintVocabulary kind).toPublicBoardData := by
  unfold syncSprintVocabulary
  split
  · exact h
  · split
    · exact live_clearSprintFilter ((dropSprints_data s).symm ▸ h)
    · split
      · exact h
      · exact h

/-! ## The requests end -/

theorem nodup_columnsFromSnapshot (query : PublicBoardQuery) (shown : ℕ) (snapshot : PublicBoardSnapshot)
    (key : String) : ((columnsFromSnapshot query shown snapshot key).map (·.localId)).Nodup := by
  unfold columnsFromSnapshot
  cases snapshot.lanes.lookup key with
  | none => exact List.nodup_nil
  | some page =>
      rw [Option.map_some, Option.getD_some, List.map_map]
      exact (List.map_id _).symm ▸ page.nodup

theorem mem_columnsFromSnapshot {query : PublicBoardQuery} {shown : ℕ} {snapshot : PublicBoardSnapshot}
    {key : String} {card : PublicCard} (h : card ∈ columnsFromSnapshot query shown snapshot key) :
    card.query = query ∧ card.snapshot = shown := by
  unfold columnsFromSnapshot at h
  cases hpage : snapshot.lanes.lookup key with
  | none =>
      rw [hpage] at h
      cases h
  | some page =>
      rw [hpage, Option.map_some, Option.getD_some] at h
      obtain ⟨id, -, rfl⟩ := List.mem_map.mp h
      exact ⟨rfl, rfl⟩

/-- A lane of a snapshot, as it is put on display. -/
theorem lanesFromSnapshot_eq_some {shown : ℕ} {snapshot : PublicBoardSnapshot} {key : String}
    {lane : PublicLaneState} (h : lanesFromSnapshot shown snapshot key = some lane) :
    lane.loading = false ∧ ∀ cursor ∈ lane.nextCursor, cursor.snapshot = shown := by
  obtain ⟨page, -, rfl⟩ := Option.map_eq_some_iff.mp h
  refine ⟨rfl, fun cursor hcursor => ?_⟩
  obtain ⟨token, -, rfl⟩ := Option.map_eq_some_iff.mp hcursor
  rfl

/-- A snapshot of the query is put on display. -/
theorem live_applySnapshot (h : Stored s.toPublicBoardData)
    (halive : ∀ r ∈ s.snapshots, r.epoch = s.dataEpoch → r.aborted = false ∧ r.query = s.query)
    (hpage : ∀ p ∈ s.pages, p.epoch = s.dataEpoch → p.query = s.query) (snapshot : PublicBoardSnapshot) :
    Live (s.applySnapshot s.query snapshot).toPublicBoardData := by
  refine ⟨⟨h.epoch_le, h.epochs, h.page_le, h.page_cursor, fun key lane hlane => ?_, fun key => ?_,
    fun _ key card hcard => mem_columnsFromSnapshot hcard, fun key lane hlane hloading => ?_⟩,
    halive, hpage, nofun, nofun⟩
  · exact (lanesFromSnapshot_eq_some hlane).2
  · exact nodup_columnsFromSnapshot _ _ _ _
  · rw [(lanesFromSnapshot_eq_some hlane).1] at hloading
    cases hloading

/-- A reload fails that aborted no page. -/
theorem live_reloadFailed (h : Stored s.toPublicBoardData) {kind : LoadKind}
    (halive : ∀ r ∈ s.snapshots, r.epoch = s.dataEpoch → r.aborted = false ∧ r.query = s.query)
    (hpage : ∀ p ∈ s.pages, p.epoch = s.dataEpoch → p.query = s.query)
    (hint : s.interrupted = false)
    (hshown : kind = .filter ∨ s.unshown = false ∨ s.filterError = true) :
    Live (s.reloadFailed kind).toPublicBoardData := by
  have hreplaces : s.interrupted = true → s.Reloading := by
    rw [hint]
    exact nofun
  unfold reloadFailed
  split
  · rw [renderBoardRegions_data]
    exact ⟨⟨h.epoch_le, h.epochs, h.page_le, h.page_cursor, h.cursors, h.nodup, h.shows, h.loading⟩,
      halive, hpage, fun _ => .inl rfl, hreplaces⟩
  · rename_i hkind
    refine ⟨h, halive, hpage, fun hun => .inl ?_, hreplaces⟩
    rcases hshown with hfilter | hnot | herror
    · exact absurd hfilter hkind
    · rw [hun] at hnot
      cases hnot
    · exact herror

theorem live_receiveSnapshot (h : Live s.toPublicBoardData) {r : SnapshotRequest} (hr : r ∈ s.snapshots)
    (happlies : s.Applies r.epoch) {outcome : PublicOutcome PublicBoardSnapshot}
    (hpossible : outcome.Possible r.aborted)
    (hfits : Fails r.query outcome →
      s.interrupted = false ∧ (r.kind = .filter ∨ s.unshown = false ∨ s.filterError = true))
    (hcurrent : (({ s with snapshots := s.snapshots.erase r } : PublicSession).receiveSnapshot r
      outcome).current = true) :
    Live (({ s with snapshots := s.snapshots.erase r } : PublicSession).receiveSnapshot r
      outcome).toPublicBoardData := by
  obtain ⟨halive, hquery⟩ := h.alive r hr happlies.2
  have hstored := h.toStored.erase r
  have hrest : ∀ r' ∈ s.snapshots.erase r, r'.epoch = s.dataEpoch → r'.aborted = false ∧ r'.query = s.query :=
    fun r' hr' => h.alive r' (List.mem_of_mem_erase hr')
  cases outcome with
  | success snapshot =>
      refine live_syncSprintVocabulary ?_ _
      rw [renderBoardRegions_data, hquery]
      exact live_applySnapshot (s := { s with snapshots := s.snapshots.erase r, filterError := false })
        ⟨hstored.epoch_le, hstored.epochs, hstored.page_le, hstored.page_cursor, hstored.cursors,
          hstored.nodup, hstored.shows, hstored.loading⟩ hrest h.page_query snapshot
  | notFound =>
      unfold receiveSnapshot enterUnavailable at hcurrent
      rw [if_pos happlies.1] at hcurrent
      cases hcurrent
  | invalidRequest =>
      rw [receiveSnapshot]
      by_cases hactive : isPublicQueryActive r.query = true
      · rw [if_pos hactive]
        refine live_reloadSnapshot ?_ ?_ _
        · rw [renderBoardRegions_data]
          exact hstored.changeQuery _
        · rw [renderBoardRegions_current]
          exact happlies.1
      · rw [if_neg hactive]
        obtain ⟨hint, hshown⟩ := hfits (eq_false_of_ne_true hactive)
        exact live_reloadFailed hstored hrest h.page_query hint hshown
  | failed =>
      obtain ⟨hint, hshown⟩ := hfits trivial
      exact live_reloadFailed hstored hrest h.page_query hint hshown
  | aborted =>
      have haborted : r.aborted = true := hpossible
      rw [halive] at haborted
      cases haborted

/-- A page that came too late, or whose request was aborted. -/
theorem live_erasePage (h : Live s.toPublicBoardData) {p : PublicPageRequest}
    (hdropped : p.epoch ≠ s.dataEpoch ∨ p.aborted = true) :
    Live { s.toPublicBoardData with pages := s.pages.erase p } := by
  refine ⟨⟨h.epoch_le, h.epochs, fun q hq => h.page_le q (List.mem_of_mem_erase hq),
    fun q hq => h.page_cursor q (List.mem_of_mem_erase hq), h.cursors, h.nodup, h.shows,
    fun key lane hlane hloading => ?_⟩, h.alive, fun q hq => h.page_query q (List.mem_of_mem_erase hq),
    h.waits, h.replaces⟩
  rcases h.loading key lane hlane hloading with hint | ⟨q, hq, hkey, hepoch, haborted⟩
  · exact .inl hint
  · refine .inr ⟨q, (List.mem_erase_of_ne ?_).mpr hq, hkey, hepoch, haborted⟩
    rintro rfl
    rcases hdropped with hlate | habort
    · exact hlate hepoch
    · rw [habort] at haborted
      cases haborted

/-- The page ends, and its lane does not load any more. -/
theorem live_updateLane (h : Live s.toPublicBoardData) {p : PublicPageRequest} {cards : List PublicCard}
    {lane : PublicLaneState} (hnodup : (cards.map (·.localId)).Nodup)
    (hcards : s.unshown = false → ∀ card ∈ cards, card.query = s.query ∧ card.snapshot = s.shown)
    (hcursor : ∀ cursor ∈ lane.nextCursor, cursor.snapshot = s.shown) (hloading : lane.loading = false) :
    Live { s.toPublicBoardData with
      pages := s.pages.erase p
      columns := Function.update s.columns p.key cards
      lanes := Function.update s.lanes p.key (some lane) } := by
  refine ⟨⟨h.epoch_le, h.epochs, fun q hq => h.page_le q (List.mem_of_mem_erase hq),
    fun q hq => h.page_cursor q (List.mem_of_mem_erase hq), fun key lane' hlane' => ?_, fun key => ?_,
    fun hun key card hcard => ?_, fun key lane' hlane' hloading' => ?_⟩, h.alive,
    fun q hq => h.page_query q (List.mem_of_mem_erase hq), h.waits, h.replaces⟩ <;>
    dsimp only at * <;>
    by_cases hkey : key = p.key
  · subst hkey
    rw [Function.update_self] at hlane'
    cases hlane'
    exact hcursor
  · rw [Function.update_of_ne hkey] at hlane'
    exact h.cursors key lane' hlane'
  · subst hkey
    rw [Function.update_self]
    exact hnodup
  · rw [Function.update_of_ne hkey]
    exact h.nodup key
  · subst hkey
    rw [Function.update_self] at hcard
    exact hcards hun card hcard
  · rw [Function.update_of_ne hkey] at hcard
    exact h.shows hun key card hcard
  · subst hkey
    rw [Function.update_self] at hlane'
    cases hlane'
    rw [hloading] at hloading'
    cases hloading'
  · rw [Function.update_of_ne hkey] at hlane'
    rcases h.loading key lane' hlane' hloading' with hint | ⟨q, hq, hq', hrest⟩
    · exact .inl hint
    · refine .inr ⟨q, (List.mem_erase_of_ne ?_).mpr hq, hq', hrest⟩
      rintro rfl
      exact hkey hq'.symm

/-- The new cards of a page are not in the lane. -/
theorem nodup_append_additions {p : PublicPageRequest} {cards : List PublicCard} (page : PublicLanePage)
    (h : (cards.map (·.localId)).Nodup) :
    ((cards ++ additions p cards page).map (·.localId)).Nodup := by
  have hids : (additions p cards page).map (·.localId) =
      page.items.filter (· ∉ cards.map (·.localId)) := by
    rw [additions, List.map_map]
    exact List.map_id _
  rw [List.map_append, hids, List.nodup_append]
  refine ⟨h, page.nodup.filter _, fun id hid id' hid' heq => ?_⟩
  have hnot := of_decide_eq_true (List.mem_filter.mp hid').2
  exact hnot (heq ▸ hid)

theorem live_receivePage (h : Live s.toPublicBoardData) {p : PublicPageRequest} (hp : p ∈ s.pages)
    (happlies : s.Applies p.epoch) {outcome : PublicOutcome PublicLanePage}
    (hpossible : outcome.Possible p.aborted)
    (hfits : ChangesLane outcome → p.cursor.snapshot = s.shown)
    (hcurrent : (({ s with pages := s.pages.erase p } : PublicSession).receivePage p outcome).current =
      true) :
    Live (({ s with pages := s.pages.erase p } : PublicSession).receivePage p outcome).toPublicBoardData := by
  have hfailed (hsame : p.cursor.snapshot = s.shown) : Live { s.toPublicBoardData with
      pages := s.pages.erase p
      lanes := Function.update s.lanes p.key (some { p.lane with loading := false, error := true }) } := by
    have hlive := @live_updateLane _ h p (s.columns p.key)
      { p.lane with loading := false, error := true } (h.nodup p.key)
      (fun hun => h.shows hun p.key) (fun cursor hcursor => ?_) rfl
    · rwa [Function.update_eq_self] at hlive
    · rw [show p.lane.nextCursor = some p.cursor from h.page_cursor p hp] at hcursor
      cases hcursor
      exact hsame
  cases outcome with
  | success page =>
      have hsame := hfits trivial
      rw [receivePage, renderBoardRegions_data]
      refine live_updateLane h (nodup_append_additions page (h.nodup p.key)) (fun hun card hcard => ?_)
        (fun cursor hcursor => ?_) rfl
      · rcases List.mem_append.mp hcard with hcard | hcard
        · exact h.shows hun p.key card hcard
        · obtain ⟨id, -, rfl⟩ := List.mem_map.mp hcard
          exact ⟨h.page_query p hp happlies.2, hsame⟩
      · obtain ⟨token, -, rfl⟩ := Option.map_eq_some_iff.mp hcursor
        exact hsame
  | notFound =>
      unfold receivePage enterUnavailable at hcurrent
      rw [if_pos happlies.1] at hcurrent
      cases hcurrent
  | invalidRequest =>
      rw [receivePage, renderBoardRegions_data]
      exact hfailed (hfits trivial)
  | failed =>
      rw [receivePage, renderBoardRegions_data]
      exact hfailed (hfits trivial)
  | aborted => exact live_erasePage h (.inr hpossible)

theorem live_loadMore (h : Live s.toPublicBoardData) (key : String) :
    Live (s.loadMore key).toPublicBoardData := by
  unfold loadMore
  split
  · exact h
  · rename_i lane hlane
    split
    · exact h
    · rename_i cursor hcursor
      split
      · have hold {q : PublicPageRequest}
            (hq : q ∈ s.pages.map fun p => if p.key = key then p.abort else p) :
            ∃ p ∈ s.pages, q.epoch = p.epoch ∧ q.lane = p.lane ∧ q.cursor = p.cursor ∧ q.query = p.query := by
          obtain ⟨p, hp, rfl⟩ := List.mem_map.mp hq
          refine ⟨p, hp, ?_⟩
          split <;> exact ⟨rfl, rfl, rfl, rfl⟩
        refine ⟨⟨h.epoch_le, h.epochs, fun q hq => ?_, fun q hq => ?_, fun key' lane' hlane' => ?_, h.nodup,
          h.shows, fun key' lane' hlane' hloading => ?_⟩, h.alive, fun q hq hepoch => ?_, h.waits,
          h.replaces⟩
        · rcases List.mem_append.mp hq with hq | hq
          · obtain ⟨p, hp, hepoch, -⟩ := hold hq
            exact hepoch ▸ h.page_le p hp
          · exact Nat.le_of_eq (congrArg _ (List.mem_singleton.mp hq))
        · rcases List.mem_append.mp hq with hq | hq
          · obtain ⟨p, hp, -, hsame, hsame', -⟩ := hold hq
            rw [hsame, hsame']
            exact h.page_cursor p hp
          · rw [List.mem_singleton.mp hq]
            exact hcursor
        · dsimp only at hlane'
          by_cases hkey : key' = key
          · subst hkey
            rw [Function.update_self] at hlane'
            cases hlane'
            exact h.cursors key' lane hlane
          · rw [Function.update_of_ne hkey] at hlane'
            exact h.cursors key' lane' hlane'
        · by_cases hkey : key' = key
          · exact .inr ⟨_, List.mem_append_right _ List.mem_cons_self, hkey.symm, rfl, rfl⟩
          · dsimp only at hlane'
            rw [Function.update_of_ne hkey] at hlane'
            rcases h.loading key' lane' hlane' hloading with hint | ⟨q, hq, hq', hrest⟩
            · exact .inl hint
            · refine .inr ⟨q, List.mem_append_left _ (List.mem_map.mpr ⟨q, hq, if_neg ?_⟩), hq', hrest⟩
              exact fun heq => hkey (hq'.symm.trans heq)
        · rcases List.mem_append.mp hq with hq | hq
          · obtain ⟨p, hp, hsame, -, -, hquery⟩ := hold hq
            exact hquery.trans (h.page_query p hp (hsame.symm.trans hepoch))
          · rw [List.mem_singleton.mp hq]
      · exact h

/-! ## The end of a session -/

/-- A step of a session that is not the one of the page. -/
theorem step_of_not_current (h : s.current = false) (event : PublicEvent) :
    (s.step event).current = false ∧ (s.step event).renders = s.renders ∧
      (s.step event).requests = s.requests := by
  have hnot : ¬ s.current = true := by simp [h]
  cases event with
  | setQuery query => simp [step, setQuery, h]
  | applyPublicBoardRoute slug query => simp [step, applyPublicBoardRoute, h]
  | requestRefresh => simp [step, requestRefresh, h]
  | refreshTimerFires =>
      dsimp only [step]
      split <;> simp [runRefresh, h]
  | retry => simp [step, reloadSnapshot, h]
  | loadMore key =>
      dsimp only [step]
      unfold loadMore
      split
      · exact ⟨h, rfl, rfl⟩
      · split
        · exact ⟨h, rfl, rfl⟩
        · rw [if_neg fun hand => hnot hand.1]
          exact ⟨h, rfl, rfl⟩
  | snapshotEnds epoch outcome =>
      dsimp only [step]
      split
      · exact ⟨h, rfl, rfl⟩
      · split
        · rw [if_neg fun happlies => hnot happlies.1]
          unfold finishReload
          split <;> simp [h]
        · exact ⟨h, rfl, rfl⟩
  | pageEnds id outcome =>
      dsimp only [step]
      split
      · exact ⟨h, rfl, rfl⟩
      · split
        · rw [if_neg fun happlies => hnot happlies.1]
          exact ⟨h, rfl, rfl⟩
        · exact ⟨h, rfl, rfl⟩
  | sprintsEnd seq outcome =>
      dsimp only [step]
      split
      · exact ⟨h, rfl, rfl⟩
      · split
        · rw [if_neg fun hand => hnot hand.1]
          exact ⟨h, rfl, rfl⟩
        · exact ⟨h, rfl, rfl⟩
  | accessRevoked => simp [step, enterUnavailable, h]
  | stop => simp [step, stopPublicBoard, h]

theorem silent_of_not_current (h : s.current = false) : s.Silent := by
  intro later
  induction later generalizing s with
  | nil => exact ⟨rfl, rfl⟩
  | cons event later ih =>
      obtain ⟨hended, hrenders, hrequests⟩ := step_of_not_current h event
      obtain ⟨hrenders', hrequests'⟩ := ih hended
      exact ⟨hrenders'.trans hrenders, hrequests'.trans hrequests⟩

theorem stopPublicBoard_current (s : PublicSession) : s.stopPublicBoard.current = false := by
  unfold stopPublicBoard
  split
  · rfl
  · rename_i hnot
    exact eq_false_of_ne_true hnot

theorem enterUnavailable_current (s : PublicSession) : s.enterUnavailable.current = false := by
  unfold enterUnavailable
  split
  · rfl
  · rename_i hnot
    exact eq_false_of_ne_true hnot

/-! ## The steps -/

theorem live_applyPublicBoardRoute (h : Live s.toPublicBoardData) (slug : String)
    (query : PublicBoardQuery) : Live (s.applyPublicBoardRoute slug query).toPublicBoardData := by
  unfold applyPublicBoardRoute
  split
  · rename_i hchange
    refine live_reloadSnapshot ?_ ?_ .filter
    · rw [renderBoardRegions_data]
      exact h.changeQuery query
    · rw [renderBoardRegions_current]
      exact hchange.1
  · exact h

theorem live_reload (h : Live s.toPublicBoardData) (kind : LoadKind) :
    Live (s.reloadSnapshot kind).toPublicBoardData := by
  by_cases hcurrent : s.current = true
  · exact live_reloadSnapshot h.toStored hcurrent kind
  · rw [reloadSnapshot, if_neg hcurrent]
    exact h

theorem live_runRefresh (h : Live s.toPublicBoardData) : Live s.runRefresh.toPublicBoardData := by
  unfold runRefresh
  split
  · exact h
  · split
    · exact h
    · exact live_reload (s := { s with refreshInFlight := true }) h .refresh

theorem live_receiveSprints (h : Live s.toPublicBoardData) (outcome : PublicOutcome (List ℕ))
    (hcurrent : (s.receiveSprints outcome).current = true) :
    Live (s.receiveSprints outcome).toPublicBoardData := by
  unfold receiveSprints at hcurrent ⊢
  split
  · split
    · exact h
    · dsimp only
      split
      · exact live_clearSprintFilter h
      · rw [renderBoardRegions_data]
        exact h
  · rw [enterUnavailable_current] at hcurrent
    cases hcurrent
  · exact h

@[simp] theorem finishReload_current (s : PublicSession) (kind : LoadKind) :
    (s.finishReload kind).current = s.current := by
  unfold finishReload
  split
  · dsimp only
    split
    · unfold requestRefresh
      split <;> rfl
    · rfl
  · rfl

theorem live_step (h : Live s.toPublicBoardData) {event : PublicEvent} (hfits : s.Fits event)
    (hcurrent : (s.step event).current = true) : Live (s.step event).toPublicBoardData := by
  have hwas : s.current = true := by
    by_contra hnot
    rw [(step_of_not_current (eq_false_of_ne_true hnot) event).1] at hcurrent
    cases hcurrent
  cases event with
  | setQuery query => exact live_setQuery h query
  | applyPublicBoardRoute slug query => exact live_applyPublicBoardRoute h slug query
  | requestRefresh => exact (requestRefresh_data s).symm ▸ h
  | refreshTimerFires =>
      dsimp only [step]
      split
      · exact live_runRefresh (s := { s with refreshTimer := false }) h
      · exact h
  | retry => exact live_reload h .filter
  | loadMore key => exact live_loadMore h key
  | snapshotEnds epoch outcome =>
      dsimp only [step] at hcurrent ⊢
      cases hfind : s.snapshots.find? (·.epoch == epoch) with
      | none => exact h
      | some r =>
          rw [hfind] at hcurrent
          dsimp only at hcurrent ⊢
          by_cases hpossible : outcome.Possible r.aborted
          · rw [if_pos hpossible] at hcurrent ⊢
            rw [finishReload_current] at hcurrent
            rw [finishReload_data]
            by_cases happlies : s.Applies r.epoch
            · have happlies' : ({ s with snapshots := s.snapshots.erase r } : PublicSession).Applies
                r.epoch := happlies
              rw [if_pos happlies'] at hcurrent ⊢
              exact live_receiveSnapshot h (List.mem_of_find?_eq_some hfind) happlies hpossible
                (hfits r hfind happlies) hcurrent
            · have happlies' : ¬ ({ s with snapshots := s.snapshots.erase r } : PublicSession).Applies
                r.epoch := happlies
              rw [if_neg happlies']
              exact h.erase fun heq => happlies ⟨hwas, heq⟩
          · rw [if_neg hpossible]
            exact h
  | pageEnds id outcome =>
      dsimp only [step] at hcurrent ⊢
      cases hfind : s.pages.find? (·.id == id) with
      | none => exact h
      | some p =>
          rw [hfind] at hcurrent
          dsimp only at hcurrent ⊢
          by_cases hpossible : outcome.Possible p.aborted
          · rw [if_pos hpossible] at hcurrent ⊢
            by_cases happlies : s.Applies p.epoch
            · have happlies' : ({ s with pages := s.pages.erase p } : PublicSession).Applies
                p.epoch := happlies
              rw [if_pos happlies'] at hcurrent ⊢
              exact live_receivePage h (List.mem_of_find?_eq_some hfind) happlies hpossible
                (hfits p hfind happlies) hcurrent
            · have happlies' : ¬ ({ s with pages := s.pages.erase p } : PublicSession).Applies
                p.epoch := happlies
              rw [if_neg happlies']
              exact live_erasePage h (.inl fun heq => happlies ⟨hwas, heq⟩)
          · rw [if_neg hpossible]
            exact h
  | sprintsEnd seq outcome =>
      dsimp only [step] at hcurrent ⊢
      cases hfind : s.sprintRequests.find? (·.seq == seq) with
      | none => exact h
      | some r =>
          rw [hfind] at hcurrent
          dsimp only at hcurrent ⊢
          split
          · rename_i hpossible
            rw [if_pos hpossible] at hcurrent
            split
            · rename_i happlies
              rw [if_pos happlies] at hcurrent
              exact live_receiveSprints (s := { s with sprintRequests := s.sprintRequests.erase r }) h outcome
                hcurrent
            · exact h
          · exact h
  | accessRevoked =>
      dsimp only [step] at hcurrent
      rw [enterUnavailable_current] at hcurrent
      cases hcurrent
  | stop =>
      dsimp only [step] at hcurrent
      rw [stopPublicBoard_current] at hcurrent
      cases hcurrent

/-- A session that is the one of the page. -/
def Good (s : PublicSession) : Prop := s.current = true → Live s.toPublicBoardData

theorem good_step (h : s.Good) {event : PublicEvent} (hfits : s.Fits event) : (s.step event).Good := by
  intro hcurrent
  cases hwas : s.current with
  | true => exact live_step (h hwas) hfits hcurrent
  | false =>
      rw [(step_of_not_current hwas event).1] at hcurrent
      cases hcurrent

theorem good_resolvePublicBoard (slug : String) (query : PublicBoardQuery) (snapshot : PublicBoardSnapshot) :
    (resolvePublicBoard slug query snapshot).Good := by
  intro _
  refine live_syncSprintVocabulary ?_ _
  rw [renderBoardRegions_data]
  refine live_applySnapshot (s := { slug, query }) ?_ ?_ ?_ snapshot
  · exact ⟨by simp, by simp, by simp, by simp, by simp, by simp, fun _ _ => by simp, by simp⟩
  · simp
  · simp

/-- Requests of distinct epochs: one at most is of the current one. -/
theorem length_filter_le_one (h : (s.snapshots.map (·.epoch)).Nodup) :
    (s.snapshots.filter fun r => decide (s.Applies r.epoch)).length ≤ 1 := by
  have hnodup : ((s.snapshots.filter fun r => decide (s.Applies r.epoch)).map (·.epoch)).Nodup :=
    h.sublist (List.filter_sublist.map _)
  have hsame : ∀ e ∈ (s.snapshots.filter fun r => decide (s.Applies r.epoch)).map (·.epoch),
      e = s.dataEpoch := by
    intro e he
    obtain ⟨r, hr, rfl⟩ := List.mem_map.mp he
    exact (of_decide_eq_true (List.mem_filter.mp hr).2).2
  rw [List.eq_replicate_of_mem hsame, List.nodup_replicate, List.length_map] at hnodup
  exact hnodup

theorem right_of_live (h : Live s.toPublicBoardData) : s.Right where
  shows hquiet := by
    have hnone : ¬ s.Reloading := by
      rintro ⟨r, hr, -⟩
      rw [hquiet] at hr
      cases hr
    cases hun : s.unshown with
    | true => exact .inl ((h.waits hun).resolve_right hnone)
    | false => exact .inr (h.shows hun)
  nodup := h.nodup
  loading key lane hlane hloading := by
    rcases h.loading key lane hlane hloading with hint | ⟨p, hp, hkey, hepoch, -⟩
    · exact .inr (h.replaces hint)
    · exact .inl ⟨p, hp, hkey, hepoch⟩
  oneSnapshot := length_filter_le_one h.epochs

end PublicSession

open PublicSession in
/-- The session of a public board shows its cards under their filter, in every run where a reload
that fails neither aborted a page nor took the place of a new filter's, and pages go on from the
snapshot on display; and when it has ended it is silent. -/
theorem public_board_right {slug : String} {query : PublicBoardQuery} {snapshot : PublicBoardSnapshot}
    {events : List PublicEvent}
    (h : Along Fits step (resolvePublicBoard slug query snapshot) events) :
    let s := run step (resolvePublicBoard slug query snapshot) events
    (s.current = true → s.Right) ∧ s.stopPublicBoard.Silent ∧ s.enterUnavailable.Silent := by
  have hgood := run_along (I := Good) (fun _ _ hgood => good_step hgood)
    (good_resolvePublicBoard slug query snapshot) h
  exact ⟨fun hcurrent => right_of_live (hgood hcurrent),
    silent_of_not_current (stopPublicBoard_current _), silent_of_not_current (enterUnavailable_current _)⟩

theorem nodup_wholeBoard : ([1, 2] : List ℕ).Nodup := by decide

theorem nodup_filtered : ([2] : List ℕ).Nodup := List.nodup_singleton 2

def wholeBoard : PublicBoardSnapshot where
  lanes := [("todo", { items := [1, 2], hasMore := true, nextCursor := some "2", nodup := nodup_wholeBoard })]

/-- The visitor filters by a tag, and asks for the next page. -/
def filteredPage : List PublicEvent :=
  [.setQuery { tags := ["bug"] },
    .snapshotEnds 1 (.success ⟨[("todo", ⟨[2], true, some "2", nodup_filtered⟩)], false⟩),
    .loadMore "todo", .pageEnds 0 (.success ⟨[4], false, none, by decide⟩)]

/-- The page of the filtered board. -/
theorem public_board_right_filtered :
    let s := run PublicSession.step (PublicSession.resolvePublicBoard "plan" {} wholeBoard) filteredPage
    (s.current = true → s.Right) ∧ s.stopPublicBoard.Silent ∧ s.enterUnavailable.Silent :=
  public_board_right (by decide +kernel)

/-- The reload for a new filter gives way to a refresh, which fails. -/
def refreshedMeanwhile : List PublicEvent :=
  [.setQuery { tags := ["bug"] }, .requestRefresh, .refreshTimerFires, .snapshotEnds 1 .aborted,
    .snapshotEnds 2 .failed]

/-- The cards of the whole board stay on display under the filter. -/
theorem refreshed_filter : ¬ ∀ (slug : String) (query : PublicBoardQuery) (snapshot : PublicBoardSnapshot)
    (events : List PublicEvent),
    let s := run PublicSession.step (PublicSession.resolvePublicBoard slug query snapshot) events
    (s.current = true → s.Right) ∧ s.stopPublicBoard.Silent ∧ s.enterUnavailable.Silent := by
  intro h
  have hright := (h "plan" {} wholeBoard refreshedMeanwhile).1 (by decide +kernel)
  have hshows := (hright.shows (by decide +kernel)).resolve_left (by decide +kernel)
  have hcard := hshows "todo" ⟨1, {}, 1⟩ (by decide +kernel)
  exact absurd hcard.1 (by decide +kernel)

/-- A refresh aborts the page of a lane, and fails. -/
def pageAborted : PublicSession :=
  run PublicSession.step (PublicSession.resolvePublicBoard "plan" {} wholeBoard)
    [.loadMore "todo", .requestRefresh, .refreshTimerFires, .pageEnds 0 .aborted, .snapshotEnds 1 .failed]

/-- The lane loads, and nothing is under way. -/
example : (pageAborted.lanes "todo").map (·.loading) = some true ∧ pageAborted.pages = [] ∧
    pageAborted.snapshots = [] := by decide +kernel

/-- A page of the whole board is asked for while the filtered board is under way. -/
def wholeBoardPage : PublicSession :=
  run PublicSession.step (PublicSession.resolvePublicBoard "plan" {} wholeBoard)
    [.setQuery { tags := ["bug"] }, .loadMore "todo",
      .snapshotEnds 1 (.success ⟨[("todo", ⟨[2], true, some "2", nodup_filtered⟩)], false⟩),
      .pageEnds 0 (.success ⟨[7], false, none, by decide⟩)]

/-- The card of the page does not go on from the filtered board. -/
example : wholeBoardPage.shown = 2 ∧
    (wholeBoardPage.columns "todo").map (fun card => (card.localId, card.snapshot)) = [(2, 2), (7, 1)] := by
  decide +kernel

end Scrumboy.Web
