import Scrumboy.Go.Json
import Scrumboy.Transition.Runs
import Scrumboy.Transition.Timers

/-!
# Refreshes of the open board

A board view that hears of a change queues a refresh: it waits for a moment, and for as long as
the user interacts with the board, though not for longer than two seconds; a drag holds it back
without limit. The reload then goes through `invalidateBoard`, which drops a call that repeats a
recent one.
-/

set_option linter.dupNamespace false

namespace Scrumboy

open Transition

/-- `JSON.stringify` of a list of strings. -/
def stringifyTexts (texts : List String) : String :=
  let rune (c : Char) : List Char :=
    match Go.jsonLetter c with
    | some e => ['\\', e]
    | none => if c.toNat < 32 then '\\' :: 'u' :: Go.hexPadded 4 c.toNat else [c]
  let text (s : String) : String := String.ofList ('"' :: s.toList.flatMap rune ++ ['"'])
  "[" ++ ",".intercalate (texts.map text) ++ "]"

/-- What the URL of the board filters by. -/
structure BoardFilters where
  tags : List String := []
  search : Option String := none
  sprintId : Option String := none
  assignee : Option String := none
  sort : Option String := none
  priority : Option String := none
  deriving DecidableEq, Repr

def invalidateCoalesceKey (slug : String) (filters : BoardFilters) : String :=
  "\t".intercalate [slug, stringifyTexts filters.tags, filters.search.getD "",
    filters.sprintId.getD "", filters.assignee.getD "", filters.sort.getD "",
    filters.priority.getD ""]

def realtimeRefetchDebounceMs : ℤ := 400

def localRealtimeGuardMs : ℤ := 1500

def boardInteractionGuardMs : ℤ := 400

def maxRefreshDelayMs : ℤ := 2000

def invalidateCoalesceMs : ℤ := 700

inductive RefreshTimerKind
  | refetch
  | force
  deriving DecidableEq, Repr

structure RefreshTimer where
  kind : RefreshTimerKind
  delay : ℤ
  deriving DecidableEq, Repr

/-- The state of the board view that refreshes depend on. The last three fields only observe:
`tick` counts the events, and `accepted` and `reloaded` say at which of them the open board last
accepted a refresh and last started a reload, since it was entered. -/
structure RealtimeBoard where
  slug : Option String := none
  filters : BoardFilters := {}
  now : ℤ := 0
  pendingRealtimeRefreshSlug : Option String := none
  realtimeRefetchTimeoutId : Option ℕ := none
  realtimeForceRefreshTimeoutId : Option ℕ := none
  timers : Timers RefreshTimer := {}
  boardPointerInteractionActive : Bool := false
  todoDialogOpeningInProgress : Bool := false
  dragInProgress : Bool := false
  bulkUpdating : Bool := false
  lastLocalMutationTimestamp : ℤ := 0
  lastBoardInteractionTimestamp : ℤ := 0
  lastInvalidate : Option (String × ℤ) := none
  tick : ℕ := 0
  accepted : Option ℕ := none
  reloaded : Option ℕ := none
  deriving DecidableEq, Repr

inductive BoardEvent
  /-- A refresh event for the open board. -/
  | refresh
  | clock (now : ℤ)
  | pointerDown
  | pointerFinished
  | dialogOpening
  | dialogOpened
  | drag (active : Bool)
  | bulkUpdate (active : Bool)
  | localMutation
  | filter (filters : BoardFilters)
  | fire (timer : ℕ)
  /-- Another part of the application asks for a reload. -/
  | invalidate (slug : String) (filters : BoardFilters) (force : Bool)
  /-- The view loads the board by itself, as when the filters change. -/
  | load (slug : String)
  /-- The board is left for another one, or for none. -/
  | navigate (slug : Option String)
  | disconnect
  deriving DecidableEq, Repr

namespace RealtimeBoard

def clearRealtimeRefetchTimer (b : RealtimeBoard) : RealtimeBoard :=
  { b with timers := b.timers.clear b.realtimeRefetchTimeoutId, realtimeRefetchTimeoutId := none }

def clearRealtimeForceRefreshTimer (b : RealtimeBoard) : RealtimeBoard :=
  { b with
    timers := b.timers.clear b.realtimeForceRefreshTimeoutId
    realtimeForceRefreshTimeoutId := none }

def clearPendingRealtimeRefresh (b : RealtimeBoard) : RealtimeBoard :=
  { b with pendingRealtimeRefreshSlug := none }.clearRealtimeRefetchTimer.clearRealtimeForceRefreshTimer

def localRealtimeGuardRemaining (b : RealtimeBoard) : ℤ :=
  max 0 (localRealtimeGuardMs - (b.now - b.lastLocalMutationTimestamp))

def boardInteractionGuardRemaining (b : RealtimeBoard) : ℤ :=
  max 0 (boardInteractionGuardMs - (b.now - b.lastBoardInteractionTimestamp))

def isRealtimeRefreshBlockedByNonDragGuard (b : RealtimeBoard) : Bool :=
  b.boardPointerInteractionActive || b.todoDialogOpeningInProgress ||
    0 < b.localRealtimeGuardRemaining || 0 < b.boardInteractionGuardRemaining

def realtimeRefreshDelay (b : RealtimeBoard) : ℤ :=
  max realtimeRefetchDebounceMs (max b.localRealtimeGuardRemaining b.boardInteractionGuardRemaining)

def scheduleRealtimeRefreshAttempt (b : RealtimeBoard) (delay : ℤ) : RealtimeBoard :=
  let b := b.clearRealtimeRefetchTimer
  { b with timers := b.timers.set ⟨.refetch, delay⟩, realtimeRefetchTimeoutId := some b.timers.next }

def ensureRealtimeForceRefreshTimer (b : RealtimeBoard) : RealtimeBoard :=
  if b.pendingRealtimeRefreshSlug = none ∨ b.realtimeForceRefreshTimeoutId ≠ none then b
  else
    { b with
      timers := b.timers.set ⟨.force, maxRefreshDelayMs⟩
      realtimeForceRefreshTimeoutId := some b.timers.next }

/-- `loadBoardBySlug` up to its request: what is pending is dropped, and a reload begins. -/
def loadBoardBySlug (b : RealtimeBoard) (slug : String) : RealtimeBoard :=
  { b.clearPendingRealtimeRefresh with
    reloaded := if b.slug = some slug then some b.tick else b.reloaded }

/-- The call repeats a recent one. -/
def Coalesced (b : RealtimeBoard) (slug : String) (filters : BoardFilters) : Prop :=
  ∃ last ∈ b.lastInvalidate, last.1 = invalidateCoalesceKey slug filters ∧
    b.now - last.2 < invalidateCoalesceMs

instance (b : RealtimeBoard) (slug : String) (filters : BoardFilters) :
    Decidable (b.Coalesced slug filters) := by
  unfold Coalesced
  infer_instance

/-- `invalidateBoard`, with `loadBoardBySlug` as the refresher. -/
def invalidateBoard (b : RealtimeBoard) (slug : String) (filters : BoardFilters) (force : Bool) :
    RealtimeBoard :=
  if force = false ∧ b.Coalesced slug filters then b
  else
    { b with lastInvalidate := some (invalidateCoalesceKey slug filters, b.now) }.loadBoardBySlug slug

def flushPendingRealtimeRefresh (b : RealtimeBoard) (force : Bool) : RealtimeBoard :=
  match b.pendingRealtimeRefreshSlug with
  | none => b.clearRealtimeRefetchTimer.clearRealtimeForceRefreshTimer
  | some slug =>
      if b.slug ≠ some slug then b.clearPendingRealtimeRefresh
      else if b.dragInProgress then
        b.clearRealtimeForceRefreshTimer.scheduleRealtimeRefreshAttempt b.realtimeRefreshDelay
      else if force = false ∧ b.isRealtimeRefreshBlockedByNonDragGuard then
        (b.scheduleRealtimeRefreshAttempt b.realtimeRefreshDelay).ensureRealtimeForceRefreshTimer
      else b.clearPendingRealtimeRefresh.invalidateBoard slug b.filters false

def refetchBoardFromRealtime (b : RealtimeBoard) (slug : String) : RealtimeBoard :=
  if b.bulkUpdating then b
  else
    let b := { b with accepted := some b.tick }
    if b.pendingRealtimeRefreshSlug = some slug then b
    else
      let b := { b with pendingRealtimeRefreshSlug := some slug }
      let b := b.scheduleRealtimeRefreshAttempt b.realtimeRefreshDelay
      if b.dragInProgress then b else b.ensureRealtimeForceRefreshTimer

def recordBoardInteraction (b : RealtimeBoard) : RealtimeBoard :=
  { b with lastBoardInteractionTimestamp := b.now }

/-- The board is left: nothing is owed to it any more. -/
def leave (b : RealtimeBoard) : RealtimeBoard := { b with accepted := none, reloaded := none }

/-- The callback of a timer that fired. -/
def fired (b : RealtimeBoard) (timer : RefreshTimer) : RealtimeBoard :=
  match timer.kind with
  | .refetch => { b with realtimeRefetchTimeoutId := none }.flushPendingRealtimeRefresh false
  | .force => { b with realtimeForceRefreshTimeoutId := none }.flushPendingRealtimeRefresh true

def handle (b : RealtimeBoard) : BoardEvent → RealtimeBoard
  | .refresh =>
      match b.slug with
      | some slug => if slug = "" then b else b.refetchBoardFromRealtime slug
      | none => b
  | .clock now => { b with now }
  | .pointerDown => { b with boardPointerInteractionActive := true }.recordBoardInteraction
  | .pointerFinished =>
      if b.boardPointerInteractionActive then
        ({ b with boardPointerInteractionActive := false }.recordBoardInteraction).flushPendingRealtimeRefresh
          false
      else b
  | .dialogOpening => { b with todoDialogOpeningInProgress := true }.recordBoardInteraction
  | .dialogOpened =>
      ({ b with todoDialogOpeningInProgress := false }.recordBoardInteraction).flushPendingRealtimeRefresh
        false
  | .drag active => { b with dragInProgress := active }
  | .bulkUpdate active => { b with bulkUpdating := active }
  | .localMutation => { b with lastLocalMutationTimestamp := b.now }.recordBoardInteraction
  | .filter filters => { b with filters }
  | .fire timer =>
      match b.timers.find? timer with
      | some t => { b with timers := b.timers.clear (some timer) }.fired t
      | none => b
  | .invalidate slug filters force => b.invalidateBoard slug filters force
  | .load slug => b.loadBoardBySlug slug
  | .navigate slug => { b with slug }.leave
  | .disconnect =>
      { b.clearPendingRealtimeRefresh with
        boardPointerInteractionActive := false, todoDialogOpeningInProgress := false }.leave

def step (b : RealtimeBoard) (event : BoardEvent) : RealtimeBoard :=
  { b.handle event with tick := (b.handle event).tick + 1 }

/-- A reload of the open board began after the last refresh that it accepted. -/
def Fresh (b : RealtimeBoard) : Prop := ∀ a ∈ b.accepted, ∃ r ∈ b.reloaded, a < r

instance (b : RealtimeBoard) : Decidable b.Fresh := by
  unfold Fresh
  infer_instance

/-- A refresh is still to come. -/
def Outstanding (b : RealtimeBoard) : Prop :=
  b.pendingRealtimeRefreshSlug ≠ none ∨ b.realtimeRefetchTimeoutId ≠ none ∨
    b.realtimeForceRefreshTimeoutId ≠ none

instance (b : RealtimeBoard) : Decidable b.Outstanding := inferInstanceAs (Decidable (_ ∨ _ ∨ _))

/-- No refresh is lost. -/
def Refreshed (b : RealtimeBoard) : Prop := ¬ b.Outstanding → b.Fresh

/-- The flush reaches `invalidateBoard`. -/
def Flushes (b : RealtimeBoard) (force : Bool) : Prop :=
  b.pendingRealtimeRefreshSlug ≠ none ∧ b.slug = b.pendingRealtimeRefreshSlug ∧
    b.dragInProgress = false ∧ (force = true ∨ b.isRealtimeRefreshBlockedByNonDragGuard = false)

instance (b : RealtimeBoard) (force : Bool) : Decidable (b.Flushes force) :=
  inferInstanceAs (Decidable (_ ∧ _ ∧ _ ∧ _))

/-- The open board, with its filters, was reloaded or about to be less than 700 ms ago. -/
def RecentlyInvalidated (b : RealtimeBoard) : Prop := ∃ slug ∈ b.slug, b.Coalesced slug b.filters

instance (b : RealtimeBoard) : Decidable b.RecentlyInvalidated := by
  unfold RecentlyInvalidated
  infer_instance

/-- A timer that flushes the refresh finds no recent invalidate of the same board with the same
filters, unless that came after the last event; and nobody loads another board meanwhile. -/
def Spaced (b : RealtimeBoard) : BoardEvent → Prop
  | .fire timer =>
      ∀ t ∈ b.timers.find? timer, b.Flushes (t.kind = .force) → ¬ b.RecentlyInvalidated ∨ b.Fresh
  | .invalidate slug filters force =>
      (force = false ∧ b.Coalesced slug filters) ∨ b.slug = some slug ∨ b.Fresh
  | .load slug => b.slug = some slug ∨ b.Fresh
  | _ => True

instance (b : RealtimeBoard) (event : BoardEvent) : Decidable (b.Spaced event) := by
  unfold Spaced
  split <;> infer_instance

/-! ## What the observations depend on -/

/-- The part of the state that says whether a refresh is owed. -/
structure Core where
  slug : Option String
  pending : Option String
  tick : ℕ
  accepted : Option ℕ
  reloaded : Option ℕ

def core (b : RealtimeBoard) : Core :=
  ⟨b.slug, b.pendingRealtimeRefreshSlug, b.tick, b.accepted, b.reloaded⟩

/-- A refresh that was accepted is pending, or a reload came after it. -/
structure Core.Good (c : Core) : Prop where
  before : ∀ a ∈ c.accepted, a < c.tick
  owed : (c.pending ≠ none ∧ c.slug = c.pending) ∨ ∀ a ∈ c.accepted, ∃ r ∈ c.reloaded, a < r

variable {b : RealtimeBoard} {force : Bool}

@[simp] theorem core_ensureRealtimeForceRefreshTimer (b : RealtimeBoard) :
    b.ensureRealtimeForceRefreshTimer.core = b.core := by
  unfold ensureRealtimeForceRefreshTimer
  split <;> rfl

theorem Core.Good.clear {c : Core} (h : c.Good) (hfresh : ∀ a ∈ c.accepted, ∃ r ∈ c.reloaded, a < r) :
    ({ c with pending := none } : Core).Good := ⟨h.before, .inr hfresh⟩

theorem good_of_accepted (h : b.accepted = none) : b.core.Good := by
  have hnone : ∀ a, a ∉ b.core.accepted := by
    intro a ha
    rw [show b.core.accepted = none from h] at ha
    cases ha
  exact ⟨fun a ha => absurd ha (hnone a), .inr fun a ha => absurd ha (hnone a)⟩

/-- A load of the open board makes up for every refresh. -/
theorem good_loadBoardBySlug (h : b.core.Good) {slug : String} (hslug : b.slug = some slug ∨ b.Fresh) :
    (b.loadBoardBySlug slug).core.Good := by
  refine ⟨h.before, .inr fun a ha => ?_⟩
  by_cases hopen : b.slug = some slug
  · exact ⟨b.tick, if_pos hopen, h.before a ha⟩
  · obtain ⟨r, hr, hlt⟩ := (hslug.resolve_left hopen) a ha
    exact ⟨r, (if_neg hopen).trans hr, hlt⟩

theorem good_invalidateBoard (h : b.core.Good) {slug : String} {filters : BoardFilters}
    (hslug : (force = false ∧ b.Coalesced slug filters) ∨ b.slug = some slug ∨ b.Fresh) :
    (b.invalidateBoard slug filters force).core.Good := by
  unfold invalidateBoard
  split
  · exact h
  · rename_i hcoalesced
    exact good_loadBoardBySlug (b := { b with lastInvalidate := _ }) h (hslug.resolve_left hcoalesced)

/-- A flush that does not get through leaves the refresh pending, or the board was left. -/
theorem flush_of_not_flushes (h : b.core.Good) (hflush : ¬ b.Flushes force) :
    (b.flushPendingRealtimeRefresh force).core.Good := by
  unfold flushPendingRealtimeRefresh
  split
  · exact h
  · rename_i slug hpending
    split
    · rename_i hslug
      refine h.clear (h.owed.resolve_left fun howed => hslug ?_)
      exact howed.2.trans hpending
    · rename_i hslug
      split
      · exact h
      · rename_i hdrag
        split
        · rw [core_ensureRealtimeForceRefreshTimer]
          exact h
        · rename_i hguard
          refine absurd ⟨by simp [hpending], ?_, by simpa using hdrag, ?_⟩ hflush
          · rw [hpending]
            exact not_not.mp hslug
          · simp only [not_and_or, Bool.not_eq_false, Bool.not_eq_true] at hguard
            exact hguard

/-- A flush that gets through reloads the board, or finds it recently invalidated. -/
theorem flush_of_flushes (hflush : b.Flushes force) : ∃ slug, b.slug = some slug ∧
    b.flushPendingRealtimeRefresh force =
      b.clearPendingRealtimeRefresh.invalidateBoard slug b.filters false := by
  obtain ⟨hpending, hslug, hdrag, hguard⟩ := hflush
  obtain ⟨slug, hsome⟩ := Option.ne_none_iff_exists'.mp hpending
  refine ⟨slug, hslug.trans hsome, ?_⟩
  unfold flushPendingRealtimeRefresh
  rw [hsome]
  dsimp only
  rw [if_neg (not_not.mpr (hslug.trans hsome)), if_neg (by simp [hdrag]), if_neg]
  rintro ⟨hforce, hblocked⟩
  rcases hguard with hguard | hguard
  · rw [hforce] at hguard
    cases hguard
  · rw [hguard] at hblocked
    cases hblocked

theorem recentlyInvalidated_iff {slug : String} (hslug : b.slug = some slug) :
    b.RecentlyInvalidated ↔ b.Coalesced slug b.filters := by
  unfold RecentlyInvalidated
  simp [hslug]

theorem good_flush (h : b.core.Good)
    (hspaced : b.Flushes force → ¬ b.RecentlyInvalidated ∨ b.Fresh) :
    (b.flushPendingRealtimeRefresh force).core.Good := by
  by_cases hflush : b.Flushes force
  · obtain ⟨slug, hslug, heq⟩ := flush_of_flushes hflush
    rw [heq]
    rcases hspaced hflush with hrecent | hfresh
    · rw [recentlyInvalidated_iff hslug] at hrecent
      have hnot : ¬ (false = false ∧ b.clearPendingRealtimeRefresh.Coalesced slug b.filters) :=
        fun h => hrecent h.2
      unfold invalidateBoard
      rw [if_neg hnot]
      exact ⟨h.before, .inr fun a ha => ⟨b.tick, if_pos hslug, h.before a ha⟩⟩
    · exact good_invalidateBoard (h.clear hfresh) (.inr (.inl hslug))
  · exact flush_of_not_flushes h hflush

/-- After an interaction the flush has to wait. -/
theorem not_flushes_recordBoardInteraction (b : RealtimeBoard) :
    ¬ b.recordBoardInteraction.Flushes false := by
  rintro ⟨-, -, -, hguard⟩
  have hremaining : b.recordBoardInteraction.boardInteractionGuardRemaining = 400 := by
    simp [boardInteractionGuardRemaining, recordBoardInteraction, boardInteractionGuardMs]
  simp [isRealtimeRefreshBlockedByNonDragGuard, hremaining] at hguard

theorem good_handle (h : b.core.Good) {event : BoardEvent} (hspaced : b.Spaced event)
    (hrefresh : event ≠ .refresh) : (b.handle event).core.Good := by
  cases event with
  | refresh => exact absurd rfl hrefresh
  | clock now => exact h
  | pointerDown => exact h
  | pointerFinished =>
      dsimp only [handle]
      split
      · exact flush_of_not_flushes h (not_flushes_recordBoardInteraction _)
      · exact h
  | dialogOpening => exact h
  | dialogOpened => exact flush_of_not_flushes h (not_flushes_recordBoardInteraction _)
  | drag active => exact h
  | bulkUpdate active => exact h
  | localMutation => exact h
  | filter filters => exact h
  | fire timer =>
      dsimp only [handle]
      split
      · rename_i t hfind
        have hflush := hspaced t hfind
        unfold fired
        split
        · rename_i hkind
          rw [hkind] at hflush
          exact good_flush h hflush
        · rename_i hkind
          rw [hkind] at hflush
          exact good_flush h hflush
      · exact h
  | invalidate slug filters force => exact good_invalidateBoard h hspaced
  | load slug => exact good_loadBoardBySlug h hspaced
  | navigate slug => exact good_of_accepted rfl
  | disconnect => exact good_of_accepted rfl

/-- A refresh that is accepted is pending, from the time of its event on. -/
theorem good_refetchBoardFromRealtime (h : b.core.Good) {slug : String} (hslug : b.slug = some slug) :
    ({ b.refetchBoardFromRealtime slug with tick := (b.refetchBoardFromRealtime slug).tick + 1 } :
      RealtimeBoard).core.Good := by
  have hbump : ∀ {c : Core}, c.slug = some slug → c.pending = some slug → c.tick = b.tick + 1 →
      c.accepted = some b.tick → c.Good := by
    intro c hslug hpending htick haccepted
    have hne : c.pending ≠ none := by
      rw [hpending]
      exact Option.some_ne_none slug
    refine ⟨fun a ha => ?_, .inl ⟨hne, hslug.trans hpending.symm⟩⟩
    rw [haccepted] at ha
    cases ha
    omega
  unfold refetchBoardFromRealtime
  split
  · exact ⟨fun a ha => Nat.lt_succ_of_lt (h.before a ha), h.owed⟩
  · dsimp only
    split
    · rename_i hpending
      exact hbump hslug hpending rfl rfl
    · split
      · exact hbump hslug rfl rfl rfl
      · unfold ensureRealtimeForceRefreshTimer
        split
        · exact hbump hslug rfl rfl rfl
        · exact hbump hslug rfl rfl rfl

theorem good_step (h : b.core.Good) {event : BoardEvent} (hspaced : b.Spaced event) :
    (b.step event).core.Good := by
  by_cases hrefresh : event = .refresh
  · subst hrefresh
    have hsame : ({ b with tick := b.tick + 1 } : RealtimeBoard).core.Good :=
      ⟨fun a ha => Nat.lt_succ_of_lt (h.before a ha), h.owed⟩
    dsimp only [step, handle]
    split
    · rename_i slug hslug
      split
      · exact hsame
      · exact good_refetchBoardFromRealtime h hslug
    · exact hsame
  · have hgood := good_handle h hspaced hrefresh
    exact ⟨fun a ha => Nat.lt_succ_of_lt (hgood.before a ha), hgood.owed⟩

theorem good_run {events : List BoardEvent} (h : Along Spaced step {} events) :
    (run step {} events).core.Good :=
  run_along (I := fun b : RealtimeBoard => b.core.Good) (fun _ _ hgood => good_step hgood)
    (good_of_accepted rfl) h

theorem refreshed_of_good (h : b.core.Good) : b.Refreshed := by
  intro hnone
  rcases h.owed with howed | hfresh
  · exact absurd (.inl howed.1) hnone
  · exact hfresh

/-- Whoever loads another board while a refresh is pending loses it. -/
theorem lost_of_load {slug : String} (hslug : b.slug ≠ some slug) (hfresh : ¬ b.Fresh) :
    ¬ (b.loadBoardBySlug slug).Refreshed := by
  intro hrefreshed
  have hnone : ¬ (b.loadBoardBySlug slug).Outstanding := by
    rintro (h | h | h) <;> exact h rfl
  refine hfresh fun a ha => ?_
  obtain ⟨r, hr, hlt⟩ := hrefreshed hnone a ha
  exact ⟨r, (if_neg hslug).symm.trans hr, hlt⟩

/-- A flush that finds the board recently invalidated loses the refresh. -/
theorem lost_of_flush (hflush : b.Flushes force) (hrecent : b.RecentlyInvalidated) (hfresh : ¬ b.Fresh) :
    ¬ (b.flushPendingRealtimeRefresh force).Refreshed := by
  obtain ⟨slug, hslug, heq⟩ := flush_of_flushes hflush
  rw [recentlyInvalidated_iff hslug] at hrecent
  rw [heq, invalidateBoard, if_pos ⟨rfl, hrecent⟩]
  intro hrefreshed
  refine hfresh (hrefreshed ?_)
  rintro (h | h | h) <;> exact h rfl

theorem lost_of_not_spaced {event : BoardEvent} (hspaced : ¬ b.Spaced event) :
    ¬ (b.step event).Refreshed := by
  show ¬ (b.handle event).Refreshed
  cases event with
  | fire timer =>
      simp only [Spaced, not_forall, not_or, not_not] at hspaced
      obtain ⟨t, hfind, hflush, hrecent, hfresh⟩ := hspaced
      dsimp only [handle]
      rw [hfind]
      dsimp only
      unfold fired
      split
      · rename_i hkind
        rw [hkind] at hflush
        exact lost_of_flush hflush hrecent hfresh
      · rename_i hkind
        rw [hkind] at hflush
        exact lost_of_flush hflush hrecent hfresh
  | invalidate slug filters force =>
      simp only [Spaced, not_or] at hspaced
      obtain ⟨hcoalesced, hslug, hfresh⟩ := hspaced
      dsimp only [handle]
      rw [invalidateBoard, if_neg hcoalesced]
      exact lost_of_load hslug hfresh
  | load slug =>
      simp only [Spaced, not_or] at hspaced
      exact lost_of_load hspaced.1 hspaced.2
  | _ => exact absurd trivial hspaced

end RealtimeBoard

open RealtimeBoard in
/-- A board never misses a refresh, at any moment of a run, exactly when the run is spaced: no flush
falls into the time after an earlier invalidate that came before the event. -/
theorem refreshes_kept_iff (events : List BoardEvent) :
    (∀ before rest, events = before ++ rest → (run step {} before).Refreshed) ↔
      Along Spaced step {} events := by
  constructor
  · intro h
    induction events using List.reverseRecOn with
    | nil => trivial
    | append_singleton events event ih =>
        have hbefore := ih fun before rest heq => h before (rest ++ [event]) (by rw [heq, List.append_assoc])
        refine along_concat.mpr ⟨hbefore, ?_⟩
        by_contra hspaced
        have hrefreshed := h (events ++ [event]) [] (List.append_nil _).symm
        rw [run_concat] at hrefreshed
        exact lost_of_not_spaced hspaced hrefreshed
  · rintro h before rest rfl
    exact refreshed_of_good (good_run h.of_append)

/-- Two changes half a second apart: the first one is fetched after 400 ms, and the second one falls
into the time of that reload. -/
def twoChanges : List BoardEvent :=
  [.navigate (some "plan"), .clock 10000, .refresh, .clock 10400, .fire 0, .clock 10500, .refresh,
    .clock 10900, .fire 2]

/-- The second change is never fetched. -/
theorem second_change_lost : ¬ ∀ events, (run RealtimeBoard.step {} events).Refreshed := by
  intro h
  have hlost : ¬ (run RealtimeBoard.step {} twoChanges).Refreshed := by
    unfold RealtimeBoard.Refreshed
    decide +kernel
  exact hlost (h twoChanges)

end Scrumboy
