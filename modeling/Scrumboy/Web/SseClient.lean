import Mathlib.Data.Rat.Floor
import Scrumboy.Transition.Runs
import Scrumboy.Transition.Timers

/-!
# The client of an event stream

`SseConnectionManager` keeps one event stream open: it reopens it after an error with a growing
delay, when no message has come for a while, and on request. The streams that it created stay in
the state, and any of them may call back at any time; the handlers may call the manager from
inside.
-/

set_option linter.dupNamespace false

namespace Scrumboy

open Transition

/-- `SseConnectionPolicy` with its defaults filled in; times are in milliseconds. -/
structure SsePolicy where
  staleAfterMs : Option ℚ := some 75000
  initialBackoffMs : ℚ := 1000
  maxBackoffMs : ℚ := 60000
  jitterRatio : ℚ := 0
  stableAfterMs : Option ℚ := none
  deriving DecidableEq, Repr

def restartDebounceMs : ℚ := 400

inductive SseTimerKind
  | restart
  | stale
  | stable
  | backoff
  deriving DecidableEq, Repr

/-- What a timer was armed for, with the generation that its callback compares. -/
structure SseTimer where
  kind : SseTimerKind
  generation : ℕ
  delay : ℚ
  deriving DecidableEq, Repr

/-- A stream that was opened, with the generation that its callbacks compare. -/
structure SseStream where
  generation : ℕ
  closed : Bool
  deriving DecidableEq, Repr

inductive SseHandler
  | onOpen
  | onMessage
  | onTransportError
  deriving DecidableEq, Repr

/-- The manager, the streams that it opened (a stream is its place in the list), the pending timers,
and the handlers that were called, by stream. -/
structure SseManager where
  es : Option ℕ := none
  generation : ℕ := 0
  restartDebounceTimer : Option ℕ := none
  staleTimer : Option ℕ := none
  backoffTimer : Option ℕ := none
  stableTimer : Option ℕ := none
  consecutiveErrors : ℕ := 0
  streams : List SseStream := []
  timers : Timers SseTimer := {}
  handled : List (ℕ × SseHandler) := []
  deriving DecidableEq, Repr

/-- What a handler, or anyone else, may call. -/
inductive SseCall
  | open
  | restartRequested
  | stop
  deriving DecidableEq, Repr

/-- The data of a message: a ping, another JSON value, or text that does not parse. -/
inductive SseData
  | ping
  | json
  | invalid
  deriving DecidableEq, Repr

/-- A call from outside, a callback of a stream with what the handler does, or a timer. -/
inductive SseEvent
  | call (c : SseCall)
  | opened (stream : ℕ) (reaction : List SseCall)
  | message (stream : ℕ) (data : SseData) (reaction : List SseCall)
  | failed (stream : ℕ) (random : ℚ) (reaction : List SseCall)
  | fire (timer : ℕ)
  deriving DecidableEq, Repr

namespace SseManager

def clearStaleTimer (m : SseManager) : SseManager :=
  { m with timers := m.timers.clear m.staleTimer, staleTimer := none }

def clearStableTimer (m : SseManager) : SseManager :=
  { m with timers := m.timers.clear m.stableTimer, stableTimer := none }

def clearBackoffTimer (m : SseManager) : SseManager :=
  { m with timers := m.timers.clear m.backoffTimer, backoffTimer := none }

def clearRestartTimer (m : SseManager) : SseManager :=
  { m with timers := m.timers.clear m.restartDebounceTimer, restartDebounceTimer := none }

def armStaleTimer (policy : SsePolicy) (myGen : ℕ) (m : SseManager) : SseManager :=
  let m := m.clearStaleTimer
  match policy.staleAfterMs with
  | none => m
  | some delay =>
      { m with timers := m.timers.set ⟨.stale, myGen, delay⟩, staleTimer := some m.timers.next }

def armStableTimer (policy : SsePolicy) (myGen : ℕ) (m : SseManager) : SseManager :=
  let m := m.clearStableTimer
  match policy.stableAfterMs with
  | none => m
  | some delay =>
      { m with timers := m.timers.set ⟨.stable, myGen, delay⟩, stableTimer := some m.timers.next }

def resetStaleTimer (policy : SsePolicy) (myGen : ℕ) (m : SseManager) : SseManager :=
  if myGen ≠ m.generation then m else m.clearStaleTimer.armStaleTimer policy myGen

/-- `es.close()`. -/
def closeStream (m : SseManager) (stream : ℕ) : SseManager :=
  { m with streams := m.streams.modify stream fun s => { generation := s.generation, closed := true } }

/-- Close the current stream, if there is one. -/
def closeCurrent (m : SseManager) : SseManager :=
  match m.es with
  | none => m
  | some stream => { m.closeStream stream with es := none }

def open_ (m : SseManager) : SseManager :=
  let m := m.clearBackoffTimer.closeCurrent
  { m with
    generation := m.generation + 1
    es := some m.streams.length
    streams := m.streams ++ [⟨m.generation + 1, false⟩] }

def restartRequested (m : SseManager) : SseManager :=
  let m := m.clearRestartTimer
  { m with
    timers := m.timers.set ⟨.restart, 0, restartDebounceMs⟩
    restartDebounceTimer := some m.timers.next }

def stop (m : SseManager) : SseManager :=
  let m := m.clearRestartTimer.clearStaleTimer.clearStableTimer.clearBackoffTimer.closeCurrent
  { m with generation := m.generation + 1 }

def call (m : SseManager) : SseCall → SseManager
  | .open => m.open_
  | .restartRequested => m.restartRequested
  | .stop => m.stop

/-- A handler is called, and calls the manager. -/
def handle (m : SseManager) (stream : ℕ) (handler : SseHandler) (reaction : List SseCall) :
    SseManager :=
  reaction.foldl call { m with handled := m.handled ++ [(stream, handler)] }

/-- The delay before a reconnect, with `random` in place of `Math.random()`. -/
def backoffDelay (policy : SsePolicy) (consecutiveErrors : ℕ) (random : ℚ) : ℚ :=
  let baseDelay := min policy.maxBackoffMs
    (policy.initialBackoffMs * 2 ^ min (consecutiveErrors - 1) 8)
  if 0 < policy.jitterRatio then ⌊baseDelay * (1 + random * policy.jitterRatio) + 1 / 2⌋
  else baseDelay

/-- `es.onopen`. -/
def onopen (policy : SsePolicy) (m : SseManager) (stream myGen : ℕ) (reaction : List SseCall) :
    SseManager :=
  if myGen ≠ m.generation then m
  else
    let m := match policy.stableAfterMs with
      | none => { m with consecutiveErrors := 0 }
      | some _ => m.armStableTimer policy myGen
    (m.armStaleTimer policy myGen).handle stream .onOpen reaction

/-- `es.onmessage`. -/
def onmessage (policy : SsePolicy) (m : SseManager) (stream myGen : ℕ) (data : SseData)
    (reaction : List SseCall) : SseManager :=
  if myGen ≠ m.generation then m
  else
    match data with
    | .ping => m.resetStaleTimer policy myGen
    | .json | .invalid => (m.resetStaleTimer policy myGen).handle stream .onMessage reaction

/-- `es.onerror`. -/
def onerror (policy : SsePolicy) (m : SseManager) (stream myGen : ℕ) (random : ℚ)
    (reaction : List SseCall) : SseManager :=
  if myGen ≠ m.generation then m
  else
    let m := { m with consecutiveErrors := m.consecutiveErrors + 1 }
    let m := m.clearStaleTimer.clearStableTimer.closeStream stream
    let m := { m with es := if m.es = some stream then none else m.es }
    let m := { m with generation := m.generation + 1 }
    let scheduleAt := m.generation
    let delay := backoffDelay policy m.consecutiveErrors random
    let m := m.handle stream .onTransportError reaction
    -- A handler that stopped or reopened the stream has its way.
    if scheduleAt ≠ m.generation then m
    else
      let m := m.clearBackoffTimer
      { m with
        timers := m.timers.set ⟨.backoff, scheduleAt, delay⟩
        backoffTimer := some m.timers.next }

/-- The callback of a timer that fired. -/
def fired (m : SseManager) (timer : SseTimer) : SseManager :=
  match timer.kind with
  | .restart =>
      { { m with restartDebounceTimer := none }.clearBackoffTimer with consecutiveErrors := 0 }.open_
  | .stale => if timer.generation ≠ m.generation then m else m.restartRequested
  | .stable =>
      let m := { m with stableTimer := none }
      if timer.generation ≠ m.generation then m else { m with consecutiveErrors := 0 }
  | .backoff =>
      let m := { m with backoffTimer := none }
      if timer.generation ≠ m.generation then m else m.open_

def step (policy : SsePolicy) (m : SseManager) : SseEvent → SseManager
  | .call c => m.call c
  | .opened stream reaction =>
      match m.streams[stream]? with
      | some s => m.onopen policy stream s.generation reaction
      | none => m
  | .message stream data reaction =>
      match m.streams[stream]? with
      | some s => m.onmessage policy stream s.generation data reaction
      | none => m
  | .failed stream random reaction =>
      match m.streams[stream]? with
      | some s => m.onerror policy stream s.generation random reaction
      | none => m
  | .fire timer =>
      match m.timers.find? timer with
      | some t => { m with timers := m.timers.clear (some timer) }.fired t
      | none => m

/-! ## The streams -/

/-- The stream in `es` is the one that is not closed, and the one of this generation. -/
structure Current (streams : List SseStream) (es : Option ℕ) (generation : ℕ) : Prop where
  mem : ∀ i, es = some i → i < streams.length
  le : ∀ s ∈ streams, s.generation ≤ generation
  isOpen : ∀ i s, streams[i]? = some s → (s.closed = false ↔ es = some i)
  isThis : ∀ i s, streams[i]? = some s → (s.generation = generation ↔ es = some i)

theorem Current.succ_ne {streams : List SseStream} {es : Option ℕ} {generation i : ℕ} {s : SseStream}
    (h : Current streams es generation) (hs : streams[i]? = some s) :
    s.generation ≠ generation + 1 := by
  have hle := h.le s (List.mem_of_getElem? hs)
  omega

/-- Without a current stream a new generation may begin. -/
theorem Current.succ {streams : List SseStream} {generation : ℕ} (h : Current streams none generation) :
    Current streams none (generation + 1) := by
  refine ⟨by simp, fun s hs => (h.le s hs).trans (Nat.le_succ _), h.isOpen, ?_⟩
  intro i s hs
  simpa using h.succ_ne hs

/-- The current stream is closed, and a new generation begins. -/
theorem Current.close {streams : List SseStream} {current generation : ℕ}
    (h : Current streams (some current) generation) :
    Current (streams.modify current fun s => { generation := s.generation, closed := true }) none
      (generation + 1) := by
  have hget : ∀ {i : ℕ} {s : SseStream}, (streams.modify current fun s : SseStream =>
      { generation := s.generation, closed := true })[i]? = some s →
      ∃ s' : SseStream, streams[i]? = some s' ∧ s.generation = s'.generation ∧ s.closed = true := by
    intro i s hs
    rw [List.getElem?_modify] at hs
    split at hs
    · obtain ⟨s', hs', rfl⟩ := Option.map_eq_some_iff.mp hs
      exact ⟨s', hs', rfl, rfl⟩
    · rename_i hne
      obtain ⟨s', hs', rfl⟩ := Option.map_eq_some_iff.mp hs
      refine ⟨s', hs', rfl, ?_⟩
      rw [← Bool.not_eq_false, h.isOpen i s' hs']
      simpa using hne
  refine ⟨by simp, fun s hs => ?_, fun i s hs => ?_, fun i s hs => ?_⟩
  · obtain ⟨i, hi⟩ := List.mem_iff_getElem?.mp hs
    obtain ⟨s', hs', heq, -⟩ := hget hi
    rw [heq]
    exact (h.le s' (List.mem_of_getElem? hs')).trans (Nat.le_succ _)
  · obtain ⟨s', hs', -, hclosed⟩ := hget hs
    simp [hclosed]
  · obtain ⟨s', hs', heq, -⟩ := hget hs
    rw [heq]
    simpa using h.succ_ne hs'

/-- A new stream, when the others are closed. -/
theorem Current.append {streams : List SseStream} {generation : ℕ}
    (h : Current streams none generation) (hlt : ∀ s ∈ streams, s.generation ≠ generation) :
    Current (streams ++ [⟨generation, false⟩]) (some streams.length) generation := by
  have hold : ∀ {i : ℕ} {s : SseStream}, streams[i]? = some s → streams.length ≠ i := by
    intro i s hs heq
    obtain ⟨hi, -⟩ := List.getElem?_eq_some_iff.mp hs
    omega
  have hget : ∀ {i : ℕ} {s : SseStream}, (streams ++ [⟨generation, false⟩])[i]? = some s →
      streams[i]? = some s ∨ i = streams.length ∧ s = ⟨generation, false⟩ := by
    intro i s hs
    rw [List.getElem?_append] at hs
    split at hs
    · exact .inl hs
    · rename_i hi
      obtain ⟨hlen, heq⟩ := List.getElem?_eq_some_iff.mp hs
      rw [List.length_singleton] at hlen
      refine .inr ⟨by omega, ?_⟩
      rw [← heq, List.getElem_singleton]
  refine ⟨by simp, fun s hs => ?_, fun i s hs => ?_, fun i s hs => ?_⟩
  · rcases List.mem_append.mp hs with hs | hs
    · exact h.le s hs
    · rw [List.mem_singleton.mp hs]
  · rcases hget hs with hs | ⟨rfl, rfl⟩
    · have hclosed := h.isOpen i s hs
      simpa [hold hs] using hclosed
    · simp
  · rcases hget hs with hs | ⟨rfl, rfl⟩
    · have hother := hlt s (List.mem_of_getElem? hs)
      simpa [hold hs] using hother
    · simp

/-! ## The invariant -/

/-- The variable of each kind of timer. -/
def held (m : SseManager) : SseTimerKind → Option ℕ
  | .restart => m.restartDebounceTimer
  | .stale => m.staleTimer
  | .stable => m.stableTimer
  | .backoff => m.backoffTimer

structure Good (m : SseManager) : Prop where
  current : Current m.streams m.es m.generation
  timers : m.timers.Held (·.kind) m.held

theorem good_initial : Good {} :=
  ⟨⟨by simp, by simp, by simp, by simp⟩, by simp [Timers.Held]⟩

variable {m : SseManager} {policy : SsePolicy}

theorem Good.clearStaleTimer (h : Good m) : Good m.clearStaleTimer :=
  ⟨h.current, h.timers.clear .stale fun kind hne => by
    cases kind <;> first | rfl | exact absurd rfl hne⟩

theorem Good.clearStableTimer (h : Good m) : Good m.clearStableTimer :=
  ⟨h.current, h.timers.clear .stable fun kind hne => by
    cases kind <;> first | rfl | exact absurd rfl hne⟩

theorem Good.clearBackoffTimer (h : Good m) : Good m.clearBackoffTimer :=
  ⟨h.current, h.timers.clear .backoff fun kind hne => by
    cases kind <;> first | rfl | exact absurd rfl hne⟩

theorem Good.clearRestartTimer (h : Good m) : Good m.clearRestartTimer :=
  ⟨h.current, h.timers.clear .restart fun kind hne => by
    cases kind <;> first | rfl | exact absurd rfl hne⟩

theorem Good.armStaleTimer (h : Good m) (myGen : ℕ) : Good (m.armStaleTimer policy myGen) := by
  unfold SseManager.armStaleTimer
  split
  · exact h.clearStaleTimer
  · exact ⟨h.current, h.clearStaleTimer.timers.set rfl rfl fun kind hne => by
      cases kind <;> first | rfl | exact absurd rfl hne⟩

theorem Good.armStableTimer (h : Good m) (myGen : ℕ) : Good (m.armStableTimer policy myGen) := by
  unfold SseManager.armStableTimer
  split
  · exact h.clearStableTimer
  · exact ⟨h.current, h.clearStableTimer.timers.set rfl rfl fun kind hne => by
      cases kind <;> first | rfl | exact absurd rfl hne⟩

theorem Good.resetStaleTimer (h : Good m) (myGen : ℕ) : Good (m.resetStaleTimer policy myGen) := by
  unfold SseManager.resetStaleTimer
  split
  · exact h
  · exact h.clearStaleTimer.armStaleTimer myGen

/-- The current stream is closed, and its generation is over. -/
theorem Good.closeCurrent (h : Good m) :
    Good { m.closeCurrent with generation := m.closeCurrent.generation + 1 } := by
  have hcurrent := h.current
  unfold SseManager.closeCurrent
  split
  · rename_i hes
    rw [hes] at hcurrent
    exact ⟨hes ▸ hcurrent.succ, h.timers⟩
  · rename_i i hes
    rw [hes] at hcurrent
    exact ⟨hcurrent.close, h.timers⟩

theorem es_closeCurrent (m : SseManager) : m.closeCurrent.es = none := by
  unfold SseManager.closeCurrent
  split
  · assumption
  · rfl

theorem Good.open_ (h : Good m) : Good m.open_ := by
  have hclose := h.clearBackoffTimer.closeCurrent
  have hcurrent := hclose.current
  dsimp only at hcurrent
  rw [es_closeCurrent] at hcurrent
  refine ⟨hcurrent.append fun s hs => ?_, hclose.timers⟩
  obtain ⟨i, hi⟩ := List.mem_iff_getElem?.mp hs
  exact mt (hcurrent.isThis i s hi).mp (by simp)

theorem Good.restartRequested (h : Good m) : Good m.restartRequested :=
  ⟨h.current, h.clearRestartTimer.timers.set rfl rfl fun kind hne => by
    cases kind <;> first | rfl | exact absurd rfl hne⟩

theorem Good.stop (h : Good m) : Good m.stop :=
  h.clearRestartTimer.clearStaleTimer.clearStableTimer.clearBackoffTimer.closeCurrent

theorem Good.call (h : Good m) : ∀ c, Good (m.call c)
  | .open => h.open_
  | .restartRequested => h.restartRequested
  | .stop => h.stop

theorem Good.calls (h : Good m) (calls : List SseCall) : Good (calls.foldl SseManager.call m) := by
  induction calls generalizing m with
  | nil => exact h
  | cons c calls ih => exact ih (h.call c)

theorem Good.handle (h : Good m) (stream : ℕ) (handler : SseHandler) (reaction : List SseCall) :
    Good (m.handle stream handler reaction) :=
  Good.calls (m := { m with handled := m.handled ++ [(stream, handler)] }) ⟨h.current, h.timers⟩ reaction

/-- A callback of the current stream reaches the handler in a good state. -/
theorem Good.onopen_cases (policy : SsePolicy) (h : Good m) (stream myGen : ℕ) (reaction : List SseCall) :
    m.onopen policy stream myGen reaction = m ∨ ∃ m', Good m' ∧
      m.onopen policy stream myGen reaction = m'.handle stream .onOpen reaction := by
  unfold SseManager.onopen
  split
  · exact .inl rfl
  · refine .inr ⟨_, Good.armStaleTimer ?_ myGen, rfl⟩
    split
    · exact ⟨h.current, h.timers⟩
    · exact h.armStableTimer myGen

theorem Good.onmessage_cases (policy : SsePolicy) (h : Good m) (stream myGen : ℕ) (data : SseData)
    (reaction : List SseCall) :
    (Good (m.onmessage policy stream myGen data reaction) ∧
        (m.onmessage policy stream myGen data reaction).handled = m.handled) ∨
      ∃ m', Good m' ∧
        m.onmessage policy stream myGen data reaction = m'.handle stream .onMessage reaction := by
  have hreset : (m.resetStaleTimer policy myGen).handled = m.handled := by
    unfold SseManager.resetStaleTimer SseManager.armStaleTimer
    split
    · rfl
    · split <;> rfl
  unfold SseManager.onmessage
  split
  · exact .inl ⟨h, rfl⟩
  · split
    · exact .inl ⟨h.resetStaleTimer myGen, hreset⟩
    · exact .inr ⟨_, h.resetStaleTimer myGen, rfl⟩
    · exact .inr ⟨_, h.resetStaleTimer myGen, rfl⟩

/-- What `onerror` does before it calls the handler. -/
def lose (m : SseManager) (stream : ℕ) : SseManager :=
  let m := { m with consecutiveErrors := m.consecutiveErrors + 1 }
  let m := m.clearStaleTimer.clearStableTimer.closeStream stream
  let m := { m with es := if m.es = some stream then none else m.es }
  { m with generation := m.generation + 1 }

theorem Good.lose (h : Good m) {stream : ℕ} (hes : m.es = some stream) : Good (m.lose stream) := by
  let counted : SseManager := { m with consecutiveErrors := m.consecutiveErrors + 1 }
  have hcounted : Good counted := ⟨h.current, h.timers⟩
  have heq : m.lose stream =
      { counted.clearStaleTimer.clearStableTimer.closeCurrent with
        generation := counted.clearStaleTimer.clearStableTimer.closeCurrent.generation + 1 } := by
    simp [counted, SseManager.lose, SseManager.closeCurrent, SseManager.closeStream,
      SseManager.clearStaleTimer, SseManager.clearStableTimer, hes]
  rw [heq]
  exact hcounted.clearStaleTimer.clearStableTimer.closeCurrent

/-- After an error the handler has its say, and then a reconnect is scheduled. -/
theorem onerror_eq {stream myGen : ℕ} (hgen : myGen = m.generation) (random : ℚ)
    (reaction : List SseCall) : m.onerror policy stream myGen random reaction =
      let lost := (m.lose stream).handle stream .onTransportError reaction
      if m.generation + 1 ≠ lost.generation then lost
      else
        { lost.clearBackoffTimer with
          timers := lost.clearBackoffTimer.timers.set
            ⟨.backoff, m.generation + 1, backoffDelay policy (m.consecutiveErrors + 1) random⟩
          backoffTimer := some lost.clearBackoffTimer.timers.next } := by
  unfold SseManager.onerror
  rw [if_neg (not_not.mpr hgen)]
  rfl

theorem Good.onerror (h : Good m) {stream myGen : ℕ} (hes : myGen = m.generation → m.es = some stream)
    (random : ℚ) (reaction : List SseCall) : Good (m.onerror policy stream myGen random reaction) := by
  by_cases hgen : myGen = m.generation
  · rw [onerror_eq hgen]
    have hlost := (h.lose (hes hgen)).handle stream .onTransportError reaction
    dsimp only
    split
    · exact hlost
    · exact ⟨hlost.current, hlost.clearBackoffTimer.timers.set rfl rfl fun kind hne => by
        cases kind <;> first | rfl | exact absurd rfl hne⟩
  · unfold SseManager.onerror
    rw [if_pos hgen]
    exact h

/-- A timer fires: its callback starts without it. -/
theorem Good.fired (h : Good m) {handle : ℕ} {timer : SseTimer}
    (hfind : m.timers.find? handle = some timer) :
    Good ({ m with timers := m.timers.clear (some handle) }.fired timer) := by
  unfold SseManager.fired
  have hother : Good { m with timers := m.timers.clear (some handle) } :=
    ⟨h.current, h.timers.clear_other _⟩
  split
  · rename_i hkind
    have hbare : Good { m with timers := m.timers.clear (some handle), restartDebounceTimer := none } :=
      ⟨h.current, h.timers.fire hfind fun kind hne => by
        rw [hkind] at hne
        cases kind <;> first | rfl | exact absurd rfl hne⟩
    have hclear := hbare.clearBackoffTimer
    exact Good.open_ ⟨hclear.current, hclear.timers⟩
  · split
    · exact hother
    · exact hother.restartRequested
  · rename_i hkind
    have hbare : Good { m with timers := m.timers.clear (some handle), stableTimer := none } :=
      ⟨h.current, h.timers.fire hfind fun kind hne => by
        rw [hkind] at hne
        cases kind <;> first | rfl | exact absurd rfl hne⟩
    dsimp only
    split
    · exact hbare
    · exact ⟨hbare.current, hbare.timers⟩
  · rename_i hkind
    have hbare : Good { m with timers := m.timers.clear (some handle), backoffTimer := none } :=
      ⟨h.current, h.timers.fire hfind fun kind hne => by
        rw [hkind] at hne
        cases kind <;> first | rfl | exact absurd rfl hne⟩
    dsimp only
    split
    · exact hbare
    · exact hbare.open_

theorem Good.step (h : Good m) (event : SseEvent) : Good (m.step policy event) := by
  cases event with
  | call c => exact h.call c
  | opened stream reaction =>
      dsimp only [SseManager.step]
      split
      · rename_i s hs
        rcases h.onopen_cases policy stream s.generation reaction with heq | ⟨m', hm', heq⟩
        · rw [heq]
          exact h
        · rw [heq]
          exact hm'.handle stream .onOpen reaction
      · exact h
  | message stream data reaction =>
      dsimp only [SseManager.step]
      split
      · rename_i s hs
        rcases h.onmessage_cases policy stream s.generation data reaction with
          ⟨hgood, -⟩ | ⟨m', hm', heq⟩
        · exact hgood
        · rw [heq]
          exact hm'.handle stream .onMessage reaction
      · exact h
  | failed stream random reaction =>
      dsimp only [SseManager.step]
      split
      · rename_i s hs
        exact h.onerror (h.current.isThis stream s hs).mp random reaction
      · exact h
  | fire timer =>
      dsimp only [SseManager.step]
      split
      · rename_i t hfind
        exact h.fired hfind
      · exact h

theorem good_run (policy : SsePolicy) (events : List SseEvent) : Good (run (step policy) {} events) :=
  run_history (P := fun _ m => Good m) good_initial (fun _ _ event h => h.step event) events

end SseManager

/-- The stream that calls back, if the event is a callback. -/
def SseEvent.stream? : SseEvent → Option ℕ
  | .opened stream _ | .message stream _ _ | .failed stream _ _ => some stream
  | .call _ | .fire _ => none

/-- What the handler does, if the event reaches one. -/
def SseEvent.reaction : SseEvent → List SseCall
  | .opened _ reaction | .message _ _ reaction | .failed _ _ reaction => reaction
  | .call _ | .fire _ => []

/-- The event is no call that asks for a stream. -/
def SseEvent.IsQuiet (event : SseEvent) : Prop :=
  event ≠ .call .open ∧ event ≠ .call .restartRequested

namespace SseManager

variable {m : SseManager} {policy : SsePolicy}

/-- The callbacks of a stream that is not the current one do nothing. -/
theorem Good.step_stale (h : Good m) {event : SseEvent} {stream : ℕ} (hevent : event.stream? = some stream)
    (hes : m.es ≠ some stream) : m.step policy event = m := by
  have hgen : ∀ {s}, m.streams[stream]? = some s → s.generation ≠ m.generation :=
    fun hs => mt (h.current.isThis stream _ hs).mp hes
  cases event with
  | call c => cases hevent
  | fire timer => cases hevent
  | opened stream' reaction =>
      cases hevent
      dsimp only [SseManager.step]
      split
      · rename_i s hs
        exact if_pos (hgen hs)
      · rfl
  | message stream' data reaction =>
      cases hevent
      dsimp only [SseManager.step]
      split
      · rename_i s hs
        exact if_pos (hgen hs)
      · rfl
  | failed stream' random reaction =>
      cases hevent
      dsimp only [SseManager.step]
      split
      · rename_i s hs
        exact if_pos (hgen hs)
      · rfl

/-! ## Stopping -/

/-- Nothing is going on. -/
structure Stopped (m : SseManager) : Prop extends Good m where
  noStream : m.es = none
  noTimer : m.timers.pending = []

theorem held_closeCurrent (m : SseManager) : m.closeCurrent.held = m.held := by
  unfold SseManager.closeCurrent
  split <;> rfl

theorem Good.stopped (h : Good m) : Stopped m.stop where
  toGood := h.stop
  noStream := es_closeCurrent _
  noTimer := by
    have hheld : m.stop.held =
        (m.clearRestartTimer.clearStaleTimer.clearStableTimer.clearBackoffTimer).held :=
      held_closeCurrent _
    refine h.stop.timers.pending_eq_nil fun kind => ?_
    rw [hheld]
    cases kind <;> rfl

/-- A manager that is stopped stays so, and opens no stream. -/
theorem Stopped.step (policy : SsePolicy) (h : Stopped m) {event : SseEvent} (hquiet : event.IsQuiet) :
    Stopped (m.step policy event) ∧ (m.step policy event).streams = m.streams := by
  have hstale : ∀ {stream}, event.stream? = some stream → m.step policy event = m :=
    fun hstream => h.toGood.step_stale hstream (by rw [h.noStream]; simp)
  have hsame : m.step policy event = m → Stopped (m.step policy event) ∧
      (m.step policy event).streams = m.streams := by
    intro heq
    rw [heq]
    exact ⟨h, rfl⟩
  cases event with
  | call c =>
      cases c with
      | «open» => exact absurd rfl hquiet.1
      | restartRequested => exact absurd rfl hquiet.2
      | stop =>
          refine ⟨h.toGood.stopped, ?_⟩
          have hes : (m.clearRestartTimer.clearStaleTimer.clearStableTimer.clearBackoffTimer).es = none :=
            h.noStream
          simp only [SseManager.step, SseManager.call, SseManager.stop, SseManager.closeCurrent, hes]
          rfl
  | opened stream reaction => exact hsame (hstale rfl)
  | message stream data reaction => exact hsame (hstale rfl)
  | failed stream random reaction => exact hsame (hstale rfl)
  | fire timer =>
      refine hsame ?_
      have hfind : m.timers.find? timer = none := by
        rw [Timers.find?, h.noTimer]
        rfl
      simp only [SseManager.step, hfind]

theorem Stopped.run (h : Stopped m) {events : List SseEvent} (hquiet : ∀ event ∈ events, event.IsQuiet) :
    (Transition.run (SseManager.step policy) m events).streams = m.streams := by
  induction events generalizing m with
  | nil => rfl
  | cons event events ih =>
      obtain ⟨hstep, hstreams⟩ := h.step policy (hquiet event List.mem_cons_self)
      rw [run_cons, ih hstep fun e he => hquiet e (List.mem_cons_of_mem _ he), hstreams]

/-! ## Calls of a handler -/

theorem generation_closeCurrent (m : SseManager) : m.closeCurrent.generation = m.generation := by
  unfold SseManager.closeCurrent
  split <;> rfl

theorem generation_open (m : SseManager) : m.open_.generation = m.generation + 1 :=
  congrArg (· + 1) (generation_closeCurrent m.clearBackoffTimer)

theorem generation_stop (m : SseManager) : m.stop.generation = m.generation + 1 :=
  congrArg (· + 1) (generation_closeCurrent
    m.clearRestartTimer.clearStaleTimer.clearStableTimer.clearBackoffTimer)

theorem generation_call (m : SseManager) (c : SseCall) : m.generation ≤ (m.call c).generation := by
  cases c with
  | «open» => exact (Nat.le_succ _).trans_eq (generation_open m).symm
  | restartRequested => exact le_rfl
  | stop => exact (Nat.le_succ _).trans_eq (generation_stop m).symm

theorem generation_calls (m : SseManager) (calls : List SseCall) :
    m.generation ≤ (calls.foldl call m).generation := by
  induction calls generalizing m with
  | nil => exact le_rfl
  | cons c calls ih => exact (generation_call m c).trans (ih _)

/-- The last thing that the event does is to call `stop`: from outside, or in a handler. -/
def StopsAt (policy : SsePolicy) (m : SseManager) (event : SseEvent) : Prop :=
  event = .call .stop ∨
    event.reaction.getLast? = some .stop ∧ (m.step policy event).handled ≠ m.handled

/-- A handler that stops the manager in the end leaves it stopped. -/
theorem Good.handle_stops (h : Good m) (stream : ℕ) (handler : SseHandler) {reaction : List SseCall}
    (hlast : reaction.getLast? = some .stop) : Stopped (m.handle stream handler reaction) ∧
      m.generation < (m.handle stream handler reaction).generation := by
  obtain ⟨before, rfl⟩ := List.getLast?_eq_some_iff.mp hlast
  have heq : m.handle stream handler (before ++ [.stop]) = (m.handle stream handler before).stop :=
    List.foldl_append
  rw [heq, generation_stop]
  exact ⟨(h.handle stream handler before).stopped, Nat.lt_succ_of_le
    (generation_calls { m with handled := m.handled ++ [(stream, handler)] } before)⟩

theorem Good.stepsAt (h : Good m) {event : SseEvent} (hstop : StopsAt policy m event) :
    Stopped (m.step policy event) := by
  rcases hstop with rfl | ⟨hlast, hhandled⟩
  · exact h.stopped
  · cases event with
    | call c => cases hlast
    | fire timer => cases hlast
    | opened stream reaction =>
        dsimp only [SseManager.step] at hhandled ⊢
        split at hhandled
        · rename_i s hs
          rcases h.onopen_cases policy stream s.generation reaction with
            heq | ⟨m', hm', heq⟩
          · exact absurd (congrArg handled heq) hhandled
          · rw [heq]
            exact (hm'.handle_stops stream .onOpen hlast).1
        · exact absurd rfl hhandled
    | message stream data reaction =>
        dsimp only [SseManager.step] at hhandled ⊢
        split at hhandled
        · rename_i s hs
          rcases h.onmessage_cases policy stream s.generation data reaction with
            ⟨-, heq⟩ | ⟨m', hm', heq⟩
          · exact absurd heq hhandled
          · rw [heq]
            exact (hm'.handle_stops stream .onMessage hlast).1
        · exact absurd rfl hhandled
    | failed stream random reaction =>
        dsimp only [SseManager.step] at hhandled ⊢
        split at hhandled
        · rename_i s hs
          by_cases hgen : s.generation = m.generation
          · have hlost := h.lose ((h.current.isThis stream s hs).mp hgen)
            obtain ⟨hstopped, hlt⟩ := hlost.handle_stops stream .onTransportError hlast
            -- The handler has moved on to another generation, so no reconnect is scheduled.
            have heq : m.onerror policy stream s.generation random reaction =
                (m.lose stream).handle stream .onTransportError reaction := by
              rw [onerror_eq hgen]
              exact if_pos (ne_of_lt hlt)
            rw [heq]
            exact hstopped
          · exact absurd (congrArg handled (if_pos hgen)) hhandled
        · exact absurd rfl hhandled

end SseManager

end Scrumboy
