import Mathlib.Data.List.Lemmas
import Scrumboy.Transition.Runs
import Scrumboy.Transition.Timers

/-!
# The open wall

The dialog of a wall fetches the document again after a burst of refresh events, when an edit is
over, and on other occasions. Several requests may be under way; each is answered by the server at
some moment, with the version of that moment, and the answers arrive in any order.
-/

set_option linter.dupNamespace false

namespace Scrumboy

open Transition

/-- A request for the document, known by the moment it was sent, and the moment and the version of
its answer. -/
structure WallRequest where
  sent : ℕ
  answer : Option (ℕ × ℕ) := none
  deriving DecidableEq, Repr

/-- A document that was applied: the moments of its request and its answer, and its version. -/
structure AppliedDoc where
  sent : ℕ
  answered : ℕ
  version : ℕ
  deriving DecidableEq, Repr

/-- The dialog of one wall. The last five fields are the world outside and what was observed:
`tick` counts the events, `writes` are the moments at which the server changed the document, so
that the version is their number, `requests` are under way, `applied` was handed to `onApplyDoc`,
and `lastEvent` is when a refresh event was last handled. -/
structure WallView where
  mounted : Bool := true
  activeEditNoteId : Option String := none
  pendingRefetchWhileEditing : Bool := false
  activeDrag : Bool := false
  pending : Bool := false
  debounceTimer : Option ℕ := none
  timers : Timers Unit := {}
  tick : ℕ := 0
  writes : List ℕ := []
  requests : List WallRequest := []
  applied : List AppliedDoc := []
  lastEvent : Option ℕ := none
  deriving DecidableEq, Repr

inductive WallViewEvent
  | refreshNeeded
  | fire (timer : ℕ)
  /-- Some part of the dialog calls `refetchDoc`. -/
  | refetch
  /-- The server changes the document. -/
  | write
  /-- The server answers the request that was sent at the moment. -/
  | answer (sent : ℕ)
  | arrive (sent : ℕ)
  /-- The request fails; `missing` when the wall is not found. -/
  | fail (sent : ℕ) (missing : Bool)
  | beginEdit (note : String)
  | finishEdit
  | drag (active : Bool)
  | close
  deriving DecidableEq, Repr

namespace WallView

/-- `refetchDoc` up to its request. -/
def refetchDoc (v : WallView) : WallView :=
  if v.mounted = false then v
  else if v.activeEditNoteId ≠ none then { v with pendingRefetchWhileEditing := true }
  else { v with requests := v.requests ++ [{ sent := v.tick }] }

def armDebounce (v : WallView) : WallView :=
  { v with timers := v.timers.set (), debounceTimer := some v.timers.next }

def clearDebounce (v : WallView) : WallView :=
  { v with timers := v.timers.clear v.debounceTimer, debounceTimer := none }

def wrappedRefresh (v : WallView) : WallView :=
  { v with pending := true, lastEvent := some v.tick }.clearDebounce.armDebounce

def fireDebounced (v : WallView) : WallView :=
  let v := { v with debounceTimer := none }
  if v.pending = false then v
  else if v.activeDrag then v.armDebounce
  else { v with pending := false }.refetchDoc

/-- The end of the subscription flushes a refresh that is pending. -/
def stopRealtime (v : WallView) : WallView :=
  if v.pending = true ∧ v.activeDrag = false ∧ v.activeEditNoteId = none then
    { v with pending := false }.clearDebounce.refetchDoc
  else { v.clearDebounce with pending := false }

def teardown (v : WallView) : WallView :=
  if v.mounted = false then v
  else
    { v.stopRealtime with
      mounted := false
      activeEditNoteId := none
      pendingRefetchWhileEditing := false
      activeDrag := false }

def removeRequest (v : WallView) (sent : ℕ) : WallView :=
  { v with requests := v.requests.filter (·.sent != sent) }

/-- `refetchDoc` from the answer on. -/
def applyDoc (v : WallView) (sent answered version : ℕ) : WallView :=
  if v.mounted = false then v
  else if v.activeEditNoteId ≠ none then { v with pendingRefetchWhileEditing := true }
  else { v with applied := v.applied ++ [⟨sent, answered, version⟩] }

/-- The answer of a request, if it was answered. -/
def answerOf (v : WallView) (sent : ℕ) : Option (ℕ × ℕ) :=
  (v.requests.find? (·.sent == sent)).bind (·.answer)

def handle (v : WallView) : WallViewEvent → WallView
  | .refreshNeeded => if v.mounted then v.wrappedRefresh else v
  | .fire timer =>
      match v.timers.find? timer with
      | some _ => { v with timers := v.timers.clear (some timer) }.fireDebounced
      | none => v
  | .refetch => v.refetchDoc
  | .write => { v with writes := v.writes ++ [v.tick] }
  | .answer sent =>
      { v with
        requests := v.requests.map fun r =>
          if r.sent = sent ∧ r.answer = none then { r with answer := some (v.tick, v.writes.length) }
          else r }
  | .arrive sent =>
      match v.answerOf sent with
      | some (answered, version) => (v.removeRequest sent).applyDoc sent answered version
      | none => v
  | .fail sent missing => if missing then (v.removeRequest sent).teardown else v.removeRequest sent
  | .beginEdit note => if v.mounted then { v with activeEditNoteId := some note } else v
  | .finishEdit =>
      let v := { v with activeEditNoteId := none }
      if v.pendingRefetchWhileEditing then { v with pendingRefetchWhileEditing := false }.refetchDoc
      else v
  | .drag active => { v with activeDrag := active }
  | .close => v.teardown

def step (v : WallView) (event : WallViewEvent) : WallView :=
  { v.handle event with tick := (v.handle event).tick + 1 }

/-! ## The claims -/

/-- The documents were applied in the order of their versions. -/
def InOrder (v : WallView) : Prop := (v.applied.map (·.version)).Pairwise (· ≤ ·)

/-- Nothing is under way. -/
def Quiet (v : WallView) : Prop :=
  v.requests = [] ∧ v.activeEditNoteId = none ∧ v.pending = false ∧
    v.pendingRefetchWhileEditing = false

/-- The last document was requested after the last refresh event. -/
def UpToDate (v : WallView) : Prop :=
  ∀ event ∈ v.lastEvent, ∃ doc ∈ v.applied.getLast?, event < doc.sent

/-- A request that was sent after the last refresh event is under way, or one will be sent. `sent`
is a request that does not count. -/
def Awaits (v : WallView) (sent : ℕ) : Prop :=
  (∃ r ∈ v.requests, r.sent ≠ sent ∧ ∀ event ∈ v.lastEvent, event < r.sent) ∨ v.pending = true ∨
    v.pendingRefetchWhileEditing = true

/-- A document that arrives and is applied holds every change that the last one holds, and if its
request is older than the last refresh event then another document is awaited. A request that
fails was not the only one to bring the last refresh. -/
def Ordered (v : WallView) : WallViewEvent → Prop
  | .arrive sent =>
      v.mounted = true → v.activeEditNoteId = none → ∀ answer ∈ v.answerOf sent,
        (∀ doc ∈ v.applied.getLast?, ∀ write ∈ v.writes, write < doc.answered → write < answer.1) ∧
          ((∀ event ∈ v.lastEvent, event < sent) ∨ v.Awaits sent)
  | .fail sent _ => v.UpToDate ∨ v.Awaits sent
  | _ => True

instance (v : WallView) : Decidable v.InOrder := by unfold InOrder; infer_instance

instance (v : WallView) : Decidable v.Quiet := inferInstanceAs (Decidable (_ ∧ _ ∧ _ ∧ _))

instance (v : WallView) : Decidable v.UpToDate := by unfold UpToDate; infer_instance

instance (v : WallView) (sent : ℕ) : Decidable (v.Awaits sent) :=
  inferInstanceAs (Decidable (_ ∨ _ ∨ _))

instance (v : WallView) (event : WallViewEvent) : Decidable (v.Ordered event) := by
  unfold Ordered
  split <;> infer_instance

/-! ## The invariant -/

/-- The number of changes before the moment. -/
def versionAt (writes : List ℕ) (moment : ℕ) : ℕ := writes.countP (· < moment)

/-- The part of the state that the documents depend on. -/
structure Core where
  tick : ℕ
  writes : List ℕ
  requests : List WallRequest
  applied : List AppliedDoc
  lastEvent : Option ℕ

def core (v : WallView) : Core := ⟨v.tick, v.writes, v.requests, v.applied, v.lastEvent⟩

/-- Every moment is in the past, and every version is that of its moment. -/
structure Core.Sound (c : Core) : Prop where
  write_lt : ∀ write ∈ c.writes, write < c.tick
  event_lt : ∀ event ∈ c.lastEvent, event < c.tick
  answer_lt : ∀ r ∈ c.requests, ∀ answer ∈ r.answer, answer.1 < c.tick
  answer : ∀ r ∈ c.requests, ∀ answer ∈ r.answer, answer.2 = versionAt c.writes answer.1
  applied_lt : ∀ doc ∈ c.applied, doc.answered < c.tick
  applied : ∀ doc ∈ c.applied, doc.version = versionAt c.writes doc.answered
  inOrder : (c.applied.map (·.version)).Pairwise (· ≤ ·)

/-- What is left to do, if the last document is not the right one. -/
def Waiting (v : WallView) : Prop :=
  (∃ r ∈ v.requests, ∀ event ∈ v.lastEvent, event < r.sent) ∨ v.pending = true ∨
    v.pendingRefetchWhileEditing = true

structure Good (v : WallView) : Prop where
  sound : v.core.Sound
  owed : v.mounted = true → v.UpToDate ∨ v.Waiting

variable {v : WallView}

theorem versionAt_mono {writes : List ℕ} {t t' : ℕ} (h : ∀ write ∈ writes, write < t → write < t') :
    versionAt writes t ≤ versionAt writes t' :=
  List.countP_mono_left fun write hwrite hlt => by simpa using h write hwrite (by simpa using hlt)

theorem Core.Sound.tick {c : Core} (h : c.Sound) : ({ c with tick := c.tick + 1 } : Core).Sound where
  write_lt write hwrite := Nat.lt_succ_of_lt (h.write_lt write hwrite)
  event_lt event hevent := Nat.lt_succ_of_lt (h.event_lt event hevent)
  answer_lt r hr answer hanswer := Nat.lt_succ_of_lt (h.answer_lt r hr answer hanswer)
  answer := h.answer
  applied_lt doc hdoc := Nat.lt_succ_of_lt (h.applied_lt doc hdoc)
  applied := h.applied
  inOrder := h.inOrder

theorem Good.tick (h : Good v) : Good { v with tick := v.tick + 1 } := ⟨h.sound.tick, h.owed⟩

/-- A request that is sent now is later than the last event. -/
theorem good_refetchDoc (h : v.core.Sound) : Good v.refetchDoc := by
  unfold refetchDoc
  split
  · rename_i hmounted
    exact ⟨h, fun hm => absurd hm (by rw [hmounted]; exact Bool.false_ne_true)⟩
  · split
    · exact ⟨h, fun _ => .inr (.inr (.inr rfl))⟩
    · refine ⟨⟨h.write_lt, h.event_lt, fun r hr => ?_, fun r hr => ?_, h.applied_lt, h.applied,
        h.inOrder⟩, fun _ => .inr (.inl ⟨_, List.mem_append_right _ List.mem_cons_self, h.event_lt⟩)⟩
      · rcases List.mem_append.mp hr with hr | hr
        · exact h.answer_lt r hr
        · rw [List.mem_singleton.mp hr]
          exact fun answer hanswer => nomatch hanswer
      · rcases List.mem_append.mp hr with hr | hr
        · exact h.answer r hr
        · rw [List.mem_singleton.mp hr]
          exact fun answer hanswer => nomatch hanswer

theorem sound_removeRequest (h : v.core.Sound) (sent : ℕ) : (v.removeRequest sent).core.Sound where
  write_lt := h.write_lt
  event_lt := h.event_lt
  answer_lt r hr := h.answer_lt r (List.mem_of_mem_filter hr)
  answer r hr := h.answer r (List.mem_of_mem_filter hr)
  applied_lt := h.applied_lt
  applied := h.applied
  inOrder := h.inOrder

/-- What else is awaited is still awaited without the request. -/
theorem waiting_removeRequest {sent : ℕ} (h : v.Awaits sent) : (v.removeRequest sent).Waiting := by
  rcases h with ⟨r, hr, hne, hlt⟩ | h
  · exact .inl ⟨r, List.mem_filter.mpr ⟨hr, bne_iff_ne.mpr hne⟩, hlt⟩
  · exact .inr h

theorem good_stopRealtime (h : v.core.Sound) : v.stopRealtime.core.Sound := by
  unfold stopRealtime
  split
  · exact (good_refetchDoc (v := { v with pending := false }.clearDebounce) h).sound
  · exact h

theorem good_teardown (h : v.core.Sound) : Good v.teardown := by
  unfold teardown
  split
  · rename_i hmounted
    exact ⟨h, fun hm => absurd hm (by rw [hmounted]; exact Bool.false_ne_true)⟩
  · exact ⟨good_stopRealtime h, fun hm => absurd hm Bool.false_ne_true⟩

theorem good_fireDebounced (h : Good v) : Good v.fireDebounced := by
  unfold fireDebounced
  dsimp only
  split
  · exact ⟨h.sound, h.owed⟩
  · split
    · exact ⟨h.sound, h.owed⟩
    · exact good_refetchDoc (v := { v with debounceTimer := none, pending := false }) h.sound

theorem answer_of_answerOf {sent : ℕ} {answer : ℕ × ℕ} (h : v.answerOf sent = some answer) :
    ∃ r ∈ v.requests, answer ∈ r.answer := by
  obtain ⟨r, hr, hanswer⟩ := Option.bind_eq_some_iff.mp h
  exact ⟨r, List.mem_of_find?_eq_some hr, hanswer⟩

/-- A document that holds all that the last one holds is no older than any before. -/
theorem version_le_of_last {c : Core} (h : c.Sound) {moment : ℕ}
    (hlast : ∀ doc ∈ c.applied.getLast?, ∀ write ∈ c.writes, write < doc.answered → write < moment) :
    ∀ doc ∈ c.applied, doc.version ≤ versionAt c.writes moment := by
  intro doc hdoc
  obtain ⟨before, last, heq⟩ := (List.eq_nil_or_concat' c.applied).resolve_left
    (List.ne_nil_of_mem hdoc)
  have hmem : last ∈ c.applied := heq ▸ List.mem_append_right _ List.mem_cons_self
  have hversion : last.version ≤ versionAt c.writes moment := by
    rw [h.applied last hmem]
    exact versionAt_mono (hlast last (by rw [heq, List.getLast?_concat]; rfl))
  have horder := h.inOrder
  rw [heq, List.map_append, List.pairwise_append] at horder
  rw [heq] at hdoc
  rcases List.mem_append.mp hdoc with hdoc | hdoc
  · exact (horder.2.2 _ (List.mem_map_of_mem hdoc) _ List.mem_cons_self).trans hversion
  · exact List.mem_singleton.mp hdoc ▸ hversion

theorem good_arrive (h : Good v) {sent : ℕ} (hordered : v.Ordered (.arrive sent)) {answer : ℕ × ℕ}
    (hanswer : v.answerOf sent = some answer) :
    Good ((v.removeRequest sent).applyDoc sent answer.1 answer.2) := by
  have hsound := sound_removeRequest h.sound sent
  unfold applyDoc
  split
  · rename_i hmounted
    exact ⟨hsound, fun hm => absurd hm (by rw [hmounted]; exact Bool.false_ne_true)⟩
  · rename_i hmounted
    split
    · exact ⟨hsound, fun _ => .inr (.inr (.inr rfl))⟩
    · rename_i hedit
      obtain ⟨hchanges, hawaits⟩ := hordered (Bool.not_eq_false _ ▸ hmounted) (not_not.mp hedit) answer
        hanswer
      obtain ⟨r, hr, hmem⟩ := answer_of_answerOf hanswer
      have hversion := h.sound.answer r hr answer hmem
      refine ⟨⟨hsound.write_lt, hsound.event_lt, hsound.answer_lt, hsound.answer, fun doc hdoc => ?_,
        fun doc hdoc => ?_, ?_⟩, fun _ => ?_⟩
      · rcases List.mem_append.mp hdoc with hdoc | hdoc
        · exact hsound.applied_lt doc hdoc
        · rw [List.mem_singleton.mp hdoc]
          exact h.sound.answer_lt r hr answer hmem
      · rcases List.mem_append.mp hdoc with hdoc | hdoc
        · exact hsound.applied doc hdoc
        · rw [List.mem_singleton.mp hdoc]
          exact hversion
      · show ((v.applied ++ [AppliedDoc.mk sent answer.1 answer.2]).map AppliedDoc.version).Pairwise (· ≤ ·)
        rw [List.map_append, List.pairwise_append]
        refine ⟨h.sound.inOrder, List.pairwise_singleton _ _, fun version hv version' hv' => ?_⟩
        obtain ⟨doc, hdoc, rfl⟩ := List.mem_map.mp hv
        rw [List.mem_singleton.mp hv']
        show doc.version ≤ answer.2
        rw [hversion]
        exact version_le_of_last h.sound hchanges doc hdoc
      · rcases hawaits with hlate | hawaits
        · refine .inl fun event hevent => ⟨⟨sent, answer.1, answer.2⟩, ?_, hlate event hevent⟩
          exact List.getLast?_concat
        · exact .inr (waiting_removeRequest hawaits)

theorem good_fail (h : Good v) {sent : ℕ} (hordered : v.UpToDate ∨ v.Awaits sent) (missing : Bool) :
    Good (v.handle (.fail sent missing)) := by
  dsimp only [handle]
  split
  · exact good_teardown (sound_removeRequest h.sound sent)
  · exact ⟨sound_removeRequest h.sound sent, fun _ => hordered.imp_right waiting_removeRequest⟩

/-- The server's answer holds the changes so far. -/
theorem good_answer (h : Good v) (sent : ℕ) : Good (v.step (.answer sent)) := by
  have hnow : versionAt v.writes v.tick = v.writes.length :=
    List.countP_eq_length.mpr fun write hwrite => decide_eq_true (h.sound.write_lt write hwrite)
  have hrequest : ∀ r ∈ (v.step (.answer sent)).requests, ∃ r' ∈ v.requests, r.sent = r'.sent ∧
      (r.answer = r'.answer ∨ r.answer = some (v.tick, v.writes.length)) := by
    intro r hr
    obtain ⟨r', hr', rfl⟩ := List.mem_map.mp hr
    refine ⟨r', hr', ?_⟩
    split
    · exact ⟨rfl, .inr rfl⟩
    · exact ⟨rfl, .inl rfl⟩
  have htick := h.sound.tick
  refine ⟨⟨htick.write_lt, htick.event_lt, fun r hr answer hanswer => ?_, fun r hr answer hanswer => ?_,
    htick.applied_lt, htick.applied, htick.inOrder⟩, fun hmounted => (h.owed hmounted).imp_right ?_⟩
  · obtain ⟨r', hr', -, heq | heq⟩ := hrequest r hr
    · exact htick.answer_lt r' hr' answer (heq ▸ hanswer)
    · rw [heq] at hanswer
      cases hanswer
      exact Nat.lt_succ_self _
  · obtain ⟨r', hr', -, heq | heq⟩ := hrequest r hr
    · exact htick.answer r' hr' answer (heq ▸ hanswer)
    · rw [heq] at hanswer
      cases hanswer
      exact hnow.symm
  · rintro (⟨r, hr, hlt⟩ | hpending)
    · refine .inl ⟨_, List.mem_map_of_mem hr, fun event hevent => (hlt event hevent).trans_eq ?_⟩
      split <;> rfl
    · exact .inr hpending

/-- A change of the document is later than every answer so far. -/
theorem good_write (h : Good v) : Good (v.step .write) := by
  have hversion : ∀ {moment : ℕ}, moment < v.tick →
      versionAt (v.writes ++ [v.tick]) moment = versionAt v.writes moment := by
    intro moment hmoment
    rw [versionAt, List.countP_append, List.countP_singleton, if_neg (by simp; omega), Nat.add_zero]
    rfl
  have htick := h.sound.tick
  refine ⟨⟨fun write hwrite => ?_, htick.event_lt, htick.answer_lt, fun r hr answer hanswer => ?_,
    htick.applied_lt, fun doc hdoc => ?_, htick.inOrder⟩, h.owed⟩
  · rcases List.mem_append.mp hwrite with hwrite | hwrite
    · exact htick.write_lt write hwrite
    · rw [List.mem_singleton.mp hwrite]
      exact Nat.lt_succ_self _
  · exact (h.sound.answer r hr answer hanswer).trans (hversion (h.sound.answer_lt r hr answer hanswer)).symm
  · exact (h.sound.applied doc hdoc).trans (hversion (h.sound.applied_lt doc hdoc)).symm

theorem good_refreshNeeded (h : Good v) : Good (v.step .refreshNeeded) := by
  dsimp only [step, handle]
  split
  · have htick := h.sound.tick
    refine ⟨⟨htick.write_lt, fun event hevent => ?_, htick.answer_lt, htick.answer, htick.applied_lt,
      htick.applied, htick.inOrder⟩, fun _ => .inr (.inr (.inl rfl))⟩
    cases hevent
    exact Nat.lt_succ_self _
  · exact h.tick

theorem good_step (h : Good v) {event : WallViewEvent} (hordered : v.Ordered event) :
    Good (v.step event) := by
  cases event with
  | refreshNeeded => exact good_refreshNeeded h
  | fire timer =>
      refine Good.tick (v := v.handle (.fire timer)) ?_
      dsimp only [handle]
      split
      · exact good_fireDebounced ⟨h.sound, h.owed⟩
      · exact h
  | refetch => exact (good_refetchDoc h.sound).tick
  | write => exact good_write h
  | answer sent => exact good_answer h sent
  | arrive sent =>
      refine Good.tick (v := v.handle (.arrive sent)) ?_
      dsimp only [handle]
      split
      · rename_i answered version hanswer
        exact good_arrive h hordered hanswer
      · exact h
  | fail sent missing => exact (good_fail h hordered missing).tick
  | beginEdit note =>
      refine Good.tick (v := v.handle (.beginEdit note)) ?_
      dsimp only [handle]
      split
      · exact ⟨h.sound, h.owed⟩
      · exact h
  | finishEdit =>
      refine Good.tick (v := v.handle .finishEdit) ?_
      dsimp only [handle]
      split
      · exact good_refetchDoc
          (v := { v with activeEditNoteId := none, pendingRefetchWhileEditing := false }) h.sound
      · exact ⟨h.sound, h.owed⟩
  | drag active => exact Good.tick (v := { v with activeDrag := active }) ⟨h.sound, h.owed⟩
  | close => exact (good_teardown h.sound).tick

theorem good_run {events : List WallViewEvent} (h : Along Ordered step {} events) :
    Good (run step {} events) :=
  run_along (I := Good) (fun _ _ hgood => good_step hgood)
    ⟨⟨by simp [core], by simp [core], by simp [core], by simp [core], by simp [core], by simp [core],
      by simp [core]⟩, fun _ => .inl fun event hevent => nomatch hevent⟩ h

end WallView

open WallView in
/-- The wall never goes back, in every run whose documents are applied in the order of the changes
they hold and of their requests. -/
theorem wall_never_goes_back {events : List WallViewEvent} (h : Along Ordered step {} events) :
    (run step {} events).InOrder ∧
      ((run step {} events).mounted = true → (run step {} events).Quiet →
        (run step {} events).UpToDate) := by
  have hgood := good_run h
  refine ⟨hgood.sound.inOrder, fun hmounted hquiet => (hgood.owed hmounted).resolve_right ?_⟩
  obtain ⟨hrequests, -, hpending, hrefetch⟩ := hquiet
  rintro (⟨r, hr, -⟩ | h | h)
  · rw [hrequests] at hr
    cases hr
  · rw [hpending] at h
    cases h
  · rw [hrefetch] at h
    cases h

/-- The first fetch is slow; a collaborator's change is fetched meanwhile. -/
def slowFetch : List WallViewEvent :=
  [.refetch, .answer 0, .write, .refreshNeeded, .fire 0, .answer 4]

/-- In the order of the requests. -/
theorem wall_never_goes_back_slow :
    (run WallView.step {} (slowFetch ++ [WallViewEvent.arrive 0, .arrive 4])).InOrder ∧
      ((run WallView.step {} (slowFetch ++ [WallViewEvent.arrive 0, .arrive 4])).mounted = true →
        (run WallView.step {} (slowFetch ++ [WallViewEvent.arrive 0, .arrive 4])).Quiet →
          (run WallView.step {} (slowFetch ++ [WallViewEvent.arrive 0, .arrive 4])).UpToDate) :=
  wall_never_goes_back (by decide +kernel)

/-- The slow answer comes last and is applied over the newer document. -/
theorem wall_goes_back :
    ¬ (∀ events, (run WallView.step {} events).InOrder) ∧
      ¬ ∀ events, (run WallView.step {} events).mounted = true → (run WallView.step {} events).Quiet →
        (run WallView.step {} events).UpToDate := by
  refine ⟨fun h => ?_, fun h => ?_⟩
  · exact absurd (h (slowFetch ++ [WallViewEvent.arrive 4, .arrive 0])) (by decide +kernel)
  · exact absurd (h (slowFetch ++ [WallViewEvent.arrive 4, .arrive 0]) (by decide +kernel) (by decide +kernel))
      (by decide +kernel)

end Scrumboy
