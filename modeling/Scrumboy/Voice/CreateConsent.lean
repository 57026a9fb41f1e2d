import Scrumboy.Voice.CreateSession

/-!
# Consent to a created story

At most one method of a session works at a time, because each of them refuses to start while
another one works. What runs in its waits is a cancellation, or nothing. So the command of a
review that was accepted is sent only if nothing was cancelled since the review was shown.
-/

set_option linter.dupNamespace false

namespace Scrumboy

open Transition

/-- The command of the review was shown and accepted, and nothing was cancelled since it was shown. -/
def Consented (log : List CreateEvent) (review : ℕ) (prepared : PreparedVoiceCreate) : Prop :=
  ∃ l₁ l₂ l₃, log = l₁ ++ CreateEvent.shown review prepared :: (l₂ ++ CreateEvent.accepted review :: l₃) ∧
    CreateEvent.cancelled ∉ l₂ ∧ CreateEvent.cancelled ∉ l₃

/-- The command of the review was shown, and nothing was cancelled since. -/
def UnderReview (log : List CreateEvent) (review : ℕ) (prepared : PreparedVoiceCreate) : Prop :=
  ∃ l₁ l₂, log = l₁ ++ CreateEvent.shown review prepared :: l₂ ∧ CreateEvent.cancelled ∉ l₂

/-- What holds of executions: each is of a review that has consent, with the command that was
reviewed and with the fingerprint that it was reviewed with, and there is one for a review. -/
structure CreateSafe (log : List CreateEvent) : Prop where
  shown_once : (log.filterMap CreateEvent.shown?).Nodup
  executed_once : (log.filterMap CreateEvent.executed?).Nodup
  consented : ∀ l₁ l₂ review ir fresh, log = l₁ ++ CreateEvent.executed review ir fresh :: l₂ →
    ∃ prepared, Consented l₁ review prepared ∧ ir = prepared.command.ir ∧
      fresh.fingerprint = prepared.fingerprint

theorem executed?_eq_some {e : CreateEvent} {review : ℕ} (h : e.executed? = some review) :
    ∃ ir fresh, e = .executed review ir fresh := by
  cases e with
  | executed n ir fresh =>
      cases h
      exact ⟨ir, fresh, rfl⟩
  | shown n prepared => cases h
  | cancelled => cases h
  | accepted n => cases h

theorem UnderReview.concat {log : List CreateEvent} {review : ℕ} {prepared : PreparedVoiceCreate}
    (h : UnderReview log review prepared) : Consented (log ++ [CreateEvent.accepted review]) review prepared := by
  obtain ⟨l₁, l₂, rfl, hopen⟩ := h
  exact ⟨l₁, l₂, [], by simp, hopen, by simp⟩

theorem Consented.accepted_mem {log : List CreateEvent} {review : ℕ} {prepared : PreparedVoiceCreate}
    (h : Consented log review prepared) : .accepted review ∈ log := by
  obtain ⟨l₁, l₂, l₃, rfl, _⟩ := h
  simp

namespace CreateSafe

variable {log : List CreateEvent}

/-- Events that are no execution say nothing about executions. -/
theorem append (h : CreateSafe log) {events : List CreateEvent}
    (hshown : ((log ++ events).filterMap CreateEvent.shown?).Nodup)
    (hnone : ∀ e ∈ events, e.executed? = none) : CreateSafe (log ++ events) where
  shown_once := hshown
  executed_once := by
    rw [List.filterMap_append, List.filterMap_eq_nil_iff.mpr hnone, List.append_nil]
    exact h.executed_once
  consented := by
    intro l₁ l₂ review ir fresh heq
    rcases List.append_eq_append_iff.mp heq with ⟨r, rfl, hr⟩ | ⟨r, hlog, hr⟩
    · have hmem : CreateEvent.executed review ir fresh ∈ events := by simp [hr]
      cases hnone _ hmem
    · match r, hr with
      | [], hr =>
          have hmem : CreateEvent.executed review ir fresh ∈ events := by
            rw [← List.nil_append events, ← hr]
            exact List.mem_cons_self
          cases hnone _ hmem
      | e :: r, hr =>
          obtain ⟨rfl, _⟩ := List.cons.inj hr
          exact h.consented l₁ r review ir fresh hlog

theorem executed (h : CreateSafe log) {review : ℕ} {prepared fresh : PreparedVoiceCreate}
    (hconsented : Consented log review prepared) (hfresh : fresh.fingerprint = prepared.fingerprint)
    (hnew : review ∉ log.filterMap CreateEvent.executed?) :
    CreateSafe (log ++ [CreateEvent.executed review prepared.command.ir fresh]) where
  shown_once := by
    rw [List.filterMap_append]
    exact (List.append_nil _).symm ▸ h.shown_once
  executed_once := by
    rw [List.filterMap_append]
    refine List.nodup_append.mpr ⟨h.executed_once, List.pairwise_singleton _ _, fun n hn m hm heq => ?_⟩
    exact hnew (List.mem_singleton.mp hm ▸ heq ▸ hn)
  consented := by
    intro l₁ l₂ review' ir' fresh' heq
    rcases List.eq_nil_or_concat l₂ with rfl | ⟨l₂, e, rfl⟩
    · obtain ⟨rfl, hlast⟩ := List.append_inj' heq rfl
      rw [List.cons.injEq, CreateEvent.executed.injEq] at hlast
      obtain ⟨⟨rfl, rfl, rfl⟩, _⟩ := hlast
      exact ⟨prepared, hconsented, rfl, hfresh⟩
    · rw [List.concat_eq_append, ← List.cons_append, ← List.append_assoc] at heq
      exact h.consented l₁ l₂ review' ir' fresh' (List.append_inj' heq rfl).1

theorem accepted_of_executed (h : CreateSafe log) {review : ℕ}
    (hexecuted : review ∈ log.filterMap CreateEvent.executed?) : .accepted review ∈ log := by
  obtain ⟨e, he, heq⟩ := List.mem_filterMap.mp hexecuted
  obtain ⟨ir, fresh, rfl⟩ := executed?_eq_some heq
  obtain ⟨l₁, l₂, rfl⟩ := List.append_of_mem he
  obtain ⟨prepared, hconsented, _⟩ := h.consented l₁ l₂ review ir fresh rfl
  exact List.mem_append_left _ hconsented.accepted_mem

/-- An execution after a cancellation has a consent that is newer than the cancellation. -/
theorem renewed (h : CreateSafe log) {l₁ l₂ l₃ : List CreateEvent} {review : ℕ} {ir : CreateCommandIR}
    {fresh : PreparedVoiceCreate}
    (heq : log = l₁ ++ .cancelled :: (l₂ ++ .executed review ir fresh :: l₃)) :
    ∃ prepared, Consented l₂ review prepared := by
  obtain ⟨prepared, ⟨m₁, m₂, m₃, hm, hm₂, hm₃⟩, _, _⟩ :=
    h.consented (l₁ ++ .cancelled :: l₂) l₃ review ir fresh (by simp [heq])
  refine ⟨prepared, ?_⟩
  rcases List.append_eq_append_iff.mp hm with ⟨r, rfl, hr⟩ | ⟨r, rfl, hr⟩
  · match r, hr with
    | e :: r, hr => exact ⟨r, m₂, m₃, (List.cons.inj hr).2, hm₂, hm₃⟩
  · -- the review was shown before the cancellation
    match r, hr with
    | e :: r, hr =>
        have hmem : CreateEvent.cancelled ∈ m₂ ++ .accepted review :: m₃ := by simp [(List.cons.inj hr).2]
        simp only [List.mem_append, List.mem_cons, reduceCtorEq, false_or] at hmem
        exact absurd hmem (not_or.mpr ⟨hm₂, hm₃⟩)

end CreateSafe

section

variable {Board : Type}

structure CreateInv (s : CreateSession Board) : Prop where
  safe : CreateSafe s.log
  shown_lt : ∀ review ∈ s.log.filterMap CreateEvent.shown?, review < s.reviews
  accepted_lt : ∀ review, .accepted review ∈ s.log → review < s.reviews
  reviewed : ∀ task prepared, s.task = some task → task.prepared = some prepared →
    UnderReview s.log task.review prepared ∧ .accepted task.review ∉ s.log

/-- What may happen while a method of the session waits. -/
structure Meanwhile (s s' : CreateSession Board) : Prop where
  working : s'.working = s.working
  reviews : s'.reviews = s.reviews
  cancels : ∃ k, s'.log = s.log ++ List.replicate k .cancelled ∧ s'.revision = s.revision + k ∧
    (s'.task = none ∨ k = 0 ∧ s'.task = s.task)

theorem Meanwhile.refl (s : CreateSession Board) : Meanwhile s s :=
  ⟨rfl, rfl, 0, by simp, rfl, .inr ⟨rfl, rfl⟩⟩

theorem Meanwhile.trans {s₁ s₂ s₃ : CreateSession Board} (h : Meanwhile s₁ s₂) (h' : Meanwhile s₂ s₃) :
    Meanwhile s₁ s₃ := by
  obtain ⟨k, hlog, hrevision, htask⟩ := h.cancels
  obtain ⟨k', hlog', hrevision', htask'⟩ := h'.cancels
  refine ⟨h'.working.trans h.working, h'.reviews.trans h.reviews, k + k', ?_, ?_, ?_⟩
  · rw [hlog', hlog, List.append_assoc, List.replicate_append_replicate]
  · omega
  · rcases htask' with htask' | ⟨rfl, htask'⟩
    · exact .inl htask'
    · rcases htask with htask | ⟨rfl, htask⟩
      · exact .inl (htask'.trans htask)
      · exact .inr ⟨rfl, htask'.trans htask⟩

/-- A cancellation may happen at any time. -/
theorem Meanwhile.cancelled (s : CreateSession Board) : Meanwhile s { s with
    revision := s.revision + 1, task := none, binaryClarification := none, log := s.log ++ [CreateEvent.cancelled] } :=
  ⟨rfl, rfl, 1, rfl, rfl, .inl rfl⟩

theorem Meanwhile.now (s : CreateSession Board) (now : CreateMoment Board) :
    Meanwhile s { s with now := now } :=
  ⟨rfl, rfl, 0, (List.append_nil _).symm, rfl, .inr ⟨rfl, rfl⟩⟩

namespace CreateInv

variable {s s' : CreateSession Board}

/-- A state with the same records, and with the same task or none. -/
theorem frame (h : CreateInv s) (hlog : s'.log = s.log) (hreviews : s'.reviews = s.reviews)
    (htask : s'.task = s.task ∨ ∀ task ∈ s'.task, task.prepared = none) : CreateInv s' where
  safe := hlog ▸ h.safe
  shown_lt := by
    rw [hlog, hreviews]
    exact h.shown_lt
  accepted_lt := by
    rw [hlog, hreviews]
    exact h.accepted_lt
  reviewed := by
    intro task prepared heq hprepared
    rw [hlog]
    rcases htask with htask | hnone
    · exact h.reviewed task prepared (htask ▸ heq) hprepared
    · rw [hnone task heq] at hprepared
      cases hprepared

theorem meanwhile (h : CreateInv s) (hmean : Meanwhile s s') : CreateInv s' := by
  obtain ⟨k, hlog, _, htask⟩ := hmean.cancels
  have hshown : (s.log ++ List.replicate k CreateEvent.cancelled).filterMap CreateEvent.shown? =
      s.log.filterMap CreateEvent.shown? := by
    rw [List.filterMap_append]
    simp [CreateEvent.shown?]
  refine ⟨hlog ▸ h.safe.append ?_ ?_, ?_, ?_, ?_⟩
  · exact hshown ▸ h.safe.shown_once
  · intro e he
    rw [List.eq_of_mem_replicate he]
    rfl
  · rw [hlog, hshown, hmean.reviews]
    exact h.shown_lt
  · intro review hmem
    rw [hlog, List.mem_append] at hmem
    rw [hmean.reviews]
    exact h.accepted_lt review (hmem.resolve_right fun hmem => by cases List.eq_of_mem_replicate hmem)
  · intro task prepared heq hprepared
    rcases htask with htask | ⟨rfl, htask⟩
    · rw [htask] at heq
      cases heq
    · rw [hlog, List.replicate_zero, List.append_nil]
      exact h.reviewed task prepared (htask ▸ heq) hprepared

/-- A prepared command is shown and becomes the task. -/
theorem present (h : CreateInv s) {task : CreateTask} {prepared : PreparedVoiceCreate}
    (hlog : s'.log = s.log ++ [CreateEvent.shown s.reviews prepared]) (hreviews : s'.reviews = s.reviews + 1)
    (htask : s'.task = some task) (hreview : task.review = s.reviews)
    (hprepared : task.prepared = some prepared) : CreateInv s' := by
  have hshown : (s.log ++ [CreateEvent.shown s.reviews prepared]).filterMap CreateEvent.shown? =
      s.log.filterMap CreateEvent.shown? ++ [s.reviews] := by
    rw [List.filterMap_append]
    rfl
  refine ⟨hlog ▸ h.safe.append ?_ ?_, ?_, ?_, ?_⟩
  · rw [hshown]
    refine List.nodup_append.mpr ⟨h.safe.shown_once, List.pairwise_singleton _ _, fun n hn m hm => ?_⟩
    rw [List.mem_singleton.mp hm]
    exact Nat.ne_of_lt (h.shown_lt n hn)
  · intro e he
    rw [List.mem_singleton.mp he]
    rfl
  · intro review hmem
    rw [hlog, hshown, List.mem_append, List.mem_singleton] at hmem
    rw [hreviews]
    rcases hmem with hmem | rfl
    · exact Nat.lt_succ_of_lt (h.shown_lt review hmem)
    · exact Nat.lt_succ_self _
  · intro review hmem
    rw [hlog] at hmem
    rw [hreviews]
    exact Nat.lt_succ_of_lt (h.accepted_lt review (by simpa using hmem))
  · intro task' prepared' heq hprepared'
    obtain rfl : task = task' := Option.some.inj (htask.symm.trans heq)
    obtain rfl : prepared = prepared' := Option.some.inj (hprepared.symm.trans hprepared')
    rw [hlog, hreview]
    refine ⟨⟨s.log, [], rfl, by simp⟩, fun hmem => ?_⟩
    exact absurd (h.accepted_lt s.reviews (by simpa using hmem)) (Nat.lt_irrefl _)

theorem accept (h : CreateInv s) {review : ℕ} (hreview : review < s.reviews)
    (hlog : s'.log = s.log ++ [CreateEvent.accepted review]) (hreviews : s'.reviews = s.reviews)
    (htask : s'.task = none) : CreateInv s' := by
  have hshown : (s.log ++ [CreateEvent.accepted review]).filterMap CreateEvent.shown? =
      s.log.filterMap CreateEvent.shown? := by
    rw [List.filterMap_append]
    simp [CreateEvent.shown?]
  refine ⟨hlog ▸ h.safe.append (hshown ▸ h.safe.shown_once) ?_, ?_, ?_, ?_⟩
  · intro e he
    rw [List.mem_singleton.mp he]
    rfl
  · rw [hlog, hshown, hreviews]
    exact h.shown_lt
  · intro review' hmem
    rw [hlog, List.mem_append, List.mem_singleton, CreateEvent.accepted.injEq] at hmem
    rw [hreviews]
    rcases hmem with hmem | rfl
    · exact h.accepted_lt review' hmem
    · exact hreview
  · intro task prepared heq
    rw [htask] at heq
    cases heq

theorem execute (h : CreateInv s) {review : ℕ} {prepared fresh : PreparedVoiceCreate}
    (hconsented : Consented s.log review prepared) (hfresh : fresh.fingerprint = prepared.fingerprint)
    (hnew : review ∉ s.log.filterMap CreateEvent.executed?)
    (hlog : s'.log = s.log ++ [CreateEvent.executed review prepared.command.ir fresh])
    (hreviews : s'.reviews = s.reviews) (htask : s'.task = none) : CreateInv s' := by
  have hshown : s'.log.filterMap CreateEvent.shown? = s.log.filterMap CreateEvent.shown? := by
    rw [hlog, List.filterMap_append]
    simp [CreateEvent.shown?]
  refine ⟨hlog ▸ h.safe.executed hconsented hfresh hnew, ?_, ?_, ?_⟩
  · rw [hshown, hreviews]
    exact h.shown_lt
  · intro review' hmem
    rw [hlog] at hmem
    rw [hreviews]
    exact h.accepted_lt review' (by simpa using hmem)
  · intro task prepared heq
    rw [htask] at heq
    cases heq

end CreateInv

open Async

/-- A program that does nothing but wait and look, where `J` bears what happens meanwhile. -/
def Quiet {α : Type} (J : CreateSession Board → Prop) (x : ExceptT CreateError (CreateM Board) α) : Prop :=
  ∀ s, J s → x.run.Keeps Meanwhile J (fun _ => J) s

/-- What bears all that happens while a method waits. -/
structure Bears (J : CreateSession Board → Prop) : Prop where
  meanwhile : ∀ s s', J s → Meanwhile s s' → J s'
  now : ∀ s now, J s → J { s with now := now }

namespace Quiet

variable {J : CreateSession Board → Prop} {α β : Type} {x : ExceptT CreateError (CreateM Board) α}

theorem bind (hx : Quiet J x) {f : α → ExceptT CreateError (CreateM Board) β} (hf : ∀ a, Quiet J (f a)) :
    Quiet J (x >>= f) := by
  intro s hs
  rw [ExceptT.run_bind, keeps_bind]
  refine (hx s hs).mono (fun _ => id) fun r s' hs' => ?_
  cases r with
  | ok a => exact hf a s' hs'
  | error e => exact hs'

theorem pure (a : α) : Quiet J (Pure.pure a : ExceptT CreateError (CreateM Board) α) := fun _ => id

theorem throw (e : CreateError) : Quiet J (MonadExcept.throw e : ExceptT CreateError (CreateM Board) α) :=
  fun _ => id

theorem ofExcept (r : Except CreateError α) : Quiet J (Scrumboy.ofExcept r : ExceptT CreateError (CreateM Board) α) := by
  cases r with
  | ok a => exact .pure a
  | error e => exact .throw e

theorem get : Quiet J (MonadState.get : ExceptT CreateError (CreateM Board) (CreateSession Board)) :=
  fun _ => id

theorem awaitPort (hJ : Bears J) : Quiet J (Scrumboy.awaitPort : ExceptT CreateError (CreateM Board) CreateAnswer) := by
  intro s hs
  refine ⟨hs, fun s' hs' input => ?_⟩
  have hnow := hJ.now s' input.now (hJ.meanwhile s s' hs hs')
  obtain ⟨now, answer⟩ := input
  cases answer <;> exact hnow

theorem awaitCall (hJ : Bears J) (hx : Quiet J x) : Quiet J (Scrumboy.awaitCall x) := by
  intro s hs
  simp only [Scrumboy.awaitCall, ExceptT.run_mk, keeps_bind]
  refine (hx s hs).mono (fun _ => id) fun r s' hs' => ?_
  exact ⟨hs', fun s'' hs'' input => hJ.now s'' input.now (hJ.meanwhile s' s'' hs' hs'')⟩

theorem attempt (hx : Quiet J x) : Quiet J (Scrumboy.attempt x) := by
  intro s hs
  simp only [Scrumboy.attempt, ExceptT.run_mk, keeps_bind]
  exact (hx s hs).mono (fun _ => id) fun r s' hs' => hs'

variable {options : CreateOptions Board} {plan : CreatePlan} {transcript : String} {revision : ℕ}
  {selection : Option CreateMemberChoice} {tagBindings : List TagBinding}

theorem throwIf (c : Prop) [Decidable c] (e : CreateError) :
    Quiet J (Scrumboy.throwIf c e : ExceptT CreateError (CreateM Board) Unit) := by
  unfold Scrumboy.throwIf
  split
  · exact .throw e
  · exact .pure ()

theorem context : Quiet J options.context := by
  refine .bind .get fun s => .bind (.throwIf _ _) fun _ => ?_
  split
  · exact .bind (.throwIf _ _) fun _ => .pure _
  · exact .throw _

theorem check : Quiet J (options.check revision) :=
  .bind .context fun _ => .bind .get fun _ => .bind (.throwIf _ _) fun _ => .pure _

theorem readPlannedMembers (hJ : Bears J) :
    Quiet J (Scrumboy.readPlannedMembers plan : ExceptT CreateError (CreateM Board) (List CreateMember)) := by
  unfold Scrumboy.readPlannedMembers
  split
  · refine .bind (.awaitPort hJ) fun answer => ?_
    split
    · exact .pure _
    · exact .throw _
  · exact .pure _

theorem readPlannedTags (hJ : Bears J) :
    Quiet J (Scrumboy.readPlannedTags plan : ExceptT CreateError (CreateM Board) (List String)) := by
  unfold Scrumboy.readPlannedTags
  split
  · exact .pure _
  · refine .bind (.awaitPort hJ) fun answer => ?_
    split
    · exact .pure _
    · exact .throw _

theorem readVoiceCreatePreparationAuthority (hJ : Bears J) :
    Quiet J (Scrumboy.readVoiceCreatePreparationAuthority options plan revision) :=
  .bind .check fun _ => .bind (.awaitPort hJ) fun _ => .bind .check fun _ =>
    .bind (.readPlannedMembers hJ) fun _ => .bind (.readPlannedTags hJ) fun _ => .bind .check fun _ => .pure _

theorem prepareVoiceCreateAgainstCurrentContext (hJ : Bears J) :
    Quiet J (Scrumboy.prepareVoiceCreateAgainstCurrentContext options plan revision selection
      tagBindings) :=
  .bind (.awaitCall hJ (.readVoiceCreatePreparationAuthority hJ)) fun _ => .ofExcept _

theorem prepareVoiceCreateWithTagRepairAgainstCurrentContext (hJ : Bears J) :
    Quiet J (Scrumboy.prepareVoiceCreateWithTagRepairAgainstCurrentContext options plan transcript revision
      selection tagBindings) := by
  refine .bind (.awaitCall hJ (.readVoiceCreatePreparationAuthority hJ)) fun authority => ?_
  dsimp only
  split
  · refine .bind (.attempt (.awaitPort hJ)) fun repair => ?_
    split
    · exact .bind (.awaitCall hJ (.prepareVoiceCreateAgainstCurrentContext hJ)) fun _ => .pure _
    · exact .bind (.ofExcept _) fun _ => .pure _
  · exact .bind (.ofExcept _) fun _ => .pure _

theorem evaluateVoiceCreateSemantics (hJ : Bears J) :
    Quiet J (Scrumboy.evaluateVoiceCreateSemantics options transcript revision) := by
  refine .bind .check fun _ => .bind (.awaitPort hJ) fun planned => .bind .check fun _ => ?_
  split
  · refine .bind (.ofExcept _) fun plan => .bind (.ofExcept _) fun _ => ?_
    exact .bind (.awaitCall hJ (.prepareVoiceCreateWithTagRepairAgainstCurrentContext hJ)) fun _ =>
      .pure _
  · exact .throw _

end Quiet

/-- A method works on a session. -/
def Busy (s : CreateSession Board) : Prop := CreateInv s ∧ s.working = true

theorem Busy.bears : Bears (@Busy Board) where
  meanwhile _ _ h hmean := ⟨h.1.meanwhile hmean, hmean.working.trans h.2⟩
  now _ _ h := ⟨h.1.frame rfl rfl (.inl rfl), h.2⟩

/-- A method that started on a session at rest leaves it at rest. -/
def Rests (p : CreateM Board VoiceView) (s : CreateSession Board) : Prop :=
  p.Keeps Meanwhile Busy (fun _ s' => CreateInv s' ∧ ¬ s'.working = true) s

variable {options : CreateOptions Board} {s : CreateSession Board}

namespace VoiceCreateSession

theorem fail_keeps {I : CreateSession Board → Prop} (h : Busy s) (e : CreateError) :
    (fail e).Keeps Meanwhile I (fun _ => Busy) s :=
  ⟨h.1.frame rfl rfl (.inr (by simp)), h.2⟩

theorem present_keeps {I : CreateSession Board → Prop} (h : Busy s) (revision : ℕ)
    (member : Option CreateMemberChoice) (r : Except CreateError (CreateTask × ContextPreparation)) :
    (present options revision member r).Keeps Meanwhile I (fun _ => Busy) s := by
  match r with
  | .ok (task, ⟨.memberChoice choices, tagBindings, attempted⟩) =>
      exact ⟨h.1.frame rfl rfl (.inr (by simp)), h.2⟩
  | .ok (task, ⟨.tagSuggestion suggestion, tagBindings, attempted⟩) =>
      exact ⟨h.1.frame rfl rfl (.inr (by simp)), h.2⟩
  | .ok (task, ⟨.prepared value, tagBindings, attempted⟩) =>
      exact ⟨h.1.present rfl rfl rfl rfl rfl, h.2⟩
  | .error e =>
      simp only [present, keeps_bind, keeps_get]
      split
      · exact fail_keeps h e
      · exact h

/-- The end of a method that worked. -/
theorem release_rests (h : Busy s) (view : VoiceView) :
    Rests (do
      modify fun s => { s with working := false }
      pure view) s := ⟨h.1.frame rfl rfl (.inl rfl), by simp⟩

/-- A method that prepares something and presents the result. -/
theorem works {α : Type} {x : ExceptT CreateError (CreateM Board) α} (hx : Quiet Busy x) (h : Busy s)
    {f : Except CreateError α → CreateM Board VoiceView}
    (hf : ∀ r s', Busy s' → (f r).Keeps Meanwhile Busy (fun _ => Busy) s') :
    Rests (do
      let r ← x.run
      let view ← f r
      modify fun s => { s with working := false }
      pure view) s := by
  rw [Rests, keeps_bind]
  refine (hx s h).mono (fun _ => id) fun r s' hs' => ?_
  rw [keeps_bind]
  exact (hf r s' hs').mono (fun _ => id) fun view s'' hs'' => release_rests hs'' view

theorem cancel_rests (h : CreateInv s) (hrest : ¬ s.working = true) : Rests cancel s :=
  ⟨h.meanwhile (.cancelled s), hrest⟩

theorem acceptTagSuggestion_rests (h : CreateInv s) (hrest : ¬ s.working = true) :
    Rests (acceptTagSuggestion options) s := by
  simp only [acceptTagSuggestion, Rests, keeps_bind, keeps_get]
  split
  · have hbusy : Busy { s with working := true } := ⟨h.frame rfl rfl (.inl rfl), rfl⟩
    rw [keeps_bind, keeps_modify]
    exact works (.awaitCall Busy.bears (.prepareVoiceCreateWithTagRepairAgainstCurrentContext Busy.bears))
      hbusy fun r s' hs' => present_keeps hs' _ _ _
  · exact ⟨h, hrest⟩

theorem choose_rests (h : CreateInv s) (hrest : ¬ s.working = true) (index : ℕ) :
    Rests (choose options index) s := by
  simp only [choose, Rests, keeps_bind, keeps_get]
  split
  · have hbusy : Busy { s with working := true } := ⟨h.frame rfl rfl (.inl rfl), rfl⟩
    rw [keeps_bind, keeps_modify]
    exact works (.awaitCall Busy.bears (.prepareVoiceCreateWithTagRepairAgainstCurrentContext Busy.bears))
      hbusy fun r s' hs' => present_keeps hs' _ _ _
  · exact ⟨h, hrest⟩

theorem plan_rests (h : CreateInv s) (transcript : String) : Rests (plan options transcript) s := by
  have hbusy : Busy { s with
      binaryClarification := none, revision := s.revision + 1, working := true } :=
    ⟨h.frame rfl rfl (.inl rfl), rfl⟩
  rw [plan, Rests, keeps_bind, keeps_modify, keeps_bind, keeps_get]
  exact works (.awaitCall Busy.bears (.evaluateVoiceCreateSemantics Busy.bears)) hbusy
    fun r s' hs' => present_keeps hs' _ _ _

/-- What holds while a confirmed command is prepared again: unless something was cancelled, the
review still has consent. -/
structure Revalidating (revision review : ℕ) (prepared : PreparedVoiceCreate) (s : CreateSession Board) :
    Prop where
  busy : Busy s
  task : s.task = none
  revision_le : revision ≤ s.revision
  consented : s.revision = revision → Consented s.log review prepared
  not_executed : review ∉ s.log.filterMap CreateEvent.executed?

theorem Revalidating.bears (revision review : ℕ) (prepared : PreparedVoiceCreate) :
    Bears (@Revalidating Board revision review prepared) where
  meanwhile s s' h hmean := by
    obtain ⟨k, hlog, hrevision, htask⟩ := hmean.cancels
    have hle := h.revision_le
    refine ⟨Busy.bears.meanwhile s s' h.busy hmean, ?_, by omega, fun heq => ?_, ?_⟩
    · rcases htask with htask | ⟨_, htask⟩
      · exact htask
      · exact htask.trans h.task
    · obtain rfl : k = 0 := by omega
      rw [hlog, List.replicate_zero, List.append_nil]
      exact h.consented (by omega)
    · rw [hlog, List.filterMap_append]
      simpa [CreateEvent.executed?] using h.not_executed
  now s now h := ⟨Busy.bears.now s now h.busy, h.task, h.revision_le, h.consented, h.not_executed⟩

theorem check_keeps {I : CreateSession Board → Prop} (hI : I s) (revision : ℕ) :
    (options.check revision).run.Keeps Meanwhile I
      (Ends (fun _ s' => s' = s ∧ s.revision = revision) fun _ s' => s' = s) s := by
  rw [CreateOptions.check, keeps_run_bind]
  refine (Quiet.context (J := (· = s)) s rfl).mono (fun _ heq => heq ▸ hI) fun r s' hs' => ?_
  cases r with
  | error e => exact hs'
  | ok context =>
      obtain rfl := hs'
      change (do
        let s ← get
        throwIf (revision ≠ s.revision) ⟨.staleContext, ""⟩
        pure context : ExceptT CreateError (CreateM Board) (VoiceContext Board)).run.Keeps _ _ _ s'
      rw [keeps_run_bind]
      change (do
        throwIf (revision ≠ s'.revision) ⟨.staleContext, ""⟩
        pure context : ExceptT CreateError (CreateM Board) (VoiceContext Board)).run.Keeps _ _ _ s'
      by_cases hrevision : revision = s'.revision
      · rw [throwIf, if_neg (not_not.mpr hrevision)]
        exact ⟨rfl, hrevision.symm⟩
      · rw [throwIf, if_pos hrevision]
        rfl

theorem revalidate_keeps {revision review : ℕ} {prepared : PreparedVoiceCreate}
    (h : Revalidating revision review prepared s) (task : CreateTask) :
    (revalidate options revision task prepared).run.Keeps Meanwhile (Revalidating revision review prepared)
      (Ends (fun fresh s' => Revalidating revision review prepared s' ∧ s'.revision = revision ∧
        fresh.fingerprint = prepared.fingerprint) fun _ => Revalidating revision review prepared) s := by
  have hbears := @Revalidating.bears Board revision review prepared
  rw [revalidate, keeps_run_bind]
  refine (Quiet.awaitCall hbears (.prepareVoiceCreateAgainstCurrentContext hbears) s h).mono (fun _ => id)
    fun r s' hs' => ?_
  match r with
  | .error e => exact hs'
  | .ok (.memberChoice _) => exact hs'
  | .ok (.tagSuggestion _) => exact hs'
  | .ok (.prepared value) =>
      change (do
        throwIf (value.fingerprint ≠ prepared.fingerprint) ⟨.staleContext, ""⟩
        let _ ← options.check revision
        pure value : ExceptT CreateError (CreateM Board) PreparedVoiceCreate).run.Keeps _ _ _ s'
      by_cases hfresh : value.fingerprint = prepared.fingerprint
      · rw [throwIf, if_neg (not_not.mpr hfresh), keeps_run_bind]
        refine keeps_run_bind.mpr ((check_keeps hs' revision).mono (fun _ => id) fun r s'' hs'' => ?_)
        cases r with
        | error e => exact hs'' ▸ hs'
        | ok context =>
            obtain ⟨rfl, hrevision⟩ := hs''
            exact ⟨hs', hrevision, hfresh⟩
      · rw [throwIf, if_pos hfresh]
        exact hs'

theorem dispatch_keeps {revision review : ℕ} {prepared fresh : PreparedVoiceCreate}
    (h : Revalidating revision review prepared s) (hrevision : s.revision = revision)
    (hfresh : fresh.fingerprint = prepared.fingerprint) :
    (dispatch review prepared fresh).Keeps Meanwhile Busy (fun _ => Busy) s := by
  rw [dispatch, keeps_bind, keeps_modify, keeps_bind]
  have hexecuted : Busy { s with log := s.log ++ [CreateEvent.executed review prepared.command.ir fresh] } :=
    ⟨h.busy.1.execute (h.consented hrevision) hfresh h.not_executed rfl rfl h.task, h.busy.2⟩
  refine (Quiet.awaitPort Busy.bears _ hexecuted).mono (fun _ => id) fun sent s' hs' => ?_
  rw [keeps_bind]
  refine (Quiet.awaitPort Busy.bears s' hs').mono (fun _ => id) fun refreshed s'' hs'' => ?_
  split
  · exact hs''
  · exact hs''
  · exact hs''

/-- What comes after the second preparation. -/
theorem settle_keeps {revision review : ℕ} {prepared : PreparedVoiceCreate}
    {r : Except CreateError PreparedVoiceCreate}
    (h : Ends (fun fresh s' => Revalidating revision review prepared s' ∧ s'.revision = revision ∧
        fresh.fingerprint = prepared.fingerprint) (fun _ => Revalidating revision review prepared) r s) :
    (settle review prepared r).Keeps Meanwhile Busy (fun _ => Busy) s := by
  cases r with
  | error e => exact fail_keeps h.busy e
  | ok fresh => exact dispatch_keeps h.1 h.2.1 h.2.2

theorem confirm_rests (h : CreateInv s) (hrest : ¬ s.working = true) : Rests (confirm options) s := by
  rw [confirm, Rests, keeps_bind, keeps_get]
  split
  · exact acceptTagSuggestion_rests h hrest
  split
  · rename_i task prepared htask hprepared _
    rw [keeps_bind, keeps_modify, keeps_bind]
    rw [htask, Option.bind_some] at hprepared
    obtain ⟨hreview, hnew⟩ := h.reviewed task prepared htask hprepared
    have hconsented := hreview.concat
    have hlt : task.review < s.reviews := by
      obtain ⟨l₁, l₂, hlog, _⟩ := hreview
      refine h.shown_lt task.review (List.mem_filterMap.mpr ⟨.shown task.review prepared, ?_, rfl⟩)
      simp [hlog]
    have hrevalidating : Revalidating s.revision task.review prepared { s with
        working := true, binaryClarification := none, task := none
        log := s.log ++ [CreateEvent.accepted task.review] } := by
      refine ⟨⟨h.accept hlt rfl rfl rfl, rfl⟩, rfl, Nat.le_refl _, fun _ => hconsented, fun hexecuted => ?_⟩
      rw [List.filterMap_append] at hexecuted
      simp only [List.filterMap_cons, CreateEvent.executed?, List.filterMap_nil, List.append_nil] at hexecuted
      exact hnew (h.safe.accepted_of_executed hexecuted)
    refine (revalidate_keeps hrevalidating task).mono (fun _ hJ => hJ.busy) fun r s' hs' => ?_
    rw [keeps_bind]
    exact (settle_keeps hs').mono (fun _ => id) fun view s'' hs'' => release_rests hs'' view
  · exact ⟨h, hrest⟩

theorem submit_rests (h : CreateInv s) (hrest : ¬ s.working = true) (transcript : String) :
    Rests (submit options transcript) s := by
  rw [submit, Rests, keeps_bind, keeps_get]
  dsimp only
  split
  · exact ⟨h, hrest⟩
  split
  · split
    · exact acceptTagSuggestion_rests h hrest
    · exact ⟨h.frame rfl rfl (.inr (by simp)), hrest⟩
    · exact cancel_rests h hrest
    · exact ⟨h.frame rfl rfl (.inl rfl), hrest⟩
  split
  · split
    · exact confirm_rests h hrest
    · exact cancel_rests h hrest
    · exact ⟨h.frame rfl rfl (.inl rfl), hrest⟩
  split
  · split
    · exact ⟨h, hrest⟩
    · exact plan_rests h transcript
  · split
    · exact cancel_rests h hrest
    · split
      · exact choose_rests h hrest _
      · exact ⟨h, hrest⟩

theorem createCall_rests (h : CreateInv s) (hrest : ¬ s.working = true) (c : CreateCall)
    (input : CreateInput Board) : Rests (createCall options c input) s := by
  have hnow : CreateInv { s with now := input.now } := h.meanwhile (.now s input.now)
  unfold createCall
  rw [Rests, keeps_bind, keeps_modify]
  cases c with
  | submit transcript => exact submit_rests hnow hrest transcript
  | choose index => exact choose_rests hnow hrest index
  | confirm => exact confirm_rests hnow hrest
  | cancel => exact cancel_rests hnow hrest
  | invalidate => exact cancel_rests hnow hrest

section

/-- A method that finds the session at work returns, and changes nothing. -/
def Refuses (p : CreateM Board VoiceView) (s : CreateSession Board) : Prop :=
  p.Keeps Meanwhile (fun _ => False) (fun _ s' => s' = s) s

variable (hwork : s.working = true)

include hwork

theorem acceptTagSuggestion_refuses : Refuses (acceptTagSuggestion options) s := by
  rw [acceptTagSuggestion, Refuses, keeps_bind, keeps_get]
  split
  · rename_i hidle
    cases hwork.symm.trans hidle
  · rfl

theorem choose_refuses (index : ℕ) : Refuses (choose options index) s := by
  rw [choose, Refuses, keeps_bind, keeps_get]
  split
  · rename_i hidle
    cases hwork.symm.trans hidle
  · rfl

theorem confirm_refuses : Refuses (confirm options) s := by
  rw [confirm, Refuses, keeps_bind, keeps_get]
  split
  · exact acceptTagSuggestion_refuses hwork
  split
  · rename_i hidle
    cases hwork.symm.trans hidle
  · rfl

theorem submit_refuses (transcript : String) : Refuses (submit options transcript) s := by
  rw [submit, Refuses, keeps_bind, keeps_get]
  dsimp only
  rw [if_pos hwork]
  rfl

theorem createCall_refuses (h : CreateInv s) (c : CreateCall) (input : CreateInput Board) :
    (createCall options c input).Keeps Meanwhile (fun _ => False)
      (fun _ s' => Meanwhile s s' ∧ CreateInv s' ∧ s'.working = true) s := by
  have hkept : ∀ s', Meanwhile s s' → Meanwhile s s' ∧ CreateInv s' ∧ s'.working = true :=
    fun s' hmean => ⟨hmean, h.meanwhile hmean, hmean.working.trans hwork⟩
  have hnow : Meanwhile s { s with now := input.now } := .now s input.now
  have hrefuses : ∀ p : CreateM Board VoiceView, Refuses p { s with now := input.now } →
      p.Keeps Meanwhile (fun _ => False)
        (fun _ s' => Meanwhile s s' ∧ CreateInv s' ∧ s'.working = true) { s with now := input.now } :=
    fun p hp => hp.mono (fun _ => id) fun _ s' heq => heq ▸ hkept _ hnow
  unfold createCall
  rw [keeps_bind, keeps_modify]
  cases c with
  | submit transcript => exact hrefuses _ (submit_refuses (s := { s with now := input.now }) hwork transcript)
  | choose index => exact hrefuses _ (choose_refuses (s := { s with now := input.now }) hwork index)
  | confirm => exact hrefuses _ (confirm_refuses (s := { s with now := input.now }) hwork)
  | cancel => exact hkept _ (hnow.trans (.cancelled _))
  | invalidate => exact hkept _ (hnow.trans (.cancelled _))

end

/-- The methods of a session exclude each other. -/
theorem createCall_exclusive : Transition.Exclusive Meanwhile CreateInv (·.working = true) (createCall options) where
  refl := Meanwhile.refl
  trans _ _ _ := Meanwhile.trans
  start c input _ h hrest := createCall_rests h hrest c input
  refused c input _ h hwork := createCall_refuses hwork h c input

end VoiceCreateSession

theorem CreateInv.initial (now : CreateMoment Board) : CreateInv { now := now } where
  safe :=
    { shown_once := List.nodup_nil
      executed_once := List.nodup_nil
      consented := fun l₁ l₂ review ir fresh heq => by simp at heq }
  shown_lt := by simp
  accepted_lt := by simp
  reviewed := by simp

end

end Scrumboy
