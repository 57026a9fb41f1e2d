import Scrumboy.Application.Agenda
import Scrumboy.Transition.Runs

/-!
# How fresh the agenda is

Refreshes of one source against a feed whose body changes. The snapshot holds the events of
the last answer that came in full, expanded over three days around the day of that answer,
and an answer that the feed has not changed only renews its date. `RefreshStep` says what one
refresh can do to the snapshot, and `Expanded` what the snapshot holds after any number of
them. The agenda of the day follows for the runs in which such an answer stands for the body
that was expanded, on a day that its window reaches.
-/

set_option linter.dupNamespace false

namespace Scrumboy

open Go Sql Transition

/-- A feed at a moment: the body that it serves, and the validators of this body. -/
structure Feed where
  body : FeedBody
  etag : String := ""
  lastModified : String := ""
  deriving DecidableEq, Repr

/-- The feed answers that nothing has changed only to a validator of its body, and otherwise
it sends its body. -/
def Feed.Serves (feed : Feed) (req : FetchRequest) : Except CalendarError FetchResponse → Prop
  | .error _ => True
  | .ok resp =>
      if resp.notModified then
        (req.etag ≠ "" ∧ req.etag = feed.etag ∨
            req.lastModified ≠ "" ∧ req.lastModified = feed.lastModified) ∧
          (resp.etag = "" ∨ resp.etag = feed.etag) ∧
          (resp.lastModified = "" ∨ resp.lastModified = feed.lastModified)
      else
        resp.body = feed.body ∧ resp.etag = feed.etag ∧ resp.lastModified = feed.lastModified

instance (feed : Feed) (req : FetchRequest) : ∀ answer, Decidable (feed.Serves req answer)
  | .error _ => .isTrue trivial
  | .ok _ => inferInstanceAs (Decidable (ite _ _ _))

/-- A refresh: the clock, the feed at that time and what the fetcher returns. -/
structure FeedRefresh where
  now : ℤ
  feed : Feed
  answer : Except CalendarError FetchResponse

/-- The body of an answer in full, and the clock. -/
def FeedRefresh.full (r : FeedRefresh) : Option (FeedBody × ℤ) :=
  match r.answer with
  | .ok resp => if resp.notModified then none else some (resp.body, r.now)
  | .error _ => none

/-- The store, and the last answer in full to a refresh that returned no error. -/
structure AgendaRun where
  db : CalendarDB
  last : Option (FeedBody × ℤ) := none
  deriving DecidableEq, Repr

/-- The days of which an expansion says everything do not depend on the rest of its window. -/
def ExpandsByDay (expand : FeedBody → Location → ℤ → ℤ → Except CalendarError (List CachedEvent)) :
    Prop :=
  ∀ body loc (bounds window₁ window₂ : ℤ × ℤ) l₁ l₂,
    window₁.1 ≤ bounds.1 ∧ bounds.2 ≤ window₁.2 → window₂.1 ≤ bounds.1 ∧ bounds.2 ≤ window₂.2 →
    expand body loc window₁.1 window₁.2 = .ok l₁ → expand body loc window₂.1 window₂.2 = .ok l₂ →
    (eventsOfDay bounds l₁).Perm (eventsOfDay bounds l₂)

/-- The day of `now` is the day of `t`, or it lies in the window that was expanded at `t`
(and in its own). -/
def DayCovered (loc : Location) (t now : ℤ) : Prop :=
  loc.day t = loc.day now ∨
    ((expansionWindow t loc).1 ≤ (localDayBounds now loc).1 ∧
      (localDayBounds now loc).2 ≤ (expansionWindow t loc).2) ∧
    ((expansionWindow now loc).1 ≤ (localDayBounds now loc).1 ∧
      (localDayBounds now loc).2 ≤ (expansionWindow now loc).2)

instance (loc : Location) (t now : ℤ) : Decidable (DayCovered loc t now) :=
  inferInstanceAs (Decidable (_ ∨ _))

section

variable (deps : AgendaDeps) (projectID sourceID : ℤ)

/-- The result of a refresh of the source as it is stored. -/
def refreshStored (db : CalendarDB) (r : FeedRefresh) : CalendarDB × Except RefreshError Unit :=
  match getCalendarSource db projectID sourceID with
  | .error err => (db, .error (.store err))
  | .ok src => doRefresh deps db projectID src r.answer r.now

def agendaStep (s : AgendaRun) (r : FeedRefresh) : AgendaRun :=
  let result := refreshStored deps projectID sourceID s.db r
  { db := result.1
    last := match result.2 with
      | .ok () => r.full.or s.last
      | .error _ => s.last }

/-- The feed keeps to the rules of validators in its answer to the request that is sent. -/
def Honest (s : AgendaRun) (r : FeedRefresh) : Prop :=
  ∀ url, r.feed.Serves (feedRequest url (getCalendarFeedSnapshot s.db sourceID)) r.answer

/-- An answer that nothing has changed comes while the feed has the body of the last answer
in full, on a day that the window of that answer reaches. -/
def Confirmable (timezone : String) (s : AgendaRun) (r : FeedRefresh) : Prop :=
  ∀ resp ∈ r.answer.toOption, resp.notModified = true → ∀ last ∈ s.last,
    last.1 = r.feed.body ∧ DayCovered (deps.location timezone) last.2 r.now

end

section Snapshot

variable {deps : AgendaDeps} {db db' : CalendarDB} {projectID : ℤ} {src : CalendarSource}

@[simp] theorem hostKind_projects (sourceID : ℤ) (hash : String) (kind : CalendarHostKind) :
    (updateCalendarSourceHostKindIfURLHashCurrent db sourceID hash kind).projects = db.projects := by
  simp only [updateCalendarSourceHostKindIfURLHashCurrent]
  split <;> rfl

@[simp] theorem hostKind_snapshots (sourceID : ℤ) (hash : String) (kind : CalendarHostKind) :
    (updateCalendarSourceHostKindIfURLHashCurrent db sourceID hash kind).snapshots = db.snapshots := by
  simp only [updateCalendarSourceHostKindIfURLHashCurrent]
  split <;> rfl

/-- The columns of a source that a change of the kind of host keeps. -/
theorem map_hostKind_sources {β : Type} (db : CalendarDB) (g : CalendarSource → β)
    (hg : ∀ c kind, g { c with hostKind := kind } = g c) (sourceID : ℤ) (hash : String)
    (kind : CalendarHostKind) :
    (updateCalendarSourceHostKindIfURLHashCurrent db sourceID hash kind).sources.map g =
      db.sources.map g := by
  simp only [updateCalendarSourceHostKindIfURLHashCurrent]
  split
  · rfl
  · exact map_updateWhere g (fun c => hg c kind) db.sources

theorem fetchFeed_projects (answer : Except CalendarError FetchResponse) :
    (fetchFeed deps db src answer).1.projects = db.projects := by
  unfold fetchFeed
  split <;> simp

theorem fetchFeed_snapshots (answer : Except CalendarError FetchResponse) :
    (fetchFeed deps db src answer).1.snapshots = db.snapshots := by
  unfold fetchFeed
  split <;> simp

theorem map_fetchFeed_sources {β : Type} (g : CalendarSource → β)
    (hg : ∀ c kind, g { c with hostKind := kind } = g c) (answer : Except CalendarError FetchResponse) :
    (fetchFeed deps db src answer).1.sources.map g = db.sources.map g := by
  unfold fetchFeed
  split
  · rfl
  · exact map_hostKind_sources db g hg _ _ _

/-- The answer that counts is the one of the fetcher, after a secret that could be read. -/
theorem fetchFeed_eq_ok {answer : Except CalendarError FetchResponse} {resp : FetchResponse}
    (h : (fetchFeed deps db src answer).2 = .ok resp) :
    answer = .ok resp ∧ ∃ plain, deps.cipher.decryptSecret src.secretEnc = .ok plain := by
  unfold fetchFeed at h
  split at h
  · cases h
  · rename_i plain hplain
    exact ⟨h, plain, hplain⟩

theorem find?_upsertSnapshot (snap : CalendarFeedSnapshot) (t : List CalendarFeedSnapshot) :
    (upsertSnapshot snap t).find? (fun r => r.sourceID == snap.sourceID) = some snap := by
  unfold upsertSnapshot
  split
  · rename_i hany
    rw [find?_updateWhere CalendarFeedSnapshot.sourceID (fun _ _ => rfl), Option.map_eq_some_iff]
    obtain ⟨r, hr, heq⟩ := List.any_eq_true.mp hany
    obtain ⟨r', hr'⟩ := Option.isSome_iff_exists.mp
      (List.find?_isSome (p := fun r => r.sourceID == snap.sourceID) |>.mpr ⟨r, hr, heq⟩)
    exact ⟨r', hr', if_pos rfl⟩
  · rename_i hany
    have hnone : t.find? (fun r => r.sourceID == snap.sourceID) = none := by
      rw [List.find?_eq_none]
      intro r hr heq
      exact hany (List.any_eq_true.mpr ⟨r, hr, heq⟩)
    rw [List.find?_append, hnone]
    simp

/-- What a refresh does to the snapshot of its source. -/
inductive RefreshStep (deps : AgendaDeps) (timezone : String) (r : FeedRefresh)
    (old new : Option CalendarFeedSnapshot) : Except RefreshError Unit → Prop
  /-- Nothing is written. -/
  | kept (err : RefreshError) (hnew : new = old) : RefreshStep deps timezone r old new (.error err)
  /-- The error is written beside what the snapshot had. -/
  | failed (err : RefreshError) (sourceID : ℤ) (cause : CalendarError)
      (hnew : new = some (refreshFailure sourceID old cause r.now).stored) :
      RefreshStep deps timezone r old new (.error err)
  /-- The feed has not changed. -/
  | touched (resp : FetchResponse) (snap : CalendarFeedSnapshot) (hanswer : r.answer = .ok resp)
      (hmod : resp.notModified = true) (hold : old = some snap)
      (hnew : new = some (snap.touched (r.now / 1000000) resp.etag resp.lastModified)) :
      RefreshStep deps timezone r old new (.ok ())
  /-- The feed has answered in full. -/
  | full (resp : FetchResponse) (snap : CalendarFeedSnapshot) (hanswer : r.answer = .ok resp)
      (hmod : resp.notModified = false)
      (hevents : expandFeed deps resp.body timezone r.now = .ok snap.events)
      (hnew : new = some snap) : RefreshStep deps timezone r old new (.ok ())

theorem upsert_step {snap : CalendarFeedSnapshot} {urlHash timezone : String}
    (h : upsertCalendarFeedSnapshotIfCurrent db snap urlHash timezone = some db') :
    db'.projects = db.projects ∧ db'.sources = db.sources ∧
      getCalendarFeedSnapshot db' snap.sourceID = some snap.stored := by
  unfold upsertCalendarFeedSnapshotIfCurrent at h
  split at h
  · cases h
    exact ⟨rfl, rfl, find?_upsertSnapshot snap.stored db.snapshots⟩
  · cases h

theorem touch_step {sourceID fetchedAt : ℤ} {etag lastModified urlHash timezone : String}
    (h : touchCalendarFeedSnapshotIfCurrent db sourceID fetchedAt etag lastModified urlHash timezone =
      some db') :
    db'.projects = db.projects ∧ db'.sources = db.sources ∧
      getCalendarFeedSnapshot db' sourceID = (getCalendarFeedSnapshot db sourceID).map
        (CalendarFeedSnapshot.touched fetchedAt etag lastModified) := by
  unfold touchCalendarFeedSnapshotIfCurrent at h
  split at h
  · cases h
    refine ⟨rfl, rfl, ?_⟩
    have hfind := find?_updateWhere CalendarFeedSnapshot.sourceID
      (f := CalendarFeedSnapshot.touched fetchedAt etag lastModified) (k := sourceID) (fun _ hr => hr)
      sourceID db.snapshots
    simpa [getCalendarFeedSnapshot] using hfind
  · cases h

/-- The write of a refresh that returns an error. -/
theorem persistFailure_step (deps : AgendaDeps) (r : FeedRefresh) (timezone : String)
    (cause : CalendarError) {old : Option CalendarFeedSnapshot} (hold : getCalendarFeedSnapshot db src.id = old) :
    ∃ db' err, persistRefresh db src timezone
        (.upsert (refreshFailure src.id old cause r.now), some cause) = (db', .error err) ∧
      db'.projects = db.projects ∧ db'.sources = db.sources ∧
      RefreshStep deps timezone r old (getCalendarFeedSnapshot db' src.id) (.error err) := by
  simp only [persistRefresh, SnapshotWrite.persist]
  cases hwrite : upsertCalendarFeedSnapshotIfCurrent db (refreshFailure src.id old cause r.now)
      src.urlHash timezone with
  | none => exact ⟨db, .superseded, rfl, rfl, rfl, .kept _ hold⟩
  | some db' =>
      obtain ⟨hprojects, hsources, hsnap⟩ := upsert_step hwrite
      exact ⟨db', _, rfl, hprojects, hsources, .failed _ src.id cause hsnap⟩

/-- A write of the outcome, by what the answer was. -/
theorem persistRefresh_step (deps : AgendaDeps) (r : FeedRefresh) (timezone : String)
    (fetched : Except CalendarError FetchResponse) {old : Option CalendarFeedSnapshot}
    (hfetched : ∀ resp, fetched = .ok resp → r.answer = .ok resp)
    (hold : getCalendarFeedSnapshot db src.id = old) :
    ∃ db' result, persistRefresh db src timezone (refreshWrite deps src.id timezone old r.now fetched) =
        (db', result) ∧ db'.projects = db.projects ∧ db'.sources = db.sources ∧
      RefreshStep deps timezone r old (getCalendarFeedSnapshot db' src.id) result := by
  have hfail : ∀ cause, ∃ db' result, persistRefresh db src timezone
      (.upsert (refreshFailure src.id old cause r.now), some cause) = (db', result) ∧
      db'.projects = db.projects ∧ db'.sources = db.sources ∧
      RefreshStep deps timezone r old (getCalendarFeedSnapshot db' src.id) result := by
    intro cause
    obtain ⟨db', err, h⟩ := persistFailure_step deps r timezone cause hold
    exact ⟨db', _, h⟩
  cases fetched with
  | error cause => exact hfail cause
  | ok resp =>
      have hanswer := hfetched resp rfl
      simp only [refreshWrite]
      split
      · rename_i hmod
        split
        · exact hfail .feedRequest
        · rename_i snap
          simp only [persistRefresh, SnapshotWrite.persist]
          cases hwrite : touchCalendarFeedSnapshotIfCurrent db src.id (r.now / 1000000) resp.etag
              resp.lastModified src.urlHash timezone with
          | none => exact ⟨db, _, rfl, rfl, rfl, .kept _ hold⟩
          | some db' =>
              obtain ⟨hprojects, hsources, hsnap⟩ := touch_step hwrite
              rw [hold] at hsnap
              exact ⟨db', _, rfl, hprojects, hsources, .touched resp snap hanswer hmod rfl hsnap⟩
      · rename_i hmod
        split
        · exact hfail _
        · rename_i events hevents
          simp only [persistRefresh, SnapshotWrite.persist]
          generalize hsnap : (CalendarFeedSnapshot.mk src.id _ _ _ _ _ _) = snap
          have hid : snap.sourceID = src.id := by rw [← hsnap]
          have hstored : snap.stored.events = events := by rw [← hsnap]; rfl
          cases hwrite : upsertCalendarFeedSnapshotIfCurrent db snap src.urlHash timezone with
          | none => exact ⟨db, _, rfl, rfl, rfl, .kept _ hold⟩
          | some db' =>
              obtain ⟨hprojects, hsources, hget⟩ := upsert_step hwrite
              rw [hid] at hget
              exact ⟨db', _, rfl, hprojects, hsources,
                .full resp snap.stored hanswer (Bool.eq_false_iff.mpr hmod) (hstored ▸ hevents) hget⟩

/-- A refresh of a visible project. -/
theorem doRefresh_step (deps : AgendaDeps) (src : CalendarSource) (r : FeedRefresh)
    {settings : ProjectAgendaSettings} (hsettings : getProjectAgendaSettings db projectID = .ok settings) :
    ∃ db' result, doRefresh deps db projectID src r.answer r.now = (db', result) ∧
      db'.projects = db.projects ∧
      db'.sources.map (fun c => (c.id, c.projectID, c.secretEnc)) =
        db.sources.map (fun c => (c.id, c.projectID, c.secretEnc)) ∧
      RefreshStep deps settings.timezone r (getCalendarFeedSnapshot db src.id)
        (getCalendarFeedSnapshot db' src.id) result := by
  have hsame : getCalendarFeedSnapshot (fetchFeed deps db src r.answer).1 src.id =
      getCalendarFeedSnapshot db src.id := by
    rw [getCalendarFeedSnapshot, getCalendarFeedSnapshot, fetchFeed_snapshots]
  obtain ⟨db', result, hrun, hprojects, hsources, hstep⟩ := persistRefresh_step deps r
    settings.timezone (fetchFeed deps db src r.answer).2
    (fun resp hresp => (fetchFeed_eq_ok hresp).1) hsame
  refine ⟨db', result, ?_, hprojects.trans (fetchFeed_projects _), ?_, hstep⟩
  · simp only [doRefresh, hsettings]
    exact hrun
  · rw [hsources]
    exact map_fetchFeed_sources _ (fun _ _ => rfl) r.answer

end Snapshot

section Invariant

@[simp] theorem nullIfEmpty_empty : nullIfEmpty "" = none := by decide +kernel

variable {deps : AgendaDeps} {db : CalendarDB} {projectID sourceID : ℤ} {s : AgendaRun} {r : FeedRefresh}

/-- The snapshot holds the expansion of the last answer in full; before the first one it has
no validators. -/
structure Expanded (deps : AgendaDeps) (db : CalendarDB) (timezone : String) (sourceID : ℤ)
    (s : AgendaRun) : Prop where
  projects : s.db.projects = db.projects
  sources : s.db.sources.map (fun c => (c.id, c.projectID, c.secretEnc)) =
    db.sources.map (fun c => (c.id, c.projectID, c.secretEnc))
  blank : s.last = none → ∀ snap ∈ getCalendarFeedSnapshot s.db sourceID,
    snap.etag = "" ∧ snap.lastModified = ""
  events : ∀ last ∈ s.last, ∃ snap, getCalendarFeedSnapshot s.db sourceID = some snap ∧
    expandFeed deps last.1 timezone last.2 = .ok snap.events

theorem getCalendarSource_eq_ok {db : CalendarDB} {src : CalendarSource}
    (h : getCalendarSource db projectID sourceID = .ok src) :
    src ∈ db.sources ∧ src.id = sourceID ∧ src.projectID = projectID := by
  unfold getCalendarSource at h
  split at h
  · cases h
  · rename_i c hfind
    cases h
    have hc := List.find?_some hfind
    simp only [Bool.and_eq_true, beq_iff_eq] at hc
    exact ⟨List.mem_of_find?_eq_some hfind, hc⟩

theorem getProjectAgendaSettings_congr {db db' : CalendarDB} (h : db'.projects = db.projects)
    (projectID : ℤ) : getProjectAgendaSettings db' projectID = getProjectAgendaSettings db projectID := by
  rw [getProjectAgendaSettings, getProjectAgendaSettings, h]

/-- What an honest feed cannot say: that nothing has changed, when it was sent no validator. -/
theorem not_serves_blank {feed : Feed} {url : String} {snap : CalendarFeedSnapshot} {resp : FetchResponse}
    (hblank : snap.etag = "" ∧ snap.lastModified = "") (hmod : resp.notModified = true) :
    ¬ feed.Serves (feedRequest url (some snap)) (.ok resp) := by
  simp [Feed.Serves, feedRequest, hblank, hmod]

/-- Only the validators of a request count for the feed. -/
theorem Feed.serves_url {feed : Feed} {snap : Option CalendarFeedSnapshot}
    {answer : Except CalendarError FetchResponse} (h : feed.Serves (feedRequest "" snap) answer)
    (url : String) : feed.Serves (feedRequest url snap) answer := by
  cases answer with
  | error cause => trivial
  | ok resp => exact h

/-- A refresh of the source, as it is stored, in a run. -/
theorem agendaStep_cases (deps : AgendaDeps) (sourceID : ℤ) (r : FeedRefresh) {settings : ProjectAgendaSettings}
    (hsettings : getProjectAgendaSettings s.db projectID = .ok settings) :
    (∃ err, refreshStored deps projectID sourceID s.db r = (s.db, .error err)) ∨
    ∃ src db' result, getCalendarSource s.db projectID sourceID = .ok src ∧
      doRefresh deps s.db projectID src r.answer r.now = (db', result) ∧
      refreshStored deps projectID sourceID s.db r = (db', result) ∧
      db'.projects = s.db.projects ∧
      db'.sources.map (fun c => (c.id, c.projectID, c.secretEnc)) =
        s.db.sources.map (fun c => (c.id, c.projectID, c.secretEnc)) ∧
      RefreshStep deps settings.timezone r (getCalendarFeedSnapshot s.db sourceID)
        (getCalendarFeedSnapshot db' sourceID) result := by
  cases hsrc : getCalendarSource s.db projectID sourceID with
  | error err => exact .inl ⟨.store err, by simp [refreshStored, hsrc]⟩
  | ok src =>
      obtain ⟨db', result, hrun, hprojects, hsources, hstep⟩ := doRefresh_step deps src r hsettings
      rw [(getCalendarSource_eq_ok hsrc).2.1] at hstep
      exact .inr ⟨src, db', result, rfl, hrun, by simp [refreshStored, hsrc, hrun], hprojects, hsources, hstep⟩

theorem agendaStep_expanded {settings : ProjectAgendaSettings}
    (hsettings : getProjectAgendaSettings db projectID = .ok settings)
    (hs : Expanded deps db settings.timezone sourceID s) (hr : Honest sourceID s r) :
    Expanded deps db settings.timezone sourceID (agendaStep deps projectID sourceID s r) := by
  rw [← getProjectAgendaSettings_congr hs.projects] at hsettings
  obtain ⟨err, herr⟩ | ⟨src, db', result, _, _, hrun, hprojects, hsources, hstep⟩ :=
    agendaStep_cases deps sourceID r hsettings
  · simp only [agendaStep, herr]
    exact hs
  · simp only [agendaStep, hrun]
    have hprojects := hprojects.trans hs.projects
    have hsources := hsources.trans hs.sources
    cases hstep with
    | kept err hnew =>
        exact ⟨hprojects, hsources, fun hlast => hnew ▸ hs.blank hlast, fun last hlast => hnew ▸ hs.events last hlast⟩
    | failed err id cause hnew =>
        refine ⟨hprojects, hsources, fun hlast snap hsnap => ?_, fun last hlast => ?_⟩
        · rw [hnew, Option.mem_some_iff] at hsnap
          subst hsnap
          cases hold : getCalendarFeedSnapshot s.db sourceID with
          | none => simp [refreshFailure, CalendarFeedSnapshot.stored]
          | some old =>
              obtain ⟨hetag, hmodified⟩ := hs.blank hlast old hold
              simp [refreshFailure, CalendarFeedSnapshot.stored, hetag, hmodified]
        · obtain ⟨old, hold, hevents⟩ := hs.events last hlast
          rw [hold] at hnew
          exact ⟨_, hnew, hevents⟩
    | touched resp snap hanswer hmod hold hnew =>
        have hfull : r.full = none := by simp [FeedRefresh.full, hanswer, hmod]
        rw [hfull]
        refine ⟨hprojects, hsources, fun hlast _ _ => ?_, fun last hlast => ?_⟩
        · have hserves := hr ""
          rw [hold, hanswer] at hserves
          exact absurd hserves (not_serves_blank (hs.blank hlast snap hold) hmod)
        · obtain ⟨old, hget, hevents⟩ := hs.events last hlast
          obtain rfl := Option.some.inj (hold.symm.trans hget)
          exact ⟨_, hnew, hevents⟩
    | full resp snap hanswer hmod hevents hnew =>
        have hfull : r.full = some (resp.body, r.now) := by simp [FeedRefresh.full, hanswer, hmod]
        rw [hfull]
        refine ⟨hprojects, hsources, fun hlast => ?_, fun last hlast => ?_⟩
        · cases hlast
        · cases hlast
          exact ⟨snap, hnew, hevents⟩

end Invariant

section Reading

variable {deps : AgendaDeps} {db : CalendarDB} {projectID sourceID now : ℤ} {bounds : ℤ × ℤ}

/-- The events that a source adds to the agenda. -/
def sourceEvents (bounds : ℤ × ℤ) (snapshots : List CalendarFeedSnapshot) (src : CalendarSource) :
    List AgendaEvent :=
  if src.enabled = false then []
  else
    match snapshots.find? fun snap => snap.sourceID == src.id with
    | none => []
    | some snap => (eventsOfDay bounds snap.events).map (agendaEvent src)

theorem scanSource_events (snapshots : List CalendarFeedSnapshot) (scan : AgendaScan) (src : CalendarSource) :
    (scanSource now bounds snapshots scan src).events = scan.events ++ sourceEvents bounds snapshots src := by
  unfold scanSource sourceEvents
  split
  · simp
  · cases hfind : snapshots.find? fun snap => snap.sourceID == src.id with
    | none => simp [AgendaScan.report]
    | some snap =>
        cases hstatus : snap.status with
        | error => simp [AgendaScan.report, hstatus]
        | ok =>
            by_cases hstale : snapshotStaleAfter ≤ now - snap.fetchedAt * 1000000 <;>
              simp [hstatus, hstale]

theorem foldl_scanSource_events (snapshots : List CalendarFeedSnapshot) (sources : List CalendarSource)
    (scan : AgendaScan) :
    (sources.foldl (scanSource now bounds snapshots) scan).events =
      scan.events ++ sources.flatMap (sourceEvents bounds snapshots) := by
  induction sources generalizing scan with
  | nil => simp
  | cons src sources ih =>
      rw [List.foldl_cons, ih, scanSource_events, List.flatMap_cons, List.append_assoc]

theorem sourceID_of_mem_sourceEvents {snapshots : List CalendarFeedSnapshot} {src : CalendarSource}
    {ev : AgendaEvent} (h : ev ∈ sourceEvents bounds snapshots src) : ev.sourceID = src.id := by
  unfold sourceEvents at h
  split at h
  · cases h
  · split at h
    · cases h
    · obtain ⟨_, _, rfl⟩ := List.mem_map.mp h
      rfl

/-- Among sources with different ids, the events of one of them are those that it adds. -/
theorem filter_flatMap_sourceEvents {snapshots : List CalendarFeedSnapshot} {sources : List CalendarSource}
    (hnodup : (sources.map (·.id)).Nodup) {src : CalendarSource} (hsrc : src ∈ sources) :
    (sources.flatMap (sourceEvents bounds snapshots)).filter (fun ev => ev.sourceID == src.id) =
      sourceEvents bounds snapshots src := by
  have hother : ∀ l : List CalendarSource, (∀ c ∈ l, c.id ≠ src.id) →
      (l.flatMap (sourceEvents bounds snapshots)).filter (fun ev => ev.sourceID == src.id) = [] := by
    intro l hl
    rw [List.filter_eq_nil_iff]
    intro ev hev heq
    obtain ⟨c, hc, hev⟩ := List.mem_flatMap.mp hev
    exact hl c hc ((sourceID_of_mem_sourceEvents hev).symm.trans (by simpa using heq))
  obtain ⟨l₁, l₂, rfl, hne⟩ := exists_split_key hnodup hsrc
  have hown : (sourceEvents bounds snapshots src).filter (fun ev => ev.sourceID == src.id) =
      sourceEvents bounds snapshots src := by
    rw [List.filter_eq_self]
    intro ev hev
    simp [sourceID_of_mem_sourceEvents hev]
  rw [List.flatMap_append, List.flatMap_cons, List.filter_append, List.filter_append,
    hother l₁ fun c hc => hne c (List.mem_append_left _ hc),
    hother l₂ fun c hc => hne c (List.mem_append_right _ hc), hown]
  simp

/-- An agenda that is not stale lists of an enabled source the events of its snapshot that
touch the day. -/
theorem readAgenda_source {settings : ProjectAgendaSettings} {view : AgendaView} {src : CalendarSource}
    {snap : CalendarFeedSnapshot} (hnodup : (db.sources.map (·.id)).Nodup)
    (hsettings : getProjectAgendaSettings db projectID = .ok settings)
    (hview : readAgenda deps db projectID now = .ok view) (henabled : view.enabled = true)
    (hstale : view.stale = false) (hsrc : getCalendarSource db projectID sourceID = .ok src)
    (hon : src.enabled = true) (hsnap : getCalendarFeedSnapshot db sourceID = some snap) :
    (view.events.filter (fun ev => ev.sourceID == sourceID)).Perm
      ((eventsOfDay (localDayBounds now (deps.location settings.timezone)) snap.events).map
        (agendaEvent src)) := by
  obtain ⟨hmem, rfl, hproject⟩ := getCalendarSource_eq_ok hsrc
  simp only [readAgenda, bind_eq_ok] at hview
  obtain ⟨settings', hsettings', hview⟩ := hview
  obtain rfl := Except.ok.inj (hsettings.symm.trans hsettings')
  split at hview
  · rw [pure_eq_ok] at hview
    subst hview
    cases henabled
  · split at hview
    · rw [pure_eq_ok] at hview
      subst hview
      cases hstale
    · rename_i loc hloc
      rw [pure_eq_ok] at hview
      subst hview
      have hlocation : deps.location settings.timezone = loc := by simp [AgendaDeps.location, hloc]
      rw [hlocation]
      refine ((orderBy_perm _ _).filter _).trans ?_
      rw [foldl_scanSource_events, List.nil_append]
      have hlist : src ∈ listCalendarSources db projectID := by
        simp [listCalendarSources, hmem, hproject]
      have hids : ((listCalendarSources db projectID).map (·.id)).Nodup :=
        ((orderBy_perm _ _).map _).nodup_iff.mpr (hnodup.sublist (List.filter_sublist.map _))
      rw [filter_flatMap_sourceEvents hids hlist]
      simp only [getCalendarFeedSnapshot] at hsnap
      simp [sourceEvents, hon, hsnap]

end Reading

section Fresh

variable {deps : AgendaDeps} {db : CalendarDB} {projectID sourceID now : ℤ}

/-- The agenda at a moment lists of the source exactly the events of the day that an
expansion of the body over the window of the day yields. -/
def ListsDay (deps : AgendaDeps) (db : CalendarDB) (projectID sourceID : ℤ) (timezone : String)
    (body : FeedBody) (now : ℤ) : Prop :=
  ∀ view src events, readAgenda deps db projectID now = .ok view → view.enabled = true →
    view.stale = false → getCalendarSource db projectID sourceID = .ok src → src.enabled = true →
    deps.expand body (deps.location timezone) (expansionWindow now (deps.location timezone)).1
      (expansionWindow now (deps.location timezone)).2 = .ok events →
    (view.events.filter (fun ev => ev.sourceID == sourceID)).Perm
      ((eventsOfDay (localDayBounds now (deps.location timezone)) events).map (agendaEvent src))

theorem localDayBounds_of_day {loc : Location} {t now : ℤ} (h : loc.day t = loc.day now) :
    localDayBounds t loc = localDayBounds now loc := by
  simp only [localDayBounds, h]

theorem expansionWindow_of_day {loc : Location} {t now : ℤ} (h : loc.day t = loc.day now) :
    expansionWindow t loc = expansionWindow now loc := by
  simp only [expansionWindow, localDayBounds_of_day h]

theorem DayCovered.of_day {loc : Location} {t now now' : ℤ} (h : DayCovered loc t now)
    (hday : loc.day now = loc.day now') : DayCovered loc t now' := by
  unfold DayCovered at h ⊢
  rwa [← localDayBounds_of_day hday, ← expansionWindow_of_day hday, ← hday]

/-- A covered day has the same events in both expansions. -/
theorem DayCovered.perm (hexpand : ExpandsByDay deps.expand) {timezone : String} {body : FeedBody}
    {t : ℤ} {stored events : List CachedEvent} (h : DayCovered (deps.location timezone) t now)
    (hstored : expandFeed deps body timezone t = .ok stored)
    (hevents : deps.expand body (deps.location timezone)
      (expansionWindow now (deps.location timezone)).1
      (expansionWindow now (deps.location timezone)).2 = .ok events) :
    (eventsOfDay (localDayBounds now (deps.location timezone)) stored).Perm
      (eventsOfDay (localDayBounds now (deps.location timezone)) events) := by
  simp only [expandFeed, bind_eq_ok] at hstored
  obtain ⟨expanded, hexpanded, hencode⟩ := hstored
  have hperm : stored.Perm expanded := by
    cases hout : encodeCachedEvents expanded with
    | none =>
        rw [hout] at hencode
        cases hencode
    | some out =>
        rw [hout] at hencode
        cases hencode
        simp only [encodeCachedEvents] at hout
        split at hout
        · cases hout
          exact orderBy_perm _ _
        · cases hout
  refine (hperm.filter _).trans ?_
  rcases h with hday | ⟨hthen, hnow⟩
  · rw [expansionWindow_of_day hday, hevents] at hexpanded
    cases hexpanded
    exact .refl _
  · exact hexpand body _ _ _ _ expanded events hthen hnow hexpanded hevents

theorem listsDay_of_expanded (hexpand : ExpandsByDay deps.expand) {settings : ProjectAgendaSettings}
    (hsettings : getProjectAgendaSettings db projectID = .ok settings)
    (hnodup : (db.sources.map (·.id)).Nodup) {snap : CalendarFeedSnapshot}
    (hsnap : getCalendarFeedSnapshot db sourceID = some snap) {body : FeedBody} {t : ℤ}
    (hevents : expandFeed deps body settings.timezone t = .ok snap.events)
    (hcovered : DayCovered (deps.location settings.timezone) t now) :
    ListsDay deps db projectID sourceID settings.timezone body now := by
  intro view src events hview henabled hstale hsrc hon hexpanded
  have hread := readAgenda_source hnodup hsettings hview henabled hstale hsrc hon hsnap
  exact hread.trans ((hcovered.perm hexpand hevents hexpanded).map _)

/-- What a refresh that returned no error leaves: the expansion of the body that the feed
has, at a moment whose window reaches the day. -/
theorem agendaStep_ok {s : AgendaRun} {r : FeedRefresh} {settings : ProjectAgendaSettings}
    (hsettings : getProjectAgendaSettings db projectID = .ok settings)
    (hs : Expanded deps db settings.timezone sourceID s) (hr : Honest sourceID s r)
    (hconfirm : Confirmable deps settings.timezone s r)
    (hok : (refreshStored deps projectID sourceID s.db r).2 = .ok ()) :
    ∃ snap t, getCalendarFeedSnapshot (agendaStep deps projectID sourceID s r).db sourceID = some snap ∧
      expandFeed deps r.feed.body settings.timezone t = .ok snap.events ∧
      DayCovered (deps.location settings.timezone) t r.now := by
  rw [← getProjectAgendaSettings_congr hs.projects] at hsettings
  obtain ⟨err, herr⟩ | ⟨src, db', result, _, _, hrun, _, _, hstep⟩ := agendaStep_cases deps sourceID r hsettings
  · rw [herr] at hok
    cases hok
  · rw [hrun] at hok
    obtain rfl : result = .ok () := hok
    simp only [agendaStep, hrun]
    cases hstep with
    | touched resp snap hanswer hmod hold hnew =>
        cases hlast : s.last with
        | none =>
            have hserves := hr ""
            rw [hold, hanswer] at hserves
            exact absurd hserves (not_serves_blank (hs.blank hlast snap hold) hmod)
        | some last =>
            obtain ⟨old, hget, hevents⟩ := hs.events last hlast
            obtain rfl := Option.some.inj (hold.symm.trans hget)
            obtain ⟨hbody, hcovered⟩ := hconfirm resp (by simp [hanswer, Except.toOption]) hmod last hlast
            rw [hbody] at hevents
            exact ⟨_, last.2, hnew, hevents, hcovered⟩
    | full resp snap hanswer hmod hevents hnew =>
        have hserves := hr ""
        simp only [Feed.Serves, hanswer, hmod, Bool.false_eq_true, if_false] at hserves
        exact ⟨snap, r.now, hnew, hserves.1 ▸ hevents, .inl rfl⟩

/-- An expansion that lists those of the occurrences of a feed that touch the window. -/
theorem expandsByDay_filter (occurrences : FeedBody → Location → List CachedEvent) :
    ExpandsByDay fun body loc windowStart windowEnd =>
      .ok (eventsOfDay (windowStart, windowEnd) (occurrences body loc)) := by
  have hday : ∀ (bounds window : ℤ × ℤ) (l : List CachedEvent),
      window.1 ≤ bounds.1 ∧ bounds.2 ≤ window.2 →
      eventsOfDay bounds (eventsOfDay window l) = eventsOfDay bounds l := by
    intro bounds window l hwindow
    rw [eventsOfDay, eventsOfDay, List.filter_filter]
    apply List.filter_congr
    intro ev _
    have himp : overlapsWindow ev.startsAt ev.endsAt bounds.1 bounds.2 = true →
        overlapsWindow ev.startsAt ev.endsAt window.1 window.2 = true := by
      simp only [overlapsWindow, Bool.and_eq_true, decide_eq_true_eq]
      intro ⟨hstart, hend⟩
      exact ⟨hstart.trans_le hwindow.2, hwindow.1.trans_lt hend⟩
    cases hov : overlapsWindow ev.startsAt ev.endsAt bounds.1 bounds.2 with
    | false => rfl
    | true => simp [himp hov]
  intro body loc bounds window₁ window₂ l₁ l₂ h₁ h₂ hl₁ hl₂
  cases hl₁
  cases hl₂
  rw [hday bounds window₁ _ h₁, hday bounds window₂ _ h₂]

/-- Feeds whose bytes are days, with an entry of one hour on each of them. -/
def dayFeeds : AgendaDeps where
  cipher := ⟨fun _ plain => plain, fun secret => .ok secret, fun _ _ => rfl⟩
  hashCalendarURL := id
  calendarHostKind := fun _ => .other
  loadLocation := fun tz => if tz = "UTC" then some .utc else none
  expand := fun body _ windowStart windowEnd => .ok (eventsOfDay (windowStart, windowEnd)
    (body.map fun day => {
      uid := "meeting"
      title := "Meeting"
      startsAt := (day.toNat * secondsPerDay + 32400) * second
      endsAt := (day.toNat * secondsPerDay + 36000) * second }))

/-- A project with one source. -/
def oneSource : CalendarDB where
  projects := [{ id := 1, agendaEnabled := true }]
  sources := [{ id := 1, projectID := 1, secretEnc := "url", urlHash := "url" }]

/-- Ten o'clock on a day. -/
def tenOClock (day : ℤ) : ℤ := (day * secondsPerDay + 36000) * second

/-- A feed with entries on the days 10, 11 and 12. -/
def threeDays : Feed := ⟨[10, 11, 12], "a", ""⟩

/-- The feed is read on a day, and confirmed on a later one. -/
def confirmedOn (day : ℤ) : List FeedRefresh × FeedRefresh :=
  ([⟨tenOClock 10, threeDays, .ok { body := [10, 11, 12], etag := "a" }⟩],
    ⟨tenOClock day, threeDays, .ok { notModified := true, etag := "a" }⟩)

/-- A feed that keeps its body keeps to the rules in such a run. -/
theorem confirmedOn_honest (day : ℤ) :
    Along (fun s r => Honest 1 s r) (agendaStep dayFeeds 1 1) ⟨oneSource, none⟩
      ((confirmedOn day).1 ++ [(confirmedOn day).2]) := by
  have hetag : (getCalendarFeedSnapshot (agendaStep dayFeeds 1 1 ⟨oneSource, none⟩
      ⟨tenOClock 10, threeDays, .ok { body := [10, 11, 12], etag := "a" }⟩).db 1).map (·.etag) =
        some "a" := by decide +kernel
  refine ⟨Feed.serves_url ⟨rfl, rfl, rfl⟩, Feed.serves_url ?_, trivial⟩
  refine ⟨.inl ⟨?_, ?_⟩, .inr rfl, .inl rfl⟩
  · simp [feedRequest, hetag]
  · rw [feedRequest, hetag]
    rfl

end Fresh

end Scrumboy
