import Scrumboy.Application.AgendaFresh

/-!
# Refreshes at the same time

Any number of refreshes whose steps interleave with each other and with changes of URLs and
time zones. A refresh reads its source before it becomes the one refresh of that source that
is under way, and then reads the settings and the old snapshot, fetches and writes.
`Obtained` is what a snapshot should hold: events and validators from the feed at one URL,
expanded in one time zone. The invariant `Unmixed` says so of every stored snapshot, for the
current URL and time zone, and of every snapshot that a refresh has read, for the URL and the
time zone that the refresh has read.
-/

set_option linter.dupNamespace false

namespace Scrumboy

open Go Sql Transition

/-- How far a refresh has come. -/
inductive RefreshPhase
  | sourceRead
  | leading
  | settingsRead (timezone : String)
  | existingRead (timezone : String) (existing : Option CalendarFeedSnapshot)
  | fetched (timezone : String) (existing : Option CalendarFeedSnapshot)
      (result : Except CalendarError FetchResponse)
  | written
  | done

/-- Between `beginFlight` and `finishFlight`. -/
def RefreshPhase.leads : RefreshPhase → Bool
  | .sourceRead | .done => false
  | _ => true

structure RefreshThread where
  projectID : ℤ
  src : CalendarSource
  phase : RefreshPhase

inductive ThreadAction
  | beginFlight
  | readSettings
  | readExisting
  | fetch (answer : Except CalendarError FetchResponse)
  | write (now : ℤ)
  /-- A read fails, and the refresh returns its error. -/
  | abort
  | finishFlight

structure AgendaSystem where
  db : CalendarDB
  /-- The sources of which a refresh is under way. -/
  flights : List ℤ := []
  threads : List RefreshThread := []

inductive AgendaAction
  /-- A refresh starts: it is asked for, found to be due, or follows a superseded one. -/
  | readSource (projectID sourceID : ℤ)
  | thread (i : ℕ) (action : ThreadAction)
  | updateSource (nonce : ℕ) (projectID : ℤ) (command : UpdateSourceCommand)
  | updateSettings (projectID : ℤ) (patch : AgendaSettingsPatch)

section Steps

variable (deps : AgendaDeps)

/-- A step of a refresh: the store, the flights and the phase after it. An action of another
phase does nothing. -/
def threadStep (db : CalendarDB) (flights : List ℤ) (th : RefreshThread) :
    RefreshPhase → ThreadAction → CalendarDB × List ℤ × RefreshPhase
  | .sourceRead, .beginFlight =>
      if th.src.id ∈ flights then (db, flights, .done) else (db, th.src.id :: flights, .leading)
  | .leading, .readSettings =>
      match getProjectAgendaSettings db th.projectID with
      | .ok settings => (db, flights, .settingsRead settings.timezone)
      | .error _ => (db, flights, .written)
  | .settingsRead timezone, .readExisting =>
      (db, flights, .existingRead timezone (getCalendarFeedSnapshot db th.src.id))
  | .existingRead timezone existing, .fetch answer =>
      ((fetchFeed deps db th.src answer).1, flights,
        .fetched timezone existing (fetchFeed deps db th.src answer).2)
  | .fetched timezone existing result, .write now =>
      ((persistRefresh db th.src timezone
        (refreshWrite deps th.src.id timezone existing now result)).1, flights, .written)
  | .written, .finishFlight => (db, flights.filter (· ≠ th.src.id), .done)
  | phase, .abort => if phase.leads then (db, flights, .written) else (db, flights, phase)
  | phase, _ => (db, flights, phase)

/-- An operation of the store that succeeds or leaves the store alone. -/
def AgendaSystem.store (s : AgendaSystem) : Result CalendarDB → AgendaSystem
  | .ok db => { s with db }
  | .error _ => s

def systemStep (s : AgendaSystem) : AgendaAction → AgendaSystem
  | .readSource projectID sourceID =>
      match getCalendarSource s.db projectID sourceID with
      | .ok src => { s with threads := s.threads ++ [⟨projectID, src, .sourceRead⟩] }
      | .error _ => s
  | .thread i action =>
      match s.threads[i]? with
      | none => s
      | some th =>
          let next := threadStep deps s.db s.flights th th.phase action
          ⟨next.1, next.2.1, s.threads.set i { th with phase := next.2.2 }⟩
  | .updateSource nonce projectID command => s.store (updateSource deps nonce s.db projectID command)
  | .updateSettings projectID patch => s.store (updateProjectAgendaSettings deps s.db projectID patch)

/-- The steps of a refresh, with nothing in between, are those of `doRefresh`. -/
theorem doRefresh_eq_steps (s : AgendaSystem) (i : ℕ) (projectID : ℤ) (src : CalendarSource)
    (hth : s.threads[i]? = some ⟨projectID, src, .leading⟩) (answer : Except CalendarError FetchResponse)
    (now : ℤ) :
    (run (systemStep deps) s [.thread i .readSettings, .thread i .readExisting,
      .thread i (.fetch answer), .thread i (.write now)]).db =
      (doRefresh deps s.db projectID src answer now).1 := by
  obtain ⟨hi, _⟩ := List.getElem?_eq_some_iff.mp hth
  have hset : ∀ (threads : List RefreshThread) (th : RefreshThread), threads.length = s.threads.length →
      (threads.set i th)[i]? = some th := by
    intro threads th hlen
    exact List.getElem?_set_self (hlen ▸ hi)
  cases hsettings : getProjectAgendaSettings s.db projectID with
  | error err =>
      simp [systemStep, threadStep, doRefresh, hth, hsettings, hset]
  | ok settings =>
      simp [systemStep, threadStep, doRefresh, hth, hsettings, hset]

end Steps

/-! ## What a snapshot holds -/

section Obtained

variable (deps : AgendaDeps) (Gives : String → FetchResponse → Prop)

/-- The feed at a URL with the hash has given the answer. -/
def GivenAt (hash : String) (resp : FetchResponse) : Prop :=
  ∃ url, deps.hashCalendarURL url = hash ∧ Gives url resp

/-- The events and the validators of the snapshot come from the feed at the hash, and the
events are expanded in the time zone. -/
structure Obtained (hash timezone : String) (snap : CalendarFeedSnapshot) : Prop where
  etag : snap.etag = "" ∨ ∃ resp, GivenAt deps Gives hash resp ∧ snap.etag = trimSpace resp.etag
  lastModified : snap.lastModified = "" ∨
    ∃ resp, GivenAt deps Gives hash resp ∧ snap.lastModified = trimSpace resp.lastModified
  events : snap.events = [] ∨ ∃ resp now, GivenAt deps Gives hash resp ∧
    expandFeed deps resp.body timezone now = .ok snap.events

/-- A refresh that is about to read the old snapshot finds the settings' time zone unchanged
as long as there is one. -/
def ZoneHeld (db : CalendarDB) (projectID sourceID : ℤ) (timezone : String) : Prop :=
  ∀ snap ∈ db.snapshots, snap.sourceID = sourceID → ∀ p ∈ db.projects, p.id = projectID →
    p.importBatchID = none → p.agendaTimezone = timezone

/-- What a refresh knows in its phase. -/
def PhaseOk (db : CalendarDB) (projectID : ℤ) (src : CalendarSource) : RefreshPhase → Prop
  | .settingsRead timezone =>
      (∃ p ∈ db.projects, p.id = projectID ∧ p.importBatchID = none) ∧
        ZoneHeld db projectID src.id timezone
  | .existingRead timezone existing =>
      ∀ snap ∈ existing, Obtained deps Gives src.urlHash timezone snap
  | .fetched timezone existing result =>
      (∀ snap ∈ existing, Obtained deps Gives src.urlHash timezone snap) ∧
        ∀ resp, result = .ok resp → GivenAt deps Gives src.urlHash resp
  | _ => True

/-- The hash of a source is that of the URL in its secret. -/
def Hashed (src : CalendarSource) : Prop :=
  ∀ url, deps.cipher.decryptSecret src.secretEnc = .ok url → deps.hashCalendarURL url = src.urlHash

structure ThreadOk (db : CalendarDB) (th : RefreshThread) : Prop where
  hashed : Hashed deps th.src
  source : ∃ c ∈ db.sources, c.id = th.src.id ∧ c.projectID = th.projectID
  phase : PhaseOk deps Gives db th.projectID th.src th.phase

/-- No source has two refreshes under way, and each of them is registered. -/
structure Exclusive (flights : List ℤ) (threads : List RefreshThread) : Prop where
  registered : ∀ th ∈ threads, th.phase.leads = true → th.src.id ∈ flights
  alone : ∀ (i j : ℕ) (th th' : RefreshThread), threads[i]? = some th → threads[j]? = some th' → th.phase.leads = true →
    th'.phase.leads = true → th.src.id = th'.src.id → i = j

/-- Every stored snapshot is from the current URL and in the current time zone. -/
def SnapshotsOk (db : CalendarDB) : Prop :=
  ∀ snap ∈ db.snapshots, ∀ c ∈ db.sources, c.id = snap.sourceID → ∀ p ∈ db.projects,
    p.id = c.projectID → p.importBatchID = none → Obtained deps Gives c.urlHash p.agendaTimezone snap

/-- The keys of the tables, and the hashes of the sources. -/
structure Keyed (db : CalendarDB) : Prop where
  sources : (db.sources.map (·.id)).Nodup
  projects : (db.projects.map (·.id)).Nodup
  hashed : ∀ c ∈ db.sources, Hashed deps c

structure Unmixed (s : AgendaSystem) : Prop where
  keyed : Keyed deps s.db
  snapshots : SnapshotsOk deps Gives s.db
  threads : ∀ th ∈ s.threads, ThreadOk deps Gives s.db th
  exclusive : Exclusive s.flights s.threads

end Obtained

section Contents

variable {deps : AgendaDeps} {Gives : String → FetchResponse → Prop} {hash timezone : String}
  {snap : CalendarFeedSnapshot} {resp : FetchResponse}

theorem getD_nullIfEmpty (v : String) : (nullIfEmpty v).getD "" = trimSpace v := by
  by_cases hv : trimSpace v = "" <;> simp [nullIfEmpty, hv]

/-- A validator that is stored once more stays as it is. -/
theorem Obtained.stored (h : Obtained deps Gives hash timezone snap) :
    Obtained deps Gives hash timezone snap.stored := by
  refine ⟨?_, ?_, h.events⟩
  · rcases h.etag with hetag | ⟨resp, hresp, hetag⟩
    · exact .inl (by simp [CalendarFeedSnapshot.stored, hetag])
    · exact .inr ⟨resp, hresp, by simp [CalendarFeedSnapshot.stored, hetag, getD_nullIfEmpty]⟩
  · rcases h.lastModified with hmodified | ⟨resp, hresp, hmodified⟩
    · exact .inl (by simp [CalendarFeedSnapshot.stored, hmodified])
    · exact .inr ⟨resp, hresp, by simp [CalendarFeedSnapshot.stored, hmodified, getD_nullIfEmpty]⟩

theorem obtained_failure {existing : Option CalendarFeedSnapshot}
    (h : ∀ snap ∈ existing, Obtained deps Gives hash timezone snap) (sourceID : ℤ) (cause : CalendarError)
    (now : ℤ) : Obtained deps Gives hash timezone (refreshFailure sourceID existing cause now) := by
  cases existing with
  | none => exact ⟨.inl rfl, .inl rfl, .inl rfl⟩
  | some snap => exact ⟨(h snap rfl).etag, (h snap rfl).lastModified, (h snap rfl).events⟩

theorem Obtained.touched (h : Obtained deps Gives hash timezone snap) (hresp : GivenAt deps Gives hash resp)
    (fetchedAt : ℤ) : Obtained deps Gives hash timezone
      (snap.touched fetchedAt resp.etag resp.lastModified) := by
  refine ⟨?_, ?_, h.events⟩
  · by_cases hetag : trimSpace resp.etag = ""
    · simpa [CalendarFeedSnapshot.touched, nullIfEmpty, hetag] using h.etag
    · exact .inr ⟨resp, hresp, by simp [CalendarFeedSnapshot.touched, nullIfEmpty, hetag]⟩
  · by_cases hmodified : trimSpace resp.lastModified = ""
    · simpa [CalendarFeedSnapshot.touched, nullIfEmpty, hmodified] using h.lastModified
    · exact .inr ⟨resp, hresp, by simp [CalendarFeedSnapshot.touched, nullIfEmpty, hmodified]⟩

/-- A validator of the answer or of the old snapshot. -/
theorem orExisting_obtained {old : String} (f : FetchResponse → String)
    (hresp : GivenAt deps Gives hash resp)
    (hold : old = "" ∨ ∃ resp, GivenAt deps Gives hash resp ∧ old = trimSpace (f resp)) :
    trimSpace (orExisting (f resp) old) = "" ∨
      ∃ resp', GivenAt deps Gives hash resp' ∧
        trimSpace (orExisting (f resp) old) = trimSpace (f resp') := by
  have hblank : trimSpace "" = "" := by decide +kernel
  by_cases hempty : f resp = ""
  · rcases hold with rfl | ⟨resp', hresp', rfl⟩
    · exact .inl (by simp [orExisting, hempty, hblank])
    · exact .inr ⟨resp', hresp', by simp [orExisting, hempty]⟩
  · exact .inr ⟨resp, hresp, by simp [orExisting, hempty]⟩

/-- What a refresh writes is obtained where its reads and its answer were. -/
theorem refreshWrite_obtained {existing : Option CalendarFeedSnapshot}
    {result : Except CalendarError FetchResponse}
    (hexisting : ∀ snap ∈ existing, Obtained deps Gives hash timezone snap)
    (hresult : ∀ resp, result = .ok resp → GivenAt deps Gives hash resp) (sourceID now : ℤ) :
    (∃ snap, (refreshWrite deps sourceID timezone existing now result).1 = .upsert snap ∧
      snap.sourceID = sourceID ∧ Obtained deps Gives hash timezone snap.stored) ∨
    ∃ resp fetchedAt, GivenAt deps Gives hash resp ∧
      (refreshWrite deps sourceID timezone existing now result).1 =
        .touch fetchedAt resp.etag resp.lastModified := by
  have hfail : ∀ cause, Obtained deps Gives hash timezone (refreshFailure sourceID existing cause now).stored :=
    fun cause => (obtained_failure hexisting sourceID cause now).stored
  cases result with
  | error cause => exact .inl ⟨_, rfl, rfl, hfail cause⟩
  | ok resp =>
      have hresp := hresult resp rfl
      simp only [refreshWrite]
      split
      · split
        · exact .inl ⟨_, rfl, rfl, hfail .feedRequest⟩
        · exact .inr ⟨resp, _, hresp, rfl⟩
      · split
        · rename_i cause _
          exact .inl ⟨_, rfl, rfl, hfail cause⟩
        · rename_i events hevents
          refine .inl ⟨_, rfl, rfl, ?_, ?_, .inr ⟨resp, now, hresp, hevents⟩⟩
          · simp only [CalendarFeedSnapshot.stored, getD_nullIfEmpty]
            apply orExisting_obtained (·.etag) hresp
            cases existing with
            | none => exact .inl rfl
            | some snap => exact (hexisting snap rfl).etag
          · simp only [CalendarFeedSnapshot.stored, getD_nullIfEmpty]
            apply orExisting_obtained (·.lastModified) hresp
            cases existing with
            | none => exact .inl rfl
            | some snap => exact (hexisting snap rfl).lastModified

end Contents

section Writes

variable {deps : AgendaDeps} {Gives : String → FetchResponse → Prop} {db db' : CalendarDB}

theorem mem_upsertSnapshot {snap r : CalendarFeedSnapshot} {t : List CalendarFeedSnapshot}
    (h : r ∈ upsertSnapshot snap t) : r = snap ∨ r ∈ t ∧ r.sourceID ≠ snap.sourceID := by
  unfold upsertSnapshot at h
  split at h
  · obtain ⟨r₀, hr₀, rfl⟩ := mem_updateWhere.mp h
    by_cases hid : r₀.sourceID = snap.sourceID
    · simp [hid]
    · simp [hid, hr₀]
  · rename_i hany
    rcases List.mem_append.mp h with hr | hr
    · refine .inr ⟨hr, fun hid => hany (List.any_eq_true.mpr ⟨r, hr, by simpa using hid⟩)⟩
    · exact .inl (List.mem_singleton.mp hr)

theorem snapshotCurrent_iff {sourceID : ℤ} {urlHash timezone : String} :
    snapshotCurrent db sourceID urlHash timezone = true ↔
      ∃ c ∈ db.sources, c.id = sourceID ∧ c.urlHash = urlHash ∧ ∃ p ∈ db.projects,
        p.id = c.projectID ∧ p.importBatchID = none ∧ p.agendaTimezone = timezone := by
  simp [snapshotCurrent, and_assoc]

/-- The guard of a write, by the keys: it is about the one source and its one project. -/
theorem Keyed.current (hkeyed : Keyed deps db) {sourceID : ℤ} {urlHash timezone : String}
    (h : snapshotCurrent db sourceID urlHash timezone = true) {c : CalendarSource} (hc : c ∈ db.sources)
    (hid : c.id = sourceID) {p : AgendaProject} (hp : p ∈ db.projects) (hproject : p.id = c.projectID) :
    c.urlHash = urlHash ∧ p.agendaTimezone = timezone := by
  obtain ⟨c', hc', hid', hhash, p', hp', hproject', _, htz⟩ := snapshotCurrent_iff.mp h
  obtain rfl := List.inj_on_of_nodup_map hkeyed.sources hc hc' (hid.trans hid'.symm)
  obtain rfl := List.inj_on_of_nodup_map hkeyed.projects hp hp' (hproject.trans hproject'.symm)
  exact ⟨hhash, htz⟩

theorem exists_of_getProjectAgendaSettings {projectID : ℤ} {settings : ProjectAgendaSettings}
    (h : getProjectAgendaSettings db projectID = .ok settings) :
    ∃ p ∈ db.projects, p.id = projectID ∧ p.importBatchID = none ∧ p.agendaTimezone = settings.timezone := by
  unfold getProjectAgendaSettings at h
  split at h
  · cases h
  · rename_i p hfind
    cases h
    have hp := List.find?_some hfind
    simp only [Bool.and_eq_true, beq_iff_eq, Option.isNone_iff_eq_none] at hp
    exact ⟨p, List.mem_of_find?_eq_some hfind, hp.1, hp.2, rfl⟩

theorem Keyed.timezone (hkeyed : Keyed deps db) {projectID : ℤ} {settings : ProjectAgendaSettings}
    (h : getProjectAgendaSettings db projectID = .ok settings) {p : AgendaProject} (hp : p ∈ db.projects)
    (hid : p.id = projectID) : p.agendaTimezone = settings.timezone := by
  obtain ⟨q, hq, hqid, _, htz⟩ := exists_of_getProjectAgendaSettings h
  rw [List.inj_on_of_nodup_map hkeyed.projects hp hq (hid.trans hqid.symm), htz]

/-- What the last step of a refresh does: it writes what was obtained where the source now is,
and touches no other source. -/
structure WriteStep (deps : AgendaDeps) (Gives : String → FetchResponse → Prop) (db : CalendarDB)
    (sourceID : ℤ) (db' : CalendarDB) : Prop where
  projects : db'.projects = db.projects
  sources : db'.sources = db.sources
  snapshots : SnapshotsOk deps Gives db'
  others : ∀ snap ∈ db'.snapshots, snap.sourceID ≠ sourceID → snap ∈ db.snapshots

theorem upsert_writeStep {snap : CalendarFeedSnapshot} {urlHash timezone : String} (hkeyed : Keyed deps db)
    (hdb : SnapshotsOk deps Gives db) (hsnap : Obtained deps Gives urlHash timezone snap.stored)
    (h : upsertCalendarFeedSnapshotIfCurrent db snap urlHash timezone = some db') :
    WriteStep deps Gives db snap.sourceID db' := by
  unfold upsertCalendarFeedSnapshotIfCurrent at h
  split at h
  · rename_i hcurrent
    cases h
    refine ⟨rfl, rfl, fun r hr c hc hid p hp hproject hvisible => ?_, fun r hr hne => ?_⟩
    · rcases mem_upsertSnapshot hr with rfl | ⟨hr, _⟩
      · obtain ⟨rfl, rfl⟩ := hkeyed.current hcurrent hc hid hp hproject
        exact hsnap
      · exact hdb r hr c hc hid p hp hproject hvisible
    · rcases mem_upsertSnapshot hr with rfl | ⟨hr, _⟩
      · exact absurd rfl hne
      · exact hr
  · cases h

theorem touch_writeStep {sourceID fetchedAt : ℤ} {resp : FetchResponse} {urlHash timezone : String}
    (hkeyed : Keyed deps db) (hdb : SnapshotsOk deps Gives db) (hresp : GivenAt deps Gives urlHash resp)
    (h : touchCalendarFeedSnapshotIfCurrent db sourceID fetchedAt resp.etag resp.lastModified urlHash
      timezone = some db') : WriteStep deps Gives db sourceID db' := by
  unfold touchCalendarFeedSnapshotIfCurrent at h
  split at h
  · rename_i hcond
    have hcurrent := (Bool.and_eq_true_iff.mp hcond).2
    cases h
    refine ⟨rfl, rfl, fun r hr c hc hid p hp hproject hvisible => ?_, fun r hr hne => ?_⟩
    · obtain ⟨r₀, hr₀, rfl⟩ := mem_updateWhere.mp hr
      by_cases hsource : r₀.sourceID = sourceID
      · simp only [hsource, beq_self_eq_true, if_true] at hid ⊢
        have hid : c.id = sourceID := hid.trans hsource
        obtain ⟨rfl, rfl⟩ := hkeyed.current hcurrent hc hid hp hproject
        exact (hdb r₀ hr₀ c hc (hid.trans hsource.symm) p hp hproject hvisible).touched hresp fetchedAt
      · simp only [beq_iff_eq, hsource, if_false] at hid ⊢
        exact hdb r₀ hr₀ c hc hid p hp hproject hvisible
    · obtain ⟨r₀, hr₀, rfl⟩ := mem_updateWhere.mp hr
      by_cases hsource : r₀.sourceID = sourceID
      · simp only [hsource, beq_self_eq_true, if_true] at hne
        exact absurd hsource hne
      · simpa [hsource] using hr₀
  · cases h

theorem persistRefresh_writeStep {src : CalendarSource} {timezone : String}
    {existing : Option CalendarFeedSnapshot} {result : Except CalendarError FetchResponse} {now : ℤ}
    (hkeyed : Keyed deps db) (hdb : SnapshotsOk deps Gives db)
    (hexisting : ∀ snap ∈ existing, Obtained deps Gives src.urlHash timezone snap)
    (hresult : ∀ resp, result = .ok resp → GivenAt deps Gives src.urlHash resp) :
    WriteStep deps Gives db src.id
      (persistRefresh db src timezone (refreshWrite deps src.id timezone existing now result)).1 := by
  have hsame : WriteStep deps Gives db src.id db := ⟨rfl, rfl, hdb, fun snap hsnap _ => hsnap⟩
  generalize houtcome : refreshWrite deps src.id timezone existing now result = outcome
  have hwrite := refreshWrite_obtained hexisting hresult src.id now
  rw [houtcome] at hwrite
  simp only [persistRefresh]
  cases hpersist : outcome.1.persist db src.id src.urlHash timezone with
  | none => exact hsame
  | some db' =>
      have hstep : WriteStep deps Gives db src.id db' := by
        rcases hwrite with ⟨snap, hsnap, hid, hobtained⟩ | ⟨resp, fetchedAt, hresp, htouch⟩
        · rw [hsnap] at hpersist
          exact hid ▸ upsert_writeStep hkeyed hdb hobtained hpersist
        · rw [htouch] at hpersist
          exact touch_writeStep hkeyed hdb hresp hpersist
      cases outcome.2 with
      | none => exact hstep
      | some cause => exact hstep

end Writes

section Changes

variable {deps : AgendaDeps} {Gives : String → FetchResponse → Prop} {db db' : CalendarDB}

/-- A change of the settings or of a source. Sources keep their places, the snapshots that
stay are as good as before, and a refresh that has read the settings can rely on them. -/
structure ChangeStep (deps : AgendaDeps) (Gives : String → FetchResponse → Prop) (db db' : CalendarDB) :
    Prop where
  keyed : Keyed deps db'
  snapshots : SnapshotsOk deps Gives db'
  sources : ∀ c ∈ db.sources, ∃ c' ∈ db'.sources, c'.id = c.id ∧ c'.projectID = c.projectID
  projects : ∀ p ∈ db.projects, ∃ p' ∈ db'.projects, p'.id = p.id ∧ p'.importBatchID = p.importBatchID
  zone : ∀ c ∈ db.sources, ∀ timezone, ZoneHeld db c.projectID c.id timezone →
    ZoneHeld db' c.projectID c.id timezone

theorem ChangeStep.refl (hkeyed : Keyed deps db) (hdb : SnapshotsOk deps Gives db) :
    ChangeStep deps Gives db db :=
  ⟨hkeyed, hdb, fun c hc => ⟨c, hc, rfl, rfl⟩, fun p hp => ⟨p, hp, rfl, rfl⟩,
    fun _ _ _ hzone => hzone⟩

theorem ChangeStep.thread (h : ChangeStep deps Gives db db') {th : RefreshThread}
    (hth : ThreadOk deps Gives db th) : ThreadOk deps Gives db' th := by
  obtain ⟨projectID, src, phase⟩ := th
  obtain ⟨hhashed, ⟨c, hc, hid, hproject⟩, hphase⟩ := hth
  obtain ⟨c', hc', hid', hproject'⟩ := h.sources c hc
  refine ⟨hhashed, ⟨c', hc', hid'.trans hid, hproject'.trans hproject⟩, ?_⟩
  cases phase with
  | settingsRead timezone =>
      obtain ⟨⟨p, hp, hpid, hvisible⟩, hheld⟩ := hphase
      obtain ⟨p', hp', hpid', hvisible'⟩ := h.projects p hp
      have hzone := h.zone c hc timezone
      rw [hid, hproject] at hzone
      exact ⟨⟨p', hp', hpid'.trans hpid, hvisible'.trans hvisible⟩, hzone hheld⟩
  | existingRead timezone existing => exact hphase
  | fetched timezone existing result => exact hphase
  | _ => trivial

theorem ChangeStep.unmixed {s : AgendaSystem} (hs : Unmixed deps Gives s)
    (h : ChangeStep deps Gives s.db db') : Unmixed deps Gives { s with db := db' } :=
  ⟨h.keyed, h.snapshots, fun th hth => h.thread (hs.threads th hth), hs.exclusive⟩

/-- The kind of host is no part of what a source is. -/
theorem hostKind_changeStep (hkeyed : Keyed deps db) (hdb : SnapshotsOk deps Gives db) (sourceID : ℤ)
    (hash : String) (kind : CalendarHostKind) :
    ChangeStep deps Gives db (updateCalendarSourceHostKindIfURLHashCurrent db sourceID hash kind) := by
  have hids := map_hostKind_sources db (·.id) (fun _ _ => rfl) sourceID hash kind
  have hmap := map_hostKind_sources db (fun c => (c.id, c.projectID, c.secretEnc, c.urlHash))
    (fun _ _ => rfl) sourceID hash kind
  have hback : ∀ c' ∈ (updateCalendarSourceHostKindIfURLHashCurrent db sourceID hash kind).sources,
      ∃ c ∈ db.sources, c.id = c'.id ∧ c.projectID = c'.projectID ∧ c.secretEnc = c'.secretEnc ∧
        c.urlHash = c'.urlHash := by
    intro c' hc'
    have hmem := List.mem_map_of_mem (f := fun c : CalendarSource =>
      (c.id, c.projectID, c.secretEnc, c.urlHash)) hc'
    rw [hmap] at hmem
    obtain ⟨c, hc, heq⟩ := List.mem_map.mp hmem
    simp only [Prod.mk.injEq] at heq
    exact ⟨c, hc, heq⟩
  refine ⟨⟨hids ▸ hkeyed.sources, ?_, ?_⟩, ?_, ?_, ?_, ?_⟩
  · rw [hostKind_projects]
    exact hkeyed.projects
  · intro c' hc' url hurl
    obtain ⟨c, hc, _, _, hsecret, hhash⟩ := hback c' hc'
    rw [← hhash]
    exact hkeyed.hashed c hc url (hsecret ▸ hurl)
  · intro snap hsnap c' hc' hid p hp hproject hvisible
    rw [hostKind_snapshots] at hsnap
    rw [hostKind_projects] at hp
    obtain ⟨c, hc, hid', hproject', _, hhash⟩ := hback c' hc'
    rw [← hhash]
    exact hdb snap hsnap c hc (hid'.trans hid) p hp (hproject.trans hproject'.symm) hvisible
  · intro c hc
    have hmem := List.mem_map_of_mem (f := fun c : CalendarSource =>
      (c.id, c.projectID, c.secretEnc, c.urlHash)) hc
    rw [← hmap] at hmem
    obtain ⟨c', hc', heq⟩ := List.mem_map.mp hmem
    simp only [Prod.mk.injEq] at heq
    exact ⟨c', hc', heq.1, heq.2.1⟩
  · intro p hp
    exact ⟨p, by rwa [hostKind_projects], rfl, rfl⟩
  · intro c _ timezone hzone
    unfold ZoneHeld
    rw [hostKind_snapshots, hostKind_projects]
    exact hzone

theorem fetchFeed_changeStep (hkeyed : Keyed deps db) (hdb : SnapshotsOk deps Gives db)
    (src : CalendarSource) (answer : Except CalendarError FetchResponse) :
    ChangeStep deps Gives db (fetchFeed deps db src answer).1 := by
  unfold fetchFeed
  split
  · exact .refl hkeyed hdb
  · exact hostKind_changeStep hkeyed hdb _ _ _

/-- A source that gets another URL loses its snapshot. -/
theorem updateSource_changeStep (hkeyed : Keyed deps db) (hdb : SnapshotsOk deps Gives db) {nonce : ℕ}
    {projectID : ℤ} {command : UpdateSourceCommand}
    (h : updateSource deps nonce db projectID command = .ok db') : ChangeStep deps Gives db db' := by
  simp only [updateSource, updateCalendarSource, bind_eq_ok, reject_eq_ok, pure_eq_ok] at h
  obtain ⟨existing, hexisting, _, _, _, _, _, _, rfl⟩ := h
  obtain ⟨hmem, hid, hproject⟩ := getCalendarSource_eq_ok hexisting
  have hback : ∀ c', c' ∈ updateWhere (fun c => c.id == command.sourceID && c.projectID == projectID)
      (fun c => { c with
        name := (command.name.map trimSpace).getD existing.name
        enabled := command.enabled.getD existing.enabled
        secretEnc := (command.url.map (deps.cipher.encryptSecret nonce)).getD existing.secretEnc
        urlHash := (command.url.map deps.hashCalendarURL).getD existing.urlHash
        hostKind := (command.url.map deps.calendarHostKind).getD existing.hostKind }) db.sources →
      c' ∈ db.sources ∧ c'.id ≠ command.sourceID ∨
        c'.id = command.sourceID ∧ c'.projectID = projectID ∧
          c'.secretEnc = (command.url.map (deps.cipher.encryptSecret nonce)).getD existing.secretEnc ∧
          c'.urlHash = (command.url.map deps.hashCalendarURL).getD existing.urlHash := by
    intro c' hc'
    obtain ⟨c, hc, rfl⟩ := mem_updateWhere.mp hc'
    by_cases hsource : c.id = command.sourceID
    · obtain rfl := List.inj_on_of_nodup_map hkeyed.sources hc hmem (hsource.trans hid.symm)
      simp [hsource, hproject]
    · simp [hsource, hc]
  refine ⟨⟨?_, hkeyed.projects, ?_⟩, ?_, ?_, fun p hp => ⟨p, hp, rfl, rfl⟩, ?_⟩
  · refine (congrArg List.Nodup (map_updateWhere CalendarSource.id ?_ db.sources)).mpr hkeyed.sources
    exact fun _ => rfl
  · intro c' hc' url hurl
    rcases hback c' hc' with ⟨hc, _⟩ | ⟨_, _, hsecret, hhash⟩
    · exact hkeyed.hashed c' hc url hurl
    · rw [hsecret] at hurl
      rw [hhash]
      cases hcommand : command.url with
      | none =>
          rw [hcommand] at hurl
          exact hkeyed.hashed existing hmem url hurl
      | some plain =>
          rw [hcommand] at hurl
          simp only [Option.map_some, Option.getD_some, deps.cipher.decrypt_encrypt] at hurl ⊢
          rw [Except.ok.inj hurl]
  · intro snap hsnap c' hc' hid' p hp hproject' hvisible
    have hstay : snap ∈ db.snapshots := by
      dsimp only at hsnap
      split at hsnap
      · exact (mem_deleteWhere.mp hsnap).1
      · exact hsnap
    rcases hback c' hc' with ⟨hc, _⟩ | ⟨hsource, hproject'', _, hhash⟩
    · exact hdb snap hstay c' hc hid' p hp hproject' hvisible
    · have hsame : existing.urlHash = (command.url.map deps.hashCalendarURL).getD existing.urlHash := by
        by_contra hne
        dsimp only at hsnap
        rw [if_pos hne] at hsnap
        have hgone := (mem_deleteWhere.mp hsnap).2
        simp [← hid', hsource] at hgone
      rw [hhash, ← hsame]
      exact hdb snap hstay existing hmem (hid.trans (hsource.symm.trans hid')) p hp
        (hproject'.trans (hproject''.trans hproject.symm)) hvisible
  · intro c hc
    refine ⟨_, List.mem_map_of_mem hc, ?_⟩
    dsimp only
    split <;> exact ⟨rfl, rfl⟩
  · intro c _ timezone hzone snap hsnap
    have hstay : snap ∈ db.snapshots := by
      dsimp only at hsnap
      split at hsnap
      · exact (mem_deleteWhere.mp hsnap).1
      · exact hsnap
    exact hzone snap hstay

/-- A project that gets another time zone loses the snapshots of its sources. -/
theorem updateSettings_changeStep (hkeyed : Keyed deps db) (hdb : SnapshotsOk deps Gives db)
    {projectID : ℤ} {patch : AgendaSettingsPatch}
    (h : updateProjectAgendaSettings deps db projectID patch = .ok db') :
    ChangeStep deps Gives db db' := by
  simp only [updateProjectAgendaSettings, bind_eq_ok] at h
  obtain ⟨existing, hexisting, h⟩ := h
  split at h
  · rw [pure_eq_ok] at h
    subst h
    exact .refl hkeyed hdb
  · simp only [bind_eq_ok, pure_eq_ok] at h
    obtain ⟨timezone, htimezone, title, _, color, _, rfl⟩ := h
    have hstay : ∀ snap ∈ (if patch.timezone.isSome ∧ existing.timezone ≠ timezone then
        deleteWhere (fun snap => db.sources.any fun c => c.id == snap.sourceID && c.projectID == projectID)
          db.snapshots else db.snapshots), snap ∈ db.snapshots ∧
        (existing.timezone ≠ timezone → ∀ c ∈ db.sources, c.id = snap.sourceID → c.projectID ≠ projectID) := by
      intro snap hsnap
      split at hsnap
      · obtain ⟨hsnap, hgone⟩ := mem_deleteWhere.mp hsnap
        refine ⟨hsnap, fun _ c hc hid hproject => ?_⟩
        have hany : (db.sources.any fun c => c.id == snap.sourceID && c.projectID == projectID) = true :=
          List.any_eq_true.mpr ⟨c, hc, by simp [hid, hproject]⟩
        rw [hany] at hgone
        cases hgone
      · rename_i hcond
        refine ⟨hsnap, fun hne => absurd ⟨?_, hne⟩ hcond⟩
        -- only a patch that names the time zone changes it
        cases hpatch : patch.timezone with
        | none =>
            rw [hpatch, patched, pure_eq_ok] at htimezone
            exact absurd htimezone hne
        | some raw => rfl
    have hback : ∀ p', p' ∈ updateWhere (fun p => p.id == projectID && p.importBatchID.isNone)
        (AgendaProject.withSettings ⟨patch.enabled.getD existing.enabled, timezone, title, color⟩)
        db.projects → p'.importBatchID = none →
        ∃ p ∈ db.projects, p.id = p'.id ∧ p.importBatchID = none ∧
          (p'.agendaTimezone = p.agendaTimezone ∨ p.id = projectID ∧ p.agendaTimezone = existing.timezone ∧
            p'.agendaTimezone = timezone) := by
      intro p' hp' hvisible
      obtain ⟨p, hp, rfl⟩ := mem_updateWhere.mp hp'
      by_cases hcond : p.id = projectID ∧ p.importBatchID = none
      · refine ⟨p, hp, by simp [hcond, AgendaProject.withSettings], hcond.2, .inr ⟨hcond.1, ?_, ?_⟩⟩
        · exact hkeyed.timezone hexisting hp hcond.1
        · simp [hcond, AgendaProject.withSettings]
      · have hfalse : (p.id == projectID && p.importBatchID.isNone) = false := by
          rw [Bool.eq_false_iff]
          exact fun htrue => hcond (by simpa using htrue)
        simp only [hfalse, Bool.false_eq_true, if_false] at hvisible ⊢
        exact ⟨p, hp, rfl, hvisible, .inl rfl⟩
    refine ⟨⟨hkeyed.sources, ?_, hkeyed.hashed⟩, ?_, fun c hc => ⟨c, hc, rfl, rfl⟩, ?_, ?_⟩
    · refine (congrArg List.Nodup (map_updateWhere AgendaProject.id ?_ db.projects)).mpr hkeyed.projects
      exact fun _ => rfl
    · intro snap hsnap c hc hid p' hp' hproject hvisible
      obtain ⟨hsnap, hchanged⟩ := hstay snap hsnap
      obtain ⟨p, hp, hpid, hpvisible, hzone⟩ := hback p' hp' hvisible
      have hold := hdb snap hsnap c hc hid p hp (hpid.trans hproject) hpvisible
      rcases hzone with hzone | ⟨hpatched, hzone, hzone'⟩
      · rwa [hzone]
      · have hsame : existing.timezone = timezone := by
          by_contra hne
          exact hchanged hne c hc hid (hproject.symm.trans (hpid.symm.trans hpatched))
        rwa [hzone', ← hsame, ← hzone]
    · intro p hp
      refine ⟨_, List.mem_map_of_mem hp, ?_⟩
      dsimp only
      split <;> exact ⟨rfl, rfl⟩
    · intro c hc tz hheld snap hsnap hid p' hp' hproject hvisible
      obtain ⟨hsnap, hchanged⟩ := hstay snap hsnap
      obtain ⟨p, hp, hpid, hpvisible, hzone⟩ := hback p' hp' hvisible
      have hold := hheld snap hsnap hid p hp (hpid.trans hproject) hpvisible
      rcases hzone with hzone | ⟨hpatched, hzone, hzone'⟩
      · rw [hzone, hold]
      · have hsame : existing.timezone = timezone := by
          by_contra hne
          exact hchanged hne c hc hid.symm (hproject.symm.trans (hpid.symm.trans hpatched))
        rw [hzone', ← hsame, ← hzone, hold]

end Changes

section Threads

variable {deps : AgendaDeps} {Gives : String → FetchResponse → Prop} {s : AgendaSystem}

/-- A refresh that goes on to another phase of its flight keeps the flights apart. -/
theorem Exclusive.set {flights : List ℤ} {threads : List RefreshThread} (h : Exclusive flights threads)
    {i : ℕ} {th : RefreshThread} (hth : threads[i]? = some th) (phase : RefreshPhase)
    (hphase : phase.leads = true → th.phase.leads = true) :
    Exclusive flights (threads.set i { th with phase }) := by
  have hget : ∀ (j : ℕ) (th' : RefreshThread), (threads.set i { th with phase })[j]? = some th' →
      th'.phase.leads = true → ∃ th₀, threads[j]? = some th₀ ∧ th₀.phase.leads = true ∧
        th₀.src.id = th'.src.id := by
    intro j th' hth' hleads
    rw [List.getElem?_set] at hth'
    split at hth'
    · rename_i hij
      subst hij
      split at hth'
      · cases hth'
        exact ⟨th, hth, hphase hleads, rfl⟩
      · cases hth'
    · exact ⟨th', hth', hleads, rfl⟩
  refine ⟨fun th' hth' hleads => ?_, fun j k th₁ th₂ h₁ h₂ hl₁ hl₂ hid => ?_⟩
  · obtain ⟨j, hj⟩ := List.mem_iff_getElem?.mp hth'
    obtain ⟨th₀, hth₀, hleads₀, hid⟩ := hget j th' hj hleads
    exact hid ▸ h.registered th₀ (List.mem_of_getElem? hth₀) hleads₀
  · obtain ⟨th₁', h₁, hl₁, hid₁⟩ := hget j th₁ h₁ hl₁
    obtain ⟨th₂', h₂, hl₂, hid₂⟩ := hget k th₂ h₂ hl₂
    exact h.alone j k th₁' th₂' h₁ h₂ hl₁ hl₂ (hid₁.trans (hid.trans hid₂.symm))

/-- A refresh that takes a free flight. -/
theorem Exclusive.begin {flights : List ℤ} {threads : List RefreshThread} (h : Exclusive flights threads)
    (i : ℕ) (th : RefreshThread) (hfree : th.src.id ∉ flights) :
    Exclusive (th.src.id :: flights) (threads.set i { th with phase := .leading }) := by
  have hget : ∀ (j : ℕ) (th' : RefreshThread),
      (threads.set i { th with phase := .leading })[j]? = some th' →
      j = i ∧ th'.src = th.src ∨ threads[j]? = some th' := by
    intro j th' hth'
    rw [List.getElem?_set] at hth'
    split at hth'
    · rename_i hij
      split at hth'
      · cases hth'
        exact .inl ⟨hij.symm, rfl⟩
      · cases hth'
    · exact .inr hth'
  have hother : ∀ (j : ℕ) (th' : RefreshThread), threads[j]? = some th' → th'.phase.leads = true →
      th'.src.id ≠ th.src.id := by
    intro j th' hth' hleads hid
    exact hfree (hid ▸ h.registered th' (List.mem_of_getElem? hth') hleads)
  refine ⟨fun th' hth' hleads => ?_, fun j k th₁ th₂ h₁ h₂ hl₁ hl₂ hid => ?_⟩
  · obtain ⟨j, hj⟩ := List.mem_iff_getElem?.mp hth'
    rcases hget j th' hj with ⟨_, hsrc⟩ | hth'
    · exact hsrc ▸ List.mem_cons_self
    · exact List.mem_cons_of_mem _ (h.registered th' (List.mem_of_getElem? hth') hleads)
  · rcases hget j th₁ h₁ with ⟨hj, hsrc₁⟩ | h₁
    · rcases hget k th₂ h₂ with ⟨hk, _⟩ | h₂
      · exact hj.trans hk.symm
      · exact absurd (hid.symm.trans (hsrc₁ ▸ rfl)) (hother k th₂ h₂ hl₂)
    · rcases hget k th₂ h₂ with ⟨_, hsrc₂⟩ | h₂
      · exact absurd (hid.trans (hsrc₂ ▸ rfl)) (hother j th₁ h₁ hl₁)
      · exact h.alone j k th₁ th₂ h₁ h₂ hl₁ hl₂ hid

/-- A refresh that ends its flight. -/
theorem Exclusive.finish {flights : List ℤ} {threads : List RefreshThread} (h : Exclusive flights threads)
    {i : ℕ} {th : RefreshThread} (hth : threads[i]? = some th) (hleads : th.phase.leads = true) :
    Exclusive (flights.filter (· ≠ th.src.id)) (threads.set i { th with phase := .done }) := by
  have hset := h.set hth .done (fun hdone => by cases hdone)
  refine ⟨fun th' hth' hleads' => ?_, hset.alone⟩
  refine List.mem_filter.mpr ⟨hset.registered th' hth' hleads', ?_⟩
  simp only [ne_eq, decide_not, Bool.not_eq_true', decide_eq_false_iff_not]
  intro hid
  obtain ⟨j, hj⟩ := List.mem_iff_getElem?.mp hth'
  rw [List.getElem?_set] at hj
  split at hj
  · split at hj
    · cases hj
      cases hleads'
    · cases hj
  · rename_i hne
    exact hne (h.alone i j th th' hth hj hleads hleads' hid.symm)

/-- A refresh goes on, and nothing else changes but the flights. -/
theorem Unmixed.enter (hs : Unmixed deps Gives s) {i : ℕ} {th : RefreshThread}
    (hth : s.threads[i]? = some th) {flights : List ℤ} {phase : RefreshPhase}
    (hphase : PhaseOk deps Gives s.db th.projectID th.src phase)
    (hexclusive : Exclusive flights (s.threads.set i { th with phase })) :
    Unmixed deps Gives ⟨s.db, flights, s.threads.set i { th with phase }⟩ := by
  refine ⟨hs.keyed, hs.snapshots, fun th' hth' => ?_, hexclusive⟩
  rcases List.mem_or_eq_of_mem_set hth' with hth' | rfl
  · exact hs.threads th' hth'
  · have hold := hs.threads th (List.mem_of_getElem? hth)
    exact ⟨hold.hashed, hold.source, hphase⟩

/-- A refresh writes. -/
theorem Unmixed.write (hs : Unmixed deps Gives s) {i : ℕ} {th : RefreshThread}
    (hth : s.threads[i]? = some th) (hleads : th.phase.leads = true) {db : CalendarDB}
    (hwrite : WriteStep deps Gives s.db th.src.id db) :
    Unmixed deps Gives ⟨db, s.flights, s.threads.set i { th with phase := .written }⟩ := by
  have hkeyed : Keyed deps db := by
    refine ⟨?_, ?_, ?_⟩
    · rw [hwrite.sources]
      exact hs.keyed.sources
    · rw [hwrite.projects]
      exact hs.keyed.projects
    · rw [hwrite.sources]
      exact hs.keyed.hashed
  refine ⟨hkeyed, hwrite.snapshots, fun th' hth' => ?_, hs.exclusive.set hth .written fun _ => hleads⟩
  have hsource : ∀ th, ThreadOk deps Gives s.db th →
      ∃ c ∈ db.sources, c.id = th.src.id ∧ c.projectID = th.projectID := by
    intro th hth
    rw [hwrite.sources]
    exact hth.source
  obtain ⟨j, hj⟩ := List.mem_iff_getElem?.mp hth'
  rw [List.getElem?_set] at hj
  split at hj
  · split at hj
    · cases hj
      have hold := hs.threads th (List.mem_of_getElem? hth)
      exact ⟨hold.hashed, hsource th hold, trivial⟩
    · cases hj
  · rename_i hne
    have hold := hs.threads th' (List.mem_of_getElem? hj)
    refine ⟨hold.hashed, hsource th' hold, ?_⟩
    have hphase := hold.phase
    -- another refresh that has read the settings is of another source
    cases hth'phase : th'.phase with
    | settingsRead timezone =>
        rw [hth'phase] at hphase
        have hid : th'.src.id ≠ th.src.id := fun hid =>
          hne (hs.exclusive.alone i j th th' hth hj hleads (by simp [hth'phase, RefreshPhase.leads]) hid.symm)
        refine ⟨hwrite.projects ▸ hphase.1, fun snap hsnap hsnapID p hp => ?_⟩
        rw [hwrite.projects] at hp
        exact hphase.2 snap (hwrite.others snap hsnap (hsnapID ▸ hid)) hsnapID p hp
    | existingRead timezone existing =>
        rw [hth'phase] at hphase
        exact hphase
    | fetched timezone existing result =>
        rw [hth'phase] at hphase
        exact hphase
    | _ => trivial

end Threads

section Runs

variable {deps : AgendaDeps} {Gives : String → FetchResponse → Prop} {s : AgendaSystem}

/-- The answers of a fetch are those of the feed at the URL that is fetched. -/
def FetchesFeed (deps : AgendaDeps) (Gives : String → FetchResponse → Prop) (s : AgendaSystem) :
    AgendaAction → Prop
  | .thread i (.fetch answer) => ∀ th, s.threads[i]? = some th → ∀ url,
      deps.cipher.decryptSecret th.src.secretEnc = .ok url → ∀ resp, answer = .ok resp → Gives url resp
  | _ => True

/-- A refresh that finds an old snapshot finds the source with the URL that it has read. -/
def ReadsOwn (s : AgendaSystem) : AgendaAction → Prop
  | .thread i .readExisting => ∀ projectID src timezone,
      s.threads[i]? = some ⟨projectID, src, .settingsRead timezone⟩ →
      (getCalendarFeedSnapshot s.db src.id).isSome → ∀ c ∈ s.db.sources, c.id = src.id →
        c.urlHash = src.urlHash
  | _ => True

/-- The old snapshot that a refresh reads is from the URL and in the time zone that it has
read. -/
theorem obtained_existing (hs : Unmixed deps Gives s) {projectID : ℤ} {src : CalendarSource}
    {timezone : String} (hth : ThreadOk deps Gives s.db ⟨projectID, src, .settingsRead timezone⟩)
    (hown : (getCalendarFeedSnapshot s.db src.id).isSome → ∀ c ∈ s.db.sources, c.id = src.id →
      c.urlHash = src.urlHash) :
    ∀ snap ∈ getCalendarFeedSnapshot s.db src.id, Obtained deps Gives src.urlHash timezone snap := by
  intro snap hsnap
  obtain ⟨c, hc, hid, hproject⟩ := hth.source
  obtain ⟨⟨p, hp, hpid, hvisible⟩, hzone⟩ := hth.phase
  have hmem : snap ∈ s.db.snapshots := List.mem_of_find?_eq_some hsnap
  have hsource : snap.sourceID = src.id := by simpa using List.find?_some hsnap
  have hobtained := hs.snapshots snap hmem c hc (hid.trans hsource.symm) p hp (hpid.trans hproject.symm)
    hvisible
  rwa [hown (Option.isSome_of_mem hsnap) c hc hid, hzone snap hmem hsource p hp hpid hvisible] at hobtained

theorem threadStep_unmixed (hs : Unmixed deps Gives s) {i : ℕ} {th : RefreshThread}
    (hth : s.threads[i]? = some th) (action : ThreadAction)
    (hfetch : FetchesFeed deps Gives s (.thread i action)) (hown : ReadsOwn s (.thread i action)) :
    Unmixed deps Gives (systemStep deps s (.thread i action)) := by
  have hold := hs.threads th (List.mem_of_getElem? hth)
  have hsame : s.threads.set i th = s.threads := by
    obtain ⟨hi, rfl⟩ := List.getElem?_eq_some_iff.mp hth
    exact List.set_getElem_self hi
  obtain ⟨projectID, src, phase⟩ := th
  have hnothing : Unmixed deps Gives ⟨s.db, s.flights, s.threads.set i ⟨projectID, src, phase⟩⟩ := by
    rw [hsame]
    exact hs
  have hset : ∀ next : RefreshPhase, (next.leads = true → phase.leads = true) →
      Exclusive s.flights (s.threads.set i ⟨projectID, src, next⟩) :=
    fun next hnext => hs.exclusive.set hth next hnext
  simp only [systemStep, hth]
  cases action with
  | beginFlight =>
      cases phase with
      | sourceRead =>
          simp only [threadStep]
          split
          · exact hs.enter hth trivial (hset .done fun h => by cases h)
          · rename_i hfree
            exact hs.enter hth trivial (hs.exclusive.begin i ⟨projectID, src, .sourceRead⟩ hfree)
      | _ => exact hnothing
  | readSettings =>
      cases phase with
      | leading =>
          simp only [threadStep]
          cases hsettings : getProjectAgendaSettings s.db projectID with
          | error err => exact hs.enter hth trivial (hset .written fun _ => rfl)
          | ok settings =>
              obtain ⟨p, hp, hid, hvisible, _⟩ := exists_of_getProjectAgendaSettings hsettings
              refine hs.enter hth ⟨⟨p, hp, hid, hvisible⟩, ?_⟩ (hset _ fun _ => rfl)
              intro snap _ _ q hq hqid _
              exact hs.keyed.timezone hsettings hq hqid
      | _ => exact hnothing
  | readExisting =>
      cases phase with
      | settingsRead timezone =>
          exact hs.enter hth (obtained_existing hs hold (hown projectID src timezone hth))
            (hset _ fun _ => rfl)
      | _ => exact hnothing
  | fetch answer =>
      cases phase with
      | existingRead timezone existing =>
          have hs' := (fetchFeed_changeStep hs.keyed hs.snapshots src answer).unmixed hs
          refine hs'.enter hth ⟨hold.phase, fun resp hresp => ?_⟩ (hset _ fun _ => rfl)
          obtain ⟨hanswer, url, hurl⟩ := fetchFeed_eq_ok hresp
          exact ⟨url, hold.hashed url hurl, hfetch _ hth url hurl resp hanswer⟩
      | _ => exact hnothing
  | write now =>
      cases phase with
      | fetched timezone existing result =>
          exact hs.write hth rfl (persistRefresh_writeStep hs.keyed hs.snapshots hold.phase.1 hold.phase.2)
      | _ => exact hnothing
  | abort =>
      cases hleads : phase.leads with
      | true =>
          have hstep : threadStep deps s.db s.flights ⟨projectID, src, phase⟩ phase .abort =
              (s.db, s.flights, .written) := by
            cases phase <;> first | rfl | cases hleads
          rw [hstep]
          exact hs.enter hth trivial (hset .written fun _ => hleads)
      | false =>
          have hstep : threadStep deps s.db s.flights ⟨projectID, src, phase⟩ phase .abort =
              (s.db, s.flights, phase) := by
            cases phase <;> first | rfl | cases hleads
          rw [hstep]
          exact hnothing
  | finishFlight =>
      cases phase with
      | written => exact hs.enter hth trivial (hs.exclusive.finish hth rfl)
      | _ => exact hnothing

theorem systemStep_unmixed (hs : Unmixed deps Gives s) (action : AgendaAction)
    (hfetch : FetchesFeed deps Gives s action) (hown : ReadsOwn s action) :
    Unmixed deps Gives (systemStep deps s action) := by
  have hstore : ∀ result, (∀ db', result = .ok db' → ChangeStep deps Gives s.db db') →
      Unmixed deps Gives (s.store result) := by
    intro result hresult
    cases result with
    | error err => exact hs
    | ok db' => exact (hresult db' rfl).unmixed hs
  cases action with
  | readSource projectID sourceID =>
      simp only [systemStep]
      cases hsrc : getCalendarSource s.db projectID sourceID with
      | error err => exact hs
      | ok src =>
          obtain ⟨hmem, _, hproject⟩ := getCalendarSource_eq_ok hsrc
          refine ⟨hs.keyed, hs.snapshots, fun th hth => ?_, ?_, ?_⟩
          · rcases List.mem_append.mp hth with hth | hth
            · exact hs.threads th hth
            · obtain rfl := List.mem_singleton.mp hth
              exact ⟨hs.keyed.hashed src hmem, ⟨src, hmem, rfl, hproject⟩, trivial⟩
          · intro th hth hleads
            rcases List.mem_append.mp hth with hth | hth
            · exact hs.exclusive.registered th hth hleads
            · obtain rfl := List.mem_singleton.mp hth
              cases hleads
          · have hget : ∀ (j : ℕ) (th : RefreshThread),
                (s.threads ++ [⟨projectID, src, .sourceRead⟩])[j]? = some th → th.phase.leads = true →
                s.threads[j]? = some th := by
              intro j th hth hleads
              rw [List.getElem?_append] at hth
              split at hth
              · exact hth
              · obtain rfl := List.mem_singleton.mp (List.mem_of_getElem? hth)
                cases hleads
            intro j k th₁ th₂ h₁ h₂ hl₁ hl₂ hid
            exact hs.exclusive.alone j k th₁ th₂ (hget j th₁ h₁ hl₁) (hget k th₂ h₂ hl₂) hl₁ hl₂ hid
  | thread i action =>
      cases hth : s.threads[i]? with
      | none =>
          simp only [systemStep, hth]
          exact hs
      | some th => exact threadStep_unmixed hs hth action hfetch hown
  | updateSource nonce projectID command =>
      exact hstore _ fun db' h => updateSource_changeStep hs.keyed hs.snapshots h
  | updateSettings projectID patch =>
      exact hstore _ fun db' h => updateSettings_changeStep hs.keyed hs.snapshots h

/-- In every run in which a refresh that finds an old snapshot finds the source with the URL
that it has read, every stored snapshot is from the current URL and in the current time zone
of its source. -/
theorem snapshots_unmixed {db : CalendarDB} (hkeyed : Keyed deps db) (hnone : db.snapshots = [])
    (actions : List AgendaAction)
    (hrun : Along (fun s a => FetchesFeed deps Gives s a ∧ ReadsOwn s a) (systemStep deps) ⟨db, [], []⟩
      actions) :
    SnapshotsOk deps Gives (run (systemStep deps) ⟨db, [], []⟩ actions).db := by
  have hstart : Unmixed deps Gives ⟨db, [], []⟩ := by
    refine ⟨hkeyed, fun snap hsnap => ?_, fun th hth => ?_, fun th hth => ?_, fun i j th th' hth => ?_⟩
    · rw [hnone] at hsnap
      cases hsnap
    · cases hth
    · cases hth
    · cases hth
  have hstep : ∀ s a, Unmixed deps Gives s → FetchesFeed deps Gives s a ∧ ReadsOwn s a →
      Unmixed deps Gives (systemStep deps s a) :=
    fun s a hs ha => systemStep_unmixed hs a ha.1 ha.2
  exact (run_along hstep hstart hrun).snapshots

/-- The one source is refreshed. -/
def plainRefresh : List AgendaAction :=
  [.readSource 1 1, .thread 0 .beginFlight, .thread 0 .readSettings, .thread 0 .readExisting,
    .thread 0 (.fetch (.ok { body := [10], etag := "a" })), .thread 0 (.write (tenOClock 10)),
    .thread 0 .finishFlight]

theorem snapshots_unmixed_plain :
    (run (systemStep dayFeeds) ⟨oneSource, [], []⟩ plainRefresh).db.snapshots.length = 1 ∧
      SnapshotsOk dayFeeds (fun url resp => url = "url" ∧ resp.etag = "a")
        (run (systemStep dayFeeds) ⟨oneSource, [], []⟩ plainRefresh).db := by
  refine ⟨by decide +kernel, snapshots_unmixed ⟨by decide +kernel, by decide +kernel, ?_⟩ rfl plainRefresh
    ⟨⟨trivial, trivial⟩, ⟨trivial, trivial⟩, ⟨trivial, trivial⟩, ⟨trivial, ?_⟩, ⟨?_, trivial⟩,
      ⟨trivial, trivial⟩, ⟨trivial, trivial⟩, trivial⟩⟩
  · intro c hc url hurl
    obtain rfl := List.mem_singleton.mp hc
    exact (Except.ok.inj hurl).symm
  · intro projectID src timezone hth _ c hc _
    obtain rfl := List.mem_singleton.mp hc
    cases hth
    rfl
  · intro th hth url hurl resp hresp
    cases hth
    cases hresp
    exact ⟨(Except.ok.inj hurl).symm, rfl⟩

/-- A refresh has read the source when its URL changes. Another refresh stores a snapshot of
the new URL; then the first one takes its turn and reads this snapshot, the URL changes back,
and the fetch fails. -/
def changedBack : List AgendaAction :=
  [.readSource 1 1, .updateSource 0 1 { sourceID := 1, url := some "b" }, .readSource 1 1,
    .thread 1 .beginFlight, .thread 1 .readSettings, .thread 1 .readExisting,
    .thread 1 (.fetch (.ok { body := [10], etag := "vb" })), .thread 1 (.write (tenOClock 10)),
    .thread 1 .finishFlight, .thread 0 .beginFlight, .thread 0 .readSettings, .thread 0 .readExisting,
    .updateSource 0 1 { sourceID := 1, url := some "url" }, .thread 0 (.fetch (.error .feedTimeout)),
    .thread 0 (.write (tenOClock 10))]

/-- Not every run keeps the feeds apart: the source ends up with the events and the validator
of the other URL. -/
theorem snapshot_of_other_feed :
    ¬ ∀ actions, Along (FetchesFeed dayFeeds fun url resp => url = "b" ∧ resp.etag = "vb")
        (systemStep dayFeeds) ⟨oneSource, [], []⟩ actions →
      SnapshotsOk dayFeeds (fun url resp => url = "b" ∧ resp.etag = "vb")
        (run (systemStep dayFeeds) ⟨oneSource, [], []⟩ actions).db := by
  intro h
  have hsecret : (run (systemStep dayFeeds) ⟨oneSource, [], []⟩ (changedBack.take 6)).threads[1]?.map
      (·.src.secretEnc) = some "b" := by decide +kernel
  have hfetches : Along (FetchesFeed dayFeeds fun url resp => url = "b" ∧ resp.etag = "vb")
      (systemStep dayFeeds) ⟨oneSource, [], []⟩ changedBack := by
    refine ⟨trivial, trivial, trivial, trivial, trivial, trivial, ?_, trivial, trivial, trivial, trivial,
      trivial, trivial, ?_, trivial, trivial⟩
    · intro th hth url hurl resp hresp
      have hurl' : th.src.secretEnc = url := Except.ok.inj hurl
      have hth' := congrArg (Option.map fun th : RefreshThread => th.src.secretEnc) hth
      cases hresp
      exact ⟨hurl'.symm.trans (Option.some.inj (hth'.symm.trans hsecret)), rfl⟩
    · intro th _ url _ resp hresp
      cases hresp
  have hok := h changedBack hfetches
  have hdb : (run (systemStep dayFeeds) ⟨oneSource, [], []⟩ changedBack).db = { oneSource with
      snapshots := [{
        sourceID := 1
        etag := "vb"
        fetchedAt := tenOClock 10 / 1000000
        status := .error
        error := "calendar feed timed out"
        events := [⟨"meeting", "Meeting", (10 * secondsPerDay + 32400) * second,
          (10 * secondsPerDay + 36000) * second, false, ""⟩] }] } := by decide +kernel
  rw [hdb] at hok
  have hobtained := hok _ (List.mem_singleton_self _) _ (List.mem_singleton_self _) rfl _
    (List.mem_singleton_self _) rfl rfl
  rcases hobtained.etag with hetag | ⟨resp, ⟨url, hurl, hgives⟩, _⟩
  · revert hetag
    decide
  · obtain rfl : url = "url" := hurl
    revert hgives
    simp

end Runs

end Scrumboy
