import Mathlib.Data.String.Basic
import Scrumboy.Go.Time
import Scrumboy.Store.Projects

/-!
# The agenda of a project

A project reads calendar feeds and shows the events of the current day. For each feed the
store keeps a snapshot: the events of three days around the day of the last full answer, and
the validators with which the next request asks whether the feed has changed. A refresh
reads the source, the settings and the old snapshot, fetches the feed and writes the new
snapshot, provided that neither the URL nor the time zone has changed on the way.

The text form of the events in a snapshot is left out, apart from the times that it cannot
write down. Parsing and expansion of a feed is a parameter, as are the cipher of the stored
URLs and the hash by which they are compared.
-/

set_option linter.dupNamespace false

namespace Scrumboy

open Go Sql

/-- The bytes of a feed. -/
abbrev FeedBody := List UInt8

inductive CalendarHostKind
  | google
  | apple
  | other
  deriving DecidableEq, Repr

structure CalendarSource where
  id : ℤ
  projectID : ℤ
  name : String := ""
  enabled : Bool := true
  secretEnc : String
  urlHash : String
  hostKind : CalendarHostKind := .other
  deriving DecidableEq, Repr

/-- An occurrence of a calendar entry, as an expansion lists it and as a snapshot keeps it. -/
structure CachedEvent where
  uid : String
  title : String
  startsAt : ℤ
  endsAt : ℤ
  allDay : Bool := false
  location : String := ""
  deriving DecidableEq, Repr

inductive SnapshotStatus
  | ok
  | error
  deriving DecidableEq, Repr

/-- A row of `calendar_feed_snapshots`, whose key is the source. `fetchedAt` is in
milliseconds. -/
structure CalendarFeedSnapshot where
  sourceID : ℤ
  etag : String := ""
  lastModified : String := ""
  fetchedAt : ℤ
  status : SnapshotStatus
  error : String := ""
  events : List CachedEvent := []
  deriving DecidableEq, Repr

/-- The columns of a project that belong to its agenda. -/
structure AgendaProject where
  id : ℤ
  importBatchID : Option String := none
  agendaEnabled : Bool := false
  agendaTimezone : String := "UTC"
  agendaTitle : String := "Agenda"
  agendaColor : String := "#6366F1"
  deriving DecidableEq, Repr

structure CalendarDB where
  projects : List AgendaProject := []
  sources : List CalendarSource := []
  snapshots : List CalendarFeedSnapshot := []
  deriving DecidableEq, Repr

inductive CalendarError
  | feedBlocked
  | feedTooLarge
  | feedTimeout
  | feedRequest
  | icsTooLarge
  | tooManyOccurrences
  | unknownTimezone
  | invalidCalendar
  | encryptionNotConfigured
  | other
  deriving DecidableEq, Repr

def sanitizeCalendarError : CalendarError → String
  | .feedBlocked => "calendar feed address is not allowed"
  | .feedTooLarge | .icsTooLarge => "calendar feed too large"
  | .tooManyOccurrences => "calendar has too many recurring events to process"
  | .feedTimeout => "calendar feed timed out"
  | .unknownTimezone => "unsupported calendar timezone"
  | .invalidCalendar => "invalid calendar data"
  | .encryptionNotConfigured => "calendar feeds are not configured"
  | .feedRequest | .other => "calendar feed request failed"

def refreshOutcomeError : CalendarError → CalendarError
  | .icsTooLarge => .feedTooLarge
  | .other => .feedRequest
  | e => e

/-- The cipher of the stored URLs. A text that it has made it can read. -/
structure SecretCipher where
  encryptSecret : ℕ → String → String
  decryptSecret : String → Except CalendarError String
  decrypt_encrypt : ∀ nonce plain, decryptSecret (encryptSecret nonce plain) = .ok plain

structure AgendaDeps where
  cipher : SecretCipher
  hashCalendarURL : String → String
  calendarHostKind : String → CalendarHostKind
  loadLocation : String → Option Location
  /-- `ics.Expand`, with the start and the end of the window. -/
  expand : FeedBody → Location → ℤ → ℤ → Except CalendarError (List CachedEvent)

structure FetchRequest where
  url : String
  etag : String
  lastModified : String
  deriving DecidableEq, Repr

structure FetchResponse where
  notModified : Bool := false
  body : FeedBody := []
  etag : String := ""
  lastModified : String := ""
  deriving DecidableEq, Repr

section Settings

structure ProjectAgendaSettings where
  enabled : Bool
  timezone : String
  title : String
  color : String
  deriving DecidableEq, Repr

def normalizeAgendaTitle (raw : String) : String :=
  let name := trimSpace raw
  if name = "" then "Agenda" else name

def normalizeAgendaColor (raw : String) : String :=
  let color := trimSpace raw
  if colorHexRe color then color else "#6366F1"

def getProjectAgendaSettings (db : CalendarDB) (projectID : ℤ) : Result ProjectAgendaSettings :=
  match db.projects.find? fun p => p.id == projectID && p.importBatchID.isNone with
  | none => throw ⟨.notFound, ""⟩
  | some p => pure ⟨p.agendaEnabled, p.agendaTimezone, normalizeAgendaTitle p.agendaTitle,
      normalizeAgendaColor p.agendaColor⟩

structure AgendaSettingsPatch where
  enabled : Option Bool := none
  timezone : Option String := none
  title : Option String := none
  color : Option String := none
  deriving DecidableEq, Repr

variable (deps : AgendaDeps)

def validateAgendaTimezone (raw : String) : Result String := do
  let tz := trimSpace raw
  reject (tz = "") ⟨.validation, "invalid agenda timezone"⟩
  reject ((deps.loadLocation tz).isNone) ⟨.validation, "invalid agenda timezone"⟩
  pure tz

/-- The value of a field that a patch may leave out. -/
def patched {α : Type} (old : α) (validate : α → Result α) : Option α → Result α
  | none => pure old
  | some raw => validate raw

/-- The columns of the agenda as an update writes them. -/
def AgendaProject.withSettings (settings : ProjectAgendaSettings) (p : AgendaProject) : AgendaProject :=
  { p with
    agendaEnabled := settings.enabled
    agendaTimezone := settings.timezone
    agendaTitle := settings.title
    agendaColor := settings.color }

/-- A time zone that is set to another one takes the snapshots of the project away. -/
def updateProjectAgendaSettings (db : CalendarDB) (projectID : ℤ) (patch : AgendaSettingsPatch) :
    Result CalendarDB := do
  let existing ← getProjectAgendaSettings db projectID
  if patch = {} then pure db
  else do
    let timezone ← patched existing.timezone (validateAgendaTimezone deps) patch.timezone
    let title ← patched existing.title validateAgendaTitle patch.title
    let color ← patched existing.color validateAgendaColor patch.color
    let projects := updateWhere (fun p => p.id == projectID && p.importBatchID.isNone)
      (AgendaProject.withSettings ⟨patch.enabled.getD existing.enabled, timezone, title, color⟩)
      db.projects
    let snapshots :=
      if patch.timezone.isSome ∧ existing.timezone ≠ timezone then
        deleteWhere (fun snap => db.sources.any fun c =>
          c.id == snap.sourceID && c.projectID == projectID) db.snapshots
      else db.snapshots
    pure { db with projects, snapshots }

end Settings

section Sources

def getCalendarSource (db : CalendarDB) (projectID sourceID : ℤ) : Result CalendarSource :=
  match db.sources.find? fun c => c.id == sourceID && c.projectID == projectID with
  | none => throw ⟨.notFound, ""⟩
  | some c => pure c

/-- The rows in the order of their ids. -/
def listCalendarSources (db : CalendarDB) (projectID : ℤ) : List CalendarSource :=
  orderBy (·.id) (db.sources.filter fun c => c.projectID == projectID)

structure UpdateCalendarSourceInput where
  name : Option String := none
  enabled : Option Bool := none
  secretEnc : Option String := none
  urlHash : Option String := none
  hostKind : Option CalendarHostKind := none
  deriving DecidableEq, Repr

def updateCalendarSource (db : CalendarDB) (projectID sourceID : ℤ) (input : UpdateCalendarSourceInput) :
    Result CalendarDB := do
  let existing ← getCalendarSource db projectID sourceID
  let name := (input.name.map trimSpace).getD existing.name
  reject (input.name.isSome ∧ (name = "" ∨ 200 < byteLen name))
    ⟨.validation, "invalid calendar source name"⟩
  reject (¬ (input.secretEnc = none ∧ input.urlHash = none) ∧
      ((input.secretEnc.map trimSpace).getD "" = "" ∨ (input.urlHash.map trimSpace).getD "" = ""))
    ⟨.validation, "calendar source secret required"⟩
  let urlHash := input.urlHash.getD existing.urlHash
  -- `UNIQUE(project_id, url_hash)`
  reject (db.sources.any fun c => c.projectID == projectID && c.urlHash == urlHash && c.id != sourceID)
    ⟨.conflict, "calendar source already exists"⟩
  let sources := updateWhere (fun c => c.id == sourceID && c.projectID == projectID)
    (fun c => { c with
      name
      enabled := input.enabled.getD existing.enabled
      secretEnc := input.secretEnc.getD existing.secretEnc
      urlHash
      hostKind := input.hostKind.getD existing.hostKind }) db.sources
  let snapshots :=
    if existing.urlHash ≠ urlHash then deleteWhere (fun snap => snap.sourceID == sourceID) db.snapshots
    else db.snapshots
  pure { db with sources, snapshots }

structure UpdateSourceCommand where
  sourceID : ℤ
  name : Option String := none
  enabled : Option Bool := none
  /-- The canonical form of the new URL. -/
  url : Option String := none
  deriving DecidableEq, Repr

/-- `PreparedREST.Update`: the hash and the kind of host are those of the URL that the
secret holds. -/
def updateSource (deps : AgendaDeps) (nonce : ℕ) (db : CalendarDB) (projectID : ℤ)
    (command : UpdateSourceCommand) : Result CalendarDB :=
  updateCalendarSource db projectID command.sourceID
    { name := command.name
      enabled := command.enabled
      secretEnc := command.url.map (deps.cipher.encryptSecret nonce)
      urlHash := command.url.map deps.hashCalendarURL
      hostKind := command.url.map deps.calendarHostKind }

def updateCalendarSourceHostKindIfURLHashCurrent (db : CalendarDB) (sourceID : ℤ)
    (expectedURLHash : String) (hostKind : CalendarHostKind) : CalendarDB :=
  let hash := trimSpace expectedURLHash
  if hash = "" then db
  else { db with
    sources := updateWhere (fun c => c.id == sourceID && c.urlHash == hash)
      (fun c => { c with hostKind }) db.sources }

end Sources

section Snapshots

/-- A text column that is `NULL` when it would be empty. -/
def nullIfEmpty (v : String) : Option String :=
  let v := trimSpace v
  if v = "" then none else some v

def getCalendarFeedSnapshot (db : CalendarDB) (sourceID : ℤ) : Option CalendarFeedSnapshot :=
  db.snapshots.find? fun snap => snap.sourceID == sourceID

/-- The source still has the URL, and its visible project the time zone. -/
def snapshotCurrent (db : CalendarDB) (sourceID : ℤ) (urlHash timezone : String) : Bool :=
  db.sources.any fun c => c.id == sourceID && c.urlHash == urlHash &&
    db.projects.any fun p =>
      p.id == c.projectID && p.importBatchID.isNone && p.agendaTimezone == timezone

/-- The row as the table holds it. -/
def CalendarFeedSnapshot.stored (snap : CalendarFeedSnapshot) : CalendarFeedSnapshot :=
  { snap with
    etag := (nullIfEmpty snap.etag).getD ""
    lastModified := (nullIfEmpty snap.lastModified).getD ""
    error := (nullIfEmpty snap.error).getD "" }

/-- `INSERT … ON CONFLICT(source_id) DO UPDATE`. -/
def upsertSnapshot (snap : CalendarFeedSnapshot) (t : List CalendarFeedSnapshot) :
    List CalendarFeedSnapshot :=
  if t.any fun r => r.sourceID == snap.sourceID then
    updateWhere (fun r => r.sourceID == snap.sourceID) (fun _ => snap) t
  else t ++ [snap]

/-- `none` is `ErrSnapshotSuperseded`. -/
def upsertCalendarFeedSnapshotIfCurrent (db : CalendarDB) (snap : CalendarFeedSnapshot)
    (urlHash timezone : String) : Option CalendarDB :=
  if snapshotCurrent db snap.sourceID urlHash timezone then
    some { db with snapshots := upsertSnapshot snap.stored db.snapshots }
  else none

/-- The row after an answer that the feed has not changed. -/
def CalendarFeedSnapshot.touched (fetchedAt : ℤ) (etag lastModified : String)
    (snap : CalendarFeedSnapshot) : CalendarFeedSnapshot :=
  { snap with
    fetchedAt
    etag := (nullIfEmpty etag).getD snap.etag
    lastModified := (nullIfEmpty lastModified).getD snap.lastModified
    status := .ok
    error := "" }

def touchCalendarFeedSnapshotIfCurrent (db : CalendarDB) (sourceID fetchedAt : ℤ)
    (etag lastModified urlHash timezone : String) : Option CalendarDB :=
  if db.snapshots.any (fun r => r.sourceID == sourceID) && snapshotCurrent db sourceID urlHash timezone then
    some { db with
      snapshots := updateWhere (fun r => r.sourceID == sourceID)
        (CalendarFeedSnapshot.touched fetchedAt etag lastModified) db.snapshots }
  else none

end Snapshots

section Windows

def localDayBounds (now : ℤ) (loc : Location) : ℤ × ℤ :=
  let start := loc.date (loc.day now) 0 0
  (start, loc.addDate start 1)

def expansionWindow (now : ℤ) (loc : Location) : ℤ × ℤ :=
  let today := (localDayBounds now loc).1
  (loc.addDate today (-1), loc.addDate today 2)

def overlapsWindow (startsAt endsAt windowStart windowEnd : ℤ) : Bool :=
  let endsAt := if startsAt < endsAt then endsAt else startsAt + 1
  startsAt < windowEnd && windowStart < endsAt

/-- An instant that the text form can write down: its year has at most four digits. -/
def marshalable (t : ℤ) : Bool := -62167219200 * second ≤ t && t < 253402300800 * second

def encodeCachedEvents (events : List CachedEvent) : Option (List CachedEvent) :=
  let out := orderBy (fun ev => toLex (ev.startsAt, toLex (ev.title, ev.uid))) events
  if out.all fun ev => marshalable ev.startsAt && marshalable ev.endsAt then some out else none

end Windows

section Refresh

/-- What a refresh writes. -/
inductive SnapshotWrite
  | upsert (snap : CalendarFeedSnapshot)
  | touch (fetchedAt : ℤ) (etag lastModified : String)
  deriving DecidableEq, Repr

def SnapshotWrite.persist (db : CalendarDB) (sourceID : ℤ) (urlHash timezone : String) :
    SnapshotWrite → Option CalendarDB
  | .upsert snap => upsertCalendarFeedSnapshotIfCurrent db snap urlHash timezone
  | .touch fetchedAt etag lastModified =>
      touchCalendarFeedSnapshotIfCurrent db sourceID fetchedAt etag lastModified urlHash timezone

/-- `persistRefreshFailure`: the old events and validators stay. -/
def refreshFailure (sourceID : ℤ) (existing : Option CalendarFeedSnapshot) (cause : CalendarError)
    (now : ℤ) : CalendarFeedSnapshot where
  sourceID := sourceID
  etag := (existing.map (·.etag)).getD ""
  lastModified := (existing.map (·.lastModified)).getD ""
  fetchedAt := now / 1000000
  status := .error
  error := sanitizeCalendarError cause
  events := (existing.map (·.events)).getD []

def feedRequest (url : String) (existing : Option CalendarFeedSnapshot) : FetchRequest where
  url := url
  etag := (existing.map (·.etag)).getD ""
  lastModified := (existing.map (·.lastModified)).getD ""

def AgendaDeps.location (deps : AgendaDeps) (timezone : String) : Location :=
  (deps.loadLocation timezone).getD .utc

/-- The events of an answer, expanded over the window of the clock and encoded. -/
def expandFeed (deps : AgendaDeps) (body : FeedBody) (timezone : String) (now : ℤ) :
    Except CalendarError (List CachedEvent) := do
  let loc := deps.location timezone
  let expanded ← deps.expand body loc (expansionWindow now loc).1 (expansionWindow now loc).2
  match encodeCachedEvents expanded with
  | none => throw .invalidCalendar
  | some encoded => pure encoded

/-- A validator of the answer, or the old one when the answer has none. -/
def orExisting (header old : String) : String := if header = "" then old else header

/-- What the answer of the fetcher makes of the old snapshot, and the error that the refresh
returns. `now` is the clock after the answer. -/
def refreshWrite (deps : AgendaDeps) (sourceID : ℤ) (timezone : String)
    (existing : Option CalendarFeedSnapshot) (now : ℤ) :
    Except CalendarError FetchResponse → SnapshotWrite × Option CalendarError
  | .error cause => (.upsert (refreshFailure sourceID existing cause now), some cause)
  | .ok fetched =>
      if fetched.notModified then
        match existing with
        | none => (.upsert (refreshFailure sourceID none .feedRequest now), some .feedRequest)
        | some _ => (.touch (now / 1000000) fetched.etag fetched.lastModified, none)
      else
        match expandFeed deps fetched.body timezone now with
        | .error cause => (.upsert (refreshFailure sourceID existing cause now), some cause)
        | .ok events =>
            (.upsert {
              sourceID
              etag := orExisting fetched.etag ((existing.map (·.etag)).getD "")
              lastModified := orExisting fetched.lastModified ((existing.map (·.lastModified)).getD "")
              fetchedAt := now / 1000000
              status := .ok
              events }, none)

inductive RefreshError
  | store (err : StoreError)
  | superseded
  | feed (err : CalendarError)
  deriving DecidableEq, Repr

/-- Write, and return the error of the write or of the feed. -/
def persistRefresh (db : CalendarDB) (src : CalendarSource) (timezone : String)
    (outcome : SnapshotWrite × Option CalendarError) : CalendarDB × Except RefreshError Unit :=
  match outcome.1.persist db src.id src.urlHash timezone with
  | none => (db, .error .superseded)
  | some db =>
      match outcome.2 with
      | none => (db, .ok ())
      | some cause => (db, .error (.feed (refreshOutcomeError cause)))

/-- The request and its answer: nothing is sent when the secret cannot be read, and the kind
of host is brought up to date before the request goes out. -/
def fetchFeed (deps : AgendaDeps) (db : CalendarDB) (src : CalendarSource)
    (answer : Except CalendarError FetchResponse) : CalendarDB × Except CalendarError FetchResponse :=
  match deps.cipher.decryptSecret src.secretEnc with
  | .error cause => (db, .error cause)
  | .ok plain =>
      (updateCalendarSourceHostKindIfURLHashCurrent db src.id src.urlHash (deps.calendarHostKind plain),
        answer)

/-- A refresh that nothing interrupts. `answer` is what the fetcher returns, if it is asked. -/
def doRefresh (deps : AgendaDeps) (db : CalendarDB) (projectID : ℤ) (src : CalendarSource)
    (answer : Except CalendarError FetchResponse) (now : ℤ) : CalendarDB × Except RefreshError Unit :=
  match getProjectAgendaSettings db projectID with
  | .error err => (db, .error (.store err))
  | .ok settings =>
      let existing := getCalendarFeedSnapshot db src.id
      let fetched := fetchFeed deps db src answer
      persistRefresh fetched.1 src settings.timezone
        (refreshWrite deps src.id settings.timezone existing now fetched.2)

end Refresh

section ReadAgenda

structure AgendaEvent where
  id : String
  sourceID : ℤ
  calendarName : String
  title : String
  startsAt : ℤ
  endsAt : ℤ
  allDay : Bool
  location : String
  hostKind : CalendarHostKind
  deriving DecidableEq, Repr

structure AgendaView where
  enabled : Bool
  timezone : String := ""
  title : String := ""
  color : String := ""
  stale : Bool := false
  fetchedAt : Option ℤ := none
  error : String := ""
  events : List AgendaEvent := []
  deriving DecidableEq, Repr

def agendaEventID (sourceID : ℤ) (ev : CachedEvent) : String :=
  formatInt sourceID ++ ":" ++ ev.uid ++ ":" ++ formatInt (ev.startsAt / second)

def agendaEvent (src : CalendarSource) (ev : CachedEvent) : AgendaEvent where
  id := agendaEventID src.id ev
  sourceID := src.id
  calendarName := src.name
  title := ev.title
  startsAt := ev.startsAt
  endsAt := ev.endsAt
  allDay := ev.allDay
  location := ev.location
  hostKind := src.hostKind

/-- The events that touch the day. -/
def eventsOfDay (bounds : ℤ × ℤ) (events : List CachedEvent) : List CachedEvent :=
  events.filter fun ev => overlapsWindow ev.startsAt ev.endsAt bounds.1 bounds.2

/-- The start of year one, which the code takes for a time that was never set. -/
def zeroTime : ℤ := -62135596800 * second

def snapshotStaleAfter : ℤ := 30 * minute

/-- What the loop over the sources gathers. -/
structure AgendaScan where
  stale : Bool := false
  error : String := ""
  latestFetched : ℤ := zeroTime
  events : List AgendaEvent := []
  deriving DecidableEq, Repr

def AgendaScan.report (scan : AgendaScan) (message : String) : AgendaScan :=
  { scan with stale := true, error := if scan.error = "" then message else scan.error }

def scanSource (now : ℤ) (bounds : ℤ × ℤ) (snapshots : List CalendarFeedSnapshot) (scan : AgendaScan)
    (src : CalendarSource) : AgendaScan :=
  if src.enabled = false then scan
  else
    match snapshots.find? fun snap => snap.sourceID == src.id with
    | none => scan.report "calendar feed has not been fetched yet"
    | some snap =>
        let fetchedAt := snap.fetchedAt * 1000000
        let scan :=
          match snap.status with
          | .error => scan.report (if trimSpace snap.error = "" then "" else snap.error)
          | .ok => if snapshotStaleAfter ≤ now - fetchedAt then { scan with stale := true } else scan
        { scan with
          latestFetched := max scan.latestFetched fetchedAt
          events := scan.events ++ (eventsOfDay bounds snap.events).map (agendaEvent src) }

def readAgenda (deps : AgendaDeps) (db : CalendarDB) (projectID now : ℤ) : Result AgendaView := do
  let settings ← getProjectAgendaSettings db projectID
  if settings.enabled = false then pure { enabled := false }
  else
    match deps.loadLocation settings.timezone with
    | none => pure {
        enabled := true
        timezone := settings.timezone
        title := settings.title
        color := settings.color
        stale := true
        error := "unsupported calendar timezone" }
    | some loc =>
        let scan := (listCalendarSources db projectID).foldl
          (scanSource now (localDayBounds now loc) db.snapshots) {}
        pure {
          enabled := true
          timezone := settings.timezone
          title := settings.title
          color := settings.color
          stale := scan.stale
          fetchedAt := if scan.latestFetched = zeroTime then none else some scan.latestFetched
          error := scan.error
          events := orderBy (fun ev => toLex (ev.startsAt, toLex (ev.title, ev.id))) scan.events }

end ReadAgenda

end Scrumboy
