import Scrumboy.Go.Time
import Scrumboy.Sql.Order
import Scrumboy.Store.Schema
import Mathlib.Data.List.Dedup
import Mathlib.Data.String.Basic

/-!
# Weekly throughput

The dashboard shows the stories that a user has done in the last four weeks and in the current one.
The weeks are labelled by calendar arithmetic in the user's time zone, but the stories are sorted
into them by dividing the time since the first week by seven days of twenty-four hours. Both agree
unless a story was done between a start of a week on the calendar and the one by division.
-/

set_option linter.dupNamespace false

namespace Scrumboy

open Go Sql

/-! ## The summary -/

structure WeeklyThroughputPoint where
  /-- The civil day that the label names. -/
  weekStart : ℤ
  stories : ℕ
  points : ℤ
  deriving DecidableEq, Repr

/-- `nowInTZ.Weekday()`, with 7 for Sunday. The epoch was a Thursday. -/
def isoWeekday (loc : Location) (now : ℤ) : ℤ :=
  let weekday := (loc.day now + 4) % 7
  if weekday = 0 then 7 else weekday

/-- The start of the current week. -/
def weekStartAt (loc : Location) (now : ℤ) : ℤ :=
  loc.addDate (loc.date (loc.day now) 0 0) (-(isoWeekday loc now - 1))

def weekEndAt (loc : Location) (now : ℤ) : ℤ := loc.addDate (weekStartAt loc now) 7

def throughputWeekStart (loc : Location) (now : ℤ) : ℤ := loc.addDate (weekStartAt loc now) (-28)

/-- The instant whose date is the label of a point. -/
def labelledWeek (loc : Location) (now : ℤ) (i : ℕ) : ℤ :=
  loc.addDate (throughputWeekStart loc now) (i * 7)

def weekMillis : ℤ := 7 * 24 * 60 * 60 * 1000

/-- The join of a todo with the done column of its project. -/
def inDoneColumn (db : DB) (t : TodoRow) : Bool :=
  db.columns.any fun c => c.projectID == t.projectID && c.key == t.columnKey && c.isDone

/-- `assignee_user_id = ? AND done_at >= ? AND done_at < ?` on the todos of done columns. -/
def doneBetween (db : DB) (userID startMs endMs : ℤ) : List TodoRow :=
  db.todos.filter fun t => inDoneColumn db t && t.assigneeUserID == some userID &&
    t.doneAt.any fun d => decide (startMs ≤ d) && decide (d < endMs)

/-- `COALESCE(SUM(estimation_points), 0)`. -/
def sumPoints (todos : List TodoRow) : ℤ := (todos.filterMap (·.estimationPoints)).sum

/-- `CAST((done_at - ?) / ? AS INTEGER)`. -/
def weekBucket (startMs : ℤ) (t : TodoRow) : ℤ := (t.doneAt.getD 0 - startMs).tdiv weekMillis

/-- `GROUP BY week_bucket ORDER BY week_bucket`: the bucket, the stories and their points. -/
def weekBuckets (startMs : ℤ) (todos : List TodoRow) : List (ℤ × ℕ × ℤ) :=
  (orderBy id (todos.map (weekBucket startMs)).dedup).map fun b =>
    let group := todos.filter fun t => weekBucket startMs t == b
    (b, group.length, sumPoints group)

/-- A row of the query goes into its point. -/
def fillPoint (points : List WeeklyThroughputPoint) (row : ℤ × ℕ × ℤ) : List WeeklyThroughputPoint :=
  if 0 ≤ row.1 ∧ row.1 < points.length then
    points.modify row.1.toNat fun p => { p with stories := row.2.1, points := row.2.2 }
  else points

/-- The stories of the displayed weeks. -/
def displayedStories (db : DB) (loc : Location) (now userID : ℤ) : List TodoRow :=
  doneBetween db userID (unixMilli (throughputWeekStart loc now)) (unixMilli (weekEndAt loc now))

def weeklyThroughput (db : DB) (loc : Location) (now userID : ℤ) : List WeeklyThroughputPoint :=
  let points := (List.range 5).map fun i => ⟨loc.day (labelledWeek loc now i), 0, 0⟩
  (weekBuckets (unixMilli (throughputWeekStart loc now)) (displayedStories db loc now userID)).foldl
    fillPoint points

/-! ### Completion -/

/-- The projects in which the user has something left to do. -/
def dashboardProjects (db : DB) (userID : ℤ) : List ProjectRow :=
  orderBy (·.name) (db.projects.filter fun p => db.todos.any fun t =>
    t.projectID == p.id && t.assigneeUserID == some userID && t.archivedAt.isNone &&
      db.columns.any fun c => c.projectID == t.projectID && c.key == t.columnKey && !c.isDone)

/-- The active sprint of a project; the last row of the query wins. -/
def dashboardActiveSprint (db : DB) (p : ProjectRow) : Option SprintRow :=
  if p.sprintsEnabled then
    db.sprints.reverse.find? fun s => s.projectID == p.id && s.state == .active
  else none

/-- The stories of the user that were done within one of the sprints. -/
def doneInSprints (db : DB) (userID : ℤ) (sprints : List SprintRow) : List TodoRow :=
  db.todos.filter fun t => inDoneColumn db t && t.assigneeUserID == some userID &&
    sprints.any fun s => t.sprintID == some s.id && s.startedAt.any fun started =>
      t.doneAt.any fun d => decide (started ≤ d) && decide (d < s.closedAt.getD s.plannedEndAt)

/-- The stories of the user that were done in the current week. -/
def calendarWeek (db : DB) (loc : Location) (now userID : ℤ) : List TodoRow :=
  doneBetween db userID (unixMilli (weekStartAt loc now)) (unixMilli (weekEndAt loc now))

/-- The stories that count as completed: those of active sprints, and in projects without one those
of the calendar week; without any active sprint those of the calendar week in all projects. -/
def completedThisWeek (db : DB) (loc : Location) (now userID : ℤ) : List TodoRow :=
  let projects := dashboardProjects db userID
  let sprints := projects.filterMap (dashboardActiveSprint db)
  if sprints = [] then calendarWeek db loc now userID
  else
    let without := projects.filter fun p => (dashboardActiveSprint db p).isNone
    doneInSprints db userID sprints ++
      (calendarWeek db loc now userID).filter fun t => without.any fun p => p.id == t.projectID

/-- The part of `GetDashboardSummary` about done stories. -/
structure DashboardSummary where
  pointsCompletedThisWeek : ℤ
  storiesCompletedThisWeek : ℕ
  weeklyThroughput : List WeeklyThroughputPoint
  deriving DecidableEq, Repr

/-- The time zone of a request; an unknown one is UTC. -/
def dashboardLocation (loadLocation : String → Option Location) (timezone : String) : Location :=
  if timezone = "" then .utc else (loadLocation timezone).getD .utc

/-- `GetDashboardSummary` at an instant. -/
def getDashboardSummary (loadLocation : String → Option Location) (db : DB) (now userID : ℤ)
    (timezone : String) : DashboardSummary :=
  let loc := dashboardLocation loadLocation timezone
  let completed := completedThisWeek db loc now userID
  { pointsCompletedThisWeek := sumPoints completed
    storiesCompletedThisWeek := completed.length
    weeklyThroughput := weeklyThroughput db loc now userID }

/-! ## What a point counts -/

section

variable (startMs : ℤ) (todos : List TodoRow)

/-- The stories of a bucket. -/
def bucketStories (b : ℤ) : List TodoRow := todos.filter fun t => weekBucket startMs t == b

theorem fillPoint_getElem? (points : List WeeklyThroughputPoint) (row : ℤ × ℕ × ℤ) (i : ℕ) :
    (fillPoint points row)[i]? = points[i]?.map fun p =>
      if row.1 = i then { p with stories := row.2.1, points := row.2.2 } else p := by
  unfold fillPoint
  by_cases hrow : 0 ≤ row.1 ∧ row.1 < points.length
  · rw [if_pos hrow, List.getElem?_modify]
    have hiff : row.1.toNat = i ↔ row.1 = i := by omega
    simp only [hiff]
    rfl
  · rw [if_neg hrow]
    by_cases hi : i < points.length
    · rw [List.getElem?_eq_getElem hi, Option.map_some, if_neg (by omega)]
    · rw [List.getElem?_eq_none (by omega), Option.map_none]

/-- The rows of different buckets go into different points. -/
theorem foldl_fillPoint_getElem? {keys : List ℤ} (hkeys : keys.Nodup)
    (points : List WeeklyThroughputPoint) (i : ℕ) :
    ((keys.map fun b => (b, (bucketStories startMs todos b).length,
        sumPoints (bucketStories startMs todos b))).foldl fillPoint points)[i]? =
      points[i]?.map fun p =>
        if (i : ℤ) ∈ keys then
          { p with
            stories := (bucketStories startMs todos i).length
            points := sumPoints (bucketStories startMs todos i) }
        else p := by
  induction keys generalizing points with
  | nil => simp
  | cons b keys ih =>
      obtain ⟨hb, hkeys⟩ := List.nodup_cons.mp hkeys
      rw [List.map_cons, List.foldl_cons, ih hkeys, fillPoint_getElem?, Option.map_map]
      refine congrArg (points[i]?.map ·) (funext fun p => ?_)
      rw [Function.comp_apply]
      by_cases hbi : b = i
      · subst hbi
        rw [if_pos rfl, if_neg hb, if_pos List.mem_cons_self]
      · rw [if_neg hbi]
        have hmem : (i : ℤ) ∈ b :: keys ↔ (i : ℤ) ∈ keys := by
          rw [List.mem_cons, or_iff_right (Ne.symm hbi)]
        simp only [hmem]

theorem bucketStories_eq_nil {b : ℤ} (h : b ∉ todos.map (weekBucket startMs)) :
    bucketStories startMs todos b = [] := by
  rw [bucketStories, List.filter_eq_nil_iff]
  intro t ht hb
  exact h (List.mem_map.mpr ⟨t, ht, eq_of_beq hb⟩)

/-- Every point counts the stories of its bucket. -/
theorem weekBuckets_getElem? (points : List WeeklyThroughputPoint)
    (hempty : ∀ p ∈ points, p.stories = 0 ∧ p.points = 0) (i : ℕ) :
    ((weekBuckets startMs todos).foldl fillPoint points)[i]? = points[i]?.map fun p =>
      { p with
        stories := (bucketStories startMs todos i).length
        points := sumPoints (bucketStories startMs todos i) } := by
  have hnodup : (orderBy id (todos.map (weekBucket startMs)).dedup).Nodup :=
    (orderBy_perm id _).nodup_iff.mpr (List.nodup_dedup _)
  refine (foldl_fillPoint_getElem? startMs todos hnodup points i).trans ?_
  cases hp : points[i]? with
  | none => rfl
  | some p =>
      rw [Option.map_some, Option.map_some]
      by_cases hmem : (i : ℤ) ∈ todos.map (weekBucket startMs)
      · rw [if_pos (mem_orderBy.mpr (List.mem_dedup.mpr hmem))]
      · obtain ⟨hstories, hpoints⟩ := hempty p (List.mem_of_getElem? hp)
        rw [if_neg (mt (fun h => List.mem_dedup.mp (mem_orderBy.mp h)) hmem),
          bucketStories_eq_nil startMs todos hmem]
        obtain ⟨weekStart, stories, points⟩ := p
        obtain rfl : stories = 0 := hstories
        obtain rfl : points = 0 := hpoints
        rfl

end

/-- The stories that a point counts. -/
def countedStories (db : DB) (loc : Location) (now userID : ℤ) (i : ℕ) : List TodoRow :=
  bucketStories (unixMilli (throughputWeekStart loc now)) (displayedStories db loc now userID) i

theorem weeklyThroughput_getElem? (db : DB) (loc : Location) (now userID : ℤ) {i : ℕ} (hi : i < 5) :
    (weeklyThroughput db loc now userID)[i]? =
      some ⟨loc.day (labelledWeek loc now i), (countedStories db loc now userID i).length,
        sumPoints (countedStories db loc now userID i)⟩ := by
  unfold weeklyThroughput
  dsimp only
  rw [weekBuckets_getElem?]
  · rw [List.getElem?_map, List.getElem?_range hi]
    rfl
  · intro p hp
    obtain ⟨k, _, rfl⟩ := List.mem_map.mp hp
    exact ⟨rfl, rfl⟩

/-! ## Weeks of the calendar -/

/-- The weeks that are displayed, from one start to the next. -/
def weekEdge (loc : Location) (now : ℤ) (i : ℕ) : ℤ :=
  unixMilli (if i = 0 then throughputWeekStart loc now
    else if i < 5 then labelledWeek loc now i
    else weekEndAt loc now)

/-- The instant lies in the week that a point is labelled with. -/
def InWeek (loc : Location) (now : ℤ) (i : ℕ) (d : ℤ) : Prop :=
  weekEdge loc now i ≤ d ∧ d < weekEdge loc now (i + 1)

theorem unixMilli_lt {t u : ℤ} (h : t + millisecond ≤ u) : unixMilli t < unixMilli u := by
  unfold unixMilli millisecond at *
  omega

section

variable {loc : Location} (hoffsets : loc.ShortOffsets) (now : ℤ)

include hoffsets

theorem labelledWeek_lt (i : ℕ) :
    labelledWeek loc now i + millisecond ≤ labelledWeek loc now (i + 1) := by
  obtain ⟨o, ho, heq⟩ := hoffsets.addDate_eq (throughputWeekStart loc now) (i * 7)
  obtain ⟨o', ho', heq'⟩ := hoffsets.addDate_eq (throughputWeekStart loc now) ((i + 1 : ℕ) * 7)
  rw [labelledWeek, labelledWeek, heq, heq']
  unfold secondsPerDay second millisecond at *
  push_cast
  omega

theorem throughputWeekStart_lt_labelledWeek :
    throughputWeekStart loc now + millisecond ≤ labelledWeek loc now 1 := by
  have hstart := hoffsets (throughputWeekStart loc now / second)
  obtain ⟨o, ho, heq⟩ := hoffsets.addDate_eq (throughputWeekStart loc now) ((1 : ℕ) * 7)
  rw [labelledWeek, heq]
  unfold secondsPerDay second millisecond at *
  omega

/-- The last label and the end of the current week, as distances from the start of that week. -/
theorem labelledWeek_four_lt_weekEndAt :
    labelledWeek loc now 4 + millisecond ≤ weekEndAt loc now := by
  have hweek := hoffsets (weekStartAt loc now / second)
  have hstart := hoffsets (throughputWeekStart loc now / second)
  obtain ⟨o, ho, heq⟩ := hoffsets.addDate_eq (throughputWeekStart loc now) ((4 : ℕ) * 7)
  obtain ⟨o₁, ho₁, heq₁⟩ := hoffsets.addDate_eq (weekStartAt loc now) (-28)
  obtain ⟨o₂, ho₂, heq₂⟩ := hoffsets.addDate_eq (weekStartAt loc now) 7
  have hfirst : throughputWeekStart loc now = loc.addDate (weekStartAt loc now) (-28) := rfl
  rw [labelledWeek, heq, weekEndAt, heq₂]
  rw [← hfirst] at heq₁
  unfold secondsPerDay second millisecond at *
  omega

theorem throughputWeekStart_lt_weekStartAt :
    throughputWeekStart loc now + millisecond ≤ weekStartAt loc now := by
  have hweek := hoffsets (weekStartAt loc now / second)
  obtain ⟨o, ho, heq⟩ := hoffsets.addDate_eq (weekStartAt loc now) (-28)
  rw [throughputWeekStart, heq]
  unfold secondsPerDay second millisecond at *
  omega

theorem weekEdge_lt {i : ℕ} (hi : i < 5) : weekEdge loc now i < weekEdge loc now (i + 1) := by
  refine unixMilli_lt ?_
  rw [if_neg (Nat.succ_ne_zero i)]
  by_cases hzero : i = 0
  · subst hzero
    exact throughputWeekStart_lt_labelledWeek hoffsets now
  · rw [if_neg hzero, if_pos hi]
    by_cases hfour : i = 4
    · subst hfour
      exact labelledWeek_four_lt_weekEndAt hoffsets now
    · rw [if_pos (by omega)]
      exact labelledWeek_lt hoffsets now i

end

/-- The weeks by division are those between the edges exactly if no edge of one kind lies on the
other side of the instant than that of the other kind. -/
theorem sameWeek_iff {e : ℕ → ℤ} (he : ∀ i < 5, e i < e (i + 1)) {d : ℤ} (hstart : e 0 ≤ d)
    (hend : d < e 5) :
    (∀ i : ℕ, i < 5 → ((d - e 0).tdiv weekMillis = i ↔ e i ≤ d ∧ d < e (i + 1))) ↔
      (∀ i : ℕ, 1 ≤ i → i < 5 → (e i ≤ d ↔ e 0 + i * weekMillis ≤ d)) ∧ d < e 0 + 5 * weekMillis := by
  rw [Int.tdiv_eq_ediv_of_nonneg (by omega)]
  have h₀ : e 0 < e 1 := he 0 (by omega)
  have h₁ : e 1 < e 2 := he 1 (by omega)
  have h₂ : e 2 < e 3 := he 2 (by omega)
  have h₃ : e 3 < e 4 := he 3 (by omega)
  have h₄ : e 4 < e 5 := he 4 (by omega)
  have hweek : ∀ i : ℕ, (d - e 0) / weekMillis = i ↔
      e 0 + i * weekMillis ≤ d ∧ d < e 0 + (i + 1) * weekMillis := by
    intro i
    unfold weekMillis
    omega
  simp only [hweek]
  unfold weekMillis
  constructor
  · intro h
    have w₀ := h 0 (by omega)
    have w₁ := h 1 (by omega)
    have w₂ := h 2 (by omega)
    have w₃ := h 3 (by omega)
    have w₄ := h 4 (by omega)
    simp only [Nat.reduceAdd, zero_add] at w₀ w₁ w₂ w₃ w₄
    refine ⟨fun i hi₁ hi₅ => ?_, by omega⟩
    obtain rfl | rfl | rfl | rfl : i = 1 ∨ i = 2 ∨ i = 3 ∨ i = 4 := by omega
    all_goals omega
  · rintro ⟨h, hlast⟩ i hi
    have w₁ := h 1 (by omega) (by omega)
    have w₂ := h 2 (by omega) (by omega)
    have w₃ := h 3 (by omega) (by omega)
    have w₄ := h 4 (by omega) (by omega)
    obtain rfl | rfl | rfl | rfl | rfl : i = 0 ∨ i = 1 ∨ i = 2 ∨ i = 3 ∨ i = 4 := by omega
    all_goals simp only [Nat.reduceAdd, zero_add]; omega

/-! ## Stories in their weeks -/

/-- The weekly throughput counts every displayed story in its own week, and the current week as the
completion of the calendar week does. -/
structure CountsWeeks (summary : DashboardSummary) (db : DB) (loc : Location) (now userID : ℤ) :
    Prop where
  counts : ∀ i : ℕ, i < 5 → summary.weeklyThroughput[i]? =
    some ⟨loc.day (labelledWeek loc now i), (countedStories db loc now userID i).length,
      sumPoints (countedStories db loc now userID i)⟩
  own : ∀ t ∈ displayedStories db loc now userID, ∀ i : ℕ, i < 5 →
    (t ∈ countedStories db loc now userID i ↔ ∃ d, t.doneAt = some d ∧ InWeek loc now i d)
  current : ∃ p : WeeklyThroughputPoint, summary.weeklyThroughput[4]? = some p ∧
    p.stories = (calendarWeek db loc now userID).length ∧
      p.points = sumPoints (calendarWeek db loc now userID)

/-- No start of a later week lies between the instant and the same start counted in weeks of 168
hours from the first one, nor between the instant and the start of the current week. -/
def ApartFromEdges (loc : Location) (now d : ℤ) : Prop :=
  (∀ i : ℕ, 1 ≤ i → i < 5 → (weekEdge loc now i ≤ d ↔ weekEdge loc now 0 + i * weekMillis ≤ d)) ∧
    d < weekEdge loc now 0 + 5 * weekMillis ∧
      (weekEdge loc now 4 ≤ d ↔ unixMilli (weekStartAt loc now) ≤ d)

/-- The story was done at an instant or behind it. -/
def doneFrom (startMs : ℤ) (t : TodoRow) : Bool := t.doneAt.any fun d => decide (startMs ≤ d)

section

variable {db : DB} {loc : Location} {now userID : ℤ} {t : TodoRow}

theorem mem_displayedStories (h : t ∈ displayedStories db loc now userID) :
    ∃ d, t.doneAt = some d ∧ weekEdge loc now 0 ≤ d ∧ d < weekEdge loc now 5 := by
  have ht := (List.mem_filter.mp h).2
  simp only [Bool.and_eq_true, Option.any_eq_true, decide_eq_true_eq] at ht
  exact ht.2

theorem mem_countedStories {d : ℤ} (h : t ∈ displayedStories db loc now userID)
    (hd : t.doneAt = some d) (i : ℕ) :
    t ∈ countedStories db loc now userID i ↔ (d - weekEdge loc now 0).tdiv weekMillis = i := by
  rw [countedStories, bucketStories, List.mem_filter, and_iff_right h, beq_iff_eq, weekBucket, hd]
  rfl

/-- The completion of the calendar week counts displayed stories. -/
theorem calendarWeek_eq (hoffsets : loc.ShortOffsets) :
    calendarWeek db loc now userID =
      (displayedStories db loc now userID).filter (doneFrom (unixMilli (weekStartAt loc now))) := by
  have hlater := unixMilli_lt (throughputWeekStart_lt_weekStartAt hoffsets now)
  rw [calendarWeek, displayedStories, doneBetween, doneBetween, List.filter_filter]
  refine List.filter_congr fun t _ => ?_
  cases hd : t.doneAt with
  | none => simp [doneFrom, hd]
  | some d =>
      rw [Bool.eq_iff_iff]
      simp only [doneFrom, hd, Option.any_some, Bool.and_eq_true, decide_eq_true_eq]
      constructor
      · rintro ⟨hrest, hfrom, hto⟩
        exact ⟨hfrom, hrest, by omega, hto⟩
      · rintro ⟨hfrom, hrest, _, hto⟩
        exact ⟨hrest, hfrom, hto⟩

/-- Of the stories behind two instants there are as many only if none lies between them. -/
theorem length_filter_doneFrom_eq_iff {todos : List TodoRow} (a b : ℤ) :
    (todos.filter (doneFrom a)).length = (todos.filter (doneFrom b)).length ↔
      ∀ t ∈ todos, doneFrom a t = doneFrom b t := by
  have hsub : ∀ {a b : ℤ}, b ≤ a → (todos.filter (doneFrom a)).Sublist (todos.filter (doneFrom b)) := by
    intro a b hle
    refine List.monotone_filter_right _ fun t ht => ?_
    simp only [doneFrom, Option.any_eq_true, decide_eq_true_eq] at ht ⊢
    obtain ⟨d, hd, hfrom⟩ := ht
    exact ⟨d, hd, hle.trans hfrom⟩
  constructor
  · intro hlength t ht
    have hlists : todos.filter (doneFrom a) = todos.filter (doneFrom b) := by
      rcases le_total b a with hle | hle
      · exact (hsub hle).eq_of_length hlength
      · exact ((hsub hle).eq_of_length hlength.symm).symm
    have hmem : t ∈ todos.filter (doneFrom a) ↔ t ∈ todos.filter (doneFrom b) := by rw [hlists]
    rw [List.mem_filter, List.mem_filter, and_iff_right ht, and_iff_right ht] at hmem
    exact Bool.eq_iff_iff.mpr hmem
  · intro hsame
    rw [List.filter_congr hsame]

theorem own_iff (hoffsets : loc.ShortOffsets) (h : t ∈ displayedStories db loc now userID) :
    (∀ i < 5, (t ∈ countedStories db loc now userID i ↔ ∃ d, t.doneAt = some d ∧ InWeek loc now i d)) ↔
      ∀ d, t.doneAt = some d →
        (∀ i : ℕ, 1 ≤ i → i < 5 →
          (weekEdge loc now i ≤ d ↔ weekEdge loc now 0 + i * weekMillis ≤ d)) ∧
          d < weekEdge loc now 0 + 5 * weekMillis := by
  obtain ⟨d, hd, hstart, hend⟩ := mem_displayedStories h
  have hweek : ∀ i, (∃ d', t.doneAt = some d' ∧ InWeek loc now i d') ↔ InWeek loc now i d := by
    intro i
    rw [hd]
    constructor
    · rintro ⟨d', hd', hin⟩
      exact Option.some.inj hd' ▸ hin
    · exact fun hin => ⟨d, rfl, hin⟩
  have hsame := sameWeek_iff (e := weekEdge loc now) (fun i hi => weekEdge_lt hoffsets now hi) hstart hend
  refine (forall₂_congr fun i _ => iff_congr (mem_countedStories h hd i) (hweek i)).trans (hsame.trans ?_)
  constructor
  · intro hedges d' hd'
    rw [hd] at hd'
    cases hd'
    exact hedges
  · exact fun hall => hall d hd

/-- What the last point counts, if every story is in its own week. -/
theorem countedStories_four
    (hown : ∀ t ∈ displayedStories db loc now userID,
      (t ∈ countedStories db loc now userID 4 ↔ ∃ d, t.doneAt = some d ∧ InWeek loc now 4 d)) :
    countedStories db loc now userID 4 =
      (displayedStories db loc now userID).filter (doneFrom (weekEdge loc now 4)) := by
  rw [countedStories, bucketStories]
  refine List.filter_congr fun t ht => ?_
  obtain ⟨d, hd, _, hend⟩ := mem_displayedStories ht
  have hiff := hown t ht
  rw [countedStories, bucketStories, List.mem_filter, and_iff_right ht] at hiff
  rw [Bool.eq_iff_iff, hiff]
  simp only [hd, Option.some.injEq, exists_eq_left', doneFrom, Option.any_some, decide_eq_true_eq]
  exact and_iff_left hend

end

/-- Every story is counted in its own week, and the last point agrees with the completion of the
calendar week, exactly if no story was done between a start of a week on the calendar and the one by
division. -/
theorem weekly_throughput_iff (loadLocation : String → Option Location)
    (hzones : ∀ name loc, loadLocation name = some loc → loc.ShortOffsets) (db : DB) (now userID : ℤ)
    (timezone : String) :
    CountsWeeks (getDashboardSummary loadLocation db now userID timezone) db
        (dashboardLocation loadLocation timezone) now userID ↔
      ∀ t ∈ displayedStories db (dashboardLocation loadLocation timezone) now userID,
        ∀ d, t.doneAt = some d → ApartFromEdges (dashboardLocation loadLocation timezone) now d := by
  have hoffsets : (dashboardLocation loadLocation timezone).ShortOffsets := by
    unfold dashboardLocation
    split
    · exact Location.shortOffsets_utc
    · cases hload : loadLocation timezone with
      | none => exact Location.shortOffsets_utc
      | some loc => exact hzones timezone loc hload
  generalize hloc : dashboardLocation loadLocation timezone = loc at hoffsets
  have hsummary : (getDashboardSummary loadLocation db now userID timezone).weeklyThroughput =
      weeklyThroughput db loc now userID := by
    rw [getDashboardSummary, hloc]
  have hfrom : ∀ t ∈ displayedStories db loc now userID, ∀ d, t.doneAt = some d →
      (doneFrom (weekEdge loc now 4) t = doneFrom (unixMilli (weekStartAt loc now)) t ↔
        (weekEdge loc now 4 ≤ d ↔ unixMilli (weekStartAt loc now) ≤ d)) := by
    intro t _ d hd
    rw [Bool.eq_iff_iff]
    simp only [doneFrom, hd, Option.any_some, decide_eq_true_eq]
  constructor
  · rintro ⟨hcounts, hown, p, hp, hstories, _⟩ t ht d hd
    obtain ⟨hedges, hlast⟩ := (own_iff hoffsets ht).mp (hown t ht) d hd
    refine ⟨hedges, hlast, (hfrom t ht d hd).mp ?_⟩
    rw [hcounts 4 (by omega)] at hp
    cases hp
    have hfour := countedStories_four fun t ht => hown t ht 4 (by omega)
    rw [calendarWeek_eq hoffsets] at hstories
    simp only [hfour] at hstories
    exact (length_filter_doneFrom_eq_iff _ _).mp hstories t ht
  · intro happart
    have hown : ∀ t ∈ displayedStories db loc now userID, ∀ i < 5,
        (t ∈ countedStories db loc now userID i ↔ ∃ d, t.doneAt = some d ∧ InWeek loc now i d) :=
      fun t ht => (own_iff hoffsets ht).mpr fun d hd =>
        ⟨(happart t ht d hd).1, (happart t ht d hd).2.1⟩
    have hcounts : ∀ i < 5, (getDashboardSummary loadLocation db now userID timezone).weeklyThroughput[i]? =
        some ⟨loc.day (labelledWeek loc now i), (countedStories db loc now userID i).length,
          sumPoints (countedStories db loc now userID i)⟩ := by
      intro i hi
      rw [hsummary, weeklyThroughput_getElem? db loc now userID hi]
    have hfour : countedStories db loc now userID 4 = calendarWeek db loc now userID := by
      rw [countedStories_four fun t ht => hown t ht 4 (by omega), calendarWeek_eq hoffsets]
      refine List.filter_congr fun t ht => ?_
      obtain ⟨d, hd, _⟩ := mem_displayedStories ht
      exact (hfrom t ht d hd).mpr (happart t ht d hd).2.2
    exact ⟨hcounts, hown, _, hcounts 4 (by omega), congrArg List.length hfour, congrArg sumPoints hfour⟩

/-! ## A clock change -/

/-- The time zone of New York around the eighth of March 2026, when its clocks go forward. -/
def newYork : Location where
  lookup t :=
    if t < 1772953200 then ⟨-18000, 1762063200, 1772953200⟩
    else ⟨-14400, 1772953200, 1793512800⟩

theorem shortOffsets_newYork : newYork.ShortOffsets := by
  intro t
  unfold newYork
  dsimp only
  split
  · exact ⟨by decide, by decide⟩
  · exact ⟨by decide, by decide⟩

def loadNewYork (name : String) : Option Location :=
  if name = "America/New_York" then some newYork else none

/-- A board with one story of a user, done at an instant. -/
def doneBoard (doneAt : ℤ) : DB where
  columns := [⟨1, 1, "done", "Done", "#000000", 0, true, false⟩]
  todos := [⟨1, 1, 1, "ship", "", "done", 1000, some 3, some 7, some 7, none, none, 0, 0, some doneAt, none,
    none, none⟩]

theorem dashboardLocation_newYork :
    dashboardLocation loadNewYork "America/New_York" = newYork := by
  rw [dashboardLocation, if_neg (by decide), loadNewYork, if_pos rfl, Option.getD_some]

/-- A story of Tuesday is counted in the week of the change. -/
theorem story_of_tuesday_in_its_week :
    CountsWeeks (getDashboardSummary loadNewYork (doneBoard 1773154800000) 1773316800000000000 7
        "America/New_York") (doneBoard 1773154800000)
      (dashboardLocation loadNewYork "America/New_York") 1773316800000000000 7 := by
  have hzones : ∀ name loc, loadNewYork name = some loc → loc.ShortOffsets := by
    intro name loc h
    unfold loadNewYork at h
    split at h
    · cases h
      exact shortOffsets_newYork
    · cases h
  refine (weekly_throughput_iff loadNewYork hzones _ _ _ _).mpr fun t ht d hd => ?_
  rw [dashboardLocation_newYork]
  obtain rfl := List.mem_singleton.mp (List.mem_filter.mp ht).1
  obtain rfl : 1773154800000 = d := Option.some.inj hd
  have hedge : ∀ i < 6, weekEdge newYork 1773316800000000000 i =
      [1770613200000, 1771218000000, 1771822800000, 1772427600000, 1773028800000, 1773633600000].getD i 0 := by
    decide +kernel
  refine ⟨fun i hi₁ hi₅ => ?_, ?_, ?_⟩
  · obtain rfl | rfl | rfl | rfl : i = 1 ∨ i = 2 ∨ i = 3 ∨ i = 4 := by omega
    all_goals
      rw [hedge _ (by omega), hedge 0 (by omega)]
      decide
  · rw [hedge 0 (by omega)]
    decide
  · decide +kernel

/-- A story that was done half an hour after the midnight to Monday counts as completed in the week, but
its point is that of the week before. -/
theorem story_of_monday_in_last_week :
    (getDashboardSummary loadNewYork (doneBoard 1773030600000) 1773316800000000000 7
        "America/New_York").storiesCompletedThisWeek = 1 ∧
      ¬ CountsWeeks (getDashboardSummary loadNewYork (doneBoard 1773030600000) 1773316800000000000 7
          "America/New_York") (doneBoard 1773030600000)
        (dashboardLocation loadNewYork "America/New_York") 1773316800000000000 7 := by
  have hlast : (getDashboardSummary loadNewYork (doneBoard 1773030600000) 1773316800000000000 7
      "America/New_York").weeklyThroughput[4]? = some ⟨20521, 0, 0⟩ := by
    decide +kernel
  refine ⟨by decide +kernel, ?_⟩
  rintro ⟨_, _, p, hp, hstories, _⟩
  rw [hlast] at hp
  cases hp
  rw [dashboardLocation_newYork] at hstories
  revert hstories
  decide +kernel

end Scrumboy
