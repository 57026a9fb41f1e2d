import Scrumboy.Go.Int64

/-!
# Instants and time zones

An instant is a number of nanoseconds since the Unix epoch. A location gives for each second
the offset from UTC that is in force then, with the interval in which it is in force. A
civil day is counted from the epoch, so that going `n` days further is an addition, and
`Location.date` is the choice that the standard library makes for a clock reading that a
change of the offset repeats or leaves out.
-/

namespace Go

/-- The nanoseconds of a second. -/
def second : ℤ := 1000000000

def minute : ℤ := 60 * second

def hour : ℤ := 60 * minute

def millisecond : ℤ := 1000000

/-- `t.UnixMilli()`. -/
def unixMilli (t : ℤ) : ℤ := t / millisecond

/-- `t.Sub(u)`: a difference outside the range of a duration becomes the closest one inside. -/
def sub (t u : ℤ) : ℤ := max minInt64 (min maxInt64 (t - u))

theorem sub_mono {t t' : ℤ} (h : t ≤ t') (u : ℤ) : sub t u ≤ sub t' u := by
  unfold sub
  omega

theorem lt_of_lt_sub {w t u : ℤ} (hw : 0 ≤ w) (h : w < sub t u) : w < t - u := by
  unfold sub minInt64 at h
  omega

theorem sub_self (t : ℤ) : sub t t = 0 := by
  unfold sub minInt64 maxInt64
  omega

/-- The seconds of a civil day. -/
def secondsPerDay : ℤ := 86400

/-- An offset from UTC, in seconds, and the seconds from `start` up to `stop` at which it is
in force. -/
structure Zone where
  offset : ℤ
  start : ℤ
  stop : ℤ
  deriving DecidableEq, Repr

structure Location where
  lookup : ℤ → Zone

namespace Location

/-- A location whose offset never changes. -/
def fixed (offset : ℤ) : Location := ⟨fun _ => ⟨offset, -9223372036854775808, 9223372036854775807⟩⟩

def utc : Location := fixed 0

/-- The seconds that a clock in the location shows, counted as if it were in UTC. -/
def wall (loc : Location) (t : ℤ) : ℤ := t / second + (loc.lookup (t / second)).offset

/-- The civil day of an instant. -/
def day (loc : Location) (t : ℤ) : ℤ := loc.wall t / secondsPerDay

/-- The seconds since midnight that the clock shows. -/
def clock (loc : Location) (t : ℤ) : ℤ := loc.wall t % secondsPerDay

/-- `time.Date` at a civil day, a clock reading in seconds and nanoseconds after it. -/
def date (loc : Location) (day clock nsec : ℤ) : ℤ :=
  let unix := day * secondsPerDay + clock
  let zone := loc.lookup unix
  let utc := unix - zone.offset
  let offset :=
    if zone.offset = 0 then 0
    else if utc < zone.start ∨ zone.stop ≤ utc then (loc.lookup utc).offset
    else zone.offset
  (unix - offset) * second + nsec

/-- `t.AddDate(0, 0, days)`. -/
def addDate (loc : Location) (t days : ℤ) : ℤ :=
  loc.date (loc.day t + days) (loc.clock t) (t % second)

/-- Offsets of at most a day, as those of every time zone are. -/
def ShortOffsets (loc : Location) : Prop :=
  ∀ t, -secondsPerDay ≤ (loc.lookup t).offset ∧ (loc.lookup t).offset ≤ secondsPerDay

theorem ShortOffsets.date_eq {loc : Location} (h : loc.ShortOffsets) (day clock nsec : ℤ) :
    ∃ offset, (-secondsPerDay ≤ offset ∧ offset ≤ secondsPerDay) ∧
      loc.date day clock nsec = (day * secondsPerDay + clock - offset) * second + nsec := by
  unfold date
  dsimp only
  refine ⟨_, ?_, rfl⟩
  split
  · exact ⟨by decide, by decide⟩
  · split
    · exact h _
    · exact h _

/-- `AddDate` goes the days further by the clock, which two offsets turn into an instant. -/
theorem ShortOffsets.addDate_eq {loc : Location} (h : loc.ShortOffsets) (t days : ℤ) :
    ∃ offset, (-secondsPerDay ≤ offset ∧ offset ≤ secondsPerDay) ∧
      loc.addDate t days =
        t + (days * secondsPerDay + (loc.lookup (t / second)).offset - offset) * second := by
  obtain ⟨offset, hoffset, heq⟩ := h.date_eq (loc.day t + days) (loc.clock t) (t % second)
  refine ⟨offset, hoffset, heq.trans ?_⟩
  have hwall : loc.day t * secondsPerDay + loc.clock t =
      t / second + (loc.lookup (t / second)).offset := by
    rw [day, clock, mul_comm]
    exact Int.mul_ediv_add_emod _ _
  have ht : t / second * second + t % second = t := by
    rw [mul_comm]
    exact Int.mul_ediv_add_emod _ _
  unfold second secondsPerDay at *
  omega

theorem shortOffsets_utc : utc.ShortOffsets := by
  intro t
  change -secondsPerDay ≤ 0 ∧ (0 : ℤ) ≤ secondsPerDay
  decide

end Location

end Go
