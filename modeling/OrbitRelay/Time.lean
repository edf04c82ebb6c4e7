import OrbitRelay.Core
import OrbitRelay.Lib.Calendar

/-
  Date-times with an offset, and their change to UTC (orbitrelay-core: time.rs).

  `OffsetDateTime` and `to_offset` are those of the `time` crate: a local
  date-time in the years -9999 to 9999, and its offset. What `to_offset(UTC)`
  does is known by its documentation (`ToUtc`): it takes the offset from the time
  of day, carries to the date, and panics where that is in none of these years.
  So it keeps the instant, and panics in the few hours at the two ends of the
  range (`LeavesUtcRange`).

  Correspondence (Rust ↔ Lean):
    `time::OffsetDateTime`, `UtcOffset`  ↔ the structures of the same names
    `value.to_offset(UtcOffset::UTC)`    ↔ a function `toUtc` with `ToUtc toUtc`;
                                           `toOffsetUtc` is one
-/

namespace OrbitRelay

/-- A time of day. -/
structure Time where
  hour : Nat
  minute : Nat
  second : Nat
  nanosecond : Nat
  valid : hour < 24 ∧ minute < 60 ∧ second < 60 ∧ nanosecond < 1000000000
  deriving DecidableEq

namespace Time

/-- The whole seconds since midnight. -/
def seconds (t : Time) : Nat := t.hour * 3600 + t.minute * 60 + t.second

theorem seconds_lt (t : Time) : t.seconds < 86400 := by
  have hvalid := t.valid
  rw [seconds]
  omega

/-- The time of day some seconds after midnight. -/
def ofSeconds (s : Nat) (nanosecond : Nat) (hs : s < 86400) (hn : nanosecond < 1000000000) : Time :=
  ⟨s / 3600, s / 60 % 60, s % 60, nanosecond, by omega⟩

@[simp] theorem seconds_ofSeconds {s nanosecond : Nat} (hs : s < 86400) (hn : nanosecond < 1000000000) :
    (ofSeconds s nanosecond hs hn).seconds = s := by
  simp only [ofSeconds, seconds]
  omega

@[simp] theorem nanosecond_ofSeconds {s nanosecond : Nat} (hs : s < 86400) (hn : nanosecond < 1000000000) :
    (ofSeconds s nanosecond hs hn).nanosecond = nanosecond := rfl

end Time

/-- A date and a time of day, in the years that are represented. -/
structure PrimitiveDateTime where
  date : Calendar.Date
  time : Time
  inRange : -9999 ≤ date.year ∧ date.year ≤ 9999
  deriving DecidableEq

/-- An offset from UTC, within 25:59:59 either way. -/
structure UtcOffset where
  seconds : Int
  valid : -93599 ≤ seconds ∧ seconds ≤ 93599
  deriving DecidableEq

/-- A local date-time with its offset. -/
structure OffsetDateTime where
  «local» : PrimitiveDateTime
  offset : UtcOffset
  deriving DecidableEq

/-- The instant of a date-time at UTC, in nanoseconds since the Unix epoch. -/
def PrimitiveDateTime.nanos (t : PrimitiveDateTime) : Int :=
  ((t.date.dayNumber - Calendar.daysBeforeYear 1970) * 86400 + t.time.seconds) * 1000000000 + t.time.nanosecond

/-- The timestamp of a date-time at UTC. -/
def Timestamp.ofUtc (t : PrimitiveDateTime) : Timestamp where
  nanos := t.nanos
  inRange := by
    have hfirst := Calendar.Date.le_year_iff.mp t.inRange.1
    have hlast := Calendar.Date.year_le_iff.mp t.inRange.2
    have hlo : Calendar.daysBeforeYear (-9999) = -3652059 := by decide
    have hhi : Calendar.daysBeforeYear (9999 + 1) = 3652425 := by decide
    have hepoch : Calendar.daysBeforeYear 1970 = 719528 := by decide
    have htime := t.time.seconds_lt
    have hnanos := t.time.valid
    rw [hlo] at hfirst
    rw [hhi] at hlast
    rw [PrimitiveDateTime.nanos, hepoch, Timestamp.minNanos, Timestamp.maxNanos]
    omega

namespace OffsetDateTime

variable {x : OffsetDateTime}

/-- The instant. -/
def nanos (x : OffsetDateTime) : Int := x.local.nanos - x.offset.seconds * 1000000000

/-- The date at UTC. The change of offset carries to a date a day or two away. -/
def utcDate (x : OffsetDateTime) : Calendar.Date :=
  x.local.date.addDays ((x.local.time.seconds - x.offset.seconds) / 86400)

/-- The time of day at UTC. -/
def utcTime (x : OffsetDateTime) : Time :=
  Time.ofSeconds ((x.local.time.seconds - x.offset.seconds) % 86400).toNat x.local.time.nanosecond (by omega)
    x.local.time.valid.2.2.2

/-- The seconds of its year before a local date-time. -/
def secondsIntoYear (x : OffsetDateTime) : Nat := x.local.date.ordinal * 86400 + x.local.time.seconds

/-- Nearer to the beginning of the first year, or to the end of the last, than
the offset reaches. -/
def LeavesUtcRange (x : OffsetDateTime) : Prop :=
  (x.local.date.year = -9999 ∧ x.secondsIntoYear < x.offset.seconds) ∨
  (x.local.date.year = 9999 ∧ 365 * 86400 + x.offset.seconds ≤ x.secondsIntoYear)

instance (x : OffsetDateTime) : Decidable x.LeavesUtcRange := inferInstanceAs (Decidable (_ ∨ _))

/-- The years at UTC that are not represented. -/
theorem utcDate_year_iff (x : OffsetDateTime) :
    (-9999 ≤ x.utcDate.year ∧ x.utcDate.year ≤ 9999) ↔ ¬x.LeavesUtcRange := by
  have hfirst : Calendar.daysBeforeYear (-9999) = -3652059 := by decide
  have hsecond : Calendar.daysBeforeYear (-9998) = -3651694 := by decide
  have hlast : Calendar.daysBeforeYear 9999 = 3652060 := by decide
  have hend : Calendar.daysBeforeYear (9999 + 1) = 3652425 := by decide
  have hlo : -9998 ≤ x.local.date.year ↔ Calendar.daysBeforeYear (-9998) ≤ x.local.date.dayNumber :=
    Calendar.Date.le_year_iff
  have hhi : x.local.date.year ≤ 9998 ↔ x.local.date.dayNumber < Calendar.daysBeforeYear (9998 + 1) :=
    Calendar.Date.year_le_iff
  have hnumber : x.local.date.dayNumber = Calendar.daysBeforeYear x.local.date.year + x.local.date.ordinal := rfl
  have hinto : (x.secondsIntoYear : Int) = x.local.date.ordinal * 86400 + x.local.time.seconds := by
    simp [secondsIntoYear]
  have hyear := x.local.inRange
  have htime := x.local.time.seconds_lt
  have hoffset := x.offset.valid
  rw [Calendar.Date.le_year_iff, Calendar.Date.year_le_iff, utcDate, Calendar.Date.dayNumber_addDays, hfirst, hend,
    LeavesUtcRange, hinto]
  rw [hsecond] at hlo
  rw [show (9998 + 1 : Int) = 9999 from rfl, hlast] at hhi
  -- the change of offset carries two days at most, so only the first and the last year matter
  by_cases hmin : x.local.date.year = -9999
  · rw [hmin, hfirst] at hnumber
    omega
  · by_cases hmax : x.local.date.year = 9999
    · rw [hmax, hlast] at hnumber
      omega
    · omega

/-- Date-times of one instant have the same years at UTC, represented or not. -/
theorem leavesUtcRange_congr {y : OffsetDateTime} (h : x.nanos = y.nanos) :
    x.LeavesUtcRange ↔ y.LeavesUtcRange := by
  have hx := x.local.time.valid
  have hy := y.local.time.valid
  have hday : x.utcDate.dayNumber = y.utcDate.dayNumber := by
    rw [utcDate, utcDate, Calendar.Date.dayNumber_addDays, Calendar.Date.dayNumber_addDays]
    simp only [nanos, PrimitiveDateTime.nanos] at h
    omega
  rw [← not_iff_not, ← utcDate_year_iff, ← utcDate_year_iff, Calendar.Date.le_year_iff, Calendar.Date.le_year_iff,
    Calendar.Date.year_le_iff, Calendar.Date.year_le_iff, hday]

end OffsetDateTime

/-- What is documented of `to_offset(UTC)`; `none` is a panic. -/
structure ToUtc (toUtc : OffsetDateTime → Option PrimitiveDateTime) : Prop where
  date : ∀ {x t}, toUtc x = some t → t.date = x.utcDate
  time : ∀ {x t}, toUtc x = some t → t.time = x.utcTime
  panics_iff : ∀ {x}, toUtc x = none ↔ ¬(-9999 ≤ x.utcDate.year ∧ x.utcDate.year ≤ 9999)

namespace ToUtc

variable {toUtc : OffsetDateTime → Option PrimitiveDateTime} (h : ToUtc toUtc) {x : OffsetDateTime}
include h

theorem eq_none_iff : toUtc x = none ↔ x.LeavesUtcRange := by
  rw [h.panics_iff, OffsetDateTime.utcDate_year_iff, not_not]

theorem exists_eq_some_iff : (∃ t, toUtc x = some t) ↔ ¬x.LeavesUtcRange := by
  rw [← h.eq_none_iff, ← ne_eq, Option.ne_none_iff_exists']

/-- What the date loses by a carry the time of day gains. -/
theorem same_instant {t : PrimitiveDateTime} (ht : toUtc x = some t) : t.nanos = x.nanos := by
  rw [PrimitiveDateTime.nanos, h.date ht, h.time ht]
  simp only [OffsetDateTime.utcDate, OffsetDateTime.utcTime, OffsetDateTime.nanos, PrimitiveDateTime.nanos,
    Calendar.Date.dayNumber_addDays, Time.seconds_ofSeconds, Time.nanosecond_ofSeconds]
  omega

end ToUtc

/-- `to_offset(UTC)`, by the calendar. -/
def toOffsetUtc (x : OffsetDateTime) : Option PrimitiveDateTime :=
  if h : -9999 ≤ x.utcDate.year ∧ x.utcDate.year ≤ 9999 then some ⟨x.utcDate, x.utcTime, h⟩ else none

theorem toUtc_toOffsetUtc : ToUtc toOffsetUtc where
  date := by
    intro x t h
    obtain ⟨_, ht⟩ := Option.dite_none_right_eq_some.mp h
    cases ht
    rfl
  time := by
    intro x t h
    obtain ⟨_, ht⟩ := Option.dite_none_right_eq_some.mp h
    cases ht
    rfl
  panics_iff := by
    intro x
    simp [toOffsetUtc]

end OrbitRelay
