import Mathlib.Order.Monotone.Basic
import Mathlib.Logic.Function.Iterate
import Mathlib.Tactic.IntervalCases

/-
  The proleptic Gregorian calendar.

  A date is a year, a month and a day of the month. `next` and `prev` carry from
  the day to the month and from the month to the year; `dayNumber` counts the
  days since the first of year 0, and the two agree (`dayNumber_addDays`). The
  years are consecutive intervals of day numbers, so a bound on the year of a
  date is one on its day number (`year_le_iff`, `le_year_iff`).
-/

namespace Calendar

def isLeap (y : Int) : Bool := y % 4 = 0 && (y % 100 ≠ 0 || y % 400 = 0)

def daysInMonth (y : Int) : Nat → Nat
  | 2 => if isLeap y then 29 else 28
  | 4 => 30
  | 6 => 30
  | 9 => 30
  | 11 => 30
  | 1 => 31
  | 3 => 31
  | 5 => 31
  | 7 => 31
  | 8 => 31
  | 10 => 31
  | 12 => 31
  | _ => 0

def daysInYear (y : Int) : Nat := if isLeap y then 366 else 365

/-- The days of the year before the first of the month. -/
def daysBeforeMonth (y : Int) : Nat → Nat
  | 0 => 0
  | m + 1 => daysBeforeMonth y m + daysInMonth y m

/-- The days from the first of year 0 to the first of the year. -/
def daysBeforeYear (y : Int) : Int := 365 * y + (y + 3) / 4 - (y + 99) / 100 + (y + 399) / 400

structure Date where
  year : Int
  month : Nat
  day : Nat
  validMonth : 1 ≤ month ∧ month ≤ 12
  validDay : 1 ≤ day ∧ day ≤ daysInMonth year month
  deriving DecidableEq

theorem daysInMonth_pos (y : Int) {m : Nat} (h : 1 ≤ m ∧ m ≤ 12) : 1 ≤ daysInMonth y m := by
  obtain ⟨hlo, hhi⟩ := h
  interval_cases m <;> simp only [daysInMonth] <;> try omega
  split <;> omega

theorem daysBeforeMonth_mono (y : Int) : Monotone (daysBeforeMonth y) :=
  monotone_nat_of_le_succ fun _ => Nat.le_add_right _ _

/-- The months make up the year. -/
theorem daysBeforeMonth_thirteen (y : Int) : daysBeforeMonth y 13 = daysInYear y := by
  simp only [daysBeforeMonth, daysInMonth, daysInYear]
  split <;> rfl

/-- Years follow each other without a gap. -/
theorem daysBeforeYear_succ (y : Int) : daysBeforeYear (y + 1) = daysBeforeYear y + daysInYear y := by
  have hleap : isLeap y = true ↔ y % 4 = 0 ∧ (y % 100 ≠ 0 ∨ y % 400 = 0) := by simp [isLeap]
  simp only [daysBeforeYear, daysInYear]
  split
  · next h =>
    have hy := hleap.mp h
    omega
  · next h =>
    have hy := mt hleap.mpr h
    omega

theorem daysBeforeYear_le {y z : Int} (h : y ≤ z) : daysBeforeYear y ≤ daysBeforeYear z := by
  have hmono : Monotone daysBeforeYear := by
    apply monotone_int_of_le_succ
    intro y
    rw [daysBeforeYear_succ]
    omega
  exact hmono h

namespace Date

variable {d : Date} {y : Int}

/-- The days of the year before the date. -/
def ordinal (d : Date) : Nat := daysBeforeMonth d.year d.month + (d.day - 1)

/-- The days from the first of year 0 to the date. -/
def dayNumber (d : Date) : Int := daysBeforeYear d.year + d.ordinal

theorem ordinal_lt (d : Date) : d.ordinal < daysInYear d.year := by
  have hmonth : daysBeforeMonth d.year (d.month + 1) ≤ daysBeforeMonth d.year 13 :=
    daysBeforeMonth_mono d.year (by have := d.validMonth; omega)
  rw [daysBeforeMonth_thirteen, daysBeforeMonth] at hmonth
  have hday := d.validDay
  rw [ordinal]
  omega

theorem dayNumber_lt (d : Date) : d.dayNumber < daysBeforeYear (d.year + 1) := by
  have hlt := d.ordinal_lt
  rw [daysBeforeYear_succ, dayNumber]
  omega

/-- A date is in a year, or an earlier one, by its day number. -/
theorem year_le_iff : d.year ≤ y ↔ d.dayNumber < daysBeforeYear (y + 1) := by
  constructor
  · intro h
    exact lt_of_lt_of_le d.dayNumber_lt (daysBeforeYear_le (by omega))
  · intro h
    by_contra hlt
    have hle : daysBeforeYear (y + 1) ≤ daysBeforeYear d.year := daysBeforeYear_le (by omega)
    rw [dayNumber] at h
    omega

theorem le_year_iff : y ≤ d.year ↔ daysBeforeYear y ≤ d.dayNumber := by
  have h : d.year ≤ y - 1 ↔ d.dayNumber < daysBeforeYear (y - 1 + 1) := year_le_iff
  rw [Int.sub_add_cancel] at h
  omega

/-! ## The next day and the day before -/

/-- The first of January. -/
def firstOfYear (y : Int) : Date := ⟨y, 1, 1, by decide, by simp [daysInMonth]⟩

/-- The last of December. -/
def lastOfYear (y : Int) : Date := ⟨y, 12, 31, by decide, by simp [daysInMonth]⟩

def next (d : Date) : Date :=
  if h : d.day < daysInMonth d.year d.month then
    { d with day := d.day + 1, validDay := ⟨by omega, h⟩ }
  else if h : d.month < 12 then
    have hmonth : 1 ≤ d.month + 1 ∧ d.month + 1 ≤ 12 := by omega
    ⟨d.year, d.month + 1, 1, hmonth, Nat.le_refl 1, daysInMonth_pos d.year hmonth⟩
  else firstOfYear (d.year + 1)

def prev (d : Date) : Date :=
  if h : 1 < d.day then
    { d with day := d.day - 1, validDay := by have := d.validDay; omega }
  else if h : 1 < d.month then
    have hmonth : 1 ≤ d.month - 1 ∧ d.month - 1 ≤ 12 := by have := d.validMonth; omega
    ⟨d.year, d.month - 1, daysInMonth d.year (d.month - 1), hmonth, daysInMonth_pos d.year hmonth, Nat.le_refl _⟩
  else lastOfYear (d.year - 1)

theorem dayNumber_next (d : Date) : d.next.dayNumber = d.dayNumber + 1 := by
  have hvalid := d.validDay
  unfold next
  split
  · simp only [dayNumber, ordinal]
    omega
  · split
    · -- the carry to the month
      simp only [dayNumber, ordinal, daysBeforeMonth]
      omega
    · -- the carry to the year
      have hmonth : d.month = 12 := by have := d.validMonth; omega
      have hyear := daysBeforeMonth_thirteen d.year
      rw [daysBeforeMonth] at hyear
      simp only [firstOfYear, dayNumber, ordinal, daysBeforeYear_succ, daysBeforeMonth, daysInMonth, hmonth] at *
      omega

theorem dayNumber_prev (d : Date) : d.prev.dayNumber = d.dayNumber - 1 := by
  have hvalid := d.validDay
  unfold prev
  split
  · simp only [dayNumber, ordinal]
    omega
  · split
    · next hday hmonth =>
      have hpred : d.month = (d.month - 1) + 1 := by omega
      have hbefore : daysBeforeMonth d.year d.month =
          daysBeforeMonth d.year (d.month - 1) + daysInMonth d.year (d.month - 1) := by
        conv_lhs => rw [hpred]
        rfl
      have hpos := daysInMonth_pos d.year (m := d.month - 1) (by have := d.validMonth; omega)
      simp only [dayNumber, ordinal, hbefore]
      omega
    · next hday hmonth =>
      have hfirst : d.month = 1 := by have := d.validMonth; omega
      have hsucc := daysBeforeYear_succ (d.year - 1)
      rw [Int.sub_add_cancel] at hsucc
      have hyear := daysBeforeMonth_thirteen (d.year - 1)
      rw [daysBeforeMonth] at hyear
      simp only [lastOfYear, dayNumber, ordinal, hfirst, hsucc, daysBeforeMonth, daysInMonth] at *
      omega

/-- The date some days later, or earlier. -/
def addDays (d : Date) : Int → Date
  | .ofNat n => next^[n] d
  | .negSucc n => prev^[n + 1] d

theorem dayNumber_addDays (d : Date) (n : Int) : (d.addDays n).dayNumber = d.dayNumber + n := by
  have hnext : ∀ n d, (next^[n] d).dayNumber = d.dayNumber + n := by
    intro n
    induction n with
    | zero => simp
    | succ n ih =>
      intro d
      rw [Function.iterate_succ_apply, ih, dayNumber_next]
      omega
  have hprev : ∀ n d, (prev^[n] d).dayNumber = d.dayNumber - n := by
    intro n
    induction n with
    | zero => simp
    | succ n ih =>
      intro d
      rw [Function.iterate_succ_apply, ih, dayNumber_prev]
      omega
  cases n with
  | ofNat n => exact hnext n d
  | negSucc n =>
    rw [addDays, hprev]
    omega

end Date

end Calendar
