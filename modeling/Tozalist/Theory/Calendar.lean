/-
# Tozalist.Theory.Calendar -- days and dates of the proleptic Gregorian calendar

Days are counted from 1970-01-01.  A year is taken from March to February, so that
the leap day is its last day and a date is found by dividing: four hundred years are
146097 days, and within a year the months from March on have the lengths of
`(153 m + 2) / 5`.

`dayOf` accepts a day past the end of its month and runs over into the next one, as
JavaScript's `MakeDay` does; `clampDay` is what an interval of PostgreSQL does instead.
Moving a date by years, they differ on a 29 February (`dayOf_dateOf_minus`,
`dayOf_clampDay_minus`).
-/
import Mathlib.Tactic.Common

namespace Tozalist.Theory.Calendar

set_option autoImplicit false

/-- A date; months and days count from one. -/
structure CivilDate where
  year : Int
  month : Int
  day : Int
  deriving DecidableEq, Repr

/-- The number of the day. -/
def dayOf (date : CivilDate) : Int :=
  let year := if date.month ≤ 2 then date.year - 1 else date.year
  let month := if date.month ≤ 2 then date.month + 9 else date.month - 3
  let yearOfEra := year % 400
  year / 400 * 146097 + (yearOfEra * 365 + yearOfEra / 4 - yearOfEra / 100) +
    (153 * month + 2) / 5 + date.day - 1 - 719468

/-- The date of a day. -/
def dateOf (day : Int) : CivilDate :=
  let shifted := day + 719468
  let dayOfEra := shifted % 146097
  let yearOfEra := (dayOfEra - dayOfEra / 1460 + dayOfEra / 36524 - dayOfEra / 146096) / 365
  let dayOfYear := dayOfEra - (365 * yearOfEra + yearOfEra / 4 - yearOfEra / 100)
  let month := (5 * dayOfYear + 2) / 153
  let year := yearOfEra + shifted / 146097 * 400
  { year := if month < 10 then year else year + 1
    month := if month < 10 then month + 3 else month - 9
    day := dayOfYear - (153 * month + 2) / 5 + 1 }

/-- How many days the month of a date has. -/
def daysInMonth (date : CivilDate) : Int :=
  let next := if date.month = 12 then ⟨date.year + 1, 1, 1⟩ else { date with month := date.month + 1 }
  dayOf { next with day := 1 } - dayOf { date with day := 1 }

/-- The date, with its day brought back to the last one of its month. -/
def clampDay (date : CivilDate) : CivilDate :=
  { date with day := min date.day (daysInMonth date) }

example : dayOf ⟨1970, 1, 1⟩ = 0 ∧ dateOf 19782 = ⟨2024, 2, 29⟩ := by decide

/-! ## Years that begin in March -/

/-- The days before a year that begins in March, from year zero on. -/
def daysBefore (year : Int) : Int := 365 * year + year / 4 - year / 100 + year / 400

/-- What `dateOf` divides by 365 to find the year. -/
def yearSteps (day : Int) : Int := day - day / 1460 + day / 36524 - day / 146096

theorem yearSteps_le {a b : Int} (le : a ≤ b) : yearSteps a ≤ yearSteps b := by
  have slow : b / 1460 - a / 1460 ≤ b - a := by omega
  unfold yearSteps
  omega

/-- The division is right on the first and on the last day of every year. -/
theorem yearSteps_ends : ∀ year : Fin 400,
    365 * (year : Int) ≤ yearSteps (daysBefore year) ∧
      yearSteps (daysBefore (year + 1) - 1) < 365 * (year + 1 : Int) := by
  decide +kernel

theorem yearOfEra_spec {day : Int} (low : 0 ≤ day) (high : day < 146097) :
    0 ≤ yearSteps day / 365 ∧ yearSteps day / 365 < 400 ∧
      daysBefore (yearSteps day / 365) ≤ day ∧ day < daysBefore (yearSteps day / 365 + 1) := by
  have bound : 0 ≤ yearSteps day / 365 ∧ yearSteps day / 365 < 400 := by
    unfold yearSteps
    omega
  obtain ⟨year, is⟩ : ∃ year : Fin 400, yearSteps day / 365 = year :=
    ⟨⟨(yearSteps day / 365).toNat, by omega⟩, by simp only []; omega⟩
  refine ⟨bound.1, bound.2, ?_, ?_⟩
  · rw [is]
    by_contra early
    by_cases first : (year : Int) = 0
    · rw [first, daysBefore] at early
      omega
    · have before := (yearSteps_ends ⟨year - 1, by omega⟩).2
      have le := yearSteps_le (show day ≤ daysBefore year - 1 by omega)
      rw [show (((⟨year - 1, by omega⟩ : Fin 400) : ℕ) : Int) = year - 1 by
        simp only []; omega, show (year : Int) - 1 + 1 = year by omega] at before
      omega
  · rw [is]
    by_contra late
    by_cases last : (year : Int) = 399
    · rw [last, daysBefore] at late
      omega
    · have after := (yearSteps_ends ⟨year + 1, by omega⟩).1
      have le := yearSteps_le (show daysBefore (year + 1) ≤ day by omega)
      rw [show (((⟨year + 1, by omega⟩ : Fin 400) : ℕ) : Int) = year + 1 by
        simp only []; omega] at after
      omega


/-- The year a day is in, when years begin in March. -/
def marchYear (day : Int) : Int :=
  yearSteps ((day + 719468) % 146097) / 365 + (day + 719468) / 146097 * 400

/-- The day within that year, from zero. -/
def dayOfYear (day : Int) : Int := day + 719468 - daysBefore (marchYear day)

theorem daysBefore_era (year eras : Int) :
    daysBefore (year + eras * 400) = daysBefore year + eras * 146097 := by
  unfold daysBefore
  omega

theorem daysBefore_mono {a b : Int} (le : a ≤ b) : daysBefore a ≤ daysBefore b := by
  unfold daysBefore
  omega

/-- A year is short unless it ends in the February of a fourth one. -/
theorem year_short {year : Int} (fourth : (year + 1) % 4 ≠ 0) :
    daysBefore (year + 1) = daysBefore year + 365 := by
  unfold daysBefore
  omega

theorem year_long {year : Int} (long : daysBefore (year + 1) ≠ daysBefore year + 365) :
    daysBefore (year + 1) = daysBefore year + 366 ∧ (year + 1) % 4 = 0 := by
  unfold daysBefore at *
  omega

theorem daysBefore_lt {a b : Int} (lt : a < b) : daysBefore a + 365 ≤ daysBefore b := by
  have next := daysBefore_mono (show a + 1 ≤ b by omega)
  by_cases short : daysBefore (a + 1) = daysBefore a + 365
  · omega
  · have long := (year_long short).1
    omega

theorem dayOfYear_bounds (day : Int) :
    0 ≤ dayOfYear day ∧ dayOfYear day < daysBefore (marchYear day + 1) - daysBefore (marchYear day) := by
  obtain ⟨-, -, start, stop⟩ := @yearOfEra_spec ((day + 719468) % 146097) (by omega)
    (by omega)
  have before : daysBefore (marchYear day) = _ := daysBefore_era _ _
  have after : daysBefore (marchYear day + 1) =
      daysBefore (yearSteps ((day + 719468) % 146097) / 365 + 1) +
        (day + 719468) / 146097 * 146097 := by
    rw [← daysBefore_era, marchYear, Int.add_right_comm]
  unfold dayOfYear
  omega

/-- The days of a year are numbered up to 364, and in a long one up to 365. -/
theorem dayOfYear_range (day : Int) :
    0 ≤ dayOfYear day ∧ dayOfYear day ≤ 365 ∧ (dayOfYear day = 365 →
      daysBefore (marchYear day + 1) ≠ daysBefore (marchYear day) + 365) := by
  have bounds := dayOfYear_bounds day
  have length := @year_long (marchYear day)
  omega

theorem day_eq (day : Int) : day = daysBefore (marchYear day) + dayOfYear day - 719468 := by
  unfold dayOfYear
  omega

theorem marchYear_mono {a b : Int} (le : a ≤ b) : marchYear a ≤ marchYear b := by
  by_contra less
  have years := daysBefore_mono (show marchYear b + 1 ≤ marchYear a by omega)
  have first := dayOfYear_bounds a
  have last := dayOfYear_bounds b
  have early := day_eq a
  have late := day_eq b
  omega

/-! ## Dates of days -/

theorem dayOf_eq (date : CivilDate) :
    dayOf date =
      (if date.month ≤ 2 then
        daysBefore (date.year - 1) + (153 * (date.month + 9) + 2) / 5
      else daysBefore date.year + (153 * (date.month - 3) + 2) / 5) + date.day - 719469 := by
  unfold dayOf daysBefore
  split <;> simp only [] <;> omega

theorem dateOf_eq (day : Int) :
    dateOf day =
      { year := if (5 * dayOfYear day + 2) / 153 < 10 then marchYear day else marchYear day + 1
        month := if (5 * dayOfYear day + 2) / 153 < 10 then (5 * dayOfYear day + 2) / 153 + 3
          else (5 * dayOfYear day + 2) / 153 - 9
        day := dayOfYear day - (153 * ((5 * dayOfYear day + 2) / 153) + 2) / 5 + 1 } := by
  obtain ⟨low, high, -, -⟩ := @yearOfEra_spec ((day + 719468) % 146097) (by omega)
    (by omega)
  have inEra : dayOfYear day = (day + 719468) % 146097 -
      (365 * (yearSteps ((day + 719468) % 146097) / 365) +
        yearSteps ((day + 719468) % 146097) / 365 / 4 -
        yearSteps ((day + 719468) % 146097) / 365 / 100) := by
    have before : daysBefore (marchYear day) = _ := daysBefore_era _ _
    rw [dayOfYear, before, daysBefore]
    omega
  rw [inEra]
  rfl

/-- A date keeps its day of the year when the year changes. -/
theorem dayOf_dateOf_minus (day years : Int) :
    dayOf { dateOf day with year := (dateOf day).year - years } =
      daysBefore (marchYear day - years) + dayOfYear day - 719468 := by
  have bounds := dayOfYear_range day
  rw [dateOf_eq, dayOf_eq]
  by_cases early : (5 * dayOfYear day + 2) / 153 < 10
  · simp only [if_pos early]
    rw [if_neg (by omega)]
    omega
  · simp only [if_neg early]
    rw [if_pos (by omega), show marchYear day + 1 - years - 1 = marchYear day - years by omega]
    omega

/-! ## Another year -/

theorem daysInMonth_march (year month day : Int) (low : 0 ≤ month) (high : month < 10) :
    daysInMonth ⟨year, month + 3, day⟩ =
      (153 * (month + 1) + 2) / 5 - (153 * month + 2) / 5 := by
  unfold daysInMonth
  by_cases december : month + 3 = 12
  · rw [if_pos december]
    simp only [dayOf_eq, if_neg (show ¬ month + 3 ≤ 2 by omega),
      if_pos (show (1 : Int) ≤ 2 by decide), Int.add_sub_cancel]
    omega
  · rw [if_neg december]
    simp only [dayOf_eq, if_neg (show ¬ month + 3 ≤ 2 by omega),
      if_neg (show ¬ month + 3 + 1 ≤ 2 by omega), Int.add_sub_cancel,
      show month + 3 + 1 - 3 = month + 1 by omega]
    omega

theorem daysInMonth_january (year day : Int) : daysInMonth ⟨year, 1, day⟩ = 31 := by
  unfold daysInMonth
  rw [if_neg (show ¬ (1 : Int) = 12 by decide)]
  simp only [dayOf_eq]
  omega

theorem daysInMonth_february (year day : Int) :
    daysInMonth ⟨year, 2, day⟩ = daysBefore year - daysBefore (year - 1) - 337 := by
  unfold daysInMonth
  rw [if_neg (show ¬ (2 : Int) = 12 by decide)]
  simp only [dayOf_eq]
  omega

/-- Where the day of the year does not exist, clamping takes the last one. -/
theorem dayOf_clampDay_minus (day years : Int) :
    dayOf (clampDay { dateOf day with year := (dateOf day).year - years }) =
      daysBefore (marchYear day - years) + min (dayOfYear day)
        (daysBefore (marchYear day - years + 1) - daysBefore (marchYear day - years) - 1) -
          719468 := by
  have bounds := dayOfYear_bounds day
  have kept := dayOf_dateOf_minus day years
  have length : daysBefore (marchYear day + 1) - daysBefore (marchYear day) ≤ 366 := by
    unfold daysBefore
    omega
  have least := daysBefore_lt (show marchYear day - years < marchYear day - years + 1 by omega)
  have same : marchYear day + 1 - years - 1 = marchYear day - years := by omega
  have next : marchYear day + 1 - years = marchYear day - years + 1 := by omega
  obtain ⟨month, is⟩ : ∃ month, (5 * dayOfYear day + 2) / 153 = month := ⟨_, rfl⟩
  rw [dateOf_eq, is] at kept ⊢
  unfold clampDay
  by_cases early : month < 10
  · simp only [if_pos early] at kept ⊢
    rw [daysInMonth_march _ _ _ (by omega) early, Int.min_eq_left (by omega),
      Int.min_eq_left (by omega), kept]
  · simp only [if_neg early] at kept ⊢
    have cases_ : month = 10 ∨ month = 11 := by omega
    rcases cases_ with rfl | rfl
    · rw [show (10 : Int) - 9 = 1 by decide, daysInMonth_january, Int.min_eq_left (by omega),
        Int.min_eq_left (by omega), ← kept]
      rfl
    · rw [show (11 : Int) - 9 = 2 by decide, daysInMonth_february, dayOf_eq, same, next]
      simp only []
      omega

theorem dayOf_dateOf (day : Int) : dayOf (dateOf day) = day := by
  have same := dayOf_dateOf_minus day 0
  rw [Int.sub_zero, Int.sub_zero] at same
  rw [show dayOf (dateOf day) = _ from same]
  exact (day_eq day).symm

/-- The day is a 29 February. -/
def LeapDay (day : Int) : Prop := (dateOf day).month = 2 ∧ (dateOf day).day = 29

instance (day : Int) : Decidable (LeapDay day) := inferInstanceAs (Decidable (_ ∧ _))

theorem leapDay_iff (day : Int) : LeapDay day ↔ dayOfYear day = 365 := by
  have bounds := dayOfYear_range day
  rw [LeapDay, dateOf_eq]
  simp only []
  constructor
  · rintro ⟨february, last⟩
    split at february <;> omega
  · intro last
    rw [last]
    decide

end Tozalist.Theory.Calendar
