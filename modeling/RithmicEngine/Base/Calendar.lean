import Mathlib.Data.Int.Basic
/-!
# The Gregorian calendar, counted from March

An era is four centuries of 146097 days. Counted from the first of March, the leap day is the
last day of its year, and the months have a common formula. The year and the day of the year of
a day of an era are in their ranges, a date stands for one day only, and the next day is either
the next one of the same year or the first of March.

Counted from 1970 instead, years follow each other by their lengths, and a day has its weekday.
-/
namespace Calendar

/-- The year of an era in which a day of the era is. -/
def yearOfEra (day : Int) : Int := (day - day / 1460 + day / 36524 - day / 146096) / 365

def dayOfYear (day : Int) : Int :=
  day - (365 * yearOfEra day + yearOfEra day / 4 - yearOfEra day / 100)

/-- Months from March, the first of which is zero. -/
def monthFromMarch (dayOfYear : Int) : Int := (5 * dayOfYear + 2) / 153

def dayOfMonth (dayOfYear : Int) : Int :=
  dayOfYear - (153 * monthFromMarch dayOfYear + 2) / 5 + 1

/-- A day as its century, its four years, its year and the day of the year. -/
structure Split (day century fours year rest : Int) : Prop where
  day_eq : day = 36524 * century + 1461 * fours + 365 * year + rest
  century_range : 0 ≤ century ∧ century < 4
  fours_range : 0 ≤ fours ∧ fours < 25
  year_range : 0 ≤ year ∧ year < 4
  rest_range : 0 ≤ rest ∧ rest ≤ 365
  yearOfEra_eq : yearOfEra day = 100 * century + 4 * fours + year

/-- Every day but the last of an era can be split. -/
theorem split_day {day : Int} (first : 0 ≤ day) (last : day < 146096) :
    Split day (day / 36524) (day % 36524 / 1461) (min 3 (day % 36524 % 1461 / 365))
      (day % 36524 % 1461 - 365 * min 3 (day % 36524 % 1461 / 365)) := by
  obtain century | century | century | century :
      day / 36524 = 0 ∨ day / 36524 = 1 ∨ day / 36524 = 2 ∨ day / 36524 = 3 := by omega
  all_goals
    rw [century]
    constructor
    · omega
    · omega
    · omega
    · omega
    · omega
    · unfold yearOfEra
      omega

variable {day year : Int}

theorem Split.dayOfYear_eq {century fours rest : Int} (split : Split day century fours year rest) :
    dayOfYear day = rest := by
  obtain ⟨day_eq, centuries, fours, years, rests, isYear⟩ := split
  unfold dayOfYear
  omega

theorem yearOfEra_last : yearOfEra 146096 = 399 := by decide

theorem dayOfYear_last : dayOfYear 146096 = 365 := by decide

theorem yearOfEra_range (first : 0 ≤ day) (last : day < 146097) :
    0 ≤ yearOfEra day ∧ yearOfEra day < 400 := by
  by_cases isLast : day = 146096
  · rw [isLast, yearOfEra_last]
    decide
  · obtain ⟨_, centuries, fours, years, _, isYear⟩ := split_day first (by omega)
    omega

theorem dayOfYear_range (first : 0 ≤ day) (last : day < 146097) :
    0 ≤ dayOfYear day ∧ dayOfYear day ≤ 365 := by
  by_cases isLast : day = 146096
  · rw [isLast, dayOfYear_last]
    decide
  · have split := split_day first (by omega)
    rw [split.dayOfYear_eq]
    exact split.rest_range

/-- The next day of an era is the next of the year or the first of March. -/
theorem dayOfYear_next (first : 0 ≤ day) (last : day + 1 < 146097) :
    dayOfYear (day + 1) = dayOfYear day + 1 ∧ yearOfEra (day + 1) = yearOfEra day ∨
      dayOfYear (day + 1) = 0 ∧ 364 ≤ dayOfYear day := by
  have split := split_day first (by omega)
  by_cases isLast : day + 1 = 146096
  · obtain rfl : day = 146095 := by omega
    exact .inl (by decide)
  · have next := @split_day (day + 1) (by omega) (by omega)
    rw [split.dayOfYear_eq, next.dayOfYear_eq, split.yearOfEra_eq, next.yearOfEra_eq]
    -- The first day of a century, of four years or of a year, or none of them.
    rcases Int.lt_or_le (day % 36524) 36523 with sameCentury | newCentury
    · have centuries : (day + 1) / 36524 = day / 36524 := by omega
      have within : (day + 1) % 36524 = day % 36524 + 1 := by omega
      rw [centuries, within]
      generalize day % 36524 = d at *
      rcases Int.lt_or_le (d % 1461) 1460 with sameFours | newFours
      · have fours : (d + 1) / 1461 = d / 1461 := by omega
        have inside : (d + 1) % 1461 = d % 1461 + 1 := by omega
        rw [fours, inside]
        omega
      · have fours : (d + 1) / 1461 = d / 1461 + 1 := by omega
        have inside : (d + 1) % 1461 = 0 := by omega
        rw [fours, inside]
        omega
    · have centuries : (day + 1) / 36524 = day / 36524 + 1 := by omega
      have within : (day + 1) % 36524 = 0 := by omega
      rw [centuries, within]
      omega

/-- The year and its day give the day of the era. -/
theorem day_injective {other : Int} (years : yearOfEra day = yearOfEra other)
    (days : dayOfYear day = dayOfYear other) : day = other := by
  unfold dayOfYear at days
  rw [years] at days
  omega

theorem monthFromMarch_range {n : Int} (first : 0 ≤ n) (last : n ≤ 365) :
    0 ≤ monthFromMarch n ∧ monthFromMarch n ≤ 11 := by
  unfold monthFromMarch
  omega

theorem dayOfMonth_range (n : Int) : 1 ≤ dayOfMonth n ∧ dayOfMonth n ≤ 31 := by
  unfold dayOfMonth monthFromMarch
  omega

/-- The month and its day give the day of the year. -/
theorem dayOfYear_injective {n other : Int} (months : monthFromMarch n = monthFromMarch other)
    (days : dayOfMonth n = dayOfMonth other) : n = other := by
  unfold dayOfMonth at days
  rw [months] at days
  omega

/-! ## Years counted from 1970 -/

def leap (year : Int) : Prop := year % 4 = 0 ∧ (year % 100 ≠ 0 ∨ year % 400 = 0)
deriving Decidable

def yearLength (year : Int) : Int := if leap year then 366 else 365

/-- The days of some years from 1970. -/
def daysOfYears : Nat → Int
  | 0 => 0
  | n + 1 => daysOfYears n + yearLength (1970 + n)

/-- The number of the first day of a year from 1970 on, where the first of 1970 is zero. -/
def yearStart (year : Int) : Int := daysOfYears (year - 1970).toNat

/-- The weekday of a day, zero for Sunday. The first of 1970 was a Thursday. -/
def weekday (day : Int) : Int := (day + 4) % 7

/-- The first Sunday from a day on. -/
def sundayFrom (day : Int) : Int := day + (7 - weekday day) % 7

theorem sundayFrom_first (day : Int) : weekday (sundayFrom day) = 0 ∧ day ≤ sundayFrom day ∧
    ∀ other, day ≤ other → weekday other = 0 → sundayFrom day ≤ other := by
  unfold sundayFrom weekday
  refine ⟨by omega, by omega, ?_⟩
  intro other after isSunday
  omega

def marchFirst (year : Int) : Int := yearStart year + 31 + (if leap year then 29 else 28)

def novemberFirst (year : Int) : Int := marchFirst year + 31 + 30 + 31 + 30 + 31 + 31 + 30 + 31

/-- The days before the first of March of a year, of any year. -/
def marchStart (year : Int) : Int := 365 * year + year / 4 - year / 100 + year / 400 - 719468

theorem marchStart_next (year : Int) :
    marchStart (year + 1) = marchStart year + yearLength (year + 1) := by
  unfold marchStart yearLength leap
  split_ifs
  · omega
  · omega

theorem daysOfYears_eq (n : Nat) : daysOfYears n = marchStart (1969 + n) + 306 := by
  induction n with
  | zero => rfl
  | succ n ih =>
    have next := marchStart_next (1969 + n)
    have isYear : 1969 + (n : Int) + 1 = 1970 + n := by omega
    have later : 1969 + ((n + 1 : Nat) : Int) = 1969 + n + 1 := by omega
    rw [daysOfYears, ih, later, next, isYear]
    omega

/-- The year begins 306 days after the first of March before it. -/
theorem yearStart_eq (since : 1970 ≤ year) : yearStart year = marchStart (year - 1) + 306 := by
  have isYear : 1969 + ((year - 1970).toNat : Int) = year - 1 := by omega
  unfold yearStart
  rw [daysOfYears_eq, isYear]

theorem marchFirst_eq (since : 1970 ≤ year) : marchFirst year = marchStart year := by
  have next := marchStart_next (year - 1)
  rw [Int.sub_add_cancel] at next
  unfold marchFirst
  rw [yearStart_eq since, next]
  unfold yearLength
  split_ifs
  · omega
  · omega

/-- The days from March are those of the year. -/
theorem dayOfYear_lt (first : 0 ≤ day) (last : day < 146097) :
    dayOfYear day < yearLength (yearOfEra day + 1) := by
  by_cases isLast : day = 146096
  · rw [isLast, yearOfEra_last, dayOfYear_last]
    decide
  · have split := split_day first (by omega)
    rw [split.dayOfYear_eq, split.yearOfEra_eq]
    unfold yearLength leap
    split_ifs
    · omega
    · omega

end Calendar
