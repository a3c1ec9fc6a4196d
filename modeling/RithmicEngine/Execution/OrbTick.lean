import Mathlib.Data.Rat.Defs
/-!
# Ticks and the Eastern clock

A trade print as the strategies and the paper brokers receive it, and the Eastern
wall clock its time is read on. The offset follows the daylight-saving rule of the
United States; the calendar of an instant is the proleptic Gregorian one of the C
library. Times are microseconds since 1970.
-/
namespace RithmicEngine

structure OrbTick where
  tsMicros : Int
  price : ℚ
  size : Int := 1
  isBuy : Bool := true
  deriving DecidableEq, Repr

/-- The calendar fields of an instant that the offset rule reads. -/
structure UtcTime where
  year : Int
  month : Int
  mday : Int
  hour : Int
  deriving DecidableEq, Repr

/-- The calendar of a second since 1970. Years are counted from March, so that the
leap day is the last one, and in eras of four centuries. -/
def gmtime (sec : Int) : UtcTime :=
  let days := sec / 86400 + 719468
  let era := days / 146097
  let dayOfEra := days % 146097
  let yearOfEra :=
    (dayOfEra - dayOfEra / 1460 + dayOfEra / 36524 - dayOfEra / 146096) / 365
  let dayOfYear := dayOfEra - (365 * yearOfEra + yearOfEra / 4 - yearOfEra / 100)
  let monthFromMarch := (5 * dayOfYear + 2) / 153
  let month := if monthFromMarch < 10 then monthFromMarch + 3 else monthFromMarch - 9
  { year := yearOfEra + era * 400 + (if month ≤ 2 then 1 else 0)
    month := month
    mday := dayOfYear - (153 * monthFromMarch + 2) / 5 + 1
    hour := sec % 86400 / 3600 }

example : gmtime 1746021600 = ⟨2025, 4, 30, 14⟩ := by decide

/-- The weekday of the first of a month, zero for Sunday. -/
def firstDow (year month : Int) : Int :=
  let year := if month < 3 then year - 1 else year
  let row : Int := [0, 3, 2, 5, 0, 3, 5, 1, 4, 6, 2, 4].getD (month - 1).toNat 0
  (year + year.tdiv 4 - year.tdiv 100 + year.tdiv 400 + row + 1).tmod 7

example : firstDow 2025 11 = 6 := by decide

/-- Hours the Eastern clock is behind: four from the second Sunday of March, 07:00,
to the first Sunday of November, 06:00, and five outside. -/
def usEtOffset (utc : UtcTime) : Int :=
  if utc.month < 3 ∨ utc.month > 11 then 5
  else if utc.month > 3 ∧ utc.month < 11 then 4
  else if utc.month = 3 then
    let fd := firstDow utc.year 3
    let secondSun := (if fd = 0 then 1 else 8 - fd) + 7
    if utc.mday < secondSun then 5
    else if utc.mday > secondSun then 4
    else if utc.hour ≥ 7 then 4 else 5
  else
    let fd := firstDow utc.year 11
    let firstSun := if fd = 0 then 1 else 8 - fd
    if utc.mday < firstSun then 4
    else if utc.mday > firstSun then 5
    else if utc.hour < 6 then 4 else 5

/-- The Eastern hour and minute of a tick time. -/
def utcToEt (tsMicros : Int) : Int × Int :=
  let sec := tsMicros.tdiv 1000000
  let et := sec - usEtOffset (gmtime sec) * 3600
  let hour := (et.tdiv 3600).tmod 24
  (if hour < 0 then hour + 24 else hour, (et.tmod 3600).tdiv 60)

example : utcToEt 1746021600000000 = (10, 0) := by decide

/-! ## Minutes of the Eastern wall clock, counted from a midnight -/

def etHour (clock : Int) : Int := clock / 60 % 24

def etMinute (clock : Int) : Int := clock % 60

/-- The trading date, which rolls at 18:00. -/
def tradingDate (clock : Int) : Int := (clock + 6 * 60) / (24 * 60)

end RithmicEngine
