import RithmicEngine.Paper.TradingDays
/-!
# The daylight-saving rule

Every session, window and trading day asks one function for the offset of Eastern time. It
computes the weekday of a month's first from a table and compares days and hours. On the
calendar counted from 1970 the offset is four between two instants of each year, the changes
of the clocks.
-/
namespace RithmicEngine

open Calendar

/-- The second Sunday of March at 07:00 UTC, in seconds since 1970. -/
def springForward (year : Int) : Int := (sundayFrom (marchFirst year) + 7) * 86400 + 7 * 3600

/-- The first Sunday of November at 06:00 UTC. -/
def fallBack (year : Int) : Int := sundayFrom (novemberFirst year) * 86400 + 6 * 3600

namespace TradingDays

variable {sec year : Int}

/-! ## The broken-down time on the calendar -/

/-- The year and the day from March of a second give its day. -/
theorem day_eq (sec : Int) : sec / 86400 = marchStart (marchYear sec) + marchDay sec := by
  obtain ⟨first, last⟩ := dayOfEra_range sec
  obtain ⟨low, high⟩ := yearOfEra_range first last
  have split : sec / 86400 + 719468 = era sec * 146097 + dayOfEra sec := by
    unfold era dayOfEra
    omega
  unfold marchStart marchYear marchDay dayOfYear
  omega

theorem yearLength_era (year era : Int) : yearLength (year + era * 400) = yearLength year := by
  have same : leap (year + era * 400) ↔ leap year := by
    unfold leap
    omega
  exact if_congr same rfl rfl

theorem marchDay_lt (sec : Int) : marchDay sec < yearLength (marchYear sec + 1) := by
  obtain ⟨first, last⟩ := dayOfEra_range sec
  have year : marchYear sec + 1 = yearOfEra (dayOfEra sec) + 1 + era sec * 400 := by
    unfold marchYear
    omega
  rw [year, yearLength_era]
  exact dayOfYear_lt first last

/-- January and February are of the year after the March before them. -/
theorem year_eq (sec : Int) :
    (gmtime sec).year = if marchDay sec < 306 then marchYear sec else marchYear sec + 1 := by
  obtain ⟨low, high⟩ := marchDay_range sec
  rw [gmtime_eq]
  unfold marchYear
  change _ + (if monthOf (monthFromMarch (marchDay sec)) ≤ 2 then 1 else 0) = _
  generalize marchDay sec = n at *
  unfold monthOf monthFromMarch
  split_ifs
  all_goals omega

/-- The year of the broken-down time is that in which the instant is. -/
theorem year_exact (after : 0 ≤ sec) : 1970 ≤ (gmtime sec).year ∧
    yearStart (gmtime sec).year ≤ sec / 86400 ∧
      sec / 86400 < yearStart ((gmtime sec).year + 1) := by
  have day := day_eq sec
  have inYear := marchDay_lt sec
  have next := marchStart_next (marchYear sec)
  obtain ⟨low, high⟩ := marchDay_range sec
  have since : 1970 ≤ (gmtime sec).year := by
    rw [year_eq]
    unfold marchStart at day
    split_ifs
    · omega
    · omega
  refine ⟨since, ?_⟩
  rw [yearStart_eq since, yearStart_eq (by omega), Int.add_sub_cancel]
  rw [year_eq] at since ⊢
  split_ifs at since ⊢ with early
  · have before := marchStart_next (marchYear sec - 1)
    rw [Int.sub_add_cancel] at before
    unfold yearLength at before
    split_ifs at before
    · omega
    · omega
  · rw [Int.add_sub_cancel]
    omega

/-- The weekday formula stays within 32 bits at every instant that 64 bits of microseconds
can name. -/
theorem weekday_sum_fits (after : 0 ≤ sec) (named : sec * 1000000 < 2 ^ 63) :
    (gmtime sec).year + (gmtime sec).year / 4 - (gmtime sec).year / 100 +
      (gmtime sec).year / 400 + 6 + 1 < 2 ^ 31 := by
  obtain ⟨since, starts, _⟩ := year_exact after
  rw [yearStart_eq since] at starts
  unfold marchStart at starts
  omega

/-! ## The Sundays -/

/-- The weekday formula for the two months in which the clocks change. -/
theorem firstDow_eq (positive : 0 ≤ year) {month : Int} (known : month = 3 ∨ month = 11) :
    firstDow year month = (year + year / 4 - year / 100 + year / 400 + 3) % 7 := by
  have quotients : year.tdiv 4 = year / 4 ∧ year.tdiv 100 = year / 100 ∧
      year.tdiv 400 = year / 400 := by
    refine ⟨?_, ?_, ?_⟩
    all_goals exact Int.tdiv_eq_ediv_of_nonneg positive
  have sum : 0 ≤ year + year / 4 - year / 100 + year / 400 + 2 + 1 := by omega
  rcases known with rfl | rfl
  · change (year + year.tdiv 4 - year.tdiv 100 + year.tdiv 400 + 2 + 1).tmod 7 = _
    rw [quotients.1, quotients.2.1, quotients.2.2, Int.tmod_eq_emod_of_nonneg sum]
    omega
  · change (year + year.tdiv 4 - year.tdiv 100 + year.tdiv 400 + 2 + 1).tmod 7 = _
    rw [quotients.1, quotients.2.1, quotients.2.2, Int.tmod_eq_emod_of_nonneg sum]
    omega

/-- It is the count of days from a Thursday. -/
theorem firstDow_march (positive : 0 ≤ year) :
    firstDow year 3 = weekday (marchStart year) := by
  rw [firstDow_eq positive (.inl rfl)]
  unfold weekday marchStart
  omega

theorem firstDow_november (positive : 0 ≤ year) :
    firstDow year 11 = weekday (marchStart year + 245) := by
  rw [firstDow_eq positive (.inr rfl)]
  unfold weekday marchStart
  omega

theorem springSunday_eq (positive : 0 ≤ year) :
    marchStart year + springSunday year - 1 = sundayFrom (marchStart year) + 7 := by
  unfold springSunday sundayFrom
  rw [firstDow_march positive]
  unfold weekday
  split_ifs
  · omega
  · omega

theorem autumnSunday_eq (positive : 0 ≤ year) :
    marchStart year + 245 + autumnSunday year - 1 = sundayFrom (marchStart year + 245) := by
  unfold autumnSunday sundayFrom
  rw [firstDow_november positive]
  unfold weekday
  split_ifs
  · omega
  · omega

/-! ## The rule -/

/-- From March to December the year is that of the March before. -/
theorem offset_from_march (after : 0 ≤ sec) (late : marchDay sec < 306)
    (since : 1970 ≤ marchYear sec) : usEtOffset (gmtime sec) =
      if springForward (marchYear sec) ≤ sec ∧ sec < fallBack (marchYear sec) then 4 else 5 := by
  have day := day_eq sec
  have spring := springSunday_eq (marchYear_nonneg after)
  have autumn := autumnSunday_eq (marchYear_nonneg after)
  have springRange := springSunday_range (marchYear_nonneg after)
  have autumnRange := autumnSunday_range (marchYear_nonneg after)
  have cases_ := offset_cases sec
  unfold Daylight at cases_
  have november : novemberFirst (marchYear sec) = marchStart (marchYear sec) + 245 := by
    unfold novemberFirst
    rw [marchFirst_eq since]
    omega
  unfold springForward fallBack
  rw [november, marchFirst_eq since, ← autumn, ← spring]
  split_ifs
  · omega
  · omega

/-- In January and February the clocks have not gone forward yet. -/
theorem offset_before_march (early : 306 ≤ marchDay sec)
    (since : 1970 ≤ marchYear sec + 1) :
    usEtOffset (gmtime sec) = 5 ∧ sec < springForward (marchYear sec + 1) := by
  have day := day_eq sec
  have inYear := marchDay_lt sec
  have next := marchStart_next (marchYear sec)
  have cases_ := offset_cases sec
  unfold Daylight at cases_
  obtain ⟨_, sunday, _⟩ := sundayFrom_first (marchStart (marchYear sec + 1))
  unfold springForward
  rw [marchFirst_eq since]
  omega

end TradingDays

open TradingDays

/-- At every instant from 1970 on the offset is four exactly from the second Sunday of March,
07:00 UTC, to the first Sunday of November, 06:00 UTC, of the year of the instant, and five
otherwise. -/
theorem offset_follows_rule {sec : Int} (after : 0 ≤ sec) :
    (yearStart (gmtime sec).year * 86400 ≤ sec ∧
        sec < yearStart ((gmtime sec).year + 1) * 86400) ∧
      usEtOffset (gmtime sec) =
        if springForward (gmtime sec).year ≤ sec ∧ sec < fallBack (gmtime sec).year then 4
        else 5 := by
  obtain ⟨since, starts, ends⟩ := year_exact after
  refine ⟨by omega, ?_⟩
  by_cases late : marchDay sec < 306
  · have year : (gmtime sec).year = marchYear sec := by rw [year_eq, if_pos late]
    rw [year] at since ⊢
    exact offset_from_march after late since
  · have year : (gmtime sec).year = marchYear sec + 1 := by rw [year_eq, if_neg late]
    rw [year] at since ⊢
    obtain ⟨winter, before⟩ := offset_before_march (Int.not_lt.mp late) since
    rw [winter, if_neg fun within => absurd within.1 (Int.not_le.mpr before)]

theorem offset_follows_rule_in_spring : usEtOffset (gmtime 1741503600) = 4 :=
  (offset_follows_rule (by decide)).2.trans (by decide)

example : springForward 2025 = 1741503600 ∧ fallBack 2025 = 1762063200 := by decide

end RithmicEngine
