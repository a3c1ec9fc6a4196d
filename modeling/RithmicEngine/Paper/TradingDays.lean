import Mathlib.Order.Bounds.Basic
import RithmicEngine.Base.Calendar
import RithmicEngine.Paper.PaperEngine
/-!
# Trading days

A trading day begins at 18:00 Eastern. Its date is derived in two places, and its start in a
third, each with the offset of the instant it is asked about. The start is wrong between a
change of the clocks and the next 18:00, since the offset was another one when the day began.
-/
namespace RithmicEngine

open Calendar

/-- A date as its numerals. -/
def strftimeDate (tm : UtcTime) : String :=
  String.ofList (Numerals.integer tm.year ++ '-' :: Numerals.padded 2 tm.month.toNat ++
    '-' :: Numerals.padded 2 tm.mday.toNat)

/-- The trading day of a second since 1970, as the live executor derives it. -/
def tradingDateStr (tt : Int) : String :=
  let et := tt - usEtOffset (gmtime tt) * 3600
  strftimeDate (gmtime (if (gmtime et).hour ≥ 18 then et + 24 * 3600 else et))

/-- The instant at which the trading day begins, as the paper engine derives it. -/
def etDayStartUs (tsUs : Int) : Int :=
  let sec := tsUs.tdiv 1000000
  let off := usEtOffset (gmtime sec)
  let et := sec - off * 3600
  let etMidnight := et.tdiv 86400 * 86400
  let today := etMidnight + 18 * 3600
  let boundaryEt := if et < today then today - 86400 else today
  (boundaryEt + off * 3600) * 1000000

namespace TradingDays

/-! ## The date of a second -/

/-- The day of its era, counted from March, in which a second is. -/
def dayOfEra (sec : Int) : Int := (sec / 86400 + 719468) % 146097

def era (sec : Int) : Int := (sec / 86400 + 719468) / 146097

variable {s n t tsUs year : Int} (sec : Int)

theorem dayOfEra_range : 0 ≤ dayOfEra sec ∧ dayOfEra sec < 146097 := by
  unfold dayOfEra
  omega

/-- The months from March, counted from January. -/
def monthOf (fromMarch : Int) : Int := if fromMarch < 10 then fromMarch + 3 else fromMarch - 9

theorem gmtime_eq :
    gmtime sec =
    { year := yearOfEra (dayOfEra sec) + era sec * 400 +
        (if monthOf (monthFromMarch (dayOfYear (dayOfEra sec))) ≤ 2 then 1 else 0)
      month := monthOf (monthFromMarch (dayOfYear (dayOfEra sec)))
      mday := dayOfMonth (dayOfYear (dayOfEra sec))
      hour := sec % 86400 / 3600 } :=
  rfl

/-- The date does not depend on the time of the day. -/
theorem gmtime_sameDay (same : s / 86400 = t / 86400) :
    gmtime s = { gmtime t with hour := s % 86400 / 3600 } := by
  unfold gmtime
  rw [same]

theorem month_range : 1 ≤ (gmtime sec).month ∧ (gmtime sec).month ≤ 12 := by
  obtain ⟨first, last⟩ := dayOfEra_range sec
  obtain ⟨low, high⟩ := dayOfYear_range first last
  obtain ⟨lowMonth, highMonth⟩ := monthFromMarch_range low high
  rw [gmtime_eq]
  unfold monthOf
  dsimp only
  split_ifs
  · omega
  · omega

theorem mday_range : 1 ≤ (gmtime sec).mday ∧ (gmtime sec).mday ≤ 31 :=
  dayOfMonth_range _

/-- A date is that of one day only. -/
theorem day_of_date (years : (gmtime s).year = (gmtime t).year)
    (months : (gmtime s).month = (gmtime t).month) (mdays : (gmtime s).mday = (gmtime t).mday) :
    s / 86400 = t / 86400 := by
  obtain ⟨firstS, lastS⟩ := dayOfEra_range s
  obtain ⟨firstT, lastT⟩ := dayOfEra_range t
  obtain ⟨lowS, highS⟩ := dayOfYear_range firstS lastS
  obtain ⟨lowT, highT⟩ := dayOfYear_range firstT lastT
  obtain ⟨lowMonthS, highMonthS⟩ := monthFromMarch_range lowS highS
  obtain ⟨lowMonthT, highMonthT⟩ := monthFromMarch_range lowT highT
  obtain ⟨lowYearS, highYearS⟩ := yearOfEra_range firstS lastS
  obtain ⟨lowYearT, highYearT⟩ := yearOfEra_range firstT lastT
  rw [gmtime_eq, gmtime_eq] at years months mdays
  dsimp only at years months mdays
  have sameMonth : monthFromMarch (dayOfYear (dayOfEra s)) =
      monthFromMarch (dayOfYear (dayOfEra t)) := by
    unfold monthOf at months
    omega
  rw [months] at years
  have sameEra : era s = era t := by omega
  have sameYear : yearOfEra (dayOfEra s) = yearOfEra (dayOfEra t) := by omega
  have sameDay := day_injective sameYear (dayOfYear_injective sameMonth mdays)
  unfold era dayOfEra at *
  omega

/-! ## The date as text -/

theorem padded_length (low : 1 ≤ n) (high : n ≤ 31) : (Numerals.padded 2 n.toNat).length = 2 :=
  Numerals.length_padded 2 n.toNat (by decide) (by omega)

theorem padded_injective {m : Int} (lowM : 1 ≤ m) (lowN : 1 ≤ n)
    (same : Numerals.padded 2 m.toNat = Numerals.padded 2 n.toNat) : m = n := by
  have values := congrArg Numerals.value same
  rw [Numerals.value_padded, Numerals.value_padded] at values
  omega

theorem integer_injective {m : Int} (same : Numerals.integer m = Numerals.integer n) : m = n := by
  have read := congrArg Numerals.readInteger same
  rw [Numerals.readInteger_integer, Numerals.readInteger_integer] at read
  exact Option.some.inj read

/-- Instants of different days have different dates. -/
theorem strftimeDate_gmtime :
    strftimeDate (gmtime s) = strftimeDate (gmtime t) ↔ s / 86400 = t / 86400 := by
  constructor
  · intro same
    obtain ⟨lowMonthS, highMonthS⟩ := month_range s
    obtain ⟨lowMonthT, highMonthT⟩ := month_range t
    obtain ⟨lowS, highS⟩ := mday_range s
    obtain ⟨lowT, highT⟩ := mday_range t
    have texts := String.ofList_injective same
    have days := List.append_inj' texts (by
      rw [List.length_cons, List.length_cons, padded_length lowS highS, padded_length lowT highT])
    have months := List.append_inj' days.1 (by
      rw [List.length_cons, List.length_cons, padded_length lowMonthS (by omega),
        padded_length lowMonthT (by omega)])
    exact day_of_date (integer_injective months.1)
      (padded_injective lowMonthS lowMonthT (List.cons.inj months.2).2)
      (padded_injective lowS lowT (List.cons.inj days.2).2)
  · intro same
    rw [gmtime_sameDay same]
    rfl

/-! ## The offset of a second -/

/-- The Sundays on which the clocks change, as days of March and of November. -/
def springSunday (year : Int) : Int :=
  (if firstDow year 3 = 0 then 1 else 8 - firstDow year 3) + 7

def autumnSunday (year : Int) : Int :=
  if firstDow year 11 = 0 then 1 else 8 - firstDow year 11

/-- The weekday of a month's first day is from 0 to 6. -/
theorem firstDow_range (positive : 0 ≤ year) {month : Int} (known : month = 3 ∨ month = 11) :
    0 ≤ firstDow year month ∧ firstDow year month < 7 := by
  have sum (row : Int) (positiveRow : 0 ≤ row) :
      0 ≤ year + year.tdiv 4 - year.tdiv 100 + year.tdiv 400 + row + 1 := by
    rw [Int.tdiv_eq_ediv_of_nonneg positive, Int.tdiv_eq_ediv_of_nonneg positive,
      Int.tdiv_eq_ediv_of_nonneg positive]
    omega
  rcases known with rfl | rfl
  · exact ⟨Int.tmod_nonneg 7 (sum 2 (by decide)), Int.tmod_lt_of_pos _ (by decide)⟩
  · exact ⟨Int.tmod_nonneg 7 (sum 2 (by decide)), Int.tmod_lt_of_pos _ (by decide)⟩

theorem springSunday_range (positive : 0 ≤ year) :
    8 ≤ springSunday year ∧ springSunday year ≤ 14 := by
  obtain ⟨low, high⟩ := firstDow_range positive (.inl rfl)
  unfold springSunday
  split_ifs
  · omega
  · omega

theorem autumnSunday_range (positive : 0 ≤ year) :
    1 ≤ autumnSunday year ∧ autumnSunday year ≤ 7 := by
  obtain ⟨low, high⟩ := firstDow_range positive (.inr rfl)
  unfold autumnSunday
  split_ifs
  · omega
  · omega

/-- The year, counted from March, in which a second is. -/
def marchYear (sec : Int) : Int := yearOfEra (dayOfEra sec) + era sec * 400

theorem marchYear_nonneg {sec : Int} (after : 0 ≤ sec) : 0 ≤ marchYear sec := by
  obtain ⟨first, last⟩ := dayOfEra_range sec
  obtain ⟨low, _⟩ := yearOfEra_range first last
  unfold marchYear era
  omega

/-- The day of its year, counted from March, in which a second is. -/
def marchDay (sec : Int) : Int := dayOfYear (dayOfEra sec)

theorem marchDay_range : 0 ≤ marchDay sec ∧ marchDay sec ≤ 365 :=
  dayOfYear_range (dayOfEra_range sec).1 (dayOfEra_range sec).2

/-- A date between March and December in terms of the days from March. -/
theorem gmtime_march :
    ((gmtime sec).month = 3 ↔ marchDay sec < 31) ∧
      ((gmtime sec).month = 11 ↔ 245 ≤ marchDay sec ∧ marchDay sec < 275) ∧
      ((gmtime sec).month < 3 ∨ (gmtime sec).month > 11 ↔ 275 ≤ marchDay sec) ∧
      (marchDay sec < 31 → (gmtime sec).mday = marchDay sec + 1) ∧
      (245 ≤ marchDay sec ∧ marchDay sec < 275 → (gmtime sec).mday = marchDay sec - 244) ∧
      (marchDay sec < 306 → (gmtime sec).year = marchYear sec) := by
  obtain ⟨low, high⟩ := marchDay_range sec
  rw [gmtime_eq]
  unfold marchYear
  change 0 ≤ dayOfYear (dayOfEra sec) at low
  change dayOfYear (dayOfEra sec) ≤ 365 at high
  change (_ ↔ dayOfYear (dayOfEra sec) < 31) ∧ (_ ↔ 245 ≤ dayOfYear (dayOfEra sec) ∧
    dayOfYear (dayOfEra sec) < 275) ∧ (_ ↔ 275 ≤ dayOfYear (dayOfEra sec)) ∧
    (dayOfYear (dayOfEra sec) < 31 → _ = dayOfYear (dayOfEra sec) + 1) ∧
    (245 ≤ dayOfYear (dayOfEra sec) ∧ dayOfYear (dayOfEra sec) < 275 →
      _ = dayOfYear (dayOfEra sec) - 244) ∧ (dayOfYear (dayOfEra sec) < 306 → _)
  generalize dayOfYear (dayOfEra sec) = n at low high ⊢
  dsimp only
  unfold monthOf dayOfMonth monthFromMarch
  refine ⟨?_, ?_, ?_, ?_, ?_, ?_⟩
  · split_ifs <;> omega
  · split_ifs <;> omega
  · split_ifs <;> omega
  · omega
  · omega
  · intro early
    split_ifs <;> omega

/-- Daylight time, with the days counted from March. -/
def Daylight (spring autumn day hour : Int) : Prop :=
  (31 ≤ day ∨ spring < day + 1 ∨ day + 1 = spring ∧ 7 ≤ hour) ∧
    (day < 245 ∨ day < 275 ∧ (day - 244 < autumn ∨ day - 244 = autumn ∧ hour < 6))

/-- The offset is four hours between the two Sundays and five outside. -/
theorem offset_cases :
    Daylight (springSunday (marchYear sec)) (autumnSunday (marchYear sec)) (marchDay sec)
        (sec % 86400 / 3600) ∧ usEtOffset (gmtime sec) = 4 ∨
      ¬Daylight (springSunday (marchYear sec)) (autumnSunday (marchYear sec)) (marchDay sec)
        (sec % 86400 / 3600) ∧ usEtOffset (gmtime sec) = 5 := by
  obtain ⟨march, november, winter, mday, mdayNov, year⟩ := gmtime_march sec
  have hour : (gmtime sec).hour = sec % 86400 / 3600 := rfl
  obtain ⟨low, high⟩ := marchDay_range sec
  unfold usEtOffset Daylight
  dsimp only
  rw [hour]
  by_cases cold : 275 ≤ marchDay sec
  · rw [if_pos (winter.mpr cold)]
    omega
  · rw [if_neg (mt winter.mp cold), year (by omega)]
    by_cases inMarch : marchDay sec < 31
    · have isMarch := march.mpr inMarch
      rw [if_neg (by omega), if_pos isMarch, mday inMarch]
      change _ ∧ (if _ < springSunday _ then _ else if _ > springSunday _ then _ else _) = _ ∨
        _ ∧ (if _ < springSunday _ then _ else if _ > springSunday _ then _ else _) = _
      split_ifs <;> omega
    · by_cases inNovember : 245 ≤ marchDay sec
      · have isNovember := november.mpr ⟨inNovember, by omega⟩
        rw [if_neg (by omega), if_neg (by omega), mdayNov ⟨inNovember, by omega⟩]
        change _ ∧ (if _ < autumnSunday _ then _ else if _ > autumnSunday _ then _ else _) = _ ∨
          _ ∧ (if _ < autumnSunday _ then _ else if _ > autumnSunday _ then _ else _) = _
        split_ifs <;> omega
      · rw [if_pos (by omega)]
        omega

theorem offset_range : usEtOffset (gmtime sec) = 4 ∨ usEtOffset (gmtime sec) = 5 :=
  (offset_cases sec).imp And.right And.right

/-- The offset does not change late on a day. -/
theorem offset_late (same : s / 86400 = t / 86400) (lateS : 25200 ≤ s % 86400)
    (lateT : 25200 ≤ t % 86400) : usEtOffset (gmtime s) = usEtOffset (gmtime t) := by
  have days : dayOfEra s = dayOfEra t := by
    unfold dayOfEra
    rw [same]
  have eras : era s = era t := by
    unfold era
    rw [same]
  have casesS := offset_cases s
  have casesT := offset_cases t
  unfold Daylight marchDay marchYear at casesS casesT
  rw [days, eras] at casesS
  omega

/-- The clocks were changed earlier on the day. -/
def Changed (tm : UtcTime) : Prop :=
  tm.month = 3 ∧ tm.mday = springSunday tm.year ∧ 7 ≤ tm.hour ∨
    tm.month = 11 ∧ tm.mday = autumnSunday tm.year ∧ 6 ≤ tm.hour

/-- The clocks have changed today on the two Sundays, from the hour of the change on. -/
theorem changed_iff :
    Changed (gmtime sec) ↔
    marchDay sec < 31 ∧ marchDay sec + 1 = springSunday (marchYear sec) ∧
        7 ≤ sec % 86400 / 3600 ∨
      (245 ≤ marchDay sec ∧ marchDay sec < 275) ∧
        marchDay sec - 244 = autumnSunday (marchYear sec) ∧ 6 ≤ sec % 86400 / 3600 := by
  obtain ⟨march, november, _, mday, mdayNov, year⟩ := gmtime_march sec
  have hour : (gmtime sec).hour = sec % 86400 / 3600 := rfl
  unfold Changed
  rw [hour, march, november]
  by_cases inMarch : marchDay sec < 31
  · rw [mday inMarch, year (by omega)]
    omega
  · by_cases inNovember : 245 ≤ marchDay sec ∧ marchDay sec < 275
    · rw [mdayNov inNovember, year (by omega)]
      omega
    · omega

/-- The next day is the next one of the year or its first, with another year. -/
theorem marchDay_next (next : t / 86400 = s / 86400 + 1) :
    marchDay t = marchDay s + 1 ∧ marchYear t = marchYear s ∨
      marchDay t = 0 ∧ 364 ≤ marchDay s := by
  obtain ⟨first, last⟩ := dayOfEra_range s
  unfold marchDay marchYear
  by_cases endOfEra : dayOfEra s = 146096
  · have newEra : dayOfEra t = 0 := by
      unfold dayOfEra at endOfEra ⊢
      omega
    rw [endOfEra, newEra]
    exact .inr (by decide)
  · have later : dayOfEra t = dayOfEra s + 1 := by
      unfold dayOfEra at endOfEra ⊢
      omega
    have eras : era t = era s := by
      unfold era dayOfEra at *
      omega
    rw [later, eras]
    rcases dayOfYear_next first (by omega) with ⟨day, year⟩ | newYear
    · exact .inl ⟨day, by rw [year]⟩
    · exact .inr newYear

/-- From late on one day to a time of the next the offset changes where the clocks do. -/
theorem offset_midnight (after : 0 ≤ s) (next : t / 86400 = s / 86400 + 1)
    (late : 25200 ≤ s % 86400) :
    usEtOffset (gmtime s) = usEtOffset (gmtime t) ↔ ¬Changed (gmtime t) := by
  have springS := springSunday_range (marchYear_nonneg after)
  have autumnS := autumnSunday_range (marchYear_nonneg after)
  have afterT : 0 ≤ t := by omega
  have springT := springSunday_range (marchYear_nonneg afterT)
  have autumnT := autumnSunday_range (marchYear_nonneg afterT)
  have days := marchDay_next next
  have lowS := marchDay_range s
  have lowT := marchDay_range t
  have casesS := offset_cases s
  have casesT := offset_cases t
  rw [changed_iff]
  unfold Daylight at casesS casesT
  rcases days with ⟨day, year⟩ | ⟨day, last⟩
  · rw [year] at casesT springT autumnT ⊢
    rw [day] at casesT ⊢
    rcases casesS with ⟨summer, isS⟩ | ⟨winter, isS⟩
    · rcases casesT with ⟨still, isT⟩ | ⟨ends, isT⟩
      · rw [isS, isT]
        omega
      · rw [isS, isT]
        omega
    · rcases casesT with ⟨starts, isT⟩ | ⟨still, isT⟩
      · rw [isS, isT]
        omega
      · rw [isS, isT]
        omega
  · rw [day] at casesT ⊢
    omega

/-! ## The trading day of a second -/

/-- The Eastern wall clock as a second since 1970. -/
def etSec (sec : Int) : Int := sec - usEtOffset (gmtime sec) * 3600

/-- The number of the trading day. -/
def tradeDay (sec : Int) : Int := (etSec sec + 21600) / 86400

/-- Of two instants the later one is never on an earlier trading day. -/
theorem tradeDay_mono (le : s ≤ t) : tradeDay s ≤ tradeDay t := by
  unfold tradeDay etSec
  by_contra earlier
  have offsetS := offset_range s
  have offsetT := offset_range t
  -- Only where the clocks go back can the wall clock, and 18:00 is late on the day.
  have same : s / 86400 = t / 86400 := by omega
  have unchanged := offset_late same (by omega) (by omega)
  omega

/-- The day that the paper engine names by its date. -/
def namedDay (tsUs : Int) : Int :=
  (if (utcToEt tsUs).1 ≥ 18 then etSec (tsUs.tdiv 1000000) + 86400
    else etSec (tsUs.tdiv 1000000)) / 86400

theorem etTradeDate_eq_iff : etTradeDate s = etTradeDate t ↔ namedDay s = namedDay t :=
  strftimeDate_gmtime

/-- The hour of the Eastern clock. -/
theorem utcToEt_hour (clock : 0 ≤ etSec (tsUs.tdiv 1000000)) :
    (utcToEt tsUs).1 = etSec (tsUs.tdiv 1000000) / 3600 % 24 := by
  have hours : ((etSec (tsUs.tdiv 1000000)).tdiv 3600).tmod 24 =
      etSec (tsUs.tdiv 1000000) / 3600 % 24 := by
    rw [Int.tdiv_eq_ediv_of_nonneg clock, Int.tmod_eq_emod_of_nonneg (by omega)]
  change (if ((etSec (tsUs.tdiv 1000000)).tdiv 3600).tmod 24 < 0 then _ else
    ((etSec (tsUs.tdiv 1000000)).tdiv 3600).tmod 24) = _
  rw [hours, if_neg (by omega)]

theorem namedDay_eq {tsUs : Int} (clock : 0 ≤ etSec (tsUs.tdiv 1000000)) :
    namedDay tsUs = tradeDay (tsUs.tdiv 1000000) := by
  unfold namedDay tradeDay
  rw [utcToEt_hour clock]
  split_ifs
  · omega
  · omega

/-- In the first hours of 1970 the offset is five. -/
theorem offset_first {sec : Int} (after : 0 ≤ sec) (before : sec < 86400) :
    usEtOffset (gmtime sec) = 5 := by
  have midnight : gmtime sec = { gmtime 0 with hour := sec % 86400 / 3600 } :=
    gmtime_sameDay (by omega)
  have january : (gmtime 0).month < 3 := by decide
  rw [midnight]
  exact if_pos (.inl january)

/-- Before 23:00 UTC on the first of January 1970 it was that date or an earlier one. -/
theorem namedDay_early (early : tsUs.tdiv 1000000 < 82800) : namedDay tsUs ≤ 0 := by
  rcases Int.lt_or_le (tsUs.tdiv 1000000) 0 with before | after
  · have offset := offset_range (tsUs.tdiv 1000000)
    unfold namedDay etSec
    split_ifs
    · omega
    · omega
  · have offset := offset_first after (by omega)
    rcases Int.lt_or_le (etSec (tsUs.tdiv 1000000)) 0 with evening | clock
    · unfold namedDay
      split_ifs
      · omega
      · omega
    · rw [namedDay_eq clock]
      unfold tradeDay etSec
      omega

theorem etSec_late {sec : Int} (late : 82800 ≤ sec) : 64800 ≤ etSec sec := by
  unfold etSec
  rcases Int.lt_or_le sec 86400 with first | later
  · rw [offset_first (by omega) first]
    omega
  · have offset := offset_range sec
    omega

theorem namedDay_late (late : 82800 ≤ tsUs.tdiv 1000000) :
    namedDay tsUs = tradeDay (tsUs.tdiv 1000000) ∧ 1 ≤ namedDay tsUs := by
  have clock := etSec_late late
  have day := namedDay_eq (by omega : 0 ≤ etSec (tsUs.tdiv 1000000))
  rw [day]
  unfold tradeDay
  omega

/-! ## The start of the day -/

/-- The last 18:00 in seconds since 1970, by the offset of the second asked about. -/
def boundary (sec : Int) : Int :=
  (etSec sec - 64800) / 86400 * 86400 + 64800 + usEtOffset (gmtime sec) * 3600

theorem boundary_near : boundary sec ≤ sec ∧ sec < boundary sec + 86400 := by
  unfold boundary etSec
  omega

/-- 18:00 is 22:00 or 23:00 UTC. -/
theorem boundary_hour :
    usEtOffset (gmtime sec) = 4 ∧ boundary sec % 86400 = 79200 ∨
      usEtOffset (gmtime sec) = 5 ∧ boundary sec % 86400 = 82800 := by
  have offset := offset_range sec
  unfold boundary
  omega

theorem boundary_late {sec : Int} (late : 82800 ≤ sec) : 79200 ≤ boundary sec := by
  have clock := etSec_late late
  have offset := offset_range sec
  unfold boundary
  omega

/-- The start of the day is its boundary in whole seconds. -/
theorem etDayStartUs_eq (clock : 0 ≤ etSec (tsUs.tdiv 1000000)) :
    etDayStartUs tsUs = boundary (tsUs.tdiv 1000000) * 1000000 := by
  have unfolded : etDayStartUs tsUs =
      ((if etSec (tsUs.tdiv 1000000) <
            (etSec (tsUs.tdiv 1000000)).tdiv 86400 * 86400 + 18 * 3600 then
          (etSec (tsUs.tdiv 1000000)).tdiv 86400 * 86400 + 18 * 3600 - 86400
        else (etSec (tsUs.tdiv 1000000)).tdiv 86400 * 86400 + 18 * 3600) +
        usEtOffset (gmtime (tsUs.tdiv 1000000)) * 3600) * 1000000 := rfl
  rw [unfolded, Int.tdiv_eq_ediv_of_nonneg clock]
  unfold boundary
  split_ifs
  · omega
  · omega

/-- Just before the day begins the offset is that of its beginning. -/
theorem offset_before_boundary :
    usEtOffset (gmtime (boundary sec - 1)) = usEtOffset (gmtime (boundary sec)) := by
  have hour := boundary_hour sec
  exact offset_late (by omega) (by omega) (by omega)

/-- The clocks were changed since the trading day began. -/
def Unsettled (tm : UtcTime) : Prop :=
  tm.month = 3 ∧ tm.mday = springSunday tm.year ∧ 7 ≤ tm.hour ∧ tm.hour < 22 ∨
    tm.month = 11 ∧ tm.mday = autumnSunday tm.year ∧ 6 ≤ tm.hour ∧ tm.hour < 23
deriving Decidable

/-- From seven on the spring Sunday the offset is four hours. -/
theorem offset_spring {tm : UtcTime} (month : tm.month = 3)
    (mday : tm.mday = springSunday tm.year) (hour : 7 ≤ tm.hour) : usEtOffset tm = 4 := by
  unfold usEtOffset
  dsimp only
  rw [if_neg (by omega), if_neg (by omega), if_pos month]
  change (if tm.mday < springSunday tm.year then _ else if tm.mday > springSunday tm.year then _
    else _) = _
  rw [if_neg (by omega), if_neg (by omega), if_pos hour]

/-- From six on the autumn Sunday the offset is five hours. -/
theorem offset_autumn {tm : UtcTime} (month : tm.month = 11)
    (mday : tm.mday = autumnSunday tm.year) (hour : 6 ≤ tm.hour) : usEtOffset tm = 5 := by
  unfold usEtOffset
  dsimp only
  rw [if_neg (by omega), if_neg (by omega), if_neg (by omega)]
  change (if tm.mday < autumnSunday tm.year then _ else if tm.mday > autumnSunday tm.year then _
    else _) = _
  rw [if_neg (by omega), if_neg (by omega), if_neg (by omega)]

/-- The day began with the offset of now unless the clocks were changed since. -/
theorem boundary_offset {sec : Int} (late : 82800 ≤ sec) :
    usEtOffset (gmtime (boundary sec)) = usEtOffset (gmtime sec) ↔ ¬Unsettled (gmtime sec) := by
  obtain ⟨begun, recent⟩ := boundary_near sec
  have begins := boundary_late late
  have hours := boundary_hour sec
  have hour : (gmtime sec).hour = sec % 86400 / 3600 := rfl
  have spring := @offset_spring (gmtime sec)
  have autumn := @offset_autumn (gmtime sec)
  rw [hour] at spring autumn
  rcases Int.lt_or_le (boundary sec / 86400) (sec / 86400) with before | same
  · rw [offset_midnight (by omega) (by omega) (by omega)]
    unfold Changed Unsettled
    rw [hour]
    refine not_congr (or_congr ?_ ?_)
    · exact ⟨fun ⟨month, mday, seven⟩ => ⟨month, mday, seven, by
        have offset := spring month mday seven
        omega⟩, fun ⟨month, mday, seven, _⟩ => ⟨month, mday, seven⟩⟩
    · exact ⟨fun ⟨month, mday, six⟩ => ⟨month, mday, six, by
        have offset := autumn month mday six
        omega⟩, fun ⟨month, mday, six, _⟩ => ⟨month, mday, six⟩⟩
  · have unchanged : usEtOffset (gmtime (boundary sec)) = usEtOffset (gmtime sec) :=
      offset_late (by omega) (by omega) (by omega)
    refine ⟨fun _ => ?_, fun _ => unchanged⟩
    unfold Unsettled
    rw [hour]
    rintro (⟨_, _, _, early⟩ | ⟨month, mday, six, early⟩)
    · omega
    · have offset := autumn month mday six
      omega

end TradingDays

open TradingDays

/-- What the derivations of the trading day owe each other at an instant: they name the same
date, the instants of that date are all those between two of them, and the day begins with the
first of them. -/
structure DaysAgree (tsUs : Int) : Prop where
  date : etTradeDate tsUs = tradingDateStr (tsUs.tdiv 1000000)
  interval : ∀ first between last, first ≤ between → between ≤ last →
    etTradeDate first = etTradeDate tsUs → etTradeDate last = etTradeDate tsUs →
    etTradeDate between = etTradeDate tsUs
  begun : etDayStartUs tsUs ≤ tsUs
  start : etTradeDate (etDayStartUs tsUs) = etTradeDate tsUs
  before : etTradeDate (etDayStartUs tsUs - 1) ≠ etTradeDate tsUs
  first : ∀ other, etTradeDate other = etTradeDate tsUs → etDayStartUs tsUs ≤ other

namespace TradingDays

variable {tsUs : Int}

/-- Both ways to name the trading day agree. -/
theorem dates_agree (clock : 0 ≤ etSec (tsUs.tdiv 1000000)) :
    etTradeDate tsUs = tradingDateStr (tsUs.tdiv 1000000) := by
  have hours : (gmtime (etSec (tsUs.tdiv 1000000))).hour = (utcToEt tsUs).1 := by
    rw [utcToEt_hour clock]
    change etSec (tsUs.tdiv 1000000) % 86400 / 3600 = _
    omega
  change strftimeDate (gmtime (if (utcToEt tsUs).1 ≥ 18 then
    etSec (tsUs.tdiv 1000000) + 86400 else etSec (tsUs.tdiv 1000000))) =
      strftimeDate (gmtime (if (gmtime (etSec (tsUs.tdiv 1000000))).hour ≥ 18 then
        etSec (tsUs.tdiv 1000000) + 24 * 3600 else etSec (tsUs.tdiv 1000000)))
  rw [hours]
  rfl

/-- Between two times of one trading date all are of that date. -/
theorem date_interval (late : 82800 ≤ tsUs.tdiv 1000000) {first between last : Int}
    (low : first ≤ between) (high : between ≤ last) (left : etTradeDate first = etTradeDate tsUs)
    (right : etTradeDate last = etTradeDate tsUs) : etTradeDate between = etTradeDate tsUs := by
  rw [etTradeDate_eq_iff] at left right ⊢
  have later := (namedDay_late late).2
  have lateFirst : 82800 ≤ first.tdiv 1000000 := by
    by_contra early
    have := namedDay_early (Int.not_le.mp early)
    omega
  have order : first.tdiv 1000000 ≤ between.tdiv 1000000 := Int.tdiv_le_tdiv (by decide) low
  have orderLast : between.tdiv 1000000 ≤ last.tdiv 1000000 := Int.tdiv_le_tdiv (by decide) high
  have dayFirst := (namedDay_late lateFirst).1
  have dayBetween := (namedDay_late (lateFirst.trans order)).1
  have dayLast := (namedDay_late ((lateFirst.trans order).trans orderLast)).1
  have after := tradeDay_mono order
  have before := tradeDay_mono orderLast
  omega

/-- From 23:00 on, the start of the day is its first instant exactly when no change of the clock
unsettles it. -/
theorem start_iff (late : 82800 ≤ tsUs.tdiv 1000000) :
    (etTradeDate (etDayStartUs tsUs) = etTradeDate tsUs ∧
        etTradeDate (etDayStartUs tsUs - 1) ≠ etTradeDate tsUs) ↔
      ¬Unsettled (gmtime (tsUs.tdiv 1000000)) := by
  have clock := etSec_late late
  have begins := boundary_late late
  have near := boundary_near (tsUs.tdiv 1000000)
  rw [← boundary_offset late, Ne, etTradeDate_eq_iff, etTradeDate_eq_iff,
    etDayStartUs_eq (by omega), (namedDay_late late).1]
  have before := offset_before_boundary (tsUs.tdiv 1000000)
  have isBoundary : boundary (tsUs.tdiv 1000000) = (etSec (tsUs.tdiv 1000000) - 64800) / 86400 *
    86400 + 64800 + usEtOffset (gmtime (tsUs.tdiv 1000000)) * 3600 := rfl
  have day : tradeDay (tsUs.tdiv 1000000) = (etSec (tsUs.tdiv 1000000) + 21600) / 86400 := rfl
  have offset := offset_range (tsUs.tdiv 1000000)
  generalize boundary (tsUs.tdiv 1000000) = start at *
  have offsetStart := offset_range start
  have seconds : (start * 1000000).tdiv 1000000 = start := Int.mul_tdiv_cancel _ (by decide)
  have earlier : (start * 1000000 - 1).tdiv 1000000 = start - 1 := by
    rw [Int.tdiv_eq_ediv_of_nonneg (by omega)]
    omega
  have dayStart := @namedDay_eq (start * 1000000)
  have dayEarlier := @namedDay_eq (start * 1000000 - 1)
  rw [seconds] at dayStart
  rw [earlier] at dayEarlier
  unfold etSec at dayStart dayEarlier
  rw [before] at dayEarlier
  rw [dayStart (by omega), dayEarlier (by omega), day]
  unfold tradeDay
  change (start - _ + 21600) / 86400 = _ ∧ ¬(start - 1 - _ + 21600) / 86400 = _ ↔ _
  rw [before]
  omega

/-- In the first hours of 1970 the day began before 1970, where seconds are rounded up. -/
theorem start_early (after : 0 ≤ tsUs) (early : tsUs.tdiv 1000000 < 82800) :
    etDayStartUs tsUs = -3600000000 := by
  have positive : 0 ≤ tsUs.tdiv 1000000 := Int.tdiv_nonneg after (by decide)
  have midnight : (tsUs.tdiv 1000000 - 5 * 3600).tdiv 86400 = 0 := by
    rcases Int.lt_or_le (tsUs.tdiv 1000000) 18000 with night | day
    · rw [← Int.neg_neg (tsUs.tdiv 1000000 - 5 * 3600), Int.neg_tdiv,
        Int.tdiv_eq_ediv_of_nonneg (by omega)]
      omega
    · rw [Int.tdiv_eq_ediv_of_nonneg (by omega)]
      omega
  unfold etDayStartUs
  dsimp only
  rw [offset_first positive (by omega), midnight, if_pos (by omega)]
  rfl

theorem dates_early :
    etTradeDate (-3600000000 - 1) = etTradeDate (-3600000000) :=
  etTradeDate_eq_iff.mpr (by decide)

end TradingDays

/-- The derivations agree at every instant from 23:00 UTC on the first of January 1970 on, except
between a change of the clocks and the next 18:00. -/
theorem days_agree_iff {tsUs : Int} (after : 0 ≤ tsUs) :
    DaysAgree tsUs ↔
      82800000000 ≤ tsUs ∧ ¬Unsettled (gmtime (tsUs.tdiv 1000000)) := by
  have seconds : tsUs.tdiv 1000000 = tsUs / 1000000 := Int.tdiv_eq_ediv_of_nonneg after
  constructor
  · intro agree
    rcases Int.lt_or_le (tsUs.tdiv 1000000) 82800 with early | late
    · have start := agree.start
      have before := agree.before
      rw [start_early after early] at start before
      exact absurd (dates_early.trans start) before
    · exact ⟨by omega, (start_iff late).mp ⟨agree.start, agree.before⟩⟩
  · rintro ⟨late, settled⟩
    have lateSeconds : 82800 ≤ tsUs.tdiv 1000000 := by omega
    have clock := etSec_late lateSeconds
    obtain ⟨start, before⟩ := (start_iff lateSeconds).mpr settled
    have begun : etDayStartUs tsUs ≤ tsUs := by
      have near := boundary_near (tsUs.tdiv 1000000)
      rw [etDayStartUs_eq (by omega)]
      omega
    have interval {first between last : Int} (low : first ≤ between) (high : between ≤ last)
        (left : etTradeDate first = etTradeDate tsUs)
        (right : etTradeDate last = etTradeDate tsUs) :=
      date_interval lateSeconds low high left right
    constructor
    · exact dates_agree (by omega)
    · intro first between last low high left right
      exact interval low high left right
    · exact begun
    · exact start
    · exact before
    · intro other same
      by_contra earlier
      have between : other ≤ etDayStartUs tsUs - 1 := by omega
      exact before (interval between (by omega) same rfl)

theorem days_agree_of_summer : DaysAgree 1750000000000000 :=
  (days_agree_iff (by decide)).mpr (by decide)

/-- Noon of the day in March 2025 on which the clocks go forward. -/
theorem days_disagree_in_march :
    0 ≤ (1741536000000000 : Int) ∧ ¬DaysAgree 1741536000000000 ∧
      etTradeDate 1741536000000000 = "2025-03-09" ∧
      etTradeDate (etDayStartUs 1741536000000000) = "2025-03-08" := by
  refine ⟨by decide, fun agree => ?_, by decide +kernel, by decide +kernel⟩
  have same := etTradeDate_eq_iff.mp agree.start
  exact absurd same (by decide)

end RithmicEngine
