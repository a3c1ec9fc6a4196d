import RithmicEngine.Execution.OrbConfig
import RithmicEngine.Execution.OrbTick
/-!
# Opening-range strategy

The signal generator of the opening-range engine: it builds one-minute bars, takes the
high and the low of the opening range, and signals the first cross out of the range.
Its signals go to a callback that answers nothing but may itself tell the strategy
that its trade was closed. Prices are rationals; the two ends of the range start at the
largest binary double and at its negative. Log lines are left out.
-/
namespace RithmicEngine

/-- The keys of the configuration that the opening-range engine reads. -/
structure OrbRules where
  orbMinutes : Int := 15
  breakoutBuffer : ℚ := 0
  maxDailyTrades : Int := 3
  lastEntryHour : Int := 13
  lastEntryMin : Int := 0
  eodFlattenHour : Int := 15
  eodFlattenMin : Int := 55
  newsBlackoutMin : Int := 5
  stopCooldownSecs : Int := 5
  sessionOpenHour : Int := 9
  sessionOpenMin : Int := 30
  deriving DecidableEq, Repr

/-- The largest finite double. -/
def doubleMax : ℚ := (2 ^ 53 - 1) * 2 ^ 971

structure MinuteBar where
  minuteUtc : Int := -1
  opened : ℚ := 0
  high : ℚ := -doubleMax
  low : ℚ := doubleMax
  close : ℚ := 0
  volume : Int := 0
  deriving DecidableEq, Repr

def MinuteBar.update (price : ℚ) (size : Int) (bar : MinuteBar) : MinuteBar where
  minuteUtc := bar.minuteUtc
  opened := if bar.volume = 0 then price else bar.opened
  high := if price > bar.high then price else bar.high
  low := if price < bar.low then price else bar.low
  close := price
  volume := bar.volume + size

structure OrbSession where
  orbHigh : ℚ := -doubleMax
  orbLow : ℚ := doubleMax
  orbSet : Bool := false
  tradesToday : Int := 0
  inPosition : Bool := false
  riskHalted : Bool := false
  haltReason : String := ""
  deriving DecidableEq, Repr

structure OrbStrategy where
  session : OrbSession := {}
  currentBar : MinuteBar := {}
  lastPrice : ℚ := 0
  lastEtHour : Int := 0
  lastEtMin : Int := 0
  eodEmitted : Bool := false
  seeded : Bool := false
  lastTsUs : Int := 0
  cooldownUntilUs : Int := 0
  deriving DecidableEq, Repr

/-- A call of the signal callback. -/
structure OrbEmission where
  sig : OrbSignal
  price : ℚ
  reason : String
  deriving DecidableEq, Repr

namespace OrbStrategy

variable (rules : OrbRules)

/-! ## The clock -/

def isInOrbWindow (etHour etMin : Int) : Bool :=
  let totalMin := etHour * 60 + etMin
  let openMin := rules.sessionOpenHour * 60 + rules.sessionOpenMin
  decide (totalMin ≥ openMin) && decide (totalMin < openMin + rules.orbMinutes)

/-- The Eastern minutes of the releases around which no entry is made. -/
def newsTimes : List Int := [8 * 60 + 30, 10 * 60, 14 * 60, 14 * 60 + 30]

def isNewsBlackout (etHour etMin : Int) : Bool :=
  newsTimes.any fun newsMin =>
    decide (etHour * 60 + etMin ≥ newsMin - rules.newsBlackoutMin) &&
      decide (etHour * 60 + etMin ≤ newsMin + rules.newsBlackoutMin)

/-- The Eastern time lies at or past the flatten time. -/
def pastFlatten (etHour etMin : Int) : Bool :=
  decide (etHour > rules.eodFlattenHour) ||
    (decide (etHour = rules.eodFlattenHour) && decide (etMin ≥ rules.eodFlattenMin))

/-! ## The host's calls -/

def resetSession (s : OrbStrategy) : OrbStrategy :=
  { s with
    session := {}
    currentBar := {}
    eodEmitted := false
    cooldownUntilUs := 0
    seeded := false }

def haltTrading (reason : String) (s : OrbStrategy) : OrbStrategy :=
  { s with session := { s.session with riskHalted := true, haltReason := reason } }

def unhaltTrading (s : OrbStrategy) : OrbStrategy :=
  if s.session.riskHalted = false then s
  else { s with session := { s.session with riskHalted := false, haltReason := "" } }

/-- A trade closed; another is not entered before the cooldown has passed. -/
def notifyTradeFilled (s : OrbStrategy) : OrbStrategy :=
  { s with
    session := { s.session with inPosition := false }
    cooldownUntilUs :=
      if rules.stopCooldownSecs > 0 then s.lastTsUs + rules.stopCooldownSecs * 1000000
      else s.cooldownUntilUs }

def seedTradesToday (n : Int) (s : OrbStrategy) : OrbStrategy :=
  { s with session := { s.session with tradesToday := n } }

/-- A range from outside. The first tick after it only anchors the price. -/
def seedOrbRange (high low : ℚ) (s : OrbStrategy) : OrbStrategy :=
  { s with
    session := { s.session with orbHigh := high, orbLow := low, orbSet := true }
    seeded := true }

/-- At or past the flatten time the flatten is signalled, once a session. -/
def checkEod (etHour etMin : Int) (s : OrbStrategy) : OrbStrategy × Option OrbEmission :=
  if pastFlatten rules etHour etMin = true ∧ s.eodEmitted = false then
    ({ s with eodEmitted := true },
      some { sig := .flattenEod, price := s.lastPrice, reason := "eod_flatten" })
  else (s, none)

/-! ## Ticks -/

/-- The range is set at the first bar that closes past its end, if it has any width. -/
def handleCompletedBar (bar : MinuteBar) (etHour etMin : Int) (s : OrbStrategy) : OrbStrategy :=
  if bar.volume = 0 then s
  else if s.session.orbSet = false ∧
      etHour * 60 + etMin ≥ rules.sessionOpenHour * 60 + rules.sessionOpenMin + rules.orbMinutes ∧
      s.session.orbHigh > s.session.orbLow then
    { s with session := { s.session with orbSet := true } }
  else s

/-- Bars are closed by the first tick of another minute. -/
def buildBar (t : OrbTick) (s : OrbStrategy) : OrbStrategy :=
  let curEpochMin := (t.tsMicros.tdiv 1000000).tdiv 60
  let s := if s.currentBar.minuteUtc < 0 then
      { s with currentBar := { s.currentBar with minuteUtc := curEpochMin } }
    else s
  let s := if curEpochMin ≠ s.currentBar.minuteUtc then
      { handleCompletedBar rules s.currentBar (utcToEt t.tsMicros).1 (utcToEt t.tsMicros).2 s with
        currentBar := { minuteUtc := curEpochMin } }
    else s
  { s with currentBar := s.currentBar.update t.price t.size }

def seeTick (t : OrbTick) (s : OrbStrategy) : OrbStrategy :=
  { s with
    lastPrice := t.price
    lastTsUs := t.tsMicros
    lastEtHour := (utcToEt t.tsMicros).1
    lastEtMin := (utcToEt t.tsMicros).2 }

def widenRange (t : OrbTick) (s : OrbStrategy) : OrbStrategy :=
  if isInOrbWindow rules (utcToEt t.tsMicros).1 (utcToEt t.tsMicros).2 then
    { s with
      session := { s.session with
        orbHigh := if t.price > s.session.orbHigh then t.price else s.session.orbHigh
        orbLow := if t.price < s.session.orbLow then t.price else s.session.orbLow } }
  else s

/-- The cross that a price makes out of the range; before the first price of the
process every price counts as one. -/
def breakout (price prevPrice : ℚ) (s : OrbStrategy) : Option OrbEmission :=
  if s.session.inPosition then none
  else if s.lastTsUs < s.cooldownUntilUs then none
  else
    let buyLevel := s.session.orbHigh + rules.breakoutBuffer
    let sellLevel := s.session.orbLow - rules.breakoutBuffer
    if price > buyLevel ∧ (prevPrice ≤ 0 ∨ prevPrice ≤ buyLevel) then
      some { sig := .buy, price := price, reason := "orb_breakout_long" }
    else if price < sellLevel ∧ (prevPrice ≤ 0 ∨ prevPrice ≥ sellLevel) then
      some { sig := .sell, price := price, reason := "orb_breakout_short" }
    else none

/-- Take the position that was signalled. The callback comes first: where it `refused`
the entry it has told the strategy so, and the strategy takes the position after that. -/
def takePosition (refused : Bool) (s : OrbStrategy) : OrbStrategy :=
  let s := if refused then notifyTradeFilled rules s else s
  { s with session := { s.session with
      inPosition := true, tradesToday := s.session.tradesToday + 1 } }

def checkBreakout (refused : Bool) (price prevPrice : ℚ) (s : OrbStrategy) :
    OrbStrategy × Option OrbEmission :=
  match breakout rules price prevPrice s with
  | some emission => (takePosition rules refused s, some emission)
  | none => (s, none)

/-- The time of the tick and the day's count allow an entry. -/
def mayEnter (t : OrbTick) (s : OrbStrategy) : Bool :=
  decide (s.session.tradesToday < rules.maxDailyTrades) &&
    decide ((utcToEt t.tsMicros).1 * 60 + (utcToEt t.tsMicros).2 <
      rules.lastEntryHour * 60 + rules.lastEntryMin) &&
    !isNewsBlackout rules (utcToEt t.tsMicros).1 (utcToEt t.tsMicros).2

def onTick (refused : Bool) (t : OrbTick) (s : OrbStrategy) : OrbStrategy × Option OrbEmission :=
  if s.session.riskHalted then (s, none)
  else
    let prevPrice := s.lastPrice
    let s := seeTick t (buildBar rules t s)
    if s.seeded then ({ s with seeded := false }, none)
    else if s.session.orbSet = false then (widenRange rules t s, none)
    else if mayEnter rules t s = false then (s, none)
    else checkBreakout rules refused t.price prevPrice s

/-! ## What a tick leaves alone -/

/-- A completed bar leaves the flatten's flag and the position. -/
theorem handleCompletedBar_kept (bar : MinuteBar) (etHour etMin : Int) (s : OrbStrategy) :
    (handleCompletedBar rules bar etHour etMin s).eodEmitted = s.eodEmitted ∧
      (handleCompletedBar rules bar etHour etMin s).session.inPosition = s.session.inPosition := by
  rw [handleCompletedBar]
  split
  · exact ⟨rfl, rfl⟩
  · split
    · exact ⟨rfl, rfl⟩
    · exact ⟨rfl, rfl⟩

/-- Building a bar leaves the flatten's flag and the position. -/
theorem buildBar_kept (t : OrbTick) (s : OrbStrategy) :
    (buildBar rules t s).eodEmitted = s.eodEmitted ∧
      (buildBar rules t s).session.inPosition = s.session.inPosition := by
  simp only [buildBar]
  split
  · split
    · exact handleCompletedBar_kept rules _ _ _ _
    · exact ⟨rfl, rfl⟩
  · split
    · exact handleCompletedBar_kept rules _ _ _ _
    · exact ⟨rfl, rfl⟩

theorem widenRange_kept (t : OrbTick) (s : OrbStrategy) :
    (widenRange rules t s).eodEmitted = s.eodEmitted ∧
      (widenRange rules t s).session.inPosition = s.session.inPosition := by
  rw [widenRange]
  split
  · exact ⟨rfl, rfl⟩
  · exact ⟨rfl, rfl⟩

theorem takePosition_taken (refused : Bool) (s : OrbStrategy) :
    (takePosition rules refused s).eodEmitted = s.eodEmitted ∧
      (takePosition rules refused s).session.inPosition = true := by
  cases refused with
  | true => exact ⟨rfl, rfl⟩
  | false => exact ⟨rfl, rfl⟩

/-- Only entries break out. -/
theorem breakout_isEntry {price prevPrice : ℚ} {s : OrbStrategy} {emission : OrbEmission}
    (breaks : breakout rules price prevPrice s = some emission) :
    (emission.sig = .buy ∨ emission.sig = .sell) ∧ s.session.inPosition = false := by
  rw [breakout] at breaks
  split at breaks
  · cases breaks
  · next outside =>
    have flat : s.session.inPosition = false := Bool.not_eq_true _ ▸ outside
    split at breaks
    · cases breaks
    · simp only at breaks
      split at breaks
      · cases breaks
        exact ⟨Or.inl rfl, flat⟩
      · split at breaks
        · cases breaks
          exact ⟨Or.inr rfl, flat⟩
        · cases breaks

/-- What a tick can do to the flatten of the day and to the position: an entry is
signalled by a strategy that is in no position, which is then in one; every other tick
leaves both alone. The flatten stays as it is. -/
theorem onTick_cases (refused : Bool) (t : OrbTick) (s : OrbStrategy) :
    (onTick rules refused t s).1.eodEmitted = s.eodEmitted ∧
      (((onTick rules refused t s).2 = none ∧
          (onTick rules refused t s).1.session.inPosition = s.session.inPosition) ∨
        ∃ emission, (onTick rules refused t s).2 = some emission ∧
          (emission.sig = .buy ∨ emission.sig = .sell) ∧
          s.session.inPosition = false ∧
          (onTick rules refused t s).1.session.inPosition = true) := by
  obtain ⟨x, isSeen⟩ : ∃ x, x = seeTick t (buildBar rules t s) := ⟨_, rfl⟩
  have built := buildBar_kept rules t s
  have emitted : x.eodEmitted = s.eodEmitted := by rw [isSeen]; exact built.1
  have position : x.session.inPosition = s.session.inPosition := by rw [isSeen]; exact built.2
  rw [onTick]
  split
  · exact ⟨rfl, Or.inl ⟨rfl, rfl⟩⟩
  · simp only [← isSeen]
    split
    · exact ⟨emitted, Or.inl ⟨rfl, position⟩⟩
    · split
      · obtain ⟨sameEmitted, samePosition⟩ := widenRange_kept rules t x
        exact ⟨sameEmitted.trans emitted, Or.inl ⟨rfl, samePosition.trans position⟩⟩
      · split
        · exact ⟨emitted, Or.inl ⟨rfl, position⟩⟩
        · rw [checkBreakout]
          cases breaks : breakout rules t.price s.lastPrice x with
          | none => exact ⟨emitted, Or.inl ⟨rfl, position⟩⟩
          | some emission =>
            obtain ⟨entry, flat⟩ := breakout_isEntry rules breaks
            obtain ⟨sameEmitted, taken⟩ := takePosition_taken rules refused x
            exact ⟨sameEmitted.trans emitted,
              Or.inr ⟨emission, rfl, entry, position.symm.trans flat, taken⟩⟩

end OrbStrategy

end RithmicEngine
