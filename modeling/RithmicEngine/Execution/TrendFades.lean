import RithmicEngine.Execution.TrendMomentum
/-!
# The fading modes of the trend engine

Entries against the last move: at the edges of a value area, of a band or of a gap, after a
break that failed or a run that is exhausted, and against volume or deltas that do not
confirm the price.
-/
namespace RithmicEngine

namespace TrendStrategy

variable (m : TrendMoment) (b : Bar)

/-! ## Levels -/

def modeVprofile (s : TrendStrategy) : Option TrendStrategy := do
  if s.vp.ready = false ∨ s.day.inRth = false then return s
  if s.session.vpDir ≠ 0 ∧ s.sess.inPosition then
    if (s.session.vpDir > 0 ∧ b.h ≥ s.vp.poc) ∨ (s.session.vpDir < 0 ∧ b.l ≤ s.vp.poc) then
      return { s with session := { s.session with vpDir := 0 } }.flatten m b "vp_target"
    return s
  if s.size < 2 then return s
  let p ← s.previous
  let used := fun (dir : SignType) (s : TrendStrategy) => { s with session := { s.session with
    vpUsedLong := s.session.vpUsedLong || decide (dir > 0)
    vpUsedShort := s.session.vpUsedShort || decide (dir < 0) } }
  if m.tc.vpStyle = "fade" then
    let tol := m.tc.vpTolAtr * s.ind.atr
    return s.eitherSide m (-1)
      (!s.session.vpUsedShort && decide ((s.vp.vah : Double) - tol ≤ (b.h : Double)) &&
        decide (b.c < s.vp.vah))
      (!s.session.vpUsedLong && decide ((b.l : Double) ≤ (s.vp.val : Double) + tol) &&
        decide (b.c > s.vp.val)) b.c "vp_fade_vah" "vp_fade_val" fun dir s =>
          { used dir s with session := { (used dir s).session with vpDir := dir } }
  return s.eitherSide m 1
    (!s.session.vpUsedLong && decide (p.c ≤ s.vp.vah) && decide (b.c > s.vp.vah))
    (!s.session.vpUsedShort && decide (p.c ≥ s.vp.val) && decide (b.c < s.vp.val)) b.c
    "vp_break_vah" "vp_break_val" used

def modeGapFade (s : TrendStrategy) : Option TrendStrategy := do
  if s.day.havePrev = false then return s
  let mins := s.minsSinceOpen b
  if mins < 0 then return s
  let gap := s.day.gap
  if s.session.gfDir ≠ 0 ∧ s.sess.inPosition then
    let target := (s.day.prevClose : Double) + (1 - m.tc.gfFillFrac) * (gap : Double)
    if (s.session.gfDir < 0 ∧ (b.l : Double) ≤ target) ∨
        (s.session.gfDir > 0 ∧ target ≤ (b.h : Double)) then
      return { s with session := { s.session with gfDir := 0 } }.flatten m b "gap_filled"
    return s
  if s.session.gfDone ∨ ((|gap| : ℚ) : Double) < m.tc.gfMinPts ∨ mins < m.tc.gfWaitMin then
    return s
  return s.eitherSide m (-1)
    (decide (gap > 0) && decide (b.c < b.o) && decide (b.c < s.day.rthOpen))
    (decide (gap < 0) && decide (b.c > b.o) && decide (b.c > s.day.rthOpen)) b.c
    "gap_fade_short" "gap_fade_long" fun dir s =>
      { s with session := { s.session with gfDone := true, gfDir := dir } }

/-- A close outside the channel arms a fade of the break. -/
def armFailedBreakout (bars : List Bar) (s : TrendStrategy) : TrendStrategy :=
  if b.c > highest bars then
    { s with modes := { s.modes with fbDir := 1, fbLevel := highest bars, fbAge := 0 } }
  else if b.c < lowest bars then
    { s with modes := { s.modes with fbDir := -1, fbLevel := lowest bars, fbAge := 0 } }
  else s

def modeFailedBreakout (s : TrendStrategy) : Option TrendStrategy := do
  let n := s.size
  let N := m.tc.donchianN
  if n < int32 (N + 2) then return s
  let bars ← readFrom s.tf (n - 1 - N) (n - 1)
  let dir := s.modes.fbDir
  if dir = 0 then return s.armFailedBreakout b bars
  let s := { s with modes := { s.modes with fbAge := s.modes.fbAge + 1 } }
  if s.modes.fbAge > m.tc.fbBars then
    return { s with modes := { s.modes with fbDir := 0, fbAge := 0 } }.armFailedBreakout b bars
  let disarmed := { s with modes := { s.modes with fbDir := 0 } }
  if dir > 0 ∧ b.c < s.modes.fbLevel then
    return disarmed.enter m (-1) b.c "failed_break_high"
  if dir < 0 ∧ b.c > s.modes.fbLevel then
    return disarmed.enter m 1 b.c "failed_break_low"
  return s

/-! ## Bands and oscillators -/

def modeVwapFade (s : TrendStrategy) : Option TrendStrategy := do
  if s.day.inRth = false ∨ s.day.vwapV ≤ 0 then return s
  let vw := s.day.vwap
  if s.size < 3 then return s
  if s.sess.inPosition ∧ ((|b.c - vw| : ℚ) : Double) ≤ m.tc.mrTargetAtr * s.ind.atr then
    return s.flatten m b "vwap_target"
  let p ← s.previous
  let dev := m.tc.mrDevAtr * s.ind.atr
  return s.eitherSide m (-1) (decide ((vw : Double) + dev ≤ (p.c : Double)) && decide (b.c < p.c))
    (decide ((p.c : Double) ≤ (vw : Double) - dev) && decide (b.c > p.c)) b.c
    "vwap_fade_short" "vwap_fade_long" unnoted

def modeBandFade (s : TrendStrategy) : Option TrendStrategy := do
  if s.size < int32 (m.tc.bbLen + 2) then return s
  let (mean, sd) ← s.bollinger m
  let up := mean + m.tc.bbMult * sd
  let dn := mean - m.tc.bbMult * sd
  if s.sess.inPosition ∧ ((s.posDir > 0 ∧ mean ≤ (b.c : Double)) ∨
      (s.posDir < 0 ∧ (b.c : Double) ≤ mean)) then
    return s.flatten m b "band_mid_target"
  let p ← s.previous
  return s.eitherSide m (-1) (decide (up < (p.c : Double)) && decide ((b.c : Double) < up))
    (decide ((p.c : Double) < dn) && decide (dn < (b.c : Double))) b.c
    "band_fade_short" "band_fade_long" unnoted

/-- The move of the close from the bar before. -/
def moveAt (i : Nat) (s : TrendStrategy) : Option ℚ := do
  let now ← s.tf[i]?
  let past ← readAt s.tf ((i : Int) - 1)
  return now.c - past.c

/-- The share of the rises in the moves of the last closes, in percent. -/
def rsi (len : Int) (s : TrendStrategy) : Option Double := do
  let n := s.size
  if n ≤ len then return 50
  let moves ← (indices (n - len) n).mapM fun (i : Nat) => s.moveAt i
  let rises := (moves.filter fun d => decide (d > 0)).sum
  let falls := -(moves.filter fun d => !decide (d > 0)).sum
  if rises + falls ≤ 0 then return 50
  return ((100 * rises / (rises + falls) : ℚ) : Double)

def modeRsi2 (s : TrendStrategy) : Option TrendStrategy := do
  if s.size < int32 (m.tc.emaSlow + 2) ∨ s.ind.emaS ≤ 0 then return s
  let r ← s.rsi m.tc.rsiLen
  if s.sess.inPosition ∧ ((s.posDir > 0 ∧ m.tc.rsiExit ≤ r) ∨
      (s.posDir < 0 ∧ r ≤ m.tc.rsiExit)) then
    return s.flatten m b "rsi_exit"
  return s.eitherSide m 1 (decide (r ≤ m.tc.rsiBuy) && decide (s.ind.emaS < (b.c : Double)))
    (decide (m.tc.rsiSell ≤ r) && decide ((b.c : Double) < s.ind.emaS)) b.c
    "rsi2_oversold_in_uptrend" "rsi2_overbought_in_downtrend" unnoted

/-! ## Runs and the tape -/

def modeThrustFade (s : TrendStrategy) : Option TrendStrategy := do
  let n := s.size
  let T := m.tc.thrustBars
  let atr := s.ind.atr
  if n < int32 (T + 2) ∨ atr ≤ 0 then return s
  let tgt := m.tc.thrustTargetAtr * atr
  let entry := (s.modes.thrustEntryRef : Double)
  if s.sess.inPosition ∧ ((s.posDir > 0 ∧ entry + tgt ≤ (b.c : Double)) ∨
      (s.posDir < 0 ∧ (b.c : Double) ≤ entry - tgt)) then
    return s.flatten m b "thrust_target"
  let bars ← readFrom s.tf (n - 1 - T) (n - 1)
  let last ← s.previous
  let first ← readAt s.tf (n - 1 - T)
  let run := last.c - first.o
  let thrustUp := bars.all (fun x => decide (x.c > x.o)) &&
    decide (m.tc.thrustMinAtr * atr ≤ (run : Double))
  let thrustDn := bars.all (fun x => decide (x.c < x.o)) &&
    decide (m.tc.thrustMinAtr * atr ≤ ((-run : ℚ) : Double))
  if thrustUp = false ∧ thrustDn = false then return s
  let rng := last.h - last.l
  if rng ≤ 0 then return s
  let back := m.tc.thrustRetraceFrac * (rng : Double)
  return s.eitherSide m (-1)
    (thrustUp && decide (b.h ≤ last.h) && decide ((b.c : Double) < (last.h : Double) - back))
    (thrustDn && decide (b.l ≥ last.l) && decide ((last.l : Double) + back < (b.c : Double))) b.c
    "thrust_exhaustion_fade_short" "thrust_exhaustion_fade_long" fun _ s =>
      { s with modes := { s.modes with thrustEntryRef := b.c } }

/-- A heavy bar that makes no progress at the end of a move arms a fade. -/
def armAbsorption (s : TrendStrategy) : Option TrendStrategy := do
  let back := m.tc.absMoveBars
  let atr := s.ind.atr
  if s.size < int32 (back + 2) then return s
  let avg ← s.avgVolPrior m m.tc.volAvgBars
  if avg ≤ 0 then return s
  if (b.v : Double) < m.tc.absVolMult * avg ∨
      m.tc.absMaxRangeAtr * atr < ((b.h - b.l : ℚ) : Double) then
    return s
  let past ← readAt s.tf (s.size - 1 - back)
  let move := b.c - past.c
  let share := (buyShare b : Double)
  let dir : SignType :=
    if m.tc.absMinMoveAtr * atr ≤ (move : Double) ∧
        (m.tc.absDeltaMin ≤ 0 ∨ m.tc.absDeltaMin ≤ share) then 1
    else if m.tc.absMinMoveAtr * atr ≤ ((-move : ℚ) : Double) ∧
        (m.tc.absDeltaMin ≤ 0 ∨ share ≤ 1 - m.tc.absDeltaMin) then -1
    else 0
  if dir = 0 then return s
  return { s with modes := { s.modes with absDir := dir, absMid := (b.h + b.l) / 2, absAge := 0 } }

def modeAbsorption (s : TrendStrategy) : Option TrendStrategy := do
  let dir := s.modes.absDir
  if dir = 0 then s.armAbsorption m b
  else
    let s := { s with modes := { s.modes with absAge := s.modes.absAge + 1 } }
    if s.modes.absAge > m.tc.absArmBars then
      armAbsorption m b { s with modes := { s.modes with absDir := 0 } }
    else
      return s.eitherSide m (-1) (decide (dir > 0) && decide (b.c < s.modes.absMid))
        (decide (dir < 0) && decide (b.c > s.modes.absMid)) b.c
        "absorption_fade_short" "absorption_fade_long" fun _ s =>
          { s with modes := { s.modes with absDir := 0 } }

/-- The sum of the deltas of so many bars before an index. -/
def deltaSum (endExcl : Int) (s : TrendStrategy) : Option ℚ := do
  let deltas ← readFrom s.ind.barDeltaHist (endExcl - m.tc.ddBars) endExcl
  return deltas.sum

def modeDeltaDiv (s : TrendStrategy) : Option TrendStrategy := do
  let n := s.size
  let known : Int := s.ind.barDeltaHist.length
  let N := m.tc.ddBars
  let covered := int32 (2 * N)
  if N < 2 ∨ n ≤ covered ∨ known ≤ covered then return s
  let bars ← readFrom s.tf (n - 1 - N) (n - 1)
  let cur ← s.deltaSum m known
  let sums ← (indices (known - N) known).mapM fun (i : Nat) => s.deltaSum m i
  let bd ← s.ind.barDeltaHist.getLast?
  return s.eitherSide m (-1)
    (decide (b.h > highest bars) && decide (cur < sums.foldl max (-doubleMax)) && decide (bd ≤ 0))
    (decide (b.l < lowest bars) && decide (cur > sums.foldl min doubleMax) && decide (bd ≥ 0)) b.c
    "delta_divergence_short" "delta_divergence_long" unnoted

end TrendStrategy

end RithmicEngine
