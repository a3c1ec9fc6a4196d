import RithmicEngine.Execution.TrendStrategy
/-!
# The entry modes of the trend engine

Each mode decides on a completed bar. A read outside a container has no meaning in the
program and no value here, and an index that is less than zero wraps at 64 bits, so that a
loop that starts there reads nothing. A comparison of a length with a sum of a number and one
is one with the number, as it is compiled; the other sums that do not fit in 32 bits, whose
overflow is undefined, wrap as they do where compiled.
-/
namespace RithmicEngine

/-! ## Reading the histories -/

/-- An index as the size that it wraps to. -/
def wrap64 (i : Int) : Nat := (i % 2 ^ 64).toNat

def readAt {α : Type} (xs : List α) (i : Int) : Option α := xs[wrap64 i]?

/-- The indices of a loop. -/
def indices (start stop : Int) : List Nat :=
  List.range' (wrap64 start) (wrap64 stop - wrap64 start)

def readFrom {α : Type} (xs : List α) (start stop : Int) : Option (List α) :=
  (indices start stop).mapM fun i => xs[i]?

def highest (bars : List Bar) : ℚ := bars.foldl (fun hh bar => max hh bar.h) (-doubleMax)

def lowest (bars : List Bar) : ℚ := bars.foldl (fun ll bar => min ll bar.l) doubleMax

namespace TrendStrategy

variable (m : TrendMoment) (b : Bar)

def size (s : TrendStrategy) : Int := s.tf.length

/-- The sum of so many values over their number. -/
def average (sum : Double) (count : Int) : Option Double :=
  if count = 0 ∧ m.countsVoid = true then none else some (sum / ((count : ℚ) : Double))

/-- The bar before the one that has just completed. -/
def previous (s : TrendStrategy) : Option Bar := readAt s.tf (s.size - 2)

/-- The middle of the range of so many bars before an index. -/
def midRange (endExcl len : Int) (s : TrendStrategy) : Option ℚ := do
  let bars ← readFrom s.tf (wrap64 endExcl - len) (wrap64 endExcl)
  return (highest bars + lowest bars) / 2

/-- Minutes from the session's start to that of a bar. -/
def minsSinceOpen (s : TrendStrategy) : Int := if s.day.inRth then b.mod - s.day.rthOpenMod else -1

def flatten (why : String) (s : TrendStrategy) : TrendStrategy := s.emit m .flattenEod b.c why

/-- The position is held against a side that has turned. -/
def turned (up down : Bool) (s : TrendStrategy) : Bool :=
  s.sess.inPosition && m.tc.exitOnFlip &&
    ((decide (s.posDir > 0) && down) || (decide (s.posDir < 0) && up))

/-! ## Breakouts -/

def modeDonchian (s : TrendStrategy) : Option TrendStrategy := do
  let n := s.size
  let N := m.tc.donchianN
  if n ≤ N then return s
  let bars ← readFrom s.tf (n - 1 - N) (n - 1)
  return s.eitherSide m 1 (decide (b.c > highest bars)) (decide (b.c < lowest bars)) b.c
    ("donchian_high_" ++ toString N) ("donchian_low_" ++ toString N) unnoted

def modePdhl (s : TrendStrategy) : Option TrendStrategy := do
  let overnight := m.tc.level = "overnight"
  if overnight ∧ s.day.onHi ≤ s.day.onLo then return s
  if ¬overnight ∧ s.day.havePrev = false then return s
  let hi := if overnight then s.day.onHi else s.day.prevHi
  let lo := if overnight then s.day.onLo else s.day.prevLo
  let volumes : Int := s.ind.volHist.length
  if volumes ≤ m.tc.volAvgBars then return s
  let past ← readFrom s.ind.volHist (volumes - 1 - m.tc.volAvgBars) (volumes - 1)
  let avg ← average m (past.sum : Double) m.tc.volAvgBars
  if (b.v : Double) < m.tc.volMult * avg then return s
  if s.size < 2 then return s
  let p ← s.previous
  return s.eitherSide m 1 (decide (p.c ≤ hi) && decide (b.c > hi))
    (decide (p.c ≥ lo) && decide (b.c < lo)) b.c (m.tc.level ++ "_high_break")
    (m.tc.level ++ "_low_break") unnoted

/-- The mean of the closes of the last bars of the band, and their deviation from it. -/
def bollinger (s : TrendStrategy) : Option (Double × Double) := do
  let bars ← readFrom s.tf (s.size - m.tc.bbLen) s.size
  let mean ← average m ((bars.map (·.c)).sum : Double) m.tc.bbLen
  let squares := bars.foldl
    (fun (sum : Double) bar => sum + ((bar.c : Double) - mean) * ((bar.c : Double) - mean)) 0
  let var ← average m squares m.tc.bbLen
  return (mean, m.sqrt var)

def modeSqueeze (s : TrendStrategy) : Option TrendStrategy := do
  if s.size ≤ m.tc.bbLen then return s
  let (mean, sd) ← s.bollinger m
  let bbUp := mean + m.tc.bbMult * sd
  let bbDn := mean - m.tc.bbMult * sd
  let kcUp := s.ind.ema20 + m.tc.kcMult * s.ind.atr
  let kcDn := s.ind.ema20 - m.tc.kcMult * s.ind.atr
  if bbUp < kcUp ∧ kcDn < bbDn then
    return { s with modes := { s.modes with squeezeCount := s.modes.squeezeCount + 1 } }
  let wasSqueezed := s.modes.squeezeCount ≥ m.tc.squeezeBars
  let s := { s with modes := { s.modes with squeezeCount := 0 } }
  if ¬wasSqueezed then return s
  return s.eitherSide m 1 (decide (bbUp < (b.c : Double))) (decide ((b.c : Double) < bbDn)) b.c
    "squeeze_break_long" "squeeze_break_short" unnoted

def modeNr7 (s : TrendStrategy) : Option TrendStrategy := do
  let n := s.size
  if n < int32 (m.tc.nrN + 2) then return s
  let p ← s.previous
  let bars ← readFrom s.tf (n - 1 - m.tc.nrN) (n - 2)
  if bars.any (fun bar => decide (bar.h - bar.l ≤ p.h - p.l)) then return s
  return s.eitherSide m 1 (decide (b.c > p.h)) (decide (b.c < p.l)) b.c
    ("nr" ++ toString m.tc.nrN ++ "_break_up") ("nr" ++ toString m.tc.nrN ++ "_break_down") unnoted

/-- The previous close lay inside the level and this one beyond it, on either side. -/
def crosses (p : Bar) (up dn : Double) : Bool × Bool :=
  (decide ((p.c : Double) ≤ up) && decide (up < (b.c : Double)),
    decide (dn ≤ (p.c : Double)) && decide ((b.c : Double) < dn))

def modeAtrBreak (s : TrendStrategy) : Option TrendStrategy := do
  if s.day.inRth = false then return s
  let atr := if m.tc.abDayAtr then s.dayAtr else s.ind.atr
  if atr ≤ 0 then return s
  let anchor := if m.tc.abAnchor = "prev_close" then (if s.day.havePrev then s.day.prevClose else 0)
    else s.day.rthOpen
  if anchor ≤ 0 then return s
  if s.size < 2 then return s
  let p ← s.previous
  let (long, short) := crosses b p ((anchor : Double) + m.tc.abK * atr)
    ((anchor : Double) - m.tc.abK * atr)
  return s.eitherSide m 1 (!s.session.abUsedLong && long) (!s.session.abUsedShort && short) b.c
    "atr_break_long" "atr_break_short" fun dir s => { s with session := { s.session with
      abUsedLong := s.session.abUsedLong || decide (dir > 0)
      abUsedShort := s.session.abUsedShort || decide (dir < 0) } }

def modeNewsBreak (s : TrendStrategy) : Option TrendStrategy := do
  if m.tc.nbEventOnly ∧ s.eventDay = false then return s
  let start := modOf m.tc.nbHhmm
  if b.mod < start then return s
  if b.mod < int32 (start + m.tc.nbRangeMin) then
    return { s with session := { s.session with
      nbHi := max s.session.nbHi b.h, nbLo := min s.session.nbLo b.l } }
  let s := { s with session := { s.session with
    nbSet := s.session.nbSet || decide (s.session.nbHi > s.session.nbLo) } }
  if s.session.nbSet = false then return s
  if s.session.nbDone ∨ b.mod ≥ int32 (start + m.tc.nbWindowMin) then return s
  return s.eitherSide m 1 (decide (b.c > s.session.nbHi)) (decide (b.c < s.session.nbLo)) b.c
    "news_break_long" "news_break_short" fun _ s =>
      { s with session := { s.session with nbDone := true } }

def modeIbBreak (s : TrendStrategy) : Option TrendStrategy := do
  let mins := s.minsSinceOpen b
  if mins < 0 then return s
  if mins < m.tc.ibMinutes then
    return { s with session := { s.session with
      ibHi := max s.session.ibHi b.h, ibLo := min s.session.ibLo b.l } }
  let rng := s.session.ibHi - s.session.ibLo
  let s := { s with session := { s.session with
    ibSet := s.session.ibSet || (decide (s.session.ibHi > s.session.ibLo) &&
      decide (m.tc.ibMinAtr * s.ind.atr ≤ (rng : Double))) } }
  if s.session.ibSet = false then return s
  if s.session.ibDir ≠ 0 ∧ s.sess.inPosition then
    if (s.session.ibDir > 0 ∧ s.session.ibTarget ≤ (b.h : Double)) ∨
        (s.session.ibDir < 0 ∧ (b.l : Double) ≤ s.session.ibTarget) then
      return { s with session := { s.session with ibDir := 0 } }.flatten m b "ib_target"
    return s
  return s.eitherSide m 1 (decide (b.c > s.session.ibHi)) (decide (b.c < s.session.ibLo)) b.c
    "ib_break_long" "ib_break_short" fun dir s => { s with session := { s.session with
      ibDir := dir
      ibTarget := if dir > 0 then (s.session.ibHi : Double) + m.tc.ibExt * (rng : Double)
        else (s.session.ibLo : Double) - m.tc.ibExt * (rng : Double) } }

/-! ## Pullbacks -/

/-- The bars that reach a line of their side, with the extremes to be taken out. -/
def touches (up dn : Bool) (line tol : Double) (bars : List Bar) : Bool × ℚ × ℚ :=
  bars.foldl
    (fun (touched, trigHi, trigLo) x =>
      let long := up && decide ((x.l : Double) ≤ line + tol)
      let short := dn && decide (line - tol ≤ (x.h : Double))
      (touched || long || short, if long then max trigHi x.h else trigHi,
        if short then (if trigLo = 0 then x.l else min trigLo x.l) else trigLo))
    (false, 0, 0)

/-- The bars of a pullback, from the one before the last back. -/
def pullbackBars (s : TrendStrategy) : Option (List Bar) :=
  (List.range' 2 (min (m.tc.pullbackLookback + 1) s.size - 1).toNat).mapM fun (k : Nat) =>
    readAt s.tf (s.size - k)

/-- Enter where the close takes out the extreme of the pullback to a line. -/
def pullback (up dn : Bool) (line : Double) (longWhy shortWhy : String) (s : TrendStrategy) :
    Option TrendStrategy := do
  let bars ← s.pullbackBars m
  let (touched, trigHi, trigLo) := touches up dn line (m.tc.pullbackTolAtr * s.ind.atr) bars
  if touched = false then return s
  return s.eitherSide m 1 (up && decide (b.c > trigHi))
    (dn && decide (trigLo > 0) && decide (b.c < trigLo)) b.c longWhy shortWhy unnoted

def modeEmaPullback (s : TrendStrategy) : Option TrendStrategy := do
  if s.size < int32 (m.tc.emaSlow + 6) ∨ s.ind.emaSPrev5.length < 6 then return s
  let front ← s.ind.emaSPrev5.head?
  let above := decide (s.ind.emaS < s.ind.emaF)
  let below := decide (s.ind.emaF < s.ind.emaS)
  if s.turned m above below then return s.flatten m b "ema_flip"
  s.pullback m b (above && decide (front < s.ind.emaS)) (below && decide (s.ind.emaS < front))
    s.ind.emaF "ema_pullback_long" "ema_pullback_short"

def modeEmaRibbon (s : TrendStrategy) : Option TrendStrategy := do
  if s.size < int32 (m.tc.ribbonSlow + 6) then return s
  let up := decide (s.ind.emaRm < s.ind.emaRf) && decide (s.ind.emaRs < s.ind.emaRm)
  let dn := decide (s.ind.emaRf < s.ind.emaRm) && decide (s.ind.emaRm < s.ind.emaRs)
  if s.turned m (!dn) (!up) then return s.flatten m b "ribbon_unstack"
  if up = false ∧ dn = false then return s
  s.pullback m b up dn s.ind.emaRm "ribbon_pullback_long" "ribbon_pullback_short"

/-- The bar reaches a line within the tolerance, and closes beyond it. -/
def holds (line tol : Double) : Bool × Bool :=
  (decide ((b.l : Double) ≤ line + tol) && decide (line < (b.c : Double)),
    decide (line - tol ≤ (b.h : Double)) && decide ((b.c : Double) < line))

def modeVwap (s : TrendStrategy) : Option TrendStrategy := do
  let back := int32 (m.tc.vwapSlopeBars * m.tc.tf)
  let known : Int := s.day.vwapHist.length
  if s.day.inRth = false ∨ s.day.vwapV ≤ 0 ∨ known ≤ back then return s
  let prev ← readAt s.day.vwapHist (known - 1 - back)
  let vw := s.day.vwap
  let (long, short) := holds b (vw : Double) (m.tc.vwapTolAtr * s.ind.atr)
  return s.eitherSide m 1 (decide (vw > prev) && long) (decide (vw < prev) && short) b.c
    "vwap_hold_long" "vwap_hold_short" unnoted

def modeTrendDay (s : TrendStrategy) : Option TrendStrategy := do
  if s.modes.tdDir = 0 ∨ s.day.inRth = false then return s
  let ref := if m.tc.tdPullback = "ema" then s.ind.emaF else (s.day.vwap : Double)
  if ref ≤ 0 then return s
  let (long, short) := holds b ref (m.tc.vwapTolAtr * s.ind.atr)
  return s.eitherSide m 1 (decide (s.modes.tdDir > 0) && long && decide (b.c > b.o))
    (decide (s.modes.tdDir < 0) && short && decide (b.c < b.o)) b.c
    "trend_day_pullback_long" "trend_day_pullback_short" unnoted

/-- The direction of the opening drive, which is decided once. -/
def decideDrive (s : TrendStrategy) : TrendStrategy :=
  if s.modes.driveDone = false ∧ modOf m.hhmm ≥ int32 (s.day.rthOpenMod + m.tc.driveMinutes) then
    let mv := b.c - s.day.rthOpen
    { s with modes := { s.modes with
      driveDone := true
      driveDir := if m.tc.driveMinAtr * s.ind.atr ≤ ((|mv| : ℚ) : Double) then
          (if mv > 0 then 1 else -1)
        else 0 } }
  else s

def modeDrive (s : TrendStrategy) : Option TrendStrategy := do
  if s.day.inRth = false then return s
  let s := s.decideDrive m b
  if s.modes.driveDir = 0 ∨ m.hhmm < m.tc.driveEntryFrom ∨ m.hhmm ≥ m.tc.driveEntryTo then
    return s
  if s.size < 3 then return s
  let p ← s.previous
  return s.eitherSide m 1
    (decide (s.modes.driveDir > 0) && decide (p.c < p.o) && decide (b.c > p.h))
    (decide (s.modes.driveDir < 0) && decide (p.c > p.o) && decide (b.c < p.l)) b.c
    "drive_pullback_long" "drive_pullback_short" unnoted

def modeOrbRetest (s : TrendStrategy) : Option TrendStrategy := do
  let mins := s.minsSinceOpen b
  if mins < 0 then return s
  if mins < m.tc.ortMinutes then
    return { s with session := { s.session with
      ortHi := max s.session.ortHi b.h, ortLo := min s.session.ortLo b.l } }
  let s := { s with session := { s.session with
    ortSet := s.session.ortSet || decide (s.session.ortHi > s.session.ortLo) } }
  if s.session.ortSet = false then return s
  if s.session.ortArm = 0 then
    -- Wait for the break.
    if b.c > s.session.ortHi ∧ s.session.ortUsedLong = false then
      return { s with session := { s.session with ortArm := 1, ortAge := 0 } }
    if b.c < s.session.ortLo ∧ s.session.ortUsedShort = false then
      return { s with session := { s.session with ortArm := -1, ortAge := 0 } }
    return s
  let s := { s with session := { s.session with ortAge := s.session.ortAge + 1 } }
  let tol := m.tc.ortTolAtr * s.ind.atr
  let long := decide (s.session.ortArm > 0)
  if (if long then b.c < s.session.ortHi else b.c > s.session.ortLo) ∨
      s.session.ortAge > m.tc.ortMaxBars then
    return { s with session := { s.session with ortArm := 0 } }
  return s.eitherSide m 1
    (long && decide ((b.l : Double) ≤ (s.session.ortHi : Double) + tol) &&
      decide (b.c > s.session.ortHi))
    (!long && decide ((s.session.ortLo : Double) - tol ≤ (b.h : Double)) &&
      decide (b.c < s.session.ortLo)) b.c
    "orb_retest_long" "orb_retest_short" fun dir s => { s with session := { s.session with
      ortUsedLong := s.session.ortUsedLong || decide (dir > 0)
      ortUsedShort := s.session.ortUsedShort || decide (dir < 0)
      ortArm := 0 } }

end TrendStrategy

end RithmicEngine
