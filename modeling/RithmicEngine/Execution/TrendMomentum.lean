import RithmicEngine.Execution.TrendModes
/-!
# The momentum modes of the trend engine

Flips, channels, rates of change, swings and bursts of volume, and the modes that the clock
or the session's open decides.
-/
namespace RithmicEngine

/-- The Eastern day of the month. -/
def etDayOfMonth (tsUs : Int) : Int :=
  let sec := tsUs.tdiv 1000000
  (gmtime (sec - usEtOffset (gmtime sec) * 3600)).mday

/-- The buyers' share of a bar's volume. -/
def buyShare (b : Bar) : ℚ := if b.v > 0 then b.bv / b.v else 1 / 2

/-- The first bar of the lowest low and the first of the highest high, with their places. -/
def swing : List Bar → Option ((Nat × Bar) × (Nat × Bar))
  | [] => none
  | bar :: rest => some ((rest.zipIdx 1).foldl
      (fun found x => (if x.1.l < found.1.2.l then (x.2, x.1) else found.1,
        if x.1.h > found.2.2.h then (x.2, x.1) else found.2))
      ((0, bar), (0, bar)))

namespace TrendStrategy

variable (m : TrendMoment) (b : Bar)

/-! ## Flips and channels -/

def modeSupertrend (s : TrendStrategy) : Option TrendStrategy := do
  if s.size ≤ m.tc.stLen then return s
  let mid := (b.h + b.l) / 2
  let p ← s.previous
  let old := s.modes.stDir
  let up0 := (mid : Double) - m.tc.stMult * s.ind.atr
  let dn0 := (mid : Double) + m.tc.stMult * s.ind.atr
  let up := if old ≠ 0 ∧ s.modes.stUp < (p.c : Double) then max up0 s.modes.stUp else up0
  let dn := if old ≠ 0 ∧ (p.c : Double) < s.modes.stDn then min dn0 s.modes.stDn else dn0
  let dir : SignType :=
    if old ≥ 0 ∧ (b.c : Double) < up then -1
    else if old ≤ 0 ∧ dn < (b.c : Double) then 1
    else if old = 0 then (if b.c > mid then 1 else -1)
    else old
  let flipped := decide (dir ≠ old) && decide (old ≠ 0)
  let s := { s with modes := { s.modes with stUp := up, stDn := dn, stDir := dir } }
  if flipped ∧ s.sess.inPosition ∧ m.tc.exitOnFlip ∧ s.posDir ≠ dir then
    -- Stop and reverse, once the host reports flat.
    return { s with modes := { s.modes with reenterDir := dir } }.flatten m b "supertrend_flip"
  if ¬flipped ∧ ¬(s.modes.reenterDir ≠ 0 ∧ s.modes.reenterDir = dir) then return s
  return s.eitherSide m 1 (decide (dir > 0)) (decide (dir < 0)) b.c
    (if flipped then "supertrend_up" else "supertrend_reenter_up")
    (if flipped then "supertrend_down" else "supertrend_reenter_down") fun _ s =>
      { s with modes := { s.modes with reenterDir := 0 } }

def modeKeltner (s : TrendStrategy) : Option TrendStrategy := do
  if s.size < 22 then return s
  let ema := s.ind.ema20
  if s.turned m (decide (ema < (b.c : Double))) (decide ((b.c : Double) < ema)) then
    return s.flatten m b "keltner_mid_cross"
  let p ← s.previous
  let (long, short) := crosses b p (ema + m.tc.kcMult * s.ind.atr) (ema - m.tc.kcMult * s.ind.atr)
  return s.eitherSide m 1 long short b.c "keltner_break_up" "keltner_break_down" unnoted

def modeIchimoku (s : TrendStrategy) : Option TrendStrategy := do
  let n := s.size
  if n < int32 (int32 (m.tc.ichiSenkou + m.tc.ichiKijun) + 2) then return s
  let kijun ← s.midRange n m.tc.ichiKijun
  let kijunPrev ← s.midRange (n - 1) m.tc.ichiKijun
  -- The cloud for this bar was drawn so many bars ago.
  let back := n - m.tc.ichiKijun
  let tenkanThen ← s.midRange back m.tc.ichiTenkan
  let kijunThen ← s.midRange back m.tc.ichiKijun
  let spanA := (tenkanThen + kijunThen) / 2
  let spanB ← s.midRange back m.tc.ichiSenkou
  if s.turned m (decide (b.c > kijun)) (decide (b.c < kijun)) then
    return s.flatten m b "kijun_cross"
  let p ← s.previous
  return s.eitherSide m 1
    (decide (p.c ≤ kijunPrev) && decide (b.c > kijun) && decide (b.c > max spanA spanB))
    (decide (p.c ≥ kijunPrev) && decide (b.c < kijun) && decide (b.c < min spanA spanB)) b.c
    "ichimoku_kijun_up" "ichimoku_kijun_down" unnoted

/-! ## Rates of change, deltas and swings -/

/-- The change of the close over so many bars, in average true ranges. -/
def rocAt (i : Int) (s : TrendStrategy) : Option Double := do
  let now ← readAt s.tf i
  let past ← readAt s.tf (i - m.tc.rocBars)
  return ((now.c - past.c : ℚ) : Double) / s.ind.atr

def modeRoc (s : TrendStrategy) : Option TrendStrategy := do
  let n := s.size
  if n ≤ int32 (m.tc.rocBars + m.tc.rocHiBars) then return s
  let r ← s.rocAt m (n - 1)
  let past ← (indices (n - 1 - m.tc.rocHiBars) (n - 1)).mapM fun (i : Nat) => s.rocAt m i
  let hi := past.foldl max ((-doubleMax : ℚ) : Double)
  let lo := past.foldl min ((doubleMax : ℚ) : Double)
  return s.eitherSide m 1 (decide (m.tc.rocMinAtr ≤ r) && decide (hi < r))
    (decide (r ≤ -m.tc.rocMinAtr) && decide (r < lo)) b.c "roc_new_high" "roc_new_low" unnoted

def modeDelta (s : TrendStrategy) : Option TrendStrategy := do
  let n := s.size
  if n < int32 (m.tc.dtBars + 2) ∨ s.day.inRth = false then return s
  let need := wrap64 (m.tc.dtBars * m.tc.tf)
  let known := s.day.deltaHist.length
  if known < need then return s
  let bars ← readFrom s.tf (n - 1 - m.tc.dtBars) (n - 1)
  let deltas ← readFrom s.day.deltaHist ((known : Int) - need) known
  let d := s.day.cumDelta
  return s.eitherSide m 1
    (decide (b.c > highest bars) && decide (d > deltas.foldl max (-doubleMax)))
    (decide (b.c < lowest bars) && decide (d < deltas.foldl min doubleMax)) b.c
    "price_delta_high" "price_delta_low" unnoted

def modeFib (s : TrendStrategy) : Option TrendStrategy := do
  let n := s.size
  if n < int32 (m.tc.fibSwingBars + 2) ∨ s.ind.emaF ≤ 0 ∨ s.ind.emaS ≤ 0 then return s
  let bars ← readFrom s.tf (n - 1 - m.tc.fibSwingBars) (n - 1)
  let p ← s.previous
  match swing bars with
  | none => return s
  | some (low, high) =>
    let rng := ((high.2.h - low.2.l : ℚ) : Double)
    let wide := !decide (rng < s.ind.atr)
    let top := (high.2.h : Double)
    let bottom := (low.2.l : Double)
    -- The impulse runs from the low to the high, or the other way round.
    let rise := decide (s.ind.emaS < s.ind.emaF) && decide (high.1 > low.1) && wide
    let fall := decide (s.ind.emaF < s.ind.emaS) && decide (low.1 > high.1) && wide
    return s.eitherSide m 1
      (rise && decide ((p.l : Double) ≤ top - m.tc.fibLo * rng) &&
        decide (top - m.tc.fibHi * rng ≤ (p.l : Double)) && decide (b.c > p.h))
      (fall && decide (bottom + m.tc.fibLo * rng ≤ (p.h : Double)) &&
        decide ((p.h : Double) ≤ bottom + m.tc.fibHi * rng) && decide (b.c < p.l)) b.c
      "fib_retrace_long" "fib_retrace_short" unnoted

/-! ## Volume -/

/-- The average volume of so many completed bars before the current one. -/
def avgVolPrior (n : Int) (s : TrendStrategy) : Option Double := do
  let known : Int := s.ind.volHist.length
  if n ≤ 0 ∨ known ≤ n then return 0
  let past ← readFrom s.ind.volHist (known - 1 - n) (known - 1)
  average m (past.sum : Double) n

def modeVolumeBurst (s : TrendStrategy) : Option TrendStrategy := do
  let avg ← s.avgVolPrior m m.tc.volAvgBars
  if avg ≤ 0 ∨ (b.v : Double) < m.tc.vbVolMult * avg then return s
  let rng := b.h - b.l
  if rng ≤ 0 then return s
  let loc := (((b.c - b.l) / rng : ℚ) : Double)
  let share := (buyShare b : Double)
  return s.eitherSide m 1
    (decide (m.tc.vbCloseLoc ≤ loc) && decide (m.tc.vbDeltaMin ≤ share) &&
      (!m.tc.vbTrendAgree || decide (s.ind.emaS < s.ind.emaF)))
    (decide (loc ≤ 1 - m.tc.vbCloseLoc) && decide (share ≤ 1 - m.tc.vbDeltaMin) &&
      (!m.tc.vbTrendAgree || decide (s.ind.emaF < s.ind.emaS))) b.c
    "volume_burst_long" "volume_burst_short" unnoted

/-! ## The clock and the open -/

def modeHold (s : TrendStrategy) : Option TrendStrategy := do
  if s.sess.inPosition ∨ s.session.holdDone then return s
  let diff := modOf m.hhmm - modOf m.tc.holdEntryHhmm
  if diff < 0 ∨ diff > 5 then return s
  -- One attempt a session.
  let s := { s with session := { s.session with holdDone := true } }
  let day := etDayOfMonth b.ts
  if m.tc.holdTom ∧ ¬(day ≥ 28 ∨ day ≤ 3) then return s
  if m.tc.holdPreEvent ∧ s.eventNextDay = false then return s
  if m.tc.holdUpDay ∧ s.day.inRth ∧ ¬(s.lastPx > s.day.rthOpen) then return s
  let dir : SignType := if m.tc.holdDir < 0 then -1 else 1
  return s.enter m dir b.c (if dir > 0 then "hold_long" else "hold_short")

def modeGap (s : TrendStrategy) : Option TrendStrategy := do
  if s.day.inRth = false ∨ s.day.havePrev = false ∨ s.modes.gapDone then return s
  if modOf m.hhmm < int32 (s.day.rthOpenMod + m.tc.gapWaitMin) then return s
  let s := { s with modes := { s.modes with gapDone := true } }
  let gap := s.day.gap
  if ((|gap| : ℚ) : Double) < m.tc.gapMinPts then return s
  let filled := if gap > 0 then s.day.rthOpen - s.day.dayLo else s.day.dayHi - s.day.rthOpen
  if m.tc.gapFillFrac * ((|gap| : ℚ) : Double) ≤ (filled : Double) then return s
  return s.eitherSide m 1 (decide (gap > 0)) (decide (gap < 0)) b.c
    "gap_and_go_long" "gap_and_go_short" unnoted

def modeRs (s : TrendStrategy) : Option TrendStrategy := do
  let back := m.tc.rsLookbackMin
  let minutes : Int := s.m1Hist.length
  let references : Int := s.refCloses.length
  if minutes ≤ back ∨ references ≤ back ∨ s.ind.emaF ≤ 0 then return s
  let past ← readAt s.m1Hist (minutes - 1 - back)
  let ref ← s.refCloses.getLast?
  let refPast ← readAt s.refCloses (references - 1 - back)
  let nqR := 10000 * ((b.c : Double) / (past.c : Double) - 1)
  let esR := 10000 * ((ref : Double) / (refPast : Double) - 1)
  let spread := nqR - esR
  return s.eitherSide m 1 (decide (m.tc.rsMinBp ≤ spread) && decide (0 < nqR))
    (decide (spread ≤ -m.tc.rsMinBp) && decide (nqR < 0)) b.c
    "nq_leads_es_up" "nq_leads_es_down" unnoted

def modeTod (s : TrendStrategy) : Option TrendStrategy := do
  if s.modes.todDone ∨ m.hhmm < m.tc.todHhmm then return s
  if m.hhmm ≥ int32 (m.tc.todHhmm + m.tc.todWindowMin) then
    return { s with modes := { s.modes with todDone := true } }
  let back := m.tc.todLookbackMin
  let minutes : Int := s.m1Hist.length
  if minutes ≤ back ∨ s.ind.atr ≤ 0 then return s
  let past ← readAt s.m1Hist (minutes - 1 - back)
  let mv := b.c - past.c
  if ((|mv| : ℚ) : Double) < m.tc.todMinAtr * s.ind.atr then return s
  return { s with modes := { s.modes with todDone := true } }.eitherSide m 1 (decide (mv > 0))
    (decide (mv < 0)) b.c "tod_continuation_long" "tod_continuation_short" unnoted

/-- The minute closes of the session and the averages they are measured against. -/
def closesBesideVwap (s : TrendStrategy) : Option (List (ℚ × ℚ)) :=
  let minutes := s.m1Hist.length
  let averages := s.day.vwapHist.length
  let place := fun i : Nat => (minutes : Int) - averages + i
  ((List.range (min averages minutes)).filter fun i => decide (wrap64 (place i) < minutes)).mapM
    fun i => do
      let vw ← s.day.vwapHist[i]?
      let bar ← readAt s.m1Hist (place i)
      return (bar.c, vw)

def recogniseTrendDay (s : TrendStrategy) : Option TrendStrategy := do
  if s.day.inRth = false ∨ s.modes.tdDone ∨ s.ind.atr ≤ 0 then return s
  if b.mod < int32 (s.day.rthOpenMod + m.tc.tdCheckMin) then return s
  let mv := b.c - s.day.rthOpen
  let dir : SignType :=
    if m.tc.tdMinAtr * s.ind.atr ≤ ((|mv| : ℚ) : Double) then (if mv > 0 then 1 else -1) else 0
  let beside ← s.closesBesideVwap
  let known := beside.filter fun x => decide (x.2 > 0)
  let ok := known.countP fun x =>
    (decide (dir > 0) && decide (x.1 > x.2)) || (decide (dir < 0) && decide (x.1 < x.2))
  let frac : ℚ := if known.length = 0 then 0 else ok / known.length
  return { s with modes := { s.modes with
    tdDone := true
    tdDir := if dir ≠ 0 ∧ m.tc.tdVwapFrac ≤ (frac : Double) then dir else 0 } }

end TrendStrategy

end RithmicEngine
