import RithmicEngine.Execution.MtfIndicators
/-!
# The scalper's patterns

What the scalper looks for on a completed bar: how the higher frames and the averages lie,
the regime, flags and the retest of their breaks, the start of a trend, fair-value gaps,
swept levels, and divergence from the reference market. Most of it comes twice, for the
long side and for the short one. A read outside the history has no value.
-/
namespace RithmicEngine

open Newest

/-! ## Sides -/

/-- Over for a long, under for a short. -/
def ahead (long : Bool) (x y : Double) : Bool := if long then decide (x > y) else decide (x < y)

/-- Not under for a long, not over for a short. -/
def reaches (long : Bool) (x y : Double) : Bool := if long then decide (x ≥ y) else decide (x ≤ y)

/-- A price moved the way that the side gains. -/
def toward (long : Bool) (x d : Double) : Double := if long then x + d else x - d

/-- The end of a bar that comes first against the side. -/
def MinuteBar.near (long : Bool) (bar : MinuteBar) : Double := if long then bar.low else bar.high

/-! ## Reads of a history -/

def place {α : Type} (xs : List α) (i : Int) : Option α := if i < 0 then none else xs[i.toNat]?

/-- The entries of a loop from one place up to another. -/
def entriesBetween {α : Type} (xs : List α) (first last : Int) : Option (List α) :=
  if last < first then some []
  else if 0 ≤ first ∧ last < xs.length then
    some ((xs.drop first.toNat).take (last - first + 1).toNat)
  else none

/-- The bar in the middle of the last ones, and whether it is a high and a low among them.
Too short a history has none. -/
def pivot (len : Int) (hist : List MinuteBar) : Option (Option (MinuteBar × Bool × Bool)) :=
  let c := (hist.length : Int) - 1 - len
  if c - len ≥ 0 then do
    let others := (← entriesBetween hist (c - len) (c - 1)) ++
      (← entriesBetween hist (c + 1) (c + len))
    let centre ← place hist c
    return some (centre, others.all fun b => decide (b.high < centre.high),
      others.all fun b => decide (b.low > centre.low))
  else some none

variable (cfg : MtfScalperConfig) (bar : MinuteBar)

/-! ## The higher frames -/

namespace MtfAlignment

/-- The first frame lies to a side, by its completed bars. -/
def leans (long : Bool) (a : MtfAlignment) : Bool :=
  a.htf.hasCompleted && ahead long a.htf.emaF a.htf.emaS &&
    (!cfg.htfNeedPrice || ahead long a.htf.cls a.htf.emaF) &&
    (!cfg.htfSlopeReq || (decide (a.htf.slope ≠ .nan) && ahead long a.htf.slope 0))

def leans2 (long : Bool) (a : MtfAlignment) : Bool :=
  !cfg.useHtf2 || (a.htf2.hasCompleted && ahead long a.htf2.emaF a.htf2.emaS)

def read (a : MtfAlignment) : MtfAlignment :=
  { a with
    htfUp := a.leans cfg true
    htfDn := a.leans cfg false
    mtfUp := !cfg.useMtf || (a.leans cfg true && a.leans2 cfg true)
    mtfDn := !cfg.useMtf || (a.leans cfg false && a.leans2 cfg false) }

/-- The frames after a minute. -/
def aggregate (a : MtfAlignment) : Option MtfAlignment := do
  let htf ← a.htf.update cfg.htfMinutes cfg.htfFastLen cfg.htfSlowLen cfg.atrLen bar
  let htf2 ← a.htf2.updateIf cfg.useHtf2 cfg.htf2Minutes cfg.htfFastLen cfg.htfSlowLen
    cfg.atrLen bar
  return { a with htf := htf, htf2 := htf2 }

end MtfAlignment

/-! ## The entry frame -/

namespace MtfIndicators

variable (i : MtfIndicators)

def rsiBeyond (long : Bool) : Bool := ahead long i.rsi cfg.rsiMid

/-- The oscillator crosses its average, and not out of the far zone. -/
def stochCross (long : Bool) : Bool :=
  decide (i.stochK ≠ .nan ∧ i.stochD ≠ .nan ∧ i.stochKPrev ≠ .nan ∧ i.stochDPrev ≠ .nan) &&
    ahead long i.stochK i.stochD && reaches (!long) i.stochKPrev i.stochDPrev &&
    ahead (!long) i.stochK (if long then cfg.stochOb else cfg.stochOs)

def vwapBeyond (long : Bool) : Bool :=
  !cfg.useVwap || (decide (i.vwap ≠ .nan) && ahead long bar.close i.vwap)

/-- Ranks are used, and otherwise fixed bounds. -/
def relMode : Bool := decide (cfg.regimeMode ≠ "fixed")

def atrOk : Bool :=
  !cfg.useAtrFloor ||
    (if relMode cfg then decide (i.atrRank ≥ cfg.atrRankMin)
    else decide (i.atr / cfg.tickSize ≥ ((cfg.minAtrTicks : ℚ) : Double)))

def adxPass : Bool :=
  let adxPrev := (i.adxHist.reverse[1]?).getD .nan
  (if relMode cfg then decide (i.adxRank ≥ cfg.adxRankMin)
    else decide (i.adx ≠ .nan ∧ i.adx ≥ cfg.adxMin)) ||
    (cfg.adxRisingPass &&
      decide (i.adx ≠ .nan ∧ adxPrev ≠ .nan ∧ i.adx > adxPrev ∧ i.adx > 15))

def atrPass : Bool :=
  let atrAvg50 := smaWindow i.atrHist (min cfg.atrAvgLen i.atrHist.length)
  let atrSma20 := smaWindow i.atrHist (min 20 i.atrHist.length)
  (if relMode cfg then decide (i.atrRank ≥ cfg.atrRankMinRegime)
    else decide (atrAvg50 ≠ .nan ∧ i.atr ≥ atrAvg50 * (cfg.atrPctOfAvg / 100))) ||
    (cfg.atrExpansionPass &&
      decide (i.atrPrev ≠ .nan ∧ atrSma20 ≠ .nan ∧ i.atr > i.atrPrev ∧ i.atr > atrSma20))

def sprPass : Bool :=
  decide (Double.abs (i.emaFast - i.emaSlow) ≥ cfg.emaSpreadMinAtr * i.atr)

/-- Enough of the components that are switched on pass. -/
def regimeRaw : Bool :=
  let enabled : Int := [cfg.regAdxOn, cfg.regAtrOn, cfg.regSpreadOn].countP id
  let passed : Int := [cfg.regAdxOn && i.adxPass cfg, cfg.regAtrOn && i.atrPass cfg,
    cfg.regSpreadOn && i.sprPass cfg].countP id
  !cfg.useRegime || decide (enabled = 0) ||
    decide (passed ≥ min cfg.regimeComponentsRequired enabled)

end MtfIndicators

/-- The trend, the momentum and the regime after a bar. -/
def MtfRegime.next (i : MtfIndicators) (r : MtfRegime) : MtfRegime :=
  let trend (long : Bool) : Bool := ahead long i.emaFast i.emaSlow &&
    (!cfg.requirePriceBeyondFast || ahead long bar.close i.emaFast)
  let mom (long : Bool) : Bool := !cfg.useMacd || (ahead long i.macdHist 0 &&
    (!cfg.macdHistExpanding || ahead long i.macdHist i.macdHistPrev))
  let count := if i.regimeRaw cfg then r.regimeCount + 1 else 0
  { trendUpLoose := ahead true i.emaFast i.emaSlow
    trendDnLoose := ahead false i.emaFast i.emaSlow
    trendUp := trend true
    trendDn := trend false
    momUp := mom true
    momDn := mom false
    regimeCount := count
    regimeActive := decide (count ≥ cfg.regimeBars) }

def MtfRegime.loose (long : Bool) (r : MtfRegime) : Bool :=
  if long then r.trendUpLoose else r.trendDnLoose

def MtfRegime.trend (long : Bool) (r : MtfRegime) : Bool := if long then r.trendUp else r.trendDn

def MtfRegime.mom (long : Bool) (r : MtfRegime) : Bool := if long then r.momUp else r.momDn

/-! ## Flags -/

namespace MtfFlag

/-- A double rounded to a whole number; only numbers have one. -/
def lroundOf : Double → Option Int
  | .fin x => some (int32 (lround x))
  | _ => none

def poleEff (i : MtfIndicators) : Option Int :=
  if cfg.adaptivePole then do
    let span : Double := ((int32 (cfg.poleLenMax - cfg.poleLenMin) : ℚ) : Double)
    return max 2 (← lroundOf (((cfg.poleLenMax : ℚ) : Double) - i.atrRank / 100 * span))
  else some cfg.poleLenFixed

/-- The extremes of a window, each with its place: the first one of its price. -/
structure Extremes where
  hiWin : ℚ := -1e300
  loWin : ℚ := 1e300
  hiIdx : Int := -1
  loIdx : Int := -1

def Extremes.see (e : Extremes) (entry : MinuteBar × Nat) (first : Int) : Extremes where
  hiWin := if entry.1.high > e.hiWin then entry.1.high else e.hiWin
  hiIdx := if entry.1.high > e.hiWin then first + entry.2 else e.hiIdx
  loWin := if entry.1.low < e.loWin then entry.1.low else e.loWin
  loIdx := if entry.1.low < e.loWin then first + entry.2 else e.loIdx

/-- The slope of the least squares through the closes. -/
def closeSlope (len : Int) (window : List MinuteBar) : ℚ :=
  let points := window.zipIdx.map fun entry => ((entry.2 : ℚ), entry.1.close)
  let sx := (points.map fun p => p.1).sum
  let sy := (points.map fun p => p.2).sum
  let sxy := (points.map fun p => p.1 * p.2).sum
  let sxx := (points.map fun p => p.1 * p.1).sum
  let den := (len : ℚ) * sxx - sx * sx
  if den ≠ 0 then ((len : ℚ) * sxy - sx * sy) / den else 0

/-- The flag on the bars before this one: a pole, and a narrow drift against it. -/
def nextPattern (i : MtfIndicators) (hist : List MinuteBar) (f : MtfFlag) : Option MtfFlag := do
  let blank := { f with
    bullFlag := false
    bearFlag := false
    bullBreak := false
    bearBreak := false
    flagHi := .nan
    flagLo := .nan }
  let win := int32 ((← poleEff cfg i) + cfg.flagLen + 2)
  let n : Int := hist.length
  if n ≥ win + 1 ∧ i.atr ≠ .nan then
    let window ← entriesBetween hist (n - 1 - win) (n - 2)
    let e := window.zipIdx.foldl (fun e entry => e.see entry (n - 1 - win)) ({} : Extremes)
    let hiOff := e.hiIdx - (n - 1)
    let loOff := e.loIdx - (n - 1)
    let drift ← entriesBetween hist (n - 1 - cfg.flagLen) (n - 2)
    let fhi := drift.foldl (fun h b => max h b.high) (-1e300 : ℚ)
    let flo := drift.foldl (fun l b => min l b.low) (1e300 : ℚ)
    let slope : Double := closeSlope cfg.flagLen drift
    let poleRise : Double := (e.hiWin - e.loWin : ℚ)
    let pole := decide (poleRise ≥ cfg.poleMinAtr * i.atr)
    let poleUp := pole && decide (loOff < hiOff ∧ -hiOff ≤ cfg.poleRecencyBars)
    let poleDn := pole && decide (hiOff < loOff ∧ -loOff ≤ cfg.poleRecencyBars)
    let rngOk := decide (((fhi - flo : ℚ) : Double) ≤ cfg.flagMaxRngAtr * i.atr)
    let retrBull := decide (((e.hiWin - flo : ℚ) : Double) ≤ cfg.maxRetrPct / 100 * poleRise)
    let retrBear := decide (((fhi - e.loWin : ℚ) : Double) ≤ cfg.maxRetrPct / 100 * poleRise)
    let driftBull := decide (slope ≤ 0.25 * i.atr ∧ slope ≥ -cfg.flagDriftAtr * i.atr)
    let driftBear := decide (slope ≥ (-0.25) * i.atr ∧ slope ≤ cfg.flagDriftAtr * i.atr)
    let bull := poleUp && rngOk && retrBull && driftBull
    let bear := poleDn && rngOk && retrBear && driftBear
    return { blank with
      flagHi := fhi
      flagLo := flo
      bullFlag := bull
      bearFlag := bear
      bullBreak := bull && decide (bar.close > fhi)
      bearBreak := bear && decide (bar.close < flo) }
  else return blank

/-- The level of a break is watched from the next bar on. -/
def watch (bi : Int) (posDir : SignType) (f : MtfFlag) : MtfFlag :=
  let f := if f.bullBreak = true ∧ f.boLvlL = .nan ∧ posDir ≤ 0 then
      { f with boLvlL := f.flagHi, boBarL := bi }
    else f
  if f.bearBreak = true ∧ f.boLvlS = .nan ∧ posDir ≥ 0 then
    { f with boLvlS := f.flagLo, boBarS := bi }
  else f

/-- The bar comes back to the level of a break and closes beyond it. -/
def retests (long : Bool) (i : MtfIndicators) (lvl : Double) : Bool :=
  reaches (!long) (bar.near long) (toward long lvl (cfg.retestTolAtr * i.atr)) &&
    reaches long bar.close lvl &&
    (!cfg.retestConfClose || ahead long bar.close bar.opened)

/-- The level is given up. -/
def retires (long : Bool) (i : MtfIndicators) (r : MtfRegime) (bi : Int) (lvl : Double)
    (since : Int) : Bool :=
  ahead (!long) bar.close (toward (!long) lvl (cfg.retestInvalAtr * i.atr)) ||
    decide (bi - since > cfg.retestMaxBars) ||
    !(if cfg.retestStrictTrend then r.trend long else r.loose long)

def nextRetest (i : MtfIndicators) (r : MtfRegime) (bi : Int) (posDir : SignType)
    (f : MtfFlag) : MtfFlag :=
  let f := f.watch bi posDir
  let watchL := decide (f.boLvlL ≠ .nan ∧ bi > f.boBarL)
  let watchS := decide (f.boLvlS ≠ .nan ∧ bi > f.boBarS)
  let f := { f with
    retestL := watchL && retests cfg bar true i f.boLvlL
    retestS := watchS && retests cfg bar false i f.boLvlS }
  let f := if (watchL && retires cfg bar true i r bi f.boLvlL f.boBarL) = true then
      { f with boLvlL := .nan, boBarL := -1 }
    else f
  if (watchS && retires cfg bar false i r bi f.boLvlS f.boBarS) = true then
    { f with boLvlS := .nan, boBarS := -1 }
  else f

end MtfFlag

/-! ## The start of a trend -/

namespace MtfOnset

/-- The averages cross, and the momentum agrees. -/
def flips (long : Bool) (i : MtfIndicators) : Bool :=
  decide (i.emaFastPrev ≠ .nan) && ahead long i.emaFast i.emaSlow &&
    reaches (!long) i.emaFastPrev i.emaSlowPrev &&
    (!cfg.onsetNeedMacd || ahead long i.macdHist 0 ||
      (decide (i.macdLinePrev ≠ .nan) && ahead long i.macdLine i.macdSig &&
        reaches (!long) i.macdLinePrev i.macdSigPrev))

def live (long : Bool) (r : MtfRegime) (bi since : Int) : Bool :=
  decide (since ≥ 0 ∧ bi - since ≤ cfg.onsetWindowBars) && r.loose long

/-- The bar dips to the fast average and closes a little beyond it. -/
def pulls (long : Bool) (i : MtfIndicators) (r : MtfRegime) : Bool :=
  reaches (!long) (bar.near long) i.emaFast && ahead long bar.close i.emaFast &&
    reaches (!long) bar.close (toward long i.emaFast (cfg.onsetMaxExtAtr * i.atr)) && r.mom long

/-- The bar closes a little beyond the last pivot. -/
def breaks (long : Bool) (i : MtfIndicators) (last : Double) : Bool :=
  decide (last ≠ .nan) && ahead long bar.close last &&
    reaches (!long) bar.close (toward long last (0.5 * i.atr))

def next (i : MtfIndicators) (r : MtfRegime) (hist : List MinuteBar) (bi : Int)
    (posDir : SignType) (o : MtfOnset) : Option MtfOnset := do
  let sinceL := if flips cfg true i = true ∧ o.onsetBarL < 0 ∧ posDir ≤ 0 then bi else o.onsetBarL
  let sinceS := if flips cfg false i = true ∧ o.onsetBarS < 0 ∧ posDir ≥ 0 then bi else o.onsetBarS
  let liveL := live cfg true r bi sinceL
  let liveS := live cfg false r bi sinceS
  let turn ← pivot cfg.onsetSwingLen hist
  let lastPh := match turn with
    | some (centre, true, _) => (centre.high : Double)
    | _ => o.lastPh
  let lastPl := match turn with
    | some (centre, _, true) => (centre.low : Double)
    | _ => o.lastPl
  let pullL := liveL && pulls cfg bar true i r
  let pullS := liveS && pulls cfg bar false i r
  let structL := liveL && breaks bar true i lastPh
  let structS := liveS && breaks bar false i lastPl
  let trigL := cfg.useOnset && (pullL || structL)
  let trigS := cfg.useOnset && (pullS || structS)
  return {
    onsetBarL := if trigL = true ∨ r.trendUpLoose = false then -1 else sinceL
    onsetBarS := if trigS = true ∨ r.trendDnLoose = false then -1 else sinceS
    lastPh := lastPh
    lastPl := lastPl
    onsetPullL := pullL
    onsetPullS := pullS
    onsetStructL := structL
    onsetStructS := structS
    onsetTrigL := trigL
    onsetTrigS := trigS }

end MtfOnset

end RithmicEngine
