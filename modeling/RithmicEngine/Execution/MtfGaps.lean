import RithmicEngine.Execution.MtfPatterns
/-!
# The scalper's gaps and levels

The rest of what the scalper looks for: fair-value gaps and their retest, the levels of
days, weeks and sessions and the sweep of one, and the reference market. A container that
is popped while it is empty has no value.
-/
namespace RithmicEngine

variable (cfg : MtfScalperConfig) (bar : MinuteBar)

/-! ## Fair-value gaps -/

/-- The gap between a bar and the one before the bar before it, upward. -/
def bullGap (least : Double) (newer older : MinuteBar) (bi : Int) : List Gap :=
  if newer.low > older.high ∧ ((newer.low - older.high : ℚ) : Double) ≥ least then
    [{ top := newer.low, bot := older.high, bar := bi, used := false }]
  else []

def bearGap (least : Double) (newer older : MinuteBar) (bi : Int) : List Gap :=
  if newer.high < older.low ∧ ((older.low - newer.high : ℚ) : Double) ≥ least then
    [{ top := older.low, bot := newer.high, bar := bi, used := false }]
  else []

namespace Gap

def mid (g : Gap) : ℚ := (g.top + g.bot) / 2

/-- The bar fills the gap, by the configured rule. -/
def filled (bull : Bool) (g : Gap) : Bool :=
  if bull then (if cfg.fvgMidInvalidate then decide (bar.close < g.mid)
    else decide (bar.low ≤ g.bot))
  else (if cfg.fvgMidInvalidate then decide (bar.close > g.mid) else decide (bar.high ≥ g.top))

def expired (bi : Int) (g : Gap) : Bool := decide (bi - g.bar > cfg.fvgMaxBars)

/-- The bar trades into the gap and closes on the gap's side of its middle. -/
def touched (bull : Bool) (g : Gap) : Bool :=
  if bull then decide (bar.low ≤ g.top ∧ bar.low > g.bot ∧ bar.close ≥ g.mid)
  else decide (bar.high ≥ g.bot ∧ bar.high < g.top ∧ bar.close ≤ g.mid)

/-- The first touch on a later bar than the gap's own. -/
def retested (bull : Bool) (bi : Int) (g : Gap) : Bool :=
  !g.used && decide (bi > g.bar) && g.touched bar bull

end Gap

/-- The gaps that are left, and the retest with the middle of the oldest gap retested. -/
structure Maintained where
  gaps : List Gap := []
  retest : Bool := false
  level : Double := .nan

/-- The gaps are gone through from the newest to the oldest. -/
def fvgMaintain (bull : Bool) (bi : Int) (gaps : List Gap) : Maintained :=
  gaps.foldr (fun g (after : Maintained) =>
    if (g.filled cfg bar bull || g.expired cfg bi) = true then after
    else if g.retested bar bull bi = true then
      { gaps := { g with used := true } :: after.gaps, retest := true, level := g.mid }
    else { after with gaps := g :: after.gaps }) {}

/-- The oldest gaps are popped while there are too many. -/
def popGaps (keep : Int) : List Gap → Option (List Gap)
  | [] => if (0 : Int) > keep then none else some []
  | g :: rest => if ((rest.length + 1 : Nat) : Int) > keep then popGaps keep rest
    else some (g :: rest)

namespace MtfFvg

/-- The bars that a gap may lie between on this bar, newer and older, with the least width:
the entry frame's own, or those of the structure frame when it has just completed one. -/
def formed (atr : Double) (hist : List MinuteBar) (f : MtfFvg) :
    Option (MinuteBar × MinuteBar × Double) :=
  if cfg.fvgStructMode = false then do
    return (bar, ← hist.reverse[2]?, cfg.fvgMinAtr * atr)
  else if f.structRolled = true ∧ f.struct5.atrRma ≠ .nan then do
    let done := f.struct5.done.reverse
    return (← done[0]?, ← done[2]?, cfg.fvgMinAtr * f.struct5.atrRma)
  else none

def next (atr : Double) (hist : List MinuteBar) (bi : Int) (f : MtfFvg) : Option MtfFvg :=
  let f := { f with
    fvgRetestL := false
    fvgRetestS := false
    fvgRetLvlL := .nan
    fvgRetLvlS := .nan }
  if cfg.useFvg = false then some f
  else do
    let (newBull, newBear) := match f.formed cfg bar atr hist with
      | some (newer, older, least) => (bullGap least newer older bi, bearGap least newer older bi)
      | none => ([], [])
    let bull := fvgMaintain cfg bar true bi (f.fvgBull ++ newBull)
    let bear := fvgMaintain cfg bar false bi (f.fvgBear ++ newBear)
    return { f with
      fvgBull := ← popGaps cfg.fvgMaxKeep bull.gaps
      fvgBear := ← popGaps cfg.fvgMaxKeep bear.gaps
      fvgRetestL := bull.retest
      fvgRetestS := bear.retest
      fvgRetLvlL := bull.level
      fvgRetLvlS := bear.level }

/-- The structure frame after a minute. A bucket that ends is told by the number of the
completed bars that are kept. -/
def aggregate (f : MtfFvg) : Option MtfFvg :=
  if cfg.fvgStructMode then do
    let after ← f.struct5.update cfg.fvgStructTfMin 2 3 cfg.atrLen bar
    return { f with
      struct5 := after
      structRolled := decide (after.done.length ≠ f.struct5.done.length) }
  else some { f with structRolled := false }

end MtfFvg

/-! ## Levels -/

namespace MtfLevels

/-- The levels at the first bar of a trading day. -/
def rollDay (gday : Int) (l : MtfLevels) : MtfLevels :=
  let l := if l.dayBarKey ≥ 0 ∧ l.dayBar.volume > 0 then
      { l with pdh := l.dayBar.high, pdl := l.dayBar.low, pdc := l.dayBar.close }
    else l
  { l with dayBar := {}, dayBarKey := gday, pdhSwept := false, pdlSwept := false }

def rollWeek (wkey : Int) (l : MtfLevels) : MtfLevels :=
  let l := if l.weekBarKey ≥ 0 ∧ l.weekBar.volume > 0 then
      { l with pwh := l.weekBar.high, pwl := l.weekBar.low }
    else l
  { l with weekBar := {}, weekBarKey := wkey, pwhSwept := false, pwlSwept := false }

def aggregate (l : MtfLevels) : MtfLevels :=
  { l with dayBar := bar.extend l.dayBar, weekBar := bar.extend l.weekBar }

/-- The extremes of the session window. -/
def seeSession (sessStart inSession : Bool) (l : MtfLevels) : MtfLevels :=
  let l := if sessStart then
      { l with
        psessH := l.sessH
        psessL := l.sessL
        sessH := bar.high
        sessL := bar.low
        pshSwept := false
        pslSwept := false }
    else l
  if cfg.useSession = true ∧ inSession = true then
    { l with
      sessH := if l.sessH = .nan then (bar.high : Double) else max l.sessH bar.high
      sessL := if l.sessL = .nan then (bar.low : Double) else min l.sessL bar.low }
  else l

/-- The bar trades through a low and closes over it. -/
def takesLow (pen lvl : Double) : Bool :=
  decide (lvl ≠ .nan ∧ (bar.low : Double) < lvl - pen ∧ (bar.close : Double) > lvl)

def takesHigh (pen lvl : Double) : Bool :=
  decide (lvl ≠ .nan ∧ (bar.high : Double) > lvl + pen ∧ (bar.close : Double) < lvl)

/-- Each level is swept once in its period. -/
def sweep (atr : Double) (l : MtfLevels) : MtfLevels :=
  let l := { l with sweepL := false, sweepS := false, sweepLvlL := .nan, sweepLvlS := .nan }
  if cfg.useLevels = false then l
  else
    let pen := cfg.sweepPenAtr * atr
    let l := if (cfg.lvPd && !l.pdlSwept && takesLow bar pen l.pdl) = true then
      { l with pdlSwept := true, sweepL := true, sweepLvlL := l.pdl } else l
    let l := if (cfg.lvPd && !l.pdhSwept && takesHigh bar pen l.pdh) = true then
      { l with pdhSwept := true, sweepS := true, sweepLvlS := l.pdh } else l
    let l := if (cfg.lvPw && !l.pwlSwept && takesLow bar pen l.pwl) = true then
      { l with pwlSwept := true, sweepL := true, sweepLvlL := l.pwl } else l
    let l := if (cfg.lvPw && !l.pwhSwept && takesHigh bar pen l.pwh) = true then
      { l with pwhSwept := true, sweepS := true, sweepLvlS := l.pwh } else l
    let l := if (cfg.lvSess && !l.pslSwept && takesLow bar pen l.psessL) = true then
      { l with pslSwept := true, sweepL := true, sweepLvlL := l.psessL } else l
    if (cfg.lvSess && !l.pshSwept && takesHigh bar pen l.psessH) = true then
      { l with pshSwept := true, sweepS := true, sweepLvlS := l.psessH } else l

/-- The levels that a group of keys switches on. -/
def marked (l : MtfLevels) : List Double :=
  (if cfg.lvPd then [l.pdh, l.pdl] else []) ++ (if cfg.lvPdc then [l.pdc] else []) ++
    (if cfg.lvPw then [l.pwh, l.pwl] else []) ++ (if cfg.lvSess then [l.psessH, l.psessL] else [])

/-- The close lies near a level. -/
def lvConf (atr : Double) (l : MtfLevels) : Bool :=
  let near : Double := if cfg.useLevels then
      (l.marked cfg).foldl (fun near lv =>
        if lv = .nan then near else min near (Double.abs ((bar.close : Double) - lv))) 1e10
    else 1e10
  !cfg.useLvFilter || decide (near ≤ cfg.lvNearAtr * atr)

end MtfLevels

/-! ## The reference market -/

namespace MtfReference

/-- A completed minute of the reference market, and its pivots. -/
def onReferenceBar (high low close : ℚ) (r : MtfReference) : Option MtfReference := do
  let refHist := pushCapped 512
    ({ minuteUtc := 0, opened := 0, high := high, low := low, close := close, volume := 1 } :
      MinuteBar) r.refHist
  let r := { r with
    refWired := true
    refHist := refHist
    refCloseHist := pushCapped 512 close r.refCloseHist }
  let turn ← pivot cfg.smtPivotLen refHist
  let r := match turn with
    | some (centre, true, _) => { r with rfHi2 := r.rfHi1, rfHi1 := centre.high }
    | _ => r
  return match turn with
    | some (centre, _, true) => { r with rfLo2 := r.rfLo1, rfLo1 := centre.low }
    | _ => r

/-- The chart makes a new extreme that the reference market does not make. -/
def diverge (hist : List MinuteBar) (r : MtfReference) : Option MtfReference :=
  let r := { r with smtTrigL := false, smtTrigS := false }
  if cfg.useSmtEntry = true ∧ r.refWired = true then do
    let turn ← pivot cfg.smtPivotLen hist
    let r := match turn with
      | some (centre, _, true) => { r with
          smtTrigL := decide (r.chLo1 ≠ .nan ∧ r.rfLo2 ≠ .nan ∧
            (centre.low : Double) < r.chLo1 ∧ r.rfLo1 > r.rfLo2)
          chLo2 := r.chLo1
          chLo1 := centre.low }
      | _ => r
    return match turn with
      | some (centre, true, _) => { r with
          smtTrigS := decide (r.chHi1 ≠ .nan ∧ r.rfHi2 ≠ .nan ∧
            (centre.high : Double) > r.chHi1 ∧ r.rfHi1 < r.rfHi2)
          chHi2 := r.chHi1
          chHi1 := centre.high }
      | _ => r
  else some r

/-- The correlation of the last closes of both markets. -/
def correlation (sqrt : Double → Double) (len : Int) (hist : List MinuteBar)
    (r : MtfReference) : Double :=
  if (hist.length : Int) < len ∨ (r.refCloseHist.length : Int) < len then .nan
  else
    let xs := (Newest.newest len.toNat hist).map fun b => b.close
    let ys := Newest.newest len.toNat r.refCloseHist
    let n : ℚ := len
    let sx := xs.sum
    let sy := ys.sum
    let sxy := (List.zipWith (fun x y => x * y) xs ys).sum
    let sxx := (xs.map fun x => x * x).sum
    let syy := (ys.map fun y => y * y).sum
    let num : Double := (n * sxy - sx * sy : ℚ)
    let den := sqrt ((n * sxx - sx * sx) * (n * syy - sy * sy) : ℚ)
    if den ≠ 0 then num / den else .nan

/-- The reference market confirms a side. Without its bars the filter blocks. -/
def imOk (sqrt : Double → Double) (long : Bool) (hist : List MinuteBar) (r : MtfReference) :
    Bool :=
  if cfg.useImFilter then
    let corr := r.correlation sqrt cfg.imCorrLen hist
    if r.refWired = true ∧ (r.refCloseHist.length : Int) ≥ cfg.imCorrLen ∧
        (hist.length : Int) ≥ cfg.imCorrLen ∧ corr ≠ .nan ∧ Double.abs corr ≥ cfg.imMinCorr then
      let average (len : Int) : Double :=
        r.refCloseHist.foldl (fun (prev : Double) close => emaNext prev close len) .nan
      let expNeg := decide (cfg.imExpectedCorr = "inverse") ||
        (decide (cfg.imExpectedCorr = "measured") && decide (corr < 0))
      ahead (if expNeg then !long else long) (average cfg.emaFastLen) (average cfg.emaSlowLen)
    else false
  else true

end MtfReference

end RithmicEngine
