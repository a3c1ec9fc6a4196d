import RithmicEngine.Execution.MtfGaps
/-!
# The scalper

The strategy builds minutes from ticks and decides once on each completed one: the clock and
the frames first, then the patterns, the signals under their guardrails, a confirmation by
another frame where it is configured, the entry, and the exits of the position. Its calls go
to a host, which may answer a call with closes that it reports before the call returns. A
step that divides by zero, reads outside a container or casts a number that does not fit has
no value.
-/
namespace RithmicEngine

/-- What the host answers a call with. -/
abbrev MtfReply := MtfCall → List MtfClose

def OrbSignal.side : OrbSignal → SignType
  | .buy => 1
  | .sell => -1
  | _ => 0

/-- A double cast to an `int`, rounded down first. -/
def intFloor : Double → Option Int
  | .fin x => if -2 ^ 31 ≤ ⌊x⌋ ∧ ⌊x⌋ < 2 ^ 31 then some ⌊x⌋ else none
  | _ => none

/-- The strategy as it is built, unless its session window cannot be read. -/
def MtfDesk.fresh (m : MtfDesk) : Option MtfStrategy := do
  let window ← parseSessionWindow m.cfg.sessionWindow (540, 720)
  return { sessStartMin := window.1, sessEndMin := window.2, equity := m.cfg.startingBalance }

namespace MtfStrategy

variable (m : MtfDesk) (bar : MinuteBar)

/-! ## The host's calls -/

def clearPosition (s : MtfStrategy) : MtfStrategy := { s with leg := { rUnit := s.leg.rUnit } }

/-- The close of a trade on the guardrails. -/
def bookClose (c : MtfClose) (s : MtfStrategy) : MtfStrategy :=
  let streak := if c.pnl < 0 then s.guards.lossStreak + 1 else 0
  { s with
    equity := s.equity + c.pnl
    guards := { s.guards with
      dayClosedPnl := s.guards.dayClosedPnl + c.pnl
      lossStreak := streak
      lastLossBar := if c.pnl < 0 ∧ streak ≥ m.cfg.cooldownAfterLosses then s.barIndex
        else s.guards.lastLossBar }
    marks := s.marks ++ [MtfMark.closed] }

/-- A close without a side only releases the position. One of the other side, the old leg of
a reversal, keeps it. -/
def notifyTradeFilled (c : MtfClose) (s : MtfStrategy) : MtfStrategy :=
  if c.dir.side = 0 then s.clearPosition
  else if s.leg.posDir = 0 ∨ c.dir.side = s.leg.posDir then (s.bookClose m c).clearPosition
  else s.bookClose m c

def callBack (reply : MtfReply) (c : MtfCall) (s : MtfStrategy) : MtfStrategy :=
  (reply c).foldl (fun s close => s.notifyTradeFilled m close)
    { s with marks := s.marks ++ [MtfMark.call c] }

/-- The stop distance and the distance of the target. -/
def stopUnit (atr : Double) : Double :=
  if m.cfg.fixedSizing then m.cfg.slPoints else m.cfg.slAtrMult * atr

def targetDistance (unit : Double) : Double :=
  if m.cfg.fixedSizing then m.cfg.tpPoints else unit * m.cfg.rrRatio

/-- The tighter of two stops. -/
def tighter (long : Bool) (a b : Double) : Double := if long then max a b else min a b

/-- The nearer of two targets. -/
def nearer (long : Bool) (a b : Double) : Double := if long then min a b else max a b

/-- The bracket from the price of the fill. The target is not capped here. -/
def initBracket (s : MtfStrategy) : MtfStrategy :=
  let long := decide (s.leg.posDir > 0)
  let unit := stopUnit m s.leg.entryAtr
  let base := toward (!long) s.leg.entryPrice unit
  { s with leg := { s.leg with
    rUnit := unit
    curStop := if s.leg.curStop ≠ .nan ∧ s.leg.curStop > 0 then tighter long base s.leg.curStop
      else base
    curTp := if s.leg.lvTp ≠ .nan then s.leg.lvTp
      else toward long s.leg.entryPrice (targetDistance m unit) } }

def notifyEntryFilled (dir : OrbSignal) (avg : ℚ) (s : MtfStrategy) : MtfStrategy :=
  if dir.side = 0 ∨ dir.side ≠ s.leg.posDir then s
  else initBracket m { s with leg := { s.leg with entryPrice := avg } }

def onReferenceBar (high low close : ℚ) (s : MtfStrategy) : Option MtfStrategy := do
  return { s with ref := ← s.ref.onReferenceBar m.cfg high low close }

def pastEnd (t : Int) (s : MtfStrategy) : Bool :=
  if s.sessEndMin > s.sessStartMin then decide (t ≥ s.sessEndMin ∨ t < s.sessStartMin)
  else decide (t ≥ s.sessEndMin ∧ t < s.sessStartMin)

/-- The flatten that the host's clock asks for when no tick does. -/
def checkTimeFlatten (reply : MtfReply) (etHour etMin : Int) (s : MtfStrategy) : MtfStrategy :=
  if m.cfg.useSession = true ∧ m.cfg.flatAtSessionEnd = true ∧ s.leg.posDir ≠ 0 ∧
      s.leg.exitPending = false ∧ s.clock.eodFlatEmitted = false ∧
      s.pastEnd (etHour * 60 + etMin) = true then
    callBack m reply ⟨.flattenEod, s.lastPrice, "Session End / Out of Range"⟩ { s with
      clock := { s.clock with eodFlatEmitted := true }
      leg := { s.leg with exitPending := true } }
  else s

def haltTrading (reason : String) (s : MtfStrategy) : MtfStrategy :=
  { s with riskHalted := true, haltReason := reason }

def unhaltTrading (s : MtfStrategy) : MtfStrategy :=
  if s.riskHalted = false then s else { s with riskHalted := false, haltReason := "" }

def seedState (trades : Int) (pnl total : ℚ) (s : MtfStrategy) : MtfStrategy :=
  { s with
    guards := { s.guards with tradesToday := trades, dayClosedPnl := pnl }
    equity := m.cfg.startingBalance + total }

def seedTradesToday (n : Int) (s : MtfStrategy) : MtfStrategy :=
  { s with guards := { s.guards with tradesToday := n } }

/-- A new session keeps the history and the indicators. -/
def resetSession (s : MtfStrategy) : MtfStrategy :=
  { s.clearPosition with
    guards := { s.guards with tradesToday := 0, dayClosedPnl := 0 }
    clock := { s.clock with eodFlatEmitted := false }
    riskHalted := false
    haltReason := "" }

/-! ## A completed bar: the clock and the frames -/

def takeBar (s : MtfStrategy) : MtfStrategy :=
  { s with
    barIndex := s.barIndex + 1
    hist := pushCapped 4096 bar s.hist
    marks := s.marks ++ [MtfMark.bar bar] }

def etMinute : Int := (barEt bar.minuteUtc m.cfg.dayRolloverHourEt).1

def etDay : Int := (barEt bar.minuteUtc m.cfg.dayRolloverHourEt).2.1

def globexDay : Int := (barEt bar.minuteUtc m.cfg.dayRolloverHourEt).2.2

/-- A trading day starts with the first bar, and with each bar of another one. -/
def rollDay (s : MtfStrategy) : MtfStrategy :=
  let gday := globexDay m bar
  let wkey := weekKeyOf gday
  let newDay := decide (gday ≠ s.clock.dayKey)
  let newWeek := decide (wkey ≠ s.clock.weekKey)
  let levels := if newDay then s.levels.rollDay gday else s.levels
  let levels := if newWeek then levels.rollWeek wkey else levels
  { s with
    clock := { s.clock with
      dayKey := gday
      weekKey := wkey
      eodFlatEmitted := if newDay then false else s.clock.eodFlatEmitted }
    levels := levels.aggregate bar
    guards := if newDay then
        { s.guards with tradesToday := 0, dayClosedPnl := 0, dayStartEquity := s.equity }
      else s.guards }

def inWindow (t : Int) (s : MtfStrategy) : Bool :=
  !m.cfg.useSession ||
    (if s.sessEndMin > s.sessStartMin then decide (t ≥ s.sessStartMin ∧ t < s.sessEndMin)
    else decide (t ≥ s.sessStartMin ∨ t < s.sessEndMin))

/-- The configured range of dates, which is open where a bound is zero. -/
def inRange : Bool :=
  let barEpoch := bar.minuteUtc * 60
  decide (m.cfg.dateStartEpoch = 0 ∨ barEpoch ≥ m.cfg.dateStartEpoch) &&
    decide (m.cfg.dateEndEpoch = 0 ∨ barEpoch ≤ m.cfg.dateEndEpoch)

def seeSession (s : MtfStrategy) : MtfStrategy :=
  let inSession := s.inWindow m (etMinute m bar)
  let sessStart := m.cfg.useSession && inSession && !s.clock.prevInSession
  let vwapKey :=
    if m.cfg.vwapAnchor = "rth" then
      if etMinute m bar ≥ 570 then etDay m bar else etDay m bar - 1
    else if m.cfg.vwapAnchor = "session_window" then
      if sessStart then s.barIndex else s.ind.vwapKey
    else globexDay m bar
  { s with
    clock := { s.clock with inSession := inSession, inDateRange := inRange m bar }
    levels := s.levels.seeSession m.cfg bar sessStart inSession
    ind := s.ind.nextVwap bar vwapKey }

/-- The bar belongs to another bucket of the confirmation frame than the bar before it. -/
def confRolled (s : MtfStrategy) : Bool :=
  m.cfg.useConfTf && decide (s.confirm.conf5.bucket ≥ 0) &&
    decide (s.confirm.conf5.bucket ≠ bar.minuteUtc.tdiv m.cfg.confTfMin)

def aggregate (s : MtfStrategy) : Option MtfStrategy := do
  let align ← s.align.aggregate m.cfg bar
  let fvg ← s.fvg.aggregate m.cfg bar
  let conf5 ← s.confirm.conf5.updateIf m.cfg.useConfTf m.cfg.confTfMin 2 3 m.cfg.atrLen bar
  return { s with align := align, fvg := fvg, confirm := { s.confirm with conf5 := conf5 } }

/-! ## The patterns -/

def analyse (s : MtfStrategy) : Option MtfStrategy := do
  let ind ← s.ind.next m.cfg bar s.hist
  let regime := s.regime.next m.cfg bar ind
  let flag ← s.flag.nextPattern m.cfg bar ind s.hist
  let onset ← s.onset.next m.cfg bar ind regime s.hist s.barIndex s.leg.posDir
  let fvg ← s.fvg.next m.cfg bar ind.atr s.hist s.barIndex
  let ref ← s.ref.diverge m.cfg s.hist
  return { s with
    ind := ind
    align := s.align.read m.cfg
    regime := regime
    flag := flag.nextRetest m.cfg bar ind regime s.barIndex s.leg.posDir
    onset := onset
    fvg := fvg
    levels := s.levels.sweep m.cfg bar ind.atr
    ref := ref }

/-! ## The signals -/

def flagTrig (long : Bool) (s : MtfStrategy) : Bool :=
  let broken := if long then s.flag.bullBreak else s.flag.bearBreak
  let retest := if long then s.flag.retestL else s.flag.retestS
  match m.cfg.triggerMode with
  | "auto" => m.cfg.autoModeFlagFix && (broken || retest)
  | "flag_any" => broken || retest
  | "all" => broken || retest
  | "flag_retest" => retest
  | "flag_stop" => if long then s.flag.bullFlag else s.flag.bearFlag
  | "flag_close" => broken
  | _ => false

def stochTrig (long : Bool) (s : MtfStrategy) : Bool :=
  match m.cfg.triggerMode with
  | "auto" => m.cfg.autoModeFlagFix && s.ind.stochCross m.cfg long
  | "all" => s.ind.stochCross m.cfg long
  | "stoch" => s.ind.stochCross m.cfg long
  | _ => false

def onsetTrig (long : Bool) (s : MtfStrategy) : Bool :=
  if long then s.onset.onsetTrigL else s.onset.onsetTrigS

def onsetFired (long : Bool) (s : MtfStrategy) : Bool :=
  s.onsetTrig long && !s.flagTrig m long && !s.stochTrig m long

def fvgTrig (long : Bool) (s : MtfStrategy) : Bool :=
  m.cfg.useFvg && if long then s.fvg.fvgRetestL else s.fvg.fvgRetestS

def sweepTrig (long : Bool) (s : MtfStrategy) : Bool :=
  m.cfg.useLevels && if long then s.levels.sweepL else s.levels.sweepS

def smtTrig (long : Bool) (s : MtfStrategy) : Bool :=
  if long then s.ref.smtTrigL else s.ref.smtTrigS

/-- The configured trigger of a side. -/
def trig (long : Bool) (s : MtfStrategy) : Bool :=
  match m.cfg.triggerMode with
  | "onset" => s.onsetTrig long
  | "fvg" => s.fvgTrig m long
  | "sweep" => s.sweepTrig m long
  | "smt" => s.smtTrig long
  | "auto" => s.flagTrig m long || s.stochTrig m long || s.onsetFired m long ||
      (m.cfg.useFvgEntry && s.fvgTrig m long) || (m.cfg.useSweepEntry && s.sweepTrig m long) ||
      (m.cfg.useSmtEntry && s.smtTrig long)
  | _ => s.flagTrig m long || s.stochTrig m long

def htfTo (long : Bool) (s : MtfStrategy) : Bool := if long then s.align.htfUp else s.align.htfDn

/-- A signal from the start of a trend takes a neutral higher frame. -/
def relaxed (long : Bool) (s : MtfStrategy) : Bool :=
  decide (m.cfg.triggerMode = "onset") || (m.cfg.onsetNeutralHtfOk && s.onsetFired m long)

def htfAllow (long : Bool) (s : MtfStrategy) : Bool :=
  if s.relaxed m long then !m.cfg.useMtf || !s.htfTo (!long)
  else if long then s.align.mtfUp else s.align.mtfDn

def setup (long : Bool) (s : MtfStrategy) : Bool :=
  s.regime.trend long && s.htfAllow m long &&
    (decide (m.cfg.setupMode ≠ "full") ||
      (s.regime.mom long && s.ind.rsiBeyond m.cfg long && s.ind.vwapBeyond m.cfg bar long))

def regimeDir (long : Bool) (s : MtfStrategy) : Bool :=
  !m.cfg.regimeDirOnly || !s.regime.regimeActive ||
    (if s.relaxed m long then !s.htfTo (!long) else s.htfTo long)

def fvgConf (long : Bool) (s : MtfStrategy) : Bool :=
  !m.cfg.useFvgFilter || !(if long then s.fvg.fvgBull else s.fvg.fvgBear).isEmpty

/-! ## The guardrails -/

/-- Contracts for a share of the equity at risk, within the configured bounds. -/
def qtyCalc (equity : Double) (s : MtfStrategy) : Option Int :=
  let slDist := stopUnit m s.ind.atr
  if ¬slDist > 0 ∨ equity ≤ 0 then some 0
  else do
    let q ← intFloor (equity * (m.cfg.riskPct / 100) / (slDist * m.cfg.pointValue))
    let q := if q < m.cfg.minQty then m.cfg.minQty else q
    return if m.cfg.qtyMax > 0 ∧ q > m.cfg.qtyMax then m.cfg.qtyMax else q

def cooldownOk (s : MtfStrategy) : Bool :=
  !m.cfg.useCooldown || decide (s.barIndex - s.guards.lastLossBar > m.cfg.cooldownBars)

def tradesOk (s : MtfStrategy) : Bool :=
  !m.cfg.useMaxTrades || decide (s.guards.tradesToday < m.cfg.maxDailyTrades)

/-- The equity that the day's loss is measured against. -/
def dayBase (s : MtfStrategy) : Double :=
  if s.guards.dayStartEquity = .nan then s.equity else s.guards.dayStartEquity

/-- The profit of the open position at the last price. -/
def unrealized (s : MtfStrategy) : Option Double :=
  if s.leg.posDir ≠ 0 ∧ s.leg.entryPrice ≠ .nan then do
    let q ← s.qtyCalc m s.equity
    return ((s.lastPrice : Double) - s.leg.entryPrice) * (((s.leg.posDir : Int) : ℚ) : Double) *
      m.cfg.pointValue * ((q : ℚ) : Double)
  else some 0

/-- The day's profit: of its closed trades, or with the open one as well. -/
def dailyPnl (s : MtfStrategy) : Option Double :=
  if m.cfg.dailyLossClosedOnly then some s.guards.dayClosedPnl
  else do return s.equity - s.dayBase + (← s.unrealized m)

def lossLimit (s : MtfStrategy) : Double := -(m.cfg.dailyLossPct / 100) * s.dayBase

def dailyLossOk (pnl : Double) (s : MtfStrategy) : Bool :=
  !m.cfg.useDailyLoss || decide (pnl > s.lossLimit m)

def guardsOk (s : MtfStrategy) : Option Bool := do
  let pnl ← s.dailyPnl m
  return s.cooldownOk m && s.tradesOk m && s.dailyLossOk m pnl

def signal (guardsOk long : Bool) (s : MtfStrategy) : Bool :=
  (if long then m.cfg.allowLongs else m.cfg.allowShorts) && s.clock.inDateRange &&
    s.clock.inSession && s.ind.atrOk m.cfg && guardsOk && s.regime.regimeActive &&
    s.regimeDir m long && s.fvgConf m long && s.levels.lvConf m.cfg bar s.ind.atr &&
    s.ref.imOk m.cfg m.sqrt long s.hist && s.setup m bar long && s.trig m long

def signals (s : MtfStrategy) : Option MtfStrategy := do
  let ok ← s.guardsOk m
  return { s with gate := {
    flagTrigL := s.flagTrig m true
    flagTrigS := s.flagTrig m false
    stochTrigL := s.stochTrig m true
    stochTrigS := s.stochTrig m false
    onsetFiredL := s.onsetFired m true
    onsetFiredS := s.onsetFired m false
    longSignal := s.signal m bar ok true
    shortSignal := s.signal m bar ok false } }

def warmedUp (s : MtfStrategy) : Bool := decide (s.barIndex + 1 ≥ m.cfg.warmupBars)

/-! ## The confirmation frame -/

/-- A signal waits for the confirmation frame, unless one already does. -/
def pend (s : MtfStrategy) : MtfConfirm :=
  let c := s.confirm
  let armL := decide (s.gate.longSignal = true ∧ s.leg.posDir ≤ 0 ∧ c.pendBarL < 0)
  let armS := decide (s.gate.shortSignal = true ∧ s.leg.posDir ≥ 0 ∧ c.pendBarS < 0)
  { c with
    pendBarL := if armL then s.barIndex else c.pendBarL
    pendBarS := if armS then s.barIndex else c.pendBarS
    pendRefL := if armL then
        if s.fvg.fvgRetestL then s.fvg.fvgRetLvlL
        else if s.levels.sweepL then s.levels.sweepLvlL else .nan
      else c.pendRefL
    pendRefS := if armS then
        if s.fvg.fvgRetestS then s.fvg.fvgRetLvlS
        else if s.levels.sweepS then s.levels.sweepLvlS else .nan
      else c.pendRefS }

/-- The completed bar of the confirmation frame closes in the side's half. -/
def strong (long : Bool) (cb : MinuteBar) : Bool :=
  ahead long cb.close ((cb.high + cb.low) / 2 : ℚ) &&
    (!m.cfg.confNeedBull || ahead long cb.close cb.opened)

/-- A completed bar of the confirmation frame settles what waits. -/
def settle (rolled : Bool) (s : MtfStrategy) (c : MtfConfirm) : MtfConfirm :=
  match c.conf5.done.getLast? with
  | some cb =>
    if rolled then
      let open_ := s.clock.inSession && s.clock.inDateRange
      { c with
        confGoL := decide (c.pendBarL ≥ 0) && strong m true cb && open_
        confGoS := decide (c.pendBarS ≥ 0) && strong m false cb && open_
        pendBarL := if c.pendBarL ≥ 0 then -1 else c.pendBarL
        pendBarS := if c.pendBarS ≥ 0 then -1 else c.pendBarS
        pendRefL := if c.pendBarL ≥ 0 then .nan else c.pendRefL
        pendRefS := if c.pendBarS ≥ 0 then .nan else c.pendRefS }
    else c
  | none => c

/-- What waits is given up when the trend ends, after some bars, or in a position. -/
def drop (s : MtfStrategy) (c : MtfConfirm) : MtfConfirm :=
  let dropL := decide (c.pendBarL ≥ 0 ∧ (s.regime.trendUpLoose = false ∨
    s.barIndex - c.pendBarL > m.cfg.confMaxWait ∨ s.leg.posDir > 0))
  let dropS := decide (c.pendBarS ≥ 0 ∧ (s.regime.trendDnLoose = false ∨
    s.barIndex - c.pendBarS > m.cfg.confMaxWait ∨ s.leg.posDir < 0))
  { c with
    pendBarL := if dropL then -1 else c.pendBarL
    pendBarS := if dropS then -1 else c.pendBarS
    pendRefL := if dropL then .nan else c.pendRefL
    pendRefS := if dropS then .nan else c.pendRefS }

def confirmBar (rolled : Bool) (s : MtfStrategy) : MtfStrategy :=
  { s with confirm :=
      if m.cfg.useConfTf then
        drop m s (settle m rolled s { s.pend with confGoL := false, confGoS := false })
      else { s.confirm with confGoL := false, confGoS := false } }

/-! ## Entries -/

/-- The levels that a target may lie at. -/
def targets (long : Bool) (s : MtfStrategy) : List Double :=
  let l := s.levels
  let level (g : Gap) : Double := if m.cfg.tpFvgCe then g.mid else if long then g.top else g.bot
  (if m.cfg.useLevels = true ∧ m.cfg.lvPd = true then [l.pdh, l.pdl] else []) ++
    (if m.cfg.useLevels = true ∧ m.cfg.lvPw = true then [l.pwh, l.pwl] else []) ++
    (if m.cfg.useLevels = true ∧ m.cfg.lvSess = true then [l.psessH, l.psessL] else []) ++
    (if m.cfg.useLevels = true ∧ m.cfg.lvPdc = true then [l.pdc] else []) ++
    (if m.cfg.tpFvg then (s.fvg.fvgBull ++ s.fvg.fvgBear).map level else [])

/-- The nearest of them that lies in the side's direction. -/
def nearestTarget (long : Bool) (px : Double) (s : MtfStrategy) : Double :=
  (s.targets m long).foldl (fun out lv =>
    if lv ≠ .nan ∧ ahead long lv px = true ∧ (out = .nan ∨ ahead (!long) lv out = true) then lv
    else out) .nan

/-- The target at an entry price: the opposing level, capped in its mode, or the multiple. -/
def targetRule (long : Bool) (price lvTp tpDist : Double) : Double :=
  if lvTp ≠ .nan then
    if m.cfg.tpTargetMode = "opposing_cap_rr" then nearer long lvTp (toward long price tpDist)
    else lvTp
  else toward long price tpDist

/-- The position as it is assumed to be filled at the close, with its bracket. -/
def openLeg (long : Bool) (price : ℚ) (reason : String) (s : MtfStrategy) : MtfLeg :=
  let atr := s.ind.atr
  let unit := stopUnit m atr
  let lv : Double := if m.cfg.tpTargetMode = "fixed_rr" then .nan else s.nearestTarget m long price
  let lvTp : Double :=
    if lv ≠ .nan ∧ Double.abs (lv - price) ≥ m.cfg.tpMinDistAtr * atr then
      toward (!long) lv (m.cfg.tpBufferAtr * atr)
    else .nan
  { posDir := if long then 1 else -1
    entryPrice := price
    entryAtr := atr
    entryBar := s.barIndex
    rUnit := unit
    curStop := toward (!long) price unit
    curTp := targetRule m long price lvTp (targetDistance m unit)
    lvTp := lvTp
    entryReason := reason }

def openPosition (reply : MtfReply) (long : Bool) (price : ℚ) (reason : String)
    (s : MtfStrategy) : MtfStrategy :=
  callBack m reply ⟨if long then .buy else .sell, price, reason⟩ { s with
    leg := s.openLeg m long price reason
    guards := { s.guards with tradesToday := s.guards.tradesToday + 1 } }

/-- What the entry is put down to. -/
def entryReason (long : Bool) (s : MtfStrategy) : String :=
  let side := if long then "long" else "short"
  if (if long then s.confirm.confGoL else s.confirm.confGoS) = true then "conf_" ++ side
  else if (if long then s.gate.flagTrigL else s.gate.flagTrigS) = true then
    (if (if long then s.flag.retestL else s.flag.retestS) = true then "flag_retest_"
      else "flag_break_") ++ side
  else if (if long then s.gate.stochTrigL else s.gate.stochTrigS) = true then "stoch_" ++ side
  else if (if long then s.gate.onsetFiredL else s.gate.onsetFiredS) = true then
    (if (if long then s.onset.onsetPullL else s.onset.onsetPullS) = true then "onset_pullback_"
      else "onset_struct_") ++ side
  else if (m.cfg.useFvgEntry && if long then s.fvg.fvgRetestL else s.fvg.fvgRetestS) = true then
    "fvg_retest_" ++ side
  else if (m.cfg.useSweepEntry && if long then s.levels.sweepL else s.levels.sweepS) = true then
    "sweep_" ++ side
  else if (m.cfg.useSmtEntry && s.smtTrig long) = true then "smt_" ++ side
  else "signal_" ++ side

/-- The side is signalled, directly or by the confirmation, and may be taken. -/
def wants (long : Bool) (s : MtfStrategy) : Bool :=
  let dir : SignType := if long then 1 else -1
  (((if long then s.gate.longSignal else s.gate.shortSignal) && !m.cfg.useConfTf) ||
    (if long then s.confirm.confGoL else s.confirm.confGoS)) &&
    (decide (s.leg.posDir = 0) || (m.cfg.allowFlips && decide (s.leg.posDir = -dir))) &&
    !s.leg.exitPending

/-- The size of a position is asked for only when it is wanted. -/
def mayOpen (long : Bool) (s : MtfStrategy) : Option Bool :=
  if s.wants m long then do return decide ((← s.qtyCalc m s.equity) > 0) else some false

/-- An entry on the retest of a break gives up its level. -/
def spendBreak (long : Bool) (s : MtfStrategy) : MtfStrategy :=
  { s with flag :=
      if long then
        if s.flag.retestL then { s.flag with boLvlL := .nan, boBarL := -1 } else s.flag
      else if s.flag.retestS then { s.flag with boLvlS := .nan, boBarS := -1 } else s.flag }

def enter (reply : MtfReply) (s : MtfStrategy) : Option MtfStrategy := do
  if ← s.mayOpen m true then
    return (s.openPosition m reply true bar.close (s.entryReason m true)).spendBreak true
  else if ← s.mayOpen m false then
    return (s.openPosition m reply false bar.close (s.entryReason m false)).spendBreak false
  else return s

/-! ## Exits -/

def emitFlatten (reply : MtfReply) (reason : String) (s : MtfStrategy) : MtfStrategy :=
  callBack m reply ⟨.flattenEod, bar.close, reason⟩
    { s with leg := { s.leg with exitPending := true } }

/-- The stop distance of the position, by the true range that it was entered on. -/
def legUnit (s : MtfStrategy) : Double :=
  stopUnit m (if s.leg.entryAtr = .nan then s.ind.atr else s.leg.entryAtr)

/-- The bracket after a bar: break-even and the trail latch, the stop only tightens, and the
trail retires the target. -/
def nextBracket (s : MtfStrategy) : MtfLeg :=
  let long := decide (s.leg.posDir > 0)
  let avg := s.leg.entryPrice
  let unit := s.legUnit m
  let tpDist := targetDistance m unit
  let trlDst := if m.cfg.fixedSizing then m.cfg.slPoints else m.cfg.trailAtrMult * s.ind.atr
  let beOn := s.leg.beOn || (m.cfg.useBreakeven &&
    ahead long bar.close (toward long avg (tpDist * m.cfg.beTriggerPctTp)))
  let ns := toward (!long) avg unit
  let ns := if beOn then tighter long ns avg else ns
  let trailOn := s.leg.trailOn || (m.cfg.useTrailing &&
    ahead long bar.close (toward long avg (unit * m.cfg.trailStartR)))
  let ns := if trailOn then tighter long ns (toward (!long) bar.close trlDst) else ns
  { s.leg with
    rUnit := unit
    beOn := beOn
    trailOn := trailOn
    curStop := tighter long ns (if s.leg.curStop = .nan then ns else s.leg.curStop)
    curTp := if trailOn then .nan else targetRule m long avg s.leg.lvTp tpDist }

/-- The oscillator turns against the position from the far zone. -/
def oscReversal (long : Bool) (s : MtfStrategy) : Bool :=
  decide (s.ind.stochK ≠ .nan ∧ s.ind.stochD ≠ .nan ∧ s.ind.stochKPrev ≠ .nan ∧
    s.ind.stochDPrev ≠ .nan) &&
    ahead (!long) s.ind.stochK s.ind.stochD && reaches long s.ind.stochKPrev s.ind.stochDPrev &&
    ahead long s.ind.stochK (if long then m.cfg.stochOb else m.cfg.stochOs)

/-- The market exit that the bar asks for. -/
def exitReason (s : MtfStrategy) : Option String :=
  let long := decide (s.leg.posDir > 0)
  if (m.cfg.useOscExit && s.oscReversal m long) = true then some "Osc reversal"
  else if m.cfg.useTimeStop = true ∧ s.barIndex - s.leg.entryBar ≥ m.cfg.maxHoldBars then
    some "Time stop"
  else if (m.cfg.useTrendExit && (!s.regime.trend long ||
      (m.cfg.useMtf && m.cfg.useHtfExit && s.htfTo (!long)))) = true then some "Trend reversal"
  else none

def updateExits (reply : MtfReply) (s : MtfStrategy) : MtfStrategy :=
  let s := { s with leg := s.nextBracket m bar }
  match s.exitReason m with
  | some reason => s.emitFlatten m bar reply reason
  | none => s

def manage (reply : MtfReply) (s : MtfStrategy) : MtfStrategy :=
  if s.leg.posDir ≠ 0 ∧ s.leg.exitPending = false ∧ s.barIndex > s.leg.entryBar then
    s.updateExits m bar reply
  else s

/-- The position is closed with its session and outside the range of dates. -/
def endSession (reply : MtfReply) (s : MtfStrategy) : MtfStrategy :=
  let ending := m.cfg.useSession && m.cfg.flatAtSessionEnd && s.clock.prevInSession &&
    !s.clock.inSession
  if (ending || !s.clock.inDateRange) = true ∧ s.leg.posDir ≠ 0 ∧ s.leg.exitPending = false then
    s.emitFlatten m bar reply "Session End / Out of Range"
  else s

def closeBar (s : MtfStrategy) : MtfStrategy :=
  { s with clock := { s.clock with prevInSession := s.clock.inSession } }

/-! ## The whole bar -/

/-- The signals of a completed bar. -/
def readBar (s : MtfStrategy) : Option MtfStrategy := do
  let s ← (((s.takeBar bar).rollDay m bar).seeSession m bar).aggregate m bar
  let s ← s.analyse m bar
  s.signals m bar

/-- What is done about them. -/
def act (reply : MtfReply) (rolled : Bool) (s : MtfStrategy) : Option MtfStrategy := do
  let s ← (s.confirmBar m rolled).enter m bar reply
  return (s.manage m bar reply).endSession m bar reply

def handleCompletedBar (reply : MtfReply) (s : MtfStrategy) : Option MtfStrategy :=
  if bar.volume = 0 then some s
  else do
    let rolled := s.confRolled m bar
    let s ← s.readBar m bar
    if s.warmedUp m then return (← s.act m bar reply rolled).closeBar else return s.closeBar

/-! ## Ticks -/

def minuteOfTick (t : OrbTick) : Int := (t.tsMicros.tdiv 1000000).tdiv 60

/-- The bar in progress is completed by the first tick of another minute. -/
def buildBar (reply : MtfReply) (t : OrbTick) (s : MtfStrategy) : Option MtfStrategy :=
  let curMin := minuteOfTick t
  let s := if s.curBar.minuteUtc < 0 then
      { s with curBar := { s.curBar with minuteUtc := curMin } }
    else s
  if curMin ≠ s.curBar.minuteUtc then do
    return { ← s.handleCompletedBar m s.curBar reply with curBar := { minuteUtc := curMin } }
  else some s

def onTick (reply : MtfReply) (t : OrbTick) (s : MtfStrategy) : Option MtfStrategy :=
  if s.riskHalted then some s
  else do
    let s ← s.buildBar m reply t
    return { s with curBar := s.curBar.update t.price t.size, lastPrice := t.price }

end MtfStrategy

/-! ## Runs -/

/-- What the host does with its strategy. -/
inductive MtfEvent
  | tick (reply : MtfReply) (t : OrbTick)
  | tradeFilled (c : MtfClose)
  | entryFilled (dir : OrbSignal) (avg : ℚ)
  | referenceBar (high low close : ℚ)
  | timeFlatten (reply : MtfReply) (etHour etMin : Int)
  | halt (reason : String)
  | unhalt
  | resetSession
  | seedState (trades : Int) (pnl total : ℚ)
  | seedTradesToday (n : Int)

def MtfStrategy.take (m : MtfDesk) (s : MtfStrategy) : MtfEvent → Option MtfStrategy
  | .tick reply t => s.onTick m reply t
  | .tradeFilled c => some (s.notifyTradeFilled m c)
  | .entryFilled dir avg => some (s.notifyEntryFilled m dir avg)
  | .referenceBar high low close => s.onReferenceBar m high low close
  | .timeFlatten reply etHour etMin => some (s.checkTimeFlatten m reply etHour etMin)
  | .halt reason => some (s.haltTrading reason)
  | .unhalt => some s.unhaltTrading
  | .resetSession => some s.resetSession
  | .seedState trades pnl total => some (s.seedState m trades pnl total)
  | .seedTradesToday n => some (s.seedTradesToday n)

end RithmicEngine
