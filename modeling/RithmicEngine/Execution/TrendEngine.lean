import RithmicEngine.Execution.TrendFades
/-!
# The trend engine

A tick belongs to a minute, a completed minute to a bar of the mode's frame, and on a
completed bar the configured mode decides. Minutes and bars are told apart by the minute of
the day alone. What a mode has read outside a container is marked, and the bar decides
nothing.
-/
namespace RithmicEngine

/-! ## Bars -/

/-- The first print of a minute. -/
def Bar.opened (mod : Int) (t : OrbTick) : Bar where
  mod := mod
  ts := t.tsMicros
  o := t.price
  h := t.price
  l := t.price
  c := t.price
  v := t.size
  bv := if t.isBuy then t.size else 0

/-- A later print of the minute. -/
def Bar.printed (t : OrbTick) (b : Bar) : Bar :=
  { b with
    h := max b.h t.price
    l := min b.l t.price
    c := t.price
    v := b.v + t.size
    bv := if t.isBuy then b.bv + t.size else b.bv }

/-- A later minute of the bar. -/
def Bar.merge (later b : Bar) : Bar :=
  { b with
    h := max b.h later.h
    l := min b.l later.l
    c := later.c
    v := b.v + later.v
    bv := b.bv + later.bv }

/-- The bar in progress after a completed minute, and the bars that it closes: one whose last
minute was skipped, and the one whose last minute this is. -/
def aggregate (tf : Int) (b cur : Bar) : Bar × List Bar :=
  let key := b.mod.tdiv tf
  let fresh := decide (cur.mod < 0) || decide (cur.mod.tdiv tf ≠ key)
  let skipped := if fresh = true ∧ cur.mod ≥ 0 then [cur] else []
  let cur := if fresh then { b with mod := key * tf } else b.merge cur
  if (b.mod + 1).tdiv tf ≠ key then ({ cur with mod := -1 }, skipped ++ [cur])
  else (cur, skipped)

/-- An exponential average, which starts at its first close. -/
def emaStep (len : Int) (close : ℚ) (ema : Double) : Double :=
  if ema ≤ 0 then close
  else ema + 2 / ((int32 (len + 1) : ℚ) : Double) * ((close : Double) - ema)

/-- The Eastern time as hhmm, and as the minute of the day. -/
def etHhmm (tsUs : Int) : Int := (utcToEt tsUs).1 * 100 + (utcToEt tsUs).2

def etMod (tsUs : Int) : Int := (utcToEt tsUs).1 * 60 + (utcToEt tsUs).2

namespace TrendStrategy

variable (m : TrendMoment) (b : Bar)

/-! ## A completed bar -/

/-- The average true range after a bar. -/
def nextAtr (s : TrendStrategy) : Option Double :=
  if s.size ≥ 2 then do
    let p ← s.previous
    let tr : Double := ((max (max (b.h - b.l) |b.h - p.c|) |b.l - p.c| : ℚ) : Double)
    if s.ind.atr ≤ 0 then return tr
    average m (s.ind.atr * ((int32 (m.tc.atrLen - 1) : ℚ) : Double) + tr) m.tc.atrLen
  else some s.ind.atr

/-- The indicators after a bar. -/
def indicators (s : TrendStrategy) : Option TrendStrategy := do
  let atr ← s.nextAtr m b
  return { s with ind := {
    atr := atr
    emaF := emaStep m.tc.emaFast b.c s.ind.emaF
    emaS := emaStep m.tc.emaSlow b.c s.ind.emaS
    ema20 := emaStep 20 b.c s.ind.ema20
    emaRf := emaStep m.tc.ribbonFast b.c s.ind.emaRf
    emaRm := emaStep m.tc.ribbonMid b.c s.ind.emaRm
    emaRs := emaStep m.tc.ribbonSlow b.c s.ind.emaRs
    emaSPrev5 := pushCapped 6 s.ind.emaS s.ind.emaSPrev5
    volHist := pushCapped 200 b.v s.ind.volHist
    barDeltaHist := pushCapped 400 (2 * b.bv - b.v) s.ind.barDeltaHist } }

/-- The position is followed by the chandelier's stop, which any mode may have. -/
def guarded (s : TrendStrategy) : Bool := s.sess.inPosition && decide (0 < m.tc.chandelierMult)

/-- The best price since the entry follows the bar. -/
def followBest (s : TrendStrategy) : TrendStrategy :=
  if s.guarded m then
    { s with bestPx := if s.posDir > 0 then max s.bestPx b.h else min s.bestPx b.l }
  else s

/-- The bar closes beyond the chandelier's stop. -/
def pastChandelier (s : TrendStrategy) : Bool :=
  let stop := (s.bestPx : Double) -
    ((s.posDir : ℚ) : Double) * m.tc.chandelierMult * s.ind.atr
  s.guarded m && ((decide (s.posDir > 0) && decide ((b.c : Double) < stop)) ||
    (decide (s.posDir < 0) && decide (stop < (b.c : Double))))

/-- The modes that decide on a bar of their frame. -/
def barMode (s : TrendStrategy) : Option TrendStrategy :=
  match m.tc.mode with
  | "donchian" => s.modeDonchian m b
  | "trend_day" => s.modeTrendDay m b
  | "failed_breakout" => s.modeFailedBreakout m b
  | "keltner_ride" => s.modeKeltner m b
  | "ichimoku" => s.modeIchimoku m b
  | "roc_momentum" => s.modeRoc m b
  | "delta_trend" => s.modeDelta m b
  | "fib_pullback" => s.modeFib m b
  | "vwap_fade" => s.modeVwapFade m b
  | "band_fade" => s.modeBandFade m b
  | "rsi2_pullback" => s.modeRsi2 m b
  | "ema_pullback" => s.modeEmaPullback m b
  | "vwap_trend" => s.modeVwap m b
  | "opening_drive" => s.modeDrive m b
  | "pdhl_breakout" => s.modePdhl m b
  | "squeeze" => s.modeSqueeze m b
  | "supertrend" => s.modeSupertrend m b
  | "nr7" => s.modeNr7 m b
  | "ema_ribbon" => s.modeEmaRibbon m b
  | "thrust_fade" => s.modeThrustFade m b
  | "absorption_reversal" => s.modeAbsorption m b
  | "delta_divergence" => s.modeDeltaDiv m b
  | "volume_burst" => s.modeVolumeBurst m b
  | "orb_retest" => s.modeOrbRetest m b
  | "gap_fade" => s.modeGapFade m b
  | "news_break" => s.modeNewsBreak m b
  | "ib_break" => s.modeIbBreak m b
  | "hold" => s.modeHold m b
  | "atr_break" => s.modeAtrBreak m b
  | "vprofile" => s.modeVprofile m b
  | _ => some s

/-- What a step has come to, or the mark of a read outside a container. -/
def orStray (next : Option TrendStrategy) (s : TrendStrategy) : TrendStrategy :=
  match next with
  | some t => t
  | none => { s with marks := s.marks ++ [.stray] }

/-- The chandelier's exit, or else the mode. -/
def decideBar (s : TrendStrategy) : TrendStrategy :=
  if s.ind.atr ≤ 0 then s
  else
    let s := s.followBest m b
    if s.pastChandelier m b then s.flatten m b "chandelier" else s.orStray (s.barMode m b)

def pushBar (s : TrendStrategy) : TrendStrategy :=
  { s with tf := pushCapped 400 b s.tf, marks := s.marks ++ [TrendMark.bar b] }

def onTfClose (s : TrendStrategy) : TrendStrategy :=
  let s := s.pushBar b
  (s.orStray (s.indicators m b)).decideBar m b

/-! ## A completed minute -/

/-- The minute and its part of the session's profile. -/
def recordMinute (s : TrendStrategy) : TrendStrategy :=
  { s with
    m1Hist := pushCapped 600 b s.m1Hist
    vp := if s.day.inRth = true ∧ b.v > 0 ∧ b.h ≥ b.l then
        { s.vp with cur := addBar b s.vp.cur }
      else s.vp }

def timeStop (s : TrendStrategy) : TrendStrategy :=
  if s.sess.inPosition = true ∧ m.tc.timeStopMin > 0 ∧ s.entryTs > 0 ∧
      b.ts - s.entryTs ≥ m.tc.timeStopMin * 60000000 then
    s.flatten m b "time_stop"
  else s

/-- The bars that the minute closes, in order. -/
def closeBars (s : TrendStrategy) : TrendStrategy :=
  let next := aggregate m.tc.tf b s.tfCur
  let s := next.2.foldl (fun s bar => s.onTfClose m bar) s
  { s with tfCur := next.1 }

/-- The session's histories of its average price and of its delta. -/
def recordSession (s : TrendStrategy) : TrendStrategy :=
  if s.day.inRth then
    { s with day := { s.day with
      vwapHist := s.day.vwapHist ++ [s.day.vwap]
      deltaHist := pushCapped 600 s.day.cumDelta s.day.deltaHist } }
  else s

/-- The higher frame samples the close at the end of its bars. -/
def sampleHtf (s : TrendStrategy) : TrendStrategy :=
  if m.tc.htfTfMin > 0 ∧ (b.mod + 1).tmod m.tc.htfTfMin = 0 then
    { s with htf := {
      close := b.c
      n := s.htf.n + 1
      ema := emaStep m.tc.htfEma b.c s.htf.ema } }
  else s

/-- The modes that decide on a minute. -/
def minuteMode (s : TrendStrategy) : Option TrendStrategy :=
  match m.tc.mode with
  | "trend_day" => s.recogniseTrendDay m b
  | "gap_go" => s.modeGap m b
  | "tod_momentum" => s.modeTod m b
  | "rs_continuation" => s.modeRs m b
  | _ => some s

def onM1Close (s : TrendStrategy) : TrendStrategy :=
  let s := (((s.recordMinute b).timeStop m b).closeBars m b).recordSession.sampleHtf m b
  s.orStray (s.minuteMode m b)

/-! ## A tick -/

variable (t : OrbTick)

/-- A tick that starts the session starts its levels and what its modes remember. -/
def startSession (mod : Int) (s : TrendStrategy) : TrendStrategy :=
  { s with
    day := { s.day with
      inRth := true
      rthSeen := true
      cumDelta := 0
      deltaHist := []
      vwapPv := 0
      vwapV := 0
      vwapHist := []
      dayHi := -doubleMax
      dayLo := doubleMax
      rthOpen := t.price
      rthOpenMod := mod
      gap := if s.day.havePrev then t.price - s.day.prevClose else 0 }
    modes := { s.modes with tdDir := 0, tdDone := false }
    session := SessionModes.start }

/-- The session's end makes its profile. -/
def endSession (s : TrendStrategy) : TrendStrategy :=
  finalizeProfile m.tc.vpVaFrac { s with day := { s.day with inRth := false } }

/-- The tick crosses the session's start or end. -/
def sessionPhase (mod : Int) (s : TrendStrategy) : TrendStrategy :=
  let inside := m.tc.inSession mod
  if inside = true ∧ s.day.inRth = false then s.startSession t mod
  else if inside = false ∧ s.day.inRth = true then s.endSession m
  else s

/-- An entry window that opens again lets its end flatten again. -/
def windowPhase (mod : Int) (s : TrendStrategy) : TrendStrategy :=
  let inside := m.tc.inWindow (hhmmOf mod)
  if inside = s.wasInWindow then s
  else { s with wasInWindow := inside, eodEmitted := if inside then false else s.eodEmitted }

/-- The levels of the session, or of the night. -/
def trackLevels (mod : Int) (s : TrendStrategy) : TrendStrategy :=
  if m.tc.inSession mod then
    { s with day := { s.day with
      vwapPv := s.day.vwapPv + t.price * t.size
      vwapV := s.day.vwapV + t.size
      rthClose := t.price
      dayHi := max s.day.dayHi t.price
      dayLo := min s.day.dayLo t.price } }
  else if mod ≥ 18 * 60 ∨ mod < 9 * 60 + 30 then
    { s with day := { s.day with
      onHi := max s.day.onHi t.price, onLo := min s.day.onLo t.price } }
  else s

/-- The tick opens a minute, which completes the one before, or belongs to the one open. -/
def trackMinute (mod : Int) (s : TrendStrategy) : TrendStrategy :=
  if s.m1.mod ≠ mod then
    let s := if s.m1.mod ≥ 0 then s.onM1Close m s.m1 else s
    { s with m1 := Bar.opened mod t }
  else { s with m1 := s.m1.printed t }

def trackDelta (mod : Int) (s : TrendStrategy) : TrendStrategy :=
  if m.tc.inSession mod then
    { s with day := { s.day with
      cumDelta := s.day.cumDelta + (if t.isBuy then (t.size : ℚ) else -t.size) } }
  else s

def notePrice (s : TrendStrategy) : TrendStrategy :=
  { s with lastPx := t.price, lastTs := t.tsMicros }

/-- What of a tick comes before its minute. -/
def arrive (mod : Int) (s : TrendStrategy) : TrendStrategy :=
  (((s.notePrice t).sessionPhase m t mod).windowPhase m mod).trackLevels m t mod

def onTick (s : TrendStrategy) : TrendStrategy :=
  let mod := etMod t.tsMicros
  ((s.arrive m t mod).trackMinute m t mod).trackDelta m t mod

end TrendStrategy

/-! ## Runs -/

/-- What the host tells the engine. Where the engine may signal, the event says at which
signals the host's callback tells it that its trade is closed. -/
inductive TrendEvent
  | tick (t : OrbTick) (closes : TrendCall → Bool)
  | quote (tsUs : Int) (bid : ℚ) (bidSz : Int) (ask : ℚ) (askSz : Int) (tick : ℚ)
    (closes : TrendCall → Bool)
  | endOfDay (h m : Int) (closes : TrendCall → Bool)
  | reference (close : ℚ)
  | halt (why : String)
  | unhalt
  | seedTrades (n : Int)
  | seedPosition (dir : OrbSignal) (entryTsUs : Int)
  | closed
  | reset
  | eventDay (on : Bool)
  | eventNextDay (on : Bool)
  | dayAtr (pts : Double)

namespace TrendDesk

variable (desk : TrendDesk)

def moment (hhmm : Int) (closes : TrendCall → Bool) : TrendMoment :=
  { desk with hhmm := hhmm, closes := closes }

def handle (s : TrendStrategy) : TrendEvent → TrendStrategy
  | .tick t closes => s.onTick (desk.moment (etHhmm t.tsMicros) closes) t
  | .quote tsUs bid bidSz ask askSz tick closes =>
    s.onQuote (desk.moment (etHhmm tsUs) closes) tsUs bid bidSz ask askSz tick
  | .endOfDay h m closes => s.checkEod (desk.moment (h * 100 + m) closes)
  | .reference close => s.onReferenceBar close
  | .halt why => s.haltTrading why
  | .unhalt => s.unhaltTrading
  | .seedTrades n => s.seedTradesToday n
  | .seedPosition dir entryTsUs => s.seedOpenPosition dir entryTsUs
  | .closed => s.notifyTradeFilled
  | .reset => s.resetSession desk.tc
  | .eventDay on => s.setEventDay on
  | .eventNextDay on => s.setEventNextDay on
  | .dayAtr pts => s.setDayAtr pts

end TrendDesk

end RithmicEngine
