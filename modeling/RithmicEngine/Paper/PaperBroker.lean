import Mathlib.Data.Sign.Defs
import RithmicEngine.Execution.OrbTick
import RithmicEngine.Execution.RiskManager
import RithmicEngine.Paper.PaperQuote
/-!
# Paper broker

The fill simulator of one strategy of the paper fleet. An entry signal waits for the
next tick and fills there at the adverse slippage; the position is then managed tick
by tick like the order manager's: a stop, a break-even move, a trail whose working
copy moves only in whole steps, a take-profit, the book's exits and the end of the
day. What the store and the close callback are handed is appended to the outbox.

The session regime belongs to the host and is read through a pointer, so every
operation that reads it takes it as an argument. Log lines are left out.
-/
namespace RithmicEngine

/-- The signed unit of a signal's direction. -/
def OrbSignal.dir : OrbSignal → SignType
  | .buy => 1
  | .sell => -1
  | .none => 0
  | .flattenEod => 0

/-- What a paper broker is built with. -/
structure PaperDesk where
  strategyId : String := ""
  accountLabel : String := ""
  symbol : String := "MNQ"
  cfg : PaperConfig := {}
  tickSize : ℚ := 1 / 4
  slippageTicks : Int := 1
  store : Bool := true
  deriving DecidableEq, Repr

/-- A closed trade as the store records it. -/
structure PaperTradeRow where
  strategyId : String
  accountLabel : String
  symbol : String
  direction : String
  qty : Int
  entryTimeUs : Int
  entryPrice : ℚ
  exitTimeUs : Int
  exitPrice : ℚ
  pnlPts : ℚ
  commission : ℚ
  pnlUsd : ℚ
  fillModel : String
  entryBbo : ℚ
  exitBbo : ℚ
  pnlBboUsd : ℚ
  spreadEntryTicks : ℚ
  spreadExitTicks : ℚ
  mfePts : ℚ
  maePts : ℚ
  exitReason : String
  deriving DecidableEq, Repr

structure PaperPositionRow where
  strategyId : String
  direction : SignType
  qty : Int
  entryPrice : ℚ
  entryTimeUs : Int
  stopPrice : ℚ
  targetPrice : ℚ := 0
  unrealizedPnl : ℚ
  deriving DecidableEq

structure PaperSignalRow where
  strategyId : String
  accountLabel : String
  tsUs : Int
  direction : String
  price : ℚ
  reason : String
  decision : String
  spreadTicks : ℚ := -1
  imbalance : ℚ := -1
  micropriceDevTicks : ℚ := 0
  spreadRel : ℚ := -1
  deriving DecidableEq, Repr

inductive PaperEffect
  | recordSignal (row : PaperSignalRow)
  | savePosition (row : PaperPositionRow)
  | recordTrade (row : PaperTradeRow)
  | tradeClosed (row : PaperTradeRow)
  deriving DecidableEq

structure PaperBroker where
  risk : RiskManager := {}
  qs : QuoteState := {}
  entryBbo : ℚ := 0
  spreadEntry : ℚ := -1
  lastPrice : ℚ := 0
  placedStop : ℚ := 0
  pendingSinceUs : Int := 0
  posDir : SignType := 0
  qty : Int := 0
  entryPrice : ℚ := 0
  stopPrice : ℚ := 0
  entryTimeUs : Int := 0
  mfe : ℚ := 0
  mae : ℚ := 0
  beMoved : Bool := false
  trailArmed : Bool := false
  slDirty : Bool := false
  pendingDir : SignType := 0
  warmup : Bool := false
  warmupDropped : Nat := 0
  pendingExitReason : String := ""
  entriesToday : Int := 0
  cooldownUntilUs : Int := 0
  lastTickUs : Int := 0
  lastEtHour : Int := 0
  lastEtMin : Int := 0
  outbox : List PaperEffect := []
  deriving DecidableEq

/-- The readings of the session that the exits share with the order manager. -/
def SessionRegime.exits (regime : Option SessionRegime) : Option RegimeState :=
  regime.map SessionRegime.toRegimeState

namespace PaperDesk

def slip (desk : PaperDesk) : ℚ := desk.slippageTicks * desk.tickSize

/-- Snap a stop to the tick grid, away from the market. -/
def snap (px : ℚ) (dir : SignType) (desk : PaperDesk) : ℚ :=
  if desk.tickSize ≤ 0 then px
  else
    let ticks := px / desk.tickSize
    (if dir > 0 then (⌊ticks + 1 / 1000000000⌋ : ℚ)
      else (⌈ticks - 1 / 1000000000⌉ : ℚ)) * desk.tickSize

/-- The trail step in force. -/
def trailStep (regime : Option SessionRegime) (desk : PaperDesk) : ℚ :=
  RegimeState.trailStepFor desk.cfg.toOrbConfig (SessionRegime.exits regime)

/-- The take-profit distance in force, zero for none. -/
def takeProfit (regime : Option SessionRegime) (desk : PaperDesk) : ℚ :=
  RegimeState.takeProfitFor desk.cfg.toOrbConfig (SessionRegime.exits regime)

/-- The minute of the day lies inside the session; a session that closes before it
opens wraps midnight. -/
def inSession (minute : Int) (desk : PaperDesk) : Bool :=
  let openMin := desk.cfg.sessionOpenHour * 60 + desk.cfg.sessionOpenMin
  let eodMin := desk.cfg.eodFlattenHour * 60 + desk.cfg.eodFlattenMin
  if eodMin < openMin then decide (minute ≥ openMin) || decide (minute < eodMin)
  else decide (minute ≥ openMin) && decide (minute < eodMin)

/-- The minute of the day lies past the flatten time. -/
def pastEod (minute : Int) (desk : PaperDesk) : Bool :=
  let openMin := desk.cfg.sessionOpenHour * 60 + desk.cfg.sessionOpenMin
  let eodMin := desk.cfg.eodFlattenHour * 60 + desk.cfg.eodFlattenMin
  if eodMin < openMin then decide (minute ≥ eodMin) && decide (minute < openMin)
  else decide (minute ≥ eodMin)

end PaperDesk

namespace PaperBroker

variable (desk : PaperDesk)

/-- A broker as its constructor leaves it. -/
def fresh : PaperBroker where
  risk :=
    { cfg := desk.cfg.toOrbConfig
      equity := desk.cfg.startingBalance
      peakEquity := desk.cfg.startingBalance }

def emit (effects : List PaperEffect) (b : PaperBroker) : PaperBroker :=
  { b with outbox := b.outbox ++ effects }

def halted (b : PaperBroker) : Bool := b.risk.halted

def long (b : PaperBroker) : Bool := decide (b.posDir > 0)

def unrealized (price : ℚ) (b : PaperBroker) : ℚ :=
  if b.posDir = 0 then 0 else (price - b.entryPrice) * b.posDir * desk.cfg.pointValue * b.qty

/-- The Eastern minute of the day of the last tick. -/
def lastMinute (b : PaperBroker) : Int := b.lastEtHour * 60 + b.lastEtMin

/-- Before the first tick the window is open. -/
def inEntryWindow (b : PaperBroker) : Bool :=
  if b.lastTickUs ≤ 0 then true
  else desk.inSession b.lastMinute && decide (b.lastEtHour < desk.cfg.lastEntryHour)

/-! ## Rows for the store -/

def persistPosition (unreal : ℚ) (b : PaperBroker) : PaperBroker :=
  if desk.store = false then b
  else emit [.savePosition
    { strategyId := desk.strategyId
      direction := b.posDir
      qty := b.qty
      entryPrice := b.entryPrice
      entryTimeUs := b.entryTimeUs
      stopPrice := b.stopPrice
      unrealizedPnl := unreal }] b

/-- The row of a signal that reached the gates, with the book where there is one. -/
def signalRow (long : Bool) (reason blocked : String) (b : PaperBroker) : PaperSignalRow :=
  let row : PaperSignalRow :=
    { strategyId := desk.strategyId
      accountLabel := desk.accountLabel
      tsUs := b.lastTickUs
      direction := if long then "LONG" else "SHORT"
      price := b.lastPrice
      reason := reason
      decision := if blocked = "" then "taken" else "blocked:" ++ blocked }
  if b.qs.fresh b.lastTickUs then
    let spread := b.qs.q.spreadTicks desk.tickSize
    { row with
      spreadTicks := spread
      imbalance := b.qs.q.imbalance
      micropriceDevTicks :=
        if desk.tickSize > 0 then (b.qs.q.microprice - b.qs.q.mid) / desk.tickSize else 0
      spreadRel := if b.qs.spreadEma > 0 then spread / b.qs.spreadEma else -1 }
  else row

def logSignal (long : Bool) (reason blocked : String) (b : PaperBroker) : PaperBroker :=
  if desk.store = false then b else emit [.recordSignal (signalRow desk long reason blocked b)] b

/-! ## Signals -/

/-- The reason the book or the session blocks an entry for, empty for none. -/
def entryGate (regime : Option SessionRegime) (long : Bool) (b : PaperBroker) : String :=
  let book := b.qs.gate desk.cfg long b.lastTickUs desk.tickSize
  if book ≠ "" then book
  else
    match regime with
    | none => ""
    | some r => r.gate desk.cfg long

/-- An entry signal. A refused one leaves nothing behind but a count or a row. -/
def onEntrySignal (regime : Option SessionRegime) (dir : SignType) (reason : String)
    (b : PaperBroker) : PaperBroker :=
  if b.warmup then { b with warmupDropped := b.warmupDropped + 1 }
  else if b.posDir ≠ 0 ∨ b.pendingDir ≠ 0 then b
  else if b.halted then b
  else if b.risk.canTrade = false then b
  else if b.entriesToday ≥ desk.cfg.maxDailyTrades then b
  else if b.lastTickUs > 0 ∧ b.lastTickUs < b.cooldownUntilUs then b
  else if inEntryWindow desk b = false then b
  else
    let blocked := entryGate desk regime (decide (dir > 0)) b
    let b := logSignal desk (decide (dir > 0)) reason blocked b
    if blocked ≠ "" then b else { b with pendingDir := dir, pendingSinceUs := b.lastTickUs }

def onSignal (regime : Option SessionRegime) (sig : OrbSignal) (reason : String)
    (b : PaperBroker) : PaperBroker :=
  match sig with
  | .flattenEod =>
    if b.posDir ≠ 0 ∧ b.pendingExitReason = "" then
      { b with pendingExitReason := "signal_flatten" }
    else b
  | .none => b
  | .buy => onEntrySignal desk regime 1 reason b
  | .sell => onEntrySignal desk regime (-1) reason b

def onQuote (q : Quote) (b : PaperBroker) : PaperBroker :=
  { b with qs := b.qs.onQuote q desk.tickSize }

/-! ## Entering and leaving a position -/

/-- The quantity of the next position, with the extra contracts the book agrees to. -/
def entryQty (regime : Option SessionRegime) (long : Bool) (tsUs : Int) (b : PaperBroker) : Int :=
  RegimeState.qtyFor desk.cfg.toOrbConfig (SessionRegime.exits regime) +
    (if desk.cfg.bookSizeAgree > 0 ∧ b.qs.fresh tsUs ∧ b.qs.agrees long then
      desk.cfg.bookSizeAgree else 0)

def enter (regime : Option SessionRegime) (dir : SignType) (fill : ℚ) (tsUs : Int)
    (b : PaperBroker) : PaperBroker :=
  let stop := desk.snap (fill - dir * desk.cfg.slPoints) dir
  persistPosition desk 0
    { b with
      posDir := dir
      qty := entryQty desk regime (decide (dir > 0)) tsUs b
      entryPrice := fill
      entryTimeUs := tsUs
      stopPrice := stop
      placedStop := stop
      mfe := 0
      mae := 0
      beMoved := false
      trailArmed := false
      entriesToday := b.entriesToday + 1 }

/-- The price at which the book would have filled an exit. -/
def exitBbo (fill : ℚ) (tsUs : Int) (b : PaperBroker) : ℚ :=
  if b.qs.fresh tsUs then b.qs.marketFill (!b.long) tsUs fill fill else fill

/-- The row of the trade that an exit at this price closes. -/
def tradeRow (fill : ℚ) (tsUs : Int) (reason : String) (b : PaperBroker) : PaperTradeRow :=
  let fresh := b.qs.fresh tsUs
  let exitBbo := exitBbo fill tsUs b
  let fill := if desk.cfg.fillModel = "bbo" ∧ fresh then exitBbo else fill
  let entryBbo := if b.entryBbo > 0 then b.entryBbo else b.entryPrice
  let pnlPts := (fill - b.entryPrice) * b.posDir
  let commission := desk.cfg.commissionRt * b.qty
  { strategyId := desk.strategyId
    accountLabel := desk.accountLabel
    symbol := desk.symbol
    direction := if b.posDir > 0 then "LONG" else "SHORT"
    qty := b.qty
    entryTimeUs := b.entryTimeUs
    entryPrice := b.entryPrice
    exitTimeUs := tsUs
    exitPrice := fill
    pnlPts := pnlPts
    commission := commission
    pnlUsd := pnlPts * desk.cfg.pointValue * b.qty - commission
    fillModel := desk.cfg.fillModel
    entryBbo := entryBbo
    exitBbo := exitBbo
    pnlBboUsd := (exitBbo - entryBbo) * b.posDir * desk.cfg.pointValue * b.qty - commission
    spreadEntryTicks := b.spreadEntry
    spreadExitTicks := if fresh then b.qs.q.spreadTicks desk.tickSize else -1
    mfePts := if pnlPts > b.mfe then pnlPts else b.mfe
    maePts := if pnlPts < b.mae then pnlPts else b.mae
    exitReason := reason }

def exitPosition (fill : ℚ) (tsUs : Int) (reason : String) (b : PaperBroker) : PaperBroker :=
  let row := tradeRow desk fill tsUs reason b
  let b := { b with
    mfe := row.mfePts
    mae := row.maePts
    posDir := 0
    qty := 0
    risk := (b.risk.updateUnrealized (some 0)).onTradePnl (some row.pnlUsd)
    cooldownUntilUs :=
      if desk.cfg.stopCooldownSecs > 0 then tsUs + desk.cfg.stopCooldownSecs * 1000000
      else b.cooldownUntilUs }
  let b := if desk.store then emit [.recordTrade row] b else b
  emit [.tradeClosed row] (persistPosition desk 0 b)

/-! ## Stops -/

/-- A level improves the stop when it lies nearer the market. -/
def improves (level : ℚ) (b : PaperBroker) : Bool :=
  (decide (b.posDir > 0) && decide (level > b.stopPrice)) ||
    (decide (b.posDir < 0) && decide (level < b.stopPrice))

/-- Move the working stop to the level in memory: when forced, when there is none yet,
or when the two are a trail step apart. -/
def syncPlacedStop (regime : Option SessionRegime) (force : Bool) (b : PaperBroker) :
    PaperBroker :=
  if b.placedStop ≤ 0 ∨ force then { b with placedStop := b.stopPrice }
  else if |b.stopPrice - b.placedStop| ≥ desk.trailStep regime - 1 / 1000000000 then
    { b with placedStop := b.stopPrice }
  else b

/-- The break-even level: the entry plus the offset, on the profitable side. -/
def breakEvenLevel (b : PaperBroker) : ℚ := b.entryPrice + b.posDir * desk.cfg.trailBeOffset

/-- Which of its lives the stop that was hit was in. -/
def stopExitReason (b : PaperBroker) : String :=
  let be := breakEvenLevel desk b
  if |b.placedStop - desk.snap be b.posDir| < 1 / 1000000000 then "breakeven"
  else if (if b.posDir > 0 then b.placedStop > be + 1 / 1000000000
      else b.placedStop < be - 1 / 1000000000) then "trail"
  else "stop"

/-- Take the level as the stop in memory. -/
def raiseStop (level : ℚ) (b : PaperBroker) : PaperBroker :=
  { b with stopPrice := level, slDirty := true }

/-! ## Ticks -/

def seeTick (t : OrbTick) (b : PaperBroker) : PaperBroker :=
  { b with
    lastTickUs := t.tsMicros
    lastPrice := t.price
    lastEtHour := (utcToEt t.tsMicros).1
    lastEtMin := (utcToEt t.tsMicros).2 }

/-- A tick older than the entry of the position it would manage. -/
def predates (t : OrbTick) (b : PaperBroker) : Bool :=
  decide (b.posDir ≠ 0) && decide (b.entryTimeUs > 0) && decide (t.tsMicros < b.entryTimeUs)

/-- The pending entry waits for a better book. -/
def waitsForBook (t : OrbTick) (b : PaperBroker) : Bool :=
  decide (desk.cfg.fillWaitSecs > 0) &&
    decide (t.tsMicros - b.pendingSinceUs < desk.cfg.fillWaitSecs * 1000000) &&
    !b.qs.fillReady (decide (b.pendingDir > 0)) t.tsMicros desk.tickSize

/-- The pending entry fills at the first tick after the signal. -/
def fillPending (regime : Option SessionRegime) (t : OrbTick) (b : PaperBroker) : PaperBroker :=
  if b.pendingDir ≠ 0 ∧ b.posDir = 0 ∧ waitsForBook desk t b = false then
    let dir := b.pendingDir
    let fresh := b.qs.fresh t.tsMicros
    let slipFill := t.price + dir * desk.slip
    let bookFill := b.qs.marketFill (decide (dir > 0)) t.tsMicros slipFill t.price
    enter desk regime dir (if desk.cfg.fillModel = "bbo" ∧ fresh then bookFill else slipFill)
      t.tsMicros
      { b with
        pendingDir := 0
        entryBbo := bookFill
        spreadEntry := if fresh then b.qs.q.spreadTicks desk.tickSize else -1 }
  else b

/-- The price of a market exit: the tick at the adverse slippage. -/
def marketExit (t : OrbTick) (b : PaperBroker) : ℚ := t.price - b.posDir * desk.slip

def stopped (price : ℚ) (b : PaperBroker) : Bool :=
  if b.posDir > 0 then decide (price ≤ b.placedStop) else decide (price ≥ b.placedStop)

/-- The fill of a stop, never better than the print that crossed it. -/
def stopFill (price : ℚ) (b : PaperBroker) : ℚ :=
  let fill := b.placedStop - b.posDir * desk.slip
  if b.posDir > 0 then min fill price else max fill price

/-- The take-profit target in force. -/
def target (regime : Option SessionRegime) (b : PaperBroker) : ℚ :=
  b.entryPrice + b.posDir * desk.takeProfit regime

def takeProfitHit (regime : Option SessionRegime) (price : ℚ) (b : PaperBroker) : Bool :=
  decide (desk.takeProfit regime > 0) &&
    (if b.posDir > 0 then decide (price ≥ target desk regime b)
      else decide (price ≤ target desk regime b))

/-- The points the position stands at. -/
def points (price : ℚ) (b : PaperBroker) : ℚ := (price - b.entryPrice) * b.posDir

/-- Break-even when the book flips against a position that is already beyond it. -/
def bookBreakEven (regime : Option SessionRegime) (t : OrbTick) (b : PaperBroker) : PaperBroker :=
  if desk.cfg.bookBeOnFlip ∧ b.beMoved = false ∧ b.qs.flippedAgainst b.long t.tsMicros ∧
      points t.price b > desk.cfg.trailBeOffset then
    let be := desk.snap (breakEvenLevel desk b) b.posDir
    if improves be b then
      syncPlacedStop desk regime true { raiseStop be b with beMoved := true }
    else b
  else b

def trackExcursion (price : ℚ) (b : PaperBroker) : PaperBroker :=
  let gain := if b.posDir > 0 then price - b.entryPrice else b.entryPrice - price
  { b with
    mfe := if gain > b.mfe then gain else b.mfe
    mae := if gain < b.mae then gain else b.mae }

/-- The break-even move, taken once and at once. -/
def breakEven (regime : Option SessionRegime) (b : PaperBroker) : PaperBroker :=
  if b.beMoved = false ∧ b.mfe ≥ desk.cfg.trailBeTrigger then
    let be := desk.snap (breakEvenLevel desk b) b.posDir
    { (if improves be b then syncPlacedStop desk regime true (raiseStop be b) else b) with
      beMoved := true }
  else b

/-- The trail starts once the delay has passed and the trigger was reached. -/
def armTrail (tsUs : Int) (b : PaperBroker) : PaperBroker :=
  if b.trailArmed = false ∧ (tsUs - b.entryTimeUs).tdiv 1000000 ≥ desk.cfg.trailDelaySecs ∧
      b.mfe ≥ desk.cfg.trailBeTrigger then
    { b with trailArmed := true }
  else b

/-- The level of the trail behind a price. -/
def trailLevel (regime : Option SessionRegime) (price : ℚ) (b : PaperBroker) : ℚ :=
  desk.snap (price - b.posDir * desk.trailStep regime) b.posDir

def trail (regime : Option SessionRegime) (price : ℚ) (b : PaperBroker) : PaperBroker :=
  if b.trailArmed ∧ improves (trailLevel desk regime price b) b then
    syncPlacedStop desk regime false (raiseStop (trailLevel desk regime price b) b)
  else b

/-- Note the open profit, and save the position when its stop moved. -/
def markOpen (price : ℚ) (b : PaperBroker) : PaperBroker :=
  let unreal := unrealized desk price b
  let b := { b with risk := b.risk.updateUnrealized (some unreal) }
  if b.slDirty then persistPosition desk unreal { b with slDirty := false } else b

/-- Excursion, break-even and trail of a position that no exit closed. -/
def ratchet (regime : Option SessionRegime) (t : OrbTick) (b : PaperBroker) : PaperBroker :=
  let b := breakEven desk regime (trackExcursion t.price b)
  markOpen desk t.price (trail desk regime t.price (armTrail desk t.tsMicros b))

/-- Manage an open position inside the session: the stop first, against the working
level as of now, then the target, the book's exits and the ratchet. -/
def manage (regime : Option SessionRegime) (t : OrbTick) (b : PaperBroker) : PaperBroker :=
  let b := syncPlacedStop desk regime false b
  if stopped t.price b then
    exitPosition desk (stopFill desk t.price b) t.tsMicros (stopExitReason desk b) b
  else if takeProfitHit desk regime t.price b then
    exitPosition desk (target desk regime b) t.tsMicros "take_profit" b
  else
    let why := b.qs.bookExit desk.cfg b.long t.tsMicros (points t.price b)
    if why ≠ "" then exitPosition desk (marketExit desk t b) t.tsMicros why b
    else ratchet desk regime t (bookBreakEven desk regime t b)

/-- What a tick does to the position there is once a pending entry has filled. -/
def work (regime : Option SessionRegime) (t : OrbTick) (b : PaperBroker) : PaperBroker :=
  if b.pendingExitReason ≠ "" ∧ b.posDir ≠ 0 then
    exitPosition desk (marketExit desk t b) t.tsMicros b.pendingExitReason
      { b with pendingExitReason := "" }
  else if b.posDir = 0 then { b with risk := b.risk.updateUnrealized (some 0) }
  else if desk.pastEod b.lastMinute then
    exitPosition desk (marketExit desk t b) t.tsMicros "eod" b
  else if b.halted then exitPosition desk (marketExit desk t b) t.tsMicros "daily_loss" b
  else manage desk regime t b

def onTick (regime : Option SessionRegime) (t : OrbTick) (b : PaperBroker) : PaperBroker :=
  let b := seeTick t b
  if predates t b then b else work desk regime t (fillPending desk regime t b)

/-! ## The host's own calls -/

/-- Take over an open position from the database. Where its stop stands tells whether
the break-even move was made. -/
def resumePosition (dir : SignType) (qty : Int) (entry stop : ℚ) (entryTimeUs : Int)
    (b : PaperBroker) : PaperBroker :=
  let moved := if dir > 0 then decide (stop ≥ entry) else decide (stop ≤ entry)
  { b with
    posDir := dir
    qty := qty
    placedStop := stop
    entryPrice := entry
    stopPrice := stop
    entryTimeUs := entryTimeUs
    beMoved := moved
    trailArmed := moved }

/-- Flatten at once, for an account halt or a shutdown. -/
def flatten (reason : String) (tsUs : Int) (priceHint : ℚ) (b : PaperBroker) : PaperBroker :=
  let b := { b with pendingDir := 0, pendingExitReason := "" }
  if b.posDir = 0 then b
  else
    let px := if priceHint > 0 then priceHint else b.entryPrice
    exitPosition desk (px - b.posDir * desk.slip) tsUs reason b

def resetDay (b : PaperBroker) : PaperBroker :=
  { b with
    entriesToday := 0
    cooldownUntilUs := 0
    risk := b.risk.resetDaily.updateUnrealized (some 0) }

def seedEntriesToday (n : Int) (b : PaperBroker) : PaperBroker := { b with entriesToday := n }

def setWarmup (on : Bool) (b : PaperBroker) : PaperBroker :=
  { b with warmup := on, warmupDropped := if on then 0 else b.warmupDropped }

end PaperBroker

end RithmicEngine
