import RithmicEngine.Paper.PaperBroker
/-!
# Paper bracket broker

The fill simulator of an engine that computes its own bracket. The strategy owns the
exits and hands its stop, its target and its size with every tick; the broker keeps
the stop from loosening, plays the limit leg and fills what the strategy signals. A
signal against the open leg is a reversal: the leg is closed at the next tick and the
opposite entry waits for the tick after it.

A bracket value that is not a number is `none`. The rows, the entry gate and the fills
are those of the plain broker, which are read through a view.
-/
namespace RithmicEngine

/-- What the strategy hands over with a tick: its stop and target, and its size. -/
structure Bracket where
  stop : Option ℚ := none
  tp : Option ℚ := none
  qty : Int := 1
  deriving DecidableEq, Repr

structure PaperBracketBroker where
  risk : RiskManager := {}
  qs : QuoteState := {}
  entryBbo : ℚ := 0
  spreadEntry : ℚ := -1
  pendingSinceUs : Int := 0
  posDir : SignType := 0
  qty : Int := 0
  entryPrice : ℚ := 0
  stopPrice : ℚ := 0
  tpPrice : Option ℚ := none
  entryTimeUs : Int := 0
  mfe : ℚ := 0
  mae : ℚ := 0
  pendingDir : SignType := 0
  warmup : Bool := false
  warmupDropped : Nat := 0
  pendingFlip : SignType := 0
  pendingExitReason : String := ""
  lastTickUs : Int := 0
  lastPrice : ℚ := 0
  lastEtHour : Int := 0
  lastEtMin : Int := 0
  outbox : List PaperEffect := []
  deriving DecidableEq

namespace PaperBracketBroker

/-- The fields that the two brokers share, as a plain broker. -/
def common (b : PaperBracketBroker) : PaperBroker where
  risk := b.risk
  qs := b.qs
  entryBbo := b.entryBbo
  spreadEntry := b.spreadEntry
  lastPrice := b.lastPrice
  pendingSinceUs := b.pendingSinceUs
  posDir := b.posDir
  qty := b.qty
  entryPrice := b.entryPrice
  stopPrice := b.stopPrice
  entryTimeUs := b.entryTimeUs
  mfe := b.mfe
  mae := b.mae
  pendingDir := b.pendingDir
  lastTickUs := b.lastTickUs
  outbox := b.outbox

variable (desk : PaperDesk)

/-- A broker as its constructor leaves it. -/
def fresh : PaperBracketBroker where
  risk := (PaperBroker.fresh desk).risk

def emit (effects : List PaperEffect) (b : PaperBracketBroker) : PaperBracketBroker :=
  { b with outbox := b.outbox ++ effects }

def halted (b : PaperBracketBroker) : Bool := b.risk.halted

def long (b : PaperBracketBroker) : Bool := decide (b.posDir > 0)

def unrealized (price : ℚ) (b : PaperBracketBroker) : ℚ := b.common.unrealized desk price

/-! ## Rows for the store -/

def persistPosition (b : PaperBracketBroker) : PaperBracketBroker :=
  if desk.store = false then b
  else emit [.savePosition
    { strategyId := desk.strategyId
      direction := b.posDir
      qty := b.qty
      entryPrice := b.entryPrice
      entryTimeUs := b.entryTimeUs
      stopPrice := b.stopPrice
      targetPrice := b.tpPrice.getD 0
      unrealizedPnl :=
        unrealized desk (if b.lastPrice > 0 then b.lastPrice else b.entryPrice) b }] b

def logSignal (long : Bool) (reason blocked : String) (b : PaperBracketBroker) :
    PaperBracketBroker :=
  if desk.store = false then b
  else emit [.recordSignal (b.common.signalRow desk long reason blocked)] b

/-! ## Signals -/

def entryGate (regime : Option SessionRegime) (long : Bool) (b : PaperBracketBroker) : String :=
  b.common.entryGate desk regime long

/-- An entry signal, once the halt and the gates have let it pass: a reversal of the
open leg, a pending entry, or nothing. -/
def queue (dir : SignType) (b : PaperBracketBroker) : PaperBracketBroker :=
  if b.posDir ≠ 0 ∧ dir ≠ b.posDir then { b with pendingFlip := dir }
  else if b.posDir ≠ 0 ∨ b.pendingDir ≠ 0 then b
  else { b with pendingDir := dir, pendingSinceUs := b.lastTickUs }

def onEntrySignal (regime : Option SessionRegime) (dir : SignType) (reason : String)
    (b : PaperBracketBroker) : PaperBracketBroker :=
  if b.warmup then { b with warmupDropped := b.warmupDropped + 1 }
  else if b.halted then b
  else
    let blocked := entryGate desk regime (decide (dir > 0)) b
    let b := logSignal desk (decide (dir > 0)) reason blocked b
    if blocked ≠ "" then b else queue dir b

def onSignal (regime : Option SessionRegime) (sig : OrbSignal) (reason : String)
    (b : PaperBracketBroker) : PaperBracketBroker :=
  match sig with
  | .flattenEod =>
    if b.posDir ≠ 0 then
      { b with pendingExitReason := if reason = "" then "signal_flatten" else reason }
    else b
  | .none => b
  | .buy => onEntrySignal desk regime 1 reason b
  | .sell => onEntrySignal desk regime (-1) reason b

def onQuote (q : Quote) (b : PaperBracketBroker) : PaperBracketBroker :=
  { b with qs := b.qs.onQuote q desk.tickSize }

/-! ## Entering and leaving a position -/

/-- The strategy's stop when it has one, else the configured distance. -/
def entryStop (dir : SignType) (fill : ℚ) (stop : Option ℚ) : ℚ :=
  match stop with
  | some stop =>
    if stop > 0 then desk.snap stop dir else desk.snap (fill - dir * desk.cfg.slPoints) dir
  | none => desk.snap (fill - dir * desk.cfg.slPoints) dir

def enter (dir : SignType) (fill : ℚ) (tsUs : Int) (bracket : Bracket)
    (b : PaperBracketBroker) : PaperBracketBroker :=
  persistPosition desk
    { b with
      posDir := dir
      qty := max 1 bracket.qty +
        (if desk.cfg.bookSizeAgree > 0 ∧ b.qs.fresh tsUs ∧ b.qs.agrees (decide (dir > 0)) then
          desk.cfg.bookSizeAgree else 0)
      entryPrice := fill
      entryTimeUs := tsUs
      mfe := 0
      mae := 0
      pendingExitReason := ""
      stopPrice := entryStop desk dir fill bracket.stop
      tpPrice := bracket.tp }

def tradeRow (fill : ℚ) (tsUs : Int) (reason : String) (b : PaperBracketBroker) : PaperTradeRow :=
  b.common.tradeRow desk fill tsUs reason

def exitPosition (fill : ℚ) (tsUs : Int) (reason : String) (b : PaperBracketBroker) :
    PaperBracketBroker :=
  let row := tradeRow desk fill tsUs reason b
  let b := { b with
    mfe := row.mfePts
    mae := row.maePts
    posDir := 0
    qty := 0
    tpPrice := none
    pendingExitReason := ""
    risk := (b.risk.updateUnrealized (some 0)).onTradePnl (some row.pnlUsd) }
  let b := if desk.store then emit [.recordTrade row] b else b
  emit [.tradeClosed row] (persistPosition desk b)

/-! ## Ticks -/

def seeTick (t : OrbTick) (b : PaperBracketBroker) : PaperBracketBroker :=
  { b with
    lastTickUs := t.tsMicros
    lastPrice := t.price
    lastEtHour := (utcToEt t.tsMicros).1
    lastEtMin := (utcToEt t.tsMicros).2 }

def predates (t : OrbTick) (b : PaperBracketBroker) : Bool := b.common.predates t

/-- The price of a market exit: the tick at the adverse slippage. -/
def marketExit (t : OrbTick) (b : PaperBracketBroker) : ℚ := t.price - b.posDir * desk.slip

/-- A reversal: the leg is closed, and unless that halted the broker the opposite entry
waits for the next tick. -/
def turn (t : OrbTick) (b : PaperBracketBroker) : PaperBracketBroker :=
  let newDir := b.pendingFlip
  let b := { b with pendingFlip := 0 }
  let b := if b.posDir ≠ 0 then exitPosition desk (marketExit desk t b) t.tsMicros "reversal" b
    else b
  if b.halted then b else { b with pendingDir := newDir }

/-- The pending entry fills at the first tick after the signal; a halt drops it. -/
def fillPending (t : OrbTick) (bracket : Bracket) (b : PaperBracketBroker) : PaperBracketBroker :=
  if b.pendingDir ≠ 0 ∧ b.posDir = 0 ∧ b.common.waitsForBook desk t = false then
    let dir := b.pendingDir
    let fresh := b.qs.fresh t.tsMicros
    let slipFill := t.price + dir * desk.slip
    let bookFill := b.qs.marketFill (decide (dir > 0)) t.tsMicros slipFill t.price
    let b := if b.halted then b
      else
        enter desk dir (if desk.cfg.fillModel = "bbo" ∧ fresh then bookFill else slipFill)
          t.tsMicros bracket
          { b with
            entryBbo := bookFill
            spreadEntry := if fresh then b.qs.q.spreadTicks desk.tickSize else -1 }
    { b with pendingDir := 0 }
  else b

/-- The strategy's bracket: the stop only tightens, and a missing target retires the
limit leg. -/
def updateBracket (bracket : Bracket) (b : PaperBracketBroker) : PaperBracketBroker :=
  let stop :=
    match bracket.stop with
    | none => b.stopPrice
    | some stop =>
      if stop > 0 then
        if b.stopPrice ≤ 0 then stop
        else if b.posDir > 0 then max b.stopPrice stop
        else min b.stopPrice stop
      else b.stopPrice
  { b with stopPrice := stop, tpPrice := bracket.tp }

def stopped (price : ℚ) (b : PaperBracketBroker) : Bool :=
  (decide (b.posDir > 0) && decide (price ≤ b.stopPrice)) ||
    (decide (b.posDir < 0) && decide (price ≥ b.stopPrice))

/-- The fill of a stop, never better than the print that crossed it. -/
def stopFill (price : ℚ) (b : PaperBracketBroker) : ℚ :=
  let fill := b.stopPrice - b.posDir * desk.slip
  if b.posDir > 0 then min fill price else max fill price

/-- The limit leg's price, once the tick has reached it. -/
def targetHit (price : ℚ) (b : PaperBracketBroker) : Option ℚ :=
  match b.tpPrice with
  | none => none
  | some tp =>
    if tp > 0 ∧ ((b.posDir > 0 ∧ price ≥ tp) ∨ (b.posDir < 0 ∧ price ≤ tp)) then some tp else none

/-- The points the position stands at. -/
def points (price : ℚ) (b : PaperBracketBroker) : ℚ := (price - b.entryPrice) * b.posDir

/-- Break-even when the book flips against a position that is already beyond it. -/
def bookBreakEven (t : OrbTick) (b : PaperBracketBroker) : PaperBracketBroker :=
  if desk.cfg.bookBeOnFlip ∧ b.qs.flippedAgainst b.long t.tsMicros ∧
      points t.price b > desk.cfg.trailBeOffset then
    let be := desk.snap (b.common.breakEvenLevel desk) b.posDir
    if b.common.improves be then { b with stopPrice := be } else b
  else b

/-- The backstop of the clock; the flatten time does not wrap here. -/
def pastEod (b : PaperBracketBroker) : Bool :=
  decide (b.lastEtHour * 60 + b.lastEtMin ≥
    desk.cfg.eodFlattenHour * 60 + desk.cfg.eodFlattenMin)

/-- Excursion and open profit of a position that no exit closed. -/
def markOpen (price : ℚ) (b : PaperBracketBroker) : PaperBracketBroker :=
  let ex := points price b
  { b with
    mfe := if ex > b.mfe then ex else b.mfe
    mae := if ex < b.mae then ex else b.mae
    risk := b.risk.updateUnrealized (some (unrealized desk price b)) }

/-- What the strategy, a halt or the clock asks for, after the book's own break-even. -/
def settle (t : OrbTick) (b : PaperBracketBroker) : PaperBracketBroker :=
  let b := bookBreakEven desk t b
  if b.pendingExitReason ≠ "" then
    exitPosition desk (marketExit desk t b) t.tsMicros b.pendingExitReason b
  else if b.halted then exitPosition desk (marketExit desk t b) t.tsMicros "daily_loss" b
  else if pastEod desk b then exitPosition desk (marketExit desk t b) t.tsMicros "eod" b
  else markOpen desk t.price b

/-- Manage an open position: the bracket first, then stop, target and the book's exits. -/
def manage (t : OrbTick) (bracket : Bracket) (b : PaperBracketBroker) : PaperBracketBroker :=
  let b := updateBracket bracket b
  if stopped t.price b then exitPosition desk (stopFill desk t.price b) t.tsMicros "stop" b
  else
    match targetHit t.price b with
    | some tp => exitPosition desk tp t.tsMicros "target" b
    | none =>
      let why := b.qs.bookExit desk.cfg b.long t.tsMicros (points t.price b)
      if why ≠ "" then exitPosition desk (marketExit desk t b) t.tsMicros why b
      else settle desk t b

def onTick (t : OrbTick) (bracket : Bracket) (b : PaperBracketBroker) : PaperBracketBroker :=
  let b := seeTick t b
  if predates t b then b
  else if b.pendingFlip ≠ 0 then turn desk t b
  else
    let b := fillPending desk t bracket b
    if b.posDir = 0 then b else manage desk t bracket b

/-! ## The host's own calls -/

def resumePosition (dir : SignType) (qty : Int) (entry stop : ℚ) (entryTimeUs : Int)
    (b : PaperBracketBroker) : PaperBracketBroker :=
  { b with
    posDir := dir
    qty := qty
    entryPrice := entry
    stopPrice := stop
    tpPrice := none
    entryTimeUs := entryTimeUs }

/-- Flatten at once, for an account halt, a restart or the operator. -/
def flatten (reason : String) (tsUs : Int) (priceHint : ℚ) (b : PaperBracketBroker) :
    PaperBracketBroker :=
  let b := { b with pendingDir := 0, pendingFlip := 0, pendingExitReason := "" }
  if b.posDir = 0 then b
  else
    let px := if priceHint > 0 then priceHint else b.entryPrice
    exitPosition desk (px - b.posDir * desk.slip) tsUs reason b

def resetDay (b : PaperBracketBroker) : PaperBracketBroker :=
  { b with risk := b.risk.resetDaily.updateUnrealized (some 0) }

def setWarmup (on : Bool) (b : PaperBracketBroker) : PaperBracketBroker :=
  { b with warmup := on, warmupDropped := if on then 0 else b.warmupDropped }

end PaperBracketBroker

end RithmicEngine
