import RithmicEngine.Execution.NetReconciler
import RithmicEngine.Execution.OpLoop
import RithmicEngine.Execution.Calls
/-!
# Session cycles

One process runs session cycles one after the other. The risk manager, the
strategy, the session date and the carried position survive a cycle; the order
manager and every other part of the state are made anew by the next one. A cycle
connects its plants and may return early while it does; once connected it
answers the messages of the plants and its own timers until a read error or the
end of the main loop captures the position for the next cycle.

The events are everything that happens to the process, and each is one step.
Of the strategy only the halt is kept, and no entry signal leaves a halted
strategy. Connected means that the cycle is past its last early return; a dry
run connects no order plant and receives none of its messages. The build is the
one without the native market-data feed. Logs, alerts, the drill and the writes
to the database are left out.
-/
namespace RithmicEngine

/-- The halt of the strategy's session. The text of an unhalt is only logged. -/
structure StrategySession where
  riskHalted : Bool := false
  haltReason : String := ""
  deriving DecidableEq, Repr

namespace StrategySession

def haltTrading (reason : String) (_ : StrategySession) : StrategySession where
  riskHalted := true
  haltReason := reason

def unhaltTrading (session : StrategySession) : StrategySession :=
  if session.riskHalted then { riskHalted := false, haltReason := "" } else session

def resetSession (_ : StrategySession) : StrategySession where
  riskHalted := false
  haltReason := ""

/-- The halt waits for the position at start-up. -/
def awaitsPosition (session : StrategySession) : Bool :=
  "startup_".isPrefixOf session.haltReason ||
    decide (session.haltReason = "reconnect_unreconciled_position")

/-- The halt was caused by a disagreement about the position. -/
def awaitsAgreement (session : StrategySession) : Bool :=
  decide (session.haltReason = "exchange_net_mismatch") ||
    decide (session.haltReason = "unowned_fill_in_trade")

@[simp] theorem haltTrading_riskHalted (reason : String) (session : StrategySession) :
    (session.haltTrading reason).riskHalted = true := rfl

end StrategySession

/-- The order that closes contracts the exchange holds and the process does not. -/
structure UnwindOrder where
  basket : String
  symbol : String
  exchange : String
  qty : Int
  isBuy : Bool
  limitPrice : Option ℚ
  deriving DecidableEq, Repr

/-- What a cycle writes to the order plant beside the order manager's callbacks. -/
inductive Sent
  | cancelOrder (basket : String)
  | unwind (order : UnwindOrder)
  deriving DecidableEq, Repr

/-- The clocks and the last price during a step, and whether a write succeeds. -/
structure Moment where
  now : Int := 1
  epochMs : Nat := 0
  lastPrice : ℚ := 0
  written : Bool := true
  deriving DecidableEq, Repr

/-- Milliseconds of the steady clock. -/
def Moment.nowMs (moment : Moment) : Int := moment.now / 1000000

/-- A 451 position update; an absent amount is an empty decimal string. -/
structure PositionUpdate where
  accountId : String := ""
  isSnapshot : Bool := false
  netQuantity : Int := 0
  accountBalance : Option ℚ := none
  dayPnl : Option ℚ := none
  dayOpenPnl : Option ℚ := none
  dayClosedPnl : Option ℚ := none
  deriving DecidableEq, Repr

/-- The broker's day profit: its own figure, else the sum of what is known of the parts. -/
def PositionUpdate.brokerDayPnl (update : PositionUpdate) : Option ℚ :=
  match update.dayPnl with
  | some pnl => some pnl
  | none =>
    match update.dayOpenPnl, update.dayClosedPnl with
    | none, none => none
    | opened, closed => some (opened.getD 0 + closed.getD 0)

inductive Stage
  | down
  | connecting
  | live
  deriving DecidableEq, Repr

/-- The process: first what survives a cycle, then the state of the running one.
The risk manager and the basket counter are those in the order manager, and an
empty session date is `none`. -/
structure Executor where
  running : Bool := true
  session : StrategySession := {}
  today : Option String := none
  carriedPos : Position := {}
  stage : Stage := .down
  manager : OrderManager := {}
  carriedNonflat : Bool := false
  pnlConnected : Bool := false
  deferredSnapshotCancels : List String := []
  deferSnapshotCancels : Bool := false
  netRecon : NetReconciler := {}
  netHaltActive : Bool := false
  brokerLossHalted : Bool := false
  brokerDdHalted : Bool := false
  brokerHwm : ℚ := 0
  lastExchNet : Option Int := none
  lastUnwindBasket : String := ""
  pgFeedFresh : Bool := false
  sent : List Sent := []

/-- What the database knows of the account before the first session. -/
structure AccountHistory where
  totalPnl : ℚ
  peakEquity : ℚ
  dailyPnl : ℚ
  deriving DecidableEq, Repr

/-- What the connecting phase ended with: the position feed, the session date,
the persisted high-water mark and the position state the database last saw. -/
structure Connection where
  pnlConnected : Bool := true
  date : String := ""
  accountHwm : Option ℚ := none
  priorState : String := ""
  deriving DecidableEq, Repr

inductive Event
  | start (history : Option AccountHistory)
  | earlyReturn
  | stopped
  | connected (connection : Connection)
  | order (moment : Moment) (notice : OpLoop.OrderNotice)
  | exchange (moment : Moment) (notice : OpLoop.ExchangeNotice)
  | response (moment : Moment) (basketId : String) (rpCode : List String)
  | position (moment : Moment) (update : PositionUpdate)
  | pnlResponse (rpCode : List String)
  | recheck (moment : Moment)
  | call (call : Call)
  | feedStale
  | feedResumed
  | rollover (date : String)
  | shutdown (moment : Moment)
  | drained
  | readError
  | mainLoopExit

namespace Executor

variable (host : Host)

/-- Apply an operation of the order manager. -/
def onManager (operation : OrderManager → OrderManager) (x : Executor) : Executor :=
  { x with manager := operation x.manager }

def halt (reason : String) (x : Executor) : Executor :=
  { x with session := x.session.haltTrading reason }

/-! ## Reconciliation -/

/-- The unwind is a limit that crosses the spread, or a market order where no
price is known. -/
def unwindOrder (moment : Moment) (qty : Int) (isBuy : Bool) : UnwindOrder where
  basket := host.cfg.symbol ++ "-unwind-" ++ toString moment.epochMs
  symbol := host.cfg.tradeSymbol
  exchange := host.cfg.exchange
  qty := qty
  isBuy := isBuy
  limitPrice :=
    if moment.lastPrice > 0 then
      some (if isBuy then moment.lastPrice + 50 * (1 / 4) else moment.lastPrice - 50 * (1 / 4))
    else none

/-- Send an unwind and register its basket, so that its fill is recognised. -/
def sendUnwind (moment : Moment) (qty : Int) (isBuy : Bool) (x : Executor) : Executor × Bool :=
  if qty ≤ 0 ∨ host.cfg.dryRun = true ∨ moment.written = false then (x, false)
  else
    let order := unwindOrder host moment qty isBuy
    ({ x with
        sent := x.sent ++ [.unwind order]
        manager := x.manager.registerUnwindBasket order.basket
        lastUnwindBasket := order.basket }, true)

/-- Cancel the previous unwind, which rests or was rejected, by the id the
exchange can route. -/
def cancelLastUnwind (x : Executor) : Executor :=
  if x.lastUnwindBasket = "" then x
  else
    { x with
      sent :=
        if host.cfg.dryRun then x.sent
        else x.sent ++ [.cancelOrder (x.manager.routableId x.lastUnwindBasket)]
      lastUnwindBasket := "" }

/-- Halt entries and trade the difference away. -/
def actOnMismatch (moment : Moment) (net : Int) (x : Executor) : Executor :=
  let plan := Notif.planUnwind net x.manager.pos host.cfg.qty
  let x := { x.halt "exchange_net_mismatch" with netHaltActive := true }
  let x := if plan.adoptFlat then
      x.onManager (OrderManager.adoptExternalClose host moment.lastPrice "external_close")
    else x
  let x := x.cancelLastUnwind host
  if plan.qty > 0 then (x.sendUnwind host moment plan.qty plan.isBuy).1 else x

/-- The exchange agrees again after a mismatch was acted on. -/
def clearMismatch (net : Int) (x : Executor) : Executor :=
  if x.netHaltActive then
    let x := { x with netHaltActive := false }
    let x := if net = 0 then x.onManager OrderManager.confirmExchangeFlat else x
    if x.session.awaitsAgreement then { x with session := x.session.unhaltTrading } else x
  else x

/-- A ghost-fill halt is lifted when both sides are flat. -/
def confirmBothFlat (net : Int) (consistent : Bool) (x : Executor) : Executor :=
  if net = 0 ∧ consistent = true ∧ x.manager.isFlat = true then
    x.onManager OrderManager.confirmExchangeFlat
  else x

def reconcileNet (moment : Moment) (net : Int) (consistent : Bool) (x : Executor) : Executor :=
  let (recon, verdict) :=
    x.netRecon.observe consistent moment.nowMs host.cfg.netMismatchGraceMs 15000
  let x := confirmBothFlat net consistent { x with netRecon := recon }
  match verdict with
  | .mismatchAct => x.actOnMismatch host moment net
  | .ok => clearMismatch net { x with lastUnwindBasket := "" }
  | .mismatchWait => x

/-! ## Position updates -/

/-- The broker's day loss is newly at the limit. -/
def lossBreach (update : PositionUpdate) (x : Executor) : Bool :=
  !x.brokerLossHalted && Notif.brokerLossBreached update.brokerDayPnl host.cfg.dailyLossLimit

/-- The high-water mark after an update; an absent balance leaves it. -/
def hwmAfter (update : PositionUpdate) (x : Executor) : ℚ :=
  if update.accountBalance.isSome then
    let mark := Notif.brokerHwm (some x.brokerHwm) host.cfg.startingBalance update.accountBalance
    if mark > x.brokerHwm then mark else x.brokerHwm
  else x.brokerHwm

/-- The balance is newly at the trailing drawdown. -/
def drawdownBreach (update : PositionUpdate) (x : Executor) : Bool :=
  !x.brokerDdHalted && Notif.brokerDrawdownBreached update.accountBalance
    (x.hwmAfter host update) host.cfg.trailingDrawdownCap

def haltRisk (reason : HaltReason) (x : Executor) : Executor :=
  x.onManager fun manager => { manager with risk := manager.risk.halt reason }

/-- The broker's day loss halts both halts and flattens. -/
def checkBrokerLoss (moment : Moment) (update : PositionUpdate) (x : Executor) : Executor :=
  if x.lossBreach host update then
    let dayPnl := update.brokerDayPnl.getD 0
    let x := { x.haltRisk (.brokerDayPnl dayPnl host.cfg.dailyLossLimit) with
      brokerLossHalted := true }
    let x := x.halt "broker_day_pnl_limit"
    if x.manager.isFlat then x
    else x.onManager
      (OrderManager.flattenNow host moment.now "broker_day_pnl_limit" moment.lastPrice)
  else x

/-- The broker's trailing drawdown halts entries. -/
def checkBrokerDrawdown (update : PositionUpdate) (x : Executor) : Executor :=
  let breach := x.drawdownBreach host update
  let x := { x with brokerHwm := x.hwmAfter host update }
  if breach then
    let balance := update.accountBalance.getD 0
    let x := { x.haltRisk (.brokerTrailingDrawdown balance x.brokerHwm
        host.cfg.trailingDrawdownCap) with
      brokerDdHalted := true }
    x.halt "broker_trailing_drawdown"
  else x

/-- The day loss is checked without touching what the drawdown is read from. -/
theorem checkBrokerLoss_mark (moment : Moment) (update : PositionUpdate) (x : Executor) :
    (x.checkBrokerLoss host moment update).drawdownBreach host update =
      x.drawdownBreach host update := by
  simp only [checkBrokerLoss]
  split_ifs
  all_goals rfl

/-- Lift the halt that waited for the position. -/
def unhaltPosition (x : Executor) : Executor :=
  if x.session.awaitsPosition then { x with session := x.session.unhaltTrading } else x

/-- Cancel every deferred working order. -/
def cancelDeferred (x : Executor) : Executor :=
  { x with
    sent := x.sent ++ x.deferredSnapshotCancels.map .cancelOrder
    deferredSnapshotCancels := [] }

/-- The exchange holds what the order manager holds: the deferred orders are its
protective stops and stay. -/
def snapshotMatches (x : Executor) : Executor :=
  let x := if x.deferSnapshotCancels then
      { x with deferSnapshotCancels := false, deferredSnapshotCancels := [] }
    else x
  x.unhaltPosition

/-- The exchange holds a position the order manager does not: it is unwound at
once, with the working orders of the previous cycle, and the reconciler is armed
so that the grace period sends no second unwind. -/
def snapshotGhost (moment : Moment) (net : Int) (x : Executor) : Executor :=
  let x := if x.deferSnapshotCancels then
      { x.cancelDeferred with deferSnapshotCancels := false }
    else x
  let (x, unwindSent) := x.sendUnwind host moment |net| (!decide (net > 0))
  let x := { x with
    netRecon := { mismatchSinceMs := moment.nowMs, acted := true, actedMs := moment.nowMs }
    netHaltActive := true }
  if unwindSent then { x with session := x.session.unhaltTrading }
  else x.halt "startup_ghost_unwind_failed"

/-- The exchange is flat: the deferred orders are stale. -/
def snapshotFlat (x : Executor) : Executor :=
  let x := { x.cancelDeferred with deferSnapshotCancels := false }
  (x.onManager OrderManager.confirmExchangeFlat).unhaltPosition

def positionSnapshot (moment : Moment) (net : Int) (consistent : Bool) (x : Executor) : Executor :=
  if net ≠ 0 ∧ consistent = true then x.snapshotMatches
  else if net ≠ 0 ∧ x.netRecon.acted = false then x.snapshotGhost host moment net
  else if net = 0 then x.snapshotFlat
  else x

/-- A 451 update. Whether the exchange is consistent is asked before the broker's
limits may flatten. -/
def handlePosUpdate (moment : Moment) (update : PositionUpdate) (x : Executor) : Executor :=
  if update.accountId ≠ host.cfg.accountId then x
  else
    let net := update.netQuantity
    let consistent := x.manager.netQtyConsistent host net
    let x := x.checkBrokerLoss host moment update
    let x := x.checkBrokerDrawdown host update
    let x := if update.isSnapshot then x.positionSnapshot host moment net consistent else x
    { x with lastExchNet := some net }.reconcileNet host moment net consistent

/-! ## Order messages -/

/-- A 351 snapshot: a working order is cancelled or its cancel deferred; an order
that filled while the process was away halts entries. -/
def orderSnapshot (moment : Moment) (notice : OpLoop.OrderNotice) (x : Executor) : Executor :=
  if notice.symbol = host.cfg.tradeSymbol then
    if notice.totalUnfilledSize > 0 ∧ notice.basketId ≠ "" then
      if x.deferSnapshotCancels then
        { x with deferredSnapshotCancels := x.deferredSnapshotCancels ++ [notice.basketId] }
      else if moment.written then { x with sent := x.sent ++ [.cancelOrder notice.basketId] }
      else x
    else if notice.totalFillSize > 0 ∧ notice.totalUnfilledSize = 0 then
      x.halt "startup_ghost_position_suspected"
    else x
  else x

/-- Take over what a live message did to the order manager and the halts it raised. -/
def handled (outcome : OpLoop.Handled) (x : Executor) : Executor :=
  { x with
    manager := outcome.manager
    session := outcome.halts.foldl (fun session reason => session.haltTrading reason) x.session }

/-- A 351 notification. -/
def orderMessage (moment : Moment) (notice : OpLoop.OrderNotice) (x : Executor) : Executor :=
  if notice.isSnapshot then x.orderSnapshot host moment notice
  else x.handled (OpLoop.orderNotice host moment.now moment.lastPrice notice x.manager)

/-! ## The life of a cycle -/

/-- A new cycle. A carried position halts entries, and the memory of it is then
only in the cycle itself. -/
def startCycle (history : Option AccountHistory) (x : Executor) : Executor :=
  let carriedNonflat := decide (x.carriedPos.state ≠ .flat)
  let risk := match x.today, history with
    | none, some known =>
      ((((x.manager.risk.seedTotalProfit known.totalPnl).setEquity known.peakEquity).setEquity
        (host.cfg.startingBalance + known.totalPnl)).seedDailyPnl known.dailyPnl)
    | _, _ => x.manager.risk
  { running := x.running
    session :=
      if carriedNonflat then x.session.haltTrading "reconnect_unreconciled_position"
      else x.session
    today := x.today
    carriedPos := {}
    stage := .connecting
    manager := OrderManager.fresh risk x.manager.seq
    carriedNonflat := carriedNonflat }

/-- The day's first session: the strategy and the day's risk begin anew, and a
position the database last saw open halts entries. -/
def freshStart (connection : Connection) (x : Executor) : Executor :=
  let x := { x with today := some connection.date, session := x.session.resetSession }
  let x := x.onManager fun manager => { manager with risk := manager.risk.resetDaily }
  if host.cfg.dryRun = false ∧ connection.priorState ∈ ["LONG", "SHORT", "PENDING_EXIT"] then
    x.halt ("startup_stale_position_" ++ connection.priorState)
  else x

/-- The end of the connecting phase. -/
def connect (connection : Connection) (x : Executor) : Executor :=
  let x := { x with
    stage := .live
    pnlConnected := connection.pnlConnected && !host.cfg.dryRun }
  let x := if host.cfg.dryRun = false ∧ connection.pnlConnected = false then
      x.halt "pnl_plant_unavailable"
    else x
  let x := { x with
    deferSnapshotCancels := x.carriedNonflat
    brokerHwm := Notif.brokerHwm connection.accountHwm host.cfg.startingBalance none }
  if x.today.isNone then x.freshStart host connection else x

/-- The cycle ends and the position is captured for the next one. -/
def endCycle (x : Executor) : Executor :=
  { x with carriedPos := x.manager.pos, stage := .down }

/-- The collector's ticks flow again: its own halt is lifted. -/
def feedResumed (x : Executor) : Executor :=
  if x.session.riskHalted = true ∧ x.session.haltReason = "pg_feed_stale" then
    { x with pgFeedFresh := true, session := x.session.unhaltTrading }
  else { x with pgFeedFresh := true }

def rollover (date : String) (x : Executor) : Executor :=
  let x := { x with today := some date, session := x.session.resetSession }
  x.onManager fun manager => { manager with risk := manager.risk.resetDaily }

/-- A halted strategy emits no entry signal. -/
def emits (op : Op) (x : Executor) : Bool :=
  match op with
  | .signal .buy _ _ | .signal .sell _ _ => !x.session.riskHalted
  | _ => true

/-- The order plant and the position feed are being read. -/
def reading (x : Executor) : Bool := decide (x.stage = .live) && !host.cfg.dryRun

/-- One event. An event that does not belong to the stage changes nothing. -/
def perform (event : Event) (x : Executor) : Executor :=
  match event with
  | .start history =>
    if x.stage = .down ∧ x.running = true then x.startCycle host history else x
  | .earlyReturn => if x.stage = .connecting then { x with stage := .down } else x
  | .stopped => { x with running := false, stage := .down }
  | .connected connection => if x.stage = .connecting then x.connect host connection else x
  | .order moment notice => if x.reading host then x.orderMessage host moment notice else x
  | .exchange moment notice =>
    if x.reading host then x.handled (OpLoop.exchangeNotice host moment.now notice x.manager)
    else x
  | .response moment basketId rpCode =>
    if x.reading host then
      x.handled (OpLoop.newOrderResponse host moment.now basketId rpCode x.manager)
    else x
  | .position moment update => if x.reading host then x.handlePosUpdate host moment update else x
  | .pnlResponse rpCode =>
    if x.stage = .live ∧ x.pnlConnected = true ∧ rpCode.headD "?" ≠ "0" then
      x.halt "pnl_subscribe_rejected"
    else x
  | .recheck moment =>
    match x.lastExchNet with
    | none => x
    | some net =>
      if x.stage = .live ∧ x.pnlConnected = true ∧ x.manager.netQtyConsistent host net = false then
        x.reconcileNet host moment net false
      else x
  | .call call =>
    if x.stage = .live ∧ x.emits call.op = true then
      x.onManager (OrderManager.perform host call)
    else x
  | .feedStale =>
    if x.stage = .live ∧ host.cfg.mdFromPg = true ∧ x.pgFeedFresh = true then
      { x.halt "pg_feed_stale" with pgFeedFresh := false }
    else x
  | .feedResumed =>
    if x.stage = .live ∧ host.cfg.mdFromPg = true ∧ x.pgFeedFresh = false then x.feedResumed else x
  | .rollover date => if x.stage = .live ∧ x.today ≠ some date then x.rollover date else x
  | .shutdown moment =>
    if x.stage = .live then
      ({ x with running := false }.halt "shutdown").onManager
        (OrderManager.flattenNow host moment.now "kill_signal" moment.lastPrice)
    else x
  | .drained => if x.running = false then { x with stage := .down } else x
  | .readError => if x.reading host then x.endCycle else x
  | .mainLoopExit =>
    if x.stage = .live then
      if x.running then x.endCycle else { x with carriedPos := x.manager.pos }
    else x

/-- One step: the outboxes afterwards hold what this event sent. -/
def step (x : Executor) (event : Event) : Executor :=
  perform host event { x with sent := [], manager := { x.manager with outbox := [] } }

end Executor

end RithmicEngine
