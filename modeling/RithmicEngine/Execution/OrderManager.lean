import RithmicEngine.Execution.Position
/-!
# Order manager

The position state machine and the life of its orders: entry, protective stop,
exit and unwind. Every public operation of the class is a function of the state,
with the helpers it shares under their own names, and an operation's callback
calls are appended to the outbox. All operations hold one mutex, so a run is a
sequence of calls. Log lines, the latency recorder and arguments that only they
read are left out; the one log line kept is the effect with which the checks of
a fill outside a position begin.

The function that places an order of the right kind is given the basket id the
counter is about to hand out, exactly as the class draws it.
-/
namespace RithmicEngine

structure OrderManager where
  risk : RiskManager := {}
  regime : Option RegimeState := none
  seq : Nat := 0
  pos : Position := {}
  completedPos : Position := {}
  tradeCompleted : Bool := false
  stopServerBasket : String := ""
  serverToClientOrders : Table String String := ∅
  processedFillQty : Table String Int := ∅
  fillAcc : Table String (Int × ℚ) := ∅
  tradeSeq : Nat := 0
  cancelledStopTrade : Table String Nat := ∅
  unmappedOrderCancels : Finset String := ∅
  lastStopForUnwind : String := ""
  lastStopWasBuy : Bool := false
  cancelledStops : Table String Bool := ∅
  serverToClientCancelled : Table String String := ∅
  clientOnlyCancels : Finset String := ∅
  cancelledStopLevels : Table String ℚ := ∅
  unwindBaskets : Finset String := ∅
  pendingCancelBasket : String := ""
  pendingCancelWasBuy : Bool := false
  rejectedExitCount : Nat := 0
  entryHalted : Bool := false
  ghostHalted : Bool := false
  lastExchangeSl : ℚ := 0
  pendingEntrySlDist : ℚ := 0
  slBreachTime : Int := 0
  stopResubmitPending : Bool := false
  outbox : List Effect := []

namespace OrderManager

variable (host : Host)

def emit (effects : List Effect) (s : OrderManager) : OrderManager :=
  { s with outbox := s.outbox ++ effects }

/-- The position is open and no exit is under way. -/
def inTrade (s : OrderManager) : Bool :=
  decide (s.pos.state = .long) || decide (s.pos.state = .short)

/-! ## Stop prices -/

/-- Snap a stop to the quarter-point grid, away from the market. -/
def snapStop (px : ℚ) (direction : OrbSignal) : ℚ :=
  let ticks := px / (1 / 4)
  (if direction = .buy then (⌊ticks + 1 / 1000000000⌋ : ℚ)
    else (⌈ticks - 1 / 1000000000⌉ : ℚ)) * (1 / 4)

def computeSl (cfg : OrbConfig) (fillPrice : ℚ) (direction : OrbSignal) : ℚ :=
  match direction with
  | .buy => fillPrice - cfg.slPoints
  | .sell => fillPrice + cfg.slPoints
  | _ => fillPrice

def computeSlDist (fillPrice : ℚ) (direction : OrbSignal) (dist : ℚ) : ℚ :=
  match direction with
  | .buy => snapStop (fillPrice - dist) direction
  | .sell => snapStop (fillPrice + dist) direction
  | _ => fillPrice

/-- The stop level working at the exchange, else the level in memory. -/
def exchangeStop (s : OrderManager) : ℚ :=
  if s.lastExchangeSl ≠ 0 then s.lastExchangeSl else s.pos.slPrice

/-! ## Submitting and cancelling the protective stop -/

/-- The protective stop of the position, under the next basket id. -/
def stopRequest (slPrice : ℚ) (s : OrderManager) : OrderRequest where
  basket := host.basketId s.seq
  symbol := host.cfg.symbol
  exchange := host.cfg.exchange
  qty := if s.pos.qty > 0 then s.pos.qty else host.cfg.qty
  orderType := .stopMarket
  isBuy := !decide (s.pos.state = .long)
  price := slPrice
  userTag := "stop_loss"

/-- Submit the protective stop of an open position. A refused send leaves the
position without an exchange stop; an accepted one is persisted at once. -/
def submitStopOrderLocked (slPrice : ℚ) (s : OrderManager) : OrderManager :=
  if host.cfg.dryRun then s else
  match host.orderCb with
  | none => s
  | some answer =>
    let basket := host.basketId s.seq
    let stopIsSell := decide (s.pos.state = .long)
    let sent := { s with
      seq := s.seq + 1
      pos := { s.pos with basketIdStop := basket }
      stopServerBasket := ""
      outbox := s.outbox ++ [Effect.order .stop (stopRequest host slPrice s) (answer basket)] }
    if answer basket then
      { sent with
        lastExchangeSl := slPrice
        outbox := sent.outbox ++ host.persistNotice basket (!stopIsSell) }
    else { sent with pos := { sent.pos with basketIdStop := "" } }

/-- Cancel the protective stop without replacing it. The stop stays guarded: the
exchange may still fill it. -/
def cancelStopLocked (s : OrderManager) : OrderManager :=
  if s.pos.basketIdStop = "" ∨ host.cancelCb = false then s else
  let stop := s.pos.basketIdStop
  let server := s.stopServerBasket
  let wasBuyStop := decide (s.pos.direction = .sell)
  { s with
    lastStopForUnwind := stop
    lastStopWasBuy := wasBuyStop
    cancelledStops := s.cancelledStops.insert stop wasBuyStop
    cancelledStopTrade := s.cancelledStopTrade.insert stop s.tradeSeq
    serverToClientCancelled :=
      if server = "" then s.serverToClientCancelled
      else s.serverToClientCancelled.insert server stop
    cancelledStopLevels := s.cancelledStopLevels.insert stop s.exchangeStop
    -- A cancel by client id cannot be routed: the stop is still working.
    clientOnlyCancels :=
      if server = "" then insert stop s.clientOnlyCancels else s.clientOnlyCancels
    outbox := s.outbox ++ host.persistNotice stop wasBuyStop ++
      (if server = "" then [] else host.persistServerNotice stop server) ++
      [Effect.cancel (if server = "" then stop else server)]
    pos := { s.pos with basketIdStop := "" }
    stopServerBasket := "" }

/-- Move the exchange stop by cancelling and submitting again, unless the move is
smaller than the trail step in force. -/
def updateStopOrderLocked (newSl : ℚ) (force : Bool) (s : OrderManager) : OrderManager :=
  if host.cfg.dryRun then s
  else if !force ∧ s.lastExchangeSl ≠ 0 ∧
      |newSl - s.lastExchangeSl| <
        RegimeState.trailStepFor host.cfg s.regime - 1 / 1000000000 then s
  else if s.pos.basketIdStop = "" then submitStopOrderLocked host newSl s
  else
    submitStopOrderLocked host newSl
      (cancelStopLocked host { s with stopResubmitPending := true })

/-- The id the exchange can act on: the server id once one is mapped. -/
def cancelIdForLocked (clientId : String) (s : OrderManager) : String :=
  (s.serverToClientOrders.keyOf? clientId).getD clientId

/-- Cancel an entry or exit order, remembering a cancel that went out unmapped. -/
def cancelOrderLocked (clientId : String) (s : OrderManager) : OrderManager :=
  if clientId = "" ∨ host.cancelCb = false then s else
  let id := s.cancelIdForLocked clientId
  { s with
    unmappedOrderCancels :=
      if id = clientId then insert clientId s.unmappedOrderCancels else s.unmappedOrderCancels
    outbox := s.outbox ++ [Effect.cancel id] }

/-- Erase what was recorded about the cancel of a stop that is resolved. -/
def eraseServerCancelForClientLocked (clientId : String) (s : OrderManager) : OrderManager :=
  { s with
    serverToClientCancelled := s.serverToClientCancelled.dropValue clientId
    clientOnlyCancels := s.clientOnlyCancels.erase clientId
    cancelledStopLevels := s.cancelledStopLevels.erase clientId }

def prunedFills (table : Table String Int) : Table String Int :=
  if table.entries.length > 512 then ∅ else table

/-! ## Fill notifications -/

/-- The order that reverses a fill: the configured quantity, one point through. -/
def unwindRequest (fillPrice : ℚ) (unwindIsBuy : Bool) (userTag : String) (s : OrderManager) :
    OrderRequest where
  basket := host.basketId s.seq
  symbol := host.cfg.symbol
  exchange := host.cfg.exchange
  qty := host.cfg.qty
  orderType := .limit
  isBuy := unwindIsBuy
  price := if unwindIsBuy then fillPrice + 4 * (1 / 4) else fillPrice - 4 * (1 / 4)
  userTag := userTag

/-- Send the order that reverses a fill no position stands behind. The three
call sites differ in the tag and in whether the unwind is registered. -/
def sendUnwind (fired : String) (fillPrice : ℚ) (unwindIsBuy : Bool) (userTag : String)
    (register : Bool) (s : OrderManager) : OrderManager :=
  match host.orderCb with
  | none => s
  | some answer =>
    let basket := host.basketId s.seq
    let request := unwindRequest host fillPrice unwindIsBuy userTag s
    { s with
      seq := s.seq + 1
      unwindBaskets :=
        if answer basket ∧ register then insert basket s.unwindBaskets else s.unwindBaskets
      outbox := s.outbox ++ [Effect.order (.unwind fired) request (answer basket)] }

/-- Partial fills of our own orders carry cumulative quantities and their own
prices; the price used from here on is the quantity-weighted average so far. -/
def accumulateFill (basket : String) (fillPrice : ℚ) (fillQty : Int) (s : OrderManager) :
    OrderManager × ℚ :=
  if fillQty > 0 ∧ (basket = s.pos.basketIdEntry ∨ basket = s.pos.basketIdStop ∨
      basket = s.pos.basketIdExit) then
    let before := (s.fillAcc.lookup basket).getD (0, 0)
    let inc := fillQty - before.1
    let acc := if inc > 0 then (fillQty, before.2 + inc * fillPrice) else before
    let price := if acc.1 > 0 then acc.2 / acc.1 else fillPrice
    ({ s with
        fillAcc := if fillQty ≥ s.pos.qty then s.fillAcc.erase basket
          else s.fillAcc.insert basket acc }, price)
  else (s, fillPrice)

/-- An entry fill outside the pending entry: the fill of an abandoned entry is
unwound, any other is ignored. -/
def lateEntryFill (basket : String) (fillPrice : ℚ) (s : OrderManager) : OrderManager :=
  if s.pendingCancelBasket ≠ "" ∧ basket = s.pendingCancelBasket then
    sendUnwind host basket fillPrice (!s.pendingCancelWasBuy) "eod_cancel_race_unwind" false
      { s with pendingCancelBasket := "" }
  else s

/-- The first stop level of a position: the strategy's own distance when it gave
one with the signal, else the configured distance. -/
def entrySl (fillPrice : ℚ) (s : OrderManager) : ℚ :=
  if s.pendingEntrySlDist > 0
  then computeSlDist fillPrice s.pos.direction s.pendingEntrySlDist
  else computeSl host.cfg fillPrice s.pos.direction

/-- The position its entry fill opens, its stop not yet placed. -/
def openedPosition (now : Int) (fillPrice : ℚ) (s : OrderManager) : OrderManager :=
  { s with
    pos := { s.pos with
      entryPrice := fillPrice
      fillPriceActual := fillPrice
      fillTime := now
      state := heldState s.pos.direction
      slPrice := entrySl host fillPrice s }
    pendingCancelBasket := ""
    pendingCancelWasBuy := false
    pendingEntrySlDist := 0 }

/-- The fill of the pending entry. A partial fill waits for the complete one. -/
def entryFill (now : Int) (basket : String) (fillPrice : ℚ) (fillQty : Int)
    (s : OrderManager) : OrderManager :=
  if s.pos.basketIdEntry ≠ basket then s
  else if fillQty > 0 ∧ fillQty < s.pos.qty then s
  else
    submitStopOrderLocked host (entrySl host fillPrice s) (openedPosition host now fillPrice s)

/-- Drop the guard of a cancelled stop that fired outside a position. -/
def dropFiredGuard (basket : String) (s : OrderManager) : OrderManager :=
  emit (host.removeNotice basket)
    (eraseServerCancelForClientLocked basket
      { s with cancelledStops := s.cancelledStops.erase basket })

/-- A fill with no position behind it. The last cancelled stop and the other
guards are unwound, a registered unwind lifts the ghost halt, anything else sets it. -/
def flatFill (basket : String) (fillPrice : ℚ) (s : OrderManager) : OrderManager :=
  let s := emit [.flatFill basket] s
  if s.lastStopForUnwind ≠ "" ∧ basket = s.lastStopForUnwind then
    sendUnwind host basket fillPrice (!s.lastStopWasBuy) "stale_stop_unwind" true
      (dropFiredGuard host basket { s with lastStopForUnwind := "" })
  else
    match s.cancelledStops.lookup basket with
    | some wasBuyStop =>
      sendUnwind host basket fillPrice (!wasBuyStop) "stale_cancel_unwind" true
        (dropFiredGuard host basket s)
    | none =>
      if basket ∈ s.unwindBaskets then
        { s with unwindBaskets := s.unwindBaskets.erase basket, ghostHalted := false }
      else if s.ghostHalted then s
      else { s with ghostHalted := true }

/-- A replaced stop that filled before its cancel is the exit: drop its guard. -/
def dropFilledGuard (basket : String) (s : OrderManager) : OrderManager :=
  if basket ∈ s.cancelledStops then
    { s with
      cancelledStops := s.cancelledStops.erase basket
      clientOnlyCancels := s.clientOnlyCancels.erase basket
      cancelledStopLevels := s.cancelledStopLevels.erase basket
      cancelledStopTrade := s.cancelledStopTrade.erase basket
      serverToClientCancelled := s.serverToClientCancelled.dropValue basket
      lastStopForUnwind := if s.lastStopForUnwind = basket then "" else s.lastStopForUnwind
      outbox := s.outbox ++ host.removeNotice basket }
  else s

/-- Record how and at what price the position was closed. -/
def bookExit (basket : String) (fillPrice : ℚ) (s : OrderManager) : OrderManager :=
  let pts := if s.pos.direction = .buy then fillPrice - s.pos.entryPrice
    else s.pos.entryPrice - fillPrice
  { s with
    pos := { s.pos with
      exitReason :=
        if s.inTrade then
          (if basket = s.pos.basketIdStop then "exchange_stop" else "unknown_exit")
        else s.pos.exitReason
      state := .pendingExit
      exitPrice := fillPrice
      pnlPoints := pts
      pnlUsd := pts * host.cfg.pointValue * s.pos.qty - host.cfg.commissionRt * s.pos.qty } }

/-- Settle the protective stop of a closing position: cancel it unless it is the
order that filled, in which case its row is removed. -/
def settleStop (basket : String) (s : OrderManager) : OrderManager :=
  if s.pos.basketIdStop = "" then s
  else if s.pos.basketIdStop ≠ basket then cancelStopLocked host s
  else emit (host.removeNotice basket) s

/-- Clean a guard of the filled order that is still there. -/
def dropStaleGuard (basket : String) (s : OrderManager) : OrderManager :=
  if basket ∈ s.cancelledStops then
    eraseServerCancelForClientLocked basket
      (emit (host.removeNotice basket)
        { s with cancelledStops := s.cancelledStops.erase basket })
  else s

/-- Book the trade and bring every per-trade member back to its initial value. -/
def finishClose (fillPrice : ℚ) (s : OrderManager) : OrderManager :=
  { s with
    completedPos := { s.pos with exitPrice := fillPrice }
    risk := s.risk.onTradePnl (some s.pos.pnlUsd)
    rejectedExitCount := 0
    entryHalted := false
    lastExchangeSl := 0
    slBreachTime := 0
    stopResubmitPending := false
    pos := {}
    tradeCompleted := true
    serverToClientOrders := ∅
    processedFillQty := prunedFills s.processedFillQty }

/-- A guard survives the purge while its cancel is known to be unacknowledged. -/
def keepsGuard (s : OrderManager) (basket : String) : Bool :=
  s.serverToClientCancelled.hasValue basket || decide (basket ∈ s.clientOnlyCancels)

/-- Purge the guards that count as confirmed and the unwinds that never filled. -/
def purgeGuards (s : OrderManager) : OrderManager :=
  { s with
    cancelledStops := s.cancelledStops.keep (fun basket _ => s.keepsGuard basket)
    unwindBaskets := ∅
    outbox := s.outbox ++
      (s.cancelledStops.keys.filter (fun basket => !s.keepsGuard basket)).flatMap
        host.removeNotice }

/-- A fill while a position is open: the complete fill of any order closes it. -/
def exitFill (basket : String) (fillPrice : ℚ) (fillQty : Int) (s : OrderManager) :
    OrderManager :=
  if fillQty > 0 ∧ fillQty < s.pos.qty then s
  else
    purgeGuards host (finishClose fillPrice (dropStaleGuard host basket
      (settleStop host basket (bookExit host basket fillPrice (dropFilledGuard host basket s)))))

def onFillNotificationLocked (now : Int) (basket : String) (fillPrice : ℚ) (fillQty : Int)
    (isEntryFill : Bool) (s : OrderManager) : OrderManager :=
  let (s, fillPrice) := accumulateFill basket fillPrice fillQty s
  if isEntryFill then
    if s.pos.state ≠ .pendingEntry then lateEntryFill host basket fillPrice s
    else entryFill host now basket fillPrice fillQty s
  else if s.pos.state ≠ .pendingExit ∧ s.pos.state ≠ .long ∧ s.pos.state ≠ .short then
    flatFill host basket fillPrice s
  else exitFill host basket fillPrice fillQty s

/-! ## Sending entries and exits -/

/-- The entry order: an aggressive limit one point through the signal price. -/
def entryRequest (basket : String) (isBuy : Bool) (refPrice : ℚ) (userTag : String)
    (s : OrderManager) : OrderRequest where
  basket := basket
  symbol := host.cfg.symbol
  exchange := host.cfg.exchange
  qty := s.pos.qty
  orderType := .limit
  isBuy := isBuy
  price := if isBuy then refPrice + 4 * (1 / 4) else refPrice - 4 * (1 / 4)
  userTag := userTag

/-- Send an entry as an aggressive limit; a dry run fills it at once. -/
def sendMarketOrder (now : Int) (basket : String) (isBuy : Bool) (refPrice : ℚ)
    (userTag : String) (s : OrderManager) : OrderManager :=
  if host.cfg.dryRun then
    onFillNotificationLocked host now basket refPrice s.pos.qty true s
  else
    match host.orderCb with
    | none => s
    | some answer =>
      let request := entryRequest host basket isBuy refPrice userTag s
      let sent := emit [.order .entry request (answer basket)] s
      if answer basket then sent else { sent with pos := {} }

/-- The limit price of an exit: four ticks through the reference, fifty for a
kill signal, and fifty from the stop level without a reference price. -/
def exitLimitPrice (reason : String) (refPrice : ℚ) (isBuy : Bool) (slPrice : ℚ) : ℚ :=
  let offset : ℚ := (if refPrice > 0 ∧ reason ≠ "kill_signal" then 4 else 50) * (1 / 4)
  let base := if refPrice ≤ 0 then slPrice else refPrice
  if isBuy then base + offset else base - offset

/-- The exit order: always the whole quantity of the position. -/
def exitRequest (basket reason : String) (refPrice : ℚ) (s : OrderManager) : OrderRequest where
  basket := basket
  symbol := host.cfg.symbol
  exchange := host.cfg.exchange
  qty := s.pos.qty
  orderType := .limit
  isBuy := decide (s.pos.direction = .sell)
  price := exitLimitPrice reason refPrice (decide (s.pos.direction = .sell)) s.pos.slPrice
  userTag := reason

/-- Back from a pending exit to the open position, the exit order forgotten. -/
def reopen (s : OrderManager) : OrderManager :=
  { s with pos := { s.pos with basketIdExit := "", state := heldState s.pos.direction } }

/-- A refused exit: the position is open again, and the fourth failure halts entries. -/
def exitRefused (s : OrderManager) : OrderManager :=
  let count := s.rejectedExitCount + 1
  { s.reopen with
    rejectedExitCount := count
    entryHalted := if count > 3 then true else s.entryHalted }

/-- After a refused exit the protective stop is placed again. -/
def revertExit (s : OrderManager) : OrderManager :=
  submitStopOrderLocked host s.pos.slPrice s.exitRefused

/-- The position waits for an exit order under the next basket id. -/
def beginExit (reason : String) (s : OrderManager) : OrderManager :=
  { s with
    seq := s.seq + 1
    pos := { s.pos with
      state := .pendingExit
      exitReason := reason
      basketIdExit := host.basketId s.seq } }

/-- Start the exit of an open position: cancel the stop, then send the exit. -/
def initiateExitLocked (now : Int) (reason : String) (refPrice : ℚ) (s : OrderManager) :
    OrderManager :=
  if s.inTrade = false then s else
  let s := cancelStopLocked host { s with slBreachTime := 0, stopResubmitPending := false }
  let basket := host.basketId s.seq
  let s := beginExit host reason s
  if host.cfg.dryRun then
    onFillNotificationLocked host now basket refPrice s.pos.qty false s
  else
    match host.orderCb with
    | none => s
    | some answer =>
      let request := exitRequest host basket reason refPrice s
      let sent := emit [.order .exit request (answer basket)] s
      if answer basket then sent else revertExit host sent

/-! ## Signals, flattening and watchdogs -/

/-- Cancel a pending entry and forget it, keeping its basket for a late fill. -/
def abandonEntry (s : OrderManager) : OrderManager :=
  let s := cancelOrderLocked host s.pos.basketIdEntry
    { s with
      pendingCancelBasket := s.pos.basketIdEntry
      pendingCancelWasBuy := decide (s.pos.direction = .buy) }
  { s with pos := {} }

def flattenNow (now : Int) (reason : String) (price : ℚ) (s : OrderManager) : OrderManager :=
  match s.pos.state with
  | .flat => s
  | .pendingEntry => abandonEntry host s
  | .pendingExit => s
  | .long => initiateExitLocked host now reason price s
  | .short => initiateExitLocked host now reason price s

/-- The pending entry of an accepted signal. -/
def openEntry (now : Int) (sig : OrbSignal) (price desiredSlDist : ℚ) (s : OrderManager) :
    OrderManager :=
  let basket := host.basketId s.seq
  sendMarketOrder host now basket (decide (sig = .buy)) price "entry"
    { s with
      seq := s.seq + 1
      tradeSeq := s.tradeSeq + 1
      pos :=
        { state := .pendingEntry
          direction := sig
          basketIdEntry := basket
          qty := RegimeState.qtyFor host.cfg s.regime
          triggerPrice := price
          fillTime := now }
      pendingEntrySlDist := desiredSlDist }

def onSignal (now : Int) (sig : OrbSignal) (price desiredSlDist : ℚ) (s : OrderManager) :
    OrderManager :=
  match sig with
  | .flattenEod => flattenNow host now "eod_flatten" price s
  | .none => s
  | .buy | .sell =>
    if s.entryHalted || s.ghostHalted then s
    else if s.risk.canTrade = false then s
    else if s.pos.state ≠ .flat then s
    else openEntry host now sig price desiredSlDist s

/-- Cancel an entry that has been pending too long. The flag is the return value. -/
def pendingEntryTimeoutCheck (now : Int) (timeoutSecs : Int) (s : OrderManager) :
    OrderManager × Bool :=
  if s.pos.state ≠ .pendingEntry then (s, false)
  else if host.cfg.dryRun then (s, false)
  else if (now - s.pos.fillTime).tdiv 1000000000 < timeoutSecs then (s, false)
  else (abandonEntry host s, true)

/-- Guard the exit order that is about to be replaced like a cancelled stop. -/
def guardExit (s : OrderManager) : OrderManager :=
  let old := s.pos.basketIdExit
  if old = "" then s else
  let exitWasBuy := decide (s.pos.direction = .sell)
  let sid := s.cancelIdForLocked old
  let s := cancelOrderLocked host old
    { s with
      serverToClientCancelled :=
        if sid ≠ old then s.serverToClientCancelled.insert sid old
        else s.serverToClientCancelled
      clientOnlyCancels :=
        if sid ≠ old then s.clientOnlyCancels else insert old s.clientOnlyCancels
      cancelledStopTrade := s.cancelledStopTrade.insert old s.tradeSeq }
  { s with
    cancelledStops := s.cancelledStops.insert old exitWasBuy
    lastStopForUnwind := old
    lastStopWasBuy := exitWasBuy
    outbox := s.outbox ++ host.persistNotice old exitWasBuy }

/-- Cancel an exit that never filled and send a fresh one. -/
def retryStuckExit (now : Int) (currentPrice : ℚ) (s : OrderManager) : OrderManager :=
  if s.pos.state ≠ .pendingExit then s
  else if host.cfg.dryRun then s
  else
    initiateExitLocked host now "stuck_exit_retry" currentPrice (guardExit host s).reopen

/-- The exchange no longer holds the position: cancel the stop and go flat. -/
def adoptExternalClose (refPrice : ℚ) (reason : String) (s : OrderManager) : OrderManager :=
  if s.pos.state ≠ .long ∧ s.pos.state ≠ .short ∧ s.pos.state ≠ .pendingExit then s else
  let s := cancelStopLocked host s
  let px := if refPrice > 0 then refPrice else s.pos.entryPrice
  let pts := if s.pos.direction = .buy then px - s.pos.entryPrice else s.pos.entryPrice - px
  let closed := { s.pos with
    exitPrice := px
    exitReason := reason
    pnlPoints := pts
    pnlUsd := pts * host.cfg.pointValue * s.pos.qty - host.cfg.commissionRt * s.pos.qty }
  { s with
    completedPos := closed
    tradeCompleted := true
    risk := s.risk.onTradePnl (some closed.pnlUsd)
    pos := {}
    serverToClientOrders := ∅
    processedFillQty := prunedFills s.processedFillQty }

/-! ## Price checks -/

/-- The profit and the loss the price stands at, from the position's side. -/
def trackExcursion (currentPrice : ℚ) (s : OrderManager) : OrderManager :=
  let gain := if s.pos.state = .long then currentPrice - s.pos.entryPrice
    else s.pos.entryPrice - currentPrice
  { s with pos := { s.pos with
      mfe := if gain > s.pos.mfe then gain else s.pos.mfe
      mae := if -gain > s.pos.mae then -gain else s.pos.mae } }

/-- The stop level a price is compared with. -/
def effectiveSl (s : OrderManager) : ℚ :=
  if s.pos.basketIdStop ≠ "" ∧ s.lastExchangeSl ≠ 0 then s.lastExchangeSl else s.pos.slPrice

def slBreached (currentPrice : ℚ) (s : OrderManager) : Bool :=
  if s.pos.state = .long then decide (currentPrice ≤ s.effectiveSl)
  else decide (currentPrice ≥ s.effectiveSl)

/-- The software stop, shared by both price checks. The flag says that an exit
was started and the check ends here. -/
def checkBreach (now : Int) (currentPrice : ℚ) (s : OrderManager) : OrderManager × Bool :=
  if s.slBreached currentPrice then
    if s.pos.basketIdStop = "" then
      (initiateExitLocked host now "stop_loss" currentPrice { s with slBreachTime := 0 }, true)
    else if s.stopResubmitPending then
      (initiateExitLocked host now "stop_loss_resubmit" currentPrice
        { s with stopResubmitPending := false, slBreachTime := 0 }, true)
    else if s.slBreachTime = 0 then ({ s with slBreachTime := now }, false)
    else if (now - s.slBreachTime).tdiv 1000000 ≥ host.cfg.slFireTimeoutMs then
      (initiateExitLocked host now "stop_loss_timeout" currentPrice
        { s with slBreachTime := 0 }, true)
    else (s, false)
  else ({ s with slBreachTime := 0, stopResubmitPending := false }, false)

/-- The price touches the take-profit target in force. -/
def takeProfitHit (currentPrice : ℚ) (s : OrderManager) : Bool :=
  let tp := RegimeState.takeProfitFor host.cfg s.regime
  decide (tp > 0) &&
    (if s.pos.state = .long then decide (currentPrice ≥ s.pos.entryPrice + tp)
      else decide (currentPrice ≤ s.pos.entryPrice - tp))

/-- A level improves the stop when it lies nearer the market. -/
def improvesSl (level : ℚ) (s : OrderManager) : Bool :=
  if s.pos.state = .long then decide (level > s.pos.slPrice) else decide (level < s.pos.slPrice)

/-- The break-even level: the entry plus the offset, on the profitable side. -/
def breakEvenSl (s : OrderManager) : ℚ :=
  if s.pos.state = .long then s.pos.entryPrice + host.cfg.trailBeOffset
  else s.pos.entryPrice - host.cfg.trailBeOffset

/-- The break-even move, taken once. -/
def breakEven (s : OrderManager) : OrderManager × Bool :=
  if s.pos.beTriggered = false ∧ s.pos.mfe ≥ host.cfg.trailBeTrigger then
    let beSl := breakEvenSl host s
    let s := { s with pos := { s.pos with beTriggered := true } }
    if s.improvesSl beSl then
      (updateStopOrderLocked host beSl true
        { s with pos := { s.pos with slPrice := beSl, beSlPrice := beSl } }, true)
    else (s, false)
  else (s, false)

/-- The trail starts once the delay has passed and the trigger was reached. -/
def activateTrail (now : Int) (s : OrderManager) : OrderManager :=
  if s.pos.trailingActive = false ∧
      (now - s.pos.fillTime).tdiv 1000000000 ≥ host.cfg.trailDelaySecs ∧
      s.pos.mfe ≥ host.cfg.trailBeTrigger then
    { s with pos := { s.pos with trailingActive := true } }
  else s

/-- Move the stop to the level, when it improves. -/
def tightenStop (level : ℚ) (s : OrderManager) : OrderManager × Bool :=
  if s.improvesSl level then
    (updateStopOrderLocked host level false { s with pos := { s.pos with slPrice := level } }, true)
  else (s, false)

/-- The trailing stop behind the current price. -/
def trail (currentPrice : ℚ) (s : OrderManager) : OrderManager × Bool :=
  if s.pos.trailingActive then
    let step := RegimeState.trailStepFor host.cfg s.regime
    tightenStop host (if s.pos.state = .long then currentPrice - step else currentPrice + step) s
  else (s, false)

/-- The periodic check of the opening-range and trend engines. The flag says that
the stop price moved. -/
def checkTrailAndStop (now : Int) (currentPrice : ℚ) (s : OrderManager) : OrderManager × Bool :=
  if s.inTrade = false then (s, false) else
  let (s, exited) := checkBreach host now currentPrice (trackExcursion currentPrice s)
  if exited then (s, false)
  else if takeProfitHit host currentPrice s then
    (initiateExitLocked host now "take_profit" currentPrice { s with slBreachTime := 0 }, false)
  else
    let (s, raised) := breakEven host s
    let (s, trailed) := trail host currentPrice (activateTrail host now s)
    (s, raised || trailed)

/-- The check with a strategy's own stop; an absent or non-positive stop is no update. -/
def checkExternalStop (now : Int) (currentPrice : ℚ) (stratStop : Option ℚ)
    (s : OrderManager) : OrderManager × Bool :=
  if s.inTrade = false then (s, false) else
  let (s, exited) := checkBreach host now currentPrice (trackExcursion currentPrice s)
  if exited then (s, false)
  else
    match stratStop with
    | none => (s, false)
    | some level =>
      if level > 0 then
        tightenStop host (snapStop level (if s.pos.state = .long then .buy else .sell)) s
      else (s, false)

/-! ## Rejections, cancel outcomes and id mappings -/

def onOrderRejected (now : Int) (basket : String) (s : OrderManager) : OrderManager :=
  let resolved := (s.serverToClientOrders.lookup basket).getD basket
  if s.pos.basketIdEntry = resolved ∧ s.pos.state = .pendingEntry then { s with pos := {} }
  else if s.pos.basketIdExit = resolved ∧ s.pos.state = .pendingExit then
    let count := s.rejectedExitCount + 1
    let s := { s.reopen with rejectedExitCount := count }
    if count ≤ 3 then initiateExitLocked host now "rejected_exit_retry" 0 s
    else { s with entryHalted := true }
  else if s.pos.basketIdStop = resolved ∨
      (s.stopServerBasket ≠ "" ∧ s.stopServerBasket = basket) then
    { s with
      pos := { s.pos with basketIdStop := "" }
      stopServerBasket := ""
      outbox := s.outbox ++ host.removeNotice s.pos.basketIdStop }
  else s

def onCancelConfirmed (basket : String) (s : OrderManager) : OrderManager :=
  { s with
    cancelledStops := s.cancelledStops.erase basket
    serverToClientCancelled := s.serverToClientCancelled.dropValue basket
    clientOnlyCancels := s.clientOnlyCancels.erase basket
    cancelledStopLevels := s.cancelledStopLevels.erase basket
    lastStopForUnwind := if s.lastStopForUnwind = basket then "" else s.lastStopForUnwind
    outbox := s.outbox ++ host.removeNotice basket }

def onCancelConfirmedByServerBasket (server : String) (s : OrderManager) : OrderManager :=
  match s.serverToClientCancelled.lookup server with
  | none => s
  | some client =>
    { s with
      serverToClientCancelled := s.serverToClientCancelled.erase server
      cancelledStops := s.cancelledStops.erase client
      clientOnlyCancels := s.clientOnlyCancels.erase client
      cancelledStopLevels := s.cancelledStopLevels.erase client
      lastStopForUnwind := if s.lastStopForUnwind = client then "" else s.lastStopForUnwind
      outbox := s.outbox ++ host.removeNotice client }

/-- Make a stop whose cancel failed the protective stop of the trade again. -/
def readoptStop (client server : String) (s : OrderManager) : OrderManager :=
  { s with
    cancelledStops := s.cancelledStops.erase client
    clientOnlyCancels := s.clientOnlyCancels.erase client
    cancelledStopLevels := s.cancelledStopLevels.erase client
    lastStopForUnwind := if s.lastStopForUnwind = client then "" else s.lastStopForUnwind
    serverToClientCancelled :=
      if server ≠ "" then s.serverToClientCancelled.erase server else s.serverToClientCancelled
    outbox := s.outbox ++ host.removeNotice client
    pos := { s.pos with basketIdStop := client }
    stopServerBasket := server
    lastExchangeSl :=
      match s.cancelledStopLevels.lookup client with
      | some level => if level ≠ 0 then level else s.lastExchangeSl
      | none => s.lastExchangeSl }

/-- A failed cancel: the order is still working. -/
def onCancelFailed (id : String) (s : OrderManager) : OrderManager :=
  let client := (s.serverToClientCancelled.lookup id).getD id
  let server := if (s.serverToClientCancelled.lookup id).isSome then id else ""
  if client ∉ s.cancelledStops then s
  -- A cancel by server id is in flight and is the one that counts.
  else if server = "" ∧ s.serverToClientCancelled.hasValue client then s
  else if s.inTrade ∧ s.cancelledStopTrade.lookup client ≠ some s.tradeSeq then s
  else
    let s := { s with stopResubmitPending := false }
    if s.inTrade = false then s
    else
      readoptStop host client server
        (if s.pos.basketIdStop ≠ "" ∧ s.pos.basketIdStop ≠ client then cancelStopLocked host s
          else s)

/-- A notification carried both ids of one of our stops. -/
def onStopServerMapped (client server : String) (s : OrderManager) : OrderManager :=
  if client = "" ∨ server = "" then s
  else if s.pos.basketIdStop ≠ "" ∧ client = s.pos.basketIdStop then
    if s.stopServerBasket ≠ server then
      { s with
        stopServerBasket := server
        outbox := s.outbox ++ host.persistServerNotice client server }
    else s
  else if client ∉ s.cancelledStops then s
  else if s.serverToClientCancelled.lookup server = some client then s
  else
    { s with
      serverToClientCancelled := s.serverToClientCancelled.insert server client
      clientOnlyCancels := s.clientOnlyCancels.erase client
      outbox := s.outbox ++ host.persistServerNotice client server ++ host.cancelNotice server }

def setStopServerBasket (server : String) (s : OrderManager) : OrderManager :=
  { s with stopServerBasket := server }

/-- A notification carried both ids of one of our orders. A cancel of an entry or
exit that went out by client id is sent again. -/
def mapServerBasket (client server : String) (s : OrderManager) : OrderManager :=
  if client = "" ∨ server = "" then s else
  let s := { s with serverToClientOrders := s.serverToClientOrders.insert server client }
  if client ∈ s.unmappedOrderCancels then
    let guarded := decide (client ∈ s.cancelledStops)
    { s with
      unmappedOrderCancels := s.unmappedOrderCancels.erase client
      serverToClientCancelled :=
        if guarded then s.serverToClientCancelled.insert server client
        else s.serverToClientCancelled
      clientOnlyCancels :=
        if guarded then s.clientOnlyCancels.erase client else s.clientOnlyCancels
      outbox := s.outbox ++ host.cancelNotice server }
  else s

/-- Ask whether a fill was processed, recording its quantity when it was not. -/
def fillAlreadyProcessed (basket : String) (fillQty : Int) (s : OrderManager) :
    OrderManager × Bool :=
  let seen := (s.processedFillQty.lookup basket).getD 0
  if seen ≥ fillQty then
    ({ s with processedFillQty := s.processedFillQty.insert basket seen }, true)
  else ({ s with processedFillQty := s.processedFillQty.insert basket fillQty }, false)

/-! ## Cancels sent again, start-up seeding and halts -/

/-- Send the cancel of every unconfirmed stop again, by server id where known. -/
def recancelPendingStops (s : OrderManager) : OrderManager :=
  if host.cancelCb = false then s else
  emit (s.serverToClientCancelled.keys.map Effect.cancel ++
    (s.cancelledStops.keys.filter
      (fun basket => !s.serverToClientCancelled.hasValue basket)).map Effect.cancel) s

def clearPostCloseRecancels (s : OrderManager) : OrderManager :=
  { s with lastStopForUnwind := "", lastStopWasBuy := false }

def registerUnwindBasket (basket : String) (s : OrderManager) : OrderManager :=
  { s with unwindBaskets := insert basket s.unwindBaskets }

def confirmExchangeFlat (s : OrderManager) : OrderManager :=
  { s with ghostHalted := false }

def seedCancelledStops (basket : String) (wasBuyStop : Bool) (s : OrderManager) : OrderManager :=
  { s with cancelledStops := s.cancelledStops.insert basket wasBuyStop }

def seedServerStopCancel (server client : String) (s : OrderManager) : OrderManager :=
  { s with serverToClientCancelled := s.serverToClientCancelled.insert server client }

def popTradeCompleted (s : OrderManager) : OrderManager × Option Position :=
  if s.tradeCompleted then ({ s with tradeCompleted := false }, some s.completedPos)
  else (s, none)

/-! ## Queries -/

def isFlat (s : OrderManager) : Bool := decide (s.pos.state = .flat)

def isEntryHalted (s : OrderManager) : Bool := s.entryHalted || s.ghostHalted

def isEntryBasket (basket : String) (s : OrderManager) : Bool :=
  decide (s.pos.basketIdEntry = basket)

/-- The live stop, or a stop of this trade whose cancel is still in flight. -/
def isStopBasket (basket : String) (s : OrderManager) : Bool :=
  if s.pos.basketIdStop ≠ "" ∧ s.pos.basketIdStop = basket then true
  else if s.inTrade then
    decide (s.cancelledStopTrade.lookup basket = some s.tradeSeq) &&
      decide (basket ∈ s.cancelledStops)
  else false

def isExitBasket (basket : String) (s : OrderManager) : Bool :=
  decide (s.pos.basketIdExit ≠ "") && decide (s.pos.basketIdExit = basket)

def routableId (client : String) (s : OrderManager) : String := s.cancelIdForLocked client

/-- The exchange's net quantity agrees with the position, in-flight orders
accepting any net between zero and the full position. -/
def netQtyConsistent (exchangeNet : Int) (s : OrderManager) : Bool :=
  let held := if s.pos.qty > 0 then s.pos.qty else host.cfg.qty
  let dir : Int := match s.pos.direction with
    | .buy => held
    | .sell => -held
    | _ => 0
  match s.pos.state with
  | .flat => decide (exchangeNet = 0)
  | .long => decide (exchangeNet = held)
  | .short => decide (exchangeNet = -held)
  | .pendingEntry | .pendingExit =>
    if dir ≥ 0 then decide (0 ≤ exchangeNet ∧ exchangeNet ≤ dir)
    else decide (exchangeNet ≤ 0 ∧ dir ≤ exchangeNet)

end OrderManager

end RithmicEngine
