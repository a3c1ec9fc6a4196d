import RithmicEngine.Execution.NotificationRouter
/-!
# The order-plant receive loop

What one message of the order plant does to the order manager: the order
notifications (template 351), the exchange notifications (template 352) and the
gateway's answers (templates 313 and 315). The handlers are in the order of the
source: server ids are mapped first, then a fill is attributed by its user tag,
and only a fill that none of the current orders owns goes to the router. The
reasons with which a message halts the strategy are returned beside the manager.

Snapshot notifications never reach these handlers; they belong to the session.
Logging, the database and the flush of a completed trade are left out.
-/
namespace RithmicEngine.OpLoop

open OrderManager Notif

variable (host : Host)

/-- A 351 order notification. -/
structure OrderNotice where
  basketId : String := ""
  userTag : String := ""
  accountId : String := ""
  symbol : String := ""
  status : String := ""
  notifyType : Int := 0
  totalFillSize : Int := 0
  totalUnfilledSize : Int := 0
  avgFillPrice : ℚ := 0
  price : ℚ := 0
  isSnapshot : Bool := false
  deriving DecidableEq

/-- A 352 exchange notification. -/
structure ExchangeNotice where
  basketId : String := ""
  userTag : String := ""
  accountId : String := ""
  status : String := ""
  notifyType : Int := 0
  fillSize : Int := 0
  totalFillSize : Int := 0
  fillPrice : ℚ := 0
  deriving DecidableEq

/-- The manager after a message and the reasons the strategy was halted with. -/
structure Handled where
  manager : OrderManager
  halts : List String := []

/-- The price of a 351 fill: the average, else the price field, else the last trade. -/
def OrderNotice.fillPx (notice : OrderNotice) (lastPrice : ℚ) : ℚ :=
  if notice.avgFillPrice > 0 then notice.avgFillPrice
  else if notice.price > 0 then notice.price else lastPrice

/-- The cumulative quantity of a 352 fill, its event size where none is given. -/
def ExchangeNotice.cumulative (notice : ExchangeNotice) : Int :=
  if notice.totalFillSize > 0 then notice.totalFillSize else notice.fillSize

/-- The tag is that of the current entry, stop or exit. -/
def owns (tag : String) (om : OrderManager) : Bool :=
  om.isEntryBasket tag || om.isStopBasket tag || om.isExitBasket tag

/-- Book a fill of one of the current orders, once. -/
def ownedFill (now : Int) (tag : String) (px : ℚ) (qty : Int) (om : OrderManager) : Handled :=
  let isEntry := om.isEntryBasket tag && !om.isStopBasket tag
  let (om, duplicate) := om.fillAlreadyProcessed tag qty
  if duplicate then { manager := om }
  else { manager := onFillNotificationLocked host now tag px qty isEntry om }

/-- A fill of none of the current orders: first the duplicate test, so that a
repeated delivery raises no alarm, then the router. -/
def unownedFill (now : Int) (tag basketId accountId : String) (px : ℚ) (qty : Int)
    (om : OrderManager) : Handled :=
  let (om, duplicate) := unownedFillIsDuplicate tag basketId qty om
  if duplicate then { manager := om }
  else
    let (om, _, halts) :=
      handleUnownedFill host now tag basketId accountId host.cfg.accountId px qty om
    { manager := om, halts := halts }

/-- A 351 notification with a fill. -/
def orderFill (now : Int) (lastPrice : ℚ) (notice : OrderNotice) (om : OrderManager) : Handled :=
  let px := notice.fillPx lastPrice
  if owns notice.userTag om then ownedFill host now notice.userTag px notice.totalFillSize om
  else if notice.accountId = "" ∨ notice.accountId = host.cfg.accountId then
    unownedFill host now notice.userTag notice.basketId notice.accountId px notice.totalFillSize om
  else { manager := om }

/-- A live 351 notification: a fill, a failed cancel, a cancel that was honoured,
or an order that completed without a fill. -/
def orderNotice (now : Int) (lastPrice : ℚ) (notice : OrderNotice) (om : OrderManager) :
    Handled :=
  let om := mapServerBasket host notice.userTag notice.basketId om
  let om := onStopServerMapped host notice.userTag notice.basketId om
  if notice.totalFillSize > 0 then orderFill host now lastPrice notice om
  else if notice.notifyType = 17 ∨ notice.status = "Cancellation Failed" then
    { manager := (handleCancelNotification host notice.notifyType notice.status notice.userTag
        notice.basketId om).1 }
  else if notice.notifyType = 3 then
    { manager :=
        if notice.userTag ≠ "" then onCancelConfirmed host notice.userTag om
        else onCancelConfirmedByServerBasket host notice.basketId om }
  else if notice.notifyType = 15 ∧ notice.totalFillSize = 0 then
    { manager :=
        if om.isEntryBasket notice.userTag then onOrderRejected host now notice.userTag om
        else om }
  else { manager := om }

/-- A 352 fill. The owned path works on the cumulative quantity, the unowned one
on the size of the event. -/
def exchangeFill (now : Int) (notice : ExchangeNotice) (om : OrderManager) : Handled :=
  let om := mapServerBasket host notice.userTag notice.basketId om
  if owns notice.userTag om then
    ownedFill host now notice.userTag notice.fillPrice notice.cumulative om
  else
    unownedFill host now notice.userTag notice.basketId notice.accountId notice.fillPrice
      notice.fillSize om

/-- A 352 notification: a fill, a rejection, a cancel, or a stop that was armed. -/
def exchangeNotice (now : Int) (notice : ExchangeNotice) (om : OrderManager) : Handled :=
  if notice.notifyType = 5 then exchangeFill host now notice om
  else if notice.notifyType = 6 then
    { manager := onOrderRejected host now notice.userTag om }
  else if notice.notifyType = 3 then { manager := onCancelConfirmed host notice.userTag om }
  else if notice.notifyType = 4 then
    { manager := onStopServerMapped host notice.userTag notice.basketId om }
  else { manager := om }

/-- A gateway's answer to a new order: an empty code is the preliminary ack. -/
def newOrderResponse (now : Int) (basketId : String) (rpCode : List String) (om : OrderManager) :
    Handled :=
  match rpCode with
  | [] => { manager := om }
  | code :: _ =>
    { manager := if code ≠ "0" then onOrderRejected host now basketId om else om }

/-! ## What mapping a server id leaves alone -/

/-- The parts by which a fill is attributed. -/
def attribution (om : OrderManager) : Position × Table String Bool × Table String Nat × Nat :=
  (om.pos, om.cancelledStops, om.cancelledStopTrade, om.tradeSeq)

theorem mapServerBasket_attribution (host : Host) (client server : String) (om : OrderManager) :
    attribution (mapServerBasket host client server om) = attribution om := by
  simp only [mapServerBasket]
  split_ifs
  all_goals rfl

theorem onStopServerMapped_attribution (host : Host) (client server : String) (om : OrderManager) :
    attribution (onStopServerMapped host client server om) = attribution om := by
  simp only [onStopServerMapped]
  split_ifs
  all_goals rfl

/-- Ownership is read off the attribution alone. -/
theorem owns_congr {om om' : OrderManager} (same : attribution om' = attribution om)
    (tag : String) : owns tag om' = owns tag om := by
  cases om
  cases om'
  simp only [attribution, Prod.mk.injEq] at same
  obtain ⟨rfl, rfl, rfl, rfl⟩ := same
  rfl

end RithmicEngine.OpLoop
