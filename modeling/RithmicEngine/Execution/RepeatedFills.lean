import RithmicEngine.Base.AskedRecord
import RithmicEngine.Execution.Calls
import RithmicEngine.Execution.OpLoop
import RithmicEngine.Execution.TradeBooking
/-!
# Repeated fill reports

The same fill is reported more than once, and the second report usually arrives when the
trade is closed. The order manager keeps a record of the quantities it was asked about,
and a report whose quantity is on record is dropped. The record is emptied when a trade
closes while it holds more than 512 baskets, the one that fills included.

A report is asked about under the tag of the order when it is one of the current ones,
else under the tag or the server's basket id.
-/
namespace RithmicEngine

namespace OrderManager

variable {host : Host}

/-! ## The record and the position -/

/-- The record of fills, and whether a position is held. -/
def filed (s : OrderManager) : Table String Int × Bool :=
  (s.processedFillQty, s.pos.state.isHeld)

/-- What an operation does to them, apart from questions: a close empties a full record. -/
inductive Filed : Table String Int × Bool → Table String Int × Bool → Prop
  | same (before : Table String Int × Bool) : Filed before before
  | opens (record : Table String Int) : Filed (record, false) (record, true)
  | closes (record : Table String Int) : Filed (record, true) (prunedFills record, false)

theorem filed_of_eq {s t : OrderManager} {after : Table String Int × Bool}
    (same : t.filed = s.filed) (files : Filed t.filed after) : Filed s.filed after := same ▸ files

theorem filed_same {s t : OrderManager} (same : t.filed = s.filed) : Filed s.filed t.filed :=
  same ▸ .same _

theorem filed_held {s : OrderManager} (held : s.pos.state.isHeld = true) :
    s.filed = (s.processedFillQty, true) := by rw [filed, held]

theorem submitStop_filed (slPrice : ℚ) (s : OrderManager) :
    (submitStopOrderLocked host slPrice s).filed = s.filed := by
  simp only [submitStopOrderLocked]
  split
  · rfl
  · split
    · rfl
    · split
      · rfl
      · rfl

theorem cancelStop_filed (s : OrderManager) : (cancelStopLocked host s).filed = s.filed := by
  simp only [cancelStopLocked]
  split
  · rfl
  · rfl

theorem updateStop_filed (newSl : ℚ) (force : Bool) (s : OrderManager) :
    (updateStopOrderLocked host newSl force s).filed = s.filed := by
  simp only [updateStopOrderLocked]
  split_ifs
  · rfl
  · rfl
  · exact submitStop_filed newSl s
  · exact (submitStop_filed newSl _).trans (cancelStop_filed _)

theorem cancelOrder_filed (clientId : String) (s : OrderManager) :
    (cancelOrderLocked host clientId s).filed = s.filed := by
  simp only [cancelOrderLocked]
  split
  · rfl
  · rfl

theorem sendUnwind_filed (fired : String) (fillPrice : ℚ) (unwindIsBuy : Bool)
    (userTag : String) (register : Bool) (s : OrderManager) :
    (sendUnwind host fired fillPrice unwindIsBuy userTag register s).filed = s.filed := by
  simp only [sendUnwind]
  split
  · rfl
  · rfl

theorem accumulateFill_filed (basket : String) (fillPrice : ℚ) (fillQty : Int)
    (s : OrderManager) : (accumulateFill basket fillPrice fillQty s).1.filed = s.filed := by
  simp only [accumulateFill]
  split
  · rfl
  · rfl

/-! ## Fills -/

variable (now : Int) (currentPrice : ℚ) (s : OrderManager)

/-- An entry fill opens a trade at most. -/
theorem entryFill_filed (basket : String) (fillPrice : ℚ) (fillQty : Int) (s : OrderManager)
    (pending : s.pos.state = .pendingEntry) :
    Filed s.filed (entryFill host now basket fillPrice fillQty s).filed := by
  simp only [entryFill]
  split
  · exact .same _
  · split
    · exact .same _
    · have before : s.filed = (s.processedFillQty, false) := by
        simp only [filed, pending, PosState.isHeld]
      have opened : (openedPosition host now fillPrice s).filed = (s.processedFillQty, true) := by
        simp only [filed, openedPosition, heldState_isHeld]
      rw [submitStop_filed, opened, before]
      exact .opens _

theorem flatFill_filed (basket : String) (fillPrice : ℚ) (s : OrderManager) :
    (flatFill host basket fillPrice s).filed = s.filed := by
  simp only [flatFill]
  split
  · exact sendUnwind_filed _ _ _ _ _ _
  · split
    · exact sendUnwind_filed _ _ _ _ _ _
    · split
      · rfl
      · split
        · rfl
        · rfl

/-- The complete fill of any order closes the held position. -/
theorem exitFill_filed (basket : String) (fillPrice : ℚ) (fillQty : Int) (s : OrderManager)
    (held : s.pos.state.isHeld = true) :
    Filed s.filed (exitFill host basket fillPrice fillQty s).filed := by
  simp only [exitFill]
  split
  · exact .same _
  · have stale (t : OrderManager) :
        (dropStaleGuard host basket t).processedFillQty = t.processedFillQty := by
      simp only [dropStaleGuard]
      split
      · rfl
      · rfl
    have settled (t : OrderManager) :
        (settleStop host basket t).processedFillQty = t.processedFillQty := by
      simp only [settleStop]
      split
      · rfl
      · split
        · exact congrArg Prod.fst (cancelStop_filed t)
        · rfl
    have filled : (dropFilledGuard host basket s).processedFillQty = s.processedFillQty := by
      simp only [dropFilledGuard]
      split
      · rfl
      · rfl
    have record : (dropStaleGuard host basket (settleStop host basket
        (bookExit host basket fillPrice (dropFilledGuard host basket s)))).processedFillQty =
          s.processedFillQty := by
      rw [stale, settled, ← filled]
      rfl
    rw [filed_held held, ← record]
    exact .closes _

/-- A fill opens, closes or leaves the record. Closing prunes a full one. -/
theorem onFill_filed (basket : String) (fillPrice : ℚ) (fillQty : Int) (isEntryFill : Bool)
    (s : OrderManager) :
    Filed s.filed
      (onFillNotificationLocked host now basket fillPrice fillQty isEntryFill s).filed := by
  have same := accumulateFill_filed basket fillPrice fillQty s
  simp only [onFillNotificationLocked]
  generalize accumulateFill basket fillPrice fillQty s = accumulated at same ⊢
  obtain ⟨c, price⟩ := accumulated
  refine filed_of_eq same ?_
  dsimp only
  split
  · split
    · refine filed_same ?_
      simp only [lateEntryFill]
      split
      · exact sendUnwind_filed _ _ _ _ _ _
      · rfl
    next pending => exact entryFill_filed now basket price fillQty c (not_not.mp pending)
  · split
    · exact filed_same (flatFill_filed basket price c)
    next open_ =>
      refine exitFill_filed basket price fillQty c ?_
      cases state : c.pos.state with
      | flat => exact absurd (by rw [state]; decide) open_
      | pendingEntry => exact absurd (by rw [state]; decide) open_
      | _ => rfl

/-! ## Entries and exits -/

/-- A market order opens and closes a trade at most. -/
theorem sendMarketOrder_filed (basket : String) (isBuy : Bool) (refPrice : ℚ) (userTag : String)
    (s : OrderManager) (pending : s.pos.state = .pendingEntry) :
    Filed s.filed (sendMarketOrder host now basket isBuy refPrice userTag s).filed := by
  simp only [sendMarketOrder]
  split
  · exact onFill_filed now basket refPrice _ true s
  · split
    · exact .same _
    · split
      · exact .same _
      · refine filed_same ?_
        simp only [filed, emit, pending, PosState.isHeld]

theorem openEntry_filed (sig : OrbSignal) (price desiredSlDist : ℚ) (s : OrderManager)
    (flat : s.pos.state = .flat) :
    Filed s.filed (openEntry host now sig price desiredSlDist s).filed := by
  simp only [openEntry]
  refine filed_of_eq ?_ (sendMarketOrder_filed now _ _ price "entry" _ rfl)
  simp only [filed, flat, PosState.isHeld]

theorem inTrade_isHeld {s : OrderManager} (trading : s.inTrade = true) :
    s.pos.state.isHeld = true := s.inTrade_held trading

theorem reopen_filed (held : s.pos.state.isHeld = true) : s.reopen.filed = s.filed := by
  rw [filed_held held, filed]
  exact congrArg (Prod.mk s.processedFillQty) (heldState_isHeld s.pos.direction)

/-- Starting an exit leaves the position held, or closes it at once in a dry run. -/
theorem initiateExit_filed (reason : String) (refPrice : ℚ) (s : OrderManager) :
    Filed s.filed (initiateExitLocked host now reason refPrice s).filed := by
  simp only [initiateExitLocked]
  split
  · exact .same _
  next trading =>
    have held := inTrade_isHeld (by simpa only [Bool.not_eq_false] using trading)
    have cancelled := @cancelStop_filed host
      { s with slBreachTime := 0, stopResubmitPending := false }
    generalize cancelStopLocked host { s with slBreachTime := 0, stopResubmitPending := false } = c
      at cancelled ⊢
    have begun : (beginExit host reason c).filed = s.filed :=
      (congrArg (fun row => (row.1, true)) cancelled).trans (filed_held held).symm
    split
    · exact filed_of_eq begun (onFill_filed now _ refPrice _ false _)
    · split
      · exact filed_same begun
      · split
        · exact filed_same begun
        · refine filed_same ?_
          rw [revertExit, submitStop_filed]
          refine Eq.trans ?_ begun
          exact reopen_filed (beginExit host reason c) rfl

/-- Giving up an entry leaves the record. -/
theorem abandonEntry_filed (pending : s.pos.state = .pendingEntry) :
    (abandonEntry host s).filed = s.filed := by
  have cancelled := @cancelOrder_filed host s.pos.basketIdEntry
    { s with
      pendingCancelBasket := s.pos.basketIdEntry
      pendingCancelWasBuy := decide (s.pos.direction = .buy) }
  refine (congrArg (fun row => (row.1, false)) cancelled).trans ?_
  simp only [filed, pending, PosState.isHeld]

theorem flattenNow_filed (reason : String) (price : ℚ) (s : OrderManager) :
    Filed s.filed (flattenNow host now reason price s).filed := by
  simp only [flattenNow]
  split
  · exact .same _
  next pending => exact filed_same (abandonEntry_filed s pending)
  · exact .same _
  · exact initiateExit_filed now reason price s
  · exact initiateExit_filed now reason price s

/-- A signal files no fill. -/
theorem onSignal_filed (sig : OrbSignal) (price desiredSlDist : ℚ) (s : OrderManager) :
    Filed s.filed (onSignal host now sig price desiredSlDist s).filed := by
  have entry (sig : OrbSignal) :
      Filed s.filed (if s.entryHalted || s.ghostHalted then s
        else if s.risk.canTrade = false then s
        else if s.pos.state ≠ .flat then s
        else openEntry host now sig price desiredSlDist s).filed := by
    split
    · exact .same _
    · split
      · exact .same _
      · split
        · exact .same _
        next flat => exact openEntry_filed now sig price desiredSlDist s (not_not.mp flat)
  cases sig with
  | none => exact .same _
  | flattenEod => exact flattenNow_filed now "eod_flatten" price s
  | buy => exact entry .buy
  | sell => exact entry .sell

/-- The retry of a stuck exit closes a trade at most. -/
theorem retryStuckExit_filed : Filed s.filed (retryStuckExit host now currentPrice s).filed := by
  simp only [retryStuckExit]
  split
  · exact .same _
  next closing =>
    split
    · exact .same _
    · have guarded : (guardExit host s).filed = s.filed := by
        simp only [guardExit]
        split
        · rfl
        · exact cancelOrder_filed s.pos.basketIdExit _
      have held : (guardExit host s).pos.state.isHeld = true := by
        refine (congrArg Prod.snd guarded).trans ?_
        simp only [filed, not_not.mp closing, PosState.isHeld]
      exact filed_of_eq ((reopen_filed _ held).trans guarded) (initiateExit_filed now _ _ _)

/-- An external close closes a trade at most. -/
theorem adoptExternalClose_filed (refPrice : ℚ) (reason : String) (s : OrderManager) :
    Filed s.filed (adoptExternalClose host refPrice reason s).filed := by
  simp only [adoptExternalClose]
  split
  · exact .same _
  next open_ =>
    have held : s.pos.state.isHeld = true := by
      cases state : s.pos.state with
      | flat => exact absurd (by rw [state]; decide) open_
      | pendingEntry => exact absurd (by rw [state]; decide) open_
      | _ => rfl
    have record : (cancelStopLocked host s).processedFillQty = s.processedFillQty :=
      congrArg Prod.fst (cancelStop_filed s)
    rw [filed_held held, ← record]
    exact .closes _

/-! ## Price checks -/

/-- The breach check files like an exit, and without one leaves everything alone. -/
theorem checkBreach_filed (now : Int) (currentPrice : ℚ) (s : OrderManager) :
    Filed s.filed (checkBreach host now currentPrice s).1.filed ∧
      ((checkBreach host now currentPrice s).2 = false →
        (checkBreach host now currentPrice s).1.filed = s.filed) := by
  have exits (reason : String) (t : OrderManager) (same : t.filed = s.filed) :
      Filed s.filed (initiateExitLocked host now reason currentPrice t).filed :=
    filed_of_eq same (initiateExit_filed now reason currentPrice t)
  simp only [checkBreach]
  split_ifs
  · exact ⟨exits _ _ rfl, fun kept => absurd kept (by decide)⟩
  · exact ⟨exits _ _ rfl, fun kept => absurd kept (by decide)⟩
  · exact ⟨.same _, fun _ => rfl⟩
  · exact ⟨exits _ _ rfl, fun kept => absurd kept (by decide)⟩
  · exact ⟨.same _, fun _ => rfl⟩
  · exact ⟨.same _, fun _ => rfl⟩

theorem tightenStop_filed (level : ℚ) (s : OrderManager) :
    (tightenStop host level s).1.filed = s.filed := by
  simp only [tightenStop]
  split
  · exact updateStop_filed level false _
  · rfl

theorem breakEven_filed : (breakEven host s).1.filed = s.filed := by
  simp only [breakEven]
  split
  · split
    · exact updateStop_filed _ true _
    · rfl
  · rfl

theorem trail_filed : (trail host currentPrice (activateTrail host now s)).1.filed = s.filed := by
  have activated : (activateTrail host now s).filed = s.filed := by
    simp only [activateTrail]
    split
    · rfl
    · rfl
  simp only [trail]
  split
  · exact (tightenStop_filed _ _).trans activated
  · exact activated

/-- The price check leaves the record of fills. -/
theorem checkTrail_filed : Filed s.filed (checkTrailAndStop host now currentPrice s).1.filed := by
  simp only [checkTrailAndStop]
  split
  · exact .same _
  · have tracked : (trackExcursion currentPrice s).filed = s.filed := rfl
    obtain ⟨files, kept⟩ := @checkBreach_filed host now currentPrice
      (trackExcursion currentPrice s)
    generalize checkBreach host now currentPrice (trackExcursion currentPrice s) = checked
      at files kept ⊢
    obtain ⟨c, exited⟩ := checked
    rw [tracked] at files kept
    cases exited with
    | true => exact files
    | false =>
      have still : c.filed = s.filed := kept rfl
      simp only [Bool.false_eq_true, ↓reduceIte]
      split
      · exact filed_of_eq still (initiateExit_filed now _ currentPrice { c with slBreachTime := 0 })
      · refine filed_same ?_
        rw [trail_filed, breakEven_filed]
        exact still

/-- So does the check with a strategy's stop. -/
theorem checkExternal_filed (stratStop : Option ℚ) (s : OrderManager) :
    Filed s.filed (checkExternalStop host now currentPrice stratStop s).1.filed := by
  simp only [checkExternalStop]
  split
  · exact .same _
  · have tracked : (trackExcursion currentPrice s).filed = s.filed := rfl
    obtain ⟨files, kept⟩ := @checkBreach_filed host now currentPrice
      (trackExcursion currentPrice s)
    generalize checkBreach host now currentPrice (trackExcursion currentPrice s) = checked
      at files kept ⊢
    obtain ⟨c, exited⟩ := checked
    rw [tracked] at files kept
    cases exited with
    | true => exact files
    | false =>
      have still : c.filed = s.filed := kept rfl
      refine filed_same ?_
      simp only [Bool.false_eq_true, ↓reduceIte]
      cases stratStop with
      | none => exact still
      | some level =>
        dsimp only
        split
        · rw [tightenStop_filed]
          exact still
        · exact still

/-! ## Rejections and cancel outcomes -/

/-- A rejection closes a trade at most. -/
theorem onOrderRejected_filed (basket : String) (s : OrderManager) :
    Filed s.filed (onOrderRejected host now basket s).filed := by
  simp only [onOrderRejected]
  split
  next pending =>
    refine filed_same ?_
    simp only [filed, pending.2, PosState.isHeld]
  · split
    next closing =>
      have held : s.pos.state.isHeld = true := by rw [closing.2, PosState.isHeld]
      have reopened := reopen_filed s held
      split
      · exact filed_of_eq (t := { s.reopen with rejectedExitCount := s.rejectedExitCount + 1 })
          reopened (initiateExit_filed now _ _ _)
      · exact filed_same reopened
    · split
      · exact .same _
      · exact .same _

theorem onCancelFailed_filed (id : String) (s : OrderManager) :
    (onCancelFailed host id s).filed = s.filed := by
  simp only [onCancelFailed]
  split_ifs
  all_goals first
    | rfl
    | exact cancelStop_filed _

theorem onStopServerMapped_filed (client server : String) (s : OrderManager) :
    (onStopServerMapped host client server s).filed = s.filed := by
  simp only [onStopServerMapped]
  split_ifs
  all_goals rfl

theorem mapServerBasket_filed (client server : String) (s : OrderManager) :
    (mapServerBasket host client server s).filed = s.filed := by
  simp only [mapServerBasket]
  split_ifs
  all_goals rfl

/-! ## Questions and calls -/

/-- A question records the quantity, and answers whether it was on record. -/
theorem fillAlreadyProcessed_eq (basket : String) (fillQty : Int) (s : OrderManager) :
    fillAlreadyProcessed basket fillQty s =
      ({ s with processedFillQty := AskedRecord.ask basket fillQty s.processedFillQty },
        decide ((s.processedFillQty.lookup basket).getD 0 ≥ fillQty)) := by
  simp only [fillAlreadyProcessed, AskedRecord.ask]
  split
  next seen => simp only [max_eq_left seen, seen, decide_true]
  next new => simp [max_eq_right (le_of_not_ge new), new]

/-- The question that a call asks. -/
def Op.asks : Op → Option (String × Int)
  | .fillProcessed basket qty => some (basket, qty)
  | _ => none

/-- An operation that asks about no fill files none. -/
theorem perform_filed (call : Call) (s : OrderManager) (silent : Op.asks call.op = none) :
    Filed s.filed (perform host call s).filed := by
  obtain ⟨now, op⟩ := call
  cases op with
  | signal sig price dist => exact onSignal_filed now sig price dist s
  | fill basket price qty isEntry => exact onFill_filed now basket price qty isEntry s
  | checkTrail price => exact checkTrail_filed now price s
  | checkExternal price stratStop => exact checkExternal_filed now price stratStop s
  | flatten reason price => exact flattenNow_filed now reason price s
  | retryStuckExit price => exact retryStuckExit_filed now price s
  | entryTimeout secs =>
    simp only [perform, pendingEntryTimeoutCheck]
    split
    · exact .same _
    next pending =>
      split
      · exact .same _
      · split
        · exact .same _
        · exact filed_same (abandonEntry_filed s (not_not.mp pending))
  | rejected basket => exact onOrderRejected_filed now basket s
  | cancelConfirmedByServer server =>
    refine filed_same ?_
    simp only [perform, onCancelConfirmedByServerBasket]
    split
    · rfl
    · rfl
  | cancelFailed id => exact filed_same (onCancelFailed_filed id s)
  | stopServerMapped client server => exact filed_same (onStopServerMapped_filed client server s)
  | mapServer client server => exact filed_same (mapServerBasket_filed client server s)
  | externalClose refPrice reason => exact adoptExternalClose_filed refPrice reason s
  | fillProcessed basket qty => exact absurd silent (Option.some_ne_none _)
  | recancel =>
    refine filed_same ?_
    simp only [perform, recancelPendingStops]
    split
    · rfl
    · rfl
  | popCompleted =>
    refine filed_same ?_
    simp only [perform, popTradeCompleted]
    split
    · rfl
    · rfl
  | _ => exact .same _

end OrderManager

/-! ## Reports and runs -/

namespace OpLoop

open OrderManager Notif

variable (host : Host)

/-- Where a report comes from: an order notification, an exchange notification, or a
caller of the router on its own. -/
inductive Source
  | order
  | exchange
  | router
  deriving DecidableEq

/-- A report of a fill: the cumulative quantity, and the quantity under which a fill of
none of the current orders is asked about. -/
structure RoutedFill where
  tag : String
  basketId : String := ""
  accountId : String := ""
  px : ℚ
  qty : Int
  unownedQty : Int := qty
  deriving DecidableEq

namespace RoutedFill

/-- The basket that a report names. -/
def basket (report : RoutedFill) : String := fillKey report.tag report.basketId

def ofOrder (lastPrice : ℚ) (notice : OrderNotice) : RoutedFill where
  tag := notice.userTag
  basketId := notice.basketId
  accountId := notice.accountId
  px := notice.fillPx lastPrice
  qty := notice.totalFillSize

def ofExchange (notice : ExchangeNotice) : RoutedFill where
  tag := notice.userTag
  basketId := notice.basketId
  accountId := notice.accountId
  px := notice.fillPrice
  qty := notice.cumulative
  unownedQty := notice.fillSize

/-- The report is not marked with another account. -/
def OnAccount (report : RoutedFill) : Prop :=
  report.accountId = "" ∨ report.accountId = host.cfg.accountId
deriving Decidable

/-- A report is routed by its tag: to the order manager when it is of a current order,
else to the router. -/
def route (source : Source) (now : Int) (report : RoutedFill) (om : OrderManager) : Handled :=
  if owns report.tag om then ownedFill host now report.tag report.px report.qty om
  else
    match source with
    | .order =>
      if report.OnAccount host then
        unownedFill host now report.tag report.basketId report.accountId report.px
          report.unownedQty om
      else { manager := om }
    | .exchange =>
      unownedFill host now report.tag report.basketId report.accountId report.px
        report.unownedQty om
    | .router =>
      let (om, _, halts) := handleUnownedFill host now report.tag report.basketId
        report.accountId host.cfg.accountId report.px report.unownedQty om
      { manager := om, halts := halts }

/-- The question with which a report begins, unless it is passed over for its account. -/
def asks (source : Source) (report : RoutedFill) (om : OrderManager) : Option (String × Int) :=
  if owns report.tag om then some (report.tag, report.qty)
  else if source = .exchange ∨ report.OnAccount host then some (report.basket, report.unownedQty)
  else none

end RoutedFill

variable (now : Int) (om : OrderManager)

theorem orderFill_routed (lastPrice : ℚ) (notice : OrderNotice) (om : OrderManager) :
    orderFill host now lastPrice notice om =
      (RoutedFill.ofOrder lastPrice notice).route host .order now om := rfl

/-- An exchange notification maps the server's id before its fill is routed. -/
theorem exchangeFill_routed (notice : ExchangeNotice) (om : OrderManager) :
    exchangeFill host now notice om =
      (RoutedFill.ofExchange notice).route host .exchange now
        (mapServerBasket host notice.userTag notice.basketId om) := rfl

/-- What reaches the order manager: a call, or a report of a fill. -/
inductive Delivery
  | call (call : Call)
  | report (source : Source) (now : Int) (report : RoutedFill)
  deriving DecidableEq

/-- One delivery; the outbox afterwards holds what it sent. -/
def deliver (om : OrderManager) : Delivery → Handled
  | .call call => { manager := OrderManager.step host om call }
  | .report source now report => report.route host source now { om with outbox := [] }

/-- The order manager after one delivery. -/
def take (om : OrderManager) (delivery : Delivery) : OrderManager :=
  (deliver host om delivery).manager

/-- The question that a delivery asks. -/
def question (om : OrderManager) : Delivery → Option (String × Int)
  | .call call => Op.asks call.op
  | .report source _ report => report.asks host source om

/-- The delivery closes a trade. -/
def Closes (om : OrderManager) (delivery : Delivery) : Prop :=
  om.pos.state.isHeld = true ∧ (take host om delivery).pos.state.isHeld = false
deriving Decidable

/-- What a delivery means for the record: its question, and then the close of a trade. -/
def events (om : OrderManager) (delivery : Delivery) : List (AskedRecord.Event String) :=
  (question host om delivery).toList.map (fun asked => .asked asked.1 asked.2) ++
    if Closes host om delivery then [.closed] else []

/-- The questions and closes of a run. -/
def history (om : OrderManager) : List Delivery → List (AskedRecord.Event String)
  | [] => []
  | delivery :: rest => events host om delivery ++ history (take host om delivery) rest

/-- An earlier report named the same basket and was asked about, with at least the same
cumulative quantity. -/
def Repeats (om : OrderManager) (run : List Delivery) (report : RoutedFill) : Prop :=
  ∃ before source now first after, run = before ++ .report source now first :: after ∧
    first.basket = report.basket ∧ report.qty ≤ first.qty ∧
      (first.asks host source (Runs.run (take host) om before)).isSome = true

/-- What the report is asked about was asked about before, under the same id and with at
least the same quantity, and since then no trade was closed with more than 512 baskets
on record. -/
def OnRecord (om : OrderManager) (run : List Delivery) (source : Source) (report : RoutedFill) :
    Prop :=
  ∀ asked ∈ report.asks host source (Runs.run (take host) om run),
    AskedRecord.Remembered 512 (history host om run) asked.1 asked.2

def withRecord (record : Table String Int) (om : OrderManager) : OrderManager :=
  { om with processedFillQty := record }

/-- Nothing changes, apart from the order of the rows on record, nothing is sent and
nothing is halted. -/
def Inert (om : OrderManager) (after : Handled) : Prop :=
  after.halts = [] ∧
    withRecord om.processedFillQty after.manager = { om with outbox := [] } ∧
      ∀ id, after.manager.processedFillQty.lookup id = om.processedFillQty.lookup id

variable {host : Host}

/-- The order manager with a question on record. -/
def withAsked (asked : String × Int) (om : OrderManager) : OrderManager :=
  { om with processedFillQty := AskedRecord.ask asked.1 asked.2 om.processedFillQty }

/-- An operation empties the record exactly when it closes a trade over a full one. -/
theorem filed_record {s t : OrderManager} (files : Filed s.filed t.filed) :
    t.processedFillQty =
      if s.pos.state.isHeld = true ∧ t.pos.state.isHeld = false then
        AskedRecord.pruned 512 s.processedFillQty
      else s.processedFillQty := by
  obtain ⟨before, isBefore⟩ : ∃ before, before = s.filed := ⟨_, rfl⟩
  obtain ⟨after, isAfter⟩ : ∃ after, after = t.filed := ⟨_, rfl⟩
  rw [← isBefore, ← isAfter] at files
  have record : s.processedFillQty = before.1 := congrArg Prod.fst isBefore.symm
  have record' : t.processedFillQty = after.1 := congrArg Prod.fst isAfter.symm
  have held : s.pos.state.isHeld = before.2 := congrArg Prod.snd isBefore.symm
  have held' : t.pos.state.isHeld = after.2 := congrArg Prod.snd isAfter.symm
  rw [record, record', held, held']
  cases files with
  | same =>
    split
    next both => exact absurd (both.1.symm.trans both.2) (by decide)
    next => rfl
  | opens => rfl
  | closes => rfl

/-- An order's own report is asked about, and booked when it is new. -/
theorem ownedFill_asked (tag : String) (px : ℚ) (qty : Int) (om : OrderManager) :
    (AskedRecord.Holds om.processedFillQty tag qty →
        ownedFill host now tag px qty om = { manager := withAsked (tag, qty) om }) ∧
      Filed (withAsked (tag, qty) om).filed (ownedFill host now tag px qty om).manager.filed := by
  simp only [ownedFill, fillAlreadyProcessed_eq]
  constructor
  · rintro ⟨held, row, enough⟩
    simp [row, enough, withAsked]
  · split
    · exact .same _
    · exact onFill_filed now tag px qty _ _

/-- The loop's own question answers the router's: an untracked fill is only recorded. -/
theorem unownedFill_eq (tag basketId accountId : String) (px : ℚ) (qty : Int) (om : OrderManager) :
    unownedFill host now tag basketId accountId px qty om =
      { manager := withAsked (fillKey tag basketId, qty) om } := by
  have again : ((AskedRecord.ask (fillKey tag basketId) qty om.processedFillQty).lookup
      (fillKey tag basketId)).getD 0 ≥ qty := by
    simp only [AskedRecord.lookup_ask, ↓reduceIte, Option.getD_some, ge_iff_le, le_max_right]
  simp only [unownedFill, handleUnownedFill, unownedFillIsDuplicate, fillAlreadyProcessed_eq,
    again, decide_true, ↓reduceIte, AskedRecord.ask_ask]
  split
  · rfl
  · split
    · rfl
    · rfl

/-- The router on its own acts on an untracked fill that is new. -/
theorem routedFill_asked (now : Int) (tag basketId accountId : String) (px : ℚ) (qty : Int)
    (om : OrderManager) (ours : accountId = "" ∨ accountId = host.cfg.accountId) :
    let routed := handleUnownedFill host now tag basketId accountId host.cfg.accountId px qty om
    (AskedRecord.Holds om.processedFillQty (fillKey tag basketId) qty →
        routed = (withAsked (fillKey tag basketId, qty) om, .duplicate, [])) ∧
      Filed (withAsked (fillKey tag basketId, qty) om).filed routed.1.filed := by
  have account : ¬(accountId ≠ "" ∧ accountId ≠ host.cfg.accountId) := by
    rintro ⟨given, other⟩
    exact ours.elim given other
  simp only [handleUnownedFill, account, ↓reduceIte, unownedFillIsDuplicate,
    fillAlreadyProcessed_eq]
  constructor
  · rintro ⟨held, row, enough⟩
    simp [row, enough, withAsked]
  · split
    · exact .same _
    · split
      · exact onFill_filed now _ px qty false _
      · exact .same _

/-- A report that is passed over does nothing. -/
theorem route_unasked {source : Source} (now : Int) {report : RoutedFill} {om : OrderManager}
    (silent : report.asks host source om = none) :
    report.route host source now om = { manager := om } := by
  simp only [RoutedFill.asks] at silent
  split at silent
  next => exact absurd silent (Option.some_ne_none _)
  next other =>
    split at silent
    next => exact absurd silent (Option.some_ne_none _)
    next passed =>
      obtain ⟨notExchange, foreign⟩ := not_or.mp passed
      simp only [RoutedFill.route, other, Bool.false_eq_true, ↓reduceIte]
      cases source with
      | order => simp [foreign]
      | exchange => exact absurd rfl notExchange
      | router =>
        have account : report.accountId ≠ "" ∧ report.accountId ≠ host.cfg.accountId :=
          not_or.mp foreign
        simp [handleUnownedFill, account]

/-- A report on record only asks; any report asks and then does one operation. -/
theorem route_asked {source : Source} (now : Int) {report : RoutedFill} {om : OrderManager}
    {asked : String × Int} (asks : report.asks host source om = some asked) :
    (AskedRecord.Holds om.processedFillQty asked.1 asked.2 →
        report.route host source now om = { manager := withAsked asked om }) ∧
      Filed (withAsked asked om).filed (report.route host source now om).manager.filed := by
  simp only [RoutedFill.asks] at asks
  split at asks
  next own =>
    obtain rfl := Option.some.inj asks
    simp only [RoutedFill.route, own, ↓reduceIte]
    exact ownedFill_asked now report.tag report.px report.qty om
  next other =>
    split at asks
    next admitted =>
      obtain rfl := Option.some.inj asks
      simp only [RoutedFill.route, other, Bool.false_eq_true, ↓reduceIte]
      cases source with
      | order =>
        have ours : report.OnAccount host := admitted.resolve_left (by decide)
        simp only [ours, ↓reduceIte, unownedFill_eq]
        exact ⟨fun _ => rfl, .same _⟩
      | exchange =>
        simp only [unownedFill_eq]
        exact ⟨fun _ => rfl, .same _⟩
      | router =>
        have ours : report.OnAccount host := admitted.resolve_left (by decide)
        obtain ⟨known, files⟩ := routedFill_asked now report.tag report.basketId report.accountId
          report.px report.unownedQty om ours
        refine ⟨fun holds => ?_, files⟩
        simp only [known holds]
        rfl
    next => exact absurd asks.symm (Option.some_ne_none _)

/-! ## The record of a run -/

/-- A delivery asks its question, and then files like one operation. -/
theorem take_filed (om : OrderManager) (delivery : Delivery) :
    ∃ c : OrderManager, c.pos = om.pos ∧
      c.processedFillQty = Runs.run (AskedRecord.note 512) om.processedFillQty
        ((question host om delivery).toList.map fun asked => .asked asked.1 asked.2) ∧
      Filed c.filed (take host om delivery).filed := by
  cases delivery with
  | call call =>
    cases asks : Op.asks call.op with
    | none =>
      refine ⟨{ om with outbox := [] }, rfl, ?_, perform_filed call { om with outbox := [] } asks⟩
      simp [question, asks]
    | some asked =>
      obtain ⟨now, op⟩ := call
      cases op with
      | fillProcessed basket qty =>
        have performed : take host om (.call { now := now, op := .fillProcessed basket qty }) =
            withAsked (basket, qty) { om with outbox := [] } :=
          congrArg Prod.fst (fillAlreadyProcessed_eq basket qty { om with outbox := [] })
        refine ⟨withAsked (basket, qty) om, rfl, rfl, ?_⟩
        rw [performed]
        exact .same _
      | _ => exact absurd asks.symm (Option.some_ne_none _)
  | report source now report =>
    cases asks : report.asks host source om with
    | none =>
      have taken : take host om (.report source now report) = { om with outbox := [] } :=
        congrArg Handled.manager
          (@route_unasked host source now report { om with outbox := [] } asks)
      refine ⟨om, rfl, ?_, ?_⟩
      · simp [question, asks]
      · rw [taken]
        exact .same _
    | some asked =>
      obtain ⟨-, files⟩ := @route_asked host source now report { om with outbox := [] } asked asks
      refine ⟨withAsked asked { om with outbox := [] }, rfl, ?_, files⟩
      simp only [question, asks, Option.toList_some, List.map_cons, List.map_nil]
      rfl

/-- One delivery changes the record by its question and then by the close of a trade. -/
theorem take_record (delivery : Delivery) :
    (take host om delivery).processedFillQty =
      Runs.run (AskedRecord.note 512) om.processedFillQty (events host om delivery) := by
  obtain ⟨c, position, record, files⟩ := @take_filed host om delivery
  rw [events, Runs.run_append, ← record, filed_record files, position]
  split
  next closes =>
    have closed : Closes host om delivery := closes
    rw [if_pos closed]
    rfl
  next open_ =>
    have notClosed : ¬Closes host om delivery := open_
    rw [if_neg notClosed]
    rfl

/-- The record of a run is that of its questions and closes. -/
theorem run_record (run : List Delivery) :
    (Runs.run (take host) om run).processedFillQty =
      Runs.run (AskedRecord.note 512) om.processedFillQty (history host om run) := by
  induction run generalizing om with
  | nil => rfl
  | cons delivery rest ih =>
    rw [Runs.run_cons, ih, take_record, history, Runs.run_append]

/-- A report is inert exactly when what it is asked about is on record, if it is asked about. -/
theorem inert_iff (source : Source) (now : Int) (report : RoutedFill) :
    Inert om (deliver host om (.report source now report)) ↔
      ∀ asked ∈ report.asks host source om,
        AskedRecord.Holds om.processedFillQty asked.1 asked.2 := by
  cases asks : report.asks host source om with
  | none =>
    have routed := @route_unasked host source now report { om with outbox := [] } asks
    refine iff_of_true ?_ (fun asked found => absurd found.symm (Option.some_ne_none _))
    simp only [deliver, routed]
    exact ⟨rfl, rfl, fun _ => rfl⟩
  | some asked =>
    obtain ⟨known, files⟩ := @route_asked host source now report { om with outbox := [] } asked asks
    simp only [Option.mem_some_iff, forall_eq']
    constructor
    · rintro ⟨-, same, rows⟩
      have record := filed_record files
      have position := congrArg OrderManager.pos same
      have open_ : ¬((withAsked asked { om with outbox := [] }).pos.state.isHeld = true ∧
          (report.route host source now { om with outbox := [] }).manager.pos.state.isHeld =
            false) := by
        rintro ⟨held, idle⟩
        have open_ : om.pos.state.isHeld = false :=
          (congrArg (fun pos => pos.state.isHeld) position).symm.trans idle
        exact absurd (held.symm.trans open_) (by decide)
      rw [if_neg open_] at record
      have row := rows asked.1
      simp only [deliver, record, withAsked, AskedRecord.lookup_ask, ↓reduceIte] at row
      exact ⟨_, row.symm, le_max_right _ _⟩
    · intro holds
      simp only [deliver, known holds]
      refine ⟨rfl, rfl, fun id => ?_⟩
      obtain ⟨held, row, enough⟩ := holds
      simp only [withAsked, AskedRecord.lookup_ask]
      split
      next isId => rw [isId, row, Option.getD_some, max_eq_left enough]
      next => rfl

/-- A repeated report of a fill is inert exactly when what it is asked about is still on
record: the id was asked about before, and no trade was closed since with more than 512
baskets on record. -/
theorem repeated_fill_inert_iff (host : Host) (risk : RiskManager) (seq : Nat)
    (run : List Delivery) (source : Source) (now : Int) (report : RoutedFill) :
    let om := Runs.run (take host) (fresh risk seq) run
    (Repeats host (fresh risk seq) run report →
        Inert om (deliver host om (.report source now report))) ↔
      (Repeats host (fresh risk seq) run report →
        OnRecord host (fresh risk seq) run source report) := by
  intro om
  have record : om.processedFillQty =
      AskedRecord.ofHistory 512 (history host (fresh risk seq) run) := run_record _ run
  refine imp_congr Iff.rfl ?_
  rw [inert_iff, record]
  refine forall₂_congr fun asked _ => ?_
  exact AskedRecord.holds_iff_remembered _ asked.1 asked.2

/-- An order notification of an untracked fill is only recorded. -/
theorem route_untracked (now : Int) {report : RoutedFill} {om : OrderManager}
    (other : owns report.tag om = false) (ours : report.OnAccount host) :
    report.route host .order now om =
      { manager := withAsked (report.basket, report.unownedQty) om } := by
  simp only [RoutedFill.route, other, ours, Bool.false_eq_true, ↓reduceIte, unownedFill_eq]
  rfl

/-! ## A run that forgets -/

/-- Another strategy of the same account. -/
def elsewhere : Host := { cfg := { symbol := "MES" } }

/-- A report of one contract of the other strategy. -/
def stranger (n : Nat) : Delivery :=
  .report .order 0 { tag := elsewhere.basketId n, px := 6000, qty := 1 }

/-- The record of such reports, latest first. -/
def strangers (n : Nat) : Table String Int where
  entries := (List.range n).reverse.map fun k => ⟨elsewhere.basketId k, 1⟩
  nodupKeys := by
    rw [List.NodupKeys, List.keys, List.map_map]
    exact List.Nodup.map (fun _ _ same => elsewhere.basketId_injective same)
      (List.nodup_reverse.mpr List.nodup_range)

/-- Each stranger's fill is new to the record and is added to it. -/
theorem ask_strangers (n : Nat) :
    AskedRecord.ask (elsewhere.basketId n) 1 (strangers n) = strangers (n + 1) := by
  have new : elsewhere.basketId n ∉ strangers n := by
    intro known
    obtain ⟨k, below, same⟩ :
        ∃ k ∈ List.range n, elsewhere.basketId k = elsewhere.basketId n := by
      simpa [strangers, AList.mem_keys, AList.keys, List.keys] using known
    have equal := elsewhere.basketId_injective same
    have less := List.mem_range.mp below
    omega
  have none : (strangers n).lookup (elsewhere.basketId n) = none :=
    (Table.lookup_eq_none _ _).mpr new
  rw [AskedRecord.ask, none]
  apply AList.ext
  refine (AList.entries_insert_of_notMem new).trans ?_
  simp only [strangers, List.range_succ, List.reverse_append, List.reverse_cons, List.reverse_nil,
    List.nil_append, List.singleton_append, List.map_cons]
  rfl

/-- The order manager after the first reports of the other strategy. -/
def filledElsewhere (n : Nat) : OrderManager :=
  { fresh {} 0 with processedFillQty := strangers n }

/-- Such reports leave the order manager alone but for the record. -/
theorem run_strangers (n : Nat) :
    Runs.run (take .accepting) (fresh {} 0) ((List.range n).map stranger) = filledElsewhere n := by
  induction n with
  | zero => rfl
  | succ n ih =>
    have other : owns (elsewhere.basketId n) (filledElsewhere n) = false := by
      have unnamed : ¬("" = elsewhere.basketId n) := Ne.symm (elsewhere.basketId_ne_empty n)
      simp [owns, isEntryBasket, isStopBasket, isExitBasket, filledElsewhere, fresh, unnamed,
        inTrade]
    have asked : deliver .accepting (filledElsewhere n) (stranger n) =
        { manager := withAsked (elsewhere.basketId n, 1) (filledElsewhere n) } := by
      have routed := @route_untracked .accepting 0
        { tag := elsewhere.basketId n, px := 6000, qty := 1 }
        (filledElsewhere n) other (Or.inl rfl)
      rw [RoutedFill.basket, fillKey, if_neg (elsewhere.basketId_ne_empty n)] at routed
      exact routed
    rw [List.range_succ, List.map_append, Runs.run_append, ih, List.map_singleton, Runs.run_cons,
      Runs.run_nil, take, asked, withAsked]
    exact congrArg (fun record => { fresh {} 0 with processedFillQty := record }) (ask_strangers n)

/-- A trade after those reports. -/
def trade : List Delivery := [
  .call { op := .signal .buy 20000 0 },
  .report .exchange 0 { tag := "MNQ-0-0", px := 20000, qty := 1 },
  .call { op := .flatten "target" 20010 }]

/-- The fill of its exit. -/
def exitFilled : RoutedFill := { tag := "MNQ-0-2", px := 20010, qty := 1 }

/-- The fills of the other strategy, and a trade that fills its exit. -/
def forgetful : List Delivery :=
  (List.range 512).map stranger ++ (trade ++ [.report .exchange 0 exitFilled])

def closedOut : OrderManager := Runs.run (take .accepting) (fresh {} 0) forgetful

theorem closedOut_eq :
    closedOut =
      Runs.run (take .accepting) (filledElsewhere 512)
        (trade ++ [.report .exchange 0 exitFilled]) := by
  rw [closedOut, forgetful, Runs.run_append, run_strangers]

/-- The exit is asked about before it is booked. -/
theorem forgetful_repeats : Repeats .accepting (fresh {} 0) forgetful exitFilled := by
  refine ⟨(List.range 512).map stranger ++ trade, .exchange, 0, exitFilled, [], ?_, rfl,
    le_refl _, ?_⟩
  · rw [forgetful, List.append_assoc]
  · rw [Runs.run_append, run_strangers]
    decide +kernel

theorem Inert.ghostHalted_eq {om : OrderManager} {after : Handled} (inert : Inert om after) :
    after.manager.ghostHalted = om.ghostHalted := by
  have same := congrArg OrderManager.ghostHalted inert.2.1
  exact same

/-- With 512 fills of another strategy on record, the fill that closes a trade is forgotten
as it is booked: the second report of it sets the ghost halt, when the router is asked
alone, and is recorded anew by the receive loop. -/
theorem forgotten_exit_not_inert :
    Repeats .accepting (fresh {} 0) forgetful exitFilled ∧
      ¬Inert closedOut (deliver .accepting closedOut (.report .router 0 exitFilled)) ∧
      ¬Inert closedOut (deliver .accepting closedOut (.report .order 0 exitFilled)) := by
  refine ⟨forgetful_repeats, fun inert => ?_, fun inert => ?_⟩
  · have halts : (deliver .accepting closedOut (.report .router 0 exitFilled)).manager.ghostHalted
        ≠ closedOut.ghostHalted := by
      rw [closedOut_eq]
      decide +kernel
    exact halts inert.ghostHalted_eq
  · have records : (deliver .accepting closedOut
        (.report .order 0 exitFilled)).manager.processedFillQty.lookup "MNQ-0-2" = some 1 ∧
          closedOut.processedFillQty.lookup "MNQ-0-2" = none := by
      rw [closedOut_eq]
      decide +kernel
    have same := inert.2.2 "MNQ-0-2"
    rw [records.1, records.2] at same
    exact absurd same (Option.some_ne_none 1)

end OpLoop

end RithmicEngine
