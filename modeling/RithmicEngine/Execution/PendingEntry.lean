import RithmicEngine.Execution.TradeAccounts
/-!
# The end of a pending entry

An entry order is pending until its fill opens the position. It is given up where it
is rejected, where it has been pending too long, and by every flatten, and then the
order manager is flat again and has no trade to report. What gives it up can be read
off the event and the state before it; every other event of a running cycle leaves the
entry pending or fills it.
-/
namespace RithmicEngine

namespace OrderManager

variable (host : Host)

/-- The rejected order is the entry; a server id stands for the client id mapped to it. -/
def rejectsEntry (basket : String) (s : OrderManager) : Bool :=
  decide (s.pos.basketIdEntry = (s.serverToClientOrders.lookup basket).getD basket)

/-- The entry has been pending for so many seconds. A dry run has no such entry. -/
def entryOverdue (now : Int) (timeoutSecs : Int) (s : OrderManager) : Bool :=
  !host.cfg.dryRun && decide (timeoutSecs ≤ (now - s.pos.fillTime).tdiv 1000000000)

/-- The calls that give a pending entry up. -/
def dropsEntry (call : Call) (s : OrderManager) : Bool :=
  match call.op with
  | .signal sig _ _ => decide (sig = .flattenEod)
  | .flatten _ _ => true
  | .entryTimeout secs => entryOverdue host call.now secs s
  | .rejected basket => s.rejectsEntry basket
  | _ => false

variable {host}

variable {s : OrderManager} (now : Int)

theorem isFlat_congr {t : OrderManager} (same : t.pos.state = s.pos.state) :
    t.isFlat = s.isFlat := by
  rw [isFlat, isFlat, same]

theorem isFlat_of_pending (pending : s.pos.state = .pendingEntry) : s.isFlat = false := by
  rw [isFlat, pending]
  rfl

theorem inTrade_of_pending (pending : s.pos.state = .pendingEntry) : s.inTrade = false := by
  rw [inTrade, pending]
  rfl

/-- A step that keeps the entry pending. -/
theorem pending_of_state {t : OrderManager} (pending : s.pos.state = .pendingEntry)
    (same : t.pos.state = s.pos.state) : t.isFlat = false :=
  isFlat_of_pending (same.trans pending)

/-- Whoever's fill it is, a pending entry stays or becomes a position. -/
theorem onFill_pending (basket : String) (price : ℚ) (qty : Int) (isEntry : Bool)
    (pending : s.pos.state = .pendingEntry) :
    (onFillNotificationLocked host now basket price qty isEntry s).isFlat = false := by
  cases isEntry with
  | true => exact pendingFill_open now basket price qty s pending
  | false =>
    have same := accumulateFill_pos basket price qty s
    simp only [onFillNotificationLocked, Bool.false_eq_true, ↓reduceIte]
    generalize accumulateFill basket price qty s = accumulated at same ⊢
    obtain ⟨c, average⟩ := accumulated
    have waits : c.pos.state = .pendingEntry := (congrArg Position.state same).trans pending
    simp only [waits, ne_eq, reduceCtorEq, not_false_eq_true, and_self, ↓reduceIte]
    exact pending_of_state waits (flatFill_state basket average c)

/-- A rejection drops a pending entry exactly when it names it. -/
theorem onOrderRejected_pending (basket : String) (pending : s.pos.state = .pendingEntry) :
    (onOrderRejected host now basket s).isFlat = s.rejectsEntry basket := by
  simp only [onOrderRejected, pending, and_true, reduceCtorEq, and_false, ↓reduceIte]
  split
  next own => exact (decide_eq_true own).symm
  next foreign =>
    rw [rejectsEntry, decide_eq_false foreign]
    split
    · exact isFlat_of_pending rfl
    · exact isFlat_of_pending pending

/-- With an entry pending, the only signal that makes the manager flat is the end of day's. -/
theorem onSignal_pending (sig : OrbSignal) (price dist : ℚ)
    (pending : s.pos.state = .pendingEntry) :
    (onSignal host now sig price dist s).isFlat = decide (sig = .flattenEod) := by
  have busy : s.pos.state ≠ .flat := by
    rw [pending]
    decide
  cases sig with
  | flattenEod =>
    simp only [onSignal, flattenNow, pending]
    rfl
  | none => exact isFlat_of_pending pending
  | buy =>
    simp only [onSignal, busy, ne_eq, not_false_eq_true, ↓reduceIte]
    split_ifs
    all_goals exact isFlat_of_pending pending
  | sell =>
    simp only [onSignal, busy, ne_eq, not_false_eq_true, ↓reduceIte]
    split_ifs
    all_goals exact isFlat_of_pending pending

theorem flattenNow_pending (reason : String) (price : ℚ) (pending : s.pos.state = .pendingEntry) :
    (flattenNow host now reason price s).isFlat = true := by
  simp only [flattenNow, pending]
  rfl

/-- A call leaves a pending entry flat exactly where it gives it up. -/
theorem perform_pending (call : Call) (pending : s.pos.state = .pendingEntry) :
    (perform host call s).isFlat = s.dropsEntry host call := by
  have waits : s.isFlat = false := isFlat_of_pending pending
  have untraded : s.inTrade = false := inTrade_of_pending pending
  obtain ⟨now, op⟩ := call
  cases op with
  | signal sig price dist => exact onSignal_pending now sig price dist pending
  | fill basket price qty isEntry => exact onFill_pending now basket price qty isEntry pending
  | checkTrail price =>
    simp only [perform, checkTrailAndStop, untraded, ↓reduceIte]
    exact waits
  | checkExternal price stratStop =>
    simp only [perform, checkExternalStop, untraded, ↓reduceIte]
    exact waits
  | flatten reason price => exact flattenNow_pending now reason price pending
  | retryStuckExit price =>
    simp only [perform, retryStuckExit, pending, ne_eq, reduceCtorEq, not_false_eq_true, ↓reduceIte]
    exact waits
  | entryTimeout secs =>
    simp only [perform, pendingEntryTimeoutCheck, dropsEntry, entryOverdue, pending, ne_eq,
      not_true_eq_false, ↓reduceIte]
    split_ifs
    next dry => simpa only [dry, Bool.not_true, Bool.false_and] using waits
    next early =>
      rw [decide_eq_false (by omega), Bool.and_false]
      exact waits
    next sends due =>
      rw [decide_eq_true (by omega), Bool.and_true, Bool.eq_false_iff.mpr sends]
      rfl
  | rejected basket => exact onOrderRejected_pending now basket pending
  | externalClose refPrice reason =>
    simp only [perform, adoptExternalClose, pending, ne_eq, reduceCtorEq, not_false_eq_true,
      and_self, ↓reduceIte]
    exact waits
  | cancelFailed id => exact pending_of_state pending (onCancelFailed_state id s)
  | cancelConfirmedByServer server =>
    simp only [perform, onCancelConfirmedByServerBasket]
    split
    · exact waits
    · exact waits
  | stopServerMapped client server =>
    simp only [perform, onStopServerMapped]
    split_ifs
    all_goals exact waits
  | mapServer client server =>
    simp only [perform, mapServerBasket]
    split_ifs
    all_goals exact waits
  | fillProcessed basket qty =>
    simp only [perform, fillAlreadyProcessed]
    split_ifs
    all_goals exact waits
  | recancel =>
    simp only [perform, recancelPendingStops]
    split_ifs
    all_goals exact waits
  | popCompleted =>
    simp only [perform, popTradeCompleted]
    split_ifs
    all_goals exact waits
  | _ => exact waits

end OrderManager

/-! ## Messages of the order plant -/

namespace OpLoop

open OrderManager Notif

/-- The id mappings once a 351 or 352 has been read. -/
def mappedOrders (client server : String) (om : OrderManager) : Table String String :=
  if client = "" ∨ server = "" then om.serverToClientOrders
  else om.serverToClientOrders.insert server client

/-- A 351 for an order that completed without a fill. -/
def OrderNotice.completes (notice : OrderNotice) : Bool :=
  decide (notice.totalFillSize = 0 ∧ notice.notifyType = 15 ∧
    notice.status ≠ "Cancellation Failed")

/-- Such an order is the pending entry. -/
def OrderNotice.dropsEntry (notice : OrderNotice) (om : OrderManager) : Bool :=
  notice.completes && om.isEntryBasket notice.userTag &&
    rejectsEntry notice.userTag
      { om with serverToClientOrders := mappedOrders notice.userTag notice.basketId om }

/-- A 352 rejection of the pending entry. -/
def ExchangeNotice.dropsEntry (notice : ExchangeNotice) (om : OrderManager) : Bool :=
  decide (notice.notifyType = 6) && om.rejectsEntry notice.userTag

/-- The gateway refuses the pending entry. -/
def responseDropsEntry (basketId : String) (rpCode : List String) (om : OrderManager) : Bool :=
  match rpCode with
  | [] => false
  | code :: _ => decide (code ≠ "0") && om.rejectsEntry basketId

variable {host : Host}

variable {om : OrderManager} (now : Int)

theorem asked_pending (basket : String) (qty : Int) (pending : om.pos.state = .pendingEntry) :
    (fillAlreadyProcessed basket qty om).1.pos.state = .pendingEntry := by
  simp only [fillAlreadyProcessed]
  split
  · exact pending
  · exact pending

/-- A fill of our own drops no pending entry. -/
theorem ownedFill_pending (tag : String) (px : ℚ) (qty : Int)
    (pending : om.pos.state = .pendingEntry) :
    (ownedFill host now tag px qty om).manager.isFlat = false := by
  have asked := asked_pending tag qty pending
  simp only [ownedFill]
  generalize fillAlreadyProcessed tag qty om = answer at asked ⊢
  obtain ⟨c, duplicate⟩ := answer
  split
  · exact isFlat_of_pending asked
  · exact onFill_pending now tag px qty _ asked

/-- A fill of another order is no fill of a position that is not open. -/
theorem unownedFill_pending (tag basketId accountId : String) (px : ℚ) (qty : Int)
    (pending : om.pos.state = .pendingEntry) :
    (unownedFill host now tag basketId accountId px qty om).manager.isFlat = false := by
  have first : (unownedFillIsDuplicate tag basketId qty om).1.pos.state = .pendingEntry :=
    asked_pending (fillKey tag basketId) qty pending
  simp only [unownedFill]
  generalize unownedFillIsDuplicate tag basketId qty om = answer at first ⊢
  obtain ⟨c, duplicate⟩ := answer
  have second : (unownedFillIsDuplicate tag basketId qty c).1.pos.state = .pendingEntry :=
    asked_pending (fillKey tag basketId) qty first
  split
  · exact isFlat_of_pending first
  · simp only [handleUnownedFill]
    generalize unownedFillIsDuplicate tag basketId qty c = again at second ⊢
    obtain ⟨d, repeated⟩ := again
    simp only [isFlat_of_pending second, Bool.false_eq_true, ↓reduceIte]
    split_ifs
    · exact isFlat_of_pending first
    · exact isFlat_of_pending second
    · exact isFlat_of_pending second

theorem mapped_pos (host : Host) (client server : String) (om : OrderManager) :
    (onStopServerMapped host client server (mapServerBasket host client server om)).pos =
      om.pos :=
  congrArg Prod.fst ((onStopServerMapped_attribution host client server
    (mapServerBasket host client server om)).trans
    (mapServerBasket_attribution host client server om))

/-- The orders by server id after a mapping was noted. -/
theorem mapped_orders (host : Host) (client server : String) (om : OrderManager) :
    (onStopServerMapped host client server
      (mapServerBasket host client server om)).serverToClientOrders =
      mappedOrders client server om := by
  have kept (om : OrderManager) : (onStopServerMapped host client server om).serverToClientOrders =
      om.serverToClientOrders := by
    simp only [onStopServerMapped]
    split_ifs
    all_goals rfl
  rw [kept]
  simp only [mapServerBasket, mappedOrders]
  split_ifs
  all_goals rfl

/-- With an entry pending, a notice ends flat exactly when it drops that entry. -/
theorem orderNotice_pending (lastPrice : ℚ) (notice : OrderNotice)
    (pending : om.pos.state = .pendingEntry) :
    (orderNotice host now lastPrice notice om).manager.isFlat = notice.dropsEntry om := by
  have pos := mapped_pos host notice.userTag notice.basketId om
  have orders := mapped_orders host notice.userTag notice.basketId om
  simp only [orderNotice, OrderNotice.dropsEntry]
  generalize onStopServerMapped host notice.userTag notice.basketId
    (mapServerBasket host notice.userTag notice.basketId om) = c at pos orders ⊢
  have waits : c.pos.state = .pendingEntry := (congrArg Position.state pos).trans pending
  have entry : om.isEntryBasket notice.userTag = c.isEntryBasket notice.userTag := by
    rw [isEntryBasket, isEntryBasket, pos]
  have rejects : rejectsEntry notice.userTag { om with
      serverToClientOrders := mappedOrders notice.userTag notice.basketId om } =
      c.rejectsEntry notice.userTag := by
    rw [rejectsEntry, rejectsEntry, orders, pos]
  rw [entry, rejects]
  have waiting {next : Handled} (other : ¬notice.completes = true)
      (flat : next.manager.isFlat = false) : next.manager.isFlat =
        (notice.completes && c.isEntryBasket notice.userTag && c.rejectsEntry notice.userTag) := by
    rw [Bool.eq_false_iff.mpr other, Bool.false_and, Bool.false_and]
    exact flat
  simp only [OrderNotice.completes, decide_eq_true_eq] at waiting ⊢
  split
  next filled =>
    refine waiting (by omega) ?_
    simp only [orderFill]
    split_ifs
    · exact ownedFill_pending now _ _ _ waits
    · exact unownedFill_pending now _ _ _ _ _ waits
    · exact isFlat_of_pending waits
  next unfilled =>
    split
    next failed =>
      refine waiting ?_ ?_
      · rintro ⟨_, completed, status⟩
        exact failed.elim (by omega) status
      · simp only [handleCancelNotification, failed, ↓reduceIte]
        exact pending_of_state waits (onCancelFailed_state _ c)
    next alive =>
      rw [not_or] at alive
      split
      next cancelled =>
        refine waiting (by omega) ?_
        dsimp only
        split
        · exact isFlat_of_pending waits
        · exact perform_pending ⟨now, .cancelConfirmedByServer notice.basketId⟩ waits
      next =>
        split
        next completed =>
          simp only [completed, alive.2, ne_eq, not_false_eq_true, and_self, decide_true,
            Bool.true_and]
          split
          next own =>
            rw [own, Bool.true_and]
            exact onOrderRejected_pending now notice.userTag waits
          next foreign =>
            rw [Bool.eq_false_iff.mpr foreign, Bool.false_and]
            exact isFlat_of_pending waits
        next other =>
          refine waiting (fun completed => ?_) (isFlat_of_pending waits)
          exact other ⟨completed.2.1, completed.1⟩

/-- With an entry pending, an exchange notice ends flat exactly when it drops that entry. -/
theorem exchangeNotice_pending (notice : ExchangeNotice) (pending : om.pos.state = .pendingEntry) :
    (exchangeNotice host now notice om).manager.isFlat = notice.dropsEntry om := by
  simp only [exchangeNotice, ExchangeNotice.dropsEntry]
  split
  next filled =>
    have mapped : (mapServerBasket host notice.userTag notice.basketId om).pos.state =
        .pendingEntry :=
      (congrArg (fun parts => parts.1.state)
        (mapServerBasket_attribution host notice.userTag notice.basketId om)).trans pending
    rw [decide_eq_false (by omega), Bool.false_and]
    simp only [exchangeFill]
    split
    · exact ownedFill_pending now _ _ _ mapped
    · exact unownedFill_pending now _ _ _ _ _ mapped
  next =>
    split
    next rejected =>
      rw [decide_eq_true rejected, Bool.true_and]
      exact onOrderRejected_pending now notice.userTag pending
    next other =>
      rw [decide_eq_false other, Bool.false_and]
      split
      · exact isFlat_of_pending pending
      · split
        · exact perform_pending ⟨now, .stopServerMapped notice.userTag notice.basketId⟩ pending
        · exact isFlat_of_pending pending

/-- A response drops a pending entry exactly when it is the entry's own refusal. -/
theorem newOrderResponse_pending (basketId : String) (rpCode : List String)
    (pending : om.pos.state = .pendingEntry) :
    (newOrderResponse host now basketId rpCode om).manager.isFlat =
      responseDropsEntry basketId rpCode om := by
  cases rpCode with
  | nil => exact isFlat_of_pending pending
  | cons code rest =>
    simp only [newOrderResponse, responseDropsEntry]
    split
    next refused =>
      rw [decide_eq_true refused, Bool.true_and]
      exact onOrderRejected_pending now basketId pending
    next accepted =>
      rw [decide_eq_false accepted, Bool.false_and]
      exact isFlat_of_pending pending

end OpLoop

/-! ## Events -/

namespace Executor

variable (host : Host)

/-- The events that give a pending entry up. -/
def dropsEntry (x : Executor) (event : Event) : Bool :=
  decide (x.stage = .live) && decide (x.manager.pos.state = .pendingEntry) &&
    match event with
    | .call call => x.manager.dropsEntry host call
    | .order _ notice =>
      x.reading host && !notice.isSnapshot && notice.dropsEntry x.manager
    | .exchange _ notice => x.reading host && notice.dropsEntry x.manager
    | .response _ basketId rpCode =>
      x.reading host && OpLoop.responseDropsEntry basketId rpCode x.manager
    | .position _ update =>
      x.reading host && decide (update.accountId = host.cfg.accountId) && x.lossBreach host update
    | .shutdown _ => true
    | _ => false

variable {host}

/-! ### Reconciliation closes no position that is not open -/

/-- Without a position an external close does nothing. -/
theorem adoptExternalClose_idle (refPrice : ℚ) (reason : String) {s : OrderManager}
    (idle : s.book.held = false) :
    OrderManager.adoptExternalClose host refPrice reason s = s := by
  simp only [OrderManager.adoptExternalClose]
  split
  · rfl
  next held =>
    refine absurd idle ?_
    rw [OrderManager.book]
    cases state : s.pos.state with
    | flat =>
      rw [state] at held
      exact absurd (by decide) held
    | pendingEntry =>
      rw [state] at held
      exact absurd (by decide) held
    | _ => exact Bool.noConfusion

variable {x : Executor} (moment : Moment) (net : Int)

/-- Without a held trade acting on a mismatch leaves the position. -/
theorem actOnMismatch_idle (idle : x.book.held = false) :
    (x.actOnMismatch host moment net).manager.pos = x.manager.pos := by
  have adopted : OrderManager.adoptExternalClose host moment.lastPrice "external_close" x.manager =
      x.manager := adoptExternalClose_idle _ _ idle
  have sent (isBuy : Bool) (qty : Int) (y : Executor) :
      (y.sendUnwind host moment qty isBuy).1.manager.pos = y.manager.pos := by
    simp only [sendUnwind]
    split
    · rfl
    · rfl
  have cancelled (y : Executor) : (y.cancelLastUnwind host).manager.pos = y.manager.pos := by
    simp only [cancelLastUnwind]
    split
    · rfl
    · rfl
  simp only [actOnMismatch]
  generalize Notif.planUnwind net x.manager.pos host.cfg.qty = plan
  split
  · rw [sent, cancelled]
    split
    · exact congrArg OrderManager.pos adopted
    · rfl
  · rw [cancelled]
    split
    · exact congrArg OrderManager.pos adopted
    · rfl

/-- Without a held trade a reconciliation leaves the position. -/
theorem reconcileNet_idle (consistent : Bool) (idle : x.book.held = false) :
    (x.reconcileNet host moment net consistent).manager.pos = x.manager.pos := by
  have confirmed (recon : NetReconciler) :
      (confirmBothFlat net consistent { x with netRecon := recon }).manager.pos =
        x.manager.pos := by
    simp only [confirmBothFlat]
    split
    · rfl
    · rfl
  have cleared (y : Executor) : (y.clearMismatch net).manager.pos = y.manager.pos := by
    simp only [clearMismatch]
    split_ifs
    all_goals rfl
  simp only [reconcileNet]
  split
  · refine (actOnMismatch_idle moment net ?_).trans (confirmed _)
    rw [confirmBothFlat_book]
    exact idle
  · exact (cleared _).trans (confirmed _)
  · exact confirmed _

theorem orderSnapshot_pos (host : Host) (moment : Moment) (notice : OpLoop.OrderNotice)
    (x : Executor) : (x.orderSnapshot host moment notice).manager.pos = x.manager.pos := by
  simp only [orderSnapshot]
  split_ifs
  all_goals rfl

theorem positionSnapshot_pos (consistent : Bool) (x : Executor) :
    (x.positionSnapshot host moment net consistent).manager.pos = x.manager.pos := by
  simp only [positionSnapshot, snapshotMatches, snapshotGhost, snapshotFlat, unhaltPosition,
    sendUnwind]
  split_ifs
  all_goals rfl

/-- A new breach of the day's loss gives a pending entry up. -/
theorem checkBrokerLoss_pending (update : PositionUpdate)
    (pending : x.manager.pos.state = .pendingEntry) :
    (x.checkBrokerLoss host moment update).manager.isFlat = x.lossBreach host update ∧
      (x.checkBrokerLoss host moment update).book.held = false := by
  cases breach : x.lossBreach host update with
  | false =>
    simp only [checkBrokerLoss, breach, Bool.false_eq_true, ↓reduceIte]
    refine ⟨OrderManager.isFlat_of_pending pending, ?_⟩
    rw [book, OrderManager.book, pending]
    rfl
  | true =>
    simp only [checkBrokerLoss, breach, ↓reduceIte]
    generalize HaltReason.brokerDayPnl (update.brokerDayPnl.getD 0)
      host.cfg.dailyLossLimit = reason
    have still : (x.haltRisk reason).manager.pos.state = .pendingEntry := pending
    have waits : (x.haltRisk reason).manager.isFlat = false :=
      OrderManager.isFlat_of_pending still
    have flat : (OrderManager.flattenNow host moment.now "broker_day_pnl_limit"
        moment.lastPrice (x.haltRisk reason).manager).isFlat = true :=
      OrderManager.flattenNow_pending _ _ _ still
    split
    next gone => exact absurd (waits.symm.trans gone) Bool.false_ne_true
    next => exact ⟨flat, OrderManager.held_of_flat flat⟩

/-- A position update gives a pending entry up where the day's loss is newly at the
limit, whatever is reconciled after that. -/
theorem handlePosUpdate_pending (update : PositionUpdate)
    (pending : x.manager.pos.state = .pendingEntry) :
    (x.handlePosUpdate host moment update).manager.isFlat =
      (decide (update.accountId = host.cfg.accountId) && x.lossBreach host update) := by
  by_cases ours : update.accountId = host.cfg.accountId
  · obtain ⟨flat, idle⟩ := checkBrokerLoss_pending moment update pending
    simp only [handlePosUpdate, ours, ne_eq, not_true_eq_false, ↓reduceIte, decide_true,
      Bool.true_and]
    generalize x.checkBrokerLoss host moment update = y at flat idle ⊢
    have marked : (y.checkBrokerDrawdown host update).manager.pos = y.manager.pos := by
      simp only [checkBrokerDrawdown]
      split
      · rfl
      · rfl
    generalize y.checkBrokerDrawdown host update = z at marked ⊢
    have reconciled (w : Executor) (same : w.manager.pos = y.manager.pos) :
        (reconcileNet host moment update.netQuantity
          (x.manager.netQtyConsistent host update.netQuantity)
          { w with lastExchNet := some update.netQuantity }).manager.isFlat =
            x.lossBreach host update := by
      rw [← flat]
      refine OrderManager.isFlat_congr (congrArg Position.state ?_)
      refine (reconcileNet_idle moment _ _ ?_).trans same
      rw [book, OrderManager.book, same]
      exact idle
    split
    · exact reconciled _ ((positionSnapshot_pos moment _ _ z).trans marked)
    · exact reconciled z marked
  · simp only [handlePosUpdate, ours, ne_eq, not_false_eq_true, ↓reduceIte, decide_false,
      Bool.false_and]
    exact OrderManager.isFlat_of_pending pending

/-- A snapshot of the working orders is no message about the entry. -/
theorem orderMessage_pending (notice : OpLoop.OrderNotice)
    (pending : x.manager.pos.state = .pendingEntry) :
    (x.orderMessage host moment notice).manager.isFlat =
      (!notice.isSnapshot && notice.dropsEntry x.manager) := by
  simp only [orderMessage]
  split
  next snapshot =>
    rw [snapshot]
    have kept := orderSnapshot_pos host moment notice x
    exact OrderManager.pending_of_state pending (congrArg Position.state kept)
  next live =>
    rw [Bool.eq_false_iff.mpr live]
    exact OpLoop.orderNotice_pending moment.now moment.lastPrice notice pending

/-- A message that is read, or is not. -/
theorem isFlat_read {reads dropped : Bool} {y : Executor} (waits : x.manager.isFlat = false)
    (handled : y.manager.isFlat = dropped) :
    (if reads = true then y else x).manager.isFlat = (reads && dropped) := by
  cases reads with
  | true => exact handled
  | false => exact waits

/-- In a running cycle an event leaves a pending entry flat exactly where it gives it up. -/
theorem perform_pending (event : Event) (live : x.stage = .live)
    (pending : x.manager.pos.state = .pendingEntry) :
    (x.perform host event).manager.isFlat = x.dropsEntry host event := by
  have waits : x.manager.isFlat = false := OrderManager.isFlat_of_pending pending
  simp only [dropsEntry, live, pending, decide_true, Bool.true_and]
  cases event with
  | call call =>
    simp only [perform, live, true_and]
    split
    · exact OrderManager.perform_pending call pending
    next halted =>
      obtain ⟨now, op⟩ := call
      cases op with
      | signal sig price dist =>
        cases sig with
        | buy => exact waits
        | sell => exact waits
        | _ => exact absurd rfl halted
      | _ => exact absurd rfl halted
  | order moment notice =>
    exact (isFlat_read waits (orderMessage_pending moment notice pending)).trans
      (Bool.and_assoc _ _ _).symm
  | exchange moment notice =>
    exact isFlat_read waits (OpLoop.exchangeNotice_pending moment.now notice pending)
  | response moment basketId rpCode =>
    exact isFlat_read waits (OpLoop.newOrderResponse_pending moment.now basketId rpCode pending)
  | position moment update =>
    exact (isFlat_read waits (handlePosUpdate_pending moment update pending)).trans
      (Bool.and_assoc _ _ _).symm
  | recheck moment =>
    have idle : x.book.held = false := by
      rw [book, OrderManager.book, pending]
      rfl
    simp only [perform]
    split
    · exact waits
    next net _ =>
      split
      · have kept : (x.reconcileNet host moment net false).manager.pos = x.manager.pos :=
          reconcileNet_idle moment net false idle
        exact OrderManager.pending_of_state pending (congrArg Position.state kept)
      · exact waits
  | shutdown moment =>
    simp only [perform, live, ↓reduceIte]
    exact OrderManager.flattenNow_pending _ _ _ pending
  | start history =>
    simp only [perform, live, reduceCtorEq, false_and, ↓reduceIte]
    exact waits
  | connected connection =>
    simp only [perform, live, reduceCtorEq, ↓reduceIte]
    exact waits
  | stopped => exact waits
  | earlyReturn | pnlResponse | feedStale | feedResumed | rollover | drained | readError
  | mainLoopExit =>
    simp only [perform, Executor.feedResumed, Executor.rollover, endCycle, halt, onManager]
    split_ifs
    all_goals exact waits

theorem step_pending (event : Event) (live : x.stage = .live)
    (pending : x.manager.pos.state = .pendingEntry) :
    (x.step host event).manager.isFlat = x.dropsEntry host event :=
  perform_pending event (x := { x with sent := [], manager := { x.manager with outbox := [] } })
    live pending

end Executor

end RithmicEngine
