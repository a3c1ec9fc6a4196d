import RithmicEngine.Execution.LedgerInvariant
/-!
# The order manager refines the ledger

The book of an order manager is read off its members. On a live host, where
orders leave the process and the cancel callback is set, every function of the
order manager does to the book what the ledger allows: the stop and exit helpers
by an equation or a walk, the fill notification by one case of a fill, and every
public call by one step.
-/
namespace RithmicEngine

namespace OrderManager

variable {host : Host}

/-- The book of an order manager. -/
def ledger (s : OrderManager) : Ledger where
  state := s.pos.state
  direction := s.pos.direction
  qty := s.pos.qty
  entry := s.pos.basketIdEntry
  exit := s.pos.basketIdExit
  stop := s.pos.basketIdStop
  stopServer := s.stopServerBasket
  trade := s.tradeSeq
  guards := s.cancelledStops
  guardTrade := s.cancelledStopTrade
  servers := s.serverToClientCancelled
  clientOnly := s.clientOnlyCancels
  orders := s.serverToClientOrders
  lastStop := s.lastStopForUnwind
  lastStopBuy := s.lastStopWasBuy
  unwinds := s.unwindBaskets
  abandoned := s.pendingCancelBasket
  abandonedBuy := s.pendingCancelWasBuy
  ghost := s.ghostHalted
  next := s.seq
  sent := s.outbox

variable (basket client server : String) (s : OrderManager)

/-- The position is open exactly when its book says so. -/
theorem inTrade_iff : s.inTrade = true ↔ s.ledger.Open := by
  simp [inTrade, Ledger.Open, ledger]

theorem not_inTrade_iff : s.inTrade = false ↔ ¬s.ledger.Open := by
  rw [← inTrade_iff, Bool.not_eq_true]

/-! ## Stops -/

/-- A stop is submitted or refused, as the order callback answers. -/
theorem submitStop_move (live : host.Live) (slPrice : ℚ) (s : OrderManager)
    (held : s.ledger.Open) (bare : s.pos.basketIdStop = "") :
    Ledger.Move host s.ledger (submitStopOrderLocked host slPrice s).ledger := by
  cases answer : host.accepts (host.basketId s.seq) with
  | true =>
    have moved : (submitStopOrderLocked host slPrice s).ledger =
        s.ledger.submitStop host (stopRequest host slPrice s) := by
      simp only [submitStopOrderLocked, live.sends, Host.orderCb_of_live live, answer, ledger,
        Ledger.submitStop, Ledger.order, Bool.false_eq_true, ↓reduceIte]
      rfl
    rw [moved]
    exact .submitStop _ held bare ⟨rfl, rfl, rfl⟩ answer
  | false =>
    have moved : (submitStopOrderLocked host slPrice s).ledger =
        s.ledger.refuseStop (stopRequest host slPrice s) := by
      simp [submitStopOrderLocked, live.sends, Host.orderCb_of_live live, answer, ledger,
        Ledger.refuseStop, Ledger.order]
    rw [moved]
    exact .refuseStop _ held bare

/-- Cancelling the stop withdraws it from the book. -/
theorem cancelStop_ledger (live : host.Live) (s : OrderManager) :
    (cancelStopLocked host s).ledger = s.ledger.withdrawStop host := by
  by_cases none : s.pos.basketIdStop = ""
  · simp [cancelStopLocked, none, Ledger.withdrawStop, ledger]
  · simp only [cancelStopLocked, none, live.cancels, false_or, Bool.true_eq_false, ↓reduceIte,
      Ledger.withdrawStop, Ledger.cancelStop, ledger]
    rfl

/-- Moving the stop is a walk: nothing, a first stop, or a cancel and a new stop. -/
theorem updateStop_walk (live : host.Live) (newSl : ℚ) (force : Bool) (s : OrderManager)
    (held : s.ledger.Open) :
    Ledger.Walk host s.ledger (updateStopOrderLocked host newSl force s).ledger := by
  simp only [updateStopOrderLocked, live.sends, Bool.false_eq_true, ↓reduceIte]
  split
  · exact .refl
  · split
    next bare => exact .single (submitStop_move live newSl s held bare)
    next stopped =>
      have cancelled := cancelStop_ledger live { s with stopResubmitPending := true }
      have step : Ledger.Walk host s.ledger
          (cancelStopLocked host { s with stopResubmitPending := true }).ledger := by
        rw [cancelled]
        exact s.ledger.withdrawStop_walk host held
      refine step.tail (submitStop_move live newSl _ ?_ ?_)
      · rw [cancelled]
        exact s.ledger.withdrawStop_open host held
      · have bare := congrArg Ledger.stop cancelled
        exact bare.trans (s.ledger.withdrawStop_bare host)

/-! ## Exits -/

/-- After a refused exit the stop is placed again or refused. -/
theorem revertExit_move (live : host.Live) (s : OrderManager) (bare : s.pos.basketIdStop = "") :
    Ledger.Move host s.ledger.reopen (revertExit host s).ledger :=
  submitStop_move live s.pos.slPrice s.exitRefused (heldState_open s.pos.direction) bare

/-- Starting an exit is a walk: the stop is withdrawn, then the exit is sent, or
it is refused and the stop is placed again. -/
theorem initiateExit_walk (live : host.Live) (now : Int) (reason : String) (refPrice : ℚ)
    (s : OrderManager) (held : s.ledger.Open) :
    Ledger.Walk host s.ledger (initiateExitLocked host now reason refPrice s).ledger := by
  have inTrade : s.inTrade = true := (inTrade_iff s).mpr held
  have cancelled := cancelStop_ledger live
    { s with slBreachTime := 0, stopResubmitPending := false }
  simp only [initiateExitLocked, inTrade, Bool.true_eq_false, live.sends, Bool.false_eq_true,
    Host.orderCb_of_live live, ↓reduceIte]
  generalize cancelStopLocked host
    { s with slBreachTime := 0, stopResubmitPending := false } = c at cancelled ⊢
  have withdrawn : Ledger.Walk host s.ledger c.ledger := by
    rw [cancelled]
    exact s.ledger.withdrawStop_walk host held
  have open_ : c.ledger.Open := by
    rw [cancelled]
    exact s.ledger.withdrawStop_open host held
  have bare : c.pos.basketIdStop = "" :=
    (congrArg Ledger.stop cancelled).trans (s.ledger.withdrawStop_bare host)
  cases answer : host.accepts (host.basketId c.seq) with
  | true => exact withdrawn.tail (.sendExit _ open_ bare ⟨rfl, rfl, rfl⟩ answer)
  | false =>
    simp only [Bool.false_eq_true, ↓reduceIte]
    exact (withdrawn.tail (.refuseExit _ open_ bare)).tail
      (revertExit_move live (emit [_] (c.beginExit host reason)) bare)

/-! ## Price checks -/

theorem submitStop_state (slPrice : ℚ) (s : OrderManager) :
    (submitStopOrderLocked host slPrice s).pos.state = s.pos.state := by
  simp only [submitStopOrderLocked]
  split_ifs
  · rfl
  · split
    · rfl
    · split_ifs
      · rfl
      · rfl

theorem cancelStop_state : (cancelStopLocked host s).pos.state = s.pos.state := by
  simp only [cancelStopLocked]
  split
  · rfl
  · rfl

/-- Moving the stop leaves the position open. -/
theorem updateStop_open (newSl : ℚ) (force : Bool) (s : OrderManager) (held : s.ledger.Open) :
    (updateStopOrderLocked host newSl force s).ledger.Open := by
  have same : (updateStopOrderLocked host newSl force s).pos.state = s.pos.state := by
    simp only [updateStopOrderLocked]
    split_ifs
    · rfl
    · rfl
    · exact submitStop_state newSl s
    · exact (submitStop_state newSl _).trans (cancelStop_state _)
  simpa only [Ledger.Open, ledger, same] using held

/-- The breach check walks, and without an exit it leaves the book as it was. -/
theorem checkBreach_walk (live : host.Live) (now : Int) (currentPrice : ℚ) (s : OrderManager)
    (held : s.ledger.Open) :
    Ledger.Walk host s.ledger (checkBreach host now currentPrice s).1.ledger ∧
      ((checkBreach host now currentPrice s).2 = false →
        (checkBreach host now currentPrice s).1.ledger = s.ledger) := by
  simp only [checkBreach]
  split_ifs
  · exact ⟨initiateExit_walk live now "stop_loss" currentPrice { s with slBreachTime := 0 } held,
      fun kept => absurd kept (by decide)⟩
  · exact ⟨initiateExit_walk live now "stop_loss_resubmit" currentPrice
      { s with stopResubmitPending := false, slBreachTime := 0 } held,
      fun kept => absurd kept (by decide)⟩
  · exact ⟨.refl, fun _ => rfl⟩
  · exact ⟨initiateExit_walk live now "stop_loss_timeout" currentPrice
      { s with slBreachTime := 0 } held, fun kept => absurd kept (by decide)⟩
  · exact ⟨.refl, fun _ => rfl⟩
  · exact ⟨.refl, fun _ => rfl⟩

/-- Tightening the stop walks and leaves the position open. -/
theorem tightenStop_walk (live : host.Live) (level : ℚ) (s : OrderManager)
    (held : s.ledger.Open) :
    Ledger.Walk host s.ledger (tightenStop host level s).1.ledger := by
  simp only [tightenStop]
  split
  · exact updateStop_walk live level false { s with pos := { s.pos with slPrice := level } } held
  · exact .refl

/-- The break-even move walks and leaves the position open. -/
theorem breakEven_walk (live : host.Live) (s : OrderManager) (held : s.ledger.Open) :
    Ledger.Walk host s.ledger (breakEven host s).1.ledger ∧
      (breakEven host s).1.ledger.Open := by
  simp only [breakEven]
  split
  · let raised := { s with pos := { s.pos with
      beTriggered := true, slPrice := breakEvenSl host s, beSlPrice := breakEvenSl host s } }
    split
    · exact ⟨updateStop_walk live (breakEvenSl host s) true raised held,
        updateStop_open (breakEvenSl host s) true raised held⟩
    · exact ⟨.refl, held⟩
  · exact ⟨.refl, held⟩

theorem activateTrail_ledger (host : Host) (now : Int) (s : OrderManager) :
    (activateTrail host now s).ledger = s.ledger := by
  simp only [activateTrail]
  split
  · rfl
  · rfl

theorem trail_walk (live : host.Live) (currentPrice : ℚ) (s : OrderManager)
    (held : s.ledger.Open) : Ledger.Walk host s.ledger (trail host currentPrice s).1.ledger := by
  simp only [trail]
  split
  · exact tightenStop_walk live _ s held
  · exact .refl

/-- The periodic check is a walk. -/
theorem checkTrail_walk (live : host.Live) (now : Int) (currentPrice : ℚ) (s : OrderManager) :
    Ledger.Walk host s.ledger (checkTrailAndStop host now currentPrice s).1.ledger := by
  by_cases held : s.ledger.Open
  · have inTrade : s.inTrade = true := (inTrade_iff s).mpr held
    have breach := checkBreach_walk live now currentPrice (trackExcursion currentPrice s) held
    simp only [checkTrailAndStop, inTrade, Bool.true_eq_false, ↓reduceIte]
    generalize checkBreach host now currentPrice (trackExcursion currentPrice s) = checked
      at breach ⊢
    obtain ⟨c, exited⟩ := checked
    cases exited with
    | true => exact breach.1
    | false =>
      have same : c.ledger = s.ledger := breach.2 rfl
      have open_ : c.ledger.Open := same ▸ held
      simp only [Bool.false_eq_true, ↓reduceIte]
      split
      · rw [← same]
        exact initiateExit_walk live now "take_profit" currentPrice { c with slBreachTime := 0 }
          open_
      · obtain ⟨raised, raisedOpen⟩ := breakEven_walk live c open_
        rw [← same]
        refine raised.trans ?_
        have activated := activateTrail_ledger host now (breakEven host c).1
        rw [← activated]
        exact trail_walk live currentPrice _ (activated ▸ raisedOpen)
  · simp only [checkTrailAndStop, (not_inTrade_iff s).mpr held, ↓reduceIte]
    exact .refl

/-- The check with a strategy's own stop is a walk. -/
theorem checkExternal_walk (live : host.Live) (now : Int) (currentPrice : ℚ)
    (stratStop : Option ℚ) (s : OrderManager) :
    Ledger.Walk host s.ledger (checkExternalStop host now currentPrice stratStop s).1.ledger := by
  by_cases held : s.ledger.Open
  · have inTrade : s.inTrade = true := (inTrade_iff s).mpr held
    have breach := checkBreach_walk live now currentPrice (trackExcursion currentPrice s) held
    simp only [checkExternalStop, inTrade, Bool.true_eq_false, ↓reduceIte]
    generalize checkBreach host now currentPrice (trackExcursion currentPrice s) = checked
      at breach ⊢
    obtain ⟨c, exited⟩ := checked
    cases exited with
    | true => exact breach.1
    | false =>
      have same : c.ledger = s.ledger := breach.2 rfl
      simp only [Bool.false_eq_true, ↓reduceIte]
      cases stratStop with
      | none => exact same ▸ .refl
      | some level =>
        dsimp only
        split
        · rw [← same]
          exact tightenStop_walk live _ c (same ▸ held)
        · exact same ▸ .refl
  · simp only [checkExternalStop, (not_inTrade_iff s).mpr held, ↓reduceIte]
    exact .refl

/-! ## Signals, flattening and watchdogs -/

/-- The cancel of an entry or exit only cancels, by an id that names the order. -/
theorem cancelOrder_outbox (live : host.Live) (client : String) (s : OrderManager)
    (known : client ≠ "") :
    cancelOrderLocked host client s =
      { s with
        unmappedOrderCancels :=
          if s.cancelIdForLocked client = client then insert client s.unmappedOrderCancels
          else s.unmappedOrderCancels
        outbox := s.outbox ++ [Effect.cancel (s.cancelIdForLocked client)] } := by
  simp [cancelOrderLocked, known, live.cancels]

/-- The id a cancel goes out under is the client id or a server id mapped to it. -/
theorem cancelIdFor_names :
    s.cancelIdForLocked client = client ∨
      s.serverToClientOrders.lookup (s.cancelIdForLocked client) = some client := by
  cases found : s.serverToClientOrders.keyOf? client with
  | none =>
    left
    simp [cancelIdForLocked, found]
  | some server =>
    right
    simp only [cancelIdForLocked, found, Option.getD_some]
    exact Table.lookup_of_keyOf? found

/-- Giving up the pending entry is one move. -/
theorem abandonEntry_walk (pending : s.pos.state = .pendingEntry) :
    Ledger.Walk host s.ledger (abandonEntry host s).ledger := by
  simp only [abandonEntry, cancelOrderLocked]
  split
  · have moved : Ledger.Move host s.ledger (s.ledger.abandon []) :=
      .abandon [] pending (fun _ inside => absurd inside List.not_mem_nil)
    simp only [Ledger.abandon, List.append_nil] at moved
    exact .single moved
  · refine .single (.abandon [_] pending ?_)
    intro effect inside
    exact ⟨_, List.mem_singleton.mp inside⟩

/-- Flattening is a walk of the ledger. -/
theorem flattenNow_walk (live : host.Live) (now : Int) (reason : String) (price : ℚ)
    (s : OrderManager) :
    Ledger.Walk host s.ledger (flattenNow host now reason price s).ledger := by
  simp only [flattenNow]
  split
  next => exact .refl
  next pending => exact abandonEntry_walk s pending
  next => exact .refl
  next long => exact initiateExit_walk live now reason price s (Or.inl long)
  next short => exact initiateExit_walk live now reason price s (Or.inr short)

/-- An accepted signal enters, or its order is refused and nothing is held. -/
theorem openEntry_walk (live : host.Live) (now : Int) (sig : OrbSignal)
    (price desiredSlDist : ℚ) (s : OrderManager) (idle : s.pos.state = .flat)
    (clear : s.ghostHalted = false) (sided : sig = .buy ∨ sig = .sell) :
    Ledger.Walk host s.ledger (openEntry host now sig price desiredSlDist s).ledger := by
  simp only [openEntry, sendMarketOrder, live.sends, Host.orderCb_of_live live,
    Bool.false_eq_true, ↓reduceIte]
  cases answer : host.accepts (host.basketId s.seq) with
  | true =>
    simp only [↓reduceIte]
    exact .single (.enter sig s.regime _ idle clear sided ⟨rfl, rfl, rfl⟩ answer)
  | false =>
    simp only [Bool.false_eq_true, ↓reduceIte]
    exact .single (.refuseEntry _ idle)

/-- A signal is a walk of the ledger: a refused one stands still, an entry orders, a flatten
exits. -/
theorem onSignal_walk (live : host.Live) (now : Int) (sig : OrbSignal)
    (price desiredSlDist : ℚ) (s : OrderManager) :
    Ledger.Walk host s.ledger (onSignal host now sig price desiredSlDist s).ledger := by
  have entry (sided : sig = .buy ∨ sig = .sell) :
      Ledger.Walk host s.ledger
        (if s.entryHalted || s.ghostHalted then s
          else if s.risk.canTrade = false then s
          else if s.pos.state ≠ .flat then s
          else openEntry host now sig price desiredSlDist s).ledger := by
    by_cases halted : (s.entryHalted || s.ghostHalted) = true
    · rw [if_pos halted]
    · rw [if_neg halted]
      split
      · exact .refl
      · split
        next => exact .refl
        next idle =>
          simp only [Bool.or_eq_true, not_or, Bool.not_eq_true] at halted
          exact openEntry_walk live now sig price desiredSlDist s (not_not.mp idle) halted.2 sided
  cases sig with
  | none => exact .refl
  | buy => exact entry (Or.inl rfl)
  | sell => exact entry (Or.inr rfl)
  | flattenEod => exact flattenNow_walk live now "eod_flatten" price s

theorem entryTimeout_walk (now timeoutSecs : Int) (s : OrderManager) :
    Ledger.Walk host s.ledger (pendingEntryTimeoutCheck host now timeoutSecs s).1.ledger := by
  simp only [pendingEntryTimeoutCheck]
  split
  next => exact .refl
  next pending =>
    split
    · exact .refl
    · split
      · exact .refl
      · exact abandonEntry_walk s (not_not.mp pending)

/-- Guarding the exit about to be replaced and opening the position is one move. -/
theorem guardExit_ledger (live : host.Live) (s : OrderManager) (known : s.pos.basketIdExit ≠ "") :
    (guardExit host s).reopen.ledger =
      s.ledger.guardExit host (s.cancelIdForLocked s.pos.basketIdExit) := by
  simp only [guardExit, known, cancelOrder_outbox live _ _ known, ↓reduceIte]
  rfl

/-- Retrying an exit guards the old one and starts another. -/
theorem retryStuckExit_walk (live : host.Live) (now : Int) (currentPrice : ℚ)
    (s : OrderManager) (sent : s.pos.state = .pendingExit → s.pos.basketIdExit ≠ "") :
    Ledger.Walk host s.ledger (retryStuckExit host now currentPrice s).ledger := by
  by_cases closing : s.pos.state = .pendingExit
  · have known := sent closing
    have guarded := guardExit_ledger live s known
    simp only [retryStuckExit, closing, ne_eq, not_true_eq_false, live.sends,
      Bool.false_eq_true, ↓reduceIte]
    have first : Ledger.Move host s.ledger (guardExit host s).reopen.ledger := by
      rw [guarded]
      exact .guardExit _ closing known (cancelIdFor_names s.pos.basketIdExit s)
    refine (Relation.ReflTransGen.single first).trans ?_
    exact initiateExit_walk live now "stuck_exit_retry" currentPrice _
      (heldState_open (guardExit host s).pos.direction)
  · simp only [retryStuckExit, closing, ne_eq, not_false_eq_true, ↓reduceIte]
    exact .refl

/-- Sending the cancels again is a walk of the ledger. -/
theorem recancel_walk (live : host.Live) (s : OrderManager) :
    Ledger.Walk host s.ledger (recancelPendingStops host s).ledger := by
  simp only [recancelPendingStops, live.cancels, Bool.true_eq_false, ↓reduceIte]
  refine .single (.recancel _ ?_)
  intro effect inside
  simp only [List.mem_append, List.mem_map] at inside
  obtain ⟨id, _, rfl⟩ | ⟨id, _, rfl⟩ := inside
  · exact ⟨id, rfl⟩
  · exact ⟨id, rfl⟩

/-! ## Fills -/

theorem accumulateFill_ledger (fillPrice : ℚ) (fillQty : Int) (s : OrderManager) :
    (accumulateFill basket fillPrice fillQty s).1.ledger = s.ledger := by
  simp only [accumulateFill]
  split
  · rfl
  · rfl

/-- An unwind in the manager is one in the ledger. -/
theorem sendUnwind_ledger (live : host.Live) (fired : String) (fillPrice : ℚ)
    (unwindIsBuy : Bool) (userTag : String) (register : Bool) (s : OrderManager) :
    (sendUnwind host fired fillPrice unwindIsBuy userTag register s).ledger =
      s.ledger.unwind host fired (unwindRequest host fillPrice unwindIsBuy userTag s)
        (host.accepts (host.basketId s.seq)) register := by
  simp only [sendUnwind, Host.orderCb_of_live live]
  rfl

/-- An entry fill outside the pending entry is unwound or ignored. -/
theorem lateEntryFill_filled (live : host.Live) (basket : String) (fillPrice : ℚ)
    (fillQty : Int) (s : OrderManager) (elsewhere : s.pos.state ≠ .pendingEntry) :
    Ledger.Filled host basket fillQty s.ledger true
      (lateEntryFill host basket fillPrice s).ledger := by
  simp only [lateEntryFill]
  split
  next remembered =>
    rw [sendUnwind_ledger live]
    exact .late _ elsewhere remembered.1 remembered.2 ⟨rfl, rfl, rfl⟩
  next unknown => exact .spurious elsewhere unknown

/-- The fill of the pending entry opens the position and places its stop. -/
theorem entryFill_filled (live : host.Live) (now : Int) (basket : String) (fillPrice : ℚ)
    (fillQty : Int) (s : OrderManager) (pending : s.pos.state = .pendingEntry)
    (bare : s.pos.basketIdStop = "") :
    Ledger.Filled host basket fillQty s.ledger true
      (entryFill host now basket fillPrice fillQty s).ledger := by
  simp only [entryFill]
  split
  next other => exact .mismatch pending other
  next named =>
    split
    next part => exact .partialEntry pending (not_not.mp named) part
    next whole =>
      have held := heldState_open s.pos.direction
      exact .entered pending (not_not.mp named) whole
        (submitStop_move live _ (openedPosition host now fillPrice s) held bare)

/-- A fill with no position behind it meets exactly one of the four checks. -/
theorem flatFill_filled (live : host.Live) (basket : String) (fillPrice : ℚ) (fillQty : Int)
    (s : OrderManager) (idle : s.ledger.state = .flat ∨ s.ledger.state = .pendingEntry) :
    Ledger.Filled host basket fillQty s.ledger false
      (flatFill host basket fillPrice s).ledger := by
  simp only [flatFill]
  split
  next last =>
    rw [sendUnwind_ledger live]
    exact .lastGuard _ idle last.1 last.2 ⟨rfl, rfl, rfl⟩
  next other =>
    split
    next wasBuy guarded =>
      rw [sendUnwind_ledger live]
      exact .guard _ wasBuy idle other guarded ⟨rfl, rfl, rfl⟩
    next missing =>
      have free : basket ∉ s.ledger.guards := (Table.lookup_eq_none _ _).mp missing
      split
      next known => exact .unwound idle other free known
      next unknown =>
        split
        next halted =>
          have step : Ledger.Filled host basket fillQty s.ledger false
              { s.ledger.noteFill basket with ghost := true } :=
            .unknown idle other free unknown
          have same : ({ s.ledger.noteFill basket with ghost := true } : Ledger) =
              (emit [.flatFill basket] s).ledger := by
            simp only [Ledger.noteFill, ledger, emit] at halted ⊢
            rw [halted]
          exact same ▸ step
        next => exact .unknown idle other free unknown

/-- A filled guard is dropped from the ledger too. -/
theorem dropFilledGuard_ledger :
    (dropFilledGuard host basket s).ledger = s.ledger.dropFilled host basket := by
  by_cases guarded : basket ∈ s.cancelledStops
  · have onBook : basket ∈ s.ledger.guards := guarded
    simp only [dropFilledGuard, guarded, ↓reduceIte, Ledger.dropFilled, onBook]
    rfl
  · have offBook : basket ∉ s.ledger.guards := guarded
    simp [dropFilledGuard, guarded, Ledger.dropFilled, offBook]

/-- Settling the stop is the ledger's own operation. -/
theorem settleStop_ledger (live : host.Live) (basket : String) (s : OrderManager) :
    (settleStop host basket s).ledger = s.ledger.settleStop host basket := by
  by_cases none : s.pos.basketIdStop = ""
  · have bare : s.ledger.stop = "" := none
    simp [settleStop, none, Ledger.settleStop, bare]
  · have stopped : s.ledger.stop ≠ "" := none
    by_cases same : s.pos.basketIdStop = basket
    · have named : s.ledger.stop = basket := same
      subst named
      simp only [settleStop, Ledger.settleStop, same, ne_eq, not_true_eq_false, ↓reduceIte,
        stopped]
      rfl
    · have other : s.ledger.stop ≠ basket := same
      simp [settleStop, Ledger.settleStop, none, same, stopped, other, cancelStop_ledger live,
        Ledger.withdrawStop]

/-- The filled order has no guard left once its position is settled. -/
theorem settled_free (host : Host) (basket : String) (l : Ledger) :
    basket ∉ ((l.dropFilled host basket).settleStop host basket).guards := by
  have dropped : basket ∉ (l.dropFilled host basket).guards := by
    by_cases guarded : basket ∈ l.guards
    · simp [Ledger.dropFilled, guarded]
    · simp [Ledger.dropFilled, guarded]
  generalize l.dropFilled host basket = d at dropped ⊢
  simp only [Ledger.settleStop]
  split
  · exact dropped
  · split
    next other =>
      simp only [Ledger.cancelStop, Table.mem_insert, not_or]
      exact ⟨fun same => other same.symm, dropped⟩
    next => exact dropped

theorem dropStaleGuard_free (free : basket ∉ s.cancelledStops) :
    dropStaleGuard host basket s = s := by
  simp [dropStaleGuard, free]

/-- Settling the stop does not look at the state of the position. -/
theorem settleStop_reset (state : PosState) (l : Ledger) :
    (({ l with state := state } : Ledger).settleStop host basket).reset =
      (l.settleStop host basket).reset := by
  simp only [Ledger.settleStop]
  split
  · rfl
  · split
    · rfl
    · rfl

/-- A complete fill of an open position closes it on the book. -/
theorem closeTrade_ledger (live : host.Live) (basket : String) (fillPrice : ℚ)
    (s : OrderManager) :
    (purgeGuards host (finishClose fillPrice (dropStaleGuard host basket
      (settleStop host basket (bookExit host basket fillPrice
        (dropFilledGuard host basket s)))))).ledger = s.ledger.close host basket := by
  have booked : (bookExit host basket fillPrice (dropFilledGuard host basket s)).ledger =
      { s.ledger.dropFilled host basket with state := .pendingExit } := by
    rw [← dropFilledGuard_ledger]
    rfl
  have settled := settleStop_ledger live basket
    (bookExit host basket fillPrice (dropFilledGuard host basket s))
  rw [booked] at settled
  generalize settleStop host basket
    (bookExit host basket fillPrice (dropFilledGuard host basket s)) = c at settled ⊢
  have same : c.ledger.reset =
      ((s.ledger.dropFilled host basket).settleStop host basket).reset := by
    rw [settled]
    exact settleStop_reset basket .pendingExit _
  have free : basket ∉ c.cancelledStops := by
    have guards := congrArg Ledger.guards same
    exact fun inside => settled_free host basket s.ledger (guards ▸ inside)
  rw [dropStaleGuard_free basket c free]
  have closed : (finishClose fillPrice c).ledger = { c.ledger.reset with orders := ∅ } := rfl
  have purged : (purgeGuards host (finishClose fillPrice c)).ledger =
      (finishClose fillPrice c).ledger.purge host := rfl
  rw [purged, closed, same]
  rfl

/-- A fill while a position is open waits or closes it. -/
theorem exitFill_filled (live : host.Live) (basket : String) (fillPrice : ℚ) (fillQty : Int)
    (s : OrderManager) (held : s.ledger.Open ∨ s.ledger.state = .pendingExit) :
    Ledger.Filled host basket fillQty s.ledger false
      (exitFill host basket fillPrice fillQty s).ledger := by
  simp only [exitFill]
  split
  next part => exact .partialExit held part
  next whole =>
    rw [closeTrade_ledger live]
    exact .closed held whole

/-- Every fill notification is one case of a fill. -/
theorem onFill_filled (live : host.Live) (now : Int) (basket : String) (fillPrice : ℚ)
    (fillQty : Int) (isEntryFill : Bool) (s : OrderManager)
    (bare : s.pos.state = .pendingEntry → s.pos.basketIdStop = "") :
    Ledger.Filled host basket fillQty s.ledger isEntryFill
      (onFillNotificationLocked host now basket fillPrice fillQty isEntryFill s).ledger := by
  have same := accumulateFill_ledger basket fillPrice fillQty s
  simp only [onFillNotificationLocked]
  generalize accumulateFill basket fillPrice fillQty s = accumulated at same ⊢
  obtain ⟨c, price⟩ := accumulated
  have state : c.pos.state = s.pos.state := congrArg Ledger.state same
  have stop : c.pos.basketIdStop = s.pos.basketIdStop := congrArg Ledger.stop same
  rw [← same]
  cases isEntryFill with
  | true =>
    simp only [↓reduceIte]
    split
    next elsewhere => exact lateEntryFill_filled live basket price fillQty c elsewhere
    next pending =>
      have pending : c.pos.state = .pendingEntry := not_not.mp pending
      exact entryFill_filled live now basket price fillQty c pending
        (stop.trans (bare (state.symm.trans pending)))
  | false =>
    simp only [Bool.false_eq_true, ↓reduceIte]
    split
    next idle =>
      refine flatFill_filled live basket price fillQty c ?_
      have remaining : c.pos.state = .flat ∨ c.pos.state = .pendingEntry := by
        cases held : c.pos.state with
        | flat => exact Or.inl rfl
        | pendingEntry => exact Or.inr rfl
        | long => exact absurd held idle.2.1
        | short => exact absurd held idle.2.2
        | pendingExit => exact absurd held idle.1
      exact remaining
    next busy =>
      refine exitFill_filled live basket price fillQty c ?_
      by_cases closing : c.pos.state = .pendingExit
      · exact Or.inr closing
      · by_cases long : c.pos.state = .long
        · exact Or.inl (Or.inl long)
        · exact Or.inl (Or.inr (not_not.mp (fun short => busy ⟨closing, long, short⟩)))

/-! ## Notices -/

/-- A rejection is the ledger's step of that name. -/
theorem onOrderRejected_stepped (live : host.Live) (now : Int) (basket : String)
    (s : OrderManager) :
    Ledger.Stepped host s.ledger (.rejected basket) (onOrderRejected host now basket s).ledger := by
  simp only [onOrderRejected]
  split
  next entry => exact .rejectedEntry basket entry.2 entry.1
  next =>
    split
    next exit =>
      refine .rejectedExit basket exit.2 exit.1 ?_
      split
      · exact initiateExit_walk live now "rejected_exit_retry" 0
          { s.reopen with rejectedExitCount := s.rejectedExitCount + 1 }
          (heldState_open s.pos.direction)
      · exact .refl
    next =>
      split
      next stop => exact .rejectedStop basket stop
      next => exact .ignored rfl

theorem onCancelConfirmedByServer_stepped :
    Ledger.Stepped host s.ledger (.cancelConfirmedByServer server)
      (onCancelConfirmedByServerBasket host server s).ledger := by
  simp only [onCancelConfirmedByServerBasket]
  split
  next => exact .ignored rfl
  next client mapped => exact .ackServer server client mapped

/-- A stop is readopted after the stop in its way is cancelled. -/
theorem readoptStop_ledger (live : host.Live) (client server : String) (s : OrderManager) :
    (readoptStop host client server
      (if s.pos.basketIdStop ≠ "" ∧ s.pos.basketIdStop ≠ client then cancelStopLocked host s
        else s)).ledger = (s.ledger.makeRoom host client).readopt host client server := by
  have roomy : (if s.pos.basketIdStop ≠ "" ∧ s.pos.basketIdStop ≠ client
      then cancelStopLocked host s else s).ledger = s.ledger.makeRoom host client := by
    by_cases inTheWay : s.pos.basketIdStop ≠ "" ∧ s.pos.basketIdStop ≠ client
    · have onBook : s.ledger.stop ≠ "" ∧ s.ledger.stop ≠ client := inTheWay
      rw [if_pos inTheWay, cancelStop_ledger live, Ledger.makeRoom, if_pos onBook,
        Ledger.withdrawStop, if_neg onBook.1]
    · have onBook : ¬(s.ledger.stop ≠ "" ∧ s.ledger.stop ≠ client) := inTheWay
      rw [if_neg inTheWay, Ledger.makeRoom, if_neg onBook]
  rw [← roomy]
  rfl

/-- A failed cancel of the manager is the ledger's step of that name. -/
theorem onCancelFailed_stepped (live : host.Live) (id : String) (s : OrderManager) :
    Ledger.Stepped host s.ledger (.cancelFailed id) (onCancelFailed host id s).ledger := by
  simp only [onCancelFailed]
  generalize clientIs : (s.serverToClientCancelled.lookup id).getD id = client
  generalize serverIs : (if (s.serverToClientCancelled.lookup id).isSome then id else "") = server
  split
  next => exact .ignored rfl
  next guarded =>
    split
    next => exact .ignored rfl
    next counts =>
      split
      next => exact .ignored rfl
      next own =>
        by_cases held : s.ledger.Open
        · have inTrade : s.inTrade = true := (inTrade_iff s).mpr held
          have stillIn : ({ s with stopResubmitPending := false } : OrderManager).inTrade = true :=
            inTrade
          rw [stillIn]
          simp only [Bool.true_eq_false, ↓reduceIte]
          have moved := readoptStop_ledger live client server
            { s with stopResubmitPending := false }
          rw [moved]
          refine .readopted id client server held (not_not.mp guarded) ?_ ?_
          · by_contra foreign
            exact own ⟨inTrade, foreign⟩
          · cases found : s.serverToClientCancelled.lookup id with
            | some mapped =>
              rw [found] at clientIs serverIs
              exact Or.inl ⟨clientIs ▸ found, by simpa using serverIs.symm⟩
            | none =>
              rw [found] at clientIs serverIs
              have noServer : server = "" := by simpa using serverIs.symm
              have noValue : s.serverToClientCancelled.hasValue client = false := by
                by_contra has
                exact counts ⟨noServer, by simpa using has⟩
              exact Or.inr ⟨found, by simpa using clientIs.symm, noServer, noValue⟩
        · have idle : ({ s with stopResubmitPending := false } : OrderManager).inTrade = false :=
            (not_inTrade_iff s).mpr held
          rw [idle]
          exact .ignored rfl

theorem quiet_persistServer : Ledger.Quiet (host.persistServerNotice client server) := by
  intro effect inside
  simp only [Host.persistServerNotice] at inside
  split at inside
  · exact Or.inr ⟨client, server, List.mem_singleton.mp inside⟩
  · exact absurd inside List.not_mem_nil

theorem quiet_cancel (id : String) : Ledger.Quiet (host.cancelNotice id) := by
  intro effect inside
  simp only [Host.cancelNotice] at inside
  split at inside
  · exact Or.inl ⟨id, List.mem_singleton.mp inside⟩
  · exact absurd inside List.not_mem_nil

theorem quiet_append {first second : List Effect} (front : Ledger.Quiet first)
    (back : Ledger.Quiet second) : Ledger.Quiet (first ++ second) := by
  intro effect inside
  exact (List.mem_append.mp inside).elim (front effect) (back effect)

/-- Learning the stop's server id is the ledger's step of that name. -/
theorem onStopServerMapped_stepped :
    Ledger.Stepped host s.ledger (.stopServerMapped client server)
      (onStopServerMapped host client server s).ledger := by
  simp only [onStopServerMapped]
  split
  next => exact .ignored rfl
  next given =>
    split
    next stop =>
      split
      · exact .mapStop client server stop.2 (fun empty => given (Or.inl empty))
      · exact .ignored rfl
    next =>
      split
      next => exact .ignored rfl
      next guarded =>
        split
        next => exact .ignored rfl
        next =>
          have moved : Ledger.Stepped host s.ledger (.stopServerMapped client server)
              (s.ledger.mapGuard client server
                (host.persistServerNotice client server ++ host.cancelNotice server)) :=
            .mapGuard client server _ (not_not.mp guarded)
              (quiet_append (quiet_persistServer client server) (quiet_cancel server)) given
          simp only [Ledger.mapGuard, ← List.append_assoc] at moved
          exact moved

/-- Mapping a server id is a step of the ledger: it is ignored, noted, or cancels a guard. -/
theorem mapServerBasket_stepped :
    Ledger.Stepped host s.ledger (.mapServer client server)
      (mapServerBasket host client server s).ledger := by
  simp only [mapServerBasket]
  split
  next => exact .ignored rfl
  next given =>
    split
    next again =>
      by_cases guarded : client ∈ s.cancelledStops
      · simp only [guarded, decide_true, ↓reduceIte]
        exact .mapCancelledGuard client server _ guarded (quiet_cancel server) given
      · simp only [guarded, decide_false, Bool.false_eq_true, ↓reduceIte]
        exact .mapCancelled client server _ (quiet_cancel server) given
    next => exact .mapOrder client server given

/-- So is the adoption of an external close. -/
theorem externalClose_stepped (live : host.Live) (refPrice : ℚ) (reason : String)
    (s : OrderManager) :
    Ledger.Stepped host s.ledger (.externalClose refPrice reason)
      (adoptExternalClose host refPrice reason s).ledger := by
  simp only [adoptExternalClose]
  split
  next => exact .ignored rfl
  next busy =>
    have held : s.ledger.Open ∨ s.ledger.state = .pendingExit := by
      by_cases closing : s.pos.state = .pendingExit
      · exact Or.inr closing
      · by_cases long : s.pos.state = .long
        · exact Or.inl (Or.inl long)
        · exact Or.inl (Or.inr (not_not.mp (fun short => busy ⟨long, short, closing⟩)))
    have closed : ({ (cancelStopLocked host s).ledger.reset with orders := ∅ } : Ledger) =
        s.ledger.closeExternally host := by
      rw [cancelStop_ledger live]
      rfl
    have step : Ledger.Stepped host s.ledger (.externalClose refPrice reason)
        (s.ledger.closeExternally host) := .externalClose refPrice reason held
    rw [← closed] at step
    exact step

/-! ## Calls -/

/-- The book with its outbox emptied, as every step begins. -/
def cleared (s : OrderManager) : Ledger := { s.ledger with sent := [] }

/-- Every call of a well-shaped order manager on a live host is one step of its book,
whatever it sent before. -/
theorem perform_refines (live : host.Live) (c : OrderManager) (call : Call)
    (shaped : c.ledger.Shape) :
    Ledger.Stepped host c.ledger call.op (perform host call c).ledger := by
  obtain ⟨now, op⟩ := call
  cases op with
  | signal sig price dist => exact .own rfl (onSignal_walk live now sig price dist c)
  | fill basket price qty isEntry =>
    exact .filled basket price qty isEntry (onFill_filled live now basket price qty isEntry c
      (fun pending => (shaped.pendingEntry pending).2.2))
  | checkTrail price => exact .own rfl (checkTrail_walk live now price c)
  | checkExternal price stratStop => exact .own rfl (checkExternal_walk live now price stratStop c)
  | flatten reason price => exact .own rfl (flattenNow_walk live now reason price c)
  | retryStuckExit price =>
    exact .own rfl (retryStuckExit_walk live now price c
      (fun closing => (shaped.pendingExit closing).1))
  | entryTimeout secs => exact .own rfl (entryTimeout_walk now secs c)
  | rejected basket => exact onOrderRejected_stepped live now basket c
  | cancelConfirmed basket => exact .ackClient basket
  | cancelConfirmedByServer server => exact onCancelConfirmedByServer_stepped server c
  | cancelFailed id => exact onCancelFailed_stepped live id c
  | stopServerMapped client server => exact onStopServerMapped_stepped client server c
  | mapServer client server => exact mapServerBasket_stepped client server c
  | setStopServer server => exact .setStopServer server
  | externalClose refPrice reason => exact externalClose_stepped live refPrice reason c
  | fillProcessed basket qty =>
    have same : (fillAlreadyProcessed basket qty c).1.ledger = c.ledger := by
      simp only [fillAlreadyProcessed]
      split
      · rfl
      · rfl
    exact .own rfl (same ▸ .refl)
  | recancel => exact .own rfl (recancel_walk live c)
  | clearRecancels => exact .clearLast
  | registerUnwind basket => exact .register basket
  | confirmFlat => exact .confirmFlat
  | seedStop basket wasBuyStop => exact .seedStop basket wasBuyStop
  | seedServer server client => exact .seedServer server client
  | popCompleted =>
    have same : (popTradeCompleted c).1.ledger = c.ledger := by
      simp only [popTradeCompleted]
      split
      · rfl
      · rfl
    exact .own rfl (same ▸ .refl)
  | host risk regime => exact .own rfl .refl

theorem step_refines (live : host.Live) (s : OrderManager) (call : Call)
    (shape : s.ledger.Shape) :
    Ledger.Stepped host s.cleared call.op (step host s call).ledger :=
  perform_refines live { s with outbox := [] } call (shape.congr rfl rfl rfl rfl rfl)

/-- The shape holds after every step. -/
theorem step_shape (live : host.Live) (s : OrderManager) (call : Call)
    (shape : s.ledger.Shape) : (step host s call).ledger.Shape :=
  (step_refines live s call shape).shape (shape.congr rfl rfl rfl rfl rfl)

/-- A newly constructed order manager is well shaped and its later ids are unused. -/
theorem fresh_shape (risk : RiskManager) (seq : Nat) : (fresh risk seq).ledger.Shape :=
  Ledger.shape_of_flat rfl rfl rfl rfl rfl

theorem fresh_fresh (risk : RiskManager) (seq : Nat) :
    (fresh risk seq).ledger.Fresh host := by
  intro n _
  have known := host.basketId_ne_empty n
  exact {
    known := known, exit := known, stop := known, lastStop := known
    guards := AList.notMem_empty _
    entry := fun _ => known
    abandoned := fun _ => known
    unwinds := fun _ => Finset.notMem_empty _ }

end OrderManager

end RithmicEngine
