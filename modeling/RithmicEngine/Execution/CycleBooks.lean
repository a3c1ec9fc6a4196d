import RithmicEngine.Execution.SessionCycle
import RithmicEngine.Execution.TradeBooking
/-!
# The books of a session cycle

What one event of a running cycle does to the books. The broker's limits may
halt the risk manager, and after that at most one trade is opened or closed: the
flatten of a broker limit only requests an exit, and of the reconciler only the
adopted close books. Outside the start of a cycle, a date rollover and the read of
the completed trade nothing else reaches the books.
-/
namespace RithmicEngine

/-- The risk manager after any number of halts. -/
def RiskManager.HaltedFrom (before after : RiskManager) : Prop :=
  after = before ∨ ∃ reason, after = before.halt reason

theorem RiskManager.HaltedFrom.trans {first second third : RiskManager}
    (earlier : first.HaltedFrom second) (later : second.HaltedFrom third) :
    first.HaltedFrom third := by
  rcases later with rfl | ⟨reason, rfl⟩
  · exact earlier
  · rcases earlier with rfl | ⟨other, rfl⟩
    · exact .inr ⟨reason, rfl⟩
    · exact .inr ⟨reason, rfl⟩

theorem RiskManager.HaltedFrom.halted {before after : RiskManager}
    (stopped : before.HaltedFrom after) (halted : before.halted = true) : after.halted = true := by
  rcases stopped with rfl | ⟨reason, rfl⟩
  · exact halted
  · rfl

/-- What one event of a running cycle does to the books. -/
def CycleBooked (before after : Book) : Prop :=
  ∃ risk, before.risk.HaltedFrom risk ∧ Booked { before with risk := risk } after

theorem Booked.inCycle {before after : Book} (booked : Booked before after) :
    CycleBooked before after := ⟨before.risk, .inl rfl, booked⟩

theorem CycleBooked.refl (book : Book) : CycleBooked book book := Booked.same.inCycle

/-- Nothing within a cycle lifts a halt of the risk manager. -/
theorem CycleBooked.halted {before after : Book} (booked : CycleBooked before after)
    (halted : before.risk.halted = true) : after.risk.halted = true := by
  obtain ⟨risk, stopped, rest⟩ := booked
  exact rest.halted (stopped.halted halted)

namespace Executor

variable {host : Host}

def book (x : Executor) : Book := x.manager.book

/-! ## Reconciliation -/

variable (moment : Moment) (net : Int) (consistent : Bool) (update : PositionUpdate) (x : Executor)

theorem sendUnwind_book (qty : Int) (isBuy : Bool) (x : Executor) :
    (x.sendUnwind host moment qty isBuy).1.book = x.book := by
  simp only [sendUnwind]
  split
  · rfl
  · rfl

theorem cancelLastUnwind_book : (x.cancelLastUnwind host).book = x.book := by
  simp only [cancelLastUnwind]
  split
  · rfl
  · rfl

theorem confirmBothFlat_book : (x.confirmBothFlat net consistent).book = x.book := by
  simp only [confirmBothFlat]
  split
  · rfl
  · rfl

theorem clearMismatch_book : (x.clearMismatch net).book = x.book := by
  simp only [clearMismatch]
  split_ifs
  all_goals rfl

/-- Acting on a mismatch closes the position only where its close is adopted. -/
theorem actOnMismatch_booked : Booked x.book (x.actOnMismatch host moment net).book := by
  simp only [actOnMismatch]
  obtain ⟨y, yIs⟩ : ∃ y, y = (if (Notif.planUnwind net x.manager.pos host.cfg.qty).adoptFlat = true
      then ({ x.halt "exchange_net_mismatch" with netHaltActive := true } : Executor).onManager
        (OrderManager.adoptExternalClose host moment.lastPrice "external_close")
      else { x.halt "exchange_net_mismatch" with netHaltActive := true }) := ⟨_, rfl⟩
  rw [← yIs]
  have adopted : Booked x.book y.book := by
    rw [yIs]
    split
    · exact OrderManager.adoptExternalClose_booked _ _ x.manager
    · exact .same
  have cancelled : Booked x.book (y.cancelLastUnwind host).book := by
    rw [cancelLastUnwind_book]
    exact adopted
  split
  · rw [sendUnwind_book]
    exact cancelled
  · exact cancelled

/-- Comparing the net position books at most a close of the trade that is on. -/
theorem reconcileNet_booked : Booked x.book (x.reconcileNet host moment net consistent).book := by
  have confirmed (recon : NetReconciler) :
      (confirmBothFlat net consistent { x with netRecon := recon }).book = x.book :=
    confirmBothFlat_book net consistent _
  simp only [reconcileNet]
  split
  · exact OrderManager.booked_of_eq (confirmed _) (actOnMismatch_booked moment net _)
  · rw [clearMismatch_book]
    exact OrderManager.booked_same (confirmed _)
  · exact OrderManager.booked_same (confirmed _)

/-! ## Position updates -/

/-- A new breach of the day loss halts the risk manager and at most requests an exit. -/
theorem checkBrokerLoss_book (sends : host.cfg.dryRun = false) :
    ∃ risk, x.manager.risk.HaltedFrom risk ∧
      (x.lossBreach host update = true → risk.halted = true) ∧
      (x.checkBrokerLoss host moment update).book = { x.book with risk := risk } := by
  simp only [checkBrokerLoss]
  split
  · refine ⟨_, .inr ⟨.brokerDayPnl (update.brokerDayPnl.getD 0) host.cfg.dailyLossLimit, rfl⟩,
      fun _ => rfl, ?_⟩
    split
    · rfl
    · exact OrderManager.flattenNow_book host _ _ _ _ sends
  next kept => exact ⟨x.manager.risk, .inl rfl, fun breach => absurd breach kept, rfl⟩

variable (host) in
/-- The broker's drawdown halts the risk manager and leaves the rest of the books. -/
theorem checkBrokerDrawdown_book :
    ∃ risk, x.manager.risk.HaltedFrom risk ∧
      (x.drawdownBreach host update = true → risk.halted = true) ∧
      (x.checkBrokerDrawdown host update).book = { x.book with risk := risk } := by
  simp only [checkBrokerDrawdown]
  split
  · exact ⟨_, .inr ⟨.brokerTrailingDrawdown (update.accountBalance.getD 0)
      (x.hwmAfter host update) host.cfg.trailingDrawdownCap, rfl⟩, fun _ => rfl, rfl⟩
  next kept => exact ⟨x.manager.risk, .inl rfl, fun breach => absurd breach kept, rfl⟩

theorem positionSnapshot_book : (x.positionSnapshot host moment net consistent).book = x.book := by
  simp only [positionSnapshot, snapshotMatches, snapshotGhost, snapshotFlat, unhaltPosition,
    sendUnwind]
  split_ifs
  all_goals rfl

/-- An update of the account halts the risk manager where a limit is newly breached,
and afterwards books at most one close. -/
theorem handlePosUpdate_booked (sends : host.cfg.dryRun = false)
    (ours : update.accountId = host.cfg.accountId) :
    ∃ risk, x.manager.risk.HaltedFrom risk ∧
      ((x.lossBreach host update || x.drawdownBreach host update) = true →
        risk.halted = true) ∧
      Booked { x.book with risk := risk } (x.handlePosUpdate host moment update).book := by
  obtain ⟨lossRisk, lossHalted, lossBreach, lossBook⟩ :=
    checkBrokerLoss_book moment update x sends
  have mark := checkBrokerLoss_mark host moment update x
  simp only [handlePosUpdate, ours, ne_eq, not_true_eq_false, ↓reduceIte]
  generalize x.checkBrokerLoss host moment update = y at lossBook mark ⊢
  obtain ⟨risk, halted, drawdownBreach, book⟩ := checkBrokerDrawdown_book host update y
  generalize y.checkBrokerDrawdown host update = z at book ⊢
  have before : y.manager.risk = lossRisk := congrArg Book.risk lossBook
  rw [before] at halted
  rw [mark] at drawdownBreach
  refine ⟨risk, lossHalted.trans halted, ?_, ?_⟩
  · intro breach
    rcases Bool.or_eq_true_iff.mp breach with loss | drawdown
    · exact halted.halted (lossBreach loss)
    · exact drawdownBreach drawdown
  · have checked : z.book = { x.book with risk := risk } := by
      rw [book, lossBook]
    have reconciled (w : Executor) (same : w.book = z.book) :
        Booked { x.book with risk := risk }
          (reconcileNet host moment update.netQuantity
            (x.manager.netQtyConsistent host update.netQuantity)
            { w with lastExchNet := some update.netQuantity }).book := by
      rw [← checked, ← same]
      exact reconcileNet_booked moment _ _ { w with lastExchNet := some update.netQuantity }
    split
    · exact reconciled _ (positionSnapshot_book moment _ _ z)
    · exact reconciled z rfl

/-! ## Events of a running cycle -/

theorem orderMessage_booked (notice : OpLoop.OrderNotice) (x : Executor) :
    Booked x.book (x.orderMessage host moment notice).book := by
  simp only [orderMessage]
  split
  · refine OrderManager.booked_same ?_
    simp only [orderSnapshot]
    split_ifs
    all_goals rfl
  · exact OpLoop.orderNotice_booked moment.now moment.lastPrice notice x.manager

/-- The order plant is read only where orders are sent. -/
theorem sends_of_reading {x : Executor} (reads : x.reading host = true) :
    host.cfg.dryRun = false := by
  simp only [reading, Bool.and_eq_true, Bool.not_eq_true'] at reads
  exact reads.2

/-- The event belongs to a cycle that is running, and its calls never replace the
risk manager. -/
def WithinCycle (x : Executor) : Event → Prop
  | .start _ => False
  | .connected _ => False
  | .call call =>
    match call.op with
    | .host risk _ => risk = x.manager.risk
    | _ => True
  | _ => True

instance (x : Executor) (event : Event) : Decidable (WithinCycle x event) := by
  apply Event.casesOn (motive := fun event => Decidable (WithinCycle x event)) event
  case call =>
    intro call
    apply Op.casesOn (motive := fun op => Decidable (WithinCycle x (.call ⟨call.now, op⟩))) call.op
    all_goals
      intros
      dsimp only [WithinCycle]
      infer_instance
  all_goals
    intros
    dsimp only [WithinCycle]
    infer_instance

/-- The event reads the completed trade. -/
def Event.pops : Event → Bool
  | .call call => decide (call.op = .popCompleted)
  | _ => false

/-- The event is a date rollover. -/
def Event.rolls : Event → Bool
  | .rollover _ => true
  | _ => false

/-- An event that neither pops a trade nor rolls the date over opens a trade, closes the one held,
or halts. -/
theorem perform_booked (event : Event) (x : Executor) (within : WithinCycle x event)
    (pops : Event.pops event = false) (rolls : Event.rolls event = false) :
    CycleBooked x.book (x.perform host event).book := by
  cases event with
  | start history => exact within.elim
  | connected connection => exact within.elim
  | rollover date => exact absurd rolls.symm Bool.false_ne_true
  | order moment notice =>
    simp only [perform]
    split
    · exact (orderMessage_booked moment notice x).inCycle
    · exact .refl x.book
  | exchange moment notice =>
    simp only [perform]
    split
    · exact (OpLoop.exchangeNotice_booked moment.now notice x.manager).inCycle
    · exact .refl x.book
  | response moment basketId rpCode =>
    simp only [perform]
    split
    · exact (OpLoop.newOrderResponse_booked moment.now basketId rpCode x.manager).inCycle
    · exact .refl x.book
  | position moment update =>
    simp only [perform]
    split
    next reads =>
      by_cases ours : update.accountId = host.cfg.accountId
      · obtain ⟨risk, halted, _, booked⟩ :=
          handlePosUpdate_booked moment update x (sends_of_reading reads) ours
        exact ⟨risk, halted, booked⟩
      · simp only [handlePosUpdate, ours, ne_eq, not_false_eq_true, ↓reduceIte]
        exact .refl x.book
    · exact .refl x.book
  | recheck moment =>
    simp only [perform]
    split
    · exact .refl x.book
    · split
      · exact (reconcileNet_booked moment _ false x).inCycle
      · exact .refl x.book
  | call call =>
    simp only [perform]
    split
    · obtain ⟨now, op⟩ := call
      cases op with
      | popCompleted => exact absurd pops.symm Bool.false_ne_true
      | host risk regime =>
        refine Booked.inCycle (OrderManager.booked_same ?_)
        have same : risk = x.manager.risk := within
        simp only [onManager, OrderManager.perform, OrderManager.book, same]
      | _ => exact (OrderManager.perform_booked _ x.manager rfl).inCycle
    · exact .refl x.book
  | shutdown moment =>
    simp only [perform]
    split
    · exact (OrderManager.flattenNow_booked moment.now _ _ x.manager).inCycle
    · exact .refl x.book
  | earlyReturn | pnlResponse | feedStale | feedResumed | drained | readError | mainLoopExit =>
    refine Booked.inCycle (OrderManager.booked_same ?_)
    simp only [perform, Executor.feedResumed]
    split_ifs
    all_goals rfl
  | stopped => exact .refl x.book

/-- An event of a running cycle books like one operation, with the halts of the
broker's limits before it. -/
theorem step_booked (event : Event) (x : Executor) (within : WithinCycle x event)
    (pops : Event.pops event = false) (rolls : Event.rolls event = false) :
    CycleBooked x.book (x.step host event).book :=
  perform_booked event { x with sent := [], manager := { x.manager with outbox := [] } }
    within pops rolls

end Executor

end RithmicEngine
