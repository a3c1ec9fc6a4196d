import RithmicEngine.Execution.CycleBooks
import RithmicEngine.Execution.OverExit
import RithmicEngine.Execution.RiskHalts
/-!
# The broker's limits over the days of a cycle

Beside the run of a cycle stands what the broker has reported: the day loss at its
limit, until the next rollover, and the balance at the trailing drawdown, for good.
While either is in force no entry signal may become an order, and an update that
finds a position open at the day limit requests its exit. A breach is acted on once,
behind a latch no rollover clears, and the halt it sets carries a reason that a
later halt replaces: without the first, and without a rollover that takes the halt
for one of the daily limit, the limits bind on every day.
-/
namespace RithmicEngine

def Effect.isOrder : Effect → Bool
  | .order _ _ _ => true
  | _ => false

namespace OrderManager

variable {host : Host}

/-- A live host is asked for the exit of an open position, even where it refuses. -/
theorem initiateExit_asks (live : host.Live) (now : Int) (reason : String) (refPrice : ℚ)
    (s : OrderManager) (trading : s.inTrade = true) :
    exits (initiateExitLocked host now reason refPrice s).outbox ≠ [] := by
  simp only [initiateExitLocked, trading, live.sends, Host.orderCb_of_live live,
    Bool.true_eq_false, Bool.false_eq_true, ↓reduceIte]
  split
  · simp only [emit, exits_append]
    exact List.append_ne_nil_of_right_ne_nil _ (List.cons_ne_nil _ _)
  · rw [revertExit, submitStop_exits]
    simp only [exitRefused, reopen, emit, exits_append]
    exact List.append_ne_nil_of_right_ne_nil _ (List.cons_ne_nil _ _)

/-- Flattening a trade sends an exit. -/
theorem flattenNow_asks (live : host.Live) (now : Int) (reason : String) (price : ℚ)
    (s : OrderManager) (trading : s.inTrade = true) :
    exits (flattenNow host now reason price s).outbox ≠ [] := by
  have asks := initiateExit_asks live now reason price s trading
  simp only [inTrade, Bool.or_eq_true, decide_eq_true_eq] at trading
  rcases trading with long | short
  · simp only [flattenNow, long]
    exact asks
  · simp only [flattenNow, short]
    exact asks

variable (host) in
/-- A halted risk manager turns every entry signal away. -/
theorem onSignal_halted (now : Int) (sig : OrbSignal) (price desiredSlDist : ℚ) (s : OrderManager)
    (entry : sig = .buy ∨ sig = .sell) (halted : s.risk.halted = true) :
    onSignal host now sig price desiredSlDist s = s := by
  have refused : s.risk.canTrade = false := s.risk.canTrade_halted halted
  rcases entry with rfl | rfl
  · simp [onSignal, refused]
  · simp [onSignal, refused]

end OrderManager

namespace Executor

variable (host : Host)

/-! ## What the broker has reported -/

/-- The update is read and is of the process's own account. -/
def hears (x : Executor) (update : PositionUpdate) : Bool :=
  x.reading host && decide (update.accountId = host.cfg.accountId)

/-- The broker's day profit is at or below the daily limit. -/
def atLossLimit (update : PositionUpdate) : Bool :=
  update.brokerDayPnl.any fun pnl => decide (pnl ≤ host.cfg.dailyLossLimit)

/-- The balance is at or below the high-water mark less the cap. -/
def atDrawdownCap (x : Executor) (update : PositionUpdate) : Bool :=
  update.accountBalance.any fun balance =>
    decide (balance ≤ x.hwmAfter host update - host.cfg.trailingDrawdownCap)

/-- The limits that bind. -/
structure InForce where
  loss : Bool := false
  drawdown : Bool := false
  deriving DecidableEq

def InForce.any (limits : InForce) : Bool := limits.loss || limits.drawdown

/-- An update at a limit puts it in force; a rollover ends the day of the loss. No
code of the process clears a halt by hand. -/
def noteLimits (limits : InForce) (x : Executor) (event : Event) (_ : Executor) : InForce :=
  match event with
  | .position _ update =>
    if x.hears host update then
      { loss := limits.loss || atLossLimit host update
        drawdown := limits.drawdown || x.atDrawdownCap host update }
    else limits
  | .rollover date =>
    if x.stage = .live ∧ x.today ≠ some date then { limits with loss := false } else limits
  | _ => limits

/-- A run of the process with the broker's limits noted beside it. -/
def watch : Executor × InForce → Event → Executor × InForce :=
  Runs.observe (step host) (noteLimits host)

/-- The strategy signals an entry. -/
def Event.isEntry : Event → Bool
  | .call call =>
    match call.op with
    | .signal .buy _ _ => true
    | .signal .sell _ _ => true
    | _ => false
  | _ => false

/-- The event is an update at the day limit that finds a position open. -/
def Event.catches (x : Executor) : Event → Bool
  | .position _ update =>
    x.hears host update && atLossLimit host update && x.manager.inTrade
  | _ => false

/-- The limits bind at this event. -/
@[mk_iff]
structure Binds (pair : Executor × InForce) (event : Event) : Prop where
  noEntry : pair.2.any = true → Event.isEntry event = true →
    (step host pair.1 event).manager.outbox.any Effect.isOrder = false
  exits : Event.catches host pair.1 event = true →
    OrderManager.exits (step host pair.1 event).manager.outbox ≠ []

/-- An update at a limit finds trading halted or halts it, and finds a position open
only where it is the first one at the day limit; a rollover under the drawdown finds
a halt whose reason is not the daily limit. -/
def Unbroken (pair : Executor × InForce) : Event → Prop
  | .position _ update => pair.1.hears host update = true →
      ((atLossLimit host update || pair.1.atDrawdownCap host update) = true →
        (pair.1.manager.risk.halted || pair.1.lossBreach host update ||
          pair.1.drawdownBreach host update) = true) ∧
      (atLossLimit host update = true → pair.1.manager.inTrade = true →
        pair.1.lossBreach host update = true)
  | .rollover date => pair.1.stage = .live → pair.1.today ≠ some date → pair.2.drawdown = true →
      (pair.1.manager.risk.haltReason.any HaltReason.isDailyLossLimit) = false
  | _ => True

instance (pair : Executor × InForce) (event : Event) : Decidable (Binds host pair event) :=
  decidable_of_iff' _ (binds_iff ..)

instance (pair : Executor × InForce) (event : Event) : Decidable (Unbroken host pair event) := by
  induction event using Event.casesOn
  all_goals
    dsimp only [Unbroken]
    infer_instance

/-! ## What an update at the day limit sends -/

variable {host : Host}

/-- The exit orders among what the order manager has just sent. -/
def asked (x : Executor) : List OrderRequest := OrderManager.exits x.manager.outbox

variable (moment : Moment) (net : Int)

theorem positionSnapshot_asked (consistent : Bool) (x : Executor) :
    (x.positionSnapshot host moment net consistent).asked = x.asked := by
  simp only [positionSnapshot, snapshotMatches, snapshotGhost, snapshotFlat, unhaltPosition,
    sendUnwind]
  split_ifs
  all_goals rfl

/-- Acting on a mismatch asks nothing of the broker. -/
theorem actOnMismatch_asked (x : Executor) : (x.actOnMismatch host moment net).asked = x.asked := by
  have cancelled (y : Executor) : (y.cancelLastUnwind host).asked = y.asked := by
    simp only [cancelLastUnwind]
    split
    · rfl
    · rfl
  have sent (qty : Int) (isBuy : Bool) (y : Executor) :
      (y.sendUnwind host moment qty isBuy).1.asked = y.asked := by
    simp only [sendUnwind]
    split
    · rfl
    · rfl
  have adopted (y : Executor) : (y.onManager
      (OrderManager.adoptExternalClose host moment.lastPrice "external_close")).asked = y.asked :=
    OrderManager.adoptExternalClose_exits _ _ y.manager
  simp only [actOnMismatch]
  split
  · rw [sent, cancelled]
    split
    · exact adopted _
    · rfl
  · rw [cancelled]
    split
    · exact adopted _
    · rfl

/-- Comparing the net position asks the broker for nothing. -/
theorem reconcileNet_asked (consistent : Bool) (x : Executor) :
    (x.reconcileNet host moment net consistent).asked = x.asked := by
  have confirmed (recon : NetReconciler) :
      (confirmBothFlat net consistent { x with netRecon := recon }).asked = x.asked := by
    simp only [confirmBothFlat]
    split
    · rfl
    · rfl
  have cleared (y : Executor) : (y.clearMismatch net).asked = y.asked := by
    simp only [clearMismatch]
    split_ifs
    all_goals rfl
  simp only [reconcileNet]
  split
  · rw [actOnMismatch_asked]
    exact confirmed _
  · rw [cleared]
    exact confirmed _
  · exact confirmed _

/-- The first update at the day limit asks for the exit of an open position. -/
theorem handlePosUpdate_asks (live : host.Live) (moment : Moment) (update : PositionUpdate)
    (x : Executor) (ours : update.accountId = host.cfg.accountId)
    (breach : x.lossBreach host update = true) (trading : x.manager.inTrade = true) :
    (x.handlePosUpdate host moment update).asked ≠ [] := by
  have open_ : x.manager.isFlat = false := by
    simp only [OrderManager.inTrade, Bool.or_eq_true, decide_eq_true_eq] at trading
    rcases trading with long | short
    · simp [OrderManager.isFlat, long]
    · simp [OrderManager.isFlat, short]
  have flattens : (x.checkBrokerLoss host moment update).asked ≠ [] := by
    simp only [checkBrokerLoss, breach, ↓reduceIte]
    split
    next flat =>
      have same : x.manager.isFlat = true := flat
      exact absurd same (Bool.eq_false_iff.mp open_)
    · exact OrderManager.flattenNow_asks live moment.now _ _ _ trading
  simp only [handlePosUpdate, ours, ne_eq, not_true_eq_false, ↓reduceIte]
  generalize x.checkBrokerLoss host moment update = y at flattens ⊢
  have drawdown : (y.checkBrokerDrawdown host update).asked = y.asked := by
    simp only [checkBrokerDrawdown]
    split
    · rfl
    · rfl
  rw [reconcileNet_asked]
  split
  · refine ne_of_eq_of_ne ?_ flattens
    exact (positionSnapshot_asked moment _ _ _).trans drawdown
  · exact ne_of_eq_of_ne drawdown flattens

/-! ## One event -/

/-- Where a limit is in force the risk manager is halted. -/
def Barred (pair : Executor × InForce) : Prop :=
  pair.2.any = true → pair.1.manager.risk.halted = true

/-- Within a cycle only a rollover can lift a halt of the risk manager. -/
theorem step_halted (event : Event) (x : Executor) (within : WithinCycle x event)
    (rolls : Event.rolls event = false) (halted : x.manager.risk.halted = true) :
    (step host x event).manager.risk.halted = true := by
  cases pops : Event.pops event with
  | false => exact (step_booked event x within pops rolls).halted halted
  | true =>
    cases event with
    | call call =>
      obtain ⟨now, op⟩ := call
      have read : op = .popCompleted := by
        simpa only [Event.pops, decide_eq_true_eq] using pops
      subst read
      simp only [step, perform]
      split
      · simp only [onManager, OrderManager.perform, OrderManager.popTradeCompleted]
        split
        · exact halted
        · exact halted
      · exact halted
    | _ => exact absurd pops Bool.false_ne_true

/-- An update keeps the bar where it is heard by a halted process or newly breaches. -/
theorem barred_position (update : PositionUpdate) (pair : Executor × InForce) (barred : Barred pair)
    (unbroken : Unbroken host pair (.position moment update)) :
    Barred (watch host pair (.position moment update)) := by
  obtain ⟨x, limits⟩ := pair
  intro inForce
  have still (halted : x.manager.risk.halted = true) :
      (step host x (.position moment update)).manager.risk.halted = true :=
    step_halted _ x trivial rfl halted
  simp only [watch, Runs.observe, noteLimits] at inForce ⊢
  split at inForce
  next heard =>
    obtain ⟨halts, _⟩ := unbroken heard
    by_cases before : limits.any = true
    · exact still (barred before)
    · have reached : (atLossLimit host update || x.atDrawdownCap host update) = true := by
        simp only [InForce.any, Bool.or_eq_true, not_or] at before inForce ⊢
        rcases inForce with (old | new) | (old | new)
        · exact absurd old before.1
        · exact .inl new
        · exact absurd old before.2
        · exact .inr new
      have answered := halts reached
      rw [Bool.or_assoc] at answered
      rcases Bool.or_eq_true_iff.mp answered with halted | breach
      · exact still halted
      · simp only [hears, Bool.and_eq_true, decide_eq_true_eq] at heard
        obtain ⟨reads, ours⟩ := heard
        have cleared : Executor.reading host
            { x with sent := [], manager := { x.manager with outbox := [] } } = true := reads
        obtain ⟨risk, _, halts, booked⟩ := handlePosUpdate_booked moment update
          { x with sent := [], manager := { x.manager with outbox := [] } }
          (sends_of_reading reads) ours
        simp only [step, perform, cleared, ↓reduceIte]
        exact booked.halted (halts breach)
  next => exact still (barred inForce)

/-- A rollover keeps the bar where it keeps the halt. -/
theorem barred_rollover (date : String) (pair : Executor × InForce) (barred : Barred pair)
    (unbroken : Unbroken host pair (.rollover date)) :
    Barred (watch host pair (.rollover date)) := by
  obtain ⟨x, limits⟩ := pair
  intro inForce
  simp only [watch, Runs.observe, noteLimits, step, perform] at inForce ⊢
  split at inForce
  next rolls =>
    have drawdown : limits.drawdown = true := by
      simpa only [InForce.any, Bool.false_or] using inForce
    have halted : x.manager.risk.halted = true := barred (by
      simp only [InForce.any, drawdown, Bool.or_true])
    simp only [rolls, ne_eq, not_false_eq_true, and_self, ↓reduceIte]
    exact (RiskManager.resetDaily_halted x.manager.risk halted).mpr
      (unbroken rolls.1 rolls.2 drawdown)
  next kept =>
    simp only [kept, ↓reduceIte]
    exact barred inForce

/-- Within a cycle, and where no event breaks it, a limit in force keeps the risk manager halted. -/
theorem barred_step (pair : Executor × InForce) (event : Event) (barred : Barred pair)
    (within : WithinCycle pair.1 event) (unbroken : Unbroken host pair event) :
    Barred (watch host pair event) := by
  cases event with
  | position moment update => exact barred_position moment update pair barred unbroken
  | rollover date => exact barred_rollover date pair barred unbroken
  | _ => exact fun inForce => step_halted _ pair.1 within rfl (barred inForce)

/-- Under the bar no entry signal becomes an order, and the first update at the day
limit asks for the exit. -/
theorem binds_step (live : host.Live) (pair : Executor × InForce) (event : Event)
    (barred : Barred pair) (unbroken : Unbroken host pair event) : Binds host pair event where
  noEntry := by
    intro inForce entry
    have halted := barred inForce
    cases event with
    | call call =>
      obtain ⟨now, op⟩ := call
      cases op with
      | signal sig price dist =>
        have direction : sig = .buy ∨ sig = .sell := by
          cases sig with
          | buy => exact .inl rfl
          | sell => exact .inr rfl
          | none => exact absurd entry Bool.false_ne_true
          | flattenEod => exact absurd entry Bool.false_ne_true
        simp only [step, perform]
        split
        · have refused := OrderManager.onSignal_halted host now sig price dist
            { pair.1.manager with outbox := [] } direction halted
          simp [onManager, OrderManager.perform, refused]
        · rfl
      | _ => exact absurd entry Bool.false_ne_true
    | _ => exact absurd entry Bool.false_ne_true
  exits := by
    intro catches
    cases event with
    | position moment update =>
      simp only [Event.catches, Bool.and_eq_true] at catches
      obtain ⟨⟨heard, atLimit⟩, trading⟩ := catches
      have breach := (unbroken heard).2 atLimit trading
      simp only [hears, Bool.and_eq_true, decide_eq_true_eq] at heard
      have cleared : Executor.reading host
          { pair.1 with sent := [], manager := { pair.1.manager with outbox := [] } } = true :=
        heard.1
      simp only [step, perform, cleared, ↓reduceIte]
      exact handlePosUpdate_asks live moment update
        { pair.1 with sent := [], manager := { pair.1.manager with outbox := [] } }
        heard.2 breach trading
    | _ => exact absurd catches Bool.false_ne_true

/-! ## Runs -/

/-- Over any number of days the limits bind, where no update at a limit meets a latch
that an earlier day set and no rollover takes the halt of the drawdown for one of the
daily limit. -/
theorem broker_limits_bind (live : host.Live) (x : Executor) (events : List Event)
    (unbroken : Runs.Along (watch host)
      (fun pair event => WithinCycle pair.1 event ∧ Unbroken host pair event) (x, {}) events) :
    Runs.Along (watch host) (Binds host) (x, {}) events := by
  refine Runs.along_of_invariant (watch host) Barred ?_ ?_ (x, {}) events
    (fun inForce => absurd inForce Bool.false_ne_true) unbroken
  · intro pair event barred kept
    exact binds_step live pair event barred kept.2
  · intro pair event barred kept
    exact barred_step pair event barred kept.1 kept.2

/-- A cycle on its first day. -/
def firstMorning : Executor :=
  Runs.run (step .accepting) {} [.start none, .connected { date := "2026-10-01" }]

/-- The fill of the first entry. -/
def firstEntry : OpLoop.OrderNotice where
  userTag := "MNQ-0-0"
  basketId := "entry"
  totalFillSize := 1
  avgFillPrice := 20000

/-- The fill of the exit that a broker limit asked for. -/
def limitExit (price : ℚ) : OpLoop.OrderNotice where
  userTag := "MNQ-0-2"
  basketId := "exit"
  totalFillSize := 1
  avgFillPrice := price

/-- A day profit of the broker at the limit. -/
def dayLoss (net : Int) : PositionUpdate where
  netQuantity := net
  dayPnl := some (-1000)

/-- A trade that the broker's day loss ends, its exit filled at the given price. -/
def endedByLimit (price : ℚ) : List Event :=
  [.call { op := .signal .buy 20000 0 }, .order {} firstEntry, .position {} (dayLoss 1),
    .order {} (limitExit price)]

/-- The exit fills with the process's own day above its limit: the halt outlives the
rollover and the second day's loss finds it. -/
theorem limit_binds_next_day :
    Runs.Along (watch .accepting) (Binds .accepting) (firstMorning, {})
      (endedByLimit 19900 ++ [.rollover "2026-10-02", .position {} (dayLoss 0),
        .call { op := .signal .buy 20000 0 }]) ∧
    (Runs.run (watch .accepting) (firstMorning, {})
      (endedByLimit 19900 ++ [.rollover "2026-10-02", .position {} (dayLoss 0)])).2.any = true :=
  ⟨broker_limits_bind Host.accepting_live firstMorning _ (by decide +kernel),
    by decide +kernel⟩

/-- The exit fills below the process's own limit: the rollover lifts the halt, the
latch ignores the second day's loss, and an entry is sent. -/
theorem second_day_unbound :
    Runs.Along (watch .accepting) (fun pair event => WithinCycle pair.1 event) (firstMorning, {})
      (endedByLimit 19490 ++ [.rollover "2026-10-02", .position {} (dayLoss 0),
        .call { op := .signal .buy 20000 0 }]) ∧
    ¬Runs.Along (watch .accepting) (Binds .accepting) (firstMorning, {})
      (endedByLimit 19490 ++ [.rollover "2026-10-02", .position {} (dayLoss 0),
        .call { op := .signal .buy 20000 0 }]) :=
  ⟨by decide +kernel, by decide +kernel⟩

end Executor

end RithmicEngine
