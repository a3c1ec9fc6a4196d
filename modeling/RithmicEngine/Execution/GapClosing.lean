import RithmicEngine.Execution.CarriedPosition
import RithmicEngine.Execution.OverExit
/-!
# What an unwind of the reconciler leaves

A position update may send one unwind: at once for a snapshot of a position the process
does not hold, else when a mismatch has outlived its grace. Whether that closes the gap
depends on the other orders of the process that are still working: its exits and its
earlier unwinds. They are given here as a book beside the process, with the quantity
that is still unfilled and without the orders whose cancel was requested before.

The order manager's own cancels in an update are of stops and of a pending entry, which
are not in the book.
-/
namespace RithmicEngine

open Notif OrderManager

/-- The change of the net position when so many contracts are bought or sold. -/
def netChange (isBuy : Bool) (qty : Int) : Int := if isBuy then qty else -qty

/-- An exit or unwind order of the process that is still working. -/
structure WorkingOrder where
  client : String
  server : String
  qty : Int
  isBuy : Bool
  deriving DecidableEq, Repr

/-- What the orders of the book still trade, apart from those that are cancelled under
one of the ids. -/
def resting (cancelled : List String) (book : List WorkingOrder) : Int :=
  ((book.filter fun o => decide (o.client ∉ cancelled ∧ o.server ∉ cancelled)).map
    fun o => netChange o.isBuy o.qty).sum

namespace OrderManager

variable (host : Host)

/-- What the exit orders trade that the exchange takes. -/
def exitsTaken (effects : List Effect) : Int :=
  (((exits effects).filter fun request => host.accepts request.basket).map
    fun request => netChange request.isBuy request.qty).sum

/-- The exit order with which a flatten leaves an open position, when it is taken. -/
def flattenTrades (s : OrderManager) : Int :=
  if s.inTrade = true ∧ host.accepts (host.basketId s.seq) = true then
    netChange (decide (s.pos.direction = .sell)) s.pos.qty
  else 0

/-- The position after a flatten: an open one waits for its exit, unless the exit was
refused, and a pending entry is given up. -/
def flattenedState (s : OrderManager) : PosState :=
  match s.pos.state with
  | .flat => .flat
  | .pendingEntry => .flat
  | .pendingExit => .pendingExit
  | .long | .short =>
    if host.orderCb.isSome = true ∧ host.accepts (host.basketId s.seq) = false then
      heldState s.pos.direction
    else .pendingExit

end OrderManager

namespace Executor

variable (host : Host)

/-- The unwinds among what was sent. -/
def unwindsSent (x : Executor) : List UnwindOrder :=
  x.sent.filterMap fun
    | .cancelOrder _ => none
    | .unwind order => some order

/-- The process as a step finds it, with nothing sent. -/
def opened (x : Executor) : Executor :=
  { x with sent := [], manager := { x.manager with outbox := [] } }

/-- What an update is judged by: the unwinds and cancels it sends, what the exits it sends
trade, and what the order manager believes it holds afterwards. -/
structure Outcome where
  unwinds : List UnwindOrder
  cancels : List String
  exits : Int
  held : Int

def outcome (x : Executor) : Outcome where
  unwinds := x.unwindsSent
  cancels := cancelledIn x.sent
  exits := exitsTaken host x.manager.outbox
  held := expectedNet x.manager.pos host.cfg.qty

/-- Every unwind closes exactly the gap: when it and the orders still working have
filled, the exchange holds what the order manager believes it holds. Alone it neither
increases the net position nor takes it across zero. -/
def Outcome.Closes (net : Int) (book : List WorkingOrder) (o : Outcome) : Prop :=
  ∀ order ∈ o.unwinds,
    net + netChange order.isBuy order.qty + resting o.cancels book + o.exits = o.held ∧
      |net + netChange order.isBuy order.qty| ≤ |net| ∧
      0 ≤ net * (net + netChange order.isBuy order.qty)
deriving Decidable

/-- The unwinds that a position update sends close the gap. -/
def ClosesGap (moment : Moment) (update : PositionUpdate) (book : List WorkingOrder)
    (x : Executor) : Prop :=
  ((step host x (.position moment update)).outcome host).Closes update.netQuantity book
deriving Decidable

/-! ## The condition, read off the state before -/

/-- The exit with which the day-loss check flattens in this update. -/
def lossExit (update : PositionUpdate) (x : Executor) : Int :=
  if x.lossBreach host update then flattenTrades host x.manager else 0

/-- The signed position after the day-loss check. -/
def heldAfterLoss (update : PositionUpdate) (x : Executor) : Position :=
  if x.lossBreach host update then
    { x.manager.pos with state := flattenedState host x.manager }
  else x.manager.pos

/-- Unwinds leave the process. -/
def CanUnwind (moment : Moment) : Prop := host.cfg.dryRun = false ∧ moment.written = true
deriving Decidable

/-- The exchange disagrees in an update of the account. -/
def Disagrees (update : PositionUpdate) (x : Executor) : Prop :=
  update.accountId = host.cfg.accountId ∧ x.manager.netQtyConsistent host update.netQuantity = false

/-- A snapshot of a position that is taken for a ghost. -/
def SeesGhost (update : PositionUpdate) (x : Executor) : Prop :=
  update.isSnapshot = true ∧ update.netQuantity ≠ 0 ∧ x.netRecon.acted = false
deriving Decidable

/-- The mismatch has outlived its grace, or the time to act again has come. -/
def ActsNow (moment : Moment) (x : Executor) : Prop :=
  (x.netRecon.observe false moment.nowMs host.cfg.netMismatchGraceMs 15000).2 = .mismatchAct
deriving Decidable

/-- The ids under which a ghost snapshot cancels the orders of the cycle before. -/
def ghostCancels (x : Executor) : List String :=
  if x.deferSnapshotCancels then x.deferredSnapshotCancels else []

/-- The id under which the previous unwind is cancelled. Adopting flat forgets the ids
of the exchange. -/
def unwindCancels (update : PositionUpdate) (x : Executor) : List String :=
  if x.lastUnwindBasket = "" then []
  else if (planUnwind update.netQuantity (x.heldAfterLoss host update) host.cfg.qty).adoptFlat then
    [x.lastUnwindBasket]
  else [x.manager.routableId x.lastUnwindBasket]

/-- What the orders left working add up to: the position, where a ghost is unwound, and
nothing, where a mismatch is. -/
def RestsRight (moment : Moment) (update : PositionUpdate) (book : List WorkingOrder)
    (x : Executor) : Prop :=
  x.reading host = true → moment.written = true → x.Disagrees host update →
    if x.SeesGhost update then
      resting x.ghostCancels book + x.lossExit host update =
        expectedNet (x.heldAfterLoss host update) host.cfg.qty
    else
      x.ActsNow host moment →
      (planUnwind update.netQuantity (x.heldAfterLoss host update) host.cfg.qty).qty > 0 →
        resting (x.unwindCancels host update) book + x.lossExit host update = 0

end Executor

/-! ## What a flatten leaves -/

namespace OrderManager

variable {host : Host}

theorem exitsTaken_congr {effects others : List Effect} (same : exits effects = exits others) :
    exitsTaken host effects = exitsTaken host others := by
  simp only [exitsTaken, same]

/-- What is read of a manager here: the state, the quantity and the direction of its
position, the counter, and the ids of the exchange. -/
def standing (s : OrderManager) : PosState × Int × OrbSignal × Nat × Table String String :=
  (s.pos.state, s.pos.qty, s.pos.direction, s.seq, s.serverToClientOrders)

theorem cancelStop_standing (s : OrderManager) :
    standing (cancelStopLocked host s) = standing s := by
  simp only [cancelStopLocked]
  split
  · rfl
  · rfl

/-- Placing a stop leaves the position and the names of its orders. -/
theorem submitStop_held (slPrice : ℚ) (s : OrderManager) :
    (submitStopOrderLocked host slPrice s).pos.state = s.pos.state ∧
      (submitStopOrderLocked host slPrice s).pos.qty = s.pos.qty ∧
      (submitStopOrderLocked host slPrice s).serverToClientOrders = s.serverToClientOrders := by
  simp only [submitStopOrderLocked]
  split
  · exact ⟨rfl, rfl, rfl⟩
  · split
    · exact ⟨rfl, rfl, rfl⟩
    · split
      · exact ⟨rfl, rfl, rfl⟩
      · exact ⟨rfl, rfl, rfl⟩

/-- The exit of an open position: the position waits for it or, refused, is open again. -/
theorem initiateExit_left (real : host.cfg.dryRun = false) (now : Int) (reason : String)
    (refPrice : ℚ) (s : OrderManager) (trading : s.inTrade = true) :
    let s' := initiateExitLocked host now reason refPrice s
    s'.pos.state =
        (if host.orderCb.isSome = true ∧ host.accepts (host.basketId s.seq) = false then
          heldState s.pos.direction else .pendingExit) ∧
      s'.pos.qty = s.pos.qty ∧ s'.serverToClientOrders = s.serverToClientOrders ∧
      exitsTaken host s'.outbox = exitsTaken host s.outbox + flattenTrades host s := by
  simp only [initiateExitLocked, trading, Bool.true_eq_false, ↓reduceIte, real,
    Bool.false_eq_true]
  have sent : exits (cancelStopLocked host
      { s with slBreachTime := 0, stopResubmitPending := false }).outbox = exits s.outbox :=
    cancelStop_exits _
  have kept := @cancelStop_standing host
    { s with slBreachTime := 0, stopResubmitPending := false }
  generalize cancelStopLocked host
    { s with slBreachTime := 0, stopResubmitPending := false } = c at sent kept ⊢
  simp only [standing, Prod.mk.injEq] at kept
  obtain ⟨-, qty, direction, seq, orders⟩ := kept
  cases callback : host.orderCb with
  | none =>
    have silent : host.accepts (host.basketId s.seq) = false := by
      simp only [Host.accepts, callback]
    simp only [Option.isSome_none, Bool.false_eq_true, false_and, ↓reduceIte, flattenTrades,
      silent, and_false, add_zero]
    exact ⟨rfl, qty, orders, exitsTaken_congr sent⟩
  | some answer =>
    have asked : host.accepts (host.basketId c.seq) = answer (host.basketId c.seq) := by
      simp only [Host.accepts, callback]
    have request : exits (c.outbox ++ [Effect.order .exit (exitRequest host (host.basketId c.seq)
          reason refPrice (beginExit host reason c)) (answer (host.basketId c.seq))]) =
        exits s.outbox ++ [exitRequest host (host.basketId c.seq) reason refPrice
          (beginExit host reason c)] := by
      rw [exits_append, sent]
      rfl
    have traded : exitsTaken host (c.outbox ++ [Effect.order .exit (exitRequest host
          (host.basketId c.seq) reason refPrice (beginExit host reason c))
          (answer (host.basketId c.seq))]) =
        exitsTaken host s.outbox + flattenTrades host s := by
      simp only [exitsTaken, request, List.filter_append, List.map_append, List.sum_append,
        flattenTrades, trading, true_and, ← seq]
      congr 1
      cases taken : host.accepts (host.basketId c.seq) with
      | true =>
        simp only [exitRequest, taken, List.filter_cons_of_pos, List.filter_nil, List.map_cons,
          List.map_nil, List.sum_cons, List.sum_nil, add_zero, ↓reduceIte]
        simp only [beginExit, qty, direction]
      | false =>
        simp [exitRequest, taken]
    simp only [Option.isSome_some, true_and, ← seq, asked, emit]
    cases taken : answer (host.basketId c.seq) with
    | true =>
      simp only [Bool.true_eq_false, ↓reduceIte]
      rw [taken] at traded
      exact ⟨rfl, qty, orders, traded⟩
    | false =>
      simp only [↓reduceIte, Bool.false_eq_true, revertExit]
      rw [taken] at traded
      obtain ⟨state, qty', orders'⟩ := @submitStop_held host
        (beginExit host reason c).pos.slPrice (exitRefused { beginExit host reason c with
          outbox := (beginExit host reason c).outbox ++ [Effect.order .exit (exitRequest host
            (host.basketId c.seq) reason refPrice (beginExit host reason c)) false] })
      refine ⟨state.trans ?_, qty'.trans qty, orders'.trans orders, ?_⟩
      · simp only [exitRefused, reopen, beginExit, direction]
      · rw [exitsTaken_congr (submitStop_exits _ _)]
        exact traded

/-- What a flatten leaves of the position, and the exit it sends. -/
theorem flattenNow_left (real : host.cfg.dryRun = false) (now : Int) (reason : String)
    (price : ℚ) (s : OrderManager) (cfgQty : Int) :
    let s' := flattenNow host now reason price s
    expectedNet s'.pos cfgQty =
        expectedNet { s.pos with state := flattenedState host s } cfgQty ∧
      s'.serverToClientOrders = s.serverToClientOrders ∧
      exitsTaken host s'.outbox = exitsTaken host s.outbox + flattenTrades host s := by
  have idle (still : s.inTrade = false) : flattenTrades host s = 0 := by
    simp [flattenTrades, still]
  cases state : s.pos.state with
  | flat =>
    have still : s.inTrade = false := by simp [inTrade, state]
    simp only [flattenNow, flattenedState, state, idle still, add_zero, and_self, and_true]
    simp only [expectedNet, state]
  | pendingExit =>
    have still : s.inTrade = false := by simp [inTrade, state]
    simp only [flattenNow, flattenedState, state, idle still, add_zero, and_self, and_true]
    simp only [expectedNet, state]
  | pendingEntry =>
    have still : s.inTrade = false := by simp [inTrade, state]
    simp only [flattenNow, flattenedState, state, idle still, add_zero]
    refine ⟨by simp only [abandonEntry, expectedNet], ?_, exitsTaken_congr (abandonEntry_exits s)⟩
    simp only [abandonEntry, cancelOrderLocked]
    split
    · rfl
    · rfl
  | long =>
    have trading : s.inTrade = true := by simp [inTrade, state]
    obtain ⟨after, qty, orders, traded⟩ := initiateExit_left real now reason price s trading
    simp only [flattenNow, flattenedState, state]
    refine ⟨?_, orders, traded⟩
    simp only [expectedNet, after, qty]
  | short =>
    have trading : s.inTrade = true := by simp [inTrade, state]
    obtain ⟨after, qty, orders, traded⟩ := initiateExit_left real now reason price s trading
    simp only [flattenNow, flattenedState, state]
    refine ⟨?_, orders, traded⟩
    simp only [expectedNet, after, qty]

/-- Adopting flat sends no exit and holds nothing. -/
theorem adoptExternalClose_left (refPrice : ℚ) (reason : String) (s : OrderManager)
    (trading : s.inTrade = true) (cfgQty : Int) :
    let s' := adoptExternalClose host refPrice reason s
    expectedNet s'.pos cfgQty = 0 ∧ s'.serverToClientOrders = ∅ ∧
      exitsTaken host s'.outbox = exitsTaken host s.outbox := by
  have opened : ¬(s.pos.state ≠ .long ∧ s.pos.state ≠ .short ∧ s.pos.state ≠ .pendingExit) := by
    rintro ⟨notLong, notShort, -⟩
    simp only [inTrade, notLong, notShort, decide_false, Bool.or_self] at trading
    exact absurd trading Bool.false_ne_true
  simp only [adoptExternalClose, opened, ↓reduceIte]
  exact ⟨rfl, trivial, exitsTaken_congr (cancelStop_exits s)⟩

/-- Flat is adopted only where a position is held. -/
theorem inTrade_of_adoptFlat {net : Int} {s : OrderManager} {cfgQty : Int}
    (adopts : (planUnwind net s.pos cfgQty).adoptFlat = true) : s.inTrade = true := by
  simp only [planUnwind, Bool.and_eq_true, decide_eq_true_eq] at adopts
  have held := adopts.1
  cases state : s.pos.state with
  | long => simp [inTrade, state]
  | short => simp [inTrade, state]
  | flat => simp [expectedNet, state] at held
  | pendingEntry => simp [expectedNet, state] at held
  | pendingExit => simp [expectedNet, state] at held

end OrderManager

namespace Notif

/-- The plan depends on the position only through what it stands for. -/
theorem planUnwind_congr {snap snap' : Position} {cfgQty : Int} (net : Int)
    (same : expectedNet snap cfgQty = expectedNet snap' cfgQty) :
    planUnwind net snap cfgQty = planUnwind net snap' cfgQty := by
  simp only [planUnwind, same]

/-- The plan brings the net position towards zero and not past it. -/
theorem planUnwind_shrinks (net : Int) (snap : Position) (cfgQty : Int) :
    let plan := planUnwind net snap cfgQty
    |net + netChange plan.isBuy plan.qty| ≤ |net| ∧
      0 ≤ net * (net + netChange plan.isBuy plan.qty) := by
  have reaches := planUnwind_reaches net snap cfgQty
  simp only [netChange]
  rw [reaches]
  obtain ⟨expected, isExpected⟩ : ∃ expected, expectedNet snap cfgQty = expected := ⟨_, rfl⟩
  simp only [planUnwind, isExpected]
  by_cases flat : expected = 0
  · simp [flat]
  · cases ours : holdsOurs net expected with
    | false => simp [flat]
    | true =>
      simp only [holdsOurs, Bool.and_eq_true, decide_eq_true_eq, beq_iff_eq] at ours
      obtain ⟨side, within⟩ := ours
      simp only [Bool.not_true, Bool.and_false, Bool.false_eq_true, ↓reduceIte]
      refine ⟨within, ?_⟩
      rcases lt_trichotomy expected 0 with below | zero | above
      · have sold : ¬net > 0 := by
          intro bought
          have : expected > 0 := by simpa [bought] using side.symm
          omega
        exact mul_nonneg_of_nonpos_of_nonpos (by omega) below.le
      · exact absurd zero flat
      · have bought : net > 0 := by simpa [above] using side
        exact mul_nonneg bought.le above.le

end Notif

/-! ## What an update sends -/

namespace Executor

variable {host : Host}

/-- What the reconciler and the snapshot go by. -/
def recollection (x : Executor) : NetReconciler × String × List String × Bool :=
  (x.netRecon, x.lastUnwindBasket, x.deferredSnapshotCancels, x.deferSnapshotCancels)

/-- The drawdown check sends nothing and leaves the position alone. -/
theorem checkBrokerDrawdown_outcome (update : PositionUpdate) (x : Executor) :
    let y := x.checkBrokerDrawdown host update
    y.outcome host = x.outcome host ∧ y.recollection = x.recollection ∧
      y.manager.serverToClientOrders = x.manager.serverToClientOrders := by
  simp only [checkBrokerDrawdown]
  split
  · exact ⟨rfl, rfl, rfl⟩
  · exact ⟨rfl, rfl, rfl⟩

/-- Of the two limits of an update only the day's loss flattens. -/
theorem checked_outcome (real : host.cfg.dryRun = false) (moment : Moment)
    (update : PositionUpdate) (x : Executor) :
    let y := (x.opened.checkBrokerLoss host moment update).checkBrokerDrawdown host update
    y.outcome host =
        { unwinds := []
          cancels := []
          exits := x.lossExit host update
          held := expectedNet (x.heldAfterLoss host update) host.cfg.qty } ∧
      y.recollection = x.recollection ∧
      y.manager.serverToClientOrders = x.manager.serverToClientOrders := by
  obtain ⟨same, recalled, orders⟩ :=
    @checkBrokerDrawdown_outcome host update (x.opened.checkBrokerLoss host moment update)
  simp only [same, recalled, orders]
  have breach : x.opened.lossBreach host update = x.lossBreach host update := rfl
  simp only [checkBrokerLoss, breach, lossExit, heldAfterLoss]
  cases x.lossBreach host update with
  | false => exact ⟨rfl, rfl, rfl⟩
  | true =>
    simp only [↓reduceIte]
    split
    next flat =>
      have state : x.manager.pos.state = .flat := of_decide_eq_true flat
      have still : flattenTrades host x.manager = 0 := by simp [flattenTrades, inTrade, state]
      have unmoved : flattenedState host x.manager = x.manager.pos.state := by
        simp [flattenedState, state]
      rw [still, unmoved]
      exact ⟨rfl, rfl, rfl⟩
    next =>
      obtain ⟨held, orders, exits⟩ := flattenNow_left real moment.now "broker_day_pnl_limit"
        moment.lastPrice { x.manager with
          outbox := []
          risk := x.manager.risk.halt
            (.brokerDayPnl (update.brokerDayPnl.getD 0) host.cfg.dailyLossLimit) } host.cfg.qty
      refine ⟨?_, rfl, orders⟩
      simp only [outcome, Outcome.mk.injEq]
      refine ⟨rfl, rfl, ?_, held⟩
      exact exits.trans (zero_add _)

/-! ### The ghost snapshot -/

/-- An unwind that is sent is the last thing that is. -/
theorem sendUnwind_outcome (moment : Moment) (qty : Int) (isBuy : Bool) (x : Executor) :
    (x.sendUnwind host moment qty isBuy).1.outcome host =
      { x.outcome host with
        unwinds := x.unwindsSent ++
          if qty > 0 ∧ CanUnwind host moment then
            [unwindOrder host moment qty isBuy] else [] } := by
  simp only [sendUnwind]
  split
  next barred =>
    have none_sent : ¬(qty > 0 ∧ CanUnwind host moment) := by
      rintro ⟨some, real, written⟩
      rcases barred with zero | dry | lost
      · omega
      · rw [real] at dry
        exact absurd dry Bool.false_ne_true
      · rw [written] at lost
        exact absurd lost.symm Bool.false_ne_true
    rw [if_neg none_sent, List.append_nil]
    rfl
  next free =>
    obtain ⟨some, real, written⟩ : ¬qty ≤ 0 ∧ ¬host.cfg.dryRun = true ∧
      ¬moment.written = false := by
      simpa only [not_or] using free
    have sent : qty > 0 ∧ CanUnwind host moment :=
      ⟨by omega, Bool.not_eq_true _ ▸ real, Bool.not_eq_false _ ▸ written⟩
    rw [if_pos sent]
    simp only [outcome, unwindsSent, cancelledIn, List.filterMap_append, Outcome.mk.injEq]
    exact ⟨rfl, List.append_nil _, rfl, rfl⟩

/-- A mismatch that is not acted on sends nothing. -/
theorem reconcileNet_waits {moment : Moment} {net : Int} {x : Executor}
    (waits : (x.netRecon.observe false moment.nowMs host.cfg.netMismatchGraceMs 15000).2 =
      .mismatchWait) :
    (x.reconcileNet host moment net false).outcome host = x.outcome host := by
  simp only [reconcileNet, waits, confirmBothFlat, Bool.false_eq_true, false_and, and_false,
    ↓reduceIte]
  rfl

variable {x : Executor} (moment : Moment)

/-- Agreement sends nothing. -/
theorem reconcileNet_agrees (net : Int) (x : Executor) :
    (x.reconcileNet host moment net true).outcome host = x.outcome host := by
  simp only [reconcileNet, NetReconciler.observe, ↓reduceIte, confirmBothFlat, clearMismatch]
  split_ifs
  all_goals rfl

/-- The deferred orders are cancelled before a ghost is unwound. -/
theorem ghostCancels_outcome (x : Executor) :
    outcome host (if x.deferSnapshotCancels then
        { x.cancelDeferred with deferSnapshotCancels := false } else x) =
      { x.outcome host with cancels := cancelledIn x.sent ++ x.ghostCancels } := by
  simp only [ghostCancels]
  split
  · simp only [outcome, cancelDeferred, unwindsSent, cancelledIn, List.filterMap_append,
      List.filterMap_map, Outcome.mk.injEq, and_true]
    refine ⟨?_, ?_⟩
    · exact (congrArg _ (List.filterMap_eq_nil_iff.mpr fun _ _ => rfl)).trans (List.append_nil _)
    · exact congrArg _ (List.filterMap_some)
  · simp only [List.append_nil]
    rfl

/-- A ghost is unwound in full, beside the deferred orders of the cycle before, and the
reconciler is armed. -/
theorem snapshotGhost_outcome (moment : Moment) (net : Int) (some : net ≠ 0) (x : Executor) :
    let y := x.snapshotGhost host moment net
    y.outcome host =
        { x.outcome host with
          unwinds := x.unwindsSent ++
            if CanUnwind host moment then
              [unwindOrder host moment |net| (!decide (net > 0))] else []
          cancels := cancelledIn x.sent ++ x.ghostCancels } ∧
      (y.netRecon.observe false moment.nowMs host.cfg.netMismatchGraceMs 15000).2 =
        .mismatchWait := by
  have cancelled := @ghostCancels_outcome host x
  simp only [snapshotGhost]
  generalize (if x.deferSnapshotCancels then
    { x.cancelDeferred with deferSnapshotCancels := false } else x) = c at cancelled ⊢
  have sent := @sendUnwind_outcome host moment |net| (!decide (net > 0)) c
  have positive : |net| > 0 := abs_pos.mpr some
  simp only [positive, true_and] at sent
  have unwinds : c.unwindsSent = x.unwindsSent := congrArg Outcome.unwinds cancelled
  rw [cancelled, unwinds] at sent
  generalize c.sendUnwind host moment |net| (!decide (net > 0)) = unwound at sent ⊢
  have waits : (NetReconciler.observe false moment.nowMs host.cfg.netMismatchGraceMs 15000
      { mismatchSinceMs := moment.nowMs, acted := true, actedMs := moment.nowMs }).2 =
      .mismatchWait := by
    simp [NetReconciler.observe]
  split
  · exact ⟨sent, waits⟩
  · exact ⟨sent, waits⟩

/-! ### Acting on a mismatch -/

/-- The ids under which the previous unwind is cancelled, while a manager knows them. -/
theorem cancelLastUnwind_outcome (real : host.cfg.dryRun = false) (x : Executor) :
    (x.cancelLastUnwind host).outcome host =
      { x.outcome host with
        cancels := cancelledIn x.sent ++
          if x.lastUnwindBasket = "" then [] else [x.manager.routableId x.lastUnwindBasket] } := by
  simp only [cancelLastUnwind]
  split
  · simp only [List.append_nil]
    rfl
  · simp only [real, Bool.false_eq_true, ↓reduceIte, outcome, unwindsSent, cancelledIn,
      List.filterMap_append, Outcome.mk.injEq, and_true]
    exact ⟨List.append_nil _, rfl⟩

/-- The plan is sent, and flat is adopted where the plan says so. -/
def planned (host : Host) (moment : Moment) (net : Int) (x : Executor) : Outcome :=
  let plan := planUnwind net x.manager.pos host.cfg.qty
  { unwinds := x.unwindsSent ++
      if plan.qty > 0 ∧ CanUnwind host moment then
        [unwindOrder host moment plan.qty plan.isBuy] else []
    cancels := cancelledIn x.sent ++
      if x.lastUnwindBasket = "" then []
      else if plan.adoptFlat then [x.lastUnwindBasket]
      else [x.manager.routableId x.lastUnwindBasket]
    exits := exitsTaken host x.manager.outbox
    held := if plan.adoptFlat then 0 else expectedNet x.manager.pos host.cfg.qty }

/-- Acting on a mismatch sends the plan. -/
theorem actOnMismatch_outcome (real : host.cfg.dryRun = false) (moment : Moment) (net : Int)
    (x : Executor) : (x.actOnMismatch host moment net).outcome host =
      x.planned host moment net := by
  simp only [actOnMismatch, planned]
  obtain ⟨plan, isPlan⟩ : ∃ plan, plan = planUnwind net x.manager.pos host.cfg.qty := ⟨_, rfl⟩
  simp only [← isPlan]
  obtain ⟨y, isY⟩ : ∃ y, y = (if plan.adoptFlat = true then
      onManager (adoptExternalClose host moment.lastPrice "external_close")
        { x.halt "exchange_net_mismatch" with netHaltActive := true }
      else { x.halt "exchange_net_mismatch" with netHaltActive := true }) := ⟨_, rfl⟩
  rw [← isY]
  have adopted : y.unwindsSent = x.unwindsSent ∧ cancelledIn y.sent = cancelledIn x.sent ∧
      y.lastUnwindBasket = x.lastUnwindBasket ∧
      exitsTaken host y.manager.outbox = exitsTaken host x.manager.outbox ∧
      expectedNet y.manager.pos host.cfg.qty =
        (if plan.adoptFlat then 0 else expectedNet x.manager.pos host.cfg.qty) ∧
      y.manager.routableId x.lastUnwindBasket =
        if plan.adoptFlat then x.lastUnwindBasket else x.manager.routableId x.lastUnwindBasket := by
    rw [isY]
    split
    next adopts =>
      have trading := inTrade_of_adoptFlat (isPlan ▸ adopts)
      obtain ⟨held, orders, exits⟩ := @adoptExternalClose_left host moment.lastPrice
        "external_close" x.manager trading host.cfg.qty
      refine ⟨rfl, rfl, rfl, exits, held, ?_⟩
      simp only [routableId, cancelIdForLocked, onManager, halt, orders]
      rfl
    next => exact ⟨rfl, rfl, rfl, rfl, rfl, rfl⟩
  obtain ⟨unwinds, cancels, last, exits, held, route⟩ := adopted
  have cancelled := @cancelLastUnwind_outcome host real y
  simp only [last, route, cancels] at cancelled
  have before : y.outcome host =
      { unwinds := x.unwindsSent
        cancels := cancelledIn x.sent
        exits := exitsTaken host x.manager.outbox
        held := if plan.adoptFlat then 0 else expectedNet x.manager.pos host.cfg.qty } := by
    simp only [outcome, unwinds, cancels, exits, held]
  rw [before] at cancelled
  generalize y.cancelLastUnwind host = c at cancelled ⊢
  have named : (if x.lastUnwindBasket = "" then []
      else [if plan.adoptFlat then x.lastUnwindBasket else x.manager.routableId
        x.lastUnwindBasket]) =
      if x.lastUnwindBasket = "" then []
      else if plan.adoptFlat then [x.lastUnwindBasket]
      else [x.manager.routableId x.lastUnwindBasket] := by
    cases plan.adoptFlat with
    | true => rfl
    | false => rfl
  rw [named] at cancelled
  split
  next some =>
    have sent := @sendUnwind_outcome host moment plan.qty plan.isBuy c
    rw [cancelled, show c.unwindsSent = x.unwindsSent from congrArg Outcome.unwinds cancelled]
      at sent
    exact sent
  next nothing =>
    simp only [nothing, false_and, ↓reduceIte, List.append_nil]
    exact cancelled

/-- A mismatch whose time has come is acted on. -/
theorem reconcileNet_acts (real : host.cfg.dryRun = false) {moment : Moment} {net : Int}
    {x : Executor}
    (acts : (x.netRecon.observe false moment.nowMs host.cfg.netMismatchGraceMs 15000).2 =
      .mismatchAct) :
    (x.reconcileNet host moment net false).outcome host = x.planned host moment net := by
  simp only [reconcileNet, acts, confirmBothFlat, Bool.false_eq_true, false_and, and_false,
    ↓reduceIte]
  exact actOnMismatch_outcome real moment net _

/-! ### The whole update -/

/-- A flat snapshot cancels the deferred orders and unwinds nothing. -/
theorem snapshotFlat_outcome (x : Executor) :
    x.snapshotFlat.unwindsSent = x.unwindsSent ∧ x.snapshotFlat.netRecon = x.netRecon := by
  have sent : x.snapshotFlat.sent = x.sent ++ x.deferredSnapshotCancels.map .cancelOrder ∧
      x.snapshotFlat.netRecon = x.netRecon := by
    simp only [snapshotFlat, unhaltPosition]
    split
    · exact ⟨rfl, rfl⟩
    · exact ⟨rfl, rfl⟩
  refine ⟨?_, sent.2⟩
  simp only [unwindsSent, sent.1, List.filterMap_append, List.filterMap_map]
  exact (congrArg _ (List.filterMap_eq_nil_iff.mpr fun _ _ => rfl)).trans (List.append_nil _)

/-- Where the exchange agrees, nothing is unwound. -/
theorem agreed_unwinds (update : PositionUpdate) (account : update.accountId = host.cfg.accountId)
    (real : host.cfg.dryRun = false)
    (agrees : x.manager.netQtyConsistent host update.netQuantity = true) :
    (x.opened.handlePosUpdate host moment update).unwindsSent = [] := by
  obtain ⟨checked, -, -⟩ := checked_outcome real moment update x
  have consistent : x.opened.manager.netQtyConsistent host update.netQuantity = true := agrees
  simp only [handlePosUpdate, account, ne_eq, not_true_eq_false, ↓reduceIte, consistent]
  generalize (x.opened.checkBrokerLoss host moment update).checkBrokerDrawdown host update = c
    at checked ⊢
  have silent : c.unwindsSent = [] := congrArg Outcome.unwinds checked
  refine (congrArg Outcome.unwinds (reconcileNet_agrees moment update.netQuantity _)).trans ?_
  split
  · simp only [positionSnapshot, and_true]
    split
    · simp only [snapshotMatches, unhaltPosition]
      split_ifs
      all_goals exact silent
    · next flat =>
      have zero : update.netQuantity = 0 := not_not.mp flat
      simp only [zero, ne_eq, not_true_eq_false, false_and, ↓reduceIte]
      exact (snapshotFlat_outcome c).1.trans silent
  · exact silent

/-- Nothing is unwound of a net position of zero. -/
theorem planUnwind_zero (snap : Position) (cfgQty : Int) : (planUnwind 0 snap cfgQty).qty = 0 := by
  by_cases flat : expectedNet snap cfgQty = 0
  · simp [planUnwind, flat]
  · have other : holdsOurs 0 (expectedNet snap cfgQty) = false := by
      simp [holdsOurs, flat]
    simp [planUnwind, flat, other]

/-- Where the exchange disagrees, a ghost is unwound at once. -/
theorem ghost_outcome (update : PositionUpdate) (account : update.accountId = host.cfg.accountId)
    (real : host.cfg.dryRun = false)
    (disagrees : x.manager.netQtyConsistent host update.netQuantity = false)
    (ghost : x.SeesGhost update) :
    (x.opened.handlePosUpdate host moment update).outcome host =
      { unwinds :=
          if CanUnwind host moment then
            [unwindOrder host moment |update.netQuantity| (!decide (update.netQuantity > 0))]
          else []
        cancels := x.ghostCancels
        exits := x.lossExit host update
        held := expectedNet (x.heldAfterLoss host update) host.cfg.qty } := by
  obtain ⟨snapshot, some, unacted⟩ := ghost
  obtain ⟨checked, recalled, -⟩ := checked_outcome real moment update x
  have inconsistent : x.opened.manager.netQtyConsistent host update.netQuantity = false := disagrees
  simp only [handlePosUpdate, account, ne_eq, not_true_eq_false, ↓reduceIte, inconsistent, snapshot]
  generalize (x.opened.checkBrokerLoss host moment update).checkBrokerDrawdown host update = c
    at checked recalled ⊢
  simp only [recollection, Prod.mk.injEq] at recalled
  obtain ⟨recon, -, deferred, defers⟩ := recalled
  have fresh : c.netRecon.acted = false := by rw [recon]; exact unacted
  obtain ⟨sent, waits⟩ := @snapshotGhost_outcome host moment update.netQuantity some c
  simp only [positionSnapshot, some, ne_eq, not_false_eq_true, Bool.false_eq_true, and_false,
    ↓reduceIte, fresh, and_self]
  have armed := @reconcileNet_waits host moment update.netQuantity
    { c.snapshotGhost host moment update.netQuantity with
      lastExchNet := Option.some update.netQuantity } waits
  refine armed.trans (sent.trans ?_)
  have unwinds : c.unwindsSent = [] := congrArg Outcome.unwinds checked
  have cancels : cancelledIn c.sent = [] := congrArg Outcome.cancels checked
  have ids : c.ghostCancels = x.ghostCancels := by simp only [ghostCancels, deferred, defers]
  rw [checked, unwinds, cancels, ids]
  rfl

/-- Where the exchange disagrees and no ghost is seen, the mismatch is acted on when its
time has come. -/
theorem mismatch_outcome (moment : Moment) (update : PositionUpdate)
    (account : update.accountId = host.cfg.accountId) (real : host.cfg.dryRun = false)
    (disagrees : x.manager.netQtyConsistent host update.netQuantity = false)
    (noGhost : ¬x.SeesGhost update) :
    let plan := planUnwind update.netQuantity (x.heldAfterLoss host update) host.cfg.qty
    if x.ActsNow host moment ∧ plan.qty > 0 then
      (x.opened.handlePosUpdate host moment update).outcome host =
        { unwinds :=
            if CanUnwind host moment then [unwindOrder host moment plan.qty plan.isBuy] else []
          cancels := x.unwindCancels host update
          exits := x.lossExit host update
          held := if plan.adoptFlat then 0
            else expectedNet (x.heldAfterLoss host update) host.cfg.qty }
    else (x.opened.handlePosUpdate host moment update).unwindsSent = [] := by
  intro plan
  obtain ⟨checked, recalled, orders⟩ := checked_outcome real moment update x
  have inconsistent : x.opened.manager.netQtyConsistent host update.netQuantity = false := disagrees
  simp only [handlePosUpdate, account, ne_eq, not_true_eq_false, ↓reduceIte, inconsistent]
  generalize (x.opened.checkBrokerLoss host moment update).checkBrokerDrawdown host update = c
    at checked recalled orders ⊢
  simp only [recollection, Prod.mk.injEq] at recalled
  obtain ⟨recon, last, -, -⟩ := recalled
  obtain ⟨d, isD⟩ : ∃ d, d = { (if update.isSnapshot = true then
      c.positionSnapshot host moment update.netQuantity false else c) with
      lastExchNet := some update.netQuantity } := ⟨_, rfl⟩
  -- Without a ghost only a flat snapshot does anything before the reconciler.
  have quiet : d.unwindsSent = [] ∧ d.netRecon = x.netRecon ∧
      (update.netQuantity ≠ 0 → d = { c with lastExchNet := some update.netQuantity }) := by
    have silent : c.unwindsSent = [] := congrArg Outcome.unwinds checked
    rw [isD]
    split
    next snapshot =>
      by_cases flat : update.netQuantity = 0
      · obtain ⟨unwinds, same⟩ := snapshotFlat_outcome c
        simp only [positionSnapshot, flat, ne_eq, not_true_eq_false, false_and, ↓reduceIte,
          false_implies, and_true]
        exact ⟨unwinds.trans silent, same.trans recon⟩
      · have acted : c.netRecon.acted = true := by
          rw [recon]
          by_contra unacted
          exact noGhost ⟨snapshot, flat, Bool.not_eq_true _ ▸ unacted⟩
        simp only [positionSnapshot, flat, ne_eq, not_false_eq_true, Bool.false_eq_true, and_false,
          ↓reduceIte, acted, Bool.true_eq_false]
        exact ⟨silent, recon, fun _ => trivial⟩
    next => exact ⟨silent, recon, fun _ => rfl⟩
  rw [← isD]
  clear isD
  obtain ⟨silent, recon', same⟩ := quiet
  cases verdict : (x.netRecon.observe false moment.nowMs host.cfg.netMismatchGraceMs 15000).2 with
  | ok => exact absurd ((NetReconciler.observe_ok _ _ _ _ _).mp verdict) Bool.false_ne_true
  | mismatchWait =>
    have later : ¬(x.ActsNow host moment ∧ plan.qty > 0) := by
      rintro ⟨acts, -⟩
      exact absurd (verdict.symm.trans acts) (by decide)
    rw [if_neg later]
    rw [← recon'] at verdict
    exact (congrArg Outcome.unwinds (reconcileNet_waits verdict)).trans silent
  | mismatchAct =>
    have acts : x.ActsNow host moment := verdict
    rw [← recon'] at verdict
    simp only [acts, true_and]
    have result := @reconcileNet_acts host real moment update.netQuantity _ verdict
    by_cases flat : update.netQuantity = 0
    · have nothing : plan.qty = 0 := by
        simp only [plan, flat]
        exact planUnwind_zero _ _
      simp only [nothing, gt_iff_lt, lt_irrefl, ↓reduceIte]
      refine (congrArg Outcome.unwinds result).trans ?_
      simp only [planned, flat, planUnwind_zero, gt_iff_lt, lt_irrefl, false_and, ↓reduceIte,
        List.append_nil]
      exact silent
    · have kept := same flat
      subst kept
      have held : expectedNet c.manager.pos host.cfg.qty =
          expectedNet (x.heldAfterLoss host update) host.cfg.qty := congrArg Outcome.held checked
      have samePlan : planUnwind update.netQuantity c.manager.pos host.cfg.qty = plan :=
        planUnwind_congr update.netQuantity held
      have exits : exitsTaken host c.manager.outbox = x.lossExit host update :=
        congrArg Outcome.exits checked
      have cancels : cancelledIn c.sent = [] := congrArg Outcome.cancels checked
      have routes : c.manager.routableId x.lastUnwindBasket =
          x.manager.routableId x.lastUnwindBasket := by
        simp only [routableId, cancelIdForLocked, orders]
      have silent : c.unwindsSent = [] := silent
      have isPlanned : planned host moment update.netQuantity
            { c with lastExchNet := Option.some update.netQuantity } =
          { unwinds := if plan.qty > 0 ∧ CanUnwind host moment then
              [unwindOrder host moment plan.qty plan.isBuy] else []
            cancels := x.unwindCancels host update
            exits := x.lossExit host update
            held := if plan.adoptFlat then 0
              else expectedNet (x.heldAfterLoss host update) host.cfg.qty } := by
        simp only [planned, samePlan, held, exits, cancels, last, routes, List.nil_append,
          Outcome.mk.injEq, and_true]
        refine ⟨?_, rfl⟩
        exact (congrArg (· ++ _) silent).trans (List.nil_append _)
      rw [isPlanned] at result
      split
      next some =>
        rw [result]
        simp [some]
      next nothing =>
        refine (congrArg Outcome.unwinds result).trans ?_
        simp [nothing]

/-! ## When an unwind closes the gap -/

/-- Buying or selling the whole net position leaves nothing. -/
theorem netChange_against (net : Int) : netChange (!decide (net > 0)) |net| = -net := by
  simp only [netChange]
  by_cases long : net > 0
  · simp [long, abs_of_pos]
  · simp only [long, decide_false, Bool.not_false, ↓reduceIte]
    exact abs_of_nonpos (by omega)

/-- An outcome without an unwind closes every gap. -/
theorem Outcome.closes_of_silent {net : Int} {book : List WorkingOrder} {o : Outcome}
    (silent : o.unwinds = []) : o.Closes net book := by
  intro order inside
  rw [silent] at inside
  exact absurd inside List.not_mem_nil

/-- A single unwind that shrinks the position as it should closes the gap exactly when
the orders left working make up for what it leaves. -/
theorem Outcome.closes_single {net left : Int} {book : List WorkingOrder} {o : Outcome}
    {order : UnwindOrder} (single : o.unwinds = [order])
    (traded : net + netChange order.isBuy order.qty = left) (shrinks : |left| ≤ |net|)
    (side : 0 ≤ net * left) :
    o.Closes net book ↔ left + resting o.cancels book + o.exits = o.held := by
  simp only [Outcome.Closes, single, List.mem_singleton, forall_eq, traded, shrinks, side,
    and_self, and_true]

/-- A process that reads a position update handles it. -/
theorem step_position {moment : Moment} {update : PositionUpdate} (reads : x.reading host = true) :
    step host x (.position moment update) = x.opened.handlePosUpdate host moment update := by
  have reads : x.opened.reading host = true := reads
  simp only [step, perform]
  exact if_pos reads

/-- Every unwind that a position update sends closes exactly the gap precisely where the
exits and unwinds left working add up to nothing or, where a ghost is unwound at once,
to the position that is kept. -/
theorem closesGap_iff (host : Host) (moment : Moment) (update : PositionUpdate)
    (book : List WorkingOrder) (x : Executor) :
    x.ClosesGap host moment update book ↔ x.RestsRight host moment update book := by
  by_cases reads : x.reading host = true
  swap
  · have idle : ((step host x (.position moment update)).outcome host).unwinds = [] := by
      have still : ¬x.opened.reading host = true := reads
      simp only [step, perform]
      exact (congrArg unwindsSent (if_neg still)).trans rfl
    exact iff_of_true (Outcome.closes_of_silent idle) fun reading => absurd reading reads
  have real : host.cfg.dryRun = false := by
    simp only [reading, Bool.and_eq_true, Bool.not_eq_true'] at reads
    exact reads.2
  simp only [ClosesGap, step_position reads]
  by_cases account : update.accountId = host.cfg.accountId
  swap
  · have other : ((x.opened.handlePosUpdate host moment update).outcome host).unwinds = [] := by
      simp only [handlePosUpdate, ne_eq, account, not_false_eq_true, ↓reduceIte]
      rfl
    exact iff_of_true (Outcome.closes_of_silent other) fun _ _ disagrees =>
      absurd disagrees.1 account
  cases consistent : x.manager.netQtyConsistent host update.netQuantity with
  | true =>
    refine iff_of_true (Outcome.closes_of_silent
      (agreed_unwinds moment update account real consistent)) fun _ _ disagrees => ?_
    exact absurd (consistent.symm.trans disagrees.2) (by decide)
  | false =>
    have disagrees : x.Disagrees host update := ⟨account, consistent⟩
    simp only [RestsRight, reads, disagrees, true_implies]
    by_cases written : moment.written = true
    swap
    · have unable : ¬CanUnwind host moment := fun able => written able.2
      refine iff_of_true (Outcome.closes_of_silent ?_) fun sent => absurd sent written
      by_cases ghost : x.SeesGhost update
      · rw [ghost_outcome moment update account real consistent ghost]
        exact if_neg unable
      · have result := mismatch_outcome moment update account real consistent ghost
        dsimp only at result
        split at result
        · rw [result]
        · exact result
    have able : CanUnwind host moment := ⟨real, written⟩
    simp only [written, true_implies]
    by_cases ghost : x.SeesGhost update
    · simp only [ghost, ↓reduceIte, ghost_outcome moment update account real consistent ghost, able]
      have traded : update.netQuantity +
          netChange (!decide (update.netQuantity > 0)) |update.netQuantity| = 0 := by
        rw [netChange_against]
        omega
      rw [Outcome.closes_single rfl traded (by simp) (by simp)]
      simp
    · have result := mismatch_outcome moment update account real consistent ghost
      dsimp only at result
      simp only [ghost, ↓reduceIte]
      obtain ⟨plan, isPlan⟩ : ∃ plan, plan =
        planUnwind update.netQuantity (x.heldAfterLoss host update) host.cfg.qty := ⟨_, rfl⟩
      have reaches := planUnwind_reaches update.netQuantity (x.heldAfterLoss host update)
        host.cfg.qty
      have shrinks := planUnwind_shrinks update.netQuantity (x.heldAfterLoss host update)
        host.cfg.qty
      dsimp only at shrinks
      simp only [← isPlan] at result reaches shrinks ⊢
      split at result
      next acts =>
        obtain ⟨now, some⟩ := acts
        simp only [result, now, some, true_implies]
        have traded : update.netQuantity + netChange plan.isBuy plan.qty =
            if plan.adoptFlat then 0
            else expectedNet (x.heldAfterLoss host update) host.cfg.qty := reaches
        rw [traded] at shrinks
        rw [Outcome.closes_single rfl traded shrinks.1 shrinks.2, add_assoc]
        exact add_eq_left
      next later =>
        refine iff_of_true (Outcome.closes_of_silent result) fun now some => ?_
        exact absurd ⟨now, some⟩ later

/-- A process that connects, is asked to buy and holds one contract. -/
def oneLong : Executor :=
  Runs.run (step .accepting) {} [
    .start none, .connected {}, .call { op := .signal .buy 20000 0 },
    .exchange {} { userTag := "MNQ-0-0", basketId := "S1", notifyType := 5, totalFillSize := 1,
                   fillPrice := 20000 }]

/-- The same process with its exit sent and a second contract seen by the reconciler. -/
def oneExiting : Executor :=
  Runs.run (step .accepting) oneLong [
    .call { op := .flatten "target" 20010 },
    .position { now := 1000000000 } { netQuantity := 2 }]

/-- The exchange reports two contracts. With the exit of one in flight the reconciler
sells both, and with one held a snapshot sells both: neither leaves what is believed. -/
theorem exit_oversold_by_unwind :
    (oneExiting.manager.pos.state, oneExiting.manager.pos.basketIdExit) =
        (.pendingExit, "MNQ-0-2") ∧
      ¬oneExiting.ClosesGap .accepting { now := 7000000000 } { netQuantity := 2 }
        [{ client := "MNQ-0-2", server := "S3", qty := 1, isBuy := false }] ∧
      oneLong.manager.pos.state = .long ∧
      ¬oneLong.ClosesGap .accepting { now := 1000000000 } { netQuantity := 2, isSnapshot := true }
        [] := by
  decide +kernel

end Executor

end RithmicEngine
