import RithmicEngine.Base.Runs
import RithmicEngine.Paper.StopLegs
/-!
# Paper and live manage a position alike

The paper broker and the order manager after the same entry fill, before the same
prints and under the same readings of the session. On the tick grid their stops, their
break-even moves and their targets agree print by print, until a lag of the paper
broker's working stop comes due without a print that moves the stop a whole step: only
a step that shrinks brings that about.
-/
namespace RithmicEngine

open TrailingStop (Leg)

/-! ## Prices on the tick grid -/

namespace PaperDesk

variable {desk : PaperDesk}

/-- A whole number of ticks. -/
def OnGrid (price : ℚ) (desk : PaperDesk) : Prop :=
  (⌊price / desk.tickSize⌋ : ℚ) * desk.tickSize = price
deriving Decidable

/-- There is a grid, and the stop distance, the break-even offset and the trail steps
of the configuration lie on it. -/
structure Gridded (desk : PaperDesk) : Prop where
  tick : 0 < desk.tickSize
  stop : desk.OnGrid desk.cfg.slPoints
  offset : desk.OnGrid desk.cfg.trailBeOffset
  step : desk.OnGrid desk.cfg.trailStep
  stepTrend : desk.OnGrid desk.cfg.trailStepTrend
  stepRange : desk.OnGrid desk.cfg.trailStepRange

theorem onGrid_iff (tick : 0 < desk.tickSize) {price : ℚ} :
    desk.OnGrid price ↔ ∃ n : ℤ, price = n * desk.tickSize := by
  constructor
  · exact fun whole => ⟨_, whole.symm⟩
  · rintro ⟨n, rfl⟩
    rw [OnGrid, mul_div_cancel_right₀ _ tick.ne', Int.floor_intCast]

theorem OnGrid.add (tick : 0 < desk.tickSize) {x y : ℚ} (left : desk.OnGrid x)
    (right : desk.OnGrid y) : desk.OnGrid (x + y) := by
  obtain ⟨m, rfl⟩ := (onGrid_iff tick).mp left
  obtain ⟨n, rfl⟩ := (onGrid_iff tick).mp right
  refine (onGrid_iff tick).mpr ⟨m + n, ?_⟩
  push_cast
  ring

theorem OnGrid.sub (tick : 0 < desk.tickSize) {x y : ℚ} (left : desk.OnGrid x)
    (right : desk.OnGrid y) : desk.OnGrid (x - y) := by
  obtain ⟨m, rfl⟩ := (onGrid_iff tick).mp left
  obtain ⟨n, rfl⟩ := (onGrid_iff tick).mp right
  refine (onGrid_iff tick).mpr ⟨m - n, ?_⟩
  push_cast
  ring

/-- Snapping leaves a price on the grid where it is. -/
theorem snap_onGrid {price : ℚ} (whole : desk.OnGrid price) (dir : SignType) :
    desk.snap price dir = price := by
  rw [snap]
  split
  · rfl
  · next tick =>
    obtain ⟨n, rfl⟩ := (onGrid_iff (not_le.mp tick)).mp whole
    have ticks : (n : ℚ) * desk.tickSize / desk.tickSize = n :=
      mul_div_cancel_right₀ _ (not_le.mp tick).ne'
    have floor : ⌊(n : ℚ) + 1 / 1000000000⌋ = n := by
      rw [Int.floor_intCast_add]
      norm_num
    have ceil : ⌈(n : ℚ) - 1 / 1000000000⌉ = n := by
      rw [sub_eq_add_neg, Int.ceil_intCast_add]
      norm_num
    simp only [ticks, floor, ceil, ite_self]

/-- The step in force is one of the configuration's, and positive. -/
theorem trailStep_cases (regime : Option SessionRegime) (desk : PaperDesk) :
    desk.trailStep regime = desk.cfg.trailStep ∨
      (desk.trailStep regime > 0 ∧ (desk.trailStep regime = desk.cfg.trailStepTrend ∨
        desk.trailStep regime = desk.cfg.trailStepRange)) := by
  simp only [trailStep, SessionRegime.exits]
  cases regime with
  | none => exact Or.inl rfl
  | some r =>
    simp only [Option.map_some, RegimeState.trailStepFor]
    split_ifs with inForce trend positive positive
    · exact Or.inr ⟨positive, Or.inl rfl⟩
    · exact Or.inl rfl
    · exact Or.inr ⟨positive, Or.inr rfl⟩
    · exact Or.inl rfl
    · exact Or.inl rfl

theorem trailStep_pos (regime : Option SessionRegime) (positive : 0 < desk.cfg.trailStep) :
    0 < desk.trailStep regime := by
  obtain plain | ⟨own, _⟩ := trailStep_cases regime desk
  · rw [plain]
    exact positive
  · exact own

theorem Gridded.trailStep (grid : desk.Gridded) (regime : Option SessionRegime) :
    desk.OnGrid (desk.trailStep regime) := by
  obtain plain | ⟨_, trend | range⟩ := trailStep_cases regime desk
  · rw [plain]
    exact grid.step
  · rw [trend]
    exact grid.stepTrend
  · rw [range]
    exact grid.stepRange

end PaperDesk

/-! ## Both sides before the same prints -/

/-- The paper broker and the order manager of one strategy. -/
structure Twins where
  paper : PaperBroker
  live : OrderManager

/-- A print, and the readings of the session both sides share when it comes. -/
structure Beat where
  tick : OrbTick
  regime : Option SessionRegime := none
  deriving DecidableEq, Repr

/-- No exit and no break-even is left to the book. -/
structure PaperConfig.BookOff (cfg : PaperConfig) : Prop where
  flip : cfg.bookExitFlip ≤ 0
  profit : cfg.bookTpImbalance ≤ 0
  even : cfg.bookBeOnFlip = false

namespace PaperBroker

variable {desk : PaperDesk} {regime : Option SessionRegime}

/-- A take-profit closed the position between the two states. -/
def tookProfit (before after : PaperBroker) : Bool :=
  (closedSince before after).any (fun row => decide (row.exitReason = "take_profit"))

variable {b : PaperBroker}

theorem closedSince_congr {b' : PaperBroker} (same : b'.outbox = b.outbox) (after : PaperBroker) :
    closedSince b' after = closedSince b after := by
  rw [closedSince, closedSince, same]

variable (desk) in
/-- An exit closes exactly its own trade, and what waits to be entered still waits. -/
theorem exitPosition_closes (fill : ℚ) (tsUs : Int) (reason : String) (b : PaperBroker) :
    closedSince b (exitPosition desk fill tsUs reason b) =
        [tradeRow desk fill tsUs reason b] ∧
      (exitPosition desk fill tsUs reason b).posDir = 0 ∧
      (exitPosition desk fill tsUs reason b).pendingDir = b.pendingDir := by
  cases saves : desk.store with
  | true =>
    refine ⟨?_, ?_, ?_⟩
    · simp only [closedSince, exitPosition, saves, persistPosition, Bool.true_eq_false, ↓reduceIte,
        emit, List.append_assoc, List.drop_left]
      rfl
    · simp [exitPosition, saves, persistPosition, emit]
    · simp [exitPosition, saves, persistPosition, emit]
  | false =>
    refine ⟨?_, ?_, ?_⟩
    · simp only [closedSince, exitPosition, saves, persistPosition, Bool.false_eq_true, ↓reduceIte,
        emit, List.drop_left]
      rfl
    · simp [exitPosition, saves, persistPosition, emit]
    · simp [exitPosition, saves, persistPosition, emit]

theorem bookExit_off (off : desk.cfg.BookOff) (long : Bool) (tsUs : Int) (pnlPts : ℚ)
    (book : QuoteState) : book.bookExit desk.cfg long tsUs pnlPts = "" := by
  simp [QuoteState.bookExit, not_lt.mpr off.flip, not_lt.mpr off.profit]

theorem bookBreakEven_off (off : desk.cfg.BookOff) (t : OrbTick) (b : PaperBroker) :
    bookBreakEven desk regime t b = b := by
  simp only [bookBreakEven, off.even, Bool.false_eq_true, false_and, ↓reduceIte]

variable (desk) (regime) in
/-- What the ratchet leaves of a broker, and the trades it closes. -/
theorem ratchet_keeps (t : OrbTick) (b : PaperBroker) :
    (ratchet desk regime t b).posDir = b.posDir ∧
      (ratchet desk regime t b).entryTimeUs = b.entryTimeUs ∧
      ((ratchet desk regime t b).pendingDir = b.pendingDir ∧
        (ratchet desk regime t b).pendingExitReason = b.pendingExitReason ∧
        (ratchet desk regime t b).halted = b.halted) ∧
      closedSince b (ratchet desk regime t b) = [] := by
  have tracked : SameTrade b (trackExcursion t.price b) := by constructor <;> rfl
  have moved := tracked.trans (breakEven_same desk regime (trackExcursion t.price b))
  have armed := moved.trans (armTrail_same desk t.tsMicros _)
  have trailed := armed.trans (trail_same desk regime t.price _)
  obtain ⟨dir, since, entry, exit, halted, closed⟩ := markOpen_keeps desk t.price
    (trail desk regime t.price (armTrail desk t.tsMicros
      (breakEven desk regime (trackExcursion t.price b))))
  refine ⟨dir.trans trailed.posDir, since.trans trailed.entryTimeUs,
    ⟨entry.trans trailed.pendingDir, exit.trans trailed.pendingExitReason,
      halted.trans trailed.halted⟩, ?_⟩
  rw [closedSince_congr trailed.outbox] at closed
  exact closed

variable (regime) in
/-- A print of an open position with nothing pending, inside the session and without a
halt, only manages the position. -/
theorem onTick_manages {t : OrbTick} (held : b.posDir ≠ 0)
    (calm : b.pendingDir = 0 ∧ b.pendingExitReason = "" ∧ b.halted = false)
    (later : b.entryTimeUs ≤ t.tsMicros) (session : desk.pastEod (seeTick t b).lastMinute = false) :
    onTick desk regime t b = manage desk regime t (seeTick t b) := by
  obtain ⟨noEntry, noExit, running⟩ := calm
  have current : predates t (seeTick t b) = false := by
    simp only [predates, seeTick, not_lt.mpr later, decide_false, Bool.and_false]
  have unfilled : fillPending desk regime t (seeTick t b) = seeTick t b := by
    rw [fillPending, if_neg]
    exact fun fills => fills.1 noEntry
  have stays : (seeTick t b).posDir ≠ 0 := held
  have quiet : ¬ ((seeTick t b).pendingExitReason ≠ "" ∧ (seeTick t b).posDir ≠ 0) :=
    fun leaves => leaves.1 noExit
  have trades : (seeTick t b).halted = false := running
  simp only [onTick, current, Bool.false_eq_true, ↓reduceIte, unfilled, work, quiet, stays,
    session, trades]

variable (regime) in
/-- The print at which the pending entry fills is handled as the first print of the
position it opens. -/
theorem onTick_fills {t : OrbTick} (flat : b.posDir = 0) (pending : b.pendingDir ≠ 0)
    (ready : waitsForBook desk t (seeTick t b) = false) (model : desk.cfg.fillModel ≠ "bbo") :
    ∃ seen : PaperBroker, seen.pendingDir = 0 ∧ seen.pendingExitReason = b.pendingExitReason ∧
      seen.risk = b.risk ∧
      onTick desk regime t b = onTick desk regime t
        (enter desk regime b.pendingDir (t.price + b.pendingDir * desk.slip) t.tsMicros seen) := by
  obtain ⟨seen, isSeen⟩ : ∃ seen, seen = ({ seeTick t b with
      pendingDir := 0
      entryBbo := b.qs.marketFill (decide (b.pendingDir > 0)) t.tsMicros
        (t.price + b.pendingDir * desk.slip) t.price
      spreadEntry := if b.qs.fresh t.tsMicros then b.qs.q.spreadTicks desk.tickSize else -1 } :
        PaperBroker) := ⟨_, rfl⟩
  refine ⟨seen, by rw [isSeen], by rw [isSeen]; rfl, by rw [isSeen]; rfl, ?_⟩
  obtain ⟨entered, isEntered⟩ : ∃ entered, entered = enter desk regime b.pendingDir
    (t.price + b.pendingDir * desk.slip) t.tsMicros seen := ⟨_, rfl⟩
  have fills : fillPending desk regime t (seeTick t b) = entered := by
    rw [fillPending, if_pos ⟨pending, flat, ready⟩, isEntered, isSeen]
    simp only [model, false_and, ↓reduceIte]
    rfl
  have known : seeTick t entered = entered ∧ entered.posDir = b.pendingDir ∧
      entered.entryTimeUs = t.tsMicros := by
    rw [isEntered, isSeen]
    simp only [enter, persistPosition]
    split
    · exact ⟨rfl, rfl, rfl⟩
    · exact ⟨rfl, rfl, rfl⟩
  have early : predates t (seeTick t b) = false := by
    have out : (seeTick t b).posDir = 0 := flat
    simp [predates, out]
  have current : predates t entered = false := by
    simp only [predates, known.2.2, lt_irrefl, decide_false, Bool.and_false]
  have full : fillPending desk regime t entered = entered := by
    rw [fillPending, if_neg]
    exact fun again => pending (known.2.1.symm.trans again.2.1)
  rw [← isEntered]
  simp [onTick, early, fills, known.1, current, full]

end PaperBroker

namespace OrderManager

/-- A take-profit exit of the position was started between the two states. -/
def tookProfit (before after : OrderManager) : Bool :=
  before.inTrade && decide (after.pos.state = .pendingExit) &&
    decide (after.pos.exitReason = "take_profit")

variable {host : Host}

/-- An exit whose order is taken leaves the position waiting for its fill. -/
theorem initiateExit_taken (takes : host.Accepting) (now : Int) (reason : String)
    (refPrice : ℚ) {s : OrderManager} (trading : s.inTrade = true) :
    (initiateExitLocked host now reason refPrice s).pos.state = .pendingExit ∧
      (initiateExitLocked host now reason refPrice s).pos.exitReason = reason := by
  have taken (basket : String) : host.accepts basket = true := takes.takes basket
  simp only [initiateExitLocked, trading, Bool.true_eq_false, ↓reduceIte, takes.sends,
    Bool.false_eq_true, Host.orderCb_of_live takes.toLive, taken]
  exact ⟨rfl, rfl⟩

end OrderManager

namespace Twins

variable (desk : PaperDesk) (host : Host)

/-- The order manager's check of a print, its clock at the print's own time. -/
def checkPrint (beat : Beat) (s : OrderManager) : OrderManager :=
  (OrderManager.checkTrailAndStop host (1000 * beat.tick.tsMicros) beat.tick.price
    { s with regime := SessionRegime.exits beat.regime }).1

/-- Both sides take the print. -/
def step (x : Twins) (beat : Beat) : Twins where
  paper := x.paper.onTick desk beat.regime beat.tick
  live := checkPrint host beat x.live

/-- The same entry fill on both sides, at the same time. -/
def filled (regime : Option SessionRegime) (dir : OrbSignal) (fill : ℚ) (tsUs : Int) (x : Twins) :
    Twins where
  paper := x.paper.enter desk regime dir.dir fill tsUs
  live := OrderManager.entryFill host (1000 * tsUs) x.live.pos.basketIdEntry fill x.live.pos.qty
    x.live

/-- After the print the two sides agree: a take-profit was started on both or on
neither, both or neither hold the position, and while they hold it its working stops
and its break-even move are the same. -/
@[mk_iff inParity_parts]
structure InParity (x : Twins) (beat : Beat) : Prop where
  profit : x.paper.tookProfit (x.step desk host beat).paper =
    x.live.tookProfit (x.step desk host beat).live
  holds : (x.step desk host beat).paper.posDir ≠ 0 ↔ (x.step desk host beat).live.inTrade = true
  stop : (x.step desk host beat).live.inTrade = true →
    (x.step desk host beat).paper.placedStop = (x.step desk host beat).live.exchangeStop
  even : (x.step desk host beat).live.inTrade = true →
    (x.step desk host beat).paper.beMoved = (x.step desk host beat).live.pos.beTriggered

/-- The paper broker as it looks at the print, its working stop caught up. -/
def facing (x : Twins) (beat : Beat) : PaperBroker :=
  (x.paper.seeTick beat.tick).syncPlacedStop desk beat.regime false

/-- A print of the session on the tick grid that reaches neither side's stop. -/
@[mk_iff]
structure Inside (x : Twins) (beat : Beat) : Prop where
  later : x.paper.entryTimeUs ≤ beat.tick.tsMicros
  grid : desk.OnGrid beat.tick.price
  above : 0 < beat.tick.price
  session : desk.pastEod (x.paper.seeTick beat.tick).lastMinute = false
  paperClear : (x.facing desk beat).stopped beat.tick.price = false
  liveClear : x.live.slBreached beat.tick.price = false

/-- No lag of the paper broker's working stop comes due at the print, unless the print
moves the stop a whole step or touches the target. -/
def KeepsPace (x : Twins) (beat : Beat) : Prop :=
  x.paper.leg.Paced desk.cfg.stopRules (desk.snap · x.paper.posDir) (desk.trailStep beat.regime)
    beat.tick.price ∨ (x.facing desk beat).takeProfitHit desk beat.regime beat.tick.price = true
deriving Decidable

/-- Both sides hold the position, with the same leg, and nothing else is pending. -/
structure Managed (x : Twins) : Prop where
  held : x.paper.posDir ≠ 0
  trading : x.live.inTrade = true
  leg : x.paper.leg = x.live.leg
  since : x.live.pos.fillTime = 1000 * x.paper.entryTimeUs
  sound : x.paper.leg.Sound
  positive : x.paper.leg.Positive
  entry : desk.OnGrid x.paper.entryPrice
  offset : x.paper.leg.long = false → desk.cfg.trailBeOffset < x.paper.entryPrice
  calm : x.paper.pendingDir = 0 ∧ x.paper.pendingExitReason = "" ∧ x.paper.halted = false

/-- Both sides are through with the position. -/
structure Over (x : Twins) : Prop where
  flat : x.paper.posDir = 0
  pending : x.paper.pendingDir = 0
  exited : x.live.inTrade = false

section Parity

variable {desk host} (takes : host.Accepting) (same : host.cfg = desk.cfg.toOrbConfig)
  (grid : desk.Gridded) (off : desk.cfg.BookOff)

/-- The delay in seconds is the same on both clocks. -/
theorem elapsed_same (ts since : Int) :
    (1000 * ts - 1000 * since).tdiv 1000000000 = (ts - since).tdiv 1000000 := by
  rw [← mul_sub]
  exact Int.mul_tdiv_mul_of_pos (ts - since) 1000000 (by decide)

include same in
/-- Both sides read the same target off the same leg. -/
theorem takeProfitHit_same {b : PaperBroker} {s : OrderManager} (held : b.posDir ≠ 0)
    (regime : Option SessionRegime) (shared : s.regime = SessionRegime.exits regime)
    (long : b.leg.long = s.leg.long) (entry : b.leg.entry = s.leg.entry) (price : ℚ) :
    b.takeProfitHit desk regime price = s.takeProfitHit host price := by
  have side : decide (b.posDir > 0) = decide (s.pos.state = .long) := long
  have start : s.pos.entryPrice = b.entryPrice := entry.symm
  have distance : RegimeState.takeProfitFor host.cfg s.regime = desk.takeProfit regime := by
    rw [same, shared]
    rfl
  rw [PaperBroker.takeProfitHit, PaperBroker.target, OrderManager.takeProfitHit, distance, start,
    add_signed held]
  by_cases up : s.pos.state = .long
  · have above : b.posDir > 0 := by simpa only [up, decide_true, decide_eq_true_eq] using side
    rw [if_pos above, if_pos up, if_pos (decide_eq_true above)]
  · have below : ¬ b.posDir > 0 := by
      simpa only [up, decide_false, decide_eq_false_iff_not] using side
    rw [if_neg below, if_neg up, if_neg (by simpa only [decide_eq_true_eq] using below)]

include takes in
/-- The target is touched: the order manager sends its exit. -/
theorem checkPrint_profit {s : OrderManager} (beat : Beat) (trading : s.inTrade = true)
    (clear : s.slBreached beat.tick.price = false)
    (hit : OrderManager.takeProfitHit host beat.tick.price
      { s with regime := SessionRegime.exits beat.regime } = true) :
    (checkPrint host beat s).pos.state = .pendingExit ∧
      (checkPrint host beat s).pos.exitReason = "take_profit" := by
  obtain ⟨shared, isShared⟩ : ∃ shared, shared =
      ({ s with regime := SessionRegime.exits beat.regime } : OrderManager) := ⟨_, rfl⟩
  have open_ : shared.inTrade = true := by rw [isShared]; exact trading
  have clear' : shared.slBreached beat.tick.price = false := by rw [isShared]; exact clear
  have seen : OrderManager.takeProfitHit host beat.tick.price
      { shared.trackExcursion beat.tick.price with
        slBreachTime := 0, stopResubmitPending := false } = true := by
    rw [isShared]
    exact hit
  rw [checkPrint, ← isShared, OrderManager.checkTrailAndStop, if_neg (by simp [open_]),
    OrderManager.checkBreach_idle (1000 * beat.tick.tsMicros) clear']
  simp only [Bool.false_eq_true, ↓reduceIte, seen]
  exact OrderManager.initiateExit_taken takes (1000 * beat.tick.tsMicros) "take_profit"
    beat.tick.price open_

variable {x : Twins} {beat : Beat}

include grid in
/-- On the grid the break-even level and the trail's level are taken as they are. -/
theorem snaps_idle (managed : Managed desk x) (inside : Inside desk x beat) (dir : SignType) :
    desk.snap (x.paper.leg.beyond x.paper.leg.entry desk.cfg.trailBeOffset) dir =
        x.paper.leg.beyond x.paper.leg.entry desk.cfg.trailBeOffset ∧
      desk.snap (x.paper.leg.behind beat.tick.price (desk.trailStep beat.regime)) dir =
        x.paper.leg.behind beat.tick.price (desk.trailStep beat.regime) := by
  have step := grid.trailStep beat.regime
  constructor
  · apply PaperDesk.snap_onGrid
    rw [Leg.beyond]
    split
    · exact managed.entry.add grid.tick grid.offset
    · exact managed.entry.sub grid.tick grid.offset
  · apply PaperDesk.snap_onGrid
    rw [Leg.behind]
    split
    · exact inside.grid.sub grid.tick step
    · exact inside.grid.add grid.tick step

/-- The break-even level of a short leg, and its trail's level, lie above zero. -/
theorem levels_above (managed : Managed desk x) (inside : Inside desk x beat)
    (step : 0 < desk.cfg.trailStep) (short : x.paper.leg.long = false) :
    0 < x.paper.leg.beyond x.paper.leg.entry desk.cfg.trailBeOffset ∧
      0 < x.paper.leg.behind beat.tick.price (desk.trailStep beat.regime) := by
  have below : desk.cfg.trailBeOffset < x.paper.leg.entry := managed.offset short
  have positive := PaperDesk.trailStep_pos beat.regime step
  simp only [Leg.beyond, Leg.behind, short, Bool.false_eq_true, ↓reduceIte]
  exact ⟨sub_pos.mpr below, add_pos inside.above positive⟩

/-- The paper broker before the print has the leg of the position, caught up. -/
theorem facing_leg (managed : Managed desk x) (beat : Beat) :
    (x.facing desk beat).leg = x.paper.leg.resync desk.cfg.stopRules (desk.trailStep beat.regime) ∧
      PaperBroker.SameTrade x.paper (x.facing desk beat) := by
  have seen : PaperBroker.SameTrade x.paper (x.paper.seeTick beat.tick) := by constructor <;> rfl
  constructor
  · exact PaperBroker.syncPlacedStop_leg managed.positive.2
  · exact seen.trans (PaperBroker.syncPlacedStop_same desk beat.regime false _)

variable (host) in
/-- The print manages the paper broker's position, past its stop. -/
theorem onTick_facing (managed : Managed desk x) (inside : Inside desk x beat)
    (off : desk.cfg.BookOff) :
    (x.step desk host beat).paper =
      if (x.facing desk beat).takeProfitHit desk beat.regime beat.tick.price then
        (x.facing desk beat).exitPosition desk ((x.facing desk beat).target desk beat.regime)
          beat.tick.tsMicros "take_profit"
      else (x.facing desk beat).ratchet desk beat.regime beat.tick := by
  have manages := PaperBroker.onTick_manages beat.regime managed.held managed.calm
    inside.later inside.session
  have clear : ((x.paper.seeTick beat.tick).syncPlacedStop desk beat.regime false).stopped
      beat.tick.price = false := inside.paperClear
  rw [step, manages, PaperBroker.manage]
  simp only [clear, Bool.false_eq_true, ↓reduceIte, PaperBroker.bookExit_off off,
    PaperBroker.bookBreakEven_off off, ne_eq, not_true_eq_false, facing]
  rfl

include takes same off in
/-- A print inside that touches the target closes the position on both sides. -/
theorem profit_step (managed : Managed desk x) (inside : Inside desk x beat)
    (hit : (x.facing desk beat).takeProfitHit desk beat.regime beat.tick.price = true) :
    InParity desk host x beat ∧ Over (x.step desk host beat) := by
  obtain ⟨leg, trade⟩ := facing_leg managed beat
  have legs := leg.trans (congrArg (Leg.resync desk.cfg.stopRules (desk.trailStep beat.regime))
    managed.leg)
  have position := Leg.resync_same desk.cfg.stopRules (desk.trailStep beat.regime) x.live.leg
  have held : (x.facing desk beat).posDir ≠ 0 := by rw [trade.posDir]; exact managed.held
  have touched := (takeProfitHit_same same held beat.regime (s :=
    { x.live with regime := SessionRegime.exits beat.regime }) rfl
    ((congrArg Leg.long legs).trans position.long)
    ((congrArg Leg.entry legs).trans position.entry) beat.tick.price).symm.trans hit
  obtain ⟨sent, reason⟩ := checkPrint_profit takes beat managed.trading inside.liveClear touched
  have paper := onTick_facing host managed inside off
  rw [if_pos hit] at paper
  obtain ⟨closed, flat, waits⟩ := PaperBroker.exitPosition_closes desk
    ((x.facing desk beat).target desk beat.regime) beat.tick.tsMicros "take_profit"
    (x.facing desk beat)
  rw [← paper, PaperBroker.closedSince_congr trade.outbox] at closed
  rw [← paper] at flat waits
  have exited : (x.step desk host beat).live.inTrade = false := by
    have state : (x.step desk host beat).live.pos.state = .pendingExit := sent
    simp [OrderManager.inTrade, state]
  have paperProfit : x.paper.tookProfit (x.step desk host beat).paper = true := by
    rw [PaperBroker.tookProfit, closed]
    rfl
  have liveProfit : x.live.tookProfit (x.step desk host beat).live = true := by
    have state : (x.step desk host beat).live.pos.state = .pendingExit := sent
    have why : (x.step desk host beat).live.pos.exitReason = "take_profit" := reason
    simp [OrderManager.tookProfit, managed.trading, state, why]
  have waiting : (x.step desk host beat).paper.pendingDir = 0 :=
    waits.trans (trade.pendingDir.trans managed.calm.1)
  refine ⟨⟨paperProfit.trans liveProfit.symm, ?_, ?_, ?_⟩, flat, waiting, exited⟩
  · exact ⟨fun still => absurd flat still, fun trading => absurd (exited.symm.trans trading)
      Bool.false_ne_true⟩
  · exact fun trading => absurd (exited.symm.trans trading) Bool.false_ne_true
  · exact fun trading => absurd (exited.symm.trans trading) Bool.false_ne_true

include takes same grid off in
/-- A print inside that touches no target advances the leg on both sides: the paper
broker's from where its working copy caught up. -/
theorem advance_legs (managed : Managed desk x) (inside : Inside desk x beat)
    (step : 0 < desk.cfg.trailStep)
    (short : (x.facing desk beat).takeProfitHit desk beat.regime beat.tick.price = false) :
    (x.step desk host beat).paper.leg =
        (x.paper.leg.resync desk.cfg.stopRules (desk.trailStep beat.regime)).advance
          desk.cfg.stopRules (desk.snap · x.paper.posDir) (desk.trailStep beat.regime)
          (decide ((beat.tick.tsMicros - x.paper.entryTimeUs).tdiv 1000000 ≥
            desk.cfg.trailDelaySecs)) beat.tick.price ∧
      (x.step desk host beat).live.leg =
        x.paper.leg.advance desk.cfg.stopRules (desk.snap · x.paper.posDir)
          (desk.trailStep beat.regime)
          (decide ((beat.tick.tsMicros - x.paper.entryTimeUs).tdiv 1000000 ≥
            desk.cfg.trailDelaySecs)) beat.tick.price ∧
      OrderManager.SameTrade { x.live with regime := SessionRegime.exits beat.regime }
        (x.step desk host beat).live := by
  obtain ⟨leg, trade⟩ := facing_leg managed beat
  obtain ⟨even, behind⟩ := snaps_idle grid managed inside x.paper.posDir
  have held : (x.facing desk beat).posDir ≠ 0 := by rw [trade.posDir]; exact managed.held
  have position := Leg.resync_same desk.cfg.stopRules (desk.trailStep beat.regime) x.paper.leg
  refine ⟨?_, ?_⟩
  · have paper := onTick_facing host managed inside off
    rw [short, if_neg Bool.false_ne_true] at paper
    have positive : (x.facing desk beat).leg.Positive := by
      rw [leg]
      exact managed.positive.resync _ _
    rw [paper, PaperBroker.ratchet_leg held positive, leg, trade.posDir, trade.entryTimeUs]
    intro down
    rw [leg, position.long] at down
    rw [leg, position.entry, trade.posDir, Leg.beyond, position.long, ← Leg.beyond, even]
    exact (levels_above managed inside step down).1
  · have legs := leg.trans (congrArg (Leg.resync desk.cfg.stopRules (desk.trailStep beat.regime))
      managed.leg)
    have livePosition := Leg.resync_same desk.cfg.stopRules (desk.trailStep beat.regime) x.live.leg
    have untouched := (takeProfitHit_same same held beat.regime (s :=
      { x.live with regime := SessionRegime.exits beat.regime }) rfl
      ((congrArg Leg.long legs).trans livePosition.long)
      ((congrArg Leg.entry legs).trans livePosition.entry) beat.tick.price).symm.trans short
    have inForce : RegimeState.trailStepFor host.cfg (SessionRegime.exits beat.regime) =
        desk.trailStep beat.regime := by
      rw [same]
      rfl
    have advanced := OrderManager.checkTrailAndStop_leg takes (1000 * beat.tick.tsMicros)
      (s := { x.live with regime := SessionRegime.exits beat.regime })
      managed.trading (managed.leg ▸ managed.positive)
      (by
        intro down
        have above := levels_above managed inside step (managed.leg ▸ down)
        rw [managed.leg] at above
        rw [same]
        exact above.1)
      inside.liveClear untouched inForce
    refine ⟨advanced.1.trans ?_, advanced.2⟩
    rw [show ({ x.live with regime := SessionRegime.exits beat.regime } : OrderManager).leg =
      x.paper.leg from managed.leg.symm]
    simp only [same, managed.since, elapsed_same]
    exact (Leg.advance_congr desk.cfg.stopRules (desk.snap · x.paper.posDir)
      (desk.trailStep beat.regime) id _ beat.tick.price x.paper.leg even behind).symm

include takes same grid off in
/-- A print inside that touches no target leaves the position open on both sides. -/
theorem advance_holds (managed : Managed desk x) (inside : Inside desk x beat)
    (step : 0 < desk.cfg.trailStep)
    (short : (x.facing desk beat).takeProfitHit desk beat.regime beat.tick.price = false) :
    (x.step desk host beat).live.inTrade = true ∧
      (x.step desk host beat).live.exchangeStop = (x.step desk host beat).live.leg.working ∧
      (x.step desk host beat).live.leg.Positive ∧
      PaperBroker.closedSince x.paper (x.step desk host beat).paper = [] ∧
      (x.step desk host beat).paper.posDir = x.paper.posDir ∧
      (x.step desk host beat).paper.entryTimeUs = x.paper.entryTimeUs ∧
      (x.step desk host beat).paper.pendingDir = 0 ∧
      (x.step desk host beat).paper.pendingExitReason = "" ∧
      (x.step desk host beat).paper.halted = false := by
  obtain ⟨_, live, kept⟩ := advance_legs takes same grid off managed inside step short
  obtain ⟨_, trade⟩ := facing_leg managed beat
  obtain ⟨even, behind⟩ := snaps_idle grid managed inside x.paper.posDir
  obtain ⟨waits, quiet, running⟩ := managed.calm
  have trading : (x.step desk host beat).live.inTrade = true := by
    have before : x.live.inTrade = true := managed.trading
    rw [OrderManager.inTrade, kept.state]
    exact before
  have positive : (x.step desk host beat).live.leg.Positive := by
    rw [live]
    refine managed.positive.advance _ _ _ _ _ (fun down => ?_) (fun down => ?_)
    · rw [show desk.cfg.stopRules.offset = desk.cfg.trailBeOffset from rfl, even]
      exact (levels_above managed inside step down).1
    · rw [behind]
      exact (levels_above managed inside step down).2
  have paper := onTick_facing host managed inside off
  rw [short, if_neg Bool.false_ne_true] at paper
  obtain ⟨dir, since, ⟨entry, exit, halt⟩, closed⟩ := PaperBroker.ratchet_keeps desk beat.regime
    beat.tick (x.facing desk beat)
  rw [← paper] at dir since entry exit halt closed
  rw [PaperBroker.closedSince_congr trade.outbox] at closed
  exact ⟨trading, if_pos positive.2.ne', positive, closed, dir.trans trade.posDir,
    since.trans trade.entryTimeUs, entry.trans (trade.pendingDir.trans waits),
    exit.trans (trade.pendingExitReason.trans quiet), halt.trans (trade.halted.trans running)⟩

include takes same grid off in
/-- A print inside that touches no target keeps the sides together when the paper
broker keeps pace. -/
theorem advance_step (managed : Managed desk x) (inside : Inside desk x beat)
    (step : 0 < desk.cfg.trailStep)
    (short : (x.facing desk beat).takeProfitHit desk beat.regime beat.tick.price = false)
    (paced : x.paper.leg.Paced desk.cfg.stopRules (desk.snap · x.paper.posDir)
      (desk.trailStep beat.regime) beat.tick.price) :
    InParity desk host x beat ∧ Managed desk (x.step desk host beat) := by
  obtain ⟨paper, live, kept⟩ := advance_legs takes same grid off managed inside step short
  obtain ⟨trading, exchange, positive, closed, dir, since, calm⟩ :=
    advance_holds takes same grid off managed inside step short
  rw [Leg.advance_resync managed.sound _ paced] at paper
  have leg := paper.trans live.symm
  have position := Leg.advance_same desk.cfg.stopRules (desk.snap · x.paper.posDir)
    (desk.trailStep beat.regime)
    (decide ((beat.tick.tsMicros - x.paper.entryTimeUs).tdiv 1000000 ≥ desk.cfg.trailDelaySecs))
    beat.tick.price x.paper.leg
  rw [← paper] at position
  have held : (x.step desk host beat).paper.posDir ≠ 0 := by rw [dir]; exact managed.held
  have entry : (x.step desk host beat).paper.entryPrice = x.paper.entryPrice := position.entry
  constructor
  · refine ⟨?_, iff_of_true held trading, fun _ => ?_, fun _ => congrArg Leg.moved leg⟩
    · have open_ : (x.step desk host beat).live.pos.state ≠ .pendingExit := by
        intro state
        simp only [OrderManager.inTrade, state, reduceCtorEq, decide_false, Bool.or_self,
          Bool.false_eq_true] at trading
      rw [PaperBroker.tookProfit, closed, OrderManager.tookProfit, decide_eq_false open_]
      simp
    · rw [exchange]
      exact congrArg Leg.working leg
  · refine ⟨held, trading, leg, ?_, ?_, ?_, ?_, ?_, calm⟩
    · rw [kept.fillTime, since]
      exact managed.since
    · rw [paper]
      exact managed.sound.advance _ _
    · rw [leg]
      exact positive
    · rw [entry]
      exact managed.entry
    · rw [position.long, entry]
      exact managed.offset

include takes same grid off in
/-- Inside, the sides stay together over a print exactly when the paper broker keeps
pace: otherwise its working stop leaves the exchange's. -/
theorem inParity_iff (managed : Managed desk x) (inside : Inside desk x beat)
    (step : 0 < desk.cfg.trailStep) : InParity desk host x beat ↔ KeepsPace desk x beat := by
  cases hit : (x.facing desk beat).takeProfitHit desk beat.regime beat.tick.price with
  | true => exact iff_of_true (profit_step takes same off managed inside hit).1 (Or.inr hit)
  | false =>
    constructor
    · intro parity
      by_contra lost
      have unpaced := fun paced => lost (Or.inl paced)
      obtain ⟨paper, live, _⟩ := advance_legs takes same grid off managed inside step hit
      obtain ⟨trading, exchange, _⟩ := advance_holds takes same grid off managed inside step hit
      have apart := Leg.working_resync_ne managed.sound
        (decide ((beat.tick.tsMicros - x.paper.entryTimeUs).tdiv 1000000 ≥
          desk.cfg.trailDelaySecs)) unpaced
      rw [← paper, ← live, ← exchange] at apart
      exact apart (parity.stop trading)
    · intro paced
      have pace := paced.resolve_right (fun touched => absurd (hit.symm.trans touched)
        Bool.false_ne_true)
      exact (advance_step takes same grid off managed inside step hit pace).1

/-- Nothing more happens once both sides are through. -/
theorem over_step (through : Over x) (beat : Beat) :
    InParity desk host x beat ∧ Over (x.step desk host beat) := by
  have live : (x.step desk host beat).live.inTrade = false := by
    have idle : ({ x.live with regime := SessionRegime.exits beat.regime } : OrderManager).inTrade =
        false := through.exited
    rw [step, checkPrint, OrderManager.checkTrailAndStop, if_pos idle]
    exact idle
  have paper : (x.step desk host beat).paper =
      { x.paper.seeTick beat.tick with risk := x.paper.risk.updateUnrealized (some 0) } := by
    have flat : (x.paper.seeTick beat.tick).posDir = 0 := through.flat
    have none_ : (x.paper.seeTick beat.tick).pendingDir = 0 := through.pending
    simp only [step, PaperBroker.onTick, PaperBroker.predates, flat, ne_eq, not_true_eq_false,
      decide_false, Bool.false_and, Bool.false_eq_true, ↓reduceIte, PaperBroker.fillPending, none_,
      false_and, PaperBroker.work, and_false]
    rfl
  have dir : (x.step desk host beat).paper.posDir = 0 := by rw [paper]; exact through.flat
  have pending : (x.step desk host beat).paper.pendingDir = 0 := by
    rw [paper]
    exact through.pending
  have closed : PaperBroker.closedSince x.paper (x.step desk host beat).paper = [] := by
    have outbox : (x.step desk host beat).paper.outbox = x.paper.outbox := by rw [paper]; rfl
    rw [PaperBroker.closedSince, outbox, List.drop_length, List.filterMap_nil]
  refine ⟨⟨?_, ?_, ?_, ?_⟩, dir, pending, live⟩
  · rw [PaperBroker.tookProfit, closed, OrderManager.tookProfit, through.exited]
    simp
  · exact ⟨fun still => absurd dir still,
      fun trading => absurd (live.symm.trans trading) Bool.false_ne_true⟩
  · exact fun trading => absurd (live.symm.trans trading) Bool.false_ne_true
  · exact fun trading => absurd (live.symm.trans trading) Bool.false_ne_true

end Parity

/-! ## From the entry fill on -/

/-- An entry in this direction waits for its fill on both sides. -/
structure Pending (dir : OrbSignal) (x : Twins) : Prop where
  entry : dir = .buy ∨ dir = .sell
  calm : x.paper.pendingDir = 0 ∧ x.paper.pendingExitReason = "" ∧ x.paper.halted = false
  state : x.live.pos.state = .pendingEntry
  direction : x.live.pos.direction = dir
  fresh : x.live.pos.mfe = 0 ∧ x.live.pos.beTriggered = false ∧ x.live.pos.trailingActive = false
  distance : x.live.pendingEntrySlDist ≤ 0

section Start

variable {desk host} (takes : host.Accepting) (same : host.cfg = desk.cfg.toOrbConfig)
  (grid : desk.Gridded)

/-- The leg of a fresh entry whose stop lies at a distance from the fill. -/
def entryLeg (long : Bool) (fill distance : ℚ) : Leg ℚ where
  long := long
  entry := fill
  mfe := 0
  moved := false
  trailing := false
  level := if long then fill - distance else fill + distance
  working := if long then fill - distance else fill + distance

variable {x : Twins} {dir : OrbSignal}

/-- The direction of an entry, as the paper broker and the order manager keep it. -/
theorem entry_dir (entry : dir = .buy ∨ dir = .sell) :
    dir.dir ≠ 0 ∧ decide (dir.dir > 0) = decide (dir = .buy) := by
  obtain rfl | rfl := entry
  · decide
  · decide

variable (host) in
include grid in
/-- The filled entry leaves paper in a position on the leg that live has. -/
theorem filled_paper (pending : Pending dir x) (regime : Option SessionRegime) {fill : ℚ}
    (tsUs : Int) (whole : desk.OnGrid fill) :
    (x.filled desk host regime dir fill tsUs).paper.leg =
        entryLeg (decide (dir = .buy)) fill desk.cfg.slPoints ∧
      (x.filled desk host regime dir fill tsUs).paper.posDir = dir.dir ∧
      (x.filled desk host regime dir fill tsUs).paper.entryTimeUs = tsUs ∧
      ((x.filled desk host regime dir fill tsUs).paper.pendingDir = 0 ∧
        (x.filled desk host regime dir fill tsUs).paper.pendingExitReason = "" ∧
        (x.filled desk host regime dir fill tsUs).paper.halted = false) := by
  obtain ⟨some, side⟩ := entry_dir pending.entry
  have level : desk.snap (fill - dir.dir * desk.cfg.slPoints) dir.dir =
      if decide (dir = .buy) then fill - desk.cfg.slPoints else fill + desk.cfg.slPoints := by
    rw [sub_signed some, side]
    apply PaperDesk.snap_onGrid
    split
    · exact whole.sub grid.tick grid.stop
    · exact whole.add grid.tick grid.stop
  have leg : (x.filled desk host regime dir fill tsUs).paper.leg =
      { entryLeg (decide (dir.dir > 0)) fill desk.cfg.slPoints with
        level := desk.snap (fill - dir.dir * desk.cfg.slPoints) dir.dir
        working := desk.snap (fill - dir.dir * desk.cfg.slPoints) dir.dir } := by
    rw [filled, PaperBroker.enter, PaperBroker.persistPosition_leg]
    rfl
  refine ⟨?_, ?_⟩
  · rw [leg, level, side]
    rfl
  · simp only [filled, PaperBroker.enter, PaperBroker.persistPosition]
    split
    · exact ⟨rfl, rfl, pending.calm⟩
    · exact ⟨rfl, rfl, pending.calm⟩

include takes same in
/-- The filled entry leaves live in a trade at the configured distance from its fill. -/
theorem filled_live (pending : Pending dir x) (regime : Option SessionRegime) (fill : ℚ)
    (tsUs : Int) :
    (x.filled desk host regime dir fill tsUs).live.leg =
        entryLeg (decide (dir = .buy)) fill desk.cfg.slPoints ∧
      (x.filled desk host regime dir fill tsUs).live.inTrade = true ∧
      (x.filled desk host regime dir fill tsUs).live.pos.fillTime = 1000 * tsUs := by
  obtain ⟨mfe, moved, trailing⟩ := pending.fresh
  have whole : ¬ (x.live.pos.qty > 0 ∧ x.live.pos.qty < x.live.pos.qty) :=
    fun partial_ => absurd partial_.2 (lt_irrefl _)
  have level : OrderManager.entrySl host fill x.live =
      if decide (dir = .buy) then fill - desk.cfg.slPoints else fill + desk.cfg.slPoints := by
    rw [OrderManager.entrySl, if_neg (not_lt.mpr pending.distance), pending.direction, same]
    obtain rfl | rfl := pending.entry
    · rfl
    · rfl
  obtain ⟨leg, kept⟩ := OrderManager.submitStop_leg takes (OrderManager.entrySl host fill x.live)
    (OrderManager.openedPosition host (1000 * tsUs) fill x.live)
  have opened : (x.filled desk host regime dir fill tsUs).live =
      OrderManager.submitStopOrderLocked host (OrderManager.entrySl host fill x.live)
        (OrderManager.openedPosition host (1000 * tsUs) fill x.live) := by
    rw [filled, OrderManager.entryFill, if_neg (not_not.mpr rfl), if_neg whole]
  rw [opened]
  refine ⟨?_, ?_, kept.fillTime⟩
  · rw [leg]
    simp only [OrderManager.leg, OrderManager.openedPosition, mfe, moved, trailing, level,
      pending.direction, entryLeg]
    obtain rfl | rfl := pending.entry
    · rfl
    · rfl
  · rw [OrderManager.inTrade, kept.state]
    simp only [OrderManager.openedPosition, pending.direction]
    obtain rfl | rfl := pending.entry
    · rfl
    · rfl

include takes same grid in
/-- After the same fill both sides hold the position with the same first stop. -/
theorem filled_managed (pending : Pending dir x) (regime : Option SessionRegime) {fill : ℚ}
    (tsUs : Int) (whole : desk.OnGrid fill) (stop : 0 < desk.cfg.slPoints)
    (above : desk.cfg.slPoints < fill) (offset : desk.cfg.trailBeOffset < fill) :
    Managed desk (x.filled desk host regime dir fill tsUs) := by
  obtain ⟨leg, posDir, since, calm⟩ := filled_paper host grid pending regime tsUs whole
  obtain ⟨liveLeg, trading, fillTime⟩ := filled_live takes same pending regime fill tsUs
  have entry : (x.filled desk host regime dir fill tsUs).paper.entryPrice = fill :=
    congrArg Leg.entry leg
  have level : 0 < if decide (dir = .buy) then fill - desk.cfg.slPoints
      else fill + desk.cfg.slPoints := by
    split
    · exact sub_pos.mpr above
    · exact add_pos (stop.trans above) stop
  refine ⟨?_, trading, leg.trans liveLeg.symm, ?_, ?_, ?_, ?_, fun _ => ?_, calm⟩
  · rw [posDir]
    exact (entry_dir pending.entry).1
  · rw [fillTime, since]
  · rw [leg]
    refine ⟨?_, fun apart => absurd rfl apart, fun trails => absurd trails.symm ?_⟩
    · simp only [entryLeg, le_refl, ite_self]
    · exact Bool.false_ne_true.symm
  · rw [leg]
    exact ⟨level, level⟩
  · rw [entry]
    exact whole
  · rw [entry]
    exact offset

end Start

section Follows

variable {desk host}

/-- From the same fill on, over prints of the session on the tick grid that reach no
stop, the paper broker and the order manager manage the position alike, as long as the
paper broker keeps pace. -/
theorem paper_follows_live (takes : host.Accepting) (same : host.cfg = desk.cfg.toOrbConfig)
    (grid : desk.Gridded) (off : desk.cfg.BookOff) (step : 0 < desk.cfg.trailStep)
    (stop : 0 < desk.cfg.slPoints) {x : Twins} {dir : OrbSignal} (pending : Pending dir x)
    (regime : Option SessionRegime) {fill : ℚ} (tsUs : Int) (whole : desk.OnGrid fill)
    (above : desk.cfg.slPoints < fill) (offset : desk.cfg.trailBeOffset < fill) (beats : List Beat)
    (inside : Runs.Along (Twins.step desk host)
      (fun x beat => x.paper.posDir ≠ 0 → Inside desk x beat ∧ KeepsPace desk x beat)
      (x.filled desk host regime dir fill tsUs) beats) :
    Runs.Along (Twins.step desk host) (InParity desk host)
      (x.filled desk host regime dir fill tsUs) beats := by
  have start := filled_managed takes same grid pending regime tsUs whole stop above offset
  have beat (x : Twins) (beat : Beat) (managed : Managed desk x ∨ Over x)
      (allowed : x.paper.posDir ≠ 0 → Inside desk x beat ∧ KeepsPace desk x beat) :
      InParity desk host x beat ∧ (Managed desk (x.step desk host beat) ∨
        Over (x.step desk host beat)) := by
    obtain managed | through := managed
    · obtain ⟨inside, paced⟩ := allowed managed.held
      cases hit : (x.facing desk beat).takeProfitHit desk beat.regime beat.tick.price with
      | true =>
        obtain ⟨parity, through⟩ := profit_step takes same off managed inside hit
        exact ⟨parity, Or.inr through⟩
      | false =>
        have pace := paced.resolve_right (fun touched => absurd (hit.symm.trans touched)
          Bool.false_ne_true)
        obtain ⟨parity, kept⟩ := advance_step takes same grid off managed inside step hit pace
        exact ⟨parity, Or.inl kept⟩
    · obtain ⟨parity, still⟩ := over_step through beat
      exact ⟨parity, Or.inr still⟩
  exact Runs.along_of_invariant (Twins.step desk host) (fun x => Managed desk x ∨ Over x)
    (fun x beat_ managed allowed => (beat x beat_ managed allowed).1)
    (fun x beat_ managed allowed => (beat x beat_ managed allowed).2) _ beats (Or.inl start) inside

/-- Over prints whose trail step never shrinks the paper broker keeps pace from the fill on: its
working stop is then never a step behind. -/
theorem keepsPace_of_grown (takes : host.Accepting) (same : host.cfg = desk.cfg.toOrbConfig)
    (grid : desk.Gridded) (off : desk.cfg.BookOff) (step : 0 < desk.cfg.trailStep)
    {x : Twins} {first : Beat} {beats : List Beat} (managed : Managed desk x)
    (quiet : x.paper.leg.Quiet desk.cfg.stopRules (desk.trailStep first.regime))
    (grown : (first :: beats).Pairwise fun early late =>
      desk.trailStep early.regime ≤ desk.trailStep late.regime)
    (inside : Runs.Along (Twins.step desk host)
      (fun x beat => x.paper.posDir ≠ 0 → Inside desk x beat) x (first :: beats)) :
    Runs.Along (Twins.step desk host)
      (fun x beat => x.paper.posDir ≠ 0 → Inside desk x beat ∧ KeepsPace desk x beat)
      x (first :: beats) := by
  induction beats generalizing x first with
  | nil => exact ⟨fun open_ => ⟨inside.1 open_, Or.inl (quiet.paced _)⟩, trivial⟩
  | cons next rest ih =>
    have pace : KeepsPace desk x first := Or.inl (quiet.paced _)
    refine ⟨fun open_ => ⟨inside.1 open_, pace⟩, ?_⟩
    cases hit : (x.facing desk first).takeProfitHit desk first.regime first.tick.price with
    | true =>
      have through := (profit_step takes same off managed (inside.1 managed.held) hit).2
      exact Runs.along_of_invariant (Twins.step desk host) Over
        (fun x _ done _ open_ => absurd done.flat open_)
        (fun x beat done _ => (over_step done beat).2) _ _ through inside.2
    | false =>
      obtain ⟨_, kept⟩ := advance_step takes same grid off managed (inside.1 managed.held) step hit
        (quiet.paced _)
      have leg := (advance_legs takes same grid off managed (inside.1 managed.held) step hit).1
      rw [Leg.advance_resync managed.sound _ (quiet.paced _)] at leg
      refine ih kept ?_ (List.Pairwise.of_cons grown) inside.2
      rw [leg]
      exact (quiet.advance _ _).wider ((List.pairwise_cons.mp grown).1 next List.mem_cons_self)

end Follows

/-! ## Runs -/

instance decidableInParity (x : Twins) (beat : Beat) : Decidable (InParity desk host x beat) :=
  decidable_of_iff' _ (inParity_parts ..)

instance decidableInside (x : Twins) (beat : Beat) : Decidable (Inside desk x beat) :=
  decidable_of_iff' _ (inside_iff ..)

/-- A long entry waits for its fill. -/
def pendingLong : Twins where
  paper := {}
  live := { pos := { state := .pendingEntry, direction := .buy, basketIdEntry := "MNQ-0-0" } }

theorem pendingLong_pending : Pending .buy pendingLong :=
  ⟨Or.inl rfl, ⟨rfl, rfl, rfl⟩, rfl, rfl, ⟨rfl, rfl, rfl⟩, le_rfl⟩

/-- A desk of this configuration, and a host of the same that takes every order. -/
def deskOf (cfg : PaperConfig) : PaperDesk := { cfg := cfg }

def hostOf (cfg : PaperConfig) : Host := { Host.accepting with cfg := cfg.toOrbConfig }

/-- Prints a second apart from 10:00 Eastern on, under one reading of the session each. -/
def beatsOf (prints : List (ℚ × Option SessionRegime)) : List Beat :=
  prints.zipIdx.map fun ((price, regime), sec) =>
    { tick := { tsMicros := 1746021600000000 + 1000000 * sec, price := price }, regime := regime }

/-- The long entry filled at 10:00 Eastern. -/
def filledLong (cfg : PaperConfig) (fill : ℚ) : Twins :=
  pendingLong.filled (deskOf cfg) (hostOf cfg) none .buy fill 1746021600000000

/-- A trail without delay. -/
def trailing : PaperConfig := { trailDelaySecs := 0 }

/-- A long leg in parity through its break-even and two trailing moves. -/
theorem follows_break_even_and_trail :
    Runs.Along (Twins.step (deskOf trailing) (hostOf trailing))
      (InParity (deskOf trailing) (hostOf trailing)) (filledLong trailing 20000)
      (beatsOf [(20000, none), (40007 / 2, none), (20010, none), (20020, none), (20018, none),
        (20025, none), (20031, none)]) :=
  paper_follows_live ⟨⟨rfl, rfl, rfl⟩, fun _ => rfl⟩ rfl
    ⟨by decide +kernel, by decide +kernel, by decide +kernel, by decide +kernel,
      by decide +kernel, by decide +kernel⟩
    ⟨by decide +kernel, by decide +kernel, rfl⟩ (by decide +kernel) (by decide +kernel)
    pendingLong_pending none 1746021600000000 (by decide +kernel) (by decide +kernel)
    (by decide +kernel)
    (beatsOf [(20000, none), (40007 / 2, none), (20010, none), (20020, none), (20018, none),
      (20025, none), (20031, none)]) (by decide +kernel)

/-- A print on the tick grid, not before the entry, that reaches neither side's stop. -/
def Unreached (x : Twins) (beat : Beat) : Prop :=
  x.paper.posDir ≠ 0 →
    x.paper.entryTimeUs ≤ beat.tick.tsMicros ∧ desk.OnGrid beat.tick.price ∧
      0 < beat.tick.price ∧ (x.facing desk beat).stopped beat.tick.price = false ∧
      x.live.slBreached beat.tick.price = false
deriving Decidable

/-- With the book off, a stop distance and a trail step, and no stop ever reached, the two
sides part after a long entry. -/
def Parts (cfg : PaperConfig) (fill : ℚ) (beats : List Beat) : Prop :=
  0 < cfg.slPoints ∧ 0 < cfg.trailStep ∧
    (cfg.bookExitFlip = 0 ∧ cfg.bookTpImbalance = 0 ∧ cfg.bookBeOnFlip = false) ∧
    Runs.Along (Twins.step (deskOf cfg) (hostOf cfg)) (Unreached (deskOf cfg))
      (filledLong cfg fill) beats ∧
    ¬ Runs.Along (Twins.step (deskOf cfg) (hostOf cfg)) (InParity (deskOf cfg) (hostOf cfg))
      (filledLong cfg fill) beats
deriving Decidable

/-- A session from 20000 to 40 points above, that has kept this much of it. -/
def sessionAt (last : ℚ) : SessionRegime :=
  { opened := 20000, high := 20040, low := 20000, last := last, openUs := 1746019800000000 }

/-- The sides part over a stop distance off the grid, which the paper broker snaps; past
the flatten time, which the paper broker looks at itself; over a stop below zero, which
the paper broker takes for none; and where the session turns from a trend into a range
and the smaller step lets the paper broker's lag come due. -/
theorem sides_part :
    Parts { slPoints := 101 / 10 } 20000 (beatsOf [(20000, none)]) ∧
      Parts {} 20000 [{ tick := { tsMicros := 1746042960000000, price := 20000 } }] ∧
      Parts { trailDelaySecs := 0, trailBeOffset := -12 } 10 (beatsOf [(13, none)]) ∧
      Parts
        { trailDelaySecs := 0, regimeExitMinEff := 1 / 2, trailStepTrend := 20,
          trailStepRange := 4 } 20000
        (beatsOf [(20000, some (sessionAt 20036)), (20030, some (sessionAt 20036)),
          (20013, some (sessionAt 20004))]) := by
  decide +kernel

end Twins

end RithmicEngine
