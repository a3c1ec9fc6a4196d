import RithmicEngine.Base.TrailingStop
import RithmicEngine.Execution.OrderManager
import RithmicEngine.Paper.PaperBroker
/-!
# The stop of a position, on paper and live

The paper broker and the order manager each keep a protective stop, move it to
break-even and trail it. Both are seen here as the leg of a trailing stop, and each
of their operations as the leg's. They differ in two points: the paper broker snaps a
level to the tick grid before it takes it, and before it looks at a tick it lets its
working copy catch up with a level that is a step away.

The order manager's host takes every order and cancel.
-/
namespace RithmicEngine

open TrailingStop (Leg)

/-- The rules of a configuration, with the tolerance of the step comparison. -/
def OrbConfig.stopRules (cfg : OrbConfig) : TrailingStop.Rules ℚ where
  trigger := cfg.trailBeTrigger
  offset := cfg.trailBeOffset
  slack := 1 / 1000000000

/-! ## Signed distances -/

variable {dir : SignType}

/-- A direction other than none, spelled out. -/
theorem dir_cases (some : dir ≠ 0) : dir = 1 ∨ dir = -1 := by
  cases dir with
  | zero => exact absurd rfl some
  | neg => exact Or.inr rfl
  | pos => exact Or.inl rfl

/-- A distance to the profitable side of a price. -/
theorem add_signed (some : dir ≠ 0) (price distance : ℚ) :
    price + dir * distance = if decide (dir > 0) then price + distance else price - distance := by
  obtain rfl | rfl := dir_cases some
  · rw [SignType.coe_one, one_mul]
    rfl
  · rw [SignType.coe_neg_one, neg_one_mul, ← sub_eq_add_neg]
    rfl

/-- A distance to the losing side of a price. -/
theorem sub_signed (some : dir ≠ 0) (price distance : ℚ) :
    price - dir * distance = if decide (dir > 0) then price - distance else price + distance := by
  obtain rfl | rfl := dir_cases some
  · rw [SignType.coe_one, one_mul]
    rfl
  · rw [SignType.coe_neg_one, neg_one_mul, sub_neg_eq_add]
    rfl

/-! ## The paper broker's leg -/

namespace PaperBroker

variable {desk : PaperDesk} {regime : Option SessionRegime}

def leg (b : PaperBroker) : Leg ℚ where
  long := b.long
  entry := b.entryPrice
  mfe := b.mfe
  moved := b.beMoved
  trailing := b.trailArmed
  level := b.stopPrice
  working := b.placedStop

theorem improves_leg {b : PaperBroker} (held : b.posDir ≠ 0) (level : ℚ) :
    improves level b = b.leg.improves level := by
  obtain dir | dir := dir_cases held
  · simp only [improves, dir, Leg.improves, leg, long]
    simp
  · simp only [improves, dir, Leg.improves, leg, long]
    simp

/-- The sync of the placed stop is the resync of the leg. -/
theorem syncPlacedStop_leg {b : PaperBroker} (positive : 0 < b.placedStop) :
    (syncPlacedStop desk regime false b).leg =
      b.leg.resync desk.cfg.stopRules (desk.trailStep regime) := by
  have working : ¬ (b.placedStop ≤ 0 ∨ false = true) := by
    simp [not_le.mpr positive]
  rw [syncPlacedStop, if_neg working, Leg.resync]
  by_cases due : b.leg.Due desk.cfg.stopRules (desk.trailStep regime)
  · rw [if_pos due]
    exact congrArg leg (if_pos (by exact due))
  · rw [if_neg due]
    exact congrArg leg (if_neg (by exact due))

variable (price : ℚ) (b : PaperBroker)

theorem trackExcursion_leg : (trackExcursion price b).leg = b.leg.track price := by
  simp only [trackExcursion, leg, Leg.track, long, decide_eq_true_eq]
  rfl

theorem breakEvenLevel_leg {b : PaperBroker} (held : b.posDir ≠ 0) :
    desk.snap (breakEvenLevel desk b) b.posDir =
      b.leg.breakEvenLevel desk.cfg.stopRules (desk.snap · b.posDir) := by
  rw [breakEvenLevel, add_signed held]
  rfl

/-- The paper broker's break-even is that of the leg. -/
theorem breakEven_leg {b : PaperBroker} (held : b.posDir ≠ 0) :
    (breakEven desk regime b).leg =
      b.leg.breakEven desk.cfg.stopRules (desk.snap · b.posDir) := by
  simp only [breakEven, Leg.breakEven, breakEvenLevel_leg held, improves_leg held]
  by_cases moves : b.leg.moved = false ∧ b.leg.mfe ≥ desk.cfg.stopRules.trigger
  · rw [if_pos moves, if_pos (by exact moves)]
    split
    · simp only [syncPlacedStop, or_true, ↓reduceIte]
      rfl
    · rfl
  · rw [if_neg moves, if_neg (by exact moves)]

/-- Arming the trail arms the leg once the delay is over. -/
theorem armTrail_leg (tsUs : Int) (b : PaperBroker) :
    (armTrail desk tsUs b).leg =
      b.leg.arm desk.cfg.stopRules
        (decide ((tsUs - b.entryTimeUs).tdiv 1000000 ≥ desk.cfg.trailDelaySecs)) := by
  simp only [armTrail, Leg.arm, decide_eq_true_eq]
  by_cases arms : b.leg.trailing = false ∧
      (tsUs - b.entryTimeUs).tdiv 1000000 ≥ desk.cfg.trailDelaySecs ∧
      b.leg.mfe ≥ desk.cfg.stopRules.trigger
  · rw [if_pos arms, if_pos (by exact arms)]
    rfl
  · rw [if_neg arms, if_neg (by exact arms)]

theorem trailLevel_leg {b : PaperBroker} (held : b.posDir ≠ 0) (price : ℚ) :
    trailLevel desk regime price b =
      b.leg.trailLevel (desk.snap · b.posDir) (desk.trailStep regime) price := by
  rw [trailLevel, sub_signed held]
  rfl

/-- The paper broker's trailing is that of the leg with the step in force. -/
theorem trail_leg {b : PaperBroker} (held : b.posDir ≠ 0) (positive : 0 < b.placedStop)
    (price : ℚ) :
    (trail desk regime price b).leg =
      b.leg.trail desk.cfg.stopRules (desk.snap · b.posDir) (desk.trailStep regime) price := by
  simp only [trail, Leg.trail, trailLevel_leg held, improves_leg held]
  by_cases trails : b.leg.trailing = true ∧
      b.leg.improves (b.leg.trailLevel (desk.snap · b.posDir) (desk.trailStep regime) price) = true
  · rw [if_pos trails, if_pos (by exact trails)]
    exact syncPlacedStop_leg positive
  · rw [if_neg trails, if_neg (by exact trails)]

theorem persistPosition_leg (unreal : ℚ) (b : PaperBroker) :
    (persistPosition desk unreal b).leg = b.leg := by
  rw [persistPosition]
  split
  · rfl
  · rfl

theorem markOpen_leg : (markOpen desk price b).leg = b.leg := by
  simp only [markOpen]
  split
  · rw [persistPosition_leg]
    rfl
  · rfl

/-- What managing a stop leaves of a broker. -/
structure SameTrade (b b' : PaperBroker) : Prop where
  posDir : b'.posDir = b.posDir
  entryTimeUs : b'.entryTimeUs = b.entryTimeUs
  pendingDir : b'.pendingDir = b.pendingDir
  pendingExitReason : b'.pendingExitReason = b.pendingExitReason
  halted : b'.halted = b.halted
  outbox : b'.outbox = b.outbox

/-- The same trade over two steps. -/
theorem SameTrade.trans {b b' b'' : PaperBroker} (first : SameTrade b b')
    (second : SameTrade b' b'') : SameTrade b b'' where
  posDir := second.posDir.trans first.posDir
  entryTimeUs := second.entryTimeUs.trans first.entryTimeUs
  pendingDir := second.pendingDir.trans first.pendingDir
  pendingExitReason := second.pendingExitReason.trans first.pendingExitReason
  halted := second.halted.trans first.halted
  outbox := second.outbox.trans first.outbox

variable (desk) (regime) in
theorem syncPlacedStop_same (force : Bool) (b : PaperBroker) :
    SameTrade b (syncPlacedStop desk regime force b) := by
  rw [syncPlacedStop]
  split
  · constructor <;> rfl
  · split
    · constructor <;> rfl
    · constructor <;> rfl

variable (desk) (regime) in
theorem breakEven_same : SameTrade b (breakEven desk regime b) := by
  simp only [breakEven]
  split
  · split
    · have moved := syncPlacedStop_same desk regime true
        (raiseStop (desk.snap (breakEvenLevel desk b) b.posDir) b)
      exact ⟨moved.1, moved.2, moved.3, moved.4, moved.5, moved.6⟩
    · constructor <;> rfl
  · constructor <;> rfl

variable (desk) in
theorem armTrail_same (tsUs : Int) (b : PaperBroker) : SameTrade b (armTrail desk tsUs b) := by
  rw [armTrail]
  split
  · constructor <;> rfl
  · constructor <;> rfl

variable (desk) (regime) in
theorem trail_same : SameTrade b (trail desk regime price b) := by
  rw [trail]
  split
  · have moved := syncPlacedStop_same desk regime false
      (raiseStop (trailLevel desk regime price b) b)
    exact ⟨moved.1, moved.2, moved.3, moved.4, moved.5, moved.6⟩
  · constructor <;> rfl

/-- The rows of the trades an effect closes. -/
def closedRow : PaperEffect → Option PaperTradeRow
  | .tradeClosed row => some row
  | .recordSignal _ => none
  | .savePosition _ => none
  | .recordTrade _ => none

/-- The trades closed between two states of a broker. -/
def closedSince (before after : PaperBroker) : List PaperTradeRow :=
  (after.outbox.drop before.outbox.length).filterMap closedRow

variable (desk) in
/-- Noting the open profit closes no trade and moves neither stop nor position. -/
theorem markOpen_keeps :
    (markOpen desk price b).posDir = b.posDir ∧
      (markOpen desk price b).entryTimeUs = b.entryTimeUs ∧
      (markOpen desk price b).pendingDir = b.pendingDir ∧
      (markOpen desk price b).pendingExitReason = b.pendingExitReason ∧
      (markOpen desk price b).halted = b.halted ∧
      closedSince b (markOpen desk price b) = [] := by
  simp only [markOpen]
  split
  · simp only [persistPosition]
    split
    · exact ⟨rfl, rfl, rfl, rfl, rfl, by simp [closedSince]⟩
    · exact ⟨rfl, rfl, rfl, rfl, rfl, by simp only [closedSince, emit, List.drop_left,
        List.filterMap_cons, closedRow, List.filterMap_nil]⟩
  · exact ⟨rfl, rfl, rfl, rfl, rfl, by simp [closedSince]⟩

/-- A position that no exit closes: its leg advances under the snapped levels. -/
theorem ratchet_leg {b : PaperBroker} (held : b.posDir ≠ 0) (positive : b.leg.Positive)
    (even : b.leg.long = false →
      0 < desk.snap (b.leg.beyond b.leg.entry desk.cfg.trailBeOffset) b.posDir)
    (t : OrbTick) :
    (ratchet desk regime t b).leg =
      b.leg.advance desk.cfg.stopRules (desk.snap · b.posDir) (desk.trailStep regime)
        (decide ((t.tsMicros - b.entryTimeUs).tdiv 1000000 ≥ desk.cfg.trailDelaySecs))
        t.price := by
  obtain ⟨tracked, isTracked⟩ : ∃ tracked, tracked = trackExcursion t.price b := ⟨_, rfl⟩
  have dir : tracked.posDir = b.posDir := by rw [isTracked]; rfl
  have since : tracked.entryTimeUs = b.entryTimeUs := by rw [isTracked]; rfl
  have leg : tracked.leg = b.leg.track t.price := by rw [isTracked]; exact trackExcursion_leg _ _
  have open_ : tracked.posDir ≠ 0 := by rw [dir]; exact held
  have moved := breakEven_same desk regime tracked
  have armed : SameTrade tracked (armTrail desk t.tsMicros (breakEven desk regime tracked)) :=
    moved.trans (armTrail_same desk t.tsMicros (breakEven desk regime tracked))
  have movedLeg : (breakEven desk regime tracked).leg =
      (b.leg.track t.price).breakEven desk.cfg.stopRules (desk.snap · b.posDir) := by
    rw [breakEven_leg open_, leg, dir]
  have movedPositive : (breakEven desk regime tracked).leg.Positive := by
    rw [movedLeg]
    have start : (b.leg.track t.price).Positive := positive
    exact start.breakEven desk.cfg.stopRules _ even
  have armedLeg : (armTrail desk t.tsMicros (breakEven desk regime tracked)).leg =
      ((b.leg.track t.price).breakEven desk.cfg.stopRules (desk.snap · b.posDir)).arm
        desk.cfg.stopRules
        (decide ((t.tsMicros - b.entryTimeUs).tdiv 1000000 ≥ desk.cfg.trailDelaySecs)) := by
    rw [armTrail_leg, moved.entryTimeUs, since, movedLeg]
  have working : 0 < (armTrail desk t.tsMicros (breakEven desk regime tracked)).placedStop := by
    have same : (armTrail desk t.tsMicros (breakEven desk regime tracked)).placedStop =
        (breakEven desk regime tracked).placedStop := by
      rw [armTrail]
      split
      · rfl
      · rfl
    rw [same]
    exact movedPositive.2
  simp only [ratchet, ← isTracked]
  rw [markOpen_leg, trail_leg (by rw [armed.posDir]; exact open_) working, armedLeg,
    armed.posDir, dir]
  rfl

end PaperBroker

/-! ## The order manager's leg -/

/-- The order leaves the process, and the exchange takes every order. -/
structure Host.Accepting (host : Host) : Prop extends host.Live where
  takes : ∀ basket, host.accepts basket = true

namespace OrderManager

variable {host : Host}

def leg (s : OrderManager) : Leg ℚ where
  long := decide (s.pos.state = .long)
  entry := s.pos.entryPrice
  mfe := s.pos.mfe
  moved := s.pos.beTriggered
  trailing := s.pos.trailingActive
  level := s.pos.slPrice
  working := s.lastExchangeSl

/-- What managing a stop leaves of an order manager. -/
structure SameTrade (s s' : OrderManager) : Prop where
  state : s'.pos.state = s.pos.state
  fillTime : s'.pos.fillTime = s.pos.fillTime
  regime : s'.regime = s.regime

variable {s : OrderManager} {step : ℚ}

theorem SameTrade.trans {s' s'' : OrderManager} (first : SameTrade s s')
    (second : SameTrade s' s'') :
    SameTrade s s'' where
  state := second.state.trans first.state
  fillTime := second.fillTime.trans first.fillTime
  regime := second.regime.trans first.regime

theorem improvesSl_leg (level : ℚ) (s : OrderManager) :
    s.improvesSl level = s.leg.improves level := by
  simp only [improvesSl, Leg.improves, leg, decide_eq_true_eq]
  rfl

theorem trackExcursion_leg (price : ℚ) (s : OrderManager) :
    (trackExcursion price s).leg = s.leg.track price := by
  simp only [trackExcursion, Leg.track, leg, decide_eq_true_eq]
  rfl

/-- A taken stop works at its level. -/
theorem submitStop_leg (takes : host.Accepting) (level : ℚ) (s : OrderManager) :
    (submitStopOrderLocked host level s).leg = { s.leg with working := level } ∧
      SameTrade s (submitStopOrderLocked host level s) := by
  have taken (basket : String) : host.accepts basket = true := takes.takes basket
  simp only [submitStopOrderLocked, takes.sends, Host.orderCb_of_live takes.toLive, taken,
    Bool.false_eq_true, ↓reduceIte]
  exact ⟨rfl, rfl, rfl, rfl⟩

variable (host) in
theorem cancelStop_leg (s : OrderManager) :
    (cancelStopLocked host s).leg = s.leg ∧ SameTrade s (cancelStopLocked host s) := by
  rw [cancelStopLocked]
  split
  · exact ⟨rfl, rfl, rfl, rfl⟩
  · exact ⟨rfl, rfl, rfl, rfl⟩

/-- Moving a working stop: the move is kept back while it is shorter than the step. -/
theorem updateStop_leg (takes : host.Accepting) (works : s.lastExchangeSl ≠ 0)
    (inForce : RegimeState.trailStepFor host.cfg s.regime = step) (level : ℚ) (force : Bool) :
    (updateStopOrderLocked host level force s).leg =
        { s.leg with
          working := if force ∨ |level - s.lastExchangeSl| ≥ step - 1 / 1000000000 then level
            else s.lastExchangeSl } ∧
      SameTrade s (updateStopOrderLocked host level force s) := by
  have sent := submitStop_leg takes level s
  have replaced := submitStop_leg takes level
    (cancelStopLocked host { s with stopResubmitPending := true })
  have cancelled := cancelStop_leg host { s with stopResubmitPending := true }
  by_cases near : force = false ∧ |level - s.lastExchangeSl| < step - 1 / 1000000000
  · have kept : updateStopOrderLocked host level force s = s := by
      rw [updateStopOrderLocked, if_neg (by simp [takes.sends]), if_pos]
      rw [inForce]
      exact ⟨by simp [near.1], works, near.2⟩
    have unmoved : ¬ (force = true ∨ |level - s.lastExchangeSl| ≥ step - 1 / 1000000000) := by
      simp only [near.1, Bool.false_eq_true, false_or, not_le]
      exact near.2
    rw [kept, if_neg unmoved]
    exact ⟨rfl, rfl, rfl, rfl⟩
  · have moves : force = true ∨ |level - s.lastExchangeSl| ≥ step - 1 / 1000000000 := by
      by_cases forced : force = true
      · exact Or.inl forced
      · exact Or.inr (not_lt.mp (fun short => near ⟨Bool.eq_false_iff.mpr forced, short⟩))
    have wide : ¬ ((!force) = true ∧ s.lastExchangeSl ≠ 0 ∧ |level - s.lastExchangeSl| <
        RegimeState.trailStepFor host.cfg s.regime - 1 / 1000000000) := by
      rw [inForce]
      rintro ⟨unforced, _, short⟩
      exact near ⟨by simpa only [Bool.not_eq_eq_eq_not, Bool.not_true] using unforced, short⟩
    rw [if_pos moves, updateStopOrderLocked, if_neg (by simp [takes.sends]), if_neg wide]
    split
    · exact sent
    · refine ⟨replaced.1.trans ?_, ?_⟩
      · rw [cancelled.1]
        rfl
      · have start : SameTrade s { s with stopResubmitPending := true } := ⟨rfl, rfl, rfl⟩
        exact (start.trans cancelled.2).trans replaced.2

/-- The order manager's break-even is that of the leg, and stays in its trade. -/
theorem breakEven_leg (takes : host.Accepting) (works : s.lastExchangeSl ≠ 0) :
    (breakEven host s).1.leg = s.leg.breakEven host.cfg.stopRules id ∧
      SameTrade s (breakEven host s).1 := by
  have level : breakEvenSl host s = s.leg.breakEvenLevel host.cfg.stopRules id := by
    simp [breakEvenSl, Leg.breakEvenLevel, Leg.beyond, leg, OrbConfig.stopRules]
  simp only [breakEven, Leg.breakEven, level]
  by_cases moves : s.leg.moved = false ∧ s.leg.mfe ≥ host.cfg.stopRules.trigger
  · rw [if_pos moves, if_pos (by exact moves)]
    have better := improvesSl_leg (s.leg.breakEvenLevel host.cfg.stopRules id)
      { s with pos := { s.pos with beTriggered := true } }
    by_cases improves : s.leg.improves (s.leg.breakEvenLevel host.cfg.stopRules id) = true
    · rw [if_pos improves, if_pos (better.trans improves)]
      have sent := updateStop_leg takes (s :=
        { s with pos := { s.pos with
            beTriggered := true
            slPrice := s.leg.breakEvenLevel host.cfg.stopRules id
            beSlPrice := s.leg.breakEvenLevel host.cfg.stopRules id } }) works rfl
        (s.leg.breakEvenLevel host.cfg.stopRules id) true
      simp only [true_or, ↓reduceIte] at sent
      exact ⟨sent.1, sent.2.1, sent.2.2, sent.2.3⟩
    · rw [if_neg improves, if_neg (fun still => improves (better.symm.trans still))]
      exact ⟨rfl, rfl, rfl, rfl⟩
  · rw [if_neg moves, if_neg (by exact moves)]
    exact ⟨rfl, rfl, rfl, rfl⟩

variable (host) in
/-- The trail's start arms the leg once the delay is over, and touches nothing else of the trade. -/
theorem activateTrail_leg (now : Int) (s : OrderManager) :
    (activateTrail host now s).leg =
        s.leg.arm host.cfg.stopRules
          (decide ((now - s.pos.fillTime).tdiv 1000000000 ≥ host.cfg.trailDelaySecs)) ∧
      SameTrade s (activateTrail host now s) := by
  simp only [activateTrail, Leg.arm, decide_eq_true_eq]
  by_cases arms : s.leg.trailing = false ∧
      (now - s.pos.fillTime).tdiv 1000000000 ≥ host.cfg.trailDelaySecs ∧
      s.leg.mfe ≥ host.cfg.stopRules.trigger
  · rw [if_pos arms, if_pos (by exact arms)]
    exact ⟨rfl, rfl, rfl, rfl⟩
  · rw [if_neg arms, if_neg (by exact arms)]
    exact ⟨rfl, rfl, rfl, rfl⟩

/-- Its trailing is that of the leg as well. -/
theorem trail_leg (takes : host.Accepting) (works : s.lastExchangeSl ≠ 0)
    (inForce : RegimeState.trailStepFor host.cfg s.regime = step) (price : ℚ) :
    (trail host price s).1.leg = s.leg.trail host.cfg.stopRules id step price ∧
      SameTrade s (trail host price s).1 := by
  have level : (if s.pos.state = .long then price - step else price + step) =
      s.leg.trailLevel id step price := by
    simp [Leg.trailLevel, Leg.behind, leg]
  simp only [trail, tightenStop, Leg.trail, inForce, level, improvesSl_leg]
  by_cases trailing : s.leg.trailing = true
  · rw [if_pos (by exact trailing)]
    by_cases improves : s.leg.improves (s.leg.trailLevel id step price) = true
    · rw [if_pos improves, if_pos ⟨trailing, improves⟩]
      have sent := updateStop_leg takes (s :=
        { s with pos := { s.pos with slPrice := s.leg.trailLevel id step price } }) works inForce
        (s.leg.trailLevel id step price) false
      simp only [Bool.false_eq_true, false_or] at sent
      refine ⟨sent.1.trans ?_, sent.2.1, sent.2.2, sent.2.3⟩
      rw [Leg.resync]
      by_cases due : |s.leg.trailLevel id step price - s.lastExchangeSl| ≥ step - 1 / 1000000000
      · rw [if_pos due, if_pos (by exact due)]
        rfl
      · rw [if_neg due, if_neg (by exact due)]
        rfl
    · rw [if_neg improves, if_neg (fun both => improves both.2)]
      exact ⟨rfl, rfl, rfl, rfl⟩
  · rw [if_neg (by exact trailing), if_neg (fun both => trailing both.1)]
    exact ⟨rfl, rfl, rfl, rfl⟩

/-- The order manager as it looks for a target: the excursion noted, no breach. -/
theorem checkBreach_idle (now : Int) {price : ℚ} (clear : s.slBreached price = false) :
    checkBreach host now price (trackExcursion price s) =
      ({ trackExcursion price s with slBreachTime := 0, stopResubmitPending := false }, false) := by
  have still : (trackExcursion price s).slBreached price = false := clear
  rw [checkBreach, if_neg (by simp [still])]

/-- A price that reaches neither stop nor target: the leg advances. -/
theorem checkTrailAndStop_leg (takes : host.Accepting) (now : Int) {price : ℚ}
    (trading : s.inTrade = true) (positive : s.leg.Positive)
    (even : s.leg.long = false → 0 < s.leg.beyond s.leg.entry host.cfg.trailBeOffset)
    (clear : s.slBreached price = false) (short : takeProfitHit host price s = false)
    (inForce : RegimeState.trailStepFor host.cfg s.regime = step) :
    (checkTrailAndStop host now price s).1.leg =
        s.leg.advance host.cfg.stopRules id step
          (decide ((now - s.pos.fillTime).tdiv 1000000000 ≥ host.cfg.trailDelaySecs)) price ∧
      SameTrade s (checkTrailAndStop host now price s).1 := by
  obtain ⟨seen, isSeen⟩ : ∃ seen, seen = ({ trackExcursion price s with
      slBreachTime := 0, stopResubmitPending := false } : OrderManager) := ⟨_, rfl⟩
  have leg : seen.leg = s.leg.track price := by rw [isSeen]; exact trackExcursion_leg price s
  have start : SameTrade s seen := by rw [isSeen]; exact ⟨rfl, rfl, rfl⟩
  have target : takeProfitHit host price seen = false := by rw [isSeen]; exact short
  have seenPositive : seen.leg.Positive := by rw [leg]; exact positive
  have moved := breakEven_leg takes seenPositive.2.ne'
  have movedPositive : (breakEven host seen).1.leg.Positive := by
    rw [moved.1]
    refine seenPositive.breakEven _ _ ?_
    rw [leg]
    exact even
  have armed := activateTrail_leg host now (breakEven host seen).1
  have same : SameTrade s (activateTrail host now (breakEven host seen).1) :=
    (start.trans moved.2).trans armed.2
  have works : (activateTrail host now (breakEven host seen).1).lastExchangeSl ≠ 0 := by
    have kept : (activateTrail host now (breakEven host seen).1).lastExchangeSl =
        (breakEven host seen).1.lastExchangeSl := by
      rw [activateTrail]
      split
      · rfl
      · rfl
    rw [kept]
    exact movedPositive.2.ne'
  have still : RegimeState.trailStepFor host.cfg
      (activateTrail host now (breakEven host seen).1).regime = step := by
    rw [same.regime]
    exact inForce
  have trailed := trail_leg takes works still price
  have result : (checkTrailAndStop host now price s).1 =
      (trail host price (activateTrail host now (breakEven host seen).1)).1 := by
    rw [checkTrailAndStop, if_neg (by simp [trading]),
      checkBreach_idle now clear, ← isSeen]
    simp [target]
  rw [result]
  refine ⟨?_, same.trans trailed.2⟩
  rw [trailed.1, armed.1, moved.1, leg, moved.2.fillTime, start.fillTime]
  rfl

end OrderManager

end RithmicEngine
