import RithmicEngine.Paper.MirrorGates
import RithmicEngine.Paper.PaperSeat
import RithmicEngine.Paper.StopParity
/-!
# Longs and shorts are mirror images

Two plain paper brokers, of which the second sees the market of the first reflected
about a constant on the tick grid and takes the opposite signals. Trade by trade the
second does what the first does, on the other side. The reflection passes through every
price but zero: the broker takes a working stop that is not positive for none, and so it
does with the price a market order is held against.
-/
namespace RithmicEngine

open TrailingStop (Inside Leg)

/-- The trade on the other side, every price reflected. -/
def PaperTradeRow.mirror (K : ℚ) (row : PaperTradeRow) : PaperTradeRow :=
  { row with
    direction := if row.direction = "LONG" then "SHORT" else "LONG"
    entryPrice := K - row.entryPrice
    exitPrice := K - row.exitPrice
    entryBbo := K - row.entryBbo
    exitBbo := K - row.exitBbo }

/-- The signal for the other side. -/
def OrbSignal.mirror : OrbSignal → OrbSignal
  | .none => .none
  | .buy => .sell
  | .sell => .buy
  | .flattenEod => .flattenEod

/-- The print on the other side. -/
def OrbTick.mirror (K : ℚ) (t : OrbTick) : OrbTick :=
  { t with price := K - t.price, isBuy := !t.isBuy }

/-- The two sides of a held direction. -/
theorem flip_long {dir : SignType} (held : dir ≠ 0) : decide (-dir > 0) = !decide (dir > 0) := by
  obtain rfl | rfl := dir_cases held
  · rfl
  · rfl

/-- Reflecting a price reflects its snapped level. -/
theorem PaperDesk.snap_mirror {desk : PaperDesk} {K : ℚ} (grid : desk.OnGrid K) {dir : SignType}
    (held : dir ≠ 0) (px : ℚ) : desk.snap (K - px) (-dir) = K - desk.snap px dir := by
  simp only [snap]
  split
  · rfl
  · next tick =>
    obtain ⟨n, rfl⟩ := (onGrid_iff (not_le.mp tick)).mp grid
    have shifted : (n * desk.tickSize - px) / desk.tickSize = n - px / desk.tickSize := by
      rw [sub_div, mul_div_cancel_right₀ _ (not_le.mp tick).ne']
    rw [shifted]
    obtain rfl | rfl := dir_cases held
    · have up : (n : ℚ) - px / desk.tickSize - 1 / 1000000000 =
          n + -(px / desk.tickSize + 1 / 1000000000) := by ring
      have level : ⌈(n : ℚ) - px / desk.tickSize - 1 / 1000000000⌉ =
          n - ⌊px / desk.tickSize + 1 / 1000000000⌋ := by
        rw [up, Int.ceil_intCast_add, Int.ceil_neg, ← sub_eq_add_neg]
      rw [if_neg (by decide), if_pos (by decide), level]
      push_cast
      ring
    · have down : (n : ℚ) - px / desk.tickSize + 1 / 1000000000 =
          n + -(px / desk.tickSize - 1 / 1000000000) := by ring
      have level : ⌊(n : ℚ) - px / desk.tickSize + 1 / 1000000000⌋ =
          n - ⌈px / desk.tickSize - 1 / 1000000000⌉ := by
        rw [down, Int.floor_intCast_add, Int.floor_neg, ← sub_eq_add_neg]
      rw [if_pos (by decide), if_neg (by decide), level]
      push_cast
      ring

/-! ## The readings of the session -/

section Readings

variable {K : ℚ} {regime regime' : Option SessionRegime}
  (sessions : Option.Rel (SessionRegime.Mirrors K) regime regime')

include sessions

theorem exitTrend_mirror (cfg : OrbConfig) :
    RegimeState.exitTrend cfg (SessionRegime.exits regime') =
      RegimeState.exitTrend cfg (SessionRegime.exits regime) := by
  cases sessions with
  | some m => exact m.exitTrend cfg
  | none => rfl

theorem PaperDesk.trailStep_mirror (desk : PaperDesk) :
    desk.trailStep regime' = desk.trailStep regime := by
  have trend := exitTrend_mirror sessions desk.cfg.toOrbConfig
  cases sessions with
  | some m =>
    simp only [SessionRegime.exits, Option.map_some] at trend
    simp only [trailStep, SessionRegime.exits, Option.map_some, RegimeState.trailStepFor,
      m.hasOpen, trend]
  | none => rfl

theorem PaperDesk.takeProfit_mirror (desk : PaperDesk) :
    desk.takeProfit regime' = desk.takeProfit regime := by
  have trend := exitTrend_mirror sessions desk.cfg.toOrbConfig
  cases sessions with
  | some m =>
    simp only [SessionRegime.exits, Option.map_some] at trend
    simp only [takeProfit, SessionRegime.exits, Option.map_some, RegimeState.takeProfitFor,
      m.hasOpen, trend]
  | none => rfl

theorem qtyFor_mirror (cfg : OrbConfig) :
    RegimeState.qtyFor cfg (SessionRegime.exits regime') =
      RegimeState.qtyFor cfg (SessionRegime.exits regime) := by
  cases sessions with
  | some m => simp only [SessionRegime.exits, Option.map_some, RegimeState.qtyFor, m.atrPts]
  | none => rfl

end Readings

namespace PaperBroker

/-- Two open positions are reflections of each other. -/
structure Opposed (K : ℚ) (b b' : PaperBroker) : Prop where
  leg : b'.leg = b.leg.reflect K
  qty : b'.qty = b.qty
  entryTimeUs : b'.entryTimeUs = b.entryTimeUs
  mae : b'.mae = b.mae
  spreadEntry : b'.spreadEntry = b.spreadEntry
  entryBbo : b'.entryBbo = K - b.entryBbo
  shadow : b.entryBbo = b.entryPrice ∨ Inside K b.entryBbo
  works : b.placedStop = b.stopPrice ∨ Inside K b.placedStop

/-- Two brokers are reflections of each other. Prices count only in a position. -/
structure Mirrors (K : ℚ) (b b' : PaperBroker) : Prop where
  risk : b'.risk = b.risk
  qs : b.qs.Mirrors K b'.qs
  posDir : b'.posDir = -b.posDir
  position : b.posDir ≠ 0 → Opposed K b b'
  pendingDir : b'.pendingDir = -b.pendingDir
  pendingSinceUs : b'.pendingSinceUs = b.pendingSinceUs
  pendingExitReason : b'.pendingExitReason = b.pendingExitReason
  warmup : b'.warmup = b.warmup
  entriesToday : b'.entriesToday = b.entriesToday
  cooldownUntilUs : b'.cooldownUntilUs = b.cooldownUntilUs
  lastTickUs : b'.lastTickUs = b.lastTickUs
  lastEtHour : b'.lastEtHour = b.lastEtHour
  lastEtMin : b'.lastEtMin = b.lastEtMin
  trades : b'.trades = b.trades.map (PaperTradeRow.mirror K)

/-- Fresh brokers mirror. -/
theorem Mirrors.fresh (K : ℚ) (desk : PaperDesk) :
    Mirrors K (PaperBroker.fresh desk) (PaperBroker.fresh desk) where
  risk := rfl
  qs := QuoteState.Mirrors.empty K
  posDir := rfl
  position := fun held => absurd rfl held
  pendingDir := rfl
  pendingSinceUs := rfl
  pendingExitReason := rfl
  warmup := rfl
  entriesToday := rfl
  cooldownUntilUs := rfl
  lastTickUs := rfl
  lastEtHour := rfl
  lastEtMin := rfl
  trades := rfl

namespace Opposed

variable {K : ℚ} {b b' : PaperBroker} (o : Opposed K b b')

include o

theorem entryPrice : b'.entryPrice = K - b.entryPrice := congrArg Leg.entry o.leg

theorem placedStop : b'.placedStop = K - b.placedStop := congrArg Leg.working o.leg

theorem stopPrice : b'.stopPrice = K - b.stopPrice := congrArg Leg.level o.leg

theorem long : b'.long = !b.long := congrArg Leg.long o.leg

theorem mfe : b'.mfe = b.mfe := congrArg Leg.mfe o.leg

theorem beMoved : b'.beMoved = b.beMoved := congrArg Leg.moved o.leg

end Opposed

/-! ## Where the reflection stops short

A price that is not positive is none. It matters where the broker asks for it: in the
price a market order is held against, when there is a book, and in the working stop that
a trail is to move. -/

/-- With a book at hand, the price of an exit is inside. -/
def Clears (K : ℚ) (t : OrbTick) (price : ℚ) (b : PaperBroker) : Prop :=
  b.qs.fresh t.tsMicros = true → Inside K price
deriving Decidable

/-- The trail moves the stop at this price. -/
def Trails (desk : PaperDesk) (regime : Option SessionRegime) (price : ℚ)
    (b : PaperBroker) : Prop :=
  b.trailArmed = true ∧ improves (trailLevel desk regime price b) b = true
deriving Decidable

/-- The position as the trail of a tick finds it. -/
def beforeTrail (desk : PaperDesk) (regime : Option SessionRegime) (t : OrbTick)
    (b : PaperBroker) : PaperBroker :=
  armTrail desk t.tsMicros (breakEven desk regime (trackExcursion t.price
    (bookBreakEven desk regime t (syncPlacedStop desk regime false b))))

/-- What a tick asks of the position it manages: every exit it can make and every working
stop its trail moves are positive, and their reflections too. -/
@[mk_iff]
structure Roomy (K : ℚ) (desk : PaperDesk) (regime : Option SessionRegime) (t : OrbTick)
    (b : PaperBroker) : Prop where
  market : Clears K t (marketExit desk t b) b
  stop : stopped t.price (syncPlacedStop desk regime false b) = true →
    Clears K t (stopFill desk t.price (syncPlacedStop desk regime false b)) b
  target : takeProfitHit desk regime t.price (syncPlacedStop desk regime false b) = true →
    Clears K t (target desk regime (syncPlacedStop desk regime false b)) b
  trail : Trails desk regime t.price (beforeTrail desk regime t b) →
    Inside K (beforeTrail desk regime t b).placedStop

instance decidableRoomy (K : ℚ) (desk : PaperDesk) (regime : Option SessionRegime) (t : OrbTick)
    (b : PaperBroker) : Decidable (Roomy K desk regime t b) :=
  decidable_of_iff' _ (roomy_iff ..)

/-! ## Managing the stop -/

section Restop

variable (desk : PaperDesk) (regime : Option SessionRegime)

variable {K : ℚ} {b : PaperBroker}

/-- A working stop at its level stays there, positive or not. -/
theorem syncPlacedStop_level (force : Bool) (level : b.placedStop = b.stopPrice) :
    (syncPlacedStop desk regime force b).leg = b.leg := by
  have synced : ({ b with placedStop := b.stopPrice } : PaperBroker).leg = b.leg := by
    simp only [leg, long, level]
  rw [syncPlacedStop]
  split
  · exact synced
  · split
    · exact synced
    · rfl

variable {desk} {regime} in
theorem trail_still {price : ℚ} (still : ¬Trails desk regime price b) :
    trail desk regime price b = b := if_neg still

/-- The working stop stays at its level or inside. -/
theorem syncPlacedStop_works (force : Bool)
    (works : b.placedStop = b.stopPrice ∨ Inside K b.placedStop) :
    (syncPlacedStop desk regime force b).placedStop =
        (syncPlacedStop desk regime force b).stopPrice ∨
      Inside K (syncPlacedStop desk regime force b).placedStop := by
  rw [syncPlacedStop]
  split
  · exact Or.inl rfl
  · split
    · exact Or.inl rfl
    · exact works

theorem breakEven_works (works : b.placedStop = b.stopPrice ∨ Inside K b.placedStop) :
    (breakEven desk regime b).placedStop = (breakEven desk regime b).stopPrice ∨
      Inside K (breakEven desk regime b).placedStop := by
  simp only [breakEven, syncPlacedStop, or_true, ↓reduceIte]
  split
  · split
    · exact Or.inl rfl
    · exact works
  · exact works

/-- The break-even move leaves the placed stop at its level, or inside the mirror's range. -/
theorem bookBreakEven_works (t : OrbTick)
    (works : b.placedStop = b.stopPrice ∨ Inside K b.placedStop) :
    (bookBreakEven desk regime t b).placedStop = (bookBreakEven desk regime t b).stopPrice ∨
      Inside K (bookBreakEven desk regime t b).placedStop := by
  simp only [bookBreakEven, syncPlacedStop, or_true, ↓reduceIte]
  split
  · split
    · exact Or.inl rfl
    · exact works
  · exact works

theorem armTrail_works (tsUs : Int) (works : b.placedStop = b.stopPrice ∨ Inside K b.placedStop) :
    (armTrail desk tsUs b).placedStop = (armTrail desk tsUs b).stopPrice ∨
      Inside K (armTrail desk tsUs b).placedStop := by
  rw [armTrail]
  split
  · exact works
  · exact works

/-- The trail leaves the placed stop at its level, or inside the mirror's range. -/
theorem trail_works {price : ℚ} (works : b.placedStop = b.stopPrice ∨ Inside K b.placedStop)
    (moves : Trails desk regime price b → Inside K b.placedStop) :
    (trail desk regime price b).placedStop = (trail desk regime price b).stopPrice ∨
      Inside K (trail desk regime price b).placedStop := by
  by_cases trails : Trails desk regime price b
  · have moved : trail desk regime price b =
        syncPlacedStop desk regime false (raiseStop (trailLevel desk regime price b) b) :=
      if_pos trails
    rw [moved]
    exact syncPlacedStop_works desk regime false (Or.inr (moves trails))
  · rw [trail_still trails]
    exact works

end Restop

namespace Mirrors

variable {K : ℚ} {b b' : PaperBroker} (m : Mirrors K b b')

include m

/-- Moving both stops keeps the reflection, if the legs are still reflections. -/
theorem restop (held : b.posDir ≠ 0) {c c' : PaperBroker}
    (moved : Restopped b c) (moved' : Restopped b' c') (leg : c'.leg = c.leg.reflect K)
    (works : c.placedStop = c.stopPrice ∨ Inside K c.placedStop) : Mirrors K c c' where
  risk := by rw [moved'.risk, moved.risk, m.risk]
  qs := by
    rw [moved'.qs, moved.qs]
    exact m.qs
  posDir := by rw [moved'.posDir, moved.posDir, m.posDir]
  position := fun _ =>
    { leg := leg
      qty := by rw [moved'.qty, moved.qty, (m.position held).qty]
      entryTimeUs := by rw [moved'.entryTimeUs, moved.entryTimeUs, (m.position held).entryTimeUs]
      mae := by rw [moved'.mae, moved.mae, (m.position held).mae]
      spreadEntry := by rw [moved'.spreadEntry, moved.spreadEntry, (m.position held).spreadEntry]
      entryBbo := by rw [moved'.entryBbo, moved.entryBbo, (m.position held).entryBbo]
      shadow := by
        rw [moved.entryBbo, moved.entryPrice]
        exact (m.position held).shadow
      works := works }
  pendingDir := by rw [moved'.pendingDir, moved.pendingDir, m.pendingDir]
  pendingSinceUs := by rw [moved'.pendingSinceUs, moved.pendingSinceUs, m.pendingSinceUs]
  pendingExitReason := by
    rw [moved'.pendingExitReason, moved.pendingExitReason, m.pendingExitReason]
  warmup := by rw [moved'.warmup, moved.warmup, m.warmup]
  entriesToday := by rw [moved'.entriesToday, moved.entriesToday, m.entriesToday]
  cooldownUntilUs := by rw [moved'.cooldownUntilUs, moved.cooldownUntilUs, m.cooldownUntilUs]
  lastTickUs := by rw [moved'.lastTickUs, moved.lastTickUs, m.lastTickUs]
  lastEtHour := by rw [moved'.lastEtHour, moved.lastEtHour, m.lastEtHour]
  lastEtMin := by rw [moved'.lastEtMin, moved.lastEtMin, m.lastEtMin]
  trades := by
    simp only [PaperBroker.trades, moved'.outbox, moved.outbox]
    exact m.trades

theorem held_mirror (held : b.posDir ≠ 0) : b'.posDir ≠ 0 := by
  rw [m.posDir]
  obtain dir | dir := dir_cases held
  · rw [dir]
    decide
  · rw [dir]
    decide

variable {desk : PaperDesk} {regime regime' : Option SessionRegime}

/-- Snapping on the other side reflects snapping on this one. -/
theorem snaps (held : b.posDir ≠ 0) (grid : desk.OnGrid K) (px : ℚ) :
    desk.snap (K - px) b'.posDir = K - desk.snap px b.posDir := by
  rw [m.posDir]
  exact PaperDesk.snap_mirror grid held px

/-- The points of a position, on either side. -/
theorem points (held : b.posDir ≠ 0) (price : ℚ) :
    PaperBroker.points (K - price) b' = PaperBroker.points price b := by
  simp only [PaperBroker.points, m.posDir, (m.position held).entryPrice, SignType.coe_neg]
  ring

/-- Syncing the placed stop mirrors. -/
theorem syncPlacedStop (held : b.posDir ≠ 0)
    (sessions : Option.Rel (SessionRegime.Mirrors K) regime regime') :
    Mirrors K (syncPlacedStop desk regime false b) (syncPlacedStop desk regime' false b') := by
  have o := m.position held
  refine m.restop held (syncPlacedStop_restops desk regime false b)
    (syncPlacedStop_restops desk regime' false b') ?_
      (syncPlacedStop_works desk regime false o.works)
  obtain level | inside := o.works
  · have level' : b'.placedStop = b'.stopPrice := by rw [o.placedStop, o.stopPrice, level]
    rw [syncPlacedStop_level desk regime false level,
      syncPlacedStop_level desk regime' false level',
      o.leg]
  · have inside' : 0 < b'.placedStop := by
      rw [o.placedStop]
      exact inside.reflect.positive
    rw [syncPlacedStop_leg inside.positive, syncPlacedStop_leg inside', o.leg,
      PaperDesk.trailStep_mirror sessions, Leg.reflect_resync]

/-- The break-even move mirrors, on the grid. -/
theorem breakEven (held : b.posDir ≠ 0) (grid : desk.OnGrid K) :
    Mirrors K (breakEven desk regime b) (breakEven desk regime' b') := by
  refine m.restop held (breakEven_restops desk regime b) (breakEven_restops desk regime' b') ?_
    (breakEven_works desk regime (m.position held).works)
  rw [breakEven_leg held, breakEven_leg (m.held_mirror held), (m.position held).leg,
    Leg.reflect_breakEven (m.snaps held grid)]

theorem armTrail (held : b.posDir ≠ 0) (tsUs : Int) :
    Mirrors K (armTrail desk tsUs b) (armTrail desk tsUs b') := by
  refine m.restop held (armTrail_restops desk tsUs b) (armTrail_restops desk tsUs b') ?_
    (armTrail_works desk tsUs (m.position held).works)
  rw [armTrail_leg, armTrail_leg, (m.position held).leg, (m.position held).entryTimeUs,
    Leg.reflect_arm]

/-- A trail that moves the stop finds a working stop inside. -/
theorem trail (held : b.posDir ≠ 0) (grid : desk.OnGrid K)
    (sessions : Option.Rel (SessionRegime.Mirrors K) regime regime') {price : ℚ}
    (works : Trails desk regime price b → Inside K b.placedStop) :
    Mirrors K (trail desk regime price b) (trail desk regime' (K - price) b') := by
  have o := m.position held
  have held' : b'.posDir ≠ 0 := m.held_mirror held
  have snaps := m.snaps held grid
  refine m.restop held (trail_restops desk regime price b)
    (trail_restops desk regime' (K - price) b') ?_ (trail_works desk regime o.works works)
  by_cases trails : Trails desk regime price b
  · have inside := works trails
    have inside' : 0 < b'.placedStop := by
      rw [o.placedStop]
      exact inside.reflect.positive
    rw [trail_leg held inside.positive, trail_leg held' inside', o.leg,
      PaperDesk.trailStep_mirror sessions, Leg.reflect_trail snaps]
  · have same : Trails desk regime' (K - price) b' ↔ Trails desk regime price b := by
      have level : PaperBroker.trailLevel desk regime' (K - price) b' =
          K - PaperBroker.trailLevel desk regime price b := by
        rw [trailLevel_leg held', trailLevel_leg held, o.leg, PaperDesk.trailStep_mirror sessions,
          Leg.reflect_trailLevel snaps]
      have armed : b'.trailArmed = b.trailArmed := congrArg Leg.trailing o.leg
      rw [Trails, Trails, armed, level, improves_leg held', improves_leg held, o.leg,
        Leg.reflect_improves]
    have still : ¬Trails desk regime' (K - price) b' := fun moves => trails (same.mp moves)
    rw [trail_still trails, trail_still still, o.leg]

/-- The break-even move on a book that flips. -/
theorem bookBreakEven (held : b.posDir ≠ 0) (grid : desk.OnGrid K)
    (t : OrbTick) :
    Mirrors K (bookBreakEven desk regime t b) (bookBreakEven desk regime' (t.mirror K) b') := by
  have o := m.position held
  have held' : b'.posDir ≠ 0 := m.held_mirror held
  refine m.restop held (bookBreakEven_restops desk regime t b)
    (bookBreakEven_restops desk regime' (t.mirror K) b') ?_
      (bookBreakEven_works desk regime t o.works)
  have flips : b'.qs.flippedAgainst b'.long t.tsMicros = b.qs.flippedAgainst b.long t.tsMicros := by
    rw [o.long, m.qs.flippedAgainst]
  have level : desk.snap (breakEvenLevel desk b') b'.posDir =
      K - desk.snap (breakEvenLevel desk b) b.posDir := by
    rw [breakEvenLevel_leg held', breakEvenLevel_leg held, o.leg,
      Leg.reflect_breakEvenLevel (m.snaps held grid)]
  simp only [PaperBroker.bookBreakEven, OrbTick.mirror, o.beMoved, flips, m.points held,
    level, improves_leg held', improves_leg held, o.leg, Leg.reflect_improves]
  split
  · split
    · simp only [PaperBroker.syncPlacedStop, or_true, ↓reduceIte]
      obtain ⟨be, isLevel⟩ : ∃ be, be = desk.snap (breakEvenLevel desk b) b.posDir := ⟨_, rfl⟩
      rw [← isLevel]
      exact congrArg (fun leg : Leg ℚ =>
        { leg with moved := true, level := K - be, working := K - be }) o.leg
    · exact o.leg
  · exact o.leg

/-- The excursions mirror: the gain of the one is the gain of the other. -/
theorem trackExcursion (held : b.posDir ≠ 0) (price : ℚ) :
    Mirrors K (trackExcursion price b) (trackExcursion (K - price) b') := by
  have o := m.position held
  have gain : (if b'.posDir > 0 then K - price - b'.entryPrice else b'.entryPrice - (K - price)) =
      if b.posDir > 0 then price - b.entryPrice else b.entryPrice - price := by
    rw [m.posDir, o.entryPrice]
    obtain dir | dir := dir_cases held
    · rw [dir, if_neg (by decide), if_pos (by decide), sub_sub_sub_cancel_left]
    · rw [dir, if_pos (by decide), if_neg (by decide), sub_sub_sub_cancel_left]
  exact { m with
    position := fun _ =>
      { o with
        leg := by rw [trackExcursion_leg, trackExcursion_leg, o.leg, Leg.reflect_track]
        mae := by simp only [PaperBroker.trackExcursion, gain, o.mae] } }

/-- Saving the position keeps the mirror. -/
theorem saveLeft (unreal : ℚ) :
    Mirrors K (persistPosition desk unreal b) b' := by
  have trades := persistPosition_trades desk unreal b
  rw [persistPosition] at trades ⊢
  split at trades
  · next unsaved =>
    rw [if_pos unsaved]
    exact m
  · next saves =>
    rw [if_neg saves]
    exact { m with
      position := fun held => { m.position held with }
      trades := by rw [trades, m.trades] }

/-- Saving the mirrored position keeps the mirror. -/
theorem saveRight (unreal : ℚ) :
    Mirrors K b (persistPosition desk unreal b') := by
  have trades := persistPosition_trades desk unreal b'
  rw [persistPosition] at trades ⊢
  split at trades
  · next unsaved =>
    rw [if_pos unsaved]
    exact m
  · next saves =>
    rw [if_neg saves]
    exact { m with
      position := fun held => { m.position held with }
      trades := by rw [trades, m.trades] }

theorem settleLeft (unreal : ℚ) : Mirrors K (b.settle desk unreal) b' := by
  rw [settle]
  split
  · have clean : Mirrors K { b with slDirty := false } b' :=
      { m with position := fun held => { m.position held with } }
    exact clean.saveLeft unreal
  · exact m

theorem settleRight (unreal : ℚ) : Mirrors K b (b'.settle desk unreal) := by
  rw [settle]
  split
  · have clean : Mirrors K b { b' with slDirty := false } :=
      { m with position := fun held => { m.position held with } }
    exact clean.saveRight unreal
  · exact m

/-- The open profit, on either side. -/
theorem unrealized (price : ℚ) :
    unrealized desk (K - price) b' = unrealized desk price b := by
  by_cases held : b.posDir = 0
  · have flat : b'.posDir = 0 := by
      rw [m.posDir, held]
      decide
    rw [PaperBroker.unrealized, if_pos flat, PaperBroker.unrealized, if_pos held]
  · have o := m.position held
    rw [PaperBroker.unrealized, if_neg (m.held_mirror held), PaperBroker.unrealized, if_neg held,
      m.posDir, o.entryPrice, o.qty, SignType.coe_neg]
    ring

/-- The mark of an open position mirrors. -/
theorem markOpen (price : ℚ) :
    Mirrors K (markOpen desk price b) (markOpen desk (K - price) b') := by
  have noted : Mirrors K
      { b with risk := b.risk.updateUnrealized (some (PaperBroker.unrealized desk price b)) }
      { b' with
        risk := b'.risk.updateUnrealized
          (some (PaperBroker.unrealized desk (K - price) b')) } :=
    { m with
      risk := by simp only [m.risk, m.unrealized]
      position := fun held => { m.position held with } }
  rw [markOpen_settles, markOpen_settles]
  exact (noted.settleLeft _).settleRight _

/-! ### Exits and entries -/

variable {fill : ℚ} {dir : SignType} {t : OrbTick} {tsUs : Int}

theorem exitBbo (held : b.posDir ≠ 0)
    (inside : b.qs.fresh tsUs = true → Inside K fill) :
    PaperBroker.exitBbo (K - fill) tsUs b' = K - PaperBroker.exitBbo fill tsUs b := by
  simp only [PaperBroker.exitBbo, m.qs.fresh, (m.position held).long]
  split
  · exact m.qs.marketFill (!b.long) tsUs fill inside
  · rfl

/-- The touch at the entry, with the fill in its place where there was no book. -/
theorem entryTouch (held : b.posDir ≠ 0) :
    (if b'.entryBbo > 0 then b'.entryBbo else b'.entryPrice) =
      K - (if b.entryBbo > 0 then b.entryBbo else b.entryPrice) := by
  have o := m.position held
  rw [o.entryBbo, o.entryPrice]
  obtain same | inside := o.shadow
  · rw [same, ite_self, ite_self]
  · rw [if_pos inside.reflect.positive, if_pos inside.positive]

/-- The row of a trade that closes at the reflected price. -/
theorem tradeRow (held : b.posDir ≠ 0) (reason : String)
    (inside : b.qs.fresh tsUs = true → Inside K fill) :
    b'.tradeRow desk (K - fill) tsUs reason = (b.tradeRow desk fill tsUs reason).mirror K := by
  have o := m.position held
  have booked : (if desk.cfg.fillModel = "bbo" ∧ b.qs.fresh tsUs = true then
      K - PaperBroker.exitBbo fill tsUs b else K - fill) =
      K - (if desk.cfg.fillModel = "bbo" ∧ b.qs.fresh tsUs = true then
        PaperBroker.exitBbo fill tsUs b else fill) := by
    split
    · rfl
    · rfl
  have points (price other : ℚ) : (K - price - (K - other)) * (b'.posDir : ℚ) =
      (price - other) * b.posDir := by
    rw [m.posDir, SignType.coe_neg]
    ring
  have side : (if b'.posDir > 0 then "LONG" else "SHORT") =
      if (if b.posDir > 0 then "LONG" else "SHORT") = "LONG" then "SHORT" else "LONG" := by
    rw [m.posDir]
    obtain dir | dir := dir_cases held
    · rw [dir]
      decide
    · rw [dir]
      decide
  have touch := m.entryTouch held
  rw [o.entryPrice] at touch
  simp only [PaperBroker.tradeRow, PaperTradeRow.mirror, m.qs.fresh, m.exitBbo held inside, booked,
    touch, o.entryPrice, points, side, o.qty, o.entryTimeUs, o.spreadEntry, o.mfe,
    o.mae, m.qs.spreadTicks]
  rfl

theorem recordTrade (row row' : PaperTradeRow) :
    Mirrors K (emit [.recordTrade row] b) (emit [.recordTrade row'] b') :=
  { m with
    position := fun held => { m.position held with }
    trades := by
      simp only [PaperBroker.trades, emit, List.filterMap_append, List.filterMap_cons, closedRow,
        List.filterMap_nil, List.append_nil]
      exact m.trades }

/-- A closed trade is told mirrored. -/
theorem tradeClosed (row : PaperTradeRow) :
    Mirrors K (emit [.tradeClosed row] b) (emit [.tradeClosed (row.mirror K)] b') :=
  { m with
    position := fun held => { m.position held with }
    trades := by
      simp only [PaperBroker.trades, emit, List.filterMap_append, List.filterMap_cons, closedRow,
        List.filterMap_nil, List.map_append, List.map_cons, List.map_nil]
      exact congrArg (· ++ [row.mirror K]) m.trades }

/-- Leaving both positions closes a trade and its reflection. -/
theorem exitPosition (held : b.posDir ≠ 0) (reason : String)
    (inside : b.qs.fresh tsUs = true → Inside K fill) :
    Mirrors K (b.exitPosition desk fill tsUs reason)
      (b'.exitPosition desk (K - fill) tsUs reason) := by
  have row : b'.tradeRow desk (K - fill) tsUs reason =
      (b.tradeRow desk fill tsUs reason).mirror K := m.tradeRow held reason inside
  simp only [PaperBroker.exitPosition, row]
  apply tradeClosed
  apply saveLeft
  apply saveRight
  obtain ⟨c, c', isLeft, isLeft', left⟩ : ∃ c c',
      c = { b with
        mfe := (b.tradeRow desk fill tsUs reason).mfePts
        mae := (b.tradeRow desk fill tsUs reason).maePts
        posDir := 0
        qty := 0
        risk := (b.risk.updateUnrealized (some 0)).onTradePnl
          (some (b.tradeRow desk fill tsUs reason).pnlUsd)
        cooldownUntilUs :=
          if desk.cfg.stopCooldownSecs > 0 then tsUs + desk.cfg.stopCooldownSecs * 1000000
          else b.cooldownUntilUs } ∧
      c' = { b' with
        mfe := ((b.tradeRow desk fill tsUs reason).mirror K).mfePts
        mae := ((b.tradeRow desk fill tsUs reason).mirror K).maePts
        posDir := 0
        qty := 0
        risk := (b'.risk.updateUnrealized (some 0)).onTradePnl
          (some ((b.tradeRow desk fill tsUs reason).mirror K).pnlUsd)
        cooldownUntilUs :=
          if desk.cfg.stopCooldownSecs > 0 then tsUs + desk.cfg.stopCooldownSecs * 1000000
          else b'.cooldownUntilUs } ∧ Mirrors K c c' := by
    refine ⟨_, _, rfl, rfl, ?_⟩
    exact { m with
      risk := by
        rw [m.risk]
        rfl
      posDir := rfl
      position := fun open_ => absurd rfl open_
      cooldownUntilUs := by rw [m.cooldownUntilUs] }
  rw [← isLeft, ← isLeft']
  split
  · exact left.recordTrade _ _
  · exact left

/-- A fresh position and its reflection. -/
theorem enter (grid : desk.OnGrid K) (some : dir ≠ 0)
    (sessions : Option.Rel (SessionRegime.Mirrors K) regime regime') (tsUs : Int)
    (entryBbo : b'.entryBbo = K - b.entryBbo) (spreadEntry : b'.spreadEntry = b.spreadEntry)
    (shadow : b.entryBbo = fill ∨ Inside K b.entryBbo) :
    Mirrors K (enter desk regime dir fill tsUs b)
      (enter desk regime' (-dir) (K - fill) tsUs b') := by
  have stop : desk.snap (K - fill - (-dir : SignType) * desk.cfg.slPoints) (-dir) =
      K - desk.snap (fill - dir * desk.cfg.slPoints) dir := by
    rw [← PaperDesk.snap_mirror grid some, SignType.coe_neg]
    ring_nf
  have qty : entryQty desk regime' (decide (-dir > 0)) tsUs b' =
      entryQty desk regime (decide (dir > 0)) tsUs b := by
    rw [flip_long some]
    simp only [entryQty, qtyFor_mirror sessions, m.qs.fresh, m.qs.agrees]
  simp only [PaperBroker.enter]
  apply saveLeft
  apply saveRight
  exact { m with
    posDir := rfl
    position := fun _ =>
      { leg := by simp only [leg, Leg.reflect, PaperBroker.long, stop, flip_long some]
        qty := qty
        entryTimeUs := rfl
        mae := rfl
        spreadEntry := spreadEntry
        entryBbo := entryBbo
        shadow := shadow
        works := Or.inl rfl }
    entriesToday := by rw [m.entriesToday] }

/-! ### One tick -/

theorem marketExit (t : OrbTick) :
    marketExit desk (t.mirror K) b' = K - marketExit desk t b := by
  simp only [PaperBroker.marketExit, OrbTick.mirror, m.posDir, SignType.coe_neg]
  ring

/-- The mirrored price hits the mirrored stop. -/
theorem stopped (held : b.posDir ≠ 0) (price : ℚ) :
    stopped (K - price) b' = stopped price b := by
  simp only [PaperBroker.stopped, m.posDir, (m.position held).placedStop]
  obtain dir | dir := dir_cases held
  · rw [dir, if_neg (by decide), if_pos (by decide)]
    simp only [ge_iff_le, sub_le_sub_iff_left]
  · rw [dir, if_pos (by decide), if_neg (by decide)]
    simp only [ge_iff_le, sub_le_sub_iff_left]

/-- The fill of a stop mirrors. -/
theorem stopFill (held : b.posDir ≠ 0) (price : ℚ) :
    stopFill desk (K - price) b' = K - stopFill desk price b := by
  have shifted : b'.placedStop - b'.posDir * desk.slip =
      K - (b.placedStop - b.posDir * desk.slip) := by
    rw [m.posDir, (m.position held).placedStop, SignType.coe_neg]
    ring
  simp only [PaperBroker.stopFill]
  rw [shifted, m.posDir]
  obtain dir | dir := dir_cases held
  · rw [dir, if_neg (by decide), if_pos (by decide), max_sub_sub_left]
  · rw [dir, if_pos (by decide), if_neg (by decide), min_sub_sub_left]

theorem breakEvenLevel (held : b.posDir ≠ 0) :
    breakEvenLevel desk b' = K - breakEvenLevel desk b := by
  rw [PaperBroker.breakEvenLevel, PaperBroker.breakEvenLevel, m.posDir,
    (m.position held).entryPrice, SignType.coe_neg]
  ring

/-- The reason of a stop exit is the same on both sides. -/
theorem stopExitReason (held : b.posDir ≠ 0) (grid : desk.OnGrid K) :
    stopExitReason desk b' = stopExitReason desk b := by
  have past : (if b'.posDir > 0 then K - b.placedStop > K - b.breakEvenLevel desk + 1 / 1000000000
      else K - b.placedStop < K - b.breakEvenLevel desk - 1 / 1000000000) ↔
      (if b.posDir > 0 then b.placedStop > b.breakEvenLevel desk + 1 / 1000000000
        else b.placedStop < b.breakEvenLevel desk - 1 / 1000000000) := by
    rw [m.posDir]
    obtain dir | dir := dir_cases held
    · rw [dir, if_neg (by decide), if_pos (by decide)]
      constructor
      · intro above
        linarith
      · intro below
        linarith
    · rw [dir, if_pos (by decide), if_neg (by decide)]
      constructor
      · intro below
        linarith
      · intro above
        linarith
  simp only [PaperBroker.stopExitReason, m.breakEvenLevel held, m.snaps held grid, past,
    (m.position held).placedStop, sub_sub_sub_cancel_left]
  rw [abs_sub_comm]

theorem target (held : b.posDir ≠ 0)
    (sessions : Option.Rel (SessionRegime.Mirrors K) regime regime') :
    target desk regime' b' = K - target desk regime b := by
  rw [PaperBroker.target, PaperBroker.target, m.posDir, (m.position held).entryPrice,
    SignType.coe_neg, PaperDesk.takeProfit_mirror sessions]
  ring

/-- The mirrored price hits the mirrored target. -/
theorem takeProfitHit (held : b.posDir ≠ 0)
    (sessions : Option.Rel (SessionRegime.Mirrors K) regime regime') (price : ℚ) :
    takeProfitHit desk regime' (K - price) b' = takeProfitHit desk regime price b := by
  simp only [PaperBroker.takeProfitHit, m.target held sessions,
    PaperDesk.takeProfit_mirror sessions,
    m.posDir]
  obtain dir | dir := dir_cases held
  · rw [dir, if_neg (by decide), if_pos (by decide)]
    simp only [ge_iff_le, sub_le_sub_iff_left]
  · rw [dir, if_pos (by decide), if_neg (by decide)]
    simp only [ge_iff_le, sub_le_sub_iff_left]

/-- A position that no exit closes. -/
theorem ratchet (held : b.posDir ≠ 0) (grid : desk.OnGrid K)
    (sessions : Option.Rel (SessionRegime.Mirrors K) regime regime')
    (moves : Trails desk regime t.price
        (PaperBroker.armTrail desk t.tsMicros
          (PaperBroker.breakEven desk regime (PaperBroker.trackExcursion t.price b))) →
      Inside K (PaperBroker.armTrail desk t.tsMicros
        (PaperBroker.breakEven desk regime (PaperBroker.trackExcursion t.price b))).placedStop) :
    Mirrors K (ratchet desk regime t b) (ratchet desk regime' (t.mirror K) b') := by
  have tracked := m.trackExcursion held t.price
  have moved : Mirrors K
      (PaperBroker.breakEven desk regime (PaperBroker.trackExcursion t.price b))
      (PaperBroker.breakEven desk regime' (PaperBroker.trackExcursion (K - t.price) b')) :=
    tracked.breakEven held grid
  have open_ : (PaperBroker.breakEven desk regime
      (PaperBroker.trackExcursion t.price b)).posDir ≠ 0 := by
    rw [(breakEven_restops desk regime (PaperBroker.trackExcursion t.price b)).posDir]
    exact held
  have armed : Mirrors K
      (PaperBroker.armTrail desk t.tsMicros
        (PaperBroker.breakEven desk regime (PaperBroker.trackExcursion t.price b)))
      (PaperBroker.armTrail desk t.tsMicros
        (PaperBroker.breakEven desk regime' (PaperBroker.trackExcursion (K - t.price) b'))) :=
    moved.armTrail open_ t.tsMicros
  have still : (PaperBroker.armTrail desk t.tsMicros (PaperBroker.breakEven desk regime
      (PaperBroker.trackExcursion t.price b))).posDir ≠ 0 := by
    rw [(armTrail_restops desk t.tsMicros _).posDir]
    exact open_
  exact (armed.trail still grid sessions moves).markOpen t.price

/-- Managing a position mirrors, level by level and reason by reason. -/
theorem manage (held : b.posDir ≠ 0) (grid : desk.OnGrid K)
    (sessions : Option.Rel (SessionRegime.Mirrors K) regime regime')
    (roomy : Roomy K desk regime t b) :
    Mirrors K (manage desk regime t b) (manage desk regime' (t.mirror K) b') := by
  have synced : Mirrors K (PaperBroker.syncPlacedStop desk regime false b)
      (PaperBroker.syncPlacedStop desk regime' false b') := m.syncPlacedStop held sessions
  have same := syncPlacedStop_restops desk regime false b
  obtain ⟨market, stop, target, trail⟩ := roomy
  rw [beforeTrail] at trail
  simp only [Clears, ← same.qs] at market stop target
  simp only [PaperBroker.manage]
  generalize PaperBroker.syncPlacedStop desk regime false b = c
    at synced same market stop target trail ⊢
  generalize PaperBroker.syncPlacedStop desk regime' false b' = c' at synced ⊢
  have open_ : c.posDir ≠ 0 := by
    rw [same.posDir]
    exact held
  have o := synced.position open_
  have out : PaperBroker.marketExit desk t b = PaperBroker.marketExit desk t c := by
    rw [PaperBroker.marketExit, PaperBroker.marketExit, same.posDir]
  have hit : PaperBroker.stopped (t.mirror K).price c' = PaperBroker.stopped t.price c :=
    synced.stopped open_ t.price
  have taken : PaperBroker.takeProfitHit desk regime' (t.mirror K).price c' =
      PaperBroker.takeProfitHit desk regime t.price c := synced.takeProfitHit open_ sessions t.price
  have why : c'.qs.bookExit desk.cfg c'.long (t.mirror K).tsMicros
      (PaperBroker.points (t.mirror K).price c') =
      c.qs.bookExit desk.cfg c.long t.tsMicros (PaperBroker.points t.price c) := by
    have read : PaperBroker.points (t.mirror K).price c' = PaperBroker.points t.price c :=
      synced.points open_ t.price
    rw [read, o.long]
    exact synced.qs.bookExit desk.cfg c.long t.tsMicros (PaperBroker.points t.price c)
  rw [hit, taken, why]
  split
  · next stops =>
    have fill : PaperBroker.stopFill desk (t.mirror K).price c' =
        K - PaperBroker.stopFill desk t.price c := synced.stopFill open_ t.price
    rw [fill, synced.stopExitReason open_ grid]
    exact synced.exitPosition open_ _ (stop stops)
  · split
    · next takes =>
      rw [synced.target open_ sessions]
      exact synced.exitPosition open_ _ (target takes)
    · split
      · rw [synced.marketExit]
        rw [out] at market
        exact synced.exitPosition open_ _ market
      · have flipped : Mirrors K (PaperBroker.bookBreakEven desk regime t c)
            (PaperBroker.bookBreakEven desk regime' (t.mirror K) c') :=
          synced.bookBreakEven open_ grid t
        have still : (PaperBroker.bookBreakEven desk regime t c).posDir ≠ 0 := by
          rw [(bookBreakEven_restops desk regime t c).posDir]
          exact open_
        exact flipped.ratchet still grid sessions trail

theorem flat_mirror : b'.posDir = 0 ↔ b.posDir = 0 := by
  constructor
  · intro flat
    by_contra held
    exact m.held_mirror held flat
  · intro flat
    rw [m.posDir, flat]
    decide

/-- Working a tick mirrors, where the position has room for its levels. -/
theorem work (grid : desk.OnGrid K)
    (sessions : Option.Rel (SessionRegime.Mirrors K) regime regime')
    (roomy : b.posDir ≠ 0 → Roomy K desk regime t b) :
    Mirrors K (work desk regime t b) (work desk regime' (t.mirror K) b') := by
  have minute : b'.lastMinute = b.lastMinute := by
    rw [PaperBroker.lastMinute, PaperBroker.lastMinute, m.lastEtHour, m.lastEtMin]
  have halts : b'.halted = b.halted := by rw [PaperBroker.halted, PaperBroker.halted, m.risk]
  have asks : (b'.pendingExitReason ≠ "" ∧ b'.posDir ≠ 0) ↔
      (b.pendingExitReason ≠ "" ∧ b.posDir ≠ 0) := by
    rw [m.pendingExitReason, ne_eq, ne_eq, ne_eq, m.flat_mirror]
  simp only [PaperBroker.work, asks, m.flat_mirror, minute, halts]
  split
  · next asked =>
    have cleared : Mirrors K { b with pendingExitReason := "" }
        { b' with pendingExitReason := "" } :=
      { m with
        pendingExitReason := rfl
        position := fun held => { m.position held with } }
    rw [m.marketExit, m.pendingExitReason]
    exact cleared.exitPosition asked.2 _ (roomy asked.2).market
  · split
    · next flat =>
      exact { m with
        risk := by rw [m.risk]
        position := fun held => absurd flat held }
    · next held =>
      split
      · rw [m.marketExit]
        exact m.exitPosition held _ (roomy held).market
      · split
        · rw [m.marketExit]
          exact m.exitPosition held _ (roomy held).market
        · exact m.manage held grid sessions (roomy held)

theorem seeTick (t : OrbTick) :
    Mirrors K (seeTick t b) (seeTick (t.mirror K) b') :=
  { m with
    lastTickUs := rfl
    lastEtHour := rfl
    lastEtMin := rfl
    position := fun held => { m.position held with } }

theorem predates (t : OrbTick) :
    predates (t.mirror K) b' = predates t b := by
  by_cases held : b.posDir = 0
  · simp [PaperBroker.predates, held, m.flat_mirror.mpr held]
  · simp [PaperBroker.predates, held, m.held_mirror held, (m.position held).entryTimeUs,
      OrbTick.mirror]

theorem waiting_mirror : b'.pendingDir = 0 ↔ b.pendingDir = 0 := by
  rw [m.pendingDir]
  constructor
  · intro none
    by_contra some
    obtain dir | dir := dir_cases some
    · rw [dir] at none
      exact absurd none (by decide)
    · rw [dir] at none
      exact absurd none (by decide)
  · intro none
    rw [none]
    decide

/-- Filling a pending entry mirrors, from the snapped stop to the trade's record. -/
theorem fillPending (grid : desk.OnGrid K)
    (sessions : Option.Rel (SessionRegime.Mirrors K) regime regime') (inside : Inside K t.price) :
    Mirrors K (fillPending desk regime t b) (fillPending desk regime' (t.mirror K) b') := by
  by_cases waits : b.pendingDir = 0
  · have waits' : b'.pendingDir = 0 := m.waiting_mirror.mpr waits
    simp only [PaperBroker.fillPending, waits, waits', ne_eq, not_true_eq_false, false_and,
      ↓reduceIte]
    exact m
  · have book : waitsForBook desk (t.mirror K) b' = waitsForBook desk t b := by
      simp only [waitsForBook, OrbTick.mirror, m.pendingSinceUs, m.pendingDir, flip_long waits,
        m.qs.fillReady]
    simp only [PaperBroker.fillPending, ne_eq, m.waiting_mirror, m.flat_mirror, book]
    split
    · next fills =>
      have some : b.pendingDir ≠ 0 := fills.1
      have slipped : (t.mirror K).price + b'.pendingDir * desk.slip =
          K - (t.price + b.pendingDir * desk.slip) := by
        rw [m.pendingDir, SignType.coe_neg, OrbTick.mirror]
        ring
      rw [slipped]
      obtain ⟨slipFill, isSlip⟩ : ∃ slipFill, slipFill = t.price + b.pendingDir * desk.slip :=
        ⟨_, rfl⟩
      rw [← isSlip]
      have booked : b'.qs.marketFill (decide (b'.pendingDir > 0)) (t.mirror K).tsMicros
          (K - slipFill) (t.mirror K).price =
          K - b.qs.marketFill (decide (b.pendingDir > 0)) t.tsMicros slipFill t.price := by
        rw [m.pendingDir, flip_long some]
        exact m.qs.marketFill _ _ _ fun _ => inside
      have shadow : b.qs.marketFill (decide (b.pendingDir > 0)) t.tsMicros slipFill t.price =
            (if desk.cfg.fillModel = "bbo" ∧ b.qs.fresh t.tsMicros = true then
              b.qs.marketFill (decide (b.pendingDir > 0)) t.tsMicros slipFill t.price
            else slipFill) ∨
          Inside K (b.qs.marketFill (decide (b.pendingDir > 0)) t.tsMicros slipFill t.price) := by
        by_cases current : b.qs.fresh t.tsMicros = true
        · exact Or.inr (m.qs.marketFill_inside _ slipFill current inside)
        · simp only [Bool.not_eq_true] at current
          apply Or.inl
          simp [QuoteState.marketFill, current]
      rw [booked]
      obtain ⟨bookFill, isBook⟩ : ∃ bookFill, bookFill =
        b.qs.marketFill (decide (b.pendingDir > 0)) t.tsMicros slipFill t.price := ⟨_, rfl⟩
      rw [← isBook] at shadow ⊢
      have reflected : (if desk.cfg.fillModel = "bbo" ∧
        b'.qs.fresh (t.mirror K).tsMicros = true then
          K - bookFill else K - slipFill) =
          K - (if desk.cfg.fillModel = "bbo" ∧ b.qs.fresh t.tsMicros = true then bookFill
            else slipFill) := by
        have fresh : b'.qs.fresh (t.mirror K).tsMicros = b.qs.fresh t.tsMicros :=
          m.qs.fresh t.tsMicros
        rw [fresh]
        split
        · rfl
        · rfl
      have waiting : Mirrors K
          { b with
            pendingDir := 0
            entryBbo := bookFill
            spreadEntry :=
              if b.qs.fresh t.tsMicros then b.qs.q.spreadTicks desk.tickSize else -1 }
          { b' with
            pendingDir := 0
            entryBbo := K - bookFill
            spreadEntry :=
              if b'.qs.fresh t.tsMicros then b'.qs.q.spreadTicks desk.tickSize else -1 } :=
        { m with
          pendingDir := rfl
          position := fun held => absurd fills.2.1 held }
      have spread : (if b'.qs.fresh t.tsMicros then b'.qs.q.spreadTicks desk.tickSize else -1) =
          if b.qs.fresh t.tsMicros then b.qs.q.spreadTicks desk.tickSize else -1 := by
        rw [m.qs.fresh, m.qs.spreadTicks]
      rw [reflected, m.pendingDir]
      exact waiting.enter grid some sessions t.tsMicros rfl spread shadow
    · exact m

/-- One print and its reflection. -/
theorem onTick (grid : desk.OnGrid K)
    (sessions : Option.Rel (SessionRegime.Mirrors K) regime regime') (inside : Inside K t.price)
    (roomy : (PaperBroker.fillPending desk regime t (PaperBroker.seeTick t b)).posDir ≠ 0 →
      Roomy K desk regime t (PaperBroker.fillPending desk regime t (PaperBroker.seeTick t b))) :
    Mirrors K (onTick desk regime t b) (onTick desk regime' (t.mirror K) b') := by
  have seen := m.seeTick t
  simp only [PaperBroker.onTick, seen.predates]
  split
  · exact seen
  · exact (seen.fillPending grid sessions inside).work grid sessions roomy

/-! ### Signals and quotes -/

theorem onQuote {q : Quote} (bid : Inside K q.bid) (ask : Inside K q.ask) :
    Mirrors K (onQuote desk q b) (onQuote desk (q.mirror K) b') :=
  { m with
    qs := m.qs.onQuote bid ask desk.tickSize
    position := fun held => { m.position held with } }

theorem resetDay : Mirrors K (resetDay b) (resetDay b') :=
  { m with
    risk := by
      simp only [PaperBroker.resetDay, m.risk]
    entriesToday := rfl
    cooldownUntilUs := rfl
    position := fun held => { m.position held with } }

/-- A logged signal changes no position and closes no trade. -/
theorem logSignal (long long' : Bool) (reason blocked : String) :
    Mirrors K (logSignal desk long reason blocked b) (logSignal desk long' reason blocked b') := by
  simp only [PaperBroker.logSignal]
  split
  · exact m
  · exact { m with
      position := fun held => { m.position held with }
      trades := by
        simp only [PaperBroker.trades, emit, List.filterMap_append, List.filterMap_cons, closedRow,
          List.filterMap_nil, List.append_nil]
        exact m.trades }

theorem entryGate (some : dir ≠ 0)
    (sessions : Option.Rel (SessionRegime.Mirrors K) regime regime') :
    entryGate desk regime' (decide (-dir > 0)) b' = entryGate desk regime (decide (dir > 0)) b := by
  rw [flip_long some]
  simp only [PaperBroker.entryGate, m.lastTickUs, m.qs.gate]
  cases sessions with
  | some r => simp only [r.gate]
  | none => rfl

omit m in
/-- Two brokers that decide alike stay mirrored if they do so on either side. -/
theorem ite {c c' : Prop} [Decidable c] [Decidable c'] {x x' y y' : PaperBroker} (same : c' ↔ c)
    (yes : Mirrors K x x') (no : Mirrors K y y') :
    Mirrors K (if c then x else y) (if c' then x' else y') := by
  by_cases holds : c
  · rw [if_pos holds, if_pos (same.mpr holds)]
    exact yes
  · rw [if_neg holds, if_neg fun other => holds (same.mp other)]
    exact no

/-- A signal is taken on the one side when the opposite signal is on the other. -/
theorem onEntrySignal (some : dir ≠ 0)
    (sessions : Option.Rel (SessionRegime.Mirrors K) regime regime') (reason : String) :
    Mirrors K (onEntrySignal desk regime dir reason b)
      (onEntrySignal desk regime' (-dir) reason b') := by
  have busy : (b'.posDir ≠ 0 ∨ b'.pendingDir ≠ 0) ↔ (b.posDir ≠ 0 ∨ b.pendingDir ≠ 0) := by
    rw [ne_eq, ne_eq, m.flat_mirror, m.waiting_mirror]
  have window : inEntryWindow desk b' = inEntryWindow desk b := by
    rw [inEntryWindow, inEntryWindow, PaperBroker.lastMinute, PaperBroker.lastMinute, m.lastTickUs,
      m.lastEtHour, m.lastEtMin]
  have halts : b'.halted = b.halted := by rw [PaperBroker.halted, PaperBroker.halted, m.risk]
  have may : b'.risk.canTrade = b.risk.canTrade := by rw [m.risk]
  obtain ⟨blocked, isBlocked⟩ : ∃ blocked, blocked =
    PaperBroker.entryGate desk regime (decide (dir > 0)) b := ⟨_, rfl⟩
  have gated : PaperBroker.entryGate desk regime' (decide (-dir > 0)) b' = blocked := by
    rw [isBlocked]
    exact m.entryGate some sessions
  have full : b'.entriesToday ≥ desk.cfg.maxDailyTrades ↔
      b.entriesToday ≥ desk.cfg.maxDailyTrades := by rw [m.entriesToday]
  have cooling : (b'.lastTickUs > 0 ∧ b'.lastTickUs < b'.cooldownUntilUs) ↔
      (b.lastTickUs > 0 ∧ b.lastTickUs < b.cooldownUntilUs) := by
    rw [m.lastTickUs, m.cooldownUntilUs]
  have logged : Mirrors K (PaperBroker.logSignal desk (decide (dir > 0)) reason blocked b)
      (PaperBroker.logSignal desk (decide (-dir > 0)) reason blocked b') :=
    m.logSignal (decide (dir > 0)) (decide (-dir > 0)) reason blocked
  unfold PaperBroker.onEntrySignal
  rw [gated, ← isBlocked]
  refine ite (by rw [m.warmup]) ?_ ?_
  · exact { m with position := fun held => { m.position held with } }
  refine ite busy m (ite (by rw [halts]) m (ite (by rw [may]) m (ite full m (ite cooling m ?_))))
  refine ite (by rw [window]) m (ite Iff.rfl logged ?_)
  exact { logged with
    pendingDir := rfl
    pendingSinceUs := logged.lastTickUs
    position := fun held => { logged.position held with } }

/-- A signal and its mirror act alike. -/
theorem onSignal
    (sessions : Option.Rel (SessionRegime.Mirrors K) regime regime') (sig : OrbSignal)
    (reason : String) :
    Mirrors K (onSignal desk regime sig reason b) (onSignal desk regime' sig.mirror reason b') := by
  cases sig with
  | none => exact m
  | buy => exact m.onEntrySignal (by decide) sessions reason
  | sell => exact m.onEntrySignal (by decide) sessions reason
  | flattenEod =>
    have asks : (b'.posDir ≠ 0 ∧ b'.pendingExitReason = "") ↔
        (b.posDir ≠ 0 ∧ b.pendingExitReason = "") := by
      rw [m.pendingExitReason, ne_eq, ne_eq, m.flat_mirror]
    simp only [PaperBroker.onSignal, OrbSignal.mirror, asks]
    split
    · exact { m with
        pendingExitReason := rfl
        position := fun held => { m.position held with } }
    · exact m

end Mirrors

end PaperBroker

end RithmicEngine
