import RithmicEngine.Execution.RiskHalts
import RithmicEngine.Paper.DrawdownRule
import RithmicEngine.Paper.SavedPosition
/-!
# A position resumed after a restart

A restart builds a new broker from the saved position and the sums over the trades. The
row holds the stop in memory only: the working stop, the two latches and the excursion
are inferred from it, and the risk manager starts from no drawdown. Where what is lost is
what the restart infers, the new broker leaves the position as the old one would have,
and halts as it would have.
-/
namespace RithmicEngine

/-! ## Risk managers that halt alike -/

/-- Two risk managers with the same amounts and the same drawdown. -/
structure RiskManager.Twin (risk risk' : RiskManager) : Prop where
  cfg : risk'.cfg = risk.cfg
  totalProfit : risk'.totalProfit = risk.totalProfit
  dailyPnl : risk'.dailyPnl = risk.dailyPnl
  halted : risk'.halted = risk.halted
  haltReason : risk'.haltReason = risk.haltReason
  drawdown : risk'.peakEquity - risk'.equity = risk.peakEquity - risk.equity

/-- Whatever trades and days follow, the two halt at the same one for the same reason. An
equity set from outside is none of these. -/
def RiskManager.HaltsAlike (risk risk' : RiskManager) : Prop :=
  ∀ ops : List RiskOp, (∀ op ∈ ops, ∀ eq, op ≠ .setEquity eq) →
    (Runs.run RiskManager.step risk' ops).halted = (Runs.run RiskManager.step risk ops).halted ∧
      (Runs.run RiskManager.step risk' ops).haltReason =
        (Runs.run RiskManager.step risk ops).haltReason

namespace RiskManager.Twin

variable {risk risk' : RiskManager} (twin : Twin risk risk')

include twin

theorem halt (reason : HaltReason) : Twin (risk.halt reason) (risk'.halt reason) :=
  { twin with
    halted := rfl
    haltReason := rfl }

/-- Booking the same amount keeps twins. -/
theorem book (pnl : ℚ) : Twin (risk.book pnl) (risk'.book pnl) := by
  have higher : risk'.equity + pnl > risk'.peakEquity ↔ risk.equity + pnl > risk.peakEquity := by
    have gap := twin.drawdown
    constructor
    · intro above
      linarith
    · intro above
      linarith
  exact { twin with
    totalProfit := by simp only [RiskManager.book, twin.totalProfit]
    dailyPnl := by simp only [RiskManager.book, twin.dailyPnl]
    drawdown := by
      have gap := twin.drawdown
      simp only [RiskManager.book, higher]
      split
      · ring
      · linarith }

theorem checkLimits : Twin risk.checkLimits risk'.checkLimits := by
  simp only [RiskManager.checkLimits, twin.cfg, twin.totalProfit, twin.dailyPnl, twin.drawdown]
  split
  · exact twin.halt _
  · split
    · exact twin.halt _
    · split
      · exact twin.halt _
      · exact twin

theorem onTradePnl (pnl : Option ℚ) : Twin (risk.onTradePnl pnl) (risk'.onTradePnl pnl) := by
  cases pnl with
  | none => exact twin.halt .nonFinitePnl
  | some pnl => exact (twin.book pnl).checkLimits

theorem updateUnrealized (pnl pnl' : Option ℚ) :
    Twin (risk.updateUnrealized pnl) (risk'.updateUnrealized pnl') := by
  cases pnl with
  | none =>
    cases pnl' with
    | none => exact twin
    | some pnl' => exact { twin with }
  | some pnl =>
    cases pnl' with
    | none => exact { twin with }
    | some pnl' => exact { twin with }

/-- The daily reset keeps two risk managers twins. -/
theorem resetDaily : Twin risk.resetDaily risk'.resetDaily := by
  cases halts : risk.halted with
  | false =>
    have halts' : risk'.halted = false := twin.halted.trans halts
    simp only [RiskManager.resetDaily, halts, halts', Bool.false_eq_true, ↓reduceIte]
    exact { twin with
      dailyPnl := rfl
      halted := rfl }
  | true =>
    have halts' : risk'.halted = true := twin.halted.trans halts
    simp only [RiskManager.resetDaily, halts, halts', ↓reduceIte, twin.haltReason]
    cases why : risk.haltReason with
    | none =>
      exact { twin with
        dailyPnl := rfl
        halted := rfl
        haltReason := rfl }
    | some reason =>
      dsimp only
      split
      · exact { twin with
          dailyPnl := rfl
          halted := rfl
          haltReason := rfl }
      · exact { twin with
          dailyPnl := rfl
          halted := rfl
          haltReason := rfl }

/-- One operation keeps two risk managers twins. -/
theorem step {op : RiskOp} (own : ∀ eq, op ≠ .setEquity eq) :
    Twin (risk.step op) (risk'.step op) := by
  cases op with
  | tradePnl pnl => exact twin.onTradePnl pnl
  | resetDaily => exact twin.resetDaily
  | updateUnrealized pnl => exact twin.updateUnrealized pnl pnl
  | haltExternal reason => exact twin.halt (.external reason)
  | clearHalt =>
    simp only [RiskManager.step, RiskManager.clearHalt, twin.halted]
    split
    · exact { twin with
        halted := rfl
        haltReason := rfl }
    · exact twin
  | seedTotalProfit historicalPnl => exact { twin with totalProfit := rfl }
  | seedDailyPnl todayPnl => exact { twin with dailyPnl := rfl }
  | setEquity eq => exact absurd rfl (own eq)

theorem haltsAlike : HaltsAlike risk risk' := by
  intro ops own
  induction ops generalizing risk risk' with
  | nil => exact ⟨twin.halted, twin.haltReason⟩
  | cons op rest ih =>
    exact ih (twin.step (own op List.mem_cons_self))
      fun other inside => own other (List.mem_cons_of_mem op inside)

end RiskManager.Twin

/-! ## The old broker and the new one -/

/-- When and at what a trade was left, and why. -/
def PaperTradeRow.exit (row : PaperTradeRow) : Int × ℚ × String :=
  (row.exitTimeUs, row.exitPrice, row.exitReason)

namespace PaperBroker

/-- The position seen by two brokers: they agree on its stop, on whether it was left and
how, and on every later halt. -/
structure Agree (closed : Nat) (b r : PaperBroker) : Prop where
  posDir : r.posDir = b.posDir
  stopPrice : b.posDir ≠ 0 → r.stopPrice = b.stopPrice
  placedStop : b.posDir ≠ 0 → r.placedStop = b.placedStop
  exits : r.trades.map (·.exit) = (b.trades.drop closed).map (·.exit)
  halts : b.risk.HaltsAlike r.risk

/-- The same open position in two brokers. Their excursions may differ once nothing asks
for them, and the new one may not have seen a quote. -/
structure Resumed (desk : PaperDesk) (closed : Nat) (b r : PaperBroker) : Prop where
  held : b.posDir ≠ 0
  posDir : r.posDir = b.posDir
  qty : r.qty = b.qty
  entryPrice : r.entryPrice = b.entryPrice
  entryTimeUs : r.entryTimeUs = b.entryTimeUs
  stopPrice : r.stopPrice = b.stopPrice
  placedStop : r.placedStop = b.placedStop
  beMoved : r.beMoved = b.beMoved
  trailArmed : r.trailArmed = b.trailArmed
  gauge : (b.beMoved = true ∧ b.trailArmed = true) ∨
    (desk.cfg.trailBeTrigger ≤ r.mfe ↔ desk.cfg.trailBeTrigger ≤ b.mfe)
  pendingExitReason : r.pendingExitReason = b.pendingExitReason
  book : r.qs.q = b.qs.q ∨ r.qs.q = {}
  risk : b.risk.Twin r.risk
  closed : b.trades.length = closed
  none : r.trades = []

/-- In a position nothing but a count of dropped signals changes on an entry signal. -/
theorem onEntrySignal_held (desk : PaperDesk) (regime : Option SessionRegime) (dir : SignType)
    (reason : String) {b : PaperBroker} (held : b.posDir ≠ 0) :
    ∃ dropped, onEntrySignal desk regime dir reason b = { b with warmupDropped := dropped } := by
  simp only [onEntrySignal, held, ne_eq, not_false_eq_true, true_or, ↓reduceIte]
  split
  · exact ⟨_, rfl⟩
  · exact ⟨_, rfl⟩

variable {desk : PaperDesk} {closed : Nat} {b r : PaperBroker}

theorem Resumed.agree (x : Resumed desk closed b r) : Agree closed b r where
  posDir := x.posDir
  stopPrice := fun _ => x.stopPrice
  placedStop := fun _ => x.placedStop
  exits := by
    rw [x.none, ← x.closed, List.drop_length]
  halts := x.risk.haltsAlike

namespace Resumed

variable (x : Resumed desk closed b r)

include x

theorem long : r.long = b.long := by rw [PaperBroker.long, PaperBroker.long, x.posDir]

theorem points (price : ℚ) : PaperBroker.points price r = PaperBroker.points price b := by
  rw [PaperBroker.points, PaperBroker.points, x.entryPrice, x.posDir]

theorem improves (level : ℚ) : PaperBroker.improves level r = PaperBroker.improves level b := by
  simp only [PaperBroker.improves, x.posDir, x.stopPrice]

theorem evenLevel : desk.snap (breakEvenLevel desk r) r.posDir =
    desk.snap (breakEvenLevel desk b) b.posDir := by
  rw [breakEvenLevel, breakEvenLevel, x.entryPrice, x.posDir]

variable (regime : Option SessionRegime)

/-- Syncing the stop leaves the same open position. -/
theorem syncPlacedStop : Resumed desk closed (syncPlacedStop desk regime false b)
    (syncPlacedStop desk regime false r) := by
  have synced : Resumed desk closed { b with placedStop := b.stopPrice }
      { r with placedStop := r.stopPrice } :=
    { x with placedStop := x.stopPrice }
  have none : (r.placedStop ≤ 0 ∨ false = true) ↔ (b.placedStop ≤ 0 ∨ false = true) := by
    rw [x.placedStop]
  have due : (|r.stopPrice - r.placedStop| ≥ desk.trailStep regime - 1 / 1000000000) ↔
      (|b.stopPrice - b.placedStop| ≥ desk.trailStep regime - 1 / 1000000000) := by
    rw [x.placedStop, x.stopPrice]
  simp only [PaperBroker.syncPlacedStop, none, due]
  split
  · exact synced
  · split
    · exact synced
    · exact x

/-- The break-even level taken, and the working stop with it. -/
theorem evenMoved (level : ℚ) : Resumed desk closed
    { b with stopPrice := level, slDirty := true, placedStop := level, beMoved := true }
    { r with stopPrice := level, slDirty := true, placedStop := level, beMoved := true } :=
  { x with
    stopPrice := rfl
    placedStop := rfl
    beMoved := rfl
    gauge := by
      obtain latched | alike := x.gauge
      · exact Or.inl ⟨rfl, latched.2⟩
      · exact Or.inr alike }

/-- The two have the same book at a print: at a fresh quote the same, else none. -/
theorem fresh {tsUs : Int} (kept : b.qs.fresh tsUs = true → r.qs.q = b.qs.q) :
    r.qs.fresh tsUs = b.qs.fresh tsUs := by
  by_cases current : b.qs.fresh tsUs = true
  · simp only [QuoteState.fresh, kept current]
  · obtain same | empty := x.book
    · simp only [QuoteState.fresh, same]
    · simp only [Bool.not_eq_true] at current
      rw [current, QuoteState.fresh, empty]
      rfl

/-- The break-even move leaves the two brokers on the same open position. -/
theorem bookBreakEven {t : OrbTick}
    (kept : b.qs.fresh t.tsMicros = true → r.qs.q = b.qs.q) :
    Resumed desk closed (bookBreakEven desk regime t b) (bookBreakEven desk regime t r) := by
  have flips : r.qs.flippedAgainst r.long t.tsMicros = b.qs.flippedAgainst b.long t.tsMicros := by
    rw [x.long]
    simp only [QuoteState.flippedAgainst, x.fresh kept]
    split
    · rfl
    · next current =>
      simp only [Bool.not_eq_false] at current
      rw [kept current]
  have asks : (desk.cfg.bookBeOnFlip = true ∧ r.beMoved = false ∧
      r.qs.flippedAgainst r.long t.tsMicros = true ∧
        PaperBroker.points t.price r > desk.cfg.trailBeOffset) ↔
      (desk.cfg.bookBeOnFlip = true ∧ b.beMoved = false ∧
        b.qs.flippedAgainst b.long t.tsMicros = true ∧
          PaperBroker.points t.price b > desk.cfg.trailBeOffset) := by
    rw [x.beMoved, flips, x.points]
  simp only [PaperBroker.bookBreakEven, asks, x.evenLevel, x.improves, PaperBroker.syncPlacedStop,
    or_true, ↓reduceIte]
  split
  · split
    · exact x.evenMoved _
    · exact x
  · exact x

/-- The excursions leave the two brokers on the same open position. -/
theorem trackExcursion (price : ℚ) :
    Resumed desk closed (trackExcursion price b) (trackExcursion price r) := by
  have gain : (if r.posDir > 0 then price - r.entryPrice else r.entryPrice - price) =
      if b.posDir > 0 then price - b.entryPrice else b.entryPrice - price := by
    rw [x.posDir, x.entryPrice]
  have alike : (b.beMoved = true ∧ b.trailArmed = true) ∨
      (desk.cfg.trailBeTrigger ≤ (PaperBroker.trackExcursion price r).mfe ↔
        desk.cfg.trailBeTrigger ≤ (PaperBroker.trackExcursion price b).mfe) := by
    obtain latched | alike := x.gauge
    · exact Or.inl latched
    · apply Or.inr
      simp only [PaperBroker.trackExcursion, gain]
      generalize (if b.posDir > 0 then price - b.entryPrice else b.entryPrice - price) = now
      rw [raised_eq_max, raised_eq_max, le_max_iff, le_max_iff, alike]
  exact { x with gauge := alike }

/-- So does the break-even. -/
theorem breakEven : Resumed desk closed (breakEven desk regime b) (breakEven desk regime r) := by
  have asks : (r.beMoved = false ∧ r.mfe ≥ desk.cfg.trailBeTrigger) ↔
      (b.beMoved = false ∧ b.mfe ≥ desk.cfg.trailBeTrigger) := by
    rw [x.beMoved]
    obtain latched | alike := x.gauge
    · simp [latched.1]
    · rw [ge_iff_le, ge_iff_le, alike]
  simp only [PaperBroker.breakEven, asks, x.evenLevel, x.improves, PaperBroker.syncPlacedStop,
    or_true, ↓reduceIte]
  split
  · split
    · exact x.evenMoved _
    · exact { x with
        beMoved := rfl
        gauge := by
          obtain latched | alike := x.gauge
          · exact Or.inl ⟨rfl, latched.2⟩
          · exact Or.inr alike }
  · exact x

/-- So does arming the trail. -/
theorem armTrail (tsUs : Int) :
    Resumed desk closed (armTrail desk tsUs b) (armTrail desk tsUs r) := by
  have asks : (r.trailArmed = false ∧ (tsUs - r.entryTimeUs).tdiv 1000000 ≥
    desk.cfg.trailDelaySecs ∧
      r.mfe ≥ desk.cfg.trailBeTrigger) ↔
      (b.trailArmed = false ∧ (tsUs - b.entryTimeUs).tdiv 1000000 ≥ desk.cfg.trailDelaySecs ∧
        b.mfe ≥ desk.cfg.trailBeTrigger) := by
    rw [x.trailArmed, x.entryTimeUs]
    obtain latched | alike := x.gauge
    · simp [latched.2]
    · rw [ge_iff_le, ge_iff_le, ge_iff_le, alike]
  simp only [PaperBroker.armTrail, asks]
  split
  · exact { x with
      trailArmed := rfl
      gauge := by
        obtain latched | alike := x.gauge
        · exact Or.inl ⟨latched.1, rfl⟩
        · exact Or.inr alike }
  · exact x

/-- So does trailing. -/
theorem trail (price : ℚ) :
    Resumed desk closed (trail desk regime price b) (trail desk regime price r) := by
  obtain ⟨level, isLevel⟩ : ∃ level, level = trailLevel desk regime price b := ⟨_, rfl⟩
  have same : trailLevel desk regime price r = level := by
    rw [isLevel, trailLevel, trailLevel, x.posDir]
  have moves : (r.trailArmed = true ∧ PaperBroker.improves level r = true) ↔
      (b.trailArmed = true ∧ PaperBroker.improves level b = true) := by
    rw [x.trailArmed, x.improves]
  have raised : Resumed desk closed (raiseStop level b) (raiseStop level r) :=
    { x with stopPrice := rfl }
  simp only [PaperBroker.trail, same, ← isLevel, moves]
  split
  · exact raised.syncPlacedStop regime
  · exact x

theorem saveLeft (unreal : ℚ) : Resumed desk closed (persistPosition desk unreal b) r := by
  have trades := persistPosition_trades desk unreal b
  rw [persistPosition] at trades ⊢
  split at trades
  · next unsaved =>
    rw [if_pos unsaved]
    exact x
  · next saves =>
    rw [if_neg saves]
    exact { x with closed := by rw [trades, x.closed] }

theorem saveRight (unreal : ℚ) : Resumed desk closed b (persistPosition desk unreal r) := by
  have trades := persistPosition_trades desk unreal r
  rw [persistPosition] at trades ⊢
  split at trades
  · next unsaved =>
    rw [if_pos unsaved]
    exact x
  · next saves =>
    rw [if_neg saves]
    exact { x with none := by rw [trades, x.none] }

theorem settleLeft (unreal : ℚ) : Resumed desk closed (b.settle desk unreal) r := by
  rw [settle]
  split
  · have clean : Resumed desk closed { b with slDirty := false } r := { x with }
    exact clean.saveLeft unreal
  · exact x

theorem settleRight (unreal : ℚ) : Resumed desk closed b (r.settle desk unreal) := by
  rw [settle]
  split
  · have clean : Resumed desk closed b { r with slDirty := false } := { x with }
    exact clean.saveRight unreal
  · exact x

/-- The mark keeps the same open position in both brokers. -/
theorem markOpen (price : ℚ) :
    Resumed desk closed (markOpen desk price b) (markOpen desk price r) := by
  have accounts := x.risk.updateUnrealized (some (unrealized desk price b))
    (some (unrealized desk price r))
  have noted : Resumed desk closed
      { b with risk := b.risk.updateUnrealized (some (unrealized desk price b)) }
      { r with risk := r.risk.updateUnrealized (some (unrealized desk price r)) } :=
    { x with risk := accounts }
  rw [markOpen_settles, markOpen_settles]
  exact (noted.settleLeft _).settleRight _

/-- A print that leaves the position open. -/
theorem ratchet (t : OrbTick) :
    Resumed desk closed (ratchet desk regime t b) (ratchet desk regime t r) :=
  ((((x.trackExcursion t.price).breakEven regime).armTrail t.tsMicros).trail regime
    t.price).markOpen t.price

/-- Both leave the position at one price, for one reason. -/
theorem exitPosition {tsUs : Int} (fill : ℚ) (reason : String)
    (kept : b.qs.fresh tsUs = true → r.qs.q = b.qs.q) :
    Agree closed (exitPosition desk fill tsUs reason b) (exitPosition desk fill tsUs reason r) := by
  have left := exitPosition_exits desk fill tsUs reason b
  have right := exitPosition_exits desk fill tsUs reason r
  have fresh := x.fresh kept
  have touch : PaperBroker.exitBbo fill tsUs r = PaperBroker.exitBbo fill tsUs b := by
    simp only [PaperBroker.exitBbo, fresh, x.long]
    split
    · next current =>
      simp only [QuoteState.marketFill, fresh, kept current]
    · rfl
  have row : (tradeRow desk fill tsUs reason r).exit = (tradeRow desk fill tsUs reason b).exit := by
    simp only [tradeRow, PaperTradeRow.exit, fresh, touch]
  have pnl : (tradeRow desk fill tsUs reason r).pnlUsd =
    (tradeRow desk fill tsUs reason b).pnlUsd := by
    simp only [tradeRow, fresh, touch, x.entryPrice, x.posDir, x.qty]
  have twin := (x.risk.updateUnrealized (some 0) (some 0)).onTradePnl
    (some (tradeRow desk fill tsUs reason b).pnlUsd)
  exact
    { posDir := by rw [right.posDir, left.posDir]
      stopPrice := fun held => absurd left.posDir held
      placedStop := fun held => absurd left.posDir held
      exits := by
        rw [right.trades, left.trades, x.none, ← x.closed, List.drop_left, List.nil_append,
          List.map_singleton, List.map_singleton, row]
      halts := by
        rw [right.risk, left.risk, pnl]
        exact twin.haltsAlike }

/-- A print inside the session: both leave, or both stay. -/
theorem manage {t : OrbTick} (kept : b.qs.fresh t.tsMicros = true → r.qs.q = b.qs.q) :
    Resumed desk closed (manage desk regime t b) (manage desk regime t r) ∨
      ((manage desk regime t b).posDir = 0 ∧
        Agree closed (manage desk regime t b) (manage desk regime t r)) := by
  have synced := x.syncPlacedStop regime
  have book := (syncPlacedStop_restops desk regime false b).qs
  have book' := (syncPlacedStop_restops desk regime false r).qs
  simp only [PaperBroker.manage]
  generalize PaperBroker.syncPlacedStop desk regime false b = c at synced book ⊢
  generalize PaperBroker.syncPlacedStop desk regime false r = c' at synced book' ⊢
  have same : c.qs.fresh t.tsMicros = true → c'.qs.q = c.qs.q := by
    rw [book, book']
    exact kept
  have leaves (fill : ℚ) (reason : String) :
      Resumed desk closed (PaperBroker.exitPosition desk fill t.tsMicros reason c)
          (PaperBroker.exitPosition desk fill t.tsMicros reason c') ∨
        ((PaperBroker.exitPosition desk fill t.tsMicros reason c).posDir = 0 ∧
          Agree closed (PaperBroker.exitPosition desk fill t.tsMicros reason c)
            (PaperBroker.exitPosition desk fill t.tsMicros reason c')) :=
    Or.inr ⟨(exitPosition_exits desk fill t.tsMicros reason c).posDir,
      synced.exitPosition fill reason same⟩
  have hit : stopped t.price c' = stopped t.price c := by
    simp only [stopped, synced.posDir, synced.placedStop]
  have fill : stopFill desk t.price c' = stopFill desk t.price c := by
    simp only [stopFill, synced.posDir, synced.placedStop]
  have why : stopExitReason desk c' = stopExitReason desk c := by
    rw [stopExitReason, stopExitReason, breakEvenLevel, breakEvenLevel, synced.posDir,
      synced.placedStop, synced.entryPrice]
  have goal : target desk regime c' = target desk regime c := by
    simp only [target, synced.posDir, synced.entryPrice]
  have taken : takeProfitHit desk regime t.price c' = takeProfitHit desk regime t.price c := by
    simp only [takeProfitHit, goal, synced.posDir]
  have out : marketExit desk t c' = marketExit desk t c := by
    simp only [marketExit, synced.posDir]
  have asks : c'.qs.bookExit desk.cfg c'.long t.tsMicros (PaperBroker.points t.price c') =
      c.qs.bookExit desk.cfg c.long t.tsMicros (PaperBroker.points t.price c) := by
    rw [synced.long, synced.points]
    simp only [QuoteState.bookExit, synced.fresh same]
    split
    · rfl
    · next current =>
      simp only [Bool.not_eq_false] at current
      rw [same current]
  rw [hit, fill, why, taken, goal, asks, out]
  split
  · exact leaves _ _
  · split
    · exact leaves _ _
    · split
      · exact leaves _ _
      · exact Or.inl ((synced.bookBreakEven regime same).ratchet regime t)

/-- Both brokers work a tick alike, or both are flat after it with the same trades. -/
theorem work {t : OrbTick} (kept : b.qs.fresh t.tsMicros = true → r.qs.q = b.qs.q)
    (minute : r.lastMinute = b.lastMinute) :
    Resumed desk closed (work desk regime t b) (work desk regime t r) ∨
      ((work desk regime t b).posDir = 0 ∧
        Agree closed (work desk regime t b) (work desk regime t r)) := by
  have held' : r.posDir ≠ 0 := by
    rw [x.posDir]
    exact x.held
  have asks : (r.pendingExitReason ≠ "" ∧ r.posDir ≠ 0) ↔
      (b.pendingExitReason ≠ "" ∧ b.posDir ≠ 0) := by
    rw [x.pendingExitReason, x.posDir]
  have halts : r.halted = b.halted := by
    rw [PaperBroker.halted, PaperBroker.halted, x.risk.halted]
  have out : marketExit desk t r = marketExit desk t b := by
    simp only [marketExit, x.posDir]
  have leaves (reason : String) :
      Resumed desk closed (PaperBroker.exitPosition desk (marketExit desk t b) t.tsMicros reason b)
          (PaperBroker.exitPosition desk (marketExit desk t b) t.tsMicros reason r) ∨
        ((PaperBroker.exitPosition desk (marketExit desk t b) t.tsMicros reason b).posDir = 0 ∧
          Agree closed (PaperBroker.exitPosition desk (marketExit desk t b) t.tsMicros reason b)
            (PaperBroker.exitPosition desk (marketExit desk t b) t.tsMicros reason r)) :=
    Or.inr ⟨(exitPosition_exits desk _ t.tsMicros reason b).posDir, x.exitPosition _ reason kept⟩
  simp only [PaperBroker.work, asks, x.held, held', ↓reduceIte, minute, halts, out]
  split
  · have cleared : Resumed desk closed { b with pendingExitReason := "" }
        { r with pendingExitReason := "" } :=
      { x with pendingExitReason := rfl }
    rw [x.pendingExitReason]
    exact Or.inr ⟨(exitPosition_exits desk _ t.tsMicros _ _).posDir,
      cleared.exitPosition _ _ kept⟩
  · split
    · exact leaves _
    · split
      · exact leaves _
      · exact x.manage regime kept

/-- A print, seen by both. -/
theorem onTick {t : OrbTick} (kept : b.qs.fresh t.tsMicros = true → r.qs.q = b.qs.q) :
    Resumed desk closed (onTick desk regime t b) (onTick desk regime t r) ∨
      ((onTick desk regime t b).posDir = 0 ∧
        Agree closed (onTick desk regime t b) (onTick desk regime t r)) := by
  have seen : Resumed desk closed (seeTick t b) (seeTick t r) := { x with }
  have early : predates t (seeTick t r) = predates t (seeTick t b) := by
    rw [predates, predates, seen.posDir, seen.entryTimeUs]
  have open_ (c : PaperBroker) (held : c.posDir ≠ 0) : fillPending desk regime t c = c := by
    rw [fillPending, if_neg]
    intro fills
    exact held fills.2.1
  have held' : (seeTick t r).posDir ≠ 0 := by
    rw [seen.posDir]
    exact seen.held
  simp only [PaperBroker.onTick, early, open_ _ seen.held, open_ _ held']
  split
  · exact Or.inl seen
  · exact seen.work regime kept rfl

theorem onQuote (q : Quote) : Resumed desk closed (onQuote desk q b) (onQuote desk q r) :=
  { x with book := Or.inl rfl }

theorem resetDay : Resumed desk closed (resetDay b) (resetDay r) :=
  { x with risk := x.risk.resetDaily.updateUnrealized (some 0) (some 0) }

/-- An entry signal keeps the same open position in both brokers. -/
theorem onEntrySignal (dir : SignType) (reason : String) :
    Resumed desk closed (onEntrySignal desk regime dir reason b)
      (onEntrySignal desk regime dir reason r) := by
  have held' : r.posDir ≠ 0 := by
    rw [x.posDir]
    exact x.held
  obtain ⟨_, left⟩ := onEntrySignal_held desk regime dir reason x.held
  obtain ⟨_, right⟩ := onEntrySignal_held desk regime dir reason held'
  rw [left, right]
  exact { x with }

/-- A signal keeps the same open position in both brokers. -/
theorem onSignal (sig : OrbSignal) (reason : String) :
    Resumed desk closed (onSignal desk regime sig reason b)
      (onSignal desk regime sig reason r) := by
  cases sig with
  | none => exact x
  | buy => exact x.onEntrySignal regime 1 reason
  | sell => exact x.onEntrySignal regime (-1) reason
  | flattenEod =>
    have asks : (r.posDir ≠ 0 ∧ r.pendingExitReason = "") ↔
        (b.posDir ≠ 0 ∧ b.pendingExitReason = "") := by
      rw [x.posDir, x.pendingExitReason]
    simp only [PaperBroker.onSignal, asks]
    split
    · exact { x with pendingExitReason := rfl }
    · exact x

end Resumed

/-! ## A restart -/

/-- A plain broker as a restart builds it from the database. -/
def restart (desk : PaperDesk) (seed : RunnerSeed) : PaperBroker :=
  let fresh := PaperBroker.fresh desk
  let risk := (fresh.risk.seedTotalProfit seed.totalPnl).seedDailyPnl seed.dayPnl
  let seeded := { fresh with risk := risk }.seedEntriesToday seed.entriesToday
  let resumed := match seed.position with
    | none => seeded
    | some p => seeded.resumePosition p.direction p.qty p.entryPrice p.stopPrice p.entryTimeUs
  resumed.setWarmup seed.warm

/-- It is the broker of the runner that the engine starts with. -/
theorem startPlain_restarts (desk : PaperDesk) (seed : RunnerSeed) (engine : PlainEngine) :
    (Runner.startPlain desk seed engine).broker = .plain engine (restart desk seed) := rfl

/-- What a restart infers of a position and its accounts is what is lost: the working stop
is at its level, the stop's side tells both latches, no exit waits for the next print, and
there is no drawdown. -/
@[mk_iff]
structure Recoverable (b : PaperBroker) : Prop where
  contracts : 0 < b.qty
  working : b.placedStop = b.stopPrice
  moved : b.beMoved =
    if b.posDir > 0 then decide (b.stopPrice ≥ b.entryPrice)
    else decide (b.stopPrice ≤ b.entryPrice)
  trailing : b.trailArmed = b.beMoved
  asked : b.pendingExitReason = ""
  drawdown : b.risk.peakEquity = b.risk.equity

instance decidableRecoverable (b : PaperBroker) : Decidable (Recoverable b) :=
  decidable_of_iff' _ (recoverable_iff ..)

/-- A position from which nothing is lost is resumed as it was. -/
theorem Recoverable.resumed {b : PaperBroker} {turned : Nat} (whole : Recoverable b)
    (upheld : Upheld desk turned b) (held : b.posDir ≠ 0) {seed : RunnerSeed}
    (total : seed.totalPnl = b.risk.totalProfit) (daily : seed.dayPnl = b.risk.dailyPnl)
    (position : seed.position = some
      { direction := b.posDir
        qty := b.qty
        entryPrice := b.entryPrice
        stopPrice := b.stopPrice
        entryTimeUs := b.entryTimeUs
        some := held }) :
    Resumed desk b.trades.length b (restart desk seed) := by
  have live : b.risk.halted = false := upheld.clear (Or.inl held)
  have gauge : (b.beMoved = true ∧ b.trailArmed = true) ∨
      (desk.cfg.trailBeTrigger ≤ 0 ↔ desk.cfg.trailBeTrigger ≤ b.mfe) := by
    cases moved : b.beMoved with
    | true => exact Or.inl ⟨rfl, whole.trailing.trans moved⟩
    | false =>
      have below : b.mfe < desk.cfg.trailBeTrigger := upheld.even held moved
      have above : 0 < desk.cfg.trailBeTrigger := (upheld.excursion held).trans_lt below
      exact Or.inr ⟨fun reached => absurd reached above.not_ge,
        fun reached => absurd reached below.not_ge⟩
  have twin : b.risk.Twin (restart desk seed).risk := by
    simp only [restart, position]
    exact
      { cfg := upheld.cfg.symm
        totalProfit := total
        dailyPnl := daily
        halted := live.symm
        haltReason := (upheld.reason live).symm
        drawdown := by
          have gap : desk.cfg.startingBalance - desk.cfg.startingBalance =
              b.risk.peakEquity - b.risk.equity := by
            rw [whole.drawdown, sub_self, sub_self]
          exact gap }
  simp only [restart, position] at twin ⊢
  exact
    { held := held
      posDir := rfl
      qty := rfl
      entryPrice := rfl
      entryTimeUs := rfl
      stopPrice := rfl
      placedStop := whole.working.symm
      beMoved := whole.moved.symm
      trailArmed := whole.moved.symm.trans whole.trailing.symm
      gauge := gauge
      pendingExitReason := whole.asked.symm
      book := Or.inr rfl
      risk := twin
      closed := rfl
      none := rfl }

end PaperBroker

namespace Seat

open PaperBroker (Agree Resumed Recoverable)

variable (desk : PaperDesk)

/-- A seat after its history, with the trades closed when the day last turned. -/
def lived (hosted : Bool) (history : List TapeEvent) : Seat × Nat :=
  Runs.run (stepMarked desk) (vacant desk hosted, 0) history

/-- The seat with a broker built anew from the database. -/
def restart (entriesToday : Int) (marked : Seat × Nat) : Seat where
  regime := marked.1.regime
  broker := PaperBroker.restart desk (seed entriesToday marked)

/-- One event at the old seat and at the new one. -/
def both (pair : Seat × Seat) (event : TapeEvent) : Seat × Seat :=
  (pair.1.step desk event, pair.2.step desk event)

/-- Each event meets the condition until the old broker has left its position. -/
def WhileOpen (meets : Seat × Seat → TapeEvent → Prop) : Seat × Seat → List TapeEvent → Prop
  | _, [] => True
  | pair, event :: rest =>
    meets pair event ∧
      ((both desk pair event).1.broker.posDir ≠ 0 → WhileOpen meets (both desk pair event) rest)

instance decidableWhileOpen (meets : Seat × Seat → TapeEvent → Prop)
    [∀ pair event, Decidable (meets pair event)] :
    ∀ (pair : Seat × Seat) (tape : List TapeEvent), Decidable (WhileOpen desk meets pair tape)
  | _, [] => isTrue trivial
  | pair, event :: rest =>
    let _ := decidableWhileOpen meets (both desk pair event) rest
    inferInstanceAs (Decidable (meets pair event ∧
      ((both desk pair event).1.broker.posDir ≠ 0 →
        WhileOpen desk meets (both desk pair event) rest)))

/-- At a print with a fresh quote in the old broker, the new one has that quote. -/
def BookKept (pair : Seat × Seat) : TapeEvent → Prop
  | .tick _ t => pair.1.broker.qs.fresh t.tsMicros = true →
      pair.2.broker.qs.q = pair.1.broker.qs.q
  | .quote _ => True
  | .signal _ _ => True
  | .atr _ _ => True
  | .newDay => True

instance decidableBookKept (pair : Seat × Seat) : ∀ event, Decidable (BookKept pair event)
  | .tick _ t => inferInstanceAs (Decidable (pair.1.broker.qs.fresh t.tsMicros = true →
      pair.2.broker.qs.q = pair.1.broker.qs.q))
  | .quote _ => isTrue trivial
  | .signal _ _ => isTrue trivial
  | .atr _ _ => isTrue trivial
  | .newDay => isTrue trivial

/-- The two seats agree on the position after every event until it is left, the exit
included. -/
def Follows (closed : Nat) (pair : Seat × Seat) (tape : List TapeEvent) : Prop :=
  WhileOpen desk (fun pair event =>
    Agree closed (both desk pair event).1.broker (both desk pair event).2.broker) pair tape

/-- A restart at this moment goes unnoticed on this tape. -/
def Transparent (entriesToday : Int) (marked : Seat × Nat) (tape : List TapeEvent) : Prop :=
  Agree marked.1.broker.trades.length marked.1.broker (restart desk entriesToday marked).broker ∧
    Follows desk marked.1.broker.trades.length (marked.1, restart desk entriesToday marked) tape

variable {desk}

/-- One event at two seats whose brokers hold the same position. -/
theorem resumed_step {closed : Nat} {s r : Seat} (x : Resumed desk closed s.broker r.broker)
    (regime : r.regime = s.regime) {event : TapeEvent} (kept : BookKept (s, r) event) :
    (r.step desk event).regime = (s.step desk event).regime ∧
      (Resumed desk closed (s.step desk event).broker (r.step desk event).broker ∨
        (s.step desk event).broker.posDir = 0 ∧
          Agree closed (s.step desk event).broker (r.step desk event).broker) := by
  cases event with
  | quote q => exact ⟨regime, Or.inl (x.onQuote q)⟩
  | tick date t =>
    simp only [step, regime]
    exact ⟨trivial, x.onTick _ kept⟩
  | signal sig reason =>
    simp only [step, regime]
    exact ⟨trivial, Or.inl (x.onSignal s.regime sig reason)⟩
  | atr date pts =>
    simp only [step, regime]
    exact ⟨trivial, Or.inl x⟩
  | newDay => exact ⟨regime, Or.inl x.resetDay⟩

/-- A resumed broker follows the one that went on, event by event, while the position is open. -/
theorem resumed_follows {closed : Nat} {s r : Seat} (x : Resumed desk closed s.broker r.broker)
    (regime : r.regime = s.regime) {tape : List TapeEvent}
    (kept : WhileOpen desk BookKept (s, r) tape) : Follows desk closed (s, r) tape := by
  induction tape generalizing s r with
  | nil => trivial
  | cons event rest ih =>
    obtain ⟨here, later⟩ := kept
    obtain ⟨session, still | ⟨left, agree⟩⟩ := resumed_step x regime here
    · exact ⟨still.agree, fun _ => ih still session (later still.held)⟩
    · exact ⟨agree, fun held => absurd left held⟩

/-- A restart at which nothing is lost that it does not infer goes unnoticed: on every tape
the stops, the exit and every later halt are as without it, as long as the new broker has
seen the quote of a fresh book. -/
theorem restart_transparent (desk : PaperDesk) (stored : desk.store = true) (hosted : Bool)
    (history : List TapeEvent) (entriesToday : Int) (tape : List TapeEvent)
    (held : (lived desk hosted history).1.broker.posDir ≠ 0)
    (whole : Recoverable (lived desk hosted history).1.broker)
    (kept : WhileOpen desk BookKept
      ((lived desk hosted history).1, restart desk entriesToday (lived desk hosted history)) tape) :
    Transparent desk entriesToday (lived desk hosted history) tape := by
  have upheld := run_upheld desk hosted history
  obtain ⟨total, daily⟩ := seed_accounts desk upheld entriesToday
  have position := seed_position desk stored upheld held whole.contracts entriesToday
  have x : Resumed desk (lived desk hosted history).1.broker.trades.length
      (lived desk hosted history).1.broker
      (restart desk entriesToday (lived desk hosted history)).broker :=
    whole.resumed upheld held total daily position
  have session : (restart desk entriesToday (lived desk hosted history)).regime =
      (lived desk hosted history).1.regime := rfl
  exact ⟨x.agree, resumed_follows x session kept⟩

/-- A long that trails five minutes after its entry. -/
def trailing : List TapeEvent :=
  [print 0 20000, .signal .buy "breakout", print 1 20000, print 2 20004, print 302 20030]

theorem trailing_restart_transparent :
    Transparent {} 0 (lived {} true trailing) [print 303 20045, print 304 20034] :=
  restart_transparent {} rfl true trailing 0 [print 303 20045, print 304 20034]
    (by decide +kernel) (by decide +kernel) (by decide +kernel)

/-- The same long, just after its break-even move. -/
def evened : List TapeEvent :=
  [print 0 20000, .signal .buy "breakout", print 1 20000, print 2 20004]

/-- The trailing long with its working stop half a step behind. -/
def lagging : List TapeEvent := trailing ++ [print 303 20035]

/-- The trailing long asked to leave. -/
def asked : List TapeEvent := trailing ++ [.signal .flattenEod "eod"]

/-- The trailing long after a lost trade. -/
def secondTrade : List TapeEvent :=
  [print 0 20000, .signal .buy "breakout", print 1 20000, print 2 19980, print 98 20000,
    .signal .buy "breakout", print 99 20000, print 100 20004, print 402 20030]

/-- Three days' losses that reach the drawdown cap together with the trade before. -/
def losingDays : List RiskOp :=
  [.resetDaily, .tradePnl (some (-900)), .resetDaily, .tradePnl (some (-900)), .resetDaily,
    .tradePnl (some (-690))]

/-- Four restarts that are noticed: the trail starts before its delay, the working stop
catches up, an exit that was asked for is forgotten, and a drawdown with it. -/
theorem restart_noticed :
    ¬Transparent {} 0 (lived {} true evened) [print 3 20030, print 4 20015] ∧
      ¬Transparent {} 0 (lived {} true lagging) [print 304 20024] ∧
      ¬Transparent {} 0 (lived {} true asked) [print 304 20030] ∧
      ¬Transparent {} 0 (lived {} true secondTrade) [] := by
  refine ⟨?_, ?_, ?_, ?_⟩
  · intro transparent
    have open_ : (both {} ((lived {} true evened).1, restart {} 0 (lived {} true evened))
        (print 3 20030)).1.broker.posDir ≠ 0 := by decide +kernel
    have left := (transparent.2.2 open_).1.posDir
    exact absurd left (by decide +kernel)
  · intro transparent
    exact absurd transparent.2.1.posDir (by decide +kernel)
  · intro transparent
    exact absurd transparent.2.1.posDir (by decide +kernel)
  · intro transparent
    have alike := (transparent.1.halts losingDays (by
      intro op inside eq
      rintro rfl
      simp [losingDays] at inside)).1
    exact absurd alike (by decide +kernel)

end Seat

end RithmicEngine
