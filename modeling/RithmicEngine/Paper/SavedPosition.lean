import RithmicEngine.Paper.PaperSeat
import RithmicEngine.Paper.Runner
/-!
# What the database holds of an open position

A broker with a store saves its position on entering, on every move of its stop and on
leaving, and every closed trade. From any run of a seat the last saved row is the open
position as it stands in memory, and the sums over the trades are the risk manager's.
That is what a restart builds a new broker from.
-/
namespace RithmicEngine

namespace PaperBroker

/-! ## The saved row -/

def savedPosition : PaperEffect → Option PaperPositionRow
  | .savePosition row => some row
  | .recordSignal _ => none
  | .recordTrade _ => none
  | .tradeClosed _ => none

/-- The row of the strategy's position: each save replaces the one before. -/
def savedRow (b : PaperBroker) : Option PaperPositionRow :=
  (b.outbox.filterMap savedPosition).getLast?

/-- The row is the open position, up to the stop while its move is not yet saved. -/
structure RowOf (b : PaperBroker) (row : PaperPositionRow) : Prop where
  direction : row.direction = b.posDir
  qty : row.qty = b.qty
  entryPrice : row.entryPrice = b.entryPrice
  entryTimeUs : row.entryTimeUs = b.entryTimeUs
  stopPrice : b.slDirty = false → row.stopPrice = b.stopPrice

def Saved (b : PaperBroker) : Prop := ∃ row, b.savedRow = some row ∧ RowOf b row

theorem savedRow_emit (effects : List PaperEffect) (b : PaperBroker) :
    (emit effects b).savedRow =
      ((effects.filterMap savedPosition).getLast?).or b.savedRow := by
  simp [savedRow, emit]

variable (desk : PaperDesk)

/-- Saving writes the position as it stands. -/
theorem persistPosition_saved (stored : desk.store = true) (unreal : ℚ) (b : PaperBroker) :
    Saved (persistPosition desk unreal b) := by
  simp only [persistPosition, stored, Bool.true_eq_false, ↓reduceIte]
  refine ⟨{ strategyId := desk.strategyId, direction := b.posDir, qty := b.qty,
            entryPrice := b.entryPrice, entryTimeUs := b.entryTimeUs, stopPrice := b.stopPrice,
            unrealizedPnl := unreal }, ?_, rfl, rfl, rfl, rfl, fun _ => rfl⟩
  rw [savedRow_emit]
  rfl

/-- A move of the stop leaves the row, and marks it stale when the level moved. -/
structure Marks (b b' : PaperBroker) : Prop where
  marked : b'.slDirty = false → b.slDirty = false ∧ b'.stopPrice = b.stopPrice

theorem Marks.refl (b : PaperBroker) : Marks b b := ⟨fun clean => ⟨clean, rfl⟩⟩

theorem Marks.of_dirty {b b' : PaperBroker} (dirty : b'.slDirty = true) : Marks b b' := by
  constructor
  intro clean
  rw [dirty] at clean
  exact absurd clean (by decide)

/-- A move of the stop that marks the row stale keeps the position saved. -/
theorem Saved.restop {b b' : PaperBroker} (saved : Saved b) (moved : Restopped b b')
    (marks : Marks b b') : Saved b' := by
  obtain ⟨row, isRow, of⟩ := saved
  refine ⟨row, ?_, ?_⟩
  · rw [savedRow, moved.outbox]
    exact isRow
  · exact
      { direction := by rw [moved.posDir, of.direction]
        qty := by rw [moved.qty, of.qty]
        entryPrice := by rw [moved.entryPrice, of.entryPrice]
        entryTimeUs := by rw [moved.entryTimeUs, of.entryTimeUs]
        stopPrice := fun clean => by
          rw [(marks.marked clean).2]
          exact of.stopPrice (marks.marked clean).1 }

section Marks

variable (desk : PaperDesk) (regime : Option SessionRegime)

theorem syncPlacedStop_marks (force : Bool) (b : PaperBroker) :
    Marks b (syncPlacedStop desk regime force b) := by
  rw [syncPlacedStop]
  split
  · exact ⟨fun clean => ⟨clean, rfl⟩⟩
  · split
    · exact ⟨fun clean => ⟨clean, rfl⟩⟩
    · exact ⟨fun clean => ⟨clean, rfl⟩⟩

theorem breakEven_marks (b : PaperBroker) : Marks b (breakEven desk regime b) := by
  simp only [breakEven, syncPlacedStop, or_true, ↓reduceIte]
  split
  · split
    · exact Marks.of_dirty rfl
    · exact ⟨fun clean => ⟨clean, rfl⟩⟩
  · exact ⟨fun clean => ⟨clean, rfl⟩⟩

theorem bookBreakEven_marks (t : OrbTick) (b : PaperBroker) :
    Marks b (bookBreakEven desk regime t b) := by
  simp only [bookBreakEven, syncPlacedStop, or_true, ↓reduceIte]
  split
  · split
    · exact Marks.of_dirty rfl
    · exact ⟨fun clean => ⟨clean, rfl⟩⟩
  · exact ⟨fun clean => ⟨clean, rfl⟩⟩

theorem armTrail_marks (tsUs : Int) (b : PaperBroker) : Marks b (armTrail desk tsUs b) := by
  rw [armTrail]
  split
  · exact ⟨fun clean => ⟨clean, rfl⟩⟩
  · exact ⟨fun clean => ⟨clean, rfl⟩⟩

theorem trail_marks (price : ℚ) (b : PaperBroker) : Marks b (trail desk regime price b) := by
  rw [trail]
  split
  · have synced := syncPlacedStop_marks desk regime false
      (raiseStop (trailLevel desk regime price b) b)
    constructor
    intro clean
    have dirty : true = false := (synced.marked clean).1
    exact absurd dirty (by decide)
  · exact Marks.refl b

end Marks

/-! ## What leaving and entering leave behind -/

/-- Saving a position leaves all that the row is made of. -/
theorem persistPosition_keeps (unreal : ℚ) (b : PaperBroker) :
    (persistPosition desk unreal b).posDir = b.posDir ∧
      (persistPosition desk unreal b).pendingDir = b.pendingDir ∧
      (persistPosition desk unreal b).slDirty = b.slDirty ∧
      (persistPosition desk unreal b).risk = b.risk ∧
      (persistPosition desk unreal b).mfe = b.mfe ∧
      (persistPosition desk unreal b).beMoved = b.beMoved := by
  rw [persistPosition]
  split
  · exact ⟨rfl, rfl, rfl, rfl, rfl, rfl⟩
  · exact ⟨rfl, rfl, rfl, rfl, rfl, rfl⟩

/-- An exit closes one trade and books its result. -/
structure Exited (desk : PaperDesk) (fill : ℚ) (tsUs : Int) (reason : String)
    (b b' : PaperBroker) : Prop where
  posDir : b'.posDir = 0
  pendingDir : b'.pendingDir = b.pendingDir
  slDirty : b'.slDirty = b.slDirty
  risk : b'.risk = (b.risk.updateUnrealized (some 0)).onTradePnl
    (some (tradeRow desk fill tsUs reason b).pnlUsd)
  trades : b'.trades = b.trades ++ [tradeRow desk fill tsUs reason b]

/-- What an exit does to the accounts and the rows. -/
theorem exitPosition_exits (fill : ℚ) (tsUs : Int) (reason : String) (b : PaperBroker) :
    Exited desk fill tsUs reason b (exitPosition desk fill tsUs reason b) := by
  cases saves : desk.store with
  | true =>
    simp only [exitPosition, saves, persistPosition, Bool.true_eq_false, ↓reduceIte, emit]
    refine ⟨rfl, rfl, rfl, rfl, ?_⟩
    simp [trades, List.filterMap_cons, closedRow]
  | false =>
    simp only [exitPosition, saves, persistPosition, Bool.false_eq_true, ↓reduceIte, emit]
    refine ⟨rfl, rfl, rfl, rfl, ?_⟩
    simp only [trades, List.filterMap_append, List.filterMap_cons, closedRow, List.filterMap_nil]

/-- A pending entry that fills opens the position and saves it. -/
structure Entered (desk : PaperDesk) (b b' : PaperBroker) : Prop where
  some : b.pendingDir ≠ 0
  flat : b.posDir = 0
  posDir : b'.posDir = b.pendingDir
  pendingDir : b'.pendingDir = 0
  slDirty : b'.slDirty = b.slDirty
  risk : b'.risk = b.risk
  trades : b'.trades = b.trades
  mfe : b'.mfe = 0
  beMoved : b'.beMoved = false
  saved : desk.store = true → Saved b'

/-- A tick fills the pending entry, or leaves the broker as it was. -/
theorem fillPending_enters_or (regime : Option SessionRegime) (t : OrbTick) (b : PaperBroker) :
    Entered desk b (fillPending desk regime t b) ∨ fillPending desk regime t b = b := by
  by_cases fills : b.pendingDir ≠ 0 ∧ b.posDir = 0 ∧ waitsForBook desk t b = false
  · apply Or.inl
    rw [fillPending, if_pos fills]
    dsimp only [enter]
    obtain ⟨posDir, pendingDir, slDirty, risk, mfe, beMoved⟩ := persistPosition_keeps desk 0 _
    exact
      { some := fills.1
        flat := fills.2.1
        posDir := posDir
        pendingDir := pendingDir
        slDirty := slDirty
        risk := risk
        trades := persistPosition_trades desk 0 _
        mfe := mfe
        beMoved := beMoved
        saved := fun stored => persistPosition_saved desk stored 0 _ }
  · exact Or.inr (if_neg fills)

/-! ## The accounts -/

/-- The risk manager agrees with the trades: since the day turned, at this many trades,
and in all. It is not halted while a position is open or an entry waits. -/
structure Ledgered (desk : PaperDesk) (turned : Nat) (b : PaperBroker) : Prop where
  cfg : b.risk.cfg = desk.cfg.toOrbConfig
  reason : b.risk.halted = false → b.risk.haltReason = none
  alone : b.posDir = 0 ∨ b.pendingDir = 0
  clear : b.posDir ≠ 0 ∨ b.pendingDir ≠ 0 → b.risk.halted = false
  total : b.risk.totalProfit = (b.trades.map (·.pnlUsd)).sum
  daily : b.risk.dailyPnl = ((b.trades.drop turned).map (·.pnlUsd)).sum
  turned : turned ≤ b.trades.length

end PaperBroker

namespace RiskManager

theorem halt_not_live (reason : HaltReason) (risk : RiskManager) :
    ¬(risk.halt reason).halted = false := by
  simp [halt]

/-- Checking the limits moves no amount, and names what it halts for. -/
theorem checkLimits_keeps (risk : RiskManager) :
    risk.checkLimits.cfg = risk.cfg ∧ risk.checkLimits.totalProfit = risk.totalProfit ∧
      risk.checkLimits.dailyPnl = risk.dailyPnl ∧
      (risk.checkLimits.halted = false → risk.checkLimits = risk) := by
  simp only [checkLimits]
  split_ifs
  · exact ⟨rfl, rfl, rfl, fun live => absurd live (halt_not_live _ risk)⟩
  · exact ⟨rfl, rfl, rfl, fun live => absurd live (halt_not_live _ risk)⟩
  · exact ⟨rfl, rfl, rfl, fun live => absurd live (halt_not_live _ risk)⟩
  · exact ⟨rfl, rfl, rfl, fun _ => rfl⟩

/-- A day's reset leaves the total, and no halt without its reason. -/
theorem resetDaily_keeps (risk : RiskManager) :
    risk.resetDaily.cfg = risk.cfg ∧ risk.resetDaily.totalProfit = risk.totalProfit ∧
      risk.resetDaily.dailyPnl = 0 ∧
      (risk.halted = false → risk.resetDaily = { risk with dailyPnl := 0 }) ∧
      (risk.resetDaily.halted = false →
        risk.resetDaily.haltReason = none ∨ risk.resetDaily.haltReason = risk.haltReason ∧
          risk.halted = false) := by
  cases halts : risk.halted with
  | false => simp [resetDaily, halts]
  | true =>
    cases why : risk.haltReason with
    | none => simp [resetDaily, halts, why]
    | some reason =>
      simp only [resetDaily, halts, why, ↓reduceIte]
      split
      · simp
      · simp

end RiskManager

namespace PaperBroker

variable {desk : PaperDesk} {turned : Nat} {b b' : PaperBroker}

/-- Neither position nor accounts moved. -/
theorem Ledgered.same (l : Ledgered desk turned b) (posDir : b'.posDir = b.posDir)
    (pendingDir : b'.pendingDir = b.pendingDir) (risk : b'.risk = b.risk)
    (trades : b'.trades = b.trades) : Ledgered desk turned b' where
  cfg := by rw [risk, l.cfg]
  reason := by
    rw [risk]
    exact l.reason
  alone := by
    rw [posDir, pendingDir]
    exact l.alone
  clear := by
    rw [posDir, pendingDir, risk]
    exact l.clear
  total := by rw [risk, trades, l.total]
  daily := by rw [risk, trades, l.daily]
  turned := by
    rw [trades]
    exact l.turned

/-- Noting the open profit moves no account. -/
theorem Ledgered.noteOpen (l : Ledgered desk turned b) (pnl : ℚ) :
    Ledgered desk turned { b with risk := b.risk.updateUnrealized (some pnl) } :=
  { l with }

/-- An exit keeps the risk manager in agreement with the trades. -/
theorem Ledgered.exits (l : Ledgered desk turned b) (held : b.posDir ≠ 0) {fill : ℚ} {tsUs : Int}
    {reason : String} (exited : Exited desk fill tsUs reason b b') : Ledgered desk turned b' := by
  have none : b.pendingDir = 0 := l.alone.resolve_left held
  obtain ⟨cfg, total, daily, live⟩ := RiskManager.checkLimits_keeps
    ((b.risk.updateUnrealized (some 0)).book (tradeRow desk fill tsUs reason b).pnlUsd)
  have idle : ¬(b'.posDir ≠ 0 ∨ b'.pendingDir ≠ 0) := by
    rw [exited.posDir, exited.pendingDir, none]
    decide
  exact
    { cfg := by
        rw [exited.risk]
        exact cfg.trans l.cfg
      reason := fun unhalted => by
        rw [exited.risk] at unhalted ⊢
        have same := live unhalted
        have before : b.risk.halted = false := l.clear (Or.inl held)
        have why := congrArg RiskManager.haltReason same
        exact why.trans (l.reason before)
      alone := Or.inl exited.posDir
      clear := fun busy => absurd busy idle
      total := by
        rw [exited.risk, exited.trades, List.map_append, List.sum_append, List.map_singleton,
          List.sum_singleton, ← l.total]
        exact total
      daily := by
        rw [exited.risk, exited.trades, List.drop_append_of_le_length l.turned, List.map_append,
          List.sum_append, List.map_singleton, List.sum_singleton, ← l.daily]
        exact daily
      turned := by
        rw [exited.trades, List.length_append]
        exact l.turned.trans (Nat.le_add_right _ _) }

/-- An entry keeps the accounts and the trades in agreement. -/
theorem Ledgered.enters (l : Ledgered desk turned b) (entered : Entered desk b b') :
    Ledgered desk turned b' where
  cfg := by rw [entered.risk, l.cfg]
  reason := by
    rw [entered.risk]
    exact l.reason
  alone := Or.inr entered.pendingDir
  clear := fun _ => by
    rw [entered.risk]
    exact l.clear (Or.inr entered.some)
  total := by rw [entered.risk, entered.trades, l.total]
  daily := by rw [entered.risk, entered.trades, l.daily]
  turned := by
    rw [entered.trades]
    exact l.turned

/-! ## The open position between two events -/

/-- A broker between two events: its accounts agree with its trades, and an open position
is saved as it stands and has seen a break-even move as soon as it could. -/
structure Upheld (desk : PaperDesk) (turned : Nat) (b : PaperBroker) : Prop
    extends Ledgered desk turned b where
  clean : b.slDirty = false
  excursion : b.posDir ≠ 0 → 0 ≤ b.mfe
  even : b.posDir ≠ 0 → b.beMoved = false → b.mfe < desk.cfg.trailBeTrigger
  saved : desk.store = true → b.posDir ≠ 0 → Saved b

theorem Upheld.fresh (desk : PaperDesk) : Upheld desk 0 (PaperBroker.fresh desk) where
  cfg := rfl
  reason := fun _ => rfl
  alone := Or.inl rfl
  clear := fun _ => rfl
  total := rfl
  daily := rfl
  turned := Nat.le_refl 0
  clean := rfl
  excursion := fun held => absurd rfl held
  even := fun held => absurd rfl held
  saved := fun _ held => absurd rfl held

/-- Leaving a saved position upholds what is left. -/
theorem Ledgered.leaves (l : Ledgered desk turned b) (held : b.posDir ≠ 0)
    (clean : b.slDirty = false) {fill : ℚ} {tsUs : Int} {reason : String}
    (exited : Exited desk fill tsUs reason b b') : Upheld desk turned b' := by
  have closed : ¬b'.posDir ≠ 0 := fun still => still exited.posDir
  exact
    { l.exits held exited with
      clean := by rw [exited.slDirty, clean]
      excursion := fun still => absurd still closed
      even := fun still => absurd still closed
      saved := fun _ still => absurd still closed }

/-- After the break-even move was considered, it was made or its trigger not reached. -/
theorem breakEven_considers (desk : PaperDesk) (regime : Option SessionRegime) (b : PaperBroker) :
    (breakEven desk regime b).mfe = b.mfe ∧
      ((breakEven desk regime b).beMoved = false → b.mfe < desk.cfg.trailBeTrigger) := by
  simp only [breakEven, syncPlacedStop, or_true, ↓reduceIte]
  split
  · next reached =>
    split
    · exact ⟨rfl, fun unmoved => absurd unmoved (by simp)⟩
    · exact ⟨rfl, fun unmoved => absurd unmoved (by simp)⟩
  · next unreached =>
    refine ⟨rfl, fun unmoved => ?_⟩
    by_contra reached
    exact unreached ⟨unmoved, not_lt.mp reached⟩

theorem armTrail_gauges (desk : PaperDesk) (tsUs : Int) (b : PaperBroker) :
    (armTrail desk tsUs b).mfe = b.mfe ∧ (armTrail desk tsUs b).beMoved = b.beMoved := by
  rw [armTrail]
  split
  · exact ⟨rfl, rfl⟩
  · exact ⟨rfl, rfl⟩

theorem syncPlacedStop_gauges (desk : PaperDesk) (regime : Option SessionRegime) (force : Bool)
    (b : PaperBroker) :
    (syncPlacedStop desk regime force b).mfe = b.mfe ∧
      (syncPlacedStop desk regime force b).beMoved = b.beMoved := by
  rw [syncPlacedStop]
  split
  · exact ⟨rfl, rfl⟩
  · split
    · exact ⟨rfl, rfl⟩
    · exact ⟨rfl, rfl⟩

theorem trail_gauges (desk : PaperDesk) (regime : Option SessionRegime) (price : ℚ)
    (b : PaperBroker) :
    (trail desk regime price b).mfe = b.mfe ∧ (trail desk regime price b).beMoved = b.beMoved := by
  rw [trail]
  split
  · exact syncPlacedStop_gauges desk regime false (raiseStop (trailLevel desk regime price b) b)
  · exact ⟨rfl, rfl⟩

theorem bookBreakEven_mfe (desk : PaperDesk) (regime : Option SessionRegime) (t : OrbTick)
    (b : PaperBroker) : (bookBreakEven desk regime t b).mfe = b.mfe := by
  simp only [bookBreakEven, syncPlacedStop, or_true, ↓reduceIte]
  split
  · split
    · rfl
    · rfl
  · rfl

/-- Noting the open profit saves what the tick moved. -/
theorem markOpen_upholds (price : ℚ) (l : Ledgered desk turned b) (excursion : 0 ≤ b.mfe)
    (even : b.beMoved = false → b.mfe < desk.cfg.trailBeTrigger)
    (saved : desk.store = true → Saved b) : Upheld desk turned (markOpen desk price b) := by
  have noted := l.noteOpen (unrealized desk price b)
  rw [markOpen_settles, settle]
  split
  · obtain ⟨posDir, pendingDir, slDirty, risk, mfe, beMoved⟩ :=
      persistPosition_keeps desk (unrealized desk price b)
        { b with
          risk := b.risk.updateUnrealized (some (unrealized desk price b))
          slDirty := false }
    exact
      { noted.same posDir pendingDir risk (persistPosition_trades desk _ _) with
        clean := slDirty
        excursion := fun _ => by
          rw [mfe]
          exact excursion
        even := fun _ => by
          rw [mfe, beMoved]
          exact even
        saved := fun stored _ => persistPosition_saved desk stored _ _ }
  · next clean =>
    exact
      { noted with
        clean := Bool.eq_false_iff.mpr clean
        excursion := fun _ => excursion
        even := fun _ => even
        saved := fun stored _ => by
          obtain ⟨row, isRow, of⟩ := saved stored
          exact ⟨row, isRow, { of with }⟩ }

variable (regime : Option SessionRegime) (t : OrbTick)

/-- A position that no exit closes. -/
theorem ratchet_upholds (l : Ledgered desk turned b) (excursion : 0 ≤ b.mfe)
    (saved : desk.store = true → Saved b) : Upheld desk turned (ratchet desk regime t b) := by
  obtain ⟨x, isTracked⟩ : ∃ x, x = trackExcursion t.price b := ⟨_, rfl⟩
  have tracked : Ledgered desk turned x := by
    rw [isTracked]
    exact { l with }
  have kept : desk.store = true → Saved x := by
    intro stored
    obtain ⟨row, isRow, of⟩ := saved stored
    rw [isTracked]
    exact ⟨row, isRow, { of with }⟩
  have raised : 0 ≤ x.mfe := by
    rw [isTracked]
    simp only [trackExcursion]
    generalize (if b.posDir > 0 then t.price - b.entryPrice else b.entryPrice - t.price) = gain
    split
    · next above => exact excursion.trans above.le
    · exact excursion
  have first := breakEven_restops desk regime x
  have second := armTrail_restops desk t.tsMicros (breakEven desk regime x)
  have third := trail_restops desk regime t.price
    (armTrail desk t.tsMicros (breakEven desk regime x))
  obtain ⟨mfe, considered⟩ := breakEven_considers desk regime x
  obtain ⟨armedMfe, armedMoved⟩ := armTrail_gauges desk t.tsMicros (breakEven desk regime x)
  obtain ⟨trailedMfe, trailedMoved⟩ := trail_gauges desk regime t.price
    (armTrail desk t.tsMicros (breakEven desk regime x))
  have accounts : Ledgered desk turned
      (trail desk regime t.price (armTrail desk t.tsMicros (breakEven desk regime x))) := by
    refine tracked.same ?_ ?_ ?_ ?_
    · rw [third.posDir, second.posDir, first.posDir]
    · rw [third.pendingDir, second.pendingDir, first.pendingDir]
    · rw [third.risk, second.risk, first.risk]
    · simp only [PaperBroker.trades, third.outbox, second.outbox, first.outbox]
  simp only [ratchet, ← isTracked]
  apply markOpen_upholds t.price accounts
  · rw [trailedMfe, armedMfe, mfe]
    exact raised
  · rw [trailedMfe, armedMfe, mfe, trailedMoved, armedMoved]
    exact considered
  · intro stored
    exact (((kept stored).restop first (breakEven_marks desk regime x)).restop second
      (armTrail_marks desk t.tsMicros _)).restop third (trail_marks desk regime t.price _)

/-- A tick inside the session: an exit, or the ratchet. -/
theorem manage_upholds (held : b.posDir ≠ 0) (l : Ledgered desk turned b)
    (clean : b.slDirty = false) (excursion : 0 ≤ b.mfe) (saved : desk.store = true → Saved b) :
    Upheld desk turned (manage desk regime t b) := by
  obtain ⟨c, isSynced⟩ : ∃ c, c = syncPlacedStop desk regime false b := ⟨_, rfl⟩
  have moved : Restopped b c := by
    rw [isSynced]
    exact syncPlacedStop_restops desk regime false b
  have marks : Marks b c := by
    rw [isSynced]
    exact syncPlacedStop_marks desk regime false b
  have dirt : c.slDirty = b.slDirty := by
    rw [isSynced, syncPlacedStop]
    split
    · rfl
    · split
      · rfl
      · rfl
  have gauge : c.mfe = b.mfe := by
    rw [isSynced]
    exact (syncPlacedStop_gauges desk regime false b).1
  have synced : Ledgered desk turned c := l.same moved.posDir moved.pendingDir moved.risk (by
    simp only [PaperBroker.trades, moved.outbox])
  have open_ : c.posDir ≠ 0 := by
    rw [moved.posDir]
    exact held
  have leaves (fill : ℚ) (reason : String) :
      Upheld desk turned (exitPosition desk fill t.tsMicros reason c) :=
    synced.leaves open_ (dirt.trans clean) (exitPosition_exits desk fill t.tsMicros reason c)
  simp only [manage, ← isSynced]
  split
  · exact leaves _ _
  · split
    · exact leaves _ _
    · split
      · exact leaves _ _
      · have flipped := bookBreakEven_restops desk regime t c
        have accounts : Ledgered desk turned (bookBreakEven desk regime t c) :=
          synced.same flipped.posDir flipped.pendingDir flipped.risk (by
            simp only [PaperBroker.trades, flipped.outbox])
        apply ratchet_upholds regime t accounts
        · rw [bookBreakEven_mfe, gauge]
          exact excursion
        · intro stored
          exact ((saved stored).restop moved marks).restop flipped
            (bookBreakEven_marks desk regime t c)

/-- Working a tick leaves the accounts in agreement and an open position saved. -/
theorem work_upholds (l : Ledgered desk turned b) (clean : b.slDirty = false)
    (excursion : b.posDir ≠ 0 → 0 ≤ b.mfe) (saved : desk.store = true → b.posDir ≠ 0 → Saved b) :
    Upheld desk turned (work desk regime t b) := by
  have leaves (held : b.posDir ≠ 0) (fill : ℚ) (reason : String) :
      Upheld desk turned (exitPosition desk fill t.tsMicros reason b) :=
    l.leaves held clean (exitPosition_exits desk fill t.tsMicros reason b)
  simp only [work]
  split
  · next asked =>
    have cleared : Ledgered desk turned { b with pendingExitReason := "" } := { l with }
    exact cleared.leaves asked.2 clean
      (exitPosition_exits desk _ t.tsMicros _ { b with pendingExitReason := "" })
  · split
    · next flat =>
      exact
        { l.noteOpen 0 with
          clean := clean
          excursion := fun held => absurd flat held
          even := fun held => absurd flat held
          saved := fun _ held => absurd flat held }
    · next held =>
      split
      · exact leaves held _ _
      · split
        · exact leaves held _ _
        · exact manage_upholds regime t held l clean (excursion held)
            (fun stored => saved stored held)

/-- A tick keeps what holds between events. -/
theorem Upheld.onTick (u : Upheld desk turned b) (regime : Option SessionRegime) (t : OrbTick) :
    Upheld desk turned (onTick desk regime t b) := by
  have seen : Upheld desk turned (seeTick t b) :=
    { u with
      saved := fun stored held => by
        obtain ⟨row, isRow, of⟩ := u.saved stored held
        exact ⟨row, isRow, { of with }⟩ }
  simp only [PaperBroker.onTick]
  split
  · exact seen
  · obtain entered | same := fillPending_enters_or desk regime t (seeTick t b)
    · apply work_upholds regime t (seen.toLedgered.enters entered)
      · rw [entered.slDirty]
        exact seen.clean
      · intro _
        rw [entered.mfe]
      · exact fun stored _ => entered.saved stored
    · rw [same]
      exact work_upholds regime t seen.toLedgered seen.clean seen.excursion seen.saved

theorem Upheld.onQuote (u : Upheld desk turned b) (q : Quote) :
    Upheld desk turned (onQuote desk q b) :=
  { u with
    saved := fun stored held => by
      obtain ⟨row, isRow, of⟩ := u.saved stored held
      exact ⟨row, isRow, { of with }⟩ }

/-- The day turns: the trades so far are of the day before. -/
theorem Upheld.resetDay (u : Upheld desk turned b) :
    Upheld desk b.trades.length (resetDay b) := by
  obtain ⟨cfg, total, daily, live, reason⟩ := RiskManager.resetDaily_keeps b.risk
  have resumes (busy : b.posDir ≠ 0 ∨ b.pendingDir ≠ 0) : b.risk.resetDaily.halted = false := by
    rw [live (u.clear busy)]
    exact u.clear busy
  exact
    { cfg := cfg.trans u.cfg
      reason := fun unhalted => by
        obtain none | same := reason unhalted
        · exact none
        · exact same.1.trans (u.reason same.2)
      alone := u.alone
      clear := resumes
      total := total.trans u.total
      daily := by
        have none : b.trades.drop b.trades.length = [] := List.drop_length
        have kept : (PaperBroker.resetDay b).trades = b.trades := rfl
        rw [kept, none]
        exact daily
      turned := Nat.le_refl _
      clean := u.clean
      excursion := u.excursion
      even := u.even
      saved := fun stored held => by
        obtain ⟨row, isRow, of⟩ := u.saved stored held
        exact ⟨row, isRow, { of with }⟩ }

theorem logSignal_keeps (desk : PaperDesk) (long : Bool) (reason blocked : String)
    (b : PaperBroker) :
    ∃ effects, logSignal desk long reason blocked b = emit effects b ∧
      effects.filterMap closedRow = [] ∧ effects.filterMap savedPosition = [] := by
  rw [logSignal]
  split
  · exact ⟨[], by simp [emit], rfl, rfl⟩
  · exact ⟨_, rfl, rfl, rfl⟩

/-- Logging a signal keeps it. -/
theorem Upheld.logSignal (u : Upheld desk turned b) (long : Bool) (reason blocked : String) :
    Upheld desk turned (logSignal desk long reason blocked b) := by
  obtain ⟨effects, logged, closed, saves⟩ := logSignal_keeps desk long reason blocked b
  have trades : (emit effects b).trades = b.trades := by
    simp [PaperBroker.trades, emit, closed]
  have accounts : Ledgered desk turned (emit effects b) := u.toLedgered.same rfl rfl rfl trades
  rw [logged]
  exact
    { accounts with
      clean := u.clean
      excursion := u.excursion
      even := u.even
      saved := fun stored held => by
        obtain ⟨row, isRow, of⟩ := u.saved stored held
        refine ⟨row, ?_, { of with }⟩
        rw [savedRow_emit, saves]
        exact isRow }

/-- A signal that is taken waits at a flat broker that is not halted. -/
theorem Upheld.onEntrySignal (u : Upheld desk turned b) (regime : Option SessionRegime)
    (dir : SignType) (reason : String) :
    Upheld desk turned (onEntrySignal desk regime dir reason b) := by
  simp only [PaperBroker.onEntrySignal]
  split
  · exact { u with
      saved := fun stored held => by
        obtain ⟨row, isRow, of⟩ := u.saved stored held
        exact ⟨row, isRow, { of with }⟩ }
  · split
    · exact u
    · next idle =>
      split
      · exact u
      · next live =>
        split_ifs
        · exact u
        · exact u
        · exact u
        · exact u
        · exact u.logSignal _ _ _
        · have flat : b.posDir = 0 := by
            by_contra held
            exact idle (Or.inl held)
          obtain ⟨effects, logged, _, _⟩ := logSignal_keeps desk (decide (dir > 0)) reason
            (entryGate desk regime (decide (dir > 0)) b) b
          have wrote := u.logSignal (decide (dir > 0)) reason
            (entryGate desk regime (decide (dir > 0)) b)
          rw [logged] at wrote ⊢
          exact
            { wrote with
              alone := Or.inl flat
              clear := fun _ => Bool.eq_false_iff.mpr live
              excursion := fun held => absurd flat held
              even := fun held => absurd flat held
              saved := fun _ held => absurd flat held }

/-- A signal leaves an open position saved as it stands. -/
theorem Upheld.onSignal (u : Upheld desk turned b) (regime : Option SessionRegime)
    (sig : OrbSignal) (reason : String) :
    Upheld desk turned (onSignal desk regime sig reason b) := by
  cases sig with
  | none => exact u
  | buy => exact u.onEntrySignal regime 1 reason
  | sell => exact u.onEntrySignal regime (-1) reason
  | flattenEod =>
    simp only [PaperBroker.onSignal]
    split
    · exact { u with
        saved := fun stored held => by
          obtain ⟨row, isRow, of⟩ := u.saved stored held
          exact ⟨row, isRow, { of with }⟩ }
    · exact u

end PaperBroker

/-! ## What a restart reads -/

/-- The position is loaded when it holds contracts. -/
def PaperPositionRow.load (row : PaperPositionRow) : Option OpenRow :=
  if holds : row.direction ≠ 0 ∧ 0 < row.qty then
    some
      { direction := row.direction
        qty := row.qty
        entryPrice := row.entryPrice
        stopPrice := row.stopPrice
        entryTimeUs := row.entryTimeUs
        some := holds.1 }
  else none

namespace Seat

variable (desk : PaperDesk)

/-- The number of trades closed when the day last turned. -/
def dayMark (turned : Nat) (_ : Seat) (event : TapeEvent) (after : Seat) : Nat :=
  match event with
  | .newDay => after.broker.trades.length
  | .quote _ => turned
  | .tick _ _ => turned
  | .signal _ _ => turned
  | .atr _ _ => turned

/-- A seat with the day's mark beside it. -/
def stepMarked : Seat × Nat → TapeEvent → Seat × Nat := Runs.observe (step desk) dayMark

/-- What the database gives a restart: the sums over the trades and the saved position. The
count of the day's entries is the database's own. -/
def seed (entriesToday : Int) (marked : Seat × Nat) : RunnerSeed where
  totalPnl := (marked.1.broker.trades.map (·.pnlUsd)).sum
  dayPnl := ((marked.1.broker.trades.drop marked.2).map (·.pnlUsd)).sum
  entriesToday := entriesToday
  position := marked.1.broker.savedRow.bind PaperPositionRow.load

/-- A seat's broker is upheld after every run from the first event. -/
theorem run_upheld (hosted : Bool) (history : List TapeEvent) :
    (Runs.run (stepMarked desk) (vacant desk hosted, 0) history).1.broker.Upheld desk
      (Runs.run (stepMarked desk) (vacant desk hosted, 0) history).2 := by
  apply Runs.run_invariant (stepMarked desk) (fun marked => marked.1.broker.Upheld desk marked.2)
    (fun _ _ => True)
  · rintro ⟨s, turned⟩ event upheld -
    cases event with
    | quote q => exact upheld.onQuote q
    | tick date t => exact upheld.onTick _ t
    | signal sig reason => exact upheld.onSignal s.regime sig reason
    | atr date pts => exact upheld
    | newDay => exact upheld.resetDay
  · exact PaperBroker.Upheld.fresh desk
  · exact Runs.along_of_forall (stepMarked desk) (fun _ _ => trivial) _ history

/-- The seed of a restart holds the risk manager's own amounts. -/
theorem seed_accounts {marked : Seat × Nat} (upheld : marked.1.broker.Upheld desk marked.2)
    (entriesToday : Int) :
    (seed entriesToday marked).totalPnl = marked.1.broker.risk.totalProfit ∧
      (seed entriesToday marked).dayPnl = marked.1.broker.risk.dailyPnl :=
  ⟨upheld.total.symm, upheld.daily.symm⟩

/-- The seed of a restart holds the open position as it stands. -/
theorem seed_position (stored : desk.store = true) {marked : Seat × Nat}
    (upheld : marked.1.broker.Upheld desk marked.2) (held : marked.1.broker.posDir ≠ 0)
    (contracts : 0 < marked.1.broker.qty) (entriesToday : Int) :
    (seed entriesToday marked).position = some
      { direction := marked.1.broker.posDir
        qty := marked.1.broker.qty
        entryPrice := marked.1.broker.entryPrice
        stopPrice := marked.1.broker.stopPrice
        entryTimeUs := marked.1.broker.entryTimeUs
        some := held } := by
  obtain ⟨row, isRow, of⟩ := upheld.saved stored held
  have loads : row.direction ≠ 0 ∧ 0 < row.qty := by
    rw [of.direction, of.qty]
    exact ⟨held, contracts⟩
  have position : (seed entriesToday marked).position = row.load := by
    simp [seed, isRow]
  rw [position, PaperPositionRow.load, dif_pos loads]
  simp only [of.direction, of.qty, of.entryPrice, of.entryTimeUs, of.stopPrice upheld.clean]

end Seat

end RithmicEngine
