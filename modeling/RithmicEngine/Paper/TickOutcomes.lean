import RithmicEngine.Paper.FlattenOrders
/-!
# What a tick of a paper broker comes to

A tick of either broker fills a pending entry, leaves a position for one of a few
reasons, or keeps it. Each is spelled out here as the state it leads to, so that what is
said about fills, trades and stops later is read off the cases.
-/
namespace RithmicEngine

/-! ## The plain broker -/

namespace PaperBroker

variable (desk : PaperDesk) (regime : Option SessionRegime)

/-- The rows of the trades that an effect hands to the store. -/
def recordedRow : PaperEffect → Option PaperTradeRow
  | .recordTrade row => some row
  | .recordSignal _ => none
  | .savePosition _ => none
  | .tradeClosed _ => none

/-- Effects that neither close nor record a trade. -/
structure Silent (effects : List PaperEffect) : Prop where
  closed : effects.filterMap closedRow = []
  recorded : effects.filterMap recordedRow = []

theorem Silent.append {first second : List PaperEffect} (left : Silent first)
    (right : Silent second) : Silent (first ++ second) where
  closed := by rw [List.filterMap_append, left.closed, right.closed, List.append_nil]
  recorded := by rw [List.filterMap_append, left.recorded, right.recorded, List.append_nil]

/-- Effects that close one trade, and record it where there is a store. -/
structure Closing (desk : PaperDesk) (row : PaperTradeRow) (effects : List PaperEffect) : Prop where
  closed : effects.filterMap closedRow = [row]
  recorded : desk.store = true → effects.filterMap recordedRow = [row]

/-- An exit closes its own trade and nothing else of the position stays. -/
theorem exitPosition_effects (fill : ℚ) (tsUs : Int) (reason : String) (b : PaperBroker) :
    ∃ effects, exitPosition desk fill tsUs reason b = { b with
        mfe := (tradeRow desk fill tsUs reason b).mfePts
        mae := (tradeRow desk fill tsUs reason b).maePts
        posDir := 0
        qty := 0
        risk := (b.risk.updateUnrealized (some 0)).onTradePnl
          (some (tradeRow desk fill tsUs reason b).pnlUsd)
        cooldownUntilUs :=
          if desk.cfg.stopCooldownSecs > 0 then tsUs + desk.cfg.stopCooldownSecs * 1000000
          else b.cooldownUntilUs
        outbox := b.outbox ++ effects } ∧
      Closing desk (tradeRow desk fill tsUs reason b) effects := by
  simp only [exitPosition]
  cases saves : desk.store with
  | true =>
    simp only [persistPosition, saves, Bool.true_eq_false, ↓reduceIte, emit, List.append_assoc]
    exact ⟨_, rfl, rfl, fun _ => rfl⟩
  | false =>
    simp only [persistPosition, saves, Bool.false_eq_true, ↓reduceIte, emit]
    exact ⟨_, rfl, rfl, fun stored => absurd (saves.symm.trans stored) Bool.false_ne_true⟩

/-- The price of a filled entry: the slipped print, or the book's where that is the
model and there is a book. -/
def entryFill (t : OrbTick) (b : PaperBroker) : ℚ :=
  if desk.cfg.fillModel = "bbo" ∧ b.qs.fresh t.tsMicros then
    b.qs.marketFill (decide (b.pendingDir > 0)) t.tsMicros (t.price + b.pendingDir * desk.slip)
      t.price
  else t.price + b.pendingDir * desk.slip

/-- The state of a position that was entered just now. -/
structure JustEntered (dir : SignType) (fill : ℚ) (tsUs : Int) (b b' : PaperBroker) : Prop where
  posDir : b'.posDir = dir
  pendingDir : b'.pendingDir = 0
  entryPrice : b'.entryPrice = fill
  entryTimeUs : b'.entryTimeUs = tsUs
  stop : b'.placedStop = b'.stopPrice
  mfe : b'.mfe = 0
  mae : b'.mae = 0
  entriesToday : b'.entriesToday = b.entriesToday + 1
  risk : b'.risk = b.risk
  qs : b'.qs = b.qs
  exit : b'.pendingExitReason = b.pendingExitReason
  outbox : ∃ effects, b'.outbox = b.outbox ++ effects ∧ Silent effects

/-- An entry with nothing waiting has just entered. -/
theorem enter_entered (dir : SignType) (fill : ℚ) (tsUs : Int) {b : PaperBroker}
    (none : b.pendingDir = 0) :
    JustEntered dir fill tsUs b (enter desk regime dir fill tsUs b) := by
  simp only [enter, persistPosition]
  split
  · refine ⟨rfl, none, rfl, rfl, rfl, rfl, rfl, rfl, rfl, rfl, rfl, [], ?_, rfl, rfl⟩
    exact (List.append_nil _).symm
  · exact ⟨rfl, none, rfl, rfl, rfl, rfl, rfl, rfl, rfl, rfl, rfl, _, rfl, rfl, rfl⟩

variable {b' : PaperBroker} (t : OrbTick) (price : ℚ) (b : PaperBroker)

/-- A pending entry that fills. -/
theorem fillPending_entered {b : PaperBroker}
    (fills : b.pendingDir ≠ 0 ∧ b.posDir = 0 ∧ waitsForBook desk t b = false) :
    JustEntered b.pendingDir (entryFill desk t b) t.tsMicros b (fillPending desk regime t b) := by
  rw [fillPending, if_pos fills]
  have entered := enter_entered desk regime b.pendingDir (entryFill desk t b) t.tsMicros
    (b := { b with
      pendingDir := 0
      entryBbo := b.qs.marketFill (decide (b.pendingDir > 0)) t.tsMicros
        (t.price + b.pendingDir * desk.slip) t.price
      spreadEntry := if b.qs.fresh t.tsMicros then b.qs.q.spreadTicks desk.tickSize else -1 }) rfl
  exact { entered with }

/-- How a tick can leave a position: the price that is handed to the exit, its reason,
and the working stop that the position is left with. -/
inductive Leaves (t : OrbTick) (b : PaperBroker) : ℚ → String → ℚ → Prop
  | asked (some : b.pendingExitReason ≠ "") :
    Leaves t b (marketExit desk t b) b.pendingExitReason b.placedStop
  | ended (reason : String) (named : reason = "eod" ∨ reason = "daily_loss") :
    Leaves t b (marketExit desk t b) reason b.placedStop
  | stop (hit : stopped t.price (syncPlacedStop desk regime false b) = true) :
    Leaves t b (stopFill desk t.price (syncPlacedStop desk regime false b))
      (stopExitReason desk (syncPlacedStop desk regime false b))
      (syncPlacedStop desk regime false b).placedStop
  | target (hit : takeProfitHit desk regime t.price b = true) :
    Leaves t b (target desk regime b) "take_profit" (syncPlacedStop desk regime false b).placedStop
  | book (reason : String) (named : reason = "book_flip" ∨ reason = "book_tp") :
    Leaves t b (marketExit desk t b) reason (syncPlacedStop desk regime false b).placedStop

theorem syncPlacedStop_eq (force : Bool) (b : PaperBroker) :
    syncPlacedStop desk regime force b =
      { b with placedStop := (syncPlacedStop desk regime force b).placedStop } := by
  rw [syncPlacedStop]
  split
  · rfl
  · split
    · rfl
    · rfl

/-- The book asks for an exit by one of two names. -/
theorem bookExit_named (cfg : PaperConfig) (long : Bool) (tsUs : Int) (pnlPts : ℚ)
    (book : QuoteState) (some : book.bookExit cfg long tsUs pnlPts ≠ "") :
    book.bookExit cfg long tsUs pnlPts = "book_flip" ∨
      book.bookExit cfg long tsUs pnlPts = "book_tp" := by
  revert some
  simp only [QuoteState.bookExit]
  split_ifs
  all_goals
    intro some
    first
      | exact Or.inl rfl
      | exact Or.inr rfl
      | exact absurd rfl some

/-- What a tick does to a position: it is left for one of the reasons, or its stop is
kept up. -/
inductive Works (t : OrbTick) (b : PaperBroker) : PaperBroker → Prop
  | idle (flat : b.posDir = 0) : Works t b { b with risk := b.risk.updateUnrealized (some 0) }
  | left (held : b.posDir ≠ 0) {fill : ℚ} {reason : String} {level : ℚ} {text : String}
    (asks : text = "" ∨ text = b.pendingExitReason)
    (leaves : Leaves desk regime t b fill reason level) :
    Works t b (exitPosition desk fill t.tsMicros reason
      { b with placedStop := level, pendingExitReason := text })
  | kept (held : b.posDir ≠ 0)
    (open_ : stopped t.price (syncPlacedStop desk regime false b) = false) :
    Works t b (ratchet desk regime t
      (bookBreakEven desk regime t (syncPlacedStop desk regime false b)))

/-- A tick on a held position leaves it for one of the reasons, or keeps its stop up. -/
theorem manage_works {b : PaperBroker} (held : b.posDir ≠ 0) :
    Works desk regime t b (manage desk regime t b) := by
  obtain ⟨c, isSynced⟩ : ∃ c, c = syncPlacedStop desk regime false b := ⟨_, rfl⟩
  have same : c =
      { b with placedStop := c.placedStop, pendingExitReason := b.pendingExitReason } := by
    rw [isSynced]
    exact syncPlacedStop_eq desk regime false b
  have exits {fill : ℚ} {reason : String}
      (leaves : Leaves desk regime t b fill reason c.placedStop) :
      Works desk regime t b (exitPosition desk fill t.tsMicros reason c) := by
    rw [same]
    exact .left held (Or.inr rfl) leaves
  simp only [manage, ← isSynced]
  split
  next hit =>
    apply exits
    rw [isSynced] at hit ⊢
    exact .stop hit
  next unhit =>
    split
    next hit =>
      have reached : takeProfitHit desk regime t.price b = true := by
        rw [same] at hit
        exact hit
      have price : target desk regime c = target desk regime b := by
        rw [same]
        rfl
      apply exits
      rw [price, isSynced]
      exact .target reached
    next =>
      split
      next some =>
        have price : marketExit desk t c = marketExit desk t b := by
          rw [same]
          rfl
        apply exits
        rw [price, isSynced]
        exact .book _ (bookExit_named desk.cfg _ _ _ _ (by rw [← isSynced]; exact some))
      next =>
        rw [isSynced] at unhit ⊢
        exact .kept held (Bool.eq_false_iff.mpr unhit)

/-- Working an order is a step of managing a leg. -/
theorem work_works : Works desk regime t b (work desk regime t b) := by
  simp only [work]
  split
  next asked => exact .left asked.2 (Or.inl rfl) (.asked asked.1)
  next =>
    split
    next flat => exact .idle flat
    next held =>
      split
      next => exact .left held (Or.inr rfl) (.ended "eod" (Or.inl rfl))
      next =>
        split
        next => exact .left held (Or.inr rfl) (.ended "daily_loss" (Or.inr rfl))
        next => exact manage_works desk regime t held

/-- Two states of a broker differ in what is known of its stop alone. -/
def StopMoved (b b' : PaperBroker) : Prop :=
  b' = { b with
    placedStop := b'.placedStop
    stopPrice := b'.stopPrice
    beMoved := b'.beMoved
    trailArmed := b'.trailArmed
    slDirty := b'.slDirty }

theorem StopMoved.trans {b b'' : PaperBroker} (first : StopMoved b b') (second : StopMoved b' b'') :
    StopMoved b b'' := by
  rw [StopMoved] at second ⊢
  rw [second, first]

theorem syncPlacedStop_moved (force : Bool) (b : PaperBroker) :
    StopMoved b (syncPlacedStop desk regime force b) := by
  rw [syncPlacedStop]
  split
  · rfl
  · split
    · rfl
    · rfl

theorem bookBreakEven_moved : StopMoved b (bookBreakEven desk regime t b) := by
  simp only [bookBreakEven]
  split
  · split
    · have raised : StopMoved b
          { raiseStop (desk.snap (breakEvenLevel desk b) b.posDir) b with beMoved := true } := rfl
      exact raised.trans (syncPlacedStop_moved desk regime true _)
    · rfl
  · rfl

theorem breakEven_moved : StopMoved b (breakEven desk regime b) := by
  simp only [breakEven, syncPlacedStop, or_true, ↓reduceIte]
  split
  · split
    · rfl
    · rfl
  · rfl

theorem armTrail_moved (tsUs : Int) (b : PaperBroker) : StopMoved b (armTrail desk tsUs b) := by
  rw [armTrail]
  split
  · rfl
  · rfl

theorem trail_moved : StopMoved b (trail desk regime price b) := by
  rw [trail]
  split
  · have raised : StopMoved b (raiseStop (trailLevel desk regime price b) b) := rfl
    exact raised.trans (syncPlacedStop_moved desk regime false _)
  · rfl

/-- A tick that keeps a position closes nothing, and widens its excursion. -/
structure HeldOn (b b' : PaperBroker) : Prop where
  posDir : b'.posDir = b.posDir
  pendingDir : b'.pendingDir = b.pendingDir
  entryPrice : b'.entryPrice = b.entryPrice
  entryTimeUs : b'.entryTimeUs = b.entryTimeUs
  exit : b'.pendingExitReason = b.pendingExitReason
  entriesToday : b'.entriesToday = b.entriesToday
  total : b'.risk.totalProfit = b.risk.totalProfit
  mfe : b.mfe ≤ b'.mfe
  mae : b'.mae ≤ b.mae
  outbox : ∃ effects, b'.outbox = b.outbox ++ effects ∧ Silent effects

theorem StopMoved.heldOn {b : PaperBroker} (moved : StopMoved b b') : HeldOn b b' := by
  rw [moved]
  exact ⟨rfl, rfl, rfl, rfl, rfl, rfl, rfl, le_rfl, le_rfl, [], (List.append_nil _).symm, rfl, rfl⟩

/-- Held on through two stretches is held on through both. -/
theorem HeldOn.trans {b b'' : PaperBroker} (first : HeldOn b b') (second : HeldOn b' b'') :
    HeldOn b b'' where
  posDir := second.posDir.trans first.posDir
  pendingDir := second.pendingDir.trans first.pendingDir
  entryPrice := second.entryPrice.trans first.entryPrice
  entryTimeUs := second.entryTimeUs.trans first.entryTimeUs
  exit := second.exit.trans first.exit
  entriesToday := second.entriesToday.trans first.entriesToday
  total := second.total.trans first.total
  mfe := first.mfe.trans second.mfe
  mae := second.mae.trans first.mae
  outbox := by
    obtain ⟨early, earlier, silentEarly⟩ := first.outbox
    obtain ⟨late, later, silentLate⟩ := second.outbox
    refine ⟨early ++ late, ?_, silentEarly.append silentLate⟩
    rw [later, earlier, List.append_assoc]

/-- Tracking the excursion holds the position on. -/
theorem trackExcursion_heldOn : HeldOn b (trackExcursion price b) := by
  refine ⟨rfl, rfl, rfl, rfl, rfl, rfl, rfl, ?_, ?_, [], (List.append_nil _).symm, rfl, rfl⟩
  · simp only [trackExcursion]
    generalize (if b.posDir > 0 then price - b.entryPrice else b.entryPrice - price) = gain
    split
    next higher => exact higher.le
    next => exact le_rfl
  · simp only [trackExcursion]
    generalize (if b.posDir > 0 then price - b.entryPrice else b.entryPrice - price) = gain
    split
    next lower => exact lower.le
    next => exact le_rfl

/-- The mark holds the position on. -/
theorem markOpen_heldOn : HeldOn b (markOpen desk price b) := by
  simp only [markOpen, persistPosition]
  split
  · split
    · exact ⟨rfl, rfl, rfl, rfl, rfl, rfl, rfl, le_rfl, le_rfl, [],
        (List.append_nil _).symm, rfl, rfl⟩
    · exact ⟨rfl, rfl, rfl, rfl, rfl, rfl, rfl, le_rfl, le_rfl, _, rfl, rfl, rfl⟩
  · exact ⟨rfl, rfl, rfl, rfl, rfl, rfl, rfl, le_rfl, le_rfl, [],
      (List.append_nil _).symm, rfl, rfl⟩

theorem ratchet_heldOn : HeldOn b (ratchet desk regime t b) := by
  have tracked := trackExcursion_heldOn t.price b
  have moved := (breakEven_moved desk regime (trackExcursion t.price b)).trans
    ((armTrail_moved desk t.tsMicros _).trans (trail_moved desk regime t.price _))
  exact (tracked.trans moved.heldOn).trans (markOpen_heldOn desk t.price _)

/-- What the tick of a position that is kept comes to. -/
theorem managed_heldOn :
    HeldOn b (ratchet desk regime t
      (bookBreakEven desk regime t (syncPlacedStop desk regime false b))) := by
  have moved := (syncPlacedStop_moved desk regime false b).trans
    (bookBreakEven_moved desk regime t _)
  exact moved.heldOn.trans (ratchet_heldOn desk regime t _)

/-- A tick is too old for the position, or it works on the position that there is, or on
the one that the waiting entry opens. -/
theorem onTick_cases :
    (predates t b = true ∧ onTick desk regime t b = seeTick t b) ∨
      predates t b = false ∧
        (Works desk regime t (seeTick t b) (onTick desk regime t b) ∨
          b.pendingDir ≠ 0 ∧ b.posDir = 0 ∧ ∃ entered,
            JustEntered b.pendingDir (entryFill desk t b) t.tsMicros b entered ∧
              Works desk regime t entered (onTick desk regime t b)) := by
  have same : predates t (seeTick t b) = predates t b := rfl
  simp only [onTick, same]
  by_cases early : predates t b = true
  · rw [if_pos early]
    exact Or.inl ⟨early, rfl⟩
  · rw [if_neg early]
    refine Or.inr ⟨Bool.eq_false_iff.mpr early, ?_⟩
    by_cases fills : (seeTick t b).pendingDir ≠ 0 ∧ (seeTick t b).posDir = 0 ∧
        waitsForBook desk t (seeTick t b) = false
    · have entered := fillPending_entered desk regime t fills
      exact Or.inr ⟨fills.1, fills.2.1, _, { entered with }, work_works desk regime t _⟩
    · rw [fillPending, if_neg fills]
      exact Or.inl (work_works desk regime t _)

end PaperBroker

/-! ## The bracket broker -/

namespace PaperBracketBroker

open PaperBroker (closedRow)

variable (desk : PaperDesk)

/-- An exit leaves a broker without a position, and only adds to what was sent. -/
theorem exitPosition_effects (fill : ℚ) (tsUs : Int) (reason : String) (b : PaperBracketBroker) :
    ∃ effects, exitPosition desk fill tsUs reason b = { b with
        mfe := (tradeRow desk fill tsUs reason b).mfePts
        mae := (tradeRow desk fill tsUs reason b).maePts
        posDir := 0
        qty := 0
        tpPrice := none
        pendingExitReason := ""
        risk := (b.risk.updateUnrealized (some 0)).onTradePnl
          (some (tradeRow desk fill tsUs reason b).pnlUsd)
        outbox := b.outbox ++ effects } ∧
      effects.filterMap closedRow = [tradeRow desk fill tsUs reason b] := by
  simp only [exitPosition]
  cases saves : desk.store with
  | true =>
    simp only [persistPosition, saves, Bool.true_eq_false, ↓reduceIte, emit, List.append_assoc]
    exact ⟨_, rfl, rfl⟩
  | false =>
    simp only [persistPosition, saves, Bool.false_eq_true, ↓reduceIte, emit]
    exact ⟨_, rfl, rfl⟩

/-- The state of a position that was entered just now. -/
structure JustEntered (dir : SignType) (fill : ℚ) (b b' : PaperBracketBroker) : Prop where
  posDir : b'.posDir = dir
  entryPrice : b'.entryPrice = fill
  qs : b'.qs = b.qs
  exit : b'.pendingExitReason = ""
  outbox : ∃ effects, b'.outbox = b.outbox ++ effects ∧ effects.filterMap closedRow = []

variable (t : OrbTick) (bracket : Bracket) (b : PaperBracketBroker)

/-- A pending entry fills, is dropped by a halt, or there is nothing to fill. -/
theorem fillPending_cases :
    (b.pendingDir ≠ 0 ∧ b.posDir = 0 ∧
      JustEntered b.pendingDir (b.common.entryFill desk t) b (fillPending desk t bracket b)) ∨
    (fillPending desk t bracket b = b ∨
      b.posDir = 0 ∧ fillPending desk t bracket b = { b with pendingDir := 0 }) := by
  rw [fillPending]
  split
  next fills =>
    by_cases halts : b.halted = true
    · simp only [halts, ↓reduceIte]
      exact Or.inr (Or.inr ⟨fills.2.1, trivial⟩)
    · refine Or.inl ⟨fills.1, fills.2.1, ?_⟩
      simp only [halts, Bool.false_eq_true, ↓reduceIte, enter, persistPosition]
      split
      · exact ⟨rfl, rfl, rfl, rfl, [], (List.append_nil _).symm, rfl⟩
      · exact ⟨rfl, rfl, rfl, rfl, _, rfl, rfl⟩
  next => exact Or.inr (Or.inl rfl)

/-- The reasons that the bracket broker itself gives for a market exit. -/
def ownReasons : List String := ["reversal", "book_flip", "book_tp", "daily_loss", "eod"]

/-- How a tick can leave a position under its bracket: the price that is handed to the
exit, its reason, and the stop that the position is left with. -/
inductive Leaves (t : OrbTick) (b : PaperBracketBroker) : ℚ → String → ℚ → Prop
  | stop (hit : stopped t.price b = true) : Leaves t b (stopFill desk t.price b) "stop" b.stopPrice
  | target {tp : ℚ} (hit : targetHit t.price b = some tp) : Leaves t b tp "target" b.stopPrice
  | market {reason : String} (level : ℚ) (missed : targetHit t.price b = none)
    (named : reason = b.pendingExitReason ∨ reason ∈ ownReasons) :
    Leaves t b (marketExit desk t b) reason level

theorem bookBreakEven_eq :
    bookBreakEven desk t b = { b with stopPrice := (bookBreakEven desk t b).stopPrice } := by
  simp only [bookBreakEven]
  split
  · split
    · rfl
    · rfl
  · rfl

/-- What a tick does to a position under its bracket. -/
inductive Works (t : OrbTick) (b : PaperBracketBroker) : PaperBracketBroker → Prop
  | left {fill : ℚ} {reason : String} {level : ℚ} (leaves : Leaves desk t b fill reason level) :
    Works t b (exitPosition desk fill t.tsMicros reason { b with stopPrice := level })
  | kept (open_ : stopped t.price b = false) :
    Works t b (markOpen desk t.price (bookBreakEven desk t b))

/-- Settling a tick that missed the target exits for a reason asked for, or keeps the position. -/
theorem settle_works {b : PaperBracketBroker} (open_ : stopped t.price b = false)
    (missed : targetHit t.price b = none) : Works desk t b (settle desk t b) := by
  have asked : (bookBreakEven desk t b).pendingExitReason = b.pendingExitReason := by
    rw [bookBreakEven_eq]
  have exits {reason : String} (named : reason = b.pendingExitReason ∨ reason ∈ ownReasons) :
      Works desk t b (exitPosition desk (marketExit desk t (bookBreakEven desk t b)) t.tsMicros
        reason (bookBreakEven desk t b)) := by
    have price : marketExit desk t (bookBreakEven desk t b) = marketExit desk t b := by
      rw [bookBreakEven_eq]
      rfl
    rw [price, bookBreakEven_eq]
    exact .left (.market _ missed named)
  simp only [settle]
  split
  · exact exits (Or.inl asked)
  · split
    · exact exits (Or.inr (by decide))
    · split
      · exact exits (Or.inr (by decide))
      · exact .kept open_

/-- Managing a bracketed position leaves it for one of the reasons, or keeps it. -/
theorem manage_works : Works desk t (updateBracket bracket b) (manage desk t bracket b) := by
  simp only [manage]
  generalize updateBracket bracket b = c
  split
  next hit => exact .left (.stop hit)
  next unhit =>
    split
    next tp hit => exact .left (.target hit)
    next missed =>
      split
      next some =>
        refine .left (.market _ missed (Or.inr ?_))
        rcases PaperBroker.bookExit_named desk.cfg _ _ _ _ some with named | named
        · rw [named]
          decide
        · rw [named]
          decide
      next => exact settle_works desk t (Bool.eq_false_iff.mpr unhit) missed

/-- A tick is too old for the position, turns it, leaves the broker flat, or manages the
position that there is or that the waiting entry opens. -/
theorem onTick_cases :
    (predates t b = true ∧ onTick desk t bracket b = seeTick t b) ∨
      (predates t b = false ∧ b.pendingFlip ≠ 0 ∧
        onTick desk t bracket b = turn desk t (seeTick t b)) ∨
      (predates t b = false ∧ b.pendingFlip = 0 ∧
        ((b.posDir = 0 ∧ (onTick desk t bracket b = seeTick t b ∨
            onTick desk t bracket b = { seeTick t b with pendingDir := 0 })) ∨
          (b.posDir ≠ 0 ∧
            Works desk t (updateBracket bracket (seeTick t b)) (onTick desk t bracket b)) ∨
          (b.pendingDir ≠ 0 ∧ b.posDir = 0 ∧ ∃ entered,
            JustEntered b.pendingDir (b.common.entryFill desk t) b entered ∧
              Works desk t (updateBracket bracket entered) (onTick desk t bracket b)))) := by
  have same : predates t (seeTick t b) = predates t b := rfl
  have turns : (seeTick t b).pendingFlip = b.pendingFlip := rfl
  simp only [onTick, same, turns]
  by_cases early : predates t b = true
  · rw [if_pos early]
    exact Or.inl ⟨early, rfl⟩
  · rw [if_neg early]
    refine Or.inr ?_
    by_cases flips : b.pendingFlip ≠ 0
    · rw [if_pos flips]
      exact Or.inl ⟨Bool.eq_false_iff.mpr early, flips, rfl⟩
    · rw [if_neg flips]
      refine Or.inr ⟨Bool.eq_false_iff.mpr early, not_not.mp flips, ?_⟩
      rcases fillPending_cases desk t bracket (seeTick t b) with
        ⟨some, flat, entered⟩ | stays | ⟨flat, dropped⟩
      · have held : (fillPending desk t bracket (seeTick t b)).posDir ≠ 0 := by
          rw [entered.posDir]
          exact some
        rw [if_neg held]
        exact Or.inr (Or.inr ⟨some, flat, _, { entered with }, manage_works desk t bracket _⟩)
      · rw [stays]
        split
        next flat => exact Or.inl ⟨flat, Or.inl rfl⟩
        next held => exact Or.inr (Or.inl ⟨held, manage_works desk t bracket _⟩)
      · rw [dropped, if_pos flat]
        exact Or.inl ⟨flat, Or.inr rfl⟩

end PaperBracketBroker

end RithmicEngine
