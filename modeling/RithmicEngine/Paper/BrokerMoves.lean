import RithmicEngine.Paper.Runner
/-!
# What a paper broker's operations do to its standing

The host sees of a broker what it holds, what waits, whether it is in warm-up, and the
trades it closed. Here each operation of the two brokers is read in these terms: what
it leaves, the legs it closes, and which of the moves of a standing it makes.
-/
namespace RithmicEngine

/-- What a host sees of a broker. -/
structure Stance where
  standing : Standing
  warmup : Bool
  outbox : List PaperEffect

namespace Stance

/-- From one stance to the next exactly these trades were closed, in this order, and the
warm-up mode was left alone. -/
structure Books (rows : List PaperTradeRow) (s s' : Stance) : Prop where
  warmup : s'.warmup = s.warmup
  outbox : ∃ effects, s'.outbox = s.outbox ++ effects ∧
    effects.filterMap PaperBroker.closedRow = rows

theorem Books.refl (s : Stance) : Books [] s s where
  warmup := rfl
  outbox := ⟨[], (List.append_nil s.outbox).symm, rfl⟩

variable {s s' : Stance}

/-- Booked trades of two steps, one after the other. -/
theorem Books.trans {first second : List PaperTradeRow} {s'' : Stance} (before : Books first s s')
    (after : Books second s' s'') : Books (first ++ second) s s'' := by
  obtain ⟨early, earlier, closedEarly⟩ := before.outbox
  obtain ⟨late, later, closedLate⟩ := after.outbox
  refine ⟨after.warmup.trans before.warmup, early ++ late, ?_, ?_⟩
  · rw [later, earlier, List.append_assoc]
  · rw [List.filterMap_append, closedEarly, closedLate]

/-- The closed trades are what the host reads off the two outboxes. -/
theorem Books.closed {rows : List PaperTradeRow} (books : Books rows s s') :
    (s'.outbox.drop s.outbox.length).filterMap PaperBroker.closedRow = rows := by
  obtain ⟨effects, longer, closed⟩ := books.outbox
  rw [longer, List.drop_left, closed]

/-- No trade was closed and the standing is as it was. -/
structure Steady (s s' : Stance) : Prop where
  standing : s'.standing = s.standing
  books : Books [] s s'

theorem Steady.refl (s : Stance) : Steady s s := ⟨rfl, Books.refl s⟩

theorem Steady.trans {s'' : Stance} (before : Steady s s') (after : Steady s' s'') : Steady s s'' :=
  ⟨after.standing.trans before.standing, before.books.trans after.books⟩

theorem Steady.of_eq (same : s' = s) : Steady s s' := by
  rw [same]
  exact Steady.refl s

/-- One look at the market: the trades closed are the legs of a move. -/
structure Plays (rows : List PaperTradeRow) (s s' : Stance) : Prop where
  books : Books rows s s'
  moved : s.standing.Moved (rows.map (·.closedDir.dir)) s'.standing

theorem Steady.plays (steady : Steady s s') : Plays [] s s' where
  books := steady.books
  moved := by
    rw [steady.standing]
    exact Standing.Moved.stay s.standing

end Stance

open Stance (Books Steady Plays)

/-- The direction that the host reads from a row is that of the position. -/
theorem PaperBroker.tradeRow_dir (desk : PaperDesk) (fill : ℚ) (tsUs : Int) (reason : String)
    {b : PaperBroker} (held : b.posDir ≠ 0) :
    (b.tradeRow desk fill tsUs reason).closedDir.dir = b.posDir := by
  obtain dir | dir := dir_cases held
  · simp only [PaperTradeRow.closedDir, tradeRow, dir]
    decide
  · simp only [PaperTradeRow.closedDir, tradeRow, dir]
    decide

/-! ## The plain broker -/

namespace PaperBroker

variable (desk : PaperDesk) (regime : Option SessionRegime)

def stance (b : PaperBroker) : Stance where
  standing := { held := b.posDir, waiting := b.pendingDir }
  warmup := b.warmup
  outbox := b.outbox

theorem syncPlacedStop_stance (force : Bool) (b : PaperBroker) :
    (syncPlacedStop desk regime force b).stance = b.stance := by
  rw [syncPlacedStop]
  split
  · rfl
  · split
    · rfl
    · rfl

variable (t : OrbTick) (reason : String) (b : PaperBroker)

theorem bookBreakEven_stance : (bookBreakEven desk regime t b).stance = b.stance := by
  simp only [bookBreakEven]
  split
  · split
    · exact syncPlacedStop_stance desk regime true _
    · rfl
  · rfl

theorem breakEven_stance : (breakEven desk regime b).stance = b.stance := by
  simp only [breakEven]
  split
  · split
    · exact syncPlacedStop_stance desk regime true (raiseStop _ b)
    · rfl
  · rfl

theorem armTrail_stance (tsUs : Int) (b : PaperBroker) :
    (armTrail desk tsUs b).stance = b.stance := by
  rw [armTrail]
  split
  · rfl
  · rfl

theorem trail_stance (price : ℚ) (b : PaperBroker) :
    (trail desk regime price b).stance = b.stance := by
  rw [trail]
  split
  · exact syncPlacedStop_stance desk regime false (raiseStop _ b)
  · rfl

theorem persistPosition_steady (unreal : ℚ) (b : PaperBroker) :
    Steady b.stance (persistPosition desk unreal b).stance := by
  rw [persistPosition]
  split
  · exact Steady.refl _
  · exact ⟨rfl, rfl, _, rfl, rfl⟩

theorem logSignal_steady (long : Bool) (reason blocked : String) (b : PaperBroker) :
    Steady b.stance (logSignal desk long reason blocked b).stance := by
  rw [logSignal]
  split
  · exact Steady.refl _
  · exact ⟨rfl, rfl, _, rfl, rfl⟩

theorem markOpen_steady (price : ℚ) (b : PaperBroker) :
    Steady b.stance (markOpen desk price b).stance := by
  simp only [markOpen]
  split
  · exact persistPosition_steady desk _ { b with slDirty := false, risk := _ }
  · exact Steady.refl _

/-- The ratchet of a position that stays open moves only its stop. -/
theorem ratchet_steady : Steady b.stance (ratchet desk regime t b).stance := by
  have moved := breakEven_stance desk regime (trackExcursion t.price b)
  have armed := armTrail_stance desk t.tsMicros (breakEven desk regime (trackExcursion t.price b))
  have trailed := trail_stance desk regime t.price
    (armTrail desk t.tsMicros (breakEven desk regime (trackExcursion t.price b)))
  exact (Steady.of_eq (trailed.trans (armed.trans moved))).trans (markOpen_steady desk t.price _)

/-- An exit closes exactly its own trade. -/
theorem exitPosition_books (fill : ℚ) (tsUs : Int) (reason : String) (b : PaperBroker) :
    Books [tradeRow desk fill tsUs reason b] b.stance
        (exitPosition desk fill tsUs reason b).stance ∧
      (exitPosition desk fill tsUs reason b).stance.standing = { waiting := b.pendingDir } := by
  cases saves : desk.store with
  | true =>
    simp only [exitPosition, saves, persistPosition, Bool.true_eq_false, ↓reduceIte, emit,
      List.append_assoc]
    exact ⟨⟨rfl, _, rfl, rfl⟩, rfl⟩
  | false =>
    simp only [exitPosition, saves, persistPosition, Bool.false_eq_true, ↓reduceIte, emit]
    exact ⟨⟨rfl, _, rfl, rfl⟩, rfl⟩

/-- What a position does at a tick: it closes, or it stays. -/
structure Worked (b b' : PaperBroker) : Prop where
  outcome : (b.posDir ≠ 0 ∧ ∃ row, row.closedDir.dir = b.posDir ∧
    Books [row] b.stance b'.stance ∧ b'.stance.standing = { waiting := b.pendingDir }) ∨
    Steady b.stance b'.stance

/-- An exit of a broker that differs from the first only in what the host cannot see. -/
theorem exitPosition_worked {b b' : PaperBroker} (held : b.posDir ≠ 0)
    (same : b'.stance = b.stance) (fill : ℚ) (tsUs : Int) (reason : String) :
    Worked b (exitPosition desk fill tsUs reason b') := by
  obtain ⟨books, standing⟩ := exitPosition_books desk fill tsUs reason b'
  have dir : b'.posDir = b.posDir := congrArg (·.standing.held) same
  have waits : b'.pendingDir = b.pendingDir := congrArg (·.standing.waiting) same
  refine ⟨Or.inl ⟨held, tradeRow desk fill tsUs reason b', ?_, ?_, ?_⟩⟩
  · rw [tradeRow_dir desk fill tsUs reason (by rw [dir]; exact held), dir]
  · rw [← same]
    exact books
  · rw [standing, waits]

/-- Managing an open position closes it, or leaves it standing. -/
theorem manage_worked {b : PaperBroker} (held : b.posDir ≠ 0) :
    Worked b (manage desk regime t b) := by
  have synced := syncPlacedStop_stance desk regime false b
  simp only [manage]
  split
  · exact exitPosition_worked desk held synced _ _ _
  · split
    · exact exitPosition_worked desk held synced _ _ _
    · split
      · exact exitPosition_worked desk held synced _ _ _
      · have even := bookBreakEven_stance desk regime t (syncPlacedStop desk regime false b)
        exact ⟨Or.inr ((Steady.of_eq (even.trans synced)).trans (ratchet_steady desk regime t _))⟩

/-- Working an order closes the position, or leaves it standing. -/
theorem work_worked : Worked b (work desk regime t b) := by
  simp only [work]
  split
  · next asked =>
    have same : ({ b with pendingExitReason := "" } : PaperBroker).stance = b.stance := rfl
    exact exitPosition_worked desk asked.2 same _ _ _
  · split
    · exact ⟨Or.inr (Steady.refl _)⟩
    · next held =>
      split
      · exact exitPosition_worked desk held rfl _ _ _
      · split
        · exact exitPosition_worked desk held rfl _ _ _
        · exact manage_worked desk regime t held

/-- An entry holds what waited and books no trade. -/
theorem enter_books (dir : SignType) (fill : ℚ) (tsUs : Int) (b : PaperBroker) :
    Books [] b.stance (enter desk regime dir fill tsUs b).stance ∧
      (enter desk regime dir fill tsUs b).stance.standing =
        { held := dir, waiting := b.pendingDir } := by
  obtain ⟨standing, books⟩ := persistPosition_steady desk 0
    { b with
      posDir := dir
      qty := entryQty desk regime (decide (dir > 0)) tsUs b
      entryPrice := fill
      entryTimeUs := tsUs
      stopPrice := desk.snap (fill - dir * desk.cfg.slPoints) dir
      placedStop := desk.snap (fill - dir * desk.cfg.slPoints) dir
      mfe := 0
      mae := 0
      beMoved := false
      trailArmed := false
      entriesToday := b.entriesToday + 1 }
  exact ⟨⟨books.warmup, books.outbox⟩, standing⟩

/-- The condition under which a pending entry fills at a tick. -/
theorem fillPending_enters {b : PaperBroker}
    (fills : b.pendingDir ≠ 0 ∧ b.posDir = 0 ∧ waitsForBook desk t b = false) :
    Books [] b.stance (fillPending desk regime t b).stance ∧
      (fillPending desk regime t b).stance.standing = { held := b.pendingDir } := by
  rw [fillPending, if_pos fills]
  obtain ⟨books, standing⟩ := enter_books desk regime b.pendingDir _ t.tsMicros
    { b with pendingDir := 0, entryBbo := _, spreadEntry := _ }
  exact ⟨⟨books.warmup, books.outbox⟩, standing⟩

/-- A pending entry fills, or everything stays as it is. -/
theorem fillPending_books :
    (b.pendingDir ≠ 0 ∧ b.posDir = 0 ∧
      Books [] b.stance (fillPending desk regime t b).stance ∧
      (fillPending desk regime t b).stance.standing = { held := b.pendingDir }) ∨
    fillPending desk regime t b = b := by
  by_cases fills : b.pendingDir ≠ 0 ∧ b.posDir = 0 ∧ waitsForBook desk t b = false
  · exact Or.inl ⟨fills.1, fills.2.1, fillPending_enters desk regime t fills⟩
  · exact Or.inr (if_neg fills)

/-- A tick makes one of the moves of a standing. -/
theorem onTick_plays {b : PaperBroker} (sound : b.stance.standing.Sound) :
    ∃ rows, Plays rows b.stance (onTick desk regime t b).stance := by
  obtain ⟨x, isSeen⟩ : ∃ x, x = seeTick t b := ⟨_, rfl⟩
  have seen : x.stance = b.stance := by rw [isSeen]; rfl
  simp only [onTick, ← isSeen]
  rw [← seen] at sound ⊢
  split
  · exact ⟨[], (Steady.refl x.stance).plays⟩
  · obtain ⟨some, flat, books, filled⟩ | same := fillPending_books desk regime t x
    · obtain ⟨y, isFilled⟩ : ∃ y, y = fillPending desk regime t x := ⟨_, rfl⟩
      rw [← isFilled] at books filled ⊢
      have before : x.stance.standing = { waiting := x.pendingDir } := by
        simp only [stance, flat]
      have dir : y.posDir = x.pendingDir := congrArg Standing.held filled
      have none : y.pendingDir = 0 := congrArg Standing.waiting filled
      obtain ⟨_, row, rowDir, closes, closed⟩ | steady := (work_worked desk regime t y).outcome
      · refine ⟨[row], books.trans closes, ?_⟩
        rw [before, closed, none, List.map_singleton, rowDir, dir]
        exact Standing.Moved.fillAndClose x.pendingDir some
      · refine ⟨[], books.trans steady.books, ?_⟩
        rw [before, steady.standing, filled]
        exact Standing.Moved.fill x.pendingDir
    · rw [same]
      obtain ⟨held, row, rowDir, closes, closed⟩ | steady := (work_worked desk regime t x).outcome
      · have none : x.pendingDir = 0 := sound.alone.resolve_left held
        have before : x.stance.standing = { held := x.posDir } := by
          simp only [stance, none]
        refine ⟨[row], closes, ?_⟩
        rw [before, closed, none, List.map_singleton, rowDir]
        exact Standing.Moved.close x.posDir held
      · exact ⟨[], steady.plays⟩

/-- An entry signal that the broker takes: it is live, flat and unhalted, its risk, its
day's count, its cooldown and its window allow another entry, and no gate blocks. -/
def accepts (dir : SignType) (b : PaperBroker) : Bool :=
  !b.warmup && decide (b.stance.standing = Standing.rest) && !b.halted && b.risk.canTrade &&
    !decide (b.entriesToday ≥ desk.cfg.maxDailyTrades) &&
    !decide (b.lastTickUs > 0 ∧ b.lastTickUs < b.cooldownUntilUs) && inEntryWindow desk b &&
    decide (entryGate desk regime (decide (dir > 0)) b = "")

theorem onEntrySignal_warm (dir : SignType) (reason : String) {b : PaperBroker}
    (warm : b.warmup = true) : (onEntrySignal desk regime dir reason b).stance = b.stance := by
  rw [onEntrySignal, if_pos warm]
  rfl

/-- An accepted entry signal changes the standing by its order and books no trade. -/
theorem onEntrySignal_takes {dir : SignType} {b : PaperBroker}
    (accepted : accepts desk regime dir b = true) :
    Books [] b.stance (onEntrySignal desk regime dir reason b).stance ∧
      b.stance.standing.Fits dir ∧
      (onEntrySignal desk regime dir reason b).stance.standing = b.stance.standing.order dir := by
  simp only [accepts, Bool.and_eq_true, Bool.not_eq_true', decide_eq_true_eq,
    decide_eq_false_iff_not] at accepted
  obtain ⟨⟨⟨⟨⟨⟨⟨live, resting⟩, free⟩, trades⟩, count⟩, cool⟩, window⟩, passes⟩ := accepted
  obtain ⟨flat, none, _⟩ := (Standing.eq_rest_iff _).mp resting
  have alone : ¬ (b.posDir ≠ 0 ∨ b.pendingDir ≠ 0) := by
    rintro (held | waiting)
    · exact held flat
    · exact waiting none
  have logged := logSignal_steady desk (decide (dir > 0)) reason "" b
  have queued : onEntrySignal desk regime dir reason b =
      { logSignal desk (decide (dir > 0)) reason "" b with
        pendingDir := dir
        pendingSinceUs := (logSignal desk (decide (dir > 0)) reason "" b).lastTickUs } := by
    simp only [onEntrySignal, live, Bool.false_eq_true, ↓reduceIte, if_neg alone, free, trades,
      Bool.true_eq_false, if_neg count, if_neg cool, window, passes, ne_eq, not_true_eq_false]
  rw [queued]
  refine ⟨⟨logged.books.warmup, logged.books.outbox⟩, Or.inl resting, ?_⟩
  have held : (logSignal desk (decide (dir > 0)) reason "" b).posDir = b.posDir :=
    congrArg Standing.held logged.standing
  rw [resting]
  simp only [stance, held]
  rw [show b.posDir = 0 from flat]
  rfl

/-- A flatten closes what is standing, for its own reason. -/
theorem flatten_books (tsUs : Int) (priceHint : ℚ) (b : PaperBroker) :
    ∃ rows, Books rows b.stance (flatten desk reason tsUs priceHint b).stance ∧
      rows.map (·.closedDir.dir) = b.stance.standing.closing ∧
      (flatten desk reason tsUs priceHint b).stance.standing = Standing.rest := by
  simp only [flatten]
  by_cases flat : b.posDir = 0
  · rw [if_pos flat]
    refine ⟨[], ⟨rfl, [], (List.append_nil _).symm, rfl⟩, ?_, ?_⟩
    · exact (if_pos flat).symm
    · simp only [stance, flat]
      rfl
  · rw [if_neg flat]
    obtain ⟨books, standing⟩ := exitPosition_books desk
      ((if priceHint > 0 then priceHint else b.entryPrice) - b.posDir * desk.slip) tsUs reason
      { b with pendingDir := 0, pendingExitReason := "" }
    refine ⟨[_], ⟨books.warmup, books.outbox⟩, ?_, standing⟩
    rw [List.map_singleton, tradeRow_dir (b := { b with pendingDir := 0, pendingExitReason := "" })
      desk _ tsUs reason flat]
    exact (if_neg flat).symm

end PaperBroker

/-! ## The bracket broker -/

theorem empty_ne_restartFlatten : "" ≠ restartFlatten := by decide

/-- A choice between two texts, neither of which is a third. -/
theorem ite_text_ne {choice : Prop} [Decidable choice] {first second text : String}
    (one : first ≠ text) (other : second ≠ text) : (if choice then first else second) ≠ text := by
  split
  · exact one
  · exact other

/-- No exit of the book gives a restart's reason. -/
theorem QuoteState.bookExit_ne (cfg : PaperConfig) (long : Bool) (tsUs : Int) (pnlPts : ℚ)
    (book : QuoteState) : book.bookExit cfg long tsUs pnlPts ≠ restartFlatten := by
  apply ite_text_ne (by decide)
  apply ite_text_ne (by decide)
  exact ite_text_ne (by decide) (by decide)

namespace PaperBracketBroker

variable (desk : PaperDesk) (regime : Option SessionRegime)

def stance (b : PaperBracketBroker) : Stance where
  standing := { held := b.posDir, waiting := b.pendingDir, turning := b.pendingFlip }
  warmup := b.warmup
  outbox := b.outbox

variable {b : PaperBracketBroker} (fill : ℚ) (t : OrbTick) (dir : SignType) (tsUs : Int)
  (bracket : Bracket) (reason : String)

theorem bookBreakEven_stance (b : PaperBracketBroker) :
    (bookBreakEven desk t b).stance = b.stance ∧
      (bookBreakEven desk t b).pendingExitReason = b.pendingExitReason := by
  simp only [bookBreakEven]
  split
  · split
    · exact ⟨rfl, rfl⟩
    · exact ⟨rfl, rfl⟩
  · exact ⟨rfl, rfl⟩

theorem persistPosition_steady (b : PaperBracketBroker) :
    Steady b.stance (persistPosition desk b).stance := by
  rw [persistPosition]
  split
  · exact Steady.refl _
  · exact ⟨rfl, rfl, _, rfl, rfl⟩

theorem logSignal_steady (long : Bool) (reason blocked : String) (b : PaperBracketBroker) :
    Steady b.stance (logSignal desk long reason blocked b).stance := by
  rw [logSignal]
  split
  · exact Steady.refl _
  · exact ⟨rfl, rfl, _, rfl, rfl⟩

/-- An exit closes exactly its own trade, and asks for no other. -/
theorem exitPosition_books (b : PaperBracketBroker) :
    Books [tradeRow desk fill tsUs reason b] b.stance
        (exitPosition desk fill tsUs reason b).stance ∧
      (exitPosition desk fill tsUs reason b).stance.standing =
        { waiting := b.pendingDir, turning := b.pendingFlip } ∧
      (exitPosition desk fill tsUs reason b).pendingExitReason = "" := by
  cases saves : desk.store with
  | true =>
    simp only [exitPosition, saves, persistPosition, Bool.true_eq_false, ↓reduceIte, emit,
      List.append_assoc]
    exact ⟨⟨rfl, _, rfl, rfl⟩, rfl, trivial⟩
  | false =>
    simp only [exitPosition, saves, persistPosition, Bool.false_eq_true, ↓reduceIte, emit]
    exact ⟨⟨rfl, _, rfl, rfl⟩, rfl, trivial⟩

/-- An exit halts the broker exactly when booking its trade does. -/
theorem exitPosition_halted (b : PaperBracketBroker) :
    (exitPosition desk fill tsUs reason b).halted =
      ((b.risk.updateUnrealized (some 0)).onTradePnl
        (some (tradeRow desk fill tsUs reason b).pnlUsd)).halted := by
  cases saves : desk.store with
  | true => simp [exitPosition, saves, persistPosition, emit, halted]
  | false => simp only [exitPosition, saves, persistPosition, Bool.false_eq_true, ↓reduceIte, emit,
      halted]

/-- What a position does at a tick: it closes, or it stays. Where no exit was asked for
in a restart's name, none is made in it. -/
structure Worked (b b' : PaperBracketBroker) : Prop where
  outcome : (∃ row, row.closedDir.dir = b.posDir ∧
    (b.pendingExitReason ≠ restartFlatten → row.exitReason ≠ restartFlatten) ∧
    Books [row] b.stance b'.stance ∧
    b'.stance.standing = { waiting := b.pendingDir, turning := b.pendingFlip } ∧
    b'.pendingExitReason = "") ∨
    (Steady b.stance b'.stance ∧ b'.pendingExitReason = b.pendingExitReason)

/-- An exit of a broker that differs from the first only in what the host cannot see. -/
theorem exitPosition_worked {b' : PaperBracketBroker} (held : b.posDir ≠ 0)
    (same : b'.stance = b.stance) (fill : ℚ) (tsUs : Int) {reason : String}
    (own : b.pendingExitReason ≠ restartFlatten → reason ≠ restartFlatten) :
    Worked b (exitPosition desk fill tsUs reason b') := by
  obtain ⟨books, standing, asked⟩ := exitPosition_books desk fill tsUs reason b'
  have dir : b'.posDir = b.posDir := congrArg (·.standing.held) same
  have waits : b'.pendingDir = b.pendingDir := congrArg (·.standing.waiting) same
  have turns : b'.pendingFlip = b.pendingFlip := congrArg (·.standing.turning) same
  refine ⟨Or.inl ⟨tradeRow desk fill tsUs reason b', ?_, own, ?_, ?_, asked⟩⟩
  · have read := PaperBroker.tradeRow_dir desk fill tsUs reason (b := b'.common)
      (by rw [← dir] at held; exact held)
    exact read.trans dir
  · rw [← same]
    exact books
  · rw [standing, waits, turns]

/-- Settling a bracket closes it, or leaves it standing. -/
theorem settle_worked (held : b.posDir ≠ 0) : Worked b (settle desk t b) := by
  obtain ⟨even, asked⟩ := bookBreakEven_stance desk t b
  simp only [settle]
  split
  · exact exitPosition_worked desk held even _ _ (fun own => by rw [asked]; exact own)
  · split
    · exact exitPosition_worked desk held even _ _ (fun _ => by decide)
    · split
      · exact exitPosition_worked desk held even _ _ (fun _ => by decide)
      · exact ⟨Or.inr ⟨Steady.of_eq even, asked⟩⟩

/-- Managing an open bracket closes it, or leaves it standing. -/
theorem manage_worked (held : b.posDir ≠ 0) : Worked b (manage desk t bracket b) := by
  have updated : (updateBracket bracket b).stance = b.stance := rfl
  simp only [manage]
  split
  · exact exitPosition_worked desk held updated _ _ (fun _ => by decide)
  · split
    · exact exitPosition_worked desk held updated _ _ (fun _ => by decide)
    · split
      · exact exitPosition_worked desk held updated _ _
          (fun _ => QuoteState.bookExit_ne _ _ _ _ _)
      · exact ⟨(settle_worked desk t (b := updateBracket bracket b) held).outcome⟩

/-- A bracket that is entered books no trade and holds its side. -/
theorem enter_books (fill : ℚ) (tsUs : Int) (bracket : Bracket) (b : PaperBracketBroker) :
    Books [] b.stance (enter desk dir fill tsUs bracket b).stance ∧
      (enter desk dir fill tsUs bracket b).stance.standing =
        { held := dir, waiting := b.pendingDir, turning := b.pendingFlip } ∧
      (enter desk dir fill tsUs bracket b).pendingExitReason = "" := by
  rw [enter, persistPosition]
  split
  · exact ⟨⟨rfl, [], (List.append_nil _).symm, rfl⟩, rfl, rfl⟩
  · exact ⟨⟨rfl, _, rfl, rfl⟩, rfl, rfl⟩

/-- The condition under which the pending entry of a broker that no halt stops fills. -/
theorem fillPending_enters (free : b.halted = false)
    (fills : b.pendingDir ≠ 0 ∧ b.posDir = 0 ∧ b.common.waitsForBook desk t = false) :
    Books [] b.stance (fillPending desk t bracket b).stance ∧
      (fillPending desk t bracket b).stance.standing =
        { held := b.pendingDir, turning := b.pendingFlip } ∧
      (fillPending desk t bracket b).pendingExitReason = "" := by
  rw [fillPending, if_pos fills]
  simp only [free, Bool.false_eq_true, ↓reduceIte]
  obtain ⟨books, standing, asked⟩ := enter_books desk b.pendingDir
    (if desk.cfg.fillModel = "bbo" ∧ b.qs.fresh t.tsMicros = true then
      b.qs.marketFill (decide (b.pendingDir > 0)) t.tsMicros
        (t.price + b.pendingDir * desk.slip) t.price
    else t.price + b.pendingDir * desk.slip) t.tsMicros bracket
    { b with
      entryBbo := b.qs.marketFill (decide (b.pendingDir > 0)) t.tsMicros
        (t.price + b.pendingDir * desk.slip) t.price
      spreadEntry := if b.qs.fresh t.tsMicros then b.qs.q.spreadTicks desk.tickSize else -1 }
  refine ⟨⟨books.warmup, books.outbox⟩, ?_, asked⟩
  have held := congrArg Standing.held standing
  have turns := congrArg Standing.turning standing
  simp only [stance] at held turns ⊢
  rw [held, turns]

/-- A pending entry fills, or everything stays as it is. -/
theorem fillPending_books (free : b.pendingDir ≠ 0 → b.halted = false) :
    (b.pendingDir ≠ 0 ∧ b.posDir = 0 ∧
      Books [] b.stance (fillPending desk t bracket b).stance ∧
      (fillPending desk t bracket b).stance.standing =
        { held := b.pendingDir, turning := b.pendingFlip } ∧
      (fillPending desk t bracket b).pendingExitReason = "") ∨
    fillPending desk t bracket b = b := by
  by_cases fills : b.pendingDir ≠ 0 ∧ b.posDir = 0 ∧ b.common.waitsForBook desk t = false
  · exact Or.inl ⟨fills.1, fills.2.1, fillPending_enters desk t bracket (free fills.1) fills⟩
  · exact Or.inr (if_neg fills)

/-- The trade that a reversal at this tick closes halts the broker. -/
def turnHalts (t : OrbTick) (b : PaperBracketBroker) : Bool :=
  ((b.risk.updateUnrealized (some 0)).onTradePnl
    (some (tradeRow desk (marketExit desk t b) t.tsMicros "reversal" b).pnlUsd)).halted

/-- A reversal that does not halt the broker closes the leg and leaves the opposite
entry waiting. -/
theorem turn_books (held : b.posDir ≠ 0) (goesOn : turnHalts desk t b = false) :
    ∃ row, row.closedDir.dir = b.posDir ∧ row.exitReason ≠ restartFlatten ∧
      Books [row] b.stance (turn desk t b).stance ∧
      (turn desk t b).stance.standing = { waiting := b.pendingFlip } ∧
      (turn desk t b).pendingExitReason = "" ∧ (turn desk t b).halted = false := by
  obtain ⟨x, isLeft⟩ : ∃ x : PaperBracketBroker, x = { b with pendingFlip := 0 } := ⟨_, rfl⟩
  have still : x.posDir ≠ 0 := by rw [isLeft]; exact held
  obtain ⟨y, isExit⟩ : ∃ y, y = exitPosition desk (marketExit desk t x) t.tsMicros "reversal" x :=
    ⟨_, rfl⟩
  have on : y.halted = false := by
    rw [isExit, exitPosition_halted, isLeft]
    exact goesOn
  have turned : turn desk t b = { y with pendingDir := b.pendingFlip } := by
    simp only [turn, ← isLeft, if_pos held, ← isExit, on, Bool.false_eq_true, ↓reduceIte]
  obtain ⟨books, standing, asked⟩ :=
    exitPosition_books desk (marketExit desk t x) t.tsMicros "reversal" x
  rw [← isExit] at books standing asked
  rw [turned]
  refine ⟨tradeRow desk (marketExit desk t x) t.tsMicros "reversal" x, ?_, ?_, ?_, ?_, asked, on⟩
  · have read := PaperBroker.tradeRow_dir desk (marketExit desk t x) t.tsMicros "reversal"
      (b := x.common) still
    rw [isLeft] at read ⊢
    exact read
  · exact (by decide : "reversal" ≠ restartFlatten)
  · rw [isLeft] at books ⊢
    exact ⟨books.warmup, books.outbox⟩
  · have flat : y.posDir = 0 := congrArg Standing.held standing
    have straight : y.pendingFlip = x.pendingFlip := congrArg Standing.turning standing
    simp only [stance, flat, straight, isLeft]

/-- What a bracket broker keeps to besides its standing: an entry waits only while no
halt would drop it, and no exit is asked for in a restart's name. -/
structure Ready (b : PaperBracketBroker) : Prop where
  free : b.pendingDir ≠ 0 → b.halted = false
  own : b.pendingExitReason ≠ restartFlatten

/-- A position that was worked on leaves nothing waiting. -/
theorem Worked.ready {b' : PaperBracketBroker} (worked : Worked b b') (none : b.pendingDir = 0)
    (own : b.pendingExitReason ≠ restartFlatten) : b'.Ready := by
  obtain ⟨_, _, _, _, standing, asked⟩ | ⟨steady, asked⟩ := worked.outcome
  · have waits : b'.pendingDir = b.pendingDir := congrArg Standing.waiting standing
    refine ⟨fun some => absurd (waits.trans none) some, ?_⟩
    rw [asked]
    exact empty_ne_restartFlatten
  · have waits : b'.pendingDir = b.pendingDir := congrArg Standing.waiting steady.standing
    refine ⟨fun some => absurd (waits.trans none) some, ?_⟩
    rw [asked]
    exact own

/-- A tick makes one of the moves of a standing, as long as no halt meets a waiting entry
and no reversal halts the broker. -/
theorem onTick_plays (sound : b.stance.standing.Sound) (free : b.pendingDir ≠ 0 → b.halted = false)
    (goesOn : b.pendingFlip ≠ 0 → predates t b = false → turnHalts desk t b = false) :
    ∃ rows, Plays rows b.stance (onTick desk t bracket b).stance ∧
      (b.pendingExitReason ≠ restartFlatten →
        (∀ row ∈ rows, row.exitReason ≠ restartFlatten) ∧
        (onTick desk t bracket b).Ready) := by
  obtain ⟨x, isSeen⟩ : ∃ x, x = seeTick t b := ⟨_, rfl⟩
  have seen : x.stance = b.stance := by rw [isSeen]; rfl
  have freex : x.pendingDir ≠ 0 → x.halted = false := by rw [isSeen]; exact free
  have asks : x.pendingExitReason = b.pendingExitReason := by rw [isSeen]; rfl
  have goesOnx : x.pendingFlip ≠ 0 → predates t x = false → turnHalts desk t x = false := by
    rw [isSeen]
    exact goesOn
  simp only [onTick, ← isSeen, ← asks]
  rw [← seen] at sound ⊢
  split
  · exact ⟨[], (Steady.refl x.stance).plays, fun own => ⟨List.forall_mem_nil _, freex, own⟩⟩
  · next current =>
    split
    · next turns =>
      have against : x.posDir = -x.pendingFlip := sound.against turns
      have held : x.posDir ≠ 0 := sound.held_of_turning turns
      have none : x.pendingDir = 0 := sound.alone.resolve_left held
      obtain ⟨row, dir, own, books, standing, asked, on⟩ :=
        turn_books desk t held (goesOnx turns (Bool.not_eq_true _ ▸ current))
      refine ⟨[row], ⟨books, ?_⟩, fun _ => ⟨List.forall_mem_singleton.mpr own, fun _ => on, ?_⟩⟩
      · have before : x.stance.standing =
            { held := -x.pendingFlip, turning := x.pendingFlip } := by
          simp only [stance, against, none]
        rw [before, standing, List.map_singleton, dir, against]
        exact Standing.Moved.turn x.pendingFlip turns
      · rw [asked]
        exact empty_ne_restartFlatten
    · next straight =>
      have straight : x.pendingFlip = 0 := not_not.mp straight
      obtain ⟨some, flat, books, filled, cleared⟩ | same :=
        fillPending_books desk t bracket freex
      · obtain ⟨y, isFilled⟩ : ∃ y, y = fillPending desk t bracket x := ⟨_, rfl⟩
        rw [← isFilled] at books filled cleared ⊢
        have dir : y.posDir = x.pendingDir := congrArg Standing.held filled
        have none : y.pendingDir = 0 := congrArg Standing.waiting filled
        have unturned : y.pendingFlip = x.pendingFlip := congrArg Standing.turning filled
        have own : y.pendingExitReason ≠ restartFlatten := by
          rw [cleared]
          exact empty_ne_restartFlatten
        have held : y.posDir ≠ 0 := by rw [dir]; exact some
        have worked := manage_worked desk t bracket held
        have before : x.stance.standing = { waiting := x.pendingDir } := by
          simp only [stance, flat, straight]
        rw [if_neg held]
        obtain ⟨row, rowDir, named, closes, closed, _⟩ | ⟨steady, _⟩ := worked.outcome
        · refine ⟨[row], ⟨books.trans closes, ?_⟩, fun _ =>
            ⟨List.forall_mem_singleton.mpr (named own), worked.ready none own⟩⟩
          rw [before, closed, none, unturned, straight, List.map_singleton, rowDir, dir]
          exact Standing.Moved.fillAndClose x.pendingDir some
        · refine ⟨[], ⟨books.trans steady.books, ?_⟩, fun _ =>
            ⟨List.forall_mem_nil _, worked.ready none own⟩⟩
          rw [before, steady.standing, filled, straight]
          exact Standing.Moved.fill x.pendingDir
      · rw [same]
        by_cases flat : x.posDir = 0
        · rw [if_pos flat]
          exact ⟨[], (Steady.refl x.stance).plays, fun own => ⟨List.forall_mem_nil _, freex, own⟩⟩
        · have none : x.pendingDir = 0 := sound.alone.resolve_left flat
          have worked := manage_worked desk t bracket flat
          have before : x.stance.standing = { held := x.posDir } := by
            simp only [stance, none, straight]
          rw [if_neg flat]
          obtain ⟨row, rowDir, named, closes, closed, _⟩ | ⟨steady, _⟩ := worked.outcome
          · refine ⟨[row], ⟨closes, ?_⟩, fun own =>
              ⟨List.forall_mem_singleton.mpr (named own), worked.ready none own⟩⟩
            rw [before, closed, none, straight, List.map_singleton, rowDir]
            exact Standing.Moved.close x.posDir flat
          · exact ⟨[], steady.plays, fun own => ⟨List.forall_mem_nil _, worked.ready none own⟩⟩

/-- An entry signal that the broker takes: it is live and unhalted, no gate blocks, and
it is flat with nothing waiting or holds the opposite direction. -/
def accepts (dir : SignType) (b : PaperBracketBroker) : Bool :=
  !b.warmup && decide (b.stance.standing.Fits dir) && !b.halted &&
    decide (entryGate desk regime (decide (dir > 0)) b = "")

theorem onEntrySignal_warm (warm : b.warmup = true) :
    (onEntrySignal desk regime dir reason b).stance = b.stance ∧
      (onEntrySignal desk regime dir reason b).halted = b.halted ∧
      (onEntrySignal desk regime dir reason b).pendingExitReason = b.pendingExitReason := by
  rw [onEntrySignal, if_pos warm]
  exact ⟨rfl, rfl, rfl⟩

theorem logSignal_same (long : Bool) (reason blocked : String) (b : PaperBracketBroker) :
    (logSignal desk long reason blocked b).halted = b.halted ∧
      (logSignal desk long reason blocked b).pendingExitReason = b.pendingExitReason := by
  rw [logSignal]
  split
  · exact ⟨rfl, rfl⟩
  · exact ⟨rfl, rfl⟩

/-- An order that fits is queued as what stands with it. -/
theorem queue_order {dir : SignType} (fits : b.stance.standing.Fits dir) :
    (queue dir b).stance.standing = b.stance.standing.order dir := by
  obtain resting | ⟨held, against⟩ := fits
  · obtain ⟨flat, none, _⟩ := (Standing.eq_rest_iff _).mp resting
    have alone : ¬ (b.posDir ≠ 0 ∨ b.pendingDir ≠ 0) := by
      rintro (held | waiting)
      · exact held flat
      · exact waiting none
    have unheld : ¬ (b.posDir ≠ 0 ∧ dir ≠ b.posDir) := fun both => both.1 flat
    rw [queue, if_neg unheld, if_neg alone, Standing.order, if_neg (not_not.mpr flat)]
    rfl
  · rw [queue, if_pos ⟨held, against⟩, Standing.order, if_pos held]
    rfl

/-- A queued order books no trade. -/
theorem queue_same (b : PaperBracketBroker) :
    Books [] b.stance (queue dir b).stance ∧ (queue dir b).halted = b.halted ∧
      (queue dir b).pendingExitReason = b.pendingExitReason := by
  rw [queue]
  split
  · exact ⟨⟨rfl, [], (List.append_nil _).symm, rfl⟩, rfl, rfl⟩
  · split
    · exact ⟨Books.refl _, rfl, rfl⟩
    · exact ⟨⟨rfl, [], (List.append_nil _).symm, rfl⟩, rfl, rfl⟩

/-- The bracket broker takes an accepted signal the same way, and stays ready. -/
theorem onEntrySignal_takes {dir : SignType} (ready : b.Ready)
    (accepted : accepts desk regime dir b = true) :
    Books [] b.stance (onEntrySignal desk regime dir reason b).stance ∧
      b.stance.standing.Fits dir ∧
      (onEntrySignal desk regime dir reason b).stance.standing = b.stance.standing.order dir ∧
      (onEntrySignal desk regime dir reason b).Ready := by
  simp only [accepts, Bool.and_eq_true, Bool.not_eq_true', decide_eq_true_eq] at accepted
  obtain ⟨⟨⟨live, fits⟩, on⟩, passes⟩ := accepted
  obtain ⟨x, isLogged⟩ : ∃ x, x = logSignal desk (decide (dir > 0)) reason "" b := ⟨_, rfl⟩
  have logged := logSignal_steady desk (decide (dir > 0)) reason "" b
  obtain ⟨stillOn, stillAsked⟩ := logSignal_same desk (decide (dir > 0)) reason "" b
  have queued : onEntrySignal desk regime dir reason b = queue dir x := by
    simp only [onEntrySignal, live, Bool.false_eq_true, ↓reduceIte, on, passes, ne_eq,
      not_true_eq_false, isLogged]
  rw [← isLogged] at logged stillOn stillAsked
  have fitsx : x.stance.standing.Fits dir := by
    rw [logged.standing]
    exact fits
  obtain ⟨books, queuedOn, queuedAsked⟩ := queue_same dir x
  rw [queued]
  refine ⟨logged.books.trans books, fits, ?_, fun _ => ?_, ?_⟩
  · rw [queue_order fitsx, logged.standing]
  · rw [queuedOn, stillOn, on]
  · rw [queuedAsked, stillAsked]
    exact ready.own

/-- An exit with nothing waiting leaves the broker at rest. -/
theorem exitPosition_rests (held : b.posDir ≠ 0) (none : b.pendingDir = 0)
    (straight : b.pendingFlip = 0) :
    (tradeRow desk fill tsUs reason b).closedDir.dir = b.posDir ∧
      (exitPosition desk fill tsUs reason b).stance.standing = Standing.rest ∧
      (exitPosition desk fill tsUs reason b).Ready := by
  obtain ⟨_, standing, asked⟩ := exitPosition_books desk fill tsUs reason b
  rw [none, straight] at standing
  have waits : (exitPosition desk fill tsUs reason b).pendingDir = 0 :=
    congrArg Standing.waiting standing
  refine ⟨PaperBroker.tradeRow_dir desk fill tsUs reason (b := b.common) held, standing, ?_, ?_⟩
  · exact fun some => absurd waits some
  · rw [asked]
    exact empty_ne_restartFlatten

/-- Going flat at once, for any reason, leaves the broker at rest. -/
theorem flatten_rests (tsUs : Int) (priceHint : ℚ) (b : PaperBracketBroker) :
    (flatten desk reason tsUs priceHint b).stance.standing = Standing.rest ∧
      (flatten desk reason tsUs priceHint b).Ready := by
  simp only [flatten]
  by_cases flat : b.posDir = 0
  · rw [if_pos flat]
    refine ⟨?_, fun waits => absurd rfl waits, empty_ne_restartFlatten⟩
    simp only [stance, flat]
    rfl
  · rw [if_neg flat]
    exact (exitPosition_rests desk _ tsUs reason
      (b := { b with pendingDir := 0, pendingFlip := 0, pendingExitReason := "" }) flat rfl rfl).2

/-- The bracket broker's flatten closes what is standing. -/
theorem flatten_books {reason : String} (own : reason ≠ restartFlatten) (tsUs : Int)
    (priceHint : ℚ) (b : PaperBracketBroker) :
    ∃ rows, Books rows b.stance (flatten desk reason tsUs priceHint b).stance ∧
      rows.map (·.closedDir.dir) = b.stance.standing.closing ∧
      ∀ row ∈ rows, row.exitReason ≠ restartFlatten := by
  simp only [flatten]
  by_cases flat : b.posDir = 0
  · rw [if_pos flat]
    exact ⟨[], ⟨rfl, [], (List.append_nil _).symm, rfl⟩, (if_pos flat).symm, by simp⟩
  · rw [if_neg flat]
    generalize (if priceHint > 0 then priceHint else b.entryPrice) - b.posDir * desk.slip = fill
    obtain ⟨x, isX⟩ : ∃ x : PaperBracketBroker,
        x = { b with pendingDir := 0, pendingFlip := 0, pendingExitReason := "" } := ⟨_, rfl⟩
    have leg : x.posDir = b.posDir := by rw [isX]
    obtain ⟨dir, _⟩ := exitPosition_rests desk fill tsUs reason
      (by rw [leg]; exact flat) (by rw [isX]) (by rw [isX])
    obtain ⟨books, _⟩ := exitPosition_books desk fill tsUs reason x
    rw [← isX]
    refine ⟨[tradeRow desk fill tsUs reason x], ⟨?_, ?_⟩, ?_, ?_⟩
    · exact books.warmup.trans (by rw [isX]; rfl)
    · rw [isX] at books ⊢
      exact books.outbox
    · rw [List.map_singleton, dir, leg]
      exact (if_neg flat).symm
    · exact List.forall_mem_singleton.mpr own

theorem onSignal_flatten_same (b : PaperBracketBroker) :
    (onSignal desk regime .flattenEod reason b).stance = b.stance ∧
      (b.Ready → reason ≠ restartFlatten →
        (onSignal desk regime .flattenEod reason b).Ready) := by
  simp only [onSignal]
  split
  · refine ⟨rfl, fun ready own => ⟨ready.free, ?_⟩⟩
    exact ite_text_ne (by decide) own
  · exact ⟨rfl, fun ready _ => ready⟩

theorem resetDay_ready (ready : b.Ready) : b.resetDay.Ready where
  free := by
    intro waits
    have on : b.risk.halted = false := ready.free waits
    simp [halted, resetDay, RiskManager.updateUnrealized, RiskManager.resetDaily, on]
  own := ready.own

end PaperBracketBroker

end RithmicEngine
