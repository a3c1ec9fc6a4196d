import RithmicEngine.Paper.PaperSeat
import RithmicEngine.Paper.TickOutcomes
/-!
# Paper fills against the tape

A fill is no better than a price if it buys at the price or above and sells there or
below. Entries and exits are no better than the tick they are made at: a market order
pays the slippage, a stop that was gapped through fills at the print, a target at its own
level, and the book's fill is held against the price it stands for. The book's fill of a
long exit is held against that price only where the price is positive: where the slippage
eats it up, the bid is taken as it is.
-/
namespace RithmicEngine

/-- A fill of an order in a direction is no better than a price: a buy is filled there or
above, a sale there or below. -/
@[mk_iff]
structure NoBetter (dir : SignType) (fill price : ℚ) : Prop where
  bought : 0 < dir → price ≤ fill
  sold : dir < 0 → fill ≤ price

instance (dir : SignType) (fill price : ℚ) : Decidable (NoBetter dir fill price) :=
  decidable_of_iff' _ (noBetter_iff ..)

variable {fill price : ℚ}

theorem NoBetter.buy (above : price ≤ fill) : NoBetter 1 fill price where
  bought := fun _ => above
  sold := fun sells => absurd sells (by decide)

theorem NoBetter.sell (below : fill ≤ price) : NoBetter (-1) fill price where
  bought := fun buys => absurd buys (by decide)
  sold := fun _ => below

/-- A fill that is no better than a price that is none, is none. -/
theorem NoBetter.trans {dir : SignType} {bound : ℚ} (first : NoBetter dir fill price)
    (second : NoBetter dir price bound) : NoBetter dir fill bound where
  bought := fun buys => (second.bought buys).trans (first.bought buys)
  sold := fun sells => (first.sold sells).trans (second.sold sells)

/-! ## One fill -/

/-- The book's fill is no better than the price it is held against, unless that price is
not positive. -/
theorem QuoteState.marketFill_noBetter (dir : SignType) (tsUs : Int) (fill : ℚ) {held : ℚ}
    (book : QuoteState) (fresh : book.fresh tsUs = true) (positive : 0 < held) :
    NoBetter dir (book.marketFill (decide (dir > 0)) tsUs fill held) held := by
  simp only [marketFill, fresh, Bool.true_eq_false, ↓reduceIte, positive]
  constructor
  · intro buys
    rw [if_pos (decide_eq_true buys)]
    exact le_max_right _ _
  · intro sells
    have unbought : ¬dir > 0 := fun buys => absurd (lt_trans sells buys) (lt_irrefl dir)
    rw [if_neg (by simpa only [decide_eq_true_eq] using unbought)]
    exact min_le_right _ _

namespace PaperBroker

variable {desk : PaperDesk}

/-- A slipped print is no better than the print. -/
theorem slipped_noBetter (slip : 0 ≤ desk.slip) (dir : SignType) (price : ℚ) :
    NoBetter dir (price + dir * desk.slip) price := by
  cases dir with
  | zero =>
    exact ⟨fun buys => absurd buys (by decide), fun sells => absurd sells (by decide)⟩
  | neg =>
    refine NoBetter.sell ?_
    simp only [SignType.neg_eq_neg_one, SignType.coe_neg_one, neg_one_mul]
    linarith
  | pos =>
    refine NoBetter.buy ?_
    simp only [SignType.pos_eq_one, SignType.coe_one, one_mul]
    linarith

variable {regime : Option SessionRegime} {t : OrbTick} {b : PaperBroker} {fill : ℚ}
  {reason : String}

/-- An entry fills no better than the tick it is made at. -/
theorem entryFill_noBetter (slip : 0 ≤ desk.slip) (positive : 0 < t.price) (b : PaperBroker) :
    NoBetter b.pendingDir (entryFill desk t b) t.price := by
  rw [entryFill]
  split
  next book => exact QuoteState.marketFill_noBetter _ _ _ b.qs book.2 positive
  next => exact slipped_noBetter slip b.pendingDir t.price

/-- The bid that fills a long exit whose own price is not positive. -/
def Unheld (desk : PaperDesk) (tsUs : Int) (fill bound : ℚ) (b : PaperBroker) : Prop :=
  desk.cfg.fillModel = "bbo" ∧ b.qs.fresh tsUs = true ∧ 0 < b.posDir ∧ fill ≤ 0 ∧
    bound < b.qs.q.bid

/-- A trade is closed no better than what its exit was handed is. -/
theorem tradeRow_noBetter (held : b.posDir ≠ 0) (tsUs : Int) (reason : String) {bound : ℚ}
    (handed : NoBetter (-b.posDir) fill bound) (calm : ¬Unheld desk tsUs fill bound b) :
    NoBetter (-b.posDir) (tradeRow desk fill tsUs reason b).exitPrice bound := by
  simp only [tradeRow]
  split
  next book =>
    have sides : (!b.long) = decide (-b.posDir > 0) := by
      rw [long]
      rcases dir_cases held with dir | dir
      · rw [dir]
        decide
      · rw [dir]
        decide
    rw [exitBbo, if_pos book.2, sides]
    by_cases positive : 0 < fill
    · exact (QuoteState.marketFill_noBetter _ _ _ b.qs book.2 positive).trans handed
    · -- The touch is taken as it is.
      have touch : b.qs.q.bid > 0 ∧ b.qs.q.ask ≥ b.qs.q.bid := by
        have fresh := book.2
        simp only [QuoteState.fresh, Quote.valid, Bool.and_eq_true, decide_eq_true_eq] at fresh
        exact fresh.1.1
      simp only [QuoteState.marketFill, book.2, Bool.true_eq_false, ↓reduceIte, positive]
      rcases dir_cases held with dir | dir
      · rw [dir]
        refine NoBetter.sell ?_
        rw [if_neg (by decide)]
        by_contra above
        exact calm ⟨book.1, book.2, by rw [dir]; decide, not_lt.mp positive, not_le.mp above⟩
      · rw [dir] at handed ⊢
        have above : bound ≤ fill := handed.bought (by decide)
        refine NoBetter.buy ?_
        rw [if_pos (by decide)]
        linarith [touch.1, touch.2, not_lt.mp positive]
  next => exact handed

/-! ## One tick of the plain broker -/

/-- What the plain broker names a stop that was hit. -/
def stopReasons : List String := ["stop", "breakeven", "trail"]

/-- The trades that a tick closes are no better than its print; a stop's is no better than
the working stop, and a target's no better than the target. -/
structure FairTrades (desk : PaperDesk) (regime : Option SessionRegime) (price : ℚ)
    (rows : List PaperTradeRow) (level : ℚ) : Prop where
  exits : ∀ row ∈ rows, NoBetter (-row.closedDir.dir) row.exitPrice price
  stops : ∀ row ∈ rows, row.exitReason ∈ stopReasons →
    NoBetter (-row.closedDir.dir) row.exitPrice level
  targets : ∀ row ∈ rows, row.exitReason = "take_profit" →
    NoBetter (-row.closedDir.dir) row.exitPrice
      (row.entryPrice + row.closedDir.dir * desk.takeProfit regime)

/-- Every fill of a tick is fair, the entry's as well. -/
structure FairTick (desk : PaperDesk) (regime : Option SessionRegime) (t : OrbTick)
    (b b' : PaperBroker) : Prop where
  entry : b.posDir = 0 → (b'.posDir ≠ 0 ∨ closedSince b b' ≠ []) →
    NoBetter b.pendingDir b'.entryPrice t.price
  trades : FairTrades desk regime t.price (closedSince b b') b'.placedStop

/-- A long position was entered above zero, and only the strategy's signal asks for an
exit. -/
structure Priced (b : PaperBroker) : Prop where
  entry : 0 < b.posDir → 0 < b.entryPrice
  asked : b.pendingExitReason = "" ∨ b.pendingExitReason = "signal_flatten"

/-- The bid of a fresh book lies above a print that the slippage eats up, while a long
position is held or waits. -/
def EatenUp (desk : PaperDesk) (t : OrbTick) (b : PaperBroker) : Prop :=
  desk.cfg.fillModel = "bbo" ∧ b.qs.fresh t.tsMicros = true ∧ t.price ≤ desk.slip ∧
    t.price < b.qs.q.bid ∧ (0 < b.posDir ∨ b.posDir = 0 ∧ 0 < b.pendingDir)
deriving Decidable

/-- What is handed to an exit is no better than the print, and than the level it is for;
it is positive unless the slippage eats up the print. -/
structure Handed (desk : PaperDesk) (regime : Option SessionRegime) (t : OrbTick)
    (b : PaperBroker) (fill : ℚ) (reason : String) (level : ℚ) : Prop where
  print : NoBetter (-b.posDir) fill t.price
  stop : reason ∈ stopReasons → NoBetter (-b.posDir) t.price level
  target : reason = "take_profit" → NoBetter (-b.posDir) fill (target desk regime b) ∧
    (0 < b.posDir → 0 < fill)
  above : 0 < b.posDir → fill ≤ 0 → t.price ≤ desk.slip

theorem stopReasons_named (b : PaperBroker) : stopExitReason desk b ≠ "take_profit" := by
  simp only [stopExitReason]
  split
  · decide
  · split_ifs
    · decide
    · decide
    · decide
    · decide

/-- A market exit pays the slippage. -/
theorem marketExit_handed (slip : 0 ≤ desk.slip) (level : ℚ) (unstopped : reason ∉ stopReasons)
    (untargeted : reason ≠ "take_profit") :
    Handed desk regime t b (marketExit desk t b) reason level where
  print := by
    have slipped := slipped_noBetter slip (-b.posDir) t.price
    rw [SignType.coe_neg, neg_mul, ← sub_eq_add_neg] at slipped
    exact slipped
  stop := fun stops => absurd stops unstopped
  target := fun targets => absurd targets untargeted
  above := by
    intro long low
    have one : b.posDir = 1 := SignType.pos_iff.mp long
    rw [marketExit, one, SignType.coe_one, one_mul] at low
    linarith

/-- A stop that was hit fills at the print or beyond its level. -/
theorem stopFill_handed {price : ℚ} (positive : 0 < price)
    {b : PaperBroker} (held : b.posDir ≠ 0) (hit : stopped price b = true) :
    NoBetter (-b.posDir) (stopFill desk price b) price ∧
      NoBetter (-b.posDir) price b.placedStop ∧
      (0 < b.posDir → stopFill desk price b ≤ 0 → price ≤ desk.slip) := by
  simp only [stopped] at hit
  simp only [stopFill]
  rcases dir_cases held with dir | dir
  · rw [dir, if_pos (by decide), decide_eq_true_eq] at hit
    rw [dir, if_pos (by decide), SignType.coe_one, one_mul]
    refine ⟨NoBetter.sell (min_le_right _ _), NoBetter.sell hit, ?_⟩
    intro _ low
    have level : b.placedStop - desk.slip ≤ 0 :=
      (min_le_iff.mp low).resolve_right (not_le.mpr positive)
    linarith
  · rw [dir, if_neg (by decide), decide_eq_true_eq] at hit
    rw [dir, if_neg (by decide), SignType.coe_neg_one, neg_one_mul, sub_neg_eq_add, neg_neg]
    refine ⟨NoBetter.buy (le_max_right _ _), NoBetter.buy hit, ?_⟩
    exact fun long => absurd long (by decide)

/-- What leaves a position was handed no better than the print and its level. -/
theorem handed_of_leaves (slip : 0 ≤ desk.slip) (positive : 0 < t.price) (held : b.posDir ≠ 0)
    (priced : b.Priced) {level : ℚ} (leaves : Leaves desk regime t b fill reason level) :
    Handed desk regime t b fill reason level := by
  cases leaves with
  | asked some =>
    have asked : b.pendingExitReason = "signal_flatten" := priced.asked.resolve_left some
    refine marketExit_handed slip _ ?_ ?_
    · rw [asked]
      decide
    · rw [asked]
      decide
  | ended reason named =>
    rcases named with rfl | rfl
    · exact marketExit_handed slip _ (by decide) (by decide)
    · exact marketExit_handed slip _ (by decide) (by decide)
  | book reason named =>
    rcases named with rfl | rfl
    · exact marketExit_handed slip _ (by decide) (by decide)
    · exact marketExit_handed slip _ (by decide) (by decide)
  | target hit =>
    simp only [takeProfitHit, Bool.and_eq_true, decide_eq_true_eq] at hit
    obtain ⟨gains, hit⟩ := hit
    have above : 0 < b.posDir → 0 < target desk regime b := by
      intro long
      have one : b.posDir = 1 := SignType.pos_iff.mp long
      have entry := priced.entry long
      rw [PaperBroker.target, one, SignType.coe_one, one_mul]
      linarith
    refine ⟨?_, ?_, fun _ => ⟨⟨fun _ => le_rfl, fun _ => le_rfl⟩, above⟩, ?_⟩
    · rcases dir_cases held with dir | dir
      · rw [if_pos (by rw [dir]; decide), decide_eq_true_eq] at hit
        rw [dir]
        exact NoBetter.sell hit
      · rw [if_neg (by rw [dir]; decide), decide_eq_true_eq] at hit
        rw [dir]
        exact NoBetter.buy hit
    · exact fun stops => absurd stops (by decide)
    · exact fun long low => absurd (above long) (not_lt.mpr low)
  | stop hit =>
    have synced := syncPlacedStop_moved desk regime false b
    have dirs : (syncPlacedStop desk regime false b).posDir = b.posDir := by rw [synced]
    have untargeted := @stopReasons_named desk (syncPlacedStop desk regime false b)
    generalize syncPlacedStop desk regime false b = c at hit dirs untargeted ⊢
    have fills := @stopFill_handed desk _ positive _ (dirs ▸ held) hit
    rw [dirs] at fills
    exact ⟨fills.1, fun _ => fills.2.1, fun targets => absurd targets untargeted, fills.2.2⟩

/-- A stop that the price reached is hit. -/
theorem stopped_of_reached {price : ℚ}
    (reached : b.posDir > 0 ∧ price ≤ b.placedStop ∨ b.posDir < 0 ∧ price ≥ b.placedStop) :
    stopped price b = true := by
  rw [stopped]
  split
  next long =>
    rcases reached with ⟨_, below⟩ | ⟨short, _⟩
    · exact decide_eq_true below
    · exact absurd (short.trans long) (lt_irrefl _)
  next unlong =>
    rcases reached with ⟨long, _⟩ | ⟨_, above⟩
    · exact absurd long unlong
    · exact decide_eq_true above

/-- The trade that a tick closes, under no more than the condition on the book. -/
theorem left_fair (slip : 0 ≤ desk.slip) (positive : 0 < t.price) (held : b.posDir ≠ 0)
    (priced : b.Priced)
    (calm : ¬(desk.cfg.fillModel = "bbo" ∧ b.qs.fresh t.tsMicros = true ∧ t.price ≤ desk.slip ∧
      t.price < b.qs.q.bid ∧ 0 < b.posDir))
    {level : ℚ} (leaves : Leaves desk regime t b fill reason level) (text : String)
    {row : PaperTradeRow}
    (isRow : row = tradeRow desk fill t.tsMicros reason
      { b with placedStop := level, pendingExitReason := text }) :
    NoBetter (-row.closedDir.dir) row.exitPrice t.price ∧
      (row.exitReason ∈ stopReasons → NoBetter (-row.closedDir.dir) row.exitPrice level) ∧
      (row.exitReason = "take_profit" → NoBetter (-row.closedDir.dir) row.exitPrice
        (row.entryPrice + row.closedDir.dir * desk.takeProfit regime)) := by
  obtain ⟨print, stop, toTarget, above⟩ := handed_of_leaves slip positive held priced leaves
  have dir : row.closedDir.dir = b.posDir := by
    rw [isRow]
    exact tradeRow_dir desk fill t.tsMicros reason held
  have reasons : row.exitReason = reason := by rw [isRow]; rfl
  have entry : row.entryPrice = b.entryPrice := by rw [isRow]; rfl
  rw [dir, reasons, entry, isRow]
  have fair {bound : ℚ} (handed : NoBetter (-b.posDir) fill bound)
      (unheld : ¬Unheld desk t.tsMicros fill bound b) :
      NoBetter (-b.posDir) (tradeRow desk fill t.tsMicros reason
        { b with placedStop := level, pendingExitReason := text }).exitPrice bound :=
    tradeRow_noBetter (b := { b with placedStop := level, pendingExitReason := text }) held
      t.tsMicros reason handed unheld
  have atPrint : NoBetter (-b.posDir) (tradeRow desk fill t.tsMicros reason
      { b with placedStop := level, pendingExitReason := text }).exitPrice t.price := by
    refine fair print ?_
    rintro ⟨model, fresh, long, low, bid⟩
    exact calm ⟨model, fresh, above long low, bid, long⟩
  refine ⟨atPrint, fun stops => atPrint.trans (stop stops), ?_⟩
  intro targets
  refine fair (toTarget targets).1 ?_
  rintro ⟨_, _, long, low, _⟩
  exact absurd ((toTarget targets).2 long) (not_lt.mpr low)

theorem FairTrades.none (desk : PaperDesk) (regime : Option SessionRegime) (price level : ℚ) :
    FairTrades desk regime price [] level where
  exits := fun _ inside => absurd inside List.not_mem_nil
  stops := fun _ inside => absurd inside List.not_mem_nil
  targets := fun _ inside => absurd inside List.not_mem_nil

/-- Working a position through a tick prints only fair trades. The calm premise excludes the one
tick whose slippage eats the price up. -/
theorem Works.fair (slip : 0 ≤ desk.slip) {regime : Option SessionRegime} {t : OrbTick}
    (positive : 0 < t.price) {b b' : PaperBroker} (priced : b.Priced)
    (calm : ¬(desk.cfg.fillModel = "bbo" ∧ b.qs.fresh t.tsMicros = true ∧ t.price ≤ desk.slip ∧
      t.price < b.qs.q.bid ∧ 0 < b.posDir)) (works : Works desk regime t b b') :
    ∃ effects, b'.outbox = b.outbox ++ effects ∧
      FairTrades desk regime t.price (effects.filterMap closedRow) b'.placedStop ∧
      b'.entryPrice = b.entryPrice ∧ b'.Priced ∧
      (b.posDir = 0 → b'.posDir = 0 ∧ effects.filterMap closedRow = []) := by
  cases works with
  | idle flat =>
    refine ⟨[], (List.append_nil _).symm, FairTrades.none _ _ _ _, rfl, ?_, fun _ => ⟨flat, rfl⟩⟩
    exact ⟨priced.entry, priced.asked⟩
  | @left held fill reason level text asks leaves =>
    obtain ⟨effects, after, closed⟩ := exitPosition_effects desk fill t.tsMicros reason
      { b with placedStop := level, pendingExitReason := text }
    rw [after]
    refine ⟨effects, rfl, ?_, rfl, ⟨fun long => absurd long (lt_irrefl (0 : SignType)), ?_⟩,
      fun flat => absurd flat held⟩
    · rw [closed.closed]
      have fair {row : PaperTradeRow} (inside : row ∈ [tradeRow desk fill t.tsMicros reason
          { b with placedStop := level, pendingExitReason := text }]) :=
        left_fair slip positive held priced calm leaves text (List.mem_singleton.mp inside)
      exact ⟨fun _ inside => (fair inside).1, fun _ inside => (fair inside).2.1,
        fun _ inside => (fair inside).2.2⟩
    · rcases asks with rfl | rfl
      · exact Or.inl rfl
      · exact priced.asked
  | kept held _ =>
    have stays := managed_heldOn desk regime t b
    obtain ⟨effects, longer, silent⟩ := stays.outbox
    refine ⟨effects, longer, ?_, stays.entryPrice, ⟨?_, ?_⟩, fun flat => absurd flat held⟩
    · rw [silent.closed]
      exact FairTrades.none _ _ _ _
    · rw [stays.posDir, stays.entryPrice]
      exact priced.entry
    · rw [stays.exit]
      exact priced.asked

/-- A tick of the plain broker fills fairly, unless the slippage eats up the print. -/
theorem onTick_fair (slip : 0 ≤ desk.slip) (regime : Option SessionRegime) (positive : 0 < t.price)
    (priced : b.Priced) (calm : ¬EatenUp desk t b) :
    FairTick desk regime t b (onTick desk regime t b) ∧ (onTick desk regime t b).Priced := by
  have since {b' : PaperBroker} {effects : List PaperEffect} (c : PaperBroker)
      (same : c.outbox = b.outbox) (longer : b'.outbox = c.outbox ++ effects) :
      closedSince b b' = effects.filterMap closedRow := by
    rw [closedSince, longer, same, List.drop_left]
  rcases onTick_cases desk regime t b with
    ⟨early, after⟩ | ⟨_, works | ⟨some, flat, c, entered, works⟩⟩
  · simp only [predates, Bool.and_eq_true, decide_eq_true_eq] at early
    rw [after]
    refine ⟨⟨fun flat => absurd flat early.1.1, ?_⟩, ⟨priced.entry, priced.asked⟩⟩
    rw [since (seeTick t b) rfl (List.append_nil _).symm]
    exact FairTrades.none _ _ _ _
  · have seen : (seeTick t b).Priced := ⟨priced.entry, priced.asked⟩
    obtain ⟨effects, longer, trades, entry, after, idle⟩ := works.fair slip positive seen (by
        rintro ⟨model, fresh, low, bid, long⟩
        exact calm ⟨model, fresh, low, bid, Or.inl long⟩)
    refine ⟨⟨?_, ?_⟩, after⟩
    · rw [since (seeTick t b) rfl longer]
      rintro flat (opened | closed)
      · exact absurd (idle flat).1 opened
      · exact absurd (idle flat).2 closed
    · rw [since (seeTick t b) rfl longer]
      exact trades
  · have fills := entryFill_noBetter slip positive b
    have opened : c.Priced := by
      refine ⟨?_, ?_⟩
      · rw [entered.posDir, entered.entryPrice]
        exact fun long => positive.trans_le (fills.bought long)
      · rw [entered.exit]
        exact priced.asked
    obtain ⟨effects, longer, trades, entry, after, idle⟩ := works.fair slip positive opened
      (by
        rw [entered.posDir, entered.qs]
        rintro ⟨model, fresh, low, bid, long⟩
        exact calm ⟨model, fresh, low, bid, Or.inr ⟨flat, long⟩⟩)
    obtain ⟨early, earlier, silent⟩ := entered.outbox
    have rows : closedSince b (onTick desk regime t b) = effects.filterMap closedRow := by
      rw [since b rfl (longer.trans (by rw [earlier, List.append_assoc])), List.filterMap_append,
        silent.closed, List.nil_append]
    refine ⟨⟨fun _ _ => ?_, ?_⟩, after⟩
    · rw [entry, entered.entryPrice]
      exact fills
    · rw [rows]
      exact trades

end PaperBroker

/-! ## One tick of the bracket broker -/

namespace PaperBracketBroker

open PaperBroker (closedRow tradeRow_noBetter EatenUp)

variable {desk : PaperDesk}

/-- The trades that a tick closes are no better than its print; a stop's is no better than
the stop, and a target's no better than the target. A strategy may ask for an exit under
the name of either: such a trade counts where the print reached the level. -/
structure FairTrades (given : Bracket) (asked : String) (price : ℚ) (rows : List PaperTradeRow)
    (level : ℚ) : Prop where
  exits : ∀ row ∈ rows, NoBetter (-row.closedDir.dir) row.exitPrice price
  stops : ∀ row ∈ rows, row.exitReason = "stop" →
    (asked = "stop" → NoBetter (-row.closedDir.dir) price level) →
    NoBetter (-row.closedDir.dir) row.exitPrice level
  targets : ∀ row ∈ rows, row.exitReason = "target" → ∀ tp, given.tp = some tp →
    (asked = "target" → 0 < tp ∧ NoBetter row.closedDir.dir price tp) →
    NoBetter (-row.closedDir.dir) row.exitPrice tp

/-- Every fill of a tick is fair, the entry's as well. -/
structure FairTick (t : OrbTick) (given : Bracket) (b b' : PaperBracketBroker) : Prop where
  entry : b.posDir = 0 → (b'.posDir ≠ 0 ∨ b.common.closedSince b'.common ≠ []) →
    NoBetter b.pendingDir b'.entryPrice t.price
  trades : FairTrades given b.pendingExitReason t.price (b.common.closedSince b'.common)
    b'.stopPrice

theorem FairTrades.none (given : Bracket) (asked : String) (price level : ℚ) :
    FairTrades given asked price [] level where
  exits := fun _ inside => absurd inside List.not_mem_nil
  stops := fun _ inside => absurd inside List.not_mem_nil
  targets := fun _ inside => absurd inside List.not_mem_nil

/-- Where the strategy asked for nothing every trade counts. -/
theorem FairTrades.unasked {given : Bracket} {asked : String} {price level : ℚ}
    {rows : List PaperTradeRow} (trades : FairTrades given "" price rows level) :
    FairTrades given asked price rows level where
  exits := trades.exits
  stops := fun row inside isStop _ =>
    trades.stops row inside isStop fun empty => absurd empty (by decide)
  targets := fun row inside isTarget tp isTp _ =>
    trades.targets row inside isTarget tp isTp fun empty => absurd empty (by decide)

/-- What is handed to an exit is no better than the print, and than the level it is for. -/
structure Handed (desk : PaperDesk) (t : OrbTick) (b : PaperBracketBroker) (fill : ℚ)
    (reason : String) (level : ℚ) : Prop where
  print : NoBetter (-b.posDir) fill t.price
  stop : reason = "stop" → (b.pendingExitReason = "stop" → NoBetter (-b.posDir) t.price level) →
    NoBetter (-b.posDir) t.price level
  target : reason = "target" → ∀ tp, b.tpPrice = some tp →
    (b.pendingExitReason = "target" → 0 < tp ∧ NoBetter b.posDir t.price tp) →
    fill = tp ∧ 0 < tp
  above : 0 < b.posDir → fill ≤ 0 → t.price ≤ desk.slip

variable {t : OrbTick} {b : PaperBracketBroker}

/-- A target that is hit is no better than the print. -/
theorem targetHit_of {tp : ℚ} (hit : targetHit t.price b = some tp) (held : b.posDir ≠ 0) :
    b.tpPrice = some tp ∧ 0 < tp ∧ NoBetter (-b.posDir) tp t.price := by
  simp only [targetHit] at hit
  split at hit
  next => exact nomatch hit
  next level isLevel =>
    split at hit
    next reached =>
      obtain rfl := Option.some.inj hit
      refine ⟨isLevel, reached.1, ?_⟩
      rcases dir_cases held with dir | dir
      · rw [dir]
        refine NoBetter.sell ?_
        rcases reached.2 with long | short
        · exact long.2
        · exact absurd short.1 (by rw [dir]; decide)
      · rw [dir]
        refine NoBetter.buy ?_
        rcases reached.2 with long | short
        · exact absurd long.1 (by rw [dir]; decide)
        · exact short.2
    next => exact nomatch hit

/-- A target that was not hit is not reached by the price. -/
theorem targetHit_none (held : b.posDir ≠ 0) (missed : targetHit t.price b = none) {tp : ℚ}
    (level : b.tpPrice = some tp) (positive : 0 < tp) : ¬NoBetter b.posDir t.price tp := by
  intro reached
  have hit : tp > 0 ∧ (b.posDir > 0 ∧ t.price ≥ tp ∨ b.posDir < 0 ∧ t.price ≤ tp) := by
    refine ⟨positive, ?_⟩
    rcases dir_cases held with dir | dir
    · exact Or.inl ⟨by rw [dir]; decide, reached.bought (by rw [dir]; decide)⟩
    · exact Or.inr ⟨by rw [dir]; decide, reached.sold (by rw [dir]; decide)⟩
  simp only [targetHit, level, if_pos hit] at missed
  exact nomatch missed

/-- A market exit pays the slippage. -/
theorem marketExit_handed (slip : 0 ≤ desk.slip) (t : OrbTick) (b : PaperBracketBroker) :
    NoBetter (-b.posDir) (marketExit desk t b) t.price ∧
      (0 < b.posDir → marketExit desk t b ≤ 0 → t.price ≤ desk.slip) := by
  have handed : PaperBroker.Handed desk none t b.common (b.common.marketExit desk t) "eod" 0 :=
    PaperBroker.marketExit_handed slip 0 (by decide) (by decide)
  exact ⟨handed.print, handed.above⟩

/-- The bracket broker's exits are no better than the print and their level either. -/
theorem handed_of_leaves (slip : 0 ≤ desk.slip) (positive : 0 < t.price) (held : b.posDir ≠ 0)
    {fill : ℚ} {reason : String} {level : ℚ} (leaves : Leaves desk t b fill reason level) :
    Handed desk t b fill reason level := by
  cases leaves with
  | stop hit =>
    simp only [stopped, Bool.or_eq_true, Bool.and_eq_true, decide_eq_true_eq] at hit
    have through :
        PaperBroker.stopped t.price { b.common with placedStop := b.stopPrice } = true :=
      PaperBroker.stopped_of_reached hit
    obtain ⟨print, reached, above⟩ := @PaperBroker.stopFill_handed desk _ positive
      { b.common with placedStop := b.stopPrice } held through
    exact ⟨print, fun _ _ => reached, fun named => absurd named (by decide), above⟩
  | target hit =>
    obtain ⟨isLevel, gains, print⟩ := targetHit_of hit held
    refine ⟨print, fun named => absurd named (by decide), ?_, ?_⟩
    · intro _ other isOther _
      have same : fill = other := Option.some.inj (isLevel.symm.trans isOther)
      exact ⟨same, same ▸ gains⟩
    · exact fun _ low => absurd gains (not_lt.mpr low)
  | market level missed named =>
    obtain ⟨print, above⟩ := marketExit_handed slip t b
    refine ⟨print, ?_, ?_, above⟩
    · intro isStop counted
      rcases named with asked | own
      · exact counted (asked.symm.trans isStop)
      · rw [isStop] at own
        exact absurd own (by decide)
    · intro isTarget tp isLevel counted
      rcases named with asked | own
      · obtain ⟨gains, reached⟩ := counted (asked.symm.trans isTarget)
        exact absurd reached (targetHit_none held missed isLevel gains)
      · rw [isTarget] at own
        exact absurd own (by decide)

/-- A trade that is closed with what was handed to its exit. -/
theorem exit_fair {given : Bracket} (held : b.posDir ≠ 0) (level : b.tpPrice = given.tp)
    (calm : ¬EatenUp desk t b.common) {fill stop : ℚ} {reason : String}
    (handed : Handed desk t b fill reason stop) (c : PaperBracketBroker)
    (view : c.common = { b.common with stopPrice := stop }) :
    FairTrades given b.pendingExitReason t.price [tradeRow desk fill t.tsMicros reason c] stop := by
  have dir : (tradeRow desk fill t.tsMicros reason c).closedDir.dir = b.posDir := by
    have read := PaperBroker.tradeRow_dir desk fill t.tsMicros reason (b := c.common)
      (by rw [view]; exact held)
    rw [tradeRow, read, view]
    rfl
  have fair {bound : ℚ} (worse : NoBetter (-b.posDir) fill bound)
      (unheld : ¬PaperBroker.Unheld desk t.tsMicros fill bound b.common) :
      NoBetter (-b.posDir) (tradeRow desk fill t.tsMicros reason c).exitPrice bound := by
    rw [tradeRow, view]
    exact tradeRow_noBetter (b := { b.common with stopPrice := stop }) held t.tsMicros reason
      worse unheld
  have print : NoBetter (-b.posDir) (tradeRow desk fill t.tsMicros reason c).exitPrice t.price := by
    refine fair handed.print ?_
    rintro ⟨model, fresh, long, low, bid⟩
    exact calm ⟨model, fresh, handed.above long low, bid, Or.inl long⟩
  have named : (tradeRow desk fill t.tsMicros reason c).exitReason = reason := rfl
  refine ⟨?_, ?_, ?_⟩
  · intro row inside
    rw [List.mem_singleton.mp inside, dir]
    exact print
  · intro row inside
    rw [List.mem_singleton.mp inside, dir, named]
    exact fun isStop counted => print.trans (handed.stop isStop counted)
  · intro row inside
    rw [List.mem_singleton.mp inside, dir, named]
    intro isTarget tp isTp counted
    obtain ⟨same, gains⟩ := handed.target isTarget tp (level.trans isTp) counted
    refine @fair tp (by rw [same]; exact ⟨fun _ => le_rfl, fun _ => le_rfl⟩) ?_
    rintro ⟨_, _, _, low, _⟩
    exact absurd gains (not_lt.mpr (same ▸ low))

/-- Working a bracketed position through a tick prints only fair trades. -/
theorem Works.fair (slip : 0 ≤ desk.slip) {t : OrbTick} (positive : 0 < t.price)
    {given : Bracket} {b b' : PaperBracketBroker} (held : b.posDir ≠ 0)
    (level : b.tpPrice = given.tp) (calm : ¬EatenUp desk t b.common)
    (works : Works desk t b b') :
    ∃ effects, b'.outbox = b.outbox ++ effects ∧ b'.entryPrice = b.entryPrice ∧
      FairTrades given b.pendingExitReason t.price (effects.filterMap closedRow) b'.stopPrice := by
  cases works with
  | @left fill reason stop leaves =>
    obtain ⟨effects, after, closed⟩ := exitPosition_effects desk fill t.tsMicros reason
      { b with stopPrice := stop }
    rw [after]
    refine ⟨effects, rfl, rfl, ?_⟩
    rw [closed]
    exact exit_fair held level calm (handed_of_leaves slip positive held leaves) _ rfl
  | kept _ =>
    refine ⟨[], ?_, ?_, FairTrades.none _ _ _ _⟩
    · rw [bookBreakEven_eq]
      exact (List.append_nil _).symm
    · rw [bookBreakEven_eq]
      rfl

/-- A reversal closes the leg at the market. -/
theorem turn_fair (slip : 0 ≤ desk.slip) (given : Bracket) (calm : ¬EatenUp desk t b.common) :
    ∃ effects, (turn desk t b).outbox = b.outbox ++ effects ∧
      (b.posDir = 0 → (turn desk t b).posDir = 0 ∧ effects.filterMap closedRow = []) ∧
      FairTrades given b.pendingExitReason t.price (effects.filterMap closedRow)
        (turn desk t b).stopPrice := by
  obtain ⟨c, isTurning⟩ : ∃ c, c = ({ b with pendingFlip := 0 } : PaperBracketBroker) := ⟨_, rfl⟩
  have queued (x : PaperBracketBroker) (dir : SignType) :
      (if x.halted then x else { x with pendingDir := dir }).outbox = x.outbox ∧
        (if x.halted then x else { x with pendingDir := dir }).posDir = x.posDir ∧
        (if x.halted then x else { x with pendingDir := dir }).stopPrice = x.stopPrice := by
    split
    · exact ⟨rfl, rfl, rfl⟩
    · exact ⟨rfl, rfl, rfl⟩
  have outbox : c.outbox = b.outbox := by rw [isTurning]
  have dir : c.posDir = b.posDir := by rw [isTurning]
  simp only [turn, ← isTurning]
  split
  next held =>
    obtain ⟨sent, gone, level⟩ := queued
      (exitPosition desk (marketExit desk t c) t.tsMicros "reversal" c) b.pendingFlip
    obtain ⟨effects, after, closed⟩ := exitPosition_effects desk (marketExit desk t c) t.tsMicros
      "reversal" c
    have longer : (exitPosition desk (marketExit desk t c) t.tsMicros "reversal" c).outbox =
        b.outbox ++ effects := by
      rw [after, ← outbox]
    have stays : (exitPosition desk (marketExit desk t c) t.tsMicros "reversal" c).stopPrice =
        c.stopPrice := by
      rw [after]
    refine ⟨effects, sent.trans longer, ?_, ?_⟩
    · exact fun flat => absurd flat held
    · rw [level, stays, closed]
      have price : marketExit desk t c = marketExit desk t b := by
        rw [marketExit, marketExit, dir]
      obtain ⟨print, above⟩ := marketExit_handed slip t b
      have handed : Handed desk t { b with tpPrice := given.tp } (marketExit desk t c) "reversal"
          b.stopPrice := by
        rw [price]
        exact ⟨print, fun named => absurd named (by decide),
          fun named => absurd named (by decide), above⟩
      have stops : c.stopPrice = b.stopPrice := by rw [isTurning]
      rw [stops]
      refine exit_fair (b := { b with tpPrice := given.tp }) (dir ▸ held) rfl calm handed c ?_
      rw [isTurning]
      rfl
  next flat =>
    obtain ⟨sent, gone, level⟩ := queued c b.pendingFlip
    refine ⟨[], ?_, ?_, FairTrades.none _ _ _ _⟩
    · rw [sent, outbox, List.append_nil]
    · rw [gone, dir]
      exact fun still => ⟨still, rfl⟩

/-- A tick of the bracket broker fills fairly, unless the slippage eats up the print. -/
theorem onTick_fair (slip : 0 ≤ desk.slip) (positive : 0 < t.price) (given : Bracket)
    (calm : ¬EatenUp desk t b.common) : FairTick t given b (onTick desk t given b) := by
  have since {b' : PaperBracketBroker} {effects : List PaperEffect} (c : PaperBracketBroker)
      (same : c.outbox = b.outbox) (longer : b'.outbox = c.outbox ++ effects) :
      b.common.closedSince b'.common = effects.filterMap closedRow := by
    have after : b'.common.outbox = b.common.outbox ++ effects := by
      exact longer.trans (by rw [same]; rfl)
    rw [PaperBroker.closedSince, after, List.drop_left]
  rcases onTick_cases desk t given b with ⟨early, after⟩ | ⟨_, _, after⟩ |
    ⟨_, _, ⟨flat, idle⟩ | ⟨held, works⟩ | ⟨some, flat, c, entered, works⟩⟩
  · simp only [predates, PaperBroker.predates, Bool.and_eq_true, decide_eq_true_eq] at early
    rw [after]
    refine ⟨fun flat => absurd flat early.1.1, ?_⟩
    rw [since (seeTick t b) rfl (List.append_nil _).symm]
    exact FairTrades.none _ _ _ _
  · obtain ⟨effects, longer, idle, trades⟩ := turn_fair slip given (b := seeTick t b) calm
    rw [after]
    refine ⟨?_, ?_⟩
    · rw [since (seeTick t b) rfl longer]
      rintro flat (opened | closed)
      · exact absurd (idle flat).1 opened
      · exact absurd (idle flat).2 closed
    · rw [since (seeTick t b) rfl longer]
      exact trades
  · have silent : b.common.closedSince (onTick desk t given b).common = [] ∧
        (onTick desk t given b).posDir = 0 := by
      rcases idle with after | after
      · rw [after]
        exact ⟨since (seeTick t b) rfl (List.append_nil _).symm, flat⟩
      · rw [after]
        exact ⟨since (seeTick t b) rfl (List.append_nil _).symm, flat⟩
    refine ⟨?_, ?_⟩
    · rw [silent.1]
      rintro _ (opened | closed)
      · exact absurd silent.2 opened
      · exact absurd rfl closed
    · rw [silent.1]
      exact FairTrades.none _ _ _ _
  · have stays : (updateBracket given (seeTick t b)).posDir ≠ 0 := held
    have quiet : ¬EatenUp desk t (updateBracket given (seeTick t b)).common := calm
    obtain ⟨effects, longer, _, trades⟩ := works.fair slip positive stays rfl quiet
    refine ⟨fun flat => absurd flat held, ?_⟩
    rw [since (seeTick t b) rfl longer]
    exact trades
  · have fills := PaperBroker.entryFill_noBetter slip positive b.common
    have held : (updateBracket given c).posDir ≠ 0 := by
      have dir : (updateBracket given c).posDir = b.pendingDir := entered.posDir
      rw [dir]
      exact some
    have quiet : ¬EatenUp desk t (updateBracket given c).common := by
      rintro ⟨model, fresh, low, bid, long | ⟨flat', _⟩⟩
      · have dir : (updateBracket given c).common.posDir = b.pendingDir := entered.posDir
        have book : (updateBracket given c).common.qs = b.qs := entered.qs
        rw [book] at fresh bid
        rw [dir] at long
        exact calm ⟨model, fresh, low, bid, Or.inr ⟨flat, long⟩⟩
      · exact held flat'
    obtain ⟨effects, longer, entry, trades⟩ := works.fair slip positive held rfl quiet
    obtain ⟨early, earlier, silent⟩ := entered.outbox
    have rows : b.common.closedSince (onTick desk t given b).common =
        effects.filterMap closedRow := by
      have all : (onTick desk t given b).outbox = b.outbox ++ (early ++ effects) := by
        rw [longer, ← List.append_assoc, ← earlier]
        rfl
      rw [since b rfl all, List.filterMap_append, silent, List.nil_append]
    refine ⟨fun _ _ => ?_, ?_⟩
    · rw [entry]
      exact entered.entryPrice ▸ fills
    · rw [rows]
      have asked : (updateBracket given c).pendingExitReason = "" := entered.exit
      rw [asked] at trades
      exact trades.unasked

end PaperBracketBroker

/-! ## Every run -/

/-- What happens to a broker, a restart's resumed position included. -/
inductive DeskEvent
  | usual (event : BrokerEvent)
  | resume (row : OpenRow)

namespace Broker

variable (desk : PaperDesk)

def resume (row : OpenRow) : Broker → Broker
  | .plain engine b => .plain engine
    (b.resumePosition row.direction row.qty row.entryPrice row.stopPrice row.entryTimeUs)
  | .bracket b => .bracket
    (b.resumePosition row.direction row.qty row.entryPrice row.stopPrice row.entryTimeUs)

def undergo (b : Broker) : DeskEvent → Broker
  | .usual event => b.step desk event
  | .resume row => b.resume row

/-- A broker as it is built. -/
inductive Built : Broker → Prop
  | plain (engine : PlainEngine) : Built (.plain engine (PaperBroker.fresh desk))
  | bracket : Built (.bracket (PaperBracketBroker.fresh desk))

/-- Prices are positive, those of a resumed position too. -/
def Positive : DeskEvent → Prop
  | .usual (.tick _ t _) => 0 < t.price
  | .resume row => 0 < row.entryPrice
  | _ => True

/-- Where the event is a tick, its fills are fair. -/
def Fair (before : Broker) (event : DeskEvent) (after : Broker) : Prop :=
  match event, before, after with
  | .usual (.tick regime t _), .plain _ b, .plain _ b' => PaperBroker.FairTick desk regime t b b'
  | .usual (.tick _ t given), .bracket b, .bracket b' => PaperBracketBroker.FairTick t given b b'
  | _, _, _ => True

/-- Where the event is a tick, the slippage eats it up and the bid is above it, while a
long position is held or waits. -/
def EatenUp (b : Broker) : DeskEvent → Prop
  | .usual (.tick _ t _) =>
    match b with
    | .plain _ b => PaperBroker.EatenUp desk t b
    | .bracket b => PaperBroker.EatenUp desk t b.common
  | _ => False

instance (b : Broker) (event : DeskEvent) : Decidable (b.EatenUp desk event) :=
  match event, b with
  | .usual (.tick _ t _), .plain _ b => inferInstanceAs (Decidable (PaperBroker.EatenUp desk t b))
  | .usual (.tick _ t _), .bracket b =>
    inferInstanceAs (Decidable (PaperBroker.EatenUp desk t b.common))
  | .usual (.signal ..), _ => isFalse id
  | .usual (.quote _), _ => isFalse id
  | .usual (.flatten ..), _ => isFalse id
  | .usual .resetDay, _ => isFalse id
  | .usual (.setWarmup _), _ => isFalse id
  | .resume _, _ => isFalse id

/-- The plain broker's position is priced. -/
def Priced : Broker → Prop
  | .plain _ b => b.Priced
  | .bracket _ => True

end Broker

/-- A signal asks at most for the strategy's own exit. -/
theorem PaperBroker.onSignal_priced (desk : PaperDesk) (regime : Option SessionRegime)
    (sig : OrbSignal) (reason : String) {b : PaperBroker} (priced : b.Priced) :
    (b.onSignal desk regime sig reason).Priced := by
  have entry (dir : SignType) : (b.onEntrySignal desk regime dir reason).Priced := by
    have logged (blocked : String) :
        (b.logSignal desk (decide (dir > 0)) reason blocked).Priced := by
      rw [logSignal]
      split
      · exact priced
      · exact ⟨priced.entry, priced.asked⟩
    simp only [onEntrySignal]
    repeat' split
    all_goals first
      | exact priced
      | exact ⟨priced.entry, priced.asked⟩
      | exact logged _
      | exact ⟨(logged _).entry, (logged _).asked⟩
  cases sig with
  | buy => exact entry 1
  | sell => exact entry (-1)
  | none => exact priced
  | flattenEod =>
    simp only [onSignal]
    split
    · exact ⟨priced.entry, Or.inr rfl⟩
    · exact priced

/-- A flatten keeps the prices of a position. -/
theorem PaperBroker.flatten_priced (desk : PaperDesk) (reason : String) (tsUs : Int)
    (priceHint : ℚ) {b : PaperBroker} (priced : b.Priced) :
    (b.flatten desk reason tsUs priceHint).Priced := by
  simp only [flatten]
  split
  · exact ⟨priced.entry, Or.inl rfl⟩
  · obtain ⟨effects, after, _⟩ := exitPosition_effects desk
      ((if priceHint > 0 then priceHint else b.entryPrice) - b.posDir * desk.slip) tsUs reason
      { b with pendingDir := 0, pendingExitReason := "" }
    rw [after]
    exact ⟨fun long => absurd long (lt_irrefl (0 : SignType)), Or.inl rfl⟩

namespace Broker

variable {desk : PaperDesk}

/-- One event. -/
theorem Priced.undergo (slip : 0 ≤ desk.slip) {b : Broker} {event : DeskEvent} (priced : b.Priced)
    (positive : Positive event) (calm : ¬b.EatenUp desk event) :
    (b.undergo desk event).Priced ∧ b.Fair desk event (b.undergo desk event) := by
  cases b with
  | plain engine b =>
    cases event with
    | resume row => exact ⟨⟨fun _ => positive, priced.asked⟩, trivial⟩
    | usual event =>
      cases event with
      | signal regime sig reason =>
        exact ⟨PaperBroker.onSignal_priced desk regime sig reason priced, trivial⟩
      | quote q => exact ⟨⟨priced.entry, priced.asked⟩, trivial⟩
      | tick regime t given => exact (PaperBroker.onTick_fair slip regime positive priced calm).symm
      | flatten reason tsUs priceHint =>
        exact ⟨PaperBroker.flatten_priced desk reason tsUs priceHint priced, trivial⟩
      | resetDay => exact ⟨⟨priced.entry, priced.asked⟩, trivial⟩
      | setWarmup on => exact ⟨⟨priced.entry, priced.asked⟩, trivial⟩
  | bracket b =>
    cases event with
    | resume row => exact ⟨trivial, trivial⟩
    | usual event =>
      cases event with
      | tick regime t given =>
        exact ⟨trivial, PaperBracketBroker.onTick_fair slip positive given calm⟩
      | _ => exact ⟨trivial, trivial⟩

theorem Built.priced {b : Broker} (built : Built desk b) : b.Priced := by
  cases built with
  | plain engine => exact ⟨fun long => absurd long (lt_irrefl (0 : SignType)), Or.inl rfl⟩
  | bracket => exact trivial

/-- In every run of either broker in which the slippage never eats up the print of a tick
below the bid while a long position is held or waits, every fill is fair. -/
theorem fills_fair (ticks : 0 ≤ desk.slippageTicks) (size : 0 ≤ desk.tickSize) {start : Broker}
    (built : Built desk start) (events : List DeskEvent)
    (positive : ∀ event ∈ events, Positive event)
    (calm : Runs.Along (undergo desk) (fun b event => ¬b.EatenUp desk event) start events) :
    Runs.Along (undergo desk) (fun b event => b.Fair desk event (b.undergo desk event))
      start events := by
  have slip : 0 ≤ desk.slip := mul_nonneg (Int.cast_nonneg ticks) size
  have along := Runs.along_and_of_mem (undergo desk) start events calm positive
  refine Runs.along_of_invariant (undergo desk) Priced ?_ ?_ start events built.priced along
  · exact fun b event priced allowed => (priced.undergo slip allowed.2 allowed.1).2
  · exact fun b event priced allowed => (priced.undergo slip allowed.2 allowed.1).1

/-- A long position of the book's fill model: entered at the ask, asked to leave, and left
at a print below the bid. -/
def soldLow (price : ℚ) : List DeskEvent :=
  [.usual (.signal none .buy ""),
    .usual (.quote { tsUs := Seat.morning 0, bid := 5, ask := 6 }),
    .usual (.tick none { tsMicros := Seat.morning 0, price := 6 } {}),
    .usual (.signal none .flattenEod ""),
    .usual (.tick none { tsMicros := Seat.morning 1, price := price } {})]

/-- Two points of slippage. -/
def wide : PaperDesk where
  cfg := { fillModel := "bbo" }
  slippageTicks := 8

/-- The fills of the run are fair. -/
theorem soldLow_fair :
    Runs.Along (undergo wide) (fun b event => b.Fair wide event (b.undergo wide event))
      (.plain .orb (PaperBroker.fresh wide)) (soldLow 4) :=
  fills_fair (by decide) (by decide +kernel) (.plain .orb) (soldLow 4)
    (by
      simp only [soldLow, List.forall_mem_cons, Positive]
      refine ⟨trivial, trivial, ?_, trivial, ?_, fun _ inside => absurd inside List.not_mem_nil⟩
      · decide +kernel
      · decide +kernel)
    (by decide +kernel)

/-- At a print of one point the slippage leaves nothing to hold the bid against. -/
theorem low_print_sold_at_bid :
    ¬∀ desk : PaperDesk, 0 ≤ desk.slippageTicks → 0 ≤ desk.tickSize → ∀ start : Broker,
      Built desk start → ∀ events : List DeskEvent, (∀ event ∈ events, Positive event) →
      Runs.Along (undergo desk) (fun b event => b.Fair desk event (b.undergo desk event))
        start events := by
  intro fair
  have along := fair wide (by decide) (by decide +kernel) _ (.plain .orb) (soldLow 1)
    (by
      simp only [soldLow, List.forall_mem_cons, Positive]
      refine ⟨trivial, trivial, ?_, trivial, ?_, fun _ inside => absurd inside List.not_mem_nil⟩
      · decide +kernel
      · decide +kernel)
  have exits := along.2.2.2.2.1.trades.exits
  revert exits
  decide +kernel

end Broker

end RithmicEngine
