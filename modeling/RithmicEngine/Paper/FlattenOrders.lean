import RithmicEngine.Paper.Lockstep
/-!
# Orders that a flatten finds waiting

A broker takes an entry or a reversal at once and fills it at a later tick, so that a
strategy's signal to flatten can arrive in between. The signal asks for the exit of an
open position and leaves what waits untouched; only the host's own flatten drops it.
-/
namespace RithmicEngine

open Stance (Books Steady)

/-- What happens to a broker: the strategy's signals, the market, and the host's calls. -/
inductive BrokerEvent
  | signal (regime : Option SessionRegime) (sig : OrbSignal) (reason : String)
  | quote (q : Quote)
  | tick (regime : Option SessionRegime) (t : OrbTick) (given : Bracket)
  | flatten (reason : String) (tsUs : Int) (priceHint : ℚ)
  | resetDay
  | setWarmup (on : Bool)

namespace Broker

variable (desk : PaperDesk)

def step (b : Broker) (event : BrokerEvent) : Broker :=
  match event with
  | .signal regime sig reason => b.onSignal desk regime sig reason
  | .quote q => b.onQuote desk q
  | .tick regime t given => b.onTick desk regime t given
  | .flatten reason tsUs priceHint => b.flatten desk reason tsUs priceHint
  | .resetDay => b.resetDay
  | .setWarmup on => b.setWarmup on

/-- An accepted entry or reversal has not filled yet. -/
def waits (b : Broker) : Bool := decide (b.standing.waiting ≠ 0 ∨ b.standing.turning ≠ 0)

/-- Between two states a position was opened, which may have closed again at once. -/
def Opened (before after : Broker) : Prop :=
  before.posDir = 0 ∧ (after.posDir ≠ 0 ∨ before.closedSince after ≠ [])
deriving Decidable

/-! ## Overdue orders -/

/-- Whether a signal to flatten came after what now waits was accepted. An accepted
entry or reversal is a new order, and an order that is gone is overdue no more. -/
def noteOverdue (overdue : Bool) (before : Broker) (event : BrokerEvent) (after : Broker) : Bool :=
  match event with
  | .signal regime sig _ =>
    if sig = .flattenEod then overdue || before.waits
    else if sig.isEntry && before.accepts desk regime sig.dir then false
    else overdue
  | _ => overdue && after.waits

/-- A broker beside the note of whether what waits is overdue. -/
def watched : Broker × Bool → BrokerEvent → Broker × Bool :=
  Runs.observe (fun b event => b.step desk event) (noteOverdue desk)

/-- No event opens a position from an overdue order. -/
def FlattenCancels (b : Broker) (events : List BrokerEvent) : Prop :=
  Runs.Along (watched desk)
    (fun pair event => Opened pair.1 (pair.1.step desk event) → pair.2 = false) (b, false) events
deriving Decidable

end Broker

/-! ## When a tick fills what waits -/

namespace PaperBroker

variable (desk : PaperDesk) (regime : Option SessionRegime)

/-- This tick fills the pending entry. -/
def fills (t : OrbTick) (b : PaperBroker) : Bool :=
  decide (b.pendingDir ≠ 0) && decide (b.posDir = 0) && !waitsForBook desk t b

/-- A signal neither opens nor closes anything. -/
theorem onSignal_holds (sig : OrbSignal) (reason : String) (b : PaperBroker) :
    Books [] b.stance (onSignal desk regime sig reason b).stance ∧
      (onSignal desk regime sig reason b).posDir = b.posDir := by
  have entry (dir : SignType) :
      Books [] b.stance (onEntrySignal desk regime dir reason b).stance ∧
        (onEntrySignal desk regime dir reason b).posDir = b.posDir := by
    have logged := logSignal_steady desk (decide (dir > 0)) reason
      (entryGate desk regime (decide (dir > 0)) b) b
    have held : (logSignal desk (decide (dir > 0)) reason
        (entryGate desk regime (decide (dir > 0)) b) b).posDir = b.posDir :=
      congrArg Standing.held logged.standing
    simp only [onEntrySignal]
    repeat' split
    all_goals first
      | exact ⟨Books.refl b.stance, rfl⟩
      | exact ⟨logged.books, held⟩
      | exact ⟨⟨logged.books.warmup, logged.books.outbox⟩, held⟩
  cases sig with
  | buy => exact entry 1
  | sell => exact entry (-1)
  | none => exact ⟨Books.refl b.stance, rfl⟩
  | flattenEod =>
    simp only [onSignal]
    split
    · exact ⟨Books.refl b.stance, rfl⟩
    · exact ⟨Books.refl b.stance, rfl⟩

/-- A tick that fills the entry leaves a position, or the trade it closed at once. -/
theorem onTick_of_fills (t : OrbTick) {b : PaperBroker} (filled : fills desk t b = true) :
    b.posDir = 0 ∧ ∃ rows, Books rows b.stance (onTick desk regime t b).stance ∧
      ((onTick desk regime t b).posDir ≠ 0 ∨ rows ≠ []) := by
  simp only [fills, Bool.and_eq_true, decide_eq_true_eq, Bool.not_eq_true'] at filled
  obtain ⟨⟨some, flat⟩, ready⟩ := filled
  obtain ⟨x, isSeen⟩ : ∃ x, x = seeTick t b := ⟨_, rfl⟩
  have seen : x.stance = b.stance := by rw [isSeen]; rfl
  have current : predates t x = false := by
    rw [isSeen]
    simp [predates, seeTick, flat]
  have goes : x.pendingDir ≠ 0 ∧ x.posDir = 0 ∧ waitsForBook desk t x = false := by
    rw [isSeen]
    exact ⟨some, flat, ready⟩
  obtain ⟨books, standing⟩ := fillPending_enters desk regime t goes
  obtain ⟨y, isFilled⟩ : ∃ y, y = fillPending desk regime t x := ⟨_, rfl⟩
  simp only [onTick, ← isSeen, current, Bool.false_eq_true, ↓reduceIte]
  rw [← isFilled] at books standing ⊢
  rw [seen] at books
  have dir : y.posDir = x.pendingDir := congrArg Standing.held standing
  have held : y.posDir ≠ 0 := by
    rw [dir]
    exact goes.1
  obtain ⟨_, row, _, closes, _⟩ | steady := (work_worked desk regime t y).outcome
  · exact ⟨flat, [row], books.trans closes, Or.inr (List.cons_ne_nil row [])⟩
  · have stays : (work desk regime t y).posDir = y.posDir :=
      congrArg Standing.held steady.standing
    exact ⟨flat, [], books.trans steady.books, Or.inl (by rw [stays]; exact held)⟩

/-- A tick that does not fill anything leaves a flat broker flat. -/
theorem onTick_of_not_fills (t : OrbTick) {b : PaperBroker} (flat : b.posDir = 0)
    (unfilled : fills desk t b = false) :
    Books [] b.stance (onTick desk regime t b).stance ∧ (onTick desk regime t b).posDir = 0 := by
  obtain ⟨x, isSeen⟩ : ∃ x, x = seeTick t b := ⟨_, rfl⟩
  have seen : x.stance = b.stance := by rw [isSeen]; rfl
  have none : x.posDir = 0 := by rw [isSeen]; exact flat
  have current : predates t x = false := by
    simp [predates, none]
  have stays : ¬ (x.pendingDir ≠ 0 ∧ x.posDir = 0 ∧ waitsForBook desk t x = false) := by
    rw [isSeen]
    rintro ⟨some, _, ready⟩
    have ready : waitsForBook desk t b = false := ready
    have some : b.pendingDir ≠ 0 := some
    simp only [fills, some, flat, ready, ne_eq, not_false_eq_true, decide_true, Bool.not_false,
      Bool.and_self, Bool.true_eq_false] at unfilled
  simp only [onTick, ← isSeen, current, Bool.false_eq_true, ↓reduceIte]
  rw [fillPending, if_neg stays, ← seen]
  obtain ⟨held, _⟩ | steady := (work_worked desk regime t x).outcome
  · exact absurd none held
  · exact ⟨steady.books, (congrArg Standing.held steady.standing).trans none⟩

end PaperBroker

namespace PaperBracketBroker

variable (desk : PaperDesk) (regime : Option SessionRegime)

/-- This tick fills the pending entry: no reversal comes first and no halt drops it. -/
def fills (t : OrbTick) (b : PaperBracketBroker) : Bool :=
  decide (b.pendingFlip = 0) && decide (b.pendingDir ≠ 0) && decide (b.posDir = 0) &&
    !b.common.waitsForBook desk t && !b.halted

/-- A signal neither opens nor closes anything. -/
theorem onSignal_holds (sig : OrbSignal) (reason : String) (b : PaperBracketBroker) :
    Books [] b.stance (onSignal desk regime sig reason b).stance ∧
      (onSignal desk regime sig reason b).posDir = b.posDir := by
  have entry (dir : SignType) :
      Books [] b.stance (onEntrySignal desk regime dir reason b).stance ∧
        (onEntrySignal desk regime dir reason b).posDir = b.posDir := by
    have logged := logSignal_steady desk (decide (dir > 0)) reason
      (entryGate desk regime (decide (dir > 0)) b) b
    have held : (logSignal desk (decide (dir > 0)) reason
        (entryGate desk regime (decide (dir > 0)) b) b).posDir = b.posDir :=
      congrArg Standing.held logged.standing
    rw [onEntrySignal]
    split
    · exact ⟨Books.refl b.stance, rfl⟩
    · split
      · exact ⟨Books.refl b.stance, rfl⟩
      · simp only
        split
        · exact ⟨logged.books, held⟩
        · obtain ⟨queued, _⟩ := queue_same dir (logSignal desk (decide (dir > 0)) reason
            (entryGate desk regime (decide (dir > 0)) b) b)
          refine ⟨logged.books.trans queued, ?_⟩
          rw [queue]
          repeat' split
          all_goals exact held
  cases sig with
  | buy => exact entry 1
  | sell => exact entry (-1)
  | none => exact ⟨Books.refl b.stance, rfl⟩
  | flattenEod =>
    simp only [onSignal]
    split
    · exact ⟨Books.refl b.stance, rfl⟩
    · exact ⟨Books.refl b.stance, rfl⟩

/-- A tick that fills the entry leaves a position, or the trade it closed at once. -/
theorem onTick_of_fills (t : OrbTick) (bracket : Bracket) {b : PaperBracketBroker}
    (filled : fills desk t b = true) :
    b.posDir = 0 ∧ ∃ rows, Books rows b.stance (onTick desk t bracket b).stance ∧
      ((onTick desk t bracket b).posDir ≠ 0 ∨ rows ≠ []) := by
  simp only [fills, Bool.and_eq_true, decide_eq_true_eq, Bool.not_eq_true'] at filled
  obtain ⟨⟨⟨⟨straight, some⟩, flat⟩, ready⟩, free⟩ := filled
  obtain ⟨x, isSeen⟩ : ∃ x, x = seeTick t b := ⟨_, rfl⟩
  have seen : x.stance = b.stance := by rw [isSeen]; rfl
  have straightx : ¬ x.pendingFlip ≠ 0 := by rw [isSeen]; exact not_not.mpr straight
  have current : predates t x = false := by
    rw [isSeen]
    simp [predates, PaperBroker.predates, common, seeTick, flat]
  have freex : x.halted = false := by rw [isSeen]; exact free
  have goes : x.pendingDir ≠ 0 ∧ x.posDir = 0 ∧ x.common.waitsForBook desk t = false := by
    rw [isSeen]
    exact ⟨some, flat, ready⟩
  obtain ⟨books, standing, _⟩ := fillPending_enters desk t bracket freex goes
  obtain ⟨y, isFilled⟩ : ∃ y, y = fillPending desk t bracket x := ⟨_, rfl⟩
  simp only [onTick, ← isSeen, current, Bool.false_eq_true, ↓reduceIte, if_neg straightx]
  rw [← isFilled] at books standing ⊢
  rw [seen] at books
  have dir : y.posDir = x.pendingDir := congrArg Standing.held standing
  have held : y.posDir ≠ 0 := by
    rw [dir]
    exact goes.1
  rw [if_neg held]
  obtain ⟨row, _, _, closes, _⟩ | ⟨steady, _⟩ := (manage_worked desk t bracket held).outcome
  · exact ⟨flat, [row], books.trans closes, Or.inr (List.cons_ne_nil row [])⟩
  · have stays : (manage desk t bracket y).posDir = y.posDir :=
      congrArg Standing.held steady.standing
    exact ⟨flat, [], books.trans steady.books, Or.inl (by rw [stays]; exact held)⟩

/-- A tick that does not fill anything leaves a flat broker flat. -/
theorem onTick_of_not_fills (t : OrbTick) (bracket : Bracket) {b : PaperBracketBroker}
    (flat : b.posDir = 0) (unfilled : fills desk t b = false) :
    Books [] b.stance (onTick desk t bracket b).stance ∧ (onTick desk t bracket b).posDir = 0 := by
  obtain ⟨x, isSeen⟩ : ∃ x, x = seeTick t b := ⟨_, rfl⟩
  have seen : x.stance = b.stance := by rw [isSeen]; rfl
  have none : x.posDir = 0 := by rw [isSeen]; exact flat
  have current : predates t x = false := by
    simp [predates, PaperBroker.predates, common, none]
  simp only [onTick, ← isSeen, current, Bool.false_eq_true, ↓reduceIte, ← seen]
  split
  · simp only [turn, none, ne_eq, not_true_eq_false, ↓reduceIte]
    split
    · exact ⟨⟨rfl, [], (List.append_nil _).symm, rfl⟩, rfl⟩
    · exact ⟨⟨rfl, [], (List.append_nil _).symm, rfl⟩, rfl⟩
  · next straight =>
    have emptied : Books [] x.stance (fillPending desk t bracket x).stance ∧
        (fillPending desk t bracket x).posDir = 0 := by
      rw [fillPending]
      split
      · next goes =>
        have halts : x.halted = true := by
          by_contra free
          rw [isSeen] at goes straight free
          obtain ⟨some, _, ready⟩ := goes
          have all : fills desk t b = true := by
            simp only [fills, Bool.and_eq_true, decide_eq_true_eq, Bool.not_eq_true']
            exact ⟨⟨⟨⟨not_not.mp straight, some⟩, flat⟩, ready⟩, Bool.not_eq_true _ ▸ free⟩
          exact Bool.false_ne_true (unfilled.symm.trans all)
        simp only [halts, ↓reduceIte]
        exact ⟨⟨rfl, [], (List.append_nil _).symm, rfl⟩, none⟩
      · exact ⟨Books.refl x.stance, none⟩
    rw [if_pos emptied.2]
    exact emptied

end PaperBracketBroker

namespace Broker

variable (desk : PaperDesk)

/-- This tick fills what waits. -/
def fills (t : OrbTick) : Broker → Bool
  | .plain _ b => b.fills desk t
  | .bracket b => b.fills desk t

/-- Nothing is opened where the position stays as it is and no trade is closed. -/
theorem not_opened {b b' : Broker} (held : b'.posDir = b.posDir)
    (closed : b.closedSince b' = []) : ¬ Opened b b' := by
  rintro ⟨flat, some | trades⟩
  · exact some (held.trans flat)
  · exact trades closed

theorem not_opened_of_stance {b b' : Broker} (same : b'.stance = b.stance) : ¬ Opened b b' := by
  apply not_opened (congrArg (·.standing.held) same)
  apply Books.closedSince
  rw [same]
  exact Stance.Books.refl b.stance

/-- A tick opens a position exactly where it fills what waits. -/
theorem opened_onTick (regime : Option SessionRegime) (t : OrbTick) (given : Bracket)
    (b : Broker) : Opened b (b.onTick desk regime t given) ↔ b.fills desk t = true := by
  constructor
  · rintro ⟨flat, opened⟩
    by_contra unfilled
    have unfilled : b.fills desk t = false := Bool.not_eq_true _ ▸ unfilled
    have still : Books [] b.stance (b.onTick desk regime t given).stance ∧
        (b.onTick desk regime t given).posDir = 0 := by
      cases b with
      | plain engine b => exact PaperBroker.onTick_of_not_fills desk regime t flat unfilled
      | bracket b => exact PaperBracketBroker.onTick_of_not_fills desk t given flat unfilled
    exact not_opened (still.2.trans flat.symm) (Books.closedSince still.1) ⟨flat, opened⟩
  · intro filled
    have opens : b.posDir = 0 ∧ ∃ rows, Books rows b.stance (b.onTick desk regime t given).stance ∧
        ((b.onTick desk regime t given).posDir ≠ 0 ∨ rows ≠ []) := by
      cases b with
      | plain engine b => exact PaperBroker.onTick_of_fills desk regime t filled
      | bracket b => exact PaperBracketBroker.onTick_of_fills desk t given filled
    obtain ⟨flat, rows, books, opened⟩ := opens
    refine ⟨flat, opened.imp_right ?_⟩
    rw [Books.closedSince books]
    exact id

/-- Signals move no position before the next tick. -/
theorem onSignal_holds (regime : Option SessionRegime) (sig : OrbSignal) (reason : String)
    (b : Broker) : Books [] b.stance (b.onSignal desk regime sig reason).stance ∧
      (b.onSignal desk regime sig reason).posDir = b.posDir := by
  cases b with
  | plain engine b => exact PaperBroker.onSignal_holds desk regime sig reason b
  | bracket b => exact PaperBracketBroker.onSignal_holds desk regime sig reason b

/-- Going flat at once closes what is held and opens nothing. -/
theorem flatten_not_opened (reason : String) (tsUs : Int) (priceHint : ℚ) (b : Broker) :
    ¬ Opened b (b.flatten desk reason tsUs priceHint) := by
  rintro ⟨flat, opened⟩
  have still : (b.flatten desk reason tsUs priceHint).posDir = 0 ∧
      Books [] b.stance (b.flatten desk reason tsUs priceHint).stance := by
    cases b with
    | plain engine b =>
      have flat : b.posDir = 0 := flat
      simp only [flatten, PaperBroker.flatten, flat, ↓reduceIte]
      exact ⟨rfl, rfl, [], (List.append_nil _).symm, rfl⟩
    | bracket b =>
      have flat : b.posDir = 0 := flat
      simp only [flatten, PaperBracketBroker.flatten, flat, ↓reduceIte]
      exact ⟨rfl, rfl, [], (List.append_nil _).symm, rfl⟩
  exact not_opened (still.1.trans flat.symm) (Books.closedSince still.2) ⟨flat, opened⟩

theorem setWarmup_not_opened (on : Bool) (b : Broker) : ¬ Opened b (b.setWarmup on) := by
  have same : (b.setWarmup on).outbox = b.outbox := by
    cases b with
    | plain engine b => rfl
    | bracket b => rfl
  refine not_opened (congrArg Standing.held (setWarmup_kept on b).1) ?_
  rw [closedSince, same, List.drop_length]
  rfl

/-- A position is opened by the ticks that fill what waits and by nothing else. -/
theorem opened_step (b : Broker) (event : BrokerEvent) :
    Opened b (b.step desk event) ↔
      ∃ regime t given, event = .tick regime t given ∧ b.fills desk t = true := by
  constructor
  · intro opened
    cases event with
    | tick regime t given =>
      exact ⟨regime, t, given, rfl, (opened_onTick desk regime t given b).mp opened⟩
    | signal regime sig reason =>
      obtain ⟨books, held⟩ := onSignal_holds desk regime sig reason b
      exact absurd opened (not_opened held (Books.closedSince books))
    | quote q => exact absurd opened (not_opened_of_stance (onQuote_steady desk q b).1)
    | flatten reason tsUs priceHint =>
      exact absurd opened (flatten_not_opened desk reason tsUs priceHint b)
    | resetDay => exact absurd opened (not_opened_of_stance (resetDay_steady b).1)
    | setWarmup on => exact absurd opened (setWarmup_not_opened on b)
  · rintro ⟨regime, t, given, rfl, filled⟩
    exact (opened_onTick desk regime t given b).mpr filled

/-! ## The condition -/

/-- No tick fills an overdue order. -/
def FillsInTime (pair : Broker × Bool) (event : BrokerEvent) : Prop :=
  match event with
  | .tick _ t _ => pair.1.fills desk t = true → pair.2 = false
  | _ => True

/-- A signal to flatten finds nothing waiting. -/
def FlattensClear (b : Broker) (event : BrokerEvent) : Prop :=
  match event with
  | .signal _ .flattenEod _ => b.waits = false
  | _ => True

instance (b : Broker) (event : BrokerEvent) : Decidable (b.FlattensClear event) :=
  match event with
  | .signal _ .flattenEod _ => inferInstanceAs (Decidable (_ = _))
  | .signal _ .buy _ => isTrue trivial
  | .signal _ .sell _ => isTrue trivial
  | .signal _ .none _ => isTrue trivial
  | .quote _ => isTrue trivial
  | .tick _ _ _ => isTrue trivial
  | .flatten _ _ _ => isTrue trivial
  | .resetDay => isTrue trivial
  | .setWarmup _ => isTrue trivial

/-- An event opens in time exactly when it fills in time. -/
theorem opened_in_time_iff (pair : Broker × Bool) (event : BrokerEvent) :
    (Opened pair.1 (pair.1.step desk event) → pair.2 = false) ↔ FillsInTime desk pair event := by
  rw [opened_step]
  cases event with
  | tick regime t given =>
    constructor
    · intro inTime filled
      exact inTime ⟨regime, t, given, rfl, filled⟩
    · rintro inTime ⟨_, _, _, same, filled⟩
      cases same
      exact inTime filled
  | signal _ _ _ => exact ⟨fun _ => trivial, fun _ ⟨_, _, _, same, _⟩ => by cases same⟩
  | quote _ => exact ⟨fun _ => trivial, fun _ ⟨_, _, _, same, _⟩ => by cases same⟩
  | flatten _ _ _ => exact ⟨fun _ => trivial, fun _ ⟨_, _, _, same, _⟩ => by cases same⟩
  | resetDay => exact ⟨fun _ => trivial, fun _ ⟨_, _, _, same, _⟩ => by cases same⟩
  | setWarmup _ => exact ⟨fun _ => trivial, fun _ ⟨_, _, _, same, _⟩ => by cases same⟩

/-- Nothing becomes overdue where a flatten finds nothing waiting. -/
theorem noteOverdue_clear {b : Broker} {event : BrokerEvent} (clear : b.FlattensClear event)
    (after : Broker) : noteOverdue desk false b event after = false := by
  cases event with
  | signal regime sig reason =>
    cases sig with
    | flattenEod => exact clear
    | none => rfl
    | buy =>
      simp only [noteOverdue, reduceCtorEq, ↓reduceIte]
      exact ite_self false
    | sell =>
      simp only [noteOverdue, reduceCtorEq, ↓reduceIte]
      exact ite_self false
  | _ => rfl

/-- Over every run of either broker no position is opened from an order that was
waiting when a flatten came, exactly where no tick fills such an order; so it is where
each flatten finds nothing waiting. -/
theorem flattenCancels_iff (b : Broker) (events : List BrokerEvent) :
    (b.FlattenCancels desk events ↔
      Runs.Along (watched desk) (FillsInTime desk) (b, false) events) ∧
    (Runs.Along (fun b event => b.step desk event) FlattensClear b events →
      b.FlattenCancels desk events) := by
  refine ⟨Runs.along_congr (watched desk) (opened_in_time_iff desk) (b, false) events, ?_⟩
  intro clear
  have onTime : ∀ (pair : Broker × Bool) (event : BrokerEvent), pair.2 = false →
      pair.1.FlattensClear event → Opened pair.1 (pair.1.step desk event) → pair.2 = false :=
    fun _ _ inTime _ _ => inTime
  refine Runs.along_of_invariant (watched desk) (fun pair => pair.2 = false) onTime ?_
    (b, false) events rfl
    ((Runs.along_observe_iff _ _ FlattensClear (b, false) events).mpr clear)
  rintro ⟨b, overdue⟩ event rfl clear
  exact noteOverdue_clear desk clear _

/-! ## Two runs -/

/-- A tick of the regular session at 10:00 Eastern, some seconds later. -/
def tickAt (secs : Int) : BrokerEvent :=
  .tick none { tsMicros := 1746021600000000 + secs * 1000000, price := 20000 } {}

/-- An entry that is signalled, and flattened before the next tick. -/
def flattenedEntry : List BrokerEvent :=
  [tickAt 0, .signal none .buy "entry", .signal none .flattenEod "eod", tickAt 1]

/-- A position that is to be reversed, and flattened before the next tick. -/
def flattenedReversal : List BrokerEvent :=
  [tickAt 0, .signal none .buy "entry", tickAt 1, .signal none .sell "reversal",
    .signal none .flattenEod "eod", tickAt 2, tickAt 3]

/-- The flattened entry fills at the next tick, the flattened reversal at the one after. -/
theorem flattened_orders_fill :
    (¬ (Broker.plain .orb (PaperBroker.fresh {})).FlattenCancels {} flattenedEntry) ∧
      (¬ (Broker.bracket (PaperBracketBroker.fresh {})).FlattenCancels {} flattenedReversal) := by
  decide +kernel

end Broker

end RithmicEngine
