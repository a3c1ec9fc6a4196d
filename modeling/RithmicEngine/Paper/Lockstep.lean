import RithmicEngine.Base.Runs
import RithmicEngine.Paper.BrokerMoves
/-!
# Strategy and paper broker in lockstep

The strategy takes itself to be in the position it signalled, and the callback answers
nothing. It stays in step with its broker exactly while the broker takes every entry,
no session is reset over a position or an entry that waits, nothing is flattened while
an entry or a reversal waits, and no reversal's own close halts the broker.
-/
namespace RithmicEngine

open Stance (Books Steady Plays)

/-! ## Either broker -/

namespace Broker

variable (desk : PaperDesk)

def stance (b : Broker) : Stance where
  standing := b.standing
  warmup := b.warmup
  outbox := b.outbox

theorem Books.closedSince {b b' : Broker} {rows : List PaperTradeRow}
    (books : Books rows b.stance b'.stance) : b.closedSince b' = rows := books.closed

/-- What a broker keeps to besides its standing. -/
def Ready : Broker → Prop
  | .plain _ _ => True
  | .bracket b => b.Ready

/-- No trade is closed in a restart's name where the host would look for one. -/
def Own (rows : List PaperTradeRow) (b : Broker) : Prop :=
  b.engine.kind = .mtf → ∀ row ∈ rows, row.exitReason ≠ restartFlatten

/-- The broker takes an entry signal of this direction. -/
def accepts (regime : Option SessionRegime) (dir : SignType) : Broker → Bool
  | .plain _ b => b.accepts desk regime dir
  | .bracket b => b.accepts desk regime dir

/-- This tick makes a reversal whose close halts the broker. -/
def turnHalts (t : OrbTick) : Broker → Bool
  | .plain _ _ => false
  | .bracket b => decide (b.pendingFlip ≠ 0) && !b.predates t && b.turnHalts desk t

/-- What an operation of the broker leaves to the engine and to later operations. -/
structure Kept (b b' : Broker) : Prop where
  engine : b'.engine = b.engine
  ready : b.Ready → b'.Ready

theorem plain_own (engine : PlainEngine) (b : PaperBroker) (rows : List PaperTradeRow) :
    (Broker.plain engine b).Own rows := by
  intro scalper
  cases engine with
  | orb => cases scalper
  | trend hold => cases scalper

/-- Only the bracket broker has reversals. -/
theorem turning_eq_zero {b : Broker} (plain : b.engine.kind ≠ .mtf) : b.standing.turning = 0 := by
  cases b with
  | plain engine b => rfl
  | bracket b => exact absurd rfl plain

variable {sig : OrbSignal} (regime : Option SessionRegime)

/-- A tick that does not halt plays the standing of the broker, for its own reasons. -/
theorem onTick_plays (t : OrbTick) (bracket : Bracket) {b : Broker} (sound : b.standing.Sound)
    (ready : b.Ready) (goesOn : b.turnHalts desk t = false) :
    ∃ rows, Plays rows b.stance (b.onTick desk regime t bracket).stance ∧ b.Own rows ∧
      Kept b (b.onTick desk regime t bracket) := by
  cases b with
  | plain engine b =>
    obtain ⟨rows, plays⟩ := PaperBroker.onTick_plays desk regime t (b := b) sound
    exact ⟨rows, plays, plain_own engine b rows, rfl, fun _ => trivial⟩
  | bracket b =>
    have on : b.pendingFlip ≠ 0 → b.predates t = false → b.turnHalts desk t = false := by
      intro turns current
      simpa only [turnHalts, turns, current, ne_eq, not_false_eq_true, decide_true, Bool.not_false,
        Bool.true_and] using goesOn
    obtain ⟨rows, plays, named⟩ :=
      PaperBracketBroker.onTick_plays desk t bracket sound ready.free on
    obtain ⟨own, stillReady⟩ := named ready.own
    exact ⟨rows, plays, fun _ => own, rfl, fun _ => stillReady⟩

theorem onQuote_steady (q : Quote) (b : Broker) :
    (b.onQuote desk q).stance = b.stance ∧ Kept b (b.onQuote desk q) := by
  cases b with
  | plain engine b => exact ⟨rfl, rfl, fun _ => trivial⟩
  | bracket b => exact ⟨rfl, rfl, fun ready => ⟨ready.free, ready.own⟩⟩

theorem resetDay_steady (b : Broker) : b.resetDay.stance = b.stance ∧ Kept b b.resetDay := by
  cases b with
  | plain engine b => exact ⟨rfl, rfl, fun _ => trivial⟩
  | bracket b => exact ⟨rfl, rfl, PaperBracketBroker.resetDay_ready⟩

theorem setWarmup_kept (on : Bool) (b : Broker) :
    (b.setWarmup on).standing = b.standing ∧ (b.setWarmup on).warmup = on ∧
      Kept b (b.setWarmup on) := by
  cases b with
  | plain engine b => exact ⟨rfl, rfl, rfl, fun _ => trivial⟩
  | bracket b => exact ⟨rfl, rfl, rfl, fun ready => ⟨ready.free, ready.own⟩⟩

/-- A flatten by the host leaves the broker at rest. -/
theorem flatten_books (why : HostFlatten) (tsUs : Int) (priceHint : ℚ) (b : Broker) :
    ∃ rows, Books rows b.stance (b.flatten desk why.text tsUs priceHint).stance ∧
      rows.map (·.closedDir.dir) = b.standing.closing ∧ b.Own rows ∧
      (b.flatten desk why.text tsUs priceHint).standing = Standing.rest ∧
      Kept b (b.flatten desk why.text tsUs priceHint) := by
  cases b with
  | plain engine b =>
    obtain ⟨rows, books, legs, resting⟩ :=
      PaperBroker.flatten_books desk why.text tsUs priceHint b
    exact ⟨rows, books, legs, plain_own engine b rows, resting, rfl, fun _ => trivial⟩
  | bracket b =>
    have own : why.text ≠ restartFlatten := by cases why <;> decide
    obtain ⟨rows, books, legs, named⟩ :=
      PaperBracketBroker.flatten_books desk own tsUs priceHint b
    obtain ⟨resting, ready⟩ := PaperBracketBroker.flatten_rests desk why.text tsUs priceHint b
    exact ⟨rows, books, legs, fun _ => named, resting, rfl, fun _ => ready⟩

/-- A signal to flatten moves nothing until the next tick. -/
theorem onSignal_flatten (exits : sig.isEntry = false) {reason : String}
    (own : reason ≠ restartFlatten) (b : Broker) :
    (b.onSignal desk regime sig reason).stance = b.stance ∧
      Kept b (b.onSignal desk regime sig reason) := by
  cases sig with
  | buy => exact absurd exits (by decide)
  | sell => exact absurd exits (by decide)
  | none =>
    cases b with
    | plain engine b => exact ⟨rfl, rfl, fun _ => trivial⟩
    | bracket b => exact ⟨rfl, rfl, fun ready => ready⟩
  | flattenEod =>
    cases b with
    | plain engine b =>
      refine ⟨?_, rfl, fun _ => trivial⟩
      simp only [onSignal, PaperBroker.onSignal]
      split
      · rfl
      · rfl
    | bracket b =>
      obtain ⟨same, ready⟩ := PaperBracketBroker.onSignal_flatten_same desk regime reason b
      exact ⟨same, rfl, fun before => ready before own⟩

/-- Both brokers treat the two entry signals alike. -/
theorem onSignal_entry (enters : sig.isEntry = true) (reason : String) (b : Broker) :
    b.onSignal desk regime sig reason =
      match b with
      | .plain engine b => .plain engine (b.onEntrySignal desk regime sig.dir reason)
      | .bracket b => .bracket (b.onEntrySignal desk regime sig.dir reason) := by
  cases sig with
  | buy => cases b <;> rfl
  | sell => cases b <;> rfl
  | none => exact absurd enters (by decide)
  | flattenEod => exact absurd enters (by decide)

/-- In warm-up an entry signal is only counted. -/
theorem onSignal_warm (enters : sig.isEntry = true) (reason : String) {b : Broker}
    (warm : b.warmup = true) :
    (b.onSignal desk regime sig reason).stance = b.stance ∧
      Kept b (b.onSignal desk regime sig reason) := by
  rw [onSignal_entry desk regime enters]
  cases b with
  | plain engine b =>
    exact ⟨PaperBroker.onEntrySignal_warm desk regime sig.dir reason warm, rfl, fun _ => trivial⟩
  | bracket b =>
    obtain ⟨same, on, asked⟩ :=
      PaperBracketBroker.onEntrySignal_warm desk regime sig.dir reason warm
    refine ⟨same, rfl, fun ready => ⟨fun waits => ?_, ?_⟩⟩
    · have waiting := congrArg (·.standing.waiting) same
      rw [on]
      exact ready.free (waiting.symm.trans_ne waits)
    · rw [asked]
      exact ready.own

/-- An entry signal that the broker takes is ordered. -/
theorem onSignal_takes (enters : sig.isEntry = true) (reason : String) {b : Broker}
    (ready : b.Ready) (accepted : b.accepts desk regime sig.dir = true) :
    Books [] b.stance (b.onSignal desk regime sig reason).stance ∧ b.standing.Fits sig.dir ∧
      (b.onSignal desk regime sig reason).standing = b.standing.order sig.dir ∧
      Kept b (b.onSignal desk regime sig reason) := by
  rw [onSignal_entry desk regime enters]
  cases b with
  | plain engine b =>
    obtain ⟨books, fits, ordered⟩ := PaperBroker.onEntrySignal_takes desk regime reason accepted
    exact ⟨books, fits, ordered, rfl, fun _ => trivial⟩
  | bracket b =>
    obtain ⟨books, fits, ordered, stillReady⟩ :=
      PaperBracketBroker.onEntrySignal_takes desk regime reason ready accepted
    exact ⟨books, fits, ordered, rfl, fun _ => stillReady⟩

end Broker

/-! ## The strategy's belief -/

/-- Whether a strategy may keep a belief that goes against a closed leg. -/
def Engine.turns (engine : Engine) : Bool := decide (engine.kind = .mtf)

/-- A strategy that is told of a closed leg follows it. -/
theorem Engine.notifyTradeFilled_follows (engine : Engine) {direction inPosition : OrbSignal}
    (closed : direction.isEntry = true) (named : inPosition ≠ .flattenEod) :
    (engine.notifyTradeFilled direction inPosition).dir =
        Standing.follow engine.turns inPosition.dir direction.dir ∧
      engine.notifyTradeFilled direction inPosition ≠ .flattenEod := by
  obtain ⟨kind, warmup⟩ := engine
  cases kind with
  | orb => exact ⟨(Standing.follow_plain _ _).symm, nofun⟩
  | trend hold => exact ⟨(Standing.follow_plain _ _).symm, nofun⟩
  | mtf =>
    cases direction with
    | none => exact absurd closed Bool.false_ne_true
    | flattenEod => exact absurd closed Bool.false_ne_true
    | buy =>
      cases inPosition with
      | flattenEod => exact absurd rfl named
      | none => exact ⟨rfl, nofun⟩
      | buy => exact ⟨rfl, nofun⟩
      | sell => exact ⟨rfl, nofun⟩
    | sell =>
      cases inPosition with
      | flattenEod => exact absurd rfl named
      | none => exact ⟨rfl, nofun⟩
      | buy => exact ⟨rfl, nofun⟩
      | sell => exact ⟨rfl, nofun⟩

/-- A release clears every engine. -/
theorem Engine.notifyTradeFilled_release (engine : Engine) (inPosition : OrbSignal) :
    engine.notifyTradeFilled .flattenEod inPosition = .none := by
  obtain ⟨kind, warmup⟩ := engine
  cases kind with
  | orb => rfl
  | trend hold => rfl
  | mtf => rfl

theorem PaperTradeRow.closedDir_isEntry (row : PaperTradeRow) : row.closedDir.isEntry = true := by
  rw [closedDir]
  split
  · rfl
  · rfl

/-! ## The runner -/

namespace Runner

/-- In hold mode the trend engine keeps its position over a reset. -/
def holds (r : Runner) : Bool := decide (r.broker.engine.kind = .trend true)

/-- The strategy believes in a position exactly when its broker holds one or has one
waiting, and then in the direction the broker is on its way to. -/
@[mk_iff]
structure Lockstep (r : Runner) : Prop where
  believes : r.strategyInPosition = true ↔
    (r.broker.standing.held ≠ 0 ∨ r.broker.standing.waiting ≠ 0 ∨ r.broker.standing.turning ≠ 0)
  direction : r.strategyInPosition = true → r.inPosition.dir = r.broker.standing.heading

instance (r : Runner) : Decidable r.Lockstep :=
  decidable_of_iff' _ (lockstep_iff ..)

/-- Lockstep, asked only outside warm-up. -/
def LiveLockstep (r : Runner) : Prop := r.broker.warmup = false → r.Lockstep
deriving Decidable

/-- When an event keeps the strategy in step: an entry is one the broker takes, a
reversal does not halt the broker, a session is reset over nothing the reset forgets,
and nothing waits where the host flattens. -/
def Heeds (r : Runner) (moment : SessionRegime × RunnerEvent) : Prop :=
  match moment.2 with
  | .quote _ => True
  | .tick t _ => r.broker.turnHalts r.desk t = false
  | .signal s =>
    s.sig.isEntry = true → r.mayEnter s.sig = true → r.broker.warmup = false →
      r.broker.accepts r.desk (some moment.1) s.sig.dir = true
  | .rollDay => r.holds = true ∨ r.broker.standing = Standing.rest
  | .warmRoll => r.holds = true ∨ r.broker.standing = Standing.rest
  | .endWarmup => True
  | .gap _ => r.gapResettable = true → r.holds = true ∨ r.broker.standing.waiting = 0
  | .halt => True
  | .enable => True
  | .flatten _ _ _ => r.broker.standing.waiting = 0 ∧ r.broker.standing.turning = 0

instance (r : Runner) (moment : SessionRegime × RunnerEvent) : Decidable (r.Heeds moment) :=
  match moment with
  | (_, .quote _) => isTrue trivial
  | (_, .tick _ _) => inferInstanceAs (Decidable (_ = _))
  | (_, .signal _) => inferInstanceAs (Decidable (_ → _))
  | (_, .rollDay) => inferInstanceAs (Decidable (_ ∨ _))
  | (_, .warmRoll) => inferInstanceAs (Decidable (_ ∨ _))
  | (_, .endWarmup) => isTrue trivial
  | (_, .gap _) => inferInstanceAs (Decidable (_ → _))
  | (_, .halt) => isTrue trivial
  | (_, .enable) => isTrue trivial
  | (_, .flatten _ _ _) => inferInstanceAs (Decidable (_ ∧ _))

/-- What carries lockstep over a run. In warm-up nothing waits, and only a position the
strategy was told of may be held. -/
structure InStep (r : Runner) : Prop where
  sound : r.broker.standing.Sound
  ready : r.broker.Ready
  named : r.inPosition ≠ .flattenEod
  live : r.broker.warmup = false → r.inPosition.dir = r.broker.standing.heading
  warm : r.broker.warmup = true → r.broker.standing = { held := r.broker.standing.held } ∧
    (r.broker.standing.held ≠ 0 →
      r.broker.engine.kind ≠ .mtf ∧ r.inPosition.dir = r.broker.standing.held)

theorem dir_ne_zero {sig : OrbSignal} (enters : sig.isEntry = true) : sig.dir ≠ 0 := by
  cases sig with
  | buy => decide
  | sell => decide
  | none => exact absurd enters Bool.false_ne_true
  | flattenEod => exact absurd enters Bool.false_ne_true

theorem inPosition_none_iff {inPosition : OrbSignal} (named : inPosition ≠ .flattenEod) :
    inPosition = .none ↔ inPosition.dir = 0 := by
  cases inPosition with
  | none => decide
  | buy => decide
  | sell => decide
  | flattenEod => exact absurd rfl named

variable {r : Runner}

/-- In step is in lockstep, out of warm-up. -/
theorem InStep.liveLockstep (inStep : r.InStep) : r.LiveLockstep := by
  intro isLive
  have follows := inStep.live isLive
  refine ⟨?_, fun _ => follows⟩
  have believes : r.strategyInPosition = true ↔ r.broker.standing.heading ≠ 0 := by
    rw [strategyInPosition, decide_eq_true_eq, ne_eq, inPosition_none_iff inStep.named, follows]
  rw [believes, ne_eq, Standing.heading_eq_zero_iff, Standing.eq_rest_iff]
  tauto

/-- What telling the strategy of closed trades does. -/
structure Told (rows : List PaperTradeRow) (r r' : Runner) : Prop where
  broker : r'.broker = r.broker
  named : r'.inPosition ≠ .flattenEod
  dir : r'.inPosition.dir = (rows.map (·.closedDir.dir)).foldl
    (Standing.follow r.broker.engine.turns) r.inPosition.dir

/-- A runner told of its own trade knows of it. -/
theorem onTradeClosed_told (row : PaperTradeRow) (own : r.broker.Own [row])
    (named : r.inPosition ≠ .flattenEod) : Told [row] r (r.onTradeClosed row) := by
  have told : ¬ (r.broker.engine.kind = .mtf ∧ row.exitReason = restartFlatten) := by
    rintro ⟨scalper, restart⟩
    exact own scalper row List.mem_cons_self restart
  obtain ⟨follows, stays⟩ := r.broker.engine.notifyTradeFilled_follows
    row.closedDir_isEntry named
  rw [onTradeClosed, if_neg told]
  exact ⟨rfl, stays, follows⟩

/-- The runner is told of each of its own rows in turn. -/
theorem foldl_told (rows : List PaperTradeRow) (own : r.broker.Own rows)
    (named : r.inPosition ≠ .flattenEod) : Told rows r (rows.foldl onTradeClosed r) := by
  induction rows generalizing r with
  | nil => exact ⟨rfl, named, rfl⟩
  | cons row rest ih =>
    have first : Told [row] r (r.onTradeClosed row) := by
      refine onTradeClosed_told row (fun scalper one inside => ?_) named
      exact own scalper one (List.mem_cons.mpr (Or.inl (List.mem_singleton.mp inside)))
    have later : (r.onTradeClosed row).broker.Own rest := by
      rw [first.broker]
      exact fun scalper one inside => own scalper one (List.mem_cons_of_mem row inside)
    obtain ⟨broker, stays, dir⟩ := ih later first.named
    refine ⟨broker.trans first.broker, stays, ?_⟩
    rw [List.foldl_cons, dir, first.broker, first.dir]
    rfl

/-- The strategy after a broker's step, told of the trades it closed. -/
theorem settleTo_told {rows : List PaperTradeRow} {next : Broker}
    (books : Books rows r.broker.stance next.stance) (own : r.broker.Own rows)
    (engine : next.engine = r.broker.engine) (named : r.inPosition ≠ .flattenEod) :
    (r.settleTo next).broker = next ∧ (r.settleTo next).inPosition ≠ .flattenEod ∧
      (r.settleTo next).inPosition.dir = (rows.map (·.closedDir.dir)).foldl
        (Standing.follow r.broker.engine.turns) r.inPosition.dir := by
  have ownNext : next.Own rows := fun scalper => own (engine ▸ scalper)
  obtain ⟨broker, stays, dir⟩ :=
    foldl_told rows (r := { r with broker := next }) ownNext named
  rw [settleTo, Broker.Books.closedSince books]
  refine ⟨broker, stays, dir.trans ?_⟩
  rw [engine]

/-! ### One event -/

/-- An event that shows the host the same broker and leaves the belief alone. -/
theorem InStep.of_same {r' : Runner} (inStep : r.InStep)
    (stance : r'.broker.stance = r.broker.stance) (kept : Broker.Kept r.broker r'.broker)
    (belief : r'.inPosition = r.inPosition) : r'.InStep := by
  have standing : r'.broker.standing = r.broker.standing := congrArg Stance.standing stance
  have warmup : r'.broker.warmup = r.broker.warmup := congrArg Stance.warmup stance
  constructor
  · rw [standing]
    exact inStep.sound
  · exact kept.ready inStep.ready
  · rw [belief]
    exact inStep.named
  · rw [standing, warmup, belief]
    exact inStep.live
  · rw [standing, warmup, belief, kept.engine]
    exact inStep.warm

/-- A tick of the broker, with the strategy told of what it closed. -/
theorem InStep.tick (inStep : r.InStep) (regime : Option SessionRegime) (t : OrbTick)
    (bracket : Bracket) (goesOn : r.broker.turnHalts r.desk t = false) :
    (r.settleTo (r.broker.onTick r.desk regime t bracket)).InStep := by
  obtain ⟨rows, plays, own, kept⟩ :=
    Broker.onTick_plays r.desk regime t bracket inStep.sound inStep.ready goesOn
  obtain ⟨broker, named, dir⟩ := settleTo_told plays.books own kept.engine inStep.named
  have moved : r.broker.standing.Moved (rows.map (·.closedDir.dir))
      (r.broker.onTick r.desk regime t bracket).standing := plays.moved
  have warmup : (r.broker.onTick r.desk regime t bracket).warmup = r.broker.warmup :=
    plays.books.warmup
  have able : r.broker.engine.turns = true ∨ r.broker.standing.turning = 0 := by
    by_cases scalper : r.broker.engine.kind = .mtf
    · exact Or.inl (decide_eq_true scalper)
    · exact Or.inr (Broker.turning_eq_zero scalper)
  constructor
  · rw [broker]
    exact moved.sound inStep.sound
  · rw [broker]
    exact kept.ready inStep.ready
  · exact named
  · intro isLive
    rw [broker] at isLive ⊢
    rw [dir, inStep.live (warmup.symm.trans isLive)]
    exact moved.follow able
  · intro isWarm
    rw [broker] at isWarm ⊢
    obtain ⟨alone, told⟩ := inStep.warm (warmup.symm.trans isWarm)
    rw [alone] at moved
    obtain ⟨none, stays⟩ | closed := moved.of_held
    · rw [stays, dir, none, kept.engine]
      exact ⟨rfl, told⟩
    · rw [closed]
      exact ⟨rfl, fun held => absurd rfl held⟩

/-- Flattening a runner for whom nothing waits. -/
theorem InStep.flatten (inStep : r.InStep) (why : HostFlatten) (tsUs : Int) (priceHint : ℚ)
    (settled : r.broker.standing.waiting = 0 ∧ r.broker.standing.turning = 0) :
    (r.flatten why tsUs priceHint).InStep := by
  obtain ⟨rows, books, legs, own, resting, kept⟩ :=
    Broker.flatten_books r.desk why tsUs priceHint r.broker
  obtain ⟨broker, named, dir⟩ := settleTo_told books own kept.engine inStep.named
  have warmup : (r.broker.flatten r.desk why.text tsUs priceHint).warmup = r.broker.warmup :=
    books.warmup
  rw [Runner.flatten]
  constructor
  · rw [broker, resting]
    exact Standing.rest_sound
  · rw [broker]
    exact kept.ready inStep.ready
  · exact named
  · intro isLive
    rw [broker] at isLive ⊢
    rw [dir, legs, inStep.live (warmup.symm.trans isLive), resting]
    exact Standing.follow_closing settled _
  · intro _
    rw [broker, resting]
    exact ⟨rfl, fun held => absurd rfl held⟩

/-- An engine of the plain broker that believes in a position does not enter. -/
theorem not_mayEnter (plain : r.broker.engine.kind ≠ .mtf) (sig : OrbSignal)
    (believes : r.inPosition ≠ .none) : r.mayEnter sig = false := by
  simp [mayEnter, strategyInPosition, plain, believes]

/-- One emission: an entry that the live broker takes, or one that moves nothing. -/
theorem InStep.emit (inStep : r.InStep) (regime : SessionRegime) (s : EngineSignal)
    (heeds : r.Heeds (regime, .signal s)) : (r.emit regime s).InStep := by
  rw [Runner.emit]
  split
  · next enters =>
    split
    · next may =>
      have named : s.sig ≠ .flattenEod := by
        intro isFlatten
        rw [isFlatten] at enters
        exact absurd enters Bool.false_ne_true
      cases isWarm : r.broker.warmup with
      | false =>
        obtain ⟨books, fits, ordered, kept⟩ := Broker.onSignal_takes r.desk (some regime) enters
          s.reason inStep.ready (heeds enters may isWarm)
        have warmup : (r.broker.onSignal r.desk (some regime) s.sig s.reason).warmup = false :=
          books.warmup.trans isWarm
        constructor
        · rw [ordered]
          exact Standing.order_sound inStep.sound (dir_ne_zero enters) fits
        · exact kept.ready inStep.ready
        · exact named
        · intro _
          rw [ordered]
          exact (Standing.order_heading (dir_ne_zero enters) fits).symm
        · exact fun warm => absurd (warmup.symm.trans warm) Bool.false_ne_true
      | true =>
        obtain ⟨same, kept⟩ :=
          Broker.onSignal_warm r.desk (some regime) enters s.reason isWarm
        have standing : (r.broker.onSignal r.desk (some regime) s.sig s.reason).standing =
            r.broker.standing := congrArg Stance.standing same
        have warmup : (r.broker.onSignal r.desk (some regime) s.sig s.reason).warmup = true :=
          (congrArg Stance.warmup same).trans isWarm
        constructor
        · rw [standing]
          exact inStep.sound
        · exact kept.ready inStep.ready
        · exact named
        · exact fun live => absurd (live.symm.trans warmup) Bool.false_ne_true
        · intro _
          rw [standing]
          obtain ⟨alone, told⟩ := inStep.warm isWarm
          refine ⟨alone, fun held => ?_⟩
          obtain ⟨plain, dir⟩ := told held
          have believes : r.inPosition ≠ .none := by
            rw [ne_eq, inPosition_none_iff inStep.named, dir]
            exact held
          exact absurd ((not_mayEnter plain s.sig believes).symm.trans may) Bool.false_ne_true
    · exact inStep
  · next exits =>
    obtain ⟨same, kept⟩ := Broker.onSignal_flatten r.desk (some regime)
      (Bool.not_eq_true _ ▸ exits) s.own r.broker
    exact inStep.of_same same kept rfl

/-- A broker at rest beside a strategy that believes in nothing. -/
theorem InStep.of_rest (resting : r.broker.standing = Standing.rest) (ready : r.broker.Ready)
    (none : r.inPosition = .none) : r.InStep := by
  constructor
  · rw [resting]
    exact Standing.rest_sound
  · exact ready
  · rw [none]
    exact nofun
  · intro _
    rw [resting, none]
    rfl
  · intro _
    rw [resting]
    exact ⟨rfl, fun held => absurd rfl held⟩

/-- A session reset with nothing to forget, or one that forgets no position. -/
theorem InStep.sReset (inStep : r.InStep)
    (heeds : r.holds = true ∨ r.broker.standing = Standing.rest) : r.sReset.InStep := by
  by_cases keeps : r.broker.engine.kind = .trend true
  · have same : r.broker.engine.resetSession r.inPosition = r.inPosition := by
      rw [Engine.resetSession, keeps]
    exact inStep.of_same rfl ⟨rfl, fun ready => ready⟩ same
  · have resting : r.broker.standing = Standing.rest :=
      heeds.resolve_left (fun holds => keeps (of_decide_eq_true holds))
    have cleared : r.broker.engine.resetSession r.inPosition = .none := by
      rw [Engine.resetSession]
      split
      · next holds => exact absurd holds keeps
      · rfl
    exact InStep.of_rest resting inStep.ready cleared

/-- Going live: whatever the strategy believes in with a flat broker is released. -/
theorem InStep.goLive (inStep : r.InStep) (isWarm : r.broker.warmup = true) :
    (r.setWarmup false).release.InStep := by
  obtain ⟨standing, live, kept⟩ := Broker.setWarmup_kept false r.broker
  obtain ⟨alone, told⟩ := inStep.warm isWarm
  have ready := kept.ready inStep.ready
  by_cases flat : r.broker.standing.held = 0
  · have resting : (r.broker.setWarmup false).standing = Standing.rest := by
      rw [standing, alone, flat]
      rfl
    rw [release]
    split
    · exact InStep.of_rest resting ready (Engine.notifyTradeFilled_release _ _)
    · next unasked =>
      have none : r.inPosition = .none := by
        by_contra believes
        exact unasked ⟨decide_eq_true believes, congrArg Standing.held resting⟩
      exact InStep.of_rest resting ready none
  · have held : ¬ ((r.setWarmup false).strategyInPosition = true ∧
        (r.setWarmup false).broker.posDir = 0) := by
      rintro ⟨_, none⟩
      exact flat (standing ▸ none)
    rw [release, if_neg held]
    constructor
    · rw [setWarmup, standing]
      exact inStep.sound
    · exact ready
    · exact inStep.named
    · intro _
      rw [setWarmup, standing, alone]
      exact (told flat).2.trans (Standing.heading_held _).symm
    · exact fun warm => absurd (live.symm.trans warm) Bool.false_ne_true

/-- In warm-up no emission reaches the broker's position. -/
theorem emit_warm (regime : SessionRegime) (s : EngineSignal) (isWarm : r.broker.warmup = true) :
    (r.emit regime s).broker.stance = r.broker.stance := by
  rw [Runner.emit]
  split
  · next enters =>
    split
    · exact (Broker.onSignal_warm r.desk (some regime) enters s.reason isWarm).1
    · rfl
  · next exits =>
    exact (Broker.onSignal_flatten r.desk (some regime) (Bool.not_eq_true _ ▸ exits) s.own
      r.broker).1

/-- History fed to a runner in warm-up keeps it in step, and in warm-up. -/
theorem InStep.replay (inStep : r.InStep) (regime : SessionRegime) (signals : List EngineSignal)
    (isWarm : r.broker.warmup = true) :
    (signals.foldl (fun r s => r.emit regime s) r).InStep ∧
      (signals.foldl (fun r s => r.emit regime s) r).broker.warmup = true := by
  induction signals generalizing r with
  | nil => exact ⟨inStep, isWarm⟩
  | cons s rest ih =>
    have heeds : r.Heeds (regime, .signal s) :=
      fun _ _ live => absurd (live.symm.trans isWarm) Bool.false_ne_true
    have still : (r.emit regime s).broker.warmup = true :=
      (congrArg Stance.warmup (emit_warm regime s isWarm)).trans isWarm
    exact ih (inStep.emit regime s heeds) still

/-- A session fed again to a resting runner keeps it in step. -/
theorem InStep.refeedOrb (resting : r.broker.standing = Standing.rest) (ready : r.broker.Ready)
    (none : r.inPosition = .none) (regime : SessionRegime) (signals : List EngineSignal) :
    (r.refeedOrb regime signals).InStep := by
  obtain ⟨standing, isWarm, kept⟩ := Broker.setWarmup_kept true r.broker
  have start : (r.setWarmup true).InStep :=
    InStep.of_rest (standing.trans resting) (kept.ready ready) none
  obtain ⟨inStep, warm⟩ := start.replay regime signals isWarm
  exact inStep.goLive warm

/-- Only a runner of the plain broker, and a flat one, restarts its session. -/
theorem flat_of_gapResettable (resettable : r.gapResettable = true) :
    r.broker.standing.held = 0 ∧ r.broker.standing.turning = 0 := by
  rw [gapResettable] at resettable
  cases plain : r.broker with
  | bracket b =>
    rw [plain] at resettable
    exact absurd resettable Bool.false_ne_true
  | plain engine b =>
    simp only [plain, Bool.and_eq_true, decide_eq_true_eq] at resettable
    exact ⟨resettable.1.1, rfl⟩

/-- A hole in the stream, with no entry waiting where the session is reset. -/
theorem InStep.gapReset (inStep : r.InStep) (regime : SessionRegime)
    (refeed : Option (List EngineSignal))
    (heeds : r.gapResettable = true → r.holds = true ∨ r.broker.standing.waiting = 0) :
    (r.gapReset regime refeed).InStep := by
  unfold Runner.gapReset
  by_cases resettable : r.gapResettable = true
  · rw [if_pos resettable]
    obtain ⟨flat, straight⟩ := flat_of_gapResettable resettable
    have restOr : r.holds = true ∨ r.broker.standing = Standing.rest :=
      (heeds resettable).imp_right
        (fun none => (Standing.eq_rest_iff _).mpr ⟨flat, none, straight⟩)
    split
    · next engine =>
      have orb : r.broker.engine.kind = .orb := by rw [engine]; rfl
      have forgets : r.holds = false := by
        rw [holds, orb]
        rfl
      have none : r.broker.engine.resetSession r.inPosition = .none := by
        rw [Engine.resetSession, orb]
      have resting : r.broker.standing = Standing.rest :=
        restOr.resolve_left (by rw [forgets]; exact Bool.false_ne_true)
      exact InStep.refeedOrb (r := r.sReset) resting inStep.ready none regime _
    · exact inStep.sReset restOr
  · rw [if_neg resettable]
    exact inStep

/-- Each event that heeds the condition keeps a runner in step. -/
theorem InStep.step {r : Runner} (inStep : r.InStep) (moment : SessionRegime × RunnerEvent)
    (heeds : r.Heeds moment) : (r.step moment).InStep := by
  obtain ⟨regime, event⟩ := moment
  cases event with
  | quote q =>
    obtain ⟨same, kept⟩ := Broker.onQuote_steady r.desk q r.broker
    exact inStep.of_same same kept rfl
  | tick t bracket => exact inStep.tick (some regime) t bracket heeds
  | signal s => exact inStep.emit regime s heeds
  | rollDay =>
    obtain ⟨same, kept⟩ := Broker.resetDay_steady r.broker
    exact (inStep.sReset heeds).of_same same kept rfl
  | warmRoll => exact inStep.sReset heeds
  | endWarmup =>
    simp only [Runner.step]
    split
    · next isWarm =>
      have live := inStep.goLive isWarm
      simp only [Runner.endWarmup]
      split
      · exact live.of_same rfl ⟨rfl, fun ready => ready⟩ rfl
      · exact live
    · exact inStep
  | gap refeed => exact inStep.gapReset regime _ heeds
  | halt => exact inStep.of_same rfl ⟨rfl, fun ready => ready⟩ rfl
  | enable =>
    simp only [Runner.step, Runner.enable]
    split
    · exact inStep
    · exact inStep.of_same rfl ⟨rfl, fun ready => ready⟩ rfl
  | flatten why tsUs priceHint => exact inStep.flatten why tsUs priceHint heeds

end Runner

/-! ## Runs from the start -/

/-- How a runner is started. -/
inductive Boot
  | plain (desk : PaperDesk) (seed : RunnerSeed) (engine : PlainEngine)
  | bracket (desk : PaperDesk) (seed : RunnerSeed) (allowFlips : Bool)

namespace Boot

def runner : Boot → Runner
  | .plain desk seed engine => Runner.startPlain desk seed engine
  | .bracket desk seed allowFlips => Runner.startBracket desk seed allowFlips

/-- The opening-range engine is not told of the position its broker resumes. -/
def Told : Boot → Prop
  | .plain _ seed engine => engine = .orb → seed.position.isNone = true
  | .bracket _ _ _ => True

instance (boot : Boot) : Decidable boot.Told :=
  match boot with
  | .plain _ _ _ => inferInstanceAs (Decidable (_ → _))
  | .bracket _ _ _ => isTrue trivial

/-- A saved position of the trend engine is one both sides start with. -/
theorem inStep_resumed (desk : PaperDesk) {seed : RunnerSeed} {p : OpenRow}
    (position : seed.position = some p) (hold : Bool) :
    (Runner.startPlain desk seed (.trend hold)).InStep := by
  have standing : (Runner.startPlain desk seed (.trend hold)).broker.standing =
      { held := p.direction } := by
    simp only [Runner.startPlain, position]
    rfl
  have belief : (Runner.startPlain desk seed (.trend hold)).inPosition =
      if p.direction > 0 then .buy else .sell := by
    simp only [Runner.startPlain, position]
  have dir : (Runner.startPlain desk seed (.trend hold)).inPosition.dir = p.direction := by
    rw [belief]
    obtain long | short := dir_cases p.some
    · rw [long]
      rfl
    · rw [short]
      rfl
  constructor
  · rw [standing]
    exact ⟨Or.inr rfl, fun turning => absurd rfl turning⟩
  · trivial
  · rw [belief]
    split
    · exact nofun
    · exact nofun
  · intro _
    rw [dir, standing, Standing.heading_held]
  · intro _
    rw [standing]
    exact ⟨rfl, fun _ => ⟨nofun, dir⟩⟩

/-- Every runner starts in step, the opening-range engine's unless a position of its
was resumed. -/
theorem inStep {boot : Boot} (told : boot.Told) : boot.runner.InStep := by
  cases boot with
  | plain desk seed engine =>
    cases position : seed.position with
    | none =>
      refine Runner.InStep.of_rest ?_ trivial ?_
      · simp only [runner, Runner.startPlain, position]
        rfl
      · simp only [runner, Runner.startPlain, position]
    | some p =>
      cases engine with
      | orb =>
        have none := told rfl
        rw [position] at none
        exact absurd none Bool.false_ne_true
      | trend hold => exact inStep_resumed desk position hold
  | bracket desk seed allowFlips =>
    cases position : seed.position with
    | none =>
      refine Runner.InStep.of_rest ?_ ⟨fun waits => ?_, ?_⟩ rfl
      · simp only [runner, Runner.startBracket, position]
        rfl
      · simp only [position] at waits
        exact absurd rfl waits
      · simp only [position]
        exact empty_ne_restartFlatten
    | some p =>
      obtain ⟨resting, ready⟩ := PaperBracketBroker.flatten_rests desk restartFlatten seed.nowUs 0
        (PaperBracketBroker.resumePosition p.direction p.qty p.entryPrice p.stopPrice
          p.entryTimeUs { PaperBracketBroker.fresh desk with
            risk := ((PaperBracketBroker.fresh desk).risk.seedTotalProfit
              seed.totalPnl).seedDailyPnl
              seed.dayPnl })
      refine Runner.InStep.of_rest ?_ ⟨?_, ?_⟩ rfl
      · simp only [runner, Runner.startBracket, position]
        exact resting
      · simp only [position]
        exact ready.free
      · simp only [position]
        exact ready.own

/-- Started without a position the strategy was not told of, a runner is in lockstep
outside warm-up after every event of a run whose events heed the condition. -/
theorem lockstep_of_heeded (boot : Boot) (told : boot.Told)
    (moments : List (SessionRegime × RunnerEvent))
    (heeded : Runs.Along Runner.step Runner.Heeds boot.runner moments) :
    boot.runner.LiveLockstep ∧
      Runs.Along Runner.step (fun r moment => (r.step moment).LiveLockstep) boot.runner moments :=
  ⟨(inStep told).liveLockstep,
    Runs.along_of_invariant Runner.step Runner.InStep
      (fun _ moment start heeds => (start.step moment heeds).liveLockstep)
      (fun _ moment start heeds => start.step moment heeds) boot.runner moments
        (inStep told) heeded⟩

/-! ## Two runs -/

/-- A tick of the regular session at 10:00 Eastern, some seconds later. -/
def tenAm (secs : Int) (price : ℚ) : RunnerEvent :=
  .tick { tsMicros := 1746021600000000 + secs * 1000000, price := price } {}

def breakoutLong : EngineSignal where
  sig := .buy
  reason := "orb_breakout_long"
  own := by decide

/-- An entry that is taken, filled and stopped out. -/
theorem follows_stopped_entry :
    Runs.Along Runner.step (fun r moment => (r.step moment).LiveLockstep)
      (Boot.plain {} {} .orb).runner
      [({}, tenAm 0 20000), ({}, .signal breakoutLong), ({}, tenAm 1 20001),
        ({}, tenAm 2 19900)] :=
  (lockstep_of_heeded (.plain {} {} .orb) (by decide) _ (by decide +kernel)).2

/-- The opening-range engine with a spread gate, before the first quote. -/
def gatedDesk : PaperDesk where
  cfg := { spreadGateTicks := 2 }

/-- A refused entry leaves the strategy in a position that its broker does not have. -/
theorem refused_entry_parts :
    ¬ ∀ (boot : Boot) (moments : List (SessionRegime × RunnerEvent)),
      boot.runner.LiveLockstep ∧
        Runs.Along Runner.step (fun r moment => (r.step moment).LiveLockstep) boot.runner
          moments := by
  intro always
  have step := (always (.plain gatedDesk {} .orb)
    [({}, tenAm 0 20000), ({}, .signal breakoutLong)]).2
  revert step
  decide +kernel

end Boot

end RithmicEngine
