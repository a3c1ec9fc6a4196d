import RithmicEngine.Paper.PaperEngine
/-!
# The account's halt

The close callback latches the halt of the account that a close calls for. The re-check
that is to flatten the fleet asks first whether the account is latched, so after such a
close it does nothing: the fleet stays as it is until the next rollover. It is halted
then only where it was already, and where the close was the last of what it held.
-/
namespace RithmicEngine

open Stance (Books Plays)

/-! ## Runners that are halted -/

namespace Broker

/-- Exactly these trades were closed between two states. -/
def Closes (rows : List PaperTradeRow) (b b' : Broker) : Prop :=
  ∃ effects, b'.outbox = b.outbox ++ effects ∧ effects.filterMap PaperBroker.closedRow = rows

theorem Closes.of_same {b b' : Broker} (same : b'.outbox = b.outbox) : Closes [] b b' :=
  ⟨[], same.trans (List.append_nil _).symm, rfl⟩

/-- Closed trades of two steps, one after the other. -/
theorem Closes.trans {first second : List PaperTradeRow} {b b' b'' : Broker}
    (before : Closes first b b') (after : Closes second b' b'') :
    Closes (first ++ second) b b'' := by
  obtain ⟨early, earlier, closedEarly⟩ := before
  obtain ⟨late, later, closedLate⟩ := after
  refine ⟨early ++ late, ?_, ?_⟩
  · rw [later, earlier, List.append_assoc]
  · rw [List.filterMap_append, closedEarly, closedLate]

theorem Closes.closed {rows : List PaperTradeRow} {b b' : Broker} (closes : Closes rows b b') :
    b.closedSince b' = rows := by
  obtain ⟨effects, longer, closed⟩ := closes
  rw [closedSince, longer, List.drop_left, closed]

/-- A tick of a broker for which nothing waits. -/
theorem onTick_held (desk : PaperDesk) (regime : Option SessionRegime) (t : OrbTick)
    (bracket : Bracket) {b : Broker} (alone : b.standing = { held := b.standing.held }) :
    ∃ rows, Plays rows b.stance (b.onTick desk regime t bracket).stance := by
  have sound : b.standing.Sound := by
    rw [alone]
    exact ⟨Or.inr rfl, fun turns => absurd rfl turns⟩
  cases b with
  | plain engine b => exact PaperBroker.onTick_plays desk regime t sound
  | bracket b =>
    have none : b.pendingDir = 0 := congrArg Standing.waiting alone
    have straight : b.pendingFlip = 0 := congrArg Standing.turning alone
    obtain ⟨rows, plays, _⟩ := PaperBracketBroker.onTick_plays desk t bracket sound
      (fun waits => absurd none waits) (fun turns => absurd straight turns)
    exact ⟨rows, plays⟩

end Broker

/-- The events that no halt is lifted by. -/
def RunnerEvent.keepsHalt : RunnerEvent → Bool
  | .rollDay => false
  | .warmRoll => false
  | .enable => false
  | .quote _ => true
  | .tick _ _ => true
  | .signal _ => true
  | .endWarmup => true
  | .gap _ => true
  | .halt => true
  | .flatten _ _ _ => true

namespace Runner

/-- Halted, with nothing held and nothing waiting. -/
@[mk_iff]
structure Quiet (r : Runner) : Prop where
  halted : r.riskHalted = true
  resting : r.broker.standing = Standing.rest

instance (r : Runner) : Decidable r.Quiet :=
  decidable_of_iff' _ (quiet_iff ..)

/-- Halted, with nothing waiting; a position may still be held. -/
@[mk_iff]
structure Winding (r : Runner) : Prop where
  halted : r.riskHalted = true
  alone : r.broker.standing = { held := r.broker.standing.held }

instance (r : Runner) : Decidable r.Winding :=
  decidable_of_iff' _ (winding_iff ..)

theorem Quiet.winding {r : Runner} (quiet : r.Quiet) : r.Winding where
  halted := quiet.halted
  alone := by
    rw [quiet.resting]
    rfl

/-- What events do to a winding runner: nothing the host could see, or its position
closes. -/
structure Winds (r r' : Runner) (rows : List PaperTradeRow) : Prop where
  winding : r'.Winding
  closes : Broker.Closes rows r.broker r'.broker
  outcome : (rows = [] ∧ r'.broker.standing = r.broker.standing) ∨
    (r.broker.standing.held ≠ 0 ∧ r'.broker.standing = Standing.rest)

theorem Winds.of_same {r r' : Runner} (winding : r.Winding) (halted : r'.riskHalted = true)
    (standing : r'.broker.standing = r.broker.standing)
    (outbox : r'.broker.outbox = r.broker.outbox) : Winds r r' [] where
  winding := by
    refine ⟨halted, ?_⟩
    rw [standing]
    exact winding.alone
  closes := Broker.Closes.of_same outbox
  outcome := Or.inl ⟨rfl, standing⟩

/-- Telling a runner of closed trades leaves its broker, its halt and its desk. -/
theorem foldl_onTradeClosed_keeps (rows : List PaperTradeRow) (r : Runner) :
    (rows.foldl onTradeClosed r).broker = r.broker ∧
      (rows.foldl onTradeClosed r).riskHalted = r.riskHalted ∧
      (rows.foldl onTradeClosed r).desk = r.desk := by
  induction rows generalizing r with
  | nil => exact ⟨rfl, rfl, rfl⟩
  | cons row rest ih =>
    obtain ⟨broker, halted, desk⟩ := ih (r.onTradeClosed row)
    have one : (r.onTradeClosed row).broker = r.broker ∧
        (r.onTradeClosed row).riskHalted = r.riskHalted ∧
        (r.onTradeClosed row).desk = r.desk := by
      rw [onTradeClosed]
      split
      · exact ⟨rfl, rfl, rfl⟩
      · exact ⟨rfl, rfl, rfl⟩
    exact ⟨broker.trans one.1, halted.trans one.2.1, desk.trans one.2.2⟩

theorem settleTo_keeps (next : Broker) (r : Runner) :
    (r.settleTo next).broker = next ∧ (r.settleTo next).riskHalted = r.riskHalted := by
  obtain ⟨broker, halted, _⟩ :=
    foldl_onTradeClosed_keeps (r.broker.closedSince next) { r with broker := next }
  exact ⟨broker, halted⟩

/-- A broker's step that closes the position or moves nothing. -/
theorem Winds.settleTo {r : Runner} (winding : r.Winding) {next : Broker}
    {rows : List PaperTradeRow} (books : Books rows r.broker.stance next.stance)
    (outcome : (rows = [] ∧ next.standing = r.broker.standing) ∨
      (r.broker.standing.held ≠ 0 ∧ next.standing = Standing.rest)) :
    Winds r (r.settleTo next) rows := by
  obtain ⟨broker, halted⟩ := settleTo_keeps next r
  refine ⟨⟨halted.trans winding.halted, ?_⟩, ?_, ?_⟩
  · rw [broker]
    obtain ⟨_, same⟩ | ⟨_, resting⟩ := outcome
    · rw [same]
      exact winding.alone
    · rw [resting]
      rfl
  · rw [broker]
    exact books.outbox
  · rw [broker]
    exact outcome

/-- A tick winds a halted runner down: it may close its position and opens none. -/
theorem winds_tick {r : Runner} (winding : r.Winding) (regime : Option SessionRegime)
    (t : OrbTick) (bracket : Bracket) :
    ∃ rows, Winds r (r.settleTo (r.broker.onTick r.desk regime t bracket)) rows := by
  obtain ⟨rows, plays⟩ := Broker.onTick_held r.desk regime t bracket winding.alone
  have moved : r.broker.standing.Moved (rows.map (·.closedDir.dir))
      (r.broker.onTick r.desk regime t bracket).standing := plays.moved
  refine ⟨rows, Winds.settleTo winding plays.books ?_⟩
  by_cases flat : r.broker.standing.held = 0
  · have resting : r.broker.standing = Standing.rest := by
      rw [winding.alone, flat]
      rfl
    rw [resting] at moved ⊢
    obtain ⟨none, still⟩ := moved.of_rest
    exact Or.inl ⟨List.map_eq_nil_iff.mp none, still⟩
  · rw [winding.alone] at moved
    obtain ⟨none, still⟩ | closed := moved.of_held
    · exact Or.inl ⟨List.map_eq_nil_iff.mp none, still.trans winding.alone.symm⟩
    · exact Or.inr ⟨flat, closed⟩

/-- A flatten of a winding runner closes its position, or finds none. -/
theorem winds_flatten {r : Runner} (winding : r.Winding) (why : HostFlatten) (tsUs : Int)
    (priceHint : ℚ) : ∃ rows, Winds r (r.flatten why tsUs priceHint) rows := by
  obtain ⟨rows, books, legs, _, resting, _⟩ :=
    Broker.flatten_books r.desk why tsUs priceHint r.broker
  refine ⟨rows, Winds.settleTo winding books ?_⟩
  by_cases flat : r.broker.standing.held = 0
  · rw [Standing.closing, if_pos flat] at legs
    refine Or.inl ⟨List.map_eq_nil_iff.mp legs, ?_⟩
    rw [resting, winding.alone, flat]
    rfl
  · exact Or.inr ⟨flat, resting⟩

/-- A halted strategy enters nothing. -/
theorem winds_emit {r : Runner} (winding : r.Winding) (regime : SessionRegime)
    (s : EngineSignal) : Winds r (r.emit regime s) [] := by
  have refuses : r.mayEnter s.sig = false := by
    simp [mayEnter, winding.halted]
  rw [emit]
  split
  · rw [if_neg (by rw [refuses]; exact Bool.false_ne_true)]
    exact Winds.of_same winding winding.halted rfl rfl
  · next exits =>
    obtain ⟨same, _⟩ := Broker.onSignal_flatten r.desk (some regime)
      (Bool.not_eq_true _ ▸ exits) s.own r.broker
    exact Winds.of_same winding winding.halted (congrArg Stance.standing same)
      (congrArg Stance.outbox same)

/-- The end of the warm-up leaves the standing and the rows, and a halt. -/
theorem endWarmup_keeps (r : Runner) :
    r.endWarmup.broker.standing = r.broker.standing ∧
      r.endWarmup.broker.outbox = r.broker.outbox ∧
      (r.riskHalted = true → r.endWarmup.riskHalted = true) := by
  have warm : (r.setWarmup false).broker.standing = r.broker.standing ∧
      (r.setWarmup false).broker.outbox = r.broker.outbox := by
    rw [setWarmup]
    cases r.broker with
    | plain engine b => exact ⟨rfl, rfl⟩
    | bracket b => exact ⟨rfl, rfl⟩
  have released : (r.setWarmup false).release.broker = (r.setWarmup false).broker ∧
      (r.setWarmup false).release.riskHalted = r.riskHalted := by
    rw [release]
    split
    · exact ⟨rfl, rfl⟩
    · exact ⟨rfl, rfl⟩
  simp only [endWarmup]
  split
  · refine ⟨?_, ?_, fun _ => rfl⟩
    · rw [sHalt, released.1]
      exact warm.1
    · rw [sHalt, released.1]
      exact warm.2
  · refine ⟨?_, ?_, fun halted => released.2.trans halted⟩
    · rw [released.1]
      exact warm.1
    · rw [released.1]
      exact warm.2

theorem gapReset_of_not_resettable {r : Runner} (stays : r.gapResettable = false)
    (regime : SessionRegime) (refeed : Option (List EngineSignal)) :
    r.gapReset regime refeed = r := by
  unfold gapReset
  exact if_neg (by rw [stays]; exact Bool.false_ne_true)

/-- No event that keeps the halt lets a winding runner take anything on. -/
theorem winds_step {r : Runner} (winding : r.Winding) (regime : SessionRegime)
    {event : RunnerEvent} (keeps : event.keepsHalt = true) :
    ∃ rows, Winds r (r.step (regime, event)) rows := by
  cases event with
  | quote q =>
    obtain ⟨same, _⟩ := Broker.onQuote_steady r.desk q r.broker
    exact ⟨[], Winds.of_same winding winding.halted (congrArg Stance.standing same)
      (congrArg Stance.outbox same)⟩
  | tick t bracket => exact winds_tick winding (some regime) t bracket
  | signal s => exact ⟨[], winds_emit winding regime s⟩
  | rollDay => exact absurd keeps Bool.false_ne_true
  | warmRoll => exact absurd keeps Bool.false_ne_true
  | endWarmup =>
    obtain ⟨standing, outbox, halted⟩ := endWarmup_keeps r
    simp only [step]
    split
    · exact ⟨[], Winds.of_same winding (halted winding.halted) standing outbox⟩
    · exact ⟨[], Winds.of_same winding winding.halted rfl rfl⟩
  | gap refeed =>
    have stays : r.gapResettable = false := by
      rw [gapResettable]
      split
      · rfl
      · rw [winding.halted, Bool.not_true, Bool.and_false]
    have same : r.step (regime, .gap refeed) = r := gapReset_of_not_resettable stays _ _
    rw [same]
    exact ⟨[], Winds.of_same winding winding.halted rfl rfl⟩
  | halt => exact ⟨[], Winds.of_same winding rfl rfl rfl⟩
  | enable => exact absurd keeps Bool.false_ne_true
  | flatten why tsUs priceHint => exact winds_flatten winding why tsUs priceHint

/-- A winding runner served with events that keep its halt. -/
theorem winds_run {r : Runner} (winding : r.Winding) (regime : SessionRegime)
    (events : List RunnerEvent) (keep : ∀ event ∈ events, event.keepsHalt = true) :
    ∃ rows, Winds r (Runs.run step r (events.map (fun event => (regime, event)))) rows := by
  induction events generalizing r with
  | nil => exact ⟨[], Winds.of_same winding winding.halted rfl rfl⟩
  | cons event rest ih =>
    obtain ⟨first, one⟩ := winds_step winding regime (keep event List.mem_cons_self)
    obtain ⟨later, all⟩ :=
      ih one.winding (fun other inside => keep other (List.mem_cons_of_mem event inside))
    refine ⟨first ++ later, all.winding, one.closes.trans all.closes, ?_⟩
    rw [List.map_cons, Runs.run_cons]
    obtain ⟨none, same⟩ | ⟨held, closed⟩ := one.outcome
    · obtain ⟨still, standing⟩ | ⟨held, closed⟩ := all.outcome
      · rw [none, still]
        exact Or.inl ⟨rfl, standing.trans same⟩
      · rw [same] at held
        exact Or.inr ⟨held, closed⟩
    · obtain ⟨_, standing⟩ | ⟨open_, _⟩ := all.outcome
      · exact Or.inr ⟨held, standing.trans closed⟩
      · rw [closed] at open_
        exact absurd rfl open_

/-- A quiet runner stays quiet and closes nothing. -/
theorem Quiet.run {r : Runner} (quiet : r.Quiet) (regime : SessionRegime)
    (events : List RunnerEvent) (keep : ∀ event ∈ events, event.keepsHalt = true) :
    (Runs.run step r (events.map (fun event => (regime, event)))).Quiet ∧
      r.broker.closedSince
        (Runs.run step r (events.map (fun event => (regime, event)))).broker = [] := by
  obtain ⟨rows, winds⟩ := winds_run quiet.winding regime events keep
  rw [winds.closes.closed]
  obtain ⟨none, same⟩ | ⟨held, _⟩ := winds.outcome
  · exact ⟨⟨winds.winding.halted, same.trans quiet.resting⟩, none⟩
  · rw [quiet.resting] at held
    exact absurd rfl held

/-- Halting and flattening a runner quiets it, whatever it held. -/
theorem quiet_of_haltFlatten (r : Runner) (regime : SessionRegime) (why : HostFlatten)
    (tsUs : Int) (priceHint : ℚ) :
    (Runs.run step r
      ([.halt, .flatten why tsUs priceHint].map (fun event => (regime, event)))).Quiet := by
  obtain ⟨_, _, _, _, resting, _⟩ :=
    Broker.flatten_books r.sHalt.desk why tsUs priceHint r.sHalt.broker
  obtain ⟨broker, halted⟩ := settleTo_keeps
    (r.sHalt.broker.flatten r.sHalt.desk why.text tsUs priceHint) r.sHalt
  refine ⟨halted, ?_⟩
  exact (congrArg Broker.standing broker).trans resting

end Runner

/-! ## The fleet -/

namespace PaperEngine

/-- Every runner halted, flat and with nothing waiting. -/
def Quiet (x : PaperEngine) : Prop := ∀ r ∈ x.runners, r.Quiet
deriving Decidable

/-- Every runner halted with nothing waiting, and one position at most in the fleet. -/
structure Winding (x : PaperEngine) : Prop where
  all : ∀ r ∈ x.runners, r.Winding
  one : x.runners.Pairwise
    (fun r r' => r.broker.standing = Standing.rest ∨ r'.broker.standing = Standing.rest)

instance (x : PaperEngine) : Decidable x.Winding :=
  decidable_of_iff ((∀ r ∈ x.runners, r.Winding) ∧ x.runners.Pairwise
      (fun r r' => r.broker.standing = Standing.rest ∨ r'.broker.standing = Standing.rest))
    ⟨fun parts => ⟨parts.1, parts.2⟩, fun winding => ⟨winding.all, winding.one⟩⟩

/-- A halt reason was returned between two states. -/
def Breaches (x y : PaperEngine) : Prop := x.returned.length < y.returned.length
deriving Decidable

/-- What booking trades does to the engine around the account. -/
structure Booked (x y : PaperEngine) : Prop where
  runners : y.runners = x.runners
  curDate : y.curDate = x.curDate
  warmDate : y.warmDate = x.warmDate
  warmingUp : y.warmingUp = x.warmingUp
  latch : x.account.halted = true → y.account.halted = true
  breach : Breaches x y → y.account.halted = true

/-- Booking one trade halts the account on a breach. -/
theorem bookClose_booked (x : PaperEngine) (row : PaperTradeRow) : Booked x (x.bookClose row) := by
  simp only [bookClose]
  split
  · exact ⟨rfl, rfl, rfl, rfl, fun halted => halted, fun more => absurd more (Nat.lt_irrefl _)⟩
  · next reason =>
    have latched : decide ((x.account.onTradeClose row.pnlUsd).2 ≠ "") = true :=
      decide_eq_true reason
    exact ⟨rfl, rfl, rfl, rfl, fun _ => latched, fun _ => latched⟩

/-- Booking rows one by one books them all. -/
theorem foldl_booked (rows : List PaperTradeRow) (x : PaperEngine) :
    Booked x (rows.foldl bookClose x) := by
  induction rows generalizing x with
  | nil =>
    exact ⟨rfl, rfl, rfl, rfl, fun halted => halted, fun more => absurd more (Nat.lt_irrefl _)⟩
  | cons row rest ih =>
    have one := bookClose_booked x row
    have all := ih (x.bookClose row)
    refine ⟨all.runners.trans one.runners, all.curDate.trans one.curDate,
      all.warmDate.trans one.warmDate, all.warmingUp.trans one.warmingUp,
      fun halted => all.latch (one.latch halted), fun more => ?_⟩
    by_cases first : Breaches x (x.bookClose row)
    · exact all.latch (one.breach first)
    · exact all.breach (lt_of_le_of_lt (Nat.not_lt.mp first) more)

variable (plan : Nat → Runner → List RunnerEvent)

/-- The trades that serving the fleet closes. -/
def closedBy (x : PaperEngine) : List (List PaperTradeRow) :=
  x.runners.mapIdx (fun i r => r.broker.closedSince (serve plan x.regime i r).broker)

theorem visit_booked (x : PaperEngine) :
    Booked { x with runners := (x.visit plan).runners } (x.visit plan) := by
  have booked := foldl_booked (x.closedBy plan).flatten x
  exact ⟨rfl, booked.curDate, booked.warmDate, booked.warmingUp, booked.latch, booked.breach⟩

/-- Where serving the fleet closes nothing, the account hears nothing. -/
theorem visit_silent {x : PaperEngine} (silent : ∀ rows ∈ x.closedBy plan, rows = []) :
    (x.visit plan).account = x.account ∧ (x.visit plan).returned = x.returned := by
  have none : (x.closedBy plan).flatten = [] := List.flatten_eq_nil_iff.mpr silent
  have unheard : x.visit plan = { x with runners := x.runners.mapIdx (serve plan x.regime) } := by
    simp only [visit]
    rw [show x.runners.mapIdx (fun i r =>
      r.broker.closedSince (serve plan x.regime i r).broker) = x.closedBy plan from rfl, none,
      List.foldl_nil]
  rw [unheard]
  exact ⟨rfl, rfl⟩

/-- A quiet fleet served with events that keep the halts. -/
theorem Quiet.visit {x : PaperEngine} (quiet : x.Quiet)
    (keep : ∀ i r, ∀ event ∈ plan i r, event.keepsHalt = true) :
    (x.visit plan).Quiet ∧ (x.visit plan).account = x.account ∧
      (x.visit plan).returned = x.returned := by
  refine ⟨?_, visit_silent plan ?_⟩
  · intro r inside
    obtain ⟨i, here, rfl⟩ := List.mem_mapIdx.mp inside
    exact ((quiet _ (List.getElem_mem here)).run x.regime _ (keep i _)).1
  · intro rows inside
    obtain ⟨i, here, rfl⟩ := List.mem_mapIdx.mp inside
    exact ((quiet _ (List.getElem_mem here)).run x.regime _ (keep i _)).2

/-- In a winding fleet a close that breaches a limit was the last of what it held. -/
theorem Winding.visit {x : PaperEngine} (winding : x.Winding)
    (keep : ∀ i r, ∀ event ∈ plan i r, event.keepsHalt = true)
    (breach : Breaches x (x.visit plan)) : (x.visit plan).Quiet := by
  obtain ⟨rows, among, some⟩ : ∃ rows ∈ x.closedBy plan, rows ≠ [] := by
    by_contra none
    push Not at none
    have same := (visit_silent plan none).2
    rw [Breaches, same] at breach
    exact Nat.lt_irrefl _ breach
  obtain ⟨i, here, rfl⟩ := List.mem_mapIdx.mp among
  obtain ⟨closed, winds⟩ :=
    Runner.winds_run (winding.all _ (List.getElem_mem here)) x.regime _ (keep i x.runners[i])
  have closes : closed ≠ [] := by
    rw [← winds.closes.closed]
    exact some
  obtain ⟨held, rests⟩ := winds.outcome.resolve_left (fun stays => closes stays.1)
  intro r inside
  obtain ⟨j, there, rfl⟩ := List.mem_mapIdx.mp inside
  by_cases resting : x.runners[j].broker.standing = Standing.rest
  · have quiet : x.runners[j].Quiet := ⟨(winding.all _ (List.getElem_mem there)).halted, resting⟩
    exact (quiet.run x.regime _ (keep j _)).1
  · have unrested : x.runners[i].broker.standing ≠ Standing.rest := by
      intro rest
      rw [rest] at held
      exact held rfl
    have apart := List.pairwise_iff_getElem.mp winding.one
    have same : j = i := by
      obtain before | same | after := Nat.lt_trichotomy j i
      · exact absurd (apart j i there here before) (not_or.mpr ⟨resting, unrested⟩)
      · exact same
      · exact absurd (apart i j here there after) (not_or.mpr ⟨unrested, resting⟩)
    subst same
    exact ⟨winds.winding.halted, rests⟩

/-- Events that close no trade, whatever the runner holds. -/
def Silent (event : RunnerEvent) : Prop :=
  event = .rollDay ∨ event = .warmRoll ∨ event = .endWarmup ∨ event = .enable

/-- A silent event sends nothing. -/
theorem silent_step (r : Runner) (regime : SessionRegime) {event : RunnerEvent}
    (silent : Silent event) : (r.step (regime, event)).broker.outbox = r.broker.outbox := by
  obtain rfl | rfl | rfl | rfl := silent
  · exact congrArg Stance.outbox (Broker.resetDay_steady r.broker).1
  · rfl
  · simp only [Runner.step]
    split
    · exact (Runner.endWarmup_keeps r).2.1
    · rfl
  · simp only [Runner.step, Runner.enable]
    split
    · rfl
    · rfl

/-- Silent events send nothing. -/
theorem silent_run (r : Runner) (regime : SessionRegime) (events : List RunnerEvent)
    (silent : ∀ event ∈ events, Silent event) :
    (Runs.run Runner.step r (events.map (fun event => (regime, event)))).broker.outbox =
      r.broker.outbox := by
  induction events generalizing r with
  | nil => rfl
  | cons event rest ih =>
    exact (ih _ (fun other inside => silent other (List.mem_cons_of_mem event inside))).trans
      (silent_step r regime (silent event List.mem_cons_self))

/-- The account does not hear of silent events. -/
theorem visit_of_silent (x : PaperEngine) (silent : ∀ i r, ∀ event ∈ plan i r, Silent event) :
    (x.visit plan).account = x.account ∧ (x.visit plan).returned = x.returned := by
  refine visit_silent plan (fun rows inside => ?_)
  obtain ⟨i, here, rfl⟩ := List.mem_mapIdx.mp inside
  exact (Broker.Closes.of_same (silent_run x.runners[i] x.regime _ (silent i _))).closed

/-- Halting the account quiets the fleet, whatever it held. -/
theorem haltAll_quiet {reason : String} (some : reason ≠ "") (marks : Marks) (x : PaperEngine) :
    (x.haltAll reason marks).Quiet ∧ (x.haltAll reason marks).account.halted = true ∧
      (x.haltAll reason marks).curDate = x.curDate := by
  have booked := visit_booked
    (fun i _ => [.halt, .flatten .accountHalt marks.nowUs (marks.lastPrice i)])
    { x with account := x.account.setHalt reason }
  refine ⟨?_, booked.latch (decide_eq_true some), booked.curDate⟩
  intro r inside
  obtain ⟨i, here, rfl⟩ := List.mem_mapIdx.mp inside
  exact Runner.quiet_of_haltFlatten x.runners[i] x.regime .accountHalt marks.nowUs
    (marks.lastPrice i)

/-! ### Rollovers -/

/-- The account, what it returned and its trading day are left alone. -/
structure Undisturbed (x y : PaperEngine) : Prop where
  account : y.account = x.account
  returned : y.returned = x.returned
  curDate : y.curDate = x.curDate

theorem Undisturbed.refl (x : PaperEngine) : Undisturbed x x := ⟨rfl, rfl, rfl⟩

theorem Undisturbed.not_breaches {x y : PaperEngine} (same : Undisturbed x y) :
    ¬ Breaches x y := by
  rw [Breaches, same.returned]
  exact Nat.lt_irrefl _

theorem visit_undisturbed {x : PaperEngine} (silent : ∀ i r, ∀ event ∈ plan i r, Silent event) :
    Undisturbed x (x.visit plan) := by
  obtain ⟨account, returned⟩ := visit_of_silent plan x silent
  exact ⟨account, returned, (visit_booked plan x).curDate⟩

/-- Rolling a day in the warm-up disturbs no runner. -/
theorem warmRollTo_undisturbed (date : String) (atr : ℚ) (x : PaperEngine) :
    Undisturbed x (x.warmRollTo date atr) ∧ (x.warmRollTo date atr).warmingUp = x.warmingUp := by
  rw [warmRollTo]
  split
  · exact ⟨Undisturbed.refl x, rfl⟩
  · have silent : ∀ (_ : Nat) (_ : Runner), ∀ event ∈ [RunnerEvent.warmRoll], Silent event := by
      intro _ _ event inside
      exact Or.inr (Or.inl (List.mem_singleton.mp inside))
    obtain ⟨account, returned, curDate⟩ := visit_undisturbed (fun _ _ => [.warmRoll]) silent
      (x := { x with warmDate := date, regime := x.regime.setAtr date atr })
    exact ⟨⟨account, returned, curDate⟩, (visit_booked (fun _ _ => [.warmRoll]) _).warmingUp⟩

/-- So the fleet is undisturbed by it. -/
theorem endWarmup_undisturbed (atr : ℚ) (x : PaperEngine) :
    Undisturbed x (x.endWarmup atr) ∧ (x.endWarmup atr).warmingUp = false := by
  obtain ⟨rolled, warmingUp⟩ :=
    warmRollTo_undisturbed x.curDate atr { x with warmingUp := false }
  have silent : ∀ (_ : Nat) (_ : Runner), ∀ event ∈ [RunnerEvent.endWarmup], Silent event := by
    intro _ _ event inside
    exact Or.inr (Or.inr (Or.inl (List.mem_singleton.mp inside)))
  obtain ⟨account, returned, curDate⟩ := visit_undisturbed (fun _ _ => [.endWarmup]) silent
    (x := { warmRollTo x.curDate atr { x with warmingUp := false } with
      regime := (warmRollTo x.curDate atr { x with warmingUp := false }).regime.setAtr
        (warmRollTo x.curDate atr { x with warmingUp := false }).curDate atr })
  refine ⟨⟨account.trans rolled.account, returned.trans rolled.returned,
    curDate.trans rolled.curDate⟩, ?_⟩
  exact (visit_booked (fun _ _ => [.endWarmup]) _).warmingUp.trans warmingUp

/-- The end of a warm-up within one trading day lifts no halt. -/
theorem Quiet.endWarmup {x : PaperEngine} (quiet : x.Quiet) (atr : ℚ)
    (sameDay : x.curDate = x.warmDate) : (x.endWarmup atr).Quiet := by
  have stays : warmRollTo x.curDate atr { x with warmingUp := false } =
      { x with warmingUp := false } := if_pos sameDay
  have keep : ∀ (_ : Nat) (_ : Runner), ∀ event ∈ [RunnerEvent.endWarmup],
      event.keepsHalt = true := by
    intro _ _ event inside
    rw [List.mem_singleton.mp inside]
    rfl
  have start : Quiet { x with warmingUp := false, regime := x.regime.setAtr x.curDate atr } :=
    quiet
  simp only [PaperEngine.endWarmup, stays]
  exact (start.visit (fun _ _ => [.endWarmup]) keep).1

/-- A rollover either halts the fleet again or is one for which no halt was left. -/
theorem rollDay_outcome {atUs : Int} {x : PaperEngine} (rolls : etTradeDate atUs ≠ x.curDate)
    (atr : ℚ) (marks : Marks) :
    (x.rollDayIfNeeded atUs atr marks).curDate ≠ x.curDate ∧
      (((x.rollDayIfNeeded atUs atr marks).Quiet ∧
          (x.rollDayIfNeeded atUs atr marks).account.halted = true) ∨
        (¬ Breaches x (x.rollDayIfNeeded atUs atr marks) ∧
          (x.account.halted = true → x.account.haltReason = "account_daily_loss"))) := by
  have silent : ∀ (_ : Nat) (_ : Runner), ∀ event ∈ [RunnerEvent.rollDay], Silent event := by
    intro _ _ event inside
    exact Or.inl (List.mem_singleton.mp inside)
  obtain ⟨y, isY⟩ : ∃ y, y = PaperEngine.visit (fun _ _ => [.rollDay])
      { x with
        curDate := etTradeDate atUs
        regime := x.regime.setAtr (etTradeDate atUs) atr } := ⟨_, rfl⟩
  have same := visit_undisturbed (fun _ _ => [.rollDay]) silent
    (x := { x with
      curDate := etTradeDate atUs
      regime := x.regime.setAtr (etTradeDate atUs) atr })
  rw [← isY] at same
  simp only [rollDayIfNeeded, if_neg rolls, ← isY]
  split
  · next latched =>
    obtain ⟨quiet, halted, date⟩ := haltAll_quiet (of_decide_eq_true latched) marks
      { y with account := y.account.resetDay }
    refine ⟨?_, Or.inl ⟨quiet, halted⟩⟩
    rw [date]
    exact same.curDate.trans_ne rolls
  · next lifted =>
    refine ⟨same.curDate.trans_ne rolls, Or.inr ⟨same.not_breaches, fun halted => ?_⟩⟩
    by_contra other
    apply lifted
    have reason : y.account.haltReason = x.account.haltReason :=
      congrArg AccountEnvelope.haltReason same.account
    simp only [AccountEnvelope.halted, AccountEnvelope.resetDay, reason, if_neg other]
    exact halted

end PaperEngine

/-! ## What is owed after a breach -/

/-- A close has returned a halt reason and its re-check is still to come; a re-check has
passed since one did, and no rollover. -/
structure Watch where
  breached : Bool := false
  owed : Bool := false
  deriving DecidableEq, Repr

/-- The re-check, and what the loop does between it and the next batch. -/
def Phase.sinceRecheck : Phase → Bool
  | .recheck _ => true
  | .wallCheck _ => true
  | .wallRoll _ _ _ => true
  | .control _ _ _ => true
  | .enterTick _ _ _ => false
  | .gapGuard _ _ => false
  | .quote _ _ => false
  | .minuteCheck _ _ => false
  | .tick _ _ _ => false
  | .caughtUp _ _ => false

namespace PaperEngine

variable (loop : LoopDesk)

def note (w : Watch) (x : PaperEngine) (phase : Phase) (y : PaperEngine) : Watch :=
  let breached := w.breached || decide (Breaches x y)
  let owed := w.owed && decide (y.curDate = x.curDate)
  if phase.sinceRecheck then { breached := false, owed := owed || breached }
  else { breached := breached, owed := owed }

/-- The engine with the watch that is kept on it. -/
def watched : PaperEngine × Watch → Phase → PaperEngine × Watch :=
  Runs.observe (PaperEngine.step loop) note

/-- The account's halt holds: when the re-check after a breach has passed every strategy is
halted, and from then to the rollover no runner holds anything or has it waiting. -/
@[mk_iff]
structure HaltHolds (before after : PaperEngine × Watch) : Prop where
  halted : before.2.owed = false → after.2.owed = true →
    ∀ r ∈ after.1.runners, r.riskHalted = true
  flat : after.2.owed = true → ∀ r ∈ after.1.runners, r.broker.standing = Standing.rest

instance (before after : PaperEngine × Watch) : Decidable (HaltHolds before after) :=
  decidable_of_iff' _ (haltHolds_iff ..)

/-- A step of the warm-up that resets the sessions: its end in another trading day, or a
replayed tick of another. -/
def warmTurns (tsUs : Int) (x : PaperEngine) : Bool :=
  if x.warmingUp ∧ tsUs ≥ loop.warmupUntilUs then decide (x.curDate ≠ x.warmDate)
  else x.warmingUp && decide (etTradeDate tsUs ≠ x.warmDate)

/-- The trading day rolls with this tick. -/
def rollsAt (tsUs : Int) (x : PaperEngine) : Bool :=
  (!x.warmingUp || decide (tsUs ≥ loop.warmupUntilUs)) && decide (etTradeDate tsUs ≠ x.curDate)

/-- When a phase keeps the account's halt: a breach finds the fleet winding up the last
thing it holds, the trading day does not roll over a breach that it would forgive, and
nothing lifts the halts meanwhile. -/
def HaltHeeds (pair : PaperEngine × Watch) (phase : Phase) : Prop :=
  match phase with
  | .enterTick tsUs _ _ =>
    (pair.2.breached = true ∨ pair.2.owed = true → pair.1.warmTurns loop tsUs = false) ∧
      (pair.2.breached = true → pair.1.rollsAt loop tsUs = true →
        pair.1.account.haltReason ≠ "account_daily_loss")
  | .caughtUp _ _ =>
    pair.2.breached = true ∨ pair.2.owed = true → pair.1.warmingUp = true →
      pair.1.curDate = pair.1.warmDate
  | .wallRoll nowUs _ _ =>
    pair.2.breached = true → etTradeDate nowUs ≠ pair.1.curDate →
      pair.1.account.haltReason ≠ "account_daily_loss"
  | .control _ .enable _ => pair.2.breached = false ∧ pair.2.owed = false
  | .recheck _ => True
  | _ => Breaches pair.1 (pair.1.step loop phase) → pair.1.Winding

instance (pair : PaperEngine × Watch) (phase : Phase) : Decidable (HaltHeeds loop pair phase) :=
  match phase with
  | .enterTick _ _ _ => inferInstanceAs (Decidable (_ ∧ _))
  | .caughtUp _ _ => inferInstanceAs (Decidable (_ → _))
  | .wallRoll _ _ _ => inferInstanceAs (Decidable (_ → _))
  | .control _ .enable _ => inferInstanceAs (Decidable (_ ∧ _))
  | .control _ .disable _ => inferInstanceAs (Decidable (_ → _))
  | .control _ .flatten _ => inferInstanceAs (Decidable (_ → _))
  | .recheck _ => isTrue trivial
  | .gapGuard _ _ => inferInstanceAs (Decidable (_ → _))
  | .quote _ _ => inferInstanceAs (Decidable (_ → _))
  | .minuteCheck _ _ => inferInstanceAs (Decidable (_ → _))
  | .tick _ _ _ => inferInstanceAs (Decidable (_ → _))
  | .wallCheck _ => inferInstanceAs (Decidable (_ → _))

/-- What carries the halt over a run: after a breach the fleet is quiet and the account
latched. -/
def Kept (pair : PaperEngine × Watch) : Prop :=
  pair.2.breached = true ∨ pair.2.owed = true → pair.1.Quiet ∧ pair.1.account.halted = true

/-- A flag is raised by a breach, or was raised before. -/
theorem note_flagged {w : Watch} {x y : PaperEngine} {phase : Phase}
    (flagged : (note w x phase y).breached = true ∨ (note w x phase y).owed = true) :
    Breaches x y ∨ w.breached = true ∨ (w.owed = true ∧ y.curDate = x.curDate) := by
  simp only [note] at flagged
  split at flagged
  · simp only [Bool.false_eq_true, false_or, Bool.or_eq_true, Bool.and_eq_true,
      decide_eq_true_eq] at flagged
    tauto
  · simp only [Bool.or_eq_true, Bool.and_eq_true, decide_eq_true_eq] at flagged
    tauto

/-- A phase that leaves a quiet fleet so, and quiets a winding one when it breaches. -/
structure Serves (x y : PaperEngine) : Prop where
  quiet : x.Quiet → y.Quiet ∧ y.account = x.account
  breach : Breaches x y → x.Winding → y.Quiet ∧ y.account.halted = true

/-- Serving a fleet that was touched before only where the host alone looks. -/
theorem visit_serves {plan : Nat → Runner → List RunnerEvent}
    (keep : ∀ i r, ∀ event ∈ plan i r, event.keepsHalt = true) {x x' : PaperEngine}
    (runners : x'.runners = x.runners) (account : x'.account = x.account)
    (returned : x'.returned = x.returned) : Serves x (x'.visit plan) where
  quiet := by
    intro quiet
    have start : x'.Quiet := by
      rw [Quiet, runners]
      exact quiet
    obtain ⟨still, same, _⟩ := start.visit plan keep
    exact ⟨still, same.trans account⟩
  breach := by
    intro more winding
    rw [Breaches, ← returned] at more
    have start : x'.Winding := by
      refine ⟨?_, ?_⟩
      · rw [runners]
        exact winding.all
      · rw [runners]
        exact winding.one
    exact ⟨start.visit plan keep more, (visit_booked plan x').breach more⟩

/-- A phase that quiets a winding fleet when it breaches keeps the fleet's invariant. -/
theorem Serves.kept {x y : PaperEngine} (serves : Serves x y) {w : Watch} {phase : Phase}
    (kept : Kept (x, w)) (heeds : Breaches x y → x.Winding) : Kept (y, note w x phase y) := by
  intro flagged
  by_cases more : Breaches x y
  · exact serves.breach more (heeds more)
  · have before : w.breached = true ∨ w.owed = true :=
      ((note_flagged flagged).resolve_left more).imp_right And.left
    obtain ⟨quiet, latched⟩ := kept before
    obtain ⟨still, account⟩ := serves.quiet quiet
    exact ⟨still, by rw [account]; exact latched⟩

theorem Serves.refl (x : PaperEngine) : Serves x x where
  quiet := fun quiet => ⟨quiet, rfl⟩
  breach := fun more => absurd more (Nat.lt_irrefl _)

theorem checkEod_keeps (ended : Nat → Bool) (i : Nat) (r : Runner) :
    ∀ event ∈ checkEod ended i r, event.keepsHalt = true := by
  intro event inside
  rw [checkEod] at inside
  split at inside
  · rw [List.mem_singleton.mp inside]
    rfl
  · exact absurd inside List.not_mem_nil

theorem signals_keep (signals : List EngineSignal) :
    ∀ event ∈ signals.map RunnerEvent.signal, event.keepsHalt = true := by
  intro event inside
  obtain ⟨s, _, rfl⟩ := List.mem_map.mp inside
  rfl

theorem onQuote_serves (q : Quote) (signals : Nat → List EngineSignal) (x : PaperEngine) :
    Serves x (x.onQuote q signals) := by
  refine visit_serves (fun i _ event inside => ?_) rfl rfl rfl
  obtain rfl | later := List.mem_cons.mp inside
  · rfl
  · exact signals_keep (signals i) event later

theorem minuteCheck_serves (tsUs : Int) (ended : Nat → Bool) (x : PaperEngine) :
    Serves x (x.minuteCheck tsUs ended) := by
  simp only [minuteCheck]
  split
  · exact Serves.refl x
  · refine visit_serves (fun i r event inside => ?_) rfl rfl rfl
    split at inside
    · exact absurd inside List.not_mem_nil
    · exact checkEod_keeps ended i r event inside

/-- A tick leaves a quiet fleet so, and quiets a winding one. -/
theorem onTick_serves (t : OrbTick) (bracket : Nat → Bracket) (signals : Nat → List EngineSignal)
    (x : PaperEngine) : Serves x (x.onTick t bracket signals) := by
  refine visit_serves (fun i r event inside => ?_) rfl rfl rfl
  split at inside
  · exact absurd inside List.not_mem_nil
  · obtain rfl | later := List.mem_cons.mp inside
    · rfl
    · exact signals_keep (signals i) event later

/-- The gap guard leaves a quiet fleet so, and quiets a winding one when it breaches. -/
theorem gapGuard_serves (tsUs : Int) (refeed : Nat → List EngineSignal) (x : PaperEngine) :
    Serves x (x.gapGuard loop tsUs refeed) := by
  simp only [gapGuard]
  split
  · have served : ∀ plan, (∀ i r, ∀ event ∈ plan i r, event.keepsHalt = true) →
        Serves x { x.visit plan with prevTickTs := tsUs } := by
      intro plan keep
      have served := visit_serves keep (x := x) rfl rfl rfl
      exact ⟨served.quiet, served.breach⟩
    refine served _ (fun i _ event inside => ?_)
    rw [List.mem_singleton.mp inside]
    rfl
  · exact ⟨(Serves.refl x).quiet, (Serves.refl x).breach⟩

theorem wallCheck_serves (ended : Nat → Bool) (x : PaperEngine) :
    Serves x (x.wallCheck ended) := by
  rw [wallCheck]
  split
  · exact Serves.refl x
  · exact visit_serves (checkEod_keeps ended) rfl rfl rfl

/-- A row of the operator other than an enable. -/
theorem control_serves (id : String) {action : ControlAction} (other : action ≠ .enable)
    (marks : Marks) (x : PaperEngine) : Serves x (x.control id action marks) := by
  simp only [control]
  split
  · exact Serves.refl x
  · refine visit_serves (fun i _ event inside => ?_) rfl rfl rfl
    split at inside
    · rw [List.mem_singleton.mp inside]
      cases action with
      | disable => rfl
      | enable => exact absurd rfl other
      | flatten => rfl
    · exact absurd inside List.not_mem_nil

theorem control_enable_undisturbed (id : String) (marks : Marks) (x : PaperEngine) :
    Undisturbed x (x.control id .enable marks) := by
  simp only [control]
  split
  · exact Undisturbed.refl x
  · refine visit_undisturbed _ (fun i _ event inside => ?_)
    split at inside
    · exact Or.inr (Or.inr (Or.inr (List.mem_singleton.mp inside)))
    · exact absurd inside List.not_mem_nil

/-- A rollover under the watch. -/
theorem Kept.rollDay {x y : PaperEngine} {w : Watch} (kept : Kept (x, w)) {phase : Phase}
    (same : Undisturbed x y) (quiet : w.breached = true ∨ w.owed = true → y.Quiet)
    {atUs : Int} {atr : ℚ} {marks : Marks}
    (heeds : w.breached = true → etTradeDate atUs ≠ x.curDate →
      x.account.haltReason ≠ "account_daily_loss") :
    Kept (y.rollDayIfNeeded atUs atr marks,
      note w x phase (y.rollDayIfNeeded atUs atr marks)) := by
  intro flagged
  by_cases stays : etTradeDate atUs = y.curDate
  · have unrolled : y.rollDayIfNeeded atUs atr marks = y := if_pos stays
    rw [unrolled] at flagged ⊢
    have before : w.breached = true ∨ w.owed = true :=
      ((note_flagged flagged).resolve_left same.not_breaches).imp_right And.left
    exact ⟨quiet before, by rw [same.account]; exact (kept before).2⟩
  · obtain ⟨rolled, halted | ⟨heard, forgiven⟩⟩ := rollDay_outcome stays atr marks
    · exact halted
    · have unheard : ¬ Breaches x (y.rollDayIfNeeded atUs atr marks) := by
        rw [Breaches, ← same.returned]
        exact heard
      have date : (y.rollDayIfNeeded atUs atr marks).curDate ≠ x.curDate := by
        rw [← same.curDate]
        exact rolled
      have breached : w.breached = true :=
        ((note_flagged flagged).resolve_left unheard).resolve_right (fun owed => date owed.2)
      have latched := (kept (Or.inl breached)).2
      rw [← same.account] at latched
      have daily := forgiven latched
      rw [same.account] at daily
      exact absurd daily (heeds breached (by rw [← same.curDate]; exact stays))

/-- The opening of a pass keeps the fleet quiet after a breach, where its roll-over heeds the
halt. -/
theorem Kept.enterTick {x : PaperEngine} {w : Watch} (kept : Kept (x, w)) {tsUs : Int} {atr : ℚ}
    {marks : Marks} (heeds : HaltHeeds loop (x, w) (.enterTick tsUs atr marks)) :
    Kept (x.enterTick loop tsUs atr marks,
      note w x (.enterTick tsUs atr marks) (x.enterTick loop tsUs atr marks)) := by
  obtain ⟨within, forgives⟩ := heeds
  simp only [warmTurns, rollsAt] at within forgives
  by_cases ends : x.warmingUp = true ∧ tsUs ≥ loop.warmupUntilUs
  · obtain ⟨same, live⟩ := endWarmup_undisturbed atr x
    have entered : x.enterTick loop tsUs atr marks =
        (x.endWarmup atr).rollDayIfNeeded tsUs atr marks := by
      simp [PaperEngine.enterTick, if_pos ends, live]
    rw [entered]
    refine kept.rollDay same (fun flagged => ?_) (fun breached rolls => ?_)
    · have sameDay := within flagged
      rw [if_pos ends, decide_eq_false_iff_not, not_not] at sameDay
      exact (kept flagged).1.endWarmup atr sameDay
    · refine forgives breached ?_
      simp [ends.2, rolls]
  · cases warm : x.warmingUp with
    | true =>
      have entered : x.enterTick loop tsUs atr marks =
          x.warmRollTo (etTradeDate tsUs) atr := by
        simp only [PaperEngine.enterTick, if_neg ends]
        exact if_pos warm
      rw [entered]
      obtain ⟨same, _⟩ := warmRollTo_undisturbed (etTradeDate tsUs) atr x
      intro flagged
      have before : w.breached = true ∨ w.owed = true :=
        ((note_flagged flagged).resolve_left same.not_breaches).imp_right And.left
      have sameDay := within before
      rw [if_neg ends, warm, Bool.true_and, decide_eq_false_iff_not, not_not] at sameDay
      have stays : x.warmRollTo (etTradeDate tsUs) atr = x := if_pos sameDay
      rw [stays]
      exact kept before
    | false =>
      have entered : x.enterTick loop tsUs atr marks = x.rollDayIfNeeded tsUs atr marks := by
        simp only [PaperEngine.enterTick, if_neg ends]
        exact if_neg (by rw [warm]; exact Bool.false_ne_true)
      rw [entered]
      refine kept.rollDay (Undisturbed.refl x) (fun flagged => (kept flagged).1)
        (fun breached rolls => forgives breached ?_)
      simp [warm, rolls]

/-- Catching up keeps the fleet quiet after a breach. -/
theorem Kept.caughtUp {x : PaperEngine} {w : Watch} (kept : Kept (x, w)) {last : Option Int}
    {atr : ℚ} (heeds : HaltHeeds loop (x, w) (.caughtUp last atr)) :
    Kept (x.caughtUp loop last atr,
      note w x (.caughtUp last atr) (x.caughtUp loop last atr)) := by
  simp only [PaperEngine.caughtUp]
  split
  · next ends =>
    rw [Bool.and_eq_true] at ends
    intro flagged
    obtain ⟨same, _⟩ := endWarmup_undisturbed atr x
    have before : w.breached = true ∨ w.owed = true :=
      ((note_flagged flagged).resolve_left same.not_breaches).imp_right And.left
    obtain ⟨quiet, latched⟩ := kept before
    exact ⟨quiet.endWarmup atr (heeds before ends.1), by rw [same.account]; exact latched⟩
  · exact (Serves.refl x).kept kept (fun more => absurd more (Nat.lt_irrefl _))

/-- The re-check keeps the fleet's invariant. -/
theorem Kept.recheck {x : PaperEngine} {w : Watch} (kept : Kept (x, w)) (marks : Marks) :
    Kept (x.recheck marks, note w x (.recheck marks) (x.recheck marks)) := by
  rw [PaperEngine.recheck]
  split
  · exact (Serves.refl x).kept kept (fun more => absurd more (Nat.lt_irrefl _))
  · split
    · exact (Serves.refl x).kept kept (fun more => absurd more (Nat.lt_irrefl _))
    · next reason =>
      obtain ⟨quiet, halted, _⟩ := haltAll_quiet reason marks x
      exact fun _ => ⟨quiet, halted⟩

/-- A phase that heeds the condition keeps what is owed after a breach. -/
theorem Kept.step {pair : PaperEngine × Watch} (kept : Kept pair) (phase : Phase)
    (heeds : HaltHeeds loop pair phase) : Kept (watched loop pair phase) := by
  obtain ⟨x, w⟩ := pair
  cases phase with
  | enterTick tsUs atr marks => exact kept.enterTick loop heeds
  | gapGuard tsUs refeed => exact (gapGuard_serves loop tsUs refeed x).kept kept heeds
  | quote q signals => exact (onQuote_serves q signals x).kept kept heeds
  | minuteCheck tsUs ended => exact (minuteCheck_serves tsUs ended x).kept kept heeds
  | tick t bracket signals => exact (onTick_serves t bracket signals x).kept kept heeds
  | caughtUp last atr => exact kept.caughtUp loop heeds
  | recheck marks => exact kept.recheck marks
  | wallCheck ended => exact (wallCheck_serves ended x).kept kept heeds
  | wallRoll nowUs atr marks =>
    exact kept.rollDay (Undisturbed.refl x) (fun flagged => (kept flagged).1) heeds
  | control id action marks =>
    cases action with
    | disable =>
      have other : ControlAction.disable ≠ .enable := nofun
      exact (control_serves id other marks x).kept kept heeds
    | flatten =>
      have other : ControlAction.flatten ≠ .enable := nofun
      exact (control_serves id other marks x).kept kept heeds
    | enable =>
      have same := control_enable_undisturbed id marks x
      intro flagged
      have before : w.breached = true ∨ w.owed = true :=
        ((note_flagged flagged).resolve_left same.not_breaches).imp_right And.left
      obtain ⟨unbreached, unowed⟩ := heeds
      obtain breached | owed := before
      · exact absurd (unbreached.symm.trans breached) Bool.false_ne_true
      · exact absurd (unowed.symm.trans owed) Bool.false_ne_true

theorem Kept.holds {before after : PaperEngine × Watch} (kept : Kept after) :
    HaltHolds before after where
  halted := fun _ owed r inside => ((kept (Or.inr owed)).1 r inside).halted
  flat := fun owed r inside => ((kept (Or.inr owed)).1 r inside).resting

/-- In every run of the loop whose phases heed the condition the account's halt holds at
each of them, whatever fleet was launched. -/
theorem halt_of_heeded (launch : Launch) (turns : List Turn)
    (heeded : Runs.Along (watched loop) (HaltHeeds loop) (launch.engine, {})
      (turns.flatMap Turn.phases)) :
    Runs.Along (watched loop) (fun pair phase => HaltHolds pair (watched loop pair phase))
      (launch.engine, {}) (turns.flatMap Turn.phases) := by
  have start : Kept (launch.engine, {}) := by
    rintro (breached | owed)
    · exact absurd breached Bool.false_ne_true
    · exact absurd owed Bool.false_ne_true
  exact Runs.along_of_invariant (watched loop) Kept
    (fun _ phase kept heeds => (kept.step loop phase heeds).holds)
    (fun _ phase kept heeds => kept.step loop phase heeds) (launch.engine, {})
    (turns.flatMap Turn.phases) start heeded

/-! ## Two runs -/

/-- One opening-range runner of an account whose daily loss limit is ten dollars. -/
def smallAccount : Launch where
  account := { dailyLossLimit := -10 }
  boots := [.plain { strategyId := "orb" } {} .orb]
  date := "2025-04-30"

/-- A tick at 10:00 Eastern of that day, some seconds later. -/
def tickAt (secs : Int) (price : ℚ) (signals : List EngineSignal) : TickInput where
  t := { tsMicros := 1746021600000000 + secs * 1000000, price := price }
  signals := fun _ => signals

/-- The strategy is disabled over its open position, whose stop then breaches the limit:
the fleet is halted, though not by the account. -/
theorem halts_disabled_runner :
    Runs.Along (watched {}) (fun pair phase => HaltHolds pair (watched {} pair phase))
      (smallAccount.engine, {})
      ([{ ticks := [tickAt 0 20000 [Boot.breakoutLong], tickAt 1 20001 []]
          clockUs := 1746021601000000
          rows := [("orb", .disable)] },
        { ticks := [tickAt 2 19900 []], clockUs := 1746021602000000 },
        { ticks := [tickAt 3 20000 []], clockUs := 1746021603000000 }].flatMap Turn.phases) :=
  halt_of_heeded {} smallAccount _ (by decide +kernel)

/-- A stop that breaches the daily limit leaves the strategy running: the callback has
latched the account, and the re-check passes the fleet by. -/
theorem breach_goes_unenforced :
    ¬ ∀ (loop : LoopDesk) (launch : Launch) (turns : List Turn),
      Runs.Along (watched loop) (fun pair phase => HaltHolds pair (watched loop pair phase))
        (launch.engine, {}) (turns.flatMap Turn.phases) := by
  intro always
  have run := always {} smallAccount
    [{ ticks := [tickAt 0 20000 [Boot.breakoutLong], tickAt 1 20001 [], tickAt 2 19900 []]
       clockUs := 1746021602000000 }]
  revert run
  decide +kernel

end PaperEngine

end RithmicEngine
