import RithmicEngine.Paper.AccountHalt
/-!
# What bars a runner's entries

A halted strategy emits no entry, and a broker in warm-up takes none. Neither is changed
by what the host does to a runner, but for the resets of its session, the end of its
warm-up and the operator's enable.
-/
namespace RithmicEngine

/-! ## The warm-up mode of a broker -/

namespace PaperBroker

variable (desk : PaperDesk) (regime : Option SessionRegime)

theorem work_warmup (t : OrbTick) (b : PaperBroker) :
    (work desk regime t b).warmup = b.warmup := by
  obtain ⟨_, _, _, books, _⟩ | steady := (work_worked desk regime t b).outcome
  · exact books.warmup
  · exact steady.books.warmup

theorem onTick_warmup (t : OrbTick) (b : PaperBroker) :
    (onTick desk regime t b).warmup = b.warmup := by
  have seen : (seeTick t b).warmup = b.warmup := rfl
  simp only [onTick]
  split
  · exact seen
  · rw [work_warmup]
    obtain ⟨_, _, books, _⟩ | same := fillPending_books desk regime t (seeTick t b)
    · exact books.warmup.trans seen
    · rw [same]
      exact seen

/-- An entry signal leaves the warm-up. -/
theorem onEntrySignal_warmup (dir : SignType) (reason : String) (b : PaperBroker) :
    (onEntrySignal desk regime dir reason b).warmup = b.warmup := by
  have logged : ∀ blocked, (logSignal desk (decide (dir > 0)) reason blocked b).warmup =
      b.warmup := fun blocked => (logSignal_steady desk _ reason blocked b).books.warmup
  simp only [onEntrySignal]
  repeat' split
  all_goals first
    | rfl
    | exact logged _

end PaperBroker

namespace PaperBracketBroker

variable (desk : PaperDesk) (regime : Option SessionRegime)

theorem exitPosition_warmup (fill : ℚ) (tsUs : Int) (reason : String) (b : PaperBracketBroker) :
    (exitPosition desk fill tsUs reason b).warmup = b.warmup :=
  (exitPosition_books desk fill tsUs reason b).1.warmup

variable (t : OrbTick)

theorem turn_warmup (b : PaperBracketBroker) : (turn desk t b).warmup = b.warmup := by
  simp only [turn]
  repeat' split
  all_goals first
    | rfl
    | exact exitPosition_warmup desk _ _ _ _

theorem fillPending_warmup (bracket : Bracket) (b : PaperBracketBroker) :
    (fillPending desk t bracket b).warmup = b.warmup := by
  simp only [fillPending]
  repeat' split
  all_goals first
    | rfl
    | exact (enter_books desk _ _ _ bracket _).1.warmup

/-- A tick leaves the warm-up flag. -/
theorem onTick_warmup (bracket : Bracket) (b : PaperBracketBroker) :
    (onTick desk t bracket b).warmup = b.warmup := by
  have seen : (seeTick t b).warmup = b.warmup := rfl
  have filled : (fillPending desk t bracket (seeTick t b)).warmup = b.warmup :=
    (fillPending_warmup desk t bracket (seeTick t b)).trans seen
  simp only [onTick]
  split
  · exact seen
  · split
    · exact (turn_warmup desk t (seeTick t b)).trans seen
    · split
      · exact filled
      · next held =>
        obtain ⟨_, _, _, books, _⟩ | ⟨steady, _⟩ := (manage_worked desk t bracket held).outcome
        · exact books.warmup.trans filled
        · exact steady.books.warmup.trans filled

/-- An entry signal leaves the warm-up. -/
theorem onEntrySignal_warmup (dir : SignType) (reason : String) (b : PaperBracketBroker) :
    (onEntrySignal desk regime dir reason b).warmup = b.warmup := by
  have logged : ∀ blocked, (logSignal desk (decide (dir > 0)) reason blocked b).warmup =
      b.warmup := fun blocked => (logSignal_steady desk _ reason blocked b).books.warmup
  simp only [onEntrySignal]
  repeat' split
  all_goals first
    | rfl
    | exact logged _
    | exact (queue_same dir _).1.warmup.trans (logged _)

end PaperBracketBroker
namespace Broker

variable (desk : PaperDesk) (regime : Option SessionRegime)

theorem onTick_warmup (t : OrbTick) (bracket : Bracket) (b : Broker) :
    (b.onTick desk regime t bracket).warmup = b.warmup := by
  cases b with
  | plain engine b => exact PaperBroker.onTick_warmup desk regime t b
  | bracket b => exact PaperBracketBroker.onTick_warmup desk t bracket b

/-- A signal leaves the warm-up. -/
theorem onSignal_warmup (s : EngineSignal) (b : Broker) :
    (b.onSignal desk regime s.sig s.reason).warmup = b.warmup := by
  cases enters : s.sig.isEntry with
  | true =>
    rw [onSignal_entry desk regime enters]
    cases b with
    | plain engine b => exact PaperBroker.onEntrySignal_warmup desk regime s.sig.dir s.reason b
    | bracket b => exact PaperBracketBroker.onEntrySignal_warmup desk regime s.sig.dir s.reason b
  | false => exact congrArg Stance.warmup (onSignal_flatten desk regime enters s.own b).1

/-- In warm-up the broker takes no entry. -/
theorem not_accepts_of_warmup {b : Broker} (warm : b.warmup = true) (dir : SignType) :
    b.accepts desk regime dir = false := by
  cases b with
  | plain engine b =>
    have isWarm : b.warmup = true := warm
    simp [accepts, PaperBroker.accepts, isWarm]
  | bracket b =>
    have isWarm : b.warmup = true := warm
    simp [accepts, PaperBracketBroker.accepts, isWarm]

end Broker

/-! ## Entries that a runner's broker takes -/

namespace Runner

/-- The broker takes what the strategy emits here as an entry. -/
def enters (regime : SessionRegime) (s : EngineSignal) (r : Runner) : Bool :=
  s.sig.isEntry && r.mayEnter s.sig && r.broker.accepts r.desk (some regime) s.sig.dir

/-- No entry signal is taken at this event. The strategy emits on its own, or while the
session is fed to it again after a hole. -/
def Spares (r : Runner) (moment : SessionRegime × RunnerEvent) : Prop :=
  match moment.2 with
  | .signal s => r.enters moment.1 s = false
  | .gap (some signals) => r.gapResettable = true → r.broker.warmup = false →
      Runs.Along (fun r s => r.emit moment.1 s) (fun r s => r.enters moment.1 s = false)
        (r.sReset.setWarmup true) signals
  | _ => True

instance (r : Runner) (moment : SessionRegime × RunnerEvent) : Decidable (r.Spares moment) :=
  match moment with
  | (_, .signal _) => inferInstanceAs (Decidable (_ = _))
  | (_, .gap (some _)) => inferInstanceAs (Decidable (_ → _ → _))
  | (_, .gap none) => isTrue trivial
  | (_, .quote _) => isTrue trivial
  | (_, .tick _ _) => isTrue trivial
  | (_, .rollDay) => isTrue trivial
  | (_, .warmRoll) => isTrue trivial
  | (_, .endWarmup) => isTrue trivial
  | (_, .halt) => isTrue trivial
  | (_, .enable) => isTrue trivial
  | (_, .flatten _ _ _) => isTrue trivial

/-- Halted, or in warm-up: nothing the strategy emits reaches a position. -/
def Barred (r : Runner) : Prop := r.broker.warmup = true ∨ r.riskHalted = true

variable {r r' : Runner} (regime : SessionRegime) (signals : List EngineSignal)

theorem Barred.not_enters (barred : r.Barred) (regime : SessionRegime) (s : EngineSignal) :
    r.enters regime s = false := by
  obtain warm | halted := barred
  · rw [enters, Broker.not_accepts_of_warmup r.desk (some regime) warm, Bool.and_false]
  · have refuses : r.mayEnter s.sig = false := by
      simp [mayEnter, halted]
    rw [enters, refuses, Bool.and_false, Bool.false_and]

/-- What is left alone of a runner by all that happens outside the warm-up's end. -/
structure Bears (r r' : Runner) : Prop where
  warmup : r'.broker.warmup = r.broker.warmup
  startup : r'.startupHalt = r.startupHalt

/-- As left alone, and still halted if it was. -/
structure Lasting (r r' : Runner) : Prop extends Bears r r' where
  halted : r.riskHalted = true → r'.riskHalted = true

theorem Bears.trans {r'' : Runner} (first : Bears r r') (second : Bears r' r'') : Bears r r'' :=
  ⟨second.warmup.trans first.warmup, second.startup.trans first.startup⟩

theorem Lasting.refl (r : Runner) : Lasting r r := ⟨⟨rfl, rfl⟩, fun halted => halted⟩

theorem Lasting.trans {r'' : Runner} (first : Lasting r r') (second : Lasting r' r'') :
    Lasting r r'' :=
  ⟨first.toBears.trans second.toBears, fun halted => second.halted (first.halted halted)⟩

theorem Lasting.barred (lasting : Lasting r r') (barred : r.Barred) : r'.Barred :=
  barred.imp (lasting.warmup.trans ·) lasting.halted

/-- Closed trades leave the halt from the start. -/
theorem foldl_onTradeClosed_startup (rows : List PaperTradeRow) (r : Runner) :
    (rows.foldl onTradeClosed r).startupHalt = r.startupHalt := by
  induction rows generalizing r with
  | nil => rfl
  | cons row rest ih =>
    have one : (r.onTradeClosed row).startupHalt = r.startupHalt := by
      rw [onTradeClosed]
      split
      · rfl
      · rfl
    exact (ih (r.onTradeClosed row)).trans one

theorem settleTo_lasting {next : Broker} (warmup : next.warmup = r.broker.warmup) :
    Lasting r (r.settleTo next) := by
  obtain ⟨broker, halted⟩ := settleTo_keeps next r
  refine ⟨⟨?_, ?_⟩, fun before => halted.trans before⟩
  · rw [broker]
    exact warmup
  · exact foldl_onTradeClosed_startup (r.broker.closedSince next) { r with broker := next }

theorem emit_lasting (s : EngineSignal) (r : Runner) : Lasting r (r.emit regime s) := by
  have warmup := Broker.onSignal_warmup r.desk (some regime) s r.broker
  rw [emit]
  split
  · split
    · exact ⟨⟨warmup, rfl⟩, fun halted => halted⟩
    · exact Lasting.refl r
  · exact ⟨⟨warmup, rfl⟩, fun halted => halted⟩

theorem emits_lasting (r : Runner) : Lasting r (signals.foldl (fun r s => r.emit regime s) r) := by
  induction signals generalizing r with
  | nil => exact Lasting.refl r
  | cons s rest ih => exact (emit_lasting regime s r).trans (ih (r.emit regime s))

/-- A strategy that is fed the session again while its broker warms up enters nothing. -/
theorem emits_spared (barred : r.Barred) :
    Runs.Along (fun r s => r.emit regime s) (fun r s => r.enters regime s = false) r signals := by
  induction signals generalizing r with
  | nil => trivial
  | cons s rest ih =>
    exact ⟨barred.not_enters regime s, ih ((emit_lasting regime s r).barred barred)⟩

/-- A barred runner takes no entry, whatever happens. -/
theorem Barred.spares (barred : r.Barred) (moment : SessionRegime × RunnerEvent) :
    r.Spares moment := by
  obtain ⟨regime, event⟩ := moment
  cases event with
  | signal s => exact barred.not_enters regime s
  | gap refeed =>
    cases refeed with
    | none => trivial
    | some signals =>
      intro _ _
      exact emits_spared regime signals (Or.inl (Broker.setWarmup_kept true r.broker).2.1)
  | quote q => trivial
  | tick t bracket => trivial
  | rollDay => trivial
  | warmRoll => trivial
  | endWarmup => trivial
  | halt => trivial
  | enable => trivial
  | flatten why tsUs priceHint => trivial

theorem release_bears (r : Runner) : Lasting r r.release := by
  rw [release]
  split
  · exact ⟨⟨rfl, rfl⟩, fun halted => halted⟩
  · exact Lasting.refl r

/-- A session fed again leaves a live runner's warm-up and its halt from the start. -/
theorem refeedOrb_bears (live : r.broker.warmup = false) :
    Bears r (r.refeedOrb regime signals) := by
  have fed := emits_lasting regime signals (r.setWarmup true)
  obtain ⟨x, isFed⟩ : ∃ x, x = signals.foldl (fun r s => r.emit regime s) (r.setWarmup true) :=
    ⟨_, rfl⟩
  rw [← isFed] at fed
  have ended := release_bears (x.setWarmup false)
  simp only [refeedOrb, ← isFed]
  refine ⟨?_, ?_⟩
  · rw [ended.warmup, live]
    exact (Broker.setWarmup_kept false x.broker).2.1
  · exact ended.startup.trans fed.startup

/-- The guard against a hole leaves a halted runner as it is. -/
theorem gapReset_lasting (refeed : Option (List EngineSignal)) (r : Runner) :
    Lasting r (r.gapReset regime (if r.broker.warmup then none else refeed)) := by
  cases resettable : r.gapResettable with
  | false =>
    rw [gapReset_of_not_resettable resettable]
    exact Lasting.refl r
  | true =>
    have unhalted : r.riskHalted = true → False := by
      intro halted
      rw [gapResettable] at resettable
      split at resettable
      · exact Bool.false_ne_true resettable
      · rw [halted, Bool.not_true, Bool.and_false] at resettable
        exact Bool.false_ne_true resettable
    refine ⟨?_, fun halted => (unhalted halted).elim⟩
    have reset : Bears r r.sReset := ⟨rfl, rfl⟩
    cases warm : r.broker.warmup with
    | true =>
      have none : r.gapReset regime none = r.sReset := if_pos resettable
      rw [if_pos rfl, none]
      exact reset
    | false =>
      rw [if_neg Bool.false_ne_true]
      unfold gapReset
      rw [if_pos resettable]
      split
      · exact reset.trans (refeedOrb_bears regime _ warm)
      · exact reset

/-- The events of a turn that are neither a reset of the session nor an enable. -/
theorem step_lasting {event : RunnerEvent} (r : Runner) (keeps : event.keepsHalt = true)
    (within : event ≠ .endWarmup) : Lasting r (r.step (regime, event)) := by
  cases event with
  | quote q =>
    have same := (Broker.onQuote_steady r.desk q r.broker).1
    exact ⟨⟨congrArg Stance.warmup same, rfl⟩, fun halted => halted⟩
  | tick t bracket =>
    exact settleTo_lasting (Broker.onTick_warmup r.desk (some regime) t bracket r.broker)
  | signal s => exact emit_lasting regime s r
  | rollDay => exact absurd keeps Bool.false_ne_true
  | warmRoll => exact absurd keeps Bool.false_ne_true
  | endWarmup => exact absurd rfl within
  | gap refeed => exact gapReset_lasting regime refeed r
  | halt => exact ⟨⟨rfl, rfl⟩, fun _ => rfl⟩
  | enable => exact absurd keeps Bool.false_ne_true
  | flatten why tsUs priceHint =>
    obtain ⟨rows, books, _⟩ := Broker.flatten_books r.desk why tsUs priceHint r.broker
    exact settleTo_lasting books.warmup

/-- A runner served with such events: each of them spares a barred one. -/
theorem run_lasting (events : List RunnerEvent) (r : Runner)
    (keep : ∀ event ∈ events, event.keepsHalt = true ∧ event ≠ .endWarmup) :
    Lasting r (Runs.run step r (events.map (fun event => (regime, event)))) ∧
      (r.Barred → Runs.Along step Spares r (events.map (fun event => (regime, event)))) := by
  induction events generalizing r with
  | nil => exact ⟨Lasting.refl r, fun _ => trivial⟩
  | cons event rest ih =>
    obtain ⟨keeps, within⟩ := keep event List.mem_cons_self
    have one := step_lasting regime r keeps within
    obtain ⟨all, spared⟩ := ih (r.step (regime, event))
      (fun other inside => keep other (List.mem_cons_of_mem event inside))
    exact ⟨one.trans all, fun barred => ⟨barred.spares _, spared (one.barred barred)⟩⟩

end Runner

end RithmicEngine
