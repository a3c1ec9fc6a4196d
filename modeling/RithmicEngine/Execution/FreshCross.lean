import RithmicEngine.Execution.OpeningRange
/-!
# Fresh crosses

The opening-range engine signals where a price lies beyond a level and the price before it
did not. The price before is that of the last tick the strategy took: it survives a
restart of the session, and a tick that came during a halt does not replace it. Every
other guard is read on the tick itself.
-/
namespace RithmicEngine

namespace OrbStrategy

variable (rules : OrbRules)

def buyLevel (s : OrbStrategy) : ℚ := s.session.orbHigh + rules.breakoutBuffer

def sellLevel (s : OrbStrategy) : ℚ := s.session.orbLow - rules.breakoutBuffer

/-- The cooldown that a close arms. -/
def cooldownUs : Int := rules.stopCooldownSecs * 1000000

/-- What a signal takes, beside what the tick's clock allows. -/
theorem breakout_crosses {price prevPrice : ℚ} {s : OrbStrategy} {emission : OrbEmission}
    (breaks : breakout rules price prevPrice s = some emission) :
    s.session.inPosition = false ∧ s.cooldownUntilUs ≤ s.lastTsUs ∧ emission.price = price ∧
      ((emission.sig = .buy ∧ buyLevel rules s < price ∧
          (prevPrice ≤ 0 ∨ prevPrice ≤ buyLevel rules s)) ∨
        (emission.sig = .sell ∧ price < sellLevel rules s ∧
          (prevPrice ≤ 0 ∨ sellLevel rules s ≤ prevPrice))) := by
  have flat := (breakout_isEntry rules breaks).2
  rw [breakout, flat] at breaks
  simp only [Bool.false_eq_true, ↓reduceIte] at breaks
  refine ⟨flat, ?_⟩
  split at breaks
  next => cases breaks
  next cooled =>
    refine ⟨not_lt.mp cooled, ?_⟩
    split at breaks
    next above =>
      cases breaks
      exact ⟨rfl, Or.inl ⟨rfl, above⟩⟩
    next =>
      split at breaks
      next below =>
        cases breaks
        exact ⟨rfl, Or.inr ⟨rfl, below⟩⟩
      next => cases breaks

/-- A bar leaves the levels, the position and the day's count. -/
theorem buildBar_guards (t : OrbTick) (s : OrbStrategy) :
    ∃ set, buildBar rules t s = { s with
      session := { s.session with orbSet := set }
      currentBar := (buildBar rules t s).currentBar } := by
  have built := buildBar_built rules t s
  rcases built.session with stays | ⟨_, _, _, sets⟩
  · refine ⟨s.session.orbSet, built.rest.trans ?_⟩
    rw [stays]
  · refine ⟨true, built.rest.trans ?_⟩
    rw [sets]

end OrbStrategy

namespace HostedOrb

variable (rules : OrbRules)

/-- A tick as it was received. -/
structure Received where
  price : ℚ
  halted : Bool
  deriving DecidableEq

/-- The last tick that was received since the strategy was built, and the strategy's clock
at the last close, since its session restarted and since it was built. -/
structure TickLog where
  last : Option Received := none
  closed : Option Int := none
  everClosed : Option Int := none
  deriving DecidableEq

def TickLog.close (at_ : Int) (log : TickLog) : TickLog :=
  { log with closed := some at_, everClosed := some at_ }

def TickLog.note (log : TickLog) (x : HostedOrb) (happening : OrbHappening) (_ : HostedOrb) :
    TickLog :=
  match happening with
  | .tick refused t =>
    let log := { log with
      last := some { price := t.price, halted := x.strategy.session.riskHalted } }
    if refused = true ∧ (x.emits rules happening).isSome = true then log.close t.tsMicros else log
  | .tradeClosed => log.close x.strategy.lastTsUs
  | .checkDate clock => if tradingDate clock = x.today then log else { log with closed := none }
  | .gapReset => { log with closed := none }
  | _ => log

/-- A run with its ticks noted beside it. -/
def followed : HostedOrb × TickLog → OrbHappening → HostedOrb × TickLog :=
  Runs.observe (step rules) (TickLog.note rules)

/-- A signal that may be given on this tick. -/
structure Admitted (closed : Option Int) (t : OrbTick) (s : OrbStrategy) : Prop where
  flat : s.session.inPosition = false
  cooled : 0 < rules.stopCooldownSecs → ∀ close ∈ closed,
    close + OrbStrategy.cooldownUs rules ≤ t.tsMicros
  early : OrbStrategy.etMinutes t < rules.lastEntryHour * 60 + rules.lastEntryMin
  calm : OrbStrategy.isNewsBlackout rules (utcToEt t.tsMicros).1 (utcToEt t.tsMicros).2 = false
  live : s.session.riskHalted = false
  room : s.session.tradesToday < rules.maxDailyTrades

/-- The price crosses a level on this tick: it lies beyond and the one before did not,
where that is such a tick. -/
structure Crosses (before : Received → Prop) (last : Option Received) (t : OrbTick)
    (s : OrbStrategy) (sig : OrbSignal) : Prop where
  above : sig = .buy → OrbStrategy.buyLevel rules s < t.price ∧
    ∀ prev ∈ last, before prev → prev.price ≤ OrbStrategy.buyLevel rules s
  below : sig = .sell → t.price < OrbStrategy.sellLevel rules s ∧
    ∀ prev ∈ last, before prev → OrbStrategy.sellLevel rules s ≤ prev.price

/-- Every entry that a happening signals is a fresh cross, which its guards admit. -/
def SignalsFresh (before : Received → Prop) (last : Option Received) (closed : Option Int)
    (x : HostedOrb) (happening : OrbHappening) : Prop :=
  ∀ emission, x.emits rules happening = some emission →
    emission.sig = .buy ∨ emission.sig = .sell →
    ∃ refused t, happening = .tick refused t ∧ emission.price = t.price ∧
      Crosses rules before last t x.strategy emission.sig ∧ Admitted rules closed t x.strategy

theorem signalsFresh_of_silent {before : Received → Prop} {last : Option Received}
    {closed : Option Int} {x : HostedOrb} {happening : OrbHappening}
    (silent : x.emits rules happening = none) :
    SignalsFresh rules before last closed x happening := by
  intro emission emits
  rw [silent] at emits
  cases emits

/-- A tick that the strategy took, at a price. -/
def Taken (prev : Received) : Prop := prev.halted = false ∧ 0 < prev.price

/-- The strategy's price is that of the last tick it took, and its cooldown that of the
last close. -/
structure Followed (s : OrbStrategy) (log : TickLog) : Prop where
  price : ∀ prev ∈ log.last, prev.halted = false → s.lastPrice = prev.price
  cooldown : 0 < rules.stopCooldownSecs → ∀ close ∈ log.closed,
    s.cooldownUntilUs = close + OrbStrategy.cooldownUs rules

variable {rules}

variable {s : OrbStrategy} {log : TickLog}

theorem Followed.of_same {s' : OrbStrategy} (follows : Followed rules s log)
    (price : s'.lastPrice = s.lastPrice) (cooldown : s'.cooldownUntilUs = s.cooldownUntilUs) :
    Followed rules s' log where
  price := by
    rw [price]
    exact follows.price
  cooldown := by
    rw [cooldown]
    exact follows.cooldown

/-- A session that restarts knows of no close. -/
theorem Followed.restart (follows : Followed rules s log) :
    Followed rules s.resetSession { log with closed := none } where
  price := follows.price
  cooldown _ _ inside := absurd inside (Option.not_mem_none _)

/-- What a tick leaves behind, and what it takes to signal on it. -/
theorem Followed.ticks {s' : OrbStrategy} {emission : Option OrbEmission} {refused : Bool}
    {t : OrbTick} (follows : Followed rules s log)
    (ticks : OrbStrategy.Ticks rules refused t s (s', emission)) :
    (s.session.riskHalted = false → s'.lastPrice = t.price) ∧
      (if refused = true ∧ emission.isSome = true then
        0 < rules.stopCooldownSecs → s'.cooldownUntilUs = t.tsMicros + OrbStrategy.cooldownUs rules
      else s'.cooldownUntilUs = s.cooldownUntilUs) ∧
      ∀ given, emission = some given → given.price = t.price ∧
        Crosses rules Taken log.last t s given.sig ∧ Admitted rules log.closed t s := by
  obtain ⟨set, isBuilt⟩ := OrbStrategy.buildBar_guards rules t s
  have silent : ∀ given, (none : Option OrbEmission) = some given → given.price = t.price ∧
      Crosses rules Taken log.last t s given.sig ∧ Admitted rules log.closed t s := by
    rintro given ⟨⟩
  cases ticks with
  | ignored halted =>
    refine ⟨fun live => absurd (live.symm.trans halted) Bool.false_ne_true, ?_, silent⟩
    rw [if_neg fun told => Bool.false_ne_true told.2]
  | anchored live seeded =>
    rw [if_neg fun told => Bool.false_ne_true told.2, isBuilt]
    exact ⟨fun _ => rfl, rfl, silent⟩
  | widened live unseeded unset =>
    rw [if_neg fun told => Bool.false_ne_true told.2, isBuilt, OrbStrategy.widenRange]
    split
    · exact ⟨fun _ => rfl, rfl, silent⟩
    · exact ⟨fun _ => rfl, rfl, silent⟩
  | passed live unseeded isSet =>
    rw [if_neg fun told => Bool.false_ne_true told.2, isBuilt]
    exact ⟨fun _ => rfl, rfl, silent⟩
  | @signalled live unseeded isSet given admitted breaks =>
    refine ⟨fun _ => ?_, ?_, ?_⟩
    · cases refused with
      | true => rfl
      | false => rfl
    · cases refused with
      | true =>
        rw [if_pos ⟨rfl, rfl⟩]
        intro arms
        simp only [OrbStrategy.takePosition, OrbStrategy.notifyTradeFilled, ↓reduceIte,
          if_pos arms]
        rfl
      | false =>
        rw [if_neg fun told => Bool.false_ne_true told.1, isBuilt]
        rfl
    · intro _ same
      cases same
      obtain ⟨flat, cooled, price, crosses⟩ := OrbStrategy.breakout_crosses rules breaks
      have guards : s.session.tradesToday < rules.maxDailyTrades ∧
          OrbStrategy.etMinutes t < rules.lastEntryHour * 60 + rules.lastEntryMin ∧
          OrbStrategy.isNewsBlackout rules (utcToEt t.tsMicros).1 (utcToEt t.tsMicros).2 =
            false := by
        rw [isBuilt] at admitted
        simp only [OrbStrategy.mayEnter, Bool.and_eq_true, decide_eq_true_eq,
          Bool.not_eq_true'] at admitted
        exact ⟨admitted.1.1, admitted.1.2, admitted.2⟩
      rw [isBuilt] at flat cooled crosses
      have reached (prev : Received) (last : prev ∈ log.last) (taken : Taken prev) :
          s.lastPrice = prev.price ∧ ¬s.lastPrice ≤ 0 := by
        have same := follows.price prev last taken.1
        refine ⟨same, ?_⟩
        rw [same]
        exact not_le.mpr taken.2
      refine ⟨price, ⟨?_, ?_⟩, flat, ?_, guards.2.1, guards.2.2, live, guards.1⟩
      · intro buys
        rcases crosses with ⟨_, beyond, fresh⟩ | ⟨sells, _⟩
        · refine ⟨beyond, fun prev last taken => ?_⟩
          obtain ⟨same, positive⟩ := reached prev last taken
          rw [← same]
          exact fresh.resolve_left positive
        · exact absurd (buys.symm.trans sells) (by decide)
      · intro sells
        rcases crosses with ⟨buys, _⟩ | ⟨_, beyond, fresh⟩
        · exact absurd (sells.symm.trans buys) (by decide)
        · refine ⟨beyond, fun prev last taken => ?_⟩
          obtain ⟨same, positive⟩ := reached prev last taken
          rw [← same]
          exact fresh.resolve_left positive
      · intro arms close inside
        have until_ := follows.cooldown arms close inside
        have cooled : s.cooldownUntilUs ≤ t.tsMicros := cooled
        omega

/-- One happening. -/
theorem Followed.step {x : HostedOrb} {log : TickLog} (follows : Followed rules x.strategy log)
    (happening : OrbHappening) :
    Followed rules (x.step rules happening).strategy
        (log.note rules x happening (x.step rules happening)) ∧
      SignalsFresh rules Taken log.last log.closed x happening := by
  cases happening with
  | tick refused t =>
    have ticks : OrbStrategy.Ticks rules refused t x.strategy
        ((x.strategy.onTick rules refused t).1, (x.strategy.onTick rules refused t).2) :=
      OrbStrategy.onTick_ticks rules refused t x.strategy
    obtain ⟨price, cooldown, fresh⟩ := follows.ticks ticks
    refine ⟨⟨?_, ?_⟩, ?_⟩
    · intro prev last live
      have same : (log.note rules x (.tick refused t) (x.step rules (.tick refused t))).last =
          some { price := t.price, halted := x.strategy.session.riskHalted } := by
        simp only [TickLog.note]
        split
        · rfl
        · rfl
      rw [same] at last
      obtain rfl := Option.mem_some.mp last
      exact price live
    · intro arms close inside
      have stepped : (x.step rules (.tick refused t)).strategy.cooldownUntilUs =
          (x.strategy.onTick rules refused t).1.cooldownUntilUs := rfl
      have emitted : x.emits rules (.tick refused t) = (x.strategy.onTick rules refused t).2 := rfl
      rw [stepped]
      simp only [TickLog.note, emitted] at inside
      split at inside
      next told =>
        rw [if_pos told] at cooldown
        obtain rfl := Option.mem_some.mp inside
        exact cooldown arms
      next quiet =>
        rw [if_neg quiet] at cooldown
        rw [cooldown]
        exact follows.cooldown arms close inside
    · intro emission emits _
      obtain ⟨price, crosses, admitted⟩ := fresh emission emits
      exact ⟨refused, t, rfl, price, crosses, admitted⟩
  | checkEod clock =>
    have checked : ((x.strategy.checkEod rules (etHour clock) (etMinute clock)).1.lastPrice =
          x.strategy.lastPrice ∧
        (x.strategy.checkEod rules (etHour clock) (etMinute clock)).1.cooldownUntilUs =
          x.strategy.cooldownUntilUs) ∧
        ∀ emission, (x.strategy.checkEod rules (etHour clock) (etMinute clock)).2 =
          some emission → emission.sig = .flattenEod := by
      rw [OrbStrategy.checkEod]
      split
      · refine ⟨⟨rfl, rfl⟩, fun emission same => ?_⟩
        cases same
        rfl
      · exact ⟨⟨rfl, rfl⟩, by rintro _ ⟨⟩⟩
    refine ⟨follows.of_same checked.1.1 checked.1.2, ?_⟩
    intro emission emits entry
    rw [checked.2 emission emits] at entry
    rcases entry with buys | sells
    · exact absurd buys (by decide)
    · exact absurd sells (by decide)
  | checkDate clock =>
    have silent : x.emits rules (.checkDate clock) = none := by
      simp only [HostedOrb.emits, handle]
      split
      · rfl
      · rfl
    refine ⟨?_, signalsFresh_of_silent rules silent⟩
    simp only [HostedOrb.step, handle, TickLog.note]
    split
    · exact follows
    · exact follows.restart
  | tradeClosed =>
    refine ⟨⟨follows.price, ?_⟩, signalsFresh_of_silent rules rfl⟩
    intro arms close inside
    obtain rfl := Option.mem_some.mp inside
    exact if_pos arms
  | halt reason => exact ⟨follows.of_same rfl rfl, signalsFresh_of_silent rules rfl⟩
  | unhalt =>
    have same : x.strategy.unhaltTrading.lastPrice = x.strategy.lastPrice ∧
        x.strategy.unhaltTrading.cooldownUntilUs = x.strategy.cooldownUntilUs := by
      rw [OrbStrategy.unhaltTrading]
      split
      · exact ⟨rfl, rfl⟩
      · exact ⟨rfl, rfl⟩
    exact ⟨follows.of_same same.1 same.2, signalsFresh_of_silent rules rfl⟩
  | gapReset => exact ⟨follows.restart, signalsFresh_of_silent rules rfl⟩
  | seedTrades n => exact ⟨follows.of_same rfl rfl, signalsFresh_of_silent rules rfl⟩
  | seedRange high low => exact ⟨follows.of_same rfl rfl, signalsFresh_of_silent rules rfl⟩

/-- In every run of a hosted engine every entry is signalled on a tick whose price lies
beyond its level, where the tick before it, if the strategy took it, did not, and which
every guard admits. -/
theorem entries_fresh (rules : OrbRules) (today : Int) (happenings : List OrbHappening) :
    Runs.Along (followed rules)
      (fun pair happening =>
        SignalsFresh rules Taken pair.2.last pair.2.closed pair.1 happening)
      ({ today := today }, {}) happenings := by
  have start : Followed rules {} {} :=
    ⟨fun _ inside => absurd inside (Option.not_mem_none _),
      fun _ _ inside => absurd inside (Option.not_mem_none _)⟩
  have free : Runs.Along (followed rules) (fun _ _ => True) ({ today := today }, {}) happenings :=
    Runs.along_of_forall (followed rules) (fun _ _ => trivial) _ happenings
  exact Runs.along_of_invariant (followed rules)
    (fun pair => Followed rules pair.1.strategy pair.2)
    (fun pair happening follows _ => (follows.step happening).2)
    (fun pair happening follows _ => (follows.step happening).1) _ happenings start free

/-- A tick of this price, so many seconds after the open. -/
def printed (seconds : Int) (price : ℚ) : OrbHappening :=
  .tick false { tsMicros := afterOpen seconds, price := price }

/-- A range that the price leaves while trading is halted. -/
def crossedHalted : List OrbHappening :=
  [.seedRange 100 90, printed 2400 95, .halt "daily_loss", printed 2460 105, .unhalt,
    printed 2520 106]

/-- A range below zero that the price has left before. -/
def crossedBelowZero : List OrbHappening :=
  [.seedRange (-10) (-20), printed 2400 (-25), printed 2460 (-26)]

/-- A session that restarts after a trade, with its range seeded again. -/
def crossedAgain : List OrbHappening :=
  [.seedRange 100 90, printed 2400 95, printed 2460 105, .tradeClosed, .gapReset,
    .seedRange 100 90, printed 2461 95, printed 2462 105]

def PositivePrice : OrbHappening → Prop
  | .tick _ t => 0 < t.price
  | _ => True

/-- A tick that came during a halt, a price that is not positive and a close before the
session restarted hold no signal back. -/
theorem crosses_not_fresh :
    (¬∀ (rules : OrbRules) (today : Int) (happenings : List OrbHappening),
      (∀ happening ∈ happenings, PositivePrice happening) →
      Runs.Along (followed rules)
        (fun pair happening =>
          SignalsFresh rules (fun _ => True) pair.2.last pair.2.closed pair.1 happening)
        ({ today := today }, {}) happenings) ∧
    (¬∀ (rules : OrbRules) (today : Int) (happenings : List OrbHappening),
      Runs.Along (followed rules)
        (fun pair happening => SignalsFresh rules (fun prev => prev.halted = false) pair.2.last
          pair.2.closed pair.1 happening)
        ({ today := today }, {}) happenings) ∧
    ¬∀ (rules : OrbRules) (today : Int) (happenings : List OrbHappening),
      Runs.Along (followed rules)
        (fun pair happening =>
          SignalsFresh rules Taken pair.2.last pair.2.everClosed pair.1 happening)
        ({ today := today }, {}) happenings := by
  refine ⟨?_, ?_, ?_⟩
  · intro fresh
    have along := fresh {} 20208 crossedHalted (by
      simp only [crossedHalted, List.forall_mem_cons, PositivePrice, printed]
      refine ⟨trivial, ?_, trivial, ?_, trivial, ?_, fun _ inside => absurd inside
        List.not_mem_nil⟩
      all_goals decide +kernel)
    obtain ⟨refused, t, _, _, crosses, _⟩ := along.2.2.2.2.2.1
      { sig := .buy, price := 106, reason := "orb_breakout_long" } (by decide +kernel) (Or.inl rfl)
    have inside := (crosses.above rfl).2 { price := 105, halted := true } (by decide +kernel)
      trivial
    revert inside
    decide +kernel
  · intro fresh
    have along := fresh {} 20208 crossedBelowZero
    obtain ⟨refused, t, _, _, crosses, _⟩ := along.2.2.1
      { sig := .sell, price := -26, reason := "orb_breakout_short" } (by decide +kernel)
      (Or.inr rfl)
    have inside := (crosses.below rfl).2 { price := -25, halted := false } (by decide +kernel) rfl
    revert inside
    decide +kernel
  · intro fresh
    have along := fresh {} 20208 crossedAgain
    obtain ⟨refused, t, same, _, _, admitted⟩ := along.2.2.2.2.2.2.2.1
      { sig := .buy, price := 105, reason := "orb_breakout_long" } (by decide +kernel) (Or.inl rfl)
    have cooled := admitted.cooled (by decide) (afterOpen 2460) (by decide +kernel)
    cases same
    revert cooled
    decide

end HostedOrb

end RithmicEngine
