import Mathlib.Order.Bounds.Basic
import Mathlib.Tactic.Linarith
import RithmicEngine.Execution.OrbFlatten
/-!
# The opening range

The range is widened by every tick of its window and set by the first bar that closes
past its end, so that it is the range of the ticks that the strategy took in the window.
A halted strategy takes no tick. Once set the range stays until the session restarts.
-/
namespace RithmicEngine

namespace OrbStrategy

variable (rules : OrbRules)

/-- The Eastern minute of the day of a tick. -/
def etMinutes (t : OrbTick) : Int := (utcToEt t.tsMicros).1 * 60 + (utcToEt t.tsMicros).2

/-- The minute at which the window of the opening range is over. -/
def windowEnd : Int := rules.sessionOpenHour * 60 + rules.sessionOpenMin + rules.orbMinutes

/-- The tick lies in the window. -/
def inWindow (t : OrbTick) : Bool :=
  isInOrbWindow rules (utcToEt t.tsMicros).1 (utcToEt t.tsMicros).2

/-! ## What a tick comes to -/

/-- A bar that closes sets the range, or leaves the session as it is. -/
theorem handleCompletedBar_session (bar : MinuteBar) (t : OrbTick) (s : OrbStrategy) :
    handleCompletedBar rules bar (utcToEt t.tsMicros).1 (utcToEt t.tsMicros).2 s = s ∨
      (s.session.orbSet = false ∧ windowEnd rules ≤ etMinutes t ∧
        s.session.orbLow < s.session.orbHigh ∧
        handleCompletedBar rules bar (utcToEt t.tsMicros).1 (utcToEt t.tsMicros).2 s =
          { s with session := { s.session with orbSet := true } }) := by
  rw [handleCompletedBar]
  split
  next => exact Or.inl rfl
  next =>
    split
    next sets => exact Or.inr ⟨sets.1, sets.2.1, sets.2.2, rfl⟩
    next => exact Or.inl rfl

/-- The bars set the range at the most. -/
structure BarBuilt (t : OrbTick) (s s' : OrbStrategy) : Prop where
  rest : s' = { s with session := s'.session, currentBar := s'.currentBar }
  session : s'.session = s.session ∨
    (s.session.orbSet = false ∧ windowEnd rules ≤ etMinutes t ∧
      s.session.orbLow < s.session.orbHigh ∧ s'.session = { s.session with orbSet := true })

/-- What building a bar does, by the branch it takes. -/
theorem buildBar_built (t : OrbTick) (s : OrbStrategy) :
    BarBuilt rules t s (buildBar rules t s) := by
  have closes (bar : MinuteBar) (c : OrbStrategy)
      (same : c = { s with currentBar := c.currentBar }) (next : MinuteBar) :
      BarBuilt rules t s { handleCompletedBar rules bar (utcToEt t.tsMicros).1
        (utcToEt t.tsMicros).2 c with currentBar := next } := by
    rcases handleCompletedBar_session rules bar t c with stays | ⟨unset, past, width, sets⟩
    · rw [stays, same]
      exact ⟨rfl, Or.inl rfl⟩
    · rw [sets, same] at *
      exact ⟨rfl, Or.inr ⟨unset, past, width, rfl⟩⟩
  simp only [buildBar]
  split
  · split
    · exact closes _ _ rfl _
    · exact ⟨rfl, Or.inl rfl⟩
  · split
    · exact closes _ _ rfl _
    · exact ⟨rfl, Or.inl rfl⟩

/-- What a tick can come to, with the strategy as its bar was built and the tick seen. -/
inductive Ticks (refused : Bool) (t : OrbTick) (s : OrbStrategy) :
    OrbStrategy × Option OrbEmission → Prop
  | ignored (halted : s.session.riskHalted = true) : Ticks refused t s (s, none)
  | anchored (live : s.session.riskHalted = false) (seeded : s.seeded = true) :
    Ticks refused t s ({ seeTick t (buildBar rules t s) with seeded := false }, none)
  | widened (live : s.session.riskHalted = false) (unseeded : s.seeded = false)
    (unset : (buildBar rules t s).session.orbSet = false) :
    Ticks refused t s (widenRange rules t (seeTick t (buildBar rules t s)), none)
  | passed (live : s.session.riskHalted = false) (unseeded : s.seeded = false)
    (set : (buildBar rules t s).session.orbSet = true) :
    Ticks refused t s (seeTick t (buildBar rules t s), none)
  | signalled (live : s.session.riskHalted = false) (unseeded : s.seeded = false)
    (set : (buildBar rules t s).session.orbSet = true) {emission : OrbEmission}
    (admitted : mayEnter rules t (buildBar rules t s) = true)
    (breaks : breakout rules t.price s.lastPrice (seeTick t (buildBar rules t s)) =
      some emission) :
    Ticks refused t s (takePosition rules refused (seeTick t (buildBar rules t s)), some emission)

/-- What one tick does to the strategy, by the branch of the source it takes. -/
theorem onTick_ticks (refused : Bool) (t : OrbTick) (s : OrbStrategy) :
    Ticks rules refused t s (onTick rules refused t s) := by
  have built := buildBar_built rules t s
  have anchor : (seeTick t (buildBar rules t s)).seeded = s.seeded := by
    rw [built.rest]
    rfl
  rw [onTick]
  split
  next halted => exact .ignored halted
  next trading =>
    have live : s.session.riskHalted = false := Bool.eq_false_iff.mpr trading
    simp only [anchor]
    split
    next seeded => exact .anchored live seeded
    next fresh =>
      have unseeded : s.seeded = false := Bool.eq_false_iff.mpr fresh
      split
      next unset => exact .widened live unseeded unset
      next open_ =>
        have set : (buildBar rules t s).session.orbSet = true := Bool.not_eq_false _ ▸ open_
        split
        next => exact .passed live unseeded set
        next admitted =>
          rw [checkBreakout]
          cases breaks : breakout rules t.price s.lastPrice (seeTick t (buildBar rules t s)) with
          | none => exact .passed live unseeded set
          | some emission =>
            exact .signalled live unseeded set (Bool.not_eq_false _ ▸ admitted) breaks

/-! ## The range of a list of prices -/

/-- The session's range is that of these prices, or as it was before the first. -/
structure RangeOf (prices : List ℚ) (high low : ℚ) : Prop where
  none : prices = [] → high = -doubleMax ∧ low = doubleMax
  some : prices ≠ [] → IsGreatest {price | price ∈ prices} high ∧
    IsLeast {price | price ∈ prices} low

theorem RangeOf.start : RangeOf [] (-doubleMax) doubleMax where
  none _ := ⟨rfl, rfl⟩
  some given := absurd rfl given

variable {prices : List ℚ}

/-- A range of some width is that of some prices. -/
theorem RangeOf.wide {high low : ℚ} (range : RangeOf prices high low) (width : low < high) :
    IsGreatest {price | price ∈ prices} high ∧ IsLeast {price | price ∈ prices} low := by
  apply range.some
  intro empty
  obtain ⟨top, bottom⟩ := range.none empty
  rw [top, bottom] at width
  have positive : (0 : ℚ) < doubleMax := by decide +kernel
  linarith

/-- One more price, a finite double. -/
theorem RangeOf.widen {high low price : ℚ} (range : RangeOf prices high low)
    (finite : |price| ≤ doubleMax) :
    RangeOf (prices ++ [price]) (if price > high then price else high)
      (if price < low then price else low) := by
  obtain ⟨below, above⟩ := abs_le.mp finite
  have members : {other | other ∈ prices ++ [price]} = insert price {other | other ∈ prices} := by
    ext other
    simp only [Set.mem_ofPred_eq, List.mem_append, List.mem_singleton, Set.mem_insert_iff]
    exact Or.comm
  have top : (if price > high then price else high) = max price high := by
    split
    next higher => exact (max_eq_left higher.le).symm
    next lower => exact (max_eq_right (not_lt.mp lower)).symm
  have bottom : (if price < low then price else low) = min price low := by
    split
    next lower => exact (min_eq_left lower.le).symm
    next higher => exact (min_eq_right (not_lt.mp higher)).symm
  refine ⟨fun empty => absurd empty (List.append_ne_nil_of_right_ne_nil _ (List.cons_ne_nil _ _)),
    fun _ => ?_⟩
  rw [members, top, bottom]
  cases prices with
  | nil =>
    obtain ⟨first, last⟩ := range.none rfl
    rw [first, last, max_eq_left below, min_eq_left above]
    simp only [List.not_mem_nil, Set.ofPred_false, insert_empty_eq]
    exact ⟨isGreatest_singleton, isLeast_singleton⟩
  | cons other rest =>
    obtain ⟨greatest, least⟩ := range.some (List.cons_ne_nil _ _)
    exact ⟨greatest.insert price, least.insert price⟩

/-- A tick of the window widens the range by its price. -/
theorem widenRange_range {t : OrbTick} (finite : |t.price| ≤ doubleMax) {s : OrbStrategy}
    (range : RangeOf prices s.session.orbHigh s.session.orbLow) :
    RangeOf (if inWindow rules t = true then prices ++ [t.price] else prices)
      (widenRange rules t s).session.orbHigh (widenRange rules t s).session.orbLow := by
  rw [widenRange, inWindow]
  split
  · exact range.widen finite
  · exact range

theorem widenRange_unset (t : OrbTick) (s : OrbStrategy) :
    (widenRange rules t s).session.orbSet = s.session.orbSet ∧
      (widenRange rules t s).seeded = s.seeded := by
  rw [widenRange]
  split
  · exact ⟨rfl, rfl⟩
  · exact ⟨rfl, rfl⟩

end OrbStrategy

namespace HostedOrb

variable (rules : OrbRules)

/-- The prices of the window's ticks since the last restart of the session, all of them
and those that came while trading was not halted. -/
structure WindowLog where
  received : List ℚ := []
  taken : List ℚ := []
  deriving DecidableEq

def WindowLog.note (log : WindowLog) (x : HostedOrb) (happening : OrbHappening) (_ : HostedOrb) :
    WindowLog :=
  match happening with
  | .tick _ t =>
    if OrbStrategy.inWindow rules t then
      { received := log.received ++ [t.price]
        taken := if x.strategy.session.riskHalted then log.taken else log.taken ++ [t.price] }
    else log
  | .checkDate clock => if tradingDate clock = x.today then log else {}
  | .gapReset => {}
  | _ => log

/-- A run with its window noted beside it. -/
def recorded : HostedOrb × WindowLog → OrbHappening → HostedOrb × WindowLog :=
  Runs.observe (step rules) (WindowLog.note rules)

/-- The prices that ticks come with are finite doubles. -/
def Finite : OrbHappening → Prop
  | .tick _ t => |t.price| ≤ doubleMax
  | _ => True

def Seeds : OrbHappening → Prop
  | .seedRange _ _ => True
  | _ => False

/-- A range that is set by no seed is set by a tick past the window, to the range of these
prices; one that is set stays until the session restarts or a range is seeded. -/
structure ExactRange (prices : List ℚ) (x : HostedOrb) (happening : OrbHappening)
    (x' : HostedOrb) : Prop where
  set : x.strategy.session.orbSet = false → x'.strategy.session.orbSet = true →
    ¬Seeds happening → ∃ refused t, happening = .tick refused t ∧
      OrbStrategy.windowEnd rules ≤ OrbStrategy.etMinutes t ∧
      IsGreatest {price | price ∈ prices} x'.strategy.session.orbHigh ∧
      IsLeast {price | price ∈ prices} x'.strategy.session.orbLow
  stays : x.strategy.session.orbSet = true → SessionGoesOn x happening → ¬Seeds happening →
    x'.strategy.session.orbSet = true ∧
      x'.strategy.session.orbHigh = x.strategy.session.orbHigh ∧
      x'.strategy.session.orbLow = x.strategy.session.orbLow

/-- A range that is not set yet is that of the prices taken so far. -/
structure Widened (s : OrbStrategy) (taken : List ℚ) : Prop where
  seeded : s.seeded = true → s.session.orbSet = true
  range : s.session.orbSet = false → OrbStrategy.RangeOf taken s.session.orbHigh s.session.orbLow

/-- Two strategies stand at the same range. -/
structure SameRange (s s' : OrbStrategy) : Prop where
  set : s'.session.orbSet = s.session.orbSet
  high : s'.session.orbHigh = s.session.orbHigh
  low : s'.session.orbLow = s.session.orbLow

variable {rules} {taken : List ℚ}

theorem Widened.reset (s : OrbStrategy) : Widened s.resetSession [] where
  seeded := nofun
  range _ := OrbStrategy.RangeOf.start

theorem Widened.of_same {s s' : OrbStrategy} (widened : Widened s taken) (same : SameRange s s')
    (seeded : s'.seeded = s.seeded) : Widened s' taken where
  seeded := by
    rw [seeded, same.set]
    exact widened.seeded
  range := by
    rw [same.set, same.high, same.low]
    exact widened.range

variable {x : HostedOrb}

theorem ExactRange.of_same {x' : HostedOrb} {happening : OrbHappening}
    (same : SameRange x.strategy x'.strategy) : ExactRange rules taken x happening x' where
  set unset isSet _ := absurd (unset.symm.trans (same.set.symm.trans isSet)) Bool.false_ne_true
  stays isSet _ _ := ⟨same.set.trans isSet, same.high, same.low⟩

/-- A range that a bar has set, or that was set before. -/
theorem Widened.sets {x' : HostedOrb} (widened : Widened x.strategy taken) (refused : Bool)
    {t : OrbTick} (set : (OrbStrategy.buildBar rules t x.strategy).session.orbSet = true)
    (same : SameRange (OrbStrategy.buildBar rules t x.strategy) x'.strategy) (later : List ℚ) :
    Widened x'.strategy later ∧ ExactRange rules taken x (.tick refused t) x' := by
  have isSet : x'.strategy.session.orbSet = true := same.set.trans set
  refine ⟨⟨fun _ => isSet, fun unset => ?_⟩, ?_⟩
  · exact absurd (unset.symm.trans isSet) Bool.false_ne_true
  · rcases (OrbStrategy.buildBar_built rules t x.strategy).session with
      stays | ⟨unset, past, width, sets⟩
    · refine ExactRange.of_same ⟨same.set.trans ?_, same.high.trans ?_, same.low.trans ?_⟩
      · rw [stays]
      · rw [stays]
      · rw [stays]
    · have high : x'.strategy.session.orbHigh = x.strategy.session.orbHigh := by
        rw [same.high, sets]
      have low : x'.strategy.session.orbLow = x.strategy.session.orbLow := by
        rw [same.low, sets]
      constructor
      · intro _ _ _
        rw [high, low]
        exact ⟨refused, t, rfl, past, (widened.range unset).wide width⟩
      · intro before _ _
        exact absurd (unset.symm.trans before) Bool.false_ne_true

/-- The prices taken once a tick has come. -/
def takes (rules : OrbRules) (t : OrbTick) (s : OrbStrategy) (taken : List ℚ) : List ℚ :=
  if s.session.riskHalted = false ∧ OrbStrategy.inWindow rules t = true then taken ++ [t.price]
  else taken

/-- One tick widens the range by its price when it is taken, and by nothing when it is not. -/
theorem Widened.tick (widened : Widened x.strategy taken) (refused : Bool) {t : OrbTick}
    (finite : |t.price| ≤ doubleMax) :
    Widened (x.step rules (.tick refused t)).strategy (takes rules t x.strategy taken) ∧
      ExactRange rules taken x (.tick refused t) (x.step rules (.tick refused t)) := by
  have ticks := OrbStrategy.onTick_ticks rules refused t x.strategy
  have after : (x.step rules (.tick refused t)).strategy =
      (OrbStrategy.onTick rules refused t x.strategy).1 := rfl
  obtain ⟨x', isAfter⟩ : ∃ x', x' = x.step rules (.tick refused t) := ⟨_, rfl⟩
  rw [← isAfter] at after ⊢
  have built := OrbStrategy.buildBar_built rules t x.strategy
  cases result : OrbStrategy.onTick rules refused t x.strategy with
  | mk s emission =>
    rw [result] at ticks after
    simp only at after
    cases ticks with
    | ignored halted =>
      have same : takes rules t x.strategy taken = taken := by
        simp [takes, halted]
      rw [same, after]
      refine ⟨widened, ExactRange.of_same ?_⟩
      rw [after]
      exact ⟨rfl, rfl, rfl⟩
    | anchored live seeded =>
      have before := widened.seeded seeded
      refine widened.sets refused ?_ ?_ _
      · rcases built.session with stays | ⟨_, _, _, sets⟩
        · rw [stays]
          exact before
        · rw [sets]
      · rw [after]
        exact ⟨rfl, rfl, rfl⟩
    | widened live unseeded unset =>
      have stays : (OrbStrategy.buildBar rules t x.strategy).session = x.strategy.session := by
        rcases built.session with stays | ⟨_, _, _, sets⟩
        · exact stays
        · rw [sets] at unset
          exact absurd unset.symm Bool.false_ne_true
      have before : x.strategy.session.orbSet = false := by
        rw [stays] at unset
        exact unset
      obtain ⟨sameSet, sameSeeded⟩ := OrbStrategy.widenRange_unset rules t
        (OrbStrategy.seeTick t (OrbStrategy.buildBar rules t x.strategy))
      have isUnset : x'.strategy.session.orbSet = false := by
        rw [after]
        exact sameSet.trans unset
      refine ⟨⟨fun seeded => ?_, fun _ => ?_⟩, fun _ isSet => ?_, fun isSet => ?_⟩
      · have anchor : x'.strategy.seeded = x.strategy.seeded := by
          rw [after, sameSeeded, built.rest]
          rfl
        rw [anchor, unseeded] at seeded
        exact absurd seeded Bool.false_ne_true
      · have taken' : takes rules t x.strategy taken =
            if OrbStrategy.inWindow rules t = true then taken ++ [t.price] else taken := by
          simp [takes, live]
        have range : OrbStrategy.RangeOf taken
            (OrbStrategy.buildBar rules t x.strategy).session.orbHigh
            (OrbStrategy.buildBar rules t x.strategy).session.orbLow := by
          rw [stays]
          exact widened.range before
        rw [taken', after]
        exact OrbStrategy.widenRange_range rules finite range
      · exact absurd (isUnset.symm.trans isSet) Bool.false_ne_true
      · exact absurd (before.symm.trans isSet) Bool.false_ne_true
    | passed live unseeded set =>
      refine widened.sets refused set ?_ _
      rw [after]
      exact ⟨rfl, rfl, rfl⟩
    | signalled live unseeded set admitted breaks =>
      refine widened.sets refused set ?_ _
      rw [after]
      cases refused with
      | true => exact ⟨rfl, rfl, rfl⟩
      | false => exact ⟨rfl, rfl, rfl⟩

theorem SameRange.refl (s : OrbStrategy) : SameRange s s := ⟨rfl, rfl, rfl⟩

/-- One happening. -/
theorem Widened.step {x : HostedOrb} {log : WindowLog} (widened : Widened x.strategy log.taken)
    {happening : OrbHappening} (finite : Finite happening) :
    Widened (x.step rules happening).strategy
        (log.note rules x happening (x.step rules happening)).taken ∧
      ExactRange rules log.taken x happening (x.step rules happening) := by
  have idle {s : OrbStrategy} (same : SameRange x.strategy s)
      (seeded : s.seeded = x.strategy.seeded) :
      Widened s log.taken ∧
        ExactRange rules log.taken x happening { x with strategy := s } :=
    ⟨widened.of_same same seeded, ExactRange.of_same same⟩
  have restarts (today : Int) (ends : ¬SessionGoesOn x happening) :
      Widened x.strategy.resetSession [] ∧ ExactRange rules log.taken x happening
        { strategy := x.strategy.resetSession, today := today } := by
    refine ⟨Widened.reset x.strategy, fun _ isSet => ?_, fun _ goesOn => ?_⟩
    · exact absurd isSet Bool.false_ne_true
    · exact absurd goesOn ends
  cases happening with
  | tick refused t =>
    have same : (log.note rules x (.tick refused t) (x.step rules (.tick refused t))).taken =
        takes rules t x.strategy log.taken := by
      simp only [WindowLog.note, takes]
      cases halts : x.strategy.session.riskHalted with
      | true =>
        simp only [↓reduceIte, Bool.true_eq_false, false_and]
        split
        · rfl
        · rfl
      | false =>
        simp only [Bool.false_eq_true, ↓reduceIte, true_and]
        split
        · rfl
        · rfl
    rw [same]
    exact widened.tick refused finite
  | checkEod clock =>
    have after : ∃ spent, (x.strategy.checkEod rules (etHour clock) (etMinute clock)).1 =
        { x.strategy with eodEmitted := spent } := by
      rw [OrbStrategy.checkEod]
      split
      · exact ⟨true, rfl⟩
      · exact ⟨x.strategy.eodEmitted, rfl⟩
    obtain ⟨spent, checked⟩ := after
    have stepped : x.step rules (.checkEod clock) =
        { x with strategy := { x.strategy with eodEmitted := spent } } := by
      simp only [HostedOrb.step, handle, checked]
    rw [stepped]
    exact idle ⟨rfl, rfl, rfl⟩ rfl
  | checkDate clock =>
    simp only [HostedOrb.step, handle, WindowLog.note]
    split
    next => exact idle (SameRange.refl _) rfl
    next rolls => exact restarts _ rolls
  | tradeClosed => exact idle ⟨rfl, rfl, rfl⟩ rfl
  | halt reason => exact idle ⟨rfl, rfl, rfl⟩ rfl
  | unhalt =>
    have after : SameRange x.strategy x.strategy.unhaltTrading ∧
        x.strategy.unhaltTrading.seeded = x.strategy.seeded := by
      rw [OrbStrategy.unhaltTrading]
      split
      · exact ⟨⟨rfl, rfl, rfl⟩, rfl⟩
      · exact ⟨⟨rfl, rfl, rfl⟩, rfl⟩
    exact idle after.1 after.2
  | gapReset => exact restarts x.today id
  | seedTrades n => exact idle ⟨rfl, rfl, rfl⟩ rfl
  | seedRange high low =>
    refine ⟨⟨fun _ => rfl, fun unset => ?_⟩, fun _ _ unseeded => ?_, fun _ _ unseeded => ?_⟩
    · exact absurd unset Bool.true_eq_false.mp
    · exact absurd trivial unseeded
    · exact absurd trivial unseeded

/-- In every run of a hosted engine a range that is not seeded is set past its window, to
the highest and the lowest price that the strategy took there since the last restart, and
stays so until the next. -/
theorem range_exact (rules : OrbRules) (today : Int) (happenings : List OrbHappening)
    (finite : ∀ happening ∈ happenings, Finite happening) :
    Runs.Along (recorded rules)
      (fun pair happening =>
        ExactRange rules pair.2.taken pair.1 happening (pair.1.step rules happening))
      ({ today := today }, {}) happenings := by
  have start : Widened ({} : OrbStrategy) [] := ⟨nofun, fun _ => OrbStrategy.RangeOf.start⟩
  have free : Runs.Along (recorded rules) (fun _ _ => True) ({ today := today }, {}) happenings :=
    Runs.along_of_forall (recorded rules) (fun _ _ => trivial) _ happenings
  have along := Runs.along_and_of_mem (recorded rules) _ happenings free finite
  exact Runs.along_of_invariant (recorded rules)
    (fun pair => Widened pair.1.strategy pair.2.taken)
    (fun pair happening widened given => (Widened.step widened given.2).2)
    (fun pair happening widened given => (Widened.step widened given.2).1)
    _ happenings start along

/-- So many seconds after the open of a day. -/
def afterOpen (seconds : Int) : Int := (1746019800 + seconds) * 1000000

example : utcToEt (afterOpen 0) = (9, 30) := by decide

def tickTime : OrbHappening → Option Int
  | .tick _ t => some t.tsMicros
  | _ => none

/-- A halt of some minutes in the window of the opening range. -/
def haltedMorning : List OrbHappening :=
  [.tick false { tsMicros := afterOpen 0, price := 100 },
    .tick false { tsMicros := afterOpen 60, price := 101 },
    .halt "pg_feed_stale",
    .tick false { tsMicros := afterOpen 300, price := 110 },
    .unhalt,
    .tick false { tsMicros := afterOpen 900, price := 102 }]

theorem haltedMorning_finite : ∀ happening ∈ haltedMorning, Finite happening := by
  simp only [haltedMorning, List.forall_mem_cons, Finite]
  refine ⟨?_, ?_, trivial, ?_, trivial, ?_, fun _ inside => absurd inside List.not_mem_nil⟩
  all_goals decide +kernel

theorem haltedMorning_exact :
    Runs.Along (recorded {})
      (fun pair happening =>
        ExactRange {} pair.2.taken pair.1 happening (pair.1.step {} happening))
      ({ today := 20208 }, {}) haltedMorning :=
  range_exact {} 20208 haltedMorning haltedMorning_finite

/-- The range of such a window lacks the prices that came during the halt. -/
theorem halted_prices_missed :
    ¬∀ (rules : OrbRules) (today : Int) (happenings : List OrbHappening),
      0 ≤ rules.sessionOpenHour * 60 + rules.sessionOpenMin → OrbStrategy.windowEnd rules ≤ 1440 →
      (∀ happening ∈ happenings, Finite happening) →
      (happenings.filterMap tickTime).Pairwise (· ≤ ·) →
      Runs.Along (recorded rules)
        (fun pair happening =>
          ExactRange rules pair.2.received pair.1 happening (pair.1.step rules happening))
        ({ today := today }, {}) happenings := by
  intro exact_
  have along := exact_ {} 20208 haltedMorning (by decide) (by decide) haltedMorning_finite
    (by decide)
  obtain ⟨_, _, _, _, greatest, _⟩ := along.2.2.2.2.2.1.set (by decide +kernel)
    (by decide +kernel) id
  have within := greatest.2 (show (110 : ℚ) ∈ _ by decide +kernel)
  revert within
  decide +kernel

end HostedOrb

end RithmicEngine
