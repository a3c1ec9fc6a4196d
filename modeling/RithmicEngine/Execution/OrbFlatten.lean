import RithmicEngine.Base.Runs
import RithmicEngine.Execution.OrbStrategy
/-!
# The opening-range engine's end of the day

A host checks the Eastern clock against the flatten time all day and resets the
session when the trading date rolls at 18:00. The flatten is signalled once a session,
and the hour of an evening check lies past the flatten time as well: the first check
after the roll spends the flatten of the day that has just begun.
-/
namespace RithmicEngine

/-- What happens to a hosted opening-range engine. The executor checks the clock and
then the date in each pass of its timer; the paper engine checks the date first. -/
inductive OrbHappening
  | tick (refused : Bool) (t : OrbTick)
  | checkEod (clock : Int)
  | checkDate (clock : Int)
  | tradeClosed
  | halt (reason : String)
  | unhalt
  | gapReset
  | seedTrades (n : Int)
  | seedRange (high low : ℚ)

/-- The engine beside the trading date of its host. -/
structure HostedOrb where
  strategy : OrbStrategy := {}
  today : Int := 0
  deriving DecidableEq, Repr

namespace HostedOrb

variable (rules : OrbRules)

/-- The host's next state, and what the strategy signals. -/
def handle (x : HostedOrb) (happening : OrbHappening) : HostedOrb × Option OrbEmission :=
  match happening with
  | .tick refused t =>
    let (strategy, emission) := x.strategy.onTick rules refused t
    ({ x with strategy := strategy }, emission)
  | .checkEod clock =>
    let (strategy, emission) := x.strategy.checkEod rules (etHour clock) (etMinute clock)
    ({ x with strategy := strategy }, emission)
  | .checkDate clock =>
    if tradingDate clock = x.today then (x, none)
    else ({ strategy := x.strategy.resetSession, today := tradingDate clock }, none)
  | .tradeClosed => ({ x with strategy := x.strategy.notifyTradeFilled rules }, none)
  | .halt reason => ({ x with strategy := x.strategy.haltTrading reason }, none)
  | .unhalt => ({ x with strategy := x.strategy.unhaltTrading }, none)
  | .gapReset => ({ x with strategy := x.strategy.resetSession }, none)
  | .seedTrades n => ({ x with strategy := x.strategy.seedTradesToday n }, none)
  | .seedRange high low => ({ x with strategy := x.strategy.seedOrbRange high low }, none)

def step (x : HostedOrb) (happening : OrbHappening) : HostedOrb := (x.handle rules happening).1

def emits (x : HostedOrb) (happening : OrbHappening) : Option OrbEmission :=
  (x.handle rules happening).2

/-! ## The flatten of a position -/

/-- What should be known of the last position that was signalled: whether a flatten was
signalled since, and whether the session's flatten had been spent before. -/
structure EntryNote where
  flattened : Bool := false
  late : Bool := false
  deriving DecidableEq, Repr

def note (entry : EntryNote) (x : HostedOrb) (happening : OrbHappening) (_ : HostedOrb) :
    EntryNote :=
  match x.emits rules happening with
  | none => entry
  | some emission =>
    match emission.sig with
    | .flattenEod => { entry with flattened := true }
    | _ => { late := x.strategy.eodEmitted }

/-- A run with its last entry noted beside it. -/
def watch : HostedOrb × EntryNote → OrbHappening → HostedOrb × EntryNote :=
  Runs.observe (step rules) (note rules)

/-- The Eastern time lies at or past the flatten time and before 18:00. -/
def closesDay (clock : Int) : Bool :=
  OrbStrategy.pastFlatten rules (etHour clock) (etMinute clock) && decide (etHour clock < 18)

/-- After a check between the flatten time and 18:00 a flatten has been signalled for
the position that the strategy is in. -/
def FlattenedInTime (pair : HostedOrb × EntryNote) (happening : OrbHappening) : Prop :=
  match happening with
  | .checkEod clock =>
    closesDay rules clock = true → pair.1.strategy.session.inPosition = true →
      (watch rules pair happening).2.flattened = true
  | _ => True

/-- A check between the flatten time and 18:00 finds no position that was entered after
the session's flatten had been spent. -/
def HeldInTime (pair : HostedOrb × EntryNote) (happening : OrbHappening) : Prop :=
  match happening with
  | .checkEod clock =>
    closesDay rules clock = true → pair.1.strategy.session.inPosition = true → pair.2.late = false
  | _ => True

/-- No entry is signalled once the session's flatten has been spent. -/
def EntersInTime (x : HostedOrb) (happening : OrbHappening) : Prop :=
  x.strategy.eodEmitted = true →
    (x.emits rules happening).all (fun emission => decide (emission.sig = .flattenEod)) = true

instance (pair : HostedOrb × EntryNote) (happening : OrbHappening) :
    Decidable (FlattenedInTime rules pair happening) :=
  match happening with
  | .checkEod _ => inferInstanceAs (Decidable (_ → _ → _))
  | .tick _ _ => isTrue trivial
  | .checkDate _ => isTrue trivial
  | .tradeClosed => isTrue trivial
  | .halt _ => isTrue trivial
  | .unhalt => isTrue trivial
  | .gapReset => isTrue trivial
  | .seedTrades _ => isTrue trivial
  | .seedRange _ _ => isTrue trivial

/-- The flatten of a session that was spent after the entry was signalled for it. -/
structure Noted (pair : HostedOrb × EntryNote) : Prop where
  flattened : pair.1.strategy.session.inPosition = true →
    pair.2.flattened = (pair.1.strategy.eodEmitted && !pair.2.late)
  late : pair.1.strategy.session.inPosition = true → pair.2.late = true →
    pair.1.strategy.eodEmitted = true

theorem Noted.start (today : Int) : Noted ({ today := today }, {}) where
  flattened := nofun
  late := nofun

variable {date : Int} {pair : HostedOrb × EntryNote}

/-- A happening that signals nothing and starts no session keeps the note. -/
theorem Noted.of_kept (noted : Noted pair) {y : HostedOrb}
    (emitted : y.strategy.eodEmitted = pair.1.strategy.eodEmitted)
    (position : y.strategy.session.inPosition = true → pair.1.strategy.session.inPosition = true) :
    Noted (y, pair.2) where
  flattened := by
    intro held
    rw [emitted]
    exact noted.flattened (position held)
  late := by
    intro held late
    rw [emitted]
    exact noted.late (position held) late

/-- A strategy in no position has nothing to flatten. -/
theorem Noted.of_flat {x : HostedOrb} (flat : x.strategy.session.inPosition = false)
    (entry : EntryNote) : Noted (x, entry) where
  flattened := fun held => absurd (flat.symm.trans held) Bool.false_ne_true
  late := fun held => absurd (flat.symm.trans held) Bool.false_ne_true

/-- A tick keeps the note of the session's flatten true. -/
theorem Noted.tick (noted : Noted pair) (refused : Bool) (t : OrbTick) :
    Noted (watch rules pair (.tick refused t)) := by
  obtain ⟨x, entry⟩ := pair
  obtain ⟨emitted, ⟨silent, position⟩ | ⟨emission, signals, entering, flat, taken⟩⟩ :=
    OrbStrategy.onTick_cases rules refused t x.strategy
  · have unnoted : watch rules (x, entry) (.tick refused t) =
        ({ x with strategy := (x.strategy.onTick rules refused t).1 }, entry) := by
      simp only [watch, Runs.observe, note, emits, step, handle, silent]
    rw [unnoted]
    exact noted.of_kept emitted (fun held => position.symm.trans held)
  · have renoted : watch rules (x, entry) (.tick refused t) =
        ({ x with strategy := (x.strategy.onTick rules refused t).1 },
          { late := x.strategy.eodEmitted }) := by
      simp only [watch, Runs.observe, note, emits, step, handle, signals]
      obtain buys | sells := entering
      · rw [buys]
      · rw [sells]
    rw [renoted]
    constructor
    · intro _
      simp only [emitted]
      exact (Bool.and_not_self x.strategy.eodEmitted).symm
    · intro _ late
      exact emitted.trans late

/-- The check of the clock keeps it true too. -/
theorem Noted.checkEod (noted : Noted pair) (clock : Int) :
    Noted (watch rules pair (.checkEod clock)) := by
  obtain ⟨x, entry⟩ := pair
  by_cases due : OrbStrategy.pastFlatten rules (etHour clock) (etMinute clock) = true ∧
      x.strategy.eodEmitted = false
  · have noted' : watch rules (x, entry) (.checkEod clock) =
        ({ x with strategy := { x.strategy with eodEmitted := true } },
          { entry with flattened := true }) := by
      simp [watch, Runs.observe, note, emits, step, handle, OrbStrategy.checkEod, due]
    rw [noted']
    constructor
    · intro held
      have timely : entry.late = false := by
        by_contra late
        have spent := noted.late held (Bool.not_eq_false _ ▸ late)
        exact Bool.false_ne_true (due.2.symm.trans spent)
      simp [timely]
    · exact fun _ _ => rfl
  · have same : watch rules (x, entry) (.checkEod clock) = (x, entry) := by
      simp [watch, Runs.observe, note, emits, step, handle, OrbStrategy.checkEod, due]
    rw [same]
    exact noted

/-- The check of the date keeps the record. -/
theorem Noted.checkDate (noted : Noted pair) (clock : Int) :
    Noted (watch rules pair (.checkDate clock)) := by
  obtain ⟨x, entry⟩ := pair
  by_cases same : tradingDate clock = x.today
  · have unmoved : watch rules (x, entry) (.checkDate clock) = (x, entry) := by
      simp [watch, Runs.observe, note, emits, step, handle, same]
    rw [unmoved]
    exact noted
  · have rolled : watch rules (x, entry) (.checkDate clock) =
        ({ strategy := x.strategy.resetSession, today := tradingDate clock }, entry) := by
      simp [watch, Runs.observe, note, emits, step, handle, same]
    rw [rolled]
    exact Noted.of_flat rfl entry

/-- Every happening keeps the note true. By the happening. -/
theorem Noted.step {pair : HostedOrb × EntryNote} (noted : Noted pair)
    (happening : OrbHappening) : Noted (watch rules pair happening) := by
  cases happening with
  | tick refused t => exact noted.tick rules refused t
  | checkEod clock => exact noted.checkEod rules clock
  | checkDate clock => exact noted.checkDate rules clock
  | tradeClosed => exact Noted.of_flat rfl pair.2
  | halt reason => exact noted.of_kept rfl id
  | unhalt =>
    refine noted.of_kept (y := { pair.1 with strategy := pair.1.strategy.unhaltTrading }) ?_ ?_
    · simp only [OrbStrategy.unhaltTrading]
      split
      · rfl
      · rfl
    · simp only [OrbStrategy.unhaltTrading]
      split
      · exact id
      · exact id
  | gapReset => exact Noted.of_flat rfl pair.2
  | seedTrades n => exact noted.of_kept rfl id
  | seedRange high low => exact noted.of_kept rfl id

/-! ## The condition -/

/-- Past the flatten time the check spends the session's flatten. -/
theorem watch_checkEod (pair : HostedOrb × EntryNote) {clock : Int}
    (past : OrbStrategy.pastFlatten rules (etHour clock) (etMinute clock) = true) :
    (watch rules pair (.checkEod clock)).1.strategy.session = pair.1.strategy.session ∧
      (watch rules pair (.checkEod clock)).1.strategy.eodEmitted = true ∧
      (watch rules pair (.checkEod clock)).2.late = pair.2.late := by
  cases spent : pair.1.strategy.eodEmitted with
  | true =>
    simp [watch, Runs.observe, note, emits, step, handle, OrbStrategy.checkEod, spent]
  | false =>
    simp [watch, Runs.observe, note, emits, step, handle, OrbStrategy.checkEod, spent, past]

/-- A position is flattened in time exactly where it was entered in time. -/
theorem Noted.flattenedInTime_iff (noted : Noted pair) (happening : OrbHappening) :
    FlattenedInTime rules pair happening ↔ HeldInTime rules pair happening := by
  cases happening with
  | checkEod clock =>
    have after : closesDay rules clock = true → pair.1.strategy.session.inPosition = true →
        (watch rules pair (.checkEod clock)).2.flattened = !pair.2.late := by
      intro closes held
      simp only [closesDay, Bool.and_eq_true] at closes
      obtain ⟨same, spent, late⟩ := watch_checkEod rules pair closes.1
      have flattened := (noted.checkEod rules clock).flattened
      rw [same, spent, late, Bool.true_and] at flattened
      exact flattened held
    constructor
    · intro inTime closes held
      have flattened := inTime closes held
      rw [after closes held] at flattened
      exact Bool.not_eq_true' _ ▸ flattened
    · intro inTime closes held
      rw [after closes held, inTime closes held]
      rfl
  | tick _ _ => exact Iff.rfl
  | checkDate _ => exact Iff.rfl
  | tradeClosed => exact Iff.rfl
  | halt _ => exact Iff.rfl
  | unhalt => exact Iff.rfl
  | gapReset => exact Iff.rfl
  | seedTrades _ => exact Iff.rfl
  | seedRange _ _ => exact Iff.rfl

/-- An entry that is signalled before the session's flatten is spent is in time. -/
theorem watch_inTime {happening : OrbHappening} (timely : pair.2.late = false)
    (enters : EntersInTime rules pair.1 happening) :
    (watch rules pair happening).2.late = false := by
  obtain ⟨x, entry⟩ := pair
  have noted : (watch rules (x, entry) happening).2 =
      note rules entry x happening (x.step rules happening) := rfl
  rw [noted, note]
  cases emits : x.emits rules happening with
  | none => exact timely
  | some emission =>
    simp only
    split
    · exact timely
    · next entering =>
      by_contra late
      have spent : x.strategy.eodEmitted = true := Bool.not_eq_false _ ▸ late
      have flattens := enters spent
      rw [emits] at flattens
      exact entering (of_decide_eq_true flattens)

/-- Over every run of a hosted engine the position at a check between the flatten time
and 18:00 has been flattened, exactly where it was not entered after its session's
flatten had been spent; so it is where no entry is signalled after that. -/
theorem flattened_in_time_iff (today : Int) (happenings : List OrbHappening) :
    (Runs.Along (watch rules) (FlattenedInTime rules) ({ today := today }, {}) happenings ↔
      Runs.Along (watch rules) (HeldInTime rules) ({ today := today }, {}) happenings) ∧
    (Runs.Along (step rules) (EntersInTime rules) { today := today } happenings →
      Runs.Along (watch rules) (FlattenedInTime rules) ({ today := today }, {}) happenings) := by
  have exactly := Runs.along_iff_of_invariant (watch rules) Noted
    (fun _ happening noted => noted.flattenedInTime_iff rules happening)
    (fun _ happening noted _ => noted.step rules happening)
    ({ today := today }, {}) happenings (Noted.start today)
  refine ⟨exactly, fun enters => exactly.mpr ?_⟩
  have held : ∀ (pair : HostedOrb × EntryNote) (happening : OrbHappening),
      pair.2.late = false → EntersInTime rules pair.1 happening →
      HeldInTime rules pair happening := by
    intro pair happening timely _
    cases happening with
    | checkEod clock => exact fun _ _ => timely
    | _ => trivial
  have observed := (Runs.along_observe_iff (step rules) (note rules) (EntersInTime rules)
    ({ today := today }, {}) happenings).mpr enters
  exact Runs.along_of_invariant (watch rules) (fun pair => pair.2.late = false) held
    (fun _ _ timely enters => watch_inTime rules timely enters) ({ today := today }, {}) happenings
    rfl observed

/-! ## A day on which the flatten is spent -/

/-- The session goes on: the date does not roll and no hole resets it. -/
def SessionGoesOn (x : HostedOrb) (happening : OrbHappening) : Prop :=
  match happening with
  | .checkDate clock => tradingDate clock = x.today
  | .gapReset => False
  | _ => True

/-- The executor's passes of so many minutes, one each minute. -/
def passes : Int → Nat → List OrbHappening
  | _, 0 => []
  | clock, n + 1 => .checkEod clock :: .checkDate clock :: passes (clock + 1) n

/-- The flatten of this trading date is spent. -/
def Spent (date : Int) (pair : HostedOrb × EntryNote) : Prop :=
  pair.1.strategy.eodEmitted = true ∧ pair.1.today = date

/-- The passes of a trading date whose flatten is spent change nothing. -/
theorem Spent.run_passes (spent : Spent date pair) (n : Nat) (clock : Int)
    (sameDate : ∀ later : Int, clock ≤ later → later < clock + n → tradingDate later = date) :
    Runs.run (watch rules) pair (passes clock n) = pair := by
  induction n generalizing clock with
  | zero => rfl
  | succ n ih =>
    have checked : watch rules pair (.checkEod clock) = pair := by
      simp [watch, Runs.observe, note, emits, step, handle, OrbStrategy.checkEod, spent.1]
    have here : tradingDate clock = pair.1.today := by
      rw [spent.2]
      exact sameDate clock (Int.le_refl clock) (by omega)
    have dated : watch rules pair (.checkDate clock) = pair := by
      simp [watch, Runs.observe, note, emits, step, handle, here]
    rw [passes, Runs.run_cons, checked, Runs.run_cons, dated]
    apply ih
    intro later after before
    exact sameDate later (by omega) (by omega)

/-- What follows such passes starts where they did. -/
theorem Spent.along_passes (spent : Spent date pair) (n : Nat) (clock : Int)
    (sameDate : ∀ later : Int, clock ≤ later → later < clock + n → tradingDate later = date)
    {allowed : HostedOrb × EntryNote → OrbHappening → Prop} {rest : List OrbHappening}
    (along : Runs.Along (watch rules) allowed pair (passes clock n ++ rest)) :
    Runs.Along (watch rules) allowed pair rest := by
  have later := ((Runs.along_append (watch rules) allowed pair (passes clock n) rest).mp along).2
  rw [spent.run_passes rules n clock sameDate] at later
  exact later

theorem Spent.tick (spent : Spent date pair) (refused : Bool) (t : OrbTick) :
    Spent date (watch rules pair (.tick refused t)) :=
  ⟨(OrbStrategy.onTick_cases rules refused t pair.1.strategy).1.trans spent.1, spent.2⟩

/-- A tick of 2025-04-30, so many minutes after the midnight it began with. -/
def tickAt (clock : Int) (price : ℚ) : OrbHappening :=
  .tick false { tsMicros := (1745985600 + clock * 60) * 1000000, price := price }

/-- One pass each minute, from 17:50 on the day before to the flatten time, with the
opening range at 09:30 and a cross out of it at 10:10. -/
def overnightRun : List OrbHappening :=
  passes (-370) 12 ++ (passes (-358) 929 ++ tickAt 570 20000 :: (passes 571 1 ++
    tickAt 571 20010 :: (passes 572 14 ++ tickAt 585 20005 :: (passes 586 25 ++
      tickAt 610 20011 :: (passes 611 344 ++ passes 955 1)))))

/-- The engine and the note after the evening's first check. -/
def spentEvening : HostedOrb × EntryNote :=
  ({ strategy := { eodEmitted := true }, today := 0 }, { flattened := true })

/-- The evening's first check spends the flatten of the morning's position. -/
theorem overnight_not_flattened :
    ¬ Runs.Along (watch {}) (FlattenedInTime {}) ({ today := -1 }, {}) overnightRun := by
  have sameDate (first : Int) (n : Nat) (opens : -360 ≤ first) (closes : first + n ≤ 1080) :
      ∀ later : Int, first ≤ later → later < first + n → tradingDate later = 0 := by
    intro later after before
    simp only [tradingDate]
    omega
  have evening : Runs.run (watch {}) ({ today := -1 }, {}) (passes (-370) 12) = spentEvening := by
    decide +kernel
  have spent : Spent 0 spentEvening := ⟨rfl, rfl⟩
  intro flattened
  have night := ((Runs.along_append _ _ _ (passes (-370) 12) _).mp flattened).2
  rw [evening] at night
  have opening := (spent.along_passes {} 929 (-358) (sameDate _ _ (by decide) (by decide)) night).2
  have spent := spent.tick {} false
    { tsMicros := (1745985600 + 570 * 60) * 1000000, price := 20000 }
  have widened := (spent.along_passes {} 1 571 (sameDate _ _ (by decide) (by decide)) opening).2
  have spent := spent.tick {} false
    { tsMicros := (1745985600 + 571 * 60) * 1000000, price := 20010 }
  have ranged := (spent.along_passes {} 14 572 (sameDate _ _ (by decide) (by decide)) widened).2
  have spent := spent.tick {} false
    { tsMicros := (1745985600 + 585 * 60) * 1000000, price := 20005 }
  have entered := (spent.along_passes {} 25 586 (sameDate _ _ (by decide) (by decide)) ranged).2
  have spent := spent.tick {} false
    { tsMicros := (1745985600 + 610 * 60) * 1000000, price := 20011 }
  have closing := spent.along_passes {} 344 611 (sameDate _ _ (by decide) (by decide)) entered
  revert closing
  decide +kernel

end HostedOrb

end RithmicEngine
