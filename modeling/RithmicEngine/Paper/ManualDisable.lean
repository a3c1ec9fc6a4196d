import RithmicEngine.Paper.BarredRunner
/-!
# A manual disable

The operator's rows and the account's limits both halt a strategy through its one halt
flag, which every reset of its session clears. The rollover applies only a halt of the
account again, and the end of a warm-up only those that a runner was built with; so a
disable lasts until an enable as long as no reset meets it without either. An enable asks
for nothing but the runner's own risk manager, and lifts a halt of the account with the
operator's.
-/
namespace RithmicEngine

/-! ## The fleet -/

namespace PaperEngine

open Runner (Bears Lasting Barred Spares)

variable (loop : LoopDesk)

/-- Something of every runner in its place. -/
def Each (p : Nat → Runner → Prop) (x : PaperEngine) : Prop :=
  ∀ member ∈ x.runners.zipIdx, p member.2 member.1

instance (p : Nat → Runner → Prop) [∀ i r, Decidable (p i r)] (x : PaperEngine) :
    Decidable (Each p x) := inferInstanceAs (Decidable (∀ member ∈ _, _))

theorem each_iff (p : Nat → Runner → Prop) (x : PaperEngine) :
    Each p x ↔ ∀ i r, x.runners[i]? = some r → p i r := by
  constructor
  · intro each i r here
    exact each (r, i) (List.mem_zipIdx_iff_getElem?.mpr here)
  · intro all member inside
    exact all member.2 member.1 (List.mem_zipIdx_iff_getElem?.mp inside)

/-- The stretches in which strategies may emit: the session's readings there, and what
each runner is served with. A row to disable or flatten is served without emissions. -/
def serving (x : PaperEngine) : Phase →
    Option (SessionRegime × (Nat → Runner → List RunnerEvent))
  | .gapGuard tsUs refeed =>
    let sameDay := !x.warmingUp && decide (etTradeDate x.prevTickTs = etTradeDate tsUs)
    some (x.regime, fun i _ =>
      if x.prevTickTs ≠ 0 ∧ tsUs - x.prevTickTs > loop.feedGapResetUs then
        [.gap (if sameDay then some (refeed i) else none)]
      else [])
  | .quote q signals => some (x.regime, fun i _ => .quote q :: (signals i).map .signal)
  | .minuteCheck tsUs ended =>
    let minute := (utcToEt tsUs).1 * 60 + (utcToEt tsUs).2
    some (x.regime, fun i r =>
      if minute = x.lastEodMinute then [] else if x.predates tsUs r then [] else checkEod ended i r)
  | .tick t bracket signals =>
    let date := if x.warmingUp then x.warmDate else x.curDate
    let et := utcToEt t.tsMicros
    some (x.regime.onTick date et.1 et.2 t.tsMicros t.price t.size, fun i r =>
      if x.predates t.tsMicros r then [] else .tick t (bracket i) :: (signals i).map .signal)
  | .wallCheck ended =>
    some (x.regime, fun i r => if x.warmingUp then [] else checkEod ended i r)
  | .enterTick _ _ _ => none
  | .caughtUp _ _ => none
  | .recheck _ => none
  | .wallRoll _ _ _ => none
  | .control _ _ _ => none

/-- In these stretches the fleet becomes what serving it so makes of it. -/
theorem step_serving {x : PaperEngine} {phase : Phase} {regime : SessionRegime}
    {plan : Nat → Runner → List RunnerEvent}
    (serves : x.serving loop phase = some (regime, plan)) :
    (x.step loop phase).runners = x.runners.mapIdx (serve plan regime) ∧
      (x.step loop phase).warmingUp = x.warmingUp ∧
      ∀ i r, ∀ event ∈ plan i r, event.keepsHalt = true ∧ event ≠ .endWarmup := by
  have signals : ∀ given : List EngineSignal, ∀ event ∈ given.map RunnerEvent.signal,
      event.keepsHalt = true ∧ event ≠ .endWarmup := by
    intro given event inside
    obtain ⟨s, _, rfl⟩ := List.mem_map.mp inside
    exact ⟨rfl, by rintro ⟨⟩⟩
  have ends : ∀ ended i r, ∀ event ∈ checkEod ended i r,
      event.keepsHalt = true ∧ event ≠ .endWarmup := by
    intro ended i r event inside
    rw [checkEod] at inside
    split at inside
    · rw [List.mem_singleton.mp inside]
      exact ⟨rfl, by rintro ⟨⟩⟩
    · exact absurd inside List.not_mem_nil
  have unserved : x.runners = x.runners.mapIdx (serve (fun _ _ => []) regime) := by
    apply List.ext_getElem?
    intro i
    rw [List.getElem?_mapIdx]
    exact Option.map_id'.symm
  cases phase with
  | quote q given =>
    obtain ⟨rfl, rfl⟩ := Prod.mk.inj (Option.some.inj serves)
    refine ⟨rfl, (visit_booked _ x).warmingUp, fun i _ event inside => ?_⟩
    obtain rfl | later := List.mem_cons.mp inside
    · exact ⟨rfl, by rintro ⟨⟩⟩
    · exact signals (given i) event later
  | tick t bracket given =>
    obtain ⟨rfl, rfl⟩ := Prod.mk.inj (Option.some.inj serves)
    refine ⟨rfl, (visit_booked _ _).warmingUp, fun i r event inside => ?_⟩
    dsimp only at inside
    split at inside
    · exact absurd inside List.not_mem_nil
    · obtain rfl | later := List.mem_cons.mp inside
      · exact ⟨rfl, by rintro ⟨⟩⟩
      · exact signals (given i) event later
  | gapGuard tsUs refeed =>
    obtain ⟨rfl, rfl⟩ := Prod.mk.inj (Option.some.inj serves)
    simp only [step, gapGuard]
    split
    · refine ⟨rfl, (visit_booked _ x).warmingUp, fun i _ event inside => ?_⟩
      rw [List.mem_singleton.mp inside]
      exact ⟨rfl, by rintro ⟨⟩⟩
    · exact ⟨unserved, rfl, fun i _ event inside => absurd inside List.not_mem_nil⟩
  | minuteCheck tsUs ended =>
    obtain ⟨rfl, rfl⟩ := Prod.mk.inj (Option.some.inj serves)
    simp only [step, minuteCheck]
    split
    · exact ⟨unserved, rfl, fun i _ event inside => absurd inside List.not_mem_nil⟩
    · refine ⟨rfl, (visit_booked _ _).warmingUp, fun i r event inside => ?_⟩
      split at inside
      · exact absurd inside List.not_mem_nil
      · exact ends ended i r event inside
  | wallCheck ended =>
    obtain ⟨rfl, rfl⟩ := Prod.mk.inj (Option.some.inj serves)
    simp only [step, wallCheck]
    split
    · exact ⟨unserved, rfl, fun i _ event inside => absurd inside List.not_mem_nil⟩
    · exact ⟨rfl, (visit_booked _ x).warmingUp, fun i r => ends ended i r⟩
  | enterTick tsUs atr marks => cases serves
  | caughtUp last atr => cases serves
  | recheck marks => cases serves
  | wallRoll nowUs atr marks => cases serves
  | control id action marks => cases serves

/-! ## What the operator and the account have decided -/

/-- The runner that a row of the operator names. -/
def hit (id : String) (x : PaperEngine) : Option Nat :=
  x.runners.findIdx? (fun r => decide (r.desk.strategyId = id))

end PaperEngine

/-- By the place of a runner: it was disabled by hand and not enabled since; the halt that
the account put on it stands. -/
structure Ward where
  disabled : Nat → Bool := fun _ => false
  limited : Nat → Bool := fun _ => false

namespace Ward

def disable (i : Nat) (w : Ward) : Ward :=
  { w with disabled := fun j => decide (j = i) || w.disabled j }

def enable (i : Nat) (w : Ward) : Ward where
  disabled := fun j => !decide (j = i) && w.disabled j
  limited := fun j => !decide (j = i) && w.limited j

end Ward

namespace PaperEngine

open Runner (Bears Lasting Barred Spares)

variable (loop : LoopDesk)

/-- A rollover lifts the account's halts unless it halts the account again; a replayed
one lifts them. -/
def turned (w : Ward) (x y : PaperEngine) : Ward :=
  if y.curDate ≠ x.curDate then { w with limited := fun _ => y.account.halted }
  else if y.warmDate ≠ x.warmDate then { w with limited := fun _ => false }
  else w

/-- A row of the operator, as far as it applies. -/
def ruled (w : Ward) (x : PaperEngine) (id : String) (action : ControlAction) : Ward :=
  match x.hit id with
  | none => w
  | some i =>
    match action with
    | .disable => w.disable i
    | .enable => if x.runners[i]?.any (fun r => r.broker.halted) then w else w.enable i
    | .flatten => w

/-- The re-check finds a limit breached that the account is not halted for. -/
def breaches (x : PaperEngine) : Bool :=
  !x.account.halted && decide (x.account.checkLimits ≠ "")

def ward (w : Ward) (x : PaperEngine) (phase : Phase) (y : PaperEngine) : Ward :=
  match phase with
  | .enterTick _ _ _ => turned w x y
  | .caughtUp _ _ => turned w x y
  | .wallRoll _ _ _ => turned w x y
  | .recheck _ => if x.breaches then { w with limited := fun _ => true } else w
  | .control id action _ => ruled w x id action
  | .gapGuard _ _ => w
  | .quote _ _ => w
  | .minuteCheck _ _ => w
  | .tick _ _ _ => w
  | .wallCheck _ => w

def warded : PaperEngine × Ward → Phase → PaperEngine × Ward :=
  Runs.observe (PaperEngine.step loop) ward

/-- No entry signal of a runner that is disabled by hand is taken by its broker. -/
def DisablesHold (pair : PaperEngine × Ward) (phase : Phase) : Prop :=
  match pair.1.serving loop phase with
  | none => True
  | some (regime, plan) =>
    pair.1.Each (fun i r => pair.2.disabled i = true →
      Runs.Along Runner.step Spares r ((plan i r).map (fun event => (regime, event))))

instance (pair : PaperEngine × Ward) (phase : Phase) : Decidable (DisablesHold loop pair phase) :=
  match h : pair.1.serving loop phase with
  | none => isTrue (by rw [DisablesHold, h]; trivial)
  | some (regime, plan) =>
    decidable_of_iff (pair.1.Each (fun i r => pair.2.disabled i = true →
      Runs.Along Runner.step Spares r ((plan i r).map (fun event => (regime, event)))))
      (by rw [DisablesHold, h])

/-- An enable row leaves the halts that the account put on runners. -/
def LimitsHold (pair : PaperEngine × Ward) (phase : Phase) : Prop :=
  match phase with
  | .control _ .enable _ =>
    (pair.1.step loop phase).Each (fun i r => pair.2.limited i = true → r.riskHalted = true)
  | _ => True

instance (pair : PaperEngine × Ward) (phase : Phase) : Decidable (LimitsHold loop pair phase) :=
  match phase with
  | .control id .enable marks =>
    inferInstanceAs (Decidable (Each (fun i r => pair.2.limited i = true → r.riskHalted = true)
      (pair.1.step loop (.control id .enable marks))))
  | .control _ .disable _ => isTrue trivial
  | .control _ .flatten _ => isTrue trivial
  | .enterTick _ _ _ => isTrue trivial
  | .caughtUp _ _ => isTrue trivial
  | .wallRoll _ _ _ => isTrue trivial
  | .recheck _ => isTrue trivial
  | .gapGuard _ _ => isTrue trivial
  | .quote _ _ => isTrue trivial
  | .minuteCheck _ _ => isTrue trivial
  | .tick _ _ _ => isTrue trivial
  | .wallCheck _ => isTrue trivial

/-- Manual control holds in a stretch of the loop. -/
@[mk_iff]
structure ControlHolds (pair : PaperEngine × Ward) (phase : Phase) : Prop where
  disables : DisablesHold loop pair phase
  limits : LimitsHold loop pair phase

instance (pair : PaperEngine × Ward) (phase : Phase) : Decidable (ControlHolds loop pair phase) :=
  decidable_of_iff' _ (controlHolds_iff ..)

/-! ## When it holds -/

/-- The account is halted for more than the day's loss. -/
def persists (x : PaperEngine) : Bool :=
  x.account.halted && decide (x.account.haltReason ≠ "account_daily_loss")

/-- A rollover finds no runner disabled, or puts the account's halt on all again. -/
def RollKeeps (pair : PaperEngine × Ward) : Prop :=
  pair.1.persists = true ∨ pair.1.Each (fun i _ => pair.2.disabled i = false)
deriving Decidable

/-- A warm-up ends with every disabled runner built halted, or still halted and replaying
the present day. -/
def EndKeeps (pair : PaperEngine × Ward) : Prop :=
  pair.1.Each (fun i r => pair.2.disabled i = true →
    r.startupHalt = true ∨ (r.riskHalted = true ∧ pair.1.curDate = pair.1.warmDate))
deriving Decidable

/-- When a stretch of the loop keeps the operator's disables and the account's halts. -/
def ControlHeeds (pair : PaperEngine × Ward) (phase : Phase) : Prop :=
  match phase with
  | .enterTick tsUs _ _ =>
    (pair.1.warmingUp = true → tsUs ≥ loop.warmupUntilUs → EndKeeps pair) ∧
      (pair.1.rollsAt loop tsUs = true → RollKeeps pair)
  | .caughtUp last _ => pair.1.warmingUp = true → loop.reachedBy last = true → EndKeeps pair
  | .wallRoll nowUs _ _ =>
    pair.1.warmingUp = false → etTradeDate nowUs ≠ pair.1.curDate → RollKeeps pair
  | .control id .enable _ =>
    ∀ i ∈ pair.1.hit id, pair.2.limited i = true →
      pair.1.runners[i]?.any (fun r => r.broker.halted) = true
  | _ => True

instance (pair : PaperEngine × Ward) (phase : Phase) : Decidable (ControlHeeds loop pair phase) :=
  match phase with
  | .enterTick _ _ _ => inferInstanceAs (Decidable ((_ → _ → _) ∧ _))
  | .caughtUp _ _ => inferInstanceAs (Decidable (_ → _ → _))
  | .wallRoll _ _ _ => inferInstanceAs (Decidable (_ → _ → _))
  | .control _ .enable _ => inferInstanceAs (Decidable (∀ i ∈ _, _ → _))
  | .control _ .disable _ => isTrue trivial
  | .control _ .flatten _ => isTrue trivial
  | .recheck _ => isTrue trivial
  | .gapGuard _ _ => isTrue trivial
  | .quote _ _ => isTrue trivial
  | .minuteCheck _ _ => isTrue trivial
  | .tick _ _ _ => isTrue trivial
  | .wallCheck _ => isTrue trivial

/-! ## What carries manual control -/

/-- The runners in these places are halted. -/
def Halted (places : Nat → Bool) (x : PaperEngine) : Prop :=
  ∀ (i : Nat) (r : Runner), x.runners[i]? = some r → places i = true → r.riskHalted = true

/-- As long as the engine warms up every broker does. -/
def Warm (x : PaperEngine) : Prop :=
  x.warmingUp = true → ∀ (i : Nat) (r : Runner), x.runners[i]? = some r → r.broker.warmup = true

/-- What carries manual control over a run. -/
structure Guarded (x : PaperEngine) (w : Ward) : Prop where
  warm : x.Warm
  disabled : x.warmingUp = false → x.Halted w.disabled
  limited : x.Halted w.limited

/-- Every runner of the one fleet stands so to the runner in its place in the other. -/
structure Carries (holds : Nat → Runner → Runner → Prop) (x y : PaperEngine) : Prop where
  warmingUp : y.warmingUp = x.warmingUp
  each : ∀ i r', y.runners[i]? = some r' → ∃ r, x.runners[i]? = some r ∧ holds i r r'

variable {x : PaperEngine} {w : Ward} {atUs : Int} {y : PaperEngine}

theorem Carries.mono {holds other : Nat → Runner → Runner → Prop} (carries : Carries holds x y)
    (weaker : ∀ i r r', holds i r r' → other i r r') : Carries other x y where
  warmingUp := carries.warmingUp
  each := by
    intro i r' there
    obtain ⟨r, here, stands⟩ := carries.each i r' there
    exact ⟨r, here, weaker i r r' stands⟩

/-- What two steps carry, both of them in a row carry. -/
theorem Carries.trans {z : PaperEngine} (first : Carries (fun _ => Bears) x y)
    (second : Carries (fun _ => Bears) y z) : Carries (fun _ => Bears) x z where
  warmingUp := second.warmingUp.trans first.warmingUp
  each := by
    intro i r'' there
    obtain ⟨r', between, after⟩ := second.each i r'' there
    obtain ⟨r, here, before⟩ := first.each i r' between
    exact ⟨r, here, before.trans after⟩

/-- A change of each runner is carried by the fleet. -/
theorem carries_mapIdx {holds : Nat → Runner → Runner → Prop} {serves : Nat → Runner → Runner}
    (warmingUp : y.warmingUp = x.warmingUp) (runners : y.runners = x.runners.mapIdx serves)
    (all : ∀ i r, holds i r (serves i r)) : Carries holds x y where
  warmingUp := warmingUp
  each := by
    intro i r' there
    rw [runners, List.getElem?_mapIdx, Option.map_eq_some_iff] at there
    obtain ⟨r, here, rfl⟩ := there
    exact ⟨r, here, all i r⟩

/-- Serving a fleet that was touched before only where the host alone looks. -/
theorem visit_carries (holds : Nat → Runner → Runner → Prop)
    (plan : Nat → Runner → List RunnerEvent) (x' : PaperEngine)
    (warmingUp : x'.warmingUp = x.warmingUp) (runners : x'.runners = x.runners)
    (all : ∀ i r, holds i r (serve plan x'.regime i r)) : Carries holds x (x'.visit plan) := by
  refine carries_mapIdx ((visit_booked plan x').warmingUp.trans warmingUp) ?_ all
  rw [← runners]
  rfl

theorem Carries.refl (x : PaperEngine) : Carries (fun _ => Lasting) x x :=
  ⟨rfl, fun _ r' here => ⟨r', here, Lasting.refl r'⟩⟩

theorem Warm.carries (warm : x.Warm) (carries : Carries (fun _ => Bears) x y) : y.Warm := by
  intro warming i r' there
  obtain ⟨r, here, bears⟩ := carries.each i r' there
  rw [bears.warmup]
  exact warm (carries.warmingUp.symm.trans warming) i r here

theorem Halted.carries {places : Nat → Bool} (halted : x.Halted places)
    (carries : Carries (fun _ => Lasting) x y) : y.Halted places := by
  intro i r' there placed
  obtain ⟨r, here, lasting⟩ := carries.each i r' there
  exact lasting.halted (halted i r here placed)

theorem Quiet.haltedAt (quiet : x.Quiet) (places : Nat → Bool) : x.Halted places :=
  fun _ r here _ => (quiet r (List.mem_of_getElem? here)).halted

theorem Guarded.carries (guarded : Guarded x w) (carries : Carries (fun _ => Lasting) x y) :
    Guarded y w where
  warm := guarded.warm.carries (carries.mono (fun _ _ _ lasting => lasting.toBears))
  disabled := by
    rw [carries.warmingUp]
    exact fun live => (guarded.disabled live).carries carries
  limited := guarded.limited.carries carries

/-- A guarded runner that is disabled is halted or in warm-up. -/
theorem Guarded.barred (guarded : Guarded x w) {i : Nat} {r : Runner}
    (here : x.runners[i]? = some r) (disabled : w.disabled i = true) : r.Barred := by
  cases warming : x.warmingUp with
  | true => exact Or.inl (guarded.warm warming i r here)
  | false => exact Or.inr (guarded.disabled warming i r here disabled)

/-! ### Stretches in which strategies emit -/

/-- A phase that serves the runners carries their halts. -/
theorem serving_carries (x : PaperEngine) (phase : Phase) {regime : SessionRegime}
    {plan : Nat → Runner → List RunnerEvent}
    (serves : x.serving loop phase = some (regime, plan)) :
    Carries (fun _ => Lasting) x (x.step loop phase) := by
  obtain ⟨runners, warmingUp, keep⟩ := step_serving loop serves
  exact carries_mapIdx warmingUp runners
    (fun i r => (Runner.run_lasting regime (plan i r) r (keep i r)).1)

/-- Under the guard each disable by hand holds. -/
theorem Guarded.disablesHold (guarded : Guarded x w) (phase : Phase) :
    DisablesHold loop (x, w) phase := by
  unfold DisablesHold
  split
  · trivial
  · next regime plan serves =>
    refine (each_iff _ x).mpr (fun i r here disabled => ?_)
    obtain ⟨_, _, keep⟩ := step_serving loop serves
    exact (Runner.run_lasting regime (plan i r) r (keep i r)).2 (guarded.barred here disabled)

/-! ### Halts of the account and rollovers -/

/-- Halting all carries the runners' halts. -/
theorem haltAll_carries (reason : String) (marks : Marks) (x : PaperEngine) :
    Carries (fun _ => Lasting) x (x.haltAll reason marks) := by
  refine visit_carries _ _ _ rfl rfl (fun i r => ?_)
  refine (Runner.run_lasting x.regime
    [.halt, .flatten .accountHalt marks.nowUs (marks.lastPrice i)] r (fun event inside => ?_)).1
  obtain rfl | later := List.mem_cons.mp inside
  · exact ⟨rfl, nofun⟩
  · rw [List.mem_singleton.mp later]
    exact ⟨rfl, nofun⟩

theorem rollDay_bears (r : Runner) : Bears r r.rollDay := by
  refine ⟨?_, rfl⟩
  exact congrArg Stance.warmup (Broker.resetDay_steady r.broker).1

/-- The roll-over keeps every runner in its place and bears its bars over. -/
theorem rollDay_carries (atUs : Int) (atr : ℚ) (marks : Marks) (x : PaperEngine) :
    Carries (fun _ => Bears) x (x.rollDayIfNeeded atUs atr marks) := by
  by_cases stays : etTradeDate atUs = x.curDate
  · have same : x.rollDayIfNeeded atUs atr marks = x := if_pos stays
    rw [same]
    exact (Carries.refl x).mono (fun _ _ _ lasting => lasting.toBears)
  · have served : Carries (fun _ => Bears) x (PaperEngine.visit (fun _ _ => [.rollDay])
        { x with
          curDate := etTradeDate atUs
          regime := x.regime.setAtr (etTradeDate atUs) atr }) :=
      visit_carries _ _ _ rfl rfl (fun _ r => rollDay_bears r)
    obtain ⟨y, isY⟩ : ∃ y, y = PaperEngine.visit (fun _ _ => [.rollDay])
      { x with
        curDate := etTradeDate atUs
        regime := x.regime.setAtr (etTradeDate atUs) atr } := ⟨_, rfl⟩
    rw [← isY] at served
    have rolled : Carries (fun _ => Bears) x { y with account := y.account.resetDay } :=
      ⟨served.warmingUp, served.each⟩
    simp only [rollDayIfNeeded, if_neg stays, ← isY]
    split
    · exact rolled.trans
        ((haltAll_carries _ marks _).mono (fun _ _ _ lasting => lasting.toBears))
    · exact rolled

/-- A rollover leaves an account that is halted with every strategy halted. -/
theorem rollDay_quiet (rolls : etTradeDate atUs ≠ x.curDate) (atr : ℚ) (marks : Marks)
    (halted : (x.rollDayIfNeeded atUs atr marks).account.halted = true) :
    (x.rollDayIfNeeded atUs atr marks).Quiet := by
  revert halted
  simp only [rollDayIfNeeded, if_neg rolls]
  split
  · next latched =>
    exact fun _ => (haltAll_quiet (of_decide_eq_true latched) marks _).1
  · next lifted => exact fun halted => absurd halted lifted

/-- A rollover that is due, from a fleet that is live or warms up. -/
theorem Guarded.rolls {atr : ℚ} {marks : Marks} (warm : x.Warm)
    (rolls : etTradeDate atUs ≠ x.curDate) (keeps : x.warmingUp = false → RollKeeps (x, w)) :
    Guarded (x.rollDayIfNeeded atUs atr marks)
      { w with limited := fun _ => (x.rollDayIfNeeded atUs atr marks).account.halted } := by
  have carries := rollDay_carries atUs atr marks x
  refine ⟨warm.carries carries, fun live => ?_, fun i r here halted => ?_⟩
  · rw [carries.warmingUp] at live
    obtain persists | none := keeps live
    · simp only [PaperEngine.persists, Bool.and_eq_true, decide_eq_true_eq] at persists
      obtain ⟨_, ⟨quiet, _⟩ | ⟨_, forgiven⟩⟩ := rollDay_outcome rolls atr marks
      · exact quiet.haltedAt w.disabled
      · exact absurd (forgiven persists.1) persists.2
    · intro i r' there disabled
      obtain ⟨r, here, _⟩ := carries.each i r' there
      rw [(each_iff _ x).mp none i r here] at disabled
      exact absurd disabled Bool.false_ne_true
  · exact (rollDay_quiet rolls atr marks halted r (List.mem_of_getElem? here)).halted

/-- A turn of the day keeps the guard, where the account's halt is all that it lifts. -/
theorem Guarded.rollDay (guarded : Guarded x w) {atr : ℚ} {marks : Marks}
    (keeps : x.warmingUp = false → etTradeDate atUs ≠ x.curDate → RollKeeps (x, w)) :
    Guarded (x.rollDayIfNeeded atUs atr marks) (turned w x (x.rollDayIfNeeded atUs atr marks)) := by
  by_cases stays : etTradeDate atUs = x.curDate
  · have same : x.rollDayIfNeeded atUs atr marks = x := if_pos stays
    rw [same, turned, if_neg (not_not.mpr rfl), if_neg (not_not.mpr rfl)]
    exact guarded
  · rw [turned, if_pos (rollDay_outcome stays atr marks).1]
    exact Guarded.rolls guarded.warm stays (fun live => keeps live stays)

/-! ### Warm-ups -/

/-- A replayed rollover leaves each runner's warm-up and its halt from the start. -/
theorem warmRollTo_carries (date : String) (atr : ℚ) (x : PaperEngine) :
    Carries (fun _ => Bears) x (x.warmRollTo date atr) ∧
      (x.warmRollTo date atr).warmDate = date := by
  rw [warmRollTo]
  split
  · next same => exact ⟨(Carries.refl x).mono (fun _ _ _ lasting => lasting.toBears), same.symm⟩
  · exact ⟨visit_carries _ _ _ rfl rfl (fun _ _ => ⟨rfl, rfl⟩), (visit_booked _ _).warmDate⟩

/-- Rolling a day in the warm-up keeps the fleet guarded. -/
theorem Guarded.warmRollTo (guarded : Guarded x w) (warming : x.warmingUp = true) (date : String)
    (atr : ℚ) : Guarded (x.warmRollTo date atr) (turned w x (x.warmRollTo date atr)) := by
  obtain ⟨same, _⟩ := warmRollTo_undisturbed date atr x
  obtain ⟨carries, replayed⟩ := warmRollTo_carries date atr x
  rw [turned, if_neg (not_not.mpr same.curDate)]
  by_cases stays : date = x.warmDate
  · have unmoved : x.warmRollTo date atr = x := if_pos stays
    rw [unmoved, if_neg (not_not.mpr rfl)]
    exact guarded
  · rw [replayed, if_pos stays]
    refine ⟨guarded.warm.carries carries, fun live => ?_, fun _ _ _ limited => ?_⟩
    · rw [carries.warmingUp, warming] at live
      exact absurd live.symm Bool.false_ne_true
    · exact absurd limited Bool.false_ne_true

/-- The end of the warm-up lets a halt last. -/
theorem endWarmup_lasting {r : Runner} (warm : r.broker.warmup = true) (regime : SessionRegime) :
    (r.step (regime, .endWarmup)).startupHalt = r.startupHalt ∧
      (r.riskHalted = true ∨ r.startupHalt = true →
        (r.step (regime, .endWarmup)).riskHalted = true) := by
  have released := Runner.release_bears (r.setWarmup false)
  have ended : r.step (regime, .endWarmup) = r.endWarmup := if_pos warm
  have startup : (r.setWarmup false).release.startupHalt = r.startupHalt := released.startup
  rw [ended]
  simp only [Runner.endWarmup, startup]
  split
  · exact ⟨startup, fun _ => rfl⟩
  · next unset =>
    refine ⟨startup, fun either => ?_⟩
    exact released.halted (either.resolve_right unset)

/-- What the end of a warm-up makes of a runner: the halt it was built with is put on
again, and any other stands unless the session was reset. -/
theorem endWarmup_served (warm : x.Warm) (warming : x.warmingUp = true) (atr : ℚ) {i : Nat}
    {r' : Runner} (there : (x.endWarmup atr).runners[i]? = some r') :
    ∃ r, x.runners[i]? = some r ∧ (r.startupHalt = true → r'.riskHalted = true) ∧
      (x.curDate = x.warmDate → r.riskHalted = true → r'.riskHalted = true) := by
  obtain ⟨bears, _⟩ := warmRollTo_carries x.curDate atr { x with warmingUp := false }
  obtain ⟨y, isY⟩ : ∃ y, y = PaperEngine.warmRollTo x.curDate atr { x with warmingUp := false } :=
    ⟨_, rfl⟩
  have unmoved : x.curDate = x.warmDate → y = { x with warmingUp := false } := by
    intro same
    rw [isY]
    exact if_pos same
  have served : Carries
      (fun _ r r' => r' = r.step (y.regime.setAtr y.curDate atr, .endWarmup)) y
      (PaperEngine.visit (fun _ _ => [.endWarmup])
        { y with regime := y.regime.setAtr y.curDate atr }) :=
    visit_carries _ _ _ rfl rfl (fun _ _ => rfl)
  rw [← isY] at bears
  rw [isY] at served
  obtain ⟨between, isBetween, after⟩ := served.each i r' there
  rw [← isY] at isBetween after
  obtain ⟨r, here, before⟩ := bears.each i between isBetween
  have isWarm : between.broker.warmup = true := before.warmup.trans (warm warming i r here)
  obtain ⟨_, halts⟩ := endWarmup_lasting isWarm (y.regime.setAtr y.curDate atr)
  refine ⟨r, here, fun startup => ?_, fun same halted => ?_⟩
  · rw [after]
    exact halts (Or.inr (before.startup.trans startup))
  · rw [unmoved same] at isBetween
    have still : r = between := Option.some.inj (here.symm.trans isBetween)
    rw [after]
    exact halts (Or.inl (still ▸ halted))

theorem endWarmup_warmDate (atr : ℚ) (x : PaperEngine) :
    (x.endWarmup atr).warmDate = x.curDate :=
  (visit_booked _ _).warmDate.trans
    (warmRollTo_carries x.curDate atr { x with warmingUp := false }).2

/-- A warm-up whose end keeps the disables leaves the disabled halted, and the account's
halts standing unless the sessions were reset. -/
theorem Guarded.goLive (guarded : Guarded x w) (warming : x.warmingUp = true)
    (keeps : EndKeeps (x, w)) (atr : ℚ) :
    Guarded (x.endWarmup atr) (turned w x (x.endWarmup atr)) := by
  obtain ⟨same, live⟩ := endWarmup_undisturbed atr x
  have cold : (x.endWarmup atr).Warm := by
    intro warm
    rw [live] at warm
    exact absurd warm Bool.false_ne_true
  have disabled : (x.endWarmup atr).Halted w.disabled := by
    intro i r' there isDisabled
    obtain ⟨r, here, startup, still⟩ := endWarmup_served guarded.warm warming atr there
    obtain built | ⟨halted, day⟩ := (each_iff _ x).mp keeps i r here isDisabled
    · exact startup built
    · exact still day halted
  rw [turned, if_neg (not_not.mpr same.curDate), endWarmup_warmDate]
  by_cases day : x.curDate = x.warmDate
  · rw [if_neg (not_not.mpr day)]
    refine ⟨cold, fun _ => disabled, fun i r' there limited => ?_⟩
    obtain ⟨r, here, _, still⟩ := endWarmup_served guarded.warm warming atr there
    exact still day (guarded.limited i r here limited)
  · rw [if_pos day]
    exact ⟨cold, fun _ => disabled, fun _ _ _ none => absurd none Bool.false_ne_true⟩

theorem turned_disabled (w : Ward) (x y : PaperEngine) : (turned w x y).disabled = w.disabled := by
  rw [turned]
  split
  · rfl
  · split
    · rfl
    · rfl

/-- A rollover keeps after the end of a warm-up what it kept before. -/
theorem RollKeeps.endWarmup (keeps : RollKeeps (x, w)) (warm : x.Warm)
    (warming : x.warmingUp = true) (atr : ℚ) :
    RollKeeps (x.endWarmup atr, turned w x (x.endWarmup atr)) := by
  obtain persists | none := keeps
  · refine Or.inl ?_
    rw [PaperEngine.persists, (endWarmup_undisturbed atr x).1.account]
    exact persists
  · refine Or.inr ((each_iff _ _).mpr (fun i r' there => ?_))
    obtain ⟨r, here, _⟩ := endWarmup_served warm warming atr there
    rw [turned_disabled]
    exact (each_iff _ x).mp none i r here

/-- A rollover that follows the end of a warm-up in one stretch. -/
theorem turned_rollDay (w : Ward) (same : y.curDate = x.curDate) (atUs : Int) (atr : ℚ)
    (marks : Marks) :
    turned w x (y.rollDayIfNeeded atUs atr marks) =
      turned (turned w x y) y (y.rollDayIfNeeded atUs atr marks) := by
  by_cases stays : etTradeDate atUs = y.curDate
  · have unrolled : y.rollDayIfNeeded atUs atr marks = y := if_pos stays
    have still : turned (turned w x y) y y = turned w x y := by
      rw [turned, if_neg (not_not.mpr rfl), if_neg (not_not.mpr rfl)]
    rw [unrolled, still]
  · have rolled := (rollDay_outcome stays atr marks).1
    have moved : (y.rollDayIfNeeded atUs atr marks).curDate ≠ x.curDate := by
      rw [← same]
      exact rolled
    have kept := turned_disabled w x y
    rw [turned, if_pos moved, turned, if_pos rolled, kept]

/-- The opening of a pass keeps the disabled and the limited runners halted, where it heeds them. -/
theorem Guarded.enterTick (guarded : Guarded x w) {tsUs : Int} {atr : ℚ} {marks : Marks}
    (heeds : ControlHeeds loop (x, w) (.enterTick tsUs atr marks)) :
    Guarded (x.enterTick loop tsUs atr marks) (turned w x (x.enterTick loop tsUs atr marks)) := by
  obtain ⟨ends, rolls⟩ := heeds
  simp only [rollsAt] at rolls
  cases warming : x.warmingUp with
  | false =>
    have entered : x.enterTick loop tsUs atr marks = x.rollDayIfNeeded tsUs atr marks := by
      simp [PaperEngine.enterTick, warming]
    rw [entered]
    refine guarded.rollDay (fun _ due => rolls ?_)
    simp only [warming, Bool.not_false, Bool.true_or, Bool.true_and]
    exact decide_eq_true due
  | true =>
    by_cases ended : tsUs ≥ loop.warmupUntilUs
    · obtain ⟨same, live⟩ := endWarmup_undisturbed atr x
      have entered : x.enterTick loop tsUs atr marks =
          (x.endWarmup atr).rollDayIfNeeded tsUs atr marks := by
        simp [PaperEngine.enterTick, if_pos (And.intro warming ended), live]
      rw [entered, turned_rollDay w same.curDate]
      refine Guarded.rollDay (guarded.goLive warming (ends warming ended) atr) (fun _ due => ?_)
      rw [same.curDate] at due
      have before : RollKeeps (x, w) := by
        apply rolls
        simp only [warming, Bool.not_true, Bool.false_or, Bool.and_eq_true, decide_eq_true_eq]
        exact ⟨ended, due⟩
      exact before.endWarmup guarded.warm warming atr
    · have entered : x.enterTick loop tsUs atr marks = x.warmRollTo (etTradeDate tsUs) atr := by
        simp only [PaperEngine.enterTick, if_neg (fun both => ended (And.right both))]
        exact if_pos warming
      rw [entered]
      exact guarded.warmRollTo warming (etTradeDate tsUs) atr

/-! ### The re-check and the operator's rows -/

/-- The re-check adds every runner it halts to the limited ones. -/
theorem Guarded.recheck (guarded : Guarded x w) (marks : Marks) :
    Guarded (x.recheck marks) (if x.breaches then { w with limited := fun _ => true } else w) := by
  rw [PaperEngine.recheck]
  split
  · next latched =>
    have none : x.breaches = false := by
      simp [breaches, latched]
    rw [none, if_neg Bool.false_ne_true]
    exact guarded
  · next unlatched =>
    split
    · next within =>
      have none : x.breaches = false := by
        simp [breaches, within]
      rw [none, if_neg Bool.false_ne_true]
      exact guarded
    · next reason =>
      have found : x.breaches = true := by
        simp [breaches, unlatched, reason]
      rw [found, if_pos rfl]
      have carries := haltAll_carries x.account.checkLimits marks x
      obtain ⟨quiet, _⟩ := haltAll_quiet reason marks x
      have halted := guarded.carries carries
      exact ⟨halted.warm, halted.disabled, quiet.haltedAt _⟩

/-- A row that names no runner changes nothing; any other serves the runner it names. -/
theorem control_eq (id : String) (action : ControlAction) (marks : Marks) (x : PaperEngine) :
    x.control id action marks =
      match x.hit id with
      | none => x
      | some hit =>
        let event : RunnerEvent :=
          match action with
          | .disable => .halt
          | .enable => .enable
          | .flatten => .flatten .manual marks.nowUs (marks.lastPrice hit)
        visit (fun i _ => if i = hit then [event] else []) x := rfl

/-- One event for the runner in one place. -/
theorem visit_one (holds : Runner → Runner → Prop) (hit : Nat) (event : RunnerEvent)
    (x : PaperEngine) (one : ∀ r, holds r (r.step (x.regime, event))) :
    Carries (fun i r r' => (i = hit → holds r r') ∧ (i ≠ hit → Lasting r r')) x
      (x.visit (fun i _ => if i = hit then [event] else [])) := by
  refine visit_carries _ _ _ rfl rfl (fun i r => ?_)
  by_cases here : i = hit
  · have served : serve (fun i _ => if i = hit then [event] else []) x.regime i r =
        r.step (x.regime, event) := by
      simp [serve, if_pos here]
    rw [served]
    exact ⟨fun _ => one r, fun other => absurd here other⟩
  · have served : serve (fun i _ => if i = hit then [event] else []) x.regime i r = r := by
      simp [serve, if_neg here]
    rw [served]
    exact ⟨fun same => absurd same here, fun _ => Lasting.refl r⟩

theorem enable_cases (r : Runner) (regime : SessionRegime) :
    Bears r (r.step (regime, .enable)) ∧
      (r.broker.halted = true → r.step (regime, .enable) = r) := by
  simp only [Runner.step, Runner.enable]
  split
  · exact ⟨⟨rfl, rfl⟩, fun _ => rfl⟩
  · next free => exact ⟨⟨rfl, rfl⟩, fun halted => absurd halted free⟩

/-- One event that lifts no halt, for the runner in one place. -/
theorem visit_one_lasting (hit : Nat) (event : RunnerEvent) (keeps : event.keepsHalt = true)
    (within : event ≠ .endWarmup) (x : PaperEngine) :
    Carries (fun _ => Lasting) x (x.visit (fun i _ => if i = hit then [event] else [])) := by
  refine (visit_one Lasting hit event x (fun r => ?_)).mono (fun i r r' stands => ?_)
  · exact Runner.step_lasting x.regime r keeps within
  · by_cases here : i = hit
    · exact stands.1 here
    · exact stands.2 here

/-- Disabling one runner by hand keeps the guard. -/
theorem Guarded.disable (guarded : Guarded x w) (hit : Nat) :
    Guarded (x.visit (fun i _ => if i = hit then [.halt] else [])) (w.disable hit) := by
  have kept := guarded.carries (visit_one_lasting hit .halt rfl nofun x)
  refine ⟨kept.warm, fun live i r' there disabled => ?_, kept.limited⟩
  by_cases here : i = hit
  · have halts := visit_one (fun _ r' => r'.riskHalted = true) hit .halt x (fun _ => rfl)
    obtain ⟨_, _, stands⟩ := halts.each i r' there
    exact stands.1 here
  · simp only [Ward.disable, here, decide_false, Bool.false_or] at disabled
    exact kept.disabled live i r' there disabled

/-- An enable that is refused. -/
theorem enable_refused {hit : Nat}
    (refused : x.runners[hit]?.any (fun r => r.broker.halted) = true) :
    Carries (fun _ => Lasting) x (x.visit (fun i _ => if i = hit then [.enable] else [])) := by
  have carries := visit_one
    (fun r r' => r.broker.halted = true → r' = r) hit .enable x
    (fun r => (enable_cases r x.regime).2)
  refine ⟨carries.warmingUp, fun i r' there => ?_⟩
  obtain ⟨r, here, same, other⟩ := carries.each i r' there
  refine ⟨r, here, ?_⟩
  by_cases named : i = hit
  · subst named
    rw [here, Option.any_some] at refused
    rw [same rfl refused]
    exact Lasting.refl r
  · exact other named

/-- An enable that is applied clears what was decided of the runner it names. -/
theorem Guarded.enable (guarded : Guarded x w) (hit : Nat) :
    Guarded (x.visit (fun i _ => if i = hit then [.enable] else [])) (w.enable hit) := by
  have carries := visit_one Bears hit .enable x (fun r => (enable_cases r x.regime).1)
  have bears : Carries (fun _ => Bears) x
      (x.visit (fun i _ => if i = hit then [.enable] else [])) := by
    refine carries.mono (fun i r r' stands => ?_)
    by_cases here : i = hit
    · exact stands.1 here
    · exact (stands.2 here).toBears
  have others : ∀ {places : Nat → Bool}, x.Halted places →
      (x.visit (fun i _ => if i = hit then [.enable] else [])).Halted
        (fun j => !decide (j = hit) && places j) := by
    intro places halted i r' there placed
    rw [Bool.and_eq_true, Bool.not_eq_true', decide_eq_false_iff_not] at placed
    obtain ⟨r, here, stands⟩ := carries.each i r' there
    exact (stands.2 placed.1).halted (halted i r here placed.2)
  refine ⟨guarded.warm.carries bears, fun live => ?_, others guarded.limited⟩
  rw [bears.warmingUp] at live
  exact others (guarded.disabled live)

/-- A control request keeps the guard: it halts, or lifts what it may lift. -/
theorem Guarded.control (guarded : Guarded x w) (id : String) (action : ControlAction)
    (marks : Marks) : Guarded (x.control id action marks) (ruled w x id action) := by
  rw [control_eq, ruled]
  cases x.hit id with
  | none => exact guarded
  | some hit =>
    cases action with
    | disable => exact guarded.disable hit
    | flatten =>
      exact guarded.carries
        (visit_one_lasting hit (.flatten .manual marks.nowUs (marks.lastPrice hit)) rfl nofun x)
    | enable =>
      simp only
      split
      · next refused => exact guarded.carries (enable_refused refused)
      · exact guarded.enable hit

/-- A stretch that heeds the condition keeps what carries manual control. -/
theorem Guarded.step {pair : PaperEngine × Ward} (guarded : Guarded pair.1 pair.2)
    (phase : Phase) (heeds : ControlHeeds loop pair phase) :
    Guarded (warded loop pair phase).1 (warded loop pair phase).2 := by
  obtain ⟨x, w⟩ := pair
  cases phase with
  | enterTick tsUs atr marks => exact guarded.enterTick loop heeds
  | gapGuard tsUs refeed =>
    exact guarded.carries (serving_carries loop x (.gapGuard tsUs refeed) rfl)
  | quote q signals =>
    exact guarded.carries (serving_carries loop x (.quote q signals) rfl)
  | minuteCheck tsUs ended =>
    exact guarded.carries (serving_carries loop x (.minuteCheck tsUs ended) rfl)
  | tick t bracket signals =>
    exact guarded.carries (serving_carries loop x (.tick t bracket signals) rfl)
  | wallCheck ended =>
    exact guarded.carries (serving_carries loop x (.wallCheck ended) rfl)
  | caughtUp last atr =>
    simp only [warded, Runs.observe, PaperEngine.step, caughtUp, ward]
    split
    · next ended =>
      rw [Bool.and_eq_true] at ended
      exact guarded.goLive ended.1 (heeds ended.1 ended.2) atr
    · rw [turned, if_neg (not_not.mpr rfl), if_neg (not_not.mpr rfl)]
      exact guarded
  | recheck marks => exact guarded.recheck marks
  | wallRoll nowUs atr marks =>
    simp only [warded, Runs.observe, PaperEngine.step, ward]
    exact guarded.rollDay heeds
  | control id action marks => exact guarded.control id action marks

/-- In a guarded fleet a phase that heeds control enables no limited runner. -/
theorem Guarded.limitsHold (guarded : Guarded x w) {phase : Phase}
    (heeds : ControlHeeds loop (x, w) phase) : LimitsHold loop (x, w) phase := by
  unfold LimitsHold
  split
  · next id marks =>
    have heeds : ∀ i ∈ x.hit id, w.limited i = true →
        x.runners[i]?.any (fun r => r.broker.halted) = true := heeds
    refine (each_iff _ _).mpr (fun i r' there limited => ?_)
    simp only [PaperEngine.step] at there
    rw [control_eq] at there
    cases named : x.hit id with
    | none =>
      rw [named] at there
      exact guarded.limited i r' there limited
    | some hit =>
      rw [named] at there
      by_cases here : i = hit
      · subst here
        have refused := heeds i named limited
        exact guarded.limited.carries (enable_refused refused) i r' there limited
      · have carries := visit_one Bears hit .enable x (fun r => (enable_cases r x.regime).1)
        obtain ⟨r, before, stands⟩ := carries.each i r' there
        exact (stands.2 here).halted (guarded.limited i r before limited)
  · trivial

end PaperEngine

/-! ## Runs from the start -/

def Boot.seed : Boot → RunnerSeed
  | .plain _ seed _ => seed
  | .bracket _ seed _ => seed

/-- Which of the runners are built disabled by hand; these are built halted. -/
structure ByHand (launch : Launch) where
  disabled : Nat → Bool := fun _ => false
  built : ∀ i boot, launch.boots[i]? = some boot → disabled i = true → boot.seed.halt = true

namespace Launch

/-- The fleet before the account's limits are looked at. -/
def seeded (launch : Launch) : PaperEngine :=
  let runners := launch.boots.map (fun boot => boot.runner.setWarmup launch.warm)
  let built : PaperEngine :=
    { account := launch.account
      runners := runners
      regime := launch.regime
      warmingUp := launch.warm
      curDate := launch.date
      warmDate := launch.date }
  let told := (runners.flatMap (fun r =>
    r.broker.outbox.filterMap PaperBroker.closedRow)).foldl PaperEngine.bookClose built
  { told with
    account := told.account.seed launch.totalPnl launch.dayPnl launch.peakEquity
    returned := [] }

theorem engine_eq (launch : Launch) :
    launch.engine =
      if launch.seeded.account.checkLimits = "" then launch.seeded
      else launch.seeded.haltAll launch.seeded.account.checkLimits launch.marks := rfl

/-- What is decided of the fleet as it starts. -/
def ward (launch : Launch) (byHand : ByHand launch) : Ward where
  disabled := byHand.disabled
  limited := fun _ => decide (launch.seeded.account.checkLimits ≠ "")

theorem seeded_runners (launch : Launch) :
    launch.seeded.runners = launch.boots.map (fun boot => boot.runner.setWarmup launch.warm) ∧
      launch.seeded.warmingUp = launch.warm := by
  have booked := fun rows built => PaperEngine.foldl_booked rows built
  exact ⟨(booked _ _).runners, (booked _ _).warmingUp⟩

end Launch

namespace PaperEngine

variable (loop : LoopDesk)

/-- A fleet seeded after a launch is guarded. -/
theorem guarded_seeded (launch : Launch) (byHand : ByHand launch) :
    Guarded launch.seeded { disabled := byHand.disabled } := by
  obtain ⟨runners, warmingUp⟩ := launch.seeded_runners
  have booted : ∀ (i : Nat) (r : Runner), launch.seeded.runners[i]? = some r →
      ∃ boot, launch.boots[i]? = some boot ∧ boot.runner.setWarmup launch.warm = r := by
    intro i r here
    rw [runners, List.getElem?_map, Option.map_eq_some_iff] at here
    exact here
  refine ⟨fun warming i r here => ?_, fun _ i r here disabled => ?_, fun _ _ _ none => ?_⟩
  · obtain ⟨boot, _, rfl⟩ := booted i r here
    exact (Broker.setWarmup_kept launch.warm boot.runner.broker).2.1.trans
      (warmingUp.symm.trans warming)
  · obtain ⟨boot, there, rfl⟩ := booted i r here
    have halt := byHand.built i boot there disabled
    cases boot with
    | plain desk seed engine => exact halt
    | bracket desk seed allowFlips => exact halt
  · exact absurd none Bool.false_ne_true

/-- The guard holds at the launch. -/
theorem guarded_launch (launch : Launch) (byHand : ByHand launch) :
    Guarded launch.engine (launch.ward byHand) := by
  have start := guarded_seeded launch byHand
  rw [Launch.engine_eq]
  split
  · next within =>
    refine ⟨start.warm, start.disabled, fun _ _ _ limited => ?_⟩
    exact absurd within (of_decide_eq_true limited)
  · next reason =>
    have kept := start.carries (haltAll_carries launch.seeded.account.checkLimits launch.marks _)
    obtain ⟨quiet, _⟩ := haltAll_quiet reason launch.marks launch.seeded
    exact ⟨kept.warm, kept.disabled, quiet.haltedAt _⟩

/-- In every run of the loop whose stretches heed the condition manual control holds at
each of them, whatever fleet was launched. -/
theorem control_of_heeded (launch : Launch) (byHand : ByHand launch) (turns : List Turn)
    (heeded : Runs.Along (warded loop) (ControlHeeds loop) (launch.engine, launch.ward byHand)
      (turns.flatMap Turn.phases)) :
    Runs.Along (warded loop) (ControlHolds loop) (launch.engine, launch.ward byHand)
      (turns.flatMap Turn.phases) :=
  Runs.along_of_invariant (warded loop) (fun pair => Guarded pair.1 pair.2)
    (fun _ phase guarded heeds =>
      ⟨guarded.disablesHold loop phase, guarded.limitsHold loop heeds⟩)
    (fun _ phase guarded heeds => guarded.step loop phase heeds)
    (launch.engine, launch.ward byHand) (turns.flatMap Turn.phases)
    (guarded_launch launch byHand) heeded

/-! ## Two runs -/

/-- No runner is built disabled. -/
def noneByHand (launch : Launch) : ByHand launch where
  built := fun _ _ _ disabled => absurd disabled Bool.false_ne_true

/-- Disabled, the strategy's breakout is not taken; enabled again, it trades. -/
theorem disable_holds_until_enable :
    Runs.Along (warded {}) (ControlHolds {})
      (smallAccount.engine, smallAccount.ward (noneByHand smallAccount))
      ([{ ticks := [tickAt 0 20000 []]
          clockUs := 1746021600000000
          rows := [("orb", .disable)] },
        { ticks := [tickAt 1 20000 [Boot.breakoutLong]]
          clockUs := 1746021601000000
          rows := [("orb", .enable)] },
        { ticks := [tickAt 2 20000 [Boot.breakoutLong]], clockUs := 1746021602000000 }].flatMap
        Turn.phases) :=
  control_of_heeded {} smallAccount (noneByHand smallAccount) _ (by decide +kernel)

/-- A strategy that was disabled trades again on the next trading day. -/
theorem disable_ends_with_day :
    ¬ ∀ (loop : LoopDesk) (launch : Launch) (byHand : ByHand launch) (turns : List Turn),
      Runs.Along (warded loop) (ControlHolds loop) (launch.engine, launch.ward byHand)
        (turns.flatMap Turn.phases) := by
  intro always
  have run := always {} smallAccount (noneByHand smallAccount)
    [{ clockUs := 1746021600000000, rows := [("orb", .disable)] },
      { ticks := [tickAt 86400 20000 [Boot.breakoutLong]], clockUs := 1746108000000000 }]
  revert run
  decide +kernel

end PaperEngine

end RithmicEngine
