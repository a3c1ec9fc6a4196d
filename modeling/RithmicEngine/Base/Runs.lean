import Mathlib.Data.List.Basic
/-!
# Runs of a deterministic machine

A machine is a step function on states and inputs, and a run takes a finite
list of inputs in order. A condition on steps is read along a run: each input
meets it at the state in which it is taken. An invariant that each such step
keeps then holds after the run. An observer follows a run beside the machine
and never influences it, so facts about the machine's own state carry over.
-/
namespace Runs

universe u v w

variable {σ : Type u} {ι : Type v} {γ : Type w}

/-- The state after taking the inputs in order. -/
def run (step : σ → ι → σ) (start : σ) (inputs : List ι) : σ :=
  inputs.foldl step start

@[simp] theorem run_nil (step : σ → ι → σ) (start : σ) : run step start [] = start := rfl

@[simp] theorem run_cons (step : σ → ι → σ) (start : σ) (input : ι) (rest : List ι) :
    run step start (input :: rest) = run step (step start input) rest := rfl

theorem run_append (step : σ → ι → σ) (start : σ) (first second : List ι) :
    run step start (first ++ second) = run step (run step start first) second :=
  List.foldl_append

/-- The place of the first input after which the state passes the test. -/
def firstAfter (step : σ → ι → σ) (test : σ → Bool) : σ → List ι → Option Nat
  | _, [] => none
  | state, input :: rest =>
    if test (step state input) then some 0
    else (firstAfter step test (step state input) rest).map Nat.succ

/-- Two machines pass their tests first after the same input, if they answer alike as
long as neither has passed. -/
theorem firstAfter_congr {τ : Type w} {step : σ → ι → σ} {step' : τ → ι → τ} {test : σ → Bool}
    {test' : τ → Bool} (related : σ → τ → Prop)
    (alike : ∀ state state' input, related state state' →
      test (step state input) = test' (step' state' input) ∧
        (test (step state input) = false → related (step state input) (step' state' input)))
    (start : σ) (start' : τ) (inputs : List ι) (initial : related start start') :
    firstAfter step test start inputs = firstAfter step' test' start' inputs := by
  induction inputs generalizing start start' with
  | nil => rfl
  | cons input rest ih =>
    obtain ⟨same, later⟩ := alike start start' input initial
    simp only [firstAfter, ← same]
    cases passed : test (step start input) with
    | true => rfl
    | false =>
      simp only [Bool.false_eq_true, ↓reduceIte]
      rw [ih (step start input) (step' start' input) (later passed)]

/-- Each input meets the condition at the state in which it is taken. -/
def Along (step : σ → ι → σ) (allowed : σ → ι → Prop) : σ → List ι → Prop
  | _, [] => True
  | state, input :: rest => allowed state input ∧ Along step allowed (step state input) rest

instance decidableAlong (step : σ → ι → σ) (allowed : σ → ι → Prop)
    [∀ state input, Decidable (allowed state input)] :
    ∀ (start : σ) (inputs : List ι), Decidable (Along step allowed start inputs)
  | _, [] => isTrue trivial
  | state, input :: rest =>
    let _ := decidableAlong step allowed (step state input) rest
    inferInstanceAs (Decidable (_ ∧ _))

/-- Along two runs in a row is along the first, and along the second from where it ends. -/
theorem along_append (step : σ → ι → σ) (allowed : σ → ι → Prop) (start : σ)
    (first second : List ι) :
    Along step allowed start (first ++ second) ↔
      Along step allowed start first ∧ Along step allowed (run step start first) second := by
  induction first generalizing start with
  | nil => simp [Along]
  | cons input rest ih =>
    simp [Along, ih, and_assoc]

/-- Conditions that agree at every step agree along every run. -/
theorem along_congr (step : σ → ι → σ) {allowed admitted : σ → ι → Prop}
    (agree : ∀ state input, allowed state input ↔ admitted state input)
    (start : σ) (inputs : List ι) :
    Along step allowed start inputs ↔ Along step admitted start inputs := by
  induction inputs generalizing start with
  | nil => exact Iff.rfl
  | cons input rest ih => exact and_congr (agree start input) (ih (step start input))

/-- Conditions that agree where a third one is met agree along every run that meets it. -/
theorem along_congr_of (step : σ → ι → σ) {base allowed admitted : σ → ι → Prop}
    (agree : ∀ state input, base state input → (allowed state input ↔ admitted state input))
    (start : σ) (inputs : List ι) (along : Along step base start inputs) :
    Along step allowed start inputs ↔ Along step admitted start inputs := by
  induction inputs generalizing start with
  | nil => exact Iff.rfl
  | cons input rest ih =>
    obtain ⟨here, later⟩ := along
    exact and_congr (agree start input here) (ih (step start input) later)

/-- A condition that every step meets is met along every run. -/
theorem along_of_forall (step : σ → ι → σ) {allowed : σ → ι → Prop}
    (all : ∀ state input, allowed state input) (start : σ) (inputs : List ι) :
    Along step allowed start inputs := by
  induction inputs generalizing start with
  | nil => trivial
  | cons input rest ih => exact ⟨all start input, ih (step start input)⟩

/-- Two conditions that are met along a run are met together. -/
theorem along_and (step : σ → ι → σ) {first second : σ → ι → Prop} (start : σ) (inputs : List ι)
    (left : Along step first start inputs) (right : Along step second start inputs) :
    Along step (fun state input => first state input ∧ second state input) start inputs := by
  induction inputs generalizing start with
  | nil => trivial
  | cons input rest ih =>
    exact ⟨⟨left.1, right.1⟩, ih (step start input) left.2 right.2⟩

/-- A condition on the inputs alone is met along every run of such inputs. -/
theorem along_and_of_mem (step : σ → ι → σ) {allowed : σ → ι → Prop} {good : ι → Prop}
    (start : σ) (inputs : List ι) (along : Along step allowed start inputs)
    (all : ∀ input ∈ inputs, good input) :
    Along step (fun state input => allowed state input ∧ good input) start inputs := by
  induction inputs generalizing start with
  | nil => trivial
  | cons input rest ih =>
    obtain ⟨here, later⟩ := along
    refine ⟨⟨here, all input List.mem_cons_self⟩, ih (step start input) later ?_⟩
    intro other inside
    exact all other (List.mem_cons_of_mem input inside)

/-- A property kept by every allowed step holds after an allowed run. -/
theorem run_invariant (step : σ → ι → σ) (invariant : σ → Prop) (allowed : σ → ι → Prop)
    (keeps : ∀ state input, invariant state → allowed state input →
      invariant (step state input))
    (start : σ) (inputs : List ι) (initial : invariant start)
    (along : Along step allowed start inputs) : invariant (run step start inputs) := by
  induction inputs generalizing start with
  | nil => exact initial
  | cons input rest ih =>
    obtain ⟨here, later⟩ := along
    exact ih (step start input) (keeps start input initial here) later

/-- A run with a step that is not allowed ends bad, if such a step makes a good state
bad, an allowed one keeps it good, and a bad state stays bad. -/
theorem run_latched (step : σ → ι → σ) {good bad : σ → Prop} {allowed : σ → ι → Prop}
    (keeps : ∀ state input, good state → allowed state input → good (step state input))
    (breaks : ∀ state input, good state → ¬allowed state input → bad (step state input))
    (stays : ∀ state input, bad state → bad (step state input))
    (start : σ) (inputs : List ι) (initial : good start)
    (violated : ¬Along step allowed start inputs) : bad (run step start inputs) := by
  induction inputs generalizing start with
  | nil => exact absurd trivial violated
  | cons input rest ih =>
    by_cases here : allowed start input
    · exact ih (step start input) (keeps start input initial here)
        fun later => violated ⟨here, later⟩
    · have broken : bad (step start input) := breaks start input initial here
      exact run_invariant step bad (fun _ _ => True)
        (fun state input bad _ => stays state input bad)
        (step start input) rest broken (along_of_forall step (fun _ _ => trivial) _ rest)

/-- A property that every allowed step has under an invariant it keeps holds of
every step of an allowed run. -/
theorem along_of_invariant (step : σ → ι → σ) (invariant : σ → Prop)
    {property allowed : σ → ι → Prop}
    (holds : ∀ state input, invariant state → allowed state input → property state input)
    (keeps : ∀ state input, invariant state → allowed state input → invariant (step state input))
    (start : σ) (inputs : List ι) (initial : invariant start)
    (along : Along step allowed start inputs) : Along step property start inputs := by
  induction inputs generalizing start with
  | nil => trivial
  | cons input rest ih =>
    obtain ⟨here, later⟩ := along
    exact ⟨holds start input initial here,
      ih (step start input) (keeps start input initial here) later⟩

/-- Where, under an invariant, a property of a step holds exactly for the allowed
ones and an allowed step keeps the invariant, the property holds of every step of a
run exactly when each step is allowed: the first step that is not breaks it. -/
theorem along_iff_of_invariant (step : σ → ι → σ) (invariant : σ → Prop)
    {property allowed : σ → ι → Prop}
    (exact : ∀ state input, invariant state → (property state input ↔ allowed state input))
    (keeps : ∀ state input, invariant state → allowed state input → invariant (step state input))
    (start : σ) (inputs : List ι) (initial : invariant start) :
    Along step property start inputs ↔ Along step allowed start inputs := by
  induction inputs generalizing start with
  | nil => exact Iff.rfl
  | cons input rest ih =>
    simp only [Along]
    constructor
    · rintro ⟨holds, later⟩
      have here : allowed start input := (exact start input initial).mp holds
      exact ⟨here, (ih (step start input) (keeps start input initial here)).mp later⟩
    · rintro ⟨here, later⟩
      have kept : invariant (step start input) := keeps start input initial here
      exact ⟨(exact start input initial).mpr here, (ih (step start input) kept).mpr later⟩

/-- The same where the run meets a condition that the exactness takes. -/
theorem along_iff_of_base (step : σ → ι → σ) (invariant : σ → Prop)
    {base property allowed : σ → ι → Prop}
    (exact : ∀ state input, invariant state → base state input →
      (property state input ↔ allowed state input))
    (keeps : ∀ state input, invariant state → base state input → allowed state input →
      invariant (step state input))
    (start : σ) (inputs : List ι) (initial : invariant start)
    (along : Along step base start inputs) :
    Along step property start inputs ↔ Along step allowed start inputs := by
  induction inputs generalizing start with
  | nil => exact Iff.rfl
  | cons input rest ih =>
    obtain ⟨sound, sounder⟩ := along
    constructor
    · rintro ⟨holds, later⟩
      have here : allowed start input := (exact start input initial sound).mp holds
      have kept : invariant (step start input) := keeps start input initial sound here
      exact ⟨here, (ih (step start input) kept sounder).mp later⟩
    · rintro ⟨here, later⟩
      have kept : invariant (step start input) := keeps start input initial sound here
      exact ⟨(exact start input initial sound).mpr here,
        (ih (step start input) kept sounder).mpr later⟩

/-- Where a condition is exactly what keeps an invariant over one step, the
invariant holds after every step of a run exactly when the condition is met along
it. -/
theorem along_invariant_iff (step : σ → ι → σ) (invariant : σ → Prop) (allowed : σ → ι → Prop)
    (exact : ∀ state input, invariant state →
      (invariant (step state input) ↔ allowed state input))
    (start : σ) (inputs : List ι) (initial : invariant start) :
    Along step (fun state input => invariant (step state input)) start inputs ↔
      Along step allowed start inputs :=
  along_iff_of_invariant step invariant exact
    (fun state input holds => (exact state input holds).mpr) start inputs initial

/-- An observer records each step beside the machine. -/
def observe (step : σ → ι → σ) (note : γ → σ → ι → σ → γ) (pair : σ × γ) (input : ι) : σ × γ :=
  (step pair.1 input, note pair.2 pair.1 input (step pair.1 input))

/-- The observed machine takes exactly the steps of the machine. -/
theorem run_observe_fst (step : σ → ι → σ) (note : γ → σ → ι → σ → γ) (pair : σ × γ)
    (inputs : List ι) :
    (run (observe step note) pair inputs).1 = run step pair.1 inputs := by
  induction inputs generalizing pair with
  | nil => rfl
  | cons input rest ih => exact ih (observe step note pair input)

/-- A condition on the machine is met along its run beside an observer as without one. -/
theorem along_observe_iff (step : σ → ι → σ) (note : γ → σ → ι → σ → γ)
    (allowed : σ → ι → Prop) (pair : σ × γ) (inputs : List ι) :
    Along (observe step note) (fun pair input => allowed pair.1 input) pair inputs ↔
      Along step allowed pair.1 inputs := by
  induction inputs generalizing pair with
  | nil => exact Iff.rfl
  | cons input rest ih => exact and_congr Iff.rfl (ih (observe step note pair input))

end Runs
