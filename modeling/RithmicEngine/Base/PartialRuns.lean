import Mathlib.Data.Option.Basic
/-!
# Runs of a machine that may stop

A machine whose step may have no result takes inputs for as long as it has one. Conditions
on a state and its next input are met along a run, properties of a step and its result hold
of each step that is taken, and an invariant is carried from one state to the next.
-/
namespace PartialRuns

universe u v w

variable {σ : Type u} {ι : Type v} {κ : Type w} (step : σ → ι → Option σ)

/-- The state after the inputs, where every step has a result. -/
def reach : σ → List ι → Option σ
  | s, [] => some s
  | s, input :: rest => (step s input).bind fun t => reach t rest

/-- The condition is met by each input that is taken. -/
def Meets (allowed : σ → ι → Prop) : σ → List ι → Prop
  | _, [] => True
  | s, input :: rest =>
    allowed s input ∧
      match step s input with
      | some t => Meets allowed t rest
      | none => True

instance decidableMeets (allowed : σ → ι → Prop) [∀ s input, Decidable (allowed s input)] :
    ∀ (s : σ) (inputs : List ι), Decidable (Meets step allowed s inputs)
  | _, [] => isTrue trivial
  | s, input :: rest =>
    match taken : step s input with
    | some t =>
      let _ := decidableMeets allowed t rest
      decidable_of_iff (allowed s input ∧ Meets step allowed t rest) (by simp only [Meets, taken])
    | none => decidable_of_iff (allowed s input) (by simp [Meets, taken])

/-- The property holds of each step that has a result. -/
def Each (property : σ → ι → σ → Prop) : σ → List ι → Prop
  | _, [] => True
  | s, input :: rest =>
    match step s input with
    | some t => property s input t ∧ Each property t rest
    | none => True

/-- What the steps that are taken put out, in order. -/
def outputs (out : σ → ι → List κ) : σ → List ι → List κ
  | _, [] => []
  | s, input :: rest =>
    match step s input with
    | some t => out s input ++ outputs out t rest
    | none => []

variable {step}

variable {s : σ} {inputs : List ι}

/-- An invariant that each allowed step keeps holds after an allowed run. -/
theorem reach_invariant {invariant : σ → Prop} {allowed : σ → ι → Prop}
    (keeps : ∀ s input t, invariant s → allowed s input → step s input = some t → invariant t)
    {t : σ} (initial : invariant s) (meets : Meets step allowed s inputs)
    (arrives : reach step s inputs = some t) : invariant t := by
  induction inputs generalizing s with
  | nil =>
    cases Option.some.inj arrives
    exact initial
  | cons input rest ih =>
    obtain ⟨next, taken, later⟩ := Option.bind_eq_some_iff.mp arrives
    obtain ⟨here, further⟩ := meets
    rw [taken] at further
    exact ih (keeps s input next initial here taken) further later

/-- A condition that every step meets is met along every run. -/
theorem meets_of_forall {allowed : σ → ι → Prop} (all : ∀ s input, allowed s input) (s : σ)
    (inputs : List ι) : Meets step allowed s inputs := by
  induction inputs generalizing s with
  | nil => trivial
  | cons input rest ih =>
    refine ⟨all s input, ?_⟩
    split
    · exact ih _
    · trivial

/-- A property that each allowed step has under an invariant it keeps holds of each step of
an allowed run. -/
theorem each_of_invariant {invariant : σ → Prop} {allowed : σ → ι → Prop}
    {property : σ → ι → σ → Prop}
    (holds : ∀ s input t, invariant s → allowed s input → step s input = some t →
      property s input t ∧ invariant t)
    (initial : invariant s) (meets : Meets step allowed s inputs) :
    Each step property s inputs := by
  induction inputs generalizing s with
  | nil => trivial
  | cons input rest ih =>
    obtain ⟨here, further⟩ := meets
    unfold Each
    split
    · next t taken =>
      rw [taken] at further
      obtain ⟨has, kept⟩ := holds s input t initial here taken
      exact ⟨has, ih kept further⟩
    · trivial

/-- Where, under an invariant that every step keeps, a property of a step holds exactly for
the allowed ones, it holds of each step of a run exactly when each of them is allowed. -/
theorem each_iff_of_invariant {invariant : σ → Prop} {property allowed : σ → ι → σ → Prop}
    (exact : ∀ s input t, invariant s → step s input = some t →
      (property s input t ↔ allowed s input t))
    (keeps : ∀ s input t, invariant s → step s input = some t → invariant t)
    (initial : invariant s) :
    Each step property s inputs ↔ Each step allowed s inputs := by
  induction inputs generalizing s with
  | nil => exact Iff.rfl
  | cons input rest ih =>
    unfold Each
    split
    · next t taken =>
      exact and_congr (exact s input t initial taken) (ih (keeps s input t initial taken))
    · exact Iff.rfl

section Outputs

variable {out : σ → ι → List κ} {invariant : σ → Prop} {may : σ → κ → Prop}

/-- What a run puts out is what its first state may put out, where no step adds to that. -/
theorem may_of_mem_outputs
    (keeps : ∀ s input t, invariant s → step s input = some t →
      invariant t ∧ (∀ k ∈ out s input, may s k) ∧ ∀ k, may t k → may s k)
    {s : σ} {inputs : List ι} (initial : invariant s) {k : κ}
    (inside : k ∈ outputs step out s inputs) : may s k := by
  induction inputs generalizing s with
  | nil => exact absurd inside List.not_mem_nil
  | cons input rest ih =>
    unfold outputs at inside
    split at inside
    · next t taken =>
      obtain ⟨kept, here, back⟩ := keeps s input t initial taken
      rcases List.mem_append.mp inside with now | later
      · exact here k now
      · exact back k (ih kept later)
    · exact absurd inside List.not_mem_nil

/-- Nothing is put out twice where what is put out may not be again. -/
theorem outputs_nodup
    (keeps : ∀ s input t, invariant s → step s input = some t →
      invariant t ∧ (out s input).Nodup ∧ (∀ k ∈ out s input, may s k ∧ ¬may t k) ∧
        ∀ k, may t k → may s k)
    {s : σ} {inputs : List ι} (initial : invariant s) : (outputs step out s inputs).Nodup := by
  induction inputs generalizing s with
  | nil => exact List.nodup_nil
  | cons input rest ih =>
    unfold outputs
    split
    · next t taken =>
      obtain ⟨kept, apart, spent, _⟩ := keeps s input t initial taken
      have further (s : σ) (input : ι) (t : σ) (holds : invariant s)
          (taken : step s input = some t) :
          invariant t ∧ (∀ k ∈ out s input, may s k) ∧ ∀ k, may t k → may s k := by
        obtain ⟨kept, _, spent, back⟩ := keeps s input t holds taken
        exact ⟨kept, fun k inside => (spent k inside).1, back⟩
      refine List.nodup_append.mpr ⟨apart, ih kept, ?_⟩
      intro k now l later same
      subst same
      exact (spent k now).2 (may_of_mem_outputs further kept later)
    · exact List.nodup_nil

end Outputs

end PartialRuns
