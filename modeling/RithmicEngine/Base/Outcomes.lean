import Mathlib.Data.List.Basic
/-!
# Computations that may have no result

Rules for computations in `Option`, one for each way of composing them: that they have a
result, and that a property holds of the result where there is one.
-/
namespace Outcomes

universe u

variable {α β : Type u}

/-! ## There is a result -/

theorem isSome_bind {first : Option α} {next : α → Option β} (has : first.isSome)
    (then_ : ∀ x, first = some x → (next x).isSome) : (first >>= next).isSome := by
  obtain ⟨x, isX⟩ := Option.isSome_iff_exists.mp has
  rw [isX, Option.bind_eq_bind, Option.bind_some]
  exact then_ x isX

variable {c : Prop}

theorem isSome_ite [Decidable c] {yes no : Option α} (left : c → yes.isSome)
    (right : ¬c → no.isSome) : (if c then yes else no).isSome := by
  by_cases holds : c
  · rw [if_pos holds]
    exact left holds
  · rw [if_neg holds]
    exact right holds

/-- An early return. -/
theorem isSome_unless [Decidable c] {x : α} {rest : Option α} (later : ¬c → rest.isSome) :
    (if c then pure x else rest).isSome :=
  isSome_ite (fun _ => rfl) later

theorem isSome_mapM {f : α → Option β} {xs : List α} (each : ∀ x ∈ xs, (f x).isSome) :
    (xs.mapM f).isSome := by
  induction xs with
  | nil => rfl
  | cons x rest ih =>
    rw [List.mapM_cons]
    apply isSome_bind (each x List.mem_cons_self)
    intro y _
    apply isSome_bind (ih fun z inside => each z (List.mem_cons_of_mem x inside))
    intro _ _
    rfl

/-! ## What holds of the result -/

/-- The property holds of the result, if there is one. -/
def Comes (good : α → Prop) (outcome : Option α) : Prop := ∀ x, outcome = some x → good x

theorem comes_pure {good : α → Prop} {x : α} (holds : good x) : Comes good (pure x) := by
  intro y isY
  cases Option.some.inj isY
  exact holds

theorem comes_bind {good : β → Prop} {first : Option α} {next : α → Option β}
    (then_ : ∀ x, Comes good (next x)) : Comes good (first >>= next) := by
  intro y isY
  obtain ⟨x, _, isNext⟩ := Option.bind_eq_some_iff.mp isY
  exact then_ x y isNext

theorem comes_ite {good : α → Prop} [Decidable c] {yes no : Option α} (left : Comes good yes)
    (right : Comes good no) : Comes good (if c then yes else no) := by
  by_cases holds : c
  · rw [if_pos holds]
    exact left
  · rw [if_neg holds]
    exact right

end Outcomes
