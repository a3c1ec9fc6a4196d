import Mathlib.Tactic.Abel
import RithmicEngine.Base.TrailingStop
/-!
# Legs in a mirror

Reflecting every price about a point swaps the two sides of the market. A leg then
becomes the leg of the other side, and every operation of a trailing stop on the one
is the reflection of the same operation on the other, as long as the snapping function
of the one reflects that of the other.
-/
namespace TrailingStop

universe u

variable {α : Type u} [AddCommGroup α] [LinearOrder α]

/-- Both the price and its reflection are positive. -/
@[mk_iff]
structure Inside (bound price : α) : Prop where
  positive : 0 < price
  below : price < bound

instance decidableInside (bound price : α) : Decidable (Inside bound price) :=
  decidable_of_iff' _ (inside_iff ..)

theorem Inside.reflect [IsOrderedAddMonoid α] {bound price : α} (inside : Inside bound price) :
    Inside bound (bound - price) where
  positive := sub_pos.mpr inside.below
  below := sub_lt_self bound inside.positive

/-- The nearer and the farther of two prices inside are inside. -/
theorem Inside.max {bound price other : α} (inside : Inside bound price)
    (also : Inside bound other) : Inside bound (max price other) where
  positive := lt_max_of_lt_left inside.positive
  below := max_lt inside.below also.below

theorem Inside.min {bound price other : α} (inside : Inside bound price)
    (also : Inside bound other) : Inside bound (min price other) where
  positive := lt_min inside.positive also.positive
  below := min_lt_of_left_lt inside.below

namespace Leg

/-- The leg of the other side, every price reflected. -/
def reflect (bound : α) (leg : Leg α) : Leg α :=
  { leg with
    long := !leg.long
    entry := bound - leg.entry
    level := bound - leg.level
    working := bound - leg.working }

variable {bound : α}

omit [LinearOrder α] in
/-- Beyond a price, reflected, is beyond the reflected price. -/
theorem reflect_beyond (price distance : α) (leg : Leg α) :
    (leg.reflect bound).beyond (bound - price) distance = bound - leg.beyond price distance := by
  obtain long | short := Bool.eq_false_or_eq_true leg.long
  · simp only [beyond, reflect, long, Bool.not_true, Bool.false_eq_true, ↓reduceIte]
    abel
  · simp only [beyond, reflect, short, Bool.not_false, Bool.false_eq_true, ↓reduceIte]
    abel

omit [LinearOrder α] in
/-- Behind a price, reflected, is behind the reflected price. -/
theorem reflect_behind (price distance : α) (leg : Leg α) :
    (leg.reflect bound).behind (bound - price) distance = bound - leg.behind price distance := by
  obtain long | short := Bool.eq_false_or_eq_true leg.long
  · simp only [behind, reflect, long, Bool.not_true, Bool.false_eq_true, ↓reduceIte]
    abel
  · simp only [behind, reflect, short, Bool.not_false, Bool.false_eq_true, ↓reduceIte]
    abel

variable [IsOrderedAddMonoid α]

theorem reflect_improves (level : α) (leg : Leg α) :
    (leg.reflect bound).improves (bound - level) = leg.improves level := by
  obtain long | short := Bool.eq_false_or_eq_true leg.long
  · simp [improves, reflect, long]
  · simp [improves, reflect, short]

omit [IsOrderedAddMonoid α] in
theorem reflect_track (price : α) (leg : Leg α) :
    (leg.reflect bound).track (bound - price) = (leg.track price).reflect bound := by
  obtain long | short := Bool.eq_false_or_eq_true leg.long
  · simp [track, reflect, long]
  · simp [track, reflect, short]

variable {rules : Rules α} {step : α}

omit [IsOrderedAddMonoid α] in
theorem reflect_due (leg : Leg α) : Due rules step (leg.reflect bound) ↔ Due rules step leg := by
  simp only [Due, reflect, sub_sub_sub_cancel_left]
  rw [abs_sub_comm]

omit [IsOrderedAddMonoid α] in
theorem reflect_resync (leg : Leg α) :
    (leg.reflect bound).resync rules step = (leg.resync rules step).reflect bound := by
  by_cases due : Due rules step leg
  · rw [resync, if_pos ((reflect_due leg).mpr due), resync, if_pos due]
    rfl
  · rw [resync, if_neg (fun still => due ((reflect_due leg).mp still)), resync, if_neg due]

variable {snap snap' : α → α} (snaps : ∀ price, snap' (bound - price) = bound - snap price)

include snaps

omit [LinearOrder α] [IsOrderedAddMonoid α] in
theorem reflect_breakEvenLevel (leg : Leg α) :
    (leg.reflect bound).breakEvenLevel rules snap' = bound - leg.breakEvenLevel rules snap := by
  have level : (leg.reflect bound).beyond (leg.reflect bound).entry rules.offset =
      bound - leg.beyond leg.entry rules.offset := reflect_beyond leg.entry rules.offset leg
  rw [breakEvenLevel, level, snaps, breakEvenLevel]

omit [LinearOrder α] [IsOrderedAddMonoid α] in
theorem reflect_trailLevel (price : α) (leg : Leg α) :
    (leg.reflect bound).trailLevel snap' step (bound - price) =
      bound - leg.trailLevel snap step price := by
  rw [trailLevel, reflect_behind, snaps, trailLevel]

/-- The break-even move of a reflected leg is the reflected move. -/
theorem reflect_breakEven (leg : Leg α) :
    (leg.reflect bound).breakEven rules snap' = (leg.breakEven rules snap).reflect bound := by
  simp only [breakEven, reflect_breakEvenLevel snaps, reflect_improves]
  have alike : ((leg.reflect bound).moved = false ∧ (leg.reflect bound).mfe ≥ rules.trigger) ↔
      (leg.moved = false ∧ leg.mfe ≥ rules.trigger) := Iff.rfl
  simp only [alike]
  split
  · split
    · rfl
    · rfl
  · rfl

omit snaps in
omit [IsOrderedAddMonoid α] in
/-- Arming a reflected leg is the reflected arming. -/
theorem reflect_arm (elapsed : Bool) (leg : Leg α) :
    (leg.reflect bound).arm rules elapsed = (leg.arm rules elapsed).reflect bound := by
  simp only [arm]
  have alike : ((leg.reflect bound).trailing = false ∧ elapsed = true ∧
      (leg.reflect bound).mfe ≥ rules.trigger) ↔
      (leg.trailing = false ∧ elapsed = true ∧ leg.mfe ≥ rules.trigger) := Iff.rfl
  simp only [alike]
  split
  · rfl
  · rfl

/-- To trail and to reflect a leg are the same in either order. -/
theorem reflect_trail (price : α) (leg : Leg α) :
    (leg.reflect bound).trail rules snap' step (bound - price) =
      (leg.trail rules snap step price).reflect bound := by
  simp only [trail, reflect_trailLevel snaps, reflect_improves]
  have alike : ((leg.reflect bound).trailing = true ∧
      leg.improves (trailLevel snap step price leg) = true) ↔
      (leg.trailing = true ∧ leg.improves (trailLevel snap step price leg) = true) := Iff.rfl
  simp only [alike]
  split
  · exact reflect_resync { leg with level := trailLevel snap step price leg }
  · rfl

end Leg

end TrailingStop
