import Mathlib.Algebra.Order.Field.Rat
import Mathlib.Data.Sign.Basic
/-!
# Doubles without rounding

The values of a double: numbers, the two infinities, and what is not a number. Arithmetic
is exact, so that only a division by zero leaves the numbers; zero has no sign. Every
comparison with what is not a number is false.
-/
namespace RithmicEngine

inductive Double
  | nan
  | negInf
  | fin (value : ℚ)
  | posInf
  deriving DecidableEq, Repr

namespace Double

instance : Coe ℚ Double := ⟨.fin⟩

instance (n : Nat) : OfNat Double n := ⟨.fin n⟩

instance : OfScientific Double :=
  ⟨fun mantissa down exponent => .fin (OfScientific.ofScientific mantissa down exponent)⟩

/-- The infinity of a sign, and no number for none. -/
def unbounded : SignType → Double
  | .pos => .posInf
  | .neg => .negInf
  | .zero => .nan

/-- The sign of a value that is a number or an infinity. -/
def sign : Double → Option SignType
  | .nan => none
  | .negInf => some (-1)
  | .fin x => some (SignType.sign x)
  | .posInf => some 1

def neg : Double → Double
  | .nan => .nan
  | .negInf => .posInf
  | .fin x => .fin (-x)
  | .posInf => .negInf

def add : Double → Double → Double
  | .fin x, .fin y => .fin (x + y)
  | .posInf, .posInf => .posInf
  | .posInf, .fin _ => .posInf
  | .fin _, .posInf => .posInf
  | .negInf, .negInf => .negInf
  | .negInf, .fin _ => .negInf
  | .fin _, .negInf => .negInf
  | _, _ => .nan

/-- An infinity times zero is not a number. -/
def mul (a b : Double) : Double :=
  match a, b with
  | .fin x, .fin y => .fin (x * y)
  | a, b =>
    match a.sign, b.sign with
    | some left, some right => unbounded (left * right)
    | _, _ => .nan

/-- A number over zero is the infinity of its sign. -/
def div : Double → Double → Double
  | .fin x, .fin y => if y = 0 then unbounded (SignType.sign x) else .fin (x / y)
  | .fin _, .posInf => .fin 0
  | .fin _, .negInf => .fin 0
  | .posInf, .fin y => if y < 0 then .negInf else .posInf
  | .negInf, .fin y => if y < 0 then .posInf else .negInf
  | _, _ => .nan

def lt : Double → Double → Bool
  | .fin x, .fin y => decide (x < y)
  | .negInf, .fin _ => true
  | .negInf, .posInf => true
  | .fin _, .posInf => true
  | _, _ => false

def le : Double → Double → Bool
  | .fin x, .fin y => decide (x ≤ y)
  | .negInf, .negInf => true
  | .negInf, .fin _ => true
  | .negInf, .posInf => true
  | .fin _, .posInf => true
  | .posInf, .posInf => true
  | _, _ => false

instance : Neg Double := ⟨neg⟩
instance : Add Double := ⟨add⟩
instance : Sub Double := ⟨fun a b => add a (neg b)⟩
instance : Mul Double := ⟨mul⟩
instance : Div Double := ⟨div⟩
instance : LT Double := ⟨fun a b => lt a b = true⟩
instance : LE Double := ⟨fun a b => le a b = true⟩

instance (a b : Double) : Decidable (a < b) := inferInstanceAs (Decidable (lt a b = true))

instance (a b : Double) : Decidable (a ≤ b) := inferInstanceAs (Decidable (le a b = true))

/-- The greater of two, the first where they do not compare. -/
instance : Max Double := ⟨fun a b => if a < b then b else a⟩

instance : Min Double := ⟨fun a b => if b < a then b else a⟩

def abs : Double → Double
  | .nan => .nan
  | .negInf => .posInf
  | .fin x => .fin |x|
  | .posInf => .posInf

/-- A number or an infinity. -/
def Comparable (a : Double) : Prop := a ≠ .nan
deriving Decidable

@[simp] theorem fin_lt {x y : ℚ} : (Double.fin x < Double.fin y) ↔ x < y := by
  simp [LT.lt, lt]

@[simp] theorem fin_le {x y : ℚ} : (Double.fin x ≤ Double.fin y) ↔ x ≤ y := by
  simp [LE.le, le]

@[simp] theorem fin_add (x y : ℚ) : Double.fin x + Double.fin y = .fin (x + y) := rfl

@[simp] theorem fin_sub (x y : ℚ) : Double.fin x - Double.fin y = .fin (x + -y) := rfl

@[simp] theorem fin_mul (x y : ℚ) : Double.fin x * Double.fin y = .fin (x * y) := rfl

theorem nan_not_le (a : Double) : ¬(Double.nan ≤ a) := by
  cases a with
  | nan => decide
  | negInf => decide
  | fin x => exact Bool.false_ne_true
  | posInf => decide

theorem not_le_nan (a : Double) : ¬(a ≤ Double.nan) := by
  cases a with
  | nan => decide
  | negInf => decide
  | fin x => exact Bool.false_ne_true
  | posInf => decide

theorem not_lt_nan (a : Double) : ¬(a < Double.nan) := by
  cases a with
  | nan => decide
  | negInf => decide
  | fin x => exact Bool.false_ne_true
  | posInf => decide

variable {a b : Double}

/-- Values that compare are ordered. -/
theorem lt_of_not_le (left : a.Comparable) (right : b.Comparable) (above : ¬a ≤ b) : b < a := by
  cases a with
  | nan => exact absurd rfl left
  | negInf =>
    cases b with
    | nan => exact absurd rfl right
    | _ => exact absurd rfl above
  | fin x =>
    cases b with
    | nan => exact absurd rfl right
    | negInf => rfl
    | fin y => exact fin_lt.mpr (not_le.mp fun below => above (fin_le.mpr below))
    | posInf => exact absurd rfl above
  | posInf =>
    cases b with
    | nan => exact absurd rfl right
    | posInf => exact absurd rfl above
    | _ => rfl

theorem le_refl_of_comparable (known : a.Comparable) : a ≤ a := by
  cases a with
  | nan => exact absurd rfl known
  | negInf => rfl
  | fin x => exact fin_le.mpr le_rfl
  | posInf => rfl

/-- The order of doubles is transitive. A value that is not a number is below nothing. -/
theorem le_trans {c : Double} (first : a ≤ b) (second : b ≤ c) : a ≤ c := by
  cases a with
  | nan => exact absurd first (nan_not_le b)
  | negInf =>
    cases c with
    | nan => exact absurd second (not_le_nan b)
    | _ => rfl
  | fin x =>
    cases b with
    | nan => exact absurd first (not_le_nan _)
    | negInf => exact absurd first Bool.false_ne_true
    | fin y =>
      cases c with
      | nan => exact absurd second (not_le_nan _)
      | negInf => exact absurd second Bool.false_ne_true
      | fin z => exact fin_le.mpr ((fin_le.mp first).trans (fin_le.mp second))
      | posInf => rfl
    | posInf =>
      cases c with
      | posInf => rfl
      | _ => exact absurd second Bool.false_ne_true
  | posInf =>
    cases b with
    | posInf => exact second
    | _ => exact absurd first Bool.false_ne_true

theorem comparable_of_le (le : a ≤ b) : a.Comparable ∧ b.Comparable := by
  constructor
  · intro isNan
    rw [isNan] at le
    exact nan_not_le b le
  · intro isNan
    rw [isNan] at le
    exact not_le_nan a le

end Double

end RithmicEngine
