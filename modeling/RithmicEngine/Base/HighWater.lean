import RithmicEngine.Base.Runs
import Mathlib.Algebra.Order.Group.Defs
/-!
# A level beneath its high-water mark

A level moves by amounts, and its mark is the highest level so far. A limit on the fall
of the level below its mark is either reached or passed: the two readings of a limit
differ only where the fall stops exactly on it.
-/
universe u

structure HighWater (α : Type u) where
  level : α
  mark : α
  deriving DecidableEq, Repr

namespace HighWater

variable {α : Type u} [AddCommGroup α] [LinearOrder α]

/-- The level moves, and the mark follows it upwards. -/
def move (h : HighWater α) (amount : α) : HighWater α where
  level := h.level + amount
  mark := max h.mark (h.level + amount)

/-- How far the level lies below its mark. -/
def fall (h : HighWater α) : α := h.mark - h.level

def reached (limit : α) (h : HighWater α) : Bool := decide (limit ≤ h.fall)

def passed (limit : α) (h : HighWater α) : Bool := decide (limit < h.fall)

/-- Up to the first amount that brings the fall past the limit, no amount leaves it
exactly on the limit. -/
def NeverOn (limit : α) : HighWater α → List α → Prop
  | _, [] => True
  | h, amount :: rest =>
    limit < (h.move amount).fall ∨ ((h.move amount).fall ≠ limit ∧
      NeverOn limit (h.move amount) rest)

instance decidableNeverOn (limit : α) :
    ∀ (h : HighWater α) (amounts : List α), Decidable (NeverOn limit h amounts)
  | _, [] => isTrue trivial
  | h, amount :: rest =>
    let _ := decidableNeverOn limit (h.move amount) rest
    inferInstanceAs (Decidable (_ ∨ (_ ∧ _)))

/-- A limit is first reached by the amount that first passes it exactly when the fall
does not stop on it before. -/
theorem first_reached_iff (limit : α) (h : HighWater α) (amounts : List α) :
    Runs.firstAfter move (reached limit) h amounts =
        Runs.firstAfter move (passed limit) h amounts ↔
      NeverOn limit h amounts := by
  induction amounts generalizing h with
  | nil => exact iff_of_true rfl trivial
  | cons amount rest ih =>
    simp only [Runs.firstAfter, NeverOn, reached, passed, decide_eq_true_eq]
    rcases lt_trichotomy limit (h.move amount).fall with past | on | short
    · simp [past, past.le]
    · -- On the limit the weaker test answers here and the stronger one later, if ever.
      rw [← on]
      simp only [le_refl, lt_irrefl, ↓reduceIte, ne_eq, not_true_eq_false, false_and, or_self,
        iff_false]
      intro same
      cases found : Runs.firstAfter move (passed limit) (h.move amount) rest with
      | none => simp [found] at same
      | some place => simp [found] at same
    · simp only [short.not_ge, short.not_gt, short.ne, ↓reduceIte, ne_eq, not_false_eq_true,
        true_and, false_or]
      rw [← ih (h.move amount)]
      exact Option.map_inj_right (fun _ _ same => Nat.succ.inj same)

end HighWater
