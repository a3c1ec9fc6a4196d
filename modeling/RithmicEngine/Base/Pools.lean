import Mathlib.Data.List.Basic
/-!
# Pools of items that fire once

Items are stamped with the time at which they are born. At each time new ones join a pool,
those that have died leave it, those that fire are spent, and some of the oldest may be given
up. A stamp names one item of a pool at most, and an item that has fired does not fire again.
-/
namespace Pools

universe u

/-- What is kept of an item: its stamp, and whether it is spent. -/
structure Lifecycle (α : Type u) where
  born : α → Int
  spent : α → Bool
  spend : α → α
  born_spend (a : α) : born (spend a) = born a
  spent_spend (a : α) : spent (spend a) = true

variable {α : Type u} (K : Lifecycle α)

/-- The dead leave, and those that fire are spent. -/
def sweep (dead fires : α → Bool) (pool : List α) : List α :=
  (pool.filter fun a => !dead a).map fun a => if fires a then K.spend a else a

/-- The stamps go up to now. -/
structure Stamped (now : Int) (pool : List α) : Prop where
  apart : pool.Pairwise fun a b => K.born a < K.born b
  past : ∀ a ∈ pool, K.born a ≤ now

/-- An item of the stamp is there and may still fire. -/
def Waits (pool : List α) (stamp : Int) : Prop :=
  ∃ a ∈ pool, K.spent a = false ∧ K.born a = stamp

variable {K} {dead fires : α → Bool} {pool rest new : List α} {now later : Int}

theorem mem_sweep {a : α} : a ∈ sweep K dead fires pool ↔
    ∃ b ∈ pool, dead b = false ∧ (if fires b then K.spend b else b) = a := by
  unfold sweep
  simp only [List.mem_map, List.mem_filter, Bool.not_eq_true', and_assoc]

theorem born_swept (a : α) : K.born (if fires a then K.spend a else a) = K.born a := by
  split
  · exact K.born_spend a
  · rfl

/-- A stamp names one item. -/
theorem eq_of_born (apart : pool.Pairwise fun a b => K.born a < K.born b) {a b : α}
    (first : a ∈ pool) (second : b ∈ pool) (same : K.born a = K.born b) : a = b := by
  induction pool with
  | nil => exact absurd first List.not_mem_nil
  | cons x rest ih =>
    obtain ⟨before, later⟩ := List.pairwise_cons.mp apart
    rcases List.mem_cons.mp first with isA | inA
    · rcases List.mem_cons.mp second with isB | inB
      · rw [isA, isB]
      · have less := before b inB
        rw [← isA, same] at less
        exact absurd less (Int.lt_irrefl _)
    · rcases List.mem_cons.mp second with isB | inB
      · have less := before a inA
        rw [← isB, same] at less
        exact absurd less (Int.lt_irrefl _)
      · exact ih later inA inB

namespace Stamped

theorem nil (K : Lifecycle α) (now : Int) : Stamped K now [] where
  apart := List.Pairwise.nil
  past := fun _ inside => absurd inside List.not_mem_nil

theorem of_sublist (stamped : Stamped K now pool) (part : rest.Sublist pool) :
    Stamped K now rest where
  apart := stamped.apart.sublist part
  past := fun a inside => stamped.past a (part.subset inside)

/-- A sweep keeps the stamps apart. -/
theorem swept (stamped : Stamped K now pool) : Stamped K now (sweep K dead fires pool) where
  apart := by
    have left : (pool.filter fun a => !dead a).Pairwise fun a b => K.born a < K.born b :=
      stamped.apart.sublist List.filter_sublist
    refine List.pairwise_map.mpr (left.imp ?_)
    intro a b before
    rw [born_swept, born_swept]
    exact before
  past := by
    intro a inside
    obtain ⟨b, isIn, _, isA⟩ := mem_sweep.mp inside
    rw [← isA, born_swept]
    exact stamped.past b isIn

/-- One item at most joins at a time. -/
theorem join (stamped : Stamped K now pool) (after : now < later) (one : new.length ≤ 1)
    (stamps : ∀ a ∈ new, K.born a = later) : Stamped K later (pool ++ new) where
  apart := by
    refine List.pairwise_append.mpr ⟨stamped.apart, ?_, ?_⟩
    · match new, one with
      | [], _ => exact List.Pairwise.nil
      | [a], _ => exact List.pairwise_singleton _ a
    · intro a old b young
      rw [stamps b young]
      exact Int.lt_of_le_of_lt (stamped.past a old) after
  past := by
    intro a inside
    rcases List.mem_append.mp inside with old | young
    · exact Int.le_trans (stamped.past a old) (Int.le_of_lt after)
    · exact Int.le_of_eq (stamps a young)

end Stamped

theorem Waits.of_subset {stamp : Int} (waits : Waits K rest stamp) (part : rest ⊆ pool) :
    Waits K pool stamp := by
  obtain ⟨a, inside, unspent, isStamp⟩ := waits
  exact ⟨a, part inside, unspent, isStamp⟩

/-- What may still fire after a sweep could before, and has not fired in it. -/
theorem Waits.of_swept {stamp : Int} (stamped : Stamped K now pool)
    (waits : Waits K (sweep K dead fires pool) stamp) :
    Waits K pool stamp ∧ ∀ a ∈ pool, K.born a = stamp → fires a = false := by
  obtain ⟨a, inside, unspent, isStamp⟩ := waits
  obtain ⟨b, isIn, _, isA⟩ := mem_sweep.mp inside
  cases fired : fires b with
  | true =>
    rw [if_pos fired] at isA
    rw [← isA, K.spent_spend] at unspent
    cases unspent
  | false =>
    rw [if_neg (by rw [fired]; exact Bool.false_ne_true)] at isA
    subst isA
    refine ⟨⟨b, isIn, unspent, isStamp⟩, ?_⟩
    intro other otherIn same
    rw [eq_of_born stamped.apart otherIn isIn (same.trans isStamp.symm)]
    exact fired

end Pools
