import Mathlib.Data.List.Infix
/-!
# Keeping the newest

A buffer of bounded size keeps the last entries of what it is given. Cutting a part before it
is put behind or before another loses nothing that cutting the whole would keep.
-/
namespace Newest

variable {α : Type}

/-- The last entries, at most so many. -/
def newest (cap : Nat) (entries : List α) : List α := entries.drop (entries.length - cap)

variable {entries : List α} (cap : Nat)

theorem newest_suffix (entries : List α) : newest cap entries <:+ entries :=
  List.drop_suffix _ _

theorem newest_length (entries : List α) : (newest cap entries).length ≤ cap := by
  unfold newest
  rw [List.length_drop]
  omega

theorem newest_of_le {cap : Nat} (fits : entries.length ≤ cap) : newest cap entries = entries := by
  unfold newest
  rw [Nat.sub_eq_zero_of_le fits, List.drop_zero]

/-- A suffix that fits is kept. -/
theorem suffix_newest {cap : Nat} {part : List α} (suffix : part <:+ entries)
    (fits : part.length ≤ cap) : part <:+ newest cap entries := by
  refine List.suffix_of_suffix_length_le suffix (newest_suffix cap entries) ?_
  unfold newest
  rw [List.length_drop]
  have := suffix.length_le
  omega

/-- The front may be cut first. -/
theorem newest_append_front (front rest : List α) :
    newest cap (newest cap front ++ rest) = newest cap (front ++ rest) := by
  unfold newest
  rw [List.drop_append, List.drop_append, List.drop_drop]
  simp only [List.length_append, List.length_drop]
  congr 2
  · omega
  · omega

/-- The rest may be cut first. -/
theorem newest_append_rest (front rest : List α) :
    newest cap (front ++ newest cap rest) = newest cap (front ++ rest) := by
  rcases Nat.le_total rest.length cap with fits | long
  · rw [newest_of_le fits]
  · have full : (newest cap rest).length = cap := by
      unfold newest
      rw [List.length_drop]
      omega
    have first : (front ++ newest cap rest).length - cap = front.length := by
      rw [List.length_append, full, Nat.add_sub_cancel]
    have second : (front ++ rest).length - cap = front.length + (rest.length - cap) := by
      rw [List.length_append]
      omega
    have kept : newest cap (front ++ newest cap rest) = newest cap rest := by
      rw [newest, first, List.drop_left]
    have whole : newest cap (front ++ rest) = newest cap rest := by
      rw [newest, second, List.drop_length_add_append]
      rfl
    rw [kept, whole]

/-- An entry that is not kept has as many newer ones as are kept. -/
theorem newer_of_lost {cap : Nat} {newer : α → α → Prop} (ordered : entries.Pairwise newer)
    {entry : α} (inside : entry ∈ entries) (lost : entry ∉ newest cap entries) :
    (newest cap entries).length = cap ∧ ∀ other ∈ newest cap entries, newer entry other := by
  have split := List.take_append_drop (entries.length - cap) entries
  have front : entry ∈ entries.take (entries.length - cap) := by
    rw [← split] at inside
    exact (List.mem_append.mp inside).resolve_right lost
  constructor
  · have some := List.length_pos_of_mem front
    rw [List.length_take] at some
    unfold newest
    rw [List.length_drop]
    omega
  · intro other kept
    rw [← split] at ordered
    exact (List.pairwise_append.mp ordered).2.2 entry front other kept

end Newest
