import Mathlib.Data.List.Basic
import Mathlib.Tactic.Linarith
/-!
# Actions at most once in a period

Instants are spaced when each is a period after the ones before it: then no window of so many
periods holds more of them.
-/
namespace Throttle

/-- Each instant is a period after every earlier one. -/
def Spaced (period : Int) (times : List Int) : Prop :=
  times.Pairwise fun earlier later => earlier + period ≤ later

variable {period : Int}

theorem spaced_nil : Spaced period [] := List.Pairwise.nil

variable {times : List Int}

/-- Another instant, a period after the earlier ones. -/
theorem Spaced.concat (spaced : Spaced period times) {now : Int}
    (after : ∀ earlier ∈ times, earlier + period ≤ now) : Spaced period (times ++ [now]) := by
  refine List.pairwise_append.mpr ⟨spaced, List.pairwise_singleton _ _, ?_⟩
  intro earlier inside later last
  rw [List.mem_singleton.mp last]
  exact after earlier inside

/-- All instants are in a window of so many periods, so there are no more of them. -/
theorem Spaced.length_le (spaced : Spaced period times) (start : Int) {n : Nat}
    (inside : ∀ time ∈ times, start ≤ time ∧ time < start + n * period) : times.length ≤ n := by
  induction times generalizing start n with
  | nil => exact Nat.zero_le n
  | cons first rest ih =>
    obtain ⟨after, spaced⟩ := List.pairwise_cons.mp spaced
    obtain ⟨from', before⟩ := inside first List.mem_cons_self
    cases n with
    | zero =>
      rw [Nat.cast_zero, zero_mul] at before
      omega
    | succ n =>
      have later : ∀ time ∈ rest, start + period ≤ time ∧ time < start + period + n * period := by
        intro time later
        have gap := after time later
        have bound := (inside time (List.mem_cons_of_mem first later)).2
        push_cast at bound
        constructor
        · omega
        · linarith
      exact Nat.succ_le_succ (ih spaced (start + period) later)

/-- No window of so many periods holds more of the instants. -/
theorem Spaced.window_le (spaced : Spaced period times) (start : Int) (n : Nat) :
    (times.filter fun time => start ≤ time ∧ time < start + n * period).length ≤ n := by
  have fewer : Spaced period
      (times.filter fun time => start ≤ time ∧ time < start + n * period) :=
    List.Pairwise.sublist List.filter_sublist spaced
  refine fewer.length_le start fun time kept => ?_
  exact of_decide_eq_true (List.mem_filter.mp kept).2

end Throttle
