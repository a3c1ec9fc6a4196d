import RithmicEngine.Base.Runs
import Mathlib.Order.Lattice
import Mathlib.Order.Nat
/-!
# Two streams that tell the same

Two streams report the same numbered events, each in order, and are merged in any way. A
machine that knows how many events it has taken lets a report of an earlier event pass
and takes a report of the next one. It then takes every event once and in order, whatever
the merge, and after the last one it sees nothing but earlier ones.
-/
namespace Interleaving

open Runs

universe u v

variable {σ : Type u} {ι : Type v}

/-- The merged list keeps the order of each of the two. -/
inductive Merges : List ι → List ι → List ι → Prop
  | nil : Merges [] [] []
  | left {first second merged : List ι} (report : ι) (rest : Merges first second merged) :
      Merges (report :: first) second (report :: merged)
  | right {first second merged : List ι} (report : ι) (rest : Merges first second merged) :
      Merges first (report :: second) (report :: merged)

/-- The reports of a stream are of the events from the given one on. -/
def Numbered (of : Nat → ι → Prop) : Nat → List ι → Prop
  | _, [] => True
  | number, report :: rest => of number report ∧ Numbered of (number + 1) rest

theorem Numbered.imp {of of' : Nat → ι → Prop} (weaker : ∀ k report, of k report → of' k report)
    {number : Nat} {reports : List ι} (numbered : Numbered of number reports) :
    Numbered of' number reports := by
  induction reports generalizing number with
  | nil => trivial
  | cons report rest ih => exact ⟨weaker number report numbered.1, ih numbered.2⟩

/-- Every merged report is of one of the numbered events. -/
theorem Merges.mem_numbered {of : Nat → ι → Prop} {first second merged : List ι}
    (merges : Merges first second merged) {a b n : Nat} (left : Numbered of a first)
    (right : Numbered of b second) (leftEnd : a + first.length = n)
    (rightEnd : b + second.length = n) : ∀ report ∈ merged, ∃ k < n, of k report := by
  induction merges generalizing a b with
  | nil => exact fun report inside => absurd inside List.not_mem_nil
  | left report _ ih =>
    rw [List.length_cons] at leftEnd
    intro other inside
    rcases List.mem_cons.mp inside with rfl | later
    · exact ⟨a, by omega, left.1⟩
    · exact ih left.2 right (by omega) rightEnd other later
  | right report _ ih =>
    rw [List.length_cons] at rightEnd
    intro other inside
    rcases List.mem_cons.mp inside with rfl | later
    · exact ⟨b, by omega, right.1⟩
    · exact ih left right.2 leftEnd (by omega) other later

section

variable {step : σ → ι → σ} {At : Nat → σ → Prop} {of : Nat → ι → Prop} {n : Nat}
  (stale : ∀ taken number state report, At taken state → taken < n → of number report →
    number < taken → At taken (step state report))
  (next : ∀ taken state report, At taken state → taken + 1 < n → of taken report →
    At (taken + 1) (step state report))
include stale next

/-- The events are taken one after the other, and the report that takes the last one is
followed by reports of events that are taken. -/
theorem Merges.last {first second merged : List ι} (merges : Merges first second merged)
    {a b : Nat} {start : σ} (initial : At (max a b) start) (left : Numbered of a first)
    (right : Numbered of b second) (leftEnd : a + first.length = n)
    (rightEnd : b + second.length = n) (open_ : max a b < n) :
    ∃ before report after, merged = before ++ report :: after ∧ of (n - 1) report ∧
      At (n - 1) (run step start before) ∧
      Along step (fun state input => ∃ taken < n, At taken (step state input)) start before ∧
        ∀ other ∈ after, ∃ k < n, of k other := by
  induction merges generalizing a b start with
  | nil =>
    rw [List.length_nil] at leftEnd
    omega
  | left report rest ih =>
    rw [List.length_cons] at leftEnd
    obtain ⟨here, later⟩ := left
    by_cases behind : a < b
    · have kept : At (max (a + 1) b) (step start report) := by
        rw [max_eq_right behind]
        rw [max_eq_right behind.le] at initial
        exact stale b a start report initial (by omega) here behind
      obtain ⟨before, last, after, split, isLast, reached, along, stales⟩ :=
        ih kept later right (by omega) rightEnd (by omega)
      exact ⟨report :: before, last, after, by rw [split]; rfl, isLast, reached,
        ⟨⟨_, by omega, kept⟩, along⟩, stales⟩
    · rw [max_eq_left (not_lt.mp behind)] at initial open_
      by_cases isLast : a + 1 = n
      · refine ⟨[], report, _, rfl, ?_, ?_, trivial,
          rest.mem_numbered later right (by omega) rightEnd⟩
        · rw [← isLast]
          exact here
        · rw [← isLast]
          exact initial
      · have taken : At (max (a + 1) b) (step start report) := by
          rw [max_eq_left (by omega)]
          exact next a start report initial (by omega) here
        obtain ⟨before, last, after, split, isLast, reached, along, stales⟩ :=
          ih taken later right (by omega) rightEnd (by omega)
        exact ⟨report :: before, last, after, by rw [split]; rfl, isLast, reached,
          ⟨⟨_, by omega, taken⟩, along⟩, stales⟩
  | right report rest ih =>
    rw [List.length_cons] at rightEnd
    obtain ⟨here, later⟩ := right
    by_cases behind : b < a
    · have kept : At (max a (b + 1)) (step start report) := by
        rw [max_eq_left behind]
        rw [max_eq_left behind.le] at initial
        exact stale a b start report initial (by omega) here behind
      obtain ⟨before, last, after, split, isLast, reached, along, stales⟩ :=
        ih kept left later leftEnd (by omega) (by omega)
      exact ⟨report :: before, last, after, by rw [split]; rfl, isLast, reached,
        ⟨⟨_, by omega, kept⟩, along⟩, stales⟩
    · rw [max_eq_right (not_lt.mp behind)] at initial open_
      by_cases isLast : b + 1 = n
      · refine ⟨[], report, _, rfl, ?_, ?_, trivial,
          rest.mem_numbered left later leftEnd (by omega)⟩
        · rw [← isLast]
          exact here
        · rw [← isLast]
          exact initial
      · have taken : At (max a (b + 1)) (step start report) := by
          rw [max_eq_right (by omega)]
          exact next b start report initial (by omega) here
        obtain ⟨before, last, after, split, isLast, reached, along, stales⟩ :=
          ih taken left later leftEnd (by omega) (by omega)
        exact ⟨report :: before, last, after, by rw [split]; rfl, isLast, reached,
          ⟨⟨_, by omega, taken⟩, along⟩, stales⟩

end

end Interleaving
