import RithmicEngine.Base.Runs
import RithmicEngine.Execution.NetReconciler
/-!
# The clock of the reconciler

The reconciler keeps three fields; what they stand for is a history. A run is the
inconsistent observations since the last consistent one. The first field is the time of
the first of them and the other two are the last action among them, so the verdict is a
function of the run: act once the grace has passed since it began, and from then on
every time the retry interval has passed since the last action.
-/
namespace RithmicEngine.NetReconciler

open Runs

/-- The arguments of one call. -/
structure Observation where
  consistent : Bool
  nowMs : Int
  graceMs : Int
  retryMs : Int := 0
  deriving DecidableEq

/-- One call and its answer. -/
structure Answered where
  asked : Observation
  verdict : Verdict
  deriving DecidableEq

/-- The inconsistent observations since the last consistent one, the latest first. -/
def mismatchRun (history : List Answered) : List Answered :=
  history.takeWhile fun answered => !answered.asked.consistent

/-- When the run began that an observation at the given time would continue. -/
def startOf (nowMs : Int) : List Answered → Int
  | [] => nowMs
  | answered :: rest => startOf answered.asked.nowMs rest

/-- The time of the last action in the run. -/
def lastAction : List Answered → Option Int
  | [] => none
  | answered :: rest =>
    if answered.verdict = .mismatchAct then some answered.asked.nowMs else lastAction rest

/-- An action is due: the first after the grace, a later one after the retry interval. -/
def Due (run : List Answered) (asked : Observation) : Prop :=
  match lastAction run with
  | none => asked.graceMs ≤ asked.nowMs - startOf asked.nowMs run
  | some actedMs => 0 < asked.retryMs ∧ asked.retryMs ≤ asked.nowMs - actedMs

/-- The reconciler with every call so far and its answer. -/
def watch (pair : NetReconciler × List Answered) (asked : Observation) :
    NetReconciler × List Answered :=
  let (recon, verdict) :=
    pair.1.observe asked.consistent asked.nowMs asked.graceMs asked.retryMs
  (recon, ⟨asked, verdict⟩ :: pair.2)

/-- The answer to the latest call. -/
def answer (pair : NetReconciler × List Answered) (asked : Observation) : Verdict :=
  (pair.1.observe asked.consistent asked.nowMs asked.graceMs asked.retryMs).2

/-- The start of a run that has begun does not depend on the time asked at. -/
theorem startOf_begun {run : List Answered} (begun : run ≠ []) (first second : Int) :
    startOf first run = startOf second run := by
  cases run with
  | nil => exact absurd rfl begun
  | cons answered rest => rfl

theorem mismatchRun_consistent {asked : Observation} (consistent : asked.consistent = true)
    (verdict : Verdict) (history : List Answered) :
    mismatchRun (⟨asked, verdict⟩ :: history) = [] := by
  simp only [mismatchRun, List.takeWhile_cons, consistent, Bool.not_true, Bool.false_eq_true,
    ↓reduceIte]

theorem mismatchRun_inconsistent {asked : Observation} (inconsistent : asked.consistent = false)
    (verdict : Verdict) (history : List Answered) :
    mismatchRun (⟨asked, verdict⟩ :: history) = ⟨asked, verdict⟩ :: mismatchRun history := by
  simp only [mismatchRun, List.takeWhile_cons, inconsistent, Bool.not_false, ↓reduceIte]

/-- Without an action on record nothing in the run acted. -/
theorem none_acted {run : List Answered} (idle : lastAction run = none) :
    run.countP (fun answered => answered.verdict = .mismatchAct) = 0 := by
  induction run with
  | nil => rfl
  | cons answered rest ih =>
    simp only [lastAction] at idle
    split at idle
    next => exact absurd idle (Option.some_ne_none _)
    next waited =>
      rw [List.countP_cons_of_neg (by simpa only [decide_eq_true_eq] using waited)]
      exact ih idle

/-- The action on record is one of the run's. -/
theorem lastAction_mem {run : List Answered} {actedMs : Int}
    (acted : lastAction run = some actedMs) :
    ∃ answered ∈ run, answered.asked.nowMs = actedMs := by
  induction run with
  | nil => exact nomatch acted
  | cons answered rest ih =>
    simp only [lastAction] at acted
    split at acted
    next => exact ⟨answered, List.mem_cons_self, Option.some.inj acted⟩
    next =>
      obtain ⟨earlier, inside, same⟩ := ih acted
      exact ⟨earlier, List.mem_cons_of_mem answered inside, same⟩

/-- The fields stand for the run: its start, and its last action. An action was taken no
earlier than the grace, and not twice where none is retried. -/
structure Clocked (recon : NetReconciler) (run : List Answered) : Prop where
  since : recon.mismatchSinceMs = startOf 0 run
  positive : run ≠ [] → 0 < recon.mismatchSinceMs
  acted : recon.acted = (lastAction run).isSome
  actedMs : ∀ actedMs, lastAction run = some actedMs → recon.actedMs = actedMs
  waited : ∀ graceMs, (∀ answered ∈ run, answered.asked.graceMs = graceMs) →
    ∀ actedMs, lastAction run = some actedMs → graceMs ≤ actedMs - startOf 0 run
  once : (∀ answered ∈ run, answered.asked.retryMs = 0) →
    run.countP (fun answered => answered.verdict = .mismatchAct) ≤ 1

theorem clocked_start : Clocked {} [] where
  since := rfl
  positive := fun begun => absurd rfl begun
  acted := rfl
  actedMs := fun _ acted => nomatch acted
  waited := fun _ _ _ acted => nomatch acted
  once := fun _ => Nat.zero_le 1

/-- The clock of the mismatch shows the start of the run. -/
theorem Clocked.since_eq {recon : NetReconciler} {run : List Answered}
    (clocked : Clocked recon run) (nowMs : Int) : recon.since nowMs = startOf nowMs run := by
  by_cases begun : run = []
  · have none : recon.mismatchSinceMs = 0 := by
      rw [clocked.since, begun]
      rfl
    rw [NetReconciler.since, if_pos none, begun]
    rfl
  · have running := (clocked.positive begun).ne'
    rw [NetReconciler.since, if_neg running, clocked.since]
    exact startOf_begun begun 0 nowMs

/-- The answer to an inconsistent observation is an action exactly when one is due. -/
theorem Clocked.observe_iff {recon : NetReconciler} {run : List Answered}
    (clocked : Clocked recon run) (nowMs graceMs retryMs : Int) :
    (recon.observe false nowMs graceMs retryMs).2 = .mismatchAct ↔
      Due run ⟨false, nowMs, graceMs, retryMs⟩ := by
  have start := clocked.since_eq nowMs
  simp only [observe, Bool.false_eq_true, ↓reduceIte, start, clocked.acted, Due]
  cases acted : lastAction run with
  | none =>
    simp only [Option.isSome_none, Bool.false_eq_true, ↓reduceIte]
    split
    next early =>
      simp only [reduceCtorEq, false_iff]
      omega
    next due =>
      simp only [true_iff]
      omega
  | some actedMs =>
    simp only [Option.isSome_some, ↓reduceIte, clocked.actedMs actedMs acted]
    split
    next due =>
      simp only [true_iff]
      omega
    next early =>
      simp only [reduceCtorEq, false_iff]
      omega

/-- What the fields are after an inconsistent observation. -/
theorem observe_fields (recon : NetReconciler) (nowMs graceMs retryMs : Int) :
    (recon.observe false nowMs graceMs retryMs).1.mismatchSinceMs = recon.since nowMs ∧
      (recon.observe false nowMs graceMs retryMs).1.acted =
        (recon.acted ||
          decide ((recon.observe false nowMs graceMs retryMs).2 = .mismatchAct)) ∧
      (recon.observe false nowMs graceMs retryMs).1.actedMs =
        (if (recon.observe false nowMs graceMs retryMs).2 = .mismatchAct then nowMs
          else recon.actedMs) := by
  simp only [observe, Bool.false_eq_true, ↓reduceIte]
  split
  next acted =>
    split
    · simp [acted]
    · simp [acted]
  next idle =>
    split
    · simp
    · simp

/-- An action is due no earlier than the grace after the start of the run. -/
theorem Clocked.due_after_grace {recon : NetReconciler} {run : List Answered}
    {asked : Observation} (clocked : Clocked recon run)
    (later : ∀ answered ∈ run, answered.asked.nowMs ≤ asked.nowMs)
    (same : ∀ answered ∈ run, answered.asked.graceMs = asked.graceMs) (due : Due run asked) :
    asked.graceMs ≤ asked.nowMs - startOf asked.nowMs run := by
  simp only [Due] at due
  split at due
  next => exact due
  next actedMs acted =>
    obtain ⟨answered, inside, named⟩ := lastAction_mem acted
    have begun : run ≠ [] := List.ne_nil_of_mem inside
    have earlier := later answered inside
    have waited := clocked.waited asked.graceMs same actedMs acted
    rw [startOf_begun begun asked.nowMs 0]
    omega

/-- Every call keeps the fields on the clock of the run. -/
theorem Clocked.step {pair : NetReconciler × List Answered} {asked : Observation}
    (clocked : Clocked pair.1 (mismatchRun pair.2)) (positive : 0 < asked.nowMs)
    (later : ∀ answered ∈ pair.2, answered.asked.nowMs ≤ asked.nowMs) :
    Clocked (watch pair asked).1 (mismatchRun (watch pair asked).2) := by
  obtain ⟨recon, history⟩ := pair
  obtain ⟨consistent, nowMs, graceMs, retryMs⟩ := asked
  simp only [watch]
  cases consistent with
  | true =>
    rw [mismatchRun_consistent rfl]
    exact clocked_start
  | false =>
    rw [mismatchRun_inconsistent rfl]
    have within (answered : Answered) (inside : answered ∈ mismatchRun history) :
        answered.asked.nowMs ≤ nowMs := later answered ((List.takeWhile_subset _) inside)
    have start := clocked.since_eq nowMs
    have due := clocked.observe_iff nowMs graceMs retryMs
    have ready := @Clocked.due_after_grace recon (mismatchRun history)
      ⟨false, nowMs, graceMs, retryMs⟩ clocked within
    obtain ⟨since, acted, actedMs⟩ := observe_fields recon nowMs graceMs retryMs
    generalize recon.observe false nowMs graceMs retryMs = result at since acted actedMs due ⊢
    generalize mismatchRun history = run at clocked within start due ready ⊢
    rw [start] at since
    refine ⟨?_, ?_, ?_, ?_, ?_, ?_⟩
    · rw [since, startOf]
    · intro _
      rw [since]
      by_cases begun : run = []
      · rw [begun]
        exact positive
      · have running := clocked.positive begun
        rw [clocked.since, startOf_begun begun 0 nowMs] at running
        exact running
    · rw [acted, clocked.acted]
      simp only [lastAction]
      split
      next now => simp [now]
      next waits => simp [waits]
    · intro at_ found
      rw [actedMs]
      simp only [lastAction] at found
      split at found
      next now => rw [if_pos now, Option.some.inj found]
      next waits =>
        rw [if_neg waits]
        exact clocked.actedMs at_ found
    · intro grace same at_ found
      rw [startOf]
      have mine : graceMs = grace := same _ List.mem_cons_self
      have rest (answered : Answered) (inside : answered ∈ run) :
          answered.asked.graceMs = grace := same answered (List.mem_cons_of_mem _ inside)
      simp only [lastAction] at found
      split at found
      next now =>
        rw [← Option.some.inj found, ← mine]
        exact ready (mine ▸ rest) (due.mp now)
      next waits =>
        obtain ⟨answered, inside, _⟩ := lastAction_mem found
        rw [startOf_begun (List.ne_nil_of_mem inside) nowMs 0]
        exact clocked.waited grace rest at_ found
    · intro single
      have mine : retryMs = 0 := single _ List.mem_cons_self
      have before := clocked.once fun answered inside =>
        single answered (List.mem_cons_of_mem _ inside)
      by_cases now : result.2 = .mismatchAct
      · have first : lastAction run = none := by
          have asked := due.mp now
          simp only [Due] at asked
          split at asked
          next none => exact none
          next => omega
        rw [List.countP_cons, none_acted first]
        split
        · exact Nat.le_refl 1
        · exact Nat.zero_le 1
      · rw [List.countP_cons_of_neg (by simpa only [decide_eq_true_eq] using now)]
        exact before

/-- One call answers exactly: it acts on a mismatch where an action is due and only there,
not within the grace of the run's start, and once in a run without retries. -/
structure Exact (pair : NetReconciler × List Answered) (asked : Observation) : Prop where
  due : asked.consistent = false →
    (answer pair asked = .mismatchAct ↔ Due (mismatchRun pair.2) asked)
  consistent : asked.consistent = true → answer pair asked = .ok
  grace : (∀ answered ∈ mismatchRun pair.2, answered.asked.graceMs = asked.graceMs) →
    answer pair asked = .mismatchAct →
      asked.graceMs ≤ asked.nowMs - startOf asked.nowMs (mismatchRun pair.2)
  once : (∀ answered ∈ mismatchRun (watch pair asked).2, answered.asked.retryMs = 0) →
    (mismatchRun (watch pair asked).2).countP (fun answered => answered.verdict = .mismatchAct) ≤ 1

/-- From a clock that is right about the run of mismatches, the verdict is the one asked for. -/
theorem Clocked.exact {pair : NetReconciler × List Answered} {asked : Observation}
    (clocked : Clocked pair.1 (mismatchRun pair.2)) (positive : 0 < asked.nowMs)
    (later : ∀ answered ∈ pair.2, answered.asked.nowMs ≤ asked.nowMs) : Exact pair asked := by
  have acts (inconsistent : asked.consistent = false) :
      answer pair asked = .mismatchAct ↔ Due (mismatchRun pair.2) asked := by
    obtain ⟨consistent, nowMs, graceMs, retryMs⟩ := asked
    obtain rfl : consistent = false := inconsistent
    exact clocked.observe_iff nowMs graceMs retryMs
  have agrees (consistent : asked.consistent = true) : answer pair asked = .ok :=
    (observe_ok _ _ _ _ pair.1).mpr consistent
  refine ⟨acts, agrees, ?_, (clocked.step positive later).once⟩
  intro same acted
  have inconsistent : asked.consistent = false := by
    cases consistent : asked.consistent with
    | false => rfl
    | true => exact nomatch (agrees consistent).symm.trans acted
  refine clocked.due_after_grace ?_ same ((acts inconsistent).mp acted)
  exact fun answered inside => later answered ((List.takeWhile_subset _) inside)

/-- Over every sequence of calls at positive times that do not go back, each answer is the
one that the run asks for. -/
theorem observe_exact (calls : List Observation)
    (positive : ∀ asked ∈ calls, 0 < asked.nowMs ∧ 0 ≤ asked.graceMs ∧ 0 ≤ asked.retryMs)
    (ordered : calls.Pairwise fun first second => first.nowMs ≤ second.nowMs) :
    Along watch Exact ({}, []) calls := by
  have along (pair : NetReconciler × List Answered)
      (clocked : Clocked pair.1 (mismatchRun pair.2))
      (later : ∀ answered ∈ pair.2, ∀ asked ∈ calls, answered.asked.nowMs ≤ asked.nowMs) :
      Along watch Exact pair calls := by
    induction calls generalizing pair with
    | nil => trivial
    | cons asked rest ih =>
      obtain ⟨first, sorted⟩ := List.pairwise_cons.mp ordered
      have now := (positive asked List.mem_cons_self).1
      have before (answered : Answered) (inside : answered ∈ pair.2) :
          answered.asked.nowMs ≤ asked.nowMs := later answered inside asked List.mem_cons_self
      refine ⟨clocked.exact now before, ?_⟩
      refine ih (fun other inside => positive other (List.mem_cons_of_mem asked inside)) sorted
        (watch pair asked) (clocked.step now before) ?_
      intro answered inside other following
      rcases List.mem_cons.mp inside with rfl | earlier
      · exact first other following
      · exact later answered earlier other (List.mem_cons_of_mem asked following)
  exact along ({}, []) clocked_start (fun _ inside => absurd inside List.not_mem_nil)

/-- A mismatch that outlives an action, and one after an agreement. -/
def persistingMismatch : List Observation :=
  [⟨false, 100000, 5000, 15000⟩, ⟨false, 105000, 5000, 15000⟩, ⟨false, 110000, 5000, 15000⟩,
    ⟨false, 120000, 5000, 15000⟩, ⟨true, 121000, 5000, 15000⟩, ⟨false, 130000, 5000, 15000⟩]

theorem persisting_mismatch_exact : Along watch Exact ({}, []) persistingMismatch :=
  observe_exact persistingMismatch (by decide) (by decide)

example : ((run watch ({}, []) persistingMismatch).2.map Answered.verdict).reverse =
    [.mismatchWait, .mismatchAct, .mismatchWait, .mismatchAct, .ok, .mismatchWait] := by decide

end RithmicEngine.NetReconciler
