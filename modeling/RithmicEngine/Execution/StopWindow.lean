import RithmicEngine.Execution.StopTimer
/-!
# The window of the software stop

While every check of an open position finds its stop breached, an exit goes out by each
check that lies the timeout after the first one, and an exit for the timeout goes out only
then. The first breached check starts the timer and sends nothing, so with a timeout of
zero the exit goes out on the second one. A close adopted from the exchange leaves the
timer running, but a check of the next trade that finds the stop in order clears it.
-/
namespace RithmicEngine

open Runs

/-- The times of the checks among the calls. -/
def checkTimes (calls : List Call) : List Int :=
  (calls.filter fun call => call.checks.isSome).map Call.now

namespace OrderManager

variable {host : Host}

/-! ## What the checks of a run saw -/

/-- A check of an open position: its trade, its time, and whether it saw the stop breached. -/
structure Checked where
  trade : Nat
  time : Int
  breached : Bool
  deriving DecidableEq, Repr

def checkedBy (s : OrderManager) (call : Call) : List Checked :=
  match call.checks with
  | some price => if s.inTrade then [⟨s.tradeSeq, call.now, s.slBreached price⟩] else []
  | none => []

/-- The checks of a run, in order. -/
def checked (host : Host) (s : OrderManager) (calls : List Call) : List Checked :=
  (run (observe (step host) fun log s call _ => log ++ checkedBy s call) (s, []) calls).2

/-- Since the timer of a trade runs, every check of the trade saw the stop breached. -/
structure Timed (times : List Int) (log : List Checked) (s : OrderManager) : Prop where
  trades : ∀ entry ∈ log, entry.trade ≤ s.tradeSeq
  known : ∀ entry ∈ log, entry.time ∈ times
  timer : s.slBreachTime = 0 ∨ s.slBreachTime ∈ times
  breached : s.slBreachTime ≠ 0 → ∀ entry ∈ log, entry.trade = s.tradeSeq →
    s.slBreachTime < entry.time → entry.breached = true

theorem checkTimes_append (first second : List Call) :
    checkTimes (first ++ second) = checkTimes first ++ checkTimes second := by
  rw [checkTimes, List.filter_append, List.map_append]
  rfl

theorem checkTimes_check {call : Call} {price : ℚ} (check : call.checks = some price) :
    checkTimes [call] = [call.now] := by
  simp only [checkTimes, List.filter_cons, check, Option.isSome_some, ↓reduceIte,
    List.filter_nil, List.map_cons, List.map_nil]

/-- A timer that is kept or cleared stays timed, whatever trade is on. -/
theorem Timed.keeps {times more : List Int} {log : List Checked} {s t : OrderManager}
    (timed : Timed times log s) (keeps : KeepsTimer s t) (trade : s.tradeSeq ≤ t.tradeSeq) :
    Timed (times ++ more) log t := by
  constructor
  · exact fun entry inside => (timed.trades entry inside).trans trade
  · exact fun entry inside => List.mem_append_left _ (timed.known entry inside)
  · rcases keeps with same | cleared
    · rw [same]
      exact timed.timer.imp_right (List.mem_append_left _)
    · exact Or.inl cleared
  · intro running entry inside own later
    rcases keeps with same | cleared
    · rw [same] at running later
      have before := timed.trades entry inside
      exact timed.breached running entry inside (by omega) later
    · exact absurd cleared running

/-- One call keeps the log timed, if its check is not earlier than the checks before. -/
theorem step_timed {times : List Int} {log : List Checked} (s : OrderManager) (call : Call)
    (timed : Timed times log s) (ordered : ∀ time ∈ times, call.checks ≠ none → time ≤ call.now) :
    Timed (times ++ checkTimes [call]) (log ++ checkedBy s call) (step host s call) := by
  have trade := step_trade_le host s call
  cases check : call.checks with
  | none =>
    rw [checkedBy, check, List.append_nil]
    exact timed.keeps (perform_timer call { s with outbox := [] } check) trade
  | some price =>
    rw [checkedBy, check]
    dsimp only
    cases trading : s.inTrade with
    | false =>
      rw [check_idle s call price check trading, if_neg Bool.false_ne_true, List.append_nil]
      exact timed.keeps (Or.inl rfl) (le_refl _)
    | true =>
      have timer := @check_timer host s call price check trading
      rw [if_pos rfl, checkTimes_check check]
      have now_mem : call.now ∈ times ++ [call.now] :=
        List.mem_append_right _ (List.mem_singleton.mpr rfl)
      have kept (keeps : KeepsTimer s (step host s call)) :
          Timed (times ++ [call.now]) log (step host s call) := timed.keeps keeps trade
      constructor
      · intro entry inside
        rcases List.mem_append.mp inside with before | now
        · exact (timed.trades entry before).trans trade
        · rw [List.mem_singleton.mp now]
          exact trade
      · intro entry inside
        rcases List.mem_append.mp inside with before | now
        · exact List.mem_append_left _ (timed.known entry before)
        · rw [List.mem_singleton.mp now]
          exact now_mem
      · split at timer
        · rcases timer with keeps | started
          · exact (kept keeps).timer
          · rw [started]
            exact Or.inr now_mem
        · exact Or.inl timer
      · intro running entry inside own later
        split at timer
        next breached =>
          rcases List.mem_append.mp inside with before | now
          · rcases timer with keeps | started
            · exact (kept keeps).breached running entry before own later
            · have past := ordered entry.time (timed.known entry before) (by rw [check]; simp)
              omega
          · rw [List.mem_singleton.mp now]
            exact breached
        next => exact absurd timer running

/-- Along a run, since the timer of a trade runs every check of it saw the stop breached. Induction
on the calls. -/
theorem run_timed (s : OrderManager) (calls : List Call) (initial : s.slBreachTime = 0)
    (ordered : (checkTimes calls).Pairwise (· ≤ ·)) :
    Timed (checkTimes calls) (checked host s calls) (run (step host) s calls) := by
  induction calls using List.reverseRecOn with
  | nil =>
    constructor
    · exact fun entry inside => absurd inside List.not_mem_nil
    · exact fun entry inside => absurd inside List.not_mem_nil
    · exact Or.inl initial
    · exact fun running => absurd initial running
  | append_singleton past call ih =>
    rw [checkTimes_append, List.pairwise_append] at ordered
    have timed := ih ordered.1
    have fst := run_observe_fst (step host) (fun log s call _ => log ++ checkedBy s call) (s, [])
      past
    have log : checked host s (past ++ [call]) =
        checked host s past ++ checkedBy (run (step host) s past) call := by
      rw [checked, run_append, run_cons, run_nil, observe, fst]
      rfl
    rw [checkTimes_append, log, run_append]
    refine step_timed _ call timed fun time inside check => ?_
    obtain ⟨price, check⟩ := Option.ne_none_iff_exists'.mp check
    exact ordered.2.2 time inside call.now (by rw [checkTimes_check check]; simp)

/-! ## The window of the software stop -/

/-- While every check finds the stop breached, an exit is sent by each check after the
first one that lies at the timeout or later. -/
def FiresInWindow (host : Host) (start : OrderManager) (calls : List Call) : Prop :=
  ∀ past first middle last rest, calls = past ++ first :: (middle ++ last :: rest) →
    (run (step host) start past).inTrade = true → first.checks ≠ none → last.checks ≠ none →
    (∀ call ∈ first :: (middle ++ [last]), call.op.isNotification = false) →
    Along (step host) SeesBreach (run (step host) start past) (first :: (middle ++ [last])) →
    first.now + host.cfg.slFireTimeoutMs * 1000000 ≤ last.now →
      SendsExit host (run (step host) start past) (first :: (middle ++ [last]))

/-- Without an exchange stop a breached check exits at once. -/
def FiresWithoutStop (host : Host) (start : OrderManager) (calls : List Call) : Prop :=
  ∀ past check rest, calls = past ++ check :: rest →
    (run (step host) start past).inTrade = true → check.checks ≠ none →
    SeesBreach (run (step host) start past) check →
    (run (step host) start past).pos.basketIdStop = "" →
      SendsExit host (run (step host) start past) [check]

/-- The check after one that replaced the stop exits when it finds the new one breached. -/
def FiresAfterReplacing (host : Host) (start : OrderManager) (calls : List Call) : Prop :=
  ∀ past first middle last rest, calls = past ++ first :: (middle ++ last :: rest) →
    first.checks ≠ none → last.checks ≠ none →
    (run (step host) start past).pos.basketIdStop ≠ "" →
    stopPrices (step host (run (step host) start past) first).outbox ≠ [] →
    (∀ call ∈ middle, call.op.isNotification = false ∧ call.checks = none) →
    SeesBreach (run (step host) start (past ++ first :: middle)) last →
      SendsExit host (run (step host) start past) (first :: (middle ++ [last]))

/-- A check exits for the timeout only if every check of its trade within the timeout
before saw the stop breached. -/
def FiresOverdueOnly (host : Host) (start : OrderManager) (calls : List Call) : Prop :=
  ∀ past check rest, calls = past ++ check :: rest → check.checks ≠ none →
    (∃ request ∈ exits (step host (run (step host) start past) check).outbox,
      request.userTag = "stop_loss_timeout") →
    ∀ entry ∈ checked host start (past ++ [check]),
      entry.trade = (run (step host) start past).tradeSeq →
      check.now - host.cfg.slFireTimeoutMs * 1000000 < entry.time → entry.breached = true

/-- Whole milliseconds have passed when as many nanoseconds have. -/
theorem tdiv_ge_iff {elapsed millis : Int} (forward : 0 ≤ elapsed) :
    elapsed.tdiv 1000000 ≥ millis ↔ millis * 1000000 ≤ elapsed := by
  rw [Int.tdiv_eq_ediv_of_nonneg forward]
  omega

section Windows

variable (live : host.Live) (accepts : ∀ basket, host.accepts basket = true)
  {start : OrderManager} (initial : start.slBreachTime = 0) {calls : List Call}
  (ordered : (checkTimes calls).Pairwise (· ≤ ·))
include live accepts

theorem firesWithoutStop : FiresWithoutStop host start calls := by
  intro past check rest _ trading checks breached bare
  obtain ⟨price, check_⟩ := Option.ne_none_iff_exists'.mp checks
  rw [SendsExit, journal_cons, exits_append]
  refine List.append_ne_nil_of_left_ne_nil ?_ _
  rcases check_step live accepts _ check price check_ trading (breached price check_ trading)
    with sent | ⟨early, _⟩
  · exact sent
  · exact absurd (Or.inl bare) early

/-- The replacement leaves its flag set, so the next check that finds the new stop breached
exits. -/
theorem firesAfterReplacing : FiresAfterReplacing host start calls := by
  intro past first middle last rest _ checks lastChecks stands replaced quiet breached
  obtain ⟨price, check⟩ := Option.ne_none_iff_exists'.mp checks
  obtain ⟨lastPrice, lastCheck⟩ := Option.ne_none_iff_exists'.mp lastChecks
  rw [run_append, run_cons] at breached
  generalize run (step host) start past = s at stands replaced breached ⊢
  rw [SendsExit, journal_cons, exits_append]
  rcases replace_step live accepts s first price check stands replaced with sent | ⟨open_, window⟩
  · exact List.append_ne_nil_of_left_ne_nil sent _
  · refine List.append_ne_nil_of_right_ne_nil _ ?_
    generalize step host s first = t at open_ window breached ⊢
    rw [journal_append, exits_append]
    rcases run_pending live accepts t middle open_ window quiet with sent | ⟨open_, window⟩
    · exact List.append_ne_nil_of_left_ne_nil sent _
    · refine List.append_ne_nil_of_right_ne_nil _ ?_
      rw [journal_cons, exits_append]
      refine List.append_ne_nil_of_left_ne_nil ?_ _
      rcases check_step live accepts _ last lastPrice lastCheck open_
        (breached lastPrice lastCheck open_) with sent | ⟨early, _⟩
      · exact sent
      · exact absurd (Or.inr (Or.inl window)) early

include initial ordered in
/-- The first check starts the timer and none between clears it, so the one at the timeout exits. -/
theorem firesInWindow (positive : ∀ time ∈ checkTimes calls, 0 < time) :
    FiresInWindow host start calls := by
  intro past first middle last rest same trading checks lastChecks silent breached late
  obtain ⟨price, check⟩ := Option.ne_none_iff_exists'.mp checks
  obtain ⟨lastPrice, lastCheck⟩ := Option.ne_none_iff_exists'.mp lastChecks
  have split : checkTimes calls = checkTimes past ++ ([first.now] ++
      (checkTimes middle ++ ([last.now] ++ checkTimes rest))) := by
    rw [← checkTimes_check check, ← checkTimes_check lastCheck, ← checkTimes_append,
      ← checkTimes_append, ← checkTimes_append, ← checkTimes_append, same]
    rfl
  rw [split] at ordered positive
  have begun : 0 < first.now := positive first.now (by simp)
  have forward : first.now ≤ last.now :=
    (List.pairwise_append.mp (List.pairwise_append.mp ordered).2.1).2.2 _ (by simp) _ (by simp)
  have timed := @run_timed host start past initial (List.pairwise_append.mp ordered).1
  have timer : (run (step host) start past).slBreachTime ≤ first.now := by
    rcases timed.timer with unset | set
    · rw [unset]
      exact begun.le
    · exact (List.pairwise_append.mp ordered).2.2 _ set _ (by simp)
  generalize run (step host) start past = s at trading breached timer ⊢
  obtain ⟨sees, later⟩ := breached
  rw [SendsExit, journal_cons, exits_append]
  rcases check_step live accepts s first price check trading (sees price check trading)
    with sent | ⟨_, open_, started⟩
  · exact List.append_ne_nil_of_left_ne_nil sent _
  · refine List.append_ne_nil_of_right_ne_nil _ ?_
    have running : (step host s first).slBreachTime ≠ 0 := by
      rw [started]
      split
      · exact begun.ne'
      next set => exact set
    have early : (step host s first).slBreachTime ≤ first.now := by
      rw [started]
      split
      · exact le_refl _
      · exact timer
    generalize step host s first = t at open_ running early later ⊢
    rw [along_append] at later
    rw [journal_append, exits_append]
    rcases run_waits live accepts t middle open_ running
      (fun call inside => silent call (by simp [inside])) later.1 with sent | ⟨open_, kept⟩
    · exact List.append_ne_nil_of_left_ne_nil sent _
    · refine List.append_ne_nil_of_right_ne_nil _ ?_
      rw [journal_cons, exits_append]
      refine List.append_ne_nil_of_left_ne_nil ?_ _
      rcases check_step live accepts _ last lastPrice lastCheck open_
        (later.2.1 lastPrice lastCheck open_) with sent | ⟨waiting, _⟩
      · exact sent
      · refine absurd (Or.inr (Or.inr ⟨kept.trans_ne running, ?_⟩)) waiting
        rw [kept, tdiv_ge_iff (by omega)]
        omega

include initial ordered in
/-- A check that is not breached clears the timer, so a timeout exit had none within the timeout. -/
theorem firesOverdueOnly : FiresOverdueOnly host start calls := by
  intro past call rest same checks timeout
  obtain ⟨price, check⟩ := Option.ne_none_iff_exists'.mp checks
  obtain ⟨request, sent, tag⟩ := timeout
  intro entry inside own recent
  have split : checkTimes calls = checkTimes (past ++ [call]) ++ checkTimes rest := by
    rw [← checkTimes_append, same, List.append_assoc]
    rfl
  have ordered : (checkTimes (past ++ [call])).Pairwise (· ≤ ·) := by
    rw [split] at ordered
    exact (List.pairwise_append.mp ordered).1
  have before : ∀ time ∈ checkTimes past, time ≤ call.now := by
    rw [checkTimes_append, checkTimes_check check, List.pairwise_append] at ordered
    exact fun time known => ordered.2.2 time known call.now (List.mem_singleton.mpr rfl)
  have timed := @run_timed host start past initial
    (List.pairwise_append.mp (checkTimes_append past [call] ▸ ordered)).1
  have fst := run_observe_fst (step host) (fun log s call _ => log ++ checkedBy s call)
    (start, []) past
  have log : checked host start (past ++ [call]) =
      checked host start past ++ checkedBy (run (step host) start past) call := by
    rw [checked, run_append, run_cons, run_nil, observe, fst]
    rfl
  rw [log] at inside
  generalize run (step host) start past = s at timed inside own sent
  obtain ⟨trading, breached, running, late⟩ :=
    timeout_step live accepts s call price request check sent tag
  rcases List.mem_append.mp inside with earlier | now
  · refine timed.breached running entry earlier own ?_
    have set := before _ (timed.timer.resolve_left running)
    rw [tdiv_ge_iff (by omega)] at late
    omega
  · rw [checkedBy, check] at now
    dsimp only at now
    rw [if_pos trading] at now
    rw [List.mem_singleton.mp now]
    exact breached

end Windows

/-- In every run with orders accepted and checks in the order of their times, counted from
the first breached check, the software stop fires in its window: by each later check at the
timeout, at once without an exchange stop or after a replacement, and for the timeout only
when the stop was breached all along. -/
theorem software_stop_window (host : Host) (live : host.Live)
    (accepts : ∀ basket, host.accepts basket = true) (risk : RiskManager) (seq : Nat)
    (calls : List Call) (positive : ∀ time ∈ checkTimes calls, 0 < time)
    (ordered : (checkTimes calls).Pairwise (· ≤ ·)) :
    FiresInWindow host (fresh risk seq) calls ∧ FiresWithoutStop host (fresh risk seq) calls ∧
      FiresAfterReplacing host (fresh risk seq) calls ∧
        FiresOverdueOnly host (fresh risk seq) calls := by
  refine ⟨?_, ?_, ?_, ?_⟩
  · exact firesInWindow live accepts rfl ordered positive
  · exact firesWithoutStop live accepts
  · exact firesAfterReplacing live accepts
  · exact firesOverdueOnly live accepts rfl ordered

/-- A long position below its stop for the timeout is sold by the check at its end. -/
theorem software_stop_window_of_long :
    SendsExit .accepting
      (run (step .accepting) (fresh {} 0)
        [⟨1, .signal .buy 100 0⟩, ⟨2, .fill "MNQ-0-0" 100 1 true⟩])
      [⟨3, .checkTrail 80⟩, ⟨3000000003, .checkTrail 80⟩] := by
  have window := (software_stop_window .accepting Host.accepting_live (fun _ => rfl) {} 0
    [⟨1, .signal .buy 100 0⟩, ⟨2, .fill "MNQ-0-0" 100 1 true⟩, ⟨3, .checkTrail 80⟩,
      ⟨3000000003, .checkTrail 80⟩] (by decide) (by decide)).1
  have breached : Along (step .accepting) (fun s _ => s.slBreached 80 = true)
      (run (step .accepting) (fresh {} 0)
        [⟨1, .signal .buy 100 0⟩, ⟨2, .fill "MNQ-0-0" 100 1 true⟩])
      [⟨3, .checkTrail 80⟩, ⟨3000000003, .checkTrail 80⟩] := by decide +kernel
  refine window [⟨1, .signal .buy 100 0⟩, ⟨2, .fill "MNQ-0-0" 100 1 true⟩] ⟨3, .checkTrail 80⟩ []
    ⟨3000000003, .checkTrail 80⟩ [] rfl (by decide +kernel) (by decide) (by decide) (by decide)
    ⟨?_, ?_, trivial⟩ (by decide)
  · intro price check _
    rw [← Option.some.inj check]
    exact breached.1
  · intro price check _
    rw [← Option.some.inj check]
    exact breached.2.1

/-- The first breached check sends nothing: not with a timeout of zero, and not when it
comes later than the timeout after the position was opened. -/
theorem first_breached_check_waits :
    (∃ host : Host, host.cfg.slFireTimeoutMs = 0 ∧
      (run (step host) (fresh {} 0)
        [⟨1, .signal .buy 100 0⟩, ⟨2, .fill "MNQ-0-0" 100 1 true⟩]).slBreached 80 = true ∧
      exits (journal (step host) (fresh {} 0) [⟨1, .signal .buy 100 0⟩,
        ⟨2, .fill "MNQ-0-0" 100 1 true⟩, ⟨3, .checkTrail 80⟩]).2 = []) ∧
    (run (step .accepting) (fresh {} 0)
      [⟨1, .signal .buy 100 0⟩, ⟨2, .fill "MNQ-0-0" 100 1 true⟩]).slBreached 80 = true ∧
    exits (journal (step .accepting) (fresh {} 0) [⟨1, .signal .buy 100 0⟩,
      ⟨2, .fill "MNQ-0-0" 100 1 true⟩, ⟨9000000000, .checkTrail 80⟩]).2 = [] := by
  refine ⟨⟨{ Host.accepting with cfg := { slFireTimeoutMs := 0 } }, rfl, ?_, ?_⟩, ?_, ?_⟩
  · decide +kernel
  · decide +kernel
  · decide +kernel
  · decide +kernel

end OrderManager

end RithmicEngine
