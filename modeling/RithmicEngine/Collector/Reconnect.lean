import Mathlib.Data.List.Induction
import RithmicEngine.Base.Throttle
import RithmicEngine.Collector.LinkWatch
/-!
# The collector's connect loop

A pass of `run` probes the system info, connects, logs in, subscribes and hands over to the two
loops of the connection. However it ends, the next pass waits: a fixed time after a transient
refusal of the login, and a time that doubles with each further failure otherwise, unless the
session had been up for a minute. Any other refusal of the login ends the client.
-/
namespace RithmicEngine

/-- How a pass ends: the login is refused, another exception comes before the loops (with the
instant of the login where it had succeeded), or the loops run and the clean shutdown after them
succeeds or not. -/
inductive ConnectPass
  | refused (code : String)
  | failed (connectedAt : Option Int)
  | session (connectedAt : Int) (loops : List LinkEvent) (cleanup : Option SocketError)

/-- The variables of `run`, the instant before which its timer does not end, and the instants at
which passes began. -/
structure ConnectLoop where
  running : Bool := true
  attempt : Nat := 0
  returned : Bool := false
  hbResponsePending : Bool := false
  readyAt : Option Int := none
  connects : List Int := []

/-- A pass between two instants, with whether `stop()` was called meanwhile outside the loops, or a
call of `stop()` between passes. -/
inductive ConnectInput
  | pass (begun ended : Int) (stopped : Bool) (pass : ConnectPass)
  | stop

namespace ConnectLoop

def healthy (connectedAt : Option Int) (now : Int) : Bool :=
  match connectedAt with
  | some since => decide (60000000000 ≤ now - since)
  | none => false

/-- The wait after a failure, in seconds. -/
def delayS (attempt : Nat) : Nat := min (30 * 2 ^ min attempt 4) 300

/-- The timer after an error, which only a running client sets. -/
def wait (s : ConnectLoop) (now : Int) (delay : Nat) : ConnectLoop :=
  if s.running then { s with readyAt := some (now + delay * 1000000000) } else s

/-- The handler of any other exception. -/
def fail (s : ConnectLoop) (connectedAt : Option Int) (now : Int) : ConnectLoop :=
  if s.running then
    let attempt := if healthy connectedAt now then 0 else s.attempt
    wait { s with attempt := attempt + 1 } now (delayS attempt)
  else { s with returned := true }

section Passes

variable (heartbeatInterval : ℚ) (templateId : List UInt8 → Option Int)

/-- One pass of the loop up to the next one's start. -/
def connectPass (s : ConnectLoop) (begun ended : Int) (stopped : Bool) : ConnectPass → ConnectLoop
  | .refused code =>
    let s := { s with running := !stopped }
    if code ≠ "13" then { s with returned := true } else wait s ended 300
  | .failed connectedAt => fail { s with running := !stopped } connectedAt ended
  | .session connectedAt loops cleanup =>
    let link := Runs.run (Link.step heartbeatInterval templateId)
      (Link.start begun s.hbResponsePending) loops
    let s :=
      { s with
        running := link.running && !stopped
        hbResponsePending := link.hbResponsePending }
    if link.thrown.isSome || cleanup.isSome then fail s (some connectedAt) ended
    else { s with attempt := 0 }

def step (s : ConnectLoop) : ConnectInput → ConnectLoop
  | .pass begun ended stopped pass =>
    if s.returned then s
    else if s.running then
      connectPass heartbeatInterval templateId { s with connects := s.connects ++ [begun] }
        begun ended stopped pass
    else { s with returned := true }
  | .stop => { s with running := false }

end Passes

/-! ## What goes into a run -/

/-- Whether a pass failed, and after a session that had been up for a minute. -/
def failure : ConnectInput → Option Bool
  | .pass _ ended _ (.failed connectedAt) => some (healthy connectedAt ended)
  | .pass _ ended _ (.session connectedAt _ _) => some (healthy (some connectedAt) ended)
  | .pass _ _ _ (.refused _) => none
  | .stop => none

/-- How many failures there were from the last healthy session's on, or at all. -/
def sinceHealthy (inputs : List ConnectInput) : Nat :=
  ((inputs.filterMap failure).reverse.takeWhile fun healthy => !healthy).length +
    if true ∈ inputs.filterMap failure then 1 else 0

/-- The wait after a pass with such a history before it, in seconds. -/
def pauseS (history : List ConnectInput) (input : ConnectInput) : Nat :=
  match failure input with
  | none => 300
  | some true => 30
  | some false => delayS (sinceHealthy history)

/-- The instants at which the passes of a history begin. -/
def begins (inputs : List ConnectInput) : List Int :=
  inputs.filterMap fun
    | .pass begun _ _ _ => some begun
    | .stop => none

section Passes

variable (heartbeatInterval : ℚ) (templateId : List UInt8 → Option Int)

/-- A pass begins when the timer has ended, and goes on until both loops have returned. -/
def Proper (s : ConnectLoop) : ConnectInput → Prop
  | .stop => True
  | .pass begun ended _ pass =>
    (∀ ready ∈ s.readyAt, ready ≤ begun) ∧ begun ≤ ended ∧
      match pass with
      | .session _ loops _ =>
        (Runs.run (Link.step heartbeatInterval templateId)
          (Link.start begun s.hbResponsePending) loops).joined = true
      | _ => True

instance decidableProper (s : ConnectLoop) :
    ∀ input, Decidable (Proper heartbeatInterval templateId s input)
  | .stop => isTrue trivial
  | .pass _ _ _ (.refused _) => inferInstanceAs (Decidable (_ ∧ _ ∧ True))
  | .pass _ _ _ (.failed _) => inferInstanceAs (Decidable (_ ∧ _ ∧ True))
  | .pass _ _ _ (.session _ _ _) => inferInstanceAs (Decidable (_ ∧ _ ∧ _ = true))

end Passes

/-- Nobody stops the client, and its login is refused transiently at most. -/
def Ongoing : ConnectInput → Prop
  | .stop => False
  | .pass _ _ stopped pass =>
    stopped = false ∧
      match pass with
      | .refused code => code = "13"
      | .failed _ => True
      | .session _ loops _ => ∀ event ∈ loops, event ≠ .stop

instance decidableOngoing : ∀ input, Decidable (Ongoing input)
  | .stop => isFalse id
  | .pass _ _ _ (.refused _) => inferInstanceAs (Decidable (_ ∧ _ = "13"))
  | .pass _ _ _ (.failed _) => inferInstanceAs (Decidable (_ ∧ True))
  | .pass _ _ _ (.session _ loops _) =>
    inferInstanceAs (Decidable (_ ∧ ∀ event ∈ loops, event ≠ .stop))

/-- A login that comes too soon, a probe that fails, and a session that the server ends. -/
def badMorning : List ConnectInput :=
  [.pass 0 2000000000 false (.refused "13"), .pass 302000000000 303000000000 false (.failed none),
    .pass 333000000000 500000000000 false
      (.session 334000000000 [.readError ⟨"End of file", by decide⟩, .timerCancelled] none)]

section Passes

variable {heartbeatInterval : ℚ} {templateId : List UInt8 → Option Int}

theorem badMorning_proper :
    Runs.Along (step 60 fun _ => none) (Proper 60 fun _ => none) {} badMorning := by
  decide +kernel

/-! ## The pauses between passes -/

theorem delayS_ge (attempt : Nat) : 30 ≤ delayS attempt := by
  have doubled : 1 ≤ 2 ^ min attempt 4 := Nat.one_le_two_pow
  exact le_min (by omega) (by decide)

/-- Passes begin half a minute apart, and the next one waits for half a minute too. -/
structure Rationed (s : ConnectLoop) : Prop where
  spaced : Throttle.Spaced 30000000000 s.connects
  waits : s.returned = false → s.running = true →
    ∀ begun ∈ s.connects, ∃ ready ∈ s.readyAt, begun + 30000000000 ≤ ready

variable {s : ConnectLoop}

/-- A wait of half a minute keeps the connects rationed. -/
theorem wait_rationed {now : Int} {delay : Nat} (long : 30 ≤ delay)
    (spaced : Throttle.Spaced 30000000000 s.connects) (past : ∀ begun ∈ s.connects, begun ≤ now) :
    (wait s now delay).Rationed := by
  unfold wait
  split_ifs with running
  · refine ⟨spaced, fun _ _ begun inside => ⟨_, rfl, ?_⟩⟩
    have before := past begun inside
    omega
  · exact ⟨spaced, fun _ runs => absurd runs running⟩

theorem fail_rationed {connectedAt : Option Int} {now : Int}
    (spaced : Throttle.Spaced 30000000000 s.connects) (past : ∀ begun ∈ s.connects, begun ≤ now) :
    (fail s connectedAt now).Rationed := by
  unfold fail
  split
  · exact wait_rationed (delayS_ge _) spaced past
  · exact ⟨spaced, fun goes => absurd goes.symm Bool.noConfusion⟩

/-- One pass of the loop keeps its connects thirty seconds apart. By how the pass ends. -/
theorem connectPass_rationed {begun ended : Int} {stopped : Bool} {pass : ConnectPass}
    (spaced : Throttle.Spaced 30000000000 s.connects)
    (past : ∀ earlier ∈ s.connects, earlier ≤ ended)
    (complete : match pass with
      | .session _ loops _ =>
        (Runs.run (Link.step heartbeatInterval templateId)
          (Link.start begun s.hbResponsePending) loops).joined = true
      | _ => True) :
    (connectPass heartbeatInterval templateId s begun ended stopped pass).Rationed := by
  cases pass with
  | refused code =>
    unfold connectPass
    dsimp only
    split_ifs
    · exact ⟨spaced, fun goes => absurd goes.symm Bool.noConfusion⟩
    · exact wait_rationed (by decide) spaced past
  | failed connectedAt => exact fail_rationed spaced past
  | session connectedAt loops cleanup =>
    unfold connectPass
    dsimp only
    split_ifs with thrown
    · exact fail_rationed spaced past
    · -- a session that throws nothing was stopped, so no further pass begins
      have quiet := Option.not_isSome_iff_eq_none.mp fun some => thrown (by rw [some, Bool.true_or])
      have stopped := Link.stopped_of_quiet_end begun s.hbResponsePending loops complete quiet
      refine ⟨spaced, fun _ runs => ?_⟩
      rw [stopped, Bool.false_and] at runs
      exact absurd runs Bool.noConfusion

/-- Every input of the loop keeps the connects rationed. -/
theorem Rationed.step {s : ConnectLoop} (rationed : s.Rationed) {input : ConnectInput}
    (proper : Proper heartbeatInterval templateId s input) :
    (step heartbeatInterval templateId s input).Rationed := by
  cases input with
  | stop => exact ⟨rationed.spaced, fun _ runs => absurd runs.symm Bool.noConfusion⟩
  | pass begun ended stopped pass =>
    obtain ⟨ready, ordered, complete⟩ := proper
    unfold ConnectLoop.step
    dsimp only
    split_ifs with returned running
    · exact rationed
    · have after : ∀ earlier ∈ s.connects, earlier + 30000000000 ≤ begun := by
        intro earlier inside
        obtain ⟨instant, set, later⟩ :=
          rationed.waits (Bool.eq_false_iff.mpr returned) running earlier inside
        exact later.trans (ready instant set)
      refine connectPass_rationed (rationed.spaced.concat after) ?_ complete
      intro earlier inside
      rcases List.mem_append.mp inside with old | new
      · have gap := after earlier old
        omega
      · rw [List.mem_singleton.mp new]
        exact ordered
    · exact ⟨rationed.spaced, fun goes => absurd goes.symm Bool.noConfusion⟩

/-- However passes and sessions end, at most so many passes begin in so many half minutes. -/
theorem connects_rationed (inputs : List ConnectInput)
    (proper : Runs.Along (step heartbeatInterval templateId) (Proper heartbeatInterval templateId)
      {} inputs) (start : Int) (n : Nat) :
    ((Runs.run (step heartbeatInterval templateId) {} inputs).connects.filter
      fun begun => start ≤ begun ∧ begun < start + n * 30000000000).length ≤ n := by
  have rationed := Runs.run_invariant _ Rationed _ (fun s input kept here => kept.step here) {}
    inputs ⟨Throttle.spaced_nil, fun _ _ begun none => absurd none List.not_mem_nil⟩ proper
  exact rationed.spaced.window_le start n

theorem connects_rationed_badMorning :
    ((Runs.run (step 60 fun _ => none) {} badMorning).connects.filter
      fun begun => (302000000000 : Int) ≤ begun ∧
        begun < 302000000000 + (2 : Nat) * 30000000000).length ≤ 2 :=
  connects_rationed badMorning badMorning_proper 302000000000 2

/-! ## A client that nobody stops -/

/-- The failures since the last healthy session, with one more attempt. -/
theorem sinceHealthy_concat (history : List ConnectInput) (input : ConnectInput) :
    sinceHealthy (history ++ [input]) =
      match failure input with
      | none => sinceHealthy history
      | some true => 1
      | some false => sinceHealthy history + 1 := by
  unfold sinceHealthy
  rw [List.filterMap_append, List.filterMap_cons, List.filterMap_nil]
  cases failure input with
  | none => simp
  | some healthy =>
    cases healthy with
    | true => simp
    | false => simp [Nat.add_right_comm]

/-- What a pass does to a client that goes on. -/
theorem step_ongoing {begun ended : Int} {stopped : Bool} {pass : ConnectPass}
    (history : List ConnectInput) (running : s.running = true) (goes : s.returned = false)
    (counted : s.attempt = sinceHealthy history)
    (proper : Proper heartbeatInterval templateId s (.pass begun ended stopped pass))
    (ongoing : Ongoing (.pass begun ended stopped pass)) :
    ∃ pending : Bool, step heartbeatInterval templateId s (.pass begun ended stopped pass) =
      { running := true
        attempt := sinceHealthy (history ++ [.pass begun ended stopped pass])
        returned := false
        hbResponsePending := pending
        readyAt := some (ended + pauseS history (.pass begun ended stopped pass) * 1000000000)
        connects := s.connects ++ [begun] } := by
  obtain ⟨_, _, complete⟩ := proper
  obtain ⟨rfl, admitted⟩ := ongoing
  obtain ⟨_, attempt, _, pending, ready, connects⟩ := s
  obtain rfl : _ = true := running
  obtain rfl : _ = false := goes
  obtain rfl : attempt = sinceHealthy history := counted
  rw [sinceHealthy_concat]
  unfold pauseS
  cases pass with
  | refused code =>
    obtain rfl : code = "13" := admitted
    exact ⟨pending, rfl⟩
  | failed connectedAt =>
    refine ⟨pending, ?_⟩
    simp only [step, Bool.false_eq_true, if_false, if_true, connectPass, Bool.not_false, fail, wait,
      failure]
    cases healthy connectedAt ended with
    | true => rfl
    | false => rfl
  | session connectedAt loops cleanup =>
    have runs := @Link.run_running heartbeatInterval templateId begun pending _ admitted
    -- both loops have returned and nobody stopped the client, so the session threw
    have threw : (Runs.run (Link.step heartbeatInterval templateId) (Link.start begun pending)
        loops).thrown.isSome = true := by
      by_contra quiet
      have stopped := Link.stopped_of_quiet_end begun pending loops complete
        (Option.not_isSome_iff_eq_none.mp quiet)
      exact absurd (runs.symm.trans stopped) Bool.noConfusion
    refine ⟨(Runs.run (Link.step heartbeatInterval templateId) (Link.start begun pending)
      loops).hbResponsePending, ?_⟩
    simp only [step, Bool.false_eq_true, if_false, if_true, connectPass, Bool.not_false, threw,
      runs, Bool.and_self, Bool.true_or, fail, wait, failure]
    cases healthy (some connectedAt) ended with
    | true => rfl
    | false => rfl

/-- A client that nobody stops and whose login is refused transiently at most never gives up, and
counts its failures since the last healthy session. -/
theorem ongoing_run (inputs : List ConnectInput)
    (proper : Runs.Along (step heartbeatInterval templateId) (Proper heartbeatInterval templateId)
      {} inputs) (ongoing : ∀ input ∈ inputs, Ongoing input) :
    let s := Runs.run (step heartbeatInterval templateId) {} inputs
    s.running = true ∧ s.returned = false ∧ s.attempt = sinceHealthy inputs ∧
      s.connects = begins inputs := by
  induction inputs using List.reverseRecOn with
  | nil => exact ⟨rfl, rfl, rfl, rfl⟩
  | append_singleton history input ih =>
    obtain ⟨before, last⟩ := (Runs.along_append _ _ _ _ _).mp proper
    obtain ⟨running, goes, counted, connects⟩ := ih before fun earlier inside =>
      ongoing earlier (List.mem_append_left _ inside)
    have goes_on := ongoing input (List.mem_append_right _ List.mem_cons_self)
    cases input with
    | stop => exact absurd goes_on id
    | pass begun ended stopped pass =>
      obtain ⟨pending, taken⟩ := step_ongoing history running goes counted last.1 goes_on
      dsimp only
      rw [Runs.run_append, Runs.run_cons, Runs.run_nil, taken, connects]
      refine ⟨rfl, rfl, rfl, ?_⟩
      unfold begins
      rw [List.filterMap_append]
      rfl

/-- Each pass of a client that nobody stops really begins, and the one after it waits for five
minutes after a refusal, for half a minute after a healthy session, and otherwise for a time that
doubles with each failure since then. -/
theorem connects_retried (history : List ConnectInput) (begun ended : Int) (stopped : Bool)
    (pass : ConnectPass)
    (proper : Runs.Along (step heartbeatInterval templateId) (Proper heartbeatInterval templateId)
      {} (history ++ [.pass begun ended stopped pass]))
    (ongoing : ∀ input ∈ history ++ [.pass begun ended stopped pass], Ongoing input) :
    let s := Runs.run (step heartbeatInterval templateId) {}
      (history ++ [.pass begun ended stopped pass])
    s.running = true ∧ s.returned = false ∧
      s.connects = begins (history ++ [.pass begun ended stopped pass]) ∧
      s.readyAt =
        some (ended + pauseS history (.pass begun ended stopped pass) * 1000000000) := by
  obtain ⟨running', goes', _, connects'⟩ :=
    ongoing_run (history ++ [.pass begun ended stopped pass]) proper ongoing
  refine ⟨running', goes', connects', ?_⟩
  obtain ⟨before, last⟩ := (Runs.along_append _ _ _ _ _).mp proper
  obtain ⟨running, goes, counted, _⟩ := ongoing_run history before fun earlier inside =>
    ongoing earlier (List.mem_append_left _ inside)
  obtain ⟨pending, taken⟩ := step_ongoing history running goes counted last.1
    (ongoing _ (List.mem_append_right _ List.mem_cons_self))
  rw [Runs.run_append, Runs.run_cons, Runs.run_nil, taken]

/-- The waits of a bad morning. -/
theorem connects_retried_badMorning :
    let s := Runs.run (step 60 fun _ => none) {} badMorning
    s.running = true ∧ s.returned = false ∧ s.connects = begins badMorning ∧
      s.readyAt = some (500000000000 + (30 : Nat) * 1000000000) :=
  connects_retried (badMorning.take 2) 333000000000 500000000000 false
    (.session 334000000000 [.readError ⟨"End of file", by decide⟩, .timerCancelled] none)
    badMorning_proper (by decide +kernel)

end Passes

end ConnectLoop
end RithmicEngine
