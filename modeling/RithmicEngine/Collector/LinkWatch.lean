import Mathlib.Data.Rat.Floor
import RithmicEngine.Base.Runs
import RithmicEngine.Collector.Framing
/-!
# The two loops of a collector's connection

While the collector is connected, one coroutine reads frames and another wakes every five
seconds: it writes a heartbeat when the server asked for one or its own is due, and closes a
connection on which nothing has arrived for too long. They share the flags of the client, take
turns at their suspension points, and whoever returns first has the other one cancelled. Both
loops start at one instant. What the frames carry besides a template id goes to the collector's
buffers, and exceptions of its callbacks are left out, as is the rounding of `0.9`.
-/
namespace RithmicEngine

/-- The text of a failed operation of the socket, never empty. -/
structure SocketError where
  text : String
  nonempty : text ≠ ""
  deriving DecidableEq

/-- Where `link_watchdog` is: in its timer, in the write of a heartbeat it began, or gone. -/
inductive WatchPhase
  | sleeping
  | writing (begun : Int)
  | returned
  deriving DecidableEq

/-- What the loops share, and where each of them is. Clock readings are in nanoseconds. -/
structure Link where
  running : Bool := true
  reading : Bool := true
  watch : WatchPhase := .sleeping
  lastRxMonoS : Int
  lastHb : Int
  hbResponsePending : Bool := false
  silenceKilled : Bool := false
  linkError : String := ""

/-- What happens next: a frame is read, a read fails, the watchdog's timer ends (with the two
clock readings of the pass), a heartbeat has been written, an operation is cancelled because
the other loop returned, or `stop()` is called. -/
inductive LinkEvent
  | frame (now : Int) (wire : List UInt8)
  | readError (error : SocketError)
  | wake (now checked : Int)
  | written (checked : Int) (failure : Option SocketError)
  | readCancelled
  | timerCancelled
  | stop
  deriving DecidableEq

def monoNowS (now : Int) : Int := now / 1000000000

namespace Link

def limitS (heartbeatInterval : ℚ) : Int := max 30 ⌊heartbeatInterval * (5 / 2)⌋

/-- Whether the heartbeat's own time has come. -/
def hbDue (heartbeatInterval : ℚ) (s : Link) (now : Int) : Bool :=
  decide (heartbeatInterval * (9 / 10) ≤ ((now - s.lastHb : Int) : ℚ) / 1000000000)

section Loops

-- The negotiated interval, and the template id of a payload whose header can be parsed.
variable (heartbeatInterval : ℚ) (templateId : List UInt8 → Option Int)

/-- `receive_loop` after a completed read. -/
def receive (s : Link) (now : Int) (wire : List UInt8) : Link :=
  let s := { s with lastRxMonoS := monoNowS now }
  match stripHeader wire with
  | .error text => { s with linkError := "frame dispatch: " ++ text, reading := false }
  | .ok payload =>
    { s with
      hbResponsePending := s.hbResponsePending || templateId payload == some 18
      reading := s.running }

/-- The end of a pass of `link_watchdog`. -/
def checkSilence (s : Link) (checked : Int) : Link :=
  if monoNowS checked - s.lastRxMonoS > limitS heartbeatInterval then
    { s with silenceKilled := true, watch := .returned }
  else { s with watch := if s.running then .sleeping else .returned }

/-- A pass of `link_watchdog` up to its write, or to its end where nothing is written. -/
def wake (s : Link) (now checked : Int) : Link :=
  if s.hbResponsePending || hbDue heartbeatInterval s now then
    { s with hbResponsePending := false, watch := .writing now }
  else checkSilence heartbeatInterval s checked

/-- The pass after its write. -/
def written (s : Link) (begun checked : Int) : Option SocketError → Link
  | some error =>
    { s with linkError := "heartbeat write: " ++ error.text, watch := .returned }
  | none => checkSilence heartbeatInterval { s with lastHb := begun } checked

def step (s : Link) : LinkEvent → Link
  | .frame now wire => if s.reading then receive templateId s now wire else s
  | .readError error =>
    if s.reading then { s with linkError := error.text, reading := false } else s
  | .readCancelled => if s.watch = .returned then { s with reading := false } else s
  | .wake now checked =>
    match s.watch with
    | .sleeping => wake heartbeatInterval s now checked
    | _ => s
  | .written checked failure =>
    match s.watch with
    | .writing begun => written heartbeatInterval s begun checked failure
    | _ => s
  | .timerCancelled =>
    if s.reading = false ∧ s.watch = .sleeping then { s with watch := .returned } else s
  | .stop => { s with running := false }

end Loops

/-- The loops at their start, with a server request that an earlier session may have left. -/
def start (now : Int) (hbResponsePending : Bool) : Link where
  lastRxMonoS := monoNowS now
  lastHb := now
  hbResponsePending

/-- Both loops have returned, and `run` goes on. -/
def joined (s : Link) : Bool := !s.reading && decide (s.watch = .returned)

/-- What `run` throws then. -/
def thrown (s : Link) : Option String :=
  if s.linkError ≠ "" then some s.linkError
  else if s.silenceKilled then some "no inbound data — connection dead"
  else none

section Loops

variable {heartbeatInterval : ℚ} {templateId : List UInt8 → Option Int}

/-! ## Why the loops return -/

/-- A reason for the end of the session is on record. -/
def Explained (s : Link) : Prop := s.linkError ≠ "" ∨ s.silenceKilled = true ∨ s.running = false

/-- A loop that has returned left a reason. -/
def Attributed (s : Link) : Prop := s.reading = false ∨ s.watch = .returned → s.Explained

theorem labelled_nonempty (label text : String) (named : label ≠ "") : label ++ text ≠ "" := by
  intro empty
  exact named (String.append_eq_empty_iff.mp empty).1

/-- A reason stays on record, a loop that returns leaves one or follows the other, and only
`stop()` stops the client. -/
theorem step_explains (s : Link) (event : LinkEvent) :
    (s.Explained → (step heartbeatInterval templateId s event).Explained) ∧
      ((step heartbeatInterval templateId s event).reading = false ∨
          (step heartbeatInterval templateId s event).watch = .returned →
        (step heartbeatInterval templateId s event).Explained ∨
          s.reading = false ∨ s.watch = .returned) ∧
      (event ≠ .stop → (step heartbeatInterval templateId s event).running = s.running) := by
  have named := labelled_nonempty
  unfold Explained
  cases event with
  | frame now wire =>
    dsimp only [step, receive]
    split_ifs
    · split
      · simp [named]
      · refine ⟨id, ?_, fun _ => rfl⟩
        rintro (stopped | returned)
        · exact .inl (.inr (.inr stopped))
        · exact .inr (.inr returned)
    · exact ⟨id, .inr, fun _ => rfl⟩
  | readError error =>
    have nonempty := error.nonempty
    dsimp only [step]
    split_ifs <;> simp_all
  | wake now checked =>
    dsimp only [step, wake, checkSilence]
    split
    · split_ifs <;> simp_all
    · exact ⟨id, .inr, fun _ => rfl⟩
  | written checked failure =>
    dsimp only [step]
    split
    · cases failure with
      | none =>
        dsimp only [written, checkSilence]
        split_ifs <;> simp_all
      | some error => simp [written, named]
    · exact ⟨id, .inr, fun _ => rfl⟩
  | readCancelled =>
    dsimp only [step]
    split_ifs <;> simp_all
  | timerCancelled =>
    dsimp only [step]
    split_ifs <;> simp_all
  | stop => simp [step]

theorem Attributed.step {s : Link} (attributed : s.Attributed) (event : LinkEvent) :
    (step heartbeatInterval templateId s event).Attributed := by
  obtain ⟨kept, left, _⟩ := @step_explains heartbeatInterval templateId s event
  intro gone
  rcases left gone with explained | earlier
  · exact explained
  · exact kept (attributed earlier)

/-- Without a stop the watch runs on. -/
theorem run_running (now : Int) (pending : Bool) {events : List LinkEvent}
    (goes : ∀ event ∈ events, event ≠ .stop) :
    (Runs.run (step heartbeatInterval templateId) (start now pending) events).running = true := by
  have along := Runs.along_and_of_mem (step heartbeatInterval templateId) (start now pending)
    events (Runs.along_of_forall _ (fun _ _ => trivial) _ events) goes
  exact Runs.run_invariant _ (fun s => s.running = true) _
    (fun s event runs more => ((step_explains s event).2.2 more.2).trans runs) _ events rfl along

/-- A session that ends without an exception was stopped. -/
theorem stopped_of_quiet_end (now : Int) (pending : Bool) (events : List LinkEvent)
    (ended : (Runs.run (step heartbeatInterval templateId) (start now pending) events).joined)
    (quiet : (Runs.run (step heartbeatInterval templateId) (start now pending) events).thrown =
      none) :
    (Runs.run (step heartbeatInterval templateId) (start now pending) events).running = false := by
  have attributed : (Runs.run (step heartbeatInterval templateId) (start now pending)
      events).Attributed := by
    refine Runs.run_invariant _ Attributed (fun _ _ => True)
      (fun s event kept _ => kept.step event) _ events ?_
      (Runs.along_of_forall _ (fun _ _ => trivial) _ events)
    rintro (ended | returned)
    · exact absurd ended.symm Bool.noConfusion
    · exact absurd returned WatchPhase.noConfusion
  generalize Runs.run (step heartbeatInterval templateId) (start now pending) events = s at *
  unfold thrown at quiet
  split_ifs at quiet with failed killed
  have returned : s.reading = false := by simpa using (Bool.and_eq_true_iff.mp ended).1
  rcases attributed (.inl returned) with error | silence | stopped
  · exact absurd error failed
  · exact absurd silence killed
  · exact stopped

end Loops

end Link
end RithmicEngine
