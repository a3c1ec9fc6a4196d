import Mathlib.Tactic.Linarith
import RithmicEngine.Collector.LinkWatch
/-!
# How late the loops can be

The instants at which frames arrive and heartbeats begin are written down beside the loops of a
connection. Where the watchdog wakes in time, a connection that is still up has heard from the
server, has sent a heartbeat and has answered a request within bounds, and it is not given up
while the server acknowledges heartbeats.
-/
namespace RithmicEngine

/-- The latest clock reading, the watchdog's last wake, the last frame, the last heartbeat that
was begun, the request that waits for one, and the first heartbeat begun since the last frame. -/
structure LinkTimes where
  clock : Int
  lastWake : Int
  lastFrame : Int
  lastBegun : Int
  asked : Int
  owed : Option Int := none

namespace LinkTimes

def start (now : Int) : LinkTimes where
  clock := now
  lastWake := now
  lastFrame := now
  lastBegun := now
  asked := now

def note (g : LinkTimes) (s : Link) (event : LinkEvent) (next : Link) : LinkTimes :=
  match event with
  | .frame now _ =>
    if s.reading then
      { g with
        clock := now
        lastFrame := now
        owed := none
        asked := if s.hbResponsePending then g.asked else now }
    else g
  | .wake now checked =>
    match s.watch, next.watch with
    | .sleeping, .writing _ =>
      { g with clock := now, lastWake := now, lastBegun := now, owed := some (g.owed.getD now) }
    | .sleeping, _ => { g with clock := checked, lastWake := now }
    | _, _ => g
  | .written checked _ =>
    match s.watch with
    | .writing _ => { g with clock := checked }
    | _ => g
  | _ => g

end LinkTimes

namespace Link

def hbEveryNs (heartbeatInterval : ℚ) : ℚ := heartbeatInterval * (9 / 10) * 1000000000

section Loops

variable (heartbeatInterval : ℚ) (templateId : List UInt8 → Option Int)

/-- The loops with their instants. -/
def timed : Link × LinkTimes → LinkEvent → Link × LinkTimes :=
  Runs.observe (step heartbeatInterval templateId) LinkTimes.note

/-- The clock does not go back, and everything happens within `gap` after the last wake. -/
def InTime (gap : Int) (g : LinkTimes) : LinkEvent → Prop
  | .frame now _ => g.clock ≤ now ∧ now ≤ g.lastWake + gap
  | .wake now checked =>
    g.clock ≤ now ∧ now ≤ checked ∧ now ≤ g.lastWake + gap ∧ checked ≤ now + gap
  | .written checked _ => g.clock ≤ checked ∧ checked ≤ g.lastWake + gap
  | _ => True

/-- The server has something to say within `patience` after a heartbeat is begun. -/
def InPatience (patience : Int) (g : LinkTimes) : LinkEvent → Prop
  | .wake _ checked => ∀ begun ∈ g.owed, checked ≤ begun + patience
  | .written checked _ => ∀ begun ∈ g.owed, checked ≤ begun + patience
  | _ => True

instance decidableInTime (gap : Int) (g : LinkTimes) : ∀ event, Decidable (InTime gap g event)
  | .frame _ _ => inferInstanceAs (Decidable (_ ∧ _))
  | .wake _ _ => inferInstanceAs (Decidable (_ ∧ _ ∧ _ ∧ _))
  | .written _ _ => inferInstanceAs (Decidable (_ ∧ _))
  | .readError _ | .readCancelled | .timerCancelled | .stop => isTrue trivial

instance decidableInPatience (patience : Int) (g : LinkTimes) :
    ∀ event, Decidable (InPatience patience g event)
  | .wake _ checked =>
    inferInstanceAs (Decidable (∀ begun ∈ g.owed, checked ≤ begun + patience))
  | .written checked _ =>
    inferInstanceAs (Decidable (∀ begun ∈ g.owed, checked ≤ begun + patience))
  | .frame _ _ | .readError _ | .readCancelled | .timerCancelled | .stop => isTrue trivial

/-- The watchdog, while it is there, wakes in time. -/
abbrev Timely (gap : Int) (pair : Link × LinkTimes) (event : LinkEvent) : Prop :=
  pair.1.watch ≠ .returned → InTime gap pair.2 event

/-- The server, while the watchdog is there, acknowledges heartbeats. -/
abbrev Answered (patience : Int) (pair : Link × LinkTimes) (event : LinkEvent) : Prop :=
  pair.1.watch ≠ .returned → InPatience patience pair.2 event

/-- What the instants say about a connection whose watchdog is there. -/
structure Watched (gap : Int) (s : Link) (g : LinkTimes) : Prop where
  wake_le : g.lastWake ≤ g.clock
  clock_le : g.clock ≤ g.lastWake + gap
  frame_le : g.lastFrame ≤ g.clock
  begun_le : g.lastBegun ≤ g.lastWake
  received : s.lastRxMonoS = monoNowS g.lastFrame
  heard : g.lastWake < g.lastFrame + (limitS heartbeatInterval + 1) * 1000000000 +
    (if s.watch = .sleeping then 0 else gap)
  beaten : (g.lastWake : ℚ) < g.lastBegun + hbEveryNs heartbeatInterval
  last : s.watch = .sleeping → s.lastHb = g.lastBegun
  begun : ∀ begun, s.watch = .writing begun → begun = g.lastWake ∧ g.lastBegun = g.lastWake
  asked : s.hbResponsePending = true → g.lastWake ≤ g.asked
  acked : g.owed = none → g.lastBegun ≤ g.lastFrame
  owing : ∀ begun ∈ g.owed,
    (begun : ℚ) < g.lastFrame + hbEveryNs heartbeatInterval + gap

end Loops

section Loops

variable {heartbeatInterval : ℚ} {templateId : List UInt8 → Option Int} {gap : Int}

/-! ## What one step keeps -/

theorem receive_watch (s : Link) (now : Int) (wire : List UInt8) :
    (receive templateId s now wire).watch = s.watch ∧
      (receive templateId s now wire).lastHb = s.lastHb ∧
      (receive templateId s now wire).lastRxMonoS = monoNowS now := by
  unfold receive
  dsimp only
  split
  · exact ⟨rfl, rfl, rfl⟩
  · exact ⟨rfl, rfl, rfl⟩

variable {s : Link} {g : LinkTimes} {now checked : Int}

/-- A pass that does not end the watchdog found the connection alive. -/
theorem checkSilence_alive (alive : (checkSilence heartbeatInterval s checked).watch ≠ .returned) :
    checkSilence heartbeatInterval s checked = { s with watch := .sleeping } ∧
      monoNowS checked - s.lastRxMonoS ≤ limitS heartbeatInterval := by
  unfold checkSilence at *
  split_ifs at * with silent running
  · exact absurd rfl alive
  · exact ⟨rfl, not_lt.mp silent⟩
  · exact absurd rfl alive

/-- A frame within the gap keeps the instants of a watched connection in order. -/
theorem Watched.frame (watched : Watched heartbeatInterval gap s g) (now : Int) (wire : List UInt8)
    (reading : s.reading = true) (after : g.clock ≤ now) (soon : now ≤ g.lastWake + gap) :
    Watched heartbeatInterval gap (receive templateId s now wire)
      (g.note s (.frame now wire) (receive templateId s now wire)) := by
  obtain ⟨watch, lastHb, received⟩ := @receive_watch templateId s now wire
  have wake_le := watched.wake_le
  have frame_le := watched.frame_le
  have begun_le := watched.begun_le
  have noted : g.note s (.frame now wire) (receive templateId s now wire) =
      { g with
        clock := now
        lastFrame := now
        owed := none
        asked := if s.hbResponsePending then g.asked else now } := if_pos reading
  rw [noted]
  constructor
  · exact wake_le.trans after
  · exact soon
  · exact le_refl now
  · exact begun_le
  · exact received
  · have heard := watched.heard
    rw [watch]
    dsimp only
    omega
  · exact watched.beaten
  · intro sleeping
    rw [lastHb]
    exact watched.last (watch.symm.trans sleeping)
  · intro begun writing
    exact watched.begun begun (watch.symm.trans writing)
  · intro _
    dsimp only
    split_ifs with pending
    · exact watched.asked pending
    · exact wake_le.trans after
  · intro _
    exact (begun_le.trans wake_le).trans after
  · intro begun none
    exact absurd none (Option.not_mem_none begun)

/-- Less than a whole second over the limit. -/
theorem within_of_silence {frame limit : Int} (later : now ≤ checked)
    (silence : monoNowS checked - monoNowS frame ≤ limit) :
    now < frame + (limit + 1) * 1000000000 + 0 := by
  unfold monoNowS at silence
  omega

theorem hbEveryNs_pos (positive : 0 < heartbeatInterval) : 0 < hbEveryNs heartbeatInterval := by
  unfold hbEveryNs
  positivity

theorem not_hbDue (early : hbDue heartbeatInterval s now = false) :
    (now : ℚ) < s.lastHb + hbEveryNs heartbeatInterval := by
  have less := not_le.mp (of_decide_eq_false early)
  rw [div_lt_iff₀ (by norm_num)] at less
  push_cast at less
  unfold hbEveryNs
  linarith

/-- A wake at which a heartbeat begins. -/
theorem Watched.begin (positive : 0 < heartbeatInterval)
    (watched : Watched heartbeatInterval gap s g) (sleeping : s.watch = .sleeping)
    (after : g.clock ≤ now) (soon : now ≤ g.lastWake + gap) :
    Watched heartbeatInterval gap
      { s with hbResponsePending := false, watch := .writing now }
      { g with
        clock := now, lastWake := now, lastBegun := now, owed := some (g.owed.getD now) } := by
  have wake_le := watched.wake_le
  have clock_le := watched.clock_le
  have every := hbEveryNs_pos positive
  have beaten := watched.beaten
  have soon' : (now : ℚ) ≤ g.lastWake + gap := by exact_mod_cast soon
  constructor
  · exact le_refl now
  · dsimp only
    omega
  · exact watched.frame_le.trans after
  · exact le_refl now
  · exact watched.received
  · have heard := watched.heard
    rw [if_pos sleeping] at heard
    rw [if_neg (by rintro ⟨⟩)]
    dsimp only
    omega
  · exact lt_add_of_pos_right _ every
  · rintro ⟨⟩
  · rintro begun ⟨⟩
    exact ⟨rfl, rfl⟩
  · rintro ⟨⟩
  · rintro ⟨⟩
  · intro begun inside
    obtain rfl : begun = g.owed.getD now := (Option.mem_some.mp inside).symm
    cases owed : g.owed with
    | some first => exact watched.owing first owed
    | none =>
      have acked : (g.lastBegun : ℚ) ≤ g.lastFrame := by exact_mod_cast watched.acked owed
      rw [Option.getD_none]
      dsimp only
      linarith

/-- A wake at which nothing is written and the connection is found alive. -/
theorem Watched.rest (watched : Watched heartbeatInterval gap s g) (sleeping : s.watch = .sleeping)
    (after : g.clock ≤ now) (later : now ≤ checked) (within : checked ≤ now + gap)
    (pending : s.hbResponsePending = false) (early : hbDue heartbeatInterval s now = false)
    (silence : monoNowS checked - s.lastRxMonoS ≤ limitS heartbeatInterval) :
    Watched heartbeatInterval gap { s with watch := .sleeping }
      { g with clock := checked, lastWake := now } := by
  have wake_le := watched.wake_le
  constructor
  · exact later
  · exact within
  · exact (watched.frame_le.trans after).trans later
  · exact (watched.begun_le.trans wake_le).trans after
  · exact watched.received
  · rw [watched.received] at silence
    exact within_of_silence later silence
  · have beaten := not_hbDue early
    rw [watched.last sleeping] at beaten
    exact beaten
  · intro _
    exact watched.last sleeping
  · rintro begun ⟨⟩
  · intro waiting
    exact absurd (pending.symm.trans waiting) Bool.noConfusion
  · exact watched.acked
  · exact watched.owing

/-- The end of a pass after its heartbeat. -/
theorem Watched.wrote (watched : Watched heartbeatInterval gap s g) {begun : Int}
    (writing : s.watch = .writing begun) (after : g.clock ≤ checked)
    (soon : checked ≤ g.lastWake + gap)
    (silence : monoNowS checked - s.lastRxMonoS ≤ limitS heartbeatInterval) :
    Watched heartbeatInterval gap { s with lastHb := begun, watch := .sleeping }
      { g with clock := checked } := by
  obtain ⟨rfl, last⟩ := watched.begun begun writing
  have wake_le := watched.wake_le
  constructor
  · exact wake_le.trans after
  · exact soon
  · exact watched.frame_le.trans after
  · exact watched.begun_le
  · exact watched.received
  · rw [watched.received] at silence
    exact within_of_silence (wake_le.trans after) silence
  · exact watched.beaten
  · intro _
    exact last.symm
  · rintro begun ⟨⟩
  · exact watched.asked
  · exact watched.acked
  · exact watched.owing

/-- Each event in time keeps what is known, as long as the watchdog is there. -/
theorem Watched.timed (positive : 0 < heartbeatInterval) {event : LinkEvent}
    (watched : Watched heartbeatInterval gap s g) (inTime : InTime gap g event)
    (alive : (step heartbeatInterval templateId s event).watch ≠ .returned) :
    Watched heartbeatInterval gap (step heartbeatInterval templateId s event)
      (g.note s event (step heartbeatInterval templateId s event)) := by
  cases event with
  | frame now wire =>
    obtain ⟨after, soon⟩ := inTime
    by_cases reading : s.reading = true
    · simp only [step, if_pos reading]
      exact watched.frame now wire reading after soon
    · simp only [step, LinkTimes.note, if_neg reading]
      exact watched
  | readError error =>
    dsimp only [step, LinkTimes.note]
    split_ifs <;> exact { watched with }
  | wake now checked =>
    obtain ⟨after, later, soon, within⟩ := inTime
    cases phase : s.watch with
    | sleeping =>
      simp only [step, phase] at alive ⊢
      cases due : s.hbResponsePending || hbDue heartbeatInterval s now with
      | true =>
        simp only [wake, due, if_true, LinkTimes.note, phase]
        exact watched.begin positive phase after soon
      | false =>
        obtain ⟨pending, early⟩ := Bool.or_eq_false_iff.mp due
        simp only [wake, due, Bool.false_eq_true, if_false] at alive ⊢
        obtain ⟨rested, silence⟩ := checkSilence_alive alive
        rw [rested]
        simp only [LinkTimes.note, phase]
        exact watched.rest phase after later within pending early silence
    | writing begun =>
      simp only [step, LinkTimes.note, phase]
      exact watched
    | returned =>
      simp only [step, phase] at alive
      exact absurd rfl alive
  | written checked failure =>
    obtain ⟨after, soon⟩ := inTime
    cases phase : s.watch with
    | sleeping =>
      simp only [step, LinkTimes.note, phase]
      exact watched
    | writing begun =>
      simp only [step, phase] at alive ⊢
      cases failure with
      | some error => exact absurd rfl alive
      | none =>
        simp only [written] at alive ⊢
        obtain ⟨rested, silence⟩ := checkSilence_alive alive
        rw [rested]
        simp only [LinkTimes.note, phase]
        exact watched.wrote phase after soon silence
    | returned =>
      simp only [step, phase] at alive
      exact absurd rfl alive
  | readCancelled =>
    dsimp only [step, LinkTimes.note]
    split_ifs <;> exact { watched with }
  | timerCancelled =>
    dsimp only [step] at alive ⊢
    split_ifs at alive ⊢
    · exact absurd rfl alive
    · exact watched
  | stop => exact { watched with }

/-- A watchdog that has returned does not come back. -/
theorem returned_stays (gone : s.watch = .returned) (event : LinkEvent) :
    (step heartbeatInterval templateId s event).watch = .returned := by
  cases event with
  | frame now wire =>
    dsimp only [step]
    split_ifs
    · exact (receive_watch s now wire).1.trans gone
    · exact gone
  | wake now checked => simp only [step, gone]
  | written checked failure => simp only [step, gone]
  | stop => exact gone
  | _ =>
    dsimp only [step]
    split_ifs <;> simp_all

/-- A new connection starts with its instants in order. -/
theorem start_watched (positive : 0 < heartbeatInterval) (some : 0 ≤ gap) (now : Int)
    (pending : Bool) :
    Watched heartbeatInterval gap (start now pending) (LinkTimes.start now) := by
  have limit : 30 ≤ limitS heartbeatInterval := le_max_left _ _
  constructor
  · exact le_refl now
  · exact le_add_of_nonneg_right some
  · exact le_refl now
  · exact le_refl now
  · rfl
  · rw [if_pos (show (start now pending).watch = .sleeping from rfl)]
    dsimp only [LinkTimes.start]
    omega
  · exact lt_add_of_pos_right _ (hbEveryNs_pos positive)
  · intro _
    rfl
  · rintro begun ⟨⟩
  · intro _
    exact le_refl now
  · intro _
    exact le_refl now
  · intro begun none
    exact absurd none (Option.not_mem_none begun)

/-! ## Whole sessions -/

/-- At every moment of a session whose watchdog wakes at least every `gap` and is there: the
last frame is less than the limit, a second and two wakes old, the last heartbeat was begun less
than its interval and one wake ago, and a request waits for at most one wake. -/
theorem session_watched (positive : 0 < heartbeatInterval) (some : 0 ≤ gap) (now : Int)
    (pending : Bool) (events : List LinkEvent)
    (timely : Runs.Along (timed heartbeatInterval templateId) (Timely gap)
      (start now pending, LinkTimes.start now) events)
    (alive : (Runs.run (timed heartbeatInterval templateId)
      (start now pending, LinkTimes.start now) events).1.watch ≠ .returned) :
    let pair := Runs.run (timed heartbeatInterval templateId)
      (start now pending, LinkTimes.start now) events
    pair.2.clock < pair.2.lastFrame + (limitS heartbeatInterval + 1) * 1000000000 + 2 * gap ∧
      (pair.2.clock : ℚ) < pair.2.lastBegun + hbEveryNs heartbeatInterval + gap ∧
      (pair.1.hbResponsePending = true → pair.2.clock ≤ pair.2.asked + gap) := by
  have watched := Runs.run_invariant (timed heartbeatInterval templateId)
    (fun pair => pair.1.watch ≠ .returned → Watched heartbeatInterval gap pair.1 pair.2)
    (Timely gap)
    (by
      intro pair event kept inTime still
      have before : pair.1.watch ≠ .returned := fun gone => still (returned_stays gone event)
      exact (kept before).timed positive (inTime before) still)
    _ events (fun _ => start_watched positive some now pending) timely alive
  generalize Runs.run (timed heartbeatInterval templateId) _ events = pair at *
  have clock_le := watched.clock_le
  have late : (pair.2.clock : ℚ) ≤ pair.2.lastWake + gap := by exact_mod_cast clock_le
  refine ⟨?_, ?_, ?_⟩
  · have heard := watched.heard
    split_ifs at heard
    · omega
    · omega
  · have beaten := watched.beaten
    linarith
  · intro waiting
    have asked := watched.asked waiting
    omega

/-- A server request, and the acknowledgement of the heartbeat that answers it. -/
def requestedHeartbeat : List LinkEvent :=
  [.wake 5000000000 5000000000, .wake 10000000000 10000000000,
    .frame 12000000000 (frame [0x98, 0xB6, 0x4B, 0x12]), .wake 15000000000 15000000000,
    .written 15100000000 none, .frame 15200000000 (frame [0x98, 0xB6, 0x4B, 0x13]),
    .wake 20000000000 20000000000]

/-- The template ids of its frames. -/
def requestedIds (payload : List UInt8) : Option Int :=
  if payload = [0x98, 0xB6, 0x4B, 0x12] then some 18
  else if payload = [0x98, 0xB6, 0x4B, 0x13] then some 19
  else none

theorem requestedHeartbeat_along :
    Runs.Along (timed 60 requestedIds)
        (fun pair event => Timely 6000000000 pair event ∧ Answered 1000000000 pair event)
        (start 0 false, LinkTimes.start 0) requestedHeartbeat ∧
      (Runs.run (timed 60 requestedIds) (start 0 false, LinkTimes.start 0)
        requestedHeartbeat).1.watch ≠ .returned := by
  decide +kernel

/-- A session on which only requests are sent: the watchdog ends it in time. -/
theorem session_watched_request :
    let pair := Runs.run (timed 60 requestedIds) (start 0 false, LinkTimes.start 0)
      requestedHeartbeat
    pair.2.clock < pair.2.lastFrame + (limitS 60 + 1) * 1000000000 + 2 * 6000000000 ∧
      (pair.2.clock : ℚ) < pair.2.lastBegun + hbEveryNs 60 + (6000000000 : Int) ∧
      (pair.1.hbResponsePending = true → pair.2.clock ≤ pair.2.asked + 6000000000) :=
  session_watched (by norm_num) (by decide) 0 false requestedHeartbeat
    (Runs.along_of_invariant _ (fun _ => True) (fun _ _ _ both => both.1)
      (fun _ _ _ _ => trivial) _ _ trivial requestedHeartbeat_along.1)
    requestedHeartbeat_along.2

/-- A check at which the last frame is not older than the limit finds the connection alive. -/
theorem checkSilence_kept {frame : Int} (received : s.lastRxMonoS = monoNowS frame)
    (recent : (checked : ℚ) ≤ frame + limitS heartbeatInterval * 1000000000) :
    (checkSilence heartbeatInterval s checked).silenceKilled = s.silenceKilled := by
  have close : checked ≤ frame + limitS heartbeatInterval * 1000000000 := by exact_mod_cast recent
  have alive : ¬monoNowS checked - s.lastRxMonoS > limitS heartbeatInterval := by
    rw [received]
    unfold monoNowS
    omega
  rw [checkSilence, if_neg alive]

section Acknowledged

variable {patience : Int}
  (fits : hbEveryNs heartbeatInterval + gap + patience ≤ limitS heartbeatInterval * 1000000000)
include fits

/-- Some frame is recent where the server acknowledges every heartbeat: the one that answers it,
or the one before it. -/
theorem Watched.recent (patient : 0 ≤ patience) {s : Link} {g : LinkTimes}
    (watched : Watched heartbeatInterval gap s g) {checked : Int}
    (answered : ∀ begun ∈ g.owed, checked ≤ begun + patience)
    (close : (checked : ℚ) ≤ g.lastBegun + hbEveryNs heartbeatInterval + gap) :
    (checked : ℚ) ≤ g.lastFrame + limitS heartbeatInterval * 1000000000 := by
  have patient' : (0 : ℚ) ≤ patience := by exact_mod_cast patient
  cases owed : g.owed with
  | none =>
    have acked : (g.lastBegun : ℚ) ≤ g.lastFrame := by exact_mod_cast watched.acked owed
    linarith
  | some first =>
    have soon : (checked : ℚ) ≤ first + patience := by exact_mod_cast answered first owed
    have owing := watched.owing first owed
    linarith

/-- A step with a timely frame behind it never runs into the silence kill. By the event. -/
theorem silence_kept (positive : 0 < heartbeatInterval) (patient : 0 ≤ patience) {s : Link}
    {g : LinkTimes} {event : LinkEvent}
    (watched : s.watch ≠ .returned → Watched heartbeatInterval gap s g)
    (timely : Timely gap (s, g) event) (answered : Answered patience (s, g) event) :
    (step heartbeatInterval templateId s event).silenceKilled = s.silenceKilled := by
  cases event with
  | frame now wire =>
    dsimp only [step, receive]
    split_ifs
    · split <;> rfl
    · rfl
  | wake now checked =>
    cases phase : s.watch with
    | sleeping =>
      have alive : s.watch ≠ .returned := by
        rw [phase]
        rintro ⟨⟩
      obtain ⟨_, _, _, within⟩ := timely alive
      have known := watched alive
      simp only [step, phase]
      unfold wake
      split_ifs with due
      · rfl
      · obtain ⟨_, early⟩ := Bool.or_eq_false_iff.mp (Bool.eq_false_iff.mpr due)
        have beaten := not_hbDue early
        rw [known.last phase] at beaten
        have within' : (checked : ℚ) ≤ now + gap := by exact_mod_cast within
        exact checkSilence_kept known.received
          (known.recent fits patient (answered alive) (by linarith))
    | writing begun => simp only [step, phase]
    | returned => simp only [step, phase]
  | written checked failure =>
    cases phase : s.watch with
    | sleeping => simp only [step, phase]
    | writing begun =>
      have alive : s.watch ≠ .returned := by
        rw [phase]
        rintro ⟨⟩
      obtain ⟨_, soon⟩ := timely alive
      have known := watched alive
      simp only [step, phase]
      cases failure with
      | some error => rfl
      | none =>
        have every := hbEveryNs_pos positive
        have begun_eq : (g.lastBegun : ℚ) = g.lastWake := by
          exact_mod_cast (known.begun begun phase).2
        have soon' : (checked : ℚ) ≤ g.lastWake + gap := by exact_mod_cast soon
        exact checkSilence_kept (s := { s with lastHb := begun }) known.received
          (known.recent fits patient (answered alive) (by linarith))
    | returned => simp only [step, phase]
  | stop => rfl
  | _ =>
    dsimp only [step]
    split_ifs <;> rfl

/-- A connection is not given up for silence while the server acknowledges every heartbeat soon
enough, however quiet the market is. -/
theorem quiet_line_kept (positive : 0 < heartbeatInterval) (patient : 0 ≤ patience)
    (some : 0 ≤ gap) (now : Int) (pending : Bool) (events : List LinkEvent)
    (along : Runs.Along (timed heartbeatInterval templateId)
      (fun pair event => Timely gap pair event ∧ Answered patience pair event)
      (start now pending, LinkTimes.start now) events) :
    (Runs.run (step heartbeatInterval templateId) (start now pending) events).silenceKilled =
      false := by
  have kept := Runs.run_invariant (timed heartbeatInterval templateId)
    (fun pair => pair.1.silenceKilled = false ∧
      (pair.1.watch ≠ .returned → Watched heartbeatInterval gap pair.1 pair.2))
    (fun pair event => Timely gap pair event ∧ Answered patience pair event)
    (by
      rintro pair event ⟨alive, watched⟩ ⟨timely, answered⟩
      constructor
      · exact (silence_kept fits positive patient watched timely answered).trans alive
      · intro still
        have before : pair.1.watch ≠ .returned := fun gone => still (returned_stays gone event)
        exact (watched before).timed positive (timely before) still)
    _ events ⟨rfl, fun _ => start_watched positive some now pending⟩ along
  have same := Runs.run_observe_fst (step heartbeatInterval templateId) LinkTimes.note
    (start now pending, LinkTimes.start now) events
  rw [← same]
  exact kept.1

end Acknowledged

theorem quiet_line_kept_request :
    (Runs.run (step 60 requestedIds) (start 0 false) requestedHeartbeat).silenceKilled = false :=
  quiet_line_kept (by decide +kernel) (by norm_num) (by decide) (by decide) 0 false
    requestedHeartbeat requestedHeartbeat_along.1

end Loops

end Link
end RithmicEngine
