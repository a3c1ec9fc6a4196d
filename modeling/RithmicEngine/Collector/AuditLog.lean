import RithmicEngine.Base.Newest
import RithmicEngine.Base.Runs
/-!
# The audit log

Events wait in a buffer that any thread appends to, and one thread flushes it to the database.
A flush swaps the buffer out, inserts the batch and puts it back before the newer events when
the insert fails; both the append and the requeue drop the oldest events beyond a bound. Events
may be logged between any two of the flush's own steps. The text of the insert is left out.
-/
namespace RithmicEngine

inductive AuditSeverity
  | info
  | warn
  | error
  deriving DecidableEq

/-- An event, with the number of the call that logged it, which nothing reads. -/
structure AuditEvent where
  ts : String
  event : String
  severity : String
  details : String
  number : Nat
  deriving DecidableEq

/-- What a flush finds of its connection. -/
structure AuditLink where
  ok : Bool
  now : Int
  okAfterReset : Bool

structure AuditLog where
  conn : Bool
  buf : List AuditEvent := []
  lastReset : Int := 0
  resetLogged : Bool := false

namespace AuditLog

def maxBuf : Nat := 10000

def sevStr : AuditSeverity → String
  | .warn => "WARN"
  | .error => "ERROR"
  | .info => "INFO"

def log (s : AuditLog) (entry : AuditEvent) : AuditLog :=
  { s with buf := (if s.buf.length ≥ maxBuf then s.buf.drop 1 else s.buf) ++ [entry] }

/-- Whether the connection is up, after at most one repair in five seconds. -/
def ensureConnected (s : AuditLog) (link : AuditLink) : Bool × AuditLog :=
  if s.conn = false then (false, s)
  else if link.ok then (true, { s with resetLogged := false })
  else if link.now - s.lastReset < 5000000000 then (false, s)
  else if link.okAfterReset then (true, { s with lastReset := link.now, resetLogged := false })
  else (false, { s with lastReset := link.now, resetLogged := true })

/-- A batch that was not inserted goes back to the front. -/
def requeue (s : AuditLog) (batch : List AuditEvent) : AuditLog :=
  let buf := batch ++ s.buf
  { s with buf := if buf.length > maxBuf then buf.drop (buf.length - maxBuf) else buf }

end AuditLog

/-- How far a flush is. -/
inductive FlushPhase
  | idle
  | nonempty
  | connected
  | inFlight (batch : List AuditEvent)

namespace FlushPhase

def batch : FlushPhase → List AuditEvent
  | inFlight batch => batch
  | _ => []

end FlushPhase

/-- The log between two steps of its threads, with all events logged and inserted so far. -/
structure AuditWorld where
  audit : AuditLog
  phase : FlushPhase := .idle
  logged : List AuditEvent := []
  inserted : List AuditEvent := []

/-- A call of `log`, or the next step of the flushing thread, with what it would find of the
connection and what the database would answer. -/
inductive AuditInput
  | log (ts event details : String) (severity : AuditSeverity)
  | flush (link : AuditLink) (accepted : Bool)

namespace AuditWorld

def log (w : AuditWorld) (ts event details : String) (severity : AuditSeverity) : AuditWorld :=
  let entry : AuditEvent :=
    { ts, event, severity := AuditLog.sevStr severity, details, number := w.logged.length }
  { w with audit := w.audit.log entry, logged := w.logged ++ [entry] }

def flush (w : AuditWorld) (link : AuditLink) (accepted : Bool) : AuditWorld :=
  match w.phase with
  | .idle => if w.audit.buf = [] then w else { w with phase := .nonempty }
  | .nonempty =>
    let (up, audit) := w.audit.ensureConnected link
    { w with audit, phase := if up then .connected else .idle }
  | .connected =>
    if w.audit.buf = [] then { w with phase := .idle }
    else { w with audit := { w.audit with buf := [] }, phase := .inFlight w.audit.buf }
  | .inFlight batch =>
    if accepted then { w with phase := .idle, inserted := w.inserted ++ batch }
    else { w with audit := w.audit.requeue batch, phase := .idle }

def step (w : AuditWorld) : AuditInput → AuditWorld
  | .log ts event details severity => w.log ts event details severity
  | .flush link accepted => w.flush link accepted

/-- The events that are neither inserted nor dropped. -/
def pending (w : AuditWorld) : List AuditEvent := w.phase.batch ++ w.audit.buf

/-- The log of a fresh process. -/
def fresh (conn : Bool) : AuditWorld where
  audit := { conn }

end AuditWorld

open Newest

namespace AuditLog

/-! ## The two trims -/

variable (s : AuditLog)

/-- A logged event is the newest of the buffer, and the oldest one is dropped for it. -/
theorem log_buf (bounded : s.buf.length ≤ maxBuf) (entry : AuditEvent) :
    (s.log entry).buf = newest maxBuf (s.buf ++ [entry]) := by
  unfold log newest
  dsimp only
  rw [List.length_append, List.length_singleton]
  split_ifs with full
  · rw [show s.buf.length + 1 - maxBuf = 1 by omega, List.drop_append_of_le_length]
    have : 0 < maxBuf := by decide
    omega
  · rw [show s.buf.length + 1 - maxBuf = 0 by omega, List.drop_zero]

theorem requeue_buf (batch : List AuditEvent) :
    (s.requeue batch).buf = newest maxBuf (batch ++ s.buf) := by
  unfold requeue
  dsimp only
  split_ifs with long
  · rfl
  · rw [newest_of_le (Nat.le_of_not_gt long)]

theorem ensureConnected_buf (link : AuditLink) : (s.ensureConnected link).2.buf = s.buf := by
  unfold ensureConnected
  split_ifs
  · rfl
  · rfl
  · rfl
  · rfl
  · rfl

end AuditLog

namespace AuditWorld

open AuditLog

/-! ## What every step keeps -/

/-- The numbers are those of the calls, the buffer is within its bound, the newest of the
pending events are the last ones logged, and the events inserted, in flight and in the buffer
are some of the logged ones in their order. -/
structure Kept (w : AuditWorld) : Prop where
  numbered : w.logged.map AuditEvent.number = List.range w.logged.length
  bounded : w.audit.buf.length ≤ maxBuf
  newest_logged : newest maxBuf w.pending <:+ w.logged
  selected : List.Sublist (w.inserted ++ w.pending) w.logged

theorem fresh_kept (conn : Bool) : (fresh conn).Kept where
  numbered := rfl
  bounded := Nat.zero_le _
  newest_logged := newest_suffix maxBuf []
  selected := List.Sublist.refl _

variable {w : AuditWorld} {entry : AuditEvent}

/-- A logged event gets the next number and waits in the buffer. -/
theorem pending_log (kept : w.Kept) (ts event details : String) (severity : AuditSeverity) :
    ∃ entry : AuditEvent, entry.number = w.logged.length ∧
      (w.log ts event details severity).logged = w.logged ++ [entry] ∧
      (w.log ts event details severity).pending =
        w.phase.batch ++ newest maxBuf (w.audit.buf ++ [entry]) := by
  refine ⟨_, rfl, rfl, ?_⟩
  unfold pending
  rw [← log_buf w.audit kept.bounded]
  rfl

/-- Logging an event keeps the log in order. A full buffer drops its oldest event. -/
theorem Kept.log (kept : w.Kept) (ts event details : String) (severity : AuditSeverity) :
    (w.log ts event details severity).Kept := by
  obtain ⟨entry, number, logged, pending⟩ := pending_log kept ts event details severity
  constructor
  · rw [logged, List.map_append, kept.numbered, List.length_append, List.length_singleton,
      List.range_succ, List.map_singleton, number]
  · exact (congrArg List.length (log_buf w.audit kept.bounded _)).trans_le (newest_length _ _)
  · rw [pending, logged, newest_append_rest, ← List.append_assoc, ← newest_append_front]
    refine (newest_suffix _ _).trans ?_
    obtain ⟨front, whole⟩ := kept.newest_logged
    refine ⟨front, ?_⟩
    rw [← whole, List.append_assoc]
    rfl
  · rw [pending, logged, ← List.append_assoc]
    have cut := (newest_suffix maxBuf (w.audit.buf ++ [entry])).sublist
    have whole := kept.selected.append (List.Sublist.refl [entry])
    unfold AuditWorld.pending at whole
    rw [← List.append_assoc, List.append_assoc _ _ [entry]] at whole
    exact (cut.append_left _).trans whole

/-- What is left in the buffer was logged last. -/
theorem Kept.buf_suffix (kept : w.Kept) : w.audit.buf <:+ w.logged :=
  (suffix_newest (List.suffix_append w.phase.batch w.audit.buf) kept.bounded).trans
    kept.newest_logged

/-- What a step of the flushing thread does to the events: nothing, or it swaps the buffer out,
inserts the batch or puts it back. -/
theorem flush_cases (w : AuditWorld) (link : AuditLink) (accepted : Bool) :
    (w.flush link accepted).logged = w.logged ∧
      ((w.flush link accepted).inserted = w.inserted ∧
          (w.flush link accepted).pending = w.pending ∧
          ((w.flush link accepted).audit.buf = w.audit.buf ∨
            (w.flush link accepted).audit.buf = []) ∨
        (w.flush link accepted).inserted = w.inserted ++ w.phase.batch ∧
          (w.flush link accepted).pending = w.audit.buf ∧
          (w.flush link accepted).audit.buf = w.audit.buf ∨
        (w.flush link accepted).inserted = w.inserted ∧
          (w.flush link accepted).pending = newest maxBuf w.pending ∧
          (w.flush link accepted).audit.buf = newest maxBuf w.pending) := by
  unfold pending flush
  cases phase : w.phase with
  | idle =>
    dsimp only
    split_ifs
    · exact ⟨rfl, .inl ⟨rfl, by rw [phase], .inl rfl⟩⟩
    · exact ⟨rfl, .inl ⟨rfl, rfl, .inl rfl⟩⟩
  | nonempty =>
    dsimp only
    have buf := ensureConnected_buf w.audit link
    cases (w.audit.ensureConnected link).1 with
    | true => exact ⟨rfl, .inl ⟨rfl, buf, .inl buf⟩⟩
    | false => exact ⟨rfl, .inl ⟨rfl, buf, .inl buf⟩⟩
  | connected =>
    dsimp only
    split_ifs
    · exact ⟨rfl, .inl ⟨rfl, rfl, .inl rfl⟩⟩
    · exact ⟨rfl, .inl ⟨rfl, List.append_nil _, .inr rfl⟩⟩
  | inFlight batch =>
    dsimp only
    split_ifs
    · exact ⟨rfl, .inr (.inl ⟨rfl, rfl, rfl⟩)⟩
    · have buf := requeue_buf w.audit batch
      exact ⟨rfl, .inr (.inr ⟨rfl, buf, buf⟩)⟩

/-- So does a flush, whether its batch is accepted or put back. -/
theorem Kept.flush (kept : w.Kept) (link : AuditLink) (accepted : Bool) :
    (w.flush link accepted).Kept := by
  obtain ⟨logged, same | inserted | requeued⟩ := flush_cases w link accepted
  · obtain ⟨inserted, pending, buf⟩ := same
    constructor
    · rw [logged]
      exact kept.numbered
    · rcases buf with same | empty
      · rw [same]
        exact kept.bounded
      · rw [empty]
        exact Nat.zero_le _
    · rw [pending, logged]
      exact kept.newest_logged
    · rw [inserted, pending, logged]
      exact kept.selected
  · obtain ⟨inserted, pending, buf⟩ := inserted
    constructor
    · rw [logged]
      exact kept.numbered
    · rw [buf]
      exact kept.bounded
    · rw [pending, logged, newest_of_le kept.bounded]
      exact kept.buf_suffix
    · rw [inserted, pending, logged, List.append_assoc]
      exact kept.selected
  · obtain ⟨inserted, pending, buf⟩ := requeued
    constructor
    · rw [logged]
      exact kept.numbered
    · rw [buf]
      exact newest_length _ _
    · rw [pending, logged]
      exact (newest_suffix _ _).trans kept.newest_logged
    · rw [inserted, pending, logged]
      exact ((newest_suffix maxBuf w.pending).sublist.append_left _).trans kept.selected

theorem Kept.step {w : AuditWorld} (kept : w.Kept) (input : AuditInput) : (w.step input).Kept := by
  cases input with
  | log ts event details severity => exact kept.log ts event details severity
  | flush link accepted => exact kept.flush link accepted

theorem run_kept (conn : Bool) (inputs : List AuditInput) :
    (Runs.run step (fresh conn) inputs).Kept :=
  Runs.run_invariant step Kept (fun _ _ => True) (fun _ input kept _ => kept.step input)
    (fresh conn) inputs (fresh_kept conn) (Runs.along_of_forall step (fun _ _ => trivial) _ _)

/-! ## What is dropped -/

theorem Kept.ordered (kept : w.Kept) : w.logged.Pairwise fun a b => a.number < b.number := by
  have increasing : (w.logged.map AuditEvent.number).Pairwise (· < ·) := by
    rw [kept.numbered]
    exact List.pairwise_lt_range
  exact List.pairwise_map.mp increasing

/-- The pending events that are newer than one. -/
def newer (w : AuditWorld) (entry : AuditEvent) : List AuditEvent :=
  w.pending.filter fun other => decide (entry.number < other.number)

/-- Where a cut keeps an entry out, those it keeps are newer and as many as it can keep. -/
theorem newer_of_cut {entries front : List AuditEvent}
    (ordered : entries.Pairwise fun a b => a.number < b.number)
    (pending : w.pending = front ++ newest maxBuf entries) (inside : entry ∈ entries)
    (lost : entry ∉ newest maxBuf entries) : maxBuf ≤ (w.newer entry).length := by
  obtain ⟨full, all⟩ := newer_of_lost ordered inside lost
  have kept : (newest maxBuf entries).filter
      (fun other => decide (entry.number < other.number)) = newest maxBuf entries :=
    List.filter_eq_self.mpr fun other kept => decide_eq_true (all other kept)
  unfold newer
  rw [pending, List.filter_append, kept, List.length_append, full]
  exact Nat.le_add_left _ _

/-- An event that is lost. -/
def Dropped (w : AuditWorld) (entry : AuditEvent) : Prop :=
  entry ∈ w.logged ∧ entry ∉ w.inserted ∧ entry ∉ w.pending

/-- An entry that leaves the pending ones without being inserted has as many newer ones as the
buffer holds. -/
theorem Kept.newer_of_lost (kept : w.Kept) (input : AuditInput) (before : entry ∈ w.pending)
    (after : entry ∉ (w.step input).pending) (lost : entry ∉ (w.step input).inserted) :
    maxBuf ≤ ((w.step input).newer entry).length := by
  cases input with
  | log ts event details severity =>
    have next := kept.log ts event details severity
    obtain ⟨added, _, logged, pending⟩ := pending_log kept ts event details severity
    change entry ∉ (w.log ts event details severity).pending at after
    rw [pending, List.mem_append, not_or] at after
    have inside := (List.mem_append.mp before).resolve_left after.1
    have part : List.Sublist (w.audit.buf ++ [added]) (w.log ts event details severity).logged := by
      rw [logged]
      exact kept.buf_suffix.sublist.append (List.Sublist.refl [added])
    exact newer_of_cut (next.ordered.sublist part) pending (List.mem_append_left _ inside) after.2
  | flush link accepted =>
    obtain ⟨_, same | inserted | requeued⟩ := flush_cases w link accepted
    · exact absurd (same.2.1 ▸ before) after
    · rcases List.mem_append.mp before with batch | buffered
      · refine absurd ?_ lost
        change entry ∈ (w.flush link accepted).inserted
        rw [inserted.1]
        exact List.mem_append_right _ batch
      · exact absurd (inserted.2.1 ▸ buffered) after
    · have ordered := kept.ordered.sublist
        ((List.sublist_append_right w.inserted w.pending).trans kept.selected)
      have pending : (w.flush link accepted).pending = [] ++ newest maxBuf w.pending :=
        requeued.2.1.trans (List.nil_append _).symm
      change entry ∉ (w.flush link accepted).pending at after
      rw [pending, List.nil_append] at after
      exact newer_of_cut ordered pending before after

/-- What is logged anew is pending. -/
theorem Kept.log_pending (kept : w.Kept) (ts event details : String) (severity : AuditSeverity) :
    ∀ entry ∈ (w.log ts event details severity).logged,
      entry ∈ w.logged ∨ entry ∈ (w.log ts event details severity).pending := by
  obtain ⟨added, _, logged, pending⟩ := pending_log kept ts event details severity
  rw [logged, pending]
  intro entry inside
  refine (List.mem_append.mp inside).imp_right fun isAdded => List.mem_append_right _ ?_
  have last : [added] <:+ newest maxBuf (w.audit.buf ++ [added]) :=
    suffix_newest (List.suffix_append _ _) (Nat.le_of_ble_eq_true rfl)
  exact last.subset isAdded

/-- An event is dropped only where many newer ones are pending after it. -/
theorem Kept.dropped (kept : w.Kept) (input : AuditInput) (dropped : (w.step input).Dropped entry) :
    w.Dropped entry ∨ maxBuf ≤ ((w.step input).newer entry).length := by
  obtain ⟨logged, uninserted, gone⟩ := dropped
  have known : entry ∈ w.logged := by
    cases input with
    | log ts event details severity =>
      exact (kept.log_pending ts event details severity entry logged).resolve_right gone
    | flush link accepted => exact (flush_cases w link accepted).1 ▸ logged
  have apart : entry ∉ w.inserted := by
    intro inserted
    refine uninserted ?_
    cases input with
    | log ts event details severity => exact inserted
    | flush link accepted =>
      change entry ∈ (w.flush link accepted).inserted
      obtain ⟨_, same | grown | requeued⟩ := flush_cases w link accepted
      · rw [same.1]
        exact inserted
      · rw [grown.1]
        exact List.mem_append_left _ inserted
      · rw [requeued.1]
        exact inserted
  by_cases before : entry ∈ w.pending
  · exact .inr (kept.newer_of_lost input before gone uninserted)
  · exact .inl ⟨known, apart, before⟩

/-- What was logged and is not inserted yet. -/
def uninserted (w : AuditWorld) : List AuditEvent :=
  w.logged.filter fun entry => decide (entry ∉ w.inserted)

/-- What is still in the buffer are the last of the rows that are not inserted. -/
theorem Kept.buf_uninserted (kept : w.Kept) : w.audit.buf <:+ w.uninserted := by
  obtain ⟨front, whole⟩ := kept.buf_suffix
  have ordered := kept.ordered.sublist kept.selected
  have apart : w.audit.buf.filter (fun entry => decide (entry ∉ w.inserted)) = w.audit.buf := by
    refine List.filter_eq_self.mpr fun entry inside => decide_eq_true fun inserted => ?_
    have before := (List.pairwise_append.mp ordered).2.2 entry inserted entry
      (List.mem_append_right _ inside)
    exact Nat.lt_irrefl _ before
  refine ⟨front.filter fun entry => decide (entry ∉ w.inserted), ?_⟩
  unfold uninserted
  rw [← whole, List.filter_append, apart]

end AuditWorld

open AuditWorld

/-- In every run the buffer is a suffix of the events that are logged and not inserted and is
within its bound, the events are inserted in the order of their calls and none of them twice,
and the next step drops an event only where as many newer ones are pending. -/
theorem audit_keeps_newest (conn : Bool) (inputs : List AuditInput) (input : AuditInput) :
    let w := Runs.run step (fresh conn) inputs
    w.audit.buf <:+ w.uninserted ∧ w.audit.buf.length ≤ AuditLog.maxBuf ∧
      (w.inserted.Pairwise fun a b => a.number < b.number) ∧
      (∀ entry ∈ w.inserted, entry ∈ w.logged) ∧
      ∀ entry, (w.step input).Dropped entry →
        w.Dropped entry ∨ AuditLog.maxBuf ≤ ((w.step input).newer entry).length := by
  intro w
  have kept : w.Kept := run_kept conn inputs
  have selected := (List.sublist_append_left w.inserted w.pending).trans kept.selected
  refine ⟨kept.buf_uninserted, kept.bounded, kept.ordered.sublist selected, ?_, ?_⟩
  · exact fun entry inside => selected.subset inside
  · exact fun entry dropped => kept.dropped input dropped

end RithmicEngine
