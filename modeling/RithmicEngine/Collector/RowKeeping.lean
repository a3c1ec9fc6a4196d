import Mathlib.Algebra.Order.Group.Multiset
import Mathlib.Tactic.Abel
import RithmicEngine.Base.Runs
import RithmicEngine.Collector.TickWal
/-!
# The way of a row through the collector

The io thread validates a row, appends it to the buffer of its stream and swaps a full
buffer out into a batch, which it hands to the queue of the writer thread; a batch that
finds the queue full is dropped and counted. The writer takes one batch at a time, appends
it to the stream's log and then writes everything the log holds to the database. A
batch that the log refuses goes back to the front of its buffer.

At the end the io thread swaps out what the buffers hold, queues it without regard to the
cap, and waits for the writer to empty the queue. The three streams differ in their
thresholds and in what they accept. The sentinel, the alerts and the metrics are left out;
so are the texts of the log.
-/
namespace RithmicEngine

/-- The three streams. -/
inductive Kind
  | tick
  | bbo
  | depth
  deriving DecidableEq

namespace TickValidator

def maxDriftUs : Int := 172800000000

def maxPrice : ℚ := 1000000

def maxSize : Int := 50000

def printable (text : String) : Bool :=
  text.toList.all fun c => decide (0x20 ≤ c.toNat ∧ c.toNat ≤ 0x7e)

/-- Why a tick is refused at a wall-clock time, if it is. -/
def reason (nowUs : Int) (row : TickRow) : Option String :=
  let drift := row.tsMicros.toInt - nowUs
  if row.symbol = "" ∨ row.symbol.utf8ByteSize > 32 then some "symbol empty or too long"
  else if row.exchange = "" ∨ row.exchange.utf8ByteSize > 32 then
    some "exchange empty or too long"
  else if printable row.symbol = false then some "symbol non-printable"
  else if printable row.exchange = false then some "exchange non-printable"
  else if row.price ≤ 0 ∨ row.price > maxPrice then some "price out of range"
  else if row.size.toInt ≤ 0 ∨ row.size.toInt > maxSize then some "size out of range"
  else if row.tsMicros.toInt ≤ 0 then some "timestamp non-positive"
  else if drift > maxDriftUs ∨ drift < -maxDriftUs then some "timestamp drift > 48 hours"
  else none

def valid (nowUs : Int) (row : TickRow) : Bool := (reason nowUs row).isNone

end TickValidator

namespace Kind

abbrev Row : Kind → Type
  | .tick => TickRow
  | .bbo => BboRow
  | .depth => DepthRow

instance (k : Kind) : DecidableEq k.Row :=
  match k with
  | .tick => inferInstanceAs (DecidableEq TickRow)
  | .bbo => inferInstanceAs (DecidableEq BboRow)
  | .depth => inferInstanceAs (DecidableEq DepthRow)

/-- The lines of the stream's log. -/
def codec : (k : Kind) → Codec k.Row
  | .tick => tickCodec
  | .bbo => { toLine := bboToLine, fromLine := bboFromLine }
  | .depth => { toLine := depthToLine, fromLine := depthFromLine }

/-- A buffer of so many rows is swapped out at once. -/
def flushEveryN : Kind → Nat
  | .tick => 5
  | .bbo => 5
  | .depth => 10

/-- What passes validation: a quote or a depth row needs a time stamp. -/
def accepts (nowUs : Int) : (k : Kind) → k.Row → Bool
  | .tick, row => TickValidator.valid nowUs row
  | .bbo, row => decide (row.tsMicros.toInt > 0)
  | .depth, row => decide (row.tsMicros.toInt > 0)

end Kind

/-- A buffer that was swapped out. -/
structure BatchJob where
  kind : Kind
  rows : List kind.Row
  deriving DecidableEq

/-- Where the io thread stands: in the event loop, in `enqueue_remaining` with the buffers
it has still to swap, with the batches it has still to queue, or in `stop_writer`. -/
inductive Producer
  | running
  | swapping (left : List Kind)
  | handing
  | joining
  deriving DecidableEq

/-- Where the writer thread stands: before the queue, with a batch in hand, with a log to
be written to the database, or out of its loop. -/
inductive Writer
  | idle
  | holding (job : BatchJob)
  | draining (k : Kind)
  | gone
  deriving DecidableEq

/-- The collector; the time of the last swap is in nanoseconds of the steady clock. -/
structure Collector where
  buf : (k : Kind) → List k.Row := fun _ => []
  lastFlush : Kind → Int := fun _ => 0
  total : Kind → Nat := fun _ => 0
  rejected : Kind → Nat := fun _ => 0
  hand : List BatchJob := []
  queue : List BatchJob := []
  queueDropped : Nat := 0
  producer : Producer := .running
  writer : Writer := .idle
  wal : (k : Kind) → Wal k.Row := fun _ => {}
  db : (k : Kind) → List k.Row := fun _ => []

namespace Collector

def flushEveryNs : Int := 100000000

def writerQueueMax : Nat := 8192

/-! ## The io thread -/

/-- Buffer a row that passes validation, and swap the buffer out when it is full or due. -/
def onRow (k : Kind) (row : k.Row) (nowUs now : Int) (c : Collector) : Collector :=
  if k.accepts nowUs row then
    let filled := c.buf k ++ [row]
    if filled.length ≥ k.flushEveryN ∨ now - c.lastFlush k ≥ flushEveryNs then
      { c with
        total := Function.update c.total k (c.total k + 1)
        buf := Function.update c.buf k []
        lastFlush := Function.update c.lastFlush k now
        hand := c.hand ++ [⟨k, filled⟩] }
    else
      { c with
        total := Function.update c.total k (c.total k + 1)
        buf := Function.update c.buf k filled }
  else { c with rejected := Function.update c.rejected k (c.rejected k + 1) }

def onTick : TickRow → Int → Int → Collector → Collector := onRow .tick

def onBbo : BboRow → Int → Int → Collector → Collector := onRow .bbo

def onDepth : DepthRow → Int → Int → Collector → Collector := onRow .depth

/-- The callback of the row's stream. -/
def receive : (k : Kind) → k.Row → Int → Int → Collector → Collector
  | .tick => onTick
  | .bbo => onBbo
  | .depth => onDepth

/-- The flag tells whether the queue took the batch. -/
def enqueueJob (job : BatchJob) (enforceCap : Bool) (c : Collector) : Collector × Bool :=
  if enforceCap ∧ c.queue.length ≥ writerQueueMax then (c, false)
  else ({ c with queue := c.queue ++ [job] }, true)

/-- Queue the next batch in hand; in the event loop one that is refused is counted. -/
def handOver (c : Collector) : Collector :=
  match c.hand with
  | [] => c
  | job :: rest =>
    let (c, taken) := enqueueJob job (decide (c.producer = .running)) { c with hand := rest }
    if taken then c else { c with queueDropped := c.queueDropped + 1 }

/-- Swap out the next buffer of `enqueue_remaining`. -/
def swapNext (c : Collector) : Collector :=
  match c.producer with
  | .swapping (k :: left) =>
    { c with
      buf := Function.update c.buf k []
      hand := if c.buf k = [] then c.hand else c.hand ++ [⟨k, c.buf k⟩]
      producer := .swapping left }
  | .swapping [] => { c with producer := .handing }
  | _ => c

/-! ## The writer thread -/

/-- Take the next batch, or leave the loop when the queue is empty and a stop was asked. -/
def takeJob (c : Collector) : Collector :=
  match c.writer with
  | .idle =>
    match c.queue with
    | job :: rest => { c with queue := rest, writer := .holding job }
    | [] => if c.producer = .joining then { c with writer := .gone } else c
  | _ => c

def writeWal (c : Collector) : Collector :=
  match c.writer with
  | .holding job =>
    { c with
      wal := Function.update c.wal job.kind ((c.wal job.kind).writeBatch job.kind.codec job.rows)
      writer := .draining job.kind }
  | _ => c

/-- A write to the log that fails after so many characters: the batch is queued again, at
the front of its buffer. -/
def failWal (cut : Nat) (c : Collector) : Collector :=
  match c.writer with
  | .holding job =>
    { c with
      wal := Function.update c.wal job.kind
        ((c.wal job.kind).failBatch job.kind.codec job.rows cut)
      buf := Function.update c.buf job.kind (job.rows ++ c.buf job.kind)
      writer := .idle }
  | _ => c

/-- Write what the log holds to the database and commit the log. The commit fails where
the file cannot be truncated. -/
def writeDb (truncates : Bool) (c : Collector) : Collector :=
  match c.writer with
  | .draining k =>
    { c with
      db := Function.update c.db k (c.db k ++ (c.wal k).pending)
      wal := if truncates then Function.update c.wal k (c.wal k).commit else c.wal
      writer := .idle }
  | _ => c

def failDb (c : Collector) : Collector :=
  match c.writer with
  | .draining _ => { c with writer := .idle }
  | _ => c

/-! ## Runs -/

/-- One locked section of either thread. -/
inductive Step
  | arrive (k : Kind) (row : k.Row) (nowUs now : Int)
  | endLoop
  | swapNext
  | handOver
  | stopWriter
  | takeJob
  | writeWal
  | failWal (cut : Nat)
  | writeDb (truncates : Bool)
  | failDb

/-- The io thread is in its event loop, between two callbacks. -/
def Listening (c : Collector) : Prop := c.producer = .running ∧ c.hand = []

instance (c : Collector) : Decidable c.Listening :=
  decidable_of_iff (c.producer = .running ∧ c.hand.isEmpty = true) (by
    rw [Listening, List.isEmpty_iff])

/-- A step that its thread cannot take where it stands does nothing. -/
def step (c : Collector) : Step → Collector
  | .arrive k row nowUs now => if c.Listening then c.receive k row nowUs now else c
  | .endLoop =>
    if c.Listening then { c with producer := .swapping [.tick, .bbo, .depth] } else c
  | .swapNext => c.swapNext
  | .handOver =>
    match c.producer with
    | .running | .handing => c.handOver
    | .swapping _ | .joining => c
  | .stopWriter =>
    if c.producer = .handing ∧ c.hand.isEmpty then { c with producer := .joining } else c
  | .takeJob => c.takeJob
  | .writeWal => c.writeWal
  | .failWal cut => c.failWal cut
  | .writeDb truncates => c.writeDb truncates
  | .failDb => c.failDb

end Collector

/-! ## Where the rows are -/

def BatchJob.rowsAt (k : Kind) (job : BatchJob) : List k.Row :=
  if same : job.kind = k then same ▸ job.rows else []

/-- The rows of a stream among some batches. -/
def rowsAt (k : Kind) (jobs : List BatchJob) : List k.Row := jobs.flatMap fun job => job.rowsAt k

/-- The writer's current batch. -/
def Writer.jobs : Writer → List BatchJob
  | .holding job => [job]
  | _ => []

namespace Collector

/-- The rows of a stream that the collector holds or has written: in the buffer, in
batches on their way to the queue and in it, with the writer, in the log and in the
database. -/
def held (c : Collector) (k : Kind) : Multiset k.Row :=
  c.buf k + rowsAt k (c.hand ++ c.queue) + rowsAt k c.writer.jobs + (c.wal k).pending + c.db k

/-- The rows that passed validation, each a batch of its own, and the batches that were
counted as dropped. -/
structure Seen where
  accepted : List BatchJob := []
  dropped : List BatchJob := []

def note (seen : Seen) (before : Collector) (taken : Step) (after : Collector) : Seen :=
  match taken with
  | .arrive k row nowUs _ =>
    if before.Listening ∧ k.accepts nowUs row = true then
      { seen with accepted := seen.accepted ++ [⟨k, [row]⟩] }
    else seen
  | .handOver =>
    if after.queueDropped = before.queueDropped then seen
    else { seen with dropped := seen.dropped ++ before.hand.take 1 }
  | _ => seen

def watched : Collector × Seen → Step → Collector × Seen := Runs.observe step note

/-- Every row that passed validation is in one place, or in a batch that was counted as
dropped. -/
def Conserved (pair : Collector × Seen) : Prop :=
  (∀ k, (rowsAt k pair.2.accepted : Multiset k.Row) = pair.1.held k + rowsAt k pair.2.dropped) ∧
    pair.2.dropped.length = pair.1.queueDropped

/-- The rows of a log that are written to the database leave the log. -/
def Truncates (c : Collector) (taken : Step) : Prop :=
  ∀ k, c.writer = .draining k → taken = .writeDb false → (c.wal k).pending = []

variable {after : Collector} (k : Kind) (row : k.Row) (nowUs : Int) (c : Collector) (now : Int)
  (pair : Collector × Seen) (other : Kind) (taken : Step)

theorem truncates_of_ne {taken : Step} (other : taken ≠ .writeDb false) : c.Truncates taken :=
  fun _ _ writes => absurd writes other

/-- The buffer of the stream has been swapped out for the last time. -/
def Swapped (c : Collector) (k : Kind) : Prop :=
  match c.producer with
  | .running => False
  | .swapping left => k ∉ left
  | .handing | .joining => True

/-- A batch that the log refuses goes back before its buffer is swapped out for the last
time. -/
def InTime (c : Collector) (taken : Step) : Prop :=
  ∀ cut job, taken = .failWal cut → c.writer = .holding job → c.Swapped job.kind → job.rows = []

/-! ## What each step does with the rows -/

@[simp] theorem rowsAt_nil (k : Kind) : rowsAt k [] = [] := rfl

@[simp] theorem rowsAt_append (k : Kind) (first second : List BatchJob) :
    rowsAt k (first ++ second) = rowsAt k first ++ rowsAt k second := List.flatMap_append

theorem rowsAt_cons (job : BatchJob) (rest : List BatchJob) :
    rowsAt k (job :: rest) = job.rowsAt k ++ rowsAt k rest := List.flatMap_cons

@[simp] theorem rowsAt_self (job : BatchJob) : job.rowsAt job.kind = job.rows := by
  simp [BatchJob.rowsAt]

@[simp] theorem rowsAt_mk (k : Kind) (rows : List k.Row) :
    BatchJob.rowsAt k { kind := k, rows := rows } = rows := rowsAt_self _

theorem rowsAt_of_ne {k : Kind} {job : BatchJob} (other : job.kind ≠ k) : job.rowsAt k = [] := by
  simp [BatchJob.rowsAt, other]

/-- A row that passes validation is added to the rows held. -/
theorem held_onRow (c : Collector) (other : Kind) (valid : k.accepts nowUs row = true) :
    (c.onRow k row nowUs now).held other = c.held other + (rowsAt other [⟨k, [row]⟩] : List _) := by
  simp only [onRow, valid, ↓reduceIte]
  by_cases same : k = other
  · subst same
    split
    · simp only [held, Function.update_self, rowsAt_append, rowsAt_cons, rowsAt_mk, rowsAt_nil,
        List.append_nil, ← Multiset.coe_add, Multiset.coe_nil]
      abel
    · simp only [held, Function.update_self, rowsAt_append, rowsAt_cons, rowsAt_mk, rowsAt_nil,
        List.append_nil, ← Multiset.coe_add]
      abel
  · have apart : ({ kind := k, rows := [row] } : BatchJob).rowsAt other = [] := rowsAt_of_ne same
    split
    · have filled : ({ kind := k, rows := c.buf k ++ [row] } : BatchJob).rowsAt other = [] :=
        rowsAt_of_ne same
      simp [held, Function.update_of_ne (Ne.symm same), rowsAt_cons, apart, filled]
    · simp [held, Function.update_of_ne (Ne.symm same), rowsAt_cons, apart]

/-- Swapping the buffers loses no row. -/
theorem held_swapNext : c.swapNext.held other = c.held other := by
  simp only [swapNext]
  split
  next k left _ =>
    by_cases same : k = other
    · subst same
      split
      next empty =>
        simp [held, empty]
      next =>
        simp only [held, Function.update_self, rowsAt_append, rowsAt_cons, rowsAt_mk, rowsAt_nil,
          List.append_nil, ← Multiset.coe_add, Multiset.coe_nil]
        abel
    · have apart : ({ kind := k, rows := c.buf k } : BatchJob).rowsAt other = [] :=
        rowsAt_of_ne same
      split
      · simp only [held, Function.update_of_ne (Ne.symm same)]
      · simp [held, Function.update_of_ne (Ne.symm same), rowsAt_cons, apart]
  · rfl
  · rfl

/-- A batch in hand is queued, or it is dropped and counted. -/
theorem handOver_cases :
    (c.handOver.queueDropped = c.queueDropped ∧ ∀ k, c.handOver.held k = c.held k) ∨
      ∃ job rest, c.hand = job :: rest ∧ c.handOver.queueDropped = c.queueDropped + 1 ∧
        ∀ k, c.held k = c.handOver.held k + (rowsAt k [job] : List _) := by
  simp only [handOver]
  split
  next => exact Or.inl ⟨rfl, fun _ => rfl⟩
  next job rest hand =>
    simp only [enqueueJob]
    split
    next full =>
      refine Or.inr ⟨job, rest, hand, rfl, fun k => ?_⟩
      simp only [held, hand, rowsAt_append, rowsAt_cons, rowsAt_nil, List.append_nil,
        ← Multiset.coe_add, Bool.false_eq_true, ↓reduceIte]
      abel
    next =>
      refine Or.inl ⟨rfl, fun k => ?_⟩
      simp only [held, hand, rowsAt_append, rowsAt_cons, rowsAt_nil, List.append_nil,
        ← Multiset.coe_add, ↓reduceIte]
      abel

/-- A job that the writer takes is held as before. -/
theorem held_takeJob (k : Kind) : c.takeJob.held k = c.held k := by
  simp only [takeJob]
  split
  next idle =>
    split
    next job rest queued =>
      simp only [held, queued, idle, Writer.jobs, rowsAt_append, rowsAt_cons, rowsAt_nil,
        List.append_nil, ← Multiset.coe_add, Multiset.coe_nil]
      abel
    next =>
      split
      · simp only [held, idle, Writer.jobs]
      · rfl
  · rfl

theorem pending_writeBatch {Row : Type} (codec : Codec Row) (wal : Wal Row) (rows : List Row) :
    (wal.writeBatch codec rows).pending = wal.pending ++ rows := by
  cases rows with
  | nil => exact (List.append_nil wal.pending).symm
  | cons => rfl

/-- A batch that is written to the log is held as before. -/
theorem held_writeWal : c.writeWal.held other = c.held other := by
  simp only [writeWal]
  split
  next job holding =>
    by_cases same : job.kind = other
    · subst same
      simp only [held, holding, Writer.jobs, Function.update_self, pending_writeBatch, rowsAt_cons,
        rowsAt_self, rowsAt_nil, List.append_nil, ← Multiset.coe_add, Multiset.coe_nil]
      abel
    · simp [held, holding, Writer.jobs, Function.update_of_ne (Ne.symm same), rowsAt_cons,
        rowsAt_of_ne same]
  · rfl

/-- A log that cannot be written loses no row that was held. -/
theorem held_failWal (cut : Nat) (c : Collector) (other : Kind) :
    (c.failWal cut).held other = c.held other := by
  simp only [failWal]
  split
  next job holding =>
    by_cases same : job.kind = other
    · subst same
      simp only [held, holding, Writer.jobs, Function.update_self, Wal.failBatch, rowsAt_cons,
        rowsAt_self, rowsAt_nil, List.append_nil, ← Multiset.coe_add, Multiset.coe_nil]
      abel
    · simp [held, holding, Writer.jobs, Function.update_of_ne (Ne.symm same), rowsAt_cons,
        rowsAt_of_ne same]
  · rfl

theorem held_failDb (k : Kind) : c.failDb.held k = c.held k := by
  simp only [failDb]
  split
  next draining => simp only [held, draining, Writer.jobs]
  · rfl

/-- A commit takes the rows that are written to the database out of the log. -/
theorem held_writeDb : (c.writeDb true).held other = c.held other := by
  simp only [writeDb]
  split
  next k draining =>
    by_cases same : k = other
    · subst same
      simp only [held, draining, Writer.jobs, Function.update_self, Wal.commit, rowsAt_nil,
        ↓reduceIte, ← Multiset.coe_add, Multiset.coe_nil]
      abel
    · simp [held, draining, Writer.jobs, Function.update_of_ne (Ne.symm same)]
  · rfl

/-- Without a commit they are in both. -/
theorem held_writeDb_untruncated {k : Kind} (draining : c.writer = .draining k) :
    (c.writeDb false).held k = c.held k + (c.wal k).pending := by
  simp only [writeDb, draining, held, Writer.jobs, Function.update_self, Bool.false_eq_true,
    ↓reduceIte, ← Multiset.coe_add]
  abel

/-- Truncating a log with nothing pending loses no row. -/
theorem held_writeDb_empty (truncates : c.Truncates (.writeDb false)) :
    (c.writeDb false).held other = c.held other := by
  simp only [writeDb]
  split
  next k draining =>
    have empty := truncates k draining rfl
    by_cases same : k = other
    · subst same
      simp [held, draining, Writer.jobs, empty]
    · simp [held, draining, Writer.jobs, Function.update_of_ne (Ne.symm same)]
  · rfl

/-! ## Conservation -/

/-- A step that moves rows from one place to another, and drops none. -/
theorem conserved_of_held {c : Collector} {seen : Seen} (same : ∀ k, after.held k = c.held k)
    (count : after.queueDropped = c.queueDropped) (conserved : Conserved (c, seen)) :
    Conserved (after, seen) := by
  obtain ⟨rows, counted⟩ := conserved
  refine ⟨fun k => ?_, counted.trans count.symm⟩
  rw [rows k, same k]

/-- An arriving row is held, or counted as dropped. -/
theorem conserved_arrive (conserved : Conserved pair) :
    Conserved (watched pair (.arrive k row nowUs now)) := by
  obtain ⟨c, seen⟩ := pair
  have received : c.receive k row nowUs now = c.onRow k row nowUs now := by
    cases k
    all_goals rfl
  simp only [watched, Runs.observe, step, note, received]
  by_cases listening : c.Listening
  · simp only [listening, ↓reduceIte, true_and]
    cases valid : k.accepts nowUs row with
    | true =>
      obtain ⟨rows, counted⟩ := conserved
      refine ⟨fun other => ?_, ?_⟩
      · simp only [↓reduceIte, held_onRow k row nowUs now c other valid, rowsAt_append,
          ← Multiset.coe_add, rows other]
        abel
      · refine counted.trans ?_
        simp only [onRow, valid, ↓reduceIte]
        split
        · rfl
        · rfl
    | false =>
      simp only [Bool.false_eq_true, ↓reduceIte]
      refine conserved_of_held (fun other => ?_) ?_ conserved
      · simp only [onRow, valid, Bool.false_eq_true, ↓reduceIte]
        rfl
      · simp [onRow, valid]
  · simp only [listening, ↓reduceIte, false_and]
    exact conserved

/-- Handing over moves the rows between the threads and loses none. -/
theorem conserved_handOver (conserved : Conserved pair) : Conserved (watched pair .handOver) := by
  obtain ⟨c, seen⟩ := pair
  have handing : Conserved (c.handOver, note seen c .handOver c.handOver) := by
    rcases handOver_cases c with ⟨count, same⟩ | ⟨job, rest, hand, count, moved⟩
    · simp only [note, count, ↓reduceIte]
      exact conserved_of_held same count conserved
    · obtain ⟨rows, counted⟩ := conserved
      have more : c.queueDropped + 1 ≠ c.queueDropped := by omega
      simp only [note, count, more, ↓reduceIte, hand, List.take_succ_cons, List.take_zero]
      refine ⟨fun k => ?_, ?_⟩
      · simp only [rows k, moved k, rowsAt_append, ← Multiset.coe_add]
        abel
      · simp [counted, count]
  simp only [watched, Runs.observe, step]
  cases standing : c.producer with
  | running => exact handing
  | handing => exact handing
  | swapping left =>
    simp only [note, ↓reduceIte]
    exact conserved
  | joining =>
    simp only [note, ↓reduceIte]
    exact conserved

/-- A step keeps account of the rows exactly when it does not write rows to the database
and leave them in the log. -/
theorem conserved_step_iff (conserved : Conserved pair) :
    Conserved (watched pair taken) ↔ pair.1.Truncates taken := by
  obtain ⟨c, seen⟩ := pair
  have moves {after : Collector} (same : ∀ k, after.held k = c.held k)
      (count : after.queueDropped = c.queueDropped) : Conserved (after, seen) :=
    conserved_of_held same count conserved
  cases taken with
  | arrive k row nowUs now =>
    exact iff_of_true (conserved_arrive k row nowUs now (c, seen) conserved)
      (c.truncates_of_ne (by rintro ⟨⟩))
  | handOver =>
    exact iff_of_true (conserved_handOver (c, seen) conserved) (c.truncates_of_ne (by rintro ⟨⟩))
  | endLoop =>
    refine iff_of_true ?_ (c.truncates_of_ne (by rintro ⟨⟩))
    simp only [watched, Runs.observe, step, note]
    split
    · exact moves (fun _ => rfl) rfl
    · exact conserved
  | swapNext =>
    refine iff_of_true (moves (held_swapNext c) ?_) (c.truncates_of_ne (by rintro ⟨⟩))
    simp only [step, swapNext]
    split
    · rfl
    · rfl
    · rfl
  | stopWriter =>
    refine iff_of_true ?_ (c.truncates_of_ne (by rintro ⟨⟩))
    simp only [watched, Runs.observe, step, note]
    split
    · exact moves (fun _ => rfl) rfl
    · exact conserved
  | takeJob =>
    refine iff_of_true (moves (held_takeJob c) ?_) (c.truncates_of_ne (by rintro ⟨⟩))
    simp only [step, takeJob]
    split
    · split
      · rfl
      · split
        · rfl
        · rfl
    · rfl
  | writeWal =>
    refine iff_of_true (moves (held_writeWal c) ?_) (c.truncates_of_ne (by rintro ⟨⟩))
    simp only [step, writeWal]
    split
    · rfl
    · rfl
  | failWal cut =>
    refine iff_of_true (moves (held_failWal cut c) ?_) (c.truncates_of_ne (by rintro ⟨⟩))
    simp only [step, failWal]
    split
    · rfl
    · rfl
  | failDb =>
    refine iff_of_true (moves (held_failDb c) ?_) (c.truncates_of_ne (by rintro ⟨⟩))
    simp only [step, failDb]
    split
    · rfl
    · rfl
  | writeDb truncates =>
    have count : (c.writeDb truncates).queueDropped = c.queueDropped := by
      simp only [writeDb]
      split
      · rfl
      · rfl
    cases truncates with
    | true => exact iff_of_true (moves (held_writeDb c) count) (c.truncates_of_ne (by rintro ⟨⟩))
    | false =>
      constructor
      · rintro ⟨rows, -⟩ k draining -
        have after : (c.writeDb false).held k = c.held k := by
          have now := (rows k).symm.trans (conserved.1 k)
          exact add_right_cancel now
        rw [held_writeDb_untruncated c draining] at after
        exact Multiset.coe_eq_zero _ |>.mp (add_eq_left.mp after)
      · intro truncates
        exact moves (fun k => held_writeDb_empty c k truncates) count

/-! ## The buffers at the end -/

/-- The buffers that were swapped out for the last time are empty. -/
def Cleared (c : Collector) : Prop := ∀ k, c.Swapped k → c.buf k = []

theorem cleared_of_same {c : Collector} (buffers : after.buf = c.buf)
    (standing : after.producer = c.producer) : after.Cleared ↔ c.Cleared := by
  simp only [Cleared, Swapped, buffers, standing]

theorem onRow_same (c : Collector) :
    (c.onRow k row nowUs now).writer = c.writer ∧
      (c.onRow k row nowUs now).producer = c.producer := by
  simp only [onRow]
  split
  · split
    · exact ⟨rfl, rfl⟩
    · exact ⟨rfl, rfl⟩
  · exact ⟨rfl, rfl⟩

theorem handOver_same : c.handOver.buf = c.buf ∧ c.handOver.producer = c.producer := by
  simp only [handOver, enqueueJob]
  split
  · exact ⟨rfl, rfl⟩
  · split
    · exact ⟨rfl, rfl⟩
    · exact ⟨rfl, rfl⟩

theorem takeJob_same : c.takeJob.buf = c.buf ∧ c.takeJob.producer = c.producer := by
  simp only [takeJob]
  split
  · split
    · exact ⟨rfl, rfl⟩
    · split
      · exact ⟨rfl, rfl⟩
      · exact ⟨rfl, rfl⟩
  · exact ⟨rfl, rfl⟩

/-- The last swap of a buffer empties it, and touches no other. -/
theorem cleared_swapNext : c.swapNext.Cleared ↔ c.Cleared := by
  simp only [swapNext]
  split
  next k left standing =>
    simp only [Cleared, Swapped, standing, List.mem_cons, not_or]
    constructor
    · rintro cleared other ⟨apart, later⟩
      rw [← cleared other later, Function.update_of_ne apart]
    · intro cleared other later
      by_cases same : other = k
      · subst same
        exact Function.update_self ..
      · rw [Function.update_of_ne same]
        exact cleared other ⟨same, later⟩
  next standing => simp [Cleared, Swapped, standing]
  · exact Iff.rfl

/-- A batch that goes back in time leaves the emptied buffers empty, and one that does not
fills one of them. -/
theorem cleared_failWal (cut : Nat) (c : Collector) :
    (c.failWal cut).Cleared ↔ c.Cleared ∧ c.InTime (.failWal cut) := by
  simp only [failWal]
  split
  next job holding =>
    have back (other : Kind) (apart : other ≠ job.kind) :
        Function.update c.buf job.kind (job.rows ++ c.buf job.kind) other = c.buf other :=
      Function.update_of_ne apart ..
    have front : Function.update c.buf job.kind (job.rows ++ c.buf job.kind) job.kind =
        job.rows ++ c.buf job.kind := Function.update_self ..
    constructor
    · intro cleared
      have here := fun swapped => List.append_eq_nil_iff.mp
        (front.symm.trans (cleared job.kind swapped))
      refine ⟨fun other swapped => ?_, ?_⟩
      · by_cases same : other = job.kind
        · subst same
          exact (here swapped).2
        · exact (back other same).symm.trans (cleared other swapped)
      · intro cut' job' _ held swapped
        obtain rfl := Writer.holding.inj (holding.symm.trans held)
        exact (here swapped).1
    · rintro ⟨cleared, inTime⟩ other swapped
      by_cases same : other = job.kind
      · subst same
        have empty : job.rows = [] := inTime cut job rfl holding swapped
        refine front.trans ?_
        rw [empty, cleared job.kind swapped, List.append_nil]
      · exact (back other same).trans (cleared other swapped)
  next other =>
    exact (and_iff_left fun cut' job _ held => absurd held (other job)).symm

/-- The emptied buffers stay empty over exactly the steps that put nothing back late. -/
theorem cleared_step : (c.step taken).Cleared ↔ c.Cleared ∧ c.InTime taken := by
  have same {after : Collector} (kept : after.Cleared ↔ c.Cleared)
      (other : ∀ cut, taken ≠ .failWal cut) : after.Cleared ↔ c.Cleared ∧ c.InTime taken :=
    kept.trans (and_iff_left fun cut _ isFail => absurd isFail (other cut)).symm
  cases taken with
  | arrive k row nowUs now =>
    refine same ?_ nofun
    have received : c.receive k row nowUs now = c.onRow k row nowUs now := by
      cases k
      all_goals rfl
    simp only [step, received]
    split
    next listening =>
      -- No buffer has been swapped out for the last time yet.
      have before : c.Cleared := by
        intro other swapped
        simp only [Swapped, listening.1] at swapped
      have running : (c.onRow k row nowUs now).producer = .running :=
        (onRow_same k row nowUs now c).2.trans listening.1
      refine iff_of_true ?_ before
      intro other swapped
      simp only [Swapped, running] at swapped
    next => exact Iff.rfl
  | endLoop =>
    refine same ?_ nofun
    simp only [step]
    split
    next listening =>
      refine iff_of_true ?_ ?_
      · intro other swapped
        have inside : other ∈ [Kind.tick, .bbo, .depth] := by
          cases other
          all_goals decide
        exact absurd inside swapped
      · intro other swapped
        simp only [Swapped, listening.1] at swapped
    next => exact Iff.rfl
  | swapNext => exact same (cleared_swapNext c) nofun
  | handOver =>
    refine same ?_ nofun
    obtain ⟨buffers, standing⟩ := handOver_same c
    simp only [step]
    split
    · exact cleared_of_same buffers standing
    · exact cleared_of_same buffers standing
    · exact Iff.rfl
    · exact Iff.rfl
  | stopWriter =>
    refine same ?_ nofun
    simp only [step]
    split
    next handing => simp only [Cleared, Swapped, handing.1]
    next => exact Iff.rfl
  | takeJob => exact same (cleared_of_same (takeJob_same c).1 (takeJob_same c).2) nofun
  | writeWal =>
    refine same ?_ nofun
    simp only [step, writeWal]
    split
    · exact cleared_of_same rfl rfl
    · exact Iff.rfl
  | failWal cut => exact cleared_failWal cut c
  | writeDb truncates =>
    refine same ?_ nofun
    simp only [step, writeDb]
    split
    · exact cleared_of_same rfl rfl
    · exact Iff.rfl
  | failDb =>
    refine same ?_ nofun
    simp only [step, failDb]
    split
    · exact cleared_of_same rfl rfl
    · exact Iff.rfl

theorem cleared_run_iff (steps : List Step) :
    (Runs.run step c steps).Cleared ↔ c.Cleared ∧ Runs.Along step InTime c steps := by
  induction steps generalizing c with
  | nil => exact (and_iff_left trivial).symm
  | cons taken rest ih =>
    rw [Runs.run_cons, ih, cleared_step, and_assoc]
    rfl

/-- The writer has left its loop only after a stop was asked. -/
def Joined (c : Collector) : Prop := c.writer = .gone → c.producer = .joining

theorem joined_of_same {c : Collector} (joined : c.Joined) (still : after.writer = c.writer)
    (standing : after.producer = c.producer) : after.Joined := by
  rwa [Joined, still, standing]

/-- No step takes the writer out of its loop before a stop is asked. -/
theorem joined_step (joined : c.Joined) : (c.step taken).Joined := by
  have busy {after : Collector} (other : after.writer ≠ .gone) : after.Joined :=
    fun gone => absurd gone other
  cases taken with
  | arrive k row nowUs now =>
    have received : c.receive k row nowUs now = c.onRow k row nowUs now := by
      cases k
      all_goals rfl
    simp only [step, received]
    split
    · exact joined_of_same joined (onRow_same k row nowUs now c).1 (onRow_same k row nowUs now c).2
    · exact joined
  | endLoop =>
    simp only [step]
    split
    next listening =>
      exact fun gone => absurd ((joined gone).symm.trans listening.1) (by decide)
    next => exact joined
  | swapNext =>
    simp only [step, swapNext]
    split
    next standing => exact fun gone => absurd ((joined gone).symm.trans standing) (by simp)
    next standing => exact fun gone => absurd ((joined gone).symm.trans standing) (by simp)
    next => exact joined
  | handOver =>
    have still : c.handOver.writer = c.writer := by
      simp only [handOver, enqueueJob]
      split
      · rfl
      · split
        · rfl
        · rfl
    simp only [step]
    split
    · exact joined_of_same joined still (handOver_same c).2
    · exact joined_of_same joined still (handOver_same c).2
    · exact joined
    · exact joined
  | stopWriter =>
    simp only [step]
    split
    next => exact fun _ => rfl
    next => exact joined
  | takeJob =>
    simp only [step, takeJob]
    split
    · split
      · exact busy nofun
      · split
        next asked => exact fun _ => asked
        next => exact joined
    · exact joined
  | writeWal =>
    simp only [step, writeWal]
    split
    · exact busy nofun
    · exact joined
  | failWal cut =>
    simp only [step, failWal]
    split
    · exact busy nofun
    · exact joined
  | writeDb truncates =>
    simp only [step, writeDb]
    split
    · exact busy nofun
    · exact joined
  | failDb =>
    simp only [step, failDb]
    split
    · exact busy nofun
    · exact joined

/-- The collector as it starts, with what its logs held, and those rows as accepted. -/
def start (wal : (k : Kind) → Wal k.Row) (now : Int) : Collector × Seen :=
  ({ wal := wal, lastFlush := fun _ => now },
    { accepted := [⟨.tick, (wal .tick).pending⟩, ⟨.bbo, (wal .bbo).pending⟩,
        ⟨.depth, (wal .depth).pending⟩] })

theorem conserved_start (wal : (k : Kind) → Wal k.Row) (now : Int) :
    Conserved (start wal now) := by
  refine ⟨fun k => ?_, rfl⟩
  cases k
  all_goals
    simp [start, held, rowsAt_cons, Writer.jobs, BatchJob.rowsAt]

/-- In a run of the collector every row that passed validation is in one place or in a
batch that was counted as dropped, and no buffer holds a row when the writer has left,
exactly when the log gives up what is written to the database and no batch goes back
to a buffer after its last swap. -/
theorem rows_kept_iff (wal : (k : Kind) → Wal k.Row) (now : Int) (steps : List Step) :
    let c := (start wal now).1
    let final := Runs.run step c steps
    (Runs.Along watched (fun before taken => Conserved (watched before taken)) (start wal now)
          steps ∧
        (final.writer = .gone → ∀ k, final.buf k = [])) ↔
      (Runs.Along step Truncates c steps ∧
        (final.writer = .gone → Runs.Along step InTime c steps)) := by
  intro c final
  have accounted : Runs.Along watched (fun before taken => Conserved (watched before taken))
        (start wal now) steps ↔ Runs.Along step Truncates c steps :=
    (Runs.along_invariant_iff watched Conserved (fun pair taken => pair.1.Truncates taken)
      conserved_step_iff (start wal now) steps (conserved_start wal now)).trans
      (Runs.along_observe_iff step note Truncates (start wal now) steps)
  have initial : c.Cleared := fun k swapped => absurd swapped id
  have joined : final.Joined :=
    Runs.run_invariant step Joined (fun _ _ => True) (fun before taken holds _ =>
      joined_step before taken holds) c steps (fun gone => by cases gone)
      (Runs.along_of_forall step (fun _ _ => trivial) c steps)
  have emptied (gone : final.writer = .gone) :
      (∀ k, final.buf k = []) ↔ Runs.Along step InTime c steps := by
    have swapped (k : Kind) : final.Swapped k := by
      simp only [Swapped, joined gone]
    have cleared : final.Cleared ↔ ∀ k, final.buf k = [] :=
      forall_congr' fun k => imp_iff_right (swapped k)
    rw [← cleared, cleared_run_iff, and_iff_right initial]
  rw [accounted]
  exact and_congr_right fun _ => forall_congr' emptied

/-- The log refuses the batch of the final drain: when the writer has left, its row is in
the buffer that nothing empties any more. -/
theorem refused_batch_left_behind :
    let steps : List Step := [.arrive .tick bought 1700000000000000 0, .endLoop, .swapNext,
      .swapNext, .swapNext, .swapNext, .handOver, .stopWriter, .takeJob, .failWal 0, .takeJob]
    let final := Runs.run step (start (fun _ => {}) 0).1 steps
    final.writer = .gone ∧ final.buf .tick = [bought] := by
  decide +kernel

end Collector

end RithmicEngine
