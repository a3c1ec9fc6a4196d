import RithmicEngine.Base.Runs
import Mathlib.Data.List.Nodup
/-!
# The write queue of a stream

Every write to a stream goes through a queue, so that at most one asynchronous write of
it is in flight. The message in flight stays at the front of the queue until its write
completes. A handler that is called may itself submit, attach and detach before it
returns; what is left to do below it is kept as a stack of frames, so that a run may
interleave the handlers' own actions with everything else. The event loop has one
thread: a completion is delivered while no handler runs.

Messages are numbered in the order of their submission, and a handler is known by its
message. A coroutine that finds no stream attached throws before it submits.
-/
namespace RithmicEngine

/-- What a handler is called with. -/
inductive WriteOutcome
  | ok
  | notConnected
  | failed (code : Int)
  deriving DecidableEq, Repr

/-- A submitted message, which stands for its handler as well. -/
structure WriteItem where
  id : Nat
  data : String
  deriving DecidableEq, Repr

/-- A write that was started on a stream. -/
structure AsyncWrite where
  stream : Nat
  item : WriteItem
  deriving DecidableEq, Repr

/-- What is left to do when the handler above returns. -/
inductive WriteFrame
  | refused
  | wrote (outcome : WriteOutcome)
  | failing (outcome : WriteOutcome) (afterWrite : Bool)
  deriving DecidableEq, Repr

/-- The queue, the writes that are in flight, and the handlers that are running. The
writes that were started and the handlers that were called are kept in order. -/
structure WsWriteQueue where
  ws : Option Nat := none
  busy : Bool := false
  q : List WriteItem := []
  inFlight : List AsyncWrite := []
  frames : List WriteFrame := []
  submitted : Nat := 0
  written : List AsyncWrite := []
  called : List (Nat × WriteOutcome) := []
  undefined : Bool := false
  deriving DecidableEq, Repr

inductive WriteStep
  | submit (data : String)
  | attach (stream : Nat)
  | detach
  | complete (place : Nat) (outcome : WriteOutcome)
  | handlerReturns
  deriving DecidableEq, Repr

namespace WsWriteQueue

/-- Call the handler of a message, with this left to do after it. -/
def call (item : WriteItem) (outcome : WriteOutcome) (frame : WriteFrame) (s : WsWriteQueue) :
    WsWriteQueue :=
  { s with called := s.called ++ [(item.id, outcome)], frames := frame :: s.frames }

/-- Start the write of the message at the front. -/
def pump (s : WsWriteQueue) : WsWriteQueue :=
  match s.ws, s.q with
  | some stream, item :: _ =>
    { s with
      busy := true
      inFlight := s.inFlight ++ [{ stream := stream, item := item }]
      written := s.written ++ [{ stream := stream, item := item }] }
  | _, _ => { s with busy := false }

/-- Fail the messages one after the other, until the queue is found empty. -/
def failAll (outcome : WriteOutcome) (afterWrite : Bool) (s : WsWriteQueue) : WsWriteQueue :=
  match s.q with
  | [] => if afterWrite then { s with busy := false } else s
  | item :: rest => call item outcome (.failing outcome afterWrite) { s with q := rest }

def submit (data : String) (s : WsWriteQueue) : WsWriteQueue :=
  let item : WriteItem := { id := s.submitted, data := data }
  let s := { s with submitted := s.submitted + 1 }
  match s.ws with
  | none => call item .notConnected .refused s
  | some _ =>
    let s := { s with q := s.q ++ [item] }
    if s.busy then s else pump s

def attach (stream : Nat) (s : WsWriteQueue) : WsWriteQueue := { s with ws := some stream }

def detach (s : WsWriteQueue) : WsWriteQueue := failAll .notConnected false { s with ws := none }

/-- The completion takes the front of the queue for the message that was written. The
front of an empty queue is undefined behaviour. -/
def finishWrite (outcome : WriteOutcome) (s : WsWriteQueue) : WsWriteQueue :=
  match s.q with
  | [] => { s with undefined := true }
  | item :: rest => call item outcome (.wrote outcome) { s with q := rest }

/-- The write whose completion can be delivered now. -/
def completing (place : Nat) (s : WsWriteQueue) : Option AsyncWrite :=
  if s.frames = [] then s.inFlight[place]? else none

def complete (place : Nat) (outcome : WriteOutcome) (s : WsWriteQueue) : WsWriteQueue :=
  match s.completing place with
  | none => s
  | some _ => finishWrite outcome { s with inFlight := s.inFlight.eraseIdx place }

/-- The running handler returns to what called it. -/
def handlerReturns (s : WsWriteQueue) : WsWriteQueue :=
  match s.frames with
  | [] => s
  | frame :: rest =>
    let s := { s with frames := rest }
    match frame with
    | .refused => s
    | .wrote .ok => pump s
    | .wrote outcome => failAll outcome true s
    | .failing outcome afterWrite => failAll outcome afterWrite s

/-- One step. After undefined behaviour nothing more is said. -/
def step (s : WsWriteQueue) (input : WriteStep) : WsWriteQueue :=
  if s.undefined then s else
  match input with
  | .submit data => submit data s
  | .attach stream => attach stream s
  | .detach => detach s
  | .complete place outcome => complete place outcome s
  | .handlerReturns => handlerReturns s

/-! ## What is asked of every run -/

/-- At most one write is in flight, messages are written in the order of their
submission, and no handler is called twice. -/
structure Orderly (s : WsWriteQueue) : Prop where
  single : s.inFlight.length ≤ 1
  order : (s.written.map (·.item.id)).Pairwise (· < ·)
  once : (s.called.map (·.1)).Nodup

/-- A completion finds the message that was written at the front of the queue, so that
its handler is the one that is called. -/
def Answers (s : WsWriteQueue) (input : WriteStep) : Prop :=
  ∀ place outcome, input = .complete place outcome →
    ∀ write, s.completing place = some write → s.q.head? = some write.item

/-- A step that delivers as the queue promises. -/
def Delivers (s : WsWriteQueue) (input : WriteStep) : Prop :=
  s.Answers input ∧ (s.step input).Orderly

/-- A write is in flight whose queue was detached since it was started. -/
def noteOrphan (orphaned : Bool) (s : WsWriteQueue) (input : WriteStep) (_ : WsWriteQueue) : Bool :=
  match input with
  | .detach => orphaned || !s.inFlight.isEmpty
  | .complete place _ => orphaned && (s.completing place).isNone
  | _ => orphaned

/-- No completion of an orphaned write is delivered. -/
def Unorphaned (pair : WsWriteQueue × Bool) (input : WriteStep) : Prop :=
  ∀ place outcome, input = .complete place outcome →
    (pair.1.completing place).isSome = true → pair.2 = false

/-- The queue is not detached while a write is in flight. -/
def DetachesIdle (s : WsWriteQueue) (input : WriteStep) : Prop :=
  input = .detach → s.inFlight = []

/-! ## The books: what is queued, written and answered -/

/-- The queue is in the order of submission, no queued message was answered, and every
message written before lies ahead of it or is the front in flight. -/
structure Books (s : WsWriteQueue) : Prop where
  sorted : (s.q.map (·.id)).Pairwise (· < ·)
  queued : ∀ item ∈ s.q, item.id < s.submitted ∧ item.id ∉ s.called.map (·.1)
  once : (s.called.map (·.1)).Nodup
  answered : ∀ id ∈ s.called.map (·.1), id < s.submitted
  order : (s.written.map (·.item.id)).Pairwise (· < ·)
  sent : ∀ write ∈ s.written, write.item.id < s.submitted
  ahead : ∀ write ∈ s.written, ∀ item ∈ s.q, write.item.id < item.id ∨
    ((∃ flying ∈ s.inFlight, flying.item = item) ∧ s.q.head? = some item)

variable {s s' : WsWriteQueue} {item : WriteItem} {orphaned : Bool} {rest : List WriteItem}
  (pair : WsWriteQueue × Bool)

/-- What is behind the front was submitted after it. -/
theorem Books.behind (books : Books s) (front : s.q = item :: rest) :
    ∀ later ∈ rest, item.id < later.id := by
  intro later inside
  have sorted := books.sorted
  rw [front, List.map_cons, List.pairwise_cons] at sorted
  exact sorted.1 later.id (List.mem_map_of_mem inside)

/-- The front is taken and its handler called. The writes in flight may change. -/
theorem Books.pop (books : Books s) {outcome : WriteOutcome} (front : s.q = item :: rest)
    (queue : s'.q = rest) (called : s'.called = s.called ++ [(item.id, outcome)])
    (submitted : s'.submitted = s.submitted) (written : s'.written = s.written) : Books s' := by
  have behind := books.behind front
  have inside (later : WriteItem) (tail : later ∈ rest) : later ∈ s.q := by
    rw [front]
    exact List.mem_cons_of_mem item tail
  have head : item ∈ s.q := by
    rw [front]
    exact List.mem_cons_self
  have names : s'.called.map (·.1) = s.called.map (·.1) ++ [item.id] := by
    rw [called, List.map_append]
    rfl
  constructor
  case sorted =>
    have sorted := books.sorted
    rw [front, List.map_cons, List.pairwise_cons] at sorted
    rw [queue]
    exact sorted.2
  case queued =>
    rw [queue, submitted, names]
    intro later tail
    obtain ⟨below, fresh⟩ := books.queued later (inside later tail)
    refine ⟨below, ?_⟩
    simp only [List.mem_append, List.mem_singleton, not_or]
    exact ⟨fresh, Nat.ne_of_gt (behind later tail)⟩
  case once =>
    rw [names, ← List.concat_eq_append]
    exact books.once.concat (books.queued item head).2
  case answered =>
    rw [names, submitted]
    intro id known
    rcases List.mem_append.mp known with known | known
    · exact books.answered id known
    · rw [List.mem_singleton.mp known]
      exact (books.queued item head).1
  case order =>
    rw [written]
    exact books.order
  case sent =>
    rw [written, submitted]
    exact books.sent
  case ahead =>
    rw [written, queue]
    intro write known later tail
    rcases books.ahead write known later (inside later tail) with below | ⟨-, isFront⟩
    · exact Or.inl below
    · -- The front itself is not among what is behind it.
      rw [front, List.head?_cons, Option.some.injEq] at isFront
      exact absurd (behind later tail) (by rw [isFront]; exact Nat.lt_irrefl _)

/-- A new message joins the end of the queue. -/
theorem Books.push (books : Books s) (new : item.id = s.submitted) (queue : s'.q = s.q ++ [item])
    (called : s'.called = s.called) (submitted : s'.submitted = s.submitted + 1)
    (written : s'.written = s.written) (inFlight : s'.inFlight = s.inFlight) : Books s' := by
  constructor
  case sorted =>
    rw [queue, List.map_append]
    refine List.pairwise_append.mpr ⟨books.sorted, List.pairwise_singleton _ _, ?_⟩
    intro id known other last
    rw [List.map_singleton, List.mem_singleton] at last
    obtain ⟨earlier, inside, rfl⟩ := List.mem_map.mp known
    rw [last, new]
    exact (books.queued earlier inside).1
  case queued =>
    rw [queue, called, submitted]
    intro other inside
    rcases List.mem_append.mp inside with inside | inside
    · obtain ⟨below, fresh⟩ := books.queued other inside
      exact ⟨Nat.lt_succ_of_lt below, fresh⟩
    · rw [List.mem_singleton.mp inside, new]
      exact ⟨Nat.lt_succ_self _, fun known => Nat.lt_irrefl _ (books.answered _ known)⟩
  case once =>
    rw [called]
    exact books.once
  case answered =>
    rw [called, submitted]
    intro id known
    exact Nat.lt_succ_of_lt (books.answered id known)
  case order =>
    rw [written]
    exact books.order
  case sent =>
    rw [written, submitted]
    intro write known
    exact Nat.lt_succ_of_lt (books.sent write known)
  case ahead =>
    rw [written, queue, inFlight]
    intro write known other inside
    rcases List.mem_append.mp inside with inside | inside
    · rcases books.ahead write known other inside with below | ⟨flying, isFront⟩
      · exact Or.inl below
      · refine Or.inr ⟨flying, ?_⟩
        rw [List.head?_append, isFront]
        rfl
    · left
      rw [List.mem_singleton.mp inside, new]
      exact books.sent write known

/-- A message is refused before it reaches the queue. -/
theorem Books.refuse (books : Books s) {outcome : WriteOutcome} (queue : s'.q = s.q)
    (called : s'.called = s.called ++ [(s.submitted, outcome)])
    (submitted : s'.submitted = s.submitted + 1) (written : s'.written = s.written)
    (inFlight : s'.inFlight = s.inFlight) : Books s' := by
  have names : s'.called.map (·.1) = s.called.map (·.1) ++ [s.submitted] := by
    rw [called, List.map_append]
    rfl
  constructor
  case sorted =>
    rw [queue]
    exact books.sorted
  case queued =>
    rw [queue, submitted, names]
    intro item inside
    obtain ⟨below, fresh⟩ := books.queued item inside
    refine ⟨Nat.lt_succ_of_lt below, ?_⟩
    simp only [List.mem_append, List.mem_singleton, not_or]
    exact ⟨fresh, Nat.ne_of_lt below⟩
  case once =>
    rw [names, ← List.concat_eq_append]
    exact books.once.concat fun known => Nat.lt_irrefl _ (books.answered _ known)
  case answered =>
    rw [names, submitted]
    intro id known
    rcases List.mem_append.mp known with known | known
    · exact Nat.lt_succ_of_lt (books.answered id known)
    · rw [List.mem_singleton.mp known]
      exact Nat.lt_succ_self _
  case order =>
    rw [written]
    exact books.order
  case sent =>
    rw [written, submitted]
    intro write known
    exact Nat.lt_succ_of_lt (books.sent write known)
  case ahead =>
    rw [written, queue, inFlight]
    exact books.ahead

/-- The write of the front is started while nothing is in flight. -/
theorem Books.start (books : Books s) {stream : Nat} (grounded : s.inFlight = [])
    (front : s.q = item :: rest) (queue : s'.q = s.q) (called : s'.called = s.called)
    (submitted : s'.submitted = s.submitted)
    (written : s'.written = s.written ++ [{ stream := stream, item := item }])
    (inFlight : s'.inFlight = [{ stream := stream, item := item }]) : Books s' := by
  have head : item ∈ s.q := by
    rw [front]
    exact List.mem_cons_self
  have earlier : ∀ write ∈ s.written, ∀ other ∈ s.q, write.item.id < other.id := by
    intro write known other inside
    rcases books.ahead write known other inside with below | ⟨⟨flying, up, -⟩, -⟩
    · exact below
    · rw [grounded] at up
      exact absurd up List.not_mem_nil
  constructor
  case sorted =>
    rw [queue]
    exact books.sorted
  case queued =>
    rw [queue, called, submitted]
    exact books.queued
  case once =>
    rw [called]
    exact books.once
  case answered =>
    rw [called, submitted]
    exact books.answered
  case order =>
    rw [written, List.map_append]
    refine List.pairwise_append.mpr ⟨books.order, List.pairwise_singleton _ _, ?_⟩
    intro id known other last
    rw [List.map_singleton, List.mem_singleton] at last
    obtain ⟨write, inside, rfl⟩ := List.mem_map.mp known
    rw [last]
    exact earlier write inside item head
  case sent =>
    rw [written, submitted]
    intro write known
    rcases List.mem_append.mp known with known | known
    · exact books.sent write known
    · rw [List.mem_singleton.mp known]
      exact (books.queued item head).1
  case ahead =>
    rw [written, queue, inFlight]
    intro write known other inside
    rcases List.mem_append.mp known with known | known
    · exact Or.inl (earlier write known other inside)
    · rw [List.mem_singleton.mp known]
      rw [front] at inside
      rcases List.mem_cons.mp inside with rfl | behind
      · refine Or.inr ⟨⟨_, List.mem_singleton_self _, rfl⟩, ?_⟩
        rw [front, List.head?_cons]
      · exact Or.inl (books.behind front other behind)

/-! ## The control: what is running -/

/-- The frame of a write's completion, which is the lowest one. -/
def closesWrite : WriteFrame → Bool
  | .refused => false
  | .wrote _ => true
  | .failing _ afterWrite => afterWrite

/-- The frame of a drain that goes on. -/
def draining : WriteFrame → Bool
  | .failing _ _ => true
  | _ => false

/-- Nothing but refused handlers is running. -/
def Calm (s : WsWriteQueue) : Prop := ∀ frame ∈ s.frames, frame = .refused

/-- An idle queue is empty with nothing in flight, and a completion is at work only at
the bottom of the stack. -/
structure Control (s : WsWriteQueue) : Prop where
  idle : s.busy = false → s.q = [] ∧ s.inFlight = [] ∧ s.Calm
  single : s.inFlight.length ≤ 1
  bottom : ∀ above frame rest, s.frames = above ++ frame :: rest → closesWrite frame = true →
    rest = [] ∧ s.inFlight = []

/-- Without a stream the queue is empty, or about to be emptied. -/
def Drains (s : WsWriteQueue) : Prop :=
  s.ws = none → s.q ≠ [] → ∃ frame ∈ s.frames, draining frame = true

theorem Control.busy_of_queued (control : Control s) (queued : s.q ≠ []) : s.busy = true := by
  by_contra still
  exact queued (control.idle (Bool.not_eq_true _ ▸ still)).1

/-- Among refused handlers no completion is at work. -/
theorem Calm.bottom (calm : s.Calm) (above : List WriteFrame) (frame : WriteFrame)
    (rest : List WriteFrame) (frames : s.frames = above ++ frame :: rest) :
    closesWrite frame = false := by
  have refused : frame = .refused := calm frame (by rw [frames]; simp)
  rw [refused]
  rfl

/-- A frame that closes no write may be put on top. -/
theorem Control.push (control : Control s) {frame : WriteFrame} (open_ : closesWrite frame = false)
    (frames : s'.frames = frame :: s.frames) (inFlight : s'.inFlight = s.inFlight)
    (idle : s'.busy = false → s'.q = [] ∧ s'.inFlight = [] ∧ s'.Calm) : Control s' := by
  refine ⟨idle, by rw [inFlight]; exact control.single, ?_⟩
  rw [frames, inFlight]
  rintro (_ | ⟨first, above⟩) closing rest split closes
  · obtain ⟨rfl, -⟩ : frame = closing ∧ s.frames = rest := by simpa using split
    rw [open_] at closes
    exact absurd closes Bool.false_ne_true
  · obtain ⟨-, below⟩ : frame = first ∧ s.frames = above ++ closing :: rest := by
      simpa using split
    exact control.bottom above closing rest below closes

/-- The frame on top may be taken off. -/
theorem Control.unwind (control : Control s) {frame : WriteFrame} {rest : List WriteFrame}
    (frames : s.frames = frame :: rest) : Control { s with frames := rest } := by
  refine ⟨?_, control.single, ?_⟩
  · intro still
    obtain ⟨empty, grounded, calm⟩ := control.idle still
    refine ⟨empty, grounded, ?_⟩
    intro other inside
    exact calm other (by rw [frames]; exact List.mem_cons_of_mem frame inside)
  · intro above closing below split closes
    have split : rest = above ++ closing :: below := split
    exact control.bottom (frame :: above) closing below (by rw [frames, split]; rfl) closes

/-! ## The operations -/

/-- What every reachable state has. -/
structure Sound (s : WsWriteQueue) : Prop extends Books s, Control s where
  drains : Drains s
  defined : s.undefined = false

theorem fresh_sound : Sound {} := by
  refine ⟨⟨?_, ?_, ?_, ?_, ?_, ?_, ?_⟩, ⟨?_, ?_, ?_⟩, ?_, rfl⟩
  all_goals simp [Calm, Drains]

theorem Sound.orderly (sound : Sound s) : s.Orderly where
  single := sound.single
  order := sound.order
  once := sound.once

/-- Starting the next write, if there is one. -/
theorem pump_sound (books : Books s) (grounded : s.inFlight = []) (calm : s.Calm)
    (empty : s.ws = none → s.q = []) (defined : s.undefined = false) : Sound (pump s) := by
  have stopped (queue : s.q = []) : Sound { s with busy := false } := by
    refine ⟨⟨books.sorted, books.queued, books.once, books.answered, books.order, books.sent,
      books.ahead⟩, ⟨fun _ => ⟨queue, grounded, calm⟩, ?_, ?_⟩, ?_, defined⟩
    · simp [grounded]
    · intro above frame rest frames closes
      rw [calm.bottom above frame rest frames] at closes
      exact absurd closes Bool.false_ne_true
    · exact fun _ queued => absurd queue queued
  rw [pump]
  split
  next stream item rest attached front =>
    refine ⟨books.start grounded front rfl rfl rfl rfl (by simp [grounded]),
      ⟨nofun, by simp [grounded], ?_⟩,
      ?_,
      defined⟩
    · intro above frame rest frames closes
      rw [calm.bottom above frame rest frames] at closes
      exact absurd closes Bool.false_ne_true
    · intro detached
      rw [show s.ws = some stream from attached] at detached
      exact absurd detached nofun
  next none_to_start =>
    refine stopped ?_
    cases queue : s.q with
    | nil => rfl
    | cons item rest =>
      cases attached : s.ws with
      | none => exact absurd (empty attached) (by simp [queue])
      | some stream => exact absurd queue (none_to_start stream item rest attached)

/-- A drain that is not the end of a completion. -/
theorem failAll_sound (books : Books s) (control : Control s) (defined : s.undefined = false)
    (outcome : WriteOutcome) : Sound (failAll outcome false s) := by
  rw [failAll]
  split
  next empty =>
    exact ⟨books, control, fun _ queued => absurd empty queued, defined⟩
  next item rest front =>
    have busy : s.busy = true := control.busy_of_queued (by simp [front])
    refine ⟨books.pop front rfl rfl rfl rfl, control.push rfl rfl rfl ?_, ?_, defined⟩
    · intro still
      exact absurd (show s.busy = false from still) (by simp [busy])
    · exact fun _ _ => ⟨_, List.mem_cons_self, rfl⟩

/-- The drain that ends the completion of a failed write. -/
theorem failAll_closing_sound (books : Books s) (grounded : s.inFlight = []) (bare : s.frames = [])
    (busy : s.busy = true) (defined : s.undefined = false) (outcome : WriteOutcome) :
    Sound (failAll outcome true s) := by
  rw [failAll]
  split
  next empty =>
    refine ⟨⟨books.sorted, books.queued, books.once, books.answered, books.order, books.sent,
      books.ahead⟩, ⟨fun _ => ⟨empty, grounded, ?_⟩, ?_, ?_⟩, ?_, defined⟩
    · simp [Calm, bare]
    · simp [grounded]
    · simp [bare]
    · exact fun _ queued => absurd empty queued
  next item rest front =>
    refine ⟨books.pop front rfl rfl rfl rfl, ⟨?_, ?_, ?_⟩, ?_, defined⟩
    · intro still
      exact absurd (show s.busy = false from still) (by simp [busy])
    · simp [call, grounded]
    · intro above frame below frames _
      obtain ⟨-, -, rfl⟩ : above = [] ∧ _ ∧ below = [] := by
        simpa [call, bare, List.singleton_eq_append_iff, List.cons_eq_append_iff] using frames
      exact ⟨rfl, grounded⟩
    · exact fun _ _ => ⟨_, List.mem_cons_self, rfl⟩

/-- Submitting a message keeps a sound state sound: it queues, or starts the write. -/
theorem submit_sound (sound : Sound s) (data : String) : Sound (submit data s) := by
  simp only [submit]
  split
  next detached =>
    refine ⟨sound.toBooks.refuse rfl rfl rfl rfl rfl, sound.toControl.push rfl rfl rfl ?_, ?_,
      sound.defined⟩
    · intro still
      obtain ⟨empty, grounded, calm⟩ := sound.idle still
      refine ⟨empty, grounded, ?_⟩
      rintro frame (_ | ⟨_, inside⟩)
      · rfl
      · exact calm frame inside
    · intro _ queued
      obtain ⟨frame, inside, drains⟩ := sound.drains detached queued
      exact ⟨frame, List.mem_cons_of_mem _ inside, drains⟩
  next stream attached =>
    have pushed : Books { s with
        submitted := s.submitted + 1
        q := s.q ++ [{ id := s.submitted, data := data }] } :=
      sound.toBooks.push rfl rfl rfl rfl rfl rfl
    split
    next busy =>
      refine ⟨pushed, ⟨?_, sound.single, sound.bottom⟩, ?_, sound.defined⟩
      · intro still
        exact absurd (show s.busy = false from still) (by simp [busy])
      · intro detached
        rw [show s.ws = none from detached] at attached
        exact absurd attached nofun
    next still =>
      obtain ⟨-, grounded, calm⟩ := sound.idle (Bool.not_eq_true _ ▸ still)
      refine pump_sound pushed grounded calm ?_ sound.defined
      intro detached
      rw [show s.ws = none from detached] at attached
      exact absurd attached nofun

theorem detach_sound (sound : Sound s) : Sound (detach s) := by
  have books : Books { s with ws := none } := by
    exact ⟨sound.sorted, sound.queued, sound.once, sound.answered, sound.order, sound.sent,
      sound.ahead⟩
  have control : Control { s with ws := none } := ⟨sound.idle, sound.single, sound.bottom⟩
  exact failAll_sound books control sound.defined .notConnected

theorem attach_sound (sound : Sound s) (stream : Nat) : Sound (attach stream s) := by
  refine ⟨⟨sound.sorted, sound.queued, sound.once, sound.answered, sound.order, sound.sent,
      sound.ahead⟩, ⟨sound.idle, sound.single, sound.bottom⟩, ?_, sound.defined⟩
  exact fun detached => absurd detached nofun

/-- A completion that finds a message in the queue. -/
theorem finishWrite_sound (sound : Sound s) (bare : s.frames = []) (queued : s.q ≠ [])
    (outcome : WriteOutcome) : Sound (finishWrite outcome { s with inFlight := [] }) := by
  have busy : s.busy = true := sound.busy_of_queued queued
  simp only [finishWrite]
  split
  next empty => exact absurd empty queued
  next item rest front =>
    refine ⟨sound.toBooks.pop front rfl rfl rfl rfl, ⟨?_, ?_, ?_⟩, ?_, sound.defined⟩
    · intro still
      exact absurd (show s.busy = false from still) (by simp [busy])
    · exact Nat.zero_le _
    · intro above frame below frames _
      obtain ⟨-, -, rfl⟩ : above = [] ∧ _ ∧ below = [] := by
        simpa [call, bare, List.singleton_eq_append_iff, List.cons_eq_append_iff] using frames
      exact ⟨rfl, rfl⟩
    · intro detached _
      obtain ⟨frame, inside, -⟩ := sound.drains detached queued
      rw [bare] at inside
      exact absurd inside List.not_mem_nil

/-- A handler's return keeps a sound state sound: it starts the next write, or closes a failed
socket. -/
theorem handlerReturns_sound (sound : Sound s) : Sound (handlerReturns s) := by
  rw [handlerReturns]
  split
  next => exact sound
  next frame rest frames =>
    have books : Books { s with frames := rest } :=
      ⟨sound.sorted, sound.queued, sound.once, sound.answered, sound.order, sound.sent,
        sound.ahead⟩
    have control := sound.toControl.unwind frames
    -- Below the frame of a completion there is nothing.
    have closed (closes : closesWrite frame = true) :
        rest = [] ∧ s.inFlight = [] ∧ s.busy = true := by
      obtain ⟨bare, grounded⟩ := sound.bottom [] frame rest frames closes
      refine ⟨bare, grounded, ?_⟩
      by_contra still
      obtain ⟨-, -, calm⟩ := sound.idle (Bool.not_eq_true _ ▸ still)
      rw [calm.bottom [] frame rest frames] at closes
      exact absurd closes Bool.false_ne_true
    cases frame with
    | refused =>
      refine ⟨books, control, ?_, sound.defined⟩
      intro detached queued
      obtain ⟨frame, inside, drains⟩ := sound.drains detached queued
      rw [frames] at inside
      rcases List.mem_cons.mp inside with rfl | inside
      · exact absurd drains Bool.false_ne_true
      · exact ⟨frame, inside, drains⟩
    | failing outcome afterWrite =>
      cases afterWrite with
      | false => exact failAll_sound books control sound.defined outcome
      | true =>
        obtain ⟨bare, grounded, busy⟩ := closed rfl
        exact failAll_closing_sound books grounded bare busy sound.defined outcome
    | wrote outcome =>
      obtain ⟨bare, grounded, busy⟩ := closed rfl
      have emptied (detached : s.ws = none) : s.q = [] := by
        by_contra queued
        obtain ⟨frame, inside, drains⟩ := sound.drains detached queued
        rw [frames, bare, List.mem_singleton] at inside
        rw [inside] at drains
        exact absurd drains Bool.false_ne_true
      cases outcome with
      | ok =>
        refine pump_sound books grounded ?_ emptied sound.defined
        intro frame inside
        rw [bare] at inside
        exact absurd inside List.not_mem_nil
      | notConnected => exact failAll_closing_sound books grounded bare busy sound.defined _
      | failed code => exact failAll_closing_sound books grounded bare busy sound.defined _

/-! ## The write in flight -/

/-- Where the write in flight is in the queue: at the front, as long as the queue was
not detached since it was started, and nowhere afterwards. -/
structure Tracks (s : WsWriteQueue) (orphaned : Bool) : Prop where
  started : ∀ write ∈ s.inFlight, write ∈ s.written
  front : orphaned = false → ∀ write ∈ s.inFlight, s.q.head? = some write.item ∧ s.Calm
  gone : orphaned = true → s.inFlight ≠ [] ∧ ∀ write ∈ s.inFlight, write.item ∉ s.q

theorem Tracks.of_grounded (grounded : s.inFlight = []) : Tracks s false := by
  refine ⟨?_, fun _ => ?_, nofun⟩
  · simp [grounded]
  · simp [grounded]

/-- With nothing in flight there is no orphan. -/
theorem Tracks.grounded (tracks : Tracks s orphaned) (grounded : s.inFlight = []) :
    orphaned = false := by
  cases orphaned with
  | false => rfl
  | true => exact absurd grounded (tracks.gone rfl).1

/-- A write that starts is of the front. -/
theorem pump_tracks (grounded : s.inFlight = []) (calm : s.Calm) : Tracks (pump s) false := by
  rw [pump]
  split
  next stream item rest attached front =>
    refine ⟨?_, fun _ => ?_, nofun⟩
    · simp [grounded]
    · simp only [grounded, List.nil_append, List.mem_singleton, forall_eq, front, List.head?_cons,
        true_and]
      exact calm
  next => exact Tracks.of_grounded grounded

/-- It keeps track of the write in flight. -/
theorem submit_tracks (sound : Sound s) (tracks : Tracks s orphaned) (data : String) :
    Tracks (submit data s) orphaned := by
  simp only [submit]
  split
  next detached =>
    refine ⟨tracks.started, ?_, tracks.gone⟩
    intro owned write flying
    obtain ⟨front, calm⟩ := tracks.front owned write flying
    refine ⟨front, ?_⟩
    rintro frame (_ | ⟨_, inside⟩)
    · rfl
    · exact calm frame inside
  next stream attached =>
    split
    next busy =>
      refine ⟨tracks.started, ?_, ?_⟩
      · intro owned write flying
        obtain ⟨front, calm⟩ := tracks.front owned write flying
        refine ⟨?_, calm⟩
        rw [List.head?_append, front]
        rfl
      · intro lost
        obtain ⟨flies, gone⟩ := tracks.gone lost
        refine ⟨flies, ?_⟩
        intro write flying inside
        rcases List.mem_append.mp inside with inside | inside
        · exact gone write flying inside
        · -- The new message was submitted after the one in flight.
          have below := sound.sent write (tracks.started write flying)
          rw [List.mem_singleton.mp inside] at below
          exact Nat.lt_irrefl _ below
    next still =>
      obtain ⟨-, grounded, calm⟩ := sound.idle (Bool.not_eq_true _ ▸ still)
      rw [tracks.grounded grounded]
      exact pump_tracks grounded calm

/-- A drain takes the message in flight from the queue, if it is still there. -/
theorem failAll_tracks (sorted : ∀ item rest, s.q = item :: rest → item ∉ rest)
    (started : ∀ write ∈ s.inFlight, write ∈ s.written)
    (placed : ∀ write ∈ s.inFlight, s.q.head? = some write.item ∨ write.item ∉ s.q)
    (flies : s.inFlight ≠ []) (outcome : WriteOutcome) : Tracks (failAll outcome false s) true := by
  rw [failAll]
  split
  next empty =>
    refine ⟨started, nofun, fun _ => ⟨flies, ?_⟩⟩
    intro write flying
    simp [empty]
  next item rest front =>
    refine ⟨started, nofun, fun _ => ⟨flies, ?_⟩⟩
    intro write flying inside
    rcases placed write flying with isFront | gone
    · rw [front, List.head?_cons, Option.some.injEq] at isFront
      rw [← isFront] at inside
      exact sorted item rest front inside
    · exact gone (by rw [front]; exact List.mem_cons_of_mem item inside)

/-- Detaching orphans what is in flight. -/
theorem detach_tracks (sound : Sound s) (tracks : Tracks s orphaned) :
    Tracks (detach s) (orphaned || !s.inFlight.isEmpty) := by
  by_cases grounded : s.inFlight = []
  · rw [tracks.grounded grounded]
    simp only [grounded, List.isEmpty_nil, Bool.not_true, Bool.or_self]
    refine Tracks.of_grounded ?_
    simp only [detach, failAll]
    split
    · exact grounded
    · exact grounded
  · have lost : (orphaned || !s.inFlight.isEmpty) = true := by
      simp [grounded]
    rw [lost]
    clear lost
    have tail : Tracks (failAll .notConnected false { s with ws := none }) true := by
      refine failAll_tracks (s := { s with ws := none }) ?_ tracks.started ?_ grounded .notConnected
      · intro item rest front inside
        exact Nat.lt_irrefl _ (sound.behind front item inside)
      · intro write flying
        cases orphaned with
        | false => exact Or.inl (tracks.front rfl write flying).1
        | true => exact Or.inr ((tracks.gone rfl).2 write flying)
    exact tail

/-- It also keeps track of where the write in flight is. -/
theorem handlerReturns_tracks (sound : Sound s) (tracks : Tracks s orphaned) :
    Tracks (handlerReturns s) orphaned := by
  rw [handlerReturns]
  split
  next => exact tracks
  next frame rest frames =>
    have returned : Tracks { s with frames := rest } orphaned := by
      refine ⟨tracks.started, ?_, tracks.gone⟩
      intro owned write flying
      obtain ⟨front, calm⟩ := tracks.front owned write flying
      refine ⟨front, ?_⟩
      exact fun frame inside => calm frame (by rw [frames]; exact List.mem_cons_of_mem _ inside)
    have closed (closes : closesWrite frame = true) (outcome : WriteOutcome) :
        Tracks (failAll outcome true { s with frames := rest }) orphaned := by
      obtain ⟨-, grounded⟩ := sound.bottom [] frame rest frames closes
      rw [tracks.grounded grounded]
      refine Tracks.of_grounded ?_
      rw [failAll]
      split
      · exact grounded
      · exact grounded
    cases frame with
    | refused => exact returned
    | failing outcome afterWrite =>
      cases afterWrite with
      | true => exact closed rfl outcome
      | false =>
        by_cases grounded : s.inFlight = []
        · rw [tracks.grounded grounded]
          refine Tracks.of_grounded ?_
          simp only [failAll]
          split
          · exact grounded
          · exact grounded
        · cases orphaned with
          | false =>
            -- A drain is at work, so the write in flight was orphaned by it.
            obtain ⟨write, flying⟩ := List.exists_mem_of_ne_nil _ grounded
            obtain ⟨-, calm⟩ := tracks.front rfl write flying
            have refused := calm (.failing outcome false) (by rw [frames]; exact List.mem_cons_self)
            exact absurd refused (by simp)
          | true =>
            have tail : Tracks (failAll outcome false { s with frames := rest }) true := by
              refine failAll_tracks (s := { s with frames := rest }) ?_ tracks.started ?_ grounded
                outcome
              · intro item rest front inside
                exact Nat.lt_irrefl _ (sound.behind front item inside)
              · exact fun write flying => Or.inr ((tracks.gone rfl).2 write flying)
            exact tail
    | wrote outcome =>
      cases outcome with
      | ok =>
        obtain ⟨bare, grounded⟩ := sound.bottom [] _ rest frames rfl
        rw [tracks.grounded grounded]
        refine pump_tracks grounded ?_
        intro frame inside
        rw [bare] at inside
        exact absurd inside List.not_mem_nil
      | notConnected => exact closed rfl .notConnected
      | failed code => exact closed rfl (.failed code)

/-! ## Runs -/

/-- The write whose completion is delivered is the only one in flight. -/
theorem Sound.completing (sound : Sound s) {place : Nat} {write : AsyncWrite}
    (delivered : s.completing place = some write) :
    s.frames = [] ∧ s.inFlight = [write] ∧ place = 0 := by
  rw [WsWriteQueue.completing] at delivered
  split at delivered
  next bare =>
    obtain ⟨within, is⟩ := List.getElem?_eq_some_iff.mp delivered
    have single := sound.single
    obtain ⟨only, isOnly⟩ := List.length_eq_one_iff.mp
      (Nat.le_antisymm single (Nat.succ_le_of_lt (Nat.zero_lt_of_lt within)))
    have first : place = 0 := by omega
    subst first
    refine ⟨bare, ?_, rfl⟩
    rw [← is]
    simp [isOnly]
  next => exact absurd delivered nofun

/-- A sound state and what is known of its write in flight. -/
def Followed (pair : WsWriteQueue × Bool) : Prop := Sound pair.1 ∧ Tracks pair.1 pair.2

/-- A completion is answered by the handler of its own message exactly when the write
was not orphaned. -/
theorem answers_iff (followed : Followed pair) (input : WriteStep) :
    pair.1.Answers input ↔ Unorphaned pair input := by
  obtain ⟨sound, tracks⟩ := followed
  constructor
  · intro answers place outcome same delivered
    obtain ⟨write, delivered⟩ := Option.isSome_iff_exists.mp delivered
    obtain ⟨-, flying, -⟩ := sound.completing delivered
    have front := answers place outcome same write delivered
    by_contra lost
    obtain ⟨-, gone⟩ := tracks.gone (by simpa using lost)
    refine gone write (by rw [flying]; exact List.mem_singleton_self _) ?_
    exact List.mem_of_head? front
  · intro unorphaned place outcome same write delivered
    have owned := unorphaned place outcome same (by rw [delivered]; rfl)
    obtain ⟨-, flying, -⟩ := sound.completing delivered
    exact (tracks.front owned write (by rw [flying]; exact List.mem_singleton_self _)).1

/-- A step whose completion is not an orphan's keeps the state sound and its write tracked. -/
theorem followed_step (followed : Followed pair) (input : WriteStep)
    (unorphaned : Unorphaned pair input) : Followed (Runs.observe step noteOrphan pair input) := by
  have exact_ := (answers_iff pair followed input).mpr unorphaned
  obtain ⟨s, orphaned⟩ := pair
  obtain ⟨sound, tracks⟩ : Sound s ∧ Tracks s orphaned := followed
  have defined := sound.defined
  simp only [Runs.observe, step, defined, Bool.false_eq_true, ↓reduceIte]
  cases input with
  | submit data => exact ⟨submit_sound sound data, submit_tracks sound tracks data⟩
  | attach stream =>
    exact ⟨attach_sound sound stream, ⟨tracks.started, tracks.front, tracks.gone⟩⟩
  | detach => exact ⟨detach_sound sound, detach_tracks sound tracks⟩
  | handlerReturns => exact ⟨handlerReturns_sound sound, handlerReturns_tracks sound tracks⟩
  | complete place outcome =>
    simp only [complete, noteOrphan]
    cases delivered : s.completing place with
    | none =>
      simp only [Option.isNone_none, Bool.and_true]
      exact ⟨sound, tracks⟩
    | some write =>
      simp only [Option.isNone_some, Bool.and_false]
      have front : s.q.head? = some write.item := exact_ place outcome rfl write delivered
      obtain ⟨bare, flying, rfl⟩ := sound.completing delivered
      have landed : s.inFlight.eraseIdx 0 = [] := by rw [flying]; rfl
      have queued : s.q ≠ [] := by
        intro empty
        rw [empty] at front
        exact absurd front nofun
      rw [landed]
      refine ⟨finishWrite_sound sound bare queued outcome, Tracks.of_grounded ?_⟩
      simp only [finishWrite]
      split
      · rfl
      · rfl

/-- The fresh queue, with nothing in flight. -/
theorem fresh_followed : Followed ({}, false) := ⟨fresh_sound, Tracks.of_grounded rfl⟩

/-- A step delivers as promised exactly when it completes no orphaned write. -/
theorem delivers_step_iff (input : WriteStep) (followed : Followed pair) :
    Delivers pair.1 input ↔ Unorphaned pair input := by
  constructor
  · rintro ⟨answers, -⟩
    exact (answers_iff pair followed input).mp answers
  · intro unorphaned
    have after := (followed_step pair followed input unorphaned).1
    exact ⟨(answers_iff pair followed input).mpr unorphaned, Sound.orderly after⟩

/-- Without a detach during a write there is never an orphan. -/
theorem unorphaned_of_detachesIdle (inputs : List WriteStep)
    (idle : Runs.Along step DetachesIdle {} inputs) :
    Runs.Along (Runs.observe step noteOrphan) Unorphaned ({}, false) inputs := by
  have owned (pair : WsWriteQueue × Bool) (input : WriteStep) (still : pair.2 = false)
      (_ : DetachesIdle pair.1 input) : Unorphaned pair input :=
    fun _ _ _ _ => still
  have keeps (pair : WsWriteQueue × Bool) (input : WriteStep) (still : pair.2 = false)
      (detaches : DetachesIdle pair.1 input) :
      (Runs.observe step noteOrphan pair input).2 = false := by
    simp only [Runs.observe, still]
    cases input with
    | submit data => rfl
    | attach stream => rfl
    | detach => simp [noteOrphan, detaches rfl]
    | complete place outcome => rfl
    | handlerReturns => rfl
  exact Runs.along_of_invariant (Runs.observe step noteOrphan) (fun pair => pair.2 = false)
    owned keeps ({}, false) inputs rfl
    ((Runs.along_observe_iff step noteOrphan DetachesIdle _ _).mpr idle)

/-- In every run the queue delivers as it promises at each step exactly when no
completion of a write arrives whose queue was detached since it was started. It does so
in particular in every run that never detaches the queue while a write is in flight. -/
theorem delivers_iff (inputs : List WriteStep) :
    (Runs.Along step Delivers {} inputs ↔
        Runs.Along (Runs.observe step noteOrphan) Unorphaned ({}, false) inputs) ∧
      (Runs.Along step DetachesIdle {} inputs → Runs.Along step Delivers {} inputs) := by
  have exactly : Runs.Along step Delivers {} inputs ↔
      Runs.Along (Runs.observe step noteOrphan) Unorphaned ({}, false) inputs := by
    rw [← Runs.along_observe_iff step noteOrphan Delivers ({}, false) inputs]
    refine Runs.along_iff_of_invariant (Runs.observe step noteOrphan) Followed ?_ ?_ _ inputs
      fresh_followed
    · exact fun pair input followed => delivers_step_iff pair input followed
    · exact fun pair input followed unorphaned => followed_step pair followed input unorphaned
  refine ⟨exactly, ?_⟩
  intro idle
  exact exactly.mpr (unorphaned_of_detachesIdle inputs idle)

/-- A stream is torn down with a write outstanding. The outcome of the old write then
goes to the handler of a message that was never written, or finds the queue empty. -/
theorem orphaned_write_misanswered :
    ¬Runs.Along step Delivers {}
        [.attach 1, .submit "heartbeat", .detach, .handlerReturns, .complete 0 (.failed 995)] ∧
      (Runs.run step {} [.attach 1, .submit "heartbeat", .detach, .handlerReturns,
        .complete 0 (.failed 995)]).undefined = true ∧
      (Runs.run step {} [.attach 1, .submit "heartbeat", .detach, .handlerReturns,
        .attach 2, .submit "login", .complete 0 .ok]).called =
          [(0, .notConnected), (1, .ok)] ∧
      (Runs.run step {} [.attach 1, .submit "heartbeat", .detach, .handlerReturns,
        .attach 2, .submit "login", .complete 0 .ok]).written.map (·.item.id) = [0] := by
  refine ⟨?_, by decide, by decide, by decide⟩
  rintro ⟨-, -, -, -, ⟨answers, -⟩, -⟩
  have front := answers 0 (.failed 995) rfl
    { stream := 1, item := { id := 0, data := "heartbeat" } } (by decide)
  exact absurd front (by decide)

end WsWriteQueue

end RithmicEngine
