import RithmicEngine.Collector.TickReader
/-!
# From the receiver to the reader

A received trade goes through the log into the ticks table, and from there in pages to the
reader of its symbol, while the writer's flushes and the reader's polls come in any order. Where
the conditions of both halves hold, no trade is lost, repeated or put out of order on the way.
-/
namespace RithmicEngine

open Runs TickTable TickStore

/-- The writer's log and table, and a reader of one symbol. -/
structure TickPipeline where
  store : TickStore := {}
  reader : PagedReader TickEntry ℤ

inductive PipelineStep
  | flush (taken : TickFlush)
  | poll

namespace TickPipeline

def initial (start : ℤ) : TickPipeline where
  reader := { watermark := start }

def flushes (steps : List PipelineStep) : List TickFlush :=
  steps.filterMap fun
    | .flush taken => some taken
    | .poll => none

/-- What the reader's side is of it. -/
def feed (line : TickPipeline) : TickFeed := ⟨line.store.table, line.reader⟩

/-- What the reader's side is of a step: a flush writes the pending rows again. -/
def seen (line : TickPipeline) : PipelineStep → FeedStep
  | .flush taken => .commit (line.store.pending ++ taken.batch)
  | .poll => .poll

section Runs

variable (symbol : String) (limit : Nat) (start : ℤ)

def step (line : TickPipeline) : PipelineStep → TickPipeline
  | .flush taken => { line with store := line.store.flush taken }
  | .poll =>
    { line with reader := tickOrder.poll limit (line.store.table.rowsOf symbol) line.reader }

/-- The conditions of the reader's side. -/
def Guards (line : TickPipeline) (event : PipelineStep) : Prop :=
  line.feed.Guards symbol limit start (line.seen event)
deriving Decidable

/-- The reader's side takes the steps of a feed. -/
theorem step_feed (line : TickPipeline) (event : PipelineStep) :
    (line.step symbol limit event).feed = line.feed.step symbol limit (line.seen event) := by
  cases event with
  | flush taken => rfl
  | poll => rfl

/-- The writer's side does not see the polls. -/
theorem run_store (line : TickPipeline) (steps : List PipelineStep) :
    (run (step symbol limit) line steps).store =
      run TickStore.flush line.store (flushes steps) := by
  induction steps generalizing line with
  | nil => rfl
  | cons event rest ih =>
    rw [run_cons, ih]
    cases event with
    | flush taken => rfl
    | poll => rfl

/-- What the reader has passed is delivered. -/
def Covers (feed : TickFeed) : Prop :=
  tickOrder.Covers start limit (feed.table.rowsOf symbol) feed.reader

variable {symbol limit start}

/-- A step under the guards keeps the reader covering its table. -/
theorem Covers.step {feed : TickFeed} {event : FeedStep} (covers : Covers symbol limit start feed)
    (guards : feed.Guards symbol limit start event) :
    Covers symbol limit start (feed.step symbol limit event) := by
  cases event with
  | commit batch =>
    obtain ⟨added, grown⟩ := TickTable.rowsOf_write symbol feed.table batch
    simp only [Covers, TickFeed.step, grown]
    exact tickOrder.covers_append covers ((TickFeed.guards_commit grown).mp guards)
  | poll => exact tickOrder.covers_poll covers guards

end Runs

/-- The table holds the prints of the stream. -/
theorem stored_prints (taken : List TickFlush) (exact : Exact (received taken))
    (apart : Apart (groups [] taken)) :
    (run TickStore.flush {} taken).table.prints =
      ((received taken).map TickRow.print : List Print) := by
  ext p
  have none : occurrences p [] = 0 := rfl
  have all := sum_groups [] taken p
  rw [none, Nat.zero_add, ← (peak_eq_sum_iff _).mpr ((apart_iff _).mp apart p)] at all
  rw [Multiset.coe_count]
  refine (count_prints _ p _ fun n => ?_).trans all
  rw [lt_peak, mem_run {} taken p n (fun _ inside => absurd inside List.not_mem_nil) exact
    fun low => absurd low (Nat.not_lt_zero n)]
  simp only [List.mem_map, exists_exists_and_eq_and]
  exact or_iff_right (AList.notMem_empty _)

theorem rowsOf_prints (symbol : String) (table : TickTable) :
    (table.rowsOf symbol).map (fun row => row.1.1) =
      (table.keys.map Prod.fst).filter fun p => p.symbol = symbol := by
  simp only [rowsOf, AList.keys, List.keys, List.filter_map, List.map_map]
  rfl

/-- Over every order of flushes and polls, with failed commits whose rows are written again: once
a poll returns nothing, the reader has been given every trade of its symbol that was received
after its start, each as often as it was received, in the order of the table. -/
theorem trades_delivered (symbol : String) (limit : Nat) (start : ℤ) (steps : List PipelineStep)
    (exact : Exact (received (flushes steps))) (apart : Apart (groups [] (flushes steps)))
    (guards : Along (step symbol limit) (Guards symbol limit start) (initial start) steps)
    (quiet : (run (step symbol limit) (initial start) steps).feed.Quiet symbol limit) :
    let given := (run (step symbol limit) (initial start) steps).reader.delivered
    (given.map fun row => row.1.1).Perm
        (((received (flushes steps)).map TickRow.print).filter fun p =>
          p.symbol = symbol ∧ start < p.ts.toInt) ∧
      given.Pairwise tickOrder.Le := by
  have covers := run_invariant (step symbol limit) (fun line => Covers symbol limit start line.feed)
    (Guards symbol limit start)
    (fun line event kept here => by
      rw [step_feed]
      exact kept.step here)
    (initial start) steps ⟨le_refl start, .refl [], .nil⟩ guards
  have stored := stored_prints (flushes steps) exact apart
  have written := run_store symbol limit (initial start) steps
  generalize run (step symbol limit) (initial start) steps = line at covers quiet written ⊢
  obtain ⟨once, ordered⟩ := tickOrder.complete_of_covers covers quiet
  refine ⟨(once.map _).trans ?_, ordered⟩
  have late : (line.feed.table.rowsOf symbol).filter (fun row => start < tickOrder.stamp row) =
      (line.feed.table.rowsOf symbol).filter
        ((fun p : Print => decide (start < p.ts.toInt)) ∘ fun row => row.1.1) := rfl
  rw [late, ← List.filter_map, rowsOf_prints, List.filter_filter]
  have same : (line.feed.table.keys.map Prod.fst).Perm
      ((received (flushes steps)).map TickRow.print) := by
    rw [← Multiset.coe_eq_coe, ← stored]
    exact congrArg TickTable.prints (congrArg TickStore.table written)
  refine (same.filter _).trans (.of_eq ?_)
  congr 1
  funext p
  rw [Bool.and_comm, ← Bool.decide_and]

/-- Two equal trades are written twice, and a later one is read after them. -/
def rewritten : List PipelineStep :=
  [.flush ⟨[TickFeed.oneLot 10 100, TickFeed.oneLot 10 100], false⟩, .poll,
    .flush ⟨[TickFeed.oneLot 20 101], true⟩, .poll]

/-- A batch that is written twice is delivered once. -/
theorem trades_delivered_rewritten :
    let given := (run (step "NQ" 3) (initial 0) rewritten).reader.delivered
    (given.map fun row => row.1.1).Perm
        (((received (flushes rewritten)).map TickRow.print).filter fun p =>
          p.symbol = "NQ" ∧ 0 < p.ts.toInt) ∧
      given.Pairwise tickOrder.Le :=
  trades_delivered "NQ" 3 0 rewritten (by decide +kernel) (by decide +kernel) (by decide +kernel)
    (by decide +kernel)

end TickPipeline

end RithmicEngine
