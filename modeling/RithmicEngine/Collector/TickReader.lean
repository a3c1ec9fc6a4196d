import Mathlib.Data.Prod.Lex
import RithmicEngine.Base.PagedReader
import RithmicEngine.Collector.TickTable
/-!
# Polling the ticks table

The executor and the paper engine read the ticks of a symbol from the table while the
collector writes to it. A poll asks for the rows above the watermark, a page at most, in
the order of time, rank, price and size; the watermark is the time of the last row
processed, in microseconds. A commit writes a batch, and its rows are visible from then
on.
-/
namespace RithmicEngine

/-- A row of the table. -/
abbrev TickEntry := TickKey × Bool

namespace TickEntry

def tsUs (row : TickEntry) : ℤ := row.1.1.ts.toInt

end TickEntry

/-- The order of the rows, and the watermark they leave. -/
def tickOrder : RowOrder TickEntry (ℤ ×ₗ ℕ ×ₗ ℚ ×ₗ ℤ) ℤ where
  key row :=
    toLex (row.tsUs, toLex (row.1.2, toLex (row.1.1.price, row.1.1.size.toInt)))
  stamp := TickEntry.tsUs
  stamp_le_stamp first second le := by
    rcases (Prod.Lex.toLex_le_toLex).mp le with earlier | ⟨same, -⟩
    · exact earlier.le
    · exact same.le

namespace TickTable

/-- The rows of a symbol. -/
def rowsOf (symbol : String) (table : TickTable) : List TickEntry :=
  (table.entries.map (fun row => (row.1, row.2))).filter (fun row =>
    decide (row.1.1.symbol = symbol))

variable (symbol : String) (table : TickTable)

theorem rowsOf_nodup : (table.rowsOf symbol).Nodup := by
  have keys : ((table.entries.map (fun row => (row.1, row.2))).map Prod.fst).Nodup := by
    rw [List.map_map]
    exact table.keys_nodup
  exact (List.Nodup.of_map Prod.fst keys).filter _

/-- A row inserted is put before the others, or left out. -/
theorem rowsOf_insertTick (ranked : TickRow × Nat) :
    ∃ added, (table.insertTick ranked).rowsOf symbol = added ++ table.rowsOf symbol := by
  simp only [insertTick]
  split
  next present => exact ⟨[], rfl⟩
  next absent =>
    simp only [rowsOf, Table.insert, AList.entries_insert_of_notMem absent, List.map_cons,
      List.filter_cons]
    split
    · exact ⟨[_], rfl⟩
    · exact ⟨[], rfl⟩

/-- A write call adds rows before the others. -/
theorem rowsOf_write (rows : List TickRow) :
    ∃ added, (table.write rows).rowsOf symbol = added ++ table.rowsOf symbol := by
  rw [write]
  generalize rankRows ∅ rows = ranked
  induction ranked generalizing table with
  | nil => exact ⟨[], rfl⟩
  | cons row rest ih =>
    obtain ⟨late, grown⟩ := ih (table.insertTick row)
    obtain ⟨early, inserted⟩ := rowsOf_insertTick symbol table row
    refine ⟨late ++ early, ?_⟩
    rw [List.foldl_cons, grown, inserted, List.append_assoc]

end TickTable

/-- The table and a reader of one symbol. -/
structure TickFeed where
  table : TickTable := ∅
  reader : PagedReader TickEntry ℤ

inductive FeedStep
  | commit (batch : List TickRow)
  | poll

namespace TickFeed

def step (symbol : String) (limit : Nat) (feed : TickFeed) : FeedStep → TickFeed
  | .commit batch => { feed with table := feed.table.write batch }
  | .poll => { feed with reader := tickOrder.poll limit (feed.table.rowsOf symbol) feed.reader }

/-- An empty table and a reader that starts at a watermark. -/
def initial (start : ℤ) : TickFeed where
  reader := { watermark := start }

/-- The next poll returns nothing. -/
def Quiet (symbol : String) (limit : Nat) (feed : TickFeed) : Prop :=
  tickOrder.page limit feed.reader.watermark (feed.table.rowsOf symbol) = []
deriving Decidable

/-- Every row since the start of the reader is delivered once and in order. -/
def Delivered (symbol : String) (start : ℤ) (feed : TickFeed) : Prop :=
  tickOrder.Complete start (feed.table.rowsOf symbol) feed.reader
deriving Decidable

/-- The times of a batch never decrease, and none is before one in the table. -/
def Ascending (feed : TickFeed) : FeedStep → Prop
  | .commit batch => (batch.map TickRow.tsMicros).Pairwise (· ≤ ·) ∧
      ∀ key ∈ feed.table.keys, ∀ row ∈ batch, key.1.ts ≤ row.tsMicros
  | .poll => True

/-- No row is committed at or below the watermark the reader has reached, and where the
reader polls the first group of equal times is not larger than the page. -/
def Guards (symbol : String) (limit : Nat) (start : ℤ) (feed : TickFeed) : FeedStep → Prop
  | .commit batch => ∀ row ∈ (feed.table.write batch).rowsOf symbol,
      row ∉ feed.table.rowsOf symbol → start < row.tsUs →
        0 < limit ∧ feed.reader.watermark < row.tsUs
  | .poll => 0 < limit →
      tickOrder.Fits limit (tickOrder.above feed.reader.watermark (feed.table.rowsOf symbol))

/-- What the guard says of a commit, by the rows it puts before the others. -/
theorem guards_commit {symbol : String} {limit : Nat} {start : ℤ} {feed : TickFeed}
    {batch : List TickRow} {added : List TickEntry}
    (grown : (feed.table.write batch).rowsOf symbol = added ++ feed.table.rowsOf symbol) :
    Guards symbol limit start feed (.commit batch) ↔
      ∀ row ∈ added, start < tickOrder.stamp row →
        ¬tickOrder.Passed limit feed.reader.watermark row := by
  have apart := TickTable.rowsOf_nodup symbol (feed.table.write batch)
  rw [grown, List.nodup_append] at apart
  have ahead (row : TickEntry) : ¬tickOrder.Passed limit feed.reader.watermark row ↔
      0 < limit ∧ feed.reader.watermark < row.tsUs := by
    rw [RowOrder.Passed, not_or, not_le, Nat.pos_iff_ne_zero]
    exact Iff.rfl
  simp only [Guards, grown, ahead]
  constructor
  · intro guards row inside late
    refine guards row (List.mem_append_left _ inside) (fun old => ?_) late
    exact apart.2.2 row inside row old rfl
  · intro guards row inside new late
    exact guards row ((List.mem_append.mp inside).resolve_right new) late

/-! ## Runs -/

/-- Over every order of commits and polls, once a poll returns nothing every row since
the start of the reader is delivered once and in order exactly where no row was
committed at or below the watermark reached, and no group larger than a page was polled. -/
theorem delivered_once_iff (symbol : String) (limit : Nat) (start : ℤ) (steps : List FeedStep)
    (quiet : Quiet symbol limit (Runs.run (step symbol limit) (initial start) steps)) :
    Delivered symbol start (Runs.run (step symbol limit) (initial start) steps) ↔
      Runs.Along (step symbol limit) (Guards symbol limit start) (initial start) steps := by
  let covers (feed : TickFeed) : Prop :=
    tickOrder.Covers start limit (feed.table.rowsOf symbol) feed.reader
  let misses (feed : TickFeed) : Prop :=
    tickOrder.Misses start limit (feed.table.rowsOf symbol) feed.reader
  have begins : covers (initial start) := ⟨le_refl start, List.Perm.refl [], List.Pairwise.nil⟩
  have keeps (feed : TickFeed) (event : FeedStep) (before : covers feed)
      (guards : Guards symbol limit start feed event) : covers (feed.step symbol limit event) := by
    cases event with
    | commit batch =>
      obtain ⟨added, grown⟩ := TickTable.rowsOf_write symbol feed.table batch
      simp only [covers, step, grown]
      exact tickOrder.covers_append before ((guards_commit grown).mp guards)
    | poll => exact tickOrder.covers_poll before guards
  have breaks (feed : TickFeed) (event : FeedStep) (before : covers feed)
      (violated : ¬Guards symbol limit start feed event) :
      misses (feed.step symbol limit event) := by
    cases event with
    | commit batch =>
      obtain ⟨added, grown⟩ := TickTable.rowsOf_write symbol feed.table batch
      simp only [misses, step, grown]
      exact tickOrder.misses_of_append before ((guards_commit grown).not.mp violated)
    | poll => exact tickOrder.misses_of_poll before violated
  have stays (feed : TickFeed) (event : FeedStep) (before : misses feed) :
      misses (feed.step symbol limit event) := by
    cases event with
    | commit batch =>
      obtain ⟨added, grown⟩ := TickTable.rowsOf_write symbol feed.table batch
      simp only [misses, step, grown]
      exact tickOrder.misses_append before added
    | poll => exact tickOrder.misses_poll before
  constructor
  · intro delivered
    by_contra violated
    have missing := Runs.run_latched (step symbol limit) keeps breaks stays (initial start) steps
      begins violated
    exact tickOrder.not_complete_of_misses missing delivered
  · intro guards
    have covered := Runs.run_invariant (step symbol limit) covers (Guards symbol limit start) keeps
      (initial start) steps begins guards
    exact tickOrder.complete_of_covers covered quiet

instance (feed : TickFeed) (event : FeedStep) : Decidable (feed.Ascending event) := by
  cases event
  all_goals dsimp only [Ascending]; infer_instance

instance (symbol : String) (limit : Nat) (start : ℤ) (feed : TickFeed) (event : FeedStep) :
    Decidable (feed.Guards symbol limit start event) := by
  cases event
  all_goals dsimp only [Guards]; infer_instance

/-- A trade of one contract. -/
def oneLot (tsMicros : Int64) (price : ℚ) : TickRow where
  tsMicros := tsMicros
  price := price
  size := 1
  isBuy := true
  symbol := "NQ"
  exchange := "CME"

/-- Trades of three microseconds, each committed whole and before it is polled. -/
theorem delivered_across_commits :
    Delivered "NQ" 0 (Runs.run (step "NQ" 2) (initial 0)
      [.commit [oneLot 10 100, oneLot 10 101, oneLot 20 100], .poll, .poll,
        .commit [oneLot 30 100], .poll]) :=
  (delivered_once_iff "NQ" 2 0 _ (by decide +kernel)).mpr (by decide +kernel)

/-- Two trades of a microsecond are committed apart, with a poll between them. -/
def splitGroup : List FeedStep :=
  [.commit [oneLot 10 100], .poll, .commit [oneLot 10 101], .poll]

/-- Three trades of a microsecond are read in pages of two. -/
def largeGroup : List FeedStep :=
  [.commit [oneLot 10 100, oneLot 10 101, oneLot 10 102], .poll, .poll]

/-- The last trade of the microsecond is never delivered. -/
theorem tail_of_group_lost :
    (Runs.Along (step "NQ" 5000) Ascending (initial 0) splitGroup ∧
        Quiet "NQ" 5000 (Runs.run (step "NQ" 5000) (initial 0) splitGroup) ∧
        ¬Delivered "NQ" 0 (Runs.run (step "NQ" 5000) (initial 0) splitGroup)) ∧
      Runs.Along (step "NQ" 2) Ascending (initial 0) largeGroup ∧
        Quiet "NQ" 2 (Runs.run (step "NQ" 2) (initial 0) largeGroup) ∧
        ¬Delivered "NQ" 0 (Runs.run (step "NQ" 2) (initial 0) largeGroup) := by
  decide +kernel

end TickFeed

end RithmicEngine
