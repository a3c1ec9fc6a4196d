import Mathlib.Data.List.Nodup
import RithmicEngine.Base.Runs
import RithmicEngine.Collector.LineCodec
/-!
# The quotes table

One statement inserts all pending quotes of the log. With the unique index in
place a row whose key is present is merged into the stored one, column by column,
and the statement fails as a whole when two of its rows have one key. Without the
index every row is inserted beside the others. A batch whose statement failed stays
pending and is sent again with every later batch.

The table is the list of its rows. The database accepts the rest of a statement and
orders the rows as sent. Whether the index is there is asked once and remembered.
-/
namespace RithmicEngine

open Numerals

/-- The unique key of a quote. -/
structure QuoteKey where
  symbol : String
  exchange : String
  ts : Int64
  deriving DecidableEq

/-- The nullable columns of a stored quote. -/
structure QuoteColumns where
  bidPrice : Option ℚ
  bidSize : Option Int32
  bidOrders : Option Int32
  askPrice : Option ℚ
  askSize : Option Int32
  askOrders : Option Int32
  deriving DecidableEq

namespace QuoteColumns

/-- Each column takes the new value when present and keeps the stored one otherwise. -/
def coalesce (new old : QuoteColumns) : QuoteColumns where
  bidPrice := new.bidPrice.or old.bidPrice
  bidSize := new.bidSize.or old.bidSize
  bidOrders := new.bidOrders.or old.bidOrders
  askPrice := new.askPrice.or old.askPrice
  askSize := new.askSize.or old.askSize
  askOrders := new.askOrders.or old.askOrders

/-- The same update twice is the update. -/
theorem coalesce_again (new old : QuoteColumns) :
    coalesce new (coalesce new old) = coalesce new old := by
  simp [coalesce, ← Option.or_assoc]

theorem coalesce_self (new : QuoteColumns) : coalesce new new = new := by
  simp [coalesce]

end QuoteColumns

namespace BboRow

def key (row : BboRow) : QuoteKey := ⟨row.symbol, row.exchange, row.tsMicros⟩

/-- A side without a price is null in all its columns. -/
def columnsWith (price : ℚ → ℚ) (row : BboRow) : QuoteColumns where
  bidPrice := row.bidPrice.map price
  bidSize := if row.bidPrice.isSome then some row.bidSize else none
  bidOrders := if row.bidPrice.isSome then some row.bidOrders else none
  askPrice := row.askPrice.map price
  askSize := if row.askPrice.isSome then some row.askSize else none
  askOrders := if row.askPrice.isSome then some row.askOrders else none

/-- What a statement sends for a row: prices with six decimals. -/
def columns (row : BboRow) : QuoteColumns := row.columnsWith (rounded 6)

/-- The update a row stands for. -/
def update (row : BboRow) : QuoteColumns := row.columnsWith id

end BboRow

/-- The rows of the table, with their keys. -/
abbrev BboTable := List (QuoteKey × QuoteColumns)

namespace BboTable

/-- A stored row with a new one of its key merged into it. -/
def mergeRow (row : BboRow) (stored : QuoteKey × QuoteColumns) : QuoteKey × QuoteColumns :=
  (stored.1, if stored.1 = row.key then row.columns.coalesce stored.2 else stored.2)

/-- Insert or merge one row. -/
def insertQuote (uniqueOk : Bool) (table : BboTable) (row : BboRow) : BboTable :=
  if uniqueOk = true ∧ row.key ∈ table.map Prod.fst then table.map (mergeRow row)
  else table ++ [(row.key, row.columns)]

/-- One statement, nothing if it fails. -/
def writeBbo (uniqueOk : Bool) (table : BboTable) (rows : List BboRow) : Option BboTable :=
  if uniqueOk = true ∧ ¬(rows.map BboRow.key).Nodup then none
  else some (rows.foldl (insertQuote uniqueOk) table)

/-- What the table holds for a key. -/
def cells (table : BboTable) (key : QuoteKey) : List QuoteColumns :=
  (table.filter (fun stored => decide (stored.1 = key))).map Prod.snd

end BboTable

/-! ## Flushes -/

structure BboStore where
  pending : List BboRow := []
  table : BboTable := []
  uniqueOk : Bool := true

/-- A batch, whether the database was reachable for it and whether the commit after
its statement succeeded. -/
structure BboFlush where
  batch : List BboRow
  reachable : Bool
  committed : Bool

namespace BboStore

def flush (store : BboStore) (taken : BboFlush) : BboStore :=
  let pending := store.pending ++ taken.batch
  if taken.reachable then
    match store.table.writeBbo store.uniqueOk pending with
    | none => { store with pending := pending }
    | some table =>
      { store with pending := if taken.committed then [] else pending, table := table }
  else { store with pending := pending }

/-- The updates with a key, in order. -/
def updates (key : QuoteKey) (rows : List BboRow) : List BboRow :=
  rows.filter (fun row => decide (row.key = key))

/-- The merge of updates in order, nothing for none. -/
def merged (rows : List BboRow) : Option QuoteColumns :=
  rows.foldl (fun stored row => some ((stored.map row.update.coalesce).getD row.update)) none

/-- The rows received so far, beside the store. -/
def note (received : List BboRow) (_ : BboStore) (taken : BboFlush) (_ : BboStore) :
    List BboRow := received ++ taken.batch

def observed (pair : BboStore × List BboRow) (taken : BboFlush) : BboStore × List BboRow :=
  Runs.observe flush note pair taken

/-- With the database reachable the statement succeeds and every key's row is the
merge of all updates received for it. -/
def Stores (pair : BboStore × List BboRow) (taken : BboFlush) : Prop :=
  taken.reachable = true →
    pair.1.table.writeBbo pair.1.uniqueOk (pair.1.pending ++ taken.batch) ≠ none ∧
      ∀ key, (observed pair taken).1.table.cells key =
        (merged (updates key (observed pair taken).2)).toList

/-- A row whose prices the statement sends unchanged. -/
def Exact (row : BboRow) : Prop :=
  (∀ price ∈ row.bidPrice, AtMost 6 price) ∧ ∀ price ∈ row.askPrice, AtMost 6 price
deriving Decidable

/-- With the database reachable, the pending rows and the batch have pairwise
different keys and prices of at most six decimals, and without the unique index none
of them is in the table yet. -/
def Sendable (pair : BboStore × List BboRow) (taken : BboFlush) : Prop :=
  taken.reachable = true →
    ((pair.1.pending ++ taken.batch).map BboRow.key).Nodup ∧
      (∀ row ∈ pair.1.pending ++ taken.batch, Exact row) ∧
      (pair.1.uniqueOk = false →
        ∀ row ∈ pair.1.pending ++ taken.batch, row.key ∉ pair.1.table.map Prod.fst)
deriving Decidable

end BboStore

/-! ## One row -/

namespace BboTable

theorem cells_append (first second : BboTable) (key : QuoteKey) :
    cells (first ++ second) key = cells first key ++ cells second key := by
  simp only [cells, List.filter_append, List.map_append]

theorem cells_eq_nil_iff (table : BboTable) (key : QuoteKey) :
    table.cells key = [] ↔ key ∉ table.map Prod.fst := by
  simp only [cells, List.map_eq_nil_iff, List.filter_eq_nil_iff, decide_eq_true_eq, List.mem_map,
    not_exists, not_and]

/-- What one row does to the cells of its own key. -/
def bump (uniqueOk : Bool) (stored : List QuoteColumns) (row : BboRow) : List QuoteColumns :=
  if uniqueOk = true ∧ stored ≠ [] then stored.map row.columns.coalesce
  else stored ++ [row.columns]

/-- Merging a row changes the cells of its own key. -/
theorem cells_mergeRow (table : BboTable) (row : BboRow) (key : QuoteKey) :
    cells (table.map (mergeRow row)) key =
      if row.key = key then (table.cells key).map row.columns.coalesce else table.cells key := by
  have same : cells (table.map (mergeRow row)) key =
      (table.filter (fun stored => decide (stored.1 = key))).map
        (fun stored => if row.key = key then row.columns.coalesce stored.2 else stored.2) := by
    rw [cells, List.filter_map, List.map_map]
    apply List.map_congr_left
    intro stored inside
    have own : stored.1 = key := of_decide_eq_true (List.mem_filter.mp inside).2
    simp [mergeRow, own, eq_comm]
  rw [same]
  by_cases hit : row.key = key
  · simp only [hit, ↓reduceIte, cells, List.map_map]
    rfl
  · simp [hit, cells]

/-- A row changes the cells of its own key and no others. -/
theorem cells_insertQuote (uniqueOk : Bool) (table : BboTable) (row : BboRow) (key : QuoteKey) :
    cells (insertQuote uniqueOk table row) key =
      if row.key = key then bump uniqueOk (table.cells key) row else table.cells key := by
  have present : row.key ∈ table.map Prod.fst ↔ table.cells row.key ≠ [] := by
    rw [ne_eq, cells_eq_nil_iff, not_not]
  by_cases merges : uniqueOk = true ∧ row.key ∈ table.map Prod.fst
  · simp only [insertQuote, merges, and_self, ↓reduceIte, cells_mergeRow]
    by_cases hit : row.key = key
    · subst hit
      have some_ : table.cells row.key ≠ [] := present.mp merges.2
      simp [bump, some_]
    · simp [hit]
  · simp only [insertQuote, merges, ↓reduceIte, cells_append]
    by_cases hit : row.key = key
    · subst hit
      have fresh : ¬(uniqueOk = true ∧ table.cells row.key ≠ []) := by
        rwa [← present]
      simp only [↓reduceIte, bump, fresh]
      simp [cells]
    · have other : cells [(row.key, row.columns)] key = [] := by
        simp [cells, hit]
      simp [hit, other]

/-- Rows change the cells of a key by the updates with that key. -/
theorem cells_insertQuotes (uniqueOk : Bool) (table : BboTable) (rows : List BboRow)
    (key : QuoteKey) :
    (rows.foldl (insertQuote uniqueOk) table).cells key =
      (BboStore.updates key rows).foldl (bump uniqueOk) (table.cells key) := by
  induction rows generalizing table with
  | nil => rfl
  | cons row rest ih =>
    rw [List.foldl_cons, ih, cells_insertQuote]
    by_cases hit : row.key = key
    · simp [BboStore.updates, hit]
    · simp [BboStore.updates, hit]

end BboTable

/-! ## One flush -/

namespace BboStore

open BboTable

theorem updates_append (key : QuoteKey) (first second : List BboRow) :
    updates key (first ++ second) = updates key first ++ updates key second :=
  List.filter_append first second

/-- Keys are pairwise different exactly where no key has two updates. -/
theorem nodup_iff (rows : List BboRow) :
    (rows.map BboRow.key).Nodup ↔ ∀ key, (updates key rows).length ≤ 1 := by
  have count (key : QuoteKey) :
      (rows.map BboRow.key).count key = (updates key rows).length := by
    rw [List.count, List.countP_map, List.countP_eq_length_filter, updates]
    congr 1
  rw [List.nodup_iff_count_le_one]
  exact forall_congr' (fun key => by rw [count key])

theorem mem_updates {key : QuoteKey} {rows : List BboRow} {row : BboRow} :
    row ∈ updates key rows ↔ row ∈ rows ∧ row.key = key := by
  simp [updates]

theorem merged_append_singleton (rows : List BboRow) (row : BboRow) :
    merged (rows ++ [row]) =
      some (((merged rows).map row.update.coalesce).getD row.update) := by
  simp [merged]

/-- A row whose prices have six decimals is sent as it is. -/
theorem columns_of_exact (row : BboRow) (exact : Exact row) : row.columns = row.update := by
  have same (price : Option ℚ) (few : ∀ p ∈ price, AtMost 6 p) :
      price.map (rounded 6) = price.map id := by
    cases price with
    | none => rfl
    | some p => rw [Option.map_some, (rounded_eq_iff 6 p).mpr (few p rfl), Option.map_some, id]
  simp only [BboRow.columns, BboRow.update, BboRow.columnsWith, same _ exact.1, same _ exact.2]

/-- A cell merged from a row shows the row's own prices. -/
theorem merged_prices (price : ℚ → ℚ) (row : BboRow) (old : Option QuoteColumns) (p : ℚ) :
    (row.bidPrice = some p →
        ((old.map (row.columnsWith price).coalesce).getD (row.columnsWith price)).bidPrice =
          some (price p)) ∧
      (row.askPrice = some p →
        ((old.map (row.columnsWith price).coalesce).getD (row.columnsWith price)).askPrice =
          some (price p)) := by
  constructor
  · intro bid
    cases old with
    | none =>
      simp [BboRow.columnsWith, bid]
    | some stored =>
      simp [QuoteColumns.coalesce, BboRow.columnsWith, bid]
  · intro ask
    cases old with
    | none =>
      simp [BboRow.columnsWith, ask]
    | some stored =>
      simp only [Option.map_some, Option.getD_some, QuoteColumns.coalesce, BboRow.columnsWith, ask,
        Option.some_or]

/-- Rows that are in the table: the committed ones and a first part of the pending
ones, each key merged in order. -/
def Settled (pair : BboStore × List BboRow) : Prop :=
  ∃ committed early, early <+: pair.1.pending ∧ pair.2 = committed ++ pair.1.pending ∧
    ∀ key, pair.1.table.cells key = (merged (updates key (committed ++ early))).toList

variable (pair : BboStore × List BboRow) (store : BboStore) (taken : BboFlush)

/-- The table after the statement, key by key. -/
theorem cells_flush (reachable : taken.reachable = true)
    (accepted : store.table.writeBbo store.uniqueOk (store.pending ++ taken.batch) ≠ none)
    (key : QuoteKey) :
    (store.flush taken).table.cells key =
      (updates key (store.pending ++ taken.batch)).foldl (bump store.uniqueOk)
        (store.table.cells key) := by
  rw [← cells_insertQuotes]
  simp only [flush, reachable, ↓reduceIte]
  simp only [writeBbo] at accepted ⊢
  split at accepted
  · exact absurd rfl accepted
  next distinct => simp only [distinct, ↓reduceIte]

/-- An update of a key without one, or one that was already merged. -/
theorem bump_merged (uniqueOk : Bool) (before : List BboRow) (row : BboRow) (exact : Exact row)
    (sent : List BboRow) (early : sent = [] ∨ sent = [row])
    (fresh : uniqueOk = false → (merged (before ++ sent)).toList = []) :
    bump uniqueOk (merged (before ++ sent)).toList row = (merged (before ++ [row])).toList := by
  have same := columns_of_exact row exact
  rw [merged_append_singleton]
  cases stored : merged (before ++ sent) with
  | none =>
    rcases early with rfl | rfl
    · rw [List.append_nil] at stored
      simp [bump, stored, same]
    · rw [merged_append_singleton] at stored
      exact absurd stored nofun
  | some old =>
    have merges : uniqueOk = true := by
      by_contra off
      have none := fresh (by simpa only [Bool.not_eq_true] using off)
      rw [stored] at none
      exact absurd none nofun
    have replaced : bump uniqueOk (some old).toList row = [row.update.coalesce old] := by
      simp only [bump, merges, Option.toList_some, ne_eq, List.cons_ne_nil, not_false_eq_true,
        and_self, ↓reduceIte, List.map_cons, List.map_nil, same]
    rw [replaced, Option.toList_some]
    rcases early with rfl | rfl
    · rw [List.append_nil] at stored
      rw [stored, Option.map_some, Option.getD_some]
    · rw [merged_append_singleton] at stored
      have again : old = ((merged before).map row.update.coalesce).getD row.update :=
        (Option.some.inj stored).symm
      rw [again]
      cases merged before with
      | none => rw [Option.map_none, Option.getD_none, QuoteColumns.coalesce_self]
      | some first => rw [Option.map_some, Option.getD_some, QuoteColumns.coalesce_again]

/-- The early part of the pending rows has at most the one update of a key. -/
theorem updates_early {early rows : List BboRow} (start : early <+: rows) {key : QuoteKey}
    {row : BboRow} (one : updates key rows = [row]) :
    updates key early = [] ∨ updates key early = [row] := by
  have beginning : updates key early <+: [row] := one ▸ start.filter _
  cases same : updates key early with
  | nil => exact Or.inl rfl
  | cons first rest =>
    rw [same] at beginning
    obtain ⟨rfl, none⟩ := List.cons_prefix_cons.mp beginning
    rw [List.prefix_nil.mp none]
    exact Or.inr rfl

/-- What a flush that is accepted has to make of the cells of a key. -/
theorem stores_iff (reachable : taken.reachable = true) (committed : List BboRow)
    (stream : pair.2 = committed ++ pair.1.pending)
    (accepted : pair.1.table.writeBbo pair.1.uniqueOk (pair.1.pending ++ taken.batch) ≠ none)
    (key : QuoteKey) :
    (observed pair taken).1.table.cells key =
        (merged (updates key (observed pair taken).2)).toList ↔
      (updates key (pair.1.pending ++ taken.batch)).foldl (bump pair.1.uniqueOk)
          (pair.1.table.cells key) =
        (merged (updates key committed ++
          updates key (pair.1.pending ++ taken.batch))).toList := by
  have all : pair.2 ++ taken.batch = committed ++ (pair.1.pending ++ taken.batch) := by
    rw [stream, List.append_assoc]
  simp only [observed, Runs.observe, note, cells_flush pair.1 taken reachable accepted, all,
    updates_append key committed]

/-- Where a flush is sendable it stores what it should. -/
theorem stores_of_sendable (settled : Settled pair) (sendable : Sendable pair taken) :
    Stores pair taken := by
  intro reachable
  obtain ⟨committed, early, start, stream, table⟩ := settled
  obtain ⟨distinct, exact, fresh⟩ := sendable reachable
  have accepted :
      pair.1.table.writeBbo pair.1.uniqueOk (pair.1.pending ++ taken.batch) ≠ none := by
    simp only [writeBbo, distinct, not_true_eq_false, and_false, ↓reduceIte]
    exact nofun
  refine ⟨accepted, fun key => ?_⟩
  rw [stores_iff pair taken reachable committed stream accepted key]
  have begins : early <+: pair.1.pending ++ taken.batch := start.trans (List.prefix_append _ _)
  obtain ⟨rows, rowsIs⟩ : ∃ rows, rows = pair.1.pending ++ taken.batch := ⟨_, rfl⟩
  rw [← rowsIs] at distinct exact fresh begins ⊢
  have few := (nodup_iff rows).mp distinct key
  rw [table, updates_append]
  cases one : updates key rows with
  | nil =>
    have beginning : updates key early <+: [] := one ▸ begins.filter _
    rw [List.prefix_nil.mp beginning, List.foldl_nil]
  | cons row rest =>
    rw [one, List.length_cons] at few
    have none : rest = [] := List.length_eq_zero_iff.mp (by omega)
    subst none
    have inside : row ∈ rows ∧ row.key = key := by
      rw [← mem_updates, one]
      exact List.mem_cons_self
    rw [List.foldl_cons, List.foldl_nil]
    apply bump_merged _ _ _ (exact row inside.1) _ (updates_early begins one)
    intro off
    rw [← updates_append, ← table, cells_eq_nil_iff, ← inside.2]
    exact fresh off row inside.1

/-- Without the index every row is one more cell. -/
theorem foldl_bump_plain (cells : List QuoteColumns) (rows : List BboRow) :
    rows.foldl (bump false) cells = cells ++ rows.map BboRow.columns := by
  induction rows generalizing cells with
  | nil => rw [List.foldl_nil, List.map_nil, List.append_nil]
  | cons row rest ih =>
    simp [bump, ih]

/-- A cell that is the merge of the updates received was sent with their prices. -/
theorem exact_of_bump (uniqueOk : Bool) (cells : List QuoteColumns) (row : BboRow)
    (before : List BboRow) (fresh : uniqueOk = false → cells = [])
    (same : bump uniqueOk cells row = (merged (before ++ [row])).toList) : Exact row := by
  rw [merged_append_singleton, Option.toList_some] at same
  obtain ⟨old, sent⟩ : ∃ old : Option QuoteColumns,
      (old.map row.columns.coalesce).getD row.columns =
        ((merged before).map row.update.coalesce).getD row.update := by
    simp only [bump] at same
    split at same
    · obtain ⟨old, single⟩ := List.map_eq_singleton_iff.mp same
      exact ⟨some old, single.2⟩
    next plain =>
      have empty : cells = [] := by
        cases uniqueOk with
        | false => exact fresh rfl
        | true => simpa only [true_and, ne_eq, not_not] using plain
      rw [empty, List.nil_append, List.singleton_inj] at same
      exact ⟨none, same⟩
  constructor
  · intro p bid
    have stored := (merged_prices (rounded 6) row old p).1 bid
    have received := (merged_prices id row (merged before) p).1 bid
    have equal : some (rounded 6 p) = some (id p) := by
      rw [← stored, ← received]
      exact congrArg QuoteColumns.bidPrice sent
    exact (rounded_eq_iff 6 p).mp (Option.some.inj equal)
  · intro p ask
    have stored := (merged_prices (rounded 6) row old p).2 ask
    have received := (merged_prices id row (merged before) p).2 ask
    have equal : some (rounded 6 p) = some (id p) := by
      rw [← stored, ← received]
      exact congrArg QuoteColumns.askPrice sent
    exact (rounded_eq_iff 6 p).mp (Option.some.inj equal)

/-- A flush that stores what it should was sendable. -/
theorem sendable_of_stores (settled : Settled pair) (stores : Stores pair taken) :
    Sendable pair taken := by
  intro reachable
  obtain ⟨accepted, kept⟩ := stores reachable
  obtain ⟨committed, early, start, stream, table⟩ := settled
  have cell (key : QuoteKey) :=
    (stores_iff pair taken reachable committed stream accepted key).mp (kept key)
  obtain ⟨rows, rowsIs⟩ : ∃ rows, rows = pair.1.pending ++ taken.batch := ⟨_, rfl⟩
  rw [← rowsIs] at accepted ⊢
  simp only [← rowsIs] at cell
  have plain (off : pair.1.uniqueOk = false) (key : QuoteKey) :
      (pair.1.table.cells key).length + (updates key rows).length ≤ 1 := by
    have added := congrArg List.length (cell key)
    rw [off, foldl_bump_plain, List.length_append, List.length_map] at added
    have atMost : (merged (updates key committed ++ updates key rows)).toList.length ≤ 1 :=
      Option.length_toList_le
    omega
  have distinct : (rows.map BboRow.key).Nodup := by
    cases on : pair.1.uniqueOk with
    | true =>
      simp only [writeBbo, on, true_and, ne_eq, ite_eq_left_iff, not_not, reduceCtorEq,
        imp_false] at accepted
      exact accepted
    | false =>
      rw [nodup_iff]
      intro key
      have few := plain on key
      omega
  have fresh (off : pair.1.uniqueOk = false) (row : BboRow) (inside : row ∈ rows) :
      pair.1.table.cells row.key = [] := by
    have own : 0 < (updates row.key rows).length :=
      List.length_pos_of_mem (mem_updates.mpr ⟨inside, rfl⟩)
    have few := plain off row.key
    exact List.length_eq_zero_iff.mp (by omega)
  refine ⟨distinct, fun row inside => ?_, fun off row inside => ?_⟩
  · have own : updates row.key rows = [row] := by
      have mine : row ∈ updates row.key rows := mem_updates.mpr ⟨inside, rfl⟩
      have few := (nodup_iff rows).mp distinct row.key
      have some_ : 0 < (updates row.key rows).length := List.length_pos_of_mem mine
      obtain ⟨only, same⟩ := List.length_eq_one_iff.mp (by omega :
        (updates row.key rows).length = 1)
      rw [same] at mine ⊢
      rw [List.mem_singleton.mp mine]
    have bumped := cell row.key
    rw [own, List.foldl_cons, List.foldl_nil] at bumped
    exact exact_of_bump _ _ row _ (fun off => fresh off row inside) bumped
  · rw [← cells_eq_nil_iff]
    exact fresh off row inside

/-! ## Runs -/

theorem flush_unreachable (down : taken.reachable = false) :
    store.flush taken = { store with pending := store.pending ++ taken.batch } := by
  simp only [flush, down, Bool.false_eq_true, ↓reduceIte]

/-- What an accepted statement leaves pending. -/
theorem pending_flush (reachable : taken.reachable = true)
    (accepted : store.table.writeBbo store.uniqueOk (store.pending ++ taken.batch) ≠ none) :
    (store.flush taken).pending = if taken.committed then [] else store.pending ++ taken.batch := by
  simp only [flush, reachable, ↓reduceIte]
  split
  next failed => exact absurd failed accepted
  · rfl

/-- A sendable flush keeps the table settled. -/
theorem settled_flush (settled : Settled pair) (sendable : Sendable pair taken) :
    Settled (observed pair taken) := by
  have stores := stores_of_sendable pair taken settled sendable
  obtain ⟨committed, early, start, stream, table⟩ := settled
  have received : (observed pair taken).2 =
      committed ++ (pair.1.pending ++ taken.batch) := by
    simp only [observed, Runs.observe, note, stream, List.append_assoc]
  cases up : taken.reachable with
  | false =>
    have same : (observed pair taken).1 =
        { pair.1 with pending := pair.1.pending ++ taken.batch } :=
      flush_unreachable pair.1 taken up
    refine ⟨committed, early, ?_, ?_, ?_⟩
    · rw [same]
      exact start.trans (List.prefix_append _ _)
    · rw [received, same]
    · rw [same]
      exact table
  | true =>
    obtain ⟨accepted, kept⟩ := stores up
    have left : (observed pair taken).1.pending =
        if taken.committed then [] else pair.1.pending ++ taken.batch :=
      pending_flush pair.1 taken up accepted
    cases done : taken.committed with
    | true =>
      simp only [done, ↓reduceIte] at left
      refine ⟨(observed pair taken).2, [], List.nil_prefix, ?_, ?_⟩
      · rw [left, List.append_nil]
      · rw [List.append_nil]
        exact kept
    | false =>
      simp only [done, Bool.false_eq_true, ↓reduceIte] at left
      refine ⟨committed, pair.1.pending ++ taken.batch, ?_, ?_, ?_⟩
      · exact left ▸ List.prefix_rfl
      · rw [left, received]
      · rw [← received]
        exact kept

/-- From an empty table, with or without the unique index: every flush with the
database reachable succeeds and leaves for each key the merge of all its updates in
order, if and only if at each of them the pending rows and the batch have pairwise
different keys and six-decimal prices, and no key of theirs is stored beside a
missing index. -/
theorem quotes_stored_iff (uniqueOk : Bool) (flushes : List BboFlush) :
    Runs.Along observed Stores ({ uniqueOk := uniqueOk }, []) flushes ↔
      Runs.Along observed Sendable ({ uniqueOk := uniqueOk }, []) flushes := by
  apply Runs.along_iff_of_invariant observed Settled
  · intro pair taken settled
    exact ⟨sendable_of_stores pair taken settled, stores_of_sendable pair taken settled⟩
  · exact settled_flush
  · exact ⟨[], [], List.prefix_rfl, rfl, fun key => rfl⟩

/-- With two pending rows of one key every later statement fails. -/
theorem poisoned_run (flushes : List BboFlush) (unique : store.uniqueOk = true)
    (twice : ¬(store.pending.map BboRow.key).Nodup) :
    (Runs.run flush store flushes).table = store.table ∧
      store.pending <+: (Runs.run flush store flushes).pending := by
  induction flushes generalizing store with
  | nil => exact ⟨rfl, List.prefix_rfl⟩
  | cons taken rest ih =>
    have repeated : ¬((store.pending ++ taken.batch).map BboRow.key).Nodup := by
      intro distinct
      rw [List.map_append] at distinct
      exact twice distinct.of_append_left
    have stuck : store.flush taken = { store with pending := store.pending ++ taken.batch } := by
      simp only [flush, writeBbo, unique, repeated, not_false_eq_true, and_self, ↓reduceIte,
        ite_self]
    obtain ⟨table, pending⟩ := ih (store.flush taken) (by rw [stuck]; exact unique)
      (by rw [stuck]; exact repeated)
    rw [Runs.run_cons]
    refine ⟨?_, ?_⟩
    · rw [table, stuck]
    · rw [stuck] at pending ⊢
      exact (List.prefix_append _ _).trans pending

/-- A bid and an ask of one instant. -/
def bid : BboRow where
  tsMicros := 1700000000000000
  bidPrice := some 21000
  bidSize := 3
  bidOrders := 2
  askPrice := none
  askSize := 0
  askOrders := 0
  symbol := "NQ"
  exchange := "CME"

def ask : BboRow := { bid with bidPrice := none, askPrice := some 21001 }

/-- In two batches the two sides are merged. -/
example : Runs.Along observed Sendable ({ }, [])
    [⟨[bid], true, true⟩, ⟨[ask], true, true⟩] := by decide +kernel

/-- In one batch they make the statement fail. -/
theorem two_sides_in_one_batch_fail :
    ¬Runs.Along observed Stores ({ uniqueOk := true }, []) [⟨[bid, ask], true, true⟩] := by
  rintro ⟨stored, -⟩
  have failed : writeBbo true [] [bid, ask] = none := by decide +kernel
  exact (stored rfl).1 failed

end BboStore

end RithmicEngine
