import Mathlib.Data.List.Induction
import RithmicEngine.Base.Runs
import RithmicEngine.Collector.LineCodec
/-!
# The depth table

The pending rows of the depth log are written together in two statements, each of which is stored
as a whole or not: rows with a source time are deduplicated by the unique index of the table, where
it has one, and rows without are inserted as they are. A flush that fails after either leaves its
rows in the log, and the next one writes them again. How numbers are printed is left out.
-/
namespace RithmicEngine

/-- The columns of the unique index. -/
structure DepthKey where
  symbol : String
  exchange : String
  sourceNs : Int64
  tsMicros : Int64
  deriving DecidableEq

def DepthRow.key (row : DepthRow) : DepthKey :=
  ⟨row.symbol, row.exchange, row.sourceNs, row.tsMicros⟩

/-- How a flush ends: before anything is stored, after the first statement, after both with the log
still there, or with the log emptied. -/
inductive DepthOutcome
  | refused
  | keyedOnly
  | uncommitted
  | committed
  deriving DecidableEq

structure DepthFlush where
  batch : List DepthRow
  outcome : DepthOutcome

structure DepthStore where
  pending : List DepthRow := []
  table : List DepthRow := []

namespace DepthStore

def keyed (rows : List DepthRow) : List DepthRow := rows.filter fun row => row.sourceNs ≠ 0

def plain (rows : List DepthRow) : List DepthRow := rows.filter fun row => row.sourceNs = 0

/-- Insert a row unless its key is present. -/
def insertKeyed (table : List DepthRow) (row : DepthRow) : List DepthRow :=
  if row.key ∈ table.map DepthRow.key then table else table ++ [row]

def writeDepthRows (withConflict : Bool) (table rows : List DepthRow) : List DepthRow :=
  if withConflict then rows.foldl insertKeyed table else table ++ rows

/-- A flush with the unique index there or not. -/
def flush (uniqueOk : Bool) (store : DepthStore) (taken : DepthFlush) : DepthStore :=
  let pending := store.pending ++ taken.batch
  let first := writeDepthRows uniqueOk store.table (keyed pending)
  let both := writeDepthRows false first (plain pending)
  match taken.outcome with
  | .refused => { store with pending }
  | .keyedOnly => { pending, table := first }
  | .uncommitted => { pending, table := both }
  | .committed => { pending := [], table := both }

def received (flushes : List DepthFlush) : List DepthRow := flushes.flatMap DepthFlush.batch

/-! ## Keyed rows -/

/-- The rows of a key. -/
def ofKey (key : DepthKey) (rows : List DepthRow) : List DepthRow :=
  rows.filter fun row => row.key = key

/-- The first row of a key, where there is one. -/
def firstOf (key : DepthKey) (rows : List DepthRow) : Option DepthRow :=
  rows.find? fun row => row.key = key

variable {key : DepthKey}

theorem ofKey_append (first second : List DepthRow) :
    ofKey key (first ++ second) = ofKey key first ++ ofKey key second := List.filter_append ..

theorem firstOf_append (first second : List DepthRow) :
    firstOf key (first ++ second) = (firstOf key first).or (firstOf key second) :=
  List.find?_append

variable {table : List DepthRow} (rows : List DepthRow)

/-- A keyed insert leaves the first row written of each key. -/
theorem ofKey_insertKeyed {written : List DepthRow} (row : DepthRow)
    (first : ofKey key table = (firstOf key written).toList) :
    ofKey key (insertKeyed table row) = (firstOf key (written ++ [row])).toList := by
  rw [firstOf_append]
  unfold insertKeyed
  by_cases same : row.key = key
  · cases found : firstOf key written with
    | none =>
      rw [found] at first
      have absent : row.key ∉ table.map DepthRow.key := by
        simpa [ofKey, same] using first
      rw [if_neg absent, ofKey_append, first]
      simp [ofKey, firstOf, same]
    | some other =>
      rw [found] at first
      have inside : other ∈ ofKey key table := by
        rw [first]
        exact List.mem_singleton_self other
      obtain ⟨tabled, named⟩ := List.mem_filter.mp inside
      rw [if_pos (List.mem_map.mpr ⟨other, tabled, (of_decide_eq_true named).trans same.symm⟩),
        first, Option.some_or]
  · have none : firstOf key [row] = none := by simp [firstOf, same]
    rw [none, Option.or_none, ← first]
    split_ifs
    · rfl
    · simp [ofKey, same]

/-- Keyed inserts leave the first row written of each key. -/
theorem ofKey_foldl {written : List DepthRow}
    (first : ofKey key table = (firstOf key written).toList) :
    ofKey key (rows.foldl insertKeyed table) = (firstOf key (written ++ rows)).toList := by
  induction rows generalizing table written with
  | nil => rwa [List.append_nil]
  | cons row rest ih =>
    have inserted := ih (ofKey_insertKeyed row first)
    rwa [List.append_assoc] at inserted

/-- The first statement leaves the first row of every key, and writes the rows of an earlier
attempt again without effect. -/
theorem ofKey_write {committed earlier pending : List DepthRow} (again : earlier <+: pending)
    (first : ofKey key table = (firstOf key (keyed (committed ++ earlier))).toList) :
    ofKey key (writeDepthRows true table (keyed pending)) =
      (firstOf key (keyed (committed ++ pending))).toList := by
  obtain ⟨rest, rfl⟩ := again
  rw [writeDepthRows, if_pos rfl, ofKey_foldl _ first]
  simp only [keyed, List.filter_append, firstOf_append, Option.or_assoc]
  generalize firstOf key (committed.filter _) = old
  generalize firstOf key (earlier.filter _) = once
  cases old with
  | some row => rfl
  | none => cases once <;> rfl

/-- No row is of two kinds that exclude each other. -/
theorem filter_apart {kind other : DepthRow → Bool}
    (apart : ∀ row, kind row = true → ¬other row = true) (rows : List DepthRow) :
    (rows.filter kind).filter other = [] := by
  rw [List.filter_filter, List.filter_eq_nil_iff]
  intro row _ both
  obtain ⟨isOther, isKind⟩ := Bool.and_eq_true_iff.mp both
  exact apart row isKind isOther

theorem ofKey_plain (sourced : key.sourceNs ≠ 0) (rows : List DepthRow) :
    ofKey key (plain rows) = [] := by
  refine filter_apart (fun row unsourced same => sourced ?_) rows
  rw [← of_decide_eq_true same]
  exact of_decide_eq_true unsourced

/-! ## Rows without a source time -/

theorem plain_keyed : plain (keyed rows) = [] :=
  filter_apart (fun _ sourced => by simpa using sourced) rows

theorem keyed_plain : keyed (plain rows) = [] :=
  filter_apart (fun _ unsourced => by simpa using unsourced) rows

/-- The first statement leaves the rows without a source time. -/
theorem plain_write (uniqueOk : Bool) (table rows : List DepthRow) :
    plain (writeDepthRows uniqueOk table (keyed rows)) = plain table := by
  cases uniqueOk with
  | false =>
    rw [writeDepthRows, if_neg Bool.false_ne_true, plain, List.filter_append]
    exact (congrArg _ (plain_keyed rows)).trans (List.append_nil _)
  | true =>
    rw [writeDepthRows, if_pos rfl]
    have kept : ∀ row ∈ keyed rows, row.sourceNs ≠ 0 := fun row inside =>
      of_decide_eq_true (List.mem_filter.mp inside).2
    revert kept
    induction keyed rows generalizing table with
    | nil => exact fun _ => rfl
    | cons row rest ih =>
      intro kept
      rw [List.foldl_cons, ih _ fun other inside => kept other (List.mem_cons_of_mem row inside)]
      unfold insertKeyed
      split_ifs
      · rfl
      · simp [plain, kept row List.mem_cons_self]

/-! ## Runs -/

/-- What the table holds of the rows before the pending ones, and of the first of those. -/
structure Stored (uniqueOk : Bool) (flushes : List DepthFlush) (s : DepthStore) : Prop where
  keys : ∃ committed earlier, received flushes = committed ++ s.pending ∧ earlier <+: s.pending ∧
    (uniqueOk = true → ∀ key : DepthKey, key.sourceNs ≠ 0 →
      ofKey key s.table = (firstOf key (keyed (committed ++ earlier))).toList)
  repeats : uniqueOk = false →
    (∀ taken ∈ flushes, taken.outcome ≠ .keyedOnly ∧ taken.outcome ≠ .uncommitted) →
    keyed (received flushes) = keyed s.table ++ keyed s.pending
  rest : (∀ taken ∈ flushes, taken.outcome ≠ .uncommitted) →
    plain (received flushes) = plain s.table ++ plain s.pending

/-- A batch adds to the log what it adds to the rows received. -/
theorem filter_received {kind : DepthRow → Bool} {flushes : List DepthFlush} {s : DepthStore}
    (old : (received flushes).filter kind = s.table.filter kind ++ s.pending.filter kind)
    (taken : DepthFlush) :
    (received (flushes ++ [taken])).filter kind =
      s.table.filter kind ++ (s.pending ++ taken.batch).filter kind := by
  have batched : received (flushes ++ [taken]) = received flushes ++ taken.batch := by
    simp [received]
  rw [batched, List.filter_append, old, List.filter_append, List.append_assoc]

/-- A flush keeps what is said of the table. By its outcome: its rows stay pending, or go into the
table, where with the index a keyed row of a known key is passed over. -/
theorem Stored.flush {uniqueOk : Bool} {flushes : List DepthFlush} {s : DepthStore}
    (stored : Stored uniqueOk flushes s) (taken : DepthFlush) :
    Stored uniqueOk (flushes ++ [taken]) (flush uniqueOk s taken) := by
  obtain ⟨⟨committed, earlier, stream, again, keys⟩, repeats, rest⟩ := stored
  have last : taken ∈ flushes ++ [taken] := List.mem_append_right _ List.mem_cons_self
  unfold DepthStore.flush
  dsimp only
  have more : received (flushes ++ [taken]) = committed ++ (s.pending ++ taken.batch) := by
    simp [received, ← List.append_assoc, ← stream]
  have plainly (ordinary : ∀ other ∈ flushes ++ [taken], other.outcome ≠ .uncommitted) :
      plain (received (flushes ++ [taken])) = plain s.table ++ plain (s.pending ++ taken.batch) :=
    filter_received (rest fun other inside => ordinary other (List.mem_append_left _ inside)) taken
  have twice (absent : uniqueOk = false) (ordinary : ∀ other ∈ flushes ++ [taken],
      other.outcome ≠ .keyedOnly ∧ other.outcome ≠ .uncommitted) :
      keyed (received (flushes ++ [taken])) = keyed s.table ++ keyed (s.pending ++ taken.batch) :=
    filter_received
      (repeats absent fun other inside => ordinary other (List.mem_append_left _ inside)) taken
  replace again : earlier <+: s.pending ++ taken.batch := again.trans (List.prefix_append _ _)
  generalize s.pending ++ taken.batch = pending at more plainly twice again ⊢
  have written (there : uniqueOk = true) (key : DepthKey) (sourced : key.sourceNs ≠ 0) :
      ofKey key (writeDepthRows uniqueOk s.table (keyed pending)) =
        (firstOf key (keyed (committed ++ pending))).toList := by
    rw [there]
    exact ofKey_write again (keys there key sourced)
  have held := plain_write uniqueOk s.table pending
  have doubled (absent : uniqueOk = false) :
      keyed (writeDepthRows uniqueOk s.table (keyed pending)) = keyed s.table ++ keyed pending := by
    rw [absent, writeDepthRows, if_neg Bool.false_ne_true]
    simp [keyed]
  generalize writeDepthRows uniqueOk s.table (keyed pending) = first at written held doubled ⊢
  rw [writeDepthRows, if_neg Bool.false_ne_true]
  have tabled (there : uniqueOk = true) (key : DepthKey) (sourced : key.sourceNs ≠ 0) :
      ofKey key (first ++ plain pending) =
        (firstOf key (keyed (committed ++ pending))).toList := by
    rw [ofKey_append, written there key sourced, ofKey_plain sourced, List.append_nil]
  cases ended : taken.outcome with
  | refused => exact ⟨⟨committed, earlier, more, again, keys⟩, twice, plainly⟩
  | keyedOnly =>
    refine ⟨⟨committed, pending, more, List.prefix_rfl, written⟩, fun _ ordinary => ?_,
      fun ordinary => ?_⟩
    · exact absurd ended (ordinary taken last).1
    · rw [plainly ordinary, held]
  | uncommitted =>
    refine ⟨⟨committed, pending, more, List.prefix_rfl, tabled⟩, fun _ ordinary => ?_,
      fun ordinary => ?_⟩
    · exact absurd ended (ordinary taken last).2
    · exact absurd ended (ordinary taken last)
  | committed =>
    refine ⟨⟨committed ++ pending, [], by rw [more, List.append_nil], List.prefix_rfl, ?_⟩,
      fun absent ordinary => ?_, fun ordinary => ?_⟩
    · rwa [List.append_nil]
    · have both : keyed (first ++ plain pending) = keyed s.table ++ keyed pending := by
        rw [keyed, List.filter_append]
        exact (congrArg₂ _ (doubled absent) (keyed_plain pending)).trans (List.append_nil _)
      rw [twice absent ordinary, both]
      exact (List.append_nil _).symm
    · have both : plain (first ++ plain pending) = plain s.table ++ plain pending := by
        rw [← held]
        simp [plain]
      rw [plainly ordinary, both]
      exact (List.append_nil _).symm

end DepthStore

end RithmicEngine
