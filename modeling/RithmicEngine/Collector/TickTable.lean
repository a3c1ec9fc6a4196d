import Mathlib.Data.Multiset.Count
import RithmicEngine.Base.Table
import RithmicEngine.Base.Runs
import RithmicEngine.Collector.LineCodec
/-!
# The ticks table

A write call ranks each row among the rows of the call that agree with it in
symbol, exchange, time, price and size, and inserts the rows under a key that ends
with the rank; a row whose key is present is left out. The pending rows of the log
are written together, before and after a failed commit, so the rows between two
commits form a group that is always ranked from its first row on.

Of one print, the table therefore holds as many rows as the largest group has of
it, and the stream has as many as all groups together. Prices reach the table with
six decimals.
-/
namespace RithmicEngine

open Numerals

/-- What tells two trades apart. -/
structure Print where
  symbol : String
  exchange : String
  ts : Int64
  price : ℚ
  size : Int64
  deriving DecidableEq

def TickRow.print (row : TickRow) : Print :=
  ⟨row.symbol, row.exchange, row.tsMicros, row.price, row.size⟩

/-- A print as the table holds it. -/
def Print.stored (p : Print) : Print := { p with price := rounded 6 p.price }

/-- The unique key of the table: a stored print and its rank. -/
abbrev TickKey := Print × Nat

/-- The table. Side and buyer flag of a row are one bit. -/
abbrev TickTable := Table TickKey Bool

namespace TickTable

/-- Each row with its rank in the call, the ranks so far given. -/
def rankRows (ranks : Table Print Nat) : List TickRow → List (TickRow × Nat)
  | [] => []
  | row :: rest =>
    let rank := (ranks.lookup row.print).getD 0
    (row, rank) :: rankRows (ranks.insert row.print (rank + 1)) rest

/-- Insert a row unless its key is present. -/
def insertTick (table : TickTable) (ranked : TickRow × Nat) : TickTable :=
  let key : TickKey := (ranked.1.print.stored, ranked.2)
  if key ∈ table then table else table.insert key ranked.1.isBuy

/-- One write call. -/
def write (table : TickTable) (rows : List TickRow) : TickTable :=
  (rankRows ∅ rows).foldl insertTick table

/-- The prints of the table, each as often as it has rows. -/
def prints (table : TickTable) : Multiset Print := (table.keys.map Prod.fst : List Print)

end TickTable

/-! ## Flushes -/

/-- The pending rows of the log and the table. -/
structure TickStore where
  pending : List TickRow := []
  table : TickTable := ∅

/-- A batch that was written, and whether the commit after it succeeded. -/
structure TickFlush where
  batch : List TickRow
  committed : Bool

namespace TickStore

def flush (store : TickStore) (taken : TickFlush) : TickStore :=
  let pending := store.pending ++ taken.batch
  { pending := if taken.committed then [] else pending
    table := store.table.write pending }

/-- The rows of the stream. -/
def received (flushes : List TickFlush) : List TickRow := flushes.flatMap TickFlush.batch

/-- The rows between two commits, the pending ones first. -/
def groups (pending : List TickRow) : List TickFlush → List (List TickRow)
  | [] => [pending]
  | taken :: rest =>
    if taken.committed then (pending ++ taken.batch) :: groups [] rest
    else groups (pending ++ taken.batch) rest

/-- No print occurs in two groups. -/
def Apart (groups : List (List TickRow)) : Prop :=
  groups.Pairwise (fun first second => ∀ row ∈ first, ∀ other ∈ second, row.print ≠ other.print)
deriving Decidable

end TickStore

/-! ## One call -/

namespace TickTable

/-- How often a print occurs among rows. -/
def occurrences (p : Print) (rows : List TickRow) : Nat := (rows.map TickRow.print).count p

theorem occurrences_append (p : Print) (first second : List TickRow) :
    occurrences p (first ++ second) = occurrences p first + occurrences p second := by
  simp [occurrences]

/-- The ranks given to a print are the ones from its rank so far up to its count. -/
theorem mem_rankRows (ranks : Table Print Nat) (rows : List TickRow) (p : Print) (n : Nat) :
    (∃ ranked ∈ rankRows ranks rows, ranked.1.print = p ∧ ranked.2 = n) ↔
      (ranks.lookup p).getD 0 ≤ n ∧ n < (ranks.lookup p).getD 0 + occurrences p rows := by
  induction rows generalizing ranks with
  | nil =>
    simp only [rankRows, List.not_mem_nil, false_and, exists_false, occurrences, List.map_nil,
      List.count_nil, Nat.add_zero, false_iff]
    omega
  | cons row rest ih =>
    simp only [rankRows, List.exists_mem_cons_iff, ih, Table.lookup_insert]
    have split_ : occurrences p (row :: rest) =
        (if row.print = p then 1 else 0) + occurrences p rest := by
      simp only [occurrences, List.map_cons, List.count_cons, beq_iff_eq]
      omega
    rw [split_]
    by_cases same : row.print = p
    · subst same
      simp only [↓reduceIte, true_and, Option.getD_some]
      omega
    · simp [same, Ne.symm same]

variable (table : TickTable)

theorem mem_insertTick (ranked : TickRow × Nat) (key : TickKey) :
    key ∈ table.insertTick ranked ↔ key ∈ table ∨ (ranked.1.print.stored, ranked.2) = key := by
  simp only [insertTick]
  split
  next present =>
    constructor
    · exact Or.inl
    · rintro (held | rfl)
      · exact held
      · exact present
  next absent =>
    rw [Table.mem_insert, or_comm, eq_comm]

theorem mem_insertTicks (rows : List (TickRow × Nat)) (key : TickKey) :
    key ∈ rows.foldl insertTick table ↔
      key ∈ table ∨ ∃ ranked ∈ rows, (ranked.1.print.stored, ranked.2) = key := by
  induction rows generalizing table with
  | nil => simp
  | cons ranked rest ih =>
    rw [List.foldl_cons, ih, mem_insertTick, List.exists_mem_cons_iff, or_assoc]

/-- The rows keep their prices when they are stored. -/
def Exact (rows : List TickRow) : Prop := ∀ row ∈ rows, AtMost 6 row.price
deriving Decidable

theorem stored_print (row : TickRow) (few : AtMost 6 row.price) :
    row.print.stored = row.print := by
  have same : rounded 6 row.price = row.price := (rounded_eq_iff 6 row.price).mpr few
  simp only [Print.stored, TickRow.print, same]

/-- The rows handed to a ranking are the ones that come out of it. -/
theorem map_rankRows (ranks : Table Print Nat) (rows : List TickRow) :
    (rankRows ranks rows).map Prod.fst = rows := by
  induction rows generalizing ranks with
  | nil => rfl
  | cons row rest ih => simp [rankRows, ih]

theorem mem_of_mem_rankRows {ranks : Table Print Nat} {rows : List TickRow}
    {ranked : TickRow × Nat} (inside : ranked ∈ rankRows ranks rows) : ranked.1 ∈ rows := by
  rw [← map_rankRows ranks rows]
  exact List.mem_map_of_mem inside

/-- One write call adds, of each print, the ranks below its count in the call. -/
theorem mem_write (rows : List TickRow) (exact : Exact rows) (p : Print) (n : Nat) :
    (p, n) ∈ table.write rows ↔ (p, n) ∈ table ∨ n < occurrences p rows := by
  rw [write, mem_insertTicks]
  apply or_congr_right
  have ranks := mem_rankRows ∅ rows p n
  simp only [Table.lookup_empty, Option.getD_none, Nat.zero_le, true_and, Nat.zero_add] at ranks
  rw [← ranks]
  constructor
  · rintro ⟨ranked, inside, same⟩
    rw [stored_print ranked.1 (exact ranked.1 (mem_of_mem_rankRows inside))] at same
    exact ⟨ranked, inside, (Prod.mk.inj same).1, (Prod.mk.inj same).2⟩
  · rintro ⟨ranked, inside, print, rank⟩
    refine ⟨ranked, inside, ?_⟩
    rw [stored_print ranked.1 (exact ranked.1 (mem_of_mem_rankRows inside)), print, rank]

end TickTable

/-! ## Every call of a run -/

namespace TickStore

open TickTable

/-- Some written group repeats a print at least as often as the pending rows do. -/
theorem groups_extend (pending : List TickRow) (flushes : List TickFlush) (p : Print) :
    ∃ group ∈ groups pending flushes, occurrences p pending ≤ occurrences p group := by
  induction flushes generalizing pending with
  | nil => exact ⟨pending, List.mem_cons_self, Nat.le_refl _⟩
  | cons taken rest ih =>
    have more : occurrences p pending ≤ occurrences p (pending ++ taken.batch) := by
      rw [occurrences_append]
      omega
    by_cases committed : taken.committed = true
    · simp only [groups, committed, ↓reduceIte]
      exact ⟨pending ++ taken.batch, List.mem_cons_self, more⟩
    · simp only [groups, committed, Bool.false_eq_true, ↓reduceIte]
      obtain ⟨group, inside, larger⟩ := ih (pending ++ taken.batch)
      exact ⟨group, inside, more.trans larger⟩

/-- After a run the table holds, of each print, the ranks below its count in some
group. -/
theorem mem_run (store : TickStore) (flushes : List TickFlush) (p : Print) (n : Nat)
    (held : Exact store.pending) (exact : Exact (received flushes))
    (written : n < occurrences p store.pending → (p, n) ∈ store.table) :
    (p, n) ∈ (Runs.run flush store flushes).table ↔
      (p, n) ∈ store.table ∨ ∃ group ∈ groups store.pending flushes, n < occurrences p group := by
  induction flushes generalizing store with
  | nil =>
    simp only [Runs.run_nil, groups, List.mem_singleton, exists_eq_left]
    constructor
    · exact Or.inl
    · rintro (present | low)
      · exact present
      · exact written low
  | cons taken rest ih =>
    obtain ⟨here, later⟩ : Exact taken.batch ∧ Exact (received rest) := by
      simp only [Exact, received, List.flatMap_cons, List.forall_mem_append] at exact ⊢
      exact exact
    have pendingExact : Exact (store.pending ++ taken.batch) :=
      List.forall_mem_append.mpr ⟨held, here⟩
    have wrote := mem_write store.table (store.pending ++ taken.batch) pendingExact p n
    rw [Runs.run_cons]
    by_cases committed : taken.committed = true
    · have cleared : (store.flush taken).pending = [] := by
        simp [flush, committed]
      rw [ih (store.flush taken)]
      · rw [cleared]
        simp only [groups, committed, ↓reduceIte, List.exists_mem_cons_iff]
        rw [← or_assoc]
        exact or_congr_left wrote
      · rw [cleared]
        exact fun row inside => absurd inside List.not_mem_nil
      · exact later
      · rw [cleared]
        exact fun low => absurd low (Nat.not_lt_zero n)
    · have kept : (store.flush taken).pending = store.pending ++ taken.batch := by
        simp [flush, committed]
      rw [ih (store.flush taken)]
      · rw [kept]
        simp only [groups, committed, Bool.false_eq_true, ↓reduceIte]
        constructor
        · rintro (present | grouped)
          · rcases wrote.mp present with old | low
            · exact Or.inl old
            · obtain ⟨group, inside, larger⟩ :=
                groups_extend (store.pending ++ taken.batch) rest p
              exact Or.inr ⟨group, inside, Nat.lt_of_lt_of_le low larger⟩
          · exact Or.inr grouped
        · rintro (old | grouped)
          · exact Or.inl (wrote.mpr (Or.inl old))
          · exact Or.inr grouped
      · rw [kept]
        exact pendingExact
      · exact later
      · rw [kept]
        exact fun low => wrote.mpr (Or.inr low)

/-- The groups make up the pending rows and the stream. -/
theorem sum_groups (pending : List TickRow) (flushes : List TickFlush) (p : Print) :
    ((groups pending flushes).map (occurrences p)).sum =
      occurrences p pending + occurrences p (received flushes) := by
  induction flushes generalizing pending with
  | nil =>
    simp [groups, received, occurrences]
  | cons taken rest ih =>
    have stream : received (taken :: rest) = taken.batch ++ received rest := List.flatMap_cons
    rw [stream, occurrences_append]
    by_cases committed : taken.committed = true
    · simp only [groups, committed, ↓reduceIte, List.map_cons, List.sum_cons, ih,
        occurrences_append]
      have none : occurrences p [] = 0 := rfl
      omega
    · simp only [groups, committed, Bool.false_eq_true, ↓reduceIte, ih, occurrences_append]
      omega

/-! ## The largest group and all groups -/

/-- The largest of some counts. -/
def peak (counts : List Nat) : Nat := counts.foldr max 0

variable (counts : List Nat)

theorem lt_peak (n : Nat) : n < peak counts ↔ ∃ c ∈ counts, n < c := by
  induction counts with
  | nil => simp [peak]
  | cons c rest ih =>
    rw [List.exists_mem_cons_iff, ← ih]
    exact lt_max_iff

theorem peak_le_sum : peak counts ≤ counts.sum := by
  induction counts with
  | nil => exact Nat.le_refl 0
  | cons c rest ih =>
    rw [List.sum_cons]
    exact max_le (Nat.le_add_right c rest.sum) (ih.trans (Nat.le_add_left rest.sum c))

/-- The largest count is the sum exactly where at most one count is not zero. -/
theorem peak_eq_sum_iff :
    peak counts = counts.sum ↔ counts.Pairwise (fun a b => a = 0 ∨ b = 0) := by
  induction counts with
  | nil => exact ⟨fun _ => List.Pairwise.nil, fun _ => rfl⟩
  | cons c rest ih =>
    have bound := peak_le_sum rest
    have largest : peak (c :: rest) = max c (peak rest) := rfl
    rw [List.pairwise_cons, ← ih, largest, List.sum_cons]
    constructor
    · intro same
      by_cases zero : c = 0
      · subst zero
        exact ⟨fun _ _ => Or.inl rfl, by omega⟩
      · have none : rest.sum = 0 := by omega
        exact ⟨fun b inside => Or.inr (List.sum_eq_zero_iff_forall_eq_nat.mp none b
          inside), by omega⟩
    · rintro ⟨zeros, same⟩
      by_cases zero : c = 0
      · omega
      · have none : rest.sum = 0 := by
          apply List.sum_eq_zero_iff_forall_eq_nat.mpr
          intro b inside
          rcases zeros b inside with left | right
          · exact absurd left zero
          · exact right
        omega

end TickStore

namespace TickTable

/-- A table that holds of a print the ranks below a bound has that many of it. -/
theorem count_prints (table : TickTable) (p : Print) (bound : Nat)
    (ranks : ∀ n, (p, n) ∈ table ↔ n < bound) : table.prints.count p = bound := by
  have same : (table.keys.filter (fun key => decide (key.1 = p))).Perm
      ((List.range bound).map (fun n => (p, n))) := by
    rw [List.perm_ext_iff_of_nodup]
    · rintro ⟨q, n⟩
      simp only [List.mem_filter, decide_eq_true_eq, List.mem_map, List.mem_range,
        Prod.mk.injEq]
      constructor
      · rintro ⟨inside, rfl⟩
        exact ⟨n, (ranks n).mp inside, rfl, rfl⟩
      · rintro ⟨rank, low, rfl, rfl⟩
        exact ⟨(ranks rank).mpr low, rfl⟩
    · exact table.keys_nodup.filter _
    · apply List.nodup_range.map
      intro first second equal
      exact (Prod.mk.inj equal).2
  calc table.prints.count p
      = (table.keys.map Prod.fst).count p := Multiset.coe_count p _
    _ = (table.keys.filter (fun key => decide (key.1 = p))).length := by
        rw [List.count, List.countP_map, List.countP_eq_length_filter]
        congr 1
    _ = bound := by rw [same.length_eq, List.length_map, List.length_range]

end TickTable

namespace TickStore

open TickTable

/-- No print in two groups, print by print. -/
theorem apart_iff (groups : List (List TickRow)) :
    Apart groups ↔
      ∀ p, (groups.map (occurrences p)).Pairwise (fun a b => a = 0 ∨ b = 0) := by
  have none (p : Print) (rows : List TickRow) :
      occurrences p rows = 0 ↔ ∀ row ∈ rows, row.print ≠ p := by
    simp [occurrences, List.count_eq_zero]
  constructor
  · intro apart p
    rw [List.pairwise_map]
    apply apart.imp
    intro first second different
    by_cases present : occurrences p first = 0
    · exact Or.inl present
    · right
      rw [none] at present ⊢
      obtain ⟨row, inside, rfl⟩ : ∃ row ∈ first, row.print = p := by
        simpa only [not_forall, ne_eq, not_not, exists_prop] using present
      intro other member same
      exact different row inside other member same.symm
  · intro all
    rw [Apart, List.pairwise_iff_getElem]
    intro i j first second order row inside other member same
    have pair := all row.print
    rw [List.pairwise_map, List.pairwise_iff_getElem] at pair
    rcases pair i j first second order with left | right
    · exact (none row.print _).mp left row inside rfl
    · exact (none row.print _).mp right other member same.symm

/-- Every price in the table has six decimals. -/
theorem run_sixDecimals (store : TickStore) (flushes : List TickFlush)
    (initial : ∀ key ∈ store.table, AtMost 6 key.1.price) :
    ∀ key ∈ (Runs.run flush store flushes).table, AtMost 6 key.1.price := by
  induction flushes generalizing store with
  | nil => exact initial
  | cons taken rest ih =>
    apply ih
    intro key inside
    rcases (mem_insertTicks store.table _ key).mp inside with old | ⟨ranked, -, rfl⟩
    · exact initial key old
    · exact atMost_rounded 6 ranked.1.price

/-- The table holds exactly the prints of the stream, each as often as it was
received, if and only if all prices have at most six decimals and no print occurs in
two groups of rows between commits. -/
theorem stored_eq_received_iff (flushes : List TickFlush) :
    (Runs.run flush { } flushes).table.prints =
      ((received flushes).map TickRow.print : List Print) ↔
      Exact (received flushes) ∧ Apart (groups [] flushes) := by
  obtain ⟨table, tableIs⟩ : ∃ table, table = (Runs.run flush { } flushes).table := ⟨_, rfl⟩
  rw [← tableIs]
  have counts (exact : Exact (received flushes)) (p : Print) :
      table.prints.count p = peak ((groups [] flushes).map (occurrences p)) ∧
        occurrences p (received flushes) = ((groups [] flushes).map (occurrences p)).sum := by
    constructor
    · apply count_prints
      intro n
      rw [tableIs, mem_run { } flushes p n (fun row inside => absurd inside List.not_mem_nil) exact
        (fun low => absurd low (Nat.not_lt_zero n)), lt_peak]
      simp only [List.mem_map, exists_exists_and_eq_and]
      constructor
      · rintro (old | grouped)
        · exact absurd old (AList.notMem_empty _)
        · exact grouped
      · exact Or.inr
    · have none : occurrences p [] = 0 := rfl
      rw [sum_groups, none, Nat.zero_add]
  constructor
  · intro same
    have exact : Exact (received flushes) := by
      intro row inside
      have stored : row.print ∈ table.prints := by
        rw [same]
        exact List.mem_map_of_mem inside
      obtain ⟨key, held, print⟩ := List.mem_map.mp stored
      have few := run_sixDecimals { } flushes
        (fun key inside => absurd inside (AList.notMem_empty _)) key (tableIs ▸ held)
      rw [print] at few
      exact few
    refine ⟨exact, (apart_iff _).mpr ?_⟩
    intro p
    rw [← peak_eq_sum_iff, ← (counts exact p).1, ← (counts exact p).2, same]
    exact Multiset.coe_count p _
  · rintro ⟨exact, apart⟩
    ext p
    rw [(counts exact p).1, (peak_eq_sum_iff _).mpr ((apart_iff _).mp apart p),
      ← (counts exact p).2]
    exact (Multiset.coe_count p _).symm

/-- A trade of two contracts. -/
def trade : TickRow where
  tsMicros := 1700000000000000
  price := 84001 / 4
  size := 2
  isBuy := true
  symbol := "NQ"
  exchange := "CME"

/-- Two identical trades both land in one batch, and also when the batch is written
again after a failed commit. -/
example : (Runs.run flush { } [⟨[trade, trade], false⟩, ⟨[], true⟩]).table.prints =
    ↑[trade.print, trade.print] := by decide +kernel

/-- In two batches the second of two identical trades is taken for the first. -/
theorem second_trade_lost :
    (Runs.run flush { } [⟨[trade], true⟩, ⟨[trade], true⟩]).table.prints ≠
      ((received [⟨[trade], true⟩, ⟨[trade], true⟩]).map TickRow.print : List Print) := by
  decide +kernel

end TickStore

end RithmicEngine
