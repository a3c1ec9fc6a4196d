import Mathlib.Data.List.AList
/-!
# Finite tables

A table maps finitely many keys to values, each key at most once. It is
Mathlib's association list at a constant value type. This module adds what a
hash map of a program also does: keep the rows that pass a test, drop every row
with a given value, ask whether a value occurs and find a key that carries it.
The order of rows carries no meaning, and every law is stated through lookup.
-/
universe u v

/-- Finitely many rows, no two with the same key. -/
abbrev Table (α : Type u) (β : Type v) := AList (fun _ : α => β)

namespace Table

variable {α : Type u} {β : Type v}

/-- Keep the rows that pass the test. -/
def keep (table : Table α β) (test : α → β → Bool) : Table α β where
  entries := table.entries.filter (fun row => test row.1 row.2)
  nodupKeys := by
    have smaller : (table.entries.filter (fun row => test row.1 row.2)).Sublist table.entries :=
      List.filter_sublist
    exact table.nodupKeys.sublist smaller

/-- Some key carries the value. -/
def hasValue [DecidableEq β] (table : Table α β) (value : β) : Bool :=
  table.entries.any (fun row => decide (row.2 = value))

/-- The first key that carries the value. -/
def keyOf? [DecidableEq β] (table : Table α β) (value : β) : Option α :=
  (table.entries.find? (fun row => decide (row.2 = value))).map (fun row => row.1)

/-- Drop every row that carries the value. -/
def dropValue [DecidableEq β] (table : Table α β) (value : β) : Table α β :=
  table.keep (fun _ held => decide (held ≠ value))

variable [DecidableEq α]

/-- The value at a key. -/
def lookup (table : Table α β) (key : α) : Option β := AList.lookup key table

/-- Set the value at a key. -/
def insert (table : Table α β) (key : α) (value : β) : Table α β := AList.insert key value table

/-- Remove the row of a key. -/
def erase (table : Table α β) (key : α) : Table α β := AList.erase key table

variable (table : Table α β) (key : α) (value : β)

/-- A row is stored exactly when lookup finds it. -/
theorem mem_entries_iff :
    (⟨key, value⟩ : Sigma fun _ : α => β) ∈ table.entries ↔ table.lookup key = some value := by
  rw [lookup, ← Option.mem_def, AList.mem_lookup_iff]

/-- A key is in the table exactly when lookup finds a value for it. -/
theorem mem_iff_lookup : key ∈ table ↔ ∃ value, table.lookup key = some value := by
  rw [← AList.lookup_isSome, Option.isSome_iff_exists]
  rfl

theorem mem_of_lookup {table : Table α β} {key : α} {value : β}
    (found : table.lookup key = some value) : key ∈ table :=
  (mem_iff_lookup table key).mpr ⟨value, found⟩

theorem lookup_eq_none : table.lookup key = none ↔ key ∉ table := AList.lookup_eq_none

@[simp] theorem lookup_empty (key : α) : (∅ : Table α β).lookup key = none :=
  AList.lookup_empty key

/-- Lookup in an extended table: the new row wins at its key. -/
@[simp] theorem lookup_insert (table : Table α β) (key other : α) (value : β) :
    (table.insert key value).lookup other =
      if other = key then some value else table.lookup other := by
  by_cases same : other = key
  · subst same
    simp [lookup, insert]
  · simp [lookup, insert, AList.lookup_insert_ne same, same]

/-- Lookup after an erasure: the erased key is gone, every other row stays. -/
@[simp] theorem lookup_erase (table : Table α β) (key other : α) :
    (table.erase key).lookup other = if other = key then none else table.lookup other := by
  by_cases same : other = key
  · subst same
    simp [lookup, erase]
  · simp [lookup, erase, AList.lookup_erase_ne same, same]

@[simp] theorem mem_insert (table : Table α β) (key other : α) (value : β) :
    other ∈ table.insert key value ↔ other = key ∨ other ∈ table :=
  AList.mem_insert table

@[simp] theorem mem_erase (table : Table α β) (key other : α) :
    other ∈ table.erase key ↔ other ≠ key ∧ other ∈ table :=
  AList.mem_erase

/-- Keeping rows keeps exactly the values that pass. -/
theorem lookup_keep_eq_some (test : α → β → Bool) (key : α) (value : β) :
    (table.keep test).lookup key = some value ↔
      table.lookup key = some value ∧ test key value = true := by
  rw [← mem_entries_iff, ← mem_entries_iff]
  simp [keep]

/-- A test on keys alone keeps exactly the keys that pass. -/
@[simp] theorem mem_keep (table : Table α β) (test : α → Bool) (key : α) :
    key ∈ table.keep (fun key _ => test key) ↔ key ∈ table ∧ test key = true := by
  simp [mem_iff_lookup, lookup_keep_eq_some]

variable [DecidableEq β]

/-- The value test decides whether some key carries the value. -/
theorem hasValue_iff : table.hasValue value = true ↔ ∃ key, table.lookup key = some value := by
  simp only [hasValue, List.any_eq_true, decide_eq_true_eq]
  constructor
  · rintro ⟨⟨key, held⟩, stored, rfl⟩
    exact ⟨key, (mem_entries_iff table key held).mp stored⟩
  · rintro ⟨key, found⟩
    exact ⟨⟨key, value⟩, (mem_entries_iff table key value).mpr found, rfl⟩

/-- The key search only returns keys that carry the value. -/
theorem lookup_of_keyOf? {table : Table α β} {value : β} {key : α}
    (found : table.keyOf? value = some key) : table.lookup key = some value := by
  simp only [keyOf?, Option.map_eq_some_iff] at found
  obtain ⟨⟨first, held⟩, hit, rfl⟩ := found
  have carries : held = value := by simpa using List.find?_some hit
  subst carries
  exact (mem_entries_iff table first held).mp (List.mem_of_find?_eq_some hit)

omit [DecidableEq α] in
/-- A value that some key carries is found by the key search. -/
theorem keyOf?_eq_none : table.keyOf? value = none ↔ table.hasValue value = false := by
  rw [keyOf?, Option.map_eq_none_iff, List.find?_eq_none, hasValue, List.any_eq_false]

/-- Setting a key leaves the values that other keys carry. -/
theorem hasValue_insert_of_ne {table : Table α β} {key : α} {value other : β}
    (listed : table.hasValue other = true) (apart : table.lookup key ≠ some other) :
    (table.insert key value).hasValue other = true := by
  obtain ⟨held, found⟩ := (hasValue_iff table other).mp listed
  refine (hasValue_iff _ other).mpr ⟨held, ?_⟩
  have different : held ≠ key := by
    rintro rfl
    exact apart found
  rw [lookup_insert, if_neg different]
  exact found

theorem hasValue_insert : (table.insert key value).hasValue value = true := by
  refine (hasValue_iff _ value).mpr ⟨key, ?_⟩
  rw [lookup_insert, if_pos rfl]

/-- Dropping a value keeps exactly the rows with another value. -/
theorem lookup_dropValue_eq_some (dropped : β) (key : α) (value : β) :
    (table.dropValue dropped).lookup key = some value ↔
      table.lookup key = some value ∧ value ≠ dropped := by
  simp [dropValue, lookup_keep_eq_some]

end Table
