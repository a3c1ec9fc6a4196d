import Mathlib.Data.List.DropRight
import RithmicEngine.Base.Runs
/-!
# The write-ahead log

A file of lines and the rows in memory that were written to it and not yet
committed. A batch is appended as one block and may fail after any part of the
block has reached the file; a commit empties the file; a new object replays the
file. Nothing marks where a block or a line ends but the newline itself, so what
a failed write leaves behind stays in front of whatever is appended next.

Beside the log stand the rows whose batch returned since the last commit, all
rows that were ever handed over, and whether something was appended behind an
unterminated line. As long as that has not happened the file is the lines of some
handed rows and the beginning of one more line.
-/
namespace RithmicEngine

universe u

/-- How a log writes a row to a line and reads it back. -/
structure Codec (Row : Type u) where
  toLine : Row → List Char
  fromLine : List Char → Option Row

structure Wal (Row : Type u) where
  file : List Char := []
  pending : List Row := []
  deriving DecidableEq

namespace Wal

variable {Row : Type u} (codec : Codec Row)

/-- The encoded block of a batch. -/
def block (rows : List Row) : List Char := rows.flatMap (fun row => codec.toLine row ++ ['\n'])

/-- Append a batch to the file and to the pending rows. -/
def writeBatch (wal : Wal Row) (rows : List Row) : Wal Row :=
  match rows with
  | [] => wal
  | _ => { file := wal.file ++ block codec rows, pending := wal.pending ++ rows }

/-- A batch that fails after that many characters of its block reached the file. -/
def failBatch (wal : Wal Row) (rows : List Row) (cut : Nat) : Wal Row :=
  { wal with file := wal.file ++ (block codec rows).take cut }

def commit (_ : Wal Row) : Wal Row := { file := [], pending := [] }

/-- A line without its line end. -/
def stripEnd (line : List Char) : List Char := line.rdropWhile (fun c => c = '\n' || c = '\r')

/-- What one line of the file is read as. Empty and malformed lines are skipped. -/
def replayLine (line : List Char) : Option Row :=
  if stripEnd line = [] then none else codec.fromLine (stripEnd line)

def replayOnce (file : List Char) : List Row := (file.splitOn '\n').filterMap (replayLine codec)

/-- A new object over the same file. -/
def reconstruct (wal : Wal Row) : Wal Row := { wal with pending := replayOnce codec wal.file }

/-! ## Steps -/

end Wal

/-- What happens to a log. -/
inductive WalStep (Row : Type u)
  | write (rows : List Row)
  | fail (rows : List Row) (cut : Nat)
  | commit
  | reconstruct
  deriving DecidableEq

namespace Wal

variable {Row : Type u} (codec : Codec Row)

def step (wal : Wal Row) : WalStep Row → Wal Row
  | .write rows => wal.writeBatch codec rows
  | .fail rows cut => wal.failBatch codec rows cut
  | .commit => wal.commit
  | .reconstruct => wal.reconstruct codec

/-- What a step appends to the file. -/
def appended : WalStep Row → List Char
  | .write rows => block codec rows
  | .fail rows cut => (block codec rows).take cut
  | _ => []

/-- The characters after the last newline. -/
def unterminated (file : List Char) : List Char := (file.splitOn '\n').getLastD []

/-- What the callers know about a log: the rows of the batches that returned since
the last commit, every row handed over, and whether something was appended behind
an unterminated line since the last commit. -/
structure Callers (Row : Type u) where
  returned : List Row := []
  handed : List Row := []
  merged : Bool := false
  deriving DecidableEq

def note (callers : Callers Row) (wal : Wal Row) (taken : WalStep Row) (_ : Wal Row) :
    Callers Row :=
  match taken with
  | .commit => { callers with returned := [], merged := false }
  | .write rows =>
    { returned := callers.returned ++ rows
      handed := callers.handed ++ rows
      merged := callers.merged ||
        (decide (appended codec taken ≠ []) && decide (unterminated wal.file ≠ [])) }
  | .fail rows _ =>
    { callers with
      handed := callers.handed ++ rows
      merged := callers.merged ||
        (decide (appended codec taken ≠ []) && decide (unterminated wal.file ≠ [])) }
  | .reconstruct => callers

/-- The log with its callers. -/
def observed (pair : Wal Row × Callers Row) (taken : WalStep Row) : Wal Row × Callers Row :=
  Runs.observe (step codec) (note codec) pair taken

/-- The pending rows hold, in order, every row of every batch that returned since the
last commit, and nothing but rows that were handed over. -/
def Durable (pair : Wal Row × Callers Row) : Prop :=
  List.Sublist pair.2.returned pair.1.pending ∧ ∀ row ∈ pair.1.pending, row ∈ pair.2.handed

instance [DecidableEq Row] (pair : Wal Row × Callers Row) : Decidable (Durable pair) :=
  inferInstanceAs (Decidable (_ ∧ _))

/-! ## Lines of a block -/

/-- A row the codec brings back from its line, whatever line end is stripped. -/
structure Legible (row : Row) : Prop where
  oneLine : '\n' ∉ codec.toLine row
  recovered : replayLine codec (codec.toLine row) = some row

theorem block_append (first second : List Row) :
    block codec (first ++ second) = block codec first ++ block codec second :=
  List.flatMap_append

/-- The file of a block and the beginning of another line, split into its lines. -/
theorem splitOn_block (rows : List Row) (tail : List Char)
    (oneLine : ∀ row ∈ rows, '\n' ∉ codec.toLine row) (open_ : '\n' ∉ tail) :
    (block codec rows ++ tail).splitOn '\n' = rows.map codec.toLine ++ [tail] := by
  induction rows with
  | nil => exact List.splitOn_eq_singleton open_
  | cons row rest ih =>
    have here : '\n' ∉ codec.toLine row := oneLine row List.mem_cons_self
    have later := ih (fun other inside => oneLine other (List.mem_cons_of_mem row inside))
    have lines : block codec (row :: rest) ++ tail =
        codec.toLine row ++ '\n' :: (block codec rest ++ tail) := by
      simp [block]
    rw [lines, List.splitOn_append_cons_self_of_not_mem here, later, List.map_cons,
      List.cons_append]

theorem unterminated_block (rows : List Row) (tail : List Char)
    (oneLine : ∀ row ∈ rows, '\n' ∉ codec.toLine row) (open_ : '\n' ∉ tail) :
    unterminated (block codec rows ++ tail) = tail := by
  rw [unterminated, splitOn_block codec rows tail oneLine open_, List.getLastD_concat]

/-- A block replays as its rows, and the unterminated rest as what its line reads as. -/
theorem replayOnce_block (rows : List Row) (tail : List Char)
    (legible : ∀ row ∈ rows, Legible codec row) (open_ : '\n' ∉ tail) :
    replayOnce codec (block codec rows ++ tail) = rows ++ (replayLine codec tail).toList := by
  have back : (rows.map codec.toLine).filterMap (replayLine codec) = rows := by
    rw [List.filterMap_map]
    calc rows.filterMap (replayLine codec ∘ codec.toLine)
        = rows.filterMap some :=
          List.filterMap_congr (fun row inside => (legible row inside).recovered)
      _ = rows := List.filterMap_some
  rw [replayOnce, splitOn_block codec rows tail (fun row inside => (legible row inside).oneLine)
    open_, List.filterMap_append, back]
  cases read : replayLine codec tail with
  | none => rw [List.filterMap_cons_none read, List.filterMap_nil, Option.toList_none]
  | some row => rw [List.filterMap_cons_some read, List.filterMap_nil, Option.toList_some]

/-- A cut block is the block of the first rows and the beginning of the next line. -/
theorem take_block (rows : List Row) (cut : Nat) :
    ∃ done tail, (block codec rows).take cut = block codec done ++ tail ∧ done <+: rows ∧
      (tail = [] ∨ ∃ row ∈ rows, tail <+: codec.toLine row) := by
  induction rows generalizing cut with
  | nil => exact ⟨[], [], List.take_nil, List.prefix_rfl, Or.inl rfl⟩
  | cons row rest ih =>
    have lines : block codec (row :: rest) = (codec.toLine row ++ ['\n']) ++ block codec rest :=
      List.flatMap_cons
    by_cases short : cut ≤ (codec.toLine row).length
    · refine ⟨[], (codec.toLine row).take cut, ?_, List.nil_prefix,
        Or.inr ⟨row, List.mem_cons_self, List.take_prefix cut _⟩⟩
      rw [lines, List.append_assoc, List.take_append_of_le_length short]
      rfl
    · obtain ⟨done, tail, taken, early, beginning⟩ :=
        ih (cut - (codec.toLine row ++ ['\n']).length)
      refine ⟨row :: done, tail, ?_, List.cons_prefix_cons.mpr ⟨rfl, early⟩, ?_⟩
      · have whole : (codec.toLine row ++ ['\n']).length ≤ cut := by
          rw [List.length_append, List.length_singleton]
          omega
        rw [lines, List.take_append, List.take_of_length_le whole, taken]
        simp [block]
      · rcases beginning with none | ⟨other, inside, start⟩
        · exact Or.inl none
        · exact Or.inr ⟨other, List.mem_cons_of_mem row inside, start⟩

/-! ## One step -/

/-- The file is the lines of handed rows and the beginning of one more line, the
returned rows among them in order. -/
structure Lines (file : List Char) (callers : Callers Row) (rows : List Row) (tail : List Char) :
    Prop where
  file : file = block codec rows ++ tail
  tail : tail = [] ∨ ∃ row ∈ callers.handed, tail <+: codec.toLine row
  returned : List.Sublist callers.returned rows
  handed : ∀ row ∈ rows, row ∈ callers.handed

/-- Every handed row is good, and the file is made of lines unless something was
appended behind an unterminated one. -/
structure Readable (good : Row → Prop) (pair : Wal Row × Callers Row) : Prop where
  good : ∀ row ∈ pair.2.handed, good row
  lines : pair.2.merged = false → ∃ rows tail, Lines codec pair.1.file pair.2 rows tail

variable {file : List Char} {callers : Callers Row} {rows : List Row}

/-- The beginning of a legible line has no newline. -/
theorem Lines.open_ {tail : List Char} (lines : Lines codec file callers rows tail)
    (legible : ∀ row ∈ callers.handed, Legible codec row) : '\n' ∉ tail := by
  rcases lines.tail with none | ⟨row, inside, start⟩
  · rw [none]
    exact List.not_mem_nil
  · intro newline
    exact (legible row inside).oneLine (start.subset newline)

theorem Lines.unterminated {tail : List Char} (lines : Lines codec file callers rows tail)
    (legible : ∀ row ∈ callers.handed, Legible codec row) : Wal.unterminated file = tail := by
  rw [lines.file]
  exact unterminated_block codec rows tail
    (fun row inside => (legible row (lines.handed row inside)).oneLine)
    (lines.open_ codec legible)

/-- The condition on a step: rows handed over are good, and a replay finds a file
that nothing was merged into, with an unterminated rest that is the whole line of a
handed row or is harmless. -/
def Allowed (good : Row → Prop) (harmless : List Char → Prop) (pair : Wal Row × Callers Row) :
    WalStep Row → Prop
  | .write rows => ∀ row ∈ rows, good row
  | .fail rows _ => ∀ row ∈ rows, good row
  | .commit => True
  | .reconstruct => pair.2.merged = false ∧
      (harmless (Wal.unterminated pair.1.file) ∨
        ∃ row ∈ pair.2.handed, Wal.unterminated pair.1.file = codec.toLine row)

instance [DecidableEq Row] (good : Row → Prop) (harmless : List Char → Prop)
    [DecidablePred good] [DecidablePred harmless] (pair : Wal Row × Callers Row)
    (taken : WalStep Row) : Decidable (Allowed codec good harmless pair taken) := by
  unfold Allowed
  split
  all_goals infer_instance

/-- More rows handed over leave the lines of the file as they are. -/
theorem Lines.mono {tail : List Char} (lines : Lines codec file callers rows tail)
    (batch : List Row) (merged : Bool) :
    Lines codec file { callers with handed := callers.handed ++ batch, merged := merged } rows
      tail where
  file := lines.file
  tail := by
    rcases lines.tail with none | ⟨row, inside, start⟩
    · exact Or.inl none
    · exact Or.inr ⟨row, List.mem_append_left _ inside, start⟩
  returned := lines.returned
  handed row inside := List.mem_append_left _ (lines.handed row inside)

/-- A whole block behind whole lines. -/
theorem Lines.append (lines : Lines codec file callers rows []) (batch : List Row) (merged : Bool) :
    Lines codec (file ++ block codec batch)
      { returned := callers.returned ++ batch, handed := callers.handed ++ batch,
        merged := merged } (rows ++ batch) [] where
  file := by rw [lines.file, List.append_nil, List.append_nil, block_append]
  tail := Or.inl rfl
  returned := lines.returned.append (List.Sublist.refl batch)
  handed row inside := by
    rcases List.mem_append.mp inside with before | batched
    · exact List.mem_append_left _ (lines.handed row before)
    · exact List.mem_append_right _ batched

/-- The beginning of a block behind whole lines. -/
theorem Lines.append_take (lines : Lines codec file callers rows []) (batch : List Row) (cut : Nat)
    (merged : Bool) :
    ∃ rows tail, Lines codec (file ++ (block codec batch).take cut)
      { callers with handed := callers.handed ++ batch, merged := merged } rows tail := by
  obtain ⟨done, tail, taken, early, beginning⟩ := take_block codec batch cut
  refine ⟨rows ++ done, tail, ?_, ?_, ?_, ?_⟩
  · rw [taken, lines.file, List.append_nil, block_append, List.append_assoc]
  · rcases beginning with none | ⟨row, inside, start⟩
    · exact Or.inl none
    · exact Or.inr ⟨row, List.mem_append_right _ inside, start⟩
  · exact lines.returned.trans (List.sublist_append_left rows done)
  · intro row inside
    rcases List.mem_append.mp inside with before | batched
    · exact List.mem_append_left _ (lines.handed row before)
    · exact List.mem_append_right _ (early.subset batched)

/-- What is appended while nothing gets merged is empty or goes behind whole lines. -/
theorem unmerged {merged : Bool} {text rest : List Char}
    (apart : (merged || (decide (text ≠ []) && decide (rest ≠ []))) = false) :
    merged = false ∧ (text = [] ∨ rest = []) := by
  simp only [Bool.or_eq_false_iff, Bool.and_eq_false_iff, decide_eq_false_iff_not,
    ne_eq, not_not] at apart
  exact apart

theorem good_append {good : Row → Prop} {first second : List Row}
    (before : ∀ row ∈ first, good row) (batch : ∀ row ∈ second, good row) :
    ∀ row ∈ first ++ second, good row := by
  intro row inside
  rcases List.mem_append.mp inside with old | new
  · exact before row old
  · exact batch row new

section Good

variable {good : Row → Prop} (legible : ∀ row, good row → Legible codec row)
include legible

/-- Every allowed step keeps the file readable. -/
theorem readable_step (harmless : List Char → Prop) (pair : Wal Row × Callers Row)
    (taken : WalStep Row) (readable : Readable codec good pair)
    (allowed : Allowed codec good harmless pair taken) :
    Readable codec good (observed codec pair taken) := by
  obtain ⟨wal, callers⟩ := pair
  have handed : ∀ row ∈ callers.handed, Legible codec row :=
    fun row inside => legible row (readable.good row inside)
  cases taken with
  | write batch =>
    refine ⟨good_append readable.good allowed, ?_⟩
    intro apart
    obtain ⟨whole, place⟩ := unmerged apart
    obtain ⟨rows, tail, lines⟩ := readable.lines whole
    cases batch with
    | nil =>
      have same := lines.mono codec []
        (callers.merged || (decide (appended codec (.write []) ≠ []) &&
          decide (unterminated wal.file ≠ [])))
      refine ⟨rows, tail, ?_⟩
      simpa only [observed, Runs.observe, step, writeBatch, note, List.append_nil] using same
    | cons row rest =>
      rcases place with empty | ended
      · exact absurd (List.append_eq_nil_iff.mp empty).1 (by simp)
      · have none : tail = [] := by
          rw [← lines.unterminated codec handed]
          exact ended
        subst none
        exact ⟨rows ++ row :: rest, [], lines.append codec (row :: rest) _⟩
  | fail batch cut =>
    refine ⟨good_append readable.good allowed, ?_⟩
    intro apart
    obtain ⟨whole, place⟩ := unmerged apart
    obtain ⟨rows, tail, lines⟩ := readable.lines whole
    rcases place with empty | ended
    · refine ⟨rows, tail, ?_⟩
      have file : wal.file ++ (block codec batch).take cut = wal.file := by
        have nothing : (block codec batch).take cut = [] := empty
        rw [nothing, List.append_nil]
      have same := lines.mono codec batch
        (callers.merged || (decide (appended codec (.fail batch cut) ≠ []) &&
          decide (unterminated wal.file ≠ [])))
      simpa only [observed, Runs.observe, step, failBatch, note, file] using same
    · have none : tail = [] := by
        rw [← lines.unterminated codec handed]
        exact ended
      subst none
      exact lines.append_take codec batch cut _
  | commit =>
    exact ⟨readable.good, fun _ => ⟨[], [], rfl, Or.inl rfl, List.Sublist.refl [],
      fun row inside => absurd inside List.not_mem_nil⟩⟩
  | reconstruct => exact ⟨readable.good, readable.lines⟩

variable {harmless : List Char → Prop} (refused : ∀ row tail, good row →
  tail <+: codec.toLine row → harmless tail → replayLine codec tail = none)
include refused

/-- A replay of a file that nothing was merged into. -/
theorem durable_reconstruct (pair : Wal Row × Callers Row) (readable : Readable codec good pair)
    (allowed : Allowed codec good harmless pair .reconstruct) :
    Durable (observed codec pair .reconstruct) := by
  obtain ⟨wal, callers⟩ := pair
  obtain ⟨whole, rest⟩ := allowed
  obtain ⟨rows, tail, lines⟩ := readable.lines whole
  have handed : ∀ row ∈ callers.handed, Legible codec row :=
    fun row inside => legible row (readable.good row inside)
  have pending : replayOnce codec wal.file = rows ++ (replayLine codec tail).toList := by
    rw [show wal.file = _ from lines.file]
    exact replayOnce_block codec rows tail
      (fun row inside => handed row (lines.handed row inside)) (lines.open_ codec handed)
  have shown : unterminated wal.file = tail := lines.unterminated codec handed
  have last : ∀ row ∈ (replayLine codec tail).toList, row ∈ callers.handed := by
    intro row inside
    have read : replayLine codec tail = some row := Option.mem_toList.mp inside
    rcases rest with skipped | ⟨other, known, complete⟩
    · rw [shown] at skipped
      rcases lines.tail with none | ⟨other, known, start⟩
      · rw [none] at read
        exact absurd read nofun
      · rw [refused other tail (readable.good other known) start skipped] at read
        exact absurd read nofun
    · rw [← shown, complete, (handed other known).recovered] at read
      rw [← Option.some.inj read]
      exact known
  constructor
  · change List.Sublist callers.returned (replayOnce codec wal.file)
    rw [pending]
    exact lines.returned.trans (List.sublist_append_left rows _)
  · intro row inside
    have inside : row ∈ replayOnce codec wal.file := inside
    rw [pending] at inside
    rcases List.mem_append.mp inside with line | unended
    · exact lines.handed row line
    · exact last row unended

/-- In every run whose steps are allowed, every replay brings back all rows that
returned and only rows that were handed over. -/
theorem durable_of_allowed (pair : Wal Row × Callers Row) (steps : List (WalStep Row))
    (readable : Readable codec good pair)
    (allowed : Runs.Along (observed codec) (Allowed codec good harmless) pair steps) :
    Runs.Along (observed codec)
      (fun before taken => taken = .reconstruct → Durable (observed codec before taken))
      pair steps := by
  induction steps generalizing pair with
  | nil => trivial
  | cons taken rest ih =>
    obtain ⟨here, later⟩ := allowed
    refine ⟨?_, ih _ (readable_step codec legible harmless pair taken readable here) later⟩
    rintro rfl
    exact durable_reconstruct codec legible refused pair readable here

end Good

end Wal

end RithmicEngine
