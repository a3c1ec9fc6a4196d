import RithmicEngine.Collector.LineCodec
import RithmicEngine.Collector.Wal
/-!
# The tick log under crashes and failed writes

The tick codec in the write-ahead log. A tick line has six fields and the
exchange stands last, so a line cut before the exchange begins is refused, and a
line cut inside it is read with the beginning of the exchange in its place. A row
that is appended behind a cut line disappears into that line.
-/
namespace RithmicEngine

open Numerals

def tickCodec : Codec TickRow where
  toLine := tickToLine
  fromLine := tickFromLine

/-- A tick the log can hold: plain texts, a price of at most six decimals that fits
its buffer, and an exchange whose last character is not taken for a line end. -/
@[mk_iff]
structure Storable (row : TickRow) : Prop where
  formed : (StreamRow.tick row).WellFormed
  fits : Fits 6 f6Width row.price
  lineEnd : row.exchange.toList.getLast? ≠ some '\r'

instance (row : TickRow) : Decidable (Storable row) :=
  decidable_of_iff' _ (storable_iff ..)

/-- A cut line that ends before its last field has a character. -/
def BeforeExchange (tail : List Char) : Prop :=
  (Wal.stripEnd tail).count ',' < 5 ∨ (Wal.stripEnd tail).getLast? = some ','
deriving Decidable

/-! ## Whole lines -/

/-- Joining fields with commas adds no other separator. -/
theorem not_mem_joinCsv (separator : Char) (comma : separator ≠ ',') (fields : List (List Char))
    (free : ∀ field ∈ fields, separator ∉ field) : separator ∉ joinCsv fields := by
  induction fields with
  | nil => exact List.not_mem_nil
  | cons field rest ih =>
    have here : separator ∉ field := free field List.mem_cons_self
    cases rest with
    | nil =>
      rw [joinCsv, List.intercalate_singleton]
      exact here
    | cons second more =>
      have later : separator ∉ joinCsv (second :: more) :=
        ih (fun other inside => free other (List.mem_cons_of_mem field inside))
      rw [joinCsv, List.intercalate_cons_cons]
      simp only [List.mem_append, List.mem_singleton, not_or]
      exact ⟨⟨here, comma⟩, later⟩

variable (row : TickRow)

/-- A line of the log has no line break inside. -/
theorem newline_not_mem_tickToLine (symbol : Plain row.symbol) (exchange : Plain row.exchange) :
    '\n' ∉ tickToLine row := by
  have newline {text : List Char} (numeral : Numeral text) : '\n' ∉ text :=
    numeral.not_mem (by decide) (by decide) (by decide)
  apply not_mem_joinCsv '\n' (by decide)
  simp only [List.forall_mem_cons]
  exact ⟨newline (numeral_integer _), newline (numeral_appendF6 _), newline (numeral_integer _),
    newline (numeral_flag _), symbol.2, exchange.2,
    fun _ inside => absurd inside List.not_mem_nil⟩

theorem tickToLine_ne_nil : tickToLine row ≠ [] :=
  joinCsv_ne_nil _ _ (integer_ne_nil _)

/-- A line ends as its exchange does. -/
theorem getLast?_tickToLine (listed : row.exchange ≠ "") :
    (tickToLine row).getLast? = row.exchange.toList.getLast? := by
  have nonempty : row.exchange.toList ≠ [] := toList_ne_nil listed
  simp only [tickToLine, joinCsv, List.intercalate_cons_cons, List.intercalate_singleton,
    ← List.append_assoc]
  rw [List.getLast?_append_of_ne_nil _ nonempty]

/-- A storable row's line does not end in a carriage return. -/
theorem stripEnd_tickToLine (storable : Storable row) :
    Wal.stripEnd (tickToLine row) = tickToLine row := by
  rw [Wal.stripEnd, List.rdropWhile_eq_self_iff]
  intro nonempty ended
  have last : (tickToLine row).getLast? = some ((tickToLine row).getLast nonempty) :=
    List.getLast?_eq_some_getLast nonempty
  simp only [Bool.or_eq_true, decide_eq_true_eq] at ended
  rcases ended with newline | carriage
  · have inside : '\n' ∈ tickToLine row := newline ▸ List.getLast_mem nonempty
    exact newline_not_mem_tickToLine row storable.formed.symbol storable.formed.exchange inside
  · rw [carriage, getLast?_tickToLine row storable.formed.listed] at last
    exact storable.lineEnd last

/-- A row that can be stored is read back from its line. -/
theorem legible_of_storable (storable : Storable row) : Wal.Legible tickCodec row where
  oneLine := newline_not_mem_tickToLine row storable.formed.symbol storable.formed.exchange
  recovered := by
    have nonempty : tickToLine row ≠ [] := tickToLine_ne_nil row
    have read : tickFromLine (tickToLine row) = some row :=
      (tickFromLine_iff row storable.formed).mpr storable.fits
    simp [Wal.replayLine, tickCodec, stripEnd_tickToLine row storable, nonempty, read]

/-! ## Cut lines -/

/-- One more part than there are separators. -/
theorem length_splitOn (separator : Char) (text : List Char) :
    (text.splitOn separator).length = text.count separator + 1 := by
  induction text with
  | nil => rfl
  | cons c rest ih =>
    rw [List.splitOn_cons_eq_if_modifyHead, List.count_cons]
    split
    · rw [List.length_cons, ih]
    · rw [List.length_modifyHead, ih, Nat.add_zero]

/-- Only a line of at least six fields with an exchange is a tick. -/
theorem tickFromLine_fields {line : List Char} {row : TickRow}
    (read : tickFromLine line = some row) :
    5 ≤ line.count ',' ∧ (line.count ',' = 5 → line.getLast? ≠ some ',') := by
  rcases fields : splitCsv line with
    - | ⟨ts, - | ⟨price, - | ⟨size, - | ⟨buy, - | ⟨symbol, - | ⟨exchange, more⟩⟩⟩⟩⟩⟩
  case cons.cons.cons.cons.cons.cons =>
    have filled : line ≠ [] := by
      rintro rfl
      cases fields
    have parts : line.splitOn ',' = ts :: price :: size :: buy :: symbol :: exchange :: more := by
      rw [splitCsv, if_neg filled] at fields
      exact fields
    have count := length_splitOn ',' line
    rw [parts] at count
    simp only [List.length_cons] at count
    refine ⟨by omega, ?_⟩
    intro five last
    have none : more = [] := List.length_eq_zero_iff.mp (by omega)
    obtain ⟨body, rfl⟩ := List.getLast?_eq_some_iff.mp last
    rw [List.splitOn_append_cons_self, List.splitOn_nil, none] at parts
    have empty : exchange = [] := by
      have ends := congrArg List.getLast? parts
      rw [List.getLast?_concat] at ends
      exact (Option.some.inj ends).symm
    simp only [tickFromLine, fields, empty, or_true, ↓reduceIte, Option.bind_eq_bind,
      Option.bind_fun_none] at read
    cases read
  -- A line of fewer fields is refused as it is.
  all_goals
    simp only [tickFromLine, fields] at read
    cases read

/-- A line cut before the exchange begins is not read as a tick. -/
theorem cut_line_refused (tail : List Char) (storable : Storable row)
    (beginning : tail <+: tickToLine row) (early : BeforeExchange tail) :
    Wal.replayLine tickCodec tail = none := by
  have shown : Wal.stripEnd tail <+: tickToLine row :=
    (List.rdropWhile_prefix _ tail).trans beginning
  have whole : (tickToLine row).count ',' = 5 := by
    have parts := splitCsv_tickToLine row storable.formed.symbol storable.formed.exchange
    rw [splitCsv, if_neg (tickToLine_ne_nil row)] at parts
    have count := length_splitOn ',' (tickToLine row)
    rw [parts] at count
    simp only [List.length_cons, List.length_nil] at count
    omega
  have few : (Wal.stripEnd tail).count ',' ≤ 5 := whole ▸ shown.sublist.count_le ','
  cases read : Wal.replayLine tickCodec tail with
  | none => rfl
  | some other =>
    have filled : Wal.stripEnd tail ≠ [] := by
      intro blank
      rw [Wal.replayLine, if_pos blank] at read
      cases read
    rw [Wal.replayLine, if_neg filled] at read
    obtain ⟨enough, ended⟩ := tickFromLine_fields read
    rcases early with short | last
    · omega
    · exact absurd last (ended (by omega))

/-! ## Runs -/

/-- The condition on a step of the tick log. -/
def StepSound (pair : Wal TickRow × Wal.Callers TickRow) (taken : WalStep TickRow) : Prop :=
  Wal.Allowed tickCodec Storable BeforeExchange pair taken
deriving Decidable

/-- From an empty log: where every row handed over is storable, and every replay
finds a file in which nothing was appended behind an unterminated line and whose own
unterminated line is whole or ends before its exchange, each replay brings back all
rows that returned since the last commit, in order, and only rows handed over. -/
theorem replay_durable (steps : List (WalStep TickRow))
    (sound : Runs.Along (Wal.observed tickCodec) StepSound
      (({ } : Wal TickRow), ({ } : Wal.Callers TickRow)) steps) :
    Runs.Along (Wal.observed tickCodec)
      (fun pair taken => taken = .reconstruct → Wal.Durable (Wal.observed tickCodec pair taken))
      (({ } : Wal TickRow), ({ } : Wal.Callers TickRow)) steps := by
  refine Wal.durable_of_allowed tickCodec legible_of_storable cut_line_refused _ steps ?_ sound
  exact ⟨fun row inside => absurd inside List.not_mem_nil,
    fun _ => ⟨[], [], rfl, Or.inl rfl, List.Sublist.refl [],
      fun row inside => absurd inside List.not_mem_nil⟩⟩

/-- Two trades of one instant. -/
def bought : TickRow where
  tsMicros := 1700000000000000
  price := 84001 / 4
  size := 2
  isBuy := true
  symbol := "NQ"
  exchange := "CME"

def sold : TickRow := { bought with price := 21000, isBuy := false }

/-- A batch that returned, one that failed within the symbol of its row, a replay, a
commit and one more batch. -/
theorem replay_durable_after_cut :
    Runs.Along (Wal.observed tickCodec)
      (fun pair taken => taken = .reconstruct → Wal.Durable (Wal.observed tickCodec pair taken))
      (({ } : Wal TickRow), ({ } : Wal.Callers TickRow))
      [.write [bought], .fail [sold] 36, .reconstruct, .commit, .write [sold], .reconstruct] :=
  replay_durable [.write [bought], .fail [sold] 36, .reconstruct, .commit, .write [sold],
    .reconstruct] (by decide +kernel)

/-- A line cut inside its exchange is replayed as a row nobody handed over, and a
row appended behind a cut line is lost. -/
theorem torn_line_read_and_row_swallowed :
    ¬Runs.Along (Wal.observed tickCodec)
        (fun pair taken => taken = .reconstruct → Wal.Durable (Wal.observed tickCodec pair taken))
        (({ } : Wal TickRow), ({ } : Wal.Callers TickRow)) [.fail [bought] 38, .reconstruct] ∧
      ¬Runs.Along (Wal.observed tickCodec)
        (fun pair taken => taken = .reconstruct → Wal.Durable (Wal.observed tickCodec pair taken))
        (({ } : Wal TickRow), ({ } : Wal.Callers TickRow))
        [.fail [bought] 20, .write [sold], .reconstruct] := by
  decide +kernel

end RithmicEngine
