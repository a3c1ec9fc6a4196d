import RithmicEngine.Base.Numerals
/-!
# Lines of the write-ahead logs

One line per row and stream: the fields in order, joined by commas. Prices are
written with six decimals into a buffer that holds thirty-one characters; an
absent side of a quote and an absent previous depth price are empty fields. The
decoders count fields, read the numbers and refuse an empty symbol or exchange.
The tick and quote decoders ask for as many fields as the encoders write. The
depth decoder asks for twelve, and the depth encoder writes eleven.

A line is a list of characters, one for each byte of the string, and the code
only looks at ASCII ones. Prices are rationals in place of binary doubles.
-/
namespace RithmicEngine

open Numerals

structure TickRow where
  tsMicros : Int64
  price : ℚ
  size : Int64
  isBuy : Bool
  symbol : String
  exchange : String
  deriving DecidableEq

/-- A quote. A side without a price is absent. -/
structure BboRow where
  tsMicros : Int64
  bidPrice : Option ℚ
  bidSize : Int32
  bidOrders : Int32
  askPrice : Option ℚ
  askSize : Int32
  askOrders : Int32
  symbol : String
  exchange : String
  deriving DecidableEq

structure DepthRow where
  tsMicros : Int64
  sourceNs : Int64
  sequenceNumber : Int64
  updateType : Int8
  transactionType : Int8
  depthPrice : ℚ
  prevDepthPrice : Option ℚ
  depthSize : Int32
  exchangeOrderId : String
  symbol : String
  exchange : String
  deriving DecidableEq

/-! ## Fields -/

/-- What fits into the price buffer, its terminator left out. -/
def f6Width : Nat := 31

def appendF6 (v : ℚ) : List Char := (fixed 6 v).take f6Width

def appendOptF6 (v : Option ℚ) : List Char := (v.map appendF6).getD []

def appendOptI (present : Bool) (v : Int32) : List Char :=
  if present then integer v.toInt else []

/-- The fields of a line. An empty line has none, and a trailing comma ends an
empty field. -/
def splitCsv (line : List Char) : List (List Char) :=
  if line = [] then [] else line.splitOn ','

/-- Join fields by commas. -/
def joinCsv (fields : List (List Char)) : List Char := [','].intercalate fields

def stoll (text : List Char) : Option Int64 :=
  match readInteger text with
  | none => none
  | some n => if -2 ^ 63 ≤ n ∧ n < 2 ^ 63 then some (Int64.ofInt n) else none

def stoi (text : List Char) : Option Int32 :=
  match readInteger text with
  | none => none
  | some n => if -2 ^ 31 ≤ n ∧ n < 2 ^ 31 then some (Int32.ofInt n) else none

/-- The magnitudes a double holds without overflow or underflow. -/
def InDoubleRange (x : ℚ) : Prop :=
  |x| < 2 ^ 1024 - 2 ^ 970 ∧ (x = 0 ∨ 1 / 2 ^ 1022 ≤ |x|)
deriving Decidable

def stod (text : List Char) : Option ℚ :=
  match readNumber text with
  | none => none
  | some x => if InDoubleRange x then some x else none

/-- An empty field is an absent price, anything else has to be a number. -/
def parseOptF6 (text : List Char) : Option (Option ℚ) :=
  if text = [] then some none else (stod text).map some

def stoiOrZero (text : List Char) : Option Int32 := if text = [] then some 0 else stoi text

/-! ## Codecs -/

def tickToLine (r : TickRow) : List Char :=
  joinCsv [integer r.tsMicros.toInt, appendF6 r.price, integer r.size.toInt,
    [if r.isBuy then '1' else '0'], r.symbol.toList, r.exchange.toList]

def tickFromLine (line : List Char) : Option TickRow :=
  match splitCsv line with
  | ts :: price :: size :: buy :: symbol :: exchange :: _ => do
    let tsMicros ← stoll ts
    let price ← stod price
    let size ← stoll size
    if symbol = [] ∨ exchange = [] then none
    else some ⟨tsMicros, price, size, decide (buy = ['1']), String.ofList symbol,
      String.ofList exchange⟩
  | _ => none

def bboToLine (r : BboRow) : List Char :=
  joinCsv [integer r.tsMicros.toInt,
    appendOptF6 r.bidPrice, appendOptI r.bidPrice.isSome r.bidSize,
    appendOptI r.bidPrice.isSome r.bidOrders,
    appendOptF6 r.askPrice, appendOptI r.askPrice.isSome r.askSize,
    appendOptI r.askPrice.isSome r.askOrders,
    r.symbol.toList, r.exchange.toList]

def bboFromLine (line : List Char) : Option BboRow :=
  match splitCsv line with
  | ts :: bidP :: bidS :: bidO :: askP :: askS :: askO :: symbol :: exchange :: _ => do
    let tsMicros ← stoll ts
    let bidPrice ← parseOptF6 bidP
    let bidSize ← stoiOrZero bidS
    let bidOrders ← stoiOrZero bidO
    let askPrice ← parseOptF6 askP
    let askSize ← stoiOrZero askS
    let askOrders ← stoiOrZero askO
    if symbol = [] ∨ exchange = [] then none
    else some ⟨tsMicros, bidPrice, bidSize, bidOrders, askPrice, askSize, askOrders,
      String.ofList symbol, String.ofList exchange⟩
  | _ => none

def depthToLine (r : DepthRow) : List Char :=
  joinCsv [integer r.tsMicros.toInt, integer r.sourceNs.toInt, integer r.sequenceNumber.toInt,
    integer r.updateType.toInt, integer r.transactionType.toInt, appendF6 r.depthPrice,
    appendOptF6 r.prevDepthPrice, integer r.depthSize.toInt, r.exchangeOrderId.toList,
    r.symbol.toList, r.exchange.toList]

def depthFromLine (line : List Char) : Option DepthRow :=
  match splitCsv line with
  | ts :: source :: sequence :: update :: transaction :: price :: prev :: size :: orderId ::
      symbol :: exchange :: _ :: _ => do
    let tsMicros ← stoll ts
    let sourceNs ← stoll source
    let sequenceNumber ← stoll sequence
    let updateType ← stoi update
    let transactionType ← stoi transaction
    let depthPrice ← stod price
    let prevDepthPrice ← parseOptF6 prev
    let depthSize ← stoi size
    if symbol = [] ∨ exchange = [] then none
    else some ⟨tsMicros, sourceNs, sequenceNumber, updateType.toInt8, transactionType.toInt8,
      depthPrice, prevDepthPrice, depthSize, String.ofList orderId, String.ofList symbol,
      String.ofList exchange⟩
  | _ => none

/-! ## Fields read back -/

theorem stoll_integer (n : Int64) : stoll (integer n.toInt) = some n := by
  have range : -2 ^ 63 ≤ n.toInt ∧ n.toInt < 2 ^ 63 := ⟨Int64.le_toInt n, Int64.toInt_lt n⟩
  simp only [stoll, readInteger_integer, range, and_self, ↓reduceIte, Int64.ofInt_toInt]

theorem stoi_integer (n : Int32) : stoi (integer n.toInt) = some n := by
  have range : -2 ^ 31 ≤ n.toInt ∧ n.toInt < 2 ^ 31 := ⟨Int32.le_toInt n, Int32.toInt_lt n⟩
  simp only [stoi, readInteger_integer, range, and_self, ↓reduceIte, Int32.ofInt_toInt]

variable (v : ℚ)

/-- Six decimals within the buffer's magnitudes are far inside a double's range. -/
theorem inDoubleRange_of_fits (few : AtMost 6 v) (fits : Fits 6 f6Width v) : InDoubleRange v := by
  have upper : |v| < 10 ^ f6Width := abs_lt_of_fits 6 f6Width v few (by decide) fits
  constructor
  · have room : (10 : ℚ) ^ f6Width < 2 ^ 1024 - 2 ^ 970 := by decide +kernel
    exact upper.trans room
  · by_cases zero : v = 0
    · exact Or.inl zero
    · right
      have lower : 1 / 10 ^ 6 ≤ |v| := unit_le_abs 6 v few zero
      have room : (1 : ℚ) / 2 ^ 1022 ≤ 1 / 10 ^ 6 := by decide +kernel
      exact room.trans lower

/-- A price reads back exactly where it fits the buffer. -/
theorem stod_appendF6_iff (few : AtMost 6 v) : stod (appendF6 v) = some v ↔ Fits 6 f6Width v := by
  rw [← readNumber_take_iff 6 f6Width v few (by decide) (by decide)]
  constructor
  · intro read
    rw [stod] at read
    split at read
    · exact absurd read nofun
    next x found =>
      split at read
      · rw [← read, ← found, appendF6]
      · exact absurd read nofun
  · intro read
    have range : InDoubleRange v := by
      apply inDoubleRange_of_fits v few
      rwa [← readNumber_take_iff 6 f6Width v few (by decide) (by decide)]
    rw [stod, appendF6, read]
    simp only [range, ↓reduceIte]

theorem appendF6_ne_nil : appendF6 v ≠ [] := by
  intro empty
  rcases List.take_eq_nil_iff.mp empty with width | text
  · exact absurd width (by decide)
  · exact fixed_ne_nil 6 v text

/-- An optional price survives its text exactly when its digits fit. -/
theorem parseOptF6_appendOptF6_iff (v : Option ℚ) (few : ∀ p ∈ v, AtMost 6 p) :
    parseOptF6 (appendOptF6 v) = some v ↔ ∀ p ∈ v, Fits 6 f6Width p := by
  cases v with
  | none =>
    constructor
    · intro _ p absent
      exact absurd absent nofun
    · intro _
      rfl
  | some p =>
    have read := stod_appendF6_iff p (few p rfl)
    simp only [parseOptF6, appendOptF6, Option.map_some, Option.getD_some, appendF6_ne_nil,
      ↓reduceIte, Option.mem_def, Option.some.injEq, forall_eq', ← read]
    constructor
    · intro mapped
      obtain ⟨q, found, same⟩ := Option.map_eq_some_iff.mp mapped
      rw [found, same]
    · intro found
      rw [found, Option.map_some]

theorem stoiOrZero_appendOptI (present : Bool) (v : Int32) :
    stoiOrZero (appendOptI present v) = some (if present then v else 0) := by
  cases present with
  | false => rfl
  | true =>
    simp only [appendOptI, stoiOrZero, ↓reduceIte, integer_ne_nil, stoi_integer]

/-! ## Separators -/

/-- Only characters of a printed number. -/
def Numeral (text : List Char) : Prop := ∀ c ∈ text, c = '-' ∨ c = '.' ∨ c.isDigit = true

/-- A numeral has no separator inside. -/
theorem Numeral.not_mem {text : List Char} (numeral : Numeral text) {separator : Char}
    (minus : separator ≠ '-') (point : separator ≠ '.') (digit : separator.isDigit = false) :
    separator ∉ text := by
  intro inside
  rcases numeral separator inside with same | same | same
  · exact minus same
  · exact point same
  · rw [digit] at same
    exact Bool.false_ne_true same

theorem numeral_integer (n : Int) : Numeral (integer n) := by
  intro c inside
  rcases mem_integer n c inside with minus | digit
  · exact Or.inl minus
  · exact Or.inr (Or.inr digit)

theorem numeral_appendF6 : Numeral (appendF6 v) :=
  fun c inside => mem_fixed 6 v c (List.mem_of_mem_take inside)

theorem numeral_appendOptF6 (v : Option ℚ) : Numeral (appendOptF6 v) := by
  cases v with
  | none => exact fun c inside => absurd inside List.not_mem_nil
  | some p => exact numeral_appendF6 p

theorem numeral_appendOptI (present : Bool) (v : Int32) : Numeral (appendOptI present v) := by
  cases present with
  | false => exact fun c inside => absurd inside List.not_mem_nil
  | true => exact numeral_integer v.toInt

theorem numeral_flag (flag : Bool) : Numeral [if flag then '1' else '0'] := by
  intro c inside
  rw [List.mem_singleton.mp inside]
  cases flag <;> decide

/-- A line with a first field is not empty. -/
theorem joinCsv_ne_nil (first : List Char) (rest : List (List Char)) (nonempty : first ≠ []) :
    joinCsv (first :: rest) ≠ [] := by
  cases rest with
  | nil =>
    rw [joinCsv, List.intercalate_singleton]
    exact nonempty
  | cons second more =>
    rw [joinCsv, List.intercalate_cons_cons]
    intro empty
    exact nonempty (List.append_eq_nil_iff.mp (List.append_eq_nil_iff.mp empty).1).1

/-- Splitting a line undoes the joining of comma-free fields. -/
theorem splitCsv_joinCsv (first : List Char) (rest : List (List Char)) (nonempty : first ≠ [])
    (free : ∀ field ∈ first :: rest, ',' ∉ field) :
    splitCsv (joinCsv (first :: rest)) = first :: rest := by
  rw [splitCsv, if_neg (joinCsv_ne_nil first rest nonempty), joinCsv]
  exact List.splitOn_intercalate ',' free (List.cons_ne_nil first rest)

/-! ## Rows of the three streams -/

/-- A row of one of the streams. -/
inductive StreamRow
  | tick (row : TickRow)
  | bbo (row : BboRow)
  | depth (row : DepthRow)
  deriving DecidableEq

namespace StreamRow

/-- What the decoder of the row's own stream makes of its line. -/
def decoded : StreamRow → Option StreamRow
  | tick row => (tickFromLine (tickToLine row)).map tick
  | bbo row => (bboFromLine (bboToLine row)).map bbo
  | depth row => (depthFromLine (depthToLine row)).map depth

def isDepth : StreamRow → Bool
  | depth _ => true
  | _ => false

def symbol : StreamRow → String
  | tick row => row.symbol
  | bbo row => row.symbol
  | depth row => row.symbol

def exchange : StreamRow → String
  | tick row => row.exchange
  | bbo row => row.exchange
  | depth row => row.exchange

def orderId : StreamRow → String
  | depth row => row.exchangeOrderId
  | _ => ""

/-- The prices a row carries. -/
def prices : StreamRow → List ℚ
  | tick row => [row.price]
  | bbo row => row.bidPrice.toList ++ row.askPrice.toList
  | depth row => row.depthPrice :: row.prevDepthPrice.toList

/-- The row with the sizes and orders of an absent side at zero. -/
def canonical : StreamRow → StreamRow
  | bbo row => bbo { row with
      bidSize := if row.bidPrice.isSome then row.bidSize else 0
      bidOrders := if row.bidPrice.isSome then row.bidOrders else 0
      askSize := if row.askPrice.isSome then row.askSize else 0
      askOrders := if row.askPrice.isSome then row.askOrders else 0 }
  | row => row

end StreamRow

/-- A text a line can carry as a field. -/
def Plain (text : String) : Prop := ',' ∉ text.toList ∧ '\n' ∉ text.toList
deriving Decidable

/-- A row whose texts are plain, whose symbol and exchange are not empty and whose
prices have at most six decimals. -/
@[mk_iff]
structure StreamRow.WellFormed (row : StreamRow) : Prop where
  symbol : Plain row.symbol
  exchange : Plain row.exchange
  orderId : Plain row.orderId
  named : row.symbol ≠ ""
  listed : row.exchange ≠ ""
  sixDecimals : ∀ price ∈ row.prices, AtMost 6 price

instance (row : StreamRow) : Decidable row.WellFormed :=
  decidable_of_iff' _ (StreamRow.wellFormed_iff ..)

/-! ## Lines read back -/

/-- The line of a tick row splits into its fields again. -/
theorem splitCsv_tickToLine (row : TickRow) (symbol : Plain row.symbol)
    (exchange : Plain row.exchange) :
    splitCsv (tickToLine row) = [integer row.tsMicros.toInt, appendF6 row.price,
      integer row.size.toInt, [if row.isBuy then '1' else '0'], row.symbol.toList,
      row.exchange.toList] := by
  apply splitCsv_joinCsv _ _ (integer_ne_nil _)
  have comma {text : List Char} (numeral : Numeral text) : ',' ∉ text :=
    numeral.not_mem (by decide) (by decide) (by decide)
  simp only [List.forall_mem_cons]
  exact ⟨comma (numeral_integer _), comma (numeral_appendF6 _), comma (numeral_integer _),
    comma (numeral_flag _), symbol.1, exchange.1, fun _ inside => absurd inside List.not_mem_nil⟩

/-- The line of a quote row splits into its fields again. A missing side is three empty fields. -/
theorem splitCsv_bboToLine (row : BboRow) (symbol : Plain row.symbol)
    (exchange : Plain row.exchange) :
    splitCsv (bboToLine row) = [integer row.tsMicros.toInt, appendOptF6 row.bidPrice,
      appendOptI row.bidPrice.isSome row.bidSize, appendOptI row.bidPrice.isSome row.bidOrders,
      appendOptF6 row.askPrice, appendOptI row.askPrice.isSome row.askSize,
      appendOptI row.askPrice.isSome row.askOrders, row.symbol.toList, row.exchange.toList] := by
  apply splitCsv_joinCsv _ _ (integer_ne_nil _)
  have comma {text : List Char} (numeral : Numeral text) : ',' ∉ text :=
    numeral.not_mem (by decide) (by decide) (by decide)
  simp only [List.forall_mem_cons]
  exact ⟨comma (numeral_integer _), comma (numeral_appendOptF6 _),
    comma (numeral_appendOptI _ _), comma (numeral_appendOptI _ _),
    comma (numeral_appendOptF6 _), comma (numeral_appendOptI _ _),
    comma (numeral_appendOptI _ _), symbol.1, exchange.1,
    fun _ inside => absurd inside List.not_mem_nil⟩

/-- The line of a depth row splits into its fields again, none of which has a comma. -/
theorem splitCsv_depthToLine (row : DepthRow) (symbol : Plain row.symbol)
    (exchange : Plain row.exchange) (orderId : Plain row.exchangeOrderId) :
    splitCsv (depthToLine row) = [integer row.tsMicros.toInt, integer row.sourceNs.toInt,
      integer row.sequenceNumber.toInt, integer row.updateType.toInt,
      integer row.transactionType.toInt, appendF6 row.depthPrice,
      appendOptF6 row.prevDepthPrice, integer row.depthSize.toInt,
      row.exchangeOrderId.toList, row.symbol.toList, row.exchange.toList] := by
  apply splitCsv_joinCsv _ _ (integer_ne_nil _)
  have comma {text : List Char} (numeral : Numeral text) : ',' ∉ text :=
    numeral.not_mem (by decide) (by decide) (by decide)
  simp only [List.forall_mem_cons]
  exact ⟨comma (numeral_integer _), comma (numeral_integer _), comma (numeral_integer _),
    comma (numeral_integer _), comma (numeral_integer _), comma (numeral_appendF6 _),
    comma (numeral_appendOptF6 _), comma (numeral_integer _), orderId.1, symbol.1, exchange.1,
    fun _ inside => absurd inside List.not_mem_nil⟩

theorem toList_ne_nil {text : String} (nonempty : text ≠ "") : text.toList ≠ [] := by
  intro empty
  exact nonempty (String.toList_eq_nil_iff.mp empty)

theorem decide_flag (flag : Bool) : decide ([if flag then '1' else '0'] = ['1']) = flag := by
  cases flag <;> rfl

/-- A tick comes back exactly where its price fits the buffer. -/
theorem tickFromLine_iff (row : TickRow) (formed : (StreamRow.tick row).WellFormed) :
    tickFromLine (tickToLine row) = some row ↔ Fits 6 f6Width row.price := by
  have few : AtMost 6 row.price := formed.sixDecimals row.price List.mem_cons_self
  have named : row.symbol.toList ≠ [] := toList_ne_nil formed.named
  have listed : row.exchange.toList ≠ [] := toList_ne_nil formed.listed
  rw [← stod_appendF6_iff row.price few, tickFromLine,
    splitCsv_tickToLine row formed.symbol formed.exchange]
  simp only [stoll_integer, named, listed, or_self, ↓reduceIte, decide_flag,
    String.ofList_toList, Option.bind_eq_bind, Option.bind_some]
  constructor
  · intro read
    obtain ⟨price, found, same⟩ := Option.bind_eq_some_iff.mp read
    rw [found, ← Option.some.inj same]
  · intro found
    rw [found, Option.bind_some]

/-- A quote comes back, with an absent side at zero, exactly where its prices fit. -/
theorem bboFromLine_iff (row : BboRow) (formed : (StreamRow.bbo row).WellFormed) :
    (bboFromLine (bboToLine row)).map StreamRow.bbo = some (StreamRow.bbo row).canonical ↔
      ∀ price ∈ (StreamRow.bbo row).prices, Fits 6 f6Width price := by
  have bidFew : ∀ p ∈ row.bidPrice, AtMost 6 p := fun p inside =>
    formed.sixDecimals p (List.mem_append_left _ (Option.mem_toList.mpr inside))
  have askFew : ∀ p ∈ row.askPrice, AtMost 6 p := fun p inside =>
    formed.sixDecimals p (List.mem_append_right _ (Option.mem_toList.mpr inside))
  have named : row.symbol.toList ≠ [] := toList_ne_nil formed.named
  have listed : row.exchange.toList ≠ [] := toList_ne_nil formed.listed
  have both : (∀ price ∈ (StreamRow.bbo row).prices, Fits 6 f6Width price) ↔
      parseOptF6 (appendOptF6 row.bidPrice) = some row.bidPrice ∧
        parseOptF6 (appendOptF6 row.askPrice) = some row.askPrice := by
    rw [parseOptF6_appendOptF6_iff row.bidPrice bidFew,
      parseOptF6_appendOptF6_iff row.askPrice askFew]
    simp only [StreamRow.prices, List.forall_mem_append, Option.mem_toList, Option.mem_def]
  rw [both, bboFromLine, splitCsv_bboToLine row formed.symbol formed.exchange]
  simp only [stoll_integer, stoiOrZero_appendOptI, named, listed, or_self, ↓reduceIte,
    String.ofList_toList, Option.bind_eq_bind, Option.bind_some, StreamRow.canonical]
  constructor
  · intro mapped
    obtain ⟨read, found, same⟩ := Option.map_eq_some_iff.mp mapped
    obtain ⟨bid, bidFound, found⟩ := Option.bind_eq_some_iff.mp found
    obtain ⟨ask, askFound, found⟩ := Option.bind_eq_some_iff.mp found
    rw [← Option.some.inj found, StreamRow.bbo.injEq, BboRow.mk.injEq] at same
    rw [bidFound, askFound, same.2.1, same.2.2.2.2.1]
    exact ⟨rfl, rfl⟩
  · rintro ⟨bidFound, askFound⟩
    rw [bidFound, askFound]
    rfl

/-- The depth decoder refuses every line the depth encoder writes: it asks for one
field more. -/
theorem depthFromLine_none (row : DepthRow) (formed : (StreamRow.depth row).WellFormed) :
    depthFromLine (depthToLine row) = none := by
  rw [depthFromLine,
    splitCsv_depthToLine row formed.symbol formed.exchange formed.orderId]

/-- The line codecs are lossless exactly on ticks and quotes whose prices fit the
buffer they are printed into. -/
theorem line_codec_lossless_iff (row : StreamRow) (formed : row.WellFormed) :
    row.decoded = some row.canonical ↔
      row.isDepth = false ∧ ∀ price ∈ row.prices, Fits 6 f6Width price := by
  cases row with
  | tick row =>
    have exact := tickFromLine_iff row formed
    simp only [StreamRow.decoded, StreamRow.canonical, StreamRow.isDepth, StreamRow.prices,
      List.mem_singleton, forall_eq, true_and, ← exact]
    constructor
    · intro mapped
      obtain ⟨read, found, same⟩ := Option.map_eq_some_iff.mp mapped
      rw [found, StreamRow.tick.inj same]
    · intro found
      rw [found, Option.map_some]
  | bbo row =>
    have exact := bboFromLine_iff row formed
    simp only [StreamRow.decoded, StreamRow.isDepth, true_and]
    exact exact
  | depth row =>
    simp only [StreamRow.decoded, depthFromLine_none row formed, Option.map_none,
      StreamRow.isDepth, Bool.true_eq_false, false_and, iff_false]
    exact nofun

/-- A quote with a bid and no ask. -/
def bidOnly : BboRow where
  tsMicros := 1700000000000000
  bidPrice := some (84001 / 4)
  bidSize := 3
  bidOrders := 2
  askPrice := none
  askSize := 9
  askOrders := 9
  symbol := "NQ"
  exchange := "CME"

/-- The one-sided quote comes back with the absent side at zero. -/
theorem one_sided_quote_recovered :
    (StreamRow.bbo bidOnly).decoded = some (StreamRow.bbo bidOnly).canonical :=
  (line_codec_lossless_iff (StreamRow.bbo bidOnly) (by decide +kernel)).mpr (by decide +kernel)

/-- A new order at a price with no previous one. -/
def newOrder : DepthRow where
  tsMicros := 1700000000000000
  sourceNs := 1700000000000000123
  sequenceNumber := 42
  updateType := 1
  transactionType := 2
  depthPrice := 84001 / 4
  prevDepthPrice := none
  depthSize := 5
  exchangeOrderId := "6411"
  symbol := "NQ"
  exchange := "CME"

/-- A well-formed depth row is not recovered from its own line. -/
theorem depth_row_not_recovered :
    ¬∀ row : StreamRow, row.WellFormed → row.decoded = some row.canonical := by
  intro lossless
  have recovered := lossless (StreamRow.depth newOrder) (by decide +kernel)
  exact absurd recovered (by decide +kernel)

end RithmicEngine
