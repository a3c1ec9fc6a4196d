import RithmicEngine.Execution.OrbJson
/-!
# The fleet's configuration

The loader of the paper fleet takes the text of each value it needs out of the file, for the
outermost object as for each object of its array of strategies. Its lookup of a key is a copy
of the executor's. Three passes must agree on every document: the lookup, the one that finds
the end of a bracketed value and counts one kind of brackets only, and the one that walks over
the elements of the array and counts all of them.
-/
namespace RithmicEngine

open Json

namespace Fleet

/-! ## The end of a value -/

/-- The text up to the bracket that closes the ones opened, of one kind. -/
def closeAt (opening closing : Char) : Int → Lexing → List Char → Option (List Char)
  | _, _, [] => none
  | depth, .escaped, c :: rest => (closeAt opening closing depth .inside rest).map (c :: ·)
  | depth, .inside, c :: rest => (closeAt opening closing depth (.past c) rest).map (c :: ·)
  | depth, .outside, c :: rest =>
    if c = '"' then (closeAt opening closing depth .inside rest).map (c :: ·)
    else if c = opening then (closeAt opening closing (depth + 1) .outside rest).map (c :: ·)
    else if c = closing then
      if depth - 1 = 0 then some [c]
      else (closeAt opening closing (depth - 1) .outside rest).map (c :: ·)
    else (closeAt opening closing depth .outside rest).map (c :: ·)

/-- The text up to the quote that closes a string. -/
def quoteAt : Lexing → List Char → Option (List Char)
  | _, [] => none
  | .escaped, c :: rest => (quoteAt .inside rest).map (c :: ·)
  | _, c :: rest =>
    if c = '"' then some [c]
    else (quoteAt (.past c) rest).map (c :: ·)

/-- A character that ends a number or a word. -/
def endsWord (c : Char) : Bool := decide (c ∈ [',', '}', ']', '\r', '\n', '\t', ' '])

/-- The text of the value that a text starts with; empty where it does not end. -/
def cutValue : List Char → List Char
  | [] => []
  | c :: rest =>
    if c = '{' then (closeAt '{' '}' 0 .outside (c :: rest)).getD []
    else if c = '[' then (closeAt '[' ']' 0 .outside (c :: rest)).getD []
    else if c = '"' then ((quoteAt .inside rest).map (c :: ·)).getD []
    else (c :: rest).takeWhile fun c => !endsWord c

/-- The text of the value of a key of the outermost object; empty where there is none. -/
def extractValue (s key : List Char) : List Char := (topValue s key).elim [] cutValue

/-! ## The elements of an array -/

/-- The texts of the objects directly inside an array, from some place on, where one may have
started already. -/
def objectsFrom (arr : List Char) : Nat → Int → Lexing → Option Nat → List Char → List (List Char)
  | _, _, _, _, [] => []
  | i, depth, .escaped, start, _ :: rest => objectsFrom arr (i + 1) depth .inside start rest
  | i, depth, .inside, start, c :: rest => objectsFrom arr (i + 1) depth (.past c) start rest
  | i, depth, .outside, start, c :: rest =>
    if c = '"' then objectsFrom arr (i + 1) depth .inside start rest
    else if c = '{' then
      objectsFrom arr (i + 1) (depth + 1) .outside (if depth = 1 then some i else start) rest
    else if c = '}' then
      ((if depth - 1 = 1 then start else none).map
        fun first => (arr.drop first).take (i - first + 1)).toList ++
        objectsFrom arr (i + 1) (depth - 1) .outside (if depth - 1 = 1 then none else start) rest
    else if c = '[' then objectsFrom arr (i + 1) (depth + 1) .outside start rest
    else if c = ']' then objectsFrom arr (i + 1) (depth - 1) .outside start rest
    else objectsFrom arr (i + 1) depth .outside start rest

/-- What the loader is called with, element after element. -/
def forEachObject (arr : List Char) : List (List Char) :=
  objectsFrom arr 0 0 .outside none arr

/-! ## Readers -/

/-- The inside of a string, where a backslash stands for the character after it. -/
def unescape : Bool → List Char → List Char
  | false, [] => []
  | true, [] => ['\\']
  | true, c :: rest => c :: unescape false rest
  | false, c :: rest => if c = '\\' then unescape true rest else c :: unescape false rest

def strOf (v otherwise : List Char) : List Char :=
  if v.length < 2 ∨ v.head? ≠ some '"' then otherwise else unescape false (v.drop 1).dropLast

def boolOf (v : List Char) (otherwise : Bool) : Bool :=
  if v = ['t', 'r', 'u', 'e'] then true
  else if v = ['f', 'a', 'l', 's', 'e'] then false
  else otherwise

def intOf (v : List Char) (otherwise : Int) : Int :=
  if v = [] then otherwise else ((stoi v).map Int32.toInt).getD otherwise

def dblOf (v : List Char) (otherwise : Double) : Double :=
  if v = [] then otherwise else ((stod v).map Double.fin).getD otherwise

end Fleet

open Fleet

structure FleetStrategy where
  id : List Char
  engine : List Char := "orb".toList
  enabled : Bool := true
  paramsJson : List Char
  deriving DecidableEq

structure FleetConfig where
  accountLabel : List Char := "tradeify".toList
  symbol : List Char := "MNQ".toList
  exchange : List Char := "CME".toList
  feedSymbol : List Char := []
  referenceSymbol : List Char := []
  pointValue : Double := 2
  tickSize : Double := 0.25
  startingBalance : Double := 25000
  dailyLossLimit : Double := -500
  trailingDrawdownCap : Double := 1000
  consistencyCapPct : Double := 0.3
  commissionRt : Double := 1
  slippageTicks : Int := 1
  pollMs : Int := 100
  strategyDailyLossLimit : Double := -250
  feedGapResetSecs : Int := 300
  warmupBars : Int := 1600
  strategies : List FleetStrategy := []

/-- What keeps a fleet from loading. -/
inductive FleetError
  | cannotOpen (path : List Char)
  | missingArray (path : List Char)
  | missingId
  | noStrategies (path : List Char)
  deriving DecidableEq

def FleetError.message : FleetError → List Char
  | .cannotOpen path => "Cannot open fleet config: ".toList ++ path
  | .missingArray path => "Fleet config missing \"strategies\" array: ".toList ++ path
  | .missingId => "Fleet strategy entry missing \"id\"".toList
  | .noStrategies path => "Fleet config has zero strategies: ".toList ++ path

/-- One element of the array of strategies. -/
def FleetStrategy.load (obj : List Char) : Except FleetError FleetStrategy :=
  let params := extractValue obj "params".toList
  let s : FleetStrategy := {
    id := strOf (extractValue obj "id".toList) []
    engine := strOf (extractValue obj "engine".toList) "orb".toList
    enabled := boolOf (extractValue obj "enabled".toList) true
    paramsJson := if params = [] then ['{', '}'] else params }
  if s.id = [] then .error .missingId else .ok s

/-- The configuration without its strategies. -/
def FleetConfig.scalars (text : List Char) : FleetConfig :=
  let str (key : String) (d : List Char) := strOf (extractValue text key.toList) d
  let dbl (key : String) (d : Double) := dblOf (extractValue text key.toList) d
  let int (key : String) (d : Int) := intOf (extractValue text key.toList) d
  let c : FleetConfig := {}
  { c with
    accountLabel := str "account_label" c.accountLabel
    symbol := str "symbol" c.symbol
    exchange := str "exchange" c.exchange
    feedSymbol := str "feed_symbol" c.feedSymbol
    referenceSymbol := str "reference_symbol" c.referenceSymbol
    pointValue := dbl "point_value" c.pointValue
    tickSize := dbl "tick_size" c.tickSize
    startingBalance := dbl "starting_balance" c.startingBalance
    dailyLossLimit := dbl "daily_loss_limit" c.dailyLossLimit
    trailingDrawdownCap := dbl "trailing_drawdown_cap" c.trailingDrawdownCap
    consistencyCapPct := dbl "consistency_cap_pct" c.consistencyCapPct
    commissionRt := dbl "commission_rt" c.commissionRt
    slippageTicks := int "slippage_ticks" c.slippageTicks
    pollMs := int "poll_ms" c.pollMs
    feedGapResetSecs := int "feed_gap_reset_secs" c.feedGapResetSecs
    warmupBars := int "warmup_bars" c.warmupBars
    strategyDailyLossLimit := dbl "strategy_daily_loss_limit" c.strategyDailyLossLimit }

/-- Load the fleet from a file, if there is one. -/
def FleetConfig.fromFile (path : List Char) (file : Option (List Char)) :
    Except FleetError FleetConfig :=
  match file with
  | none => .error (.cannotOpen path)
  | some text =>
    let c := FleetConfig.scalars text
    let arr := extractValue text "strategies".toList
    if arr.head? ≠ some '[' then .error (.missingArray path)
    else
      match (forEachObject arr).mapM FleetStrategy.load with
      | .error e => .error e
      | .ok [] => .error (.noStrategies path)
      | .ok strategies => .ok { c with strategies := strategies }

namespace Fleet

/-! ## The end of a value is found -/

variable {opening closing : Char}

/-- The search for the closing bracket passes over a quoted text whole. -/
theorem closeAt_quoted {body : List Char} (quoted : Quoted body) (depth : Int)
    (rest : List Char) :
    closeAt opening closing depth .inside (body ++ '"' :: rest) =
      (closeAt opening closing depth .outside rest).map (body ++ '"' :: ·) := by
  induction quoted with
  | nil => rfl
  | plain c body quote escape _ ih =>
    rw [List.cons_append, closeAt, Lexing.past_plain escape quote, ih, Option.map_map]
    rfl
  | escaped c body _ ih =>
    rw [List.cons_append, List.cons_append, closeAt, Lexing.past_escape, closeAt, ih,
      Option.map_map,
      Option.map_map]
    rfl

/-- A kind of brackets. -/
def Pair (opening closing : Char) : Prop :=
  opening = '{' ∧ closing = '}' ∨ opening = '[' ∧ closing = ']'

/-- One character of the pass outside a string. -/
theorem closeAt_outside (depth : Int) (c : Char) (rest : List Char) :
    closeAt opening closing depth .outside (c :: rest) =
      if c = '"' then (closeAt opening closing depth .inside rest).map (c :: ·)
      else if c = opening then (closeAt opening closing (depth + 1) .outside rest).map (c :: ·)
      else if c = closing then
        if depth - 1 = 0 then some [c]
        else (closeAt opening closing (depth - 1) .outside rest).map (c :: ·)
      else (closeAt opening closing depth .outside rest).map (c :: ·) :=
  rfl

/-- A character that is neither a quote nor one of the brackets counted. -/
theorem closeAt_other {c : Char} (quote : c ≠ '"') (opens : c ≠ opening) (closes : c ≠ closing)
    (depth : Int) (rest : List Char) :
    closeAt opening closing depth .outside (c :: rest) =
      (closeAt opening closing depth .outside rest).map (c :: ·) := by
  rw [closeAt_outside, if_neg quote, if_neg opens, if_neg closes]

/-- An opening bracket starts a level. -/
theorem closeAt_opening (pair : Pair opening closing) (depth : Int) (rest : List Char) :
    closeAt opening closing depth .outside (opening :: rest) =
      (closeAt opening closing (depth + 1) .outside rest).map (opening :: ·) := by
  have quote : opening ≠ '"' := by
    rcases pair with ⟨rfl, _⟩ | ⟨rfl, _⟩
    · decide
    · decide
  rw [closeAt_outside, if_neg quote, if_pos rfl]

/-- A closing bracket ends the value at the outermost depth. -/
theorem closeAt_closing (pair : Pair opening closing) (depth : Int) (rest : List Char) :
    closeAt opening closing depth .outside (closing :: rest) =
      if depth - 1 = 0 then some [closing]
      else (closeAt opening closing (depth - 1) .outside rest).map (closing :: ·) := by
  have others : closing ≠ '"' ∧ closing ≠ opening := by
    rcases pair with ⟨rfl, rfl⟩ | ⟨rfl, rfl⟩
    · decide
    · decide
  rw [closeAt_outside, if_neg others.1, if_neg others.2, if_pos rfl]

variable {c : Char} {doc : Document} {text : List Char}

/-- The text between two brackets of a kind, counted or not. -/
theorem closeAt_group (pair : Pair opening closing) {o : Char} (kind : Pair o c) {inner : List Char}
    {depth : Int} (deep : 0 < depth) (rest : List Char)
    (inside : ∀ (depth : Int), 0 < depth → ∀ rest,
      closeAt opening closing depth .outside (inner ++ rest) =
        (closeAt opening closing depth .outside rest).map (inner ++ ·))
    (later : closeAt opening closing depth .outside (text ++ rest) =
      (closeAt opening closing depth .outside rest).map (text ++ ·)) :
    closeAt opening closing depth .outside (o :: (inner ++ c :: text) ++ rest) =
      (closeAt opening closing depth .outside rest).map ((o :: (inner ++ c :: text)) ++ ·) := by
  rw [List.cons_append, List.append_assoc, List.cons_append]
  have joined : ((o :: (inner ++ c :: text)) ++ ·) =
      ((o :: ·) ∘ (inner ++ ·) ∘ (c :: ·) ∘ (text ++ ·) : List Char → List Char) := by
    funext tail
    simp
  rw [joined]
  rcases kind with ⟨rfl, rfl⟩ | ⟨rfl, rfl⟩
  · rcases pair with ⟨rfl, rfl⟩ | ⟨rfl, rfl⟩
    · rw [closeAt_opening (.inl ⟨rfl, rfl⟩), inside _ (by omega),
        closeAt_closing (.inl ⟨rfl, rfl⟩), if_neg (by omega), Int.add_sub_cancel, later]
      simp
    · rw [closeAt_other (by decide) (by decide) (by decide), inside _ deep,
        closeAt_other (by decide) (by decide) (by decide), later]
      simp
  · rcases pair with ⟨rfl, rfl⟩ | ⟨rfl, rfl⟩
    · rw [closeAt_other (by decide) (by decide) (by decide), inside _ deep,
        closeAt_other (by decide) (by decide) (by decide), later]
      simp
    · rw [closeAt_opening (.inr ⟨rfl, rfl⟩), inside _ (by omega),
        closeAt_closing (.inr ⟨rfl, rfl⟩), if_neg (by omega), Int.add_sub_cancel, later]
      simp

/-- Below a bracket the count comes back to where it was. -/
theorem closeAt_balanced (pair : Pair opening closing) (balanced : Balanced text) (depth : Int)
    (deep : 0 < depth) (rest : List Char) :
    closeAt opening closing depth .outside (text ++ rest) =
      (closeAt opening closing depth .outside rest).map (text ++ ·) := by
  induction balanced generalizing depth rest with
  | nil =>
    exact (congrFun Option.map_id _).symm
  | loose c text loose _ ih =>
    have apart := of_decide_eq_true loose
    simp only [List.mem_cons, List.not_mem_nil, or_false, not_or] at apart
    obtain ⟨quote, brace, brace', bracket, bracket'⟩ := apart
    have others : c ≠ opening ∧ c ≠ closing := by
      rcases pair with ⟨rfl, rfl⟩ | ⟨rfl, rfl⟩
      · exact ⟨brace, brace'⟩
      · exact ⟨bracket, bracket'⟩
    rw [List.cons_append, closeAt_other quote others.1 others.2, ih depth deep, Option.map_map]
    rfl
  | quoted body text quoted _ ih =>
    rw [List.cons_append, List.append_assoc, List.cons_append, closeAt_outside, if_pos rfl,
      closeAt_quoted quoted, ih depth deep, Option.map_map, Option.map_map]
    congr 1
    funext tail
    simp
  | braces inner text _ _ inside ih =>
    exact closeAt_group pair (.inl ⟨rfl, rfl⟩) deep rest inside (ih depth deep rest)
  | brackets inner text _ _ inside ih =>
    exact closeAt_group pair (.inr ⟨rfl, rfl⟩) deep rest inside (ih depth deep rest)

/-- The whole of a bracketed value is found. -/
theorem closeAt_value (pair : Pair opening closing) {inner : List Char} (balanced : Balanced inner)
    (rest : List Char) :
    closeAt opening closing 0 .outside (opening :: (inner ++ closing :: rest)) =
      some (opening :: (inner ++ [closing])) := by
  rw [closeAt_opening pair, closeAt_balanced pair balanced _ (by decide), closeAt_closing pair,
    if_pos (by decide)]
  rfl

/-- A quoted text ends at its closing quote. -/
theorem quoteAt_value {body : List Char} (quoted : Quoted body) (rest : List Char) :
    quoteAt .inside (body ++ '"' :: rest) = some (body ++ ['"']) := by
  induction quoted with
  | nil => rfl
  | plain c body quote escape _ ih =>
    rw [List.cons_append, quoteAt, if_neg quote, Lexing.past_plain escape quote, ih]
    · rfl
    · exact nofun
  | escaped c body _ ih =>
    rw [List.cons_append, List.cons_append, quoteAt, if_neg (by decide), Lexing.past_escape,
      quoteAt, ih]
    · rfl
    · exact nofun

/-! ## The elements are found -/

variable {arr : List Char}

/-- The walk over the array passes over a quoted text whole. -/
theorem objects_quoted {body : List Char} (quoted : Quoted body) (i : Nat) (depth : Int)
    (start : Option Nat) (rest : List Char) :
    objectsFrom arr i depth .inside start (body ++ '"' :: rest) =
      objectsFrom arr (i + body.length + 1) depth .outside start rest := by
  induction quoted generalizing i with
  | nil => rfl
  | plain c body quote escape _ ih =>
    rw [List.cons_append, objectsFrom, Lexing.past_plain escape quote, ih, List.length_cons]
    congr 1
    omega
  | escaped c body _ ih =>
    rw [List.cons_append, List.cons_append, objectsFrom, Lexing.past_escape, objectsFrom, ih,
      List.length_cons, List.length_cons]
    congr 1
    omega

/-- One character of the pass outside a string. -/
theorem objects_outside (i : Nat) (depth : Int) (start : Option Nat) (c : Char)
    (rest : List Char) :
    objectsFrom arr i depth .outside start (c :: rest) =
      if c = '"' then objectsFrom arr (i + 1) depth .inside start rest
      else if c = '{' then
        objectsFrom arr (i + 1) (depth + 1) .outside (if depth = 1 then some i else start) rest
      else if c = '}' then
        ((if depth - 1 = 1 then start else none).map
          fun first => (arr.drop first).take (i - first + 1)).toList ++
          objectsFrom arr (i + 1) (depth - 1) .outside (if depth - 1 = 1 then none else start) rest
      else if c = '[' then objectsFrom arr (i + 1) (depth + 1) .outside start rest
      else if c = ']' then objectsFrom arr (i + 1) (depth - 1) .outside start rest
      else objectsFrom arr (i + 1) depth .outside start rest :=
  rfl

/-- A loose character starts and ends no element. -/
theorem objects_loose (loose : isLoose c = true) (i : Nat) (depth : Int) (start : Option Nat)
    (rest : List Char) :
    objectsFrom arr i depth .outside start (c :: rest) =
      objectsFrom arr (i + 1) depth .outside start rest := by
  have apart := of_decide_eq_true loose
  simp only [List.mem_cons, List.not_mem_nil, or_false, not_or] at apart
  obtain ⟨quote, brace, brace', bracket, bracket'⟩ := apart
  rw [objects_outside, if_neg quote, if_neg brace, if_neg brace', if_neg bracket, if_neg bracket']

/-- A loose text starts and ends no element. -/
theorem objects_loose_text (loose : ∀ c ∈ text, isLoose c = true) (i : Nat) (depth : Int)
    (start : Option Nat) (rest : List Char) :
    objectsFrom arr i depth .outside start (text ++ rest) =
      objectsFrom arr (i + text.length) depth .outside start rest := by
  induction text generalizing i with
  | nil => rfl
  | cons c text ih =>
    rw [List.cons_append, objects_loose (loose c List.mem_cons_self),
      ih fun other inside => loose other (List.mem_cons_of_mem c inside), List.length_cons]
    congr 1
    omega

theorem objects_blank (blank : Blank text) (i : Nat) (depth : Int) (start : Option Nat)
    (rest : List Char) :
    objectsFrom arr i depth .outside start (text ++ rest) =
      objectsFrom arr (i + text.length) depth .outside start rest :=
  objects_loose_text (fun c inside => isBlank_loose (blank c inside)) i depth start rest

/-- A brace that opens no element. -/
theorem objects_open {depth : Int} (deep : depth ≠ 1) (i : Nat) (start : Option Nat)
    (rest : List Char) :
    objectsFrom arr i depth .outside start ('{' :: rest) =
      objectsFrom arr (i + 1) (depth + 1) .outside start rest := by
  rw [objects_outside, if_neg (by decide), if_pos rfl, if_neg deep]

/-- A brace that closes no element. -/
theorem objects_close {depth : Int} (deep : depth - 1 ≠ 1) (i : Nat) (start : Option Nat)
    (rest : List Char) :
    objectsFrom arr i depth .outside start ('}' :: rest) =
      objectsFrom arr (i + 1) (depth - 1) .outside start rest := by
  rw [objects_outside, if_neg (by decide), if_neg (by decide), if_pos rfl, if_neg deep, if_neg deep]
  rfl

theorem objects_openArray (i : Nat) (depth : Int) (start : Option Nat) (rest : List Char) :
    objectsFrom arr i depth .outside start ('[' :: rest) =
      objectsFrom arr (i + 1) (depth + 1) .outside start rest := by
  rw [objects_outside, if_neg (by decide), if_neg (by decide), if_neg (by decide), if_pos rfl]

theorem objects_closeArray (i : Nat) (depth : Int) (start : Option Nat) (rest : List Char) :
    objectsFrom arr i depth .outside start (']' :: rest) =
      objectsFrom arr (i + 1) (depth - 1) .outside start rest := by
  rw [objects_outside, if_neg (by decide), if_neg (by decide), if_neg (by decide),
    if_neg (by decide), if_pos rfl]

/-- Inside an element nothing starts and nothing ends. -/
theorem objects_balanced (balanced : Balanced text) (i : Nat) (depth : Int) (deep : 1 < depth)
    (start : Option Nat) (rest : List Char) :
    objectsFrom arr i depth .outside start (text ++ rest) =
      objectsFrom arr (i + text.length) depth .outside start rest := by
  induction balanced generalizing i depth rest with
  | nil => rfl
  | loose c text loose _ ih =>
    rw [List.cons_append, objects_loose loose, ih _ _ deep, List.length_cons]
    congr 1
    omega
  | quoted body text quoted _ ih =>
    rw [List.cons_append, List.append_assoc, List.cons_append, objects_outside, if_pos rfl,
      objects_quoted quoted, ih _ _ deep]
    simp only [List.length_cons, List.length_append]
    congr 1
    omega
  | braces inner text _ _ inside ih =>
    rw [List.cons_append, List.append_assoc, List.cons_append, objects_open (by omega),
      inside _ _ (by omega), objects_close (by omega), Int.add_sub_cancel, ih _ _ deep]
    simp only [List.length_cons, List.length_append]
    congr 1
    omega
  | brackets inner text _ _ inside ih =>
    rw [List.cons_append, List.append_assoc, List.cons_append, objects_openArray,
      inside _ _ (by omega), objects_closeArray, Int.add_sub_cancel, ih _ _ deep]
    simp only [List.length_cons, List.length_append]
    congr 1
    omega

/-- Of all values only objects start with a brace. -/
def isObject (value : List Char) : Bool := decide (value.head? = some '{')

/-- A value directly inside the array is handed on if it is an object. -/
theorem objects_value {value : List Char} (isValue : IsValue value) (front rest : List Char)
    (here : arr = front ++ (value ++ rest)) :
    objectsFrom arr front.length 1 .outside none (value ++ rest) =
      [value].filter isObject ++
        objectsFrom arr (front.length + value.length) 1 .outside none rest := by
  cases isValue with
  | scalar text scalar =>
    have plain : isObject value = false := by
      obtain ⟨c, others, isValue⟩ := List.exists_cons_of_ne_nil scalar.ne_nil
      have word := scalar.worded c (by rw [isValue]; exact List.mem_cons_self)
      have apart : c ≠ '{' := ne_of_isWord word (by decide)
      rw [isValue]
      exact decide_eq_false fun same => apart (Option.some.inj same)
    rw [objects_loose_text fun c inside => isWord_loose (scalar.worded c inside),
      List.filter_cons_of_neg (by rw [plain]; decide)]
    rfl
  | string body spelled =>
    rw [List.filter_cons_of_neg (by exact Bool.false_ne_true), List.cons_append,
      List.append_assoc, List.singleton_append, objects_outside, if_pos rfl,
      objects_quoted spelled.quoted]
    simp only [List.filter_nil, List.nil_append, List.length_cons, List.length_append,
      List.length_nil]
    congr 1
    omega
  | array inner elements blanks spaced values =>
    have balanced : Balanced (between inner (elements.map Element.text)) :=
      .elements blanks spaced fun e among => (values e among).balanced
    rw [List.filter_cons_of_neg (by exact Bool.false_ne_true), List.cons_append,
      List.append_assoc, objects_openArray, objects_balanced balanced _ _ (by decide),
      List.singleton_append, objects_closeArray]
    simp only [List.filter_nil, List.nil_append, List.length_cons, List.length_append,
      List.length_nil]
    congr 1
    omega
  | object inner members blanks spaced keys values =>
    have balanced : Balanced (between inner (members.map Member.text)) :=
      .members blanks spaced keys fun m among => (values m among).balanced
    have cut (tail : List Char) (length : Nat) (whole : length = tail.length)
        (isArr : arr = front ++ (tail ++ rest)) : (arr.drop front.length).take length = tail := by
      rw [isArr, List.drop_left, whole, List.take_left]
    rw [List.filter_cons_of_pos (by exact rfl)]
    rw [List.cons_append, List.append_assoc, objects_outside, if_neg (by decide), if_pos rfl,
      if_pos rfl, objects_balanced balanced _ _ (by decide), List.singleton_append,
      objects_outside, if_neg (by decide), if_neg (by decide), if_pos rfl, if_pos (by decide),
      if_pos (by decide), Option.map_some, Option.toList_some, cut _ _ _ here]
    · simp only [List.filter_nil, List.length_cons, List.length_append, List.length_nil]
      congr 2
      omega
    · simp only [List.length_cons, List.length_append, List.length_nil]
      omega

/-- The scan finds exactly the objects among the elements of an array, in order. -/
theorem objects_elements {elements : List Element} (spaced : ∀ e ∈ elements, e.Spaced)
    (values : ∀ e ∈ elements, IsValue e.value) (front : List Char)
    (here : arr = front ++ (separated (elements.map Element.text) ++ [']'])) :
    objectsFrom arr front.length 1 .outside none
        (separated (elements.map Element.text) ++ [']']) =
      (elements.map Element.value).filter isObject := by
  induction elements generalizing front with
  | nil => rfl
  | cons e elements ih =>
    obtain ⟨before, after⟩ := spaced e List.mem_cons_self
    have value := values e List.mem_cons_self
    have walked (rest : List Char) (isArr : arr = front ++ (e.text ++ rest)) :
        objectsFrom arr front.length 1 .outside none (e.text ++ rest) =
          [e.value].filter isObject ++
            objectsFrom arr (front ++ e.text).length 1 .outside none rest := by
      have shape : e.text ++ rest = e.before ++ (e.value ++ (e.after ++ rest)) := by
        simp [Element.text]
      have placed : arr = (front ++ e.before) ++ (e.value ++ (e.after ++ rest)) := by
        rw [isArr, shape, List.append_assoc]
      rw [shape, objects_blank before, ← List.length_append, objects_value value _ _ placed,
        objects_blank after]
      simp only [Element.text, List.length_append]
      congr 2
      omega
    cases elements with
    | nil =>
      rw [List.map_cons, List.map_nil, separated] at here ⊢
      rw [walked [']'] here]
      exact List.append_nil _
    | cons next elements =>
      rw [List.map_cons, List.map_cons, separated, List.append_assoc, List.cons_append,
        ← List.map_cons (f := Element.text)] at here ⊢
      have later := ih (fun other inside => spaced other (List.mem_cons_of_mem e inside))
        (fun other inside => values other (List.mem_cons_of_mem e inside))
        (front ++ e.text ++ [',']) (by
          rw [here]
          simp only [List.append_assoc, List.cons_append, List.nil_append])
      rw [List.length_append, List.length_singleton] at later
      rw [walked _ here, objects_loose (by decide), later, ← List.filter_append]
      rfl

/-- The loader is called with the objects directly inside the array, in their order. -/
theorem forEachObject_exact {blank : List Char} {elements : List Element} (blanks : Blank blank)
    (spaced : ∀ e ∈ elements, e.Spaced) (values : ∀ e ∈ elements, IsValue e.value) :
    forEachObject ('[' :: (between blank (elements.map Element.text) ++ [']'])) =
      (elements.map Element.value).filter isObject := by
  unfold forEachObject
  rw [objects_openArray]
  cases elements with
  | nil =>
    rw [List.map_nil, between, if_pos rfl, objects_blank blanks, objects_closeArray]
    rfl
  | cons e elements =>
    rw [between, if_neg (by exact List.cons_ne_nil _ _)]
    exact objects_elements spaced values ['['] rfl

/-! ## The value of a key is extracted -/

theorem endsWord_of_isWord (word : isWord c = true) : endsWord c = false := by
  apply decide_eq_false
  intro ends
  have all : ∀ c ∈ [',', '}', ']', '\r', '\n', '\t', ' '], isWord c = false := by decide
  exact Bool.false_ne_true ((all c ends).symm.trans word)

/-- A value is cut off where it ends. -/
theorem cutValue_exact {value : List Char} (isValue : IsValue value) {c : Char}
    (ends : c = ',' ∨ c = '}' ∨ Json.isBlank c = true) (tail : List Char) :
    cutValue (value ++ c :: tail) = value := by
  cases isValue with
  | scalar text scalar =>
    obtain ⟨w, others, isText⟩ := List.exists_cons_of_ne_nil scalar.ne_nil
    have worded := scalar.worded
    have word := worded w (by rw [isText]; exact List.mem_cons_self)
    have whole : (value ++ c :: tail).takeWhile (fun c => !endsWord c) =
        value := by
      rw [List.takeWhile_append_of_pos]
      · have stops : endsWord c = true := by
          rcases ends with rfl | rfl | isBlank
          · decide
          · decide
          · have all : ∀ c ∈ [' ', '\t', '\r', '\n'], endsWord c = true := by decide
            exact all c (of_decide_eq_true isBlank)
        rw [List.takeWhile_cons_of_neg (by rw [stops]; decide), List.append_nil]
      · intro other among
        rw [endsWord_of_isWord (worded other among)]
        rfl
    rw [isText, List.cons_append] at whole ⊢
    rw [cutValue, if_neg (ne_of_isWord word (by decide)), if_neg (ne_of_isWord word (by decide)),
      if_neg (ne_of_isWord word (by decide))]
    exact whole
  | string body spelled =>
    rw [List.cons_append, List.append_assoc, List.singleton_append]
    change ((quoteAt .inside (body ++ '"' :: (c :: tail))).map ('"' :: ·)).getD [] = _
    rw [quoteAt_value spelled.quoted]
    rfl
  | array inner elements blanks spaced values =>
    have balanced : Balanced (between inner (elements.map Element.text)) :=
      .elements blanks spaced fun e among => (values e among).balanced
    rw [List.cons_append, List.append_assoc, List.singleton_append]
    change (closeAt '[' ']' 0 .outside ('[' :: (between inner (elements.map Element.text) ++
      ']' :: (c :: tail)))).getD [] = _
    rw [closeAt_value (.inr ⟨rfl, rfl⟩) balanced]
    rfl
  | object inner members blanks spaced keys values =>
    have balanced : Balanced (between inner (members.map Member.text)) :=
      .members blanks spaced keys fun m among => (values m among).balanced
    rw [List.cons_append, List.append_assoc, List.singleton_append]
    change (closeAt '{' '}' 0 .outside ('{' :: (between inner (members.map Member.text) ++
      '}' :: (c :: tail)))).getD [] = _
    rw [closeAt_value (.inl ⟨rfl, rfl⟩) balanced]
    rfl

/-- The extracted text is the value of the first member with the key. -/
theorem extractValue_member {key : List Char} (formed : doc.WellFormed) (bare : Bare key)
    (colonless : ':' ∉ key) {m : Member} (found : doc.member key = some m) :
    extractValue doc.text key = m.element.value := by
  obtain ⟨rest, closing, top⟩ := topValue_member formed bare colonless found
  have inside := List.mem_of_find?_eq_some found
  obtain ⟨c, tail, isBehind, ends⟩ :=
    behind_value (formed.spaced m inside).2.2.2 closing
  unfold extractValue
  rw [top, isBehind]
  exact cutValue_exact (formed.values m inside) ends tail

theorem extractValue_none {key : List Char} (formed : doc.WellFormed) (bare : Bare key)
    (missing : doc.member key = none) : extractValue doc.text key = [] := by
  unfold extractValue
  rw [topValue_none formed bare missing]
  rfl

/-! ## Fleets -/

/-- The text of the value of a key, empty where the object does not have it. -/
def valueOf (doc : Document) (key : String) : List Char :=
  (doc.member key.toList).elim [] fun m => m.element.value

/-- What an object among the strategies says. -/
def strategyOf (obj : Document) : FleetStrategy where
  id := strOf (valueOf obj "id") []
  engine := strOf (valueOf obj "engine") "orb".toList
  enabled := boolOf (valueOf obj "enabled") true
  paramsJson := (obj.member "params".toList).elim ['{', '}'] fun m => m.element.value

/-- The object has an id that is not empty. -/
def Identified (obj : Document) : Prop :=
  ∃ m body, obj.member "id".toList = some m ∧ m.element.value = '"' :: (body ++ ['"']) ∧ body ≠ []

theorem extractValue_eq {key : String} (formed : doc.WellFormed) (bare : Bare key.toList)
    (colonless : ':' ∉ key.toList) : extractValue doc.text key.toList = valueOf doc key := by
  unfold valueOf
  cases found : doc.member key.toList with
  | none => exact extractValue_none formed bare found
  | some m => exact extractValue_member formed bare colonless found

theorem unescape_ne_nil {body : List Char} (nonempty : body ≠ []) : unescape false body ≠ [] := by
  cases body with
  | nil => exact absurd rfl nonempty
  | cons c rest =>
    unfold unescape
    split_ifs
    · cases rest with
      | nil => exact List.cons_ne_nil _ _
      | cons e rest => exact List.cons_ne_nil _ _
    · exact List.cons_ne_nil _ _

/-- An identified strategy object is read as its members say. -/
theorem load_exact {obj : Document} (formed : obj.WellFormed)
    (identified : Identified obj) : FleetStrategy.load obj.text = .ok (strategyOf obj) := by
  have read (key : String) (bare : Bare key.toList) (colonless : ':' ∉ key.toList) :
      extractValue obj.text key.toList = valueOf obj key :=
    extractValue_eq formed bare colonless
  have named : strOf (valueOf obj "id") [] ≠ [] := by
    obtain ⟨m, body, found, isString, nonempty⟩ := identified
    have value : valueOf obj "id" = '"' :: (body ++ ['"']) := by
      unfold valueOf
      rw [found]
      exact isString
    have long : ¬(('"' :: (body ++ ['"'])).length < 2 ∨
        ('"' :: (body ++ ['"'])).head? ≠ some '"') := by
      rintro (short | other)
      · simp only [List.length_cons, List.length_append, List.length_nil] at short
        omega
      · exact other rfl
    unfold strOf
    rw [value, if_neg long, List.drop_one, List.tail_cons, List.dropLast_concat]
    exact unescape_ne_nil nonempty
  have params : (if valueOf obj "params" = [] then ['{', '}'] else valueOf obj "params") =
      (strategyOf obj).paramsJson := by
    unfold strategyOf valueOf
    cases found : obj.member "params".toList with
    | none => rfl
    | some m =>
      obtain ⟨c, rest, isValue, _⟩ :=
        (formed.values m (List.mem_of_find?_eq_some found)).head
      have nonempty : m.element.value ≠ [] := by
        rw [isValue]
        exact List.cons_ne_nil c rest
      exact if_neg nonempty
  unfold FleetStrategy.load
  dsimp only
  rw [read "id" ⟨by decide, by decide⟩ (by decide),
    read "engine" ⟨by decide, by decide⟩ (by decide),
    read "enabled" ⟨by decide, by decide⟩ (by decide),
    read "params" ⟨by decide, by decide⟩ (by decide), if_neg named, params]
  rfl

/-- Every element with an id is loaded, in file order. -/
theorem loads_exact {objs : List Document}
    (each : ∀ obj ∈ objs, obj.WellFormed ∧ Identified obj) :
    (objs.map Document.text).mapM FleetStrategy.load =
      (.ok (objs.map strategyOf) : Except FleetError (List FleetStrategy)) := by
  induction objs with
  | nil => rfl
  | cons obj objs ih =>
    obtain ⟨formed, identified⟩ := each obj List.mem_cons_self
    rw [List.map_cons, List.mapM_cons, load_exact formed identified,
      ih fun other inside => each other (List.mem_cons_of_mem obj inside)]
    rfl

end Fleet

/-- Where the strategies are an array with an object in it, there is one strategy for each of
its objects, in the order of the file, with the text of its parameters. -/
theorem strategies_exact {doc : Document} (formed : doc.WellFormed)
    {m : Member} (found : doc.member "strategies".toList = some m) {blank : List Char}
    {elements : List Element}
    (isArray : m.element.value = '[' :: (between blank (elements.map Element.text) ++ [']']))
    (blanks : Blank blank) (spaced : ∀ e ∈ elements, e.Spaced)
    (values : ∀ e ∈ elements, IsValue e.value) {objs : List Document}
    (objects : (elements.map Element.value).filter isObject = objs.map Document.text)
    (each : ∀ obj ∈ objs, obj.WellFormed ∧ Identified obj) (any : objs ≠ [])
    (path : List Char) :
    ∃ c, FleetConfig.fromFile path (some doc.text) = .ok c ∧
      c.strategies = objs.map strategyOf := by
  have extracted : extractValue doc.text "strategies".toList =
      '[' :: (between blank (elements.map Element.text) ++ [']']) := by
    rw [extractValue_member formed ⟨by decide, by decide⟩ (by decide) found, isArray]
  have loaded : (forEachObject (extractValue doc.text "strategies".toList)).mapM
      FleetStrategy.load =
        (.ok (objs.map strategyOf) : Except FleetError (List FleetStrategy)) := by
    rw [extracted, forEachObject_exact blanks spaced values, objects]
    exact loads_exact each
  obtain ⟨obj, others, rfl⟩ := List.exists_cons_of_ne_nil any
  refine ⟨{ FleetConfig.scalars doc.text with
    strategies := (obj :: others).map strategyOf }, ?_, rfl⟩
  unfold FleetConfig.fromFile
  dsimp only
  rw [loaded, extracted, if_neg (by exact fun other => other rfl)]
  rfl

namespace Fleet

def tightElement (value : List Char) : Element where
  before := []
  value := value
  after := []

theorem tightElement_spaced (value : List Char) : (tightElement value).Spaced := by
  have none : Blank [] := fun _ inside => nomatch inside
  exact ⟨none, none⟩

/-- A strategy whose parameters have a closing brace and a bracket in a string. -/
def bracedEntry : Document :=
  tightObject [tightMember "params" "\x7b\"a\":\"\x7d]\"\x7d", tightMember "id" "\"one\""]

def plainEntry : Document := tightObject [tightMember "id" "\"two\""]

/-- Two strategies among a string of brackets, an array with an object in it and a number. -/
def entries : List Element :=
  [tightElement "\"\x7d]\x7b\"".toList, tightElement "[\x7b\x7d]".toList,
    tightElement bracedEntry.text, tightElement ['7'], tightElement plainEntry.text]

def entriesFile : Document :=
  tightObject [tightMember "_n" "\"[\x7b\"",
    { before := [], key := "strategies".toList, after := [], element :=
      tightElement ('[' :: (between [] (entries.map Element.text) ++ [']'])) }]

/-- The file with braces in a string is well formed. -/
theorem bracedEntry_wellFormed : bracedEntry.WellFormed := by
  refine tightMembers_wellFormed [("params", "\x7b\"a\":\"\x7d]\"\x7d"),
    ("id", "\"one\"")] (by decide) ?_
  rintro m (_ | ⟨_, _ | ⟨_, inside⟩⟩)
  · refine @tightObject_isValue [tightMember "a" "\"\x7d]\""]
      (tightMembers_wellFormed [("a", "\"\x7d]\"")] (by decide) ?_)
    rintro m (_ | ⟨_, inside⟩)
    · exact .string "\x7d]".toList (.of_printable (by decide))
    · exact nomatch inside
  · exact .string "one".toList (.of_printable (by decide))
  · exact nomatch inside

theorem plainEntry_wellFormed : plainEntry.WellFormed := by
  refine tightMembers_wellFormed [("id", "\"two\"")] (by decide) ?_
  rintro m (_ | ⟨_, inside⟩)
  · exact .string "two".toList (.of_printable (by decide))
  · exact nomatch inside

/-- Every element of the file is a JSON value. -/
theorem entries_values : ∀ e ∈ entries, IsValue e.value := by
  have whole : IsScalar ['7'] := .inl ⟨[], ['7'], [], [], .inl rfl,
    .inr ⟨by unfold Numerals.Digital; decide, by decide, by decide⟩, .inl rfl, .inl rfl, rfl⟩
  have none : Blank [] := fun _ inside => nomatch inside
  rintro e (_ | ⟨_, _ | ⟨_, _ | ⟨_, _ | ⟨_, _ | ⟨_, inside⟩⟩⟩⟩⟩)
  · exact .string "\x7d]\x7b".toList (.of_printable (by decide))
  · refine .array [] [tightElement "\x7b\x7d".toList] none ?_ ?_
    · rintro e (_ | ⟨_, inside⟩)
      · exact tightElement_spaced _
      · exact nomatch inside
    · rintro e (_ | ⟨_, inside⟩)
      · exact .object [] [] none (fun _ inside => nomatch inside)
          (fun _ inside => nomatch inside) (fun _ inside => nomatch inside)
      · exact nomatch inside
  · exact tightObject_isValue bracedEntry_wellFormed
  · exact .scalar _ whole
  · exact tightObject_isValue plainEntry_wellFormed
  · exact nomatch inside

theorem entries_spaced : ∀ e ∈ entries, e.Spaced := by
  rintro e (_ | ⟨_, _ | ⟨_, _ | ⟨_, _ | ⟨_, _ | ⟨_, inside⟩⟩⟩⟩⟩)
  · exact tightElement_spaced _
  · exact tightElement_spaced _
  · exact tightElement_spaced _
  · exact tightElement_spaced _
  · exact tightElement_spaced _
  · exact nomatch inside

/-- The file of the witness is well formed. -/
theorem entriesFile_wellFormed : entriesFile.WellFormed where
  lead := fun _ inside => nomatch inside
  blank := fun _ inside => nomatch inside
  trail := fun _ inside => nomatch inside
  spaced := by
    have none : Blank [] := fun _ inside => nomatch inside
    rintro m (_ | ⟨_, _ | ⟨_, inside⟩⟩)
    · exact tightMember_spaced _ _
    · exact ⟨none, none, none, none⟩
    · exact nomatch inside
  keys := by
    rintro m (_ | ⟨_, _ | ⟨_, inside⟩⟩)
    · exact .of_printable (by decide)
    · exact .of_printable (by decide)
    · exact nomatch inside
  values := by
    rintro m (_ | ⟨_, _ | ⟨_, inside⟩⟩)
    · exact .string "[\x7b".toList (.of_printable (by decide))
    · exact .array [] entries (fun _ inside => nomatch inside) entries_spaced entries_values
    · exact nomatch inside

end Fleet

/-- Its strategies are read as its objects say. -/
theorem strategies_exact_of_entries : ∃ c,
    FleetConfig.fromFile "fleet.json".toList (some entriesFile.text) = .ok c ∧
      c.strategies = [
        { id := "one".toList, paramsJson := "\x7b\"a\":\"\x7d]\"\x7d".toList },
        { id := "two".toList, paramsJson := "\x7b\x7d".toList }] := by
  have each : ∀ obj ∈ [bracedEntry, plainEntry],
      obj.WellFormed ∧ Identified obj := by
    rintro obj (_ | ⟨_, _ | ⟨_, inside⟩⟩)
    · exact ⟨bracedEntry_wellFormed,
        tightMember "id" "\"one\"", "one".toList, by rfl, by rfl, by decide⟩
    · exact ⟨plainEntry_wellFormed,
        tightMember "id" "\"two\"", "two".toList, by rfl, by rfl, by decide⟩
    · exact nomatch inside
  have none : Blank [] := fun _ inside => nomatch inside
  obtain ⟨c, loaded, strategies⟩ := strategies_exact entriesFile_wellFormed
    (by rfl) (by rfl) none
    entries_spaced entries_values (by decide) each (List.cons_ne_nil _ _) "fleet.json".toList
  exact ⟨c, loaded, strategies.trans (by decide)⟩

namespace Fleet

/-- A fleet whose array has an element but no object. -/
def numberFile : Document := tightObject [tightMember "strategies" "[1]"]

theorem one_isValue : IsValue ['1'] :=
  .scalar _ (.inl ⟨[], ['1'], [], [], .inl rfl,
    .inr ⟨by unfold Numerals.Digital; decide, by decide, by decide⟩, .inl rfl, .inl rfl, rfl⟩)

/-- An array with one element. -/
theorem oneElement_isValue {value : List Char} (isValue : IsValue value) :
    IsValue ('[' :: (between [] ([tightElement value].map Element.text) ++ [']'])) := by
  refine .array [] [tightElement value] (fun _ inside => nomatch inside) ?_ ?_
  · rintro e (_ | ⟨_, inside⟩)
    · exact tightElement_spaced _
    · exact nomatch inside
  · rintro e (_ | ⟨_, inside⟩)
    · exact isValue
    · exact nomatch inside

theorem numberFile_wellFormed : numberFile.WellFormed := by
  refine tightMembers_wellFormed [("strategies", "[1]")] (by decide) ?_
  rintro m (_ | ⟨_, inside⟩)
  · exact oneElement_isValue one_isValue
  · exact nomatch inside

/-- A fleet with a strategy whose id is a number. -/
def numberedFile : Document := tightObject [tightMember "strategies" "[\x7b\"id\":1\x7d]"]

/-- The file with the numbered entry is well formed. -/
theorem numberedFile_wellFormed : numberedFile.WellFormed := by
  refine tightMembers_wellFormed [("strategies", "[\x7b\"id\":1\x7d]")] (by decide) ?_
  rintro m (_ | ⟨_, inside⟩)
  · refine oneElement_isValue (@tightObject_isValue [tightMember "id" "1"]
      (tightMembers_wellFormed [("id", "1")] (by decide) ?_))
    rintro m (_ | ⟨_, inside⟩)
    · exact one_isValue
    · exact nomatch inside
  · exact nomatch inside

end Fleet

/-- An array with an element but no object in it is refused, and so is an id that is a number. -/
theorem numberFile_is_refused : (¬∀ (doc : Document) (m : Member) (blank : List Char)
    (elements : List Element) (objs : List Document) (path : List Char),
    doc.WellFormed → doc.Unescaped → doc.member "strategies".toList = some m →
    m.element.value = '[' :: (between blank (elements.map Element.text) ++ [']']) →
    Blank blank → (∀ e ∈ elements, e.Spaced) → (∀ e ∈ elements, IsValue e.value) →
    (elements.map Element.value).filter isObject = objs.map Document.text →
    (∀ obj ∈ objs, obj.WellFormed ∧ obj.Unescaped ∧ Identified obj) → elements ≠ [] →
    ∃ c, FleetConfig.fromFile path (some doc.text) = .ok c ∧
      c.strategies = objs.map strategyOf) ∧
    numberedFile.WellFormed ∧ numberedFile.Unescaped ∧
    FleetConfig.fromFile [] (some numberedFile.text) = .error .missingId := by
  refine ⟨fun loads => ?_, numberedFile_wellFormed, by unfold Document.Unescaped; decide, by rfl⟩
  have formed := numberFile_wellFormed
  have spaced : ∀ e ∈ [tightElement ['1']], e.Spaced := by
    rintro e (_ | ⟨_, inside⟩)
    · exact tightElement_spaced _
    · exact nomatch inside
  have values : ∀ e ∈ [tightElement ['1']], IsValue e.value := by
    rintro e (_ | ⟨_, inside⟩)
    · exact one_isValue
    · exact nomatch inside
  have none : Blank [] := fun _ inside => nomatch inside
  have each : ∀ obj ∈ ([] : List Document),
      obj.WellFormed ∧ obj.Unescaped ∧ Identified obj := fun _ inside => nomatch inside
  obtain ⟨c, loaded, _⟩ := loads numberFile (tightMember "strategies" "[1]") []
    [tightElement ['1']] [] [] formed (by unfold Document.Unescaped; decide) (by rfl) (by rfl)
    none spaced values (by decide) each (List.cons_ne_nil _ _)
  have refused : FleetConfig.fromFile [] (some numberFile.text) = .error (.noStrategies []) := by
    rfl
  rw [refused] at loaded
  exact nomatch loaded

end RithmicEngine
