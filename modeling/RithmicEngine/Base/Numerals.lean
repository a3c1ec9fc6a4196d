import Mathlib.Data.Rat.Floor
import Mathlib.Tactic.FieldSimp
import Mathlib.Tactic.Ring
/-!
# Decimal numerals

Numerals over lists of characters, printed as the C library prints them and read
as it reads them: leading blanks are skipped, a sign may follow, the longest run
of digits counts, and whatever comes after it is ignored. A fixed-point numeral
has its decimals padded with zeros. Cut after some characters, as a bounded
buffer cuts it, it still reads as the number it was printed from exactly when
the whole part survives and the decimals that are lost are zeros.

Names of infinities and hexadecimal numerals are not read.
-/
namespace Numerals

/-! ## Digits -/

/-- The digits of a natural number. -/
def digits (n : Nat) : List Char := Nat.toDigits 10 n

/-- The number a run of digits stands for. -/
def value (text : List Char) : Nat := Nat.ofDigitChars 10 text 0

/-- Only digits. -/
def Digital (text : List Char) : Prop := ∀ c ∈ text, c.isDigit = true

/-- A property of the characters of a text is decided along the text, not character by character
of the whole alphabet. -/
instance decidableText (p : Char → Prop) [DecidablePred p] (text : List Char) :
    Decidable (∀ c ∈ text, p c) :=
  text.decidableBAll p

@[simp] theorem value_nil : value [] = 0 := rfl

@[simp] theorem value_digits (n : Nat) : value (digits n) = n := Nat.ofDigitChars_ten_toDigits

variable {tail : List Char} (places width : Nat) (run : List Char) (x : ℚ) (n : Nat)
  (text : List Char)

theorem digital_digits : Digital (digits n) := by
  intro c inside
  exact Nat.isDigit_of_mem_toDigits (by decide) (by decide) inside

theorem digits_ne_nil : digits n ≠ [] := Nat.toDigits_ne_nil

theorem length_digits_le_iff (width : Nat) (positive : 0 < width) :
    (digits n).length ≤ width ↔ n < 10 ^ width :=
  Nat.length_toDigits_le_iff (by decide) positive

theorem value_append (first second : List Char) :
    value (first ++ second) = value first * 10 ^ second.length + value second := by
  simp only [value]
  rw [Nat.ofDigitChars_append, Nat.ofDigitChars_eq_ofDigitChars_zero, Nat.mul_comm]

/-- A run of digits stands for a number with at most that many digits. -/
theorem value_lt (digital : Digital text) : value text < 10 ^ text.length := by
  induction text with
  | nil => simp
  | cons c rest ih =>
    have digit : c.isDigit = true := digital c List.mem_cons_self
    have later : value rest < 10 ^ rest.length :=
      ih (fun other inside => digital other (List.mem_cons_of_mem c inside))
    have small : value [c] ≤ 9 := by
      simp only [Char.isDigit, Bool.and_eq_true, decide_eq_true_eq, ge_iff_le,
        UInt32.le_iff_toNat_le] at digit
      have upper : c.toNat ≤ 57 := digit.2
      simp only [value, Nat.ofDigitChars_cons, Nat.ofDigitChars_nil]
      have zero : '0'.toNat = 48 := rfl
      omega
    have split : value (c :: rest) = value [c] * 10 ^ rest.length + value rest :=
      value_append [c] rest
    calc value (c :: rest)
        = value [c] * 10 ^ rest.length + value rest := split
      _ < value [c] * 10 ^ rest.length + 10 ^ rest.length := by omega
      _ = (value [c] + 1) * 10 ^ rest.length := by ring
      _ ≤ 10 * 10 ^ rest.length := Nat.mul_le_mul_right _ (by omega)
      _ = 10 ^ (c :: rest).length := by rw [List.length_cons, Nat.pow_succ]; ring

theorem Digital.append {first second : List Char} (before : Digital first)
    (after : Digital second) : Digital (first ++ second) := by
  intro c inside
  rcases List.mem_append.mp inside with left | right
  · exact before c left
  · exact after c right

theorem Digital.take {text : List Char} (digital : Digital text) (count : Nat) :
    Digital (text.take count) :=
  fun c inside => digital c (List.mem_of_mem_take inside)

theorem Digital.drop {text : List Char} (digital : Digital text) (count : Nat) :
    Digital (text.drop count) :=
  fun c inside => digital c (List.mem_of_mem_drop inside)

/-! ## Reading -/

/-- The characters that count as blanks before a numeral. -/
def isBlank (c : Char) : Bool := c = ' ' || (decide (9 ≤ c.toNat) && decide (c.toNat ≤ 13))

/-- Split off a sign: whether it is a minus, and what follows. -/
def readSign : List Char → Bool × List Char
  | '-' :: rest => (true, rest)
  | '+' :: rest => (false, rest)
  | text => (false, text)

/-- The sign and the text after blanks and sign. -/
def readStart (text : List Char) : Bool × List Char := readSign (text.dropWhile isBlank)

/-- The integer a text starts with. -/
def readInteger (text : List Char) : Option Int :=
  let start := readStart text
  let run := start.2.takeWhile Char.isDigit
  if run = [] then none
  else if start.1 then some (-(value run : Int)) else some (value run : Int)

/-- The decimals after a point, and what follows them. -/
def readFraction : List Char → List Char × List Char
  | '.' :: rest => (rest.takeWhile Char.isDigit, rest.dropWhile Char.isDigit)
  | text => ([], text)

/-- The exponent a text starts with, zero for none. -/
def readExponent : List Char → Int
  | [] => 0
  | mark :: rest =>
    let sign := readSign rest
    let run := sign.2.takeWhile Char.isDigit
    if mark = 'e' ∨ mark = 'E' then
      if sign.1 then -(value run : Int) else (value run : Int)
    else 0

/-- The unsigned number a text starts with. -/
def readMagnitude (text : List Char) : Option ℚ :=
  let whole := text.takeWhile Char.isDigit
  let fraction := readFraction (text.dropWhile Char.isDigit)
  if whole = [] ∧ fraction.1 = [] then none
  else some ((value (whole ++ fraction.1) : ℚ) / 10 ^ fraction.1.length *
    10 ^ readExponent fraction.2)

/-- The number a text starts with. -/
def readNumber (text : List Char) : Option ℚ :=
  let start := readStart text
  if start.1 then (readMagnitude start.2).map (- ·) else readMagnitude start.2

/-! ## Printing -/

/-- A signed integer. -/
def integer (n : Int) : List Char :=
  if n < 0 then '-' :: digits n.natAbs else digits n.natAbs

/-- Digits padded with zeros in front. -/
def padded (places n : Nat) : List Char :=
  List.replicate (places - (digits n).length) '0' ++ digits n

/-- A count of the smallest decimal unit as a numeral with that many decimals. -/
def fixedPoint (places n : Nat) : List Char :=
  digits (n / 10 ^ places) ++ '.' :: padded places (n % 10 ^ places)

/-- Round to the nearest natural number, halves to the even one. -/
def roundHalfEven (x : ℚ) : Nat :=
  let below := ⌊x⌋₊
  let rest := x - below
  if rest < 1 / 2 then below
  else if 1 / 2 < rest then below + 1
  else if below % 2 = 0 then below else below + 1

/-- A number at a given number of decimals. -/
def fixed (places : Nat) (x : ℚ) : List Char :=
  let text := fixedPoint places (roundHalfEven (|x| * 10 ^ places))
  if x < 0 then '-' :: text else text

/-- The number has at most that many decimals. -/
def AtMost (places : Nat) (x : ℚ) : Prop := (x * 10 ^ places).den = 1
deriving Decidable

/-! ## Integers read back -/

/-- A text that starts with a digit has no blanks and no sign to skip. -/
theorem readStart_digit (c : Char) (rest : List Char) (digit : c.isDigit = true) :
    readStart (c :: rest) = (false, c :: rest) := by
  simp only [Char.isDigit, Bool.and_eq_true, decide_eq_true_eq, ge_iff_le,
    UInt32.le_iff_toNat_le] at digit
  obtain ⟨lower, upper⟩ := digit
  have lower : 48 ≤ c.toNat := lower
  have blank : isBlank c = false := by
    have space : c ≠ ' ' := by
      rintro rfl
      exact absurd lower (by decide)
    simp only [isBlank, space, decide_false, Bool.false_or, Bool.and_eq_false_imp,
      decide_eq_true_eq, decide_eq_false_iff_not]
    omega
  have minus : c ≠ '-' := by
    rintro rfl
    exact absurd lower (by decide)
  have plus : c ≠ '+' := by
    rintro rfl
    exact absurd lower (by decide)
  simp only [readStart, List.dropWhile_cons, blank, Bool.false_eq_true, ↓reduceIte]
  rw [readSign]
  · intro other same
    exact minus (List.cons.inj same).1
  · intro other same
    exact plus (List.cons.inj same).1

theorem readStart_minus : readStart ('-' :: text) = (true, text) := rfl

/-- A nonempty run of digits has no blanks and no sign to skip. -/
theorem readStart_digital (digital : Digital run) (nonempty : run ≠ []) :
    readStart (run ++ text) = (false, run ++ text) := by
  cases run with
  | nil => exact absurd rfl nonempty
  | cons c rest => exact readStart_digit c (rest ++ text) (digital c List.mem_cons_self)

theorem takeWhile_digital (digital : Digital run) :
    (run ++ text).takeWhile Char.isDigit = run ++ text.takeWhile Char.isDigit :=
  List.takeWhile_append_of_pos digital

theorem dropWhile_digital (digital : Digital run) :
    (run ++ text).dropWhile Char.isDigit = text.dropWhile Char.isDigit :=
  List.dropWhile_append_of_pos digital

/-- A printed integer reads as itself. -/
theorem readInteger_integer (n : Int) : readInteger (integer n) = some n := by
  have run : (digits n.natAbs).takeWhile Char.isDigit = digits n.natAbs := by
    have whole := takeWhile_digital (digits n.natAbs) [] (digital_digits n.natAbs)
    simpa only [List.append_nil, List.takeWhile_nil] using whole
  have start : readStart (digits n.natAbs) = (false, digits n.natAbs) := by
    have plain := readStart_digital (digits n.natAbs) [] (digital_digits n.natAbs)
      (digits_ne_nil n.natAbs)
    simpa only [List.append_nil] using plain
  by_cases negative : n < 0
  · simp only [readInteger, integer, negative, ↓reduceIte, readStart_minus, run, digits_ne_nil,
      value_digits]
    congr 1
    omega
  · simp only [readInteger, integer, negative, ↓reduceIte, start, run, digits_ne_nil,
      value_digits, Bool.false_eq_true]
    congr 1
    omega

/-- A printed integer has digits and at most a minus. -/
theorem mem_integer (n : Int) (c : Char) (inside : c ∈ integer n) :
    c = '-' ∨ c.isDigit = true := by
  simp only [integer] at inside
  split at inside
  · rcases List.mem_cons.mp inside with minus | digit
    · exact Or.inl minus
    · exact Or.inr (digital_digits _ c digit)
  · exact Or.inr (digital_digits _ c inside)

theorem integer_ne_nil (n : Int) : integer n ≠ [] := by
  simp only [integer]
  split
  · exact List.cons_ne_nil _ _
  · exact digits_ne_nil _

/-! ## Numerals with text behind them -/

/-- Text that continues no numeral. -/
def Stops (tail : List Char) : Prop :=
  ∀ c ∈ tail.head?, c.isDigit = false ∧ c ∉ ['.', 'e', 'E', '+', '-']

theorem Stops.apart {c : Char} {rest : List Char} (stops : Stops tail)
    (continues : c ∈ ['.', 'e', 'E', '+', '-']) : tail ≠ c :: rest := by
  rintro rfl
  exact (stops c rfl).2 continues

theorem length_padded (positive : 0 < places) (small : n < 10 ^ places) :
    (padded places n).length = places := by
  have fits : (digits n).length ≤ places := (length_digits_le_iff n places positive).mpr small
  simp only [padded, List.length_append, List.length_replicate]
  omega

theorem digital_padded : Digital (padded places n) := by
  apply Digital.append
  · intro c inside
    rw [List.eq_of_mem_replicate inside]
    decide
  · exact digital_digits n

@[simp] theorem value_padded (places n : Nat) : value (padded places n) = n := by
  simp only [padded, value_append]
  have zeros : value (List.replicate (places - (digits n).length) '0') = 0 := by
    simp [value]
  rw [zeros, Nat.zero_mul, Nat.zero_add, value_digits]

/-- Digits alone, or digits, a point and digits, read as their value. -/
theorem readMagnitude_whole (whole : List Char) (digital : Digital whole)
    (nonempty : whole ≠ []) : readMagnitude whole = some (value whole : ℚ) := by
  have run : whole.takeWhile Char.isDigit = whole := by
    simpa only [List.append_nil, List.takeWhile_nil] using takeWhile_digital whole [] digital
  have rest : whole.dropWhile Char.isDigit = [] := by
    simpa only [List.append_nil, List.dropWhile_nil] using dropWhile_digital whole [] digital
  simp only [readMagnitude, run, rest, readFraction, nonempty, false_and, ↓reduceIte,
    List.append_nil, List.length_nil, pow_zero, div_one, readExponent, zpow_zero, mul_one]

/-- Digits around a point are read as the whole number over a power of ten. -/
theorem readMagnitude_point (whole fraction : List Char) (digital : Digital whole)
    (nonempty : whole ≠ []) (decimals : Digital fraction) :
    readMagnitude (whole ++ '.' :: fraction) =
      some ((value (whole ++ fraction) : ℚ) / 10 ^ fraction.length) := by
  have run : (whole ++ '.' :: fraction).takeWhile Char.isDigit = whole := by
    rw [takeWhile_digital whole _ digital, List.takeWhile_cons]
    exact List.append_nil whole
  have rest : (whole ++ '.' :: fraction).dropWhile Char.isDigit = '.' :: fraction := by
    rw [dropWhile_digital whole _ digital, List.dropWhile_cons]
    rfl
  have more : fraction.takeWhile Char.isDigit = fraction := by
    simpa only [List.append_nil, List.takeWhile_nil] using takeWhile_digital fraction [] decimals
  have none : fraction.dropWhile Char.isDigit = [] := by
    simpa only [List.append_nil, List.dropWhile_nil] using dropWhile_digital fraction [] decimals
  simp only [readMagnitude, run, rest, readFraction, more, none, nonempty, false_and, ↓reduceIte,
    readExponent, zpow_zero, mul_one]

/-! ## A numeral cut by a buffer -/

/-- The first characters of the numeral keep its whole part, and the decimals
they leave out are zeros. -/
def Survives (places width n : Nat) : Prop :=
  (digits (n / 10 ^ places)).length ≤ width ∧
    10 ^ (places - (width - (digits (n / 10 ^ places)).length - 1)) ∣ n
deriving Decidable

/-- A numeral cut within its whole part reads as something smaller. -/
theorem readMagnitude_take_short (positive : 0 < width)
    (short : width < (digits (n / 10 ^ places)).length) :
    readMagnitude ((fixedPoint places n).take width) ≠ some ((n : ℚ) / 10 ^ places) := by
  have cut : (fixedPoint places n).take width = (digits (n / 10 ^ places)).take width :=
    List.take_append_of_le_length (Nat.le_of_lt short)
  have digital : Digital ((digits (n / 10 ^ places)).take width) :=
    (digital_digits _).take width
  have length : ((digits (n / 10 ^ places)).take width).length = width := by
    rw [List.length_take]
    omega
  have nonempty : (digits (n / 10 ^ places)).take width ≠ [] := by
    intro empty
    rw [empty] at length
    exact absurd length (Nat.ne_of_lt positive)
  have small : value ((digits (n / 10 ^ places)).take width) < 10 ^ width := by
    have bound := value_lt _ digital
    rwa [length] at bound
  have large : 10 ^ width ≤ n / 10 ^ places := by
    by_contra below
    have fits := (length_digits_le_iff (n / 10 ^ places) width positive).mpr (by omega)
    omega
  rw [cut, readMagnitude_whole _ digital nonempty]
  intro same
  have equal : (value ((digits (n / 10 ^ places)).take width) : ℚ) = (n : ℚ) / 10 ^ places :=
    Option.some.inj same
  rw [eq_div_iff (by positivity)] at equal
  have equal : value ((digits (n / 10 ^ places)).take width) * 10 ^ places = n := by
    exact_mod_cast equal
  have fewer : value ((digits (n / 10 ^ places)).take width) = n / 10 ^ places := by
    rw [← Nat.mul_div_cancel (value _) (Nat.pow_pos (by decide : 0 < 10)), equal]
  omega

/-- A numeral cut after its whole part reads as the digits that are left. -/
theorem readMagnitude_take_long (long : (digits (n / 10 ^ places)).length ≤ width) :
    readMagnitude ((fixedPoint places n).take width) =
      some ((value (digits (n / 10 ^ places) ++ (padded places (n % 10 ^ places)).take
          (width - (digits (n / 10 ^ places)).length - 1)) : ℚ) /
        10 ^ ((padded places (n % 10 ^ places)).take
          (width - (digits (n / 10 ^ places)).length - 1)).length) := by
  have digital : Digital (digits (n / 10 ^ places)) := digital_digits _
  have nonempty : digits (n / 10 ^ places) ≠ [] := digits_ne_nil _
  rw [fixedPoint, List.take_append, List.take_of_length_le long]
  cases extra : width - (digits (n / 10 ^ places)).length with
  | zero =>
    simp only [List.take_zero, List.append_nil, Nat.zero_sub, List.length_nil, pow_zero, div_one]
    exact readMagnitude_whole _ digital nonempty
  | succ more =>
    rw [List.take_succ_cons, Nat.add_sub_cancel]
    exact readMagnitude_point _ _ digital nonempty ((digital_padded _ _).take more)

/-- The digits that are kept and those that are lost make up the number. -/
theorem value_kept_lost (count n : Nat) (decimals : 0 < places) :
    value (digits (n / 10 ^ places) ++ (padded places (n % 10 ^ places)).take count) *
        10 ^ (places - count) + value ((padded places (n % 10 ^ places)).drop count) = n := by
  have length : (padded places (n % 10 ^ places)).length = places :=
    length_padded _ _ decimals (Nat.mod_lt n (Nat.pow_pos (by decide)))
  have lost : ((padded places (n % 10 ^ places)).drop count).length = places - count := by
    rw [List.length_drop, length]
  rw [← lost, ← value_append, List.append_assoc, List.take_append_drop, value_append,
    value_digits, value_padded, length, Nat.div_add_mod']

/-- What is lost is zero exactly where its weight divides the number. -/
theorem value_lost_eq_zero_iff (count n : Nat) (decimals : 0 < places) :
    value ((padded places (n % 10 ^ places)).drop count) = 0 ↔ 10 ^ (places - count) ∣ n := by
  have total := value_kept_lost places count n decimals
  have length : (padded places (n % 10 ^ places)).length = places :=
    length_padded _ _ decimals (Nat.mod_lt n (Nat.pow_pos (by decide)))
  have small : value ((padded places (n % 10 ^ places)).drop count) < 10 ^ (places - count) := by
    have bound := value_lt _ ((digital_padded places (n % 10 ^ places)).drop count)
    rwa [List.length_drop, length] at bound
  constructor
  · intro none
    rw [none, Nat.add_zero] at total
    exact ⟨_, by rw [Nat.mul_comm]; exact total.symm⟩
  · intro divides
    rw [← total] at divides
    have rest := (Nat.dvd_add_right (Nat.dvd_mul_left _ _)).mp divides
    exact Nat.eq_zero_of_dvd_of_lt rest small

/-- A cut numeral reads as the number it was printed from exactly when it survives. -/
theorem readMagnitude_take_iff (decimals : 0 < places) (positive : 0 < width) :
    readMagnitude ((fixedPoint places n).take width) = some ((n : ℚ) / 10 ^ places) ↔
      Survives places width n := by
  by_cases long : (digits (n / 10 ^ places)).length ≤ width
  · rw [readMagnitude_take_long places width n long]
    simp only [Survives, long, true_and]
    obtain ⟨count, countIs⟩ :
        ∃ count, count = width - (digits (n / 10 ^ places)).length - 1 := ⟨_, rfl⟩
    rw [← countIs, ← value_lost_eq_zero_iff places count n decimals, Option.some.injEq]
    have total := value_kept_lost places count n decimals
    have kept : ((padded places (n % 10 ^ places)).take count).length + (places - count) =
        places := by
      rw [List.length_take,
        length_padded _ _ decimals (Nat.mod_lt n (Nat.pow_pos (by decide)))]
      omega
    obtain ⟨front, frontIs⟩ : ∃ front, front =
        value (digits (n / 10 ^ places) ++ (padded places (n % 10 ^ places)).take count) :=
      ⟨_, rfl⟩
    have power : (10 : ℚ) ^ places =
        10 ^ ((padded places (n % 10 ^ places)).take count).length * 10 ^ (places - count) := by
      rw [← pow_add, kept]
    rw [← frontIs] at total ⊢
    rw [div_eq_div_iff (by positivity) (by positivity), power, mul_left_comm, mul_comm (n : ℚ),
      mul_right_inj' (by positivity)]
    constructor
    · intro same
      have same : front * 10 ^ (places - count) = n := by exact_mod_cast same
      omega
    · intro none
      have same : front * 10 ^ (places - count) = n := by omega
      exact_mod_cast same
  · have short : width < (digits (n / 10 ^ places)).length := by omega
    constructor
    · intro same
      exact absurd same (readMagnitude_take_short places width n positive short)
    · intro survives
      exact absurd survives.1 long

/-! ## Signed fixed-point numbers -/

/-- The number survives a buffer of that many characters, the sign included. -/
def Fits (places width : Nat) (x : ℚ) : Prop :=
  Survives places (if x < 0 then width - 1 else width) (roundHalfEven (|x| * 10 ^ places))
deriving Decidable

theorem roundHalfEven_natCast : roundHalfEven (n : ℚ) = n := by
  have half : (0 : ℚ) < 1 / 2 := by norm_num
  simp only [roundHalfEven, Nat.floor_natCast, sub_self, half, ↓reduceIte]

/-- A number with few enough decimals is printed exactly. -/
theorem scaled_exact (few : AtMost places x) :
    (roundHalfEven (|x| * 10 ^ places) : ℚ) = |x| * 10 ^ places := by
  have whole : ((x * 10 ^ places).num : ℚ) = x * 10 ^ places := Rat.coe_int_num_of_den_eq_one few
  have power : (0 : ℚ) < 10 ^ places := by positivity
  have natural : ((x * 10 ^ places).num.natAbs : ℚ) = |x| * 10 ^ places := by
    rw [Nat.cast_natAbs, Int.cast_abs, whole, abs_mul, abs_of_pos power]
  rw [← natural, roundHalfEven_natCast]

/-- A fixed-point numeral starts with a digit. -/
theorem fixedPoint_head : ∃ c rest, fixedPoint places n = c :: rest ∧ c.isDigit = true := by
  have digital := digital_digits (n / 10 ^ places)
  cases whole : digits (n / 10 ^ places) with
  | nil => exact absurd whole (digits_ne_nil _)
  | cons c rest =>
    rw [whole] at digital
    refine ⟨c, rest ++ '.' :: padded places (n % 10 ^ places), ?_, digital c List.mem_cons_self⟩
    rw [fixedPoint, whole, List.cons_append]

/-- A number at a fixed count of decimals, cut by a buffer, reads as itself exactly
when it fits. -/
theorem readNumber_take_iff (few : AtMost places x) (decimals : 0 < places) (wide : 1 < width) :
    readNumber ((fixed places x).take width) = some x ↔ Fits places width x := by
  have exact := scaled_exact places x few
  have magnitude :
      (roundHalfEven (|x| * 10 ^ places) : ℚ) / 10 ^ places = |x| := by
    rw [exact, mul_div_cancel_right₀ _ (by positivity)]
  obtain ⟨n, nIs⟩ : ∃ n, n = roundHalfEven (|x| * 10 ^ places) := ⟨_, rfl⟩
  rw [← nIs] at magnitude
  by_cases negative : x < 0
  · have flipped : |x| = -x := abs_of_neg negative
    obtain ⟨more, rfl⟩ : ∃ more, width = more + 1 := ⟨width - 1, by omega⟩
    simp only [fixed, Fits, negative, ↓reduceIte, ← nIs, List.take_succ_cons, readNumber,
      readStart_minus, Nat.add_sub_cancel]
    rw [← readMagnitude_take_iff places more n decimals (by omega), magnitude, flipped]
    constructor
    · intro read
      obtain ⟨y, found, opposite⟩ := Option.map_eq_some_iff.mp read
      rw [found, ← opposite, neg_neg]
    · intro read
      rw [read, Option.map_some, neg_neg]
  · have plain : |x| = x := abs_of_nonneg (not_lt.mp negative)
    obtain ⟨more, rfl⟩ : ∃ more, width = more + 1 := ⟨width - 1, by omega⟩
    obtain ⟨c, rest, text, digit⟩ := fixedPoint_head places n
    simp only [fixed, Fits, negative, ↓reduceIte, ← nIs]
    rw [← readMagnitude_take_iff places (more + 1) n decimals (by omega), magnitude, plain, text,
      List.take_succ_cons, readNumber, readStart_digit c _ digit]
    exact Iff.rfl

/-- A printed fixed-point number has digits, a point and at most a minus. -/
theorem mem_fixed (c : Char) (inside : c ∈ fixed places x) :
    c = '-' ∨ c = '.' ∨ c.isDigit = true := by
  have unsigned (n : Nat) (inside : c ∈ fixedPoint places n) : c = '.' ∨ c.isDigit = true := by
    rcases List.mem_append.mp inside with whole | rest
    · exact Or.inr (digital_digits _ c whole)
    · rcases List.mem_cons.mp rest with point | decimal
      · exact Or.inl point
      · exact Or.inr (digital_padded _ _ c decimal)
  simp only [fixed] at inside
  split at inside
  · rcases List.mem_cons.mp inside with minus | rest
    · exact Or.inl minus
    · exact Or.inr (unsigned _ rest)
  · exact Or.inr (unsigned _ inside)

theorem fixed_ne_nil : fixed places x ≠ [] := by
  obtain ⟨c, rest, text, -⟩ := fixedPoint_head places (roundHalfEven (|x| * 10 ^ places))
  simp only [fixed]
  split
  · exact List.cons_ne_nil _ _
  · rw [text]
    exact List.cons_ne_nil _ _

/-- A number that fits is smaller than the buffer's power of ten. -/
theorem abs_lt_of_fits (few : AtMost places x) (positive : 1 < width) (fits : Fits places width x) :
    |x| < 10 ^ width := by
  have exact := scaled_exact places x few
  obtain ⟨n, nIs⟩ : ∃ n, n = roundHalfEven (|x| * 10 ^ places) := ⟨_, rfl⟩
  have short : (digits (n / 10 ^ places)).length ≤ width := by
    have long := fits.1
    rw [← nIs] at long
    split at long
    · omega
    · exact long
  have small : n / 10 ^ places < 10 ^ width :=
    (length_digits_le_iff _ width (by omega)).mp short
  have scaled : n < 10 ^ width * 10 ^ places :=
    (Nat.div_lt_iff_lt_mul (Nat.pow_pos (by decide))).mp small
  have scaled : (n : ℚ) < 10 ^ width * 10 ^ places := by exact_mod_cast scaled
  rw [nIs, exact] at scaled
  exact lt_of_mul_lt_mul_right scaled (by positivity)

/-- A number with few decimals is zero or at least its smallest unit. -/
theorem unit_le_abs (few : AtMost places x) (nonzero : x ≠ 0) : 1 / 10 ^ places ≤ |x| := by
  have exact := scaled_exact places x few
  have positive : (0 : ℚ) < |x| * 10 ^ places := by positivity
  rw [← exact] at positive
  have one : 1 ≤ roundHalfEven (|x| * 10 ^ places) := by exact_mod_cast positive
  rw [div_le_iff₀ (by positivity), ← exact]
  exact_mod_cast one

/-- The number a printed fixed-point number stands for. -/
def rounded (places : Nat) (x : ℚ) : ℚ :=
  let magnitude := (roundHalfEven (|x| * 10 ^ places) : ℚ) / 10 ^ places
  if x < 0 then -magnitude else magnitude

/-- Rounding changes exactly the numbers with more decimals. -/
theorem rounded_eq_iff : rounded places x = x ↔ AtMost places x := by
  have power : (10 : ℚ) ^ places ≠ 0 := by positivity
  constructor
  · intro same
    obtain ⟨n, nIs⟩ : ∃ n, n = roundHalfEven (|x| * 10 ^ places) := ⟨_, rfl⟩
    simp only [rounded, ← nIs] at same
    split at same
    · have whole : x * 10 ^ places = ((-n : Int) : ℚ) := by
        rw [← same, neg_mul, div_mul_cancel₀ _ power]
        push_cast
        rfl
      rw [AtMost, whole]
      exact Rat.den_intCast _
    · have whole : x * 10 ^ places = ((n : Int) : ℚ) := by
        rw [← same, div_mul_cancel₀ _ power]
        push_cast
        rfl
      rw [AtMost, whole]
      exact Rat.den_intCast _
  · intro few
    simp only [rounded, scaled_exact places x few, mul_div_cancel_right₀ _ power]
    split
    next negative => rw [abs_of_neg negative, neg_neg]
    next nonnegative => exact abs_of_nonneg (not_lt.mp nonnegative)

theorem atMost_rounded : AtMost places (rounded places x) := by
  have power : (10 : ℚ) ^ places ≠ 0 := by positivity
  simp only [AtMost, rounded]
  split
  · rw [neg_mul, div_mul_cancel₀ _ power, Rat.neg_den, Rat.den_natCast]
  · rw [div_mul_cancel₀ _ power, Rat.den_natCast]

/-- A number at a fixed count of decimals that fits a buffer reads as what it was rounded to. -/
theorem readNumber_take_rounded {places width : Nat} {x : ℚ} (decimals : 0 < places)
    (wide : 1 < width) (fits : Fits places width x) :
    readNumber ((fixed places x).take width) = some (rounded places x) := by
  obtain ⟨n, nIs⟩ : ∃ n, n = roundHalfEven (|x| * 10 ^ places) := ⟨_, rfl⟩
  obtain ⟨more, rfl⟩ : ∃ more, width = more + 1 := ⟨width - 1, by omega⟩
  by_cases negative : x < 0
  · simp only [fixed, Fits, rounded, negative, ↓reduceIte, ← nIs, List.take_succ_cons, readNumber,
      readStart_minus, Nat.add_sub_cancel] at fits ⊢
    rw [(readMagnitude_take_iff places more n decimals (by omega)).mpr fits]
    rfl
  · obtain ⟨c, rest, text, digit⟩ := fixedPoint_head places n
    simp only [fixed, Fits, rounded, negative, ↓reduceIte, ← nIs] at fits ⊢
    rw [← (readMagnitude_take_iff places (more + 1) n decimals (by omega)).mpr fits, text,
      List.take_succ_cons, readNumber, readStart_digit c _ digit]
    rfl

/-- What was rounded fits where the number did. -/
theorem Fits.rounded {places width : Nat} {x : ℚ} (fits : Fits places width x) :
    Fits places width (rounded places x) := by
  have exact := scaled_exact places _ (atMost_rounded places x)
  have power : (0 : ℚ) < 10 ^ places := by positivity
  obtain ⟨n, nIs⟩ : ∃ n, n = roundHalfEven (|x| * 10 ^ places) := ⟨_, rfl⟩
  have magnitude : |Numerals.rounded places x| * 10 ^ places = n := by
    simp only [Numerals.rounded, ← nIs]
    split
    · rw [abs_neg, abs_of_nonneg (by positivity), div_mul_cancel₀ _ power.ne']
    · rw [abs_of_nonneg (by positivity), div_mul_cancel₀ _ power.ne']
  have same : roundHalfEven (|Numerals.rounded places x| * 10 ^ places) = n := by
    rw [magnitude, roundHalfEven_natCast]
  unfold Fits at fits ⊢
  rw [same]
  rw [← nIs] at fits
  by_cases below : Numerals.rounded places x < 0
  · have negative : x < 0 := by
      by_contra positive
      simp only [Numerals.rounded, positive, ↓reduceIte] at below
      exact absurd below (not_lt.mpr (by positivity))
    rw [if_pos negative] at fits
    rw [if_pos below]
    exact fits
  · rw [if_neg below]
    by_cases negative : x < 0
    · have zero : n = 0 := by
        by_contra nonzero
        apply below
        simp only [Numerals.rounded, negative, ↓reduceIte, ← nIs]
        have positive : (0 : ℚ) < n := by exact_mod_cast Nat.pos_of_ne_zero nonzero
        exact neg_neg_of_pos (by positivity)
      rw [if_pos negative, zero] at fits
      rw [zero]
      exact ⟨fits.1.trans (Nat.sub_le _ _), Nat.dvd_zero _⟩
    · rw [if_neg negative] at fits
      exact fits

end Numerals
