import Mathlib.Data.List.Find
import Mathlib.Tactic.NormNum
import Mathlib.Tactic.Positivity
import RithmicEngine.Base.Numerals
/-!
# JSON texts

The grammar of JSON over the characters of a text, as it is spelled: blanks, strings with
their escapes, numbers, arrays and objects. A value is nested to any depth, and an object
names its members in the order of the text. What a scanner of brackets and quotes relies
on is weaker: that the text of a value is balanced.
-/
namespace Json

/-! ## The grammar -/

def isBlank (c : Char) : Bool := decide (c ∈ [' ', '\t', '\r', '\n'])

def Blank (text : List Char) : Prop := ∀ c ∈ text, isBlank c = true

def isHex (c : Char) : Bool :=
  c.isDigit || (decide ('a' ≤ c) && decide (c ≤ 'f')) || (decide ('A' ≤ c) && decide (c ≤ 'F'))

/-- What may stand between the quotes of a string. -/
inductive Spelled : List Char → Prop
  | nil : Spelled []
  | plain (c : Char) (rest : List Char) (quote : c ≠ '"') (escape : c ≠ '\\')
    (printable : ' ' ≤ c) (later : Spelled rest) : Spelled (c :: rest)
  | escaped (c : Char) (rest : List Char) (known : c ∈ ['"', '\\', '/', 'b', 'f', 'n', 'r', 't'])
    (later : Spelled rest) : Spelled ('\\' :: c :: rest)
  | unicode (code rest : List Char) (four : code.length = 4) (hex : ∀ c ∈ code, isHex c = true)
    (later : Spelled rest) : Spelled ('\\' :: 'u' :: (code ++ rest))

/-- A whole part, which starts with no zero unless it is zero. -/
def IsWhole (text : List Char) : Prop :=
  text = ['0'] ∨ Numerals.Digital text ∧ text ≠ [] ∧ text.head? ≠ some '0'

def IsFraction (text : List Char) : Prop :=
  text = [] ∨ ∃ run, Numerals.Digital run ∧ run ≠ [] ∧ text = '.' :: run

def IsExponent (text : List Char) : Prop :=
  text = [] ∨ ∃ mark sign run, (mark = 'e' ∨ mark = 'E') ∧
    (sign = [] ∨ sign = ['+'] ∨ sign = ['-']) ∧
    Numerals.Digital run ∧ run ≠ [] ∧ text = mark :: (sign ++ run)

def IsNumber (text : List Char) : Prop :=
  ∃ sign whole fraction exponent, (sign = [] ∨ sign = ['-']) ∧ IsWhole whole ∧
    IsFraction fraction ∧ IsExponent exponent ∧ text = sign ++ whole ++ fraction ++ exponent

def IsBoolean (text : List Char) : Prop :=
  text = ['t', 'r', 'u', 'e'] ∨ text = ['f', 'a', 'l', 's', 'e']

/-- A number, a boolean or null. -/
def IsScalar (text : List Char) : Prop :=
  IsNumber text ∨ IsBoolean text ∨ text = ['n', 'u', 'l', 'l']

/-- An element of an array, or the value of a member, between its blanks. -/
structure Element where
  before : List Char
  value : List Char
  after : List Char

def Element.text (e : Element) : List Char := e.before ++ (e.value ++ e.after)

def Element.Spaced (e : Element) : Prop := Blank e.before ∧ Blank e.after

/-- A member of an object: its key as it is spelled, and its value. -/
structure Member where
  before : List Char
  key : List Char
  after : List Char
  element : Element

def Member.text (m : Member) : List Char :=
  m.before ++ '"' :: (m.key ++ '"' :: (m.after ++ ':' :: m.element.text))

def Member.Spaced (m : Member) : Prop :=
  Blank m.before ∧ Blank m.after ∧ m.element.Spaced

/-- Parts with commas between them. -/
def separated : List (List Char) → List Char
  | [] => []
  | [part] => part
  | part :: next :: rest => part ++ ',' :: separated (next :: rest)

/-- What stands between brackets: blanks, or parts with commas between them. -/
def between (blank : List Char) (parts : List (List Char)) : List Char :=
  if parts = [] then blank else separated parts

inductive IsValue : List Char → Prop
  | scalar (text : List Char) (scalar : IsScalar text) : IsValue text
  | string (body : List Char) (spelled : Spelled body) : IsValue ('"' :: (body ++ ['"']))
  | array (blank : List Char) (elements : List Element) (blanks : Blank blank)
    (spaced : ∀ e ∈ elements, e.Spaced) (values : ∀ e ∈ elements, IsValue e.value) :
    IsValue ('[' :: (between blank (elements.map Element.text) ++ [']']))
  | object (blank : List Char) (members : List Member) (blanks : Blank blank)
    (spaced : ∀ m ∈ members, m.Spaced) (keys : ∀ m ∈ members, Spelled m.key)
    (values : ∀ m ∈ members, IsValue m.element.value) :
    IsValue ('{' :: (between blank (members.map Member.text) ++ ['}']))

/-- A string without escapes. -/
theorem Spelled.of_printable {text : List Char}
    (plain : ∀ c ∈ text, c ≠ '"' ∧ c ≠ '\\' ∧ ' ' ≤ c) : Spelled text := by
  induction text with
  | nil => exact .nil
  | cons c rest ih =>
    obtain ⟨quote, escape, printable⟩ := plain c List.mem_cons_self
    exact .plain c rest quote escape printable
      (ih fun other inside => plain other (List.mem_cons_of_mem c inside))

/-- What a string stands for whose escapes are only those of a quote, a backslash or a
slash. -/
inductive Decodes : List Char → List Char → Prop
  | nil : Decodes [] []
  | plain (c : Char) (rest out : List Char) (quote : c ≠ '"') (escape : c ≠ '\\')
    (later : Decodes rest out) : Decodes (c :: rest) (c :: out)
  | escaped (c : Char) (rest out : List Char) (known : c ∈ ['"', '\\', '/'])
    (later : Decodes rest out) : Decodes ('\\' :: c :: rest) (c :: out)

/-! ## What is spelled -/

/-- A number by the parts of its spelling. -/
structure Decimal where
  sign : List Char
  whole : List Char
  fraction : List Char
  exponent : List Char

namespace Decimal

def text (p : Decimal) : List Char := p.sign ++ (p.whole ++ (p.fraction ++ p.exponent))

structure WellFormed (p : Decimal) : Prop where
  sign : p.sign = [] ∨ p.sign = ['-']
  whole : IsWhole p.whole
  fraction : IsFraction p.fraction
  exponent : IsExponent p.exponent

/-- The power of ten that an exponent stands for. -/
def power : List Char → Int
  | [] => 0
  | _ :: '-' :: run => -(Numerals.value run : Int)
  | _ :: '+' :: run => Numerals.value run
  | _ :: run => Numerals.value run

/-- The integer that the digits before the point and the exponent spell. -/
def front (p : Decimal) : Int :=
  if p.sign = [] then Numerals.value p.whole else -(Numerals.value p.whole : Int)

/-- The number without its sign: all its digits, shifted behind the point and by the exponent. -/
def magnitude (p : Decimal) : ℚ :=
  (Numerals.value (p.whole ++ p.fraction.drop 1) : ℚ) / 10 ^ (p.fraction.drop 1).length *
    10 ^ power p.exponent

/-- The number. -/
def value (p : Decimal) : ℚ := if p.sign = [] then p.magnitude else -p.magnitude

end Decimal

/-- A text spells a number. -/
def NumberOf (text : List Char) (x : ℚ) : Prop :=
  ∃ p : Decimal, p.WellFormed ∧ text = p.text ∧ p.value = x

/-- The value of a hexadecimal digit. -/
def hexValue (c : Char) : Nat :=
  if c.isDigit then c.toNat - 48 else if 'a' ≤ c then c.toNat - 87 else c.toNat - 55

/-- The character that an escaped letter stands for. -/
def escapedChar (c : Char) : Char :=
  if c = 'b' then '\x08' else if c = 'f' then '\x0c' else if c = 'n' then '\n'
  else if c = 'r' then '\r' else if c = 't' then '\t' else c

/-- What a string stands for, all its escapes read. -/
def decoded : List Char → List Char
  | '\\' :: 'u' :: a :: b :: c :: d :: rest =>
    Char.ofNat (((hexValue a * 16 + hexValue b) * 16 + hexValue c) * 16 + hexValue d) ::
      decoded rest
  | '\\' :: c :: rest => escapedChar c :: decoded rest
  | c :: rest => c :: decoded rest
  | [] => []

/-! ## Balanced texts -/

/-- Where a pass over a text stands: outside a string, inside one, or at the character that
a backslash escapes. -/
inductive Lexing
  | outside
  | inside
  | escaped
  deriving DecidableEq, Repr

/-- Past a character inside a string. -/
def Lexing.past (c : Char) : Lexing :=
  if c = '\\' then .escaped else if c = '"' then .outside else .inside

theorem Lexing.past_plain {c : Char} (escape : c ≠ '\\') (quote : c ≠ '"') :
    Lexing.past c = .inside := by
  unfold Lexing.past
  rw [if_neg escape, if_neg quote]

theorem Lexing.past_escape : Lexing.past '\\' = .escaped := rfl

/-- Between two quotes that are not escaped. -/
inductive Quoted : List Char → Prop
  | nil : Quoted []
  | plain (c : Char) (rest : List Char) (quote : c ≠ '"') (escape : c ≠ '\\')
    (later : Quoted rest) : Quoted (c :: rest)
  | escaped (c : Char) (rest : List Char) (later : Quoted rest) : Quoted ('\\' :: c :: rest)

/-- No quote and no bracket. -/
def isLoose (c : Char) : Bool := decide (c ∉ ['"', '{', '}', '[', ']'])

inductive Balanced : List Char → Prop
  | nil : Balanced []
  | loose (c : Char) (rest : List Char) (loose : isLoose c = true) (later : Balanced rest) :
    Balanced (c :: rest)
  | quoted (body rest : List Char) (quoted : Quoted body) (later : Balanced rest) :
    Balanced ('"' :: (body ++ '"' :: rest))
  | braces (inner rest : List Char) (inside : Balanced inner) (later : Balanced rest) :
    Balanced ('{' :: (inner ++ '}' :: rest))
  | brackets (inner rest : List Char) (inside : Balanced inner) (later : Balanced rest) :
    Balanced ('[' :: (inner ++ ']' :: rest))

variable {first blank : List Char} {c : Char} {second : List Char} {x : ℚ}

theorem Quoted.append (before : Quoted first) (after : Quoted second) :
    Quoted (first ++ second) := by
  induction before with
  | nil => exact after
  | plain c rest quote escape _ ih => exact .plain c _ quote escape ih
  | escaped c rest _ ih => exact .escaped c _ ih

theorem Quoted.of_plain {text : List Char} (plain : ∀ c ∈ text, c ≠ '"' ∧ c ≠ '\\') :
    Quoted text := by
  induction text with
  | nil => exact .nil
  | cons c rest ih =>
    obtain ⟨quote, escape⟩ := plain c List.mem_cons_self
    exact .plain c rest quote escape (ih fun other inside =>
      plain other (List.mem_cons_of_mem c inside))

theorem isHex_plain {c : Char} (hex : isHex c = true) : c ≠ '"' ∧ c ≠ '\\' := by
  constructor
  · rintro rfl
    exact absurd hex (by decide)
  · rintro rfl
    exact absurd hex (by decide)

/-- A key's body can stand between quotes. -/
theorem Spelled.quoted {body : List Char} (spelled : Spelled body) : Quoted body := by
  induction spelled with
  | nil => exact .nil
  | plain c rest quote escape _ _ ih => exact .plain c rest quote escape ih
  | escaped c rest _ _ ih => exact .escaped c rest ih
  | unicode code rest _ hex _ ih =>
    exact .escaped 'u' _ ((Quoted.of_plain fun c inside => isHex_plain (hex c inside)).append ih)

/-- Two balanced texts in a row are balanced. -/
theorem Balanced.append (before : Balanced first) (after : Balanced second) :
    Balanced (first ++ second) := by
  induction before with
  | nil => exact after
  | loose c rest loose _ ih => exact .loose c _ loose ih
  | quoted body rest quoted _ ih =>
    rw [List.cons_append, List.append_assoc, List.cons_append]
    exact .quoted body _ quoted ih
  | braces inner rest inside _ _ ih =>
    rw [List.cons_append, List.append_assoc, List.cons_append]
    exact .braces inner _ inside ih
  | brackets inner rest inside _ _ ih =>
    rw [List.cons_append, List.append_assoc, List.cons_append]
    exact .brackets inner _ inside ih

theorem Balanced.of_loose {text : List Char} (loose : ∀ c ∈ text, isLoose c = true) :
    Balanced text := by
  induction text with
  | nil => exact .nil
  | cons c rest ih =>
    exact .loose c rest (loose c List.mem_cons_self)
      (ih fun other inside => loose other (List.mem_cons_of_mem c inside))

theorem isBlank_loose (blank : isBlank c = true) : isLoose c = true := by
  have which := of_decide_eq_true blank
  simp only [List.mem_cons, List.not_mem_nil, or_false] at which
  rcases which with rfl | rfl | rfl | rfl
  · decide
  · decide
  · decide
  · decide

theorem Blank.balanced {text : List Char} (blank : Blank text) : Balanced text :=
  .of_loose fun c inside => isBlank_loose (blank c inside)

/-! ## Scalars -/

/-- A character of a number, of a boolean or of null. -/
def isWord (c : Char) : Bool :=
  c.isDigit ||
    decide (c ∈ ['-', '+', '.', 'e', 'E', 't', 'r', 'u', 'f', 'a', 'l', 's', 'n'])

theorem isWord_of_digit (digit : c.isDigit = true) : isWord c = true := by
  unfold isWord
  rw [digit, Bool.true_or]

/-- No character of a scalar is a quote, a bracket, a comma, a colon or a blank. -/
theorem ne_of_isWord {other : Char} (word : isWord c = true) (apart : isWord other = false) :
    c ≠ other := by
  rintro rfl
  exact Bool.false_ne_true (apart.symm.trans word)

/-- A word character opens and closes nothing. -/
theorem isWord_loose (word : isWord c = true) : isLoose c = true := by
  apply decide_eq_true
  intro bracket
  simp only [List.mem_cons, List.not_mem_nil, or_false] at bracket
  rcases bracket with rfl | rfl | rfl | rfl | rfl
  · exact absurd word (by decide)
  · exact absurd word (by decide)
  · exact absurd word (by decide)
  · exact absurd word (by decide)
  · exact absurd word (by decide)

/-- No character of a number, true, false or null is blank. -/
theorem isWord_not_blank (word : isWord c = true) : isBlank c = false := by
  cases blank : isBlank c with
  | false => rfl
  | true =>
    have which := of_decide_eq_true blank
    simp only [List.mem_cons, List.not_mem_nil, or_false] at which
    rcases which with rfl | rfl | rfl | rfl
    · exact absurd word (by decide)
    · exact absurd word (by decide)
    · exact absurd word (by decide)
    · exact absurd word (by decide)

/-- Only characters of scalars. -/
def Worded (text : List Char) : Prop := ∀ c ∈ text, isWord c = true

theorem Worded.append (before : Worded first) (after : Worded second) :
    Worded (first ++ second) := by
  intro c inside
  rcases List.mem_append.mp inside with left | right
  · exact before c left
  · exact after c right

theorem Worded.cons {rest : List Char} (here : isWord c = true) (later : Worded rest) :
    Worded (c :: rest) := by
  intro other inside
  rcases List.mem_cons.mp inside with rfl | later'
  · exact here
  · exact later other later'

theorem worded_nil : Worded [] := fun _ inside => nomatch inside

theorem worded_digital {run : List Char} (digital : Numerals.Digital run) : Worded run :=
  fun c inside => isWord_of_digit (digital c inside)

theorem IsWhole.worded {text : List Char} (whole : IsWhole text) : Worded text := by
  rcases whole with rfl | ⟨digital, _, _⟩
  · exact .cons (by decide) worded_nil
  · exact worded_digital digital

theorem IsWhole.ne_nil {text : List Char} (whole : IsWhole text) : text ≠ [] := by
  rcases whole with rfl | ⟨_, nonempty, _⟩
  · exact List.cons_ne_nil _ _
  · exact nonempty

theorem IsFraction.worded {text : List Char} (fraction : IsFraction text) : Worded text := by
  rcases fraction with rfl | ⟨run, digital, _, rfl⟩
  · exact worded_nil
  · exact .cons (by decide) (worded_digital digital)

/-- An exponent is made of word characters. -/
theorem IsExponent.worded {text : List Char} (exponent : IsExponent text) : Worded text := by
  rcases exponent with rfl | ⟨mark, sign, run, isMark, isSign, digital, _, rfl⟩
  · exact worded_nil
  · have signed : Worded sign := by
      rcases isSign with rfl | rfl | rfl
      · exact worded_nil
      · exact .cons (by decide) worded_nil
      · exact .cons (by decide) worded_nil
    refine .cons ?_ (signed.append (worded_digital digital))
    rcases isMark with rfl | rfl
    · decide
    · decide

/-- A number is made of word characters. -/
theorem IsNumber.worded {text : List Char} (number : IsNumber text) : Worded text := by
  obtain ⟨sign, whole, fraction, exponent, isSign, isWhole, isFraction, isExponent, rfl⟩ := number
  have signed : Worded sign := by
    rcases isSign with rfl | rfl
    · exact worded_nil
    · exact .cons (by decide) worded_nil
  exact ((signed.append isWhole.worded).append isFraction.worded).append isExponent.worded

theorem IsNumber.ne_nil {text : List Char} (number : IsNumber text) : text ≠ [] := by
  obtain ⟨sign, whole, fraction, exponent, _, isWhole, _, _, rfl⟩ := number
  intro empty
  obtain ⟨front, _⟩ := List.append_eq_nil_iff.mp empty
  obtain ⟨front, _⟩ := List.append_eq_nil_iff.mp front
  exact isWhole.ne_nil (List.append_eq_nil_iff.mp front).2

theorem IsScalar.worded {text : List Char} (scalar : IsScalar text) : Worded text := by
  rcases scalar with number | (rfl | rfl) | rfl
  · exact number.worded
  · unfold Worded
    decide
  · unfold Worded
    decide
  · unfold Worded
    decide

theorem IsScalar.ne_nil {text : List Char} (scalar : IsScalar text) : text ≠ [] := by
  rcases scalar with number | (rfl | rfl) | rfl
  · exact number.ne_nil
  · exact List.cons_ne_nil _ _
  · exact List.cons_ne_nil _ _
  · exact List.cons_ne_nil _ _

/-! ## Numbers as the C library reads them -/

namespace Decimal

variable {p : Decimal}

variable {run : List Char}

theorem takeWhile_all (digital : Numerals.Digital run) : run.takeWhile Char.isDigit = run := by
  have whole := Numerals.takeWhile_digital run [] digital
  rwa [List.append_nil, List.takeWhile_nil, List.append_nil] at whole

theorem readSign_digital (digital : Numerals.Digital run) :
    Numerals.readSign run = (false, run) := by
  unfold Numerals.readSign
  split
  · exact absurd (digital '-' List.mem_cons_self) (by decide)
  · exact absurd (digital '+' List.mem_cons_self) (by decide)
  · rfl

/-- The program reads the exponent that is spelled. -/
theorem readExponent_eq {exponent : List Char} (isExponent : IsExponent exponent) :
    Numerals.readExponent exponent = power exponent := by
  rcases isExponent with rfl | ⟨mark, sign, run, isMark, isSign, digital, nonempty, rfl⟩
  · rfl
  rcases isSign with rfl | rfl | rfl
  · have plain : power (mark :: run) = Numerals.value run := by
      rw [power]
      · exact fun _ same => absurd (digital '-' (same ▸ List.mem_cons_self)) (by decide)
      · exact fun _ same => absurd (digital '+' (same ▸ List.mem_cons_self)) (by decide)
    rw [List.nil_append, Numerals.readExponent, readSign_digital digital, takeWhile_all digital,
      if_pos isMark, plain]
    rfl
  · rw [Numerals.readExponent]
    change (if mark = 'e' ∨ mark = 'E' then (Numerals.value (run.takeWhile Char.isDigit) : Int)
      else 0) = Numerals.value run
    rw [takeWhile_all digital, if_pos isMark]
  · rw [Numerals.readExponent]
    change (if mark = 'e' ∨ mark = 'E' then -(Numerals.value (run.takeWhile Char.isDigit) : Int)
      else 0) = -(Numerals.value run : Int)
    rw [takeWhile_all digital, if_pos isMark]

/-- A run of digits ends where no digit follows. -/
theorem takeWhile_run {text : List Char} (digital : Numerals.Digital run)
    (ends : ∀ c ∈ text.head?, c.isDigit = false) :
    (run ++ text).takeWhile Char.isDigit = run ∧ (run ++ text).dropWhile Char.isDigit = text := by
  rw [Numerals.takeWhile_digital run text digital, Numerals.dropWhile_digital run text digital]
  cases text with
  | nil => exact ⟨List.append_nil run, rfl⟩
  | cons c rest =>
    have other : ¬c.isDigit = true := by
      rw [ends c rfl]
      decide
    rw [List.takeWhile_cons_of_neg other, List.dropWhile_cons_of_neg other]
    exact ⟨List.append_nil run, rfl⟩

theorem exponent_head {exponent : List Char} (isExponent : IsExponent exponent) :
    ∀ c ∈ exponent.head?, c.isDigit = false ∧ c ≠ '.' := by
  rcases isExponent with rfl | ⟨mark, sign, run, rfl | rfl, _, _, _, rfl⟩
  · exact nofun
  · rintro c ⟨⟩
    decide
  · rintro c ⟨⟩
    decide

/-- The reader splits what is behind the whole part where the grammar does. -/
theorem readFraction_eq (formed : p.WellFormed) :
    Numerals.readFraction (p.fraction ++ p.exponent) = (p.fraction.drop 1, p.exponent) := by
  have ends := exponent_head formed.exponent
  rcases formed.fraction with none | ⟨run, digital, _, isFraction⟩
  · rw [none, List.nil_append, Numerals.readFraction]
    · rfl
    · intro rest isPoint
      rw [isPoint] at ends
      exact (ends '.' rfl).2 rfl
  · obtain ⟨taken, dropped⟩ := takeWhile_run digital fun c among => (ends c among).1
    rw [isFraction, List.cons_append, Numerals.readFraction, taken, dropped]
    rfl

/-- The digits before the point are a run of their own. -/
theorem whole_run (formed : p.WellFormed) :
    Numerals.Digital p.whole ∧
      (p.whole ++ (p.fraction ++ p.exponent)).takeWhile Char.isDigit = p.whole ∧
      (p.whole ++ (p.fraction ++ p.exponent)).dropWhile Char.isDigit =
        p.fraction ++ p.exponent := by
  have digital : Numerals.Digital p.whole := by
    rcases formed.whole with isZero | ⟨digital, _, _⟩
    · rw [isZero]
      exact fun c inside => List.mem_singleton.mp inside ▸ rfl
    · exact digital
  refine ⟨digital, takeWhile_run digital ?_⟩
  rcases formed.fraction with none | ⟨run, _, _, isFraction⟩
  · rw [none]
    exact fun c among => (exponent_head formed.exponent c among).1
  · rw [isFraction]
    rintro c ⟨⟩
    decide

theorem readStart_text (formed : p.WellFormed) :
    Numerals.readStart p.text =
      (decide (p.sign ≠ []), p.whole ++ (p.fraction ++ p.exponent)) := by
  unfold text
  rcases formed.sign with none | minus
  · rw [none, List.nil_append,
      Numerals.readStart_digital _ _ (whole_run formed).1 formed.whole.ne_nil]
    rfl
  · rw [minus]
    exact Numerals.readStart_minus _

/-- The program reads the number that is spelled. -/
theorem readNumber_text (formed : p.WellFormed) : Numerals.readNumber p.text = some p.value := by
  obtain ⟨_, taken, dropped⟩ := whole_run formed
  have read : Numerals.readMagnitude (p.whole ++ (p.fraction ++ p.exponent)) =
      some p.magnitude := by
    unfold Numerals.readMagnitude magnitude
    dsimp only
    rw [taken, dropped, readFraction_eq formed, readExponent_eq formed.exponent,
      if_neg fun none => formed.whole.ne_nil none.1]
  unfold Numerals.readNumber value
  dsimp only
  rw [readStart_text formed, read]
  by_cases plain : p.sign = []
  · rw [if_pos plain, if_neg (by simp [plain])]
  · rw [if_neg plain, if_pos (decide_eq_true plain)]
    rfl

end Decimal

theorem NumberOf.read {text : List Char} (number : NumberOf text x) :
    Numerals.readNumber text = some x := by
  obtain ⟨p, formed, rfl, rfl⟩ := number
  exact Decimal.readNumber_text formed

theorem NumberOf.unique {text : List Char} {y : ℚ} (first : NumberOf text x)
    (second : NumberOf text y) : x = y :=
  Option.some.inj (first.read.symm.trans second.read)

/-! ## Values are balanced -/

/-- Balanced parts between commas are balanced. -/
theorem Balanced.separated {parts : List (List Char)} (all : ∀ part ∈ parts, Balanced part) :
    Balanced (separated parts) := by
  induction parts with
  | nil => exact .nil
  | cons part rest ih =>
    have here := all part List.mem_cons_self
    have later := ih fun other inside => all other (List.mem_cons_of_mem part inside)
    cases rest with
    | nil => exact here
    | cons next rest => exact here.append (.loose ',' _ (by decide) later)

theorem Balanced.between {parts : List (List Char)} (blanks : Blank blank)
    (all : ∀ part ∈ parts, Balanced part) : Balanced (between blank parts) := by
  unfold Json.between
  split_ifs
  · exact blanks.balanced
  · exact .separated all

theorem Element.balanced {e : Element} (spaced : e.Spaced) (value : Balanced e.value) :
    Balanced e.text :=
  spaced.1.balanced.append (value.append spaced.2.balanced)

theorem Member.balanced {m : Member} (spaced : m.Spaced) (key : Quoted m.key)
    (value : Balanced m.element.value) : Balanced m.text :=
  spaced.1.balanced.append (.quoted m.key _ key
    (spaced.2.1.balanced.append (.loose ':' _ (by decide) (Element.balanced spaced.2.2 value))))

/-- The elements of an array are balanced when each value is. -/
theorem Balanced.elements {elements : List Element} (blanks : Blank blank)
    (spaced : ∀ e ∈ elements, e.Spaced) (values : ∀ e ∈ elements, Balanced e.value) :
    Balanced (Json.between blank (elements.map Element.text)) := by
  refine .between blanks fun part inside => ?_
  obtain ⟨e, among, rfl⟩ := List.mem_map.mp inside
  exact Element.balanced (spaced e among) (values e among)

/-- The members of an object are balanced when their values are. -/
theorem Balanced.members {members : List Member} (blanks : Blank blank)
    (spaced : ∀ m ∈ members, m.Spaced) (keys : ∀ m ∈ members, Spelled m.key)
    (values : ∀ m ∈ members, Balanced m.element.value) :
    Balanced (Json.between blank (members.map Member.text)) := by
  refine .between blanks fun part inside => ?_
  obtain ⟨m, among, rfl⟩ := List.mem_map.mp inside
  exact Member.balanced (spaced m among) (keys m among).quoted (values m among)

/-- Every value is balanced. By the grammar. -/
theorem IsValue.balanced {text : List Char} (value : IsValue text) : Balanced text := by
  induction value with
  | scalar text scalar => exact .of_loose fun c inside => isWord_loose (scalar.worded c inside)
  | string body spelled => exact .quoted body [] spelled.quoted .nil
  | array blank elements blanks spaced _ ih =>
    exact .brackets _ [] (.elements blanks spaced ih) .nil
  | object blank members blanks spaced keys _ ih =>
    exact .braces _ [] (.members blanks spaced keys ih) .nil

/-! ## Documents -/

/-- The text of an object between blanks. -/
structure Document where
  lead : List Char
  blank : List Char
  members : List Member
  trail : List Char

namespace Document

def text (doc : Document) : List Char :=
  doc.lead ++ '{' :: (between doc.blank (doc.members.map Member.text) ++ '}' :: doc.trail)

structure WellFormed (doc : Document) : Prop where
  lead : Blank doc.lead
  blank : Blank doc.blank
  trail : Blank doc.trail
  spaced : ∀ m ∈ doc.members, m.Spaced
  keys : ∀ m ∈ doc.members, Spelled m.key
  values : ∀ m ∈ doc.members, IsValue m.element.value

/-- The keys are spelled without escapes. -/
def Unescaped (doc : Document) : Prop := ∀ m ∈ doc.members, '\\' ∉ m.key

/-- The first member with a key. -/
def member (doc : Document) (key : List Char) : Option Member :=
  doc.members.find? fun m => decide (m.key = key)

/-- The first member whose key stands for a key, however it is spelled. -/
def named (doc : Document) (key : List Char) : Option Member :=
  doc.members.find? fun m => decide (decoded m.key = key)

end Document

/-- The place of the first key of that spelling, where the members start at some place. -/
def keyPlace (key : List Char) : Nat → List Member → Option Nat
  | _, [] => none
  | i, m :: rest =>
    if m.key = key then some (i + m.before.length) else keyPlace key (i + m.text.length + 1) rest

/-- No quote and no backslash. -/
def Bare (text : List Char) : Prop := '"' ∉ text ∧ '\\' ∉ text

/-- A string that starts like a key with its closing quote is that key. -/
theorem Quoted.eq_of_prefix {key body rest : List Char} (quoted : Quoted body)
    (plain : Bare key) (start : key ++ ['"'] <+: body ++ '"' :: rest) : body = key := by
  induction quoted generalizing key with
  | nil =>
    cases key with
    | nil => rfl
    | cons c key => exact absurd ((List.cons_prefix_cons.mp start).1 ▸ List.mem_cons_self) plain.1
  | plain c body quote _ _ ih =>
    cases key with
    | nil => exact absurd (List.cons_prefix_cons.mp start).1.symm quote
    | cons k key =>
      obtain ⟨same, later⟩ := List.cons_prefix_cons.mp start
      have fewer : Bare key :=
        ⟨fun among => plain.1 (List.mem_cons_of_mem k among),
          fun among => plain.2 (List.mem_cons_of_mem k among)⟩
      rw [same, ih fewer later]
  | escaped c body _ _ =>
    cases key with
    | nil => exact absurd (List.cons_prefix_cons.mp start).1 (by decide)
    | cons k key => exact absurd ((List.cons_prefix_cons.mp start).1 ▸ List.mem_cons_self) plain.2

/-- A value starts with a character that is not blank. -/
theorem IsValue.head {text : List Char} (value : IsValue text) :
    ∃ c rest, text = c :: rest ∧ isBlank c = false := by
  cases value with
  | scalar text scalar =>
    cases text with
    | nil => exact absurd rfl scalar.ne_nil
    | cons c rest => exact ⟨c, rest, rfl, isWord_not_blank (scalar.worded c List.mem_cons_self)⟩
  | string body _ => exact ⟨'"', _, rfl, by decide⟩
  | array blank elements _ _ _ => exact ⟨'[', _, rfl, by decide⟩
  | object blank members _ _ _ _ => exact ⟨'{', _, rfl, by decide⟩

/-- Blanks are skipped up to a value. -/
theorem Blank.dropWhile_append {text : List Char} (blanks : Blank blank) :
    (blank ++ text).dropWhile isBlank = text.dropWhile isBlank :=
  List.dropWhile_append_of_pos blanks

theorem IsValue.dropWhile_append {text rest : List Char} (value : IsValue text) :
    (text ++ rest).dropWhile isBlank = text ++ rest := by
  obtain ⟨c, tail, rfl, visible⟩ := value.head
  rw [List.cons_append, List.dropWhile_cons, visible]
  rfl

end Json
