import RithmicEngine.Base.Doubles
import RithmicEngine.Base.Json
import RithmicEngine.Collector.LineCodec
/-!
# The readers of the configuration file

A key is looked up by one pass over the text, which counts brackets and knows whether it
is inside a string. What a reader makes of the value is decided by its first characters.
A text is a list of characters, one for each byte.
-/
namespace RithmicEngine

open Json

/-! ## Lookup -/

/-- A key between its quotes. -/
def needle (key : List Char) : List Char := '"' :: (key ++ ['"'])

/-- Past blanks there is a colon. -/
def colonFollows (text : List Char) : Bool :=
  decide ((text.dropWhile isBlank).head? = some ':')

/-- The pass from some place on, at some depth. -/
def scanTopKey (key : List Char) : Nat → Int → Lexing → List Char → Option Nat
  | _, _, _, [] => none
  | i, depth, .escaped, _ :: rest => scanTopKey key (i + 1) depth .inside rest
  | i, depth, .inside, c :: rest => scanTopKey key (i + 1) depth (.past c) rest
  | i, depth, .outside, c :: rest =>
    if c = '"' then
      if depth = 1 ∧ needle key <+: c :: rest ∧
          colonFollows (rest.drop (key.length + 1)) = true then some i
      else scanTopKey key (i + 1) depth .inside rest
    else if c = '{' ∨ c = '[' then scanTopKey key (i + 1) (depth + 1) .outside rest
    else if c = '}' ∨ c = ']' then scanTopKey key (i + 1) (depth - 1) .outside rest
    else scanTopKey key (i + 1) depth .outside rest

/-- The place of a key of the outermost object. -/
def findTopKey (s key : List Char) : Option Nat := scanTopKey key 0 0 .outside s

/-- What follows the first colon and the blanks after it, unless the text ends there. -/
def afterColon (text : List Char) : Option (List Char) :=
  match text.dropWhile (fun c => decide (c ≠ ':')) with
  | [] => none
  | _ :: rest =>
    match rest.dropWhile isBlank with
    | [] => none
    | value => some value

/-- The text from the value of a key on. -/
def topValue (s key : List Char) : Option (List Char) :=
  (findTopKey s key).bind fun pos => afterColon (s.drop pos)

/-! ## Readers -/

/-- The text up to the closing quote, where a backslash stands for the character after it.
There is none if the text ends before. -/
def readQuoted : Lexing → List Char → Option (List Char)
  | _, [] => none
  | .escaped, c :: rest => (readQuoted .inside rest).map (c :: ·)
  | _, c :: rest =>
    if c = '\\' then readQuoted .escaped rest
    else if c = '"' then some []
    else (readQuoted .inside rest).map (c :: ·)

def jsonStr (s key otherwise : List Char) : List Char :=
  match topValue s key with
  | some ('"' :: rest) => (readQuoted .inside rest).getD otherwise
  | _ => otherwise

/-! ## The pass over balanced texts -/

variable {key : List Char}

/-- The scan passes over a quoted text whole, whatever stands in it. -/
theorem scan_quoted {body : List Char} (quoted : Quoted body) (i : Nat) (depth : Int)
    (rest : List Char) :
    scanTopKey key i depth .inside (body ++ '"' :: rest) =
      scanTopKey key (i + body.length + 1) depth .outside rest := by
  induction quoted generalizing i with
  | nil => rfl
  | plain c body quote escape _ ih =>
    rw [List.cons_append, scanTopKey, Lexing.past_plain escape quote, ih, List.length_cons]
    congr 1
    omega
  | escaped c body _ ih =>
    rw [List.cons_append, List.cons_append, scanTopKey, Lexing.past_escape, scanTopKey, ih,
      List.length_cons, List.length_cons]
    congr 1
    omega

/-- One character of the pass outside a string. -/
theorem scan_outside (i : Nat) (depth : Int) (c : Char) (rest : List Char) :
    scanTopKey key i depth .outside (c :: rest) =
      if c = '"' then
        if depth = 1 ∧ needle key <+: c :: rest ∧
            colonFollows (rest.drop (key.length + 1)) = true then some i
        else scanTopKey key (i + 1) depth .inside rest
      else if c = '{' ∨ c = '[' then scanTopKey key (i + 1) (depth + 1) .outside rest
      else if c = '}' ∨ c = ']' then scanTopKey key (i + 1) (depth - 1) .outside rest
      else scanTopKey key (i + 1) depth .outside rest :=
  rfl

/-- A loose character leaves the depth. -/
theorem scan_loose {c : Char} (loose : isLoose c = true) (i : Nat) (depth : Int)
    (rest : List Char) :
    scanTopKey key i depth .outside (c :: rest) = scanTopKey key (i + 1) depth .outside rest := by
  have apart := of_decide_eq_true loose
  simp only [List.mem_cons, List.not_mem_nil, or_false, not_or] at apart
  obtain ⟨quote, brace, brace', bracket, bracket'⟩ := apart
  rw [scan_outside, if_neg quote, if_neg (not_or.mpr ⟨brace, bracket⟩),
    if_neg (not_or.mpr ⟨brace', bracket'⟩)]

theorem scan_open {c : Char} (opens : c = '{' ∨ c = '[') (i : Nat) (depth : Int)
    (rest : List Char) :
    scanTopKey key i depth .outside (c :: rest) =
      scanTopKey key (i + 1) (depth + 1) .outside rest := by
  have quote : c ≠ '"' := by
    rcases opens with rfl | rfl
    · decide
    · decide
  rw [scan_outside, if_neg quote, if_pos opens]

/-- A closing bracket ends a level. -/
theorem scan_close {c : Char} (closes : c = '}' ∨ c = ']') (i : Nat) (depth : Int)
    (rest : List Char) :
    scanTopKey key i depth .outside (c :: rest) =
      scanTopKey key (i + 1) (depth - 1) .outside rest := by
  have others : c ≠ '"' ∧ ¬(c = '{' ∨ c = '[') := by
    rcases closes with rfl | rfl
    · decide
    · decide
  rw [scan_outside, if_neg others.1, if_neg others.2, if_pos closes]

/-- A quote at which no key of the outermost object stands opens a string. -/
theorem scan_quote {depth : Int} {rest : List Char}
    (unmatched : ¬(depth = 1 ∧ needle key <+: '"' :: rest ∧
      colonFollows (rest.drop (key.length + 1)) = true)) (i : Nat) :
    scanTopKey key i depth .outside ('"' :: rest) = scanTopKey key (i + 1) depth .inside rest := by
  rw [scan_outside, if_pos rfl, if_neg unmatched]

/-- Below the outermost object nothing matches. -/
theorem scan_balanced {text : List Char} (balanced : Balanced text) (i : Nat) (depth : Int)
    (deep : 1 < depth) (rest : List Char) :
    scanTopKey key i depth .outside (text ++ rest) =
      scanTopKey key (i + text.length) depth .outside rest := by
  induction balanced generalizing i depth rest with
  | nil => rfl
  | loose c text loose _ ih =>
    rw [List.cons_append, scan_loose loose, ih _ _ deep, List.length_cons]
    congr 1
    omega
  | quoted body text quoted _ ih =>
    have unmatched : depth ≠ 1 := by omega
    rw [List.cons_append, List.append_assoc, List.cons_append,
      scan_quote (fun matched => unmatched matched.1), scan_quoted quoted, ih _ _ deep]
    simp only [List.length_cons, List.length_append]
    congr 1
    omega
  | braces inner text _ _ inside ih =>
    rw [List.cons_append, List.append_assoc, List.cons_append, scan_open (.inl rfl),
      inside _ _ (by omega), scan_close (.inl rfl), Int.add_sub_cancel, ih _ _ deep]
    simp only [List.length_cons, List.length_append]
    congr 1
    omega
  | brackets inner text _ _ inside ih =>
    rw [List.cons_append, List.append_assoc, List.cons_append, scan_open (.inr rfl),
      inside _ _ (by omega), scan_close (.inr rfl), Int.add_sub_cancel, ih _ _ deep]
    simp only [List.length_cons, List.length_append]
    congr 1
    omega

/-! ## The pass over the outermost object -/

/-- A loose text leaves the depth. -/
theorem scan_loose_text {text : List Char} (loose : ∀ c ∈ text, isLoose c = true) (i : Nat)
    (depth : Int) (rest : List Char) :
    scanTopKey key i depth .outside (text ++ rest) =
      scanTopKey key (i + text.length) depth .outside rest := by
  induction text generalizing i with
  | nil => rfl
  | cons c text ih =>
    rw [List.cons_append, scan_loose (loose c List.mem_cons_self),
      ih fun other inside => loose other (List.mem_cons_of_mem c inside), List.length_cons]
    congr 1
    omega

theorem scan_blank {text : List Char} (blank : Blank text) (i : Nat) (depth : Int)
    (rest : List Char) :
    scanTopKey key i depth .outside (text ++ rest) =
      scanTopKey key (i + text.length) depth .outside rest :=
  scan_loose_text (fun c inside => isBlank_loose (blank c inside)) i depth rest

/-- Past a value there is a comma or the end of its object. -/
def Closing (rest : List Char) : Prop := rest.head? = some ',' ∨ rest.head? = some '}'

theorem Closing.cons {rest : List Char} (closing : Closing rest) :
    ∃ c tail, rest = c :: tail ∧ (c = ',' ∨ c = '}') := by
  cases rest with
  | nil => exact closing.elim nofun nofun
  | cons c tail =>
    exact ⟨c, tail, rfl, closing.imp (fun comma => Option.some.inj comma)
      fun brace => Option.some.inj brace⟩

theorem no_colon_of_closing {after rest : List Char} (blank : Blank after)
    (closing : Closing rest) : colonFollows (after ++ rest) = false := by
  obtain ⟨c, tail, rfl, which⟩ := closing.cons
  unfold colonFollows
  rw [blank.dropWhile_append]
  rcases which with rfl | rfl
  · rfl
  · rfl

/-- The text behind a value ends the value for every reader. -/
theorem behind_value {after rest : List Char} (blank : Blank after) (closing : Closing rest) :
    ∃ c tail, after ++ rest = c :: tail ∧ (c = ',' ∨ c = '}' ∨ Json.isBlank c = true) := by
  cases after with
  | nil =>
    obtain ⟨c, tail, isRest, which⟩ := closing.cons
    exact ⟨c, tail, isRest, which.imp_right .inl⟩
  | cons c after => exact ⟨c, after ++ rest, rfl, .inr (.inr (blank c List.mem_cons_self))⟩

/-- A key matches a string only if this is spelled the same. -/
theorem needle_starts {body rest : List Char} (bare : Bare key) (quoted : Quoted body)
    (start : needle key <+: '"' :: (body ++ '"' :: rest)) : body = key :=
  quoted.eq_of_prefix bare (List.cons_prefix_cons.mp start).2

theorem drop_key (rest : List Char) : (key ++ '"' :: rest).drop (key.length + 1) = rest := by
  rw [List.append_cons]
  exact List.drop_left' (List.length_append ..)

theorem needle_starts_self (rest : List Char) : needle key <+: '"' :: (key ++ '"' :: rest) := by
  refine ⟨rest, ?_⟩
  rw [needle, List.cons_append, List.append_assoc]
  rfl

/-- A value of the outermost object hides nothing and is taken for nothing. -/
theorem scan_value {value : List Char} (isValue : IsValue value) (bare : Bare key)
    {after rest : List Char} (blank : Blank after) (closing : Closing rest) (i : Nat) :
    scanTopKey key i 1 .outside (value ++ (after ++ rest)) =
      scanTopKey key (i + value.length) 1 .outside (after ++ rest) := by
  cases isValue with
  | scalar text scalar =>
    exact scan_loose_text (fun c inside => isWord_loose (scalar.worded c inside)) i 1 _
  | string body spelled =>
    rw [List.cons_append, List.append_assoc, List.singleton_append]
    have unmatched : ¬((1 : Int) = 1 ∧ needle key <+: '"' :: (body ++ '"' :: (after ++ rest)) ∧
        colonFollows ((body ++ '"' :: (after ++ rest)).drop (key.length + 1)) = true) := by
      rintro ⟨_, start, colon⟩
      rw [needle_starts bare spelled.quoted start, drop_key,
        no_colon_of_closing blank closing] at colon
      exact Bool.false_ne_true colon
    rw [scan_quote unmatched, scan_quoted spelled.quoted]
    simp only [List.length_cons, List.length_append, List.length_nil]
    congr 1
    omega
  | array inner elements blanks spaced values =>
    have balanced : Balanced (between inner (elements.map Element.text)) :=
      .elements blanks spaced fun e among => (values e among).balanced
    rw [List.cons_append, List.append_assoc, scan_open (.inr rfl),
      scan_balanced balanced _ _ (by decide), List.singleton_append, scan_close (.inr rfl)]
    simp only [List.length_cons, List.length_append, List.length_nil]
    congr 1
    omega
  | object inner members blanks spaced keys values =>
    have balanced : Balanced (between inner (members.map Member.text)) :=
      .members blanks spaced keys fun m among => (values m among).balanced
    rw [List.cons_append, List.append_assoc, scan_open (.inl rfl),
      scan_balanced balanced _ _ (by decide), List.singleton_append, scan_close (.inl rfl)]
    simp only [List.length_cons, List.length_append, List.length_nil]
    congr 1
    omega

/-- What a member of the outermost object must be. -/
structure WellSpelled (m : Member) : Prop where
  spaced : m.Spaced
  key : Spelled m.key
  value : IsValue m.element.value

/-- At a member the pass finds the key or goes on behind it. -/
theorem scan_member {m : Member} (spelled : WellSpelled m) (bare : Bare key) {rest : List Char}
    (closing : Closing rest) (i : Nat) :
    scanTopKey key i 1 .outside (m.text ++ rest) =
      if m.key = key then some (i + m.before.length)
      else scanTopKey key (i + m.text.length) 1 .outside rest := by
  have quoted : Quoted m.key := spelled.key.quoted
  have shape : m.text ++ rest = m.before ++ '"' :: (m.key ++ '"' :: (m.after ++ ':' ::
      (m.element.before ++ (m.element.value ++ (m.element.after ++ rest))))) := by
    simp [Member.text, Element.text]
  rw [shape, scan_blank spelled.spaced.1]
  by_cases same : m.key = key
  · have colon (tail : List Char) : colonFollows (m.after ++ ':' :: tail) = true := by
      unfold colonFollows
      rw [spelled.spaced.2.1.dropWhile_append]
      rfl
    rw [same, scan_outside, if_pos rfl, drop_key, if_pos ⟨rfl, needle_starts_self _, colon _⟩,
      if_pos rfl]
  · have unmatched (tail : List Char) : ¬((1 : Int) = 1 ∧
        needle key <+: '"' :: (m.key ++ '"' :: tail) ∧
        colonFollows ((m.key ++ '"' :: tail).drop (key.length + 1)) = true) :=
      fun matched => same (needle_starts bare quoted matched.2.1)
    rw [if_neg same, scan_quote (unmatched _), scan_quoted quoted, scan_blank spelled.spaced.2.1,
      scan_loose (by decide), scan_blank spelled.spaced.2.2.1,
      scan_value spelled.value bare spelled.spaced.2.2.2 closing, scan_blank spelled.spaced.2.2.2]
    simp only [Member.text, Element.text, List.length_append, List.length_cons]
    congr 1
    omega

/-- Behind the outermost object nothing matches. -/
theorem scan_trail {trail : List Char} (blank : Blank trail) (i : Nat) :
    scanTopKey key i 1 .outside ('}' :: trail) = none := by
  have ends := @scan_blank key trail blank (i + 1) (1 - 1) []
  rw [List.append_nil] at ends
  rw [scan_close (.inl rfl), ends]
  rfl

/-- The scan for a top-level key stops at the first member spelled so, and passes over all
values. -/
theorem scan_members {members : List Member} (spelled : ∀ m ∈ members, WellSpelled m)
    (bare : Bare key) {trail : List Char} (blank : Blank trail) (i : Nat) :
    scanTopKey key i 1 .outside (separated (members.map Member.text) ++ '}' :: trail) =
      keyPlace key i members := by
  induction members generalizing i with
  | nil => exact scan_trail blank i
  | cons m members ih =>
    have here := spelled m List.mem_cons_self
    have later := ih fun other inside => spelled other (List.mem_cons_of_mem m inside)
    cases members with
    | nil =>
      rw [List.map_cons, List.map_nil, separated, scan_member here bare (.inr rfl), keyPlace,
        scan_trail blank]
      rfl
    | cons next members =>
      rw [List.map_cons, List.map_cons, separated, List.append_assoc, List.cons_append,
        scan_member here bare (.inl rfl), scan_loose (by decide), keyPlace]
      rw [← List.map_cons (f := Member.text), later]

/-! ## Documents -/

variable {doc : Document}

theorem wellSpelled_of_mem (formed : doc.WellFormed) : ∀ m ∈ doc.members, WellSpelled m :=
  fun m inside => ⟨formed.spaced m inside, formed.keys m inside, formed.values m inside⟩

/-- The pass finds the first member with the key, and nothing where there is none. -/
theorem findTopKey_text (formed : doc.WellFormed) (bare : Bare key) :
    findTopKey doc.text key = keyPlace key (doc.lead.length + 1) doc.members := by
  have spelled := wellSpelled_of_mem formed
  unfold findTopKey Document.text
  rw [scan_blank formed.lead, scan_open (.inl rfl)]
  cases members : doc.members with
  | nil =>
    rw [List.map_nil, between, if_pos rfl, scan_blank formed.blank, Int.zero_add,
      scan_trail formed.trail]
    rfl
  | cons m rest =>
    rw [members] at spelled
    rw [between, if_neg (by exact List.cons_ne_nil _ _), Int.zero_add, Nat.zero_add,
      scan_members spelled bare formed.trail]

/-- The members up to a place split where the first one with the key stands. -/
theorem separated_at {members : List Member} {m : Member}
    (found : members.find? (fun m => decide (m.key = key)) = some m) (i : Nat) (trail : List Char) :
    ∃ front rest, keyPlace key i members = some (i + front.length + m.before.length) ∧
      m.key = key ∧ Closing rest ∧
      separated (members.map Member.text) ++ '}' :: trail = front ++ (m.text ++ rest) := by
  induction members generalizing i with
  | nil => exact nomatch found
  | cons first members ih =>
    rw [List.find?_cons] at found
    by_cases same : first.key = key
    · rw [decide_eq_true same] at found
      obtain rfl := Option.some.inj found
      refine ⟨[], (separated (first.text :: members.map Member.text) ++ '}' :: trail).drop
        first.text.length, ?_, same, ?_, ?_⟩
      · rw [keyPlace, if_pos same]
        rfl
      · cases members with
        | nil =>
          rw [List.map_nil, separated, List.drop_left]
          exact .inr rfl
        | cons next members =>
          rw [List.map_cons, separated, List.append_assoc, List.drop_left]
          exact .inl rfl
      · cases members with
        | nil =>
          rw [List.map_cons, List.map_nil, separated, List.drop_left]
          rfl
        | cons next members =>
          rw [List.map_cons, List.map_cons, separated, List.append_assoc, List.drop_left]
          rfl
    · rw [decide_eq_false same] at found
      obtain ⟨front, rest, place, isKey, closing, split⟩ := ih found (i + first.text.length + 1)
      cases members with
      | nil => exact nomatch found
      | cons next members =>
        refine ⟨first.text ++ ',' :: front, rest, ?_, isKey, closing, ?_⟩
        · rw [keyPlace, if_neg same, place, List.length_append, List.length_cons]
          congr 1
          omega
        · rw [List.map_cons, List.map_cons, separated, List.append_assoc, List.cons_append,
            ← List.map_cons (f := Member.text), split, List.append_assoc, List.cons_append]

/-- Past the key the first colon is the member's own, and past the blanks is its value. -/
theorem afterColon_member {m : Member} (spaced : m.Spaced) (value : IsValue m.element.value)
    (colonless : ':' ∉ m.key) (rest : List Char) :
    afterColon ('"' :: (m.key ++ '"' :: (m.after ++ ':' :: (m.element.text ++ rest)))) =
      some (m.element.value ++ (m.element.after ++ rest)) := by
  have front : ∀ c ∈ '"' :: (m.key ++ '"' :: m.after), decide (c ≠ ':') = true := by
    intro c inside
    apply decide_eq_true
    rintro rfl
    rcases List.mem_cons.mp inside with quote | inside
    · exact absurd quote (by decide)
    rcases List.mem_append.mp inside with isKey | inside
    · exact colonless isKey
    rcases List.mem_cons.mp inside with quote | blank
    · exact absurd quote (by decide)
    · exact absurd (spaced.2.1 ':' blank) (by decide)
  have shape : '"' :: (m.key ++ '"' :: (m.after ++ ':' :: (m.element.text ++ rest))) =
      ('"' :: (m.key ++ '"' :: m.after)) ++ ':' :: (m.element.text ++ rest) := by
    simp
  unfold afterColon
  rw [shape, List.dropWhile_append_of_pos front]
  dsimp only [List.dropWhile]
  rw [decide_eq_false (by decide)]
  dsimp only
  rw [Element.text, List.append_assoc, spaced.2.2.1.dropWhile_append, List.append_assoc,
    value.dropWhile_append]
  obtain ⟨c, tail, isText, _⟩ := value.head
  rw [isText]
  rfl

/-- The text around the first member with the key. -/
theorem text_at_member {doc : Document} (formed : doc.WellFormed)
    (bare : Bare key) {m : Member} (found : doc.member key = some m) :
    ∃ front rest, Closing rest ∧ m ∈ doc.members ∧ m.key = key ∧
      findTopKey doc.text key = some front.length ∧
      doc.text = front ++ '"' :: (key ++ '"' :: (m.after ++ ':' :: (m.element.text ++ rest))) := by
  have inside : m ∈ doc.members := List.mem_of_find?_eq_some found
  obtain ⟨front, rest, place, isKey, closing, split⟩ :=
    separated_at found (doc.lead.length + 1) doc.trail
  have nonempty : doc.members.map Member.text ≠ [] := by
    intro empty
    rw [List.map_eq_nil_iff.mp empty] at inside
    exact nomatch inside
  refine ⟨doc.lead ++ '{' :: (front ++ m.before), rest, closing, inside, isKey, ?_, ?_⟩
  · rw [findTopKey_text formed bare, place]
    simp only [List.length_append, List.length_cons]
    congr 1
    omega
  · unfold Document.text between
    rw [if_neg nonempty, split]
    simp [Member.text, isKey]

/-- The readers start at the value of the first member with the key. -/
theorem topValue_member (formed : doc.WellFormed) (bare : Bare key) (colonless : ':' ∉ key)
    {m : Member} (found : doc.member key = some m) :
    ∃ rest, Closing rest ∧
      topValue doc.text key = some (m.element.value ++ (m.element.after ++ rest)) := by
  obtain ⟨front, rest, closing, inside, isKey, place, shape⟩ :=
    text_at_member formed bare found
  refine ⟨rest, closing, ?_⟩
  unfold topValue
  rw [place, Option.bind_some, shape, List.drop_left, ← isKey]
  exact afterColon_member (formed.spaced m inside) (formed.values m inside)
    (isKey ▸ colonless) rest

/-- A key that no member has is at no place. -/
theorem keyPlace_none {members : List Member}
    (missing : members.find? (fun m => decide (m.key = key)) = none) (i : Nat) :
    keyPlace key i members = none := by
  induction members generalizing i with
  | nil => rfl
  | cons m members ih =>
    rw [List.find?_cons] at missing
    by_cases same : m.key = key
    · rw [decide_eq_true same] at missing
      exact nomatch missing
    · rw [decide_eq_false same] at missing
      rw [keyPlace, if_neg same]
      exact ih missing _

theorem topValue_none (formed : doc.WellFormed) (bare : Bare key)
    (missing : doc.member key = none) :
    topValue doc.text key = none := by
  unfold topValue
  rw [findTopKey_text formed bare, keyPlace_none missing]
  rfl

/-- The reader of a quoted text decodes its body. -/
theorem readQuoted_decodes {body out : List Char} (decodes : Decodes body out)
    (rest : List Char) : readQuoted .inside (body ++ '"' :: rest) = some out := by
  induction decodes with
  | nil => rfl
  | plain c body out quote escape _ ih =>
    rw [List.cons_append, readQuoted, if_neg escape, if_neg quote, ih]
    · rfl
    · exact nofun
  | escaped c body out _ _ ih =>
    rw [List.cons_append, List.cons_append, readQuoted, if_pos rfl, readQuoted, ih]
    · rfl
    · exact nofun

/-- The reader of strings finds the member and undoes its escapes. -/
theorem jsonStr_member {doc : Document} (formed : doc.WellFormed)
    (bare : Bare key) (colonless : ':' ∉ key) {m : Member} (found : doc.member key = some m)
    {body out : List Char} (isString : m.element.value = '"' :: (body ++ ['"']))
    (decodes : Decodes body out) (otherwise : List Char) :
    jsonStr doc.text key otherwise = out := by
  obtain ⟨rest, _, value⟩ := topValue_member formed bare colonless found
  unfold jsonStr
  rw [value, isString, List.cons_append, List.append_assoc, List.singleton_append]
  change (readQuoted .inside (body ++ '"' :: (m.element.after ++ rest))).getD otherwise = out
  rw [readQuoted_decodes decodes]
  rfl

/-- In every object the key is found exactly where its first member stands, and a string
there is read as what it stands for. -/
theorem lookup_exact (doc : Document) (key : List Char) (formed : doc.WellFormed)
    (bare : Bare key) (colonless : ':' ∉ key) :
    findTopKey doc.text key = keyPlace key (doc.lead.length + 1) doc.members ∧
      ∀ m body out otherwise, doc.member key = some m → m.element.value = '"' :: (body ++ ['"']) →
        Decodes body out → jsonStr doc.text key otherwise = out := by
  refine ⟨findTopKey_text formed bare, ?_⟩
  intro m body out otherwise found isString decodes
  exact jsonStr_member formed bare colonless found isString decodes otherwise

/-- A member without blanks. -/
def tightMember (key value : String) : Member where
  before := []
  key := key.toList
  after := []
  element := { before := [], value := value.toList, after := [] }

theorem tightMember_spaced (key value : String) : (tightMember key value).Spaced := by
  have none : Blank [] := fun _ inside => nomatch inside
  exact ⟨none, none, none, none⟩

/-- The object without blanks that has some members. -/
def tightObject (members : List Member) : Document where
  lead := []
  blank := []
  members := members
  trail := []

theorem tightObject_isValue {members : List Member}
    (formed : (tightObject members).WellFormed) : IsValue (tightObject members).text :=
  .object [] members formed.blank formed.spaced formed.keys formed.values

/-- A tight object of plain keys and values is well formed. -/
theorem tightMembers_wellFormed (members : List (String × String))
    (keys : ∀ m ∈ members, ∀ c ∈ m.1.toList, c ≠ '"' ∧ c ≠ '\\' ∧ ' ' ≤ c)
    (values : ∀ m ∈ members, IsValue m.2.toList) :
    (tightObject (members.map fun m => tightMember m.1 m.2)).WellFormed where
  lead := fun _ inside => nomatch inside
  blank := fun _ inside => nomatch inside
  trail := fun _ inside => nomatch inside
  spaced := by
    intro m inside
    obtain ⟨pair, _, rfl⟩ := List.mem_map.mp inside
    exact tightMember_spaced _ _
  keys := by
    intro m inside
    obtain ⟨pair, among, rfl⟩ := List.mem_map.mp inside
    exact .of_printable (keys pair among)
  values := by
    intro m inside
    obtain ⟨pair, among, rfl⟩ := List.mem_map.mp inside
    exact values pair among

/-- A comment that quotes the key and a brace, and a nested object with the same key. -/
def shadowed : Document where
  lead := []
  blank := []
  members := [tightMember "_n" "\"\\\"m\\\":\x7b\"", tightMember "p" "\x7b\"m\":1\x7d",
    tightMember "m" "\"b\\/c\""]
  trail := ['\n']

/-- The document of the counterexample is well formed. -/
theorem shadowed_wellFormed : shadowed.WellFormed where
  lead := fun _ inside => nomatch inside
  blank := fun _ inside => nomatch inside
  trail := by
    unfold Blank
    decide
  spaced := by
    rintro m (_ | ⟨_, _ | ⟨_, _ | ⟨_, inside⟩⟩⟩)
    · exact tightMember_spaced _ _
    · exact tightMember_spaced _ _
    · exact tightMember_spaced _ _
    · exact nomatch inside
  keys := by
    rintro m (_ | ⟨_, _ | ⟨_, _ | ⟨_, inside⟩⟩⟩)
    · exact .of_printable (by decide)
    · exact .of_printable (by decide)
    · exact .of_printable (by decide)
    · exact nomatch inside
  values := by
    rintro m (_ | ⟨_, _ | ⟨_, _ | ⟨_, inside⟩⟩⟩)
    · refine .string "\\\"m\\\":\x7b".toList (.escaped '"' _ (by decide) ?_)
      refine .plain 'm' _ (by decide) (by decide) (by decide) (.escaped '"' _ (by decide) ?_)
      exact .of_printable (by decide)
    · refine .object [] [tightMember "m" "1"] (fun _ inside => nomatch inside) ?_ ?_ ?_
      · rintro m (_ | ⟨_, inside⟩)
        · exact tightMember_spaced _ _
        · exact nomatch inside
      · rintro m (_ | ⟨_, inside⟩)
        · exact .of_printable (by decide)
        · exact nomatch inside
      · rintro m (_ | ⟨_, inside⟩)
        · exact .scalar _ (.inl ⟨[], ['1'], [], [], .inl rfl,
            .inr ⟨by unfold Numerals.Digital; decide, by decide, by decide⟩, .inl rfl,
              .inl rfl, rfl⟩)
        · exact nomatch inside
    · refine .string "b\\/c".toList (.plain 'b' _ (by decide) (by decide) (by decide) ?_)
      exact .escaped '/' _ (by decide) (.of_printable (by decide))
    · exact nomatch inside

/-- A nested member of the same name is passed over. -/
theorem lookup_exact_of_shadowed :
    findTopKey shadowed.text "m".toList = some 28 ∧
      jsonStr shadowed.text "m".toList [] = "b/c".toList := by
  obtain ⟨place, value⟩ := lookup_exact shadowed "m".toList shadowed_wellFormed
    ⟨by decide, by decide⟩ (by decide)
  refine ⟨place.trans (by decide), ?_⟩
  exact value (tightMember "m" "\"b\\/c\"") "b\\/c".toList "b/c".toList [] (by rfl) (by rfl)
    (.plain 'b' _ _ (by decide) (by decide)
      (.escaped '/' _ _ (by decide) (.plain 'c' _ _ (by decide) (by decide) .nil)))

end RithmicEngine
