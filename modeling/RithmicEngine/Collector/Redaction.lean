import RithmicEngine.Base.Quoting
import RithmicEngine.Base.Search
/-!
# The logged connection string

The connection string quotes each of its values, and the password in it is replaced before it
is logged. The replaced value is the one behind the first text that looks like the key of the
password, which may stand inside another value.
-/
namespace RithmicEngine

structure Config where
  pgHost : List Char := "localhost".toList
  pgPort : List Char := "5432".toList
  pgDb : List Char := "rithmic".toList
  pgUser : List Char := "rithmic_user".toList
  pgPassword : List Char := []

namespace Config

/-- A value between single quotes, with a backslash before each quote and backslash in it. -/
def pgValue (v : List Char) : List Char := '\'' :: (Quoting.escaped '\'' '\\' v ++ ['\''])

def pgConnstr (c : Config) : List Char :=
  "host=".toList ++ pgValue c.pgHost ++ " port=".toList ++ pgValue c.pgPort ++
    " dbname=".toList ++ pgValue c.pgDb ++ " user=".toList ++ pgValue c.pgUser ++
    " password=".toList ++ pgValue c.pgPassword ++
    " connect_timeout=10".toList ++ " application_name=rithmic_engine".toList

/-- What looks like the key of the password. -/
def passwordKey : List Char := " password=".toList

end Config

open Config

/-- The text behind the value that a text starts with. -/
def behindValue : List Char → List Char
  | [] => []
  | c :: rest =>
    if c = '\'' then Quoting.behind '\'' '\\' false rest
    else (c :: rest).dropWhile fun c => decide (c ≠ ' ')

def redactPgPassword (connstr : List Char) : List Char :=
  match (Search.find " password=".toList connstr).or
    (Search.find "password=".toList connstr) with
  | none => connstr
  | some pos =>
    let valStart := ((Search.find ['='] (connstr.drop pos)).map (pos + · + 1)).getD 0
    connstr.take valStart ++ "***".toList ++ behindValue (connstr.drop valStart)

/-! ## What is replaced -/

/-- Where the key is found, its value is replaced by three stars and the rest is kept. -/
theorem redact_found {connstr : List Char} {pos : Nat}
    (found : Search.find passwordKey connstr = some pos) :
    redactPgPassword connstr =
      connstr.take (pos + 10) ++ "***".toList ++ behindValue (connstr.drop (pos + 10)) := by
  obtain ⟨rest, starts⟩ := (Search.find_eq_some found).1
  have sign : Search.find ['='] (connstr.drop pos) = some 9 := by
    rw [← starts]
    have missing : '=' ∉ " password".toList := by decide
    exact Search.find_char missing rest
  unfold redactPgPassword
  rw [show " password=".toList = passwordKey from rfl, found, Option.some_or]
  dsimp only
  rw [sign]
  rfl

variable (front : List Char)

/-- The scan for the end of a quoted value does not pass the quote that the password starts
with. -/
theorem behind_passes (escaped : Bool) :
    ∃ shown, ∀ rest, Quoting.behind '\'' '\\' escaped (front ++ (passwordKey ++ '\'' :: rest)) =
      shown ++ rest := by
  induction front generalizing escaped with
  | nil =>
    refine ⟨[], fun rest => ?_⟩
    cases escaped with
    | false => rfl
    | true => rfl
  | cons c front ih =>
    cases escaped with
    | true => exact ih false
    | false =>
      by_cases escape : c = '\\'
      · obtain ⟨shown, later⟩ := ih true
        refine ⟨shown, fun rest => ?_⟩
        rw [List.cons_append, Quoting.behind, if_pos escape, later]
      · by_cases quote : c = '\''
        · refine ⟨front ++ (passwordKey ++ ['\'']), fun rest => ?_⟩
          rw [List.cons_append, Quoting.behind, if_neg escape, if_pos quote, List.append_assoc,
            List.append_assoc]
          rfl
        · obtain ⟨shown, later⟩ := ih false
          refine ⟨shown, fun rest => ?_⟩
          rw [List.cons_append, Quoting.behind, if_neg escape, if_neg quote, later]

/-- Nor does the scan for a blank. -/
theorem dropWhile_passes :
    ∃ shown, ∀ rest, (front ++ (passwordKey ++ '\'' :: rest)).dropWhile
      (fun c => decide (c ≠ ' ')) = shown ++ rest := by
  induction front with
  | nil => exact ⟨passwordKey ++ ['\''], fun rest => rfl⟩
  | cons c front ih =>
    by_cases blank : c = ' '
    · refine ⟨c :: front ++ (passwordKey ++ ['\'']), fun rest => ?_⟩
      rw [List.cons_append, List.dropWhile_cons_of_neg (by simp [blank]), List.append_assoc,
        List.append_assoc]
      rfl
    · obtain ⟨shown, later⟩ := ih
      refine ⟨shown, fun rest => ?_⟩
      rw [List.cons_append, List.dropWhile_cons_of_pos (by simp [blank]), later]

/-- Where the value that is replaced starts before the password does, the password is shown. -/
theorem behindValue_passes :
    ∃ shown, ∀ rest, behindValue (front ++ (passwordKey ++ '\'' :: rest)) = shown ++ rest := by
  cases front with
  | nil => exact dropWhile_passes []
  | cons c front =>
    by_cases quote : c = '\''
    · obtain ⟨shown, later⟩ := behind_passes front false
      refine ⟨shown, fun rest => ?_⟩
      rw [List.cons_append, behindValue, if_pos quote, later]
    · obtain ⟨shown, later⟩ := dropWhile_passes (c :: front)
      refine ⟨shown, fun rest => ?_⟩
      rw [List.cons_append, behindValue, if_neg quote, ← List.cons_append, later]

/-! ## The connection string -/

namespace Config

/-- The connection string up to the value of the user, without the quote that ends it. -/
def login (c : Config) : List Char :=
  "host=".toList ++ '\'' :: (Quoting.escaped '\'' '\\' c.pgHost ++
    '\'' :: (" port=".toList ++ '\'' :: (Quoting.escaped '\'' '\\' c.pgPort ++
      '\'' :: (" dbname=".toList ++ '\'' :: (Quoting.escaped '\'' '\\' c.pgDb ++
        '\'' :: (" user=".toList ++ '\'' :: Quoting.escaped '\'' '\\' c.pgUser))))))

/-- The connection string behind the value of the password. -/
def options : List Char :=
  " connect_timeout=10 application_name=rithmic_engine".toList

/-- The connection string is the login, the quoted password under its key, and the options. -/
theorem pgConnstr_eq (c : Config) :
    c.pgConnstr = c.login ++ '\'' :: (passwordKey ++
      '\'' :: (Quoting.escaped '\'' '\\' c.pgPassword ++ '\'' :: options)) := by
  have tail : options =
      " connect_timeout=10".toList ++ " application_name=rithmic_engine".toList := by
    decide +kernel
  unfold pgConnstr pgValue login passwordKey
  rw [tail]
  generalize "host=".toList = host, " port=".toList = port, " dbname=".toList = dbname,
    " user=".toList = user, " password=".toList = password, " connect_timeout=10".toList = timeout,
    " application_name=rithmic_engine".toList = name
  simp only [List.append_assoc, List.cons_append, List.nil_append]

/-- The key of the password occurs in one of the values before it. -/
def ShowsKey (c : Config) : Prop :=
  ∃ field ∈ [c.pgHost, c.pgPort, c.pgDb, c.pgUser], passwordKey <:+: field

/-- The key of the password occurs in the login part exactly when one of its values shows it. -/
theorem login_shows (c : Config) : passwordKey <:+: c.login ↔ c.ShowsKey := by
  have quoteless : '\'' ∉ passwordKey := by decide
  have around (front rest : List Char) := Quoting.isInfix_around quoteless front rest
  have inside (value : List Char) :
      passwordKey <:+: Quoting.escaped '\'' '\\' value ↔ passwordKey <:+: value :=
    Quoting.isInfix_escaped quoteless (by decide) (by decide) value
  have short (text : List Char) (below : text.length < 10) : ¬passwordKey <:+: text :=
    fun occurs => absurd occurs.length_le (Nat.not_le.mpr below)
  have host := short "host=".toList (by decide)
  have port := short " port=".toList (by decide)
  have dbname := short " dbname=".toList (by decide)
  have user := short " user=".toList (by decide)
  unfold login ShowsKey
  rw [around, around, around, around, around, around, around, inside, inside, inside, inside]
  simp only [host, port, dbname, user, false_or, List.mem_cons, List.not_mem_nil, or_false,
    exists_eq_or_imp, exists_eq_left]

end Config

/-- Where no other value shows the key, the redaction takes out the password itself. -/
theorem redact_hidden {c : Config} (hidden : ¬c.ShowsKey) :
    redactPgPassword c.pgConnstr =
      c.login ++ '\'' :: (passwordKey ++ "***".toList ++ options) := by
  have found : Search.find passwordKey c.pgConnstr = some (c.login.length + 1) := by
    rw [pgConnstr_eq]
    exact Search.find_behind (by decide) (fun occurs => hidden (c.login_shows.mp occurs))
      ⟨_, rfl⟩
  have split : c.pgConnstr = (c.login ++ '\'' :: passwordKey) ++
      '\'' :: (Quoting.escaped '\'' '\\' c.pgPassword ++ '\'' :: options) := by
    rw [pgConnstr_eq, List.append_assoc]
    rfl
  have length : c.login.length + 1 + 10 = (c.login ++ '\'' :: passwordKey).length := by
    rw [List.length_append]
    rfl
  rw [redact_found found, length, split, List.take_left, List.drop_left, behindValue,
    if_pos rfl, Quoting.behind_escaped (by decide), List.append_assoc, List.append_assoc]
  rfl

/-- Where the key occurs in another value, the whole password is in the logged string. -/
theorem redact_shown {c : Config} (shows : c.ShowsKey) :
    ∃ before, ∀ password, redactPgPassword (pgConnstr { c with pgPassword := password }) =
      before ++ (Quoting.escaped '\'' '\\' password ++ '\'' :: options) := by
  have occurs := c.login_shows.mpr shows
  obtain ⟨pos, found⟩ : ∃ pos, Search.find passwordKey c.login = some pos := by
    cases found : Search.find passwordKey c.login with
    | none => exact absurd occurs (Search.find_eq_none_iff.mp found)
    | some pos => exact ⟨pos, rfl⟩
  have fits : pos + 10 ≤ c.login.length := by
    have length := (Search.find_eq_some found).1.length_le
    rw [List.length_drop] at length
    change 10 ≤ _ at length
    omega
  obtain ⟨shown, later⟩ := behindValue_passes (c.login.drop (pos + 10) ++ ['\''])
  refine ⟨c.login.take (pos + 10) ++ "***".toList ++ shown, fun password => ?_⟩
  have front := Search.find_front occurs ('\'' :: (passwordKey ++
    '\'' :: (Quoting.escaped '\'' '\\' password ++ '\'' :: options)))
  have text := pgConnstr_eq { c with pgPassword := password }
  change _ = c.login ++ _ at text
  rw [text, redact_found (front.trans found), List.take_append_of_le_length fits,
    List.drop_append_of_le_length fits, List.append_assoc _ shown, ← later]
  simp

/-- Two logged strings of configurations that differ in the password only are the same exactly
where the key of the password does not occur in the other values. -/
theorem redaction_hides_iff (c : Config) {first second : List Char} (different : first ≠ second) :
    redactPgPassword (pgConnstr { c with pgPassword := first }) =
        redactPgPassword (pgConnstr { c with pgPassword := second }) ↔
      ∀ field ∈ [c.pgHost, c.pgPort, c.pgDb, c.pgUser], ¬passwordKey <:+: field := by
  constructor
  · intro same field inside occurs
    obtain ⟨before, shown⟩ := redact_shown ⟨field, inside, occurs⟩
    rw [shown, shown] at same
    have escaped := List.append_cancel_right (List.append_cancel_left same)
    exact different (Quoting.escaped_injective escaped)
  · intro hidden
    have none (password : List Char) : ¬Config.ShowsKey { c with pgPassword := password } := by
      rintro ⟨field, inside, occurs⟩
      exact hidden field inside occurs
    rw [redact_hidden (none first), redact_hidden (none second)]
    rfl

theorem redaction_hides_of_default :
    redactPgPassword (pgConnstr { pgPassword := "it's".toList }) =
      redactPgPassword (pgConnstr { pgPassword := "a b\\".toList }) :=
  (redaction_hides_iff {} (by decide)).mpr (by decide)

/-- A user whose name looks like the key of a password. -/
theorem password_is_logged :
    ¬redactPgPassword (pgConnstr { pgUser := "a password=b".toList, pgPassword := ['x'] }) =
      redactPgPassword (pgConnstr { pgUser := "a password=b".toList, pgPassword := ['y'] }) := by
  decide +kernel

end RithmicEngine
