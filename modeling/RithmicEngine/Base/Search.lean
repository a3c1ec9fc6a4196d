import Mathlib.Data.List.Infix
/-!
# Searching a text

The place at which a text first occurs in another.
-/
namespace Search

variable {α : Type} [DecidableEq α]

/-- The first place at which the needle occurs. -/
def find (needle : List α) : List α → Option Nat
  | [] => if needle = [] then some 0 else none
  | c :: rest => if needle <+: c :: rest then some 0 else (find needle rest).map (· + 1)

variable {needle front : List α}

/-- The found place splits the text, and no place before it does. -/
theorem find_eq_some {text : List α} {place : Nat} (found : find needle text = some place) :
    needle <+: text.drop place ∧ ∀ earlier < place, ¬needle <+: text.drop earlier := by
  induction text generalizing place with
  | nil =>
    unfold find at found
    split_ifs at found with empty
    obtain rfl := Option.some.inj found
    exact ⟨empty ▸ List.prefix_rfl, fun _ below => absurd below (Nat.not_lt_zero _)⟩
  | cons c rest ih =>
    unfold find at found
    split_ifs at found with here
    · obtain rfl := Option.some.inj found
      exact ⟨here, fun _ below => absurd below (Nat.not_lt_zero _)⟩
    · obtain ⟨later, isLater, rfl⟩ := Option.map_eq_some_iff.mp found
      obtain ⟨there, none⟩ := ih isLater
      refine ⟨there, ?_⟩
      intro earlier below
      cases earlier with
      | zero => exact here
      | succ earlier => exact none earlier (Nat.lt_of_succ_lt_succ below)

/-- The search fails exactly when the text does not have the needle anywhere. -/
theorem find_eq_none_iff {text : List α} : find needle text = none ↔ ¬needle <:+: text := by
  induction text with
  | nil =>
    unfold find
    rw [List.infix_nil]
    split_ifs with empty
    · exact ⟨nofun, fun nonempty => absurd empty nonempty⟩
    · exact ⟨fun _ => empty, fun _ => rfl⟩
  | cons c rest ih =>
    unfold find
    rw [List.infix_cons_iff]
    split_ifs with here
    · exact ⟨nofun, fun none => absurd (.inl here) none⟩
    · rw [Option.map_eq_none_iff, ih]
      exact ⟨fun none => not_or.mpr ⟨here, none⟩, fun none => (not_or.mp none).2⟩

/-- A needle that stands behind a text in which it does not occur, and with which it shares
no end, is found there. -/
theorem find_append {rest : List α} (starts : needle <+: rest)
    (none : ∀ place < front.length, ¬needle <+: (front ++ rest).drop place) :
    find needle (front ++ rest) = some front.length := by
  induction front with
  | nil =>
    cases rest with
    | nil => exact if_pos (List.prefix_nil.mp starts)
    | cons c rest => exact if_pos starts
  | cons c front ih =>
    have here : ¬needle <+: c :: (front ++ rest) := none 0 (Nat.succ_pos _)
    have later := ih fun place below => none (place + 1) (Nat.succ_lt_succ below)
    rw [List.cons_append, find, if_neg here, later]
    rfl

/-- A character that a text does not have is found behind it. -/
theorem find_char {c : α} (missing : c ∉ front) (rest : List α) :
    find [c] (front ++ c :: rest) = some front.length := by
  refine find_append ⟨rest, rfl⟩ ?_
  intro place below starts
  rw [List.drop_append_of_le_length (Nat.le_of_lt below), List.drop_eq_getElem_cons below,
    List.cons_append, List.cons_prefix_cons] at starts
  exact missing (starts.1 ▸ List.getElem_mem below)

/-- What occurs in the front of a text is found there. -/
theorem find_front (occurs : needle <:+: front) (rest : List α) :
    find needle (front ++ rest) = find needle front := by
  induction front with
  | nil =>
    obtain rfl := List.infix_nil.mp occurs
    cases rest with
    | nil => rfl
    | cons c rest => exact if_pos List.nil_prefix
  | cons c front ih =>
    have fits : needle.length ≤ (c :: front).length := occurs.length_le
    have same : needle <+: c :: (front ++ rest) ↔ needle <+: c :: front :=
      ⟨fun stands => List.prefix_of_prefix_length_le stands ⟨rest, rfl⟩ fits,
        fun stands => stands.trans ⟨rest, rfl⟩⟩
    rw [List.cons_append, find, find]
    by_cases here : needle <+: c :: front
    · rw [if_pos here, if_pos (same.mpr here)]
    · rw [if_neg here, if_neg fun stands => here (same.mp stands),
        ih ((List.infix_cons_iff.mp occurs).resolve_left here)]

/-- What does not occur in the front of a text, which ends with a character that it does not
have, is found behind it. -/
theorem find_behind {rest : List α} {c : α} (apart : c ∉ needle) (none : ¬needle <:+: front)
    (starts : needle <+: rest) : find needle (front ++ c :: rest) = some (front.length + 1) := by
  have closed : find needle ((front ++ [c]) ++ rest) = some (front ++ [c]).length := by
    refine find_append starts ?_
    intro place below stands
    rw [List.length_append, List.length_singleton] at below
    have drops : ((front ++ [c]) ++ rest).drop place = front.drop place ++ c :: rest := by
      rw [List.append_assoc, List.drop_append_of_le_length (Nat.le_of_lt_succ below)]
      rfl
    rw [drops] at stands
    rcases Nat.lt_or_ge (front.drop place).length needle.length with long | fits
    · have beyond : front.drop place ++ [c] <+: needle := by
        refine List.prefix_of_prefix_length_le ⟨rest, ?_⟩ stands ?_
        · rw [List.append_assoc]
          rfl
        · rw [List.length_append]
          exact long
      exact apart (beyond.subset (List.mem_append_right _ List.mem_cons_self))
    · have inside := List.prefix_of_prefix_length_le stands ⟨c :: rest, rfl⟩ fits
      exact none (inside.isInfix.trans (List.drop_suffix place front).isInfix)
  rw [List.append_assoc, List.length_append] at closed
  exact closed

end Search
