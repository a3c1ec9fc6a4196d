import Mathlib.Data.List.Infix
/-!
# Quoted values

A value between two quotes, where an escape stands before each quote and each escape of the
value. The quote that ends it is found again whatever the value is, and a text of other
characters occurs in the quoted value exactly where it occurs in the value.
-/
namespace Quoting

variable {α : Type} [DecidableEq α] {quote escape : α}

/-- A value with its quotes and escapes escaped. -/
def escaped (quote escape : α) : List α → List α
  | [] => []
  | c :: rest =>
    if c = quote ∨ c = escape then escape :: c :: escaped quote escape rest
    else c :: escaped quote escape rest

/-- The text behind the quote that ends a value, if there is one; the character that comes next
may be escaped already. -/
def behind (quote escape : α) : Bool → List α → List α
  | _, [] => []
  | true, _ :: rest => behind quote escape false rest
  | false, c :: rest =>
    if c = escape then behind quote escape true rest
    else if c = quote then rest
    else behind quote escape false rest

theorem escaped_special {c : α} (special : c = quote ∨ c = escape) (rest : List α) :
    escaped quote escape (c :: rest) = escape :: c :: escaped quote escape rest :=
  if_pos special

theorem escaped_plain {c : α} (plain : ¬(c = quote ∨ c = escape)) (rest : List α) :
    escaped quote escape (c :: rest) = c :: escaped quote escape rest :=
  if_neg plain

/-- The scan of an escaped value ends right behind its closing quote. -/
theorem behind_escaped (apart : quote ≠ escape) (value rest : List α) :
    behind quote escape false (escaped quote escape value ++ quote :: rest) = rest := by
  induction value with
  | nil =>
    rw [escaped, List.nil_append, behind, if_neg apart, if_pos rfl]
  | cons c value ih =>
    by_cases special : c = quote ∨ c = escape
    · rw [escaped_special special, List.cons_append, behind, if_pos rfl, List.cons_append, behind,
        ih]
    · obtain ⟨plain, other⟩ := not_or.mp special
      rw [escaped_plain special, List.cons_append, behind, if_neg other, if_neg plain, ih]

/-- The value can be told from its escaped text. -/
theorem escaped_injective : Function.Injective (escaped quote escape) := by
  intro first
  induction first with
  | nil =>
    intro second same
    cases second with
    | nil => rfl
    | cons d second =>
      unfold escaped at same
      split_ifs at same
  | cons c first ih =>
    intro second same
    cases second with
    | nil =>
      unfold escaped at same
      split_ifs at same
    | cons d second =>
      by_cases specialC : c = quote ∨ c = escape
      · rw [escaped_special specialC] at same
        by_cases specialD : d = quote ∨ d = escape
        · rw [escaped_special specialD] at same
          obtain ⟨_, tails⟩ := List.cons.inj same
          obtain ⟨head, later⟩ := List.cons.inj tails
          rw [head, ih later]
        · rw [escaped_plain specialD] at same
          exact absurd (.inr (List.cons.inj same).1.symm) specialD
      · rw [escaped_plain specialC] at same
        by_cases specialD : d = quote ∨ d = escape
        · rw [escaped_special specialD] at same
          exact absurd (.inr (List.cons.inj same).1) specialC
        · rw [escaped_plain specialD] at same
          obtain ⟨head, later⟩ := List.cons.inj same
          rw [head, ih later]

variable {text : List α}

/-- A text without quotes and escapes stands at the front of the escaped value exactly where it
stands at the front of the value. -/
theorem isPrefix_escaped (quoteless : quote ∉ text) (plain : escape ∉ text) (value : List α) :
    text <+: escaped quote escape value ↔ text <+: value := by
  induction text generalizing value with
  | nil => exact ⟨fun _ => List.nil_prefix, fun _ => List.nil_prefix⟩
  | cons t text ih =>
    cases value with
    | nil => rfl
    | cons c value =>
      have unquoted := List.ne_of_not_mem_cons quoteless
      have unescaped := List.ne_of_not_mem_cons plain
      have rest := ih (List.not_mem_of_not_mem_cons quoteless)
        (List.not_mem_of_not_mem_cons plain) value
      unfold escaped
      split_ifs with special
      · constructor
        · intro stands
          exact absurd (List.cons_prefix_cons.mp stands).1.symm unescaped
        · intro stands
          obtain ⟨rfl, _⟩ := List.cons_prefix_cons.mp stands
          rcases special with isQuote | isEscape
          · exact absurd isQuote.symm unquoted
          · exact absurd isEscape.symm unescaped
      · rw [List.cons_prefix_cons, List.cons_prefix_cons, rest]

/-- It occurs in the escaped value exactly where it occurs in the value. -/
theorem isInfix_escaped (quoteless : quote ∉ text) (plain : escape ∉ text) (nonempty : text ≠ [])
    (value : List α) : text <:+: escaped quote escape value ↔ text <:+: value := by
  induction value with
  | nil => rfl
  | cons c value ih =>
    have front := isPrefix_escaped quoteless plain (c :: value)
    rw [List.infix_cons_iff, ← front, ← ih]
    by_cases special : c = quote ∨ c = escape
    · have notBehind : ¬text <+: c :: escaped quote escape value := by
        intro stands
        obtain ⟨t, others, rfl⟩ := List.exists_cons_of_ne_nil nonempty
        obtain ⟨rfl, _⟩ := List.cons_prefix_cons.mp stands
        rcases special with rfl | rfl
        · exact quoteless List.mem_cons_self
        · exact plain List.mem_cons_self
      rw [escaped_special special, List.infix_cons_iff, List.infix_cons_iff]
      constructor
      · rintro (stands | stands | occurs)
        · exact .inl stands
        · exact absurd stands notBehind
        · exact .inr occurs
      · rintro (stands | occurs)
        · exact .inl stands
        · exact .inr (.inr occurs)
    · rw [escaped_plain special, List.infix_cons_iff]

omit [DecidableEq α] in
/-- A text without the quote does not reach over one. -/
theorem isInfix_around (quoteless : quote ∉ text) (front rest : List α) :
    text <:+: front ++ quote :: rest ↔ text <:+: front ∨ text <:+: rest := by
  induction front with
  | nil =>
    rw [List.nil_append, List.infix_cons_iff, List.infix_nil]
    have empty : text <+: quote :: rest ↔ text = [] := by
      cases text with
      | nil => exact ⟨fun _ => rfl, fun _ => List.nil_prefix⟩
      | cons t text =>
        rw [List.cons_prefix_cons]
        exact ⟨fun stands => absurd stands.1.symm (List.ne_of_not_mem_cons quoteless), nofun⟩
    rw [empty]
  | cons c front ih =>
    have short : text <+: c :: (front ++ quote :: rest) ↔ text <+: c :: front := by
      constructor
      · intro stands
        rcases Nat.lt_or_ge (c :: front).length text.length with long | fits
        · have beyond : c :: front ++ [quote] <+: text := by
            refine List.prefix_of_prefix_length_le ⟨rest, ?_⟩ stands ?_
            · rw [List.append_assoc]
              rfl
            · rw [List.length_append]
              exact long
          exact absurd (beyond.subset (List.mem_append_right _ List.mem_cons_self)) quoteless
        · exact List.prefix_of_prefix_length_le stands ⟨quote :: rest, rfl⟩ fits
      · exact fun stands => stands.trans ⟨quote :: rest, rfl⟩
    rw [List.cons_append, List.infix_cons_iff, List.infix_cons_iff, ih, short, or_assoc]

end Quoting
