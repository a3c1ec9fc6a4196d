import Mathlib.Data.List.Basic
/-!
# Grouping a stream by a key

The keys of a list in the order in which they first come, and the group of each: its
elements in order. Elements of one key that are appended make a new group at the end or
lengthen the group that they belong to, and leave every other group alone.
-/
namespace Grouping

universe u v

variable {α : Type u} {κ : Type v} [DecidableEq κ] (key : α → κ)

def keys (xs : List α) : List κ := (xs.map key).eraseDups

def group (k : κ) (xs : List α) : List α := xs.filter fun x => decide (key x = k)

theorem mem_keys {xs : List α} {k : κ} : k ∈ keys key xs ↔ ∃ x ∈ xs, key x = k := by
  unfold keys
  rw [List.mem_eraseDups, List.mem_map]

variable {key} {first second : List α} {k : κ}

/-- More elements of a key that is there already add no key. -/
theorem keys_append_old (all : ∀ x ∈ second, key x = k) (old : k ∈ keys key first) :
    keys key (first ++ second) = keys key first := by
  have none : (second.map key).removeAll (first.map key) = [] := by
    apply List.filter_eq_nil_iff.mpr
    intro k' isKey
    obtain ⟨x, inside, isX⟩ := List.mem_map.mp isKey
    have again : k' ∈ first.map key := by
      rw [← isX, all x inside]
      exact List.mem_eraseDups.mp old
    simp [again]
  unfold keys
  rw [List.map_append, List.eraseDups_append, none, List.eraseDups_nil, List.append_nil]

/-- Items of one new key behind the others add that key, once. -/
theorem keys_append_new (some : second ≠ []) (all : ∀ x ∈ second, key x = k)
    (new : k ∉ keys key first) : keys key (first ++ second) = keys key first ++ [k] := by
  have fresh : (second.map key).removeAll (first.map key) = second.map key := by
    apply List.filter_eq_self.mpr
    intro k' isKey
    obtain ⟨x, inside, isX⟩ := List.mem_map.mp isKey
    have outside : k' ∉ first.map key := by
      rw [← isX, all x inside]
      exact fun old => new (List.mem_eraseDups.mpr old)
    simp [outside]
  have single : (second.map key).eraseDups = [k] := by
    cases second with
    | nil => exact absurd rfl some
    | cons x rest =>
      have others : (rest.map key).filter (fun k' => !k' == key x) = [] := by
        apply List.filter_eq_nil_iff.mpr
        intro k' isKey
        obtain ⟨y, inside, isY⟩ := List.mem_map.mp isKey
        have same : k' = key x := by
          rw [← isY, all y (List.mem_cons_of_mem x inside), all x List.mem_cons_self]
        simp [same]
      rw [List.map_cons, List.eraseDups_cons, others, List.eraseDups_nil,
        all x List.mem_cons_self]
  unfold keys
  rw [List.map_append, List.eraseDups_append, fresh, single]

/-- The elements of one key add nothing to another key's group. -/
theorem group_append_other {other : κ} (all : ∀ x ∈ second, key x = k) (apart : other ≠ k) :
    group key other (first ++ second) = group key other first := by
  have none : second.filter (fun x => decide (key x = other)) = [] := by
    apply List.filter_eq_nil_iff.mpr
    intro x inside
    rw [all x inside]
    simp [apart.symm]
  unfold group
  rw [List.filter_append, none, List.append_nil]

theorem group_append_same (all : ∀ x ∈ second, key x = k) :
    group key k (first ++ second) = group key k first ++ second := by
  have every : second.filter (fun x => decide (key x = k)) = second := by
    apply List.filter_eq_self.mpr
    intro x inside
    exact decide_eq_true (all x inside)
  unfold group
  rw [List.filter_append, every]

theorem group_eq_nil (new : k ∉ keys key first) : group key k first = [] := by
  apply List.filter_eq_nil_iff.mpr
  intro x inside isKey
  exact new ((mem_keys key).mpr ⟨x, inside, of_decide_eq_true isKey⟩)

theorem group_ne_nil (old : k ∈ keys key first) : group key k first ≠ [] := by
  obtain ⟨x, inside, isKey⟩ := (mem_keys key).mp old
  exact List.ne_nil_of_mem (List.mem_filter.mpr ⟨inside, decide_eq_true isKey⟩)

/-! ## All groups -/

variable (key) in
/-- The groups in the order in which their keys first come. -/
def groups (xs : List α) : List (List α) := (keys key xs).map fun k => group key k xs

variable (key) in
/-- The elements of other keys. -/
def others (k : κ) (xs : List α) : List α := xs.filter fun x => decide (key x ≠ k)

/-- Without the elements of a new key the list is what it was before them. -/
theorem others_append (all : ∀ x ∈ second, key x = k) (new : ∀ x ∈ first, key x ≠ k) :
    others key k (first ++ second) = first := by
  have every : first.filter (fun x => decide (key x ≠ k)) = first := by
    apply List.filter_eq_self.mpr
    intro x inside
    exact decide_eq_true (new x inside)
  have none : second.filter (fun x => decide (key x ≠ k)) = [] := by
    apply List.filter_eq_nil_iff.mpr
    intro x inside
    simp [all x inside]
  unfold others
  rw [List.filter_append, every, none, List.append_nil]

/-- Elements of a new key are a new group. -/
theorem groups_append_new (some : second ≠ []) (all : ∀ x ∈ second, key x = k)
    (new : k ∉ keys key first) : groups key (first ++ second) = groups key first ++ [second] := by
  have older : (keys key first).map (fun k' => group key k' (first ++ second)) =
      (keys key first).map fun k' => group key k' first := by
    apply List.map_congr_left
    intro k' old
    apply group_append_other all
    rintro rfl
    exact new old
  unfold groups
  rw [keys_append_new some all new, List.map_append, older, List.map_singleton,
    group_append_same all, group_eq_nil new, List.nil_append]

end Grouping
