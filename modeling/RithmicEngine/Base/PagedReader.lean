import Mathlib.Data.List.DropRight
import Mathlib.Data.List.Sort
/-!
# Reading a table by pages

A reader asks again and again for a page of rows whose stamp is above its watermark, in
the order of the table, and moves the watermark to the stamp of the last row it was
given. Rows may share a stamp, so a page that is full hands its last group of equal
stamps back, unless it has no other rows.

The rows up to the watermark are then delivered, each once and in order, as long as no
group is larger than a page and no row is added at or below the watermark; a row that
is passed once is never delivered. A page of size zero passes every row.
-/
universe u v w

/-- The order of a table, and the stamp that a reader remembers. -/
structure RowOrder (α : Type u) (κ : Type v) (τ : Type w) [LinearOrder κ] [LinearOrder τ] where
  key : α → κ
  stamp : α → τ
  stamp_le_stamp : ∀ a b, key a ≤ key b → stamp a ≤ stamp b

/-- The watermark of a reader and what it has delivered. -/
structure PagedReader (α : Type u) (τ : Type w) where
  watermark : τ
  delivered : List α := []
  deriving DecidableEq, Repr

namespace RowOrder

variable {α : Type u} {κ : Type v} {τ : Type w} [LinearOrder κ] [LinearOrder τ]
variable (order : RowOrder α κ τ)

def Le (a b : α) : Prop := order.key a ≤ order.key b
deriving Decidable

instance : Std.Total order.Le := ⟨fun a b => le_total (order.key a) (order.key b)⟩

instance : IsTrans α order.Le := ⟨fun _ _ _ first second => le_trans first second⟩

/-- The rows above a watermark, in order. -/
def above (watermark : τ) (rows : List α) : List α :=
  (rows.insertionSort order.Le).filter (fun row => decide (watermark < order.stamp row))

/-- The rows of a page before its last group. -/
def beforeLast (last : α) (page : List α) : List α :=
  page.rdropWhile (fun row => decide (order.stamp row = order.stamp last))

/-- A full page without its last group, unless it is all one group. -/
def wholeGroups (limit : Nat) (page : List α) : List α :=
  match page.getLast? with
  | none => page
  | some last =>
    if page.length = limit ∧ (order.beforeLast last page).isEmpty = false then
      order.beforeLast last page
    else page

def page (limit : Nat) (watermark : τ) (rows : List α) : List α :=
  order.wholeGroups limit ((order.above watermark rows).take limit)

/-- The stamp of the last row of a page. -/
def advance (watermark : τ) (page : List α) : τ :=
  match page.getLast? with
  | none => watermark
  | some last => order.stamp last

def poll (limit : Nat) (rows : List α) (reader : PagedReader α τ) : PagedReader α τ :=
  let given := order.page limit reader.watermark rows
  { watermark := order.advance reader.watermark given
    delivered := reader.delivered ++ given }

/-- The first group is not larger than a page. -/
def Fits (limit : Nat) (pending : List α) : Prop :=
  ∀ first ∈ pending.head?,
    pending.countP (fun row => decide (order.stamp row = order.stamp first)) ≤ limit
deriving Decidable

/-- No later poll asks for the row. -/
def Passed (limit : Nat) (watermark : τ) (row : α) : Prop :=
  limit = 0 ∨ order.stamp row ≤ watermark
deriving Decidable

/-- The rows since the start that are passed. -/
def passed (start : τ) (limit : Nat) (watermark : τ) (rows : List α) : List α :=
  rows.filter (fun row =>
    decide (start < order.stamp row) && decide (order.Passed limit watermark row))

/-- The rows passed are delivered once each and in order. -/
structure Covers (start : τ) (limit : Nat) (rows : List α) (reader : PagedReader α τ) : Prop where
  started : start ≤ reader.watermark
  once : reader.delivered.Perm (order.passed start limit reader.watermark rows)
  ordered : reader.delivered.Pairwise order.Le

/-- Fewer rows are delivered than are passed. -/
structure Misses (start : τ) (limit : Nat) (rows : List α) (reader : PagedReader α τ) : Prop where
  started : start ≤ reader.watermark
  fewer : reader.delivered.length < (order.passed start limit reader.watermark rows).length

/-- Every row since the start is delivered once and in order. -/
def Complete (start : τ) (rows : List α) (reader : PagedReader α τ) : Prop :=
  reader.delivered.Perm (rows.filter (fun row => decide (start < order.stamp row))) ∧
    reader.delivered.Pairwise order.Le

/-! ## One page -/

variable {start : τ} {limit : Nat} {rest : List α} {last : α} {reader : PagedReader α τ} {row : α}
  (watermark : τ) (rows : List α)

theorem above_pairwise : (order.above watermark rows).Pairwise order.Le :=
  (List.pairwise_insertionSort order.Le rows).filter _

theorem above_perm :
    (order.above watermark rows).Perm
      (rows.filter (fun row => decide (watermark < order.stamp row))) :=
  (List.perm_insertionSort order.Le rows).filter _

/-- The rows above a higher watermark are among those above a lower one. -/
theorem above_above {low high : τ} (up : low ≤ high) (rows : List α) :
    order.above high rows =
      (order.above low rows).filter (fun row => decide (high < order.stamp row)) := by
  rw [above, above, List.filter_filter]
  refine List.filter_congr fun row _ => ?_
  by_cases higher : high < order.stamp row
  · rw [decide_eq_true higher, decide_eq_true (up.trans_lt higher), Bool.and_true]
  · rw [decide_eq_false higher, Bool.false_and]

theorem lt_of_mem_above {watermark : τ} {rows : List α}
    (inside : row ∈ order.above watermark rows) :
    watermark < order.stamp row :=
  of_decide_eq_true (List.mem_filter.mp inside).2

/-- A page is the head of what is pending. -/
theorem wholeGroups_prefix (limit : Nat) (page : List α) :
    order.wholeGroups limit page <+: page := by
  simp only [wholeGroups]
  cases page.getLast? with
  | none => exact List.prefix_rfl
  | some last =>
    simp only
    split
    · exact List.rdropWhile_prefix _ _
    · exact List.prefix_rfl

/-- What a page leaves of the pending rows. -/
def left (limit : Nat) (watermark : τ) (rows : List α) : List α :=
  (order.above watermark rows).drop (order.page limit watermark rows).length

/-- A page and what it leaves are the rows above the watermark. -/
theorem page_append_left (limit : Nat) (watermark : τ) (rows : List α) :
    order.page limit watermark rows ++ order.left limit watermark rows =
      order.above watermark rows := by
  have front : order.page limit watermark rows <+: order.above watermark rows :=
    (order.wholeGroups_prefix limit _).trans (List.take_prefix limit _)
  obtain ⟨rest, whole⟩ := front
  rw [left, ← whole, List.drop_left]

/-- A page of pending rows is empty only where no row is pending or its size is zero. -/
theorem page_eq_nil (limit : Nat) (watermark : τ) (rows : List α) :
    order.page limit watermark rows = [] ↔ limit = 0 ∨ order.above watermark rows = [] := by
  have empty (page : List α) : order.wholeGroups limit page = [] ↔ page = [] := by
    simp only [wholeGroups]
    cases given : page.getLast? with
    | none => exact Iff.rfl
    | some last =>
      simp only
      split
      next cut =>
        constructor
        · intro none
          rw [none] at cut
          exact Bool.noConfusion cut.2
        · rintro rfl
          cases given
      · exact Iff.rfl
  rw [page, empty, List.take_eq_nil_iff]

/-- In order, a row whose stamp is not above another one's comes no later. -/
theorem le_of_stamp_lt {a b : α} (below : order.stamp a < order.stamp b) : order.Le a b := by
  rcases le_total (order.key a) (order.key b) with up | down
  · exact up
  · exact absurd (order.stamp_le_stamp b a down) (not_le.mpr below)

/-- Of rows in order, cut in two, no stamp of the first part is above one of the second. -/
theorem stamp_le_of_append {first second : List α} (ordered : (first ++ second).Pairwise order.Le)
    {a b : α} (front : a ∈ first) (back : b ∈ second) : order.stamp a ≤ order.stamp b :=
  order.stamp_le_stamp a b ((List.pairwise_append.mp ordered).2.2 a front b back)

/-- The last row of rows in order has the largest stamp. -/
theorem stamp_le_last {rows : List α} (ordered : rows.Pairwise order.Le)
    (found : rows.getLast? = some last) (inside : row ∈ rows) :
    order.stamp row ≤ order.stamp last := by
  obtain ⟨front, rfl⟩ := List.getLast?_eq_some_iff.mp found
  rcases List.mem_append.mp inside with early | final
  · exact order.stamp_le_of_append ordered early (List.mem_singleton.mpr rfl)
  · exact (congrArg order.stamp (List.mem_singleton.mp final)).le

/-- A page that was cut between two groups: what is left is above it, and its first
group has room. -/
theorem fits_of_whole {given : List α} (ordered : (given ++ rest).Pairwise order.Le)
    (found : given.getLast? = some last) (room : given.length ≤ limit)
    (above : ∀ row ∈ rest, order.stamp last < order.stamp row) :
    order.Fits limit (given ++ rest) := by
  intro first head
  have inside : first ∈ given := by
    cases given with
    | nil => cases found
    | cons row _ => exact Option.some.inj head ▸ List.mem_cons_self
  have low : order.stamp first ≤ order.stamp last :=
    order.stamp_le_last (List.pairwise_append.mp ordered).1 found inside
  have none : rest.countP (fun row => decide (order.stamp row = order.stamp first)) = 0 := by
    rw [List.countP_eq_zero]
    intro row later same
    have := above row later
    rw [of_decide_eq_true same] at this
    exact absurd low (not_le.mpr this)
  rw [List.countP_append, none, Nat.add_zero]
  exact List.countP_le_length.trans room

/-- A full page that is all one group: what is left is above it exactly where the group
has no more rows. -/
theorem above_iff_of_group {given : List α} (ordered : (given ++ rest).Pairwise order.Le)
    (found : given.getLast? = some last) (full : given.length = limit)
    (group : ∀ row ∈ given, order.stamp row = order.stamp last) :
    (∀ row ∈ rest, order.stamp last < order.stamp row) ↔ order.Fits limit (given ++ rest) := by
  constructor
  · exact order.fits_of_whole ordered found full.le
  · intro fits row later
    obtain ⟨front, tail, rfl⟩ : ∃ first tail, given = first :: tail := by
      cases given with
      | nil => cases found
      | cons first tail => exact ⟨first, tail, rfl⟩
    have inside : last ∈ front :: tail := List.mem_of_getLast? found
    have bound := fits front rfl
    have all : (front :: tail).countP
        (fun row => decide (order.stamp row = order.stamp front)) = limit := by
      rw [← full, List.countP_eq_length]
      intro other member
      exact decide_eq_true ((group other member).trans (group front List.mem_cons_self).symm)
    rw [List.countP_append, all] at bound
    have none : rest.countP (fun row => decide (order.stamp row = order.stamp front)) = 0 := by
      omega
    have apart := List.countP_eq_zero.mp none row later
    have least : order.stamp last ≤ order.stamp row := order.stamp_le_of_append ordered inside later
    refine lt_of_le_of_ne least fun same => apart (decide_eq_true ?_)
    exact same.symm.trans (group front List.mem_cons_self).symm

theorem advance_of_last {watermark : τ} {page : List α} (found : page.getLast? = some last) :
    order.advance watermark page = order.stamp last := by
  rw [advance, found]

/-- The rows before the last group end below it, and the group has one stamp. -/
theorem beforeLast_below {page : List α} (ordered : page.Pairwise order.Le)
    (found : page.getLast? = some last) (some_ : order.beforeLast last page ≠ []) :
    ∃ edge group, (order.beforeLast last page).getLast? = some edge ∧
      order.stamp edge < order.stamp last ∧ order.beforeLast last page ++ group = page ∧
      ∀ row ∈ group, order.stamp row = order.stamp last := by
  have joined : order.beforeLast last page ++ page.rtakeWhile
      (fun row => decide (order.stamp row = order.stamp last)) = page :=
    List.rdropWhile_append_rtakeWhile
  refine ⟨(order.beforeLast last page).getLast some_, _, List.getLast?_eq_some_getLast some_, ?_,
    joined, fun row inside => ?_⟩
  · have inside : (order.beforeLast last page).getLast some_ ∈ page :=
      (List.rdropWhile_prefix _ _).subset (List.getLast_mem some_)
    refine lt_of_le_of_ne (order.stamp_le_last ordered found inside) fun same => ?_
    exact List.rdropWhile_last_not _ _ some_ (decide_eq_true same)
  · have same := List.mem_rtakeWhile_imp inside
    exact of_decide_eq_true same

/-- What a page leaves is above the new watermark exactly where the first group of the
pending rows fits a page. -/
theorem whole_iff (positive : 0 < limit) {pending : List α} (ordered : pending.Pairwise order.Le)
    (cut : order.wholeGroups limit (pending.take limit) ++ rest = pending) (watermark : τ) :
    (∀ row ∈ rest,
        order.advance watermark (order.wholeGroups limit (pending.take limit)) < order.stamp row) ↔
      order.Fits limit pending := by
  have joined : pending.take limit ++ pending.drop limit = pending := List.take_append_drop _ _
  have split_ : (pending.take limit ++ pending.drop limit).Pairwise order.Le := by
    rw [joined]
    exact ordered
  have front : (pending.take limit).Pairwise order.Le := (List.pairwise_append.mp split_).1
  cases found : (pending.take limit).getLast? with
  | none =>
    have none : pending = [] := by
      have taken := List.getLast?_eq_none_iff.mp found
      rw [List.take_eq_nil_iff] at taken
      exact taken.resolve_left (Nat.ne_of_gt positive)
    subst none
    rw [(List.append_eq_nil_iff.mp cut).2]
    exact iff_of_true (fun _ inside => absurd inside List.not_mem_nil) (fun _ head => by cases head)
  | some last =>
    simp only [wholeGroups, found] at cut ⊢
    split at cut
    next trimmed =>
      -- The page was full and gave its last group back.
      rw [if_pos trimmed]
      obtain ⟨edge, group, final, low, parts, same⟩ := order.beforeLast_below front found (by
        intro none
        rw [none] at trimmed
        exact Bool.noConfusion trimmed.2)
      have above : ∀ row ∈ rest, order.stamp edge < order.stamp row := by
        have tail : rest = group ++ pending.drop limit := by
          rw [← List.append_right_inj (order.beforeLast last (pending.take limit)),
            ← List.append_assoc, parts, joined]
          exact cut
        intro row inside
        rw [tail, List.mem_append] at inside
        rcases inside with grouped | later
        · exact low.trans_eq (same row grouped).symm
        · exact low.trans_le (order.stamp_le_of_append split_ (List.mem_of_getLast? found) later)
      rw [order.advance_of_last final]
      refine iff_of_true above ?_
      have room : (order.beforeLast last (pending.take limit)).length ≤ limit :=
        (List.rdropWhile_prefix _ _).length_le.trans (List.length_take_le _ _)
      rw [← cut] at ordered ⊢
      exact order.fits_of_whole ordered final room above
    next whole =>
      rw [if_neg whole, order.advance_of_last found]
      have tail : rest = pending.drop limit := by
        rw [← List.append_right_inj (pending.take limit), cut, joined]
      by_cases full : (pending.take limit).length = limit
      · have group : ∀ row ∈ pending.take limit, order.stamp row = order.stamp last := by
          have none : order.beforeLast last (pending.take limit) = [] := by
            simpa [full] using whole
          intro row inside
          exact of_decide_eq_true (List.rdropWhile_eq_nil_iff.mp none row inside)
        rw [tail]
        refine (order.above_iff_of_group split_ found full group).trans ?_
        rw [joined]
      · have short : pending.length < limit := by
          rw [List.length_take] at full
          omega
        rw [tail, List.drop_eq_nil_of_le short.le]
        refine iff_of_true (fun _ inside => absurd inside List.not_mem_nil) ?_
        exact fun first _ => List.countP_le_length.trans short.le

/-! ## One poll -/

theorem mem_above_of_mem_page {watermark : τ} {rows : List α}
    (inside : row ∈ order.page limit watermark rows) : row ∈ order.above watermark rows := by
  rw [← order.page_append_left limit]
  exact List.mem_append_left _ inside

/-- The watermark never goes back. -/
theorem le_advance (limit : Nat) (watermark : τ) (rows : List α) :
    watermark ≤ order.advance watermark (order.page limit watermark rows) := by
  cases found : (order.page limit watermark rows).getLast? with
  | none => rw [advance, found]
  | some last =>
    rw [order.advance_of_last found]
    exact (order.lt_of_mem_above (order.mem_above_of_mem_page (List.mem_of_getLast? found))).le

theorem page_pairwise (limit : Nat) (watermark : τ) (rows : List α) :
    (order.page limit watermark rows).Pairwise order.Le := by
  have ordered := order.above_pairwise watermark rows
  rw [← order.page_append_left limit] at ordered
  exact (List.pairwise_append.mp ordered).1

/-- The watermark comes to stand at or behind every row of the page. -/
theorem stamp_le_advance {watermark : τ} {rows : List α}
    (inside : row ∈ order.page limit watermark rows) :
    order.stamp row ≤ order.advance watermark (order.page limit watermark rows) := by
  obtain ⟨last, found⟩ : ∃ last, (order.page limit watermark rows).getLast? = some last := by
    cases found : (order.page limit watermark rows).getLast? with
    | none =>
      rw [List.getLast?_eq_none_iff.mp found] at inside
      exact absurd inside List.not_mem_nil
    | some last => exact ⟨last, rfl⟩
  rw [order.advance_of_last found]
  exact order.stamp_le_last (order.page_pairwise limit watermark rows) found inside

/-- The rows that a poll passes and does not deliver. -/
def overtaken (limit : Nat) (watermark : τ) (rows : List α) : List α :=
  (order.left limit watermark rows).filter (fun row =>
    decide (order.stamp row ≤ order.advance watermark (order.page limit watermark rows)))

/-- A poll overtakes no row exactly where the first group fits the page. -/
theorem overtaken_eq_nil (positive : 0 < limit) (watermark : τ) (rows : List α) :
    order.overtaken limit watermark rows = [] ↔ order.Fits limit (order.above watermark rows) := by
  have exact := order.whole_iff positive (order.above_pairwise watermark rows)
    (order.page_append_left limit watermark rows) watermark
  rw [← exact, overtaken, List.filter_eq_nil_iff]
  constructor
  · exact fun none row inside => not_le.mp fun low => none row inside (decide_eq_true low)
  · exact fun above row inside low => not_le.mpr (above row inside) (of_decide_eq_true low)

/-- What a poll passes: the rows passed before, its page, and the rows it overtakes. -/
theorem passed_poll (positive : 0 < limit) {watermark : τ} (started : start ≤ watermark)
    (rows : List α) :
    (order.passed start limit (order.advance watermark (order.page limit watermark rows)) rows).Perm
      (order.passed start limit watermark rows ++
        (order.page limit watermark rows ++ order.overtaken limit watermark rows)) := by
  have up := order.le_advance limit watermark rows
  have given : ∀ row ∈ order.page limit watermark rows,
      order.stamp row ≤ order.advance watermark (order.page limit watermark rows) :=
    fun row inside => order.stamp_le_advance inside
  have whole := order.page_append_left limit watermark rows
  rw [overtaken]
  generalize order.advance watermark (order.page limit watermark rows) = next at *
  have parts := List.filter_append_perm (fun row => decide (order.stamp row ≤ watermark))
    (order.passed start limit next rows)
  refine parts.symm.trans (List.Perm.append ?_ ?_)
  · rw [passed, passed, List.filter_filter]
    refine List.Perm.of_eq (List.filter_congr fun row _ => ?_)
    simp only [Passed, Nat.ne_of_gt positive, false_or]
    grind
  · have mine : order.page limit watermark rows ++
        (order.left limit watermark rows).filter (fun row => decide (order.stamp row ≤ next)) =
        (order.above watermark rows).filter (fun row => decide (order.stamp row ≤ next)) := by
      have kept := List.filter_eq_self.mpr fun row inside => decide_eq_true (given row inside)
      rw [← whole, List.filter_append, kept]
    rw [mine]
    refine List.Perm.trans ?_ ((order.above_perm watermark rows).filter _).symm
    rw [passed, List.filter_filter, List.filter_filter]
    refine List.Perm.of_eq (List.filter_congr fun row _ => ?_)
    simp only [Passed, Nat.ne_of_gt positive, false_or]
    grind

/-- A page of size zero leaves the reader as it is. -/
theorem poll_zero (reader : PagedReader α τ) : order.poll 0 rows reader = reader := by
  have none : order.page 0 reader.watermark rows = [] :=
    (order.page_eq_nil 0 reader.watermark rows).mpr (Or.inl rfl)
  rw [poll, none, List.append_nil]
  rfl

/-- Whatever it passes, a reader delivers in order. -/
theorem poll_ordered (limit : Nat) (rows : List α) (ordered : reader.delivered.Pairwise order.Le)
    (under : ∀ row ∈ reader.delivered, order.stamp row ≤ reader.watermark) :
    (order.poll limit rows reader).delivered.Pairwise order.Le ∧
      ∀ row ∈ (order.poll limit rows reader).delivered,
        order.stamp row ≤ (order.poll limit rows reader).watermark := by
  constructor
  · refine List.pairwise_append.mpr ⟨ordered, order.page_pairwise _ _ _, ?_⟩
    intro early old late new
    exact order.le_of_stamp_lt
      ((under early old).trans_lt (order.lt_of_mem_above (order.mem_above_of_mem_page new)))
  · intro row inside
    rcases List.mem_append.mp inside with old | new
    · exact (under row old).trans (order.le_advance limit reader.watermark rows)
    · exact order.stamp_le_advance new

/-- A poll whose first group fits the page goes on covering what is passed. -/
theorem covers_poll {rows : List α} (covers : order.Covers start limit rows reader)
    (fits : 0 < limit → order.Fits limit (order.above reader.watermark rows)) :
    order.Covers start limit rows (order.poll limit rows reader) := by
  rcases Nat.eq_zero_or_pos limit with rfl | positive
  · rw [poll_zero]
    exact covers
  · have passes := order.passed_poll positive covers.started rows
    rw [(order.overtaken_eq_nil positive reader.watermark rows).mpr (fits positive),
      List.append_nil] at passes
    refine ⟨covers.started.trans (order.le_advance limit reader.watermark rows), ?_, ?_⟩
    · exact (covers.once.append_right _).trans passes.symm
    · refine (order.poll_ordered limit rows covers.ordered fun row old => ?_).1
      have low := List.mem_filter.mp (covers.once.subset old)
      have inside := of_decide_eq_true (Bool.and_eq_true_iff.mp low.2).2
      exact inside.resolve_left (Nat.ne_of_gt positive)

/-- What a poll has delivered and what it has passed, by their numbers. -/
theorem poll_lengths (positive : 0 < limit) (rows : List α) (started : start ≤ reader.watermark) :
    (order.passed start limit (order.poll limit rows reader).watermark rows).length +
        reader.delivered.length =
      (order.poll limit rows reader).delivered.length +
        (order.passed start limit reader.watermark rows).length +
        (order.overtaken limit reader.watermark rows).length := by
  have passes := (order.passed_poll positive started rows).length_eq
  simp only [poll, List.length_append] at passes ⊢
  omega

/-- A poll whose first group does not fit the page misses rows. -/
theorem misses_of_poll {rows : List α} (covers : order.Covers start limit rows reader)
    (large : ¬(0 < limit → order.Fits limit (order.above reader.watermark rows))) :
    order.Misses start limit rows (order.poll limit rows reader) := by
  obtain ⟨positive, cut⟩ := Classical.not_imp.mp large
  have some_ := (order.overtaken_eq_nil positive reader.watermark rows).not.mpr cut
  have counted := order.poll_lengths positive rows covers.started
  have before := covers.once.length_eq
  have more := List.length_pos_iff.mpr some_
  exact ⟨covers.started.trans (order.le_advance limit reader.watermark rows), by omega⟩

/-- A reader that missed a row goes on missing it. -/
theorem misses_poll {rows : List α} (misses : order.Misses start limit rows reader) :
    order.Misses start limit rows (order.poll limit rows reader) := by
  rcases Nat.eq_zero_or_pos limit with rfl | positive
  · rw [poll_zero]
    exact misses
  · have counted := order.poll_lengths positive rows misses.started
    have before := misses.fewer
    exact ⟨misses.started.trans (order.le_advance limit reader.watermark rows), by omega⟩

/-! ## Rows added -/

/-- The rows added that are passed at once. -/
theorem passed_append (start : τ) (limit : Nat) (watermark : τ) (added rows : List α) :
    order.passed start limit watermark (added ++ rows) =
      order.passed start limit watermark added ++ order.passed start limit watermark rows :=
  List.filter_append _ _

theorem passed_eq_nil (start : τ) (limit : Nat) (watermark : τ) (added : List α) :
    order.passed start limit watermark added = [] ↔
      ∀ row ∈ added, start < order.stamp row → ¬order.Passed limit watermark row := by
  rw [passed, List.filter_eq_nil_iff]
  simp

/-- Rows added ahead of the watermark leave a reader that covers its rows so. -/
theorem covers_append {added rows : List α} (covers : order.Covers start limit rows reader)
    (ahead : ∀ row ∈ added, start < order.stamp row → ¬order.Passed limit reader.watermark row) :
    order.Covers start limit (added ++ rows) reader := by
  refine ⟨covers.started, ?_, covers.ordered⟩
  rw [passed_append, (order.passed_eq_nil start limit reader.watermark added).mpr ahead]
  exact covers.once

/-- A row added behind the watermark is missed. -/
theorem misses_of_append {added rows : List α} (covers : order.Covers start limit rows reader)
    (behind : ¬∀ row ∈ added, start < order.stamp row → ¬order.Passed limit reader.watermark row) :
    order.Misses start limit (added ++ rows) reader := by
  have some_ := (order.passed_eq_nil start limit reader.watermark added).not.mpr behind
  have more := List.length_pos_iff.mpr some_
  have before := covers.once.length_eq
  refine ⟨covers.started, ?_⟩
  rw [passed_append, List.length_append]
  omega

theorem misses_append {rows : List α} (misses : order.Misses start limit rows reader)
    (added : List α) : order.Misses start limit (added ++ rows) reader := by
  refine ⟨misses.started, ?_⟩
  rw [passed_append, List.length_append]
  exact misses.fewer.trans_le (Nat.le_add_left _ _)

/-! ## A reader at rest -/

/-- A reader that is given nothing more has passed every row since the start. -/
theorem passed_of_quiet {rows : List α} {watermark : τ}
    (quiet : order.page limit watermark rows = []) :
    order.passed start limit watermark rows =
      rows.filter (fun row => decide (start < order.stamp row)) := by
  refine List.filter_congr fun row inside => ?_
  have behind : order.Passed limit watermark row := by
    rcases (order.page_eq_nil limit watermark rows).mp quiet with zero | none
    · exact Or.inl zero
    · right
      by_contra ahead
      have pending := (order.above_perm watermark rows).mem_iff.mpr
        (List.mem_filter.mpr ⟨inside, decide_eq_true (not_le.mp ahead)⟩)
      rw [none] at pending
      exact absurd pending List.not_mem_nil
  rw [decide_eq_true behind, Bool.and_true]

/-- A reader at rest that covers what it passed is complete. -/
theorem complete_of_covers {rows : List α} (covers : order.Covers start limit rows reader)
    (quiet : order.page limit reader.watermark rows = []) : order.Complete start rows reader := by
  have once := covers.once
  rw [order.passed_of_quiet quiet] at once
  exact ⟨once, covers.ordered⟩

/-- A reader that missed a row is never complete. -/
theorem not_complete_of_misses {rows : List α} (misses : order.Misses start limit rows reader) :
    ¬order.Complete start rows reader := by
  rintro ⟨once, -⟩
  have fewer := misses.fewer
  have some_ : (order.passed start limit reader.watermark rows).length ≤
      (rows.filter (fun row => decide (start < order.stamp row))).length := by
    refine (List.monotone_filter_right rows fun row both => ?_).length_le
    exact (Bool.and_eq_true_iff.mp both).1
  rw [once.length_eq] at fewer
  omega

/-! ## Loops over pages -/

theorem foldl_advance :
    rows.foldl (fun _ row => order.stamp row) watermark = order.advance watermark rows := by
  induction rows generalizing watermark with
  | nil => rfl
  | cons row rest ih =>
    rw [List.foldl_cons, ih, advance, advance, List.getLast?_cons]
    cases rest.getLast? with
    | none => rfl
    | some last => rfl

/-- A loop that asks for a page and takes its rows one by one takes the rows that a
reader delivers. -/
theorem iterate_pages {σ : Type*} (mark : σ → τ) (take : σ → α → σ)
    (tracks : ∀ state row, mark (take state row) = order.stamp row) (limit : Nat) (rows : List α)
    (state : σ) (polls : Nat) :
    (fun state => (order.page limit (mark state) rows).foldl take state)^[polls] state =
      ((order.poll limit rows)^[polls] { watermark := mark state }).delivered.foldl take state := by
  have marked (page : List α) (state : σ) :
      mark (page.foldl take state) = order.advance (mark state) page := by
    rw [← foldl_advance]
    induction page generalizing state with
    | nil => rfl
    | cons row rest ih => rw [List.foldl_cons, List.foldl_cons, ih, tracks]
  suffices both :
      (fun state => (order.page limit (mark state) rows).foldl take state)^[polls] state =
      ((order.poll limit rows)^[polls] { watermark := mark state }).delivered.foldl take state ∧
      mark ((fun state => (order.page limit (mark state) rows).foldl take state)^[polls] state) =
        ((order.poll limit rows)^[polls] { watermark := mark state }).watermark from both.1
  induction polls with
  | zero => exact ⟨rfl, rfl⟩
  | succ polls ih =>
    obtain ⟨same, level⟩ := ih
    rw [Function.iterate_succ_apply', Function.iterate_succ_apply', poll, List.foldl_append, ← same,
      ← level]
    exact ⟨rfl, marked _ _⟩

/-- Over any number of polls a reader delivers in order. -/
theorem iterate_ordered (limit : Nat) (rows : List α) (start : τ) (polls : Nat) :
    ((order.poll limit rows)^[polls] { watermark := start }).delivered.Pairwise order.Le := by
  suffices both :
      ((order.poll limit rows)^[polls] { watermark := start }).delivered.Pairwise order.Le ∧
      ∀ row ∈ ((order.poll limit rows)^[polls] { watermark := start }).delivered, order.stamp row ≤
        ((order.poll limit rows)^[polls] { watermark := start }).watermark from both.1
  induction polls with
  | zero => exact ⟨List.Pairwise.nil, fun _ inside => absurd inside List.not_mem_nil⟩
  | succ polls ih =>
    rw [Function.iterate_succ_apply']
    exact order.poll_ordered limit rows ih.1 ih.2

end RowOrder
