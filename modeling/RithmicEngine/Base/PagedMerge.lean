import Mathlib.Data.List.Basic
import Mathlib.Order.Lattice
/-!
# Merging items into a run of marks

Items and marks each come in the order of their times. In a merge every item stands
before the first mark that is not before it. A lazy merge reads the items by pages: at a
mark it takes the next page if its buffer is empty, and then lets the items of the
buffer go that are due; a page may also leave items out.

The lazy merge is the merge exactly where no item that is due is left out and a mark
separates the due items of different pages.
-/
namespace PagedMerge

universe u v w

variable {β : Type u} {μ : Type v} {τ : Type w} [LinearOrder τ]

/-- The items at the front that are not after a time. -/
def due (stamp : β → τ) (time : τ) (items : List β) : List β :=
  items.takeWhile (fun item => decide (stamp item ≤ time))

/-- What comes after the items that are due. -/
def later (stamp : β → τ) (time : τ) (items : List β) : List β :=
  items.dropWhile (fun item => decide (stamp item ≤ time))

/-- The next page for an empty buffer. -/
def refill (buffer : List β) (pages : List (List β)) : List β × List (List β) :=
  match buffer with
  | [] => (pages.headD [], pages.tail)
  | item :: rest => (item :: rest, pages)

variable (stamp : β → τ) (moment : μ → τ)

def merge (items : List β) : List μ → List (β ⊕ μ)
  | [] => []
  | mark :: marks =>
    (due stamp (moment mark) items).map Sum.inl ++
      Sum.inr mark :: merge (later stamp (moment mark) items) marks

/-- A merge that takes one page at a mark at most. -/
def lazyMerge (buffer : List β) (pages : List (List β)) : List μ → List (β ⊕ μ)
  | [] => []
  | mark :: marks =>
    let filled := refill buffer pages
    (due stamp (moment mark) filled.1).map Sum.inl ++
      Sum.inr mark :: lazyMerge (later stamp (moment mark) filled.1) filled.2 marks

/-- Some mark is not before the item. -/
def Due (marks : List μ) (item : β) : Prop := ∃ mark ∈ marks, stamp item ≤ moment mark

/-- The items of a page that are not left out. -/
def kept (page : List (β × Bool)) : List β := (page.filter Prod.snd).map Prod.fst

/-- No item that is due is left out. -/
def AllKept (items : List (β × Bool)) (marks : List μ) : Prop :=
  ∀ item ∈ items, Due stamp moment marks item.1 → item.2 = true

/-- A mark separates an item that is due from the items of the pages before its own. -/
def Separated (pages : List (List (β × Bool))) (marks : List μ) : Prop :=
  pages.Pairwise (fun early late => ∀ item ∈ early, ∀ next ∈ late, Due stamp moment marks next.1 →
    ∃ mark ∈ marks, stamp item.1 ≤ moment mark ∧ moment mark < stamp next.1)

/-- The items of the first page that is not empty come after the marks that are left when
it is taken. -/
def Silent (pages : List (List β)) (marks : List μ) : Prop :=
  ∀ n page, pages[n]? = some page → (∀ early ∈ pages.take n, early = []) →
    ∀ item ∈ page, ∀ mark ∈ marks.drop n, moment mark < stamp item

/-! ## Items in order -/

/-- The times of the items never decrease. -/
def InOrder (items : List β) : Prop :=
  items.Pairwise (fun first second => stamp first ≤ stamp second)

variable {stamp moment}

theorem due_append_later (time : τ) (items : List β) :
    due stamp time items ++ later stamp time items = items :=
  List.takeWhile_append_dropWhile

variable {items : List β} {mark : μ} {item : β} {marks : List μ}

/-- Those due by a time are the other part of the filter. -/
theorem due_eq_filter (ordered : InOrder stamp items) (time : τ) :
    due stamp time items = items.filter (fun item => decide (stamp item ≤ time)) := by
  induction items with
  | nil => rfl
  | cons item rest ih =>
    obtain ⟨first, others⟩ := List.pairwise_cons.mp ordered
    by_cases low : stamp item ≤ time
    · simp only [due, List.takeWhile_cons, List.filter_cons, decide_eq_true low, ↓reduceIte]
      exact congrArg (item :: ·) (ih others)
    · have none : ∀ other ∈ item :: rest, ¬stamp other ≤ time := by
        intro other inside
        rcases List.mem_cons.mp inside with rfl | after
        · exact low
        · exact fun under => low ((first other after).trans under)
      have empty : (item :: rest).filter (fun item => decide (stamp item ≤ time)) = [] :=
        List.filter_eq_nil_iff.mpr fun other inside holds =>
          none other inside (of_decide_eq_true holds)
      rw [empty]
      simp only [due, List.takeWhile_cons, decide_eq_false low, Bool.false_eq_true, ↓reduceIte]

/-- In items in order those later than a time are what a filter keeps. -/
theorem later_eq_filter (ordered : InOrder stamp items) (time : τ) :
    later stamp time items = items.filter (fun item => decide (time < stamp item)) := by
  induction items with
  | nil => rfl
  | cons item rest ih =>
    obtain ⟨first, others⟩ := List.pairwise_cons.mp ordered
    by_cases low : stamp item ≤ time
    · have passed : ¬time < stamp item := not_lt.mpr low
      simp only [later, List.dropWhile_cons, List.filter_cons, decide_eq_true low,
        decide_eq_false passed, Bool.false_eq_true, ↓reduceIte]
      exact ih others
    · have all : ∀ other ∈ item :: rest, time < stamp other := by
        intro other inside
        rcases List.mem_cons.mp inside with rfl | after
        · exact not_le.mp low
        · exact (not_le.mp low).trans_le (first other after)
      have whole : (item :: rest).filter (fun item => decide (time < stamp item)) = item :: rest :=
        List.filter_eq_self.mpr fun other inside => decide_eq_true (all other inside)
      rw [whole]
      simp only [later, List.dropWhile_cons, decide_eq_false low, Bool.false_eq_true, ↓reduceIte]

theorem mem_due (ordered : InOrder stamp items) {time : τ} :
    item ∈ due stamp time items ↔ item ∈ items ∧ stamp item ≤ time := by
  rw [due_eq_filter ordered, List.mem_filter, decide_eq_true_eq]

theorem mem_later (ordered : InOrder stamp items) {time : τ} :
    item ∈ later stamp time items ↔ item ∈ items ∧ time < stamp item := by
  rw [later_eq_filter ordered, List.mem_filter, decide_eq_true_eq]

theorem later_ordered (ordered : InOrder stamp items) (time : τ) :
    InOrder stamp (later stamp time items) :=
  List.Pairwise.sublist (List.dropWhile_sublist _) ordered

theorem due_map {α : Type u} (value : α → β) (time : τ) (items : List α) :
    due stamp time (items.map value) = (due (stamp ∘ value) time items).map value :=
  List.takeWhile_map ..

theorem later_map {α : Type u} (value : α → β) (time : τ) (items : List α) :
    later stamp time (items.map value) = (later (stamp ∘ value) time items).map value :=
  List.dropWhile_map ..

/-- Two runs that have items up to a mark agree exactly where their items do, and what
follows the mark. -/
theorem append_mark_inj {first second : List β} {rest others : List (β ⊕ μ)} :
    first.map Sum.inl ++ Sum.inr mark :: rest = second.map Sum.inl ++ Sum.inr mark :: others ↔
      first = second ∧ rest = others := by
  induction first generalizing second with
  | nil =>
    cases second with
    | nil => simp
    | cons item tail => simp
  | cons item tail ih =>
    cases second with
    | nil => simp
    | cons other back => simp [ih, and_assoc]

/-! ## One mark -/

/-- The pages with the rest of the page that is being let go in front, beside the buffer
and the pages of the lazy merge: it is level with them, or it has left that page out and
gone ahead. -/
inductive Linked : List (β × Bool) → List (List (β × Bool)) → List β → List (List β) → Prop
  | level (page pages) : Linked page pages (kept page) (pages.map kept)
  | ahead {page pages buffer behind} (some_ : page ≠ []) (left : kept page = [])
      (within : (buffer ++ behind.flatten).Sublist (kept pages.flatten)) :
      Linked page pages buffer behind

theorem kept_append (first second : List (β × Bool)) :
    kept (first ++ second) = kept first ++ kept second := by
  simp [kept]

theorem kept_flatten (pages : List (List (β × Bool))) :
    kept pages.flatten = (pages.map kept).flatten := by
  induction pages with
  | nil => rfl
  | cons page rest ih => rw [List.flatten_cons, kept_append, ih, List.map_cons, List.flatten_cons]

theorem refill_flatten (buffer : List β) (pages : List (List β)) :
    (refill buffer pages).1 ++ (refill buffer pages).2.flatten = buffer ++ pages.flatten := by
  cases buffer with
  | nil =>
    cases pages with
    | nil => rfl
    | cons page rest => rfl
  | cons item rest => rfl

/-- Taking the next page keeps the two linked. -/
theorem Linked.refill {page : List (β × Bool)} {pages : List (List (β × Bool))} {buffer : List β}
    {behind : List (List β)} (linked : Linked page pages buffer behind) :
    Linked (refill page pages).1 (refill page pages).2 (PagedMerge.refill buffer behind).1
      (PagedMerge.refill buffer behind).2 := by
  cases linked with
  | level =>
    cases page with
    | nil =>
      cases pages with
      | nil => exact .level [] []
      | cons next rest => exact .level next rest
    | cons item rest =>
      cases left : kept (item :: rest) with
      | nil =>
        refine .ahead (List.cons_ne_nil _ _) left ?_
        rw [refill_flatten, List.nil_append, kept_flatten]
        exact List.Sublist.refl _
      | cons first others =>
        have beside := Linked.level (item :: rest) pages
        rw [left] at beside
        exact beside
  | ahead some_ left within =>
    cases page with
    | nil => exact absurd rfl some_
    | cons item rest =>
      refine .ahead some_ left ?_
      rw [refill_flatten]
      exact within

/-- The items of a page that are due, and those among them that are not left out. -/
theorem kept_due {page : List (β × Bool)} (ordered : InOrder (stamp ∘ Prod.fst) page) (time : τ) :
    due stamp time (kept page) = kept (due (stamp ∘ Prod.fst) time page) := by
  have inner : InOrder (stamp ∘ Prod.fst) (page.filter Prod.snd) :=
    List.Pairwise.sublist List.filter_sublist ordered
  rw [kept, due_map, due_eq_filter inner, due_eq_filter ordered, kept, List.filter_filter,
    List.filter_filter]
  simp only [Bool.and_comm]

/-- To keep rows and to take the later ones are the same in either order. -/
theorem kept_later {page : List (β × Bool)} (ordered : InOrder (stamp ∘ Prod.fst) page) (time : τ) :
    later stamp time (kept page) = kept (later (stamp ∘ Prod.fst) time page) := by
  have inner : InOrder (stamp ∘ Prod.fst) (page.filter Prod.snd) :=
    List.Pairwise.sublist List.filter_sublist ordered
  rw [kept, later_map, later_eq_filter inner, later_eq_filter ordered, kept, List.filter_filter,
    List.filter_filter]
  simp only [Bool.and_comm]

theorem kept_length_le (page : List (β × Bool)) : (kept page).length ≤ page.length := by
  rw [kept, List.length_map]
  exact List.length_filter_le _ _

/-- Nothing is left out of a page exactly where as many items are kept. -/
theorem kept_length_eq (page : List (β × Bool)) :
    (kept page).length = page.length ↔ ∀ item ∈ page, item.2 = true := by
  rw [kept, List.length_map, List.length_filter_eq_length_iff]

theorem kept_eq_map {page : List (β × Bool)} (all : ∀ item ∈ page, item.2 = true) :
    kept page = page.map Prod.fst := by
  rw [kept, List.filter_eq_self.mpr all]

/-- Of items in order, those of the later pages are due only after the whole page before. -/
theorem due_append {first second : List β} (ordered : InOrder stamp (first ++ second)) (time : τ) :
    due stamp time (first ++ second) = due stamp time first ++ due stamp time second ∧
      later stamp time (first ++ second) = later stamp time first ++ later stamp time second := by
  obtain ⟨front, back, -⟩ := List.pairwise_append.mp ordered
  rw [due_eq_filter ordered, due_eq_filter front, due_eq_filter back, later_eq_filter ordered,
    later_eq_filter front, later_eq_filter back, List.filter_append, List.filter_append]
  exact ⟨rfl, rfl⟩

/-- At a mark the lazy merge lets go what the merge does exactly where every item that is
due is kept and none is on a later page. -/
theorem due_eq_iff {page : List (β × Bool)} {pages : List (List (β × Bool))} {buffer : List β}
    {behind : List (List β)} (linked : Linked page pages buffer behind)
    (ordered : InOrder (stamp ∘ Prod.fst) (page ++ pages.flatten)) (time : τ) :
    due stamp time buffer = due stamp time ((page ++ pages.flatten).map Prod.fst) ↔
      (∀ item ∈ due (stamp ∘ Prod.fst) time (page ++ pages.flatten), item.2 = true) ∧
        due (stamp ∘ Prod.fst) time pages.flatten = [] := by
  obtain ⟨front, back, cross⟩ := List.pairwise_append.mp ordered
  obtain ⟨split_, -⟩ := due_append ordered time
  rw [due_map, split_]
  cases linked with
  | level =>
    rw [kept_due front]
    constructor
    · intro same
      have lengths := congrArg List.length same
      rw [List.length_map, List.length_append] at lengths
      have fewer := kept_length_le (due (stamp ∘ Prod.fst) time page)
      have none : due (stamp ∘ Prod.fst) time pages.flatten = [] := by
        rw [← List.length_eq_zero_iff]
        omega
      rw [none, List.append_nil]
      refine ⟨(kept_length_eq _).mp ?_, rfl⟩
      omega
    · rintro ⟨all, none⟩
      rw [none, List.append_nil] at all ⊢
      exact kept_eq_map all
  | ahead some_ left within =>
    have let_ : (due stamp time buffer).length ≤
        (due (stamp ∘ Prod.fst) time pages.flatten).length := by
      have ascending : InOrder stamp (kept pages.flatten) := by
        rw [kept]
        exact List.pairwise_map.mpr (List.Pairwise.sublist List.filter_sublist back)
      have inner : buffer.Sublist (kept pages.flatten) :=
        (List.sublist_append_left buffer behind.flatten).trans within
      have fewer := kept_length_le (due (stamp ∘ Prod.fst) time pages.flatten)
      rw [← kept_due back, due_eq_filter ascending] at fewer
      rw [due_eq_filter (List.Pairwise.sublist inner ascending)]
      exact (inner.filter _).length_le.trans fewer
    have rests : (∀ item ∈ due (stamp ∘ Prod.fst) time page, item.2 = true) →
        due (stamp ∘ Prod.fst) time page = [] := by
      intro all
      have mine : kept (due (stamp ∘ Prod.fst) time page) = [] := by
        rw [← kept_due front, left]
        rfl
      rw [kept_eq_map all] at mine
      exact List.map_eq_nil_iff.mp mine
    constructor
    · intro same
      have lengths := congrArg List.length same
      rw [List.length_map, List.length_append] at lengths
      have still : due (stamp ∘ Prod.fst) time page = [] := by
        rw [← List.length_eq_zero_iff]
        omega
      -- The first item of the page is not due, so none of a later page is.
      have none : due (stamp ∘ Prod.fst) time pages.flatten = [] := by
        obtain ⟨item, rest, rfl⟩ := List.exists_cons_of_ne_nil some_
        rw [due_eq_filter front, List.filter_eq_nil_iff] at still
        rw [due_eq_filter back, List.filter_eq_nil_iff]
        intro next inside low
        refine still item List.mem_cons_self (decide_eq_true ?_)
        exact (cross item List.mem_cons_self next inside).trans (of_decide_eq_true low)
      rw [still, none]
      exact ⟨fun item inside => absurd inside List.not_mem_nil, rfl⟩
    · rintro ⟨all, none⟩
      have still := rests fun item inside => all item (List.mem_append_left _ inside)
      rw [none] at let_
      rw [still, none, List.eq_nil_of_length_eq_zero (Nat.le_zero.mp let_)]
      rfl

/-- After a mark at which the two let go the same items they are linked again. -/
theorem Linked.later {page : List (β × Bool)} {pages : List (List (β × Bool))} {buffer : List β}
    {behind : List (List β)} (linked : Linked page pages buffer behind)
    (ordered : InOrder (stamp ∘ Prod.fst) (page ++ pages.flatten)) {time : τ}
    (all : ∀ item ∈ due (stamp ∘ Prod.fst) time page, item.2 = true) :
    Linked (PagedMerge.later (stamp ∘ Prod.fst) time page) pages
      (PagedMerge.later stamp time buffer) behind := by
  obtain ⟨front, -, -⟩ := List.pairwise_append.mp ordered
  cases linked with
  | level =>
    rw [kept_later front]
    exact .level _ _
  | ahead some_ left within =>
    have still : PagedMerge.later (stamp ∘ Prod.fst) time page = page := by
      have mine : kept (due (stamp ∘ Prod.fst) time page) = [] := by
        rw [← kept_due front, left]
        rfl
      rw [kept_eq_map all] at mine
      have whole : due (stamp ∘ Prod.fst) time page ++
          PagedMerge.later (stamp ∘ Prod.fst) time page = page := due_append_later time page
      rw [List.map_eq_nil_iff.mp mine] at whole
      exact whole
    rw [still]
    refine .ahead some_ left (List.Sublist.trans ?_ within)
    exact (List.dropWhile_sublist _).append_right _

/-! ## The conditions at one mark -/

/-- Of items in order, those due by a mark or a later one. -/
theorem allKept_cons {items : List (β × Bool)} (ordered : InOrder (stamp ∘ Prod.fst) items)
    (mark : μ) (marks : List μ) :
    AllKept stamp moment items (mark :: marks) ↔
      (∀ item ∈ due (stamp ∘ Prod.fst) (moment mark) items, item.2 = true) ∧
        AllKept stamp moment (later (stamp ∘ Prod.fst) (moment mark) items) marks := by
  constructor
  · intro all
    refine ⟨fun item inside => ?_, fun item inside ⟨next, found, low⟩ => ?_⟩
    · obtain ⟨here, low⟩ := (mem_due ordered).mp inside
      exact all item here ⟨mark, List.mem_cons_self, low⟩
    · exact all item ((mem_later ordered).mp inside).1 ⟨next, List.mem_cons_of_mem mark found, low⟩
  · rintro ⟨now, after⟩ item inside ⟨next, found, low⟩
    by_cases early : stamp item.1 ≤ moment mark
    · exact now item ((mem_due ordered).mpr ⟨inside, early⟩)
    · rcases List.mem_cons.mp found with rfl | later_
      · exact absurd low early
      · exact after item ((mem_later ordered).mpr ⟨inside, not_le.mp early⟩) ⟨next, later_, low⟩

/-- Where nothing of the later pages is due at a mark, the pages are separated by the
marks exactly where their rest is by the later marks. -/
theorem separated_cons {page : List (β × Bool)} {pages : List (List (β × Bool))}
    (ordered : InOrder (stamp ∘ Prod.fst) (page ++ pages.flatten))
    (none : due (stamp ∘ Prod.fst) (moment mark) pages.flatten = []) :
    Separated stamp moment (page :: pages) (mark :: marks) ↔
      Separated stamp moment (later (stamp ∘ Prod.fst) (moment mark) page :: pages) marks := by
  obtain ⟨front, back, -⟩ := List.pairwise_append.mp ordered
  have after (late : List (β × Bool)) (found : late ∈ pages) (next : β × Bool)
      (inside : next ∈ late) :
      moment mark < stamp next.1 := by
    rw [due_eq_filter back, List.filter_eq_nil_iff] at none
    refine not_le.mp fun low => none next (List.mem_flatten.mpr ⟨late, found, inside⟩) ?_
    exact decide_eq_true low
  have dueBy (late : List (β × Bool)) (found : late ∈ pages) (next : β × Bool)
      (inside : next ∈ late) :
      Due stamp moment (mark :: marks) next.1 ↔ Due stamp moment marks next.1 := by
    simp only [Due, List.exists_mem_cons_iff, not_le.mpr (after late found next inside), false_or]
  simp only [Separated, List.pairwise_cons]
  refine and_congr ?_ ?_
  · constructor
    · intro separated late found item inside next member due_
      obtain ⟨here, above⟩ := (mem_later front).mp inside
      obtain ⟨between, among, low, high⟩ := separated late found item here next member
        ((dueBy late found next member).mpr due_)
      rcases List.mem_cons.mp among with rfl | rest
      · exact absurd low (not_le.mpr above)
      · exact ⟨between, rest, low, high⟩
    · intro separated late found item inside next member due_
      by_cases early : stamp item.1 ≤ moment mark
      · exact ⟨mark, List.mem_cons_self, early, after late found next member⟩
      · obtain ⟨between, among, low, high⟩ := separated late found item
          ((mem_later front).mpr ⟨inside, not_le.mp early⟩) next member
          ((dueBy late found next member).mp due_)
        exact ⟨between, List.mem_cons_of_mem mark among, low, high⟩
  · apply List.Pairwise.iff_of_mem
    intro early late found member
    constructor
    · intro separated item inside next reached due_
      obtain ⟨between, among, low, high⟩ := separated item inside next reached
        ((dueBy late member next reached).mpr due_)
      rcases List.mem_cons.mp among with rfl | rest
      · exact absurd low (not_le.mpr (after early found item inside))
      · exact ⟨between, rest, low, high⟩
    · intro separated item inside next reached due_
      obtain ⟨between, among, low, high⟩ := separated item inside next reached
        ((dueBy late member next reached).mp due_)
      exact ⟨between, List.mem_cons_of_mem mark among, low, high⟩

/-- Marks that separate the pages leave nothing of the later ones due at the first mark. -/
theorem due_eq_nil_of_separated {page : List (β × Bool)} {pages : List (List (β × Bool))}
    (ordered : InOrder (stamp ∘ Prod.fst) (page ++ pages.flatten)) (some_ : page = [] → pages = [])
    (rising : ∀ next ∈ marks, moment mark ≤ moment next)
    (separated : Separated stamp moment (page :: pages) (mark :: marks)) :
    due (stamp ∘ Prod.fst) (moment mark) pages.flatten = [] := by
  obtain ⟨-, back, cross⟩ := List.pairwise_append.mp ordered
  cases page with
  | nil =>
    rw [some_ rfl]
    rfl
  | cons item rest =>
    rw [due_eq_filter back, List.filter_eq_nil_iff]
    intro next inside low
    have early := of_decide_eq_true low
    obtain ⟨late, found, member⟩ := List.mem_flatten.mp inside
    obtain ⟨between, among, -, high⟩ := (List.pairwise_cons.mp separated).1 late found item
      List.mem_cons_self next member ⟨mark, List.mem_cons_self, early⟩
    rcases List.mem_cons.mp among with rfl | rest
    · exact absurd early (not_le.mpr high)
    · exact absurd (early.trans (rising between rest)) (not_le.mpr high)

/-! ## Whole runs -/

/-- Taking the next page for an empty one leaves the same items, apart by the same marks. -/
theorem refill_pages {page : List (β × Bool)} {pages : List (List (β × Bool))}
    (some_ : ∀ next ∈ pages, next ≠ []) (marks : List μ) :
    (∀ next ∈ (refill page pages).2, next ≠ []) ∧
      ((refill page pages).1 = [] → (refill page pages).2 = []) ∧
      (Separated stamp moment (page :: pages) marks ↔
        Separated stamp moment ((refill page pages).1 :: (refill page pages).2) marks) := by
  cases page with
  | nil =>
    cases pages with
    | nil => exact ⟨some_, fun _ => rfl, Iff.rfl⟩
    | cons next rest =>
      refine ⟨fun late inside => some_ late (List.mem_cons_of_mem next inside), fun none => ?_, ?_⟩
      · exact absurd none (some_ next List.mem_cons_self)
      · simp only [Separated, refill, List.headD_cons, List.tail_cons]
        rw [List.pairwise_cons, and_iff_right]
        exact fun late _ item inside => absurd inside List.not_mem_nil
  | cons item rest => exact ⟨some_, fun none => absurd none (List.cons_ne_nil item rest), Iff.rfl⟩

/-- The lazy merge is the merge, with nothing after it, exactly where every item that is
due is kept and the pages are separated. -/
theorem lazyMerge_eq_iff {page : List (β × Bool)} {pages : List (List (β × Bool))} {buffer : List β}
    {behind : List (List β)} (linked : Linked page pages buffer behind)
    (ordered : InOrder (stamp ∘ Prod.fst) (page ++ pages.flatten))
    (some_ : ∀ page ∈ pages, page ≠ []) (rising : InOrder moment marks) (tail : List β) :
    lazyMerge stamp moment buffer behind marks =
        merge stamp moment ((page ++ pages.flatten).map Prod.fst) marks ++ tail.map Sum.inl ↔
      tail = [] ∧ AllKept stamp moment (page ++ pages.flatten) marks ∧
        Separated stamp moment (page :: pages) marks := by
  induction marks generalizing page pages buffer behind with
  | nil =>
    have never (item : β) : ¬Due stamp moment ([] : List μ) item := by
      rintro ⟨_, inside, -⟩
      exact absurd inside List.not_mem_nil
    have kept_ : AllKept stamp moment (page ++ pages.flatten) ([] : List μ) :=
      fun item _ due_ => absurd due_ (never item.1)
    have apart : Separated stamp moment (page :: pages) ([] : List μ) := by
      refine List.Pairwise.imp ?_
        (List.pairwise_of_forall (R := fun _ _ => True) fun _ _ => trivial)
      exact fun _ item _ next _ due_ => absurd due_ (never next.1)
    simp only [lazyMerge, merge, List.nil_append, kept_, apart, and_true]
    rw [eq_comm, List.map_eq_nil_iff]
  | cons mark marks ih =>
    obtain ⟨first, others⟩ := List.pairwise_cons.mp rising
    obtain ⟨some', turn, same⟩ : (∀ next ∈ (PagedMerge.refill page pages).2, next ≠ []) ∧
        ((PagedMerge.refill page pages).1 = [] → (PagedMerge.refill page pages).2 = []) ∧
        (Separated stamp moment (page :: pages) (mark :: marks) ↔ Separated stamp moment
          ((PagedMerge.refill page pages).1 :: (PagedMerge.refill page pages).2) (mark :: marks)) :=
      refill_pages some_ (mark :: marks)
    have linked' := linked.refill
    have whole := refill_flatten page pages
    rw [← whole] at ordered ⊢
    rw [same]
    simp only [lazyMerge, merge]
    generalize PagedMerge.refill buffer behind = filled at *
    generalize PagedMerge.refill page pages = turned at *
    rw [List.append_assoc, List.cons_append, append_mark_inj, due_eq_iff linked' ordered,
      allKept_cons ordered]
    -- What follows the mark, where the two let go the same items at it.
    have rest (all : ∀ item ∈ due (stamp ∘ Prod.fst) (moment mark) (turned.1 ++ turned.2.flatten),
          item.2 = true)
        (none : due (stamp ∘ Prod.fst) (moment mark) turned.2.flatten = []) :
        lazyMerge stamp moment (later stamp (moment mark) filled.1) filled.2 marks =
            merge stamp moment (later stamp (moment mark)
              ((turned.1 ++ turned.2.flatten).map Prod.fst)) marks ++ tail.map Sum.inl ↔
          tail = [] ∧
            AllKept stamp moment
              (later (stamp ∘ Prod.fst) (moment mark) (turned.1 ++ turned.2.flatten)) marks ∧
            Separated stamp moment (turned.1 :: turned.2) (mark :: marks) := by
      obtain ⟨front, back⟩ := due_append ordered (moment mark)
      have joined : due (stamp ∘ Prod.fst) (moment mark) turned.2.flatten ++
          later (stamp ∘ Prod.fst) (moment mark) turned.2.flatten = turned.2.flatten :=
        due_append_later (moment mark) turned.2.flatten
      rw [none, List.nil_append] at joined
      rw [joined] at back
      have after : InOrder (stamp ∘ Prod.fst)
          (later (stamp ∘ Prod.fst) (moment mark) turned.1 ++ turned.2.flatten) := by
        rw [← back]
        exact later_ordered ordered (moment mark)
      rw [later_map, back, separated_cons ordered none]
      refine ih (linked'.later ordered fun item inside => all item ?_) after some' others
      rw [front]
      exact List.mem_append_left _ inside
    constructor
    · rintro ⟨⟨all, none⟩, following⟩
      obtain ⟨ended, kept_, apart⟩ := (rest all none).mp following
      exact ⟨ended, ⟨all, kept_⟩, apart⟩
    · rintro ⟨ended, ⟨all, kept_⟩, apart⟩
      have none := due_eq_nil_of_separated ordered turn first apart
      exact ⟨⟨all, none⟩, (rest all none).mpr ⟨ended, kept_, apart⟩⟩

/-! ## Marks left out -/

/-- The run without the marks that are left out. -/
def withoutMarks (keep : μ → Bool) (run : List (β ⊕ μ)) : List (β ⊕ μ) :=
  run.filter (Sum.elim (fun _ => true) keep)

/-- Dropping marks goes on behind the first mark. -/
theorem withoutMarks_cons (keep : μ → Bool) (items : List β) (mark : μ) (run : List (β ⊕ μ)) :
    withoutMarks keep (items.map Sum.inl ++ Sum.inr mark :: run) =
      items.map Sum.inl ++ (if keep mark then [Sum.inr mark] else []) ++ withoutMarks keep run := by
  have all : (items.map Sum.inl : List (β ⊕ μ)).filter (Sum.elim (fun _ => true) keep) =
      items.map Sum.inl := by
    refine List.filter_eq_self.mpr fun entry inside => ?_
    obtain ⟨item, -, rfl⟩ := List.mem_map.mp inside
    rfl
  rw [withoutMarks, List.filter_append, all, List.filter_cons, List.append_assoc]
  cases kept_ : keep mark with
  | true => simp [kept_, withoutMarks]
  | false =>
    simp [kept_, withoutMarks]

/-- What is due at a mark, and then at a later one, is due at the later one. -/
theorem merge_after (ordered : InOrder stamp items)
    (rising : ∀ next ∈ marks, moment mark ≤ moment next) (some_ : marks ≠ []) :
    (due stamp (moment mark) items).map Sum.inl ++
        merge stamp moment (later stamp (moment mark) items) marks =
      merge stamp moment items marks := by
  obtain ⟨next, rest, rfl⟩ := List.exists_cons_of_ne_nil some_
  have up := rising next List.mem_cons_self
  have inner := later_ordered ordered (moment mark)
  have joined : due stamp (moment mark) items ++
      due stamp (moment next) (later stamp (moment mark) items) =
      due stamp (moment next) items := by
    have whole : due stamp (moment mark) items ++ later stamp (moment mark) items = items :=
      due_append_later (moment mark) items
    have split_ : InOrder stamp
        (due stamp (moment mark) items ++ later stamp (moment mark) items) := by
      rw [whole]
      exact ordered
    have parts := (due_append split_ (moment next)).1
    rw [whole] at parts
    rw [parts]
    have early : InOrder stamp (due stamp (moment mark) items) :=
      (List.pairwise_append.mp split_).1
    rw [due_eq_filter early, List.filter_eq_self.mpr]
    exact fun item inside => decide_eq_true (((mem_due ordered).mp inside).2.trans up)
  have after : later stamp (moment next) (later stamp (moment mark) items) =
      later stamp (moment next) items := by
    rw [later_eq_filter inner, later_eq_filter ordered, later_eq_filter ordered, List.filter_filter]
    refine List.filter_congr fun item _ => ?_
    by_cases high : moment next < stamp item
    · rw [decide_eq_true high, decide_eq_true (up.trans_lt high), Bool.and_true]
    · rw [decide_eq_false high, Bool.false_and]
  simp only [merge]
  rw [after, ← List.append_assoc, ← List.map_append, joined]

/-- After the mark, an item is due where it is due at a later one. -/
theorem due_cons_of_lt (high : moment mark < stamp item) :
    Due stamp moment (mark :: marks) item ↔ Due stamp moment marks item := by
  simp only [Due, List.exists_mem_cons_iff, not_le.mpr high, false_or]

theorem due_cons_of_le (marks : List μ) (low : stamp item ≤ moment mark) :
    Due stamp moment (mark :: marks) item := ⟨mark, List.mem_cons_self, low⟩

/-- Every item that is due is one that is due at the first mark or a later item that is
due at the others. -/
theorem forall_due_cons (ordered : InOrder stamp items) {holds : β → Prop} :
    (∀ item ∈ items, Due stamp moment (mark :: marks) item → holds item) ↔
      (∀ item ∈ due stamp (moment mark) items, holds item) ∧
        ∀ item ∈ later stamp (moment mark) items, Due stamp moment marks item → holds item := by
  constructor
  · intro all
    refine ⟨fun item inside => ?_, fun item inside due_ => ?_⟩
    · obtain ⟨here, low⟩ := (mem_due ordered).mp inside
      exact all item here (due_cons_of_le marks low)
    · obtain ⟨here, high⟩ := (mem_later ordered).mp inside
      exact all item here ((due_cons_of_lt high).mpr due_)
  · rintro ⟨first, after⟩ item inside due_
    by_cases low : stamp item ≤ moment mark
    · exact first item ((mem_due ordered).mpr ⟨inside, low⟩)
    · have high := not_le.mp low
      exact after item ((mem_later ordered).mpr ⟨inside, high⟩) ((due_cons_of_lt high).mp due_)

/-- A merge without the marks that are left out is the merge at the other marks, and
then the items that are due only at a mark left out. -/
theorem withoutMarks_merge (keep : μ → Bool) (ordered : InOrder stamp items)
    (rising : InOrder moment marks) :
    ∃ tail : List β,
      withoutMarks keep (merge stamp moment items marks) =
          merge stamp moment items (marks.filter keep) ++ tail.map Sum.inl ∧
        (tail = [] ↔ ∀ item ∈ items, Due stamp moment marks item →
          Due stamp moment (marks.filter keep) item) := by
  induction marks generalizing items with
  | nil =>
    refine ⟨[], rfl, ?_⟩
    simp
  | cons mark marks ih =>
    obtain ⟨first, others⟩ := List.pairwise_cons.mp rising
    obtain ⟨tail, same, ends⟩ := ih (later_ordered ordered (moment mark)) others
    rw [merge, withoutMarks_cons, same, forall_due_cons ordered]
    cases kept_ : keep mark with
    | true =>
      simp only [List.filter_cons, kept_, ↓reduceIte]
      refine ⟨tail, ?_, ends.trans ?_⟩
      · simp [merge]
      · have due_ : ∀ item ∈ due stamp (moment mark) items,
            Due stamp moment (mark :: marks.filter keep) item :=
          fun item inside => due_cons_of_le _ ((mem_due ordered).mp inside).2
        rw [and_iff_right due_]
        refine forall₂_congr fun item inside => ?_
        rw [due_cons_of_lt ((mem_later ordered).mp inside).2]
    | false =>
      simp only [List.filter_cons, kept_, Bool.false_eq_true, ↓reduceIte, List.append_nil]
      cases left : marks.filter keep with
      | nil =>
        refine ⟨due stamp (moment mark) items ++ tail, ?_, ?_⟩
        · simp [merge]
        · have never (item : β) : ¬Due stamp moment ([] : List μ) item := by
            rintro ⟨_, inside, -⟩
            exact absurd inside List.not_mem_nil
          rw [left] at ends
          simp only [never] at ends ⊢
          rw [List.append_eq_nil_iff, ends, List.eq_nil_iff_forall_not_mem]
      | cons next rest =>
        have rising : ∀ after ∈ next :: rest, moment mark ≤ moment after := by
          rw [← left]
          exact fun after inside => first after (List.mem_filter.mp inside).1
        refine ⟨tail, ?_, ends.trans ?_⟩
        · rw [← List.append_assoc, merge_after ordered rising (List.cons_ne_nil next rest)]
        · have due_ : ∀ item ∈ due stamp (moment mark) items,
              Due stamp moment (next :: rest) item := fun item inside =>
            due_cons_of_le rest
              (((mem_due ordered).mp inside).2.trans (rising next List.mem_cons_self))
          rw [left, and_iff_right due_]

/-! ## Runs without items -/

/-- A buffer whose first item comes after every mark lets nothing go. -/
theorem lazyMerge_waits {rest : List β} {pages : List (List β)} :
    lazyMerge stamp moment (item :: rest) pages marks = marks.map Sum.inr ↔
      ∀ mark ∈ marks, moment mark < stamp item := by
  induction marks with
  | nil =>
    simp [lazyMerge]
  | cons mark marks ih =>
    rw [List.forall_mem_cons, ← ih]
    simp only [lazyMerge, refill, due, later, List.takeWhile_cons, List.dropWhile_cons,
      List.map_cons]
    by_cases low : stamp item ≤ moment mark
    · simp [low, not_lt.mpr low]
    · simp [low, not_le.mp low]

/-- A lazy merge lets nothing go exactly where it is silent. -/
theorem lazyMerge_silent {pages : List (List β)} (ordered : ∀ page ∈ pages, InOrder stamp page)
    (marks : List μ) :
    lazyMerge stamp moment [] pages marks = marks.map Sum.inr ↔
      Silent stamp moment pages marks := by
  induction marks generalizing pages with
  | nil =>
    refine iff_of_true rfl fun n page _ _ item _ mark inside => ?_
    rw [List.drop_nil] at inside
    exact absurd inside List.not_mem_nil
  | cons mark marks ih =>
    cases pages with
    | nil =>
      have none : Silent stamp moment ([] : List (List β)) marks :=
        fun n page found => by cases found
      have before := (ih (fun _ inside => absurd inside List.not_mem_nil)).mpr none
      refine iff_of_true ?_ fun n page found => by cases found
      simp [lazyMerge, refill, due, later, before]
    | cons page rest =>
      cases page with
      | nil =>
        have inner := ih fun page inside => ordered page (List.mem_cons_of_mem [] inside)
        simp only [lazyMerge, refill, List.headD_cons, List.tail_cons, due, later,
          List.takeWhile_nil, List.dropWhile_nil, List.map_nil, List.nil_append, List.map_cons,
          List.cons.injEq, true_and, inner]
        constructor
        · intro silent n page found early item inside next member
          cases n with
          | zero =>
            rw [← Option.some.inj found] at inside
            exact absurd inside List.not_mem_nil
          | succ n =>
            refine silent n page found (fun late among => early late ?_) item inside next member
            exact List.mem_cons_of_mem [] among
        · intro silent n page found early item inside next member
          refine silent (n + 1) page found (fun late among => ?_) item inside next member
          rcases List.mem_cons.mp among with rfl | after
          · rfl
          · exact early late after
      | cons item others =>
        have asBuffer : lazyMerge stamp moment [] ((item :: others) :: rest) (mark :: marks) =
            lazyMerge stamp moment (item :: others) rest (mark :: marks) := rfl
        rw [asBuffer, lazyMerge_waits]
        have least := (List.pairwise_cons.mp (ordered (item :: others) List.mem_cons_self)).1
        constructor
        · intro waits n page found early entry inside next member
          cases n with
          | zero =>
            rw [← Option.some.inj found] at inside
            rcases List.mem_cons.mp inside with rfl | after
            · exact waits next member
            · exact (waits next member).trans_le (least entry after)
          | succ n =>
            exact absurd (early (item :: others) List.mem_cons_self) (List.cons_ne_nil item others)
        · intro silent next member
          exact silent 0 (item :: others) rfl (fun _ none => absurd none List.not_mem_nil) item
            List.mem_cons_self next member

end PagedMerge
