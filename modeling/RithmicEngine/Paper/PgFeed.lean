import RithmicEngine.Base.PagedMerge
import RithmicEngine.Collector.TickReader
import RithmicEngine.Paper.PaperQuote
/-!
# The two market loops

The executor and the paper engine poll the ticks, and before each tick apply the quotes
that are not after it. Both buffer the quotes of a page. The executor asks for a page
once a tick, if its buffer is empty, and takes a quote only if both sides are stored.
The paper engine asks again whenever its buffer has run empty, and carries the last
stored side over a missing one.

A market event is a quote applied to the book or a tick. The tables do not change.
-/
namespace RithmicEngine

open PagedMerge

/-- A side of a stored quote. A side without a positive price is not stored. -/
structure BboSide where
  price : ℚ
  size : Int
  positive : 0 < price

/-- A row of the quotes table, a missing side null. -/
structure BboEntry where
  tsUs : ℤ
  bid : Option BboSide
  ask : Option BboSide

/-- Quotes are ordered by time alone. -/
def bboOrder : RowOrder BboEntry ℤ ℤ where
  key := BboEntry.tsUs
  stamp := BboEntry.tsUs
  stamp_le_stamp _ _ le := le

/-- The rows of a query for quotes. -/
def bboPage (limit : Nat) (watermark : ℤ) (bbo : List BboEntry) : List BboEntry :=
  (bboOrder.above watermark bbo).take limit

abbrev MarketEvent := Quote ⊕ TickEntry

namespace TickEntry

/-- A tick with a price and a size. -/
def usable (tick : TickEntry) : Bool :=
  !(decide (tick.1.1.price ≤ 0) || decide (tick.1.1.size.toInt ≤ 0))

end TickEntry

namespace BboEntry

/-- The number a column reads as, zero for null. -/
def price (side : Option BboSide) : ℚ := (side.map BboSide.price).getD 0

def size (side : Option BboSide) : Int := (side.map BboSide.size).getD 0

/-- The row as the executor reads it. -/
def quote (row : BboEntry) : Quote where
  tsUs := row.tsUs
  bid := price row.bid
  ask := price row.ask
  bidSz := size row.bid
  askSz := size row.ask

end BboEntry

/-! ## The executor -/

structure PgQuotes where
  qbuf : List Quote := []
  bboWatermarkUs : ℤ

namespace PgQuotes

/-- Ask for a page if the buffer is empty. -/
def refill (limit : Nat) (bbo : List BboEntry) (feed : PgQuotes) : PgQuotes :=
  if feed.qbuf.isEmpty then
    let page := bboPage limit feed.bboWatermarkUs bbo
    { qbuf := (page.map BboEntry.quote).filter Quote.valid
      bboWatermarkUs := bboOrder.advance feed.bboWatermarkUs page }
  else feed

def feedQuotesUntil (limit : Nat) (bbo : List BboEntry) (tsUs : ℤ) (feed : PgQuotes) :
    List Quote × PgQuotes :=
  let feed := feed.refill limit bbo
  (due Quote.tsUs tsUs feed.qbuf, { feed with qbuf := later Quote.tsUs tsUs feed.qbuf })

end PgQuotes

structure PgFeed where
  watermarkUs : ℤ
  quotes : PgQuotes
  events : List MarketEvent := []

namespace PgFeed

/-- One row of a page of ticks. -/
def onRow (limit : Nat) (bbo : List BboEntry) (feed : PgFeed) (tick : TickEntry) : PgFeed :=
  let feed := { feed with watermarkUs := tick.tsUs }
  if tick.usable then
    let fed := feed.quotes.feedQuotesUntil limit bbo tick.tsUs
    { feed with
      quotes := fed.2
      events := feed.events ++ fed.1.map Sum.inl ++ [Sum.inr tick] }
  else feed

def poll (limit : Nat) (ticks : List TickEntry) (bbo : List BboEntry) (feed : PgFeed) : PgFeed :=
  (tickOrder.page limit feed.watermarkUs ticks).foldl (onRow limit bbo) feed

def start (watermark : ℤ) : PgFeed where
  watermarkUs := watermark
  quotes := { bboWatermarkUs := watermark }

end PgFeed

/-! ## The paper engine -/

/-- The last side seen of each kind. -/
structure LastSides where
  lastBid : ℚ := 0
  lastBidSz : Int := 0
  lastAsk : ℚ := 0
  lastAskSz : Int := 0

namespace LastSides

def take (row : BboEntry) (last : LastSides) : LastSides :=
  let last := match row.bid with
    | none => last
    | some side => { last with lastBid := side.price, lastBidSz := side.size }
  match row.ask with
  | none => last
  | some side => { last with lastAsk := side.price, lastAskSz := side.size }

/-- Both sides have been seen. -/
def twoSided (last : LastSides) : Bool := !(decide (last.lastBid ≤ 0) || decide (last.lastAsk ≤ 0))

def quoteAt (tsUs : ℤ) (last : LastSides) : Quote where
  tsUs := tsUs
  bid := last.lastBid
  ask := last.lastAsk
  bidSz := last.lastBidSz
  askSz := last.lastAskSz

/-- The quotes of the rows of a page, and the last sides after it. -/
def pollBbo : List BboEntry → LastSides → List Quote × LastSides
  | [], last => ([], last)
  | row :: rest, last =>
    let last := last.take row
    let out := pollBbo rest last
    (if last.twoSided then last.quoteAt row.tsUs :: out.1 else out.1, out.2)

end LastSides

structure PaperQuotes where
  qbuf : List Quote := []
  bboWatermark : ℤ
  last : LastSides := {}

namespace PaperQuotes

/-- Ask for a page if the buffer is empty. The watermark is that of the last quote. -/
def refillQuotes (limit : Nat) (bbo : List BboEntry) (feed : PaperQuotes) : PaperQuotes :=
  if feed.qbuf.isEmpty then
    let out := LastSides.pollBbo (bboPage limit feed.bboWatermark bbo) feed.last
    { qbuf := out.1
      bboWatermark := ((out.1.getLast?).map Quote.tsUs).getD feed.bboWatermark
      last := out.2 }
  else feed

/-- Apply the quotes up to a time, a page after the other. Each round takes one quote. -/
def drainQuotes (limit : Nat) (bbo : List BboEntry) (tsUs : ℤ) :
    Nat → PaperQuotes → List Quote × PaperQuotes
  | 0, feed => ([], feed)
  | rounds + 1, feed =>
    match feed.qbuf with
    | [] => ([], feed)
    | q :: rest =>
      if q.tsUs ≤ tsUs then
        let out := drainQuotes limit bbo tsUs rounds
          (refillQuotes limit bbo { feed with qbuf := rest })
        (q :: out.1, out.2)
      else ([], feed)

/-- There are no more quotes than rows. -/
def quotesUntil (limit : Nat) (bbo : List BboEntry) (tsUs : ℤ) (feed : PaperQuotes) :
    List Quote × PaperQuotes :=
  drainQuotes limit bbo tsUs bbo.length (feed.refillQuotes limit bbo)

end PaperQuotes

structure PaperFeed where
  watermark : ℤ
  quotes : PaperQuotes
  events : List MarketEvent := []

namespace PaperFeed

def onRow (limit : Nat) (bbo : List BboEntry) (feed : PaperFeed) (tick : TickEntry) : PaperFeed :=
  let fed := feed.quotes.quotesUntil limit bbo tick.tsUs
  { watermark := tick.tsUs
    quotes := fed.2
    events := feed.events ++ fed.1.map Sum.inl ++ [Sum.inr tick] }

def poll (limit : Nat) (ticks : List TickEntry) (bbo : List BboEntry) (feed : PaperFeed) :
    PaperFeed :=
  (tickOrder.page limit feed.watermark ticks).foldl (onRow limit bbo) feed

def start (watermark : ℤ) : PaperFeed where
  watermark := watermark
  quotes := { bboWatermark := watermark }

end PaperFeed

/-! ## What the tables say -/

/-- The pages of quotes above a watermark. -/
def quotePages (limit : Nat) (bbo : List BboEntry) : Nat → ℤ → List (List BboEntry)
  | 0, _ => []
  | rows + 1, watermark =>
    match bboPage limit watermark bbo with
    | [] => []
    | row :: rest =>
      (row :: rest) :: quotePages limit bbo rows (bboOrder.advance watermark (row :: rest))

/-- The rows of a page from the first one at which a bid and an ask have been seen. -/
def shownRows (bid ask : Bool) : List BboEntry → List BboEntry
  | [] => []
  | row :: rest =>
    if (bid || row.bid.isSome) && (ask || row.ask.isSome) then row :: rest
    else shownRows (bid || row.bid.isSome) (ask || row.ask.isSome) rest

/-- The pages without the rows before both sides have been seen. -/
def shownPages : List (List BboEntry) → List (List BboEntry)
  | [] => []
  | page :: rest => shownRows false false page :: rest

/-- The ticks that some polls deliver. -/
def prints (limit polls : Nat) (start : ℤ) (ticks : List TickEntry) : List TickEntry :=
  ((tickOrder.poll limit ticks)^[polls] { watermark := start }).delivered

/-- Every quote up to the last tick, from the first one with both sides seen, has both
sides stored and is not after the last tick with a price and a size; and such a tick
separates it from the quotes of earlier pages. Where the first page does not have both
sides, no stored quote with both sides is up to a tick when the executor takes its page. -/
def SameStream (limit polls : Nat) (start : ℤ) (ticks : List TickEntry) (bbo : List BboEntry) :
    Prop :=
  let pages := quotePages limit bbo bbo.length start
  let all := prints limit polls start ticks
  let marks := all.filter TickEntry.usable
  if shownRows false false (bboPage limit start bbo) ≠ [] then
    (∀ row ∈ (shownPages pages).flatten, (∃ tick ∈ all, row.tsUs ≤ tick.tsUs) →
        row.quote.valid = true ∧ ∃ tick ∈ marks, row.tsUs ≤ tick.tsUs) ∧
      (shownPages pages).Pairwise (fun early late => ∀ row ∈ early, ∀ next ∈ late,
        (∃ tick ∈ marks, next.tsUs ≤ tick.tsUs) →
          ∃ tick ∈ marks, row.tsUs ≤ tick.tsUs ∧ tick.tsUs < next.tsUs)
  else
    ∀ n page, pages[n]? = some page →
      (∀ early ∈ pages.take n, ∀ row ∈ early, row.quote.valid = false) →
        ∀ row ∈ page, row.quote.valid = true → ∀ tick ∈ marks.drop n, tick.tsUs < row.tsUs

/-! ## Pages -/

/-- The pages that the queries from a watermark on return. -/
def PagesFrom (limit : Nat) (bbo : List BboEntry) : ℤ → List (List BboEntry) → Prop
  | watermark, [] => bboPage limit watermark bbo = []
  | watermark, page :: rest =>
    page ≠ [] ∧ bboPage limit watermark bbo = page ∧
      PagesFrom limit bbo (bboOrder.advance watermark page) rest

variable {limit : Nat} {bbo : List BboEntry} {watermark : ℤ} {feed : PaperQuotes}
  {page : List BboEntry} {pages : List (List BboEntry)} (rows : List BboEntry) (last : LastSides)

theorem mem_above_of_mem_bboPage {row : BboEntry} (inside : row ∈ bboPage limit watermark bbo) :
    row ∈ bboOrder.above watermark bbo :=
  List.mem_of_mem_take inside

/-- What a query after a page sees is left of what the query of the page saw. -/
theorem above_advance (limit : Nat) (watermark : ℤ) (bbo : List BboEntry) :
    (bboOrder.above (bboOrder.advance watermark (bboPage limit watermark bbo)) bbo).Sublist
      ((bboOrder.above watermark bbo).drop limit) := by
  have joined : bboPage limit watermark bbo ++ (bboOrder.above watermark bbo).drop limit =
      bboOrder.above watermark bbo := List.take_append_drop _ _
  have ordered : (bboPage limit watermark bbo).Pairwise bboOrder.Le :=
    (bboOrder.above_pairwise watermark bbo).sublist (List.take_sublist _ _)
  cases found : (bboPage limit watermark bbo).getLast? with
  | none =>
    rw [List.getLast?_eq_none_iff.mp found, List.nil_append] at joined
    rw [List.getLast?_eq_none_iff.mp found, joined]
    exact List.Sublist.refl _
  | some last =>
    rw [bboOrder.advance_of_last found]
    have up := bboOrder.lt_of_mem_above (mem_above_of_mem_bboPage (List.mem_of_getLast? found))
    have none : (bboPage limit watermark bbo).filter
        (fun row => decide (bboOrder.stamp last < bboOrder.stamp row)) = [] := by
      refine List.filter_eq_nil_iff.mpr fun row inside high => ?_
      exact absurd (bboOrder.stamp_le_last ordered found inside)
        (not_le.mpr (of_decide_eq_true high))
    rw [bboOrder.above_above up.le, ← joined, List.filter_append, none, List.nil_append, joined]
    exact List.filter_sublist

/-- Enough pages read all the quotes behind a watermark. -/
theorem quotePages_from (limit : Nat) (bbo : List BboEntry) (rows : Nat) (watermark : ℤ)
    (enough : (bboOrder.above watermark bbo).length ≤ rows) :
    PagesFrom limit bbo watermark (quotePages limit bbo rows watermark) := by
  induction rows generalizing watermark with
  | zero =>
    have none : bboOrder.above watermark bbo = [] :=
      List.eq_nil_of_length_eq_zero (Nat.le_zero.mp enough)
    rw [quotePages, PagesFrom, bboPage, none, List.take_nil]
  | succ rows ih =>
    rw [quotePages]
    have fewer := (above_advance limit watermark bbo).length_le
    cases page : bboPage limit watermark bbo with
    | nil => exact page
    | cons row rest =>
      refine ⟨List.cons_ne_nil row rest, page, ih _ ?_⟩
      rw [page, List.length_drop] at fewer
      have size := congrArg List.length page
      rw [bboPage, List.length_take, List.length_cons] at size
      omega

/-- The pages hold rows that the first query saw, in order. -/
theorem PagesFrom.sublist (from_ : PagesFrom limit bbo watermark pages) :
    pages.flatten.Sublist (bboOrder.above watermark bbo) := by
  induction pages generalizing watermark with
  | nil => exact List.nil_sublist _
  | cons page rest ih =>
    obtain ⟨-, same, later_⟩ := from_
    have after := above_advance limit watermark bbo
    rw [same] at after
    have joined : bboPage limit watermark bbo ++ (bboOrder.above watermark bbo).drop limit =
        bboOrder.above watermark bbo := List.take_append_drop _ _
    rw [List.flatten_cons, ← joined, same]
    exact (List.Sublist.refl page).append ((ih later_).trans after)

theorem PagesFrom.ne_nil (from_ : PagesFrom limit bbo watermark pages) :
    ∀ page ∈ pages, page ≠ [] := by
  induction pages generalizing watermark with
  | nil => exact fun page inside => absurd inside List.not_mem_nil
  | cons page rest ih => exact List.forall_mem_cons.mpr ⟨from_.1, ih from_.2.2⟩

theorem PagesFrom.ordered (from_ : PagesFrom limit bbo watermark pages) :
    InOrder BboEntry.tsUs pages.flatten :=
  (bboOrder.above_pairwise watermark bbo).sublist from_.sublist

theorem PagesFrom.length_le (from_ : PagesFrom limit bbo watermark pages) :
    pages.flatten.length ≤ bbo.length := by
  refine from_.sublist.length_le.trans ?_
  rw [(bboOrder.above_perm watermark bbo).length_eq]
  exact List.length_filter_le _ _

/-! ## The events of the executor -/

/-- The quotes of a page for the executor. -/
def pgQuotes (page : List BboEntry) : List Quote := (page.map BboEntry.quote).filter Quote.valid

/-- A refill takes the quotes of the next page for an empty buffer. -/
theorem PgQuotes.refill_pages {feed : PgQuotes}
    (from_ : PagesFrom limit bbo feed.bboWatermarkUs pages) :
    ∃ left, PagesFrom limit bbo (feed.refill limit bbo).bboWatermarkUs left ∧
      PagedMerge.refill feed.qbuf (pages.map pgQuotes) =
        ((feed.refill limit bbo).qbuf, left.map pgQuotes) := by
  cases buffer : feed.qbuf with
  | nil =>
    simp only [PgQuotes.refill, buffer, List.isEmpty_nil, ↓reduceIte]
    cases pages with
    | nil =>
      have none : bboPage limit feed.bboWatermarkUs bbo = [] := from_
      rw [none]
      exact ⟨[], none, rfl⟩
    | cons page rest =>
      obtain ⟨-, same, later_⟩ := from_
      rw [same]
      exact ⟨rest, later_, rfl⟩
  | cons q rest =>
    simp only [PgQuotes.refill, buffer, List.isEmpty_cons, Bool.false_eq_true, ↓reduceIte]
    exact ⟨pages, from_, rfl⟩

/-- The executor merges the quotes of the pages lazily into the ticks it can use. -/
theorem PgFeed.events_foldl (rows : List TickEntry) (feed : PgFeed) (pages : List (List BboEntry))
    (from_ : PagesFrom limit bbo feed.quotes.bboWatermarkUs pages) :
    (rows.foldl (onRow limit bbo) feed).events =
      feed.events ++ lazyMerge Quote.tsUs TickEntry.tsUs feed.quotes.qbuf (pages.map pgQuotes)
        (rows.filter TickEntry.usable) := by
  induction rows generalizing feed pages with
  | nil => simp [lazyMerge]
  | cons tick rest ih =>
    rw [List.foldl_cons]
    cases fine : tick.usable with
    | false =>
      have skipped : onRow limit bbo feed tick = { feed with watermarkUs := tick.tsUs } := by
        simp [onRow, fine]
      rw [skipped, ih { feed with watermarkUs := tick.tsUs } pages from_, List.filter_cons, fine]
      rfl
    | true =>
      obtain ⟨left, after, taken⟩ := PgQuotes.refill_pages from_
      rw [ih (onRow limit bbo feed tick) left (by
        simpa only [onRow, fine, ↓reduceIte, PgQuotes.feedQuotesUntil] using after)]
      simp only [onRow, fine, ↓reduceIte, PgQuotes.feedQuotesUntil, List.filter_cons, lazyMerge,
        taken, List.append_assoc, List.singleton_append]

/-! ## The quotes of the paper engine -/

namespace LastSides

/-- After a row the bid is known if it was, or the row has one. -/
theorem take_bid (row : BboEntry) (last : LastSides) :
    decide (0 < (last.take row).lastBid) = (decide (0 < last.lastBid) || row.bid.isSome) := by
  rcases row with ⟨tsUs, bid, ask⟩
  cases bid with
  | none => cases ask with
    | none => exact (Bool.or_false _).symm
    | some side => exact (Bool.or_false _).symm
  | some price => cases ask with
    | none => exact (decide_eq_true price.positive).trans (Bool.or_true _).symm
    | some side => exact (decide_eq_true price.positive).trans (Bool.or_true _).symm

/-- After a row the ask is known if it was, or the row has one. -/
theorem take_ask (row : BboEntry) (last : LastSides) :
    decide (0 < (last.take row).lastAsk) = (decide (0 < last.lastAsk) || row.ask.isSome) := by
  rcases row with ⟨tsUs, bid, ask⟩
  cases ask with
  | none => cases bid with
    | none => exact (Bool.or_false _).symm
    | some side => exact (Bool.or_false _).symm
  | some price => exact (decide_eq_true price.positive).trans (Bool.or_true _).symm

theorem twoSided_eq (last : LastSides) :
    last.twoSided = (decide (0 < last.lastBid) && decide (0 < last.lastAsk)) := by
  simp [twoSided, ← decide_not]

theorem pollBbo_bid (rows : List BboEntry) (last : LastSides) :
    decide (0 < (pollBbo rows last).2.lastBid) =
      (decide (0 < last.lastBid) || rows.any (fun row => row.bid.isSome)) := by
  induction rows generalizing last with
  | nil => exact (Bool.or_false _).symm
  | cons row rest ih =>
    refine (ih (last.take row)).trans ?_
    rw [take_bid, List.any_cons, Bool.or_assoc]

theorem pollBbo_ask (rows : List BboEntry) (last : LastSides) :
    decide (0 < (pollBbo rows last).2.lastAsk) =
      (decide (0 < last.lastAsk) || rows.any (fun row => row.ask.isSome)) := by
  induction rows generalizing last with
  | nil => exact (Bool.or_false _).symm
  | cons row rest ih =>
    refine (ih (last.take row)).trans ?_
    rw [take_ask, List.any_cons, Bool.or_assoc]

end LastSides

/-- A row is shown once a bid and an ask have been seen. -/
theorem shownRows_ne_nil (bid ask : Bool) (rows : List BboEntry) :
    shownRows bid ask rows ≠ [] ↔ rows ≠ [] ∧
      (bid || rows.any (fun row => row.bid.isSome)) = true ∧
      (ask || rows.any (fun row => row.ask.isSome)) = true := by
  induction rows generalizing bid ask with
  | nil => simp [shownRows]
  | cons row rest ih =>
    rw [shownRows, List.any_cons, List.any_cons, ← Bool.or_assoc, ← Bool.or_assoc]
    split
    next both =>
      rw [Bool.and_eq_true] at both
      rw [both.1, both.2]
      exact iff_of_true (List.cons_ne_nil row rest) ⟨List.cons_ne_nil row rest, rfl, rfl⟩
    next one =>
      rw [ih]
      constructor
      · rintro ⟨-, seen⟩
        exact ⟨List.cons_ne_nil row rest, seen⟩
      · rintro ⟨-, seen⟩
        refine ⟨?_, seen⟩
        rintro rfl
        simp only [List.any_nil, Bool.or_false] at seen
        exact one (Bool.and_eq_true_iff.mpr seen)

theorem shownRows_true : shownRows true true rows = rows := by
  cases rows with
  | nil => rfl
  | cons row rest => rfl

theorem shownRows_suffix (bid ask : Bool) (rows : List BboEntry) :
    shownRows bid ask rows <:+ rows := by
  induction rows generalizing bid ask with
  | nil => exact List.suffix_rfl
  | cons row rest ih =>
    rw [shownRows]
    split
    · exact List.suffix_rfl
    · exact (ih _ _).trans (List.suffix_cons row rest)

/-- The quotes of a page for the paper engine, and whether the executor takes them too. -/
def flagged : List BboEntry → LastSides → List (Quote × Bool)
  | [], _ => []
  | row :: rest, last =>
    let last := last.take row
    if last.twoSided then (last.quoteAt row.tsUs, row.quote.valid) :: flagged rest last
    else flagged rest last

/-- The pages of quotes, each read with the sides left by those before. -/
def flaggedPages : List (List BboEntry) → LastSides → List (List (Quote × Bool))
  | [], _ => []
  | page :: rest, last => flagged page last :: flaggedPages rest (LastSides.pollBbo page last).2

theorem flagged_fst : (flagged rows last).map Prod.fst = (LastSides.pollBbo rows last).1 := by
  induction rows generalizing last with
  | nil => rfl
  | cons row rest ih =>
    simp only [flagged, LastSides.pollBbo]
    split
    · rw [List.map_cons, ih]
    · exact ih _

/-- The rows shown, with their times and whether both sides are stored. -/
theorem flagged_shown :
    (flagged rows last).map (fun item => (item.1.tsUs, item.2)) =
      (shownRows (decide (0 < last.lastBid)) (decide (0 < last.lastAsk)) rows).map
        (fun row => (row.tsUs, row.quote.valid)) := by
  induction rows generalizing last with
  | nil => rfl
  | cons row rest ih =>
    rw [flagged, shownRows, ← LastSides.take_bid, ← LastSides.take_ask, ← LastSides.twoSided_eq]
    split
    next both =>
      have rest_ := ih (last.take row)
      rw [LastSides.twoSided_eq, Bool.and_eq_true] at both
      rw [both.1, both.2, shownRows_true] at rest_
      rw [List.map_cons, List.map_cons, rest_]
      rfl
    next one => exact ih (last.take row)

/-- A row with both sides stored reads the same for both. -/
theorem quoteAt_of_valid {row : BboEntry} (valid : row.quote.valid = true) (last : LastSides) :
    (last.take row).twoSided = true ∧ (last.take row).quoteAt row.tsUs = row.quote := by
  rcases row with ⟨tsUs, bid, ask⟩
  cases bid with
  | none => exact absurd valid (by simp [BboEntry.quote, Quote.valid, BboEntry.price])
  | some bid =>
    cases ask with
    | none =>
      have up := bid.positive
      simp only [BboEntry.quote, Quote.valid, BboEntry.price, Option.map_some, Option.getD_some,
        Option.map_none, Option.getD_none, Bool.and_eq_true] at valid
      exact absurd (up.trans_le (of_decide_eq_true valid.2)) (lt_irrefl 0)
    | some ask =>
      refine ⟨?_, rfl⟩
      rw [LastSides.twoSided_eq, LastSides.take_bid, LastSides.take_ask]
      simp

/-- The quotes that both take are those the executor takes. -/
theorem kept_flagged : kept (flagged rows last) = pgQuotes rows := by
  induction rows generalizing last with
  | nil => rfl
  | cons row rest ih =>
    have inner := ih (last.take row)
    rw [flagged]
    cases valid : row.quote.valid with
    | true =>
      obtain ⟨both, same⟩ := quoteAt_of_valid valid last
      rw [if_pos both, same]
      simp only [kept, pgQuotes, List.filter_cons, List.map_cons, valid, ↓reduceIte] at inner ⊢
      rw [inner]
    | false =>
      have skipped : pgQuotes (row :: rest) = pgQuotes rest := by
        simp only [pgQuotes, List.map_cons, List.filter_cons, valid, Bool.false_eq_true, ↓reduceIte]
      rw [skipped, ← inner]
      split
      · simp only [kept, List.filter_cons, Bool.false_eq_true, ↓reduceIte]
      · rfl

theorem kept_flaggedPages (pages : List (List BboEntry)) (last : LastSides) :
    (flaggedPages pages last).map kept = pages.map pgQuotes := by
  induction pages generalizing last with
  | nil => rfl
  | cons page rest ih => rw [flaggedPages, List.map_cons, List.map_cons, kept_flagged, ih]

theorem flagged_twoSided (page : List BboEntry) {last : LastSides}
    (both : last.twoSided = true) :
    (flagged page last).map (fun item => (item.1.tsUs, item.2)) =
      page.map (fun row => (row.tsUs, row.quote.valid)) := by
  rw [LastSides.twoSided_eq, Bool.and_eq_true] at both
  rw [flagged_shown, both.1, both.2, shownRows_true]

/-! ## The paper engine once both sides are seen -/

/-- Both sides are seen, the pages are those to come, and the buffer is empty only where
there are none. -/
structure Flowing (limit : Nat) (bbo : List BboEntry) (feed : PaperQuotes)
    (pages : List (List BboEntry)) : Prop where
  both : feed.last.twoSided = true
  from_ : PagesFrom limit bbo feed.bboWatermark pages
  eager : feed.qbuf = [] → pages = []

/-- The quotes that the paper engine has and those of the pages to come. -/
def PaperQuotes.stream (feed : PaperQuotes) (pages : List (List BboEntry)) : List Quote :=
  feed.qbuf ++ (flaggedPages pages feed.last).flatten.map Prod.fst

/-- At the start no side is seen. -/
theorem shownRows_unseen :
    shownRows (decide (0 < ({} : LastSides).lastBid)) (decide (0 < ({} : LastSides).lastAsk)) rows =
      shownRows false false rows := by
  have none : decide ((0 : ℚ) < 0) = false := decide_eq_false (lt_irrefl 0)
  rw [none]

/-- Sides seen in a page stay seen. -/
theorem twoSided_of_shown {last : LastSides}
    (shown : shownRows (decide (0 < last.lastBid)) (decide (0 < last.lastAsk)) page ≠ []) :
    (LastSides.pollBbo page last).2.twoSided = true := by
  obtain ⟨-, bid, ask⟩ := (shownRows_ne_nil _ _ page).mp shown
  rw [LastSides.twoSided_eq, LastSides.pollBbo_bid, LastSides.pollBbo_ask, bid, ask]
  rfl

/-- A refill that finds a page with a quote takes the page. -/
theorem refillQuotes_page (feed : PaperQuotes) {rest : List (List BboEntry)}
    (empty : feed.qbuf = []) (from_ : PagesFrom limit bbo feed.bboWatermark (page :: rest))
    (shown : shownRows (decide (0 < feed.last.lastBid))
      (decide (0 < feed.last.lastAsk)) page ≠ []) :
    Flowing limit bbo (feed.refillQuotes limit bbo) rest ∧
      (feed.refillQuotes limit bbo).stream rest = feed.stream (page :: rest) := by
  obtain ⟨-, same, later_⟩ := from_
  have out := flagged_fst page feed.last
  have times := flagged_shown page feed.last
  -- The last quote has the time of the last row.
  have final : ((LastSides.pollBbo page feed.last).1.getLast?).map Quote.tsUs =
      (page.getLast?).map BboEntry.tsUs := by
    obtain ⟨front, parts⟩ := shownRows_suffix (decide (0 < feed.last.lastBid))
      (decide (0 < feed.last.lastAsk)) page
    have ends := congrArg (fun list => (list.getLast?).map Prod.fst) times
    simp only [List.getLast?_map, Option.map_map, Function.comp_def] at ends
    rw [← out, List.getLast?_map, Option.map_map]
    refine ends.trans ?_
    rw [← parts, List.getLast?_append_of_ne_nil _ shown]
    simp only [parts]
  have some_ : (LastSides.pollBbo page feed.last).1 ≠ [] := by
    intro none
    rw [← out, List.map_eq_nil_iff] at none
    rw [none, List.map_nil, eq_comm, List.map_eq_nil_iff] at times
    exact shown times
  have refilled : feed.refillQuotes limit bbo =
      { qbuf := (LastSides.pollBbo page feed.last).1
        bboWatermark := bboOrder.advance feed.bboWatermark page
        last := (LastSides.pollBbo page feed.last).2 } := by
    simp only [PaperQuotes.refillQuotes, empty, List.isEmpty_nil, ↓reduceIte, same, final]
    rw [RowOrder.advance]
    cases page.getLast? with
    | none => rfl
    | some last => rfl
  refine ⟨⟨?_, ?_, ?_⟩, ?_⟩
  · rw [refilled]
    exact twoSided_of_shown shown
  · rw [refilled]
    exact later_
  · rw [refilled]
    exact fun none => absurd none some_
  · rw [refilled]
    simp [PaperQuotes.stream, empty, flaggedPages, out]

/-- A refill keeps the stream, and leaves an empty buffer only where it ends. -/
theorem refillQuotes_flowing (both : feed.last.twoSided = true)
    (from_ : PagesFrom limit bbo feed.bboWatermark pages) :
    ∃ left, Flowing limit bbo (feed.refillQuotes limit bbo) left ∧
      (feed.refillQuotes limit bbo).stream left = feed.stream pages := by
  cases buffer : feed.qbuf with
  | nil =>
    cases pages with
    | nil =>
      have none : bboPage limit feed.bboWatermark bbo = [] := from_
      have same : feed.refillQuotes limit bbo = feed := by
        rcases feed with ⟨qbuf, watermark, last⟩
        subst buffer
        simp [PaperQuotes.refillQuotes, none, LastSides.pollBbo]
      rw [same]
      exact ⟨[], ⟨both, from_, fun _ => rfl⟩, rfl⟩
    | cons page rest =>
      have sides := both
      rw [LastSides.twoSided_eq, Bool.and_eq_true] at sides
      refine ⟨rest, refillQuotes_page feed buffer from_ ?_⟩
      rw [sides.1, sides.2, shownRows_true]
      exact from_.1
  | cons q rest =>
    have same : feed.refillQuotes limit bbo = feed := by
      simp [PaperQuotes.refillQuotes, buffer]
    rw [same]
    exact ⟨pages, ⟨both, from_, fun none =>
      absurd (buffer.symm.trans none) (List.cons_ne_nil q rest)⟩, rfl⟩

/-- The loop over the buffer takes every quote of the stream that is due. -/
theorem drainQuotes_flowing (tsUs : ℤ) (rounds : Nat) (flowing : Flowing limit bbo feed pages)
    (enough : (feed.stream pages).length ≤ rounds) :
    (feed.drainQuotes limit bbo tsUs rounds).1 = due Quote.tsUs tsUs (feed.stream pages) ∧
      ∃ left, Flowing limit bbo (feed.drainQuotes limit bbo tsUs rounds).2 left ∧
        (feed.drainQuotes limit bbo tsUs rounds).2.stream left =
          later Quote.tsUs tsUs (feed.stream pages) := by
  have ended (none : feed.qbuf = []) : feed.stream pages = [] := by
    rw [PaperQuotes.stream, none, flowing.eager none]
    rfl
  induction rounds generalizing feed pages with
  | zero =>
    have none := List.eq_nil_of_length_eq_zero (Nat.le_zero.mp enough)
    simp only [PaperQuotes.drainQuotes, none]
    exact ⟨rfl, pages, flowing, none⟩
  | succ rounds ih =>
    rw [PaperQuotes.drainQuotes]
    split
    next none =>
      rw [ended none]
      exact ⟨rfl, pages, flowing, ended none⟩
    next q rest buffer =>
      have head : feed.stream pages =
          q :: ({ feed with qbuf := rest } : PaperQuotes).stream pages := by
        simp [PaperQuotes.stream, buffer]
      rw [head] at enough ⊢
      split
      next low =>
        generalize popped_ : ({ feed with qbuf := rest } : PaperQuotes) = popped at *
        obtain ⟨left, onward, same⟩ : ∃ left,
          Flowing limit bbo (popped.refillQuotes limit bbo) left ∧
            (popped.refillQuotes limit bbo).stream left = popped.stream pages := by
          subst popped_
          exact refillQuotes_flowing flowing.both flowing.from_
        have fewer : ((popped.refillQuotes limit bbo).stream left).length ≤ rounds := by
          rw [same]
          exact Nat.le_of_succ_le_succ enough
        have inner := ih onward fewer fun none => by
          rw [PaperQuotes.stream, none, onward.eager none]
          rfl
        rw [same] at inner
        obtain ⟨taken, after, flows, rest_⟩ := inner
        refine ⟨?_, after, flows, ?_⟩
        · simp only [due, List.takeWhile_cons, decide_eq_true low, ↓reduceIte]
          exact congrArg (q :: ·) taken
        · simp only [later, List.dropWhile_cons, decide_eq_true low, ↓reduceIte]
          exact rest_
      next high =>
        simp only [due, later, List.takeWhile_cons, List.dropWhile_cons, decide_eq_false high,
          Bool.false_eq_true, ↓reduceIte]
        exact ⟨trivial, pages, flowing, head⟩

/-- Once both sides are seen the paper engine merges its stream into the ticks. -/
theorem PaperFeed.events_flowing (rows : List TickEntry) (feed : PaperFeed)
    (pages : List (List BboEntry))
    (flowing : Flowing limit bbo (feed.quotes.refillQuotes limit bbo) pages)
    (enough : ((feed.quotes.refillQuotes limit bbo).stream pages).length ≤ bbo.length) :
    (rows.foldl (onRow limit bbo) feed).events =
      feed.events ++ merge Quote.tsUs TickEntry.tsUs
        ((feed.quotes.refillQuotes limit bbo).stream pages) rows := by
  induction rows generalizing feed pages with
  | nil => simp [merge]
  | cons tick rest ih =>
    obtain ⟨taken, after, flows, rest_⟩ := drainQuotes_flowing tick.tsUs bbo.length flowing enough
    obtain ⟨left, onward, same⟩ := refillQuotes_flowing flows.both flows.from_
    have fewer : (later Quote.tsUs tick.tsUs ((feed.quotes.refillQuotes limit bbo).stream
        pages)).length ≤ ((feed.quotes.refillQuotes limit bbo).stream pages).length :=
      (List.dropWhile_sublist _).length_le
    rw [rest_] at same
    rw [List.foldl_cons, ih (onRow limit bbo feed tick) left onward (by
      simp only [onRow, PaperQuotes.quotesUntil, same]
      exact fewer.trans enough)]
    simp [onRow, PaperQuotes.quotesUntil, taken, same, merge]

/-! ## The paper engine on a page without both sides -/

/-- The buffer is empty, and the next page shows no row. -/
def Starved (limit : Nat) (bbo : List BboEntry) (feed : PaperQuotes) : Prop :=
  feed.qbuf = [] ∧
    shownRows (decide (0 < feed.last.lastBid)) (decide (0 < feed.last.lastAsk))
      (bboPage limit feed.bboWatermark bbo) = []

/-- The page is asked for again and again, and never has a quote. -/
theorem refillQuotes_starved (starved : Starved limit bbo feed) :
    Starved limit bbo (feed.refillQuotes limit bbo) := by
  obtain ⟨empty, hidden⟩ := starved
  have none : (LastSides.pollBbo (bboPage limit feed.bboWatermark bbo) feed.last).1 = [] := by
    have times := flagged_shown (bboPage limit feed.bboWatermark bbo) feed.last
    rw [hidden, List.map_nil, List.map_eq_nil_iff] at times
    rw [← flagged_fst, times]
    rfl
  have refilled : feed.refillQuotes limit bbo =
      { feed with
        last := (LastSides.pollBbo (bboPage limit feed.bboWatermark bbo) feed.last).2 } := by
    simp [PaperQuotes.refillQuotes, empty, none]
  rw [refilled]
  refine ⟨empty, ?_⟩
  have again := shownRows_ne_nil (decide (0 < feed.last.lastBid)) (decide (0 < feed.last.lastAsk))
    (bboPage limit feed.bboWatermark bbo)
  by_contra shown
  have now := (shownRows_ne_nil _ _ _).mp shown
  simp only [LastSides.pollBbo_bid, LastSides.pollBbo_ask, Bool.or_assoc, Bool.or_self] at now
  exact (again.mpr now) hidden

/-- A starved feed passes the trades on and no quote. -/
theorem PaperFeed.events_starved (rows : List TickEntry) (feed : PaperFeed)
    (starved : Starved limit bbo feed.quotes) :
    (rows.foldl (onRow limit bbo) feed).events = feed.events ++ rows.map Sum.inr := by
  induction rows generalizing feed with
  | nil => simp
  | cons tick rest ih =>
    have onward := refillQuotes_starved starved
    have idle (rounds : Nat) : (feed.quotes.refillQuotes limit bbo).drainQuotes limit bbo tick.tsUs
        rounds = ([], feed.quotes.refillQuotes limit bbo) := by
      cases rounds with
      | zero => rfl
      | succ rounds =>
        rw [PaperQuotes.drainQuotes]
        split
        next => rfl
        next q more buffer =>
          exact absurd (onward.1.symm.trans buffer) (List.cons_ne_nil q more).symm
    have stepped : onRow limit bbo feed tick =
        { watermark := tick.tsUs
          quotes := feed.quotes.refillQuotes limit bbo
          events := feed.events ++ [Sum.inr tick] } := by
      simp [onRow, PaperQuotes.quotesUntil, idle]
    rw [List.foldl_cons, stepped, ih _ onward, List.map_cons, List.append_assoc]
    rfl

/-! ## Both loops -/

/-- The pages that the paper engine shows are, by time and flag, the rows from the first
one with both sides seen. -/
theorem flaggedPages_shown (rest : List (List BboEntry)) (shown : shownRows false false page ≠ []) :
    (flaggedPages (page :: rest) {}).map (List.map (fun item => (item.1.tsUs, item.2))) =
      (shownPages (page :: rest)).map (List.map (fun row => (row.tsUs, row.quote.valid))) := by
  have after (pages : List (List BboEntry)) (last : LastSides) (both : last.twoSided = true) :
      (flaggedPages pages last).map (List.map (fun item => (item.1.tsUs, item.2))) =
        pages.map (List.map (fun row => (row.tsUs, row.quote.valid))) := by
    induction pages generalizing last with
    | nil => rfl
    | cons page rest ih =>
      have stays : (LastSides.pollBbo page last).2.twoSided = true := by
        rw [LastSides.twoSided_eq, Bool.and_eq_true] at both ⊢
        rw [LastSides.pollBbo_bid, LastSides.pollBbo_ask, both.1, both.2]
        exact ⟨rfl, rfl⟩
      rw [flaggedPages, List.map_cons, List.map_cons, flagged_twoSided page both, ih _ stays]
  have first := flagged_shown page {}
  have seen : (LastSides.pollBbo page {}).2.twoSided = true := by
    apply twoSided_of_shown
    rw [shownRows_unseen]
    exact shown
  rw [shownRows_unseen] at first
  rw [flaggedPages, shownPages, List.map_cons, List.map_cons, first, after rest _ seen]

theorem prints_ordered (limit polls : Nat) (start : ℤ) (ticks : List TickEntry) :
    InOrder TickEntry.tsUs (prints limit polls start ticks) :=
  (tickOrder.iterate_ordered limit ticks start polls).imp fun le => tickOrder.stamp_le_stamp _ _ le

theorem quotePages_start (limit : Nat) (bbo : List BboEntry) (start : ℤ) :
    PagesFrom limit bbo start (quotePages limit bbo bbo.length start) := by
  apply quotePages_from
  rw [(bboOrder.above_perm start bbo).length_eq]
  exact List.length_filter_le _ _

/-- The executor's events over some polls. -/
theorem PgFeed.events_eq (limit polls : Nat) (start_ : ℤ) (ticks : List TickEntry)
    (bbo : List BboEntry) :
    ((poll limit ticks bbo)^[polls] (start start_)).events =
      lazyMerge Quote.tsUs TickEntry.tsUs []
        ((quotePages limit bbo bbo.length start_).map pgQuotes)
        ((prints limit polls start_ ticks).filter TickEntry.usable) := by
  have folded := tickOrder.iterate_pages watermarkUs (onRow limit bbo)
    (fun feed tick => by
      simp only [onRow]
      split
      · rfl
      · rfl) limit ticks (start start_) polls
  have events := events_foldl (prints limit polls start_ ticks) (start start_) _
    (quotePages_start limit bbo start_)
  exact (congrArg PgFeed.events folded).trans events

/-- The paper engine's events over some polls are those of the ticks delivered. -/
theorem PaperFeed.events_eq (limit polls : Nat) (start_ : ℤ) (ticks : List TickEntry)
    (bbo : List BboEntry) :
    ((poll limit ticks bbo)^[polls] (start start_)).events =
      ((prints limit polls start_ ticks).foldl (onRow limit bbo) (start start_)).events :=
  congrArg PaperFeed.events (tickOrder.iterate_pages watermark (onRow limit bbo)
    (fun _ _ => rfl) limit ticks (start start_) polls)

/-- Without both sides on its first page the paper engine applies no quote, and the
executor none exactly where none is up to a tick when its page is taken. -/
theorem same_stream_starved {polls : Nat} {start : ℤ} {ticks : List TickEntry}
    (hidden : shownRows false false (bboPage limit start bbo) = []) :
    ((PgFeed.poll limit ticks bbo)^[polls] (PgFeed.start start)).events =
        withoutMarks TickEntry.usable
          ((PaperFeed.poll limit ticks bbo)^[polls] (PaperFeed.start start)).events ↔
      Silent Quote.tsUs TickEntry.tsUs ((quotePages limit bbo bbo.length start).map pgQuotes)
        ((prints limit polls start ticks).filter TickEntry.usable) := by
  have starved : Starved limit bbo (PaperFeed.start start).quotes := by
    refine ⟨rfl, ?_⟩
    refine (shownRows_unseen _).trans ?_
    exact hidden
  have ordered : ∀ page ∈ (quotePages limit bbo bbo.length start).map pgQuotes,
      InOrder Quote.tsUs page := by
    intro page inside
    obtain ⟨rows, found, rfl⟩ := List.mem_map.mp inside
    have whole := (quotePages_start limit bbo start).ordered
    have part : InOrder BboEntry.tsUs rows :=
      List.Pairwise.sublist (List.sublist_flatten_of_mem found) whole
    refine List.Pairwise.sublist List.filter_sublist ?_
    rw [List.pairwise_map]
    exact part
  have kept_ : withoutMarks TickEntry.usable
      ((prints limit polls start ticks).map Sum.inr : List MarketEvent) =
      ((prints limit polls start ticks).filter TickEntry.usable).map Sum.inr := by
    rw [withoutMarks, List.filter_map]
    rfl
  rw [PgFeed.events_eq, PaperFeed.events_eq, PaperFeed.events_starved _ _ starved, PaperFeed.start,
    List.nil_append, kept_, lazyMerge_silent ordered]

theorem shownPages_sublist (pages : List (List BboEntry)) :
    (shownPages pages).flatten.Sublist pages.flatten := by
  cases pages with
  | nil => exact List.Sublist.refl _
  | cons page rest =>
    exact (shownRows_suffix false false page).sublist.append (List.Sublist.refl rest.flatten)

/-- What is said of times and flags holds of the flagged quotes as of the rows shown. -/
theorem forall_flagged {items : List (List (Quote × Bool))} {rows : List (List BboEntry)}
    (same : items.map (List.map (fun item => (item.1.tsUs, item.2))) =
      rows.map (List.map (fun row => (row.tsUs, row.quote.valid))))
    (holds : ℤ × Bool → Prop) :
    (∀ item ∈ items.flatten, holds (item.1.tsUs, item.2)) ↔
      ∀ row ∈ rows.flatten, holds (row.tsUs, row.quote.valid) := by
  have flat := congrArg List.flatten same
  rw [← List.map_flatten, ← List.map_flatten] at flat
  have left := List.forall_mem_map (f := fun item : Quote × Bool => (item.1.tsUs, item.2))
    (l := items.flatten) (P := holds)
  have right := List.forall_mem_map (f := fun row : BboEntry => (row.tsUs, row.quote.valid))
    (l := rows.flatten) (P := holds)
  rw [← left, ← right, flat]

/-- Pages are separated as flagged quotes as they are as rows shown. -/
theorem separated_flagged {items : List (List (Quote × Bool))} {rows : List (List BboEntry)}
    (same : items.map (List.map (fun item => (item.1.tsUs, item.2))) =
      rows.map (List.map (fun row => (row.tsUs, row.quote.valid))))
    (marks : List TickEntry) :
    Separated Quote.tsUs TickEntry.tsUs items marks ↔
      rows.Pairwise (fun early late => ∀ row ∈ early, ∀ next ∈ late,
        (∃ tick ∈ marks, next.tsUs ≤ tick.tsUs) →
          ∃ tick ∈ marks, row.tsUs ≤ tick.tsUs ∧ tick.tsUs < next.tsUs) := by
  let apart (early late : List (ℤ × Bool)) : Prop := ∀ item ∈ early, ∀ next ∈ late,
    (∃ tick ∈ marks, next.1 ≤ tick.tsUs) →
      ∃ tick ∈ marks, item.1 ≤ tick.tsUs ∧ tick.tsUs < next.1
  have left : Separated Quote.tsUs TickEntry.tsUs items marks ↔
      (items.map (List.map (fun item => (item.1.tsUs, item.2)))).Pairwise apart := by
    rw [List.pairwise_map]
    simp only [Separated, apart, List.forall_mem_map, Due]
  rw [left, same, List.pairwise_map]
  simp only [apart, List.forall_mem_map]

/-- With both sides on its first page the paper engine merges every quote. -/
theorem same_stream_shown {polls : Nat} {start : ℤ} {ticks : List TickEntry}
    (shown : shownRows false false (bboPage limit start bbo) ≠ []) :
    ((PgFeed.poll limit ticks bbo)^[polls] (PgFeed.start start)).events =
        withoutMarks TickEntry.usable
          ((PaperFeed.poll limit ticks bbo)^[polls] (PaperFeed.start start)).events ↔
      (∀ row ∈ (shownPages (quotePages limit bbo bbo.length start)).flatten,
        (∃ tick ∈ prints limit polls start ticks, row.tsUs ≤ tick.tsUs) →
          row.quote.valid = true ∧
            ∃ tick ∈ (prints limit polls start ticks).filter TickEntry.usable,
              row.tsUs ≤ tick.tsUs) ∧
      (shownPages (quotePages limit bbo bbo.length start)).Pairwise (fun early late =>
        ∀ row ∈ early, ∀ next ∈ late,
          (∃ tick ∈ (prints limit polls start ticks).filter TickEntry.usable,
            next.tsUs ≤ tick.tsUs) →
          ∃ tick ∈ (prints limit polls start ticks).filter TickEntry.usable,
            row.tsUs ≤ tick.tsUs ∧ tick.tsUs < next.tsUs) := by
  have from_ := quotePages_start limit bbo start
  have rising := prints_ordered limit polls start ticks
  have marksRising : InOrder TickEntry.tsUs
      ((prints limit polls start ticks).filter TickEntry.usable) :=
    List.Pairwise.sublist List.filter_sublist rising
  rw [PgFeed.events_eq, PaperFeed.events_eq]
  generalize quotePages limit bbo bbo.length start = pages at *
  cases pages with
  | nil =>
    rw [show bboPage limit start bbo = [] from from_] at shown
    exact absurd rfl shown
  | cons page rest =>
    rw [from_.2.1] at shown
    have same := flaggedPages_shown rest shown
    have flat := congrArg List.flatten same
    rw [← List.map_flatten, ← List.map_flatten] at flat
    have within := shownPages_sublist (page :: rest)
    have some_ : ∀ next ∈ flaggedPages (page :: rest) {}, next ≠ [] := by
      rintro next inside rfl
      have image := List.mem_map_of_mem
        (f := List.map (fun item : Quote × Bool => (item.1.tsUs, item.2))) inside
      rw [same, List.map_nil] at image
      obtain ⟨rows, found, empty⟩ := List.mem_map.mp image
      rw [List.map_eq_nil_iff] at empty
      rcases List.mem_cons.mp found with first | after
      · exact shown (first.symm.trans empty)
      · exact from_.ne_nil rows (List.mem_cons_of_mem page after) empty
    have ordered : InOrder (Quote.tsUs ∘ Prod.fst) (flaggedPages (page :: rest) {}).flatten := by
      have rows : ((shownPages (page :: rest)).flatten.map
          (fun row => (row.tsUs, row.quote.valid))).Pairwise (fun a b => a.1 ≤ b.1) :=
        List.pairwise_map.mpr (List.Pairwise.sublist within from_.ordered)
      rw [← flat, List.pairwise_map] at rows
      exact rows
    have stamped : InOrder Quote.tsUs ((flaggedPages (page :: rest) {}).flatten.map Prod.fst) := by
      rw [InOrder, List.pairwise_map]
      exact ordered
    have size := congrArg List.length flat
    rw [List.length_map, List.length_map] at size
    obtain ⟨flowing, streams⟩ := refillQuotes_page (PaperFeed.start start).quotes rfl from_ (by
      refine fun none => shown ?_
      exact (shownRows_unseen page).symm.trans none)
    have stream : ((PaperFeed.start start).quotes.refillQuotes limit bbo).stream rest =
        (flaggedPages (page :: rest) {}).flatten.map Prod.fst := streams
    rw [PaperFeed.events_flowing _ _ rest flowing (by
      rw [stream, List.length_map, size]
      exact within.length_le.trans from_.length_le), stream, PaperFeed.start, List.nil_append]
    obtain ⟨tail, cut, ends⟩ := withoutMarks_merge TickEntry.usable stamped rising
    have exact := lazyMerge_eq_iff (Linked.level [] (flaggedPages (page :: rest) {})) ordered some_
      marksRising tail
    rw [kept_flaggedPages, List.nil_append] at exact
    rw [cut]
    refine exact.trans ?_
    have timed := forall_flagged same (fun item =>
      (∃ tick ∈ prints limit polls start ticks, item.1 ≤ tick.tsUs) → item.2 = true ∧
        ∃ tick ∈ (prints limit polls start ticks).filter TickEntry.usable, item.1 ≤ tick.tsUs)
    have apart := separated_flagged same ((prints limit polls start ticks).filter TickEntry.usable)
    rw [← timed, ← apart, ends]
    have first : Separated Quote.tsUs TickEntry.tsUs ([] :: flaggedPages (page :: rest) {})
        ((prints limit polls start ticks).filter TickEntry.usable) ↔
        Separated Quote.tsUs TickEntry.tsUs (flaggedPages (page :: rest) {})
          ((prints limit polls start ticks).filter TickEntry.usable) := by
      rw [Separated, List.pairwise_cons, and_iff_right]
      · exact Iff.rfl
      · exact fun _ _ item inside => absurd inside List.not_mem_nil
    rw [first, ← and_assoc]
    refine and_congr_left fun _ => ?_
    rw [List.forall_mem_map]
    constructor
    · rintro ⟨reached, all⟩ item inside due_
      have usable := reached item inside due_
      exact ⟨all item inside usable, usable⟩
    · intro both
      refine ⟨fun item inside due_ => (both item inside due_).2, fun item inside due_ => ?_⟩
      obtain ⟨tick, found, low⟩ := due_
      exact (both item inside ⟨tick, (List.mem_filter.mp found).1, low⟩).1

/-- A silent merge of the executor's quotes, by the rows stored with both sides. -/
theorem silent_pgQuotes (pages : List (List BboEntry)) (marks : List TickEntry) :
    Silent Quote.tsUs TickEntry.tsUs (pages.map pgQuotes) marks ↔
      ∀ n page, pages[n]? = some page →
        (∀ early ∈ pages.take n, ∀ row ∈ early, row.quote.valid = false) →
          ∀ row ∈ page, row.quote.valid = true → ∀ tick ∈ marks.drop n, tick.tsUs < row.tsUs := by
  have empty (page : List BboEntry) :
      pgQuotes page = [] ↔ ∀ row ∈ page, row.quote.valid = false := by
    rw [pgQuotes, List.filter_eq_nil_iff, List.forall_mem_map]
    simp
  have items (page : List BboEntry) (holds : Quote → Prop) :
      (∀ item ∈ pgQuotes page, holds item) ↔
        ∀ row ∈ page, row.quote.valid = true → holds row.quote := by
    rw [pgQuotes]
    simp only [List.mem_filter, and_imp, List.forall_mem_map]
  have early (n : Nat) : (∀ early ∈ (pages.map pgQuotes).take n, early = []) ↔
      ∀ early ∈ pages.take n, ∀ row ∈ early, row.quote.valid = false := by
    rw [← List.map_take, List.forall_mem_map]
    simp only [empty]
  constructor
  · intro silent n page found before
    refine (items page _).mp (silent n (pgQuotes page) ?_ ((early n).mpr before))
    rw [List.getElem?_map, found]
    rfl
  · intro rows n page found before
    rw [List.getElem?_map, Option.map_eq_some_iff] at found
    obtain ⟨stored, here, rfl⟩ := found
    exact (items stored _).mpr (rows n stored here ((early n).mp before))

/-- Over every number of polls of unchanged tables the executor's events are those of the
paper engine, but for the ticks without a price or a size, exactly where the tables have
the same stream for both. -/
theorem same_stream_iff (limit polls : Nat) (start : ℤ) (ticks : List TickEntry)
    (bbo : List BboEntry) :
    ((PgFeed.poll limit ticks bbo)^[polls] (PgFeed.start start)).events =
        withoutMarks TickEntry.usable
          ((PaperFeed.poll limit ticks bbo)^[polls] (PaperFeed.start start)).events ↔
      SameStream limit polls start ticks bbo := by
  rw [SameStream]
  split
  next shown => exact same_stream_shown shown
  next hidden =>
    exact (same_stream_starved (not_not.mp hidden)).trans (silent_pgQuotes _ _)

/-- A side of one contract. -/
def oneLotSide (price : ℚ) (positive : 0 < price) : BboSide where
  price := price
  size := 1
  positive := positive

/-- A trade of one contract as the table holds it. -/
def oneLotTick (ts : Int64) : TickEntry := ((⟨"NQ", "CME", ts, 100, 1⟩, 0), true)

def bid100 : BboSide := oneLotSide 100 (by decide +kernel)

def ask101 : BboSide := oneLotSide 101 (by decide +kernel)

/-- A quote whose ask is missing is applied by the paper engine alone; and of three
quotes in pages of two the executor applies the third only after the tick that it is
due at. -/
theorem streams_diverge :
    ((PgFeed.poll 5000 [oneLotTick 15, oneLotTick 25]
          [⟨10, some bid100, some ask101⟩, ⟨20, some bid100, none⟩])^[1] (PgFeed.start 0)).events ≠
        withoutMarks TickEntry.usable
          ((PaperFeed.poll 5000 [oneLotTick 15, oneLotTick 25]
            [⟨10, some bid100, some ask101⟩, ⟨20, some bid100, none⟩])^[1]
            (PaperFeed.start 0)).events ∧
      ((PgFeed.poll 2 [oneLotTick 15]
          [⟨10, some bid100, some ask101⟩, ⟨11, some bid100, some ask101⟩,
            ⟨12, some bid100, some ask101⟩])^[1] (PgFeed.start 0)).events ≠
        withoutMarks TickEntry.usable
          ((PaperFeed.poll 2 [oneLotTick 15]
            [⟨10, some bid100, some ask101⟩, ⟨11, some bid100, some ask101⟩,
              ⟨12, some bid100, some ask101⟩])^[1] (PaperFeed.start 0)).events := by
  decide +kernel

end RithmicEngine
