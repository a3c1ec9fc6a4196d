import Mathlib.Algebra.Order.Group.MinMax
import Mathlib.Tactic.FieldSimp
import Mathlib.Tactic.Ring
import RithmicEngine.Base.Reflection
import RithmicEngine.Paper.PaperQuote
/-!
# The gates in a mirror

A market is reflected by taking every price to its difference from one constant and
swapping the two sides of the book. Each gate, book exit and fill of one side of the
market answers there as it answers for the other side here, and the session's shape
reads the same except for the sign of its move. A book is compared once it has two
sides, a session once it has opened.
-/
namespace RithmicEngine

open TrailingStop (Inside)

/-! ## The top of the book -/

/-- The quote with every price reflected and the two sides swapped. -/
def Quote.mirror (K : ℚ) (q : Quote) : Quote where
  tsUs := q.tsUs
  bid := K - q.ask
  ask := K - q.bid
  bidSz := q.askSz
  askSz := q.bidSz

namespace Quote

variable (K : ℚ) (q : Quote)

theorem mirror_valid {q : Quote} (bid : Inside K q.bid) (ask : Inside K q.ask) :
    (q.mirror K).valid = q.valid := by
  simp only [valid, mirror, bid.positive, ask.reflect.positive, decide_true, Bool.true_and,
    ge_iff_le, sub_le_sub_iff_left]

theorem mirror_spreadTicks (tick : ℚ) : (q.mirror K).spreadTicks tick = q.spreadTicks tick := by
  simp only [spreadTicks, mirror, sub_sub_sub_cancel_left]

/-- The ask's share of the size is the rest of the bid's. -/
theorem mirror_imbalance : (q.mirror K).imbalance = 1 - q.imbalance := by
  simp only [imbalance, mirror, add_comm q.askSz q.bidSz]
  split
  · next some =>
    have total : ((q.bidSz + q.askSz : Int) : ℚ) ≠ 0 := Int.cast_ne_zero.mpr (by omega)
    rw [eq_sub_iff_add_eq, ← add_div, ← Int.cast_add, add_comm q.askSz q.bidSz, div_self total]
  · norm_num

theorem mirror_mid : (q.mirror K).mid = K - q.mid := by
  simp only [mid, mirror]
  ring

theorem mirror_microprice : (q.mirror K).microprice = K - q.microprice := by
  simp only [microprice, mirror_mid]
  simp only [mirror, add_comm q.askSz q.bidSz]
  split
  · next some =>
    have total : ((q.bidSz + q.askSz : Int) : ℚ) ≠ 0 := Int.cast_ne_zero.mpr (by omega)
    field_simp
    push_cast
    ring
  · rfl

end Quote

/-- A fresh book that agrees with the other side is flipped against this one. -/
theorem QuoteState.flippedAgainst_agrees (long : Bool) (tsUs : Int) (book : QuoteState) :
    book.flippedAgainst long tsUs = (book.fresh tsUs && book.agrees (!long)) := by
  by_cases current : book.fresh tsUs = true
  · cases long with
    | true => simp [flippedAgainst, agrees, current]
    | false => simp [flippedAgainst, agrees, current]
  · simp only [Bool.not_eq_true] at current
    simp [flippedAgainst, current]

/-- The share of the size at the touch that is on a side's own half of the book. -/
def bookShare (long : Bool) (im : ℚ) : ℚ := if long then im else 1 - im

section Share

variable (long : Bool) (im x : ℚ)

theorem share_mirror : bookShare (!long) (1 - im) = bookShare long im := by
  cases long with
  | true => exact sub_sub_cancel 1 im
  | false => rfl

theorem share_lt : (if long = true then im < x else im > 1 - x) ↔ bookShare long im < x := by
  cases long with
  | true => exact Iff.rfl
  | false => exact sub_lt_comm

theorem share_gt : (if long = true then im > x else im < 1 - x) ↔ x < bookShare long im := by
  cases long with
  | true => exact Iff.rfl
  | false => exact lt_sub_comm

theorem share_le : (if long = true then im ≤ x else im ≥ 1 - x) ↔ bookShare long im ≤ x := by
  cases long with
  | true => exact Iff.rfl
  | false => exact sub_le_comm

theorem share_ge : (if long = true then im ≥ x else im ≤ 1 - x) ↔ x ≤ bookShare long im := by
  cases long with
  | true => exact Iff.rfl
  | false => exact le_sub_comm

end Share

/-- One book reads as the other's reflection. -/
structure QuoteState.Mirrors (K : ℚ) (book book' : QuoteState) : Prop where
  tsUs : book'.q.tsUs = book.q.tsUs
  valid : book'.q.valid = book.q.valid
  spreadEma : book'.spreadEma = book.spreadEma
  spreadTicks : ∀ tick, book'.q.spreadTicks tick = book.q.spreadTicks tick
  imbalance : book'.q.imbalance = 1 - book.q.imbalance
  lean : book'.q.microprice - book'.q.mid = -(book.q.microprice - book.q.mid)
  bid : book.q.valid = true → book'.q.bid = K - book.q.ask ∧ Inside K book.q.bid
  ask : book.q.valid = true → book'.q.ask = K - book.q.bid ∧ Inside K book.q.ask

namespace QuoteState.Mirrors

variable {K : ℚ} {book book' : QuoteState}

/-- Before the first quote both books are empty. -/
theorem empty (K : ℚ) : Mirrors K {} {} where
  tsUs := rfl
  valid := rfl
  spreadEma := rfl
  spreadTicks := fun _ => rfl
  imbalance := by decide +kernel
  lean := by decide +kernel
  bid := fun two => by simp only [Quote.valid, gt_iff_lt, lt_self_iff_false, decide_false,
    Bool.false_and, Bool.false_eq_true] at two
  ask := fun two => by simp only [Quote.valid, gt_iff_lt, lt_self_iff_false, decide_false,
    Bool.false_and, Bool.false_eq_true] at two

/-- Mirrored quotes keep the books mirrored. -/
theorem onQuote (m : Mirrors K book book') {q : Quote} (bid : Inside K q.bid)
    (ask : Inside K q.ask) (tick : ℚ) :
    Mirrors K (book.onQuote q tick) (book'.onQuote (q.mirror K) tick) where
  tsUs := rfl
  valid := Quote.mirror_valid K bid ask
  spreadEma := by
    simp only [QuoteState.onQuote, m.spreadEma, Quote.mirror_spreadTicks]
  spreadTicks := Quote.mirror_spreadTicks K q
  imbalance := Quote.mirror_imbalance K q
  lean := by
    have reflected : (q.mirror K).microprice - (q.mirror K).mid = -(q.microprice - q.mid) := by
      rw [Quote.mirror_microprice, Quote.mirror_mid]
      ring
    exact reflected
  bid := fun _ => ⟨rfl, bid⟩
  ask := fun _ => ⟨rfl, ask⟩

variable (m : Mirrors K book book')

include m

variable (long : Bool) (tsUs : Int)

theorem fresh : book'.fresh tsUs = book.fresh tsUs := by
  simp only [QuoteState.fresh, m.valid, m.tsUs]

omit m in
theorem valid_of_fresh {tsUs : Int} (current : book.fresh tsUs = true) : book.q.valid = true := by
  simp only [QuoteState.fresh, Bool.and_eq_true] at current
  exact current.1.1

/-- The mirrored book agrees with the other side where the book agrees with the side. -/
theorem agrees : book'.agrees (!long) = book.agrees long := by
  cases long with
  | true =>
    simp only [QuoteState.agrees, Bool.not_true, Bool.false_eq_true, ↓reduceIte, m.imbalance,
      decide_eq_decide]
    constructor
    · intro light
      linarith
    · intro heavy
      linarith
  | false =>
    simp only [QuoteState.agrees, Bool.not_false, Bool.false_eq_true, ↓reduceIte, m.imbalance,
      decide_eq_decide]
    constructor
    · intro heavy
      linarith
    · intro light
      linarith

theorem flippedAgainst : book'.flippedAgainst (!long) tsUs = book.flippedAgainst long tsUs := by
  have turned : book'.agrees (!!long) = book.agrees (!long) := m.agrees (!long)
  rw [QuoteState.flippedAgainst_agrees, QuoteState.flippedAgainst_agrees, m.fresh, turned]

theorem fillReady (tick : ℚ) :
    book'.fillReady (!long) tsUs tick = book.fillReady long tsUs tick := by
  simp only [QuoteState.fillReady, m.fresh, m.spreadTicks, m.lean]
  cases long with
  | true => simp only [Bool.not_true, Bool.false_eq_true, ↓reduceIte, gt_iff_lt, neg_lt_zero]
  | false => simp

theorem bookExit (cfg : PaperConfig) (long : Bool) (tsUs : Int) (pnlPts : ℚ) :
    book'.bookExit cfg (!long) tsUs pnlPts = book.bookExit cfg long tsUs pnlPts := by
  simp only [QuoteState.bookExit, m.fresh, m.imbalance, share_le, share_ge, share_mirror]

/-- The gates of mirrored books decide alike. -/
theorem gate (cfg : PaperConfig) (long : Bool) (tsUs : Int) (tick : ℚ) :
    book'.gate cfg (!long) tsUs tick = book.gate cfg long tsUs tick := by
  have leans : (if (!long) = true then -(book.q.microprice - book.q.mid) < 0
      else -(book.q.microprice - book.q.mid) > 0) ↔
      (if long = true then book.q.microprice - book.q.mid < 0
        else book.q.microprice - book.q.mid > 0) := by
    cases long with
    | true => simp
    | false => simp only [Bool.not_false, Bool.false_eq_true, ↓reduceIte, gt_iff_lt, neg_lt_zero]
  simp only [QuoteState.gate, m.fresh, m.spreadTicks, m.spreadEma, m.imbalance, m.lean, leans,
    share_lt, share_gt, share_mirror]

/-- A market order that is held against a price inside. -/
theorem marketFill (fallback : ℚ) {adverseVs : ℚ}
    (inside : book.fresh tsUs = true → Inside K adverseVs) :
    book'.marketFill (!long) tsUs (K - fallback) (K - adverseVs) =
      K - book.marketFill long tsUs fallback adverseVs := by
  by_cases current : book.fresh tsUs = true
  · have two : book.q.valid = true := valid_of_fresh current
    have held : Inside K adverseVs := inside current
    simp only [QuoteState.marketFill, m.fresh, current, Bool.true_eq_false, ↓reduceIte, gt_iff_lt,
      held.positive, held.reflect.positive, (m.bid two).1, (m.ask two).1]
    cases long with
    | true => simp [min_sub_sub_left]
    | false => simp [max_sub_sub_left]
  · simp only [Bool.not_eq_true] at current
    simp [QuoteState.marketFill, m.fresh, current]

omit m in
/-- Such an order fills inside as well, when there is a book. -/
theorem marketFill_inside (m : Mirrors K book book') (long : Bool) {tsUs : Int} (fallback : ℚ)
    {adverseVs : ℚ} (current : book.fresh tsUs = true) (inside : Inside K adverseVs) :
    Inside K (book.marketFill long tsUs fallback adverseVs) := by
  have two : book.q.valid = true := valid_of_fresh current
  simp only [QuoteState.marketFill, current, Bool.true_eq_false, ↓reduceIte, gt_iff_lt,
    inside.positive]
  cases long with
  | true => exact (m.ask two).2.max inside
  | false => exact (m.bid two).2.min inside

end QuoteState.Mirrors

/-! ## The session's shape -/

/-- What a tick of regular hours does to a session. -/
def SessionRegime.onRegular (tsUs : Int) (price : ℚ) (r : SessionRegime) : SessionRegime :=
  let r := if r.openUs = 0 then
      { r with opened := price, high := price, low := price, openUs := tsUs }
    else r
  { r with
    high := if price > r.high then price else r.high
    low := if price < r.low then price else r.low
    last := price
    lastUs := tsUs
    minutes := (tsUs - r.openUs).tdiv 60000000 }

/-- A tick rolls the date, adds its volume, and in regular hours moves the session. -/
theorem SessionRegime.onTick_eq (date : String) (etHour etMin tsUs : Int) (price size : ℚ)
    (r : SessionRegime) :
    r.onTick date etHour etMin tsUs price size =
      (let traded := (if date ≠ r.date then { r.reset date with atrPts := 0 } else r).addVolume
          (etHour * 60 + etMin) size
       if etHour * 100 + etMin < 930 ∨ etHour * 100 + etMin ≥ 1600 then traded
       else traded.onRegular tsUs price) :=
  rfl

/-- One session reads as the other's reflection. -/
structure SessionRegime.Mirrors (K : ℚ) (r r' : SessionRegime) : Prop where
  date : r'.date = r.date
  atrPts : r'.atrPts = r.atrPts
  openUs : r'.openUs = r.openUs
  minutes : r'.minutes = r.minutes
  lastUs : r'.lastUs = r.lastUs
  volHist : r'.volHist = r.volHist
  volCur : r'.volCur = r.volCur
  volCurMin : r'.volCurMin = r.volCurMin
  opened : r.openUs ≠ 0 → r'.opened = K - r.opened
  last : r.openUs ≠ 0 → r'.last = K - r.last
  high : r.openUs ≠ 0 → r'.high = K - r.low
  low : r.openUs ≠ 0 → r'.low = K - r.high

namespace SessionRegime.Mirrors

variable {K : ℚ} {r r' : SessionRegime}

/-- Before the open both sessions are alike. -/
theorem before_open (K : ℚ) (r : SessionRegime) (closed : r.openUs = 0) : Mirrors K r r where
  date := rfl
  atrPts := rfl
  openUs := rfl
  minutes := rfl
  lastUs := rfl
  volHist := rfl
  volCur := rfl
  volCurMin := rfl
  opened := fun opened => absurd closed opened
  last := fun opened => absurd closed opened
  high := fun opened => absurd closed opened
  low := fun opened => absurd closed opened

theorem reset (m : Mirrors K r r') (date : String) : Mirrors K (r.reset date) (r'.reset date) :=
  { m with
    date := rfl
    openUs := rfl
    minutes := rfl
    lastUs := rfl
    opened := fun opened => absurd rfl opened
    last := fun opened => absurd rfl opened
    high := fun opened => absurd rfl opened
    low := fun opened => absurd rfl opened }

theorem setAtr (m : Mirrors K r r') (date : String) (atr : ℚ) :
    Mirrors K (r.setAtr date atr) (r'.setAtr date atr) := by
  simp only [SessionRegime.setAtr, m.date]
  split
  · exact { m.reset date with atrPts := rfl }
  · exact { m with atrPts := rfl }

theorem addVolume (m : Mirrors K r r') (minuteOfDay : Int) (size : ℚ) :
    Mirrors K (r.addVolume minuteOfDay size) (r'.addVolume minuteOfDay size) := by
  simp only [SessionRegime.addVolume, m.volCurMin, m.volHist, m.volCur]
  split
  · exact { m with volHist := rfl, volCur := rfl, volCurMin := rfl }
  · exact { m with volHist := rfl, volCur := rfl, volCurMin := rfl }

/-- A tick of regular hours opens the session, or extends it. -/
theorem onRegular (m : Mirrors K r r') (tsUs : Int) (price : ℚ) :
    Mirrors K (r.onRegular tsUs price) (r'.onRegular tsUs (K - price)) := by
  by_cases closed : r.openUs = 0
  · have closed' : r'.openUs = 0 := m.openUs.trans closed
    simp only [SessionRegime.onRegular, closed, closed', ↓reduceIte, gt_iff_lt, lt_self_iff_false]
    exact { m with
      openUs := rfl
      minutes := rfl
      lastUs := rfl
      opened := fun _ => rfl
      last := fun _ => rfl
      high := fun _ => rfl
      low := fun _ => rfl }
  · have opened' : r'.openUs ≠ 0 := fun shut => closed (m.openUs.symm.trans shut)
    simp only [SessionRegime.onRegular, closed, opened', ↓reduceIte]
    exact { m with
      minutes := by rw [m.openUs]
      lastUs := rfl
      last := fun _ => rfl
      high := fun opened => by
        simp only [m.high opened, gt_iff_lt, sub_lt_sub_iff_left]
        split
        · rfl
        · rfl
      low := fun opened => by
        simp only [m.low opened, gt_iff_lt, sub_lt_sub_iff_left]
        split
        · rfl
        · rfl }

/-- A tick of the session mirrors. -/
theorem onTick (m : Mirrors K r r') (date : String) (etHour etMin tsUs : Int) (price size : ℚ) :
    Mirrors K (r.onTick date etHour etMin tsUs price size)
      (r'.onTick date etHour etMin tsUs (K - price) size) := by
  have rolled : Mirrors K (if date ≠ r.date then { r.reset date with atrPts := 0 } else r)
      (if date ≠ r'.date then { r'.reset date with atrPts := 0 } else r') := by
    rw [m.date]
    split
    · exact { m.reset date with atrPts := rfl }
    · exact m
  have traded := rolled.addVolume (etHour * 60 + etMin) size
  simp only [onTick_eq]
  split
  · exact traded
  · exact traded.onRegular tsUs price

variable (m : Mirrors K r r')

include m

theorem hasOpen : r'.hasOpen = r.hasOpen := by
  simp only [RegimeState.hasOpen, m.openUs]

theorem rangePts : r'.rangePts = r.rangePts := by
  simp only [RegimeState.rangePts, m.hasOpen]
  split
  · next opened =>
    have since : r.openUs ≠ 0 := of_decide_eq_true opened
    rw [m.high since, m.low since, sub_sub_sub_cancel_left]
  · rfl

/-- The session has moved the other way. -/
theorem moved (opened : r.openUs ≠ 0) : r'.last - r'.opened = -(r.last - r.opened) := by
  rw [m.last opened, m.opened opened, sub_sub_sub_cancel_left, neg_sub]

theorem eff : r'.eff = r.eff := by
  simp only [RegimeState.eff, m.rangePts]
  by_cases opened : r.openUs = 0
  · have flat : r.rangePts = 0 := by
      simp [RegimeState.rangePts, RegimeState.hasOpen, opened]
    simp only [flat, gt_iff_lt, lt_self_iff_false, ↓reduceIte]
  · rw [m.moved opened, abs_neg]

theorem rangeAtr : r'.rangeAtr = r.rangeAtr := by
  simp only [SessionRegime.rangeAtr, m.hasOpen, m.atrPts]
  split
  · next read =>
    have since : r.openUs ≠ 0 := of_decide_eq_true read.2
    rw [m.high since, m.low since, sub_sub_sub_cancel_left]
  · rfl

theorem moveAtr : r'.moveAtr = -r.moveAtr := by
  simp only [SessionRegime.moveAtr, m.hasOpen, m.atrPts]
  split
  · next read => rw [m.moved (of_decide_eq_true read.2), neg_div]
  · exact neg_zero.symm

theorem moveSide (opened : r.hasOpen = true) : r'.moveSide = -r.moveSide := by
  have since : r.openUs ≠ 0 := of_decide_eq_true opened
  simp only [SessionRegime.moveSide, m.last since, m.opened since, gt_iff_lt,
    sub_lt_sub_iff_left]
  split_ifs with fell rose
  · exact absurd rose fell.not_gt
  · rfl
  · rfl
  · rfl

theorem exitTrend (cfg : OrbConfig) :
    RegimeState.exitTrend cfg (some r'.toRegimeState) =
      RegimeState.exitTrend cfg (some r.toRegimeState) := by
  simp only [RegimeState.exitTrend, m.hasOpen, m.eff]

variable (cfg : PaperConfig)

theorem volumeReason : r'.volumeReason cfg = r.volumeReason cfg := by
  simp only [SessionRegime.volumeReason, SessionRegime.rvol, m.volHist]

/-- The session gives the same reason for the mirrored side. -/
theorem sessionReason (long : Bool) : r'.sessionReason cfg (!long) = r.sessionReason cfg long := by
  by_cases opened : r.hasOpen = true
  · have turned : (if (!long) = true then (1 : Int) else -1) =
      -(if long = true then 1 else -1) := by
      cases long with
      | true => rfl
      | false => rfl
    simp only [SessionRegime.sessionReason, m.hasOpen, m.minutes, m.atrPts, m.rangeAtr, m.eff,
      m.moveAtr, m.moveSide opened, abs_neg, turned, neg_eq_zero, ne_eq, neg_inj]
  · simp only [Bool.not_eq_true] at opened
    simp [SessionRegime.sessionReason, m.hasOpen, opened]

theorem gate (long : Bool) : r'.gate cfg (!long) = r.gate cfg long := by
  simp only [SessionRegime.gate, m.volumeReason, m.sessionReason]

end SessionRegime.Mirrors

end RithmicEngine
