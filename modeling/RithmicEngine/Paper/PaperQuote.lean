import RithmicEngine.Execution.OrbConfig
/-!
# The paper fleet's book and regime gates

The top of the book that the paper brokers share with the trend strategies, the
gates a configuration can put on an entry, the book exits and the fill model. The
session regime carries here also the readings that only its entry gate uses. A gate
answers with the reason it blocks for, the empty text for none.
-/
namespace RithmicEngine

/-- The configuration with the keys that the paper brokers read besides. -/
structure PaperConfig extends OrbConfig where
  maxDailyTrades : Int := 3
  lastEntryHour : Int := 13
  eodFlattenHour : Int := 15
  eodFlattenMin : Int := 55
  stopCooldownSecs : Int := 5
  sessionOpenHour : Int := 9
  sessionOpenMin : Int := 30
  fillModel : String := "last_slip"
  spreadGateTicks : ℚ := 0
  spreadGateRel : ℚ := 0
  imbalanceMin : ℚ := 0
  micropriceLead : Bool := false
  imbalanceMax : ℚ := 0
  bookExitFlip : ℚ := 0
  bookBeOnFlip : Bool := false
  bookTpImbalance : ℚ := 0
  bookTpMinPts : ℚ := 1
  bookSizeAgree : Int := 0
  fillWaitSecs : Int := 0
  rvolMin : ℚ := 0
  rvolMax : ℚ := 0
  rvolBars : Int := 20
  regimeMinRangeAtr : ℚ := 0
  regimeMaxRangeAtr : ℚ := 0
  regimeMinEff : ℚ := 0
  regimeMaxEff : ℚ := 0
  regimeMinMoveAtr : ℚ := 0
  regimeMaxMoveAtr : ℚ := 0
  regimeWithMove : Int := 0
  regimeMinMinutes : Int := 15
  deriving DecidableEq, Repr

/-! ## The top of the book -/

structure Quote where
  tsUs : Int := 0
  bid : ℚ := 0
  ask : ℚ := 0
  bidSz : Int := 0
  askSz : Int := 0
  deriving DecidableEq, Repr

namespace Quote

def valid (q : Quote) : Bool := decide (q.bid > 0) && decide (q.ask ≥ q.bid)

def mid (q : Quote) : ℚ := (q.bid + q.ask) / 2

def spreadTicks (tick : ℚ) (q : Quote) : ℚ := if tick > 0 then (q.ask - q.bid) / tick else 0

/-- The bid's share of the size at the touch. -/
def imbalance (q : Quote) : ℚ :=
  if q.bidSz + q.askSz > 0 then q.bidSz / (q.bidSz + q.askSz : Int) else 1 / 2

/-- The size-weighted price, nearer the thinner side. -/
def microprice (q : Quote) : ℚ :=
  if q.bidSz + q.askSz > 0 then
    (q.bid * q.askSz + q.ask * q.bidSz) / (q.bidSz + q.askSz : Int)
  else q.mid

end Quote

structure QuoteState where
  q : Quote := {}
  spreadEma : ℚ := 0
  deriving DecidableEq, Repr

namespace QuoteState

def onQuote (n : Quote) (tick : ℚ) (book : QuoteState) : QuoteState :=
  let s := n.spreadTicks tick
  { q := n
    spreadEma :=
      if book.spreadEma ≤ 0 then s else book.spreadEma + 2 / 100 * (s - book.spreadEma) }

/-- A quote more than five seconds away from the tick is no book. -/
def fresh (tsUs : Int) (book : QuoteState) : Bool :=
  book.q.valid && decide (tsUs - book.q.tsUs ≤ 5000000) && decide (book.q.tsUs - tsUs ≤ 5000000)

def anyGate (cfg : PaperConfig) : Bool :=
  decide (cfg.spreadGateTicks > 0) || decide (cfg.spreadGateRel > 0) ||
    decide (cfg.imbalanceMin > 0) || cfg.micropriceLead || decide (cfg.imbalanceMax > 0)

/-- The book leans the way of the direction. -/
def agrees (long : Bool) (book : QuoteState) : Bool :=
  if long then decide (book.q.imbalance ≥ 55 / 100) else decide (book.q.imbalance ≤ 45 / 100)

/-- A spread of one tick, or a book that leans the entry's way already. Without a
book there is nothing to wait for. -/
def fillReady (long : Bool) (tsUs : Int) (tick : ℚ) (book : QuoteState) : Bool :=
  if book.fresh tsUs = false then true
  else if book.q.spreadTicks tick ≤ 1 + 1 / 1000000000 then true
  else
    let lean := book.q.microprice - book.q.mid
    if long then decide (lean > 0) else decide (lean < 0)

/-- The book's reason to leave a position, empty to keep it. -/
def bookExit (cfg : PaperConfig) (long : Bool) (tsUs : Int) (pnlPts : ℚ) (book : QuoteState) :
    String :=
  if book.fresh tsUs = false then ""
  else
    let im := book.q.imbalance
    if cfg.bookExitFlip > 0 ∧
        (if long then im ≤ cfg.bookExitFlip else im ≥ 1 - cfg.bookExitFlip) then "book_flip"
    else if cfg.bookTpImbalance > 0 ∧ pnlPts ≥ cfg.bookTpMinPts ∧
        (if long then im ≥ cfg.bookTpImbalance else im ≤ 1 - cfg.bookTpImbalance) then "book_tp"
    else ""

def flippedAgainst (long : Bool) (tsUs : Int) (book : QuoteState) : Bool :=
  if book.fresh tsUs = false then false
  else if long then decide (book.q.imbalance ≤ 45 / 100)
  else decide (book.q.imbalance ≥ 55 / 100)

/-- The reason the book blocks an entry for, empty for none. -/
def gate (cfg : PaperConfig) (long : Bool) (tsUs : Int) (tick : ℚ) (book : QuoteState) : String :=
  let sp := book.q.spreadTicks tick
  let im := book.q.imbalance
  let lean := book.q.microprice - book.q.mid
  if anyGate cfg = false then ""
  else if book.fresh tsUs = false then "no_quote"
  else if cfg.spreadGateTicks > 0 ∧ sp > cfg.spreadGateTicks then "spread_ticks"
  else if cfg.spreadGateRel > 0 ∧ book.spreadEma > 0 ∧ sp > cfg.spreadGateRel * book.spreadEma then
    "spread_rel"
  else if cfg.imbalanceMin > 0 ∧
      (if long then im < cfg.imbalanceMin else im > 1 - cfg.imbalanceMin) then "imbalance"
  else if cfg.micropriceLead ∧ (if long then lean < 0 else lean > 0) then "microprice"
  -- The inverted gate: only when the book leans against the entry.
  else if cfg.imbalanceMax > 0 ∧
      (if long then im > cfg.imbalanceMax else im < 1 - cfg.imbalanceMax) then "imbalance_inv"
  else ""

/-- The fill of a market order at the touch, never better than the price it is held
against; without a book the fallback. -/
def marketFill (long : Bool) (tsUs : Int) (fallback adverseVs : ℚ) (book : QuoteState) : ℚ :=
  if book.fresh tsUs = false then fallback
  else
    let touch := if long then book.q.ask else book.q.bid
    if adverseVs > 0 then (if long then max touch adverseVs else min touch adverseVs) else touch

end QuoteState

/-! ## The session's shape as an entry gate -/

/-- The session regime with what its entry gate reads besides. -/
structure SessionRegime extends RegimeState where
  date : String := ""
  minutes : Int := 0
  lastUs : Int := 0
  volHist : List ℚ := []
  volCur : ℚ := 0
  volCurMin : Int := -1
  deriving DecidableEq, Repr

namespace SessionRegime

def reset (date : String) (r : SessionRegime) : SessionRegime :=
  { r with
    date := date
    opened := 0
    high := 0
    low := 0
    last := 0
    openUs := 0
    minutes := 0
    lastUs := 0 }

def setAtr (date : String) (atr : ℚ) (r : SessionRegime) : SessionRegime :=
  let r := if date ≠ r.date then r.reset date else r
  { r with atrPts := atr }

/-- The closed minutes with one more, at most 120 of them, the newest last. -/
def pushMinute (vol : ℚ) (hist : List ℚ) : List ℚ :=
  let longer := hist ++ [vol]
  if longer.length > 120 then longer.tail else longer

/-- The tick's volume, the minute before closed when the clock moved on. -/
def addVolume (minuteOfDay : Int) (size : ℚ) (r : SessionRegime) : SessionRegime :=
  if minuteOfDay ≠ r.volCurMin then
    { r with
      volHist := if r.volCurMin ≥ 0 then pushMinute r.volCur r.volHist else r.volHist
      volCur := size
      volCurMin := minuteOfDay }
  else { r with volCur := r.volCur + size }

/-- Take one tick. Outside regular hours only its volume counts. -/
def onTick (date : String) (etHour etMin tsUs : Int) (price size : ℚ) (r : SessionRegime) :
    SessionRegime :=
  let r := if date ≠ r.date then { r.reset date with atrPts := 0 } else r
  let r := r.addVolume (etHour * 60 + etMin) size
  let hhmm := etHour * 100 + etMin
  if hhmm < 930 ∨ hhmm ≥ 1600 then r
  else
    let r := if r.openUs = 0 then
        { r with opened := price, high := price, low := price, openUs := tsUs }
      else r
    { r with
      high := if price > r.high then price else r.high
      low := if price < r.low then price else r.low
      last := price
      lastUs := tsUs
      minutes := (tsUs - r.openUs).tdiv 60000000 }

def rangeAtr (r : SessionRegime) : ℚ :=
  if r.atrPts > 0 ∧ r.hasOpen then (r.high - r.low) / r.atrPts else 0

def moveAtr (r : SessionRegime) : ℚ :=
  if r.atrPts > 0 ∧ r.hasOpen then (r.last - r.opened) / r.atrPts else 0

/-- The last closed minute's volume over the mean of the minutes before it, negative
while there are too few of them. -/
def rvol (bars : Int) (r : SessionRegime) : ℚ :=
  let n := r.volHist.length
  if bars ≤ 0 ∨ (n : Int) < bars + 1 then -1
  else
    let before := (r.volHist.take (n - 1)).drop (n - 1 - bars.toNat)
    let avg := before.sum / bars
    if avg > 0 then r.volHist.getD (n - 1) 0 / avg else -1

def volumeGate (cfg : PaperConfig) : Bool := decide (cfg.rvolMin > 0) || decide (cfg.rvolMax > 0)

def needsAtr (cfg : PaperConfig) : Bool :=
  decide (cfg.regimeMinRangeAtr > 0) || decide (cfg.regimeMaxRangeAtr > 0) ||
    decide (cfg.regimeMinMoveAtr > 0) || decide (cfg.regimeMaxMoveAtr > 0)

def sessionGate (cfg : PaperConfig) : Bool :=
  needsAtr cfg || decide (cfg.regimeMinEff > 0) || decide (cfg.regimeMaxEff > 0) ||
    decide (cfg.regimeWithMove ≠ 0)

/-- The reason the relative volume blocks an entry for, empty for none. -/
def volumeReason (cfg : PaperConfig) (r : SessionRegime) : String :=
  let rv := r.rvol cfg.rvolBars
  if volumeGate cfg = false then ""
  else if rv < 0 then "rvol_warmup"
  else if cfg.rvolMin > 0 ∧ rv < cfg.rvolMin then "rvol_low"
  else if cfg.rvolMax > 0 ∧ rv > cfg.rvolMax then "rvol_high"
  else ""

/-- The side the session has moved to. -/
def moveSide (r : SessionRegime) : Int :=
  if r.last > r.opened then 1 else if r.last < r.opened then -1 else 0

/-- The reason the session's shape blocks an entry for, empty for none. A reading
that is asked for and missing blocks. -/
def sessionReason (cfg : PaperConfig) (long : Bool) (r : SessionRegime) : String :=
  let ra := r.rangeAtr
  let mv := r.moveAtr
  let side := r.moveSide
  let dir : Int := if long then 1 else -1
  if sessionGate cfg = false then ""
  else if r.hasOpen = false then "regime_no_open"
  else if r.minutes < cfg.regimeMinMinutes then "regime_warmup"
  else if needsAtr cfg ∧ r.atrPts ≤ 0 then "regime_no_atr"
  else if cfg.regimeMinRangeAtr > 0 ∧ ra < cfg.regimeMinRangeAtr then "regime_range_low"
  else if cfg.regimeMaxRangeAtr > 0 ∧ ra > cfg.regimeMaxRangeAtr then "regime_range_high"
  else if cfg.regimeMinEff > 0 ∧ r.eff < cfg.regimeMinEff then "regime_eff_low"
  else if cfg.regimeMaxEff > 0 ∧ r.eff > cfg.regimeMaxEff then "regime_eff_high"
  else if cfg.regimeMinMoveAtr > 0 ∧ |mv| < cfg.regimeMinMoveAtr then "regime_move_small"
  else if cfg.regimeMaxMoveAtr > 0 ∧ |mv| > cfg.regimeMaxMoveAtr then "regime_move_extended"
  else if cfg.regimeWithMove ≠ 0 ∧ side = 0 then "regime_no_move"
  else if cfg.regimeWithMove > 0 ∧ side ≠ dir then "regime_against_move"
  else if cfg.regimeWithMove < 0 ∧ side = dir then "regime_with_move"
  else ""

/-- The relative volume is asked first: it needs neither an open session nor a range. -/
def gate (cfg : PaperConfig) (long : Bool) (r : SessionRegime) : String :=
  if r.volumeReason cfg ≠ "" then r.volumeReason cfg else r.sessionReason cfg long

end SessionRegime

end RithmicEngine
