import RithmicEngine.Execution.TrendConfig
/-!
# The trend engine's gate and its host's calls

What every mode shares: the entry gate, the call of the host's signal callback, and the
one shape in which most of them enter, on one side or else on the other. Then what the
host calls: halts, seeds, closes, quotes, the check of the window's end and the restart of
the session, and the profile that is made as the session ends. Log lines are left out.
-/
namespace RithmicEngine

/-! ## The clock -/

/-- The minute of the day as hhmm, and back. -/
def hhmmOf (mod : Int) : Int := mod.tdiv 60 * 100 + mod.tmod 60

def modOf (hhmm : Int) : Int := hhmm.tdiv 100 * 60 + hhmm.tmod 100

namespace TrendConfig

/-- The entry window; one that ends before it starts wraps midnight. -/
def inWindow (hhmm : Int) (cfg : TrendConfig) : Bool :=
  if cfg.winStart ≤ cfg.winEnd then decide (hhmm ≥ cfg.winStart) && decide (hhmm < cfg.winEnd)
  else decide (hhmm ≥ cfg.winStart) || decide (hhmm < cfg.winEnd)

/-- The session that the levels are anchored to. -/
def inSession (mod : Int) (cfg : TrendConfig) : Bool :=
  if cfg.session = "globex" then !(decide (mod ≥ 17 * 60) && decide (mod < 18 * 60))
  else if cfg.session = "window" then cfg.inWindow (hhmmOf mod)
  else decide (mod ≥ 9 * 60 + 30) && decide (mod < 16 * 60)

/-- The time lies at or past the end of the entry window. -/
def pastEnd (hhmm : Int) (cfg : TrendConfig) : Bool :=
  if cfg.winStart ≤ cfg.winEnd then decide (hhmm ≥ cfg.winEnd)
  else decide (hhmm ≥ cfg.winEnd) && decide (hhmm < cfg.winStart)

end TrendConfig

def SessionLevels.vwap (day : SessionLevels) : ℚ :=
  if day.vwapV > 0 then day.vwapPv / day.vwapV else 0

/-- What the modes of a session start with. -/
def SessionModes.start : SessionModes where
  ortHi := -doubleMax
  ortLo := doubleMax
  nbHi := -doubleMax
  nbLo := doubleMax
  ibHi := -doubleMax
  ibLo := doubleMax

/-- The session of the day before becomes the one that the levels refer to. -/
def SessionLevels.roll (day : SessionLevels) : SessionLevels where
  havePrev := day.havePrev || day.rthSeen
  rthOpen := day.rthOpen
  rthClose := day.rthClose
  rthOpenMod := day.rthOpenMod
  prevHi := if day.rthSeen then day.dayHi else day.prevHi
  prevLo := if day.rthSeen then day.dayLo else day.prevLo
  prevClose := if day.rthSeen then day.rthClose else day.prevClose

/-- Append to a history that drops its oldest above so many. -/
def pushCapped {α : Type} (cap : Nat) (x : α) (xs : List α) : List α :=
  if xs.length + 1 > cap then (xs ++ [x]).drop 1 else xs ++ [x]

namespace TrendStrategy

variable (m : TrendMoment)

/-! ## The gate -/

def canEnter (dir : SignType) (s : TrendStrategy) : Bool :=
  if s.sess.inPosition = true ∨ s.sess.riskHalted = true then false
  else if m.tc.inWindow m.hhmm = false then false
  else if s.sess.tradesToday ≥ m.maxDailyTrades then false
  else if dir > 0 ∧ m.tc.allowLongs = false then false
  else if dir < 0 ∧ m.tc.allowShorts = false then false
  else if m.tc.htfTfMin > 0 then
    if s.htf.ema ≤ 0 ∨ s.htf.n < m.tc.htfEma then false
    else if dir > 0 ∧ (s.htf.close : Double) ≤ s.htf.ema then false
    else if dir < 0 ∧ s.htf.ema ≤ (s.htf.close : Double) then false
    else true
  else true

/-- The trade closed. -/
def notifyTradeFilled (s : TrendStrategy) : TrendStrategy :=
  { s with
    sess := { s.sess with inPosition := false }
    posDir := 0
    entryTs := 0
    marks := s.marks ++ [.closed] }

/-- What the host is called with. -/
def calling (sig : OrbSignal) (px : ℚ) (why : String) (s : TrendStrategy) : TrendCall where
  sig := sig
  price := px
  reason := why
  hhmm := m.hhmm
  sess := s.sess
  htf := s.htf

/-- Call the host, which may tell of a close before it returns. -/
def callBack (sig : OrbSignal) (px : ℚ) (why : String) (s : TrendStrategy) : TrendStrategy :=
  let c := s.calling m sig px why
  let s := { s with marks := s.marks ++ [TrendMark.call c] }
  if m.closes c then s.notifyTradeFilled else s

/-- The strategy counts itself into the position that it signalled. -/
def takePosition (dir : SignType) (px : ℚ) (s : TrendStrategy) : TrendStrategy :=
  { s with
    sess := { s.sess with inPosition := true, tradesToday := s.sess.tradesToday + 1 }
    posDir := dir
    entryTs := s.lastTs
    bestPx := px }

def emit (sig : OrbSignal) (px : ℚ) (why : String) (s : TrendStrategy) : TrendStrategy :=
  match sig with
  | .buy => (s.callBack m .buy px why).takePosition 1 px
  | .sell => (s.callBack m .sell px why).takePosition (-1) px
  | .none => s.callBack m .none px why
  | .flattenEod => s.callBack m .flattenEod px why

/-- The signal of an entry on a side. -/
def sideSignal (dir : SignType) : OrbSignal := if dir > 0 then .buy else .sell

/-- Enter on the first side where its condition holds and the gate admits it, else on the
other. What the mode notes of an entry it notes before the signal. -/
def eitherSide (first : SignType) (cond other : Bool) (px : ℚ) (why otherWhy : String)
    (noted : SignType → TrendStrategy → TrendStrategy) (s : TrendStrategy) : TrendStrategy :=
  if cond = true ∧ s.canEnter m first = true then
    (noted first s).emit m (sideSignal first) px why
  else if other = true ∧ s.canEnter m (-first) = true then
    (noted (-first) s).emit m (sideSignal (-first)) px otherWhy
  else s

/-- A mode that notes nothing of its entries. -/
def unnoted (_ : SignType) (s : TrendStrategy) : TrendStrategy := s

/-- Enter on a side if the gate admits it. -/
def enter (dir : SignType) (px : ℚ) (why : String) (s : TrendStrategy) : TrendStrategy :=
  s.eitherSide m dir true false px why why unnoted

/-! ## The volume profile -/

def volumeAt (bins : Histogram) (px : Int) : Option ℚ :=
  (bins.find? fun bin => decide (bin.1 = px)).map (·.2)

/-- The first of the heaviest bins, with its volume. -/
def heaviest (bins : Histogram) (first : Int) : Int × ℚ :=
  bins.foldl (fun best bin => if bin.2 > best.2 then bin else best) (first, -1)

/-- Widen the area toward the heavier of its two neighbours, until it holds this part of
the total or has no neighbour. There is no result where the steps run out. -/
def expand (bins : Histogram) (frac : Double) (total : ℚ) :
    Nat → Int → Int → ℚ → Option (Int × Int × ℚ)
  | 0, _, _, _ => none
  | steps + 1, lo, hi, inside =>
    if (inside : Double) < frac * (total : Double) then
      let uv := (volumeAt bins (hi + 1)).getD (-1)
      let dv := (volumeAt bins (lo - 1)).getD (-1)
      if uv < 0 ∧ dv < 0 then some (lo, hi, inside)
      else if uv ≥ dv then expand bins frac total steps lo (hi + 1) (inside + uv)
      else expand bins frac total steps (lo - 1) hi (inside + dv)
    else some (lo, hi, inside)

/-- The value area of a histogram: its lowest and its highest bin, the bin of the point of
control, and the volume inside. -/
def valueArea (frac : Double) (bins : Histogram) : Option (Int × Int × Int × ℚ) :=
  match bins with
  | [] => none
  | (first, _) :: _ =>
    let total := (bins.map (·.2)).sum
    let (poc, pv) := heaviest bins first
    (expand bins frac total bins.length poc poc pv).map fun (lo, hi, inside) =>
      (lo, poc, hi, inside)

/-- The session's histogram becomes the profile of the day before. -/
def finalizeProfile (frac : Double) (s : TrendStrategy) : TrendStrategy :=
  match valueArea frac s.vp.cur with
  | none => s
  | some (lo, poc, hi, _) =>
    { s with
      vp := { cur := [], poc := poc + 1 / 2, vah := hi + 1, val := lo, ready := true }
      session := { s.session with vpUsedLong := false, vpUsedShort := false, vpDir := 0 } }

/-- Add to the volume of a bin. -/
def addVolume (px : Int) (volume : ℚ) : Histogram → Histogram
  | [] => [(px, volume)]
  | bin :: rest =>
    if px < bin.1 then (px, volume) :: bin :: rest
    else if px = bin.1 then (px, bin.2 + volume) :: rest
    else bin :: addVolume px volume rest

/-- Spread a bar's volume evenly over the bins of its range. -/
def addBar (b : Bar) (bins : Histogram) : Histogram :=
  let lo := ⌊b.l⌋
  let hi := ⌊b.h⌋
  let per := b.v / (hi - lo + 1)
  (List.range (hi - lo + 1).toNat).foldl (fun bins k => addVolume (lo + k) per bins) bins

/-! ## The host's calls -/

def haltTrading (why : String) (s : TrendStrategy) : TrendStrategy :=
  { s with sess := { s.sess with riskHalted := true, haltReason := why } }

def unhaltTrading (s : TrendStrategy) : TrendStrategy :=
  if s.sess.riskHalted = false then s
  else { s with sess := { s.sess with riskHalted := false, haltReason := "" } }

def seedTradesToday (n : Int) (s : TrendStrategy) : TrendStrategy :=
  { s with sess := { s.sess with tradesToday := n }, marks := s.marks ++ [.seeded n] }

/-- A position that the host has resumed. -/
def seedOpenPosition (dir : OrbSignal) (entryTsUs : Int) (s : TrendStrategy) : TrendStrategy :=
  { s with
    sess := { s.sess with inPosition := true }
    posDir := if dir = .buy then 1 else -1
    entryTs := entryTsUs }

def onReferenceBar (close : ℚ) (s : TrendStrategy) : TrendStrategy :=
  { s with refCloses := pushCapped 400 close s.refCloses }

def setEventDay (on : Bool) (s : TrendStrategy) : TrendStrategy := { s with eventDay := on }

def setEventNextDay (on : Bool) (s : TrendStrategy) : TrendStrategy := { s with eventNextDay := on }

def setDayAtr (pts : Double) (s : TrendStrategy) : TrendStrategy := { s with dayAtr := pts }

/-- The window's end flattens a position, once. -/
def checkEod (s : TrendStrategy) : TrendStrategy :=
  if m.tc.pastEnd m.hhmm = true ∧ s.sess.inPosition = true ∧ s.eodEmitted = false then
    { s with eodEmitted := true }.emit m .flattenEod s.lastPx "session_end"
  else s

/-- The trading day rolls. In the hold mode an open position lives on. -/
def resetSession (cfg : TrendConfig) (s : TrendStrategy) : TrendStrategy :=
  let keepPos := decide (cfg.mode = "hold") && s.sess.inPosition
  { s with
    sess := { inPosition := keepPos }
    entryTs := if keepPos then s.entryTs else 0
    posDir := if keepPos then s.posDir else 0
    bestPx := 0
    eodEmitted := false
    day := SessionLevels.roll s.day
    session := SessionModes.start
    modes := {
      squeezeCount := s.modes.squeezeCount
      stDir := s.modes.stDir
      stUp := s.modes.stUp
      stDn := s.modes.stDn
      fbLevel := s.modes.fbLevel }
    marks := s.marks ++ [.restarted keepPos] }

/-- The heavier side of the book, and since when it is that. -/
def noteImbalance (side : SignType) (tsUs : Int) (mid : ℚ) (s : TrendStrategy) : TrendStrategy :=
  { s with
    modes := if side ≠ s.modes.imbDir then { s.modes with imbDir := side, imbSince := tsUs }
      else s.modes
    lastPx := mid
    lastTs := tsUs }

/-- The top of the book, on which one mode alone decides. -/
def onQuote (tsUs : Int) (bid : ℚ) (bidSz : Int) (ask : ℚ) (askSz : Int) (tick : ℚ)
    (s : TrendStrategy) : TrendStrategy :=
  if m.tc.mode ≠ "book_imbalance" ∨ bid ≤ 0 ∨ ask < bid then s
  else
    let n := int32 (bidSz + askSz)
    if n ≤ 0 then s
    else
      let raw : Double := ((bidSz / n : ℚ) : Double)
      let spread := ((ask - bid : ℚ) : Double) / (tick : Double)
      let mid := (bid + ask) / 2
      let imb := if m.tc.biInvert then 1 - raw else raw
      let side : SignType :=
        if m.tc.biMin ≤ imb then 1 else if imb ≤ 1 - m.tc.biMin then -1 else 0
      let s := s.noteImbalance side tsUs mid
      if s.sess.inPosition then
        if (s.posDir > 0 ∧ imb ≤ m.tc.biExit) ∨ (s.posDir < 0 ∧ 1 - m.tc.biExit ≤ imb) then
          s.emit m .flattenEod mid "imbalance_normalised"
        else s
      else if side = 0 ∨ tsUs - s.modes.imbSince < m.tc.biHoldSecs * 1000000 then s
      else if m.tc.biMaxSpreadTicks < spread then s
      else
        s.enter m side mid
          (if m.tc.biInvert then (if side > 0 then "book_fade_ask" else "book_fade_bid")
            else (if side > 0 then "book_imbalance_bid" else "book_imbalance_ask"))

end TrendStrategy

end RithmicEngine
