import RithmicEngine.Base.Newest
import RithmicEngine.Execution.MtfConfig
import RithmicEngine.Execution.TrendStrategy
/-!
# The scalper's indicators

The averages and ranks of the entry frame and the bars of the higher frames. A higher frame
reads its completed bars only. A division of whole numbers by zero and a read outside a
container have no value.
-/
namespace RithmicEngine

open Newest

/-! ## Averages -/

/-- The average starts at its first value. -/
def emaNext (prev x : Double) (len : Int) : Double :=
  if prev = .nan then x
  else
    let a : Double := 2 / ((len : ℚ) + 1 : ℚ)
    a * x + (1 - a) * prev

def rmaNext (prev x : Double) (len : Int) : Double :=
  if prev = .nan then x
  else (prev * ((int32 (len - 1) : ℚ) : Double) + x) / ((len : ℚ) : Double)

/-- The share of the earlier values that the current one, the last, does not lie under. -/
def percentrank (hist : List Double) (len : Int) : Option Double :=
  if (hist.length : Int) ≤ len then some .nan
  else do
    let cur ← hist.getLast?
    let earlier := newest len.toNat hist.dropLast
    return 100 * (((earlier.countP fun x => decide (x ≤ cur) : Nat) : ℚ) : Double) /
      ((len : ℚ) : Double)

def smaWindow (hist : List Double) (n : Int) : Double :=
  if (hist.length : Int) < n then .nan
  else
    let window := newest n.toNat hist
    if Double.nan ∈ window then .nan
    else window.foldl (fun s x => s + x) 0 / ((n : ℚ) : Double)

/-! ## Bars -/

/-- A bar of a longer time after another minute. -/
def MinuteBar.extend (b a : MinuteBar) : MinuteBar :=
  let a := if a.volume = 0 then { a with opened := b.opened, high := b.high, low := b.low } else a
  { a with
    high := if b.high > a.high then b.high else a.high
    low := if b.low < a.low then b.low else a.low
    close := b.close
    volume := a.volume + b.volume }

/-- The true range of a bar behind the close of the bar before it, if there is one. -/
def trueRange (bar : MinuteBar) (pc : Double) : Double :=
  if pc = .nan then (bar.high : Double) - bar.low
  else max (max ((bar.high : Double) - bar.low) (Double.abs (bar.high - pc)))
    (Double.abs (bar.low - pc))

namespace HtfAgg

/-- The readings of a frame after its bar in progress has been completed. -/
def complete (lenF lenS atrLen : Int) (a : HtfAgg) : HtfAgg :=
  let done := pushCapped 8 a.cur a.done
  let emaF := emaNext a.emaF a.cur.close lenF
  let pc : Double :=
    match done.reverse[1]? with
    | some before => before.close
    | none => .nan
  { a with
    done := done
    emaFPrev := a.emaF
    emaF := emaF
    emaS := emaNext a.emaS a.cur.close lenS
    cls := a.cur.close
    slope := if emaF ≠ .nan ∧ a.emaF ≠ .nan then emaF - a.emaF else .nan
    hasCompleted := true
    atrRma := rmaNext a.atrRma (trueRange a.cur pc) atrLen }

/-- Another bucket starts; what the one before it has traded is a completed bar. -/
def roll (lenF lenS atrLen bucket : Int) (bar : MinuteBar) (a : HtfAgg) : HtfAgg :=
  let a := if a.cur.volume > 0 then a.complete lenF lenS atrLen else a
  { a with cur := { minuteUtc := bar.minuteUtc }, bucket := bucket }

/-- A minute of the frame. -/
def update (minutes lenF lenS atrLen : Int) (bar : MinuteBar) (a : HtfAgg) : Option HtfAgg :=
  if minutes = 0 then none
  else
    let bucket := bar.minuteUtc.tdiv minutes
    let a := if a.bucket < 0 then { a with bucket := bucket } else a
    let a := if bucket ≠ a.bucket then a.roll lenF lenS atrLen bucket bar else a
    some { a with cur := bar.extend a.cur }

/-- A frame that is not used stays as it is. -/
def updateIf (used : Bool) (minutes lenF lenS atrLen : Int) (bar : MinuteBar) (a : HtfAgg) :
    Option HtfAgg :=
  if used then a.update minutes lenF lenS atrLen bar else some a

end HtfAgg

/-! ## The clock -/

/-- The Eastern minute of the day of a bar, its Eastern day, and its trading day, which
rolls at an hour of the evening. -/
def barEt (minuteUtc rolloverHour : Int) : Int × Int × Int :=
  let utcSec := minuteUtc * 60
  let etSec := utcSec - usEtOffset (gmtime utcSec) * 3600
  let etDay := etSec.tdiv 86400
  let rem := etSec.tmod 86400
  (rem.tdiv 60, etDay, if rem.tdiv 3600 ≥ rolloverHour then etDay + 1 else etDay)

/-- Weeks start on a Monday, which the fifth day of 1970 was. -/
def weekKeyOf (globexDay : Int) : Int :=
  let d := globexDay - 4
  if d ≥ 0 then d.tdiv 7 else -((-d + 6).tdiv 7)

/-- The window as minutes of the Eastern day, where the text has the form of one. -/
def parseSessionWindow (window : String) (otherwise : Int × Int) : Option (Int × Int) :=
  let w := window.toList
  if w.length ≥ 9 ∧ w[4]? = some '-' then do
    let number (start : Nat) : Option Int := Numerals.readInteger ((w.drop start).take 2)
    return ((← number 0) * 60 + (← number 2), (← number 5) * 60 + (← number 7))
  else some otherwise

example : parseSessionWindow "0930-1600" (540, 720) = some (570, 960) := by decide +kernel

namespace MtfIndicators

variable (cfg : MtfScalperConfig) (bar : MinuteBar)

/-! ## The entry frame -/

/-- The volume-weighted average price since its anchor. -/
def nextVwap (key : Int) (i : MtfIndicators) : MtfIndicators :=
  let i := if key ≠ i.vwapKey then { i with vwapKey := key, vwapPv := 0, vwapV := 0 } else i
  let tp : Double := ((bar.high : Double) + bar.low + bar.close) / 3
  if bar.volume > 0 then
    let pv := i.vwapPv + tp * ((bar.volume : ℚ) : Double)
    let v := i.vwapV + ((bar.volume : ℚ) : Double)
    { i with vwapPv := pv, vwapV := v, vwap := pv / v }
  else i

def nextTrend (i : MtfIndicators) : MtfIndicators :=
  let macdEf := emaNext i.macdEf bar.close cfg.macdFast
  let macdEs := emaNext i.macdEs bar.close cfg.macdSlow
  let macdLine := macdEf - macdEs
  let macdSig := emaNext i.macdSig macdLine cfg.macdSignal
  { i with
    emaFastPrev := i.emaFast
    emaSlowPrev := i.emaSlow
    emaFast := emaNext i.emaFast bar.close cfg.emaFastLen
    emaSlow := emaNext i.emaSlow bar.close cfg.emaSlowLen
    macdLinePrev := i.macdLine
    macdSigPrev := i.macdSig
    macdHistPrev := i.macdHist
    macdEf := macdEf
    macdEs := macdEs
    macdLine := macdLine
    macdSig := macdSig
    macdHist := macdLine - macdSig }

def nextRsi (i : MtfIndicators) : MtfIndicators :=
  let i := if i.prevClose = .nan then i else
    let chg := (bar.close : Double) - i.prevClose
    let up := rmaNext i.rmaUp (max chg 0) cfg.rsiLen
    let dn := rmaNext i.rmaDn (max (-chg) 0) cfg.rsiLen
    { i with
      rmaUp := up
      rmaDn := dn
      rsi := if dn = 0 then 100 else if up = 0 then 0 else 100 - 100 / (1 + up / dn) }
  { i with prevClose := bar.close }

/-- The close within the range of the last bars. -/
def kRaw (hist : List MinuteBar) : Double :=
  if (hist.length : Int) ≥ cfg.stochKLen then
    let window := newest cfg.stochKLen.toNat hist
    let hh := window.foldl (fun h b => max h (b.high : Double)) (-1e300)
    let ll := window.foldl (fun l b => min l (b.low : Double)) 1e300
    if hh > ll then 100 * ((bar.close : Double) - ll) / (hh - ll) else .nan
  else .nan

def nextStoch (hist : List MinuteBar) (i : MtfIndicators) : MtfIndicators :=
  let krawHist := pushCapped 64 (kRaw cfg bar hist) i.krawHist
  let stochK := smaWindow krawHist cfg.stochKSmooth
  let kHist := pushCapped 64 stochK i.kHist
  { i with
    stochKPrev := i.stochK
    stochDPrev := i.stochD
    krawHist := krawHist
    stochK := stochK
    kHist := kHist
    stochD := smaWindow kHist cfg.stochDLen }

/-- A history of one more than the ranks look back. -/
def pushRanked (x : Double) (xs : List Double) : List Double :=
  let xs := xs ++ [x]
  if (xs.length : Int) > int32 (cfg.rankLookback + 2) then xs.tail else xs

def nextAtr (tr : Double) (i : MtfIndicators) : MtfIndicators :=
  let atr := rmaNext i.atr tr cfg.atrLen
  { i with atrPrev := i.atr, atr := atr, atrHist := pushRanked cfg atr i.atrHist }

/-- The directional movement, once there is a bar before. -/
def nextDmi (tr : Double) (i : MtfIndicators) : MtfIndicators :=
  let i := if i.prevHigh = .nan then i else
    let up := (bar.high : Double) - i.prevHigh
    let dn := i.prevLow - bar.low
    let pdm := if up > dn ∧ up > 0 then up else 0
    let mdm := if dn > up ∧ dn > 0 then dn else 0
    let i := { i with
      dmiTr := rmaNext i.dmiTr tr cfg.adxLen
      dmiPdm := rmaNext i.dmiPdm pdm cfg.adxLen
      dmiMdm := rmaNext i.dmiMdm mdm cfg.adxLen }
    if i.dmiTr > 0 then
      let plus := 100 * i.dmiPdm / i.dmiTr
      let minus := 100 * i.dmiMdm / i.dmiTr
      let sum := plus + minus
      let dx := 100 * Double.abs (plus - minus) / (if sum = 0 then 1 else sum)
      let adx := rmaNext i.adxRma dx cfg.adxLen
      { i with diPlus := plus, diMinus := minus, adxRma := adx, adx := adx }
    else i
  { i with prevHigh := bar.high, prevLow := bar.low, adxHist := pushRanked cfg i.adx i.adxHist }

def nextRanks (i : MtfIndicators) : Option MtfIndicators := do
  let ar ← percentrank i.atrHist cfg.rankLookback
  let xr ← percentrank i.adxHist cfg.rankLookback
  return { i with
    atrRank := if ar = .nan then 50 else ar
    adxRank := if xr = .nan then 50 else xr }

/-- The close that the true range looks back to. -/
def closeBefore (hist : List MinuteBar) (i : MtfIndicators) : Option Double :=
  if i.prevHigh = .nan then some .nan
  else (hist.reverse[1]?).map fun before => (before.close : Double)

/-- The indicators after a bar, the last of the history. -/
def next (hist : List MinuteBar) (i : MtfIndicators) : Option MtfIndicators := do
  let i := ((i.nextTrend cfg bar).nextRsi cfg bar).nextStoch cfg bar hist
  let tr := trueRange bar (← i.closeBefore hist)
  ((i.nextAtr cfg tr).nextDmi cfg bar tr).nextRanks cfg

end MtfIndicators

end RithmicEngine
