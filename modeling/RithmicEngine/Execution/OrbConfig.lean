import Mathlib.Data.Rat.Floor
/-!
# Configuration and exit-side regime

The part of the configuration that the order manager, the risk manager and the
notification router read, under its default values, and the readings of the
session regime they take their trail step, take-profit and quantity from.
Prices and dollar amounts are rationals in place of binary doubles; quantities
and milliseconds are integers. Keys no modelled function reads are left out.
-/
namespace RithmicEngine

/-- What a strategy asks for. The enumerator is the direction of a position as well. -/
inductive OrbSignal
  | none
  | buy
  | sell
  | flattenEod
  deriving DecidableEq, Repr

/-- The keys of the configuration file that the modelled code reads. -/
structure OrbConfig where
  slPoints : ℚ := 15
  trailBeTrigger : ℚ := 3
  trailStep : ℚ := 10
  trailDelaySecs : Int := 300
  trailBeOffset : ℚ := 1
  slFireTimeoutMs : Int := 3000
  netMismatchGraceMs : Int := 5000
  qty : Int := 1
  trailingDrawdownCap : ℚ := 2500
  consistencyCapPct : ℚ := 3 / 10
  dailyLossLimit : ℚ := -1000
  commissionRt : ℚ := 1
  symbol : String := "MNQ"
  exchange : String := "CME"
  pointValue : ℚ := 2
  tpPoints : ℚ := 0
  tpR : ℚ := 0
  vtRiskUsd : ℚ := 0
  vtQtyMax : Int := 5
  regimeExitMinEff : ℚ := 0
  trailStepTrend : ℚ := 0
  trailStepRange : ℚ := 0
  tpRRange : ℚ := 0
  accountId : String := ""
  tradeContract : String := ""
  mdProvider : String := "legends"
  startingBalance : ℚ := 50000
  cycleMode : Bool := false
  dryRun : Bool := false
  deriving DecidableEq, Repr

/-- The contract that is traded: the configured one, else the symbol itself. -/
def OrbConfig.tradeSymbol (cfg : OrbConfig) : String :=
  if cfg.tradeContract = "" then cfg.symbol else cfg.tradeContract

/-- Market data come from the collector's database. -/
def OrbConfig.mdFromPg (cfg : OrbConfig) : Bool := decide (cfg.mdProvider = "pg")

/-- The fixed take-profit distance: points when set, else a multiple of the stop. -/
def OrbConfig.takeProfitPts (cfg : OrbConfig) : ℚ :=
  if cfg.tpPoints > 0 then cfg.tpPoints
  else if cfg.tpR > 0 then cfg.tpR * cfg.slPoints else 0

/-- Round to the nearest integer, halves away from zero, as the C library does. -/
def lround (x : ℚ) : Int :=
  if 0 ≤ x then ⌊x + 1 / 2⌋ else -⌊-x + 1 / 2⌋

/-- The session's shape so far: prior-day range, open, high, low, last and the
time of the first regular-hours tick, zero while there was none. -/
structure RegimeState where
  atrPts : ℚ := 0
  opened : ℚ := 0
  high : ℚ := 0
  low : ℚ := 0
  last : ℚ := 0
  openUs : Int := 0
  deriving DecidableEq, Repr

namespace RegimeState

def hasOpen (r : RegimeState) : Bool := decide (r.openUs ≠ 0)

def rangePts (r : RegimeState) : ℚ := if r.hasOpen then r.high - r.low else 0

/-- Directional efficiency of the session so far. -/
def eff (r : RegimeState) : ℚ :=
  if r.rangePts > 0 then |r.last - r.opened| / r.rangePts else 0

/-- The session reads as a trend under this configuration. -/
def exitTrend (cfg : OrbConfig) : Option RegimeState → Bool
  | none => false
  | some r => decide (cfg.regimeExitMinEff > 0) && r.hasOpen &&
      decide (r.eff ≥ cfg.regimeExitMinEff)

/-- The trail step in force. The regime's own step counts only when positive. -/
def trailStepFor (cfg : OrbConfig) : Option RegimeState → ℚ
  | none => cfg.trailStep
  | some r =>
    if cfg.regimeExitMinEff > 0 ∧ r.hasOpen then
      let step := if exitTrend cfg (some r) then cfg.trailStepTrend else cfg.trailStepRange
      if step > 0 then step else cfg.trailStep
    else cfg.trailStep

/-- The take-profit distance in force, zero for none. -/
def takeProfitFor (cfg : OrbConfig) : Option RegimeState → ℚ
  | none => cfg.takeProfitPts
  | some r =>
    if cfg.regimeExitMinEff > 0 ∧ r.hasOpen then
      if exitTrend cfg (some r) then 0
      else if cfg.tpRRange > 0 then cfg.tpRRange * cfg.slPoints
      else cfg.takeProfitPts
    else cfg.takeProfitPts

/-- The quantity of the next position: volatility-targeted when the risk amount,
the range and the point value are all positive, else the configured quantity. -/
def qtyFor (cfg : OrbConfig) : Option RegimeState → Int
  | none => cfg.qty
  | some r =>
    if cfg.vtRiskUsd ≤ 0 ∨ r.atrPts ≤ 0 ∨ cfg.pointValue ≤ 0 then cfg.qty
    else max 1 (min (max 1 cfg.vtQtyMax) (lround (cfg.vtRiskUsd / (r.atrPts * cfg.pointValue))))

/-- With the risk amount off every position has the configured quantity. -/
theorem qtyFor_fixed (cfg : OrbConfig) (regime : Option RegimeState)
    (fixed : cfg.vtRiskUsd ≤ 0) : qtyFor cfg regime = cfg.qty := by
  cases regime with
  | none => rfl
  | some r => simp [qtyFor, fixed]

end RegimeState

end RithmicEngine
