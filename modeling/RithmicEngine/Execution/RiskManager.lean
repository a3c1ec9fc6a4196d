import RithmicEngine.Execution.OrbConfig
/-!
# Risk manager

Equity, its peak, the day's and the total realised profit, and the halt. A
closed trade moves the four amounts and may halt; the daily reset lifts a halt
only when its reason begins with the daily loss limit. A non-finite amount is
`none`. Log lines are left out; the numbers in a halt reason stay numbers.
-/
namespace RithmicEngine

/-- Why trading is halted, with the numbers of the reason text. -/
inductive HaltReason
  | nonFinitePnl
  | dailyLossLimit (dailyPnl limit : ℚ)
  | trailingDrawdownCap (drawdown cap : ℚ)
  | consistencyCap (today prior : ℚ)
  | brokerDayPnl (dayPnl limit : ℚ)
  | brokerTrailingDrawdown (balance hwm cap : ℚ)
  | external (reason : String)
  deriving DecidableEq, Repr

/-- The reason text begins with `daily_loss_limit`. -/
def HaltReason.isDailyLossLimit : HaltReason → Bool
  | .nonFinitePnl => false
  | .dailyLossLimit _ _ => true
  | .trailingDrawdownCap _ _ => false
  | .consistencyCap _ _ => false
  | .brokerDayPnl _ _ => false
  | .brokerTrailingDrawdown _ _ _ => false
  | .external reason => "daily_loss_limit".isPrefixOf reason

structure RiskManager where
  cfg : OrbConfig := {}
  equity : ℚ := 50000
  peakEquity : ℚ := 50000
  totalProfit : ℚ := 0
  dailyPnl : ℚ := 0
  unrealizedPnl : ℚ := 0
  halted : Bool := false
  haltReason : Option HaltReason := none
  deriving DecidableEq, Repr

namespace RiskManager

def halt (reason : HaltReason) (risk : RiskManager) : RiskManager :=
  { risk with halted := true, haltReason := some reason }

def haltExternal (reason : String) (risk : RiskManager) : RiskManager :=
  risk.halt (.external reason)

def seedTotalProfit (historicalPnl : ℚ) (risk : RiskManager) : RiskManager :=
  { risk with totalProfit := historicalPnl }

def seedDailyPnl (todayPnl : ℚ) (risk : RiskManager) : RiskManager :=
  { risk with dailyPnl := todayPnl }

def resetDaily (risk : RiskManager) : RiskManager :=
  let risk := { risk with dailyPnl := 0 }
  if risk.halted then
    match risk.haltReason with
    | some reason =>
      if reason.isDailyLossLimit then { risk with halted := false, haltReason := none } else risk
    | none => risk
  else risk

def clearHalt (risk : RiskManager) : RiskManager :=
  if risk.halted then { risk with halted := false, haltReason := none } else risk

def setEquity (eq : ℚ) (risk : RiskManager) : RiskManager :=
  { risk with equity := eq, peakEquity := if eq > risk.peakEquity then eq else risk.peakEquity }

def updateUnrealized (pnl : Option ℚ) (risk : RiskManager) : RiskManager :=
  match pnl with
  | none => risk
  | some pnl => { risk with unrealizedPnl := pnl }

/-- Add a finite closed-trade amount to the three running amounts and the peak. -/
def book (pnl : ℚ) (risk : RiskManager) : RiskManager :=
  let equity := risk.equity + pnl
  { risk with
    equity := equity
    dailyPnl := risk.dailyPnl + pnl
    totalProfit := risk.totalProfit + pnl
    peakEquity := if equity > risk.peakEquity then equity else risk.peakEquity }

/-- The daily limit is checked first, then the drawdown from the peak, then the
consistency cap; the first that is breached halts. -/
def checkLimits (risk : RiskManager) : RiskManager :=
  let drawdown := risk.peakEquity - risk.equity
  let prior := risk.totalProfit - risk.dailyPnl
  if risk.cfg.dailyLossLimit < 0 ∧ risk.dailyPnl ≤ risk.cfg.dailyLossLimit then
    risk.halt (.dailyLossLimit risk.dailyPnl risk.cfg.dailyLossLimit)
  else if drawdown ≥ risk.cfg.trailingDrawdownCap then
    risk.halt (.trailingDrawdownCap drawdown risk.cfg.trailingDrawdownCap)
  else if risk.cfg.cycleMode = false ∧ prior ≥ 500 ∧ risk.dailyPnl > 0 ∧
      risk.dailyPnl / prior > risk.cfg.consistencyCapPct then
    risk.halt (.consistencyCap risk.dailyPnl prior)
  else risk

/-- Book a closed trade and check the limits; a non-finite amount only halts. -/
def onTradePnl (pnl : Option ℚ) (risk : RiskManager) : RiskManager :=
  match pnl with
  | none => risk.halt .nonFinitePnl
  | some pnl => (risk.book pnl).checkLimits

/-- A new signal may be accepted. The drawdown here includes the open position. -/
def canTrade (risk : RiskManager) : Bool :=
  !risk.halted &&
    !(decide (risk.cfg.dailyLossLimit < 0) && decide (risk.dailyPnl ≤ risk.cfg.dailyLossLimit)) &&
    !decide (risk.peakEquity - (risk.equity + risk.unrealizedPnl) ≥ risk.cfg.trailingDrawdownCap)

variable (risk : RiskManager)

/-- A halted manager accepts no signal. -/
theorem canTrade_halted (halted : risk.halted = true) : risk.canTrade = false := by
  simp [canTrade, halted]

/-- Checking the limits never lifts a halt. -/
theorem checkLimits_halted (halted : risk.halted = true) : risk.checkLimits.halted = true := by
  simp only [checkLimits]
  split_ifs
  · rfl
  · rfl
  · rfl
  · exact halted

/-- A closed trade never lifts a halt. -/
theorem onTradePnl_halted (pnl : Option ℚ) (halted : risk.halted = true) :
    (risk.onTradePnl pnl).halted = true := by
  cases pnl with
  | none => rfl
  | some pnl => exact checkLimits_halted (risk.book pnl) halted

end RiskManager

end RithmicEngine
