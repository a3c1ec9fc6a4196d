import RithmicEngine.Base.HighWater
import RithmicEngine.Execution.NotificationRouter
import RithmicEngine.Paper.PaperEngine
/-!
# The three trailing-drawdown rules

The risk manager, the paper engine's account and the executor's check of the broker's
reports each follow the equity and its peak over the closed trades. All three are the
same level beneath its high-water mark; the risk manager and the broker check ask
whether the cap is reached, the paper account whether it is passed.
-/
namespace RithmicEngine

open HighWater

/-- The equity and its peak before the first trade. -/
def freshEquity (startingBalance : ℚ) : HighWater ℚ where
  level := startingBalance
  mark := startingBalance

/-! ## The risk manager -/

/-- The halt that stands was raised by the trailing-drawdown check. -/
def RiskManager.drawdownHalted (risk : RiskManager) : Bool :=
  match risk.haltReason with
  | some (.trailingDrawdownCap _ _) => true
  | _ => false

/-- The trade after which the risk manager first reports the drawdown. -/
def RiskManager.firstDrawdown (cfg : OrbConfig) (startingEquity : ℚ) (pnls : List ℚ) :
    Option Nat :=
  Runs.firstAfter (fun risk pnl => risk.onTradePnl (some pnl)) drawdownHalted
    { cfg := cfg, equity := startingEquity, peakEquity := startingEquity } pnls

/-- A risk manager that follows the equity and has not reported a drawdown. -/
structure RiskManager.Follows (cfg : OrbConfig) (risk : RiskManager) (h : HighWater ℚ) : Prop where
  config : risk.cfg = cfg
  equity : risk.equity = h.level
  peak : risk.peakEquity = h.mark
  quiet : risk.drawdownHalted = false

theorem raised_eq_max (equity peak : ℚ) :
    (if equity > peak then equity else peak) = max peak equity := by
  split
  next above => exact (max_eq_right above.le).symm
  next below => exact (max_eq_left (not_lt.mp below)).symm

/-- One trade: the risk manager reports the drawdown exactly when the cap is reached. -/
theorem RiskManager.Follows.trade {cfg : OrbConfig} {risk : RiskManager} {h : HighWater ℚ}
    (off : 0 ≤ cfg.dailyLossLimit) (follows : Follows cfg risk h) (pnl : ℚ) :
    (risk.onTradePnl (some pnl)).drawdownHalted = reached cfg.trailingDrawdownCap (h.move pnl) ∧
      ((risk.onTradePnl (some pnl)).drawdownHalted = false →
        Follows cfg (risk.onTradePnl (some pnl)) (h.move pnl)) := by
  obtain ⟨rfl, equity, peak, quiet⟩ := follows
  obtain ⟨booked, isBooked⟩ : ∃ booked, booked = risk.book pnl := ⟨_, rfl⟩
  have level : booked.equity = (h.move pnl).level := by
    rw [isBooked]
    exact congrArg (· + pnl) equity
  have mark : booked.peakEquity = (h.move pnl).mark := by
    rw [isBooked]
    simp only [book, raised_eq_max, equity, peak, move]
  have config : booked.cfg = risk.cfg := by rw [isBooked]; rfl
  have still : booked.drawdownHalted = false := by rw [isBooked]; exact quiet
  have unlimited : ¬(booked.cfg.dailyLossLimit < 0 ∧
    booked.dailyPnl ≤ booked.cfg.dailyLossLimit) := by
    rintro ⟨limited, -⟩
    rw [config] at limited
    exact absurd limited (not_lt.mpr off)
  simp only [onTradePnl, ← isBooked, checkLimits, unlimited, ↓reduceIte]
  split
  next reach =>
    have isReached : reached risk.cfg.trailingDrawdownCap (h.move pnl) = true := by
      simpa only [reached, fall, ← level, ← mark, ← config, decide_eq_true_eq] using reach
    exact ⟨isReached.symm, by rintro ⟨⟩⟩
  next short =>
    have notReached : reached risk.cfg.trailingDrawdownCap (h.move pnl) = false := by
      simpa only [reached, fall, ← level, ← mark, ← config, decide_eq_false_iff_not] using short
    rw [notReached]
    split
    · exact ⟨rfl, fun _ => ⟨config, level, mark, rfl⟩⟩
    · exact ⟨still, fun _ => ⟨config, level, mark, still⟩⟩

/-- The risk manager's first drawdown is where the equity is the cap or more below its peak. -/
theorem RiskManager.firstDrawdown_eq (cfg : OrbConfig) (off : 0 ≤ cfg.dailyLossLimit)
    (startingEquity : ℚ) (pnls : List ℚ) :
    firstDrawdown cfg startingEquity pnls =
      Runs.firstAfter move (reached cfg.trailingDrawdownCap) (freshEquity startingEquity) pnls :=
  Runs.firstAfter_congr (Follows cfg) (fun _ _ pnl follows => follows.trade off pnl) _ _ pnls
    ⟨rfl, rfl, rfl, rfl⟩

/-! ## The paper account -/

/-- The trade whose close the paper account first answers with a halt reason. -/
def AccountEnvelope.firstDrawdown (cfg : OrbConfig) (startingBalance : ℚ) (pnls : List ℚ) :
    Option Nat :=
  Runs.firstAfter (fun told pnl => told.1.onTradeClose pnl) (fun told => decide (told.2 ≠ ""))
    (({ startingBalance := startingBalance
        dailyLossLimit := cfg.dailyLossLimit
        ddCap := cfg.trailingDrawdownCap
        peakEquity := startingBalance } : AccountEnvelope), "") pnls

/-- A paper account that follows the equity. -/
structure AccountEnvelope.Follows (cfg : OrbConfig) (a : AccountEnvelope) (h : HighWater ℚ) :
    Prop where
  daily : a.dailyLossLimit = cfg.dailyLossLimit
  cap : a.ddCap = cfg.trailingDrawdownCap
  equity : a.equity = h.level
  peak : a.peakEquity = h.mark

/-- One trade: the paper account answers with a reason exactly when the cap is passed. -/
theorem AccountEnvelope.Follows.trade {cfg : OrbConfig} {a : AccountEnvelope} {h : HighWater ℚ}
    (capped : 0 < cfg.trailingDrawdownCap) (off : 0 ≤ cfg.dailyLossLimit)
    (follows : Follows cfg a h) (pnl : ℚ) :
    decide ((a.onTradeClose pnl).2 ≠ "") = passed cfg.trailingDrawdownCap (h.move pnl) ∧
      Follows cfg (a.onTradeClose pnl).1 (h.move pnl) := by
  obtain ⟨daily, cap, equity, peak⟩ := follows
  have after : Follows cfg (a.onTradeClose pnl).1 (h.move pnl) := by
    have level : a.startingBalance + (a.totalPnl + pnl) = h.level + pnl := by
      rw [← equity, AccountEnvelope.equity, add_assoc]
    refine ⟨daily, cap, level, ?_⟩
    simp only [onTradeClose, raisePeak, AccountEnvelope.equity, raised_eq_max, level, peak, move]
  refine ⟨?_, after⟩
  obtain ⟨daily', cap', equity', peak'⟩ := after
  change decide ((a.onTradeClose pnl).1.checkLimits ≠ "") = _
  have unlimited : ¬((a.onTradeClose pnl).1.dailyLossLimit < 0 ∧
      (a.onTradeClose pnl).1.dayPnl ≤ (a.onTradeClose pnl).1.dailyLossLimit) := by
    rintro ⟨limited, -⟩
    rw [daily'] at limited
    exact absurd limited (not_lt.mpr off)
  simp only [checkLimits, unlimited, ↓reduceIte, cap', equity', peak', capped, true_and, passed,
    fall, lt_sub_comm]
  split
  next past => simp only [past, ne_eq, decide_true]; decide
  next short => simp [short]

/-- The account's first drawdown is the first point at which the equity is a full cap below its
peak. -/
theorem AccountEnvelope.firstDrawdown_eq (cfg : OrbConfig) (capped : 0 < cfg.trailingDrawdownCap)
    (off : 0 ≤ cfg.dailyLossLimit) (startingBalance : ℚ) (pnls : List ℚ) :
    firstDrawdown cfg startingBalance pnls =
      Runs.firstAfter move (passed cfg.trailingDrawdownCap) (freshEquity startingBalance) pnls := by
  refine Runs.firstAfter_congr (fun told h => Follows cfg told.1 h) ?_ _ _ pnls ?_
  · intro told h pnl follows
    obtain ⟨answer, after⟩ := follows.trade capped off pnl
    exact ⟨answer, fun _ => after⟩
  · exact ⟨rfl, rfl, add_zero startingBalance, rfl⟩

/-! ## The broker's reports -/

/-- The balance the broker last reported and the mark the executor keeps of it. -/
structure BrokerReport where
  balance : ℚ
  hwm : ℚ

namespace BrokerReport

def fresh (startingBalance : ℚ) : BrokerReport where
  balance := startingBalance
  hwm := Notif.brokerHwm none startingBalance none

/-- The balance after a trade is reported, and the mark is taken from it. -/
def report (startingBalance : ℚ) (r : BrokerReport) (pnl : ℚ) : BrokerReport where
  balance := r.balance + pnl
  hwm := Notif.brokerHwm (some r.hwm) startingBalance (some (r.balance + pnl))

/-- The report after which the broker check first finds the drawdown breached. -/
def firstDrawdown (cfg : OrbConfig) (startingBalance : ℚ) (pnls : List ℚ) : Option Nat :=
  Runs.firstAfter (report startingBalance)
    (fun r => Notif.brokerDrawdownBreached (some r.balance) r.hwm cfg.trailingDrawdownCap)
    (fresh startingBalance) pnls

/-- The reports follow the equity, whose peak is at least the starting balance. -/
structure Follows (startingBalance : ℚ) (r : BrokerReport) (h : HighWater ℚ) : Prop where
  balance : r.balance = h.level
  hwm : r.hwm = h.mark
  started : startingBalance ≤ h.mark

/-- The first drawdown of the risk manager is the first crossing on the equity's high-water mark. -/
theorem firstDrawdown_eq (cfg : OrbConfig) (capped : 0 < cfg.trailingDrawdownCap)
    (startingBalance : ℚ) (pnls : List ℚ) :
    firstDrawdown cfg startingBalance pnls =
      Runs.firstAfter move (reached cfg.trailingDrawdownCap)
        (freshEquity startingBalance) pnls := by
  refine Runs.firstAfter_congr (Follows startingBalance) ?_ _ _ pnls ⟨rfl, rfl, le_refl _⟩
  rintro r h pnl ⟨balance, hwm, started⟩
  have level : (report startingBalance r pnl).balance = (h.move pnl).level :=
    congrArg (· + pnl) balance
  have mark : (report startingBalance r pnl).hwm = (h.move pnl).mark := by
    simp only [report, Notif.brokerHwm, hwm, balance, max_eq_left started, raised_eq_max, move]
  refine ⟨?_, fun _ => ⟨level, mark, started.trans (le_max_left _ _)⟩⟩
  rw [Bool.eq_iff_iff]
  simp only [Notif.brokerDrawdownBreached, level, mark, capped, decide_true, Bool.true_and,
    reached, fall, le_sub_comm, decide_eq_true_eq]
  exact decide_eq_true_iff.symm

end BrokerReport

/-! ## The rules together -/

/-- The three rules first report a breach after the same trade exactly when no trade
leaves the equity exactly the cap below its peak before the equity has been further
below it. -/
theorem one_drawdown_rule_iff (cfg : OrbConfig) (capped : 0 < cfg.trailingDrawdownCap)
    (off : 0 ≤ cfg.dailyLossLimit) (startingBalance : ℚ) (pnls : List ℚ) :
    (RiskManager.firstDrawdown cfg startingBalance pnls =
          AccountEnvelope.firstDrawdown cfg startingBalance pnls ∧
        BrokerReport.firstDrawdown cfg startingBalance pnls =
          AccountEnvelope.firstDrawdown cfg startingBalance pnls) ↔
      NeverOn cfg.trailingDrawdownCap (freshEquity startingBalance) pnls := by
  rw [RiskManager.firstDrawdown_eq cfg off, BrokerReport.firstDrawdown_eq cfg capped,
    AccountEnvelope.firstDrawdown_eq cfg capped off, and_self]
  exact first_reached_iff cfg.trailingDrawdownCap (freshEquity startingBalance) pnls

/-- The rule of an account with a cap of a thousand dollars and no daily limit. -/
def thousandDollarCap : OrbConfig where
  trailingDrawdownCap := 1000
  dailyLossLimit := 0
  cycleMode := true

/-- A loss past the cap is reported by all three rules at once. -/
theorem one_drawdown_rule_past_cap :
    (0 < thousandDollarCap.trailingDrawdownCap ∧ 0 ≤ thousandDollarCap.dailyLossLimit) ∧
      RiskManager.firstDrawdown thousandDollarCap 25000 [1500, -900, -700] =
          AccountEnvelope.firstDrawdown thousandDollarCap 25000 [1500, -900, -700] ∧
        BrokerReport.firstDrawdown thousandDollarCap 25000 [1500, -900, -700] =
          AccountEnvelope.firstDrawdown thousandDollarCap 25000 [1500, -900, -700] := by
  refine ⟨by decide, ?_⟩
  exact (one_drawdown_rule_iff thousandDollarCap (by decide) (by decide) 25000
    [1500, -900, -700]).mpr (by decide +kernel)

/-- A loss of exactly the cap is a breach to the risk manager and to the broker check,
and none to the paper account. -/
theorem drawdown_on_the_cap :
    RiskManager.firstDrawdown thousandDollarCap 25000 [-1000] = some 0 ∧
      BrokerReport.firstDrawdown thousandDollarCap 25000 [-1000] = some 0 ∧
      AccountEnvelope.firstDrawdown thousandDollarCap 25000 [-1000] = none := by
  decide +kernel

end RithmicEngine
