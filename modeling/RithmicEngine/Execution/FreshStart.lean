import Mathlib.Algebra.BigOperators.Group.List.Basic
import RithmicEngine.Base.Runs
import RithmicEngine.Execution.CarriedPosition
/-!
# What a restart knows of the account

The first cycle of a process seeds the risk manager from the database: the total
profit, the peak, the equity and the profit of the day. The session setup that
follows resets the day, for the first cycle as for a new date. Cycles that return
early before it seed again.

Beside the process stands one that was not restarted: the same total, equity and
peak, and the profit of the day so far. What the two decide is compared close by
close.
-/
namespace RithmicEngine

namespace RiskManager

/-- The manager the process constructs. -/
def opening (cfg : OrbConfig) : RiskManager where
  cfg := cfg
  equity := cfg.startingBalance
  peakEquity := cfg.startingBalance

/-- The halt after each of the day's closes. -/
def decisions (risk : RiskManager) : List ℚ → List (Option HaltReason)
  | [] => []
  | pnl :: rest =>
    let risk := risk.onTradePnl (some pnl)
    risk.haltReason :: risk.decisions rest

/-- The manager after the day's closes. -/
def afterTrades (risk : RiskManager) (trades : List ℚ) : RiskManager :=
  trades.foldl (fun risk pnl => risk.onTradePnl (some pnl)) risk

/-- The amounts, the configuration and the halt of a manager. -/
def ledger (risk : RiskManager) : RiskManager := { risk with unrealizedPnl := 0 }

variable (risk : RiskManager) (trades : List ℚ)

theorem checkLimits_ledger : risk.checkLimits.ledger = risk.ledger.checkLimits := by
  simp only [checkLimits, apply_ite ledger]
  rfl

theorem onTradePnl_ledger (pnl : ℚ) :
    (risk.onTradePnl (some pnl)).ledger = risk.ledger.onTradePnl (some pnl) :=
  checkLimits_ledger (risk.book pnl)

/-- What is decided does not depend on the open position. -/
theorem decisions_ledger : risk.decisions trades = risk.ledger.decisions trades := by
  induction trades generalizing risk with
  | nil => rfl
  | cons pnl rest ih =>
    have reason : (risk.onTradePnl (some pnl)).haltReason =
        (risk.ledger.onTradePnl (some pnl)).haltReason := by
      rw [← onTradePnl_ledger]
      rfl
    simp only [decisions]
    rw [reason, ih, onTradePnl_ledger]

theorem checkLimits_dailyPnl : risk.checkLimits.dailyPnl = risk.dailyPnl := by
  simp only [checkLimits]
  split_ifs
  all_goals rfl

theorem checkLimits_cfg : risk.checkLimits.cfg = risk.cfg := by
  simp only [checkLimits]
  split_ifs
  all_goals rfl

theorem afterTrades_cfg : (risk.afterTrades trades).cfg = risk.cfg := by
  induction trades generalizing risk with
  | nil => rfl
  | cons pnl rest ih => exact (ih (risk.onTradePnl (some pnl))).trans (checkLimits_cfg _)

/-- Trades add their sum to the day's. -/
theorem afterTrades_dailyPnl : (risk.afterTrades trades).dailyPnl = risk.dailyPnl + trades.sum := by
  induction trades generalizing risk with
  | nil => simp [afterTrades]
  | cons pnl rest ih =>
    have here : (risk.onTradePnl (some pnl)).dailyPnl = risk.dailyPnl + pnl :=
      checkLimits_dailyPnl (risk.book pnl)
    have later := ih (risk.onTradePnl (some pnl))
    rw [here, add_assoc, ← List.sum_cons] at later
    exact later

/-- A signal is accepted only above the daily limit. -/
theorem above_limit_of_canTrade {risk : RiskManager} (accepts : risk.canTrade = true)
    (limited : risk.cfg.dailyLossLimit < 0) : risk.cfg.dailyLossLimit < risk.dailyPnl := by
  by_contra reached
  have breached : risk.dailyPnl ≤ risk.cfg.dailyLossLimit := not_lt.mp reached
  simp only [canTrade, limited, breached, decide_true, Bool.and_self, Bool.not_true,
    Bool.and_false, Bool.false_and, Bool.false_eq_true] at accepts

end RiskManager

/-- A manager of a process that was not restarted: its amounts are those of the
account, and nothing has halted it. -/
structure Unrestarted (cfg : OrbConfig) (history : AccountHistory) (risk : RiskManager) :
    Prop where
  config : risk.cfg = cfg
  totalProfit : risk.totalProfit = history.totalPnl
  equity : risk.equity = cfg.startingBalance + history.totalPnl
  peakEquity : risk.peakEquity =
    max (max history.peakEquity (cfg.startingBalance + history.totalPnl)) cfg.startingBalance
  dailyPnl : risk.dailyPnl = history.dailyPnl
  halted : risk.halted = false
  haltReason : risk.haltReason = none

/-- A restarted manager refunds nothing: it has the amounts of the account, it decides
after every close of the day as one that was not restarted, and it accepts a signal
only while the day, with what was lost before the restart, is above the limit. -/
structure RefundsNothing (cfg : OrbConfig) (history : AccountHistory) (risk : RiskManager) :
    Prop where
  totalProfit : risk.totalProfit = history.totalPnl
  equity : risk.equity = cfg.startingBalance + history.totalPnl
  peakEquity : risk.peakEquity =
    max (max history.peakEquity (cfg.startingBalance + history.totalPnl)) cfg.startingBalance
  dailyPnl : risk.dailyPnl = history.dailyPnl
  decides : ∀ before, Unrestarted cfg history before → ∀ trades,
    risk.decisions trades = before.decisions trades
  bounded : ∀ trades, (risk.afterTrades trades).canTrade = true → cfg.dailyLossLimit < 0 →
    cfg.dailyLossLimit < history.dailyPnl + trades.sum

/-- Two managers that were not restarted differ in the open position only. -/
theorem Unrestarted.ledger_eq {cfg : OrbConfig} {history : AccountHistory}
    {first second : RiskManager} (one : Unrestarted cfg history first)
    (other : Unrestarted cfg history second) : first.ledger = second.ledger := by
  simp only [RiskManager.ledger, one.config, one.totalProfit, one.equity, one.peakEquity,
    one.dailyPnl, one.halted, one.haltReason, other.config, other.totalProfit, other.equity,
    other.peakEquity, other.dailyPnl, other.halted, other.haltReason]

/-- A manager that was not restarted refunds nothing. -/
theorem Unrestarted.refundsNothing {cfg : OrbConfig} {history : AccountHistory}
    {risk : RiskManager} (same : Unrestarted cfg history risk) :
    RefundsNothing cfg history risk where
  totalProfit := same.totalProfit
  equity := same.equity
  peakEquity := same.peakEquity
  dailyPnl := same.dailyPnl
  decides before other trades := by
    rw [risk.decisions_ledger, before.decisions_ledger, same.ledger_eq other]
  bounded trades accepts limited := by
    have settings : (risk.afterTrades trades).cfg = cfg :=
      (risk.afterTrades_cfg trades).trans same.config
    have above := RiskManager.above_limit_of_canTrade accepts (by rw [settings]; exact limited)
    rw [settings, risk.afterTrades_dailyPnl, same.dailyPnl] at above
    exact above

namespace Executor

variable (host : Host) (history : AccountHistory)

/-- Starts that returned early, each with the database or without it. -/
def failedStarts (attempts : List Bool) : List Event :=
  attempts.flatMap fun known => [.start (if known then some history else none), .earlyReturn]

/-- The process after its fresh start: failed starts, the risk seeding, the session
setup. -/
def freshlyStarted (attempts : List Bool) (connection : Connection) : Executor :=
  Runs.run (step host) (fresh (RiskManager.opening host.cfg))
    (failedStarts history attempts ++ [.start (some history), .connected connection])

/-- Before its first session: nothing runs, and the manager is as constructed but for
what earlier seeding left. -/
structure Unstarted (x : Executor) : Prop where
  down : x.stage = .down
  running : x.running = true
  today : x.today = none
  cfg : x.manager.risk.cfg = host.cfg
  halted : x.manager.risk.halted = false
  haltReason : x.manager.risk.haltReason = none
  floor : host.cfg.startingBalance ≤ x.manager.risk.peakEquity
  ceiling : x.manager.risk.peakEquity ≤
    max (max history.peakEquity (host.cfg.startingBalance + history.totalPnl))
      host.cfg.startingBalance

/-- The seeding of the first cycle. -/
def seeded (risk : RiskManager) : RiskManager :=
  ((((risk.seedTotalProfit history.totalPnl).setEquity history.peakEquity).setEquity
    (host.cfg.startingBalance + history.totalPnl)).seedDailyPnl history.dailyPnl)

theorem setEquity_peak (eq : ℚ) (risk : RiskManager) :
    (risk.setEquity eq).peakEquity = max risk.peakEquity eq := by
  simp only [RiskManager.setEquity]
  split
  next above => exact (max_eq_right (le_of_lt above)).symm
  next below => exact (max_eq_left (not_lt.mp below)).symm

/-- Seeding raises the peak to the historical one and to the present equity. -/
theorem seeded_peak (risk : RiskManager) :
    (seeded host history risk).peakEquity =
      max (max risk.peakEquity history.peakEquity)
        (host.cfg.startingBalance + history.totalPnl) := by
  have raised : (seeded host history risk).peakEquity =
      (((risk.seedTotalProfit history.totalPnl).setEquity history.peakEquity).setEquity
        (host.cfg.startingBalance + history.totalPnl)).peakEquity := rfl
  rw [raised, setEquity_peak, setEquity_peak]
  rfl

variable {x : Executor}

/-- However often it was seeded before, the peak is the highest of the three. -/
theorem Unstarted.seeded_peak (unstarted : Unstarted host history x) :
    (seeded host history x.manager.risk).peakEquity =
      max (max history.peakEquity (host.cfg.startingBalance + history.totalPnl))
        host.cfg.startingBalance := by
  rw [Executor.seeded_peak]
  have floor := unstarted.floor
  have ceiling := unstarted.ceiling
  apply le_antisymm
  · apply max_le
    · exact max_le ceiling ((le_max_left _ _).trans (le_max_left _ _))
    · exact (le_max_right _ _).trans (le_max_left _ _)
  · apply max_le
    · exact max_le ((le_max_right _ _).trans (le_max_left _ _)) (le_max_right _ _)
    · exact floor.trans ((le_max_left _ _).trans (le_max_left _ _))

/-- A start seeds the risk manager from the history it knows. -/
theorem step_start (unstarted : Unstarted host history x) (known : Bool) :
    (x.step host (.start (if known then some history else none))).stage = .connecting ∧
      (x.step host (.start (if known then some history else none))).running = true ∧
      (x.step host (.start (if known then some history else none))).today = none ∧
      (x.step host (.start (if known then some history else none))).manager.risk =
        if known then seeded host history x.manager.risk else x.manager.risk := by
  have runs : x.stage = .down ∧ x.running = true := ⟨unstarted.down, unstarted.running⟩
  simp only [step, perform, runs, and_self, ↓reduceIte, startCycle, unstarted.today]
  refine ⟨trivial, trivial, trivial, ?_⟩
  cases known with
  | true => rfl
  | false => rfl

/-- A start that returns early leaves the process as unstarted as it was. -/
theorem unstarted_failed (unstarted : Unstarted host history x) (known : Bool) :
    Unstarted host history
      ((x.step host (.start (if known then some history else none))).step host .earlyReturn) := by
  obtain ⟨stage, running, today, risk⟩ := step_start host history unstarted known
  generalize x.step host (.start (if known then some history else none)) = y at *
  have kept : (y.step host .earlyReturn).manager.risk = y.manager.risk := by
    simp [step, perform, stage]
  have peak := unstarted.seeded_peak
  refine ⟨?_, ?_, ?_, ?_, ?_, ?_, ?_, ?_⟩
  · simp [step, perform, stage]
  · simp only [step, perform, stage, ↓reduceIte]
    exact running
  · simp only [step, perform, stage, ↓reduceIte]
    exact today
  all_goals rw [kept, risk]; cases known
  · exact unstarted.cfg
  · exact unstarted.cfg
  · exact unstarted.halted
  · exact unstarted.halted
  · exact unstarted.haltReason
  · exact unstarted.haltReason
  · exact unstarted.floor
  · exact (le_max_right _ _).trans peak.ge
  · exact unstarted.ceiling
  · exact peak.le

theorem unstarted_of_failedStarts (attempts : List Bool) (unstarted : Unstarted host history x) :
    Unstarted host history (Runs.run (step host) x (failedStarts history attempts)) := by
  induction attempts generalizing x with
  | nil => exact unstarted
  | cons known rest ih => exact ih (unstarted_failed host history unstarted known)

/-- The session setup of the first cycle resets the day. -/
theorem connect_risk (connection : Connection) (today : x.today = none) :
    (x.connect host connection).manager.risk = x.manager.risk.resetDaily := by
  have setup (y : Executor) : (y.freshStart host connection).manager.risk =
      y.manager.risk.resetDaily := by
    simp only [freshStart, onManager, halt]
    split
    · rfl
    · rfl
  simp only [connect, halt]
  split
  · simp [today, setup]
  · simp [today, setup]

/-- The manager after the session setup: seeded, and its day reset. -/
theorem freshlyStarted_risk (attempts : List Bool) (connection : Connection) :
    ∃ x, Unstarted host history x ∧
      (freshlyStarted host history attempts connection).manager.risk =
        { seeded host history x.manager.risk with dailyPnl := 0 } := by
  have start : Unstarted host history (fresh (RiskManager.opening host.cfg)) :=
    ⟨rfl, rfl, rfl, rfl, rfl, rfl, le_rfl, le_max_right _ _⟩
  have unstarted := unstarted_of_failedStarts host history attempts start
  refine ⟨_, unstarted, ?_⟩
  rw [freshlyStarted, Runs.run_append]
  generalize Runs.run (step host) (fresh (RiskManager.opening host.cfg))
    (failedStarts history attempts) = x at *
  obtain ⟨stage, -, today, risk⟩ := step_start host history unstarted true
  simp only [↓reduceIte] at stage today risk
  simp only [Runs.run_cons, Runs.run_nil]
  generalize x.step host (.start (some history)) = y at *
  have open_ : (seeded host history x.manager.risk).halted = false := unstarted.halted
  have day : (y.step host (.connected connection)).manager.risk = y.manager.risk.resetDaily := by
    simp only [step, perform, stage, ↓reduceIte]
    exact connect_risk host connection today
  rw [day, risk]
  simp [RiskManager.resetDaily, open_]

/-- A restart refunds nothing exactly where nothing was realised before it on that day. -/
theorem restart_refunds_nothing_iff (attempts : List Bool) (connection : Connection) :
    RefundsNothing host.cfg history
        (freshlyStarted host history attempts connection).manager.risk ↔
      history.dailyPnl = 0 := by
  obtain ⟨x, unstarted, risk⟩ := freshlyStarted_risk host history attempts connection
  rw [risk]
  constructor
  · intro kept
    exact kept.dailyPnl.symm
  · intro none
    have same : Unrestarted host.cfg history
        { seeded host history x.manager.risk with dailyPnl := 0 } := {
      config := unstarted.cfg
      totalProfit := rfl
      equity := rfl
      peakEquity := unstarted.seeded_peak
      dailyPnl := none.symm
      halted := unstarted.halted
      haltReason := unstarted.haltReason }
    exact same.refundsNothing

/-- A process that lost half of the limit restarts and may lose it whole again. -/
theorem restart_refunds_day :
    let history : AccountHistory := { totalPnl := -500, peakEquity := 50000, dailyPnl := -500 }
    ¬RefundsNothing {} history (freshlyStarted {} history [] {}).manager.risk ∧
      (freshlyStarted {} history [] {}).manager.risk.decisions [-600] = [none] := by
  refine ⟨?_, by decide +kernel⟩
  intro kept
  have day := kept.dailyPnl
  revert day
  decide +kernel

end Executor

end RithmicEngine
