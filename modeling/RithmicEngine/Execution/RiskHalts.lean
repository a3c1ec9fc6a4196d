import RithmicEngine.Base.Runs
import RithmicEngine.Execution.RiskManager
/-!
# The life of a risk halt

Every operation of the risk manager as an input, and beside a run the question
whether an account-level cause of a halt has occurred and was not cleared by
hand: a closed trade that leaves the drawdown at its cap or the day above the
consistency cap, an amount that is no number, or a halt from outside. The daily
reset decides by the text of the last halt whether it clears, and the daily limit
is checked before the other two, so the text may name the daily limit while an
account-level cause is in force. Exactly such a reset loses the halt.
-/
namespace RithmicEngine

inductive RiskOp
  | tradePnl (pnl : Option ℚ)
  | resetDaily
  | updateUnrealized (pnl : Option ℚ)
  | haltExternal (reason : String)
  | clearHalt
  | seedTotalProfit (historicalPnl : ℚ)
  | seedDailyPnl (todayPnl : ℚ)
  | setEquity (eq : ℚ)
  deriving DecidableEq

namespace RiskManager

def step (risk : RiskManager) (op : RiskOp) : RiskManager :=
  match op with
  | .tradePnl pnl => risk.onTradePnl pnl
  | .resetDaily => risk.resetDaily
  | .updateUnrealized pnl => risk.updateUnrealized pnl
  | .haltExternal reason => risk.haltExternal reason
  | .clearHalt => risk.clearHalt
  | .seedTotalProfit historicalPnl => risk.seedTotalProfit historicalPnl
  | .seedDailyPnl todayPnl => risk.seedDailyPnl todayPnl
  | .setEquity eq => risk.setEquity eq

/-! ## Account-level causes -/

def drawdownReached (risk : RiskManager) : Prop :=
  risk.peakEquity - risk.equity ≥ risk.cfg.trailingDrawdownCap
deriving Decidable

def consistencyExceeded (risk : RiskManager) : Prop :=
  risk.cfg.cycleMode = false ∧ risk.totalProfit - risk.dailyPnl ≥ 500 ∧ risk.dailyPnl > 0 ∧
    risk.dailyPnl / (risk.totalProfit - risk.dailyPnl) > risk.cfg.consistencyCapPct
deriving Decidable

/-- The operation is an account-level cause of a halt. -/
def Causes (risk : RiskManager) : RiskOp → Prop
  | .tradePnl none => True
  | .tradePnl (some pnl) => drawdownReached (risk.book pnl) ∨ consistencyExceeded (risk.book pnl)
  | .haltExternal _ => True
  | _ => False

instance (risk : RiskManager) (op : RiskOp) : Decidable (Causes risk op) := by
  unfold Causes
  split
  all_goals infer_instance

/-- Whether an account-level cause is in force after an operation. -/
def inForce (latched : Bool) (risk : RiskManager) (op : RiskOp) (_ : RiskManager) : Bool :=
  match op with
  | .clearHalt => false
  | _ => latched || decide (Causes risk op)

/-- An account-level cause that is in force halts. -/
def Persists (pair : RiskManager × Bool) : Prop := pair.2 = true → pair.1.halted = true
deriving Decidable

/-- The daily reset takes the halt for one of the daily limit. -/
def Lifts (risk : RiskManager) (op : RiskOp) : Prop :=
  op = .resetDaily ∧ (risk.haltReason.any HaltReason.isDailyLossLimit) = true
deriving Decidable

/-! ## One operation -/

variable (risk : RiskManager)

/-- A breach of the drawdown or of the consistency cap always halts, whichever
limit gives the reason. -/
theorem checkLimits_causes (breach : drawdownReached risk ∨ consistencyExceeded risk) :
    risk.checkLimits.halted = true := by
  simp only [checkLimits]
  split
  · rfl
  · split
    · rfl
    next noDrawdown =>
      rcases breach with drawdown | consistency
      · exact absurd drawdown noDrawdown
      · have cap : risk.cfg.cycleMode = false ∧ risk.totalProfit - risk.dailyPnl ≥ 500 ∧
            risk.dailyPnl > 0 ∧
            risk.dailyPnl / (risk.totalProfit - risk.dailyPnl) > risk.cfg.consistencyCapPct :=
          consistency
        simp only [cap, and_self, ↓reduceIte]
        rfl

/-- Every account-level cause halts. -/
theorem causes_halted (op : RiskOp) (causes : Causes risk op) : (risk.step op).halted = true := by
  cases op with
  | tradePnl pnl =>
    cases pnl with
    | none => rfl
    | some pnl => exact checkLimits_causes (risk.book pnl) causes
  | haltExternal reason => rfl
  | _ => exact causes.elim

/-- The daily reset keeps a halt exactly where its reason is not the daily limit. -/
theorem resetDaily_halted (halted : risk.halted = true) :
    risk.resetDaily.halted = true ↔ (risk.haltReason.any HaltReason.isDailyLossLimit) = false := by
  simp only [resetDaily, halted, ↓reduceIte]
  cases risk.haltReason with
  | none => simp
  | some reason =>
    cases daily : reason.isDailyLossLimit with
    | true => simp [daily]
    | false => simp [daily]

/-- No operation but the daily reset and the clear by hand lifts a halt. -/
theorem step_halted (op : RiskOp) (halted : risk.halted = true) (reset : op ≠ .resetDaily)
    (clear : op ≠ .clearHalt) : (risk.step op).halted = true := by
  cases op with
  | tradePnl pnl => exact onTradePnl_halted risk pnl halted
  | resetDaily => exact absurd rfl reset
  | updateUnrealized pnl =>
    cases pnl with
    | none => exact halted
    | some pnl => exact halted
  | haltExternal reason => rfl
  | clearHalt => exact absurd rfl clear
  | seedTotalProfit historicalPnl => exact halted
  | seedDailyPnl todayPnl => exact halted
  | setEquity eq => exact halted

/-- One operation keeps an account-level halt exactly where it is not a reset
that takes the halt for one of the daily limit. -/
theorem persists_step (pair : RiskManager × Bool) (op : RiskOp) (persists : Persists pair) :
    Persists (Runs.observe step inForce pair op) ↔ (pair.2 = true → ¬Lifts pair.1 op) := by
  obtain ⟨risk, latched⟩ := pair
  constructor
  · rintro kept cause ⟨rfl, daily⟩
    have halted : risk.halted = true := persists cause
    have after : risk.resetDaily.halted = true := by
      apply kept
      simp only [Runs.observe, inForce]
      rw [show latched = true from cause, Bool.true_or]
    rw [(resetDaily_halted risk halted).mp after] at daily
    exact absurd daily Bool.false_ne_true
  · intro safe inForceAfter
    by_cases clear : op = .clearHalt
    · subst clear
      exact absurd inForceAfter Bool.false_ne_true
    · cases latched with
      | false =>
        have causes : Causes risk op := by
          cases op with
          | clearHalt => exact absurd rfl clear
          | _ =>
            simpa only [Runs.observe, inForce, Bool.false_or, decide_eq_true_eq]
              using inForceAfter
        exact causes_halted risk op causes
      | true =>
        have halted : risk.halted = true := persists rfl
        by_cases reset : op = .resetDaily
        · subst reset
          apply (resetDaily_halted risk halted).mpr
          by_contra daily
          exact safe rfl ⟨rfl, by simpa only [Bool.not_eq_false] using daily⟩
        · exact step_halted risk op halted reset clear

/-! ## Runs -/

/-- A halt with an account-level cause stays until it is cleared by hand, after
every operation of a run, exactly where no daily reset of the run finds the daily
limit as the reason while such a cause is in force. -/
theorem account_halt_survives_iff (risk : RiskManager) (ops : List RiskOp) :
    Runs.Along (Runs.observe step inForce)
        (fun pair op => Persists (Runs.observe step inForce pair op)) (risk, false) ops ↔
      Runs.Along (Runs.observe step inForce)
        (fun pair op => pair.2 = true → ¬Lifts pair.1 op) (risk, false) ops := by
  apply Runs.along_invariant_iff
  · exact fun pair op persists => persists_step pair op persists
  · exact fun latched => absurd latched Bool.false_ne_true

/-- A close that breaches the drawdown and the daily limit at once: the next
daily reset lifts the halt, with the drawdown still at the cap. -/
theorem drawdown_halt_lifted :
    ¬Runs.Along (Runs.observe step inForce)
        (fun pair op => Persists (Runs.observe step inForce pair op))
        (({ } : RiskManager), false) [.tradePnl (some (-2600)), .resetDaily] := by
  decide +kernel

end RiskManager

end RithmicEngine
