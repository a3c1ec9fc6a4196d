import RithmicEngine.Execution.LedgerRefinement
/-!
# What a closing trade leaves behind

The exchange stop level, the breach timer, the resubmit window and the reject
count live outside the position record and belong to one trade. A closing fill
brings all four back to their initial values, on every path that closes a
position by a fill and in a dry run too. Adopting an external close leaves them
as they are. So the closes of a run leave the control state initial exactly when
every external close found it initial.
-/
namespace RithmicEngine.OrderManager

open Runs

variable {host : Host}

/-- The members that belong to the trade but lie outside its record. -/
def control (s : OrderManager) : ℚ × Int × Bool × Nat :=
  (s.lastExchangeSl, s.slBreachTime, s.stopResubmitPending, s.rejectedExitCount)

/-- The control state of a manager that never traded. -/
def ControlInitial (s : OrderManager) : Prop := s.control = (0, 0, false, 0)
deriving Decidable

/-- A position is held: open, or with its exit under way. -/
def Engaged (s : OrderManager) : Prop :=
  s.pos.state = .long ∨ s.pos.state = .short ∨ s.pos.state = .pendingExit
deriving Decidable

/-- The call takes a held position to flat. -/
def Closes (host : Host) (s : OrderManager) (call : Call) : Prop :=
  s.Engaged ∧ (step host s call).pos.state = .flat
deriving Decidable

/-- The call adopts an external close. -/
def IsExternalClose (op : Op) : Bool :=
  match op with
  | .externalClose _ _ => true
  | _ => false

/-- Flat only with the control state at its initial value. -/
def Settled (s : OrderManager) : Prop := s.pos.state = .flat → s.ControlInitial

theorem settled_of_state {s : OrderManager} (busy : s.pos.state ≠ .flat) : s.Settled :=
  fun flat => absurd flat busy

theorem Engaged.ne_flat {s : OrderManager} (engaged : s.Engaged) : s.pos.state ≠ .flat := by
  obtain long | short | closing := engaged
  · rw [long]
    decide
  · rw [short]
    decide
  · rw [closing]
    decide

theorem Engaged.ne_pending {s : OrderManager} (engaged : s.Engaged) :
    s.pos.state ≠ .pendingEntry := by
  obtain long | short | closing := engaged
  · rw [long]
    decide
  · rw [short]
    decide
  · rw [closing]
    decide

theorem settled_of_pendingExit {s : OrderManager} (closing : s.pos.state = .pendingExit) :
    s.Settled := by
  refine settled_of_state ?_
  rw [closing]
  decide

/-! ## Stops never change the state of a position -/

theorem updateStop_state (newSl : ℚ) (force : Bool) (s : OrderManager) :
    (updateStopOrderLocked host newSl force s).pos.state = s.pos.state := by
  simp only [updateStopOrderLocked]
  split_ifs
  · rfl
  · rfl
  · exact submitStop_state newSl s
  · exact (submitStop_state newSl _).trans (cancelStop_state _)

theorem tightenStop_state (level : ℚ) (s : OrderManager) :
    (tightenStop host level s).1.pos.state = s.pos.state := by
  simp only [tightenStop]
  split
  · exact updateStop_state level false _
  · rfl

variable (now : Int) (basket : String) (fillPrice currentPrice : ℚ) (reason : String)
  (fillQty : Int) (s : OrderManager)

theorem breakEven_state : (breakEven host s).1.pos.state = s.pos.state := by
  simp only [breakEven]
  split
  · split
    · exact updateStop_state _ true _
    · rfl
  · rfl

theorem trail_state :
    (trail host currentPrice (activateTrail host now s)).1.pos.state = s.pos.state := by
  have activated : (activateTrail host now s).pos.state = s.pos.state := by
    simp only [activateTrail]
    split
    · rfl
    · rfl
  simp only [trail]
  split
  · exact (tightenStop_state _ _).trans activated
  · exact activated

/-! ## Every fill that closes settles the control state -/

/-- A closing fill ends in the initial control state; a partial one stays engaged. -/
theorem exitFill_settled (busy : s.pos.state ≠ .flat) :
    (exitFill host basket fillPrice fillQty s).Settled := by
  simp only [exitFill]
  split
  · exact settled_of_state busy
  · exact fun _ => rfl

theorem accumulateFill_pos : (accumulateFill basket fillPrice fillQty s).1.pos = s.pos := by
  simp only [accumulateFill]
  split
  · rfl
  · rfl

theorem sendUnwind_pos (fired : String) (fillPrice : ℚ) (unwindIsBuy : Bool) (userTag : String)
    (register : Bool) (s : OrderManager) :
    (sendUnwind host fired fillPrice unwindIsBuy userTag register s).pos = s.pos := by
  simp only [sendUnwind]
  split
  · rfl
  · rfl

theorem flatFill_state : (flatFill host basket fillPrice s).pos.state = s.pos.state := by
  simp only [flatFill]
  repeat' split
  all_goals first
    | rfl
    | rw [sendUnwind_pos]
      rfl

/-- A fill notification of a held position settles it or leaves it held. -/
theorem onFill_settled (isEntryFill : Bool) (s : OrderManager) (engaged : s.Engaged) :
    (onFillNotificationLocked host now basket fillPrice fillQty isEntryFill s).Settled := by
  have same := accumulateFill_pos basket fillPrice fillQty s
  simp only [onFillNotificationLocked]
  generalize accumulateFill basket fillPrice fillQty s = accumulated at same ⊢
  obtain ⟨c, price⟩ := accumulated
  have held : c.Engaged := by
    simp only [Engaged, show c.pos = s.pos from same]
    exact engaged
  have busy := held.ne_flat
  have notPending := held.ne_pending
  cases isEntryFill with
  | true =>
    simp only [↓reduceIte, notPending, ne_eq, not_false_eq_true, lateEntryFill]
    split
    · refine settled_of_state ?_
      rw [sendUnwind_pos]
      exact busy
    · exact settled_of_state busy
  | false =>
    have open_ : ¬(c.pos.state ≠ .pendingExit ∧ c.pos.state ≠ .long ∧ c.pos.state ≠ .short) := by
      rintro ⟨closing, long, short⟩
      exact held.elim long (fun rest => rest.elim short closing)
    simp only [Bool.false_eq_true, ↓reduceIte, open_]
    exact exitFill_settled basket price fillQty c busy

/-- Starting an exit leaves the position held, or closes it at once in a dry run. -/
theorem initiateExit_settled (refPrice : ℚ) (s : OrderManager) (busy : s.pos.state ≠ .flat) :
    (initiateExitLocked host now reason refPrice s).Settled := by
  simp only [initiateExitLocked]
  split_ifs
  · exact settled_of_state busy
  · exact onFill_settled now _ refPrice _ false _ (Or.inr (Or.inr rfl))
  · split
    · exact settled_of_pendingExit rfl
    · split_ifs
      · exact settled_of_pendingExit rfl
      · refine settled_of_state ?_
        rw [revertExit, submitStop_state]
        obtain long | short := heldState_open (cancelStopLocked host
          { s with slBreachTime := 0, stopResubmitPending := false }).pos.direction
        · exact fun flat => absurd (long.symm.trans flat) (by decide)
        · exact fun flat => absurd (short.symm.trans flat) (by decide)

/-- The breach check settles, and without an exit the position is as it was. -/
theorem checkBreach_settled (host : Host) (now : Int) (currentPrice : ℚ) (s : OrderManager)
    (busy : s.pos.state ≠ .flat) :
    (checkBreach host now currentPrice s).1.Settled ∧
      ((checkBreach host now currentPrice s).2 = false →
        (checkBreach host now currentPrice s).1.pos.state ≠ .flat) := by
  simp only [checkBreach]
  split_ifs
  · exact ⟨initiateExit_settled now _ currentPrice _ busy, fun kept => absurd kept (by decide)⟩
  · exact ⟨initiateExit_settled now _ currentPrice _ busy, fun kept => absurd kept (by decide)⟩
  · exact ⟨settled_of_state busy, fun _ => busy⟩
  · exact ⟨initiateExit_settled now _ currentPrice _ busy, fun kept => absurd kept (by decide)⟩
  · exact ⟨settled_of_state busy, fun _ => busy⟩
  · exact ⟨settled_of_state busy, fun _ => busy⟩

/-- The price check leaves a busy manager settled. -/
theorem checkTrail_settled (busy : s.pos.state ≠ .flat) :
    (checkTrailAndStop host now currentPrice s).1.Settled := by
  simp only [checkTrailAndStop]
  split
  · exact settled_of_state busy
  · have breach := checkBreach_settled host now currentPrice
      (trackExcursion currentPrice s) busy
    generalize checkBreach host now currentPrice (trackExcursion currentPrice s) = checked
      at breach ⊢
    obtain ⟨c, exited⟩ := checked
    cases exited with
    | true => exact breach.1
    | false =>
      have still : c.pos.state ≠ .flat := breach.2 rfl
      simp only [Bool.false_eq_true, ↓reduceIte]
      split
      · exact initiateExit_settled now _ currentPrice _ still
      · refine settled_of_state ?_
        rw [trail_state, breakEven_state]
        exact still

/-- The check with a strategy's stop leaves a busy manager settled. -/
theorem checkExternal_settled (stratStop : Option ℚ) (s : OrderManager)
    (busy : s.pos.state ≠ .flat) :
    (checkExternalStop host now currentPrice stratStop s).1.Settled := by
  simp only [checkExternalStop]
  split
  · exact settled_of_state busy
  · have breach := checkBreach_settled host now currentPrice
      (trackExcursion currentPrice s) busy
    generalize checkBreach host now currentPrice (trackExcursion currentPrice s) = checked
      at breach ⊢
    obtain ⟨c, exited⟩ := checked
    cases exited with
    | true => exact breach.1
    | false =>
      have still : c.pos.state ≠ .flat := breach.2 rfl
      simp only [Bool.false_eq_true, ↓reduceIte]
      cases stratStop with
      | none => exact settled_of_state still
      | some level =>
        dsimp only
        split
        · refine settled_of_state ?_
          rw [tightenStop_state]
          exact still
        · exact settled_of_state still

/-- Flattening leaves a flat manager settled. -/
theorem flattenNow_settled (price : ℚ) (s : OrderManager) (engaged : s.Engaged) :
    (flattenNow host now reason price s).Settled := by
  simp only [flattenNow]
  split
  next flat => exact absurd flat engaged.ne_flat
  next pending => exact absurd pending engaged.ne_pending
  next => exact settled_of_state engaged.ne_flat
  next => exact initiateExit_settled now reason price s engaged.ne_flat
  next => exact initiateExit_settled now reason price s engaged.ne_flat

/-- A signal leaves a flat manager with its control state at the initial value. -/
theorem onSignal_settled (sig : OrbSignal) (price desiredSlDist : ℚ) (s : OrderManager)
    (engaged : s.Engaged) : (onSignal host now sig price desiredSlDist s).Settled := by
  have busy := engaged.ne_flat
  cases sig with
  | none => exact settled_of_state busy
  | buy =>
    simp only [onSignal, busy, ne_eq, not_false_eq_true, ↓reduceIte, ite_self]
    exact settled_of_state busy
  | sell =>
    simp only [onSignal, busy, ne_eq, not_false_eq_true, ↓reduceIte, ite_self]
    exact settled_of_state busy
  | flattenEod => exact flattenNow_settled now "eod_flatten" price s engaged

/-- A rejection leaves a flat manager with its control state at the initial value. -/
theorem onOrderRejected_settled (engaged : s.Engaged) :
    (onOrderRejected host now basket s).Settled := by
  have busy := engaged.ne_flat
  have reopened : heldState s.pos.direction ≠ .flat := by
    obtain long | short := heldState_open s.pos.direction
    · rw [long]
      decide
    · rw [short]
      decide
  simp only [onOrderRejected, engaged.ne_pending, and_false, ↓reduceIte]
  split
  · split
    · exact initiateExit_settled now "rejected_exit_retry" 0 _ reopened
    · exact settled_of_state reopened
  · split
    · exact settled_of_state busy
    · exact settled_of_state busy

theorem onCancelFailed_state (id : String) (s : OrderManager) :
    (onCancelFailed host id s).pos.state = s.pos.state := by
  simp only [onCancelFailed]
  split_ifs
  all_goals first
    | rfl
    | exact cancelStop_state _

/-- The retry of a stuck exit leaves a flat manager settled. -/
theorem retryStuckExit_settled (engaged : s.Engaged) :
    (retryStuckExit host now currentPrice s).Settled := by
  simp only [retryStuckExit]
  split
  · exact settled_of_state engaged.ne_flat
  · split
    · exact settled_of_state engaged.ne_flat
    · refine initiateExit_settled now _ currentPrice _ ?_
      obtain long | short := heldState_open (guardExit host s).pos.direction
      · exact fun flat => absurd (long.symm.trans flat) (by decide)
      · exact fun flat => absurd (short.symm.trans flat) (by decide)

/-! ## External closes -/

/-- Adopting an external close leaves the control state as it was. -/
theorem adoptExternalClose_control (refPrice : ℚ) (reason : String) (s : OrderManager) :
    (adoptExternalClose host refPrice reason s).control = s.control := by
  have cancelled : (cancelStopLocked host s).control = s.control := by
    simp only [cancelStopLocked]
    split
    · rfl
    · rfl
  simp only [adoptExternalClose]
  split
  · rfl
  · exact cancelled

/-- Adopting an external close of a held position makes it flat. -/
theorem adoptExternalClose_flat (refPrice : ℚ) (reason : String) (s : OrderManager)
    (engaged : s.Engaged) : (adoptExternalClose host refPrice reason s).pos.state = .flat := by
  have held : ¬(s.pos.state ≠ .long ∧ s.pos.state ≠ .short ∧ s.pos.state ≠ .pendingExit) := by
    rintro ⟨long, short, closing⟩
    exact engaged.elim long (fun rest => rest.elim short closing)
  simp [adoptExternalClose, held]

/-! ## Steps and runs -/

/-- Every other call of a held position keeps it held or settles it. -/
theorem step_settled (call : Call) (engaged : s.Engaged) (own : IsExternalClose call.op = false) :
    (step host s call).Settled := by
  have held : ({ s with outbox := [] } : OrderManager).Engaged := engaged
  have busy := held.ne_flat
  simp only [step]
  generalize ({ s with outbox := [] } : OrderManager) = c at held busy ⊢
  obtain ⟨now, op⟩ := call
  cases op with
  | signal sig price dist => exact onSignal_settled now sig price dist c held
  | fill basket price qty isEntry => exact onFill_settled now basket price qty isEntry c held
  | checkTrail price => exact checkTrail_settled now price c busy
  | checkExternal price stratStop => exact checkExternal_settled now price stratStop c busy
  | flatten reason price => exact flattenNow_settled now reason price c held
  | retryStuckExit price => exact retryStuckExit_settled now price c held
  | entryTimeout secs =>
    simp only [perform, pendingEntryTimeoutCheck, held.ne_pending, ne_eq, not_false_eq_true,
      ↓reduceIte]
    exact settled_of_state busy
  | rejected basket => exact onOrderRejected_settled now basket c held
  | externalClose refPrice reason => exact absurd own (by simp only [IsExternalClose]; decide)
  | cancelConfirmedByServer server =>
    simp only [perform, onCancelConfirmedByServerBasket]
    split
    · exact settled_of_state busy
    · exact settled_of_state busy
  | cancelFailed id =>
    refine settled_of_state ?_
    rw [perform, onCancelFailed_state]
    exact busy
  | stopServerMapped client server =>
    refine settled_of_state ?_
    simp only [perform, onStopServerMapped]
    split_ifs
    all_goals exact busy
  | mapServer client server =>
    refine settled_of_state ?_
    simp only [perform, mapServerBasket]
    split_ifs
    all_goals exact busy
  | fillProcessed basket qty =>
    refine settled_of_state ?_
    simp only [perform, fillAlreadyProcessed]
    split_ifs
    all_goals exact busy
  | recancel =>
    refine settled_of_state ?_
    simp only [perform, recancelPendingStops]
    split_ifs
    all_goals exact busy
  | popCompleted =>
    refine settled_of_state ?_
    simp only [perform, popTradeCompleted]
    split_ifs
    all_goals exact busy
  | _ => exact settled_of_state busy

/-- A close leaves the control state initial, unless an external one is adopted over a state that
is not. -/
theorem control_flat_iff (call : Call) :
    (Closes host s call → (step host s call).ControlInitial) ↔
      (s.Engaged → IsExternalClose call.op = true → s.ControlInitial) := by
  obtain ⟨now, op⟩ := call
  constructor
  · intro settles engaged external
    cases op with
    | externalClose refPrice reason =>
      have flat : (step host s ⟨now, .externalClose refPrice reason⟩).pos.state = .flat :=
        adoptExternalClose_flat refPrice reason { s with outbox := [] } engaged
      have initial := settles ⟨engaged, flat⟩
      have same : (step host s ⟨now, .externalClose refPrice reason⟩).control = s.control :=
        adoptExternalClose_control refPrice reason { s with outbox := [] }
      exact same.symm.trans initial
    | _ => exact absurd external (by simp only [IsExternalClose]; decide)
  · rintro found ⟨engaged, flat⟩
    cases external : IsExternalClose op with
    | false => exact step_settled s ⟨now, op⟩ engaged external flat
    | true =>
      cases op with
      | externalClose refPrice reason =>
        have same : (step host s ⟨now, .externalClose refPrice reason⟩).control = s.control :=
          adoptExternalClose_control refPrice reason { s with outbox := [] }
        exact same.trans (found engaged external)
      | _ => exact absurd external (by simp only [IsExternalClose]; decide)

/-- In every run of a newly constructed manager, every close leaves the control
state initial exactly when no external close finds it changed. -/
theorem closes_isolated_iff (host : Host) (risk : RiskManager) (seq : Nat)
    (calls : List Call) :
    Along (step host) (fun s call => Closes host s call → (step host s call).ControlInitial)
        (fresh risk seq) calls ↔
      Along (step host)
        (fun s call => s.Engaged → IsExternalClose call.op = true → s.ControlInitial)
        (fresh risk seq) calls :=
  along_congr (step host) (fun s call => control_flat_iff s call) (fresh risk seq) calls

/-- A filled entry closed at the exchange leaves its stop level to the next trade. -/
theorem external_close_leaks :
    ¬∀ (host : Host) (risk : RiskManager) (seq : Nat) (calls : List Call),
      Along (step host) (fun s call => Closes host s call → (step host s call).ControlInitial)
        (fresh risk seq) calls := by
  intro isolated
  have leak := isolated .accepting {} 0
    [⟨1, .signal .buy 100 0⟩, ⟨2, .fill "MNQ-0-0" 100 1 true⟩,
      ⟨3, .externalClose 90 "external_close"⟩]
  revert leak
  decide +kernel

end RithmicEngine.OrderManager
