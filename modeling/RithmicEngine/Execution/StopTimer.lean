import RithmicEngine.Execution.Journal
import RithmicEngine.Execution.OverExit
import RithmicEngine.Execution.StopRatchet
/-!
# The timer of the software stop

A price check that finds the stop breached sends an exit at once when no exchange stop
stands, or when the stop has just been replaced. Otherwise it starts a timer, and a later
check sends the exit when the exchange stop has not answered within the timeout. A check
that finds the stop in order clears the timer. Nothing but an exit and a closing fill
clears it elsewhere, and nothing but a check starts it.
-/
namespace RithmicEngine

open Runs

/-- The price that a check compares with the stop. -/
def Call.checks (call : Call) : Option ℚ :=
  match call.op with
  | .checkTrail price => some price
  | .checkExternal price _ => some price
  | _ => none

/-- Operations that only a report of the exchange brings about. -/
def Op.isNotification : Op → Bool
  | .fill _ _ _ _ => true
  | .fillProcessed _ _ => true
  | .rejected _ => true
  | .cancelConfirmed _ => true
  | .cancelConfirmedByServer _ => true
  | .cancelFailed _ => true
  | .stopServerMapped _ _ => true
  | .mapServer _ _ => true
  | .setStopServer _ => true
  | .externalClose _ _ => true
  | _ => false

namespace OrderManager

variable {host : Host}

/-- A check of the open position, if the call is one, sees a price at or through its stop. -/
def SeesBreach (s : OrderManager) (call : Call) : Prop :=
  ∀ price, call.checks = some price → s.inTrade = true → s.slBreached price = true

/-- The calls send an exit order. -/
def SendsExit (host : Host) (s : OrderManager) (calls : List Call) : Prop :=
  exits (journal (step host) s calls).2 ≠ []

/-! ## Who writes the timer -/

/-- The timer is kept or cleared. -/
def KeepsTimer (s t : OrderManager) : Prop :=
  t.slBreachTime = s.slBreachTime ∨ t.slBreachTime = 0

theorem KeepsTimer.trans {s t u : OrderManager} (first : KeepsTimer s t)
    (second : KeepsTimer t u) : KeepsTimer s u := by
  rcases second with same | cleared
  · rcases first with before | cleared
    · exact Or.inl (same.trans before)
    · exact Or.inr (same.trans cleared)
  · exact Or.inr cleared

theorem submitStop_timer (slPrice : ℚ) (s : OrderManager) :
    (submitStopOrderLocked host slPrice s).slBreachTime = s.slBreachTime := by
  simp only [submitStopOrderLocked]
  split
  · rfl
  · split
    · rfl
    · split
      · rfl
      · rfl

theorem cancelStop_timer (s : OrderManager) :
    (cancelStopLocked host s).slBreachTime = s.slBreachTime := by
  simp only [cancelStopLocked]
  split
  · rfl
  · rfl

theorem updateStop_timer (newSl : ℚ) (force : Bool) (s : OrderManager) :
    (updateStopOrderLocked host newSl force s).slBreachTime = s.slBreachTime := by
  simp only [updateStopOrderLocked]
  split_ifs
  · rfl
  · rfl
  · exact submitStop_timer newSl s
  · exact (submitStop_timer newSl _).trans (cancelStop_timer _)

theorem cancelOrder_timer (clientId : String) (s : OrderManager) :
    (cancelOrderLocked host clientId s).slBreachTime = s.slBreachTime := by
  simp only [cancelOrderLocked]
  split
  · rfl
  · rfl

theorem sendUnwind_timer (fired : String) (fillPrice : ℚ) (unwindIsBuy : Bool)
    (userTag : String) (register : Bool) (s : OrderManager) :
    (sendUnwind host fired fillPrice unwindIsBuy userTag register s).slBreachTime =
      s.slBreachTime := by
  simp only [sendUnwind]
  split
  · rfl
  · rfl

variable (now : Int) (basket : String) (currentPrice : ℚ) (s : OrderManager)

theorem flatFill_timer (fillPrice : ℚ) (s : OrderManager) :
    (flatFill host basket fillPrice s).slBreachTime = s.slBreachTime := by
  simp only [flatFill]
  split
  · exact sendUnwind_timer _ _ _ _ _ _
  · split
    · exact sendUnwind_timer _ _ _ _ _ _
    · split
      · rfl
      · split
        · rfl
        · rfl

/-- A fill keeps the timer, unless it closes the position and clears it. -/
theorem onFill_timer (fillPrice : ℚ) (fillQty : Int) (isEntryFill : Bool) (s : OrderManager) :
    KeepsTimer s (onFillNotificationLocked host now basket fillPrice fillQty isEntryFill s) := by
  have same : (accumulateFill basket fillPrice fillQty s).1.slBreachTime = s.slBreachTime := by
    simp only [accumulateFill]
    split
    · rfl
    · rfl
  simp only [onFillNotificationLocked]
  generalize accumulateFill basket fillPrice fillQty s = accumulated at same ⊢
  obtain ⟨c, price⟩ := accumulated
  refine KeepsTimer.trans (Or.inl same) ?_
  dsimp only
  split
  · split
    · refine Or.inl ?_
      simp only [lateEntryFill]
      split
      · exact sendUnwind_timer _ _ _ _ _ _
      · rfl
    · refine Or.inl ?_
      simp only [entryFill]
      split
      · rfl
      · split
        · rfl
        · exact submitStop_timer _ _
  · split
    · exact Or.inl (flatFill_timer basket price c)
    · simp only [exitFill]
      split
      · exact Or.inl rfl
      · exact Or.inr rfl

theorem sendMarketOrder_timer (isBuy : Bool) (refPrice : ℚ) (userTag : String) (s : OrderManager) :
    KeepsTimer s (sendMarketOrder host now basket isBuy refPrice userTag s) := by
  simp only [sendMarketOrder]
  split
  · exact onFill_timer now basket refPrice _ true s
  · split
    · exact Or.inl rfl
    · split
      · exact Or.inl rfl
      · exact Or.inl rfl

/-- Starting an exit sets no timer. -/
theorem initiateExit_timer (reason : String) (refPrice : ℚ) (s : OrderManager) :
    KeepsTimer s (initiateExitLocked host now reason refPrice s) := by
  simp only [initiateExitLocked]
  split
  · exact Or.inl rfl
  · have cancelled := @cancelStop_timer host
      { s with slBreachTime := 0, stopResubmitPending := false }
    generalize cancelStopLocked host { s with slBreachTime := 0, stopResubmitPending := false } = c
      at cancelled ⊢
    have cleared : KeepsTimer s (beginExit host reason c) := Or.inr cancelled
    split
    · exact cleared.trans (onFill_timer now _ refPrice _ false _)
    · split
      · exact cleared
      · split
        · exact cleared
        · exact cleared.trans (Or.inl (submitStop_timer _ _))

theorem abandonEntry_timer : (abandonEntry host s).slBreachTime = s.slBreachTime :=
  cancelOrder_timer s.pos.basketIdEntry _

theorem flattenNow_timer (reason : String) (price : ℚ) (s : OrderManager) :
    KeepsTimer s (flattenNow host now reason price s) := by
  simp only [flattenNow]
  split
  · exact Or.inl rfl
  · exact Or.inl (abandonEntry_timer s)
  · exact Or.inl rfl
  · exact initiateExit_timer now reason price s
  · exact initiateExit_timer now reason price s

/-- Nor does a signal. -/
theorem onSignal_timer (sig : OrbSignal) (price desiredSlDist : ℚ) (s : OrderManager) :
    KeepsTimer s (onSignal host now sig price desiredSlDist s) := by
  have entry (sig : OrbSignal) :
      KeepsTimer s (if s.entryHalted || s.ghostHalted then s
        else if s.risk.canTrade = false then s
        else if s.pos.state ≠ .flat then s
        else openEntry host now sig price desiredSlDist s) := by
    split
    · exact Or.inl rfl
    · split
      · exact Or.inl rfl
      · split
        · exact Or.inl rfl
        · exact sendMarketOrder_timer now _ _ price "entry" _
  cases sig with
  | none => exact Or.inl rfl
  | flattenEod => exact flattenNow_timer now "eod_flatten" price s
  | buy => exact entry .buy
  | sell => exact entry .sell

/-- The retry of a stuck exit keeps the timer or clears it. -/
theorem retryStuckExit_timer : KeepsTimer s (retryStuckExit host now currentPrice s) := by
  simp only [retryStuckExit]
  split
  · exact Or.inl rfl
  · split
    · exact Or.inl rfl
    · have guarded : (guardExit host s).slBreachTime = s.slBreachTime := by
        simp only [guardExit]
        split
        · rfl
        · exact cancelOrder_timer s.pos.basketIdExit _
      exact KeepsTimer.trans (t := (guardExit host s).reopen) (Or.inl guarded)
        (initiateExit_timer now _ _ _)

theorem adoptExternalClose_timer (refPrice : ℚ) (reason : String) (s : OrderManager) :
    (adoptExternalClose host refPrice reason s).slBreachTime = s.slBreachTime := by
  simp only [adoptExternalClose]
  split
  · rfl
  · exact cancelStop_timer s

/-- A rejection keeps the timer or clears it. -/
theorem onOrderRejected_timer : KeepsTimer s (onOrderRejected host now basket s) := by
  simp only [onOrderRejected]
  split
  · exact Or.inl rfl
  · split
    · split
      · exact KeepsTimer.trans
          (t := { s.reopen with rejectedExitCount := s.rejectedExitCount + 1 })
          (Or.inl rfl) (initiateExit_timer now _ _ _)
      · exact Or.inl rfl
    · split
      · exact Or.inl rfl
      · exact Or.inl rfl

theorem onCancelFailed_timer (id : String) (s : OrderManager) :
    (onCancelFailed host id s).slBreachTime = s.slBreachTime := by
  simp only [onCancelFailed]
  split_ifs
  all_goals first
    | rfl
    | exact cancelStop_timer _

/-- A call that is no check keeps the timer or clears it. -/
theorem perform_timer (call : Call) (s : OrderManager) (none : call.checks = none) :
    KeepsTimer s (perform host call s) := by
  obtain ⟨now, op⟩ := call
  cases op with
  | signal sig price dist => exact onSignal_timer now sig price dist s
  | fill basket price qty isEntry => exact onFill_timer now basket price qty isEntry s
  | checkTrail price => exact absurd none (Option.some_ne_none price)
  | checkExternal price stratStop => exact absurd none (Option.some_ne_none price)
  | flatten reason price => exact flattenNow_timer now reason price s
  | retryStuckExit price => exact retryStuckExit_timer now price s
  | entryTimeout secs =>
    simp only [perform, pendingEntryTimeoutCheck]
    split
    · exact Or.inl rfl
    · split
      · exact Or.inl rfl
      · split
        · exact Or.inl rfl
        · exact Or.inl (abandonEntry_timer s)
  | rejected basket => exact onOrderRejected_timer now basket s
  | cancelConfirmedByServer server =>
    refine Or.inl ?_
    simp only [perform, onCancelConfirmedByServerBasket]
    split
    · rfl
    · rfl
  | cancelFailed id => exact Or.inl (onCancelFailed_timer id s)
  | stopServerMapped client server =>
    refine Or.inl ?_
    simp only [perform, onStopServerMapped]
    split_ifs
    all_goals rfl
  | mapServer client server =>
    refine Or.inl ?_
    simp only [perform, mapServerBasket]
    split_ifs
    all_goals rfl
  | externalClose refPrice reason => exact Or.inl (adoptExternalClose_timer refPrice reason s)
  | fillProcessed basket qty =>
    refine Or.inl ?_
    simp only [perform, fillAlreadyProcessed]
    split
    · rfl
    · rfl
  | recancel =>
    refine Or.inl ?_
    simp only [perform, recancelPendingStops]
    split
    · rfl
    · rfl
  | popCompleted =>
    refine Or.inl ?_
    simp only [perform, popTradeCompleted]
    split
    · rfl
    · rfl
  | _ => exact Or.inl rfl

theorem tightenStop_timer (level : ℚ) (s : OrderManager) :
    (tightenStop host level s).1.slBreachTime = s.slBreachTime := by
  simp only [tightenStop]
  split
  · exact updateStop_timer level false _
  · rfl

/-- What comes after the breach check keeps the timer or clears it. -/
theorem checkTrail_timer (trading : s.inTrade = true) :
    KeepsTimer (checkBreach host now currentPrice (trackExcursion currentPrice s)).1
      (checkTrailAndStop host now currentPrice s).1 := by
  have raised (t : OrderManager) : (breakEven host t).1.slBreachTime = t.slBreachTime := by
    simp only [breakEven]
    split
    · split
      · exact updateStop_timer _ true _
      · rfl
    · rfl
  have activated (t : OrderManager) : (activateTrail host now t).slBreachTime = t.slBreachTime := by
    simp only [activateTrail]
    split
    · rfl
    · rfl
  simp only [checkTrailAndStop, trading, Bool.true_eq_false, ↓reduceIte]
  generalize checkBreach host now currentPrice (trackExcursion currentPrice s) = checked
  obtain ⟨c, exited⟩ := checked
  dsimp only
  split
  · exact Or.inl rfl
  · split
    · exact KeepsTimer.trans (t := { c with slBreachTime := 0 }) (Or.inr rfl)
        (initiateExit_timer now "take_profit" currentPrice _)
    · refine Or.inl ?_
      simp only [trail]
      split
      · exact (tightenStop_timer _ _).trans ((activated _).trans (raised c))
      · exact (activated _).trans (raised c)

/-- In a trade the check of the strategy's stop keeps the timer or clears it. -/
theorem checkExternal_timer (stratStop : Option ℚ) (s : OrderManager) (trading : s.inTrade = true) :
    KeepsTimer (checkBreach host now currentPrice (trackExcursion currentPrice s)).1
      (checkExternalStop host now currentPrice stratStop s).1 := by
  simp only [checkExternalStop, trading, Bool.true_eq_false, ↓reduceIte]
  generalize checkBreach host now currentPrice (trackExcursion currentPrice s) = checked
  obtain ⟨c, exited⟩ := checked
  dsimp only
  split
  · exact Or.inl rfl
  · refine Or.inl ?_
    split
    · rfl
    · split
      · exact tightenStop_timer _ c
      · rfl

/-- A breached check may start the timer, and any other check clears it. -/
theorem checkBreach_timer (now : Int) (currentPrice : ℚ) (s : OrderManager) :
    if s.slBreached currentPrice then
      KeepsTimer s (checkBreach host now currentPrice s).1 ∨
        (checkBreach host now currentPrice s).1.slBreachTime = now
    else (checkBreach host now currentPrice s).1.slBreachTime = 0 := by
  have exits (reason : String) (t : OrderManager) (cleared : t.slBreachTime = 0) :
      KeepsTimer s (initiateExitLocked host now reason currentPrice t) :=
    KeepsTimer.trans (Or.inr cleared) (initiateExit_timer now reason currentPrice t)
  simp only [checkBreach]
  split
  · split
    · exact Or.inl (exits _ _ rfl)
    · split
      · exact Or.inl (exits _ _ rfl)
      · split
        · exact Or.inr rfl
        · split
          · exact Or.inl (exits _ _ rfl)
          · exact Or.inl (Or.inl rfl)
  · rfl

/-- The timer after a check of the open position. -/
theorem check_timer (s : OrderManager) (call : Call) (price : ℚ)
    (check : call.checks = some price) (trading : s.inTrade = true) :
    if s.slBreached price then
      KeepsTimer s (step host s call) ∨ (step host s call).slBreachTime = call.now
    else (step host s call).slBreachTime = 0 := by
  have breach := @checkBreach_timer host call.now price
    (trackExcursion price { s with outbox := [] })
  have follow (after : OrderManager)
      (rest : KeepsTimer (checkBreach host call.now price
        (trackExcursion price { s with outbox := [] })).1 after) :
      if s.slBreached price then KeepsTimer s after ∨ after.slBreachTime = call.now
        else after.slBreachTime = 0 := by
    have same : slBreached price (trackExcursion price { s with outbox := [] }) =
        s.slBreached price := rfl
    rw [same] at breach
    split
    next breached =>
      rw [if_pos breached] at breach
      rcases rest with same | cleared
      · rcases breach with (before | cleared) | started
        · exact Or.inl (Or.inl (same.trans before))
        · exact Or.inl (Or.inr (same.trans cleared))
        · exact Or.inr (same.trans started)
      · exact Or.inl (Or.inr cleared)
    next clear =>
      rw [if_neg clear] at breach
      rcases rest with same | cleared
      · exact same.trans breach
      · exact cleared
  obtain ⟨now, op⟩ := call
  cases op with
  | checkTrail at_ =>
    obtain rfl : at_ = price := Option.some.inj check
    exact follow _ (checkTrail_timer now at_ { s with outbox := [] } trading)
  | checkExternal at_ stratStop =>
    obtain rfl : at_ = price := Option.some.inj check
    exact follow _ (checkExternal_timer now at_ stratStop { s with outbox := [] } trading)
  | _ => exact absurd check (by simp [Call.checks])

/-- A check without an open position does nothing. -/
theorem check_idle (call : Call) (price : ℚ) (check : call.checks = some price)
    (idle : s.inTrade = false) : step host s call = { s with outbox := [] } := by
  obtain ⟨now, op⟩ := call
  cases op with
  | checkTrail at_ =>
    rw [step, perform]
    exact congrArg Prod.fst (if_pos idle)
  | checkExternal at_ stratStop =>
    rw [step, perform]
    exact congrArg Prod.fst (if_pos idle)
  | _ => exact absurd check (by simp [Call.checks])

/-! ## What sends an exit -/

section Sending

variable (live : host.Live) (accepts : ∀ basket, host.accepts basket = true)
include live accepts

variable (now : Int) (currentPrice : ℚ) (s : OrderManager) (call : Call) (price : ℚ)

/-- Starting an exit of an open position sends one exit order, under its reason. -/
theorem initiateExit_sends (reason : String) (refPrice : ℚ) (s : OrderManager)
    (trading : s.inTrade = true) :
    ∃ request, request.userTag = reason ∧
      exits (initiateExitLocked host now reason refPrice s).outbox =
        exits s.outbox ++ [request] := by
  have cancelled : exits (cancelStopLocked host
      { s with slBreachTime := 0, stopResubmitPending := false }).outbox = exits s.outbox :=
    cancelStop_exits _
  simp only [initiateExitLocked, trading, Bool.true_eq_false, ↓reduceIte, live.sends,
    Bool.false_eq_true, Host.orderCb_of_live live, accepts]
  generalize cancelStopLocked host { s with slBreachTime := 0, stopResubmitPending := false } = c
    at cancelled ⊢
  refine ⟨exitRequest host (host.basketId c.seq) reason refPrice (beginExit host reason c),
    rfl, ?_⟩
  simp only [emit, exits_append]
  rw [← cancelled]
  rfl

/-! ## What moving the stop keeps -/

/-- Moving the stop keeps the position open and its timer, and sends no exit. A stop that
stood before still stands, and the window of a replacement is open if one was sent. -/
structure Moved (s t : OrderManager) : Prop where
  trading : t.inTrade = s.inTrade
  timer : t.slBreachTime = s.slBreachTime
  exits : exits t.outbox = exits s.outbox
  pending : s.stopResubmitPending = true → t.stopResubmitPending = true
  stands : s.pos.basketIdStop ≠ "" → t.pos.basketIdStop ≠ ""
  replaced : s.pos.basketIdStop ≠ "" →
    stopPrices t.outbox = stopPrices s.outbox ∨ t.stopResubmitPending = true

omit live accepts in
theorem Moved.refl : Moved s s :=
  ⟨rfl, rfl, rfl, id, id, fun _ => Or.inl rfl⟩

omit live accepts in
/-- Two moves of the stop are one. -/
theorem Moved.trans {s t u : OrderManager} (first : Moved s t) (second : Moved t u) :
    Moved s u := by
  constructor
  · exact second.trading.trans first.trading
  · exact second.timer.trans first.timer
  · exact second.exits.trans first.exits
  · exact fun open_ => second.pending (first.pending open_)
  · exact fun stop => second.stands (first.stands stop)
  · intro stop
    rcases second.replaced (first.stands stop) with same | open_
    · rcases first.replaced stop with before | open_
      · exact Or.inl (same.trans before)
      · exact Or.inr (second.pending open_)
    · exact Or.inr open_

/-- A stop order that is taken stands, and the window of a replacement stays as it is. -/
theorem submitStop_stands (slPrice : ℚ) (s : OrderManager) :
    (submitStopOrderLocked host slPrice s).pos.basketIdStop ≠ "" ∧
      (submitStopOrderLocked host slPrice s).stopResubmitPending = s.stopResubmitPending := by
  simp only [submitStopOrderLocked, live.sends, Bool.false_eq_true, ↓reduceIte,
    Host.orderCb_of_live live, accepts]
  exact ⟨host.basketId_ne_empty s.seq, trivial⟩

omit live accepts in
theorem cancelStop_pending :
    (cancelStopLocked host s).stopResubmitPending = s.stopResubmitPending := by
  simp only [cancelStopLocked]
  split
  · rfl
  · rfl

/-- Moving the stop order keeps the position open and its timer. -/
theorem updateStop_moved (newSl : ℚ) (force : Bool) (s : OrderManager) :
    Moved s (updateStopOrderLocked host newSl force s) := by
  constructor
  · exact inTrade_of_state (updateStop_state newSl force s)
  · exact updateStop_timer newSl force s
  · exact updateStop_exits newSl force s
  · intro open_
    simp only [updateStopOrderLocked]
    split
    · exact open_
    · split
      · exact open_
      · split
        · exact (submitStop_stands live accepts newSl s).2.trans open_
        · exact (submitStop_stands live accepts newSl _).2.trans (cancelStop_pending _)
  · intro stop
    simp only [updateStopOrderLocked]
    split
    · exact stop
    · split
      · exact stop
      · exact (submitStop_stands live accepts newSl _).1
  · intro stop
    simp only [updateStopOrderLocked, stop]
    split
    · exact Or.inl rfl
    · split
      · exact Or.inl rfl
      · refine Or.inr ?_
        exact (submitStop_stands live accepts newSl _).2.trans (cancelStop_pending _)

/-- Tightening is a move of the stop. -/
theorem tightenStop_moved (level : ℚ) (s : OrderManager) :
    Moved s (tightenStop host level s).1 := by
  simp only [tightenStop]
  split
  · have moved := updateStop_moved live accepts level false
      { s with pos := { s.pos with slPrice := level } }
    constructor
    · exact moved.trading
    · exact moved.timer
    · exact moved.exits
    · exact moved.pending
    · exact moved.stands
    · exact moved.replaced
  · exact .refl s

/-- The break-even move is a move of the stop. -/
theorem breakEven_moved : Moved s (breakEven host s).1 := by
  simp only [breakEven]
  split
  · split
    · have moved := updateStop_moved live accepts (breakEvenSl host s) true
        { s with pos := { s.pos with
            beTriggered := true, slPrice := breakEvenSl host s, beSlPrice := breakEvenSl host s } }
      constructor
      · exact moved.trading
      · exact moved.timer
      · exact moved.exits
      · exact moved.pending
      · exact moved.stands
      · exact moved.replaced
    · constructor
      · rfl
      · rfl
      · rfl
      · exact id
      · exact id
      · exact fun _ => Or.inl rfl
  · exact .refl s

/-- The trail is a move of the stop. -/
theorem trail_moved : Moved s (trail host currentPrice (activateTrail host now s)).1 := by
  have activated : Moved s (activateTrail host now s) := by
    simp only [activateTrail]
    split
    · constructor
      · rfl
      · rfl
      · rfl
      · exact id
      · exact id
      · exact fun _ => Or.inl rfl
    · exact .refl s
  simp only [trail]
  split
  · exact activated.trans (tightenStop_moved live accepts _ _)
  · exact activated

/-! ## One check of an open position -/

/-- A breached check sends an exit at once, or when the timer has run out. -/
def Overdue (host : Host) (now : Int) (s : OrderManager) : Prop :=
  s.pos.basketIdStop = "" ∨ s.stopResubmitPending = true ∨
    s.slBreachTime ≠ 0 ∧ (now - s.slBreachTime).tdiv 1000000 ≥ host.cfg.slFireTimeoutMs

/-- The breach check of an overdue stop sends an exit. -/
theorem checkBreach_overdue (trading : s.inTrade = true)
    (breached : s.slBreached currentPrice = true) (overdue : Overdue host now s) :
    (checkBreach host now currentPrice s).2 = true ∧
      exits (checkBreach host now currentPrice s).1.outbox ≠ [] := by
  have sends (reason : String) (t : OrderManager) (same : t.inTrade = true) :
      exits (initiateExitLocked host now reason currentPrice t).outbox ≠ [] := by
    obtain ⟨request, _, sent⟩ := initiateExit_sends live accepts now reason currentPrice t same
    rw [sent]
    exact List.append_ne_nil_of_right_ne_nil _ (List.cons_ne_nil _ _)
  simp only [checkBreach, breached, ↓reduceIte]
  split
  · exact ⟨rfl, sends _ _ trading⟩
  next stands =>
    split
    · exact ⟨rfl, sends _ _ trading⟩
    next settled =>
      obtain ⟨running, late⟩ := (overdue.resolve_left stands).resolve_left settled
      rw [if_neg running, if_pos late]
      exact ⟨rfl, sends _ _ trading⟩

omit live accepts in
/-- Otherwise a breached check starts the timer, or leaves it running. -/
theorem checkBreach_early (breached : s.slBreached currentPrice = true)
    (early : ¬Overdue host now s) :
    checkBreach host now currentPrice s =
      ({ s with slBreachTime := if s.slBreachTime = 0 then now else s.slBreachTime }, false) := by
  rw [Overdue, not_or, not_or] at early
  obtain ⟨stands, settled, waiting⟩ := early
  simp only [checkBreach, breached, ↓reduceIte]
  rw [if_neg stands, if_neg settled]
  split
  · rfl
  next running => rw [if_neg fun late => waiting ⟨running, late⟩]

omit live accepts in
/-- A check that its breach check has ended. -/
theorem checkTrail_ended (trading : s.inTrade = true)
    (ended : (checkBreach host now currentPrice (trackExcursion currentPrice s)).2 = true) :
    (checkTrailAndStop host now currentPrice s).1 =
      (checkBreach host now currentPrice (trackExcursion currentPrice s)).1 := by
  simp [checkTrailAndStop, trading, ended]

omit live accepts in
theorem checkExternal_ended (stratStop : Option ℚ) (s : OrderManager) (trading : s.inTrade = true)
    (ended : (checkBreach host now currentPrice (trackExcursion currentPrice s)).2 = true) :
    (checkExternalStop host now currentPrice stratStop s).1 =
      (checkBreach host now currentPrice (trackExcursion currentPrice s)).1 := by
  simp [checkExternalStop, trading, ended]

/-- What is left of a check when its breach check has not ended it: a take-profit exit,
or a move of the stop. -/
theorem checkTrail_rest (c : OrderManager) (trading : s.inTrade = true)
    (checked : checkBreach host now currentPrice (trackExcursion currentPrice s) = (c, false))
    (open_ : c.inTrade = true) :
    (∃ request, request.userTag = "take_profit" ∧
      exits (checkTrailAndStop host now currentPrice s).1.outbox = exits c.outbox ++ [request]) ∨
        Moved c (checkTrailAndStop host now currentPrice s).1 := by
  simp only [checkTrailAndStop, trading, Bool.true_eq_false, ↓reduceIte, checked,
    Bool.false_eq_true]
  split
  · exact Or.inl (initiateExit_sends live accepts now "take_profit" currentPrice
      { c with slBreachTime := 0 } open_)
  · refine Or.inr ?_
    exact (breakEven_moved live accepts c).trans (trail_moved live accepts now currentPrice _)

/-- Once the breach is checked, the rest is a move of the stop. -/
theorem checkExternal_rest (stratStop : Option ℚ) (s c : OrderManager) (trading : s.inTrade = true)
    (checked : checkBreach host now currentPrice (trackExcursion currentPrice s) = (c, false)) :
    Moved c (checkExternalStop host now currentPrice stratStop s).1 := by
  simp only [checkExternalStop, trading, Bool.true_eq_false, ↓reduceIte, checked,
    Bool.false_eq_true]
  cases stratStop with
  | none => exact .refl c
  | some level =>
    dsimp only
    split
    · exact tightenStop_moved live accepts _ c
    · exact .refl c

/-- One breached check sends an exit if the stop is overdue. If not, the position stays
open with the timer running, unless a take-profit exit is sent. -/
theorem check_step (check : call.checks = some price) (trading : s.inTrade = true)
    (breached : s.slBreached price = true) :
    exits (step host s call).outbox ≠ [] ∨
      ¬Overdue host call.now s ∧ (step host s call).inTrade = true ∧
        (step host s call).slBreachTime =
          if s.slBreachTime = 0 then call.now else s.slBreachTime := by
  have tracked : (trackExcursion price { s with outbox := [] }).inTrade = true := trading
  have sees : (trackExcursion price { s with outbox := [] }).slBreached price = true := breached
  by_cases overdue : Overdue host call.now (trackExcursion price { s with outbox := [] })
  · refine Or.inl ?_
    obtain ⟨exited, sent⟩ := checkBreach_overdue live accepts call.now price
      (trackExcursion price { s with outbox := [] }) tracked sees overdue
    obtain ⟨now, op⟩ := call
    cases op with
    | checkTrail at_ =>
      obtain rfl : at_ = price := Option.some.inj check
      rw [← checkTrail_ended now at_ { s with outbox := [] } trading exited] at sent
      exact sent
    | checkExternal at_ stratStop =>
      obtain rfl : at_ = price := Option.some.inj check
      rw [← checkExternal_ended now at_ stratStop { s with outbox := [] } trading exited] at sent
      exact sent
    | _ => exact absurd check (by simp [Call.checks])
  · have early := checkBreach_early call.now price _ sees overdue
    generalize timed : ({ trackExcursion price { s with outbox := [] } with
      slBreachTime := if (trackExcursion price { s with outbox := [] }).slBreachTime = 0 then
        call.now else (trackExcursion price { s with outbox := [] }).slBreachTime } :
          OrderManager) = c at early
    have open_ : c.inTrade = true := by rw [← timed]; exact trading
    have timer : c.slBreachTime = if s.slBreachTime = 0 then call.now else s.slBreachTime := by
      rw [← timed]
      rfl
    have finish (after : OrderManager) (moved : Moved c after) :
        exits after.outbox ≠ [] ∨ ¬Overdue host call.now s ∧ after.inTrade = true ∧
          after.slBreachTime = if s.slBreachTime = 0 then call.now else s.slBreachTime :=
      Or.inr ⟨overdue, moved.trading.trans open_, moved.timer.trans timer⟩
    obtain ⟨now, op⟩ := call
    cases op with
    | checkTrail at_ =>
      obtain rfl : at_ = price := Option.some.inj check
      rcases checkTrail_rest live accepts now at_ { s with outbox := [] } c trading early open_
        with ⟨request, _, sent⟩ | moved
      · refine Or.inl (ne_of_eq_of_ne sent ?_)
        exact List.append_ne_nil_of_right_ne_nil _ (List.cons_ne_nil _ _)
      · exact finish _ moved
    | checkExternal at_ stratStop =>
      obtain rfl : at_ = price := Option.some.inj check
      exact finish _ (checkExternal_rest live accepts now at_ stratStop { s with outbox := [] } c
        trading early)
    | _ => exact absurd check (by simp [Call.checks])

/-- The position stays open under a call, its timer and its window as they were. -/
def Waits (s t : OrderManager) : Prop :=
  t.inTrade = s.inTrade ∧ t.slBreachTime = s.slBreachTime ∧
    t.stopResubmitPending = s.stopResubmitPending

/-- A call that is neither a check nor brought about by the exchange flattens the
position, or leaves its timer alone. -/
theorem quiet_step (silent : call.op.isNotification = false) (none : call.checks = none)
    (trading : s.inTrade = true) :
    exits (step host s call).outbox ≠ [] ∨ Waits s (step host s call) := by
  have flattens (reason : String) (price : ℚ) :
      exits (flattenNow host call.now reason price { s with outbox := [] }).outbox ≠ [] := by
    obtain ⟨request, _, sent⟩ := initiateExit_sends live accepts call.now reason price
      { s with outbox := [] } trading
    have same : flattenNow host call.now reason price { s with outbox := [] } =
        initiateExitLocked host call.now reason price { s with outbox := [] } := by
      rcases shield_open trading with long | short
      · have long : s.pos.state = .long := long
        simp only [flattenNow, long]
      · have short : s.pos.state = .short := short
        simp only [flattenNow, short]
    rw [same, sent]
    exact List.append_ne_nil_of_right_ne_nil _ (List.cons_ne_nil _ _)
  have busy : s.pos.state ≠ .flat := by
    rcases shield_open trading with long | short
    · exact fun flat => absurd (Eq.trans long.symm flat) (by decide)
    · exact fun flat => absurd (Eq.trans short.symm flat) (by decide)
  have filled : s.pos.state ≠ .pendingEntry := by
    rcases shield_open trading with long | short
    · exact fun pending => absurd (Eq.trans long.symm pending) (by decide)
    · exact fun pending => absurd (Eq.trans short.symm pending) (by decide)
  have staying : s.pos.state ≠ .pendingExit := by
    rcases shield_open trading with long | short
    · exact fun closing => absurd (Eq.trans long.symm closing) (by decide)
    · exact fun closing => absurd (Eq.trans short.symm closing) (by decide)
  obtain ⟨now, op⟩ := call
  cases op with
  | signal sig price dist =>
    have ignored : Waits s (if s.entryHalted || s.ghostHalted then { s with outbox := [] }
        else if s.risk.canTrade = false then { s with outbox := [] }
        else if s.pos.state ≠ .flat then { s with outbox := [] }
        else openEntry host now sig price dist { s with outbox := [] }) := by
      rw [if_pos busy]
      split
      · exact ⟨rfl, rfl, rfl⟩
      · split
        · exact ⟨rfl, rfl, rfl⟩
        · exact ⟨rfl, rfl, rfl⟩
    cases sig with
    | none => exact Or.inr ⟨rfl, rfl, rfl⟩
    | flattenEod => exact Or.inl (flattens "eod_flatten" price)
    | buy => exact Or.inr ignored
    | sell => exact Or.inr ignored
  | flatten reason price => exact Or.inl (flattens reason price)
  | retryStuckExit price =>
    refine Or.inr ?_
    simp only [step, perform, retryStuckExit, ne_eq, staying, not_false_eq_true, ↓reduceIte]
    exact ⟨rfl, rfl, rfl⟩
  | entryTimeout secs =>
    refine Or.inr ?_
    simp only [step, perform, pendingEntryTimeoutCheck, ne_eq, filled, not_false_eq_true,
      ↓reduceIte]
    exact ⟨rfl, rfl, rfl⟩
  | recancel =>
    refine Or.inr ?_
    simp only [step, perform, recancelPendingStops]
    split
    · exact ⟨rfl, rfl, rfl⟩
    · exact ⟨rfl, rfl, rfl⟩
  | popCompleted =>
    refine Or.inr ?_
    simp only [step, perform, popTradeCompleted]
    split
    · exact ⟨rfl, rfl, rfl⟩
    · exact ⟨rfl, rfl, rfl⟩
  | clearRecancels => exact Or.inr ⟨rfl, rfl, rfl⟩
  | registerUnwind basket => exact Or.inr ⟨rfl, rfl, rfl⟩
  | confirmFlat => exact Or.inr ⟨rfl, rfl, rfl⟩
  | seedStop basket wasBuyStop => exact Or.inr ⟨rfl, rfl, rfl⟩
  | seedServer server client => exact Or.inr ⟨rfl, rfl, rfl⟩
  | host risk regime => exact Or.inr ⟨rfl, rfl, rfl⟩
  | checkTrail price => exact absurd none (Option.some_ne_none price)
  | checkExternal price stratStop => exact absurd none (Option.some_ne_none price)
  | _ => exact absurd silent (by simp [Op.isNotification])

/-- The exit order that a breach check sends, and that one sent for the timeout comes when
the timer has run out. -/
theorem checkBreach_exit (trading : s.inTrade = true)
    (exited : (checkBreach host now currentPrice s).2 = true) :
    ∃ request, exits (checkBreach host now currentPrice s).1.outbox = exits s.outbox ++ [request] ∧
      (request.userTag = "stop_loss_timeout" → s.slBreached currentPrice = true ∧
        s.slBreachTime ≠ 0 ∧
          (now - s.slBreachTime).tdiv 1000000 ≥ host.cfg.slFireTimeoutMs) := by
  have sends (reason : String) (t : OrderManager) (same : t.inTrade = true)
      (outbox : t.outbox = s.outbox) (other : reason ≠ "stop_loss_timeout") :
      ∃ request, exits (initiateExitLocked host now reason currentPrice t).outbox =
        exits s.outbox ++ [request] ∧ (request.userTag = "stop_loss_timeout" →
          s.slBreached currentPrice = true ∧ s.slBreachTime ≠ 0 ∧
            (now - s.slBreachTime).tdiv 1000000 ≥ host.cfg.slFireTimeoutMs) := by
    obtain ⟨request, tag, sent⟩ :=
      initiateExit_sends live accepts now reason currentPrice t same
    rw [outbox] at sent
    exact ⟨request, sent, fun timeout => absurd (tag.symm.trans timeout) other⟩
  simp only [checkBreach] at exited ⊢
  split at exited
  next breached =>
    rw [if_pos breached]
    split at exited
    next bare =>
      rw [if_pos bare]
      exact sends "stop_loss" { s with slBreachTime := 0 } trading rfl (by decide)
    next stands =>
      rw [if_neg stands]
      split at exited
      next pending =>
        rw [if_pos pending]
        exact sends "stop_loss_resubmit" { s with stopResubmitPending := false, slBreachTime := 0 }
          trading rfl (by decide)
      next settled =>
        rw [if_neg settled]
        split at exited
        · exact absurd exited Bool.false_ne_true
        next running =>
          rw [if_neg running]
          split at exited
          next late =>
            rw [if_pos late]
            obtain ⟨request, _, sent⟩ := initiateExit_sends live accepts now "stop_loss_timeout"
              currentPrice { s with slBreachTime := 0 } trading
            exact ⟨request, sent, fun _ => ⟨breached, running, late⟩⟩
          · exact absurd exited Bool.false_ne_true
  · exact absurd exited Bool.false_ne_true

omit live accepts in
/-- A breach check that does not end the check leaves the position open and sends nothing. -/
theorem checkBreach_stays (now : Int) (currentPrice : ℚ) (s : OrderManager)
    (stays : (checkBreach host now currentPrice s).2 = false) :
    ∃ timer pending, (checkBreach host now currentPrice s).1 =
      { s with slBreachTime := timer, stopResubmitPending := pending } := by
  simp only [checkBreach] at stays ⊢
  split at stays
  next breached =>
    rw [if_pos breached]
    split at stays
    · exact absurd stays.symm Bool.false_ne_true
    next stands =>
      rw [if_neg stands]
      split at stays
      · exact absurd stays.symm Bool.false_ne_true
      next settled =>
        rw [if_neg settled]
        split at stays
        next unset =>
          rw [if_pos unset]
          exact ⟨now, s.stopResubmitPending, rfl⟩
        next running =>
          rw [if_neg running]
          split at stays
          · exact absurd stays.symm Bool.false_ne_true
          next waiting =>
            rw [if_neg waiting]
            exact ⟨s.slBreachTime, s.stopResubmitPending, rfl⟩
  next clear =>
    rw [if_neg clear]
    exact ⟨0, false, rfl⟩

/-- The shape of a check of the open position: it ends with the exit of its breach check,
or with a take-profit exit, or moves the stop. -/
theorem check_cases (check : call.checks = some price) (trading : s.inTrade = true) :
    (∃ request, exits (step host s call).outbox = [request] ∧
      (request.userTag = "stop_loss_timeout" → s.slBreached price = true ∧ s.slBreachTime ≠ 0 ∧
        (call.now - s.slBreachTime).tdiv 1000000 ≥ host.cfg.slFireTimeoutMs)) ∨
    ∃ timer pending, Moved
      { trackExcursion price { s with outbox := [] } with
        slBreachTime := timer, stopResubmitPending := pending } (step host s call) := by
  have exits_of (after : OrderManager) (ended : (checkBreach host call.now price
        (trackExcursion price { s with outbox := [] })).2 = true)
      (same : after = (checkBreach host call.now price
        (trackExcursion price { s with outbox := [] })).1) :
      ∃ request, exits after.outbox = [request] ∧
        (request.userTag = "stop_loss_timeout" → s.slBreached price = true ∧ s.slBreachTime ≠ 0 ∧
          (call.now - s.slBreachTime).tdiv 1000000 ≥ host.cfg.slFireTimeoutMs) := by
    rw [same]
    exact checkBreach_exit live accepts call.now price _ trading ended
  have stays := @checkBreach_stays host call.now price
    (trackExcursion price { s with outbox := [] })
  obtain ⟨now, op⟩ := call
  cases op with
  | checkTrail at_ =>
    obtain rfl : at_ = price := Option.some.inj check
    cases ended : (checkBreach host now at_ (trackExcursion at_ { s with outbox := [] })).2 with
    | true => exact Or.inl (exits_of _ ended (checkTrail_ended now at_ _ trading ended))
    | false =>
      obtain ⟨timer, pending, same⟩ := stays ended
      rcases checkTrail_rest live accepts now at_ { s with outbox := [] } _ trading
        (Prod.ext same ended) trading with ⟨request, tag, sent⟩ | moved
      · exact Or.inl ⟨request, sent, fun timeout => absurd (tag.symm.trans timeout) (by decide)⟩
      · exact Or.inr ⟨timer, pending, moved⟩
  | checkExternal at_ stratStop =>
    obtain rfl : at_ = price := Option.some.inj check
    cases ended : (checkBreach host now at_ (trackExcursion at_ { s with outbox := [] })).2 with
    | true =>
      exact Or.inl (exits_of _ ended (checkExternal_ended now at_ stratStop _ trading ended))
    | false =>
      obtain ⟨timer, pending, same⟩ := stays ended
      exact Or.inr ⟨timer, pending, checkExternal_rest live accepts now at_ stratStop
        { s with outbox := [] } _ trading (Prod.ext same ended)⟩
  | _ => exact absurd check (by simp [Call.checks])

/-- A check that replaces a standing stop opens the window in which the next breached
check exits at once. -/
theorem replace_step (check : call.checks = some price) (stands : s.pos.basketIdStop ≠ "")
    (replaced : stopPrices (step host s call).outbox ≠ []) :
    exits (step host s call).outbox ≠ [] ∨
      (step host s call).inTrade = true ∧ (step host s call).stopResubmitPending = true := by
  cases trading : s.inTrade with
  | false =>
    rw [check_idle s call price check trading] at replaced
    exact absurd rfl replaced
  | true =>
    rcases check_cases live accepts s call price check trading with ⟨request, sent, _⟩ | moved
    · rw [sent]
      exact Or.inl (List.cons_ne_nil _ _)
    · obtain ⟨timer, pending, moved⟩ := moved
      rcases moved.replaced stands with none | open_
      · exact absurd none replaced
      · exact Or.inr ⟨moved.trading.trans trading, open_⟩

/-- A check that sends an exit for the timeout found the stop breached, and the timer of
its trade run out. -/
theorem timeout_step (request : OrderRequest) (check : call.checks = some price)
    (sent : request ∈ exits (step host s call).outbox)
    (timeout : request.userTag = "stop_loss_timeout") :
    s.inTrade = true ∧ s.slBreached price = true ∧ s.slBreachTime ≠ 0 ∧
      (call.now - s.slBreachTime).tdiv 1000000 ≥ host.cfg.slFireTimeoutMs := by
  cases trading : s.inTrade with
  | false =>
    rw [check_idle s call price check trading] at sent
    exact absurd sent List.not_mem_nil
  | true =>
    rcases check_cases live accepts s call price check trading with ⟨only, same, why⟩ | moved
    · rw [same] at sent
      rw [List.mem_singleton.mp sent] at timeout
      exact ⟨rfl, why timeout⟩
    · obtain ⟨timer, pending, moved⟩ := moved
      rw [moved.exits] at sent
      exact absurd sent List.not_mem_nil

/-! ## Runs of checks -/

/-- An open position whose timer runs keeps it, until an exit is sent. -/
theorem run_waits (calls : List Call) (trading : s.inTrade = true) (running : s.slBreachTime ≠ 0)
    (silent : ∀ call ∈ calls, call.op.isNotification = false)
    (breached : Along (step host) SeesBreach s calls) :
    SendsExit host s calls ∨ (run (step host) s calls).inTrade = true ∧
      (run (step host) s calls).slBreachTime = s.slBreachTime := by
  induction calls generalizing s with
  | nil => exact Or.inr ⟨trading, rfl⟩
  | cons call rest ih =>
    obtain ⟨sees, later⟩ := breached
    have stays : exits (step host s call).outbox ≠ [] ∨ (step host s call).inTrade = true ∧
        (step host s call).slBreachTime = s.slBreachTime := by
      cases check : call.checks with
      | none =>
        rcases quiet_step live accepts s call (silent call List.mem_cons_self) check trading
          with sent | ⟨open_, timer, _⟩
        · exact Or.inl sent
        · exact Or.inr ⟨open_.trans trading, timer⟩
      | some price =>
        rcases check_step live accepts s call price check trading (sees price check trading)
          with sent | ⟨_, open_, timer⟩
        · exact Or.inl sent
        · exact Or.inr ⟨open_, timer.trans (if_neg running)⟩
    rw [SendsExit, journal_cons, exits_append]
    rcases stays with sent | ⟨open_, timer⟩
    · exact Or.inl (List.append_ne_nil_of_left_ne_nil sent _)
    · have quiet (other : Call) (inside : other ∈ rest) :=
        silent other (List.mem_cons_of_mem _ inside)
      rcases ih (step host s call) open_ (timer.trans_ne running) quiet later with sent | holds
      · exact Or.inl (List.append_ne_nil_of_right_ne_nil _ sent)
      · exact Or.inr ⟨holds.1, holds.2.trans timer⟩

/-- The window of a replacement stays open until the next check, or an exit is sent. -/
theorem run_pending (calls : List Call) (trading : s.inTrade = true)
    (pending : s.stopResubmitPending = true)
    (silent : ∀ call ∈ calls, call.op.isNotification = false ∧ call.checks = none) :
    SendsExit host s calls ∨ (run (step host) s calls).inTrade = true ∧
      (run (step host) s calls).stopResubmitPending = true := by
  induction calls generalizing s with
  | nil => exact Or.inr ⟨trading, pending⟩
  | cons call rest ih =>
    obtain ⟨quiet, none⟩ := silent call List.mem_cons_self
    rw [SendsExit, journal_cons, exits_append]
    rcases quiet_step live accepts s call quiet none trading with sent | ⟨open_, _, window⟩
    · exact Or.inl (List.append_ne_nil_of_left_ne_nil sent _)
    · rcases ih (step host s call) (open_.trans trading) (window.trans pending)
        (fun other inside => silent other (List.mem_cons_of_mem _ inside)) with sent | holds
      · exact Or.inl (List.append_ne_nil_of_right_ne_nil _ sent)
      · exact Or.inr holds

end Sending

end OrderManager

end RithmicEngine
