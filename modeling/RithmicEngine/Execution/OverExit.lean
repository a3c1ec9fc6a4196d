import Mathlib.Algebra.Order.BigOperators.Group.Finset
import RithmicEngine.Execution.LedgerRefinement
/-!
# How much an exit order sells

Every exit order carries the whole quantity of the position, whatever has been
filled of it before: partial fills of the stop or of an earlier exit are only
accumulated for the price. A tape beside the run remembers the stop and exit
orders of the current trade and the largest cumulative fill reported on each.
Read against the tape, an exit order is covered by the contracts still held
exactly when none of the trade's own orders had a fill before it was sent. This
holds on every host, a dry run included, where no exit order is sent at all.
-/
namespace RithmicEngine.OrderManager

open Runs

variable {host : Host}

/-! ## The exit orders among the effects -/

/-- The exit orders among the effects of a call. -/
def exits (effects : List Effect) : List OrderRequest :=
  effects.filterMap fun effect =>
    match effect with
    | .order .exit request _ => some request
    | _ => none

@[simp] theorem exits_append (first second : List Effect) :
    exits (first ++ second) = exits first ++ exits second :=
  List.filterMap_append

@[simp] theorem exits_nil : exits [] = [] := rfl

theorem mem_exits {effects : List Effect} {request : OrderRequest} {accepted : Bool}
    (inside : Effect.order .exit request accepted ∈ effects) : request ∈ exits effects :=
  List.mem_filterMap.mpr ⟨_, inside, rfl⟩

@[simp] theorem exits_persistNotice (basket : String) (wasBuyStop : Bool) :
    exits (host.persistNotice basket wasBuyStop) = [] := by
  simp only [Host.persistNotice]
  split
  · rfl
  · rfl

@[simp] theorem exits_removeNotice (basket : String) : exits (host.removeNotice basket) = [] := by
  simp only [Host.removeNotice]
  split
  · rfl
  · rfl

@[simp] theorem exits_persistServerNotice (client server : String) :
    exits (host.persistServerNotice client server) = [] := by
  simp only [Host.persistServerNotice]
  split
  · rfl
  · rfl

@[simp] theorem exits_cancelNotice (id : String) : exits (host.cancelNotice id) = [] := by
  simp only [Host.cancelNotice]
  split
  · rfl
  · rfl

@[simp] theorem exits_removeNotices (baskets : List String) :
    exits (baskets.flatMap host.removeNotice) = [] := by
  induction baskets with
  | nil => rfl
  | cons basket rest ih =>
    rw [List.flatMap_cons, exits_append, ih, exits_removeNotice, List.append_nil]

@[simp] theorem exits_cancels (ids : List String) : exits (ids.map Effect.cancel) = [] := by
  induction ids with
  | nil => rfl
  | cons id rest ih => exact ih

/-! ## Who sends an exit -/

/-- Placing a stop sends no exit. -/
theorem submitStop_exits (slPrice : ℚ) (s : OrderManager) :
    exits (submitStopOrderLocked host slPrice s).outbox = exits s.outbox := by
  simp only [submitStopOrderLocked]
  split_ifs
  · rfl
  · split
    · rfl
    · split_ifs
      · simp only [exits_append, exits_persistNotice, List.append_nil]
        exact List.append_nil _
      · exact (exits_append _ _).trans (List.append_nil _)

variable (now : Int) (basket : String) (currentPrice fillPrice : ℚ) (s : OrderManager)

theorem cancelStop_exits : exits (cancelStopLocked host s).outbox = exits s.outbox := by
  simp only [cancelStopLocked]
  split_ifs
  · rfl
  · simp only [exits_append, exits_persistNotice, List.append_nil]
    exact List.append_nil _
  · simp only [exits_append, exits_persistNotice, exits_persistServerNotice, List.append_nil]
    exact List.append_nil _

theorem updateStop_exits (newSl : ℚ) (force : Bool) (s : OrderManager) :
    exits (updateStopOrderLocked host newSl force s).outbox = exits s.outbox := by
  simp only [updateStopOrderLocked]
  split_ifs
  · rfl
  · rfl
  · exact submitStop_exits newSl s
  · exact (submitStop_exits newSl _).trans (cancelStop_exits _)

theorem cancelOrder_exits (client : String) (s : OrderManager) :
    exits (cancelOrderLocked host client s).outbox = exits s.outbox := by
  simp only [cancelOrderLocked]
  split_ifs
  · rfl
  · exact (exits_append _ _).trans (List.append_nil _)
  · exact (exits_append _ _).trans (List.append_nil _)

theorem sendUnwind_exits (fired : String) (fillPrice : ℚ) (unwindIsBuy : Bool)
    (userTag : String) (register : Bool) (s : OrderManager) :
    exits (sendUnwind host fired fillPrice unwindIsBuy userTag register s).outbox =
      exits s.outbox := by
  simp only [sendUnwind]
  split
  · rfl
  · exact (exits_append _ _).trans (List.append_nil _)

/-- A fill while flat sends no exit. -/
theorem flatFill_exits : exits (flatFill host basket fillPrice s).outbox = exits s.outbox := by
  have noted : exits (s.outbox ++ [Effect.flatFill basket]) = exits s.outbox :=
    (exits_append _ _).trans (List.append_nil _)
  have dropped (c : OrderManager) : exits (dropFiredGuard host basket c).outbox =
      exits c.outbox := by
    simp [dropFiredGuard, emit, eraseServerCancelForClientLocked]
  simp only [flatFill]
  split
  · rw [sendUnwind_exits, dropped]
    exact noted
  · split
    · rw [sendUnwind_exits, dropped]
      exact noted
    · split_ifs
      · exact noted
      · exact noted
      · exact noted

/-- An exit fill sends no exit. -/
theorem exitFill_exits (fillQty : Int) (s : OrderManager) :
    exits (exitFill host basket fillPrice fillQty s).outbox = exits s.outbox := by
  have dropped : exits (dropFilledGuard host basket s).outbox = exits s.outbox := by
    simp only [dropFilledGuard]
    split
    · simp
    · rfl
  have settled (c : OrderManager) : exits (settleStop host basket c).outbox =
      exits c.outbox := by
    simp only [settleStop]
    split_ifs
    · rfl
    · exact cancelStop_exits c
    · simp [emit]
  have cleaned (c : OrderManager) : exits (dropStaleGuard host basket c).outbox =
      exits c.outbox := by
    simp only [dropStaleGuard]
    split
    · simp [eraseServerCancelForClientLocked, emit]
    · rfl
  simp only [exitFill]
  split
  · rfl
  · simp only [purgeGuards, finishClose, exits_append, exits_removeNotices, List.append_nil,
      cleaned, settled]
    exact dropped

/-- A fill sends no exit. -/
theorem onFill_exits (fillQty : Int) (isEntryFill : Bool) (s : OrderManager) :
    exits (onFillNotificationLocked host now basket fillPrice fillQty isEntryFill s).outbox =
      exits s.outbox := by
  have same : (accumulateFill basket fillPrice fillQty s).1.outbox = s.outbox :=
    congrArg Ledger.sent (accumulateFill_ledger basket fillPrice fillQty s)
  simp only [onFillNotificationLocked]
  generalize accumulateFill basket fillPrice fillQty s = accumulated at same ⊢
  obtain ⟨c, price⟩ := accumulated
  rw [← show c.outbox = s.outbox from same]
  cases isEntryFill with
  | true =>
    simp only [↓reduceIte, lateEntryFill, entryFill]
    split_ifs
    · exact sendUnwind_exits _ _ _ _ _ _
    · rfl
    · rfl
    · rfl
    · exact submitStop_exits _ _
  | false =>
    simp only [Bool.false_eq_true, ↓reduceIte]
    split
    · exact flatFill_exits basket price c
    · exact exitFill_exits basket price fillQty c

/-- The later exits extend the earlier ones by orders of the given quantity. -/
def Extends (qty : Int) (before after : List OrderRequest) : Prop :=
  ∃ more, after = before ++ more ∧ ∀ request ∈ more, request.qty = qty

theorem Extends.refl (qty : Int) (before : List OrderRequest) : Extends qty before before :=
  ⟨[], (List.append_nil before).symm, fun _ inside => absurd inside List.not_mem_nil⟩

theorem extends_of_eq {qty : Int} {before after : List OrderRequest} (same : after = before) :
    Extends qty before after := same ▸ Extends.refl qty before

theorem cancelStop_qty : (cancelStopLocked host s).pos.qty = s.pos.qty := by
  simp only [cancelStopLocked]
  split
  · rfl
  · rfl

/-- Starting an exit sends at most one exit order, of the position's quantity. -/
theorem initiateExit_exits (reason : String) (refPrice : ℚ) (s : OrderManager) :
    Extends s.pos.qty (exits s.outbox)
      (exits (initiateExitLocked host now reason refPrice s).outbox) := by
  simp only [initiateExitLocked]
  split
  · exact .refl _ _
  · have cancelled : exits (cancelStopLocked host
        { s with slBreachTime := 0, stopResubmitPending := false }).outbox = exits s.outbox :=
      cancelStop_exits _
    have qty : (cancelStopLocked host
        { s with slBreachTime := 0, stopResubmitPending := false }).pos.qty = s.pos.qty :=
      cancelStop_qty _
    generalize cancelStopLocked host
      { s with slBreachTime := 0, stopResubmitPending := false } = c at cancelled qty ⊢
    split
    · refine extends_of_eq ?_
      rw [onFill_exits]
      exact cancelled
    · split
      · exact extends_of_eq cancelled
      · have sent (accepted : Bool) : exits (c.outbox ++ [Effect.order .exit (exitRequest host
            (host.basketId c.seq) reason refPrice (beginExit host reason c)) accepted]) =
            exits s.outbox ++ [exitRequest host (host.basketId c.seq) reason refPrice
              (beginExit host reason c)] := by
          rw [exits_append, cancelled]
          rfl
        refine ⟨[exitRequest host (host.basketId c.seq) reason refPrice
          (beginExit host reason c)], ?_, ?_⟩
        · split
          · exact sent _
          · rw [revertExit, submitStop_exits]
            exact sent _
        · intro request inside
          rw [List.mem_singleton.mp inside]
          exact qty

/-- The software stop sends at most one exit, of the position's quantity. -/
theorem checkBreach_exits (host : Host) (now : Int) (currentPrice : ℚ) (s : OrderManager) :
    Extends s.pos.qty (exits s.outbox) (exits (checkBreach host now currentPrice s).1.outbox) ∧
      ((checkBreach host now currentPrice s).2 = false →
        exits (checkBreach host now currentPrice s).1.outbox = exits s.outbox ∧
          (checkBreach host now currentPrice s).1.pos.qty = s.pos.qty) := by
  simp only [checkBreach]
  split_ifs
  · exact ⟨initiateExit_exits now _ currentPrice { s with slBreachTime := 0 },
      fun kept => absurd kept (by decide)⟩
  · exact ⟨initiateExit_exits now _ currentPrice
      { s with stopResubmitPending := false, slBreachTime := 0 },
      fun kept => absurd kept (by decide)⟩
  · exact ⟨.refl _ _, fun _ => ⟨rfl, rfl⟩⟩
  · exact ⟨initiateExit_exits now _ currentPrice { s with slBreachTime := 0 },
      fun kept => absurd kept (by decide)⟩
  · exact ⟨.refl _ _, fun _ => ⟨rfl, rfl⟩⟩
  · exact ⟨.refl _ _, fun _ => ⟨rfl, rfl⟩⟩

theorem tightenStop_exits (level : ℚ) (s : OrderManager) :
    exits (tightenStop host level s).1.outbox = exits s.outbox := by
  simp only [tightenStop]
  split
  · exact updateStop_exits level false _
  · rfl

/-- The break-even move, the trail's start and the trail send no exit. -/
theorem trailing_exits :
    exits (trail host currentPrice (activateTrail host now (breakEven host s).1)).1.outbox =
      exits s.outbox := by
  have raised : exits (breakEven host s).1.outbox = exits s.outbox := by
    simp only [breakEven]
    split
    · split
      · exact updateStop_exits _ true _
      · rfl
    · rfl
  have activated : exits (activateTrail host now (breakEven host s).1).outbox =
      exits s.outbox :=
    (congrArg (fun l => exits l.sent) (activateTrail_ledger host now _)).trans raised
  simp only [trail]
  split
  · exact (tightenStop_exits _ _).trans activated
  · exact activated

/-- The price check sends at most one exit: where the software stop fired, the target is not
asked. -/
theorem checkTrail_exits :
    Extends s.pos.qty (exits s.outbox)
      (exits (checkTrailAndStop host now currentPrice s).1.outbox) := by
  simp only [checkTrailAndStop]
  split
  · exact .refl _ _
  · have breach := checkBreach_exits host now currentPrice
      (trackExcursion currentPrice s)
    generalize checkBreach host now currentPrice (trackExcursion currentPrice s) = checked
      at breach ⊢
    obtain ⟨c, exited⟩ := checked
    cases exited with
    | true => exact breach.1
    | false =>
      obtain ⟨same, qty⟩ := breach.2 rfl
      have same : exits c.outbox = exits s.outbox := same
      have qty : c.pos.qty = s.pos.qty := qty
      simp only [Bool.false_eq_true, ↓reduceIte]
      split
      · rw [← same, ← qty]
        exact initiateExit_exits now _ currentPrice { c with slBreachTime := 0 }
      · exact extends_of_eq ((trailing_exits now currentPrice c).trans same)

/-- The check with a strategy's stop sends at most that of the software stop. -/
theorem checkExternal_exits (stratStop : Option ℚ) (s : OrderManager) :
    Extends s.pos.qty (exits s.outbox)
      (exits (checkExternalStop host now currentPrice stratStop s).1.outbox) := by
  simp only [checkExternalStop]
  split
  · exact .refl _ _
  · have breach := checkBreach_exits host now currentPrice
      (trackExcursion currentPrice s)
    generalize checkBreach host now currentPrice (trackExcursion currentPrice s) = checked
      at breach ⊢
    obtain ⟨c, exited⟩ := checked
    cases exited with
    | true => exact breach.1
    | false =>
      have same : exits c.outbox = exits s.outbox := (breach.2 rfl).1
      simp only [Bool.false_eq_true, ↓reduceIte]
      cases stratStop with
      | none => exact extends_of_eq same
      | some level =>
        dsimp only
        split
        · exact extends_of_eq ((tightenStop_exits _ c).trans same)
        · exact extends_of_eq same

theorem abandonEntry_exits : exits (abandonEntry host s).outbox = exits s.outbox :=
  cancelOrder_exits s.pos.basketIdEntry _

/-- Flattening sends one exit of the position's size at most. -/
theorem flattenNow_exits (reason : String) (price : ℚ) (s : OrderManager) :
    Extends s.pos.qty (exits s.outbox) (exits (flattenNow host now reason price s).outbox) := by
  simp only [flattenNow]
  split
  · exact .refl _ _
  · exact extends_of_eq (abandonEntry_exits s)
  · exact .refl _ _
  · exact initiateExit_exits now reason price s
  · exact initiateExit_exits now reason price s

/-- Opening an entry sends no exit. -/
theorem openEntry_exits (sig : OrbSignal) (price desiredSlDist : ℚ) (s : OrderManager) :
    exits (openEntry host now sig price desiredSlDist s).outbox = exits s.outbox := by
  simp only [openEntry, sendMarketOrder]
  split
  · exact onFill_exits _ _ _ _ _ _
  · split
    · rfl
    · split
      · exact (exits_append _ _).trans (List.append_nil _)
      · exact (exits_append _ _).trans (List.append_nil _)

/-- A signal sends one exit of the position's size at most. -/
theorem onSignal_exits (sig : OrbSignal) (price desiredSlDist : ℚ) (s : OrderManager) :
    Extends s.pos.qty (exits s.outbox)
      (exits (onSignal host now sig price desiredSlDist s).outbox) := by
  cases sig with
  | none => exact .refl _ _
  | flattenEod => exact flattenNow_exits now "eod_flatten" price s
  | _ =>
    simp only [onSignal]
    split
    · exact .refl _ _
    · split
      · exact .refl _ _
      · split
        · exact .refl _ _
        · exact extends_of_eq (openEntry_exits now _ price desiredSlDist s)

theorem guardExit_exits (host : Host) (s : OrderManager) :
    exits (guardExit host s).outbox = exits s.outbox := by
  simp only [guardExit]
  split
  · rfl
  · rw [exits_append, cancelOrder_exits, exits_persistNotice, List.append_nil]

theorem guardExit_qty (host : Host) (s : OrderManager) :
    (guardExit host s).pos.qty = s.pos.qty := by
  simp only [guardExit, cancelOrderLocked]
  split_ifs
  all_goals rfl

theorem retryStuckExit_exits :
    Extends s.pos.qty (exits s.outbox) (exits (retryStuckExit host now currentPrice s).outbox) := by
  simp only [retryStuckExit]
  split
  · exact .refl _ _
  · split
    · exact .refl _ _
    · rw [← guardExit_exits host s, ← guardExit_qty host s]
      exact initiateExit_exits now _ currentPrice (guardExit host s).reopen

/-- A rejection sends one exit of the position's size at most. -/
theorem onOrderRejected_exits :
    Extends s.pos.qty (exits s.outbox) (exits (onOrderRejected host now basket s).outbox) := by
  simp only [onOrderRejected]
  split
  · exact .refl _ _
  · split
    · split
      · exact initiateExit_exits now _ 0
          { s.reopen with rejectedExitCount := s.rejectedExitCount + 1 }
      · exact .refl _ _
    · split
      · refine extends_of_eq ?_
        simp
      · exact .refl _ _

/-- A failed cancel sends no exit. -/
theorem onCancelFailed_exits (id : String) (s : OrderManager) :
    exits (onCancelFailed host id s).outbox = exits s.outbox := by
  have readopted (client server : String) (c : OrderManager) :
      exits (readoptStop host client server c).outbox = exits c.outbox := by
    simp [readoptStop]
  simp only [onCancelFailed]
  generalize (if (s.serverToClientCancelled.lookup id).isSome then id else "") = server
  split
  · rfl
  · split
    · rfl
    · split
      · rfl
      · split
        · rfl
        · rw [readopted]
          split
          · exact cancelStop_exits _
          · rfl

theorem adoptExternalClose_exits (refPrice : ℚ) (reason : String) (s : OrderManager) :
    exits (adoptExternalClose host refPrice reason s).outbox = exits s.outbox := by
  simp only [adoptExternalClose]
  split
  · rfl
  · exact cancelStop_exits s

/-- Every exit order a call sends has the quantity of the position before it. -/
theorem step_exits (call : Call) :
    ∀ request ∈ exits (step host s call).outbox, request.qty = s.pos.qty := by
  have extended : Extends s.pos.qty [] (exits (step host s call).outbox) := by
    have start : exits ({ s with outbox := [] } : OrderManager).outbox = [] := rfl
    have qty : ({ s with outbox := [] } : OrderManager).pos.qty = s.pos.qty := rfl
    simp only [step]
    rw [← start, ← qty]
    generalize ({ s with outbox := [] } : OrderManager) = c
    obtain ⟨now, op⟩ := call
    cases op with
    | signal sig price dist => exact onSignal_exits now sig price dist c
    | fill basket price qty isEntry =>
      exact extends_of_eq (onFill_exits now basket price qty isEntry c)
    | checkTrail price => exact checkTrail_exits now price c
    | checkExternal price stratStop => exact checkExternal_exits now price stratStop c
    | flatten reason price => exact flattenNow_exits now reason price c
    | retryStuckExit price => exact retryStuckExit_exits now price c
    | entryTimeout secs =>
      refine extends_of_eq ?_
      simp only [perform, pendingEntryTimeoutCheck]
      split
      · rfl
      · split
        · rfl
        · split
          · rfl
          · exact abandonEntry_exits c
    | rejected basket => exact onOrderRejected_exits now basket c
    | cancelConfirmed basket =>
      refine extends_of_eq ?_
      simp [perform, onCancelConfirmed]
    | cancelConfirmedByServer server =>
      refine extends_of_eq ?_
      simp only [perform, onCancelConfirmedByServerBasket]
      split
      · rfl
      · simp
    | cancelFailed id => exact extends_of_eq (onCancelFailed_exits id c)
    | stopServerMapped client server =>
      refine extends_of_eq ?_
      simp only [perform, onStopServerMapped]
      split_ifs
      all_goals simp only [exits_append, exits_persistServerNotice, exits_cancelNotice,
        List.append_nil]
    | mapServer client server =>
      refine extends_of_eq ?_
      simp only [perform, mapServerBasket]
      split_ifs
      all_goals simp only [exits_append, exits_cancelNotice, List.append_nil]
    | externalClose refPrice reason =>
      exact extends_of_eq (adoptExternalClose_exits refPrice reason c)
    | fillProcessed basket qty =>
      refine extends_of_eq ?_
      simp only [perform, fillAlreadyProcessed]
      split_ifs
      all_goals rfl
    | recancel =>
      refine extends_of_eq ?_
      simp only [perform, recancelPendingStops]
      split
      · rfl
      · simp [emit]
    | popCompleted =>
      refine extends_of_eq ?_
      simp only [perform, popTradeCompleted]
      split_ifs
      all_goals rfl
    | _ => exact .refl _ _
  obtain ⟨more, appended, sized⟩ := extended
  rw [appended, List.nil_append]
  exact sized

/-! ## The tape of a trade -/

/-- The stop and exit orders of the current trade and the largest cumulative fill
reported on each. -/
structure TradeTape where
  orders : Finset String := ∅
  filled : Table String Int := ∅

/-- The contracts reported filled on an order, never negative. -/
def TradeTape.filledOf (tape : TradeTape) (basket : String) : Int :=
  max 0 ((tape.filled.lookup basket).getD 0)

/-- The stop and exit orders the exchange took among the effects. -/
def closingOrders (effects : List Effect) : Finset String :=
  (effects.filterMap fun effect =>
    match effect with
    | .order .stop request true => some request.basket
    | .order .exit request true => some request.basket
    | _ => none).toFinset

/-- A report on one of the trade's orders. -/
def TradeTape.report (tape : TradeTape) (op : Op) : TradeTape :=
  match op with
  | .fill basket _ qty _ =>
    if basket ∈ tape.orders then
      { tape with filled := tape.filled.insert basket (max (tape.filledOf basket) qty) }
    else tape
  | _ => tape

/-- Note a step: its report, its new orders, and a fresh tape for a new trade. -/
def TradeTape.note (tape : TradeTape) (s : OrderManager) (call : Call) (s' : OrderManager) :
    TradeTape :=
  if s'.tradeSeq = s.tradeSeq then
    { tape.report call.op with
      orders := (tape.report call.op).orders ∪ closingOrders s'.outbox }
  else { orders := closingOrders s'.outbox }

/-- A run with the tape of its current trade. -/
def taped (host : Host) (risk : RiskManager) (seq : Nat) (calls : List Call) :
    OrderManager × TradeTape :=
  run (observe (step host) TradeTape.note) (fresh risk seq, {}) calls

/-- The contracts still held: the quantity less the fills of the trade's orders. -/
def heldContracts (s : OrderManager) (tape : TradeTape) : Int :=
  s.pos.qty - ∑ basket ∈ tape.orders, tape.filledOf basket

/-- The whole quantity is covered exactly when nothing has been filled of it. -/
theorem whole_covered_iff (tape : TradeTape) :
    s.pos.qty ≤ heldContracts s tape ↔ ∀ basket ∈ tape.orders, tape.filledOf basket = 0 := by
  have nonneg : ∀ basket ∈ tape.orders, 0 ≤ tape.filledOf basket :=
    fun basket _ => le_max_left 0 _
  have total : s.pos.qty ≤ heldContracts s tape ↔
      ∑ basket ∈ tape.orders, tape.filledOf basket ≤ 0 := by
    simp only [heldContracts]
    omega
  have sum_nonneg := Finset.sum_nonneg nonneg
  rw [total, ← Finset.sum_eq_zero_iff_of_nonneg nonneg]
  omega

/-- In every run, an exit order is covered by the contracts still held exactly
when none of the trade's stop and exit orders was reported filled in part. -/
theorem exit_covered_iff (host : Host) (risk : RiskManager) (seq : Nat) (calls : List Call)
    (call : Call) (request : OrderRequest) (accepted : Bool)
    (sent : Effect.order .exit request accepted ∈
      (step host (taped host risk seq calls).1 call).outbox) :
    request.qty ≤ heldContracts (taped host risk seq calls).1 (taped host risk seq calls).2 ↔
      ∀ basket ∈ (taped host risk seq calls).2.orders,
        (taped host risk seq calls).2.filledOf basket = 0 := by
  have whole : request.qty = (taped host risk seq calls).1.pos.qty :=
    step_exits _ call request (mem_exits sent)
  rw [whole]
  exact whole_covered_iff _ _

/-- A live host trading two contracts at a time. -/
def twoLots : Host := { Host.accepting with cfg := { qty := 2 } }

/-- A two-lot position of which the stop has sold one contract. -/
def partialStopRun : List Call :=
  [⟨1, .signal .buy 100 0⟩, ⟨2, .fill "MNQ-0-0" 100 2 true⟩, ⟨3, .fill "MNQ-0-1" 85 1 false⟩]

/-- The exit a flatten sends at that point. -/
def flattenExit : OrderRequest :=
  { basket := "MNQ-0-2", symbol := "MNQ", exchange := "CME", qty := 2, orderType := .limit
    isBuy := false, price := 89, userTag := "eod_flatten" }

/-- The flatten of a position whose stop was filled in part. -/
theorem flatten_covered_iff :
    flattenExit.qty ≤ heldContracts (taped twoLots {} 0 partialStopRun).1
        (taped twoLots {} 0 partialStopRun).2 ↔
      ∀ basket ∈ (taped twoLots {} 0 partialStopRun).2.orders,
        (taped twoLots {} 0 partialStopRun).2.filledOf basket = 0 :=
  exit_covered_iff twoLots {} 0 partialStopRun ⟨4, .flatten "eod_flatten" 90⟩ flattenExit true
    (by decide +kernel)

/-- After a partial stop fill the flatten sells two contracts of one held. -/
theorem partial_stop_oversold :
    ¬∀ (host : Host) (risk : RiskManager) (seq : Nat) (calls : List Call) (call : Call)
      (request : OrderRequest) (accepted : Bool),
      Effect.order .exit request accepted ∈ (step host (taped host risk seq calls).1 call).outbox →
      request.qty ≤ heldContracts (taped host risk seq calls).1
        (taped host risk seq calls).2 := by
  intro covered
  have oversold := covered twoLots {} 0 partialStopRun ⟨4, .flatten "eod_flatten" 90⟩ flattenExit
    true (by decide +kernel)
  revert oversold
  decide +kernel

end RithmicEngine.OrderManager
