import RithmicEngine.Base.Interleaving
import RithmicEngine.Execution.RepeatedFills
import Mathlib.Algebra.Order.BigOperators.Group.List
/-!
# The average price of an order

An order fills in events, and each event is reported on two streams with the cumulative
quantity and the price of the event. For the position's current entry, stop and exit the
order manager sums the events up, and records their average when the order completes. The
fill of a replaced stop whose cancel is still on its way closes the position too, but it is
not summed up: its exit is recorded at the price of the last event.
-/
namespace RithmicEngine

open Runs

namespace OrderManager

variable {host : Host}

/-! ## Who sums fills up -/

/-- The order of whose fill a call tells. -/
def Op.tellsOf : Op → Option String
  | .fill basket _ _ _ => some basket
  | .fillProcessed basket _ => some basket
  | _ => none

theorem submitStop_fillAcc (slPrice : ℚ) (s : OrderManager) :
    (submitStopOrderLocked host slPrice s).fillAcc = s.fillAcc := by
  simp only [submitStopOrderLocked]
  split
  · rfl
  · split
    · rfl
    · split
      · rfl
      · rfl

theorem cancelStop_fillAcc (s : OrderManager) :
    (cancelStopLocked host s).fillAcc = s.fillAcc := by
  simp only [cancelStopLocked]
  split
  · rfl
  · rfl

theorem updateStop_fillAcc (newSl : ℚ) (force : Bool) (s : OrderManager) :
    (updateStopOrderLocked host newSl force s).fillAcc = s.fillAcc := by
  simp only [updateStopOrderLocked]
  split_ifs
  · rfl
  · rfl
  · exact submitStop_fillAcc newSl s
  · exact (submitStop_fillAcc newSl _).trans (cancelStop_fillAcc _)

theorem cancelOrder_fillAcc (clientId : String) (s : OrderManager) :
    (cancelOrderLocked host clientId s).fillAcc = s.fillAcc := by
  simp only [cancelOrderLocked]
  split
  · rfl
  · rfl

theorem sendUnwind_fillAcc (fired : String) (fillPrice : ℚ) (unwindIsBuy : Bool)
    (userTag : String) (register : Bool) (s : OrderManager) :
    (sendUnwind host fired fillPrice unwindIsBuy userTag register s).fillAcc = s.fillAcc := by
  simp only [sendUnwind]
  split
  · rfl
  · rfl

/-- A fill of another order leaves the sums of this one alone. -/
theorem accumulateFill_other (basket tag : String) (fillPrice : ℚ) (fillQty : Int)
    (s : OrderManager) (other : basket ≠ tag) :
    (accumulateFill basket fillPrice fillQty s).1.fillAcc.lookup tag = s.fillAcc.lookup tag := by
  simp only [accumulateFill]
  split
  · dsimp only
    split
    · rw [Table.lookup_erase, if_neg (Ne.symm other)]
    · rw [Table.lookup_insert, if_neg (Ne.symm other)]
  · rfl

/-- What follows the summing up of a fill leaves the sums alone. -/
theorem onFill_fillAcc (now : Int) (basket : String) (fillPrice : ℚ) (fillQty : Int)
    (isEntryFill : Bool) (s : OrderManager) :
    (onFillNotificationLocked host now basket fillPrice fillQty isEntryFill s).fillAcc =
      (accumulateFill basket fillPrice fillQty s).1.fillAcc := by
  simp only [onFillNotificationLocked]
  generalize accumulateFill basket fillPrice fillQty s = accumulated
  obtain ⟨c, price⟩ := accumulated
  dsimp only
  split
  · split
    · simp only [lateEntryFill]
      split
      · exact sendUnwind_fillAcc _ _ _ _ _ _
      · rfl
    · simp only [entryFill]
      split
      · rfl
      · split
        · rfl
        · exact submitStop_fillAcc _ _
  · split
    · simp only [flatFill]
      split
      · exact sendUnwind_fillAcc _ _ _ _ _ _
      · split
        · exact sendUnwind_fillAcc _ _ _ _ _ _
        · split
          · rfl
          · split
            · rfl
            · rfl
    · simp only [exitFill]
      split
      · rfl
      · have stale (t : OrderManager) : (dropStaleGuard host basket t).fillAcc = t.fillAcc := by
          simp only [dropStaleGuard]
          split
          · rfl
          · rfl
        have settled (t : OrderManager) : (settleStop host basket t).fillAcc = t.fillAcc := by
          simp only [settleStop]
          split
          · rfl
          · split
            · exact cancelStop_fillAcc t
            · rfl
        have filled : (dropFilledGuard host basket c).fillAcc = c.fillAcc := by
          simp only [dropFilledGuard]
          split
          · rfl
          · rfl
        exact (stale _).trans ((settled _).trans filled)

section Live

variable (live : host.Live)
include live

variable (now : Int) (currentPrice : ℚ) (s : OrderManager)

theorem sendMarketOrder_fillAcc (basket : String) (isBuy : Bool) (refPrice : ℚ) (userTag : String)
    (s : OrderManager) :
    (sendMarketOrder host now basket isBuy refPrice userTag s).fillAcc = s.fillAcc := by
  simp only [sendMarketOrder, live.sends, Bool.false_eq_true, ↓reduceIte]
  split
  · rfl
  · split
    · rfl
    · rfl

/-- Sending an exit leaves the sums of the fills. -/
theorem initiateExit_fillAcc (reason : String) (refPrice : ℚ) (s : OrderManager) :
    (initiateExitLocked host now reason refPrice s).fillAcc = s.fillAcc := by
  simp only [initiateExitLocked, live.sends, Bool.false_eq_true, ↓reduceIte]
  split
  · rfl
  · have cancelled := @cancelStop_fillAcc host
      { s with slBreachTime := 0, stopResubmitPending := false }
    generalize cancelStopLocked host { s with slBreachTime := 0, stopResubmitPending := false } = c
      at cancelled ⊢
    split
    · exact cancelled
    · split
      · exact cancelled
      · exact (submitStop_fillAcc _ _).trans cancelled

theorem flattenNow_fillAcc (reason : String) (price : ℚ) (s : OrderManager) :
    (flattenNow host now reason price s).fillAcc = s.fillAcc := by
  simp only [flattenNow]
  split
  · rfl
  · exact cancelOrder_fillAcc s.pos.basketIdEntry _
  · rfl
  · exact initiateExit_fillAcc live now reason price s
  · exact initiateExit_fillAcc live now reason price s

/-- A signal leaves the sums of fills. -/
theorem onSignal_fillAcc (sig : OrbSignal) (price desiredSlDist : ℚ) (s : OrderManager) :
    (onSignal host now sig price desiredSlDist s).fillAcc = s.fillAcc := by
  have entry (sig : OrbSignal) :
      (if s.entryHalted || s.ghostHalted then s
        else if s.risk.canTrade = false then s
        else if s.pos.state ≠ .flat then s
        else openEntry host now sig price desiredSlDist s).fillAcc = s.fillAcc := by
    split
    · rfl
    · split
      · rfl
      · split
        · rfl
        · exact sendMarketOrder_fillAcc live now _ _ price "entry" _
  cases sig with
  | none => rfl
  | flattenEod => exact flattenNow_fillAcc live now "eod_flatten" price s
  | buy => exact entry .buy
  | sell => exact entry .sell

/-- The retry of a stuck exit leaves the sums of the fills. -/
theorem retryStuckExit_fillAcc : (retryStuckExit host now currentPrice s).fillAcc = s.fillAcc := by
  simp only [retryStuckExit]
  split
  · rfl
  · split
    · rfl
    · have guarded : (guardExit host s).fillAcc = s.fillAcc := by
        simp only [guardExit]
        split
        · rfl
        · exact cancelOrder_fillAcc s.pos.basketIdExit _
      exact (initiateExit_fillAcc live now _ _ (guardExit host s).reopen).trans guarded

theorem checkBreach_fillAcc : (checkBreach host now currentPrice s).1.fillAcc = s.fillAcc := by
  simp only [checkBreach]
  split_ifs
  all_goals first
    | rfl
    | exact initiateExit_fillAcc live now _ currentPrice _

omit live in
theorem tightenStop_fillAcc (level : ℚ) (s : OrderManager) :
    (tightenStop host level s).1.fillAcc = s.fillAcc := by
  simp only [tightenStop]
  split
  · exact updateStop_fillAcc level false _
  · rfl

/-- The price check leaves the sums of fills alone. -/
theorem checkTrail_fillAcc : (checkTrailAndStop host now currentPrice s).1.fillAcc = s.fillAcc := by
  simp only [checkTrailAndStop]
  split
  · rfl
  · have breach := checkBreach_fillAcc live now currentPrice (trackExcursion currentPrice s)
    generalize checkBreach host now currentPrice (trackExcursion currentPrice s) = checked
      at breach ⊢
    obtain ⟨c, exited⟩ := checked
    dsimp only at breach ⊢
    split
    · exact breach
    · split
      · exact (initiateExit_fillAcc live now _ currentPrice _).trans breach
      · have raised : (breakEven host c).1.fillAcc = c.fillAcc := by
          simp only [breakEven]
          split
          · split
            · exact updateStop_fillAcc _ true _
            · rfl
          · rfl
        have activated (t : OrderManager) : (activateTrail host now t).fillAcc = t.fillAcc := by
          simp only [activateTrail]
          split
          · rfl
          · rfl
        simp only [trail]
        split
        · exact (tightenStop_fillAcc _ _).trans ((activated _).trans (raised.trans breach))
        · exact (activated _).trans (raised.trans breach)

/-- The check of the strategy's stop leaves the sums of the fills. -/
theorem checkExternal_fillAcc (stratStop : Option ℚ) (s : OrderManager) :
    (checkExternalStop host now currentPrice stratStop s).1.fillAcc = s.fillAcc := by
  simp only [checkExternalStop]
  split
  · rfl
  · have breach := checkBreach_fillAcc live now currentPrice (trackExcursion currentPrice s)
    generalize checkBreach host now currentPrice (trackExcursion currentPrice s) = checked
      at breach ⊢
    obtain ⟨c, exited⟩ := checked
    dsimp only at breach ⊢
    split
    · exact breach
    · split
      · exact breach
      · split
        · exact (tightenStop_fillAcc _ _).trans breach
        · exact breach

theorem onOrderRejected_fillAcc (basket : String) (s : OrderManager) :
    (onOrderRejected host now basket s).fillAcc = s.fillAcc := by
  simp only [onOrderRejected]
  split
  · rfl
  · split
    · split
      · exact initiateExit_fillAcc live now _ _ _
      · rfl
    · split
      · rfl
      · rfl

/-- Only a fill touches the sums. -/
theorem perform_fillAcc (call : Call) (s : OrderManager)
    (silent : ∀ basket price qty isEntry, call.op ≠ .fill basket price qty isEntry) :
    (perform host call s).fillAcc = s.fillAcc := by
  obtain ⟨now, op⟩ := call
  cases op with
  | fill basket price qty isEntry => exact absurd rfl (silent basket price qty isEntry)
  | signal sig price dist => exact onSignal_fillAcc live now sig price dist s
  | checkTrail price => exact checkTrail_fillAcc live now price s
  | checkExternal price stratStop => exact checkExternal_fillAcc live now price stratStop s
  | flatten reason price => exact flattenNow_fillAcc live now reason price s
  | retryStuckExit price => exact retryStuckExit_fillAcc live now price s
  | rejected basket => exact onOrderRejected_fillAcc live now basket s
  | entryTimeout secs =>
    simp only [perform, pendingEntryTimeoutCheck]
    split_ifs
    · rfl
    · rfl
    · rfl
    · exact cancelOrder_fillAcc s.pos.basketIdEntry _
  | cancelConfirmedByServer server =>
    simp only [perform, onCancelConfirmedByServerBasket]
    split
    · rfl
    · rfl
  | cancelFailed id =>
    simp only [perform, onCancelFailed]
    split_ifs
    all_goals first
      | rfl
      | exact cancelStop_fillAcc _
  | stopServerMapped client server =>
    simp only [perform, onStopServerMapped]
    split_ifs
    all_goals rfl
  | mapServer client server =>
    simp only [perform, mapServerBasket]
    split_ifs
    all_goals rfl
  | externalClose refPrice reason =>
    simp only [perform, adoptExternalClose]
    split
    · rfl
    · exact cancelStop_fillAcc s
  | fillProcessed basket qty =>
    simp only [perform, fillAlreadyProcessed]
    split
    · rfl
    · rfl
  | recancel =>
    simp only [perform, recancelPendingStops]
    split
    · rfl
    · rfl
  | popCompleted =>
    simp only [perform, popTradeCompleted]
    split
    · rfl
    · rfl
  | _ => rfl

/-- Nothing was told of the order: it has no sums and is not on record. -/
def Untold (tag : String) (s : OrderManager) : Prop :=
  s.fillAcc.lookup tag = none ∧ s.processedFillQty.lookup tag = none

/-- A call that tells nothing of a tag leaves it untold, operation by operation. -/
theorem step_untold (call : Call) (tag : String) (s : OrderManager)
    (silent : Op.tellsOf call.op ≠ some tag) (untold : Untold tag s) :
    Untold tag (step host s call) := by
  constructor
  · refine Eq.trans ?_ untold.1
    by_cases fill : ∃ basket price qty isEntry, call.op = .fill basket price qty isEntry
    · obtain ⟨basket, price, qty, isEntry, op⟩ := fill
      have other : basket ≠ tag := by
        rw [op] at silent
        exact fun same => silent (congrArg some same)
      rw [step, perform, op]
      dsimp only
      rw [onFill_fillAcc, accumulateFill_other basket tag price qty _ other]
    · rw [step, perform_fillAcc live call _ fun basket price qty isEntry op =>
        fill ⟨basket, price, qty, isEntry, op⟩]
  · cases asks : Op.asks call.op with
    | none =>
      have files := @perform_filed host call { s with outbox := [] } asks
      obtain ⟨after, isAfter⟩ :
          ∃ after, after = (perform host call { s with outbox := [] }).filed := ⟨_, rfl⟩
      have record : (step host s call).processedFillQty = after.1 :=
        congrArg Prod.fst isAfter.symm
      rw [← isAfter] at files
      rw [record]
      generalize held : ({ s with outbox := [] } : OrderManager).filed = before at files
      have same : s.processedFillQty = before.1 := congrArg Prod.fst held
      rw [Untold, same] at untold
      cases files with
      | same => exact untold.2
      | opens => exact untold.2
      | closes record =>
        dsimp only [prunedFills]
        split
        · exact Table.lookup_empty tag
        · exact untold.2
    | some asked =>
      obtain ⟨now, op⟩ := call
      cases op with
      | fillProcessed basket qty =>
        have other : basket ≠ tag := fun same => silent (congrArg some same)
        have asked : (step host s ⟨now, .fillProcessed basket qty⟩).processedFillQty =
            AskedRecord.ask basket qty s.processedFillQty :=
          congrArg (fun pair => pair.1.processedFillQty)
            (fillAlreadyProcessed_eq basket qty { s with outbox := [] })
        rw [asked, AskedRecord.lookup_ask, if_neg (Ne.symm other)]
        exact untold.2
      | _ => exact absurd asks.symm (Option.some_ne_none _)

/-- As long as no call tells of an order, it has no sums and is not on record. -/
theorem run_untold (tag : String) (risk : RiskManager) (seq : Nat) (calls : List Call)
    (silent : ∀ call ∈ calls, Op.tellsOf call.op ≠ some tag) :
    Untold tag (run (step host) (fresh risk seq) calls) :=
  run_invariant (step host) (Untold tag) (fun _ call => True ∧ Op.tellsOf call.op ≠ some tag)
    (fun s call untold quiet => step_untold live call tag s quiet.2 untold) (fresh risk seq) calls
    ⟨Table.lookup_empty tag, Table.lookup_empty tag⟩
    (along_and_of_mem (step host) (fresh risk seq) calls
      (along_of_forall (step host) (fun _ _ => trivial) _ calls) silent)

end Live

end OrderManager


/-! ## The events of an order -/

/-- One execution of an order. -/
structure FillEvent where
  size : Int
  price : ℚ
  deriving DecidableEq, Repr

def filledQty (events : List FillEvent) : Int := (events.map FillEvent.size).sum

/-- What the events cost together. -/
def paid (events : List FillEvent) : ℚ :=
  (events.map fun event => (event.size : ℚ) * event.price).sum

theorem filledQty_take_succ {events : List FillEvent} {k : Nat} {event : FillEvent}
    (here : events[k]? = some event) :
    filledQty (events.take (k + 1)) = filledQty (events.take k) + event.size := by
  rw [filledQty, filledQty, List.take_add_one, here]
  simp

theorem paid_take_succ {events : List FillEvent} {k : Nat} {event : FillEvent}
    (here : events[k]? = some event) :
    paid (events.take (k + 1)) = paid (events.take k) + event.size * event.price := by
  rw [paid, paid, List.take_add_one, here]
  simp

section Sizes

variable {events : List FillEvent} (sizes : ∀ event ∈ events, 0 < event.size)
include sizes

theorem filledQty_nonneg : 0 ≤ filledQty events := by
  rw [filledQty]
  apply List.sum_nonneg
  intro size inside
  obtain ⟨event, known, rfl⟩ := List.mem_map.mp inside
  exact (sizes event known).le

theorem filledQty_lt {k : Nat} (below : k < events.length) :
    filledQty (events.take k) < filledQty (events.take (k + 1)) := by
  rw [filledQty_take_succ (List.getElem?_eq_getElem below)]
  have size := sizes _ (List.getElem_mem below)
  omega

/-- More events have filled more. -/
theorem filledQty_mono {j k : Nat} (le : j ≤ k) :
    filledQty (events.take j) ≤ filledQty (events.take k) := by
  induction k, le using Nat.le_induction with
  | base => exact le_refl _
  | succ k _ ih =>
    by_cases below : k < events.length
    · exact ih.trans (filledQty_lt sizes below).le
    · have all : events.take (k + 1) = events.take k := by
        rw [List.take_of_length_le (by omega), List.take_of_length_le (by omega)]
      rw [all]
      exact ih

end Sizes

namespace OpLoop

open OrderManager Notif Interleaving

variable {host : Host}

/-- A report of one event of the order, with the cumulative quantity and the event's price. -/
def IsReport (source : Source) (tag : String) (events : List FillEvent) (k : Nat)
    (delivery : Delivery) : Prop :=
  ∃ now report event, delivery = .report source now report ∧ events[k]? = some event ∧
    report.tag = tag ∧ report.qty = filledQty (events.take (k + 1)) ∧ report.px = event.price

/-- A stream reports every event of the order once, in order. -/
def Reports (source : Source) (tag : String) (events : List FillEvent)
    (stream : List Delivery) : Prop :=
  Interleaving.Numbered (IsReport source tag events) 0 stream ∧ stream.length = events.length

/-- A report of one event, from either stream of the receive loop. -/
def Reported (tag : String) (events : List FillEvent) (k : Nat) (delivery : Delivery) : Prop :=
  ∃ source, source ≠ .router ∧ IsReport source tag events k delivery

/-- The order is the position's own and works: its entry while that is pending, else one
of its stops, or its exit. -/
def Working (tag : String) (om : OrderManager) : Prop :=
  tag ≠ "" ∧ (om.pos.state = .pendingEntry ∧ om.pos.basketIdEntry = tag ∨
    om.pos.state.isHeld = true ∧ om.pos.basketIdEntry ≠ tag ∧
      (om.isStopBasket tag = true ∨ om.isExitBasket tag = true))

/-- The order is the position's current entry, stop or exit, so its fills are summed up. -/
def Current (tag : String) (om : OrderManager) : Prop :=
  tag = om.pos.basketIdEntry ∨ tag = om.pos.basketIdStop ∨ tag = om.pos.basketIdExit
deriving Decidable

/-- The price that the completion of the order has recorded. -/
def recordedPrice (before after : OrderManager) : ℚ :=
  if before.pos.state = .pendingEntry then after.pos.entryPrice else after.completedPos.exitPrice

/-- Nothing is done, apart from the record of the quantities asked about. -/
def Ignored (om : OrderManager) (after : Handled) : Prop :=
  after.halts = [] ∧ withRecord om.processedFillQty after.manager = { om with outbox := [] }

/-- The order completes with one report: those before leave the position alone, and those
after are ignored. -/
def CompletesOnce (host : Host) (om : OrderManager) (reports : List Delivery) : Prop :=
  ∃ before last after, reports = before ++ last :: after ∧
    Along (take host) (fun s report => (take host s report).pos = s.pos) om before ∧
    (take host (run (take host) om before) last).pos.state.isHeld = !om.pos.state.isHeld ∧
    Along (take host) (fun s report => Ignored s (deliver host s report))
      (run (take host) om (before ++ [last])) after

/-! ## Reports of an order that works -/

/-- So many events are taken, and nothing has happened but for the record and the sums. -/
structure Partly (tag : String) (events : List FillEvent) (om : OrderManager) (k : Nat)
    (s : OrderManager) : Prop where
  same : { s with
    processedFillQty := om.processedFillQty, fillAcc := om.fillAcc, outbox := om.outbox } = om
  asked : (s.processedFillQty.lookup tag).getD 0 = filledQty (events.take k)
  summed : Current tag om → (s.fillAcc.lookup tag).getD (0, 0) =
    (filledQty (events.take k), paid (events.take k))

variable {tag : String} {events : List FillEvent} {om : OrderManager}

variable {k : Nat} {s : OrderManager} {delivery : Delivery}

theorem Partly.position (partly : Partly tag events om k s) : s.pos = om.pos := by
  have same := congrArg OrderManager.pos partly.same
  exact same

theorem Partly.attributed (partly : Partly tag events om k s) : attribution s = attribution om := by
  have same := congrArg attribution partly.same
  exact same

theorem Working.owned (working : Working tag om) : owns tag om = true := by
  obtain ⟨_, ⟨_, entry⟩ | ⟨_, _, stop | exit⟩⟩ := working
  · simp [owns, isEntryBasket, entry]
  · simp [owns, stop]
  · simp [owns, exit]

theorem Partly.owned (partly : Partly tag events om k s) (working : Working tag om) :
    owns tag s = true :=
  (owns_congr partly.attributed tag).trans working.owned

/-- A report of an own order is asked about, and handed on when it tells of more. -/
theorem take_owned (s : OrderManager) (source : Source) (now : Int) (report : RoutedFill)
    (own : owns report.tag s = true) :
    take host s (.report source now report) =
      if (s.processedFillQty.lookup report.tag).getD 0 ≥ report.qty then
        withAsked (report.tag, report.qty) { s with outbox := [] }
      else
        onFillNotificationLocked host now report.tag report.px report.qty
          (s.isEntryBasket report.tag && !s.isStopBasket report.tag)
          (withAsked (report.tag, report.qty) { s with outbox := [] }) := by
  have own : owns report.tag { s with outbox := [] } = true := own
  simp only [take, deliver, RoutedFill.route, own, ↓reduceIte, ownedFill,
    fillAlreadyProcessed_eq, decide_eq_true_eq]
  split
  · rfl
  · rfl

/-- A report of an event that is taken only asks. -/
theorem Partly.stale {number : Nat} (partly : Partly tag events om k s) (working : Working tag om)
    (sizes : ∀ event ∈ events, 0 < event.size) (reported : Reported tag events number delivery)
    (taken : number < k) : Partly tag events om k (take host s delivery) := by
  obtain ⟨source, _, now, report, event, rfl, _, rfl, qty, _⟩ := reported
  have seen : (s.processedFillQty.lookup report.tag).getD 0 ≥ report.qty := by
    rw [partly.asked, qty]
    exact filledQty_mono sizes taken
  rw [take_owned s source now report (partly.owned working), if_pos seen]
  constructor
  · exact partly.same
  · rw [withAsked, AskedRecord.lookup_ask, if_pos rfl, Option.getD_some, max_eq_left seen]
    exact partly.asked
  · exact partly.summed

/-- How a fill of one of the current orders is summed up. -/
theorem accumulateFill_current {basket : String} {fillPrice : ℚ} {fillQty : Int}
    (current : Current basket s) {before : Int} {sum : ℚ}
    (sums : (s.fillAcc.lookup basket).getD (0, 0) = (before, sum)) (more : before < fillQty)
    (positive : 0 < fillQty) :
    accumulateFill basket fillPrice fillQty s =
      ({ s with
          fillAcc := if fillQty ≥ s.pos.qty then s.fillAcc.erase basket
            else s.fillAcc.insert basket (fillQty, sum + (fillQty - before : Int) * fillPrice) },
        (sum + (fillQty - before : Int) * fillPrice) / fillQty) := by
  have inc : fillQty - before > 0 := by omega
  simp only [accumulateFill, sums]
  rw [if_pos ⟨positive, current⟩]
  simp only [inc, ↓reduceIte, positive]

theorem accumulateFill_raw {basket : String} (raw : ¬Current basket s) (fillPrice : ℚ)
    (fillQty : Int) : accumulateFill basket fillPrice fillQty s = (s, fillPrice) := by
  rw [accumulateFill, if_neg fun both => raw both.2]

/-- A fill that does not complete the order is only summed up. -/
theorem onFill_partial (now : Int) (px : ℚ) (qty : Int) (s : OrderManager)
    (working : Working tag s) (stop : s.pos.state = .pendingEntry → s.isStopBasket tag = false)
    (positive : 0 < qty) (open_ : qty < s.pos.qty) :
    onFillNotificationLocked host now tag px qty (s.isEntryBasket tag && !s.isStopBasket tag) s =
      (accumulateFill tag px qty s).1 := by
  have same : (accumulateFill tag px qty s).1.pos = s.pos := accumulateFill_pos tag px qty s
  simp only [onFillNotificationLocked]
  generalize accumulateFill tag px qty s = accumulated at same ⊢
  obtain ⟨c, price⟩ := accumulated
  dsimp only at same ⊢
  obtain ⟨_, ⟨pending, entry⟩ | ⟨held, other, _⟩⟩ := working
  · have isEntry : (s.isEntryBasket tag && !s.isStopBasket tag) = true := by
      simp [isEntryBasket, entry, stop pending]
    rw [if_pos isEntry, same, if_neg (by rw [pending]; decide), entryFill, same,
      if_neg (by rw [entry]; simp), if_pos ⟨positive, open_⟩]
  · have notEntry : (s.isEntryBasket tag && !s.isStopBasket tag) = false := by
      simp [isEntryBasket, other]
    rw [if_neg (by rw [notEntry]; decide), if_neg, exitFill, same, if_pos ⟨positive, open_⟩]
    rw [same]
    rintro ⟨closing, long, short⟩
    cases state : s.pos.state with
    | flat => exact absurd (held.symm.trans (congrArg PosState.isHeld state)) (by decide)
    | pendingEntry => exact absurd (held.symm.trans (congrArg PosState.isHeld state)) (by decide)
    | long => exact long state
    | short => exact short state
    | pendingExit => exact closing state

theorem working_congr (same : attribution s = attribution om) : Working tag s ↔ Working tag om := by
  cases s
  cases om
  simp only [attribution, Prod.mk.injEq] at same
  obtain ⟨rfl, rfl, rfl, rfl⟩ := same
  rfl

theorem isStopBasket_congr (same : attribution s = attribution om) :
    s.isStopBasket tag = om.isStopBasket tag := by
  cases s
  cases om
  simp only [attribution, Prod.mk.injEq] at same
  obtain ⟨rfl, rfl, rfl, rfl⟩ := same
  rfl

theorem current_congr (same : s.pos = om.pos) : Current tag s ↔ Current tag om := by
  rw [Current, Current, same]

/-- What the report of the next event hands on. -/
theorem Partly.take_next {source : Source} {now : Int} {report : RoutedFill} {event : FillEvent}
    (partly : Partly report.tag events om k s) (working : Working report.tag om)
    (sizes : ∀ event ∈ events, 0 < event.size) (here : events[k]? = some event)
    (qty : report.qty = filledQty (events.take (k + 1))) :
    take host s (.report source now report) =
      onFillNotificationLocked host now report.tag report.px report.qty
        (s.isEntryBasket report.tag && !s.isStopBasket report.tag)
        (withAsked (report.tag, report.qty) { s with outbox := [] }) := by
  have more : ¬(s.processedFillQty.lookup report.tag).getD 0 ≥ report.qty := by
    obtain ⟨below, _⟩ := List.getElem?_eq_some_iff.mp here
    have less := filledQty_lt sizes below
    rw [partly.asked, qty]
    omega
  rw [take_owned s source now report (partly.owned working), if_neg more]

/-- How the report of the next event is summed up. -/
theorem Partly.accumulate {event : FillEvent} (partly : Partly tag events om k s)
    (current : Current tag om) (sizes : ∀ event ∈ events, 0 < event.size)
    (here : events[k]? = some event) :
    accumulateFill tag event.price (filledQty (events.take (k + 1)))
        (withAsked (tag, filledQty (events.take (k + 1))) { s with outbox := [] }) =
      ({ withAsked (tag, filledQty (events.take (k + 1))) { s with outbox := [] } with
          fillAcc := if filledQty (events.take (k + 1)) ≥ om.pos.qty then s.fillAcc.erase tag
            else s.fillAcc.insert tag
              (filledQty (events.take (k + 1)), paid (events.take (k + 1))) },
        paid (events.take (k + 1)) / filledQty (events.take (k + 1))) := by
  obtain ⟨below, _⟩ := List.getElem?_eq_some_iff.mp here
  have less := filledQty_lt sizes below
  have least : 0 ≤ filledQty (events.take k) :=
    filledQty_nonneg fun event inside => sizes event (List.mem_of_mem_take inside)
  have step : filledQty (events.take (k + 1)) - filledQty (events.take k) = event.size := by
    rw [filledQty_take_succ here]
    omega
  have paidNow : paid (events.take k) +
      ((filledQty (events.take (k + 1)) - filledQty (events.take k) : Int) : ℚ) * event.price =
        paid (events.take (k + 1)) := by
    rw [step, paid_take_succ here]
  have position : (withAsked (tag, filledQty (events.take (k + 1)))
      { s with outbox := [] }).pos = om.pos := partly.position
  have quantity : (withAsked (tag, filledQty (events.take (k + 1)))
      { s with outbox := [] }).pos.qty = om.pos.qty := congrArg Position.qty position
  rw [accumulateFill_current ((current_congr position).mpr current) (partly.summed current) less
    (by omega), paidNow, quantity]
  rfl

/-- A report of the next event is summed up, unless the event is the last one. -/
theorem Partly.next (partly : Partly tag events om k s) (working : Working tag om)
    (stop : om.pos.state = .pendingEntry → om.isStopBasket tag = false)
    (sizes : ∀ event ∈ events, 0 < event.size) (total : filledQty events = om.pos.qty)
    (reported : Reported tag events k delivery) (open_ : k + 1 < events.length) :
    Partly tag events om (k + 1) (take host s delivery) := by
  obtain ⟨source, _, now, report, event, rfl, here, rfl, qty, px⟩ := reported
  rw [partly.take_next working sizes here qty, qty, px]
  obtain ⟨c, isC⟩ : ∃ c, c = withAsked (report.tag, filledQty (events.take (k + 1)))
      { s with outbox := [] } := ⟨_, rfl⟩
  have attributed : attribution c = attribution om := by
    rw [isC]
    exact partly.attributed
  have position : c.pos = om.pos := by
    rw [isC]
    exact partly.position
  have less := filledQty_lt sizes (by omega : k < events.length)
  have least : 0 ≤ filledQty (events.take k) :=
    filledQty_nonneg fun event inside => sizes event (List.mem_of_mem_take inside)
  have short : filledQty (events.take (k + 1)) < c.pos.qty := by
    rw [position, ← total]
    refine (filledQty_lt sizes open_).trans_le ?_
    have all := filledQty_mono sizes (by omega : k + 1 + 1 ≤ events.length)
    rwa [List.take_length] at all
  have asked : (c.processedFillQty.lookup report.tag).getD 0 =
      filledQty (events.take (k + 1)) := by
    rw [isC, withAsked, AskedRecord.lookup_ask, if_pos rfl, Option.getD_some]
    exact (congrArg (fun seen => max seen _) partly.asked).trans (max_eq_right less.le)
  have entry : (s.isEntryBasket report.tag && !s.isStopBasket report.tag) =
      (c.isEntryBasket report.tag && !c.isStopBasket report.tag) := by
    rw [isC]
    rfl
  rw [entry, ← isC, onFill_partial now event.price _ c ((working_congr attributed).mpr working)
    (fun pending => (isStopBasket_congr attributed).trans (stop (position ▸ pending)))
    (by omega) short]
  by_cases current : Current report.tag om
  · rw [isC, partly.accumulate current sizes here, if_neg (by rw [← position]; omega), ← isC]
    constructor
    · rw [isC]
      exact partly.same
    · exact asked
    · intro _
      rw [Table.lookup_insert, if_pos rfl, Option.getD_some]
  · rw [accumulateFill_raw (fun here => current ((current_congr position).mp here))]
    constructor
    · rw [isC]
      exact partly.same
    · exact asked
    · exact fun here => absurd here current

/-! ## The report that completes the order -/

/-- The price at which the fills of the order are booked: their average when they were
summed up, else the price of the last event. -/
def bookedPrice (tag : String) (events : List FillEvent) (om : OrderManager) : ℚ :=
  if Current tag om then paid events / filledQty events
  else (events.getLast?.map FillEvent.price).getD 0

/-- The order is complete: its price is recorded, and whoever still owns it has all of its
quantity on record. -/
structure Done (tag : String) (events : List FillEvent) (om s : OrderManager) : Prop where
  recorded : recordedPrice om s = bookedPrice tag events om
  turned : s.pos.state.isHeld = !om.pos.state.isHeld
  asked : owns tag s = true → filledQty events ≤ (s.processedFillQty.lookup tag).getD 0

/-- The complete fill of the order turns the position over, and records its price. -/
theorem onFill_complete (now : Int) (px : ℚ) (qty : Int) (s : OrderManager)
    (working : Working tag s) (stop : s.pos.state = .pendingEntry → s.isStopBasket tag = false)
    (full : s.pos.qty ≤ qty) :
    let after := onFillNotificationLocked host now tag px qty
      (s.isEntryBasket tag && !s.isStopBasket tag) s
    recordedPrice s after = (accumulateFill tag px qty s).2 ∧
      after.pos.state.isHeld = !s.pos.state.isHeld ∧
        (owns tag after = true → after.processedFillQty = s.processedFillQty) := by
  have same : (accumulateFill tag px qty s).1.pos = s.pos := accumulateFill_pos tag px qty s
  have record : (accumulateFill tag px qty s).1.processedFillQty = s.processedFillQty :=
    congrArg Prod.fst (accumulateFill_filed tag px qty s)
  simp only [onFillNotificationLocked]
  generalize accumulateFill tag px qty s = accumulated at same record ⊢
  obtain ⟨c, price⟩ := accumulated
  dsimp only at same record ⊢
  have whole (q : Int) (enough : q ≤ qty) : ¬(qty > 0 ∧ qty < q) := by omega
  obtain ⟨named, ⟨pending, entry⟩ | ⟨held, other, _⟩⟩ := working
  · have isEntry : (s.isEntryBasket tag && !s.isStopBasket tag) = true := by
      simp [isEntryBasket, entry, stop pending]
    rw [if_pos isEntry, same, if_neg (by rw [pending]; decide), entryFill, same,
      if_neg (by rw [entry]; simp), if_neg (whole _ full)]
    have submitted := @submitStop_filed host (entrySl host price c)
      (openedPosition host now price c)
    have priced : (submitStopOrderLocked host (entrySl host price c)
        (openedPosition host now price c)).pos.entryPrice = price := by
      simp only [submitStopOrderLocked]
      split
      · rfl
      · split
        · rfl
        · split
          · rfl
          · rfl
    refine ⟨?_, ?_, fun _ => ?_⟩
    · rw [recordedPrice, if_pos pending]
      exact priced
    · have held := congrArg Prod.snd submitted
      refine held.trans ?_
      rw [pending]
      exact heldState_isHeld _
    · exact (congrArg Prod.fst submitted).trans record
  · have notEntry : (s.isEntryBasket tag && !s.isStopBasket tag) = false := by
      simp [isEntryBasket, other]
    have open_ : ¬(s.pos.state ≠ .pendingExit ∧ s.pos.state ≠ .long ∧ s.pos.state ≠ .short) := by
      rintro ⟨closing, long, short⟩
      cases state : s.pos.state with
      | flat => exact absurd (held.symm.trans (congrArg PosState.isHeld state)) (by decide)
      | pendingEntry =>
        exact absurd (held.symm.trans (congrArg PosState.isHeld state)) (by decide)
      | long => exact long state
      | short => exact short state
      | pendingExit => exact closing state
    have busy : s.pos.state ≠ .pendingEntry := fun pending =>
      absurd (held.symm.trans (congrArg PosState.isHeld pending)) (by decide)
    rw [if_neg (by rw [notEntry]; decide), same, if_neg open_, exitFill, same,
      if_neg (whole _ full)]
    refine ⟨?_, ?_, fun own => ?_⟩
    · rw [recordedPrice, if_neg busy]
      rfl
    · rw [held]
      rfl
    · have empty : ("" : String) ≠ tag := Ne.symm named
      refine absurd own ?_
      simp [owns, isEntryBasket, isStopBasket, isExitBasket, purgeGuards, finishClose, inTrade,
        empty]

/-- The report of the last event completes the order. -/
theorem Partly.done (partly : Partly tag events om k s) (working : Working tag om)
    (stop : om.pos.state = .pendingEntry → om.isStopBasket tag = false)
    (sizes : ∀ event ∈ events, 0 < event.size) (total : filledQty events = om.pos.qty)
    (reported : Reported tag events k delivery) (last : k + 1 = events.length) :
    Done tag events om (take host s delivery) := by
  obtain ⟨source, _, now, report, event, rfl, here, rfl, qty, px⟩ := reported
  have all : events.take (k + 1) = events := by rw [last, List.take_length]
  rw [partly.take_next working sizes here qty, qty, px]
  obtain ⟨c, isC⟩ : ∃ c, c = withAsked (report.tag, filledQty (events.take (k + 1)))
      { s with outbox := [] } := ⟨_, rfl⟩
  have attributed : attribution c = attribution om := by
    rw [isC]
    exact partly.attributed
  have position : c.pos = om.pos := by
    rw [isC]
    exact partly.position
  have entry : (s.isEntryBasket report.tag && !s.isStopBasket report.tag) =
      (c.isEntryBasket report.tag && !c.isStopBasket report.tag) := by
    rw [isC]
    rfl
  have summed : (accumulateFill report.tag event.price (filledQty (events.take (k + 1))) c).2 =
      bookedPrice report.tag events om := by
    rw [bookedPrice]
    by_cases current : Current report.tag om
    · rw [isC, partly.accumulate current sizes here, if_pos current, all]
    · rw [accumulateFill_raw (fun here => current ((current_congr position).mp here)),
        if_neg current, List.getLast?_eq_getElem?, ← last, Nat.add_sub_cancel, here]
      rfl
  obtain ⟨recorded, turned, kept⟩ := @onFill_complete host report.tag now event.price
    (filledQty (events.take (k + 1))) c ((working_congr attributed).mpr working)
    (fun pending => (isStopBasket_congr attributed).trans (stop (position ▸ pending)))
    (by rw [position, all, total])
  rw [entry, ← isC]
  constructor
  · rw [recordedPrice, position] at recorded
    exact recorded.trans summed
  · rw [position] at turned
    exact turned
  · intro own
    rw [kept own, isC, withAsked, AskedRecord.lookup_ask, if_pos rfl, Option.getD_some, all]
    exact le_max_right _ _

/-! ## Reports of a complete order -/

/-- A report that nobody owns, or whose quantity is on record, only adds to the record. -/
theorem deliver_quiet (s : OrderManager) {source : Source} (loop : source ≠ .router) (now : Int)
    (report : RoutedFill) (positive : 0 < report.qty)
    (asked : owns report.tag s = true →
      report.qty ≤ (s.processedFillQty.lookup report.tag).getD 0) :
    ∃ record, deliver host s (.report source now report) =
        { manager := withRecord record { s with outbox := [] } } ∧
      ∀ id, (s.processedFillQty.lookup id).getD 0 ≤ (record.lookup id).getD 0 := by
  have grows (ask : String × Int) (id : String) : (s.processedFillQty.lookup id).getD 0 ≤
      ((AskedRecord.ask ask.1 ask.2 s.processedFillQty).lookup id).getD 0 := by
    rw [AskedRecord.lookup_ask]
    split
    next same =>
      rw [same]
      exact le_max_left _ _
    next => exact le_refl _
  cases asks : report.asks host source { s with outbox := [] } with
  | none =>
    refine ⟨s.processedFillQty, ?_, fun id => le_refl _⟩
    exact route_unasked now asks
  | some ask =>
    refine ⟨AskedRecord.ask ask.1 ask.2 s.processedFillQty, ?_, grows ask⟩
    cases own : owns report.tag s with
    | true =>
      have known := (route_asked now asks).1
      have same : ask = (report.tag, report.qty) := by
        have own : owns report.tag { s with outbox := [] } = true := own
        rw [RoutedFill.asks, if_pos own] at asks
        exact (Option.some.inj asks).symm
      refine known ?_
      rw [same]
      have enough := asked own
      cases row : s.processedFillQty.lookup report.tag with
      | none =>
        rw [row, Option.getD_none] at enough
        omega
      | some held =>
        rw [row, Option.getD_some] at enough
        exact ⟨held, row, enough⟩
    | false =>
      have own : owns report.tag { s with outbox := [] } = false := own
      rw [RoutedFill.asks, if_neg (by rw [own]; decide)] at asks
      split at asks
      next admitted =>
        rw [← Option.some.inj asks]
        cases source with
        | router => exact absurd rfl loop
        | order =>
          have ours : report.OnAccount host := admitted.resolve_left (by decide)
          simp only [deliver, RoutedFill.route, own, Bool.false_eq_true, ↓reduceIte, ours,
            unownedFill_eq]
          rfl
        | exchange =>
          simp only [deliver, RoutedFill.route, own, Bool.false_eq_true, ↓reduceIte,
            unownedFill_eq]
          rfl
      next => exact absurd asks.symm (Option.some_ne_none _)

/-- A further report of a complete order is ignored. -/
theorem Done.stale (done : Done tag events om s) (sizes : ∀ event ∈ events, 0 < event.size)
    (reported : Reported tag events k delivery) (known : k < events.length) :
    Ignored s (deliver host s delivery) ∧ Done tag events om (take host s delivery) := by
  obtain ⟨source, loop, now, report, event, rfl, _, rfl, qty, _⟩ := reported
  have least : 0 ≤ filledQty (events.take k) :=
    filledQty_nonneg fun event inside => sizes event (List.mem_of_mem_take inside)
  have less := filledQty_lt sizes known
  have most : filledQty (events.take (k + 1)) ≤ filledQty events := by
    have all := filledQty_mono sizes (by omega : k + 1 ≤ events.length)
    rwa [List.take_length] at all
  obtain ⟨record, same, grows⟩ := @deliver_quiet host s source loop now report (by omega)
    fun own => by
      have asked := done.asked own
      omega
  rw [take, same]
  refine ⟨⟨rfl, rfl⟩, ?_⟩
  constructor
  · exact done.recorded
  · exact done.turned
  · exact fun own => (done.asked own).trans (grows report.tag)

/-! ## The whole order -/

/-- Whatever the merge of the two streams, the order completes with one report, and the
price it is booked at is recorded. -/
theorem booked_of_merges {first second reports : List Delivery}
    (untold : Untold tag om) (working : Working tag om)
    (stop : om.pos.state = .pendingEntry → om.isStopBasket tag = false)
    (sizes : ∀ event ∈ events, 0 < event.size) (some_ : events ≠ [])
    (total : filledQty events = om.pos.qty) (exchange : Reports .exchange tag events first)
    (order : Reports .order tag events second) (merges : Merges first second reports) :
    recordedPrice om (run (take host) om reports) = bookedPrice tag events om ∧
      CompletesOnce host om reports := by
  have initial : Partly tag events om (max 0 0) om := by
    constructor
    · rfl
    · rw [untold.2]
      rfl
    · intro _
      rw [untold.1]
      rfl
  have length : 0 < events.length := List.length_pos_iff.mpr some_
  obtain ⟨before, last, after, split, isLast, reached, along, stales⟩ :=
    @Merges.last _ _ (take host) (Partly tag events om) (Reported tag events) events.length
      (fun k number s report partly _ reported less => partly.stale working sizes reported less)
      (fun k s report partly open_ reported =>
        partly.next working stop sizes total reported open_)
      first second reports merges 0 0 om initial
      (exchange.1.imp fun k report told => ⟨.exchange, by decide, told⟩)
      (order.1.imp fun k report told => ⟨.order, by decide, told⟩)
      (by rw [exchange.2, Nat.zero_add]) (by rw [order.2, Nat.zero_add]) length
  have done : Done tag events om (run (take host) om (before ++ [last])) := by
    rw [run_append]
    exact reached.done working stop sizes total isLast (by omega)
  have quiet : Along (take host)
      (fun _ report => True ∧ ∃ k < events.length, Reported tag events k report)
      (run (take host) om (before ++ [last])) after :=
    along_and_of_mem (take host) _ after
      (along_of_forall (take host) (fun _ _ => trivial) _ after) stales
  have keeps (s : OrderManager) (report : Delivery) (done : Done tag events om s)
      (reported : True ∧ ∃ k < events.length, Reported tag events k report) :
      Ignored s (deliver host s report) ∧ Done tag events om (take host s report) := by
    obtain ⟨_, k, known, reported⟩ := reported
    exact done.stale sizes reported known
  constructor
  · have final := run_invariant (take host) (Done tag events om) _
      (fun s report done reported => (keeps s report done reported).2) _ after done quiet
    rw [split, List.append_cons, run_append]
    exact final.recorded
  · refine ⟨before, last, after, split, ?_, ?_, ?_⟩
    · exact along_of_invariant (take host) (fun s => s.pos = om.pos)
        (fun s report position partly => by
          obtain ⟨k, _, partly⟩ := partly
          exact partly.position.trans position.symm)
        (fun s report _ partly => by
          obtain ⟨k, _, partly⟩ := partly
          exact partly.position)
        om before rfl along
    · have turned := done.turned
      rw [run_append] at turned
      exact turned
    · exact along_of_invariant (take host) (Done tag events om)
        (fun s report done reported => (keeps s report done reported).1)
        (fun s report done reported => (keeps s report done reported).2) _ after done quiet

/-- The price of the last event. -/
def lastPrice (events : List FillEvent) : ℚ := (events.getLast?.map FillEvent.price).getD 0

/-- No stop is live while an entry is pending. -/
theorem stopless_pending (live : host.Live) (risk : RiskManager) (seq : Nat)
    (calls : List Call) :
    (run (OrderManager.step host) (fresh risk seq) calls).pos.state = .pendingEntry →
      (run (OrderManager.step host) (fresh risk seq) calls).isStopBasket tag = false := by
  have shape : (run (OrderManager.step host) (fresh risk seq) calls).ledger.Shape :=
    run_invariant (OrderManager.step host) (fun s => s.ledger.Shape) (fun _ _ => True)
      (fun s call shape _ => step_shape live s call shape) _ calls (fresh_shape risk seq)
      (along_of_forall _ (fun _ _ => trivial) _ calls)
  intro pending
  have bare := (shape.pendingEntry pending).2.2
  have none : (run (OrderManager.step host) (fresh risk seq) calls).pos.basketIdStop = "" := bare
  simp [isStopBasket, none, inTrade, pending]

/-- In every run of a live manager, an order that works for the position and was told
nothing of is filled by its events: each report of the two streams, in any merge, is routed
as the receive loop does. The price recorded is the average of the events, one report
completes the order and those after it are ignored, exactly when the order is the position's
current entry, stop or exit, or its average is the price of its last event. -/
theorem average_booked_iff (host : Host) (live : host.Live) (risk : RiskManager) (seq : Nat)
    (calls : List Call) (tag : String) (events : List FillEvent)
    (first second reports : List Delivery) (silent : ∀ call ∈ calls, Op.tellsOf call.op ≠ some tag)
    (working : Working tag (run (OrderManager.step host) (fresh risk seq) calls))
    (sizes : ∀ event ∈ events, 0 < event.size) (some_ : events ≠ [])
    (total : filledQty events =
      (run (OrderManager.step host) (fresh risk seq) calls).pos.qty)
    (exchange : Reports .exchange tag events first) (order : Reports .order tag events second)
    (merges : Merges first second reports) :
    let om := run (OrderManager.step host) (fresh risk seq) calls
    (recordedPrice om (run (take host) om reports) = paid events / om.pos.qty ∧
        CompletesOnce host om reports) ↔
      Current tag om ∨ paid events = om.pos.qty * lastPrice events := by
  intro om
  obtain ⟨recorded, once⟩ := @booked_of_merges host tag events om first second reports
    (run_untold live tag risk seq calls silent) working
    (stopless_pending live risk seq calls) sizes some_ total exchange order merges
  have positive : (0 : ℚ) < om.pos.qty := by
    have length : 0 + 1 ≤ events.length := List.length_pos_iff.mpr some_
    have grows := filledQty_lt sizes length
    have all := filledQty_mono sizes length
    rw [List.take_length] at all
    rw [List.take_zero] at grows
    have none : filledQty [] = 0 := rfl
    have whole : 0 < om.pos.qty := by
      rw [show om.pos.qty = filledQty events from total.symm]
      omega
    exact_mod_cast whole
  have whole : (filledQty events : ℚ) = om.pos.qty := congrArg Int.cast total
  rw [recorded, bookedPrice, and_iff_left once, whole]
  by_cases current : Current tag om
  · rw [if_pos current]
    exact iff_of_true rfl (Or.inl current)
  · rw [if_neg current, eq_div_iff positive.ne', mul_comm]
    constructor
    · exact fun same => Or.inr same.symm
    · exact fun same => (same.resolve_left current).symm

/-- A live host that trades two lots. -/
def pairs : Host := { Host.accepting with cfg := { qty := 2 } }

/-- The two reports of an event on a stream of an order filled in two events. -/
def halves (source : Source) (tag : String) (first second : ℚ) : List Delivery :=
  [.report source 0 { tag := tag, px := first, qty := 1 },
    .report source 0 { tag := tag, px := second, qty := 2 }]

/-- Two halves of an order, reported by one source. -/
theorem halves_report (source : Source) (tag : String) (first second : ℚ) :
    Reports source tag [⟨1, first⟩, ⟨1, second⟩] (halves source tag first second) := by
  refine ⟨⟨?_, ?_, trivial⟩, rfl⟩
  · exact ⟨0, { tag := tag, px := first, qty := 1 }, ⟨1, first⟩, rfl, rfl, rfl, rfl, rfl⟩
  · exact ⟨0, { tag := tag, px := second, qty := 2 }, ⟨1, second⟩, rfl, rfl, rfl, rfl, rfl⟩

/-- The exchange notification of each event before the order notification. -/
def alternating (tag : String) (first second : ℚ) : List Delivery :=
  [.report .exchange 0 { tag := tag, px := first, qty := 1 },
    .report .order 0 { tag := tag, px := first, qty := 1 },
    .report .exchange 0 { tag := tag, px := second, qty := 2 },
    .report .order 0 { tag := tag, px := second, qty := 2 }]

theorem halves_merge (tag : String) (first second : ℚ) :
    Merges (halves .exchange tag first second) (halves .order tag first second)
      (alternating tag first second) :=
  .left _ (.right _ (.left _ (.right _ .nil)))

/-- An entry filled at 100 and at 101 is booked at 100.5. -/
theorem average_booked_of_entry :
    recordedPrice (run (OrderManager.step pairs) (fresh {} 0) [⟨1, .signal .buy 100 0⟩])
      (run (take pairs) (run (OrderManager.step pairs) (fresh {} 0) [⟨1, .signal .buy 100 0⟩])
        (alternating "MNQ-0-0" 100 101)) = 201 / 2 := by
  have booked := (average_booked_iff pairs ⟨rfl, rfl, rfl⟩ {} 0 [⟨1, .signal .buy 100 0⟩] "MNQ-0-0"
    [⟨1, 100⟩, ⟨1, 101⟩] _ _ _ (by decide) ⟨by decide, Or.inl (by decide +kernel)⟩ (by decide)
    (by decide) (by decide +kernel)
    (halves_report .exchange "MNQ-0-0" 100 101) (halves_report .order "MNQ-0-0" 100 101)
    (halves_merge "MNQ-0-0" 100 101)).mpr (Or.inl (by decide +kernel))
  refine booked.1.trans ?_
  decide +kernel

/-- A long position of two lots whose first stop has just been replaced. -/
def replacing : List Call :=
  [⟨1, .signal .buy 100 0⟩, ⟨2, .fill "MNQ-0-0" 100 2 true⟩, ⟨3, .checkTrail 110⟩]

/-- The replaced stop fills at 90 and at 80 before its cancel arrives: the exit is recorded
at 80, not at 85. -/
theorem replaced_stop_not_averaged :
    ¬∀ (host : Host) (_ : host.Live) (risk : RiskManager) (seq : Nat) (calls : List Call)
      (tag : String) (events : List FillEvent) (first second reports : List Delivery),
      (∀ call ∈ calls, Op.tellsOf call.op ≠ some tag) →
      Working tag (run (OrderManager.step host) (fresh risk seq) calls) →
      (∀ event ∈ events, 0 < event.size) → events ≠ [] →
      filledQty events = (run (OrderManager.step host) (fresh risk seq) calls).pos.qty →
      Reports .exchange tag events first → Reports .order tag events second →
      Merges first second reports →
      let om := run (OrderManager.step host) (fresh risk seq) calls
      recordedPrice om (run (take host) om reports) = paid events / om.pos.qty ∧
        CompletesOnce host om reports := by
  intro average
  have booked := average pairs ⟨rfl, rfl, rfl⟩ {} 0 replacing "MNQ-0-1" [⟨1, 90⟩, ⟨1, 80⟩] _ _ _
    (by decide) ⟨by decide, Or.inr (by decide +kernel)⟩ (by decide) (by decide) (by decide +kernel)
    (halves_report .exchange "MNQ-0-1" 90 80) (halves_report .order "MNQ-0-1" 90 80)
    (halves_merge "MNQ-0-1" 90 80)
  have price := booked.1
  revert price
  decide +kernel

end OpLoop

end RithmicEngine
