import RithmicEngine.Execution.Calls
import RithmicEngine.Execution.OpLoop
/-!
# Fills of orders that are not tracked

The router acts on such a fill: it runs the checks of a fill outside a position,
or it halts the strategy. The receive loop asks the duplicate test before it
calls the router, and that test records the quantity it is asked about, so the
router's own duplicate test then always answers yes. A fill without a user tag
does not even get there while the manager is flat: the empty tag equals the
empty entry id, and the fill is taken for one of a pending entry that is none.
-/
namespace RithmicEngine.OpLoop

open OrderManager Notif

variable {host : Host}

/-- A report of a fill, as either notification carries it. -/
inductive FillReport
  | order (notice : OrderNotice)
  | exchange (notice : ExchangeNotice)
  deriving DecidableEq

namespace FillReport

def tag : FillReport → String
  | .order notice => notice.userTag
  | .exchange notice => notice.userTag

/-- The id under which the guards are asked about the fill. -/
def key : FillReport → String
  | .order notice => fillKey notice.userTag notice.basketId
  | .exchange notice => fillKey notice.userTag notice.basketId

/-- The quantity by which repeated deliveries are recognised. -/
def qty : FillReport → Int
  | .order notice => notice.totalFillSize
  | .exchange notice => notice.fillSize

/-- No fill of the order up to this quantity was processed before. -/
def First (om : OrderManager) (report : FillReport) : Prop :=
  (om.processedFillQty.lookup report.key).getD 0 < report.qty

/-- A live report of a fill on our account. -/
def OnOurs (cfg : OrbConfig) : FillReport → Prop
  | .order notice => notice.isSnapshot = false ∧ notice.totalFillSize > 0 ∧
      (notice.accountId = "" ∨ notice.accountId = cfg.accountId)
  | .exchange notice => notice.notifyType = 5 ∧ notice.fillSize > 0 ∧
      (notice.accountId = "" ∨ notice.accountId = cfg.accountId)

/-- What the receive loop does with the report. -/
def handle (host : Host) (now : Int) (lastPrice : ℚ) (om : OrderManager) : FillReport → Handled
  | .order notice => orderNotice host now lastPrice notice om
  | .exchange notice => exchangeNotice host now notice om

end FillReport

/-- The fills for which the checks outside a position ran. -/
def flatFills (effects : List Effect) : List String :=
  effects.filterMap fun effect =>
    match effect with
    | .flatFill basket => some basket
    | _ => none

@[simp] theorem flatFills_append (first second : List Effect) :
    flatFills (first ++ second) = flatFills first ++ flatFills second :=
  List.filterMap_append

@[simp] theorem flatFills_persistServerNotice (client server : String) :
    flatFills (host.persistServerNotice client server) = [] := by
  simp only [Host.persistServerNotice]
  split
  · rfl
  · rfl

@[simp] theorem flatFills_cancelNotice (id : String) : flatFills (host.cancelNotice id) = [] := by
  simp only [Host.cancelNotice]
  split
  · rfl
  · rfl

@[simp] theorem flatFills_removeNotice (basket : String) :
    flatFills (host.removeNotice basket) = [] := by
  simp only [Host.removeNotice]
  split
  · rfl
  · rfl

/-- The order is not the current entry, stop or exit of the position. An order
without a user tag never is. -/
def Unowned (tag : String) (om : OrderManager) : Prop := tag = "" ∨ owns tag om = false

/-- The report was acted upon: outside a position the checks ran for it exactly
once, in a position the strategy was halted. -/
def ActedUpon (flat : Bool) (key : String) (after : Handled) : Prop :=
  if flat then flatFills after.manager.outbox = [key]
  else "unowned_fill_in_trade" ∈ after.halts

/-- A message that neither ran the checks nor halted the strategy acted on nothing. -/
theorem not_actedUpon {flat : Bool} {key : String} {after : Handled}
    (silent : after.halts = []) (idle : flat = true → flatFills after.manager.outbox = []) :
    ¬ActedUpon flat key after := by
  cases flat with
  | true =>
    simp only [ActedUpon, ↓reduceIte, idle rfl]
    exact List.cons_ne_nil key [] ∘ Eq.symm
  | false =>
    simp only [ActedUpon, Bool.false_eq_true, ↓reduceIte, silent]
    exact List.not_mem_nil

/-! ## The router on its own -/

theorem sendUnwind_flatFills (fired : String) (fillPrice : ℚ) (unwindIsBuy : Bool)
    (userTag : String) (register : Bool) (s : OrderManager) :
    flatFills (sendUnwind host fired fillPrice unwindIsBuy userTag register s).outbox =
      flatFills s.outbox := by
  simp only [sendUnwind]
  split
  · rfl
  · exact (flatFills_append _ _).trans (List.append_nil _)

/-- The checks outside a position note the fill exactly once. -/
theorem flatFill_flatFills (basket : String) (fillPrice : ℚ) (s : OrderManager) :
    flatFills (flatFill host basket fillPrice s).outbox = flatFills s.outbox ++ [basket] := by
  have noted : flatFills (s.outbox ++ [Effect.flatFill basket]) =
      flatFills s.outbox ++ [basket] := flatFills_append _ _
  have dropped (c : OrderManager) : flatFills (dropFiredGuard host basket c).outbox =
      flatFills c.outbox := by
    simp [dropFiredGuard, emit, eraseServerCancelForClientLocked]
  simp only [flatFill]
  split
  · rw [sendUnwind_flatFills, dropped]
    exact noted
  · split
    · rw [sendUnwind_flatFills, dropped]
      exact noted
    · split_ifs
      · exact noted
      · exact noted
      · exact noted

theorem accumulateFill_kept (basket : String) (fillPrice : ℚ) (fillQty : Int)
    (s : OrderManager) :
    (accumulateFill basket fillPrice fillQty s).1.outbox = s.outbox ∧
      (accumulateFill basket fillPrice fillQty s).1.pos = s.pos := by
  simp only [accumulateFill]
  split
  · exact ⟨rfl, rfl⟩
  · exact ⟨rfl, rfl⟩

variable (now : Int)

/-- The router acts upon every fill on our account that is not a duplicate. -/
theorem router_acts (clientId serverBasket notifAccount : String) (px : ℚ) (qty : Int)
    (om : OrderManager) (quiet : om.outbox = [])
    (ours : notifAccount = "" ∨ notifAccount = host.cfg.accountId)
    (first : (unownedFillIsDuplicate clientId serverBasket qty om).2 = false) :
    ActedUpon om.isFlat (fillKey clientId serverBasket)
      { manager := (handleUnownedFill host now clientId serverBasket notifAccount
          host.cfg.accountId px qty om).1
        halts := (handleUnownedFill host now clientId serverBasket notifAccount
          host.cfg.accountId px qty om).2.2 } := by
  have account : ¬(notifAccount ≠ "" ∧ notifAccount ≠ host.cfg.accountId) := by
    rintro ⟨given, other⟩
    exact ours.elim given other
  have asked : (unownedFillIsDuplicate clientId serverBasket qty om).1.pos = om.pos ∧
      (unownedFillIsDuplicate clientId serverBasket qty om).1.outbox = om.outbox := by
    simp only [unownedFillIsDuplicate, fillAlreadyProcessed]
    split
    · exact ⟨rfl, rfl⟩
    · exact ⟨rfl, rfl⟩
  simp only [handleUnownedFill, account, ↓reduceIte]
  generalize unownedFillIsDuplicate clientId serverBasket qty om = answer at first asked ⊢
  obtain ⟨c, duplicate⟩ := answer
  obtain ⟨samePos, sameOutbox⟩ := asked
  simp only at first samePos sameOutbox
  have sameFlat : c.isFlat = om.isFlat := by simp only [isFlat, samePos]
  simp only [first, Bool.false_eq_true, ↓reduceIte, ActedUpon, sameFlat]
  cases flat : om.isFlat with
  | false => simp only [Bool.false_eq_true, ↓reduceIte, List.mem_singleton]
  | true =>
    have state : c.pos.state = .flat := by
      simpa only [isFlat, decide_eq_true_eq] using sameFlat.trans flat
    have kept := accumulateFill_kept (fillKey clientId serverBasket) px qty c
    simp only [↓reduceIte, onFillNotificationLocked, Bool.false_eq_true]
    generalize accumulateFill (fillKey clientId serverBasket) px qty c = accumulated at kept ⊢
    simp only [kept.2, state, ne_eq, reduceCtorEq, not_false_eq_true, and_self, ↓reduceIte]
    rw [flatFill_flatFills, kept.1, sameOutbox, quiet]
    rfl

/-! ## The loop before the router -/

/-- The loop's duplicate test answers for the router's, so nothing is done. -/
theorem unownedFill_idle (host : Host) (now : Int) (tag basketId accountId : String) (px : ℚ)
    (qty : Int)
    (om : OrderManager) :
    (unownedFill host now tag basketId accountId px qty om).halts = [] ∧
      (unownedFill host now tag basketId accountId px qty om).manager.outbox = om.outbox := by
  have recorded (c : OrderManager) :
      (unownedFillIsDuplicate tag basketId qty c).1.outbox = c.outbox := by
    simp only [unownedFillIsDuplicate, fillAlreadyProcessed]
    split
    · rfl
    · rfl
  have again := asked_again_duplicate tag basketId qty om
  have asked := recorded om
  have askedTwice := recorded (unownedFillIsDuplicate tag basketId qty om).1
  simp only [unownedFill, handleUnownedFill]
  generalize unownedFillIsDuplicate tag basketId qty om = answer at again asked askedTwice ⊢
  obtain ⟨c, duplicate⟩ := answer
  simp only at again asked askedTwice
  generalize unownedFillIsDuplicate tag basketId qty c = second at again askedTwice ⊢
  obtain ⟨c', duplicate'⟩ := second
  simp only at again askedTwice
  cases duplicate with
  | true => exact ⟨rfl, asked⟩
  | false =>
    simp only [Bool.false_eq_true, ↓reduceIte, again]
    split
    · exact ⟨rfl, asked⟩
    · exact ⟨rfl, askedTwice.trans asked⟩

theorem ownedFill_halts (tag : String) (px : ℚ) (qty : Int) (om : OrderManager) :
    (ownedFill host now tag px qty om).halts = [] := by
  simp only [ownedFill]
  split
  · rfl
  · rfl

/-- While flat, an empty tag passes for the pending entry's and the fill is ignored. -/
theorem ownedFill_untagged (px : ℚ) (qty : Int) (om : OrderManager) (flat : om.pos.state = .flat)
    (owned : owns "" om = true) : (ownedFill host now "" px qty om).manager.outbox = om.outbox := by
  have stop : om.isStopBasket "" = false := by
    have noStop : ¬(om.pos.basketIdStop ≠ "" ∧ om.pos.basketIdStop = "") :=
      fun both => both.1 both.2
    simp [isStopBasket, noStop, inTrade, flat]
  have exit : om.isExitBasket "" = false := by
    by_cases none : om.pos.basketIdExit = ""
    · simp [isExitBasket, none]
    · simp [isExitBasket, none]
  have entry : om.isEntryBasket "" = true := by
    simpa only [owns, stop, exit, Bool.or_false] using owned
  have asked : (om.fillAlreadyProcessed "" qty).1.pos = om.pos ∧
      (om.fillAlreadyProcessed "" qty).1.outbox = om.outbox := by
    simp only [fillAlreadyProcessed]
    split
    · exact ⟨rfl, rfl⟩
    · exact ⟨rfl, rfl⟩
  simp only [ownedFill, entry, stop, Bool.not_false, Bool.and_self]
  generalize om.fillAlreadyProcessed "" qty = answer at asked ⊢
  obtain ⟨c, duplicate⟩ := answer
  simp only at asked
  cases duplicate with
  | true => exact asked.2
  | false =>
    have kept := accumulateFill_kept "" px qty c
    simp only [Bool.false_eq_true, ↓reduceIte, onFillNotificationLocked]
    generalize accumulateFill "" px qty c = accumulated at kept ⊢
    have remembered : ¬(accumulated.1.pendingCancelBasket ≠ "" ∧
        "" = accumulated.1.pendingCancelBasket) := fun both => both.1 both.2.symm
    simp only [kept.2, asked.1, flat, ne_eq, reduceCtorEq, not_false_eq_true, ↓reduceIte,
      lateEntryFill, remembered]
    exact kept.1.trans asked.2

/-- Whichever path a fill takes after its ids are mapped, nothing is done. -/
theorem routed_not_actedUpon (tag basketId accountId key : String) (px : ℚ) (ownedQty qty : Int)
    (om : OrderManager) (quiet : flatFills om.outbox = []) (unowned : Unowned tag om) :
    ¬ActedUpon om.isFlat key
      (if owns tag om then ownedFill host now tag px ownedQty om
        else unownedFill host now tag basketId accountId px qty om) := by
  cases owned : owns tag om with
  | false =>
    have idle := unownedFill_idle host now tag basketId accountId px qty om
    simp only [Bool.false_eq_true, ↓reduceIte]
    refine not_actedUpon idle.1 (fun _ => ?_)
    rw [idle.2, quiet]
  | true =>
    have untagged : tag = "" := by
      refine unowned.resolve_right ?_
      rw [owned]
      decide
    subst untagged
    simp only [↓reduceIte]
    refine not_actedUpon (ownedFill_halts now "" px ownedQty om) (fun flat => ?_)
    have state : om.pos.state = .flat := by simpa only [isFlat, decide_eq_true_eq] using flat
    rw [ownedFill_untagged now px ownedQty om state owned, quiet]

theorem mapServerBasket_flatFills (host : Host) (client server : String) (om : OrderManager) :
    flatFills (mapServerBasket host client server om).outbox = flatFills om.outbox := by
  simp only [mapServerBasket]
  split_ifs
  all_goals simp only [flatFills_append, flatFills_cancelNotice, List.append_nil]

theorem onStopServerMapped_flatFills (host : Host) (client server : String) (om : OrderManager) :
    flatFills (onStopServerMapped host client server om).outbox = flatFills om.outbox := by
  simp only [onStopServerMapped]
  split_ifs
  all_goals simp only [flatFills_append, flatFills_persistServerNotice, flatFills_cancelNotice,
    List.append_nil]

/-- In every state, the receive loop acts upon no fill of an order that is not
the current entry, stop or exit. -/
theorem unowned_fill_never_acted (host : Host) (now : Int) (lastPrice : ℚ) (report : FillReport)
    (om : OrderManager) (quiet : om.outbox = []) (ours : report.OnOurs host.cfg)
    (unowned : Unowned report.tag om) :
    ¬ActedUpon om.isFlat report.key (report.handle host now lastPrice om) := by
  have start : flatFills om.outbox = [] := by
    rw [quiet]
    rfl
  cases report with
  | order notice =>
    obtain ⟨_, filled, account⟩ := ours
    have mapped := mapServerBasket_attribution host notice.userTag notice.basketId om
    have stopMapped := (onStopServerMapped_attribution host notice.userTag
      notice.basketId (mapServerBasket host notice.userTag notice.basketId om)).trans mapped
    have silent := (onStopServerMapped_flatFills host notice.userTag notice.basketId
      (mapServerBasket host notice.userTag notice.basketId om)).trans
        ((mapServerBasket_flatFills host notice.userTag notice.basketId om).trans start)
    simp only [FillReport.handle, orderNotice, filled, ↓reduceIte, orderFill, account]
    generalize onStopServerMapped host notice.userTag notice.basketId
      (mapServerBasket host notice.userTag notice.basketId om) = c at stopMapped silent ⊢
    have sameFlat : c.isFlat = om.isFlat := by
      simp only [isFlat, show c.pos = om.pos from congrArg Prod.fst stopMapped]
    have stillUnowned : Unowned notice.userTag c := by
      simpa only [Unowned, owns_congr stopMapped, FillReport.tag] using unowned
    rw [← sameFlat]
    exact routed_not_actedUpon now notice.userTag notice.basketId notice.accountId _ _ _ _ c
      silent stillUnowned
  | exchange notice =>
    obtain ⟨isFill, _, _⟩ := ours
    have mapped := mapServerBasket_attribution host notice.userTag notice.basketId om
    have silent := (mapServerBasket_flatFills host notice.userTag notice.basketId
      om).trans start
    simp only [FillReport.handle, exchangeNotice, isFill, ↓reduceIte, exchangeFill]
    generalize mapServerBasket host notice.userTag notice.basketId om = c at mapped silent ⊢
    have sameFlat : c.isFlat = om.isFlat := by
      simp only [isFlat, show c.pos = om.pos from congrArg Prod.fst mapped]
    have stillUnowned : Unowned notice.userTag c := by
      simpa only [Unowned, owns_congr mapped, FillReport.tag] using unowned
    rw [← sameFlat]
    exact routed_not_actedUpon now notice.userTag notice.basketId notice.accountId _ _ _ _ c
      silent stillUnowned

/-- A broker liquidation of two contracts, reported without a user tag. -/
def liquidation : FillReport :=
  .order { basketId := "940085", notifyType := 15, totalFillSize := 2, avgFillPrice := 100 }

theorem liquidation_never_acted :
    ¬ActedUpon true "940085" (liquidation.handle .accepting 1 0 {}) :=
  unowned_fill_never_acted .accepting 1 0 liquidation {} rfl ⟨rfl, by decide, Or.inl rfl⟩
    (Or.inl rfl)

/-- A fill of an unknown order reported to a flat manager runs no checks. -/
theorem unknown_fill_ignored :
    ¬∀ (host : Host) (risk : RiskManager) (seq : Nat) (calls : List Call) (now : Int)
      (lastPrice : ℚ) (report : FillReport), report.OnOurs host.cfg →
      Unowned report.tag (Runs.run (OrderManager.step host) (fresh risk seq) calls) →
      report.First (Runs.run (OrderManager.step host) (fresh risk seq) calls) →
      ActedUpon (Runs.run (OrderManager.step host) (fresh risk seq) calls).isFlat report.key
        (report.handle host now lastPrice
          { Runs.run (OrderManager.step host) (fresh risk seq) calls with outbox := [] }) := by
  intro acted
  have ran := acted .accepting {} 0 [] 1 0
    (.exchange { basketId := "940085", userTag := "MNQ-7-7", notifyType := 5, fillSize := 2
                 totalFillSize := 2, fillPrice := 100 })
    ⟨rfl, by decide, Or.inl rfl⟩ (Or.inr (by decide +kernel))
    (by unfold FillReport.First; decide +kernel)
  have missing : flatFills (FillReport.handle .accepting 1 0 ({} : OrderManager)
    (.exchange { basketId := "940085", userTag := "MNQ-7-7", notifyType := 5, fillSize := 2
                 totalFillSize := 2, fillPrice := 100 })).manager.outbox = [] := by
    decide +kernel
  exact absurd (missing.symm.trans ran) (List.cons_ne_nil _ _ ∘ Eq.symm)

end RithmicEngine.OpLoop
