import RithmicEngine.Execution.OrderManager
/-!
# Notification router

The policy for exchange notifications that do not belong to the order that was
expected: fills of untracked orders, outcomes of cancels, and what closes the gap
between what the exchange holds and what the order manager holds. Broker amounts
are decimal strings that may be absent, so they are optional here.
-/
namespace RithmicEngine.Notif

open OrderManager

variable (host : Host)

inductive UnownedFill
  | otherAccount
  | duplicate
  | guardsRun
  | halted
  deriving DecidableEq, Repr

inductive CancelNotice
  | acked
  | failed
  | ignored
  deriving DecidableEq, Repr

/-- The id a fill is deduplicated by: the user tag, or the server's basket id. -/
def fillKey (clientId serverBasket : String) : String :=
  if clientId = "" then serverBasket else clientId

def unownedFillIsDuplicate (clientId serverBasket : String) (qty : Int) (om : OrderManager) :
    OrderManager × Bool :=
  om.fillAlreadyProcessed (fillKey clientId serverBasket) qty

/-- Route a fill that is not of the current entry, stop or exit. The list holds
the reasons the halt callback was called with. -/
def handleUnownedFill (now : Int) (clientId serverBasket notifAccount ourAccount : String)
    (px : ℚ) (qty : Int) (om : OrderManager) : OrderManager × UnownedFill × List String :=
  if notifAccount ≠ "" ∧ notifAccount ≠ ourAccount then (om, .otherAccount, [])
  else
    let (om, duplicate) := unownedFillIsDuplicate clientId serverBasket qty om
    if duplicate then (om, .duplicate, [])
    else if om.isFlat then
      (onFillNotificationLocked host now (fillKey clientId serverBasket) px qty false om,
        .guardsRun, [])
    else (om, .halted, ["unowned_fill_in_trade"])

def handleCancelNotification (notifyType : Int) (status userTag basket : String)
    (om : OrderManager) : OrderManager × CancelNotice :=
  if notifyType = 17 ∨ status = "Cancellation Failed" then
    (onCancelFailed host (if userTag ≠ "" then userTag else basket) om, .failed)
  else if notifyType = 3 then
    (if userTag ≠ "" then onCancelConfirmed host userTag om
      else onCancelConfirmedByServerBasket host basket om, .acked)
  else (om, .ignored)

structure UnwindPlan where
  qty : Int
  isBuy : Bool
  expected : Int
  adoptFlat : Bool
  deriving DecidableEq, Repr

/-- The signed quantity a position record stands for, zero while not held. -/
def expectedNet (snap : Position) (cfgQty : Int) : Int :=
  let held := if snap.qty > 0 then snap.qty else cfgQty
  match snap.state with
  | .long => held
  | .short => -held
  | _ => 0

/-- The exchange holds our position and perhaps extra contracts in its direction. -/
def holdsOurs (exchangeNet expected : Int) : Bool :=
  (decide (exchangeNet > 0) == decide (expected > 0)) && decide (|exchangeNet| ≥ |expected|)

/-- The trade that brings the exchange to our position, or to flat when the
position was closed or flipped there. -/
def planUnwind (exchangeNet : Int) (snap : Position) (cfgQty : Int) : UnwindPlan :=
  let expected := expectedNet snap cfgQty
  let target := if expected = 0 then 0
    else if holdsOurs exchangeNet expected then expected else 0
  let diff := exchangeNet - target
  { qty := |diff|
    isBuy := decide (diff < 0)
    expected := expected
    adoptFlat := decide (expected ≠ 0) && !holdsOurs exchangeNet expected }

def brokerLossBreached (dayPnl : Option ℚ) (dailyLossLimit : ℚ) : Bool :=
  match dayPnl with
  | none => false
  | some pnl => decide (dailyLossLimit < 0) && decide (pnl ≤ dailyLossLimit)

/-- The highest of the starting balance, the mark so far and a reported balance. -/
def brokerHwm (prevHwm : Option ℚ) (startingBalance : ℚ) (balance : Option ℚ) : ℚ :=
  let mark := match prevHwm with
    | none => startingBalance
    | some previous => max previous startingBalance
  match balance with
  | none => mark
  | some reported => if reported > mark then reported else mark

def brokerDrawdownBreached (balance : Option ℚ) (hwm trailingCap : ℚ) : Bool :=
  match balance with
  | none => false
  | some reported => decide (trailingCap > 0) && decide (reported ≤ hwm - trailingCap)

/-- Trading the plan away leaves the exchange at the position the manager holds
afterwards: the one it had, or flat where an external close is adopted. -/
theorem planUnwind_reaches (exchangeNet : Int) (snap : Position) (cfgQty : Int) :
    exchangeNet + (if (planUnwind exchangeNet snap cfgQty).isBuy then
        (planUnwind exchangeNet snap cfgQty).qty else -(planUnwind exchangeNet snap cfgQty).qty) =
      if (planUnwind exchangeNet snap cfgQty).adoptFlat then 0 else expectedNet snap cfgQty := by
  obtain ⟨expected, expectedIs⟩ : ∃ expected, expectedNet snap cfgQty = expected := ⟨_, rfl⟩
  obtain ⟨ours, oursIs⟩ : ∃ ours, holdsOurs exchangeNet expected = ours := ⟨_, rfl⟩
  simp only [planUnwind, expectedIs, oursIs]
  have traded (diff : Int) : (if decide (diff < 0) = true then |diff| else -|diff|) = -diff := by
    simp only [decide_eq_true_eq]
    split
    next negative => rw [abs_of_neg negative]
    next positive => rw [abs_of_nonneg (by omega)]
  rw [traded]
  by_cases flat : expected = 0
  · subst flat
    simp only [ne_eq, not_true_eq_false, decide_false, Bool.false_and, Bool.false_eq_true,
      ↓reduceIte]
    omega
  · cases ours with
    | true =>
      simp only [flat, ↓reduceIte, Bool.not_true, Bool.and_false, Bool.false_eq_true]
      omega
    | false =>
      simp only [flat, Bool.false_eq_true, ↓reduceIte, ne_eq, not_false_eq_true, decide_true,
        Bool.not_false, Bool.and_self]
      omega

/-- A quantity that was asked about counts as processed from then on. -/
theorem fillAlreadyProcessed_again (basket : String) (qty : Int) (om : OrderManager) :
    ((om.fillAlreadyProcessed basket qty).1.fillAlreadyProcessed basket qty).2 = true := by
  have recorded : ((om.fillAlreadyProcessed basket qty).1.processedFillQty.lookup basket).getD 0
      ≥ qty := by
    simp only [fillAlreadyProcessed]
    split
    next seen => simpa only [Table.lookup_insert, ↓reduceIte, Option.getD_some] using seen
    next => simp only [Table.lookup_insert, ↓reduceIte, Option.getD_some, ge_iff_le, le_refl]
  generalize (om.fillAlreadyProcessed basket qty).1 = asked at recorded ⊢
  simp [fillAlreadyProcessed, recorded]

/-- Asking about a fill twice in a row always answers that it was processed: the
first question records the quantity. -/
theorem asked_again_duplicate (clientId serverBasket : String) (qty : Int) (om : OrderManager) :
    (unownedFillIsDuplicate clientId serverBasket qty
      (unownedFillIsDuplicate clientId serverBasket qty om).1).2 = true := by
  simp only [unownedFillIsDuplicate]
  exact fillAlreadyProcessed_again _ qty om

end RithmicEngine.Notif
