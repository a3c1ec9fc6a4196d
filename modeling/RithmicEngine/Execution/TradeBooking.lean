import RithmicEngine.Execution.OpLoop
import RithmicEngine.Execution.TradeIsolation
/-!
# Booking of trades

What one operation of the order manager does to the books: to the risk manager,
to the buffer of the completed trade, and to whether a position is held. It
leaves all three alone, or it opens a position where none was held, or it closes
the held one; a close hands the profit to the risk manager once, puts the trade
in the buffer, and leaves nothing held. No other code hands a profit to the risk
manager.
-/
namespace RithmicEngine

/-- An entry has filled and the trade is not booked yet. -/
def PosState.isHeld : PosState → Bool
  | .long => true
  | .short => true
  | .pendingExit => true
  | .flat => false
  | .pendingEntry => false

/-- The books of a process, as far as its order manager keeps them. -/
structure Book where
  risk : RiskManager
  tradeCompleted : Bool
  completedPos : Position
  held : Bool

/-- What one operation does to the books. -/
inductive Booked (before : Book) : Book → Prop
  | same : Booked before before
  | opens (idle : before.held = false) : Booked before { before with held := true }
  | closes (held : before.held = true) (closed : Position) :
      Booked before
        { risk := before.risk.onTradePnl (some closed.pnlUsd)
          tradeCompleted := true
          completedPos := closed
          held := false }

theorem heldState_isHeld (direction : OrbSignal) : (heldState direction).isHeld = true := by
  obtain long | short := heldState_open direction
  · rw [long]
    rfl
  · rw [short]
    rfl

namespace OrderManager

def book (s : OrderManager) : Book where
  risk := s.risk
  tradeCompleted := s.tradeCompleted
  completedPos := s.completedPos
  held := s.pos.state.isHeld

variable {host : Host}

variable {t : OrderManager} (now : Int) (basket : String) (fillPrice : ℚ) (reason : String)
  (currentPrice : ℚ) (fillQty : Int) (refPrice : ℚ) (s : OrderManager)

/-- Operations with the same books before them. -/
theorem booked_of_eq {s : OrderManager} {after : Book} (same : t.book = s.book)
    (booked : Booked t.book after) : Booked s.book after := same ▸ booked

theorem booked_same {s : OrderManager} (same : t.book = s.book) : Booked s.book t.book :=
  same ▸ .same

/-- A state after which the trade in the buffer has been handed to the risk manager. -/
theorem booked_closed {s : OrderManager} (held : s.book.held = true)
    (risk : t.risk = s.risk.onTradePnl (some t.completedPos.pnlUsd))
    (completed : t.tradeCompleted = true) (idle : t.pos.state.isHeld = false) :
    Booked s.book t.book := by
  have closed : t.book =
      { risk := s.book.risk.onTradePnl (some t.completedPos.pnlUsd)
        tradeCompleted := true
        completedPos := t.completedPos
        held := false } := by
    simp only [book, risk, completed, idle]
  rw [closed]
  exact .closes held t.completedPos

/-! ## Orders leave the books alone -/

theorem submitStop_book (slPrice : ℚ) (s : OrderManager) :
    (submitStopOrderLocked host slPrice s).book = s.book := by
  simp only [submitStopOrderLocked]
  split
  · rfl
  · split
    · rfl
    · split
      · rfl
      · rfl

theorem cancelStop_book : (cancelStopLocked host s).book = s.book := by
  simp only [cancelStopLocked]
  split
  · rfl
  · rfl

theorem updateStop_book (newSl : ℚ) (force : Bool) (s : OrderManager) :
    (updateStopOrderLocked host newSl force s).book = s.book := by
  simp only [updateStopOrderLocked]
  split_ifs
  · rfl
  · rfl
  · exact submitStop_book newSl s
  · exact (submitStop_book newSl _).trans (cancelStop_book _)

variable (host) in
theorem cancelOrder_book (clientId : String) (s : OrderManager) :
    (cancelOrderLocked host clientId s).book = s.book := by
  simp only [cancelOrderLocked]
  split
  · rfl
  · rfl

theorem sendUnwind_book (fired : String) (fillPrice : ℚ) (unwindIsBuy : Bool) (userTag : String)
    (register : Bool) (s : OrderManager) :
    (sendUnwind host fired fillPrice unwindIsBuy userTag register s).book = s.book := by
  simp only [sendUnwind]
  split
  · rfl
  · rfl

theorem accumulateFill_book : (accumulateFill basket fillPrice fillQty s).1.book = s.book := by
  simp only [accumulateFill]
  split
  · rfl
  · rfl

/-! ## Fills -/

/-- An entry fill opens a trade, or books nothing. -/
theorem entryFill_booked (pending : s.pos.state = .pendingEntry) :
    Booked s.book (entryFill host now basket fillPrice fillQty s).book := by
  simp only [entryFill]
  split
  · exact .same
  · split
    · exact .same
    · have opened : (openedPosition host now fillPrice s).book = { s.book with held := true } := by
        simp only [book, openedPosition, heldState_isHeld]
      rw [submitStop_book, opened]
      refine .opens ?_
      simp only [book, pending, PosState.isHeld]

theorem flatFill_book : (flatFill host basket fillPrice s).book = s.book := by
  simp only [flatFill]
  split
  · exact sendUnwind_book _ _ _ _ _ _
  · split
    · exact sendUnwind_book _ _ _ _ _ _
    · split
      · rfl
      · split
        · rfl
        · rfl

variable (host) in
/-- Everything before the close itself leaves the books alone. -/
theorem settled_book :
    (dropStaleGuard host basket (settleStop host basket
        (bookExit host basket fillPrice (dropFilledGuard host basket s)))).book =
      { s.book with held := true } := by
  have stale (t : OrderManager) : (dropStaleGuard host basket t).book = t.book := by
    simp only [dropStaleGuard]
    split
    · rfl
    · rfl
  have settled (t : OrderManager) : (settleStop host basket t).book = t.book := by
    simp only [settleStop]
    split
    · rfl
    · split
      · exact cancelStop_book t
      · rfl
  have filled : (dropFilledGuard host basket s).book = s.book := by
    simp only [dropFilledGuard]
    split
    · rfl
    · rfl
  rw [stale, settled, ← filled]
  rfl

/-- The complete fill of any order closes the held position. -/
theorem exitFill_booked (held : s.pos.state.isHeld = true) :
    Booked s.book (exitFill host basket fillPrice fillQty s).book := by
  simp only [exitFill]
  split
  · exact .same
  · have before := settled_book host basket fillPrice s
    generalize dropStaleGuard host basket (settleStop host basket
      (bookExit host basket fillPrice (dropFilledGuard host basket s))) = t at before ⊢
    have risk : t.risk = s.risk := congrArg Book.risk before
    refine booked_closed held ?_ rfl rfl
    rw [← risk]
    rfl

/-- A fill books the trade it closes, once. -/
theorem onFill_booked (isEntryFill : Bool) (s : OrderManager) :
    Booked s.book (onFillNotificationLocked host now basket fillPrice fillQty
      isEntryFill s).book := by
  have same := accumulateFill_book basket fillPrice fillQty s
  simp only [onFillNotificationLocked]
  generalize accumulateFill basket fillPrice fillQty s = accumulated at same ⊢
  obtain ⟨c, price⟩ := accumulated
  refine booked_of_eq same ?_
  dsimp only
  split
  · split
    · refine booked_same ?_
      simp only [lateEntryFill]
      split
      · exact sendUnwind_book _ _ _ _ _ _
      · rfl
    next pending => exact entryFill_booked now basket price fillQty c (not_not.mp pending)
  · split
    · exact booked_same (flatFill_book basket price c)
    next open_ =>
      refine exitFill_booked basket price fillQty c ?_
      cases state : c.pos.state with
      | flat => exact absurd (by rw [state]; decide) open_
      | pendingEntry => exact absurd (by rw [state]; decide) open_
      | _ => rfl

/-! ## Entries and exits -/

/-- A market order books what its fill does. -/
theorem sendMarketOrder_booked (isBuy : Bool) (refPrice : ℚ) (userTag : String) (s : OrderManager)
    (pending : s.pos.state = .pendingEntry) :
    Booked s.book (sendMarketOrder host now basket isBuy refPrice userTag s).book := by
  simp only [sendMarketOrder]
  split
  · exact onFill_booked now basket refPrice _ true s
  · split
    · exact .same
    · split
      · exact .same
      · refine booked_same ?_
        simp only [book, emit, pending, PosState.isHeld]

theorem openEntry_booked (sig : OrbSignal) (price desiredSlDist : ℚ) (s : OrderManager)
    (flat : s.pos.state = .flat) :
    Booked s.book (openEntry host now sig price desiredSlDist s).book := by
  simp only [openEntry]
  refine booked_of_eq ?_ (sendMarketOrder_booked now _ _ price "entry" _ rfl)
  simp only [book, flat, PosState.isHeld]

theorem inTrade_held (trading : s.inTrade = true) : s.book.held = true := by
  simp only [inTrade, Bool.or_eq_true, decide_eq_true_eq] at trading
  rcases trading with long | short
  · simp only [book, long, PosState.isHeld]
  · simp only [book, short, PosState.isHeld]

theorem beginExit_book (held : s.book.held = true) : (beginExit host reason s).book = s.book := by
  have parts : (beginExit host reason s).book = { s.book with held := true } := rfl
  rw [parts, ← held]

theorem reopen_book (held : s.book.held = true) : s.reopen.book = s.book := by
  have parts : s.reopen.book = { s.book with held := (heldState s.pos.direction).isHeld } := rfl
  rw [parts, heldState_isHeld, ← held]

theorem revertExit_book (held : s.book.held = true) : (revertExit host s).book = s.book := by
  rw [revertExit, submitStop_book]
  exact reopen_book s held

/-- The position waits for its exit, its stop cancelled. -/
def exiting (host : Host) (reason : String) (s : OrderManager) : OrderManager :=
  beginExit host reason
    (cancelStopLocked host { s with slBreachTime := 0, stopResubmitPending := false })

variable (host) in
theorem exiting_book (trading : s.inTrade = true) : (exiting host reason s).book = s.book := by
  have cancelled : (cancelStopLocked host
      { s with slBreachTime := 0, stopResubmitPending := false }).book = s.book :=
    cancelStop_book _
  have held := s.inTrade_held trading
  rw [exiting, beginExit_book, cancelled]
  rw [cancelled]
  exact held

/-- An exit that is sent leaves the position held until it fills. -/
theorem initiateExit_book (sends : host.cfg.dryRun = false) :
    (initiateExitLocked host now reason refPrice s).book = s.book := by
  simp only [initiateExitLocked, sends, Bool.false_eq_true, ↓reduceIte]
  split
  · rfl
  next trading =>
    have open_ : s.inTrade = true := by
      simpa only [Bool.not_eq_false] using trading
    have begun := exiting_book host reason s open_
    have reverted (effects : List Effect) :
        (revertExit host (emit effects (exiting host reason s))).book = s.book := by
      have held : (emit effects (exiting host reason s)).book.held = true :=
        (congrArg Book.held begun).trans (s.inTrade_held open_)
      exact (revertExit_book _ held).trans begun
    split
    · exact begun
    · split
      · exact begun
      · exact reverted _

/-- Starting an exit leaves the position held, or closes it at once in a dry run. -/
theorem initiateExit_booked :
    Booked s.book (initiateExitLocked host now reason refPrice s).book := by
  cases dry : host.cfg.dryRun with
  | false => exact booked_same (initiateExit_book now reason refPrice s dry)
  | true =>
    simp only [initiateExitLocked, dry, ↓reduceIte]
    split
    · exact .same
    next trading =>
      have begun := exiting_book host reason s
        (by simpa only [Bool.not_eq_false] using trading)
      exact booked_of_eq begun (onFill_booked now _ refPrice _ false _)

/-- Giving up a pending entry leaves the books. -/
theorem abandonEntry_book (pending : s.pos.state = .pendingEntry) :
    (abandonEntry host s).book = s.book := by
  have cancelled := cancelOrder_book host s.pos.basketIdEntry
    { s with
      pendingCancelBasket := s.pos.basketIdEntry
      pendingCancelWasBuy := decide (s.pos.direction = .buy) }
  simp only [abandonEntry]
  generalize cancelOrderLocked host s.pos.basketIdEntry
    { s with
      pendingCancelBasket := s.pos.basketIdEntry
      pendingCancelWasBuy := decide (s.pos.direction = .buy) } = c at cancelled ⊢
  have parts : ({ c with pos := {} } : OrderManager).book = { c.book with held := false } := rfl
  rw [parts, cancelled]
  simp only [book, pending, PosState.isHeld]

variable (host) in
theorem flattenNow_book (price : ℚ) (s : OrderManager) (sends : host.cfg.dryRun = false) :
    (flattenNow host now reason price s).book = s.book := by
  simp only [flattenNow]
  split
  · rfl
  next pending => exact abandonEntry_book s pending
  · rfl
  · exact initiateExit_book now reason price s sends
  · exact initiateExit_book now reason price s sends

theorem flattenNow_booked (price : ℚ) (s : OrderManager) :
    Booked s.book (flattenNow host now reason price s).book := by
  simp only [flattenNow]
  split
  · exact .same
  next pending => exact booked_same (abandonEntry_book s pending)
  · exact .same
  · exact initiateExit_booked now reason price s
  · exact initiateExit_booked now reason price s

/-- A signal books at most the opening of a trade. -/
theorem onSignal_booked (sig : OrbSignal) (price desiredSlDist : ℚ) (s : OrderManager) :
    Booked s.book (onSignal host now sig price desiredSlDist s).book := by
  have entry (sig : OrbSignal) :
      Booked s.book (if s.entryHalted || s.ghostHalted then s
        else if s.risk.canTrade = false then s
        else if s.pos.state ≠ .flat then s
        else openEntry host now sig price desiredSlDist s).book := by
    split
    · exact .same
    · split
      · exact .same
      · split
        · exact .same
        next flat => exact openEntry_booked now sig price desiredSlDist s (not_not.mp flat)
  cases sig with
  | none => exact .same
  | flattenEod => exact flattenNow_booked now "eod_flatten" price s
  | buy => exact entry .buy
  | sell => exact entry .sell

variable (host) in
theorem guardExit_book : (guardExit host s).book = s.book := by
  simp only [guardExit]
  split
  · rfl
  · have cancelled (t : OrderManager) (same : t.book = s.book) :
        (cancelOrderLocked host s.pos.basketIdExit t).book = s.book :=
      (cancelOrder_book host s.pos.basketIdExit t).trans same
    exact cancelled _ rfl

/-- The retry of a stuck exit books one close at most. -/
theorem retryStuckExit_booked : Booked s.book (retryStuckExit host now currentPrice s).book := by
  simp only [retryStuckExit]
  split
  · exact .same
  next closing =>
    split
    · exact .same
    · have guarded := guardExit_book host s
      have held : (guardExit host s).book.held = true := by
        rw [guarded]
        simp only [book, not_not.mp closing, PosState.isHeld]
      exact booked_of_eq ((reopen_book _ held).trans guarded) (initiateExit_booked now _ _ _)

/-- An external close books the trade that is on, once. -/
theorem adoptExternalClose_booked (reason : String) (s : OrderManager) :
    Booked s.book (adoptExternalClose host refPrice reason s).book := by
  simp only [adoptExternalClose]
  split
  · exact .same
  next open_ =>
    have held : s.book.held = true := by
      simp only [book]
      cases state : s.pos.state with
      | flat => exact absurd (by rw [state]; decide) open_
      | pendingEntry => exact absurd (by rw [state]; decide) open_
      | _ => rfl
    have risk : (cancelStopLocked host s).risk = s.risk := congrArg Book.risk (cancelStop_book s)
    refine booked_closed held ?_ rfl rfl
    rw [← risk]

/-! ## Price checks -/

variable (host) in
/-- The breach check books like an exit, and without one leaves the books alone. -/
theorem checkBreach_booked :
    Booked s.book (checkBreach host now currentPrice s).1.book ∧
      ((checkBreach host now currentPrice s).2 = false →
        (checkBreach host now currentPrice s).1.book = s.book) := by
  have exits (reason : String) (t : OrderManager) (same : t.book = s.book) :
      Booked s.book (initiateExitLocked host now reason currentPrice t).book :=
    booked_of_eq same (initiateExit_booked now reason currentPrice t)
  simp only [checkBreach]
  split_ifs
  · refine ⟨exits _ _ ?_, fun kept => absurd kept (by decide)⟩
    rfl
  · refine ⟨exits _ _ ?_, fun kept => absurd kept (by decide)⟩
    rfl
  · exact ⟨.same, fun _ => rfl⟩
  · refine ⟨exits _ _ ?_, fun kept => absurd kept (by decide)⟩
    rfl
  · exact ⟨.same, fun _ => rfl⟩
  · exact ⟨.same, fun _ => rfl⟩

theorem tightenStop_book (level : ℚ) (s : OrderManager) :
    (tightenStop host level s).1.book = s.book := by
  simp only [tightenStop]
  split
  · exact updateStop_book level false _
  · rfl

theorem breakEven_book : (breakEven host s).1.book = s.book := by
  simp only [breakEven]
  split
  · split
    · exact updateStop_book _ true _
    · rfl
  · rfl

theorem trail_book : (trail host currentPrice (activateTrail host now s)).1.book = s.book := by
  have activated : (activateTrail host now s).book = s.book := by
    simp only [activateTrail]
    split
    · rfl
    · rfl
  simp only [trail]
  split
  · exact (tightenStop_book _ _).trans activated
  · exact activated

/-- The price check books no trade. -/
theorem checkTrail_booked : Booked s.book (checkTrailAndStop host now currentPrice s).1.book := by
  simp only [checkTrailAndStop]
  split
  · exact .same
  · have tracked : (trackExcursion currentPrice s).book = s.book := rfl
    obtain ⟨booked, kept⟩ := checkBreach_booked host now currentPrice
      (trackExcursion currentPrice s)
    generalize checkBreach host now currentPrice (trackExcursion currentPrice s) = checked
      at booked kept ⊢
    obtain ⟨c, exited⟩ := checked
    rw [tracked] at booked kept
    cases exited with
    | true => exact booked
    | false =>
      have still : c.book = s.book := kept rfl
      simp only [Bool.false_eq_true, ↓reduceIte]
      split
      · exact booked_of_eq still (initiateExit_booked now _ currentPrice
          { c with slBreachTime := 0 })
      · refine booked_same ?_
        rw [trail_book, breakEven_book]
        exact still

/-- Nor does the check with a strategy's stop. -/
theorem checkExternal_booked (stratStop : Option ℚ) (s : OrderManager) :
    Booked s.book (checkExternalStop host now currentPrice stratStop s).1.book := by
  simp only [checkExternalStop]
  split
  · exact .same
  · have tracked : (trackExcursion currentPrice s).book = s.book := rfl
    obtain ⟨booked, kept⟩ := checkBreach_booked host now currentPrice
      (trackExcursion currentPrice s)
    generalize checkBreach host now currentPrice (trackExcursion currentPrice s) = checked
      at booked kept ⊢
    obtain ⟨c, exited⟩ := checked
    rw [tracked] at booked kept
    cases exited with
    | true => exact booked
    | false =>
      have still : c.book = s.book := kept rfl
      refine booked_same ?_
      simp only [Bool.false_eq_true, ↓reduceIte]
      cases stratStop with
      | none => exact still
      | some level =>
        dsimp only
        split
        · rw [tightenStop_book]
          exact still
        · exact still

/-! ## Rejections and cancel outcomes -/

/-- A rejection books the trade that is on, or nothing. -/
theorem onOrderRejected_booked : Booked s.book (onOrderRejected host now basket s).book := by
  simp only [onOrderRejected]
  split
  next pending =>
    refine booked_same ?_
    simp only [book, pending.2, PosState.isHeld]
  · split
    next closing =>
      have held : s.book.held = true := by
        simp only [book, closing.2, PosState.isHeld]
      have reopened := reopen_book s held
      split
      · exact booked_of_eq (t := { s.reopen with rejectedExitCount := s.rejectedExitCount + 1 })
          reopened (initiateExit_booked now _ _ _)
      · exact booked_same reopened
    · split
      · exact .same
      · exact .same

theorem onCancelFailed_book (id : String) (s : OrderManager) :
    (onCancelFailed host id s).book = s.book := by
  simp only [onCancelFailed]
  split_ifs
  all_goals first
    | rfl
    | exact cancelStop_book _

theorem onStopServerMapped_book (client server : String) (s : OrderManager) :
    (onStopServerMapped host client server s).book = s.book := by
  simp only [onStopServerMapped]
  split_ifs
  all_goals rfl

theorem mapServerBasket_book (client server : String) (s : OrderManager) :
    (mapServerBasket host client server s).book = s.book := by
  simp only [mapServerBasket]
  split_ifs
  all_goals rfl

theorem fillAlreadyProcessed_book : (fillAlreadyProcessed basket fillQty s).1.book = s.book := by
  simp only [fillAlreadyProcessed]
  split
  · rfl
  · rfl

theorem onCancelConfirmedByServer_book (server : String) (s : OrderManager) :
    (onCancelConfirmedByServerBasket host server s).book = s.book := by
  simp only [onCancelConfirmedByServerBasket]
  split
  · rfl
  · rfl

/-! ## Calls -/

/-- A call of the order manager that leaves the risk manager and the buffer of the
completed trade to the order manager itself. -/
def Op.isOwn : Op → Bool
  | .host _ _ => false
  | .popCompleted => false
  | _ => true

/-- An operation of the manager itself opens a trade, closes the one held with its result, or books
nothing. -/
theorem perform_booked (call : Call) (s : OrderManager) (own : Op.isOwn call.op = true) :
    Booked s.book (perform host call s).book := by
  obtain ⟨now, op⟩ := call
  cases op with
  | signal sig price dist => exact onSignal_booked now sig price dist s
  | fill basket price qty isEntry => exact onFill_booked now basket price qty isEntry s
  | checkTrail price => exact checkTrail_booked now price s
  | checkExternal price stratStop => exact checkExternal_booked now price stratStop s
  | flatten reason price => exact flattenNow_booked now reason price s
  | retryStuckExit price => exact retryStuckExit_booked now price s
  | entryTimeout secs =>
    simp only [perform, pendingEntryTimeoutCheck]
    split
    · exact .same
    next pending =>
      split
      · exact .same
      · split
        · exact .same
        · exact booked_same (abandonEntry_book s (not_not.mp pending))
  | rejected basket => exact onOrderRejected_booked now basket s
  | cancelConfirmedByServer server =>
    exact booked_same (onCancelConfirmedByServer_book server s)
  | cancelFailed id => exact booked_same (onCancelFailed_book id s)
  | stopServerMapped client server => exact booked_same (onStopServerMapped_book client server s)
  | mapServer client server => exact booked_same (mapServerBasket_book client server s)
  | externalClose refPrice reason => exact adoptExternalClose_booked refPrice reason s
  | fillProcessed basket qty => exact booked_same (fillAlreadyProcessed_book basket qty s)
  | recancel =>
    refine booked_same ?_
    simp only [perform, recancelPendingStops]
    split
    · rfl
    · rfl
  | popCompleted => exact absurd own Bool.false_ne_true
  | host risk regime => exact absurd own Bool.false_ne_true
  | _ => exact .same

end OrderManager

/-! ## Messages of the order plant -/

namespace OpLoop

open OrderManager Notif

variable {host : Host}

variable (now : Int) (tag basketId : String)

/-- A fill of our own opens or closes one trade at most. -/
theorem ownedFill_booked (px : ℚ) (qty : Int) (om : OrderManager) :
    Booked om.book (ownedFill host now tag px qty om).manager.book := by
  have recorded := fillAlreadyProcessed_book tag qty om
  simp only [ownedFill]
  generalize om.fillAlreadyProcessed tag qty = answer at recorded ⊢
  obtain ⟨after, duplicate⟩ := answer
  cases duplicate with
  | true => exact booked_same recorded
  | false => exact booked_of_eq recorded (onFill_booked now tag px qty _ after)

theorem unownedFillIsDuplicate_book (qty : Int) (om : OrderManager) :
    (unownedFillIsDuplicate tag basketId qty om).1.book = om.book :=
  fillAlreadyProcessed_book (fillKey tag basketId) qty om

/-- A fill from the router is one step of the books at most. -/
theorem routedFill_booked (notifAccount ourAccount : String) (px : ℚ) (qty : Int)
    (om : OrderManager) :
    Booked om.book
      (handleUnownedFill host now tag basketId notifAccount ourAccount px qty om).1.book := by
  have recorded := unownedFillIsDuplicate_book tag basketId qty om
  simp only [handleUnownedFill]
  split
  · exact .same
  · generalize unownedFillIsDuplicate tag basketId qty om = answer at recorded ⊢
    obtain ⟨after, duplicate⟩ := answer
    cases duplicate with
    | true => exact booked_same recorded
    | false =>
      simp only [Bool.false_eq_true, ↓reduceIte]
      split
      · exact booked_of_eq recorded (onFill_booked now _ px qty false after)
      · exact booked_same recorded

/-- The fill of an order that is not on the book books nothing but a close of the trade that is
on. -/
theorem unownedFill_booked (accountId : String) (px : ℚ) (qty : Int) (om : OrderManager) :
    Booked om.book (unownedFill host now tag basketId accountId px qty om).manager.book := by
  have recorded := unownedFillIsDuplicate_book tag basketId qty om
  simp only [unownedFill]
  generalize unownedFillIsDuplicate tag basketId qty om = answer at recorded ⊢
  obtain ⟨after, duplicate⟩ := answer
  cases duplicate with
  | true => exact booked_same recorded
  | false =>
    exact booked_of_eq recorded
      (routedFill_booked now tag basketId accountId host.cfg.accountId px qty after)

/-- An order notice books at most the close it reports. -/
theorem orderNotice_booked (lastPrice : ℚ) (notice : OrderNotice) (om : OrderManager) :
    Booked om.book (orderNotice host now lastPrice notice om).manager.book := by
  simp only [orderNotice]
  obtain ⟨mapped, mappedIs⟩ : ∃ mapped, mapped =
      onStopServerMapped host notice.userTag notice.basketId
        (mapServerBasket host notice.userTag notice.basketId om) := ⟨_, rfl⟩
  rw [← mappedIs]
  have same : mapped.book = om.book := by
    rw [mappedIs, onStopServerMapped_book, mapServerBasket_book]
  refine booked_of_eq same ?_
  split
  · simp only [orderFill]
    split
    · exact ownedFill_booked now _ _ _ mapped
    · split
      · exact unownedFill_booked now _ _ _ _ _ mapped
      · exact .same
  · split
    next failed =>
      simp only [handleCancelNotification, failed, ↓reduceIte]
      exact booked_same (onCancelFailed_book _ mapped)
    · split
      · split
        · exact .same
        · exact booked_same (onCancelConfirmedByServer_book _ mapped)
      · split
        · split
          · exact onOrderRejected_booked now _ mapped
          · exact .same
        · exact .same

/-- An exchange notice books at most the fill it reports. -/
theorem exchangeNotice_booked (notice : ExchangeNotice) (om : OrderManager) :
    Booked om.book (exchangeNotice host now notice om).manager.book := by
  simp only [exchangeNotice]
  split
  · simp only [exchangeFill]
    obtain ⟨mapped, mappedIs⟩ : ∃ mapped, mapped =
        mapServerBasket host notice.userTag notice.basketId om := ⟨_, rfl⟩
    rw [← mappedIs]
    have same : mapped.book = om.book := by
      rw [mappedIs, mapServerBasket_book]
    refine booked_of_eq same ?_
    split
    · exact ownedFill_booked now _ _ _ mapped
    · exact unownedFill_booked now _ _ _ _ _ mapped
  · split
    · exact onOrderRejected_booked now _ om
    · split
      · exact .same
      · split
        · exact booked_same (onStopServerMapped_book _ _ om)
        · exact .same

theorem newOrderResponse_booked (rpCode : List String) (om : OrderManager) :
    Booked om.book (newOrderResponse host now basketId rpCode om).manager.book := by
  cases rpCode with
  | nil => exact .same
  | cons code rest =>
    simp only [newOrderResponse]
    split
    · exact onOrderRejected_booked now basketId om
    · exact .same

end OpLoop

/-- What the books may do never lifts a halt. -/
theorem Booked.halted {before after : Book} (booked : Booked before after)
    (halted : before.risk.halted = true) : after.risk.halted = true := by
  cases booked with
  | same => exact halted
  | opens idle => exact halted
  | closes held closed => exact RiskManager.onTradePnl_halted before.risk _ halted

end RithmicEngine
