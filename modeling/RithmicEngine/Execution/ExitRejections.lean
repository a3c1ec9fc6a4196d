import RithmicEngine.Execution.CancelIds
import RithmicEngine.Execution.StopAlive
/-!
# Rejected exits

One counter counts the exits that were rejected and those that could not be sent. The
handler of a rejection sends the exit again as long as the counter is at most three, and
from four on entries are halted until a trade is closed. After either failure a new exit
works, or the position is open again with a stop at its level or without one. A rejection
is recognised by the exit's own id, or by a server id that a notification mapped before:
one that comes first is of no known order, and the dead exit stays the exit.
-/
namespace RithmicEngine.OrderManager

open Runs

variable {host : Host}

/-! ## What an operation does about exits -/

/-- The exit orders among the effects, and whether each was taken. -/
def exitsIn (effects : List Effect) : List (OrderRequest × Bool) :=
  effects.filterMap fun
    | .order .exit request taken => some (request, taken)
    | _ => none

@[simp] theorem exitsIn_nil : exitsIn [] = [] := rfl

@[simp] theorem exitsIn_append (first second : List Effect) :
    exitsIn (first ++ second) = exitsIn first ++ exitsIn second :=
  List.filterMap_append

@[simp] theorem exitsIn_exit (request : OrderRequest) (taken : Bool) :
    exitsIn [.order .exit request taken] = [(request, taken)] := rfl

@[simp] theorem exitsIn_persistNotice (basket : String) (wasBuyStop : Bool) :
    exitsIn (host.persistNotice basket wasBuyStop) = [] := by
  rw [Host.persistNotice]
  split
  · rfl
  · rfl

@[simp] theorem exitsIn_removeNotice (basket : String) :
    exitsIn (host.removeNotice basket) = [] := by
  rw [Host.removeNotice]
  split
  · rfl
  · rfl

@[simp] theorem exitsIn_persistServerNotice (client server : String) :
    exitsIn (host.persistServerNotice client server) = [] := by
  rw [Host.persistServerNotice]
  split
  · rfl
  · rfl

@[simp] theorem exitsIn_cancelNotice (id : String) : exitsIn (host.cancelNotice id) = [] := by
  rw [Host.cancelNotice]
  split
  · rfl
  · rfl

theorem exitsIn_removeNotices (baskets : List String) :
    exitsIn (baskets.flatMap host.removeNotice) = [] := by
  induction baskets with
  | nil => rfl
  | cons basket rest ih =>
    rw [List.flatMap_cons, exitsIn_append, ih, exitsIn_removeNotice, List.append_nil]

theorem exitsIn_cancels (ids : List String) : exitsIn (ids.map Effect.cancel) = [] := by
  induction ids with
  | nil => rfl
  | cons id rest ih => exact ih

/-- The counter, the halt and the exits sent. -/
def failing (s : OrderManager) : Nat × Bool × List (OrderRequest × Bool) :=
  (s.rejectedExitCount, s.entryHalted, exitsIn s.outbox)

variable {pair : OrderManager × ExitLog} {call : Call} {t : OrderManager} (now : Int)
  (basket : String) (fillPrice : ℚ) (s : OrderManager)

/-- An operation that only adds effects other than exit orders, as far as exits go. -/
theorem failing_of {s : OrderManager} (count : t.rejectedExitCount = s.rejectedExitCount)
    (halted : t.entryHalted = s.entryHalted) (sent : exitsIn t.outbox = exitsIn s.outbox) :
    t.failing = s.failing := by
  rw [failing, failing, count, halted, sent]

/-- Placing a stop leaves the count of failed exits. -/
theorem submitStop_failing (slPrice : ℚ) (s : OrderManager) :
    (submitStopOrderLocked host slPrice s).failing = s.failing := by
  simp only [submitStopOrderLocked]
  split
  · rfl
  · split
    · rfl
    · have sent (request : OrderRequest) (taken : Bool) :
          exitsIn [Effect.order .stop request taken] = [] := rfl
      split
      · refine failing_of rfl rfl ?_
        simp only [exitsIn_append, sent, exitsIn_persistNotice, List.append_nil]
      · refine failing_of rfl rfl ?_
        simp only [exitsIn_append, sent, List.append_nil]

/-- Cancelling the stop leaves the count of failed exits. -/
theorem cancelStop_failing : (cancelStopLocked host s).failing = s.failing := by
  simp only [cancelStopLocked]
  split
  · rfl
  · refine failing_of rfl rfl ?_
    have sent (id : String) : exitsIn [Effect.cancel id] = [] := rfl
    have saved : exitsIn (if s.stopServerBasket = "" then [] else
        host.persistServerNotice s.pos.basketIdStop s.stopServerBasket) = [] := by
      split
      · rfl
      · exact exitsIn_persistServerNotice _ _
    simp [saved, sent]

theorem updateStop_failing (newSl : ℚ) (force : Bool) (s : OrderManager) :
    (updateStopOrderLocked host newSl force s).failing = s.failing := by
  simp only [updateStopOrderLocked]
  split_ifs
  · rfl
  · rfl
  · exact submitStop_failing newSl s
  · exact (submitStop_failing newSl _).trans (cancelStop_failing _)

theorem cancelOrder_failing (clientId : String) (s : OrderManager) :
    (cancelOrderLocked host clientId s).failing = s.failing := by
  simp only [cancelOrderLocked]
  split
  · rfl
  · refine failing_of rfl rfl ?_
    rw [exitsIn_append]
    exact List.append_nil _

theorem sendUnwind_failing (fired : String) (fillPrice : ℚ) (unwindIsBuy : Bool)
    (userTag : String) (register : Bool) (s : OrderManager) :
    (sendUnwind host fired fillPrice unwindIsBuy userTag register s).failing = s.failing := by
  simp only [sendUnwind]
  split
  · rfl
  · refine failing_of rfl rfl ?_
    rw [exitsIn_append]
    exact List.append_nil _

/-- A fill while flat leaves the count of failed exits. -/
theorem flatFill_failing : (flatFill host basket fillPrice s).failing = s.failing := by
  have noted : (emit [.flatFill basket] s).failing = s.failing := by
    refine failing_of rfl rfl ?_
    rw [emit, exitsIn_append]
    exact List.append_nil _
  have dropped (c : OrderManager) : (dropFiredGuard host basket c).failing = c.failing := by
    refine failing_of rfl rfl ?_
    simp [dropFiredGuard, emit, eraseServerCancelForClientLocked]
  simp only [flatFill]
  rw [← noted]
  generalize emit [.flatFill basket] s = c
  split
  · exact (sendUnwind_failing _ _ _ _ _ _).trans (dropped _)
  · split
    · exact (sendUnwind_failing _ _ _ _ _ _).trans (dropped c)
    · split_ifs
      · rfl
      · rfl
      · rfl

/-- An operation that leaves the exits alone, or closes the trade and with it lifts the
halt. -/
inductive MayClose (s t : OrderManager) : Prop
  | kept (same : t.failing = s.failing)
  | closed (held : s.inTrade = true ∨ s.pos.state = .pendingExit) (flat : t.pos.state = .flat)
      (booked : t.tradeCompleted = true) (same : t.failing = (0, false, exitsIn s.outbox))

/-- An exit fill leaves the trade open or closes it completely. -/
theorem exitFill_mayClose {s : OrderManager} (fillQty : Int)
    (held : s.inTrade = true ∨ s.pos.state = .pendingExit) :
    MayClose s (exitFill host basket fillPrice fillQty s) := by
  simp only [exitFill]
  split
  · exact .kept rfl
  · have dropped : (dropFilledGuard host basket s).failing = s.failing := by
      simp only [dropFilledGuard]
      split
      · refine failing_of rfl rfl ?_
        simp
      · rfl
    generalize dropFilledGuard host basket s = c at dropped
    have booked : (bookExit host basket fillPrice c).failing = c.failing := rfl
    generalize bookExit host basket fillPrice c = d at booked
    have settled : (settleStop host basket d).failing = d.failing := by
      simp only [settleStop]
      split_ifs
      · rfl
      · exact cancelStop_failing d
      · refine failing_of rfl rfl ?_
        simp [emit]
    generalize settleStop host basket d = e at settled
    have cleaned : (dropStaleGuard host basket e).failing = e.failing := by
      simp only [dropStaleGuard]
      split
      · refine failing_of rfl rfl ?_
        simp [eraseServerCancelForClientLocked, emit]
      · rfl
    generalize dropStaleGuard host basket e = f at cleaned
    have sent : exitsIn f.outbox = exitsIn s.outbox :=
      congrArg (fun parts => parts.2.2) (cleaned.trans (settled.trans (booked.trans dropped)))
    refine .closed held rfl rfl ?_
    simp [failing, purgeGuards, finishClose, exitsIn_removeNotices, sent]

/-- So does a fill of any kind: only the exit side can close. -/
theorem onFill_mayClose (fillQty : Int) (isEntryFill : Bool) (s : OrderManager) :
    MayClose s (onFillNotificationLocked host now basket fillPrice fillQty isEntryFill s) := by
  have averaged : (accumulateFill basket fillPrice fillQty s).1.failing = s.failing ∧
      (accumulateFill basket fillPrice fillQty s).1.pos = s.pos := by
    simp only [accumulateFill]
    split
    · exact ⟨rfl, rfl⟩
    · exact ⟨rfl, rfl⟩
  simp only [onFillNotificationLocked]
  generalize accumulateFill basket fillPrice fillQty s = acc at averaged ⊢
  obtain ⟨c, price⟩ := acc
  obtain ⟨same, position⟩ := averaged
  dsimp only at same position ⊢
  split
  · refine .kept ?_
    rw [← same]
    split
    · simp only [lateEntryFill]
      split
      · exact sendUnwind_failing _ _ _ _ _ _
      · rfl
    · simp only [entryFill]
      split_ifs
      · rfl
      · rfl
      · exact submitStop_failing _ _
  · split
    next => exact .kept ((flatFill_failing basket price c).trans same)
    next busy =>
      have held : c.inTrade = true ∨ c.pos.state = .pendingExit := by
        simp only [inTrade, Bool.or_eq_true, decide_eq_true_eq]
        tauto
      have closes : MayClose c (exitFill host basket price fillQty c) :=
        exitFill_mayClose basket price fillQty held
      rcases closes with kept | ⟨_, flat, booked, closed⟩
      · exact .kept (kept.trans same)
      · refine .closed ?_ flat booked (closed.trans ?_)
        · rw [inTrade, ← position]
          exact held
        · have sent : exitsIn c.outbox = exitsIn s.outbox := congrArg (fun parts => parts.2.2) same
          rw [sent]

/-! ## Sending an exit -/

/-- The position has no stop on record, or its stop was sent at its stop level. -/
def Sheltered (s : OrderManager) : Prop :=
  s.pos.basketIdStop = "" ∨ ∃ request, Effect.order .stop request true ∈ s.outbox ∧
    request.basket = s.pos.basketIdStop ∧ request.price = s.pos.slPrice

/-- What sending the exit of an open position comes to. -/
inductive Exits (host : Host) (s t : OrderManager) : Prop
  | working (request : OrderRequest) (closing : t.pos.state = .pendingExit)
      (named : t.pos.basketIdExit = request.basket) (fresh : request.basket = host.basketId s.seq)
      (same : t.failing = (s.rejectedExitCount, s.entryHalted,
        exitsIn s.outbox ++ [(request, true)]))
  | failed (request : OrderRequest) (held : t.inTrade = true) (bare : t.pos.basketIdExit = "")
      (covered : t.Sheltered)
      (same : t.failing = (s.rejectedExitCount + 1,
        (if s.rejectedExitCount + 1 > 3 then true else s.entryHalted),
        exitsIn s.outbox ++ [(request, false)]))

/-- Placing the stop of a position without one. -/
theorem submitStop_covered (live : host.Live) (s : OrderManager) :
    (submitStopOrderLocked host s.pos.slPrice s).Sheltered ∧
      (submitStopOrderLocked host s.pos.slPrice s).pos.state = s.pos.state ∧
      (submitStopOrderLocked host s.pos.slPrice s).pos.basketIdExit = s.pos.basketIdExit := by
  obtain ⟨answer, orders⟩ := Option.isSome_iff_exists.mp live.orders
  simp only [submitStopOrderLocked, live.sends, Bool.false_eq_true, ↓reduceIte, orders]
  split
  next taken =>
    refine ⟨Or.inr ⟨stopRequest host s.pos.slPrice s, ?_, rfl, rfl⟩, rfl, rfl⟩
    simp only [taken, List.mem_append, List.mem_singleton, or_true, true_or]
  next refused => exact ⟨Or.inl rfl, rfl, rfl⟩

theorem heldState_inTrade {s : OrderManager} (direction : OrbSignal)
    (state : s.pos.state = heldState direction) : s.inTrade = true := by
  rw [inTrade, state]
  rcases heldState_open direction with long | short
  · simp [long]
  · simp [short]

/-- The exit of an open trade works, or its failure is counted and the trade stays sheltered. -/
theorem initiateExit_outcome (live : host.Live) (now : Int) (reason : String) (refPrice : ℚ)
    {s : OrderManager} (held : s.inTrade = true) :
    Exits host s (initiateExitLocked host now reason refPrice s) := by
  obtain ⟨answer, orders⟩ := Option.isSome_iff_exists.mp live.orders
  have cancelled : (cancelStopLocked host
      { s with slBreachTime := 0, stopResubmitPending := false }).failing = s.failing ∧
      (cancelStopLocked host
        { s with slBreachTime := 0, stopResubmitPending := false }).seq = s.seq := by
    refine ⟨cancelStop_failing _, ?_⟩
    simp only [cancelStopLocked]
    split
    · rfl
    · rfl
  simp only [initiateExitLocked, held, Bool.true_eq_false, ↓reduceIte, live.sends,
    Bool.false_eq_true, orders]
  generalize cancelStopLocked host { s with slBreachTime := 0, stopResubmitPending := false } = c
    at cancelled ⊢
  obtain ⟨same, counter⟩ := cancelled
  simp only [failing, Prod.mk.injEq] at same
  obtain ⟨count, halted, sent⟩ := same
  obtain ⟨b, bIs⟩ : ∃ b, b = beginExit host reason c := ⟨_, rfl⟩
  rw [← bIs]
  obtain ⟨request, requestIs⟩ : ∃ request,
      request = exitRequest host (host.basketId c.seq) reason refPrice b := ⟨_, rfl⟩
  rw [← requestIs]
  have named : request.basket = host.basketId s.seq := by
    rw [requestIs, ← counter]
    rfl
  have begun : b.pos.state = .pendingExit ∧ b.pos.basketIdExit = request.basket ∧
      b.rejectedExitCount = s.rejectedExitCount ∧ b.entryHalted = s.entryHalted ∧
      exitsIn b.outbox = exitsIn s.outbox := by
    rw [bIs, named, ← counter]
    exact ⟨rfl, rfl, count, halted, sent⟩
  obtain ⟨closing, exit, count, halted, sent⟩ := begun
  by_cases taken : answer (host.basketId c.seq) = true
  · rw [if_pos taken]
    refine .working request closing exit named ?_
    simp [failing, emit, taken, count, halted, sent]
  · rw [if_neg taken]
    have refused := Bool.eq_false_iff.mpr taken
    obtain ⟨d, dIs⟩ : ∃ d : OrderManager,
        d = (emit [.order .exit request (answer (host.basketId c.seq))] b).exitRefused := ⟨_, rfl⟩
    obtain ⟨covered, state, bare⟩ := @submitStop_covered host live d
    have reverted : revertExit host (emit [.order .exit request (answer (host.basketId c.seq))] b) =
        submitStopOrderLocked host d.pos.slPrice d := by
      rw [dIs]
      rfl
    have open_ : d.pos.state = heldState d.pos.direction ∧ d.pos.basketIdExit = "" := by
      rw [dIs]
      exact ⟨rfl, rfl⟩
    rw [reverted]
    refine .failed request (heldState_inTrade d.pos.direction (state.trans open_.1))
      (bare.trans open_.2) covered ?_
    rw [submitStop_failing, dIs]
    simp [failing, exitRefused, reopen, emit, refused, count, halted, sent]

/-- What any call but a rejection does about exits. -/
inductive Acts (host : Host) (s t : OrderManager) : Prop
  | closes (closes : MayClose s t)
  | exits (exits : Exits host s t)

theorem acts_of_same {s : OrderManager} (same : t.failing = s.failing) : Acts host s t :=
  .closes (.kept same)

/-- An operation on a state that differs in nothing that an exit looks at. -/
theorem Exits.congr {s c : OrderManager} (exits : Exits host c t) (same : c.failing = s.failing)
    (counter : c.seq = s.seq) : Exits host s t := by
  simp only [failing, Prod.mk.injEq] at same
  obtain ⟨count, halted, sent⟩ := same
  cases exits with
  | working request closing named fresh after =>
    rw [count, halted, sent] at after
    exact .working request closing named (counter ▸ fresh) after
  | failed request held bare covered after =>
    rw [count, halted, sent] at after
    exact .failed request held bare covered after

theorem initiateExit_acts (live : host.Live) (now : Int) (reason : String) (refPrice : ℚ)
    (s : OrderManager) : Acts host s (initiateExitLocked host now reason refPrice s) := by
  cases held : s.inTrade with
  | true => exact .exits (initiateExit_outcome live now reason refPrice held)
  | false =>
    simp only [initiateExitLocked, held, ↓reduceIte]
    exact acts_of_same rfl

theorem abandonEntry_failing : (abandonEntry host s).failing = s.failing := by
  simp only [abandonEntry]
  exact cancelOrder_failing _ _

/-- Flattening exits, closes, or does neither. -/
theorem flattenNow_acts (live : host.Live) (now : Int) (reason : String) (price : ℚ)
    (s : OrderManager) : Acts host s (flattenNow host now reason price s) := by
  simp only [flattenNow]
  split
  · exact acts_of_same rfl
  · exact acts_of_same (abandonEntry_failing s)
  · exact acts_of_same rfl
  · exact initiateExit_acts live now reason price s
  · exact initiateExit_acts live now reason price s

/-- Opening an entry leaves the count of failed exits. -/
theorem openEntry_failing (live : host.Live) (now : Int) (sig : OrbSignal)
    (price desiredSlDist : ℚ) (s : OrderManager) :
    (openEntry host now sig price desiredSlDist s).failing = s.failing := by
  obtain ⟨answer, orders⟩ := Option.isSome_iff_exists.mp live.orders
  simp only [openEntry, sendMarketOrder, live.sends, Bool.false_eq_true, ↓reduceIte, orders]
  split
  · refine failing_of rfl rfl ?_
    rw [emit, exitsIn_append]
    exact List.append_nil _
  · refine failing_of rfl rfl ?_
    rw [emit, exitsIn_append]
    exact List.append_nil _

/-- A signal of the strategy exits, closes, or does neither. -/
theorem onSignal_acts (live : host.Live) (now : Int) (sig : OrbSignal) (price desiredSlDist : ℚ)
    (s : OrderManager) : Acts host s (onSignal host now sig price desiredSlDist s) := by
  simp only [onSignal]
  split
  · exact flattenNow_acts live _ _ _ s
  · exact acts_of_same rfl
  · split_ifs
    · exact acts_of_same rfl
    · exact acts_of_same rfl
    · exact acts_of_same rfl
    · exact acts_of_same (openEntry_failing live _ _ _ _ s)
  · split_ifs
    · exact acts_of_same rfl
    · exact acts_of_same rfl
    · exact acts_of_same rfl
    · exact acts_of_same (openEntry_failing live _ _ _ _ s)

/-- A price check that exits ends there; one that does not leaves the exits alone. -/
theorem checkBreach_acts (live : host.Live) (now : Int) (currentPrice : ℚ) {s : OrderManager}
    (held : s.inTrade = true) :
    ((checkBreach host now currentPrice s).2 = true ∧
        Exits host s (checkBreach host now currentPrice s).1) ∨
      ((checkBreach host now currentPrice s).2 = false ∧
        (checkBreach host now currentPrice s).1.failing = s.failing ∧
        (checkBreach host now currentPrice s).1.seq = s.seq ∧
        (checkBreach host now currentPrice s).1.inTrade = true) := by
  have exits {c : OrderManager} (reason : String) (open_ : c.inTrade = true)
      (same : c.failing = s.failing) (counter : c.seq = s.seq) :
      Exits host s (initiateExitLocked host now reason currentPrice c) :=
    (initiateExit_outcome live now reason currentPrice open_).congr same counter
  simp only [checkBreach]
  split_ifs
  · exact Or.inl ⟨rfl, exits _ held rfl rfl⟩
  · exact Or.inl ⟨rfl, exits _ held rfl rfl⟩
  · exact Or.inr ⟨rfl, rfl, rfl, held⟩
  · exact Or.inl ⟨rfl, exits _ held rfl rfl⟩
  · exact Or.inr ⟨rfl, rfl, rfl, held⟩
  · exact Or.inr ⟨rfl, rfl, rfl, held⟩

theorem tightenStop_failing (level : ℚ) (s : OrderManager) :
    (tightenStop host level s).1.failing = s.failing := by
  simp only [tightenStop]
  split
  · exact updateStop_failing _ _ _
  · rfl

theorem breakEven_failing : (breakEven host s).1.failing = s.failing := by
  simp only [breakEven]
  split_ifs
  · exact updateStop_failing _ _ _
  · rfl
  · rfl

/-- The trail leaves the count of failed exits. -/
theorem trail_failing (currentPrice : ℚ) (s : OrderManager) :
    (trail host currentPrice (activateTrail host now s)).1.failing = s.failing := by
  have active : (activateTrail host now s).failing = s.failing := by
    simp only [activateTrail]
    split
    · rfl
    · rfl
  rw [← active]
  generalize activateTrail host now s = c
  simp only [trail]
  split
  · exact tightenStop_failing _ c
  · rfl

/-- The price check leaves the exits alone or sends the exit of an open trade. -/
theorem checkTrail_acts (live : host.Live) (now : Int) (currentPrice : ℚ) (s : OrderManager) :
    Acts host s (checkTrailAndStop host now currentPrice s).1 := by
  cases held : s.inTrade with
  | false =>
    simp only [checkTrailAndStop, held, ↓reduceIte]
    exact acts_of_same rfl
  | true =>
    simp only [checkTrailAndStop, held, Bool.true_eq_false, ↓reduceIte]
    obtain ⟨c, cIs⟩ : ∃ c, c = trackExcursion currentPrice s := ⟨_, rfl⟩
    have tracked : c.failing = s.failing ∧ c.seq = s.seq ∧ c.inTrade = true := by
      rw [cIs]
      exact ⟨rfl, rfl, held⟩
    obtain ⟨same, counter, open_⟩ := tracked
    rw [← cIs]
    have breach := checkBreach_acts live now currentPrice open_
    generalize checkBreach host now currentPrice c = answer at breach ⊢
    obtain ⟨d, exited⟩ := answer
    rcases breach with ⟨rfl, exits⟩ | ⟨rfl, kept, later, open_⟩
    · simp only [↓reduceIte]
      exact .exits (exits.congr same counter)
    · simp only [Bool.false_eq_true, ↓reduceIte]
      dsimp only at kept later open_
      split
      · have exits := initiateExit_outcome live now "take_profit" currentPrice
          (s := { d with slBreachTime := 0 }) open_
        exact .exits (exits.congr (kept.trans same) (later.trans counter))
      · refine acts_of_same ?_
        rw [trail_failing, breakEven_failing, kept, same]

/-- The check with a strategy's stop does the same. -/
theorem checkExternal_acts (live : host.Live) (now : Int) (currentPrice : ℚ)
    (stratStop : Option ℚ) (s : OrderManager) :
    Acts host s (checkExternalStop host now currentPrice stratStop s).1 := by
  cases held : s.inTrade with
  | false =>
    simp only [checkExternalStop, held, ↓reduceIte]
    exact acts_of_same rfl
  | true =>
    simp only [checkExternalStop, held, Bool.true_eq_false, ↓reduceIte]
    obtain ⟨c, cIs⟩ : ∃ c, c = trackExcursion currentPrice s := ⟨_, rfl⟩
    have tracked : c.failing = s.failing ∧ c.seq = s.seq ∧ c.inTrade = true := by
      rw [cIs]
      exact ⟨rfl, rfl, held⟩
    obtain ⟨same, counter, open_⟩ := tracked
    rw [← cIs]
    have breach := checkBreach_acts live now currentPrice open_
    generalize checkBreach host now currentPrice c = answer at breach ⊢
    obtain ⟨d, exited⟩ := answer
    rcases breach with ⟨rfl, exits⟩ | ⟨rfl, kept, later, open_⟩
    · simp only [↓reduceIte]
      exact .exits (exits.congr same counter)
    · simp only [Bool.false_eq_true, ↓reduceIte]
      dsimp only at kept
      refine acts_of_same ?_
      rw [← same, ← kept]
      split
      · rfl
      · split
        · exact tightenStop_failing _ d
        · rfl

/-- Filing the exit as a guard touches no count of rejections. -/
theorem guardExit_failing : (guardExit host s).failing = s.failing := by
  by_cases known : s.pos.basketIdExit = ""
  · simp [guardExit, known]
  · obtain ⟨c, cIs⟩ : ∃ c : OrderManager, c = { s with
      serverToClientCancelled :=
        if s.cancelIdForLocked s.pos.basketIdExit ≠ s.pos.basketIdExit then
          s.serverToClientCancelled.insert (s.cancelIdForLocked s.pos.basketIdExit)
            s.pos.basketIdExit
        else s.serverToClientCancelled
      clientOnlyCancels :=
        if s.cancelIdForLocked s.pos.basketIdExit ≠ s.pos.basketIdExit then s.clientOnlyCancels
        else insert s.pos.basketIdExit s.clientOnlyCancels
      cancelledStopTrade := s.cancelledStopTrade.insert s.pos.basketIdExit s.tradeSeq } := ⟨_, rfl⟩
    have same : c.failing = s.failing := by
      rw [cIs]
      rfl
    simp only [guardExit, known, ↓reduceIte, ← cIs]
    have cancelled := (@cancelOrder_failing host s.pos.basketIdExit c).trans same
    rw [← cancelled]
    refine failing_of rfl rfl ?_
    simp

/-- The retry of a stuck exit exits again, closes, or does neither. -/
theorem retry_acts (live : host.Live) (now : Int) (price : ℚ) (s : OrderManager) :
    Acts host s (retryStuckExit host now price s) := by
  simp only [retryStuckExit]
  split_ifs
  · exact acts_of_same rfl
  · exact acts_of_same rfl
  · have counter : (guardExit host s).reopen.seq = s.seq := (@guardExit_stop host s).2.2.2
    have same : (guardExit host s).reopen.failing = s.failing := guardExit_failing s
    have held : (guardExit host s).reopen.inTrade = true := heldState_inTrade _ rfl
    exact .exits ((initiateExit_outcome live now "stuck_exit_retry" price held).congr same counter)

/-- The rejection of the exit of a closing position: the exit is sent again, or entries
are halted and the position is open without a stop. -/
theorem onOrderRejected_resends (live : host.Live) (now : Int) (basket : String) {s : OrderManager}
    (closing : s.pos.state = .pendingExit)
    (named : s.pos.basketIdExit = (s.serverToClientOrders.lookup basket).getD basket)
    (bare : s.pos.basketIdStop = "") :
    (s.rejectedExitCount + 1 ≤ 3 ∧ Exits host
        { s.reopen with rejectedExitCount := s.rejectedExitCount + 1 }
        (onOrderRejected host now basket s)) ∨
      (3 < s.rejectedExitCount + 1 ∧ (onOrderRejected host now basket s).inTrade = true ∧
        (onOrderRejected host now basket s).pos.basketIdExit = "" ∧
        (onOrderRejected host now basket s).pos.basketIdStop = "" ∧
        (onOrderRejected host now basket s).failing =
          (s.rejectedExitCount + 1, true, exitsIn s.outbox)) := by
  have pending : ¬(s.pos.basketIdEntry = (s.serverToClientOrders.lookup basket).getD basket ∧
      s.pos.state = .pendingEntry) := by
    rw [closing]
    exact fun entry => nomatch entry.2
  have held {c : OrderManager} (state : c.pos.state = heldState s.pos.direction) :
      c.inTrade = true := heldState_inTrade _ state
  simp only [onOrderRejected]
  rw [if_neg pending, if_pos ⟨named, closing⟩]
  by_cases more : s.rejectedExitCount + 1 ≤ 3
  · rw [if_pos more]
    exact Or.inl ⟨more, initiateExit_outcome live now "rejected_exit_retry" 0 (held rfl)⟩
  · rw [if_neg more]
    exact Or.inr ⟨Nat.lt_of_not_le more, held rfl, rfl, bare, rfl⟩

/-- A rejection of anything else leaves the exits alone. -/
theorem onOrderRejected_failing {s : OrderManager}
    (other : ¬(s.pos.basketIdExit = (s.serverToClientOrders.lookup basket).getD basket ∧
      s.pos.state = .pendingExit)) :
    (onOrderRejected host now basket s).failing = s.failing := by
  simp only [onOrderRejected, other, ↓reduceIte]
  split_ifs
  · rfl
  · refine failing_of rfl rfl ?_
    simp
  · rfl

theorem externalClose_failing (refPrice : ℚ) (reason : String) (s : OrderManager) :
    (adoptExternalClose host refPrice reason s).failing = s.failing := by
  simp only [adoptExternalClose]
  split
  · rfl
  · exact cancelStop_failing s

/-- A failed cancel leaves the counts of exits. -/
theorem cancelFailed_failing (id : String) (s : OrderManager) :
    (onCancelFailed host id s).failing = s.failing := by
  have readopted (client server : String) (c : OrderManager) :
      (readoptStop host client server c).failing = c.failing := by
    refine failing_of rfl rfl ?_
    simp [readoptStop]
  simp only [onCancelFailed]
  generalize (if (s.serverToClientCancelled.lookup id).isSome = true then id else "") = server
  generalize (s.serverToClientCancelled.lookup id).getD id = client
  split_ifs
  · rfl
  · rfl
  · rfl
  · exact (readopted _ _ _).trans (cancelStop_failing _)
  · exact readopted _ _ _
  · rfl

/-- Every call but a rejection. -/
theorem perform_acts (live : host.Live) (call : Call) (s : OrderManager)
    (other : ∀ basket, call.op ≠ .rejected basket) : Acts host s (perform host call s) := by
  obtain ⟨now, op⟩ := call
  cases op with
  | signal sig price dist => exact onSignal_acts live now sig price dist s
  | fill basket price qty isEntry => exact .closes (onFill_mayClose now basket price qty isEntry s)
  | checkTrail price => exact checkTrail_acts live now price s
  | checkExternal price stratStop => exact checkExternal_acts live now price stratStop s
  | flatten reason price => exact flattenNow_acts live now reason price s
  | retryStuckExit price => exact retry_acts live now price s
  | entryTimeout secs =>
    refine acts_of_same ?_
    simp only [perform, pendingEntryTimeoutCheck]
    split_ifs
    · rfl
    · rfl
    · rfl
    · exact abandonEntry_failing s
  | rejected basket => exact absurd rfl (other basket)
  | cancelConfirmed basket =>
    refine acts_of_same (failing_of rfl rfl ?_)
    simp [perform, onCancelConfirmed]
  | cancelConfirmedByServer server =>
    refine acts_of_same ?_
    simp only [perform, onCancelConfirmedByServerBasket]
    split
    · rfl
    · refine failing_of rfl rfl ?_
      simp
  | cancelFailed id => exact acts_of_same (cancelFailed_failing id s)
  | stopServerMapped client server =>
    refine acts_of_same ?_
    simp only [perform, onStopServerMapped]
    split_ifs
    · rfl
    · refine failing_of rfl rfl ?_
      simp
    · rfl
    · rfl
    · refine failing_of rfl rfl ?_
      simp
    · rfl
  | mapServer client server =>
    refine acts_of_same ?_
    simp only [perform, mapServerBasket]
    split
    · rfl
    · split
      · refine failing_of rfl rfl ?_
        simp
      · rfl
  | setStopServer server => exact acts_of_same rfl
  | externalClose price reason => exact acts_of_same (externalClose_failing price reason s)
  | fillProcessed basket qty =>
    refine acts_of_same ?_
    simp only [perform, fillAlreadyProcessed]
    split
    · rfl
    · rfl
  | recancel =>
    refine acts_of_same ?_
    simp only [perform, recancelPendingStops]
    split
    · rfl
    · refine failing_of rfl rfl ?_
      simp [emit, exitsIn_cancels]
  | clearRecancels => exact acts_of_same rfl
  | registerUnwind basket => exact acts_of_same rfl
  | confirmFlat => exact acts_of_same rfl
  | seedStop basket wasBuyStop => exact acts_of_same rfl
  | seedServer server client => exact acts_of_same rfl
  | popCompleted =>
    refine acts_of_same ?_
    simp only [perform, popTradeCompleted]
    split
    · rfl
    · rfl
  | host risk regime => exact acts_of_same rfl

/-! ## Every run -/

variable {clientOf : String → Option String} {inherited : Finset String} {seq : Nat}

/-- The call reports, under either of its ids, that the exit of a closing position was
rejected. -/
def RejectsExit (clientOf : String → Option String) (s : OrderManager) : Op → Prop
  | .rejected basket => s.pos.state = .pendingExit ∧ orderOf clientOf basket = s.pos.basketIdExit
  | _ => False

instance (clientOf : String → Option String) (s : OrderManager) (op : Op) :
    Decidable (RejectsExit clientOf s op) := by
  induction op using Op.casesOn
  all_goals
    dsimp only [RejectsExit]
    infer_instance

/-- It does so under a server id of which no notification told before. -/
def Unmapped (clientOf : String → Option String) (s : OrderManager) (op : Op) : Prop :=
  RejectsExit clientOf s op ∧
    match op with
    | .rejected basket =>
      basket ≠ s.pos.basketIdExit ∧ s.serverToClientOrders.lookup basket = none
    | _ => False

instance (clientOf : String → Option String) (s : OrderManager) (op : Op) :
    Decidable (Unmapped clientOf s op) := by
  induction op using Op.casesOn
  all_goals
    dsimp only [Unmapped]
    infer_instance

def isRejection : Op → Bool
  | .rejected _ => true
  | _ => false

/-- What was counted of the position: the exits that the handler of rejections sent, and
the exits that were rejected or could not be sent. -/
structure ExitLog where
  resends : Nat := 0
  failures : Nat := 0
  deriving DecidableEq

def ExitLog.note (clientOf : String → Option String) (log : ExitLog) (before : OrderManager)
    (call : Call) (after : OrderManager) : ExitLog :=
  if after.inTrade = true ∨ after.pos.state = .pendingExit then
    { resends := log.resends +
        if isRejection call.op then (exitsIn after.outbox).length else 0
      failures := log.failures + (if RejectsExit clientOf before call.op then 1 else 0) +
        (exitsIn after.outbox).countP fun exit => !exit.2 }
  else {}

/-- A new exit works, or the position is open and protected. -/
def Restored (before after : OrderManager) : Prop :=
  (after.pos.state = .pendingExit ∧ after.pos.basketIdExit ≠ before.pos.basketIdExit ∧
      ∃ request, (request, true) ∈ exitsIn after.outbox ∧
        request.basket = after.pos.basketIdExit) ∨
    (after.inTrade = true ∧ after.pos.basketIdExit = "" ∧ after.Sheltered)

/-- At most three exits of a position are sent by the handler, the fourth failure halts
entries, a halt ends with a closed trade, and no failure is silent. -/
structure Bounded (clientOf : String → Option String) (before : OrderManager) (call : Call)
    (after : OrderManager × ExitLog) : Prop where
  resends : after.2.resends ≤ 3
  halted : 4 ≤ after.2.failures → after.1.isEntryHalted = true
  lifted : before.entryHalted = true → after.1.entryHalted = false →
    (before.inTrade = true ∨ before.pos.state = .pendingExit) ∧ after.1.pos.state = .flat ∧
      after.1.tradeCompleted = true
  restored : (RejectsExit clientOf before call.op ∨
      ∃ request, (request, false) ∈ exitsIn after.1.outbox) → Restored before after.1

/-- What the counter stands for. -/
structure Counted (host : Host) (clientOf : String → Option String) (inherited : Finset String)
    (seq : Nat) (pair : OrderManager × ExitLog) : Prop where
  separated : Separated host clientOf inherited seq pair.1
  resends : pair.2.resends ≤ pair.1.rejectedExitCount
  few : pair.2.resends ≤ 3
  failures : pair.2.failures ≤ pair.1.rejectedExitCount
  halted : 3 < pair.1.rejectedExitCount → pair.1.entryHalted = true

/-- A rejection that names the exit is recognised unless its server id is unknown. -/
theorem recognised {s : OrderManager} {basket : String}
    (mapped : s.ledger.Mapped clientOf) (plain : clientOf s.pos.basketIdExit = none) :
    (s.pos.basketIdExit = (s.serverToClientOrders.lookup basket).getD basket ∧
        s.pos.state = .pendingExit) ↔
      RejectsExit clientOf s (.rejected basket) ∧ ¬Unmapped clientOf s (.rejected basket) := by
  have owned (client : String) (listed : s.serverToClientOrders.lookup basket = some client) :
      orderOf clientOf basket = client := by
    rw [orderOf, mapped.order listed, Option.getD_some]
  simp only [Unmapped, RejectsExit]
  cases found : s.serverToClientOrders.lookup basket with
  | none =>
    rw [Option.getD_none]
    constructor
    · rintro ⟨named, closing⟩
      have own : orderOf clientOf basket = s.pos.basketIdExit := by
        rw [← named, orderOf, plain, Option.getD_none]
      exact ⟨⟨closing, own⟩, fun unmapped => unmapped.2.1 named.symm⟩
    · rintro ⟨⟨closing, own⟩, mappable⟩
      have named : basket = s.pos.basketIdExit := by
        by_contra other
        exact mappable ⟨⟨closing, own⟩, other, rfl⟩
      exact ⟨named.symm, closing⟩
  | some client =>
    rw [Option.getD_some]
    constructor
    · rintro ⟨named, closing⟩
      exact ⟨⟨closing, (owned client found).trans named.symm⟩, fun unmapped =>
        Option.some_ne_none client unmapped.2.2⟩
    · rintro ⟨⟨closing, own⟩, _⟩
      exact ⟨own.symm.trans (owned client found), closing⟩

/-- The counter covers what is logged, once it covers it while there is a position. -/
theorem Counted.note {s : OrderManager} {log : ExitLog}
    (separated : Separated host clientOf inherited seq t)
    (busy : t.inTrade = true ∨ t.pos.state = .pendingExit →
      log.failures + (if RejectsExit clientOf s call.op then 1 else 0) +
          (exitsIn t.outbox).countP (fun exit => !exit.2) ≤ t.rejectedExitCount ∧
        log.resends + (if isRejection call.op then (exitsIn t.outbox).length else 0) ≤
          t.rejectedExitCount ∧
        log.resends + (if isRejection call.op then (exitsIn t.outbox).length else 0) ≤ 3)
    (halted : 3 < t.rejectedExitCount → t.entryHalted = true) :
    Counted host clientOf inherited seq (t, ExitLog.note clientOf log s call t) := by
  by_cases held : t.inTrade = true ∨ t.pos.state = .pendingExit
  · obtain ⟨failures, resends, few⟩ := busy held
    refine ⟨separated, ?_, ?_, ?_, halted⟩
    · simp only [ExitLog.note, if_pos held]
      exact resends
    · simp only [ExitLog.note, if_pos held]
      exact few
    · simp only [ExitLog.note, if_pos held]
      exact failures
  · refine ⟨separated, ?_, ?_, ?_, halted⟩
    · simp only [ExitLog.note, if_neg held]
      exact Nat.zero_le _
    · simp only [ExitLog.note, if_neg held]
      exact Nat.zero_le _
    · simp only [ExitLog.note, if_neg held]
      exact Nat.zero_le _

/-- Counted exits are bounded, where the halt is lifted by closes only. -/
theorem Counted.bounded {before : OrderManager} {after : OrderManager × ExitLog}
    (counted : Counted host clientOf inherited seq after)
    (lifted : before.entryHalted = true → after.1.entryHalted = false →
      (before.inTrade = true ∨ before.pos.state = .pendingExit) ∧ after.1.pos.state = .flat ∧
        after.1.tradeCompleted = true)
    (restored : (RejectsExit clientOf before call.op ∨
      ∃ request, (request, false) ∈ exitsIn after.1.outbox) → Restored before after.1) :
    Bounded clientOf before call after where
  resends := counted.few
  halted := by
    intro many
    rw [isEntryHalted, counted.halted (many.trans counted.failures), Bool.true_or]
  lifted := lifted
  restored := restored

/-- A call that is no rejection of the exit. -/
theorem Counted.acts (counted : Counted host clientOf inherited seq pair)
    (separated : Separated host clientOf inherited seq t)
    (acts : Acts host { pair.1 with outbox := [] } t) (quiet : ¬RejectsExit clientOf pair.1 call.op)
    (own : isRejection call.op = true → exitsIn t.outbox = []) :
    Counted host clientOf inherited seq (t, ExitLog.note clientOf pair.2 pair.1 call t) ∧
      Bounded clientOf pair.1 call (t, ExitLog.note clientOf pair.2 pair.1 call t) := by
  obtain ⟨s, log⟩ := pair
  obtain ⟨_, resends, few, failures, halted⟩ := counted
  have silent (none : exitsIn t.outbox = []) (request : OrderRequest) :
      (request, false) ∉ exitsIn t.outbox := by
    rw [none]
    exact List.not_mem_nil
  have unsent : (if isRejection call.op then (exitsIn t.outbox).length else 0) = 0 := by
    split
    next rejection =>
      rw [own rejection]
      rfl
    next => rfl
  -- Nothing was sent that was refused: the counter only has to cover what it did.
  have calm (none : (exitsIn t.outbox).countP (fun exit => !exit.2) = 0)
      (clean : ∀ request, (request, false) ∉ exitsIn t.outbox)
      (count : t.rejectedExitCount = s.rejectedExitCount) (halt : t.entryHalted = s.entryHalted) :
      Counted host clientOf inherited seq (t, ExitLog.note clientOf log s call t) ∧
        Bounded clientOf s call (t, ExitLog.note clientOf log s call t) := by
    have after : Counted host clientOf inherited seq (t, ExitLog.note clientOf log s call t) := by
      refine Counted.note separated ?_ ?_
      · intro _
        rw [none, if_neg quiet, unsent, count]
        exact ⟨failures, resends, few⟩
      · rw [count, halt]
        exact halted
    refine ⟨after, after.bounded ?_ ?_⟩
    · intro before lifted
      rw [halt, before] at lifted
      exact absurd lifted.symm Bool.false_ne_true
    · rintro (rejects | ⟨request, inside⟩)
      · exact absurd rejects quiet
      · exact absurd inside (clean request)
  cases acts with
  | closes closes =>
    cases closes with
    | kept same =>
      simp only [failing, exitsIn_nil, Prod.mk.injEq] at same
      obtain ⟨count, halt, sent⟩ := same
      refine calm ?_ (silent sent) count halt
      rw [sent]
      rfl
    | closed held flat booked same =>
      simp only [failing, exitsIn_nil, Prod.mk.injEq] at same
      obtain ⟨count, halt, sent⟩ := same
      have idle : ¬(t.inTrade = true ∨ t.pos.state = .pendingExit) := by
        rw [inTrade, flat]
        decide
      have after : Counted host clientOf inherited seq (t, ExitLog.note clientOf log s call t) := by
        refine Counted.note separated (fun busy => absurd busy idle) ?_
        rw [count]
        exact fun many => absurd many (Nat.not_lt_zero 3)
      refine ⟨after, after.bounded (fun _ _ => ⟨held, flat, booked⟩) ?_⟩
      rintro (rejects | ⟨request, inside⟩)
      · exact absurd rejects quiet
      · exact absurd inside (silent sent request)
  | exits exits =>
    cases exits with
    | working request closing named fresh same =>
      simp only [failing, exitsIn_nil, List.nil_append, Prod.mk.injEq] at same
      obtain ⟨count, halt, sent⟩ := same
      refine calm ?_ ?_ count halt
      · rw [sent]
        rfl
      · intro other inside
        rw [sent, List.mem_singleton] at inside
        exact absurd (congrArg Prod.snd inside) Bool.false_ne_true
    | failed request held bare covered same =>
      simp only [failing, exitsIn_nil, List.nil_append, Prod.mk.injEq] at same
      obtain ⟨count, halt, sent⟩ := same
      have refused : (exitsIn t.outbox).countP (fun exit => !exit.2) = 1 := by
        rw [sent]
        rfl
      have after : Counted host clientOf inherited seq (t, ExitLog.note clientOf log s call t) := by
        refine Counted.note separated ?_ ?_
        · intro _
          rw [refused, if_neg quiet, unsent, count]
          dsimp only at failures resends few ⊢
          omega
        · rw [count, halt]
          exact fun many => if_pos many
      refine ⟨after, after.bounded ?_ fun _ => Or.inr ⟨held, bare, covered⟩⟩
      intro before lifted
      rw [halt, before, ite_self] at lifted
      exact absurd lifted.symm Bool.false_ne_true

/-- A rejection of the exit that is recognised. -/
theorem Counted.rejected (live : host.Live) {now : Int} {basket : String}
    (counted : Counted host clientOf inherited seq pair)
    (separated : Separated host clientOf inherited seq (step host pair.1 ⟨now, .rejected basket⟩))
    (rejects : RejectsExit clientOf pair.1 (.rejected basket))
    (closing : pair.1.pos.state = .pendingExit)
    (named : pair.1.pos.basketIdExit = (pair.1.serverToClientOrders.lookup basket).getD basket) :
    Counted host clientOf inherited seq (step host pair.1 ⟨now, .rejected basket⟩,
        ExitLog.note clientOf pair.2 pair.1 ⟨now, .rejected basket⟩
          (step host pair.1 ⟨now, .rejected basket⟩)) ∧
      Bounded clientOf pair.1 ⟨now, .rejected basket⟩ (step host pair.1 ⟨now, .rejected basket⟩,
        ExitLog.note clientOf pair.2 pair.1 ⟨now, .rejected basket⟩
          (step host pair.1 ⟨now, .rejected basket⟩)) := by
  obtain ⟨s, log⟩ := pair
  obtain ⟨before, resends, few, failures, halted⟩ := counted
  dsimp only at before resends few failures halted separated rejects closing named ⊢
  have bare : s.pos.basketIdStop = "" := (before.shape.pendingExit closing).2
  have unplaced : s.pos.basketIdExit ≠ host.basketId s.seq :=
    (before.fresh s.seq (Nat.le_refl _)).exit.symm
  have outcome := onOrderRejected_resends (s := { s with outbox := [] }) live now
    basket closing named
    bare
  have performed : onOrderRejected host now basket { s with outbox := [] } =
      step host s ⟨now, .rejected basket⟩ := rfl
  rw [performed] at outcome
  generalize step host s ⟨now, .rejected basket⟩ = t at separated outcome ⊢
  have lasting {p : Prop} [Decidable p] (halt : t.entryHalted = if p then true else s.entryHalted)
      (on : s.entryHalted = true) (off : t.entryHalted = false) : False := by
    rw [on, ite_self] at halt
    exact Bool.false_ne_true (off.symm.trans halt)
  rcases outcome with ⟨more, exits⟩ | ⟨many, held, exit, stop, same⟩
  · dsimp only at more
    cases exits with
    | working request closing named fresh same =>
      simp only [failing, reopen, exitsIn_nil, List.nil_append, Prod.mk.injEq] at same
      obtain ⟨count, halt, sent⟩ := same
      have after : Counted host clientOf inherited seq
          (t, ExitLog.note clientOf log s ⟨now, .rejected basket⟩ t) := by
        refine Counted.note separated ?_ ?_
        · intro _
          rw [if_pos rejects, sent, count]
          simp only [isRejection, ↓reduceIte, List.countP_singleton, List.length_singleton,
            Bool.not_true, Bool.false_eq_true]
          omega
        · rw [count]
          omega
      refine ⟨after, after.bounded ?_ fun _ => Or.inl ⟨closing, ?_, request, ?_, named.symm⟩⟩
      · intro on off
        rw [halt, on] at off
        exact nomatch off
      · rw [named, fresh]
        exact unplaced.symm
      · rw [sent]
        exact List.mem_singleton_self _
    | failed request held bare covered same =>
      simp only [failing, reopen, exitsIn_nil, List.nil_append, Prod.mk.injEq] at same
      obtain ⟨count, halt, sent⟩ := same
      have after : Counted host clientOf inherited seq
          (t, ExitLog.note clientOf log s ⟨now, .rejected basket⟩ t) := by
        refine Counted.note separated ?_ ?_
        · intro _
          rw [if_pos rejects, sent, count]
          simp only [isRejection, ↓reduceIte, List.countP_singleton, List.length_singleton,
            Bool.not_false]
          omega
        · rw [count, halt]
          exact fun many => if_pos many
      refine ⟨after, after.bounded ?_ fun _ => Or.inr ⟨held, bare, covered⟩⟩
      exact fun on off => (lasting halt on off).elim
  · simp only [failing, exitsIn_nil, Prod.mk.injEq] at same
    obtain ⟨count, halt, sent⟩ := same
    have after : Counted host clientOf inherited seq
        (t, ExitLog.note clientOf log s ⟨now, .rejected basket⟩ t) := by
      refine Counted.note separated ?_ ?_
      · intro _
        rw [if_pos rejects, sent, count]
        simp only [isRejection, ↓reduceIte, List.countP_nil, List.length_nil]
        omega
      · exact fun _ => halt
    refine ⟨after, after.bounded ?_ fun _ => Or.inr ⟨held, exit, Or.inl stop⟩⟩
    intro on off
    rw [halt] at off
    exact nomatch off

/-- A step that does not miss a rejection of the exit. -/
theorem Counted.step (live : host.Live) (ids : ServerIds host clientOf)
    (left : ∀ n, seq ≤ n → host.basketId n ∉ inherited) {pair : OrderManager × ExitLog}
    {call : Call} (counted : Counted host clientOf inherited seq pair)
    (proper : Proper host clientOf inherited seq pair.1 call)
    (mapped : ¬Unmapped clientOf pair.1 call.op) :
    Counted host clientOf inherited seq
        (observe (OrderManager.step host) (ExitLog.note clientOf) pair call) ∧
      Bounded clientOf pair.1 call
        (observe (OrderManager.step host) (ExitLog.note clientOf) pair call) := by
  have separated := counted.separated.step live ids left proper.1 proper.2
  have plain : clientOf pair.1.pos.basketIdExit = none := counted.separated.within.exit.plain ids
  simp only [observe]
  by_cases rejection : ∃ basket, call.op = .rejected basket
  · obtain ⟨now, op⟩ := call
    obtain ⟨basket, rfl⟩ := rejection
    by_cases own : pair.1.pos.basketIdExit =
        (pair.1.serverToClientOrders.lookup basket).getD basket ∧ pair.1.pos.state = .pendingExit
    · have rejects := ((recognised counted.separated.mapped plain).mp own).1
      exact counted.rejected live separated rejects own.2 own.1
    · have same : (OrderManager.step host pair.1 ⟨now, .rejected basket⟩).failing =
          ({ pair.1 with outbox := [] } : OrderManager).failing :=
        onOrderRejected_failing (s := { pair.1 with outbox := [] }) now basket own
      refine counted.acts separated (acts_of_same same) ?_ ?_
      · exact fun rejects =>
          own ((recognised counted.separated.mapped plain).mpr ⟨rejects, mapped⟩)
      · intro _
        exact congrArg (fun parts => parts.2.2) same
  · have other : ∀ basket, call.op ≠ .rejected basket := fun basket is => rejection ⟨basket, is⟩
    refine counted.acts separated (perform_acts live call _ other) ?_ ?_
    · intro rejects
      revert rejects other
      cases call.op with
      | rejected basket => exact fun other _ => other basket rfl
      | _ => exact fun _ rejects => rejects
    · intro isRejected
      revert isRejected other
      cases call.op with
      | rejected basket => exact fun other _ => absurd rfl (other basket)
      | _ => exact fun _ isRejected => absurd isRejected Bool.false_ne_true

/-- A rejection under an unknown server id leaves the dead exit on a closing position. -/
theorem not_bounded_of_unmapped (unmapped : Unmapped clientOf pair.1 call.op) :
    ¬Bounded clientOf pair.1 call
      (observe (OrderManager.step host) (ExitLog.note clientOf) pair call) := by
  obtain ⟨s, log⟩ := pair
  obtain ⟨now, op⟩ := call
  intro bounded
  have restored := bounded.restored (Or.inl unmapped.1)
  cases op with
  | rejected basket =>
    obtain ⟨⟨closing, _⟩, other, unknown⟩ := unmapped
    have missed : ¬(s.pos.basketIdExit = (s.serverToClientOrders.lookup basket).getD basket ∧
        s.pos.state = .pendingExit) := by
      rw [unknown, Option.getD_none]
      exact fun named => other named.1.symm
    have entering : ¬(s.pos.basketIdEntry = (s.serverToClientOrders.lookup basket).getD basket ∧
        s.pos.state = .pendingEntry) := by
      rw [closing]
      exact fun entry => absurd entry.2 (by decide)
    have same : (OrderManager.step host s ⟨now, .rejected basket⟩).pos.state = .pendingExit ∧
        (OrderManager.step host s ⟨now, .rejected basket⟩).pos.basketIdExit =
          s.pos.basketIdExit := by
      simp only [OrderManager.step, perform, onOrderRejected, missed, entering, ↓reduceIte]
      split_ifs
      · exact ⟨closing, rfl⟩
      · exact ⟨closing, rfl⟩
    rcases restored with ⟨_, renewed, _⟩ | ⟨held, _⟩
    · exact renewed same.2
    · simp only [observe, inTrade, same.1] at held
      exact absurd held (by decide)
  | _ => exact unmapped.1

/-- In every run in which each order has at most one server id and the seeds were left by
another process, the rejections of the exits are bounded and never silent exactly when no
rejection of the exit arrives under a server id of which nothing told before. -/
theorem rejections_bounded_iff (live : host.Live) (ids : ServerIds host clientOf)
    (risk : RiskManager) (seq : Nat) (left : ∀ n, seq ≤ n → host.basketId n ∉ inherited)
    (calls : List Call) (foreign : ∀ call ∈ calls, Ledger.Foreign host seq call.op)
    (reports : Along (OrderManager.step host)
      (fun s call => s.ledger.Reports clientOf inherited call.op) (fresh risk seq) calls) :
    Along (observe (OrderManager.step host) (ExitLog.note clientOf)) (fun pair call =>
        Bounded clientOf pair.1 call
          (observe (OrderManager.step host) (ExitLog.note clientOf) pair call))
        (fresh risk seq, {}) calls ↔
      Along (observe (OrderManager.step host) (ExitLog.note clientOf))
        (fun pair call => ¬Unmapped clientOf pair.1 call.op) (fresh risk seq, {}) calls := by
  have start : Counted host clientOf inherited seq (fresh risk seq, {}) := {
    separated := fresh_separated risk seq
    resends := Nat.le_refl 0
    few := Nat.zero_le 3
    failures := Nat.le_refl 0
    halted := fun many => absurd many (Nat.not_lt_zero 3) }
  have proper : Along (observe (OrderManager.step host) (ExitLog.note clientOf))
      (fun pair call => Proper host clientOf inherited seq pair.1 call)
      (fresh risk seq, {}) calls := by
    refine (along_observe_iff (OrderManager.step host) (ExitLog.note clientOf) _ _ calls).mpr ?_
    have along := along_and_of_mem (OrderManager.step host) _ calls reports foreign
    refine (along_congr (OrderManager.step host) ?_ _ calls).mp along
    exact fun s call => and_comm
  refine along_iff_of_base _ (Counted host clientOf inherited seq) ?_ ?_ _ calls start proper
  · intro pair call counted proper
    constructor
    · exact fun bounded unmapped => not_bounded_of_unmapped unmapped bounded
    · exact fun mapped => (counted.step live ids left proper mapped).2
  · exact fun pair call counted proper mapped => (counted.step live ids left proper mapped).1

/-- A trade whose exit the gateway rejects four times, under its client id. -/
def rejectedExits : List Call :=
  [⟨1, .signal .buy 100 0⟩, ⟨2, .fill "MNQ-0-0" 100 1 true⟩, ⟨3, .flatten "manual" 101⟩,
    ⟨4, .rejected "MNQ-0-2"⟩, ⟨5, .rejected "MNQ-0-3"⟩, ⟨6, .rejected "MNQ-0-4"⟩,
    ⟨7, .rejected "MNQ-0-5"⟩]

/-- The run of the witness is bounded exactly when all its rejections are mapped. -/
theorem rejected_exits_bounded :
    Along (observe (OrderManager.step .accepting) (ExitLog.note unmappedIds)) (fun pair call =>
        Bounded unmappedIds pair.1 call
          (observe (OrderManager.step .accepting) (ExitLog.note unmappedIds) pair call))
        (fresh {} 0, {}) rejectedExits ↔
      Along (observe (OrderManager.step .accepting) (ExitLog.note unmappedIds))
        (fun pair call => ¬Unmapped unmappedIds pair.1 call.op) (fresh {} 0, {}) rejectedExits :=
  rejections_bounded_iff Host.accepting_live unmapped_ids {} 0 (fun _ _ => Finset.notMem_empty _)
    rejectedExits
    (fun call inside => Ledger.foreign_of_not_brings (by revert call; decide +kernel))
    (by decide +kernel)

/-- The gateway answers the exit with a server id and a rejection. -/
theorem unmapped_rejection_silent :
    ¬∀ (host : Host), host.Live → ∀ (clientOf : String → Option String),
      ServerIds host clientOf → ∀ (risk : RiskManager) (seq : Nat) (calls : List Call),
      (∀ call ∈ calls, Ledger.Foreign host seq call.op) →
      Along (OrderManager.step host) (fun s call => s.ledger.Reports clientOf ∅ call.op)
        (fresh risk seq) calls →
      Along (observe (OrderManager.step host) (ExitLog.note clientOf)) (fun pair call =>
        Bounded clientOf pair.1 call
          (observe (OrderManager.step host) (ExitLog.note clientOf) pair call))
        (fresh risk seq, {}) calls := by
  intro sound
  have ids : ServerIds .accepting fun id => if id = "S2" then some "MNQ-0-2" else none :=
    ServerIds.one (by decide) (accepting_apart (by decide))
  have along := sound .accepting Host.accepting_live _ ids {} 0
    [⟨1, .signal .buy 100 0⟩, ⟨2, .fill "MNQ-0-0" 100 1 true⟩, ⟨3, .flatten "manual" 101⟩,
      ⟨4, .rejected "S2"⟩]
    (fun call inside => Ledger.foreign_of_not_brings (by revert call; decide +kernel))
    (by decide +kernel)
  exact not_bounded_of_unmapped (by decide +kernel) along.2.2.2.1

end RithmicEngine.OrderManager
