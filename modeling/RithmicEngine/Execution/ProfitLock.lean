import RithmicEngine.Execution.StopRatchet
/-!
# The profit lock

Once a trade has been in profit by the trigger, the stop moves beyond the entry by the offset,
and after a delay the trail starts. The executor's trail log calls it a violation to find the
trail active before the break-even move, because both wait for the same excursion and the
break-even move comes first. It never is: whatever calls come in whatever order, a trade with an
active trail has taken its break-even move, had the excursion that it asks for, and its stop
stays at least as tight as the break-even level until it is closed.
-/
namespace RithmicEngine

open Runs

namespace Position

/-- The level that the break-even move of a position asks for. -/
def lockLevel (cfg : OrbConfig) (p : Position) : ℚ :=
  if p.direction = .buy then p.entryPrice + cfg.trailBeOffset else p.entryPrice - cfg.trailBeOffset

/-- What the flags of a position say about its excursion and its stop. -/
structure Locked (cfg : OrbConfig) (p : Position) : Prop where
  flags : p.trailingActive = true → p.beTriggered = true
  earned : p.beTriggered = true → cfg.trailBeTrigger ≤ p.mfe
  held : p.beTriggered = true → p.state.isHeld = true
  faces : p.state = .long ∨ p.state = .short → p.state = heldState p.direction
  kept : p.beTriggered = true → AtLeastAsTight p.direction p.slPrice (p.lockLevel cfg)

variable {cfg : OrbConfig} {p : Position}

/-- A position whose stop was not moved has nothing to lock. -/
theorem Locked.of_unflagged (unmoved : p.beTriggered = false) (untrailed : p.trailingActive = false)
    (faces : p.state = .long ∨ p.state = .short → p.state = heldState p.direction) :
    Locked cfg p where
  flags trailing := absurd (untrailed.symm.trans trailing) Bool.noConfusion
  earned moved := absurd (unmoved.symm.trans moved) Bool.noConfusion
  held moved := absurd (unmoved.symm.trans moved) Bool.noConfusion
  faces := faces
  kept moved := absurd (unmoved.symm.trans moved) Bool.noConfusion

theorem locked_flat (cfg : OrbConfig) : Locked cfg {} := by
  refine .of_unflagged rfl rfl ?_
  rintro (long | short)
  · cases long
  · cases short

/-- A position that is not held has neither flag. -/
theorem Locked.idle (locked : p.Locked cfg) (idle : p.state.isHeld = false) :
    p.beTriggered = false ∧ p.trailingActive = false := by
  have unmoved : p.beTriggered ≠ true := fun moved =>
    absurd (idle.symm.trans (locked.held moved)) Bool.noConfusion
  exact ⟨Bool.eq_false_iff.mpr unmoved,
    Bool.eq_false_iff.mpr fun trailing => unmoved (locked.flags trailing)⟩

/-- Leaving the trade keeps the lock. -/
theorem Locked.leave {cfg : OrbConfig} {p : Position} (locked : p.Locked cfg) (q : Position)
    (same : q = { p with
      state := .pendingExit, exitReason := q.exitReason, basketIdExit := q.basketIdExit
      exitPrice := q.exitPrice, pnlPoints := q.pnlPoints, pnlUsd := q.pnlUsd
      basketIdStop := q.basketIdStop }) : q.Locked cfg := by
  rw [same]
  refine ⟨locked.flags, locked.earned, fun _ => rfl, ?_, locked.kept⟩
  rintro (long | short)
  · cases long
  · cases short

/-- Coming back to the trade keeps the lock. -/
theorem Locked.reopen (locked : p.Locked cfg) (basket : String) :
    Locked cfg { p with basketIdExit := basket, state := heldState p.direction } := by
  exact ⟨locked.flags, locked.earned, fun _ => heldState_isHeld p.direction, fun _ => rfl,
    locked.kept⟩

/-- The stop order is no part of the lock. -/
theorem Locked.restop {q : Position} (locked : p.Locked cfg)
    (restopped : ∃ basket, q = { p with basketIdStop := basket }) : q.Locked cfg := by
  obtain ⟨basket, rfl⟩ := restopped
  exact ⟨locked.flags, locked.earned, locked.held, locked.faces, locked.kept⟩

end Position

namespace OrderManager

variable {host : Host}

/-- The lock of the position in hand. -/
abbrev Secured (host : Host) (s : OrderManager) : Prop := s.pos.Locked host.cfg

/-! ## Orders -/

theorem submitStop_pos (slPrice : ℚ) (s : OrderManager) :
    ∃ basket, (submitStopOrderLocked host slPrice s).pos =
      { s.pos with basketIdStop := basket } := by
  simp only [submitStopOrderLocked]
  split
  · exact ⟨s.pos.basketIdStop, rfl⟩
  · split
    · exact ⟨s.pos.basketIdStop, rfl⟩
    · split
      · exact ⟨_, rfl⟩
      · exact ⟨_, rfl⟩

theorem cancelStop_pos (s : OrderManager) :
    ∃ basket, (cancelStopLocked host s).pos = { s.pos with basketIdStop := basket } := by
  simp only [cancelStopLocked]
  split
  · exact ⟨s.pos.basketIdStop, rfl⟩
  · exact ⟨_, rfl⟩

/-- Moving the stop order changes the position's stop id at most. -/
theorem updateStop_pos (newSl : ℚ) (force : Bool) (s : OrderManager) :
    ∃ basket, (updateStopOrderLocked host newSl force s).pos =
      { s.pos with basketIdStop := basket } := by
  simp only [updateStopOrderLocked]
  split
  · exact ⟨s.pos.basketIdStop, rfl⟩
  · split
    · exact ⟨s.pos.basketIdStop, rfl⟩
    · split
      · exact submitStop_pos newSl s
      · obtain ⟨first, cancelled⟩ := @cancelStop_pos host { s with stopResubmitPending := true }
        obtain ⟨second, submitted⟩ := @submitStop_pos host newSl
          (cancelStopLocked host { s with stopResubmitPending := true })
        refine ⟨second, ?_⟩
        rw [submitted, cancelled]

theorem cancelOrder_pos (clientId : String) (s : OrderManager) :
    (cancelOrderLocked host clientId s).pos = s.pos := by
  simp only [cancelOrderLocked]
  split <;> rfl

/-! ## Fills -/

variable {s : OrderManager} (now : Int) (basket : String) (fillPrice currentPrice : ℚ)
  (fillQty : Int)

/-- An entry fill keeps the profit that was secured. -/
theorem entryFill_secured (pending : s.pos.state = .pendingEntry) (secured : s.Secured host) :
    (entryFill host now basket fillPrice fillQty s).Secured host := by
  obtain ⟨unmoved, untrailed⟩ := secured.idle (by rw [pending]; rfl)
  simp only [entryFill]
  split
  · exact secured
  · split
    · exact secured
    · have opened : (openedPosition host now fillPrice s).Secured host :=
        .of_unflagged unmoved untrailed fun _ => rfl
      exact opened.restop (submitStop_pos _ _)

/-- A fill while flat leaves the position. -/
theorem flatFill_pos (s : OrderManager) : (flatFill host basket fillPrice s).pos = s.pos := by
  have told : (emit [.flatFill basket] s).pos = s.pos := rfl
  simp only [flatFill]
  generalize emit [.flatFill basket] s = t at told ⊢
  rw [← told]
  split
  · rw [sendUnwind_pos]
    rfl
  · split
    · rw [sendUnwind_pos]
      rfl
    · split
      · rfl
      · split
        · rfl
        · rfl

theorem lateEntryFill_pos (s : OrderManager) :
    (lateEntryFill host basket fillPrice s).pos = s.pos := by
  simp only [lateEntryFill]
  split
  · rw [sendUnwind_pos]
  · rfl

theorem exitFill_secured (secured : s.Secured host) :
    (exitFill host basket fillPrice fillQty s).Secured host := by
  simp only [exitFill]
  split
  · exact secured
  · exact Position.locked_flat host.cfg

/-- A fill gives no locked profit back. -/
theorem onFill_secured (isEntryFill : Bool) (secured : s.Secured host) :
    (onFillNotificationLocked host now basket fillPrice fillQty isEntryFill s).Secured host := by
  have same := accumulateFill_pos basket fillPrice fillQty s
  simp only [onFillNotificationLocked]
  generalize accumulateFill basket fillPrice fillQty s = accumulated at same ⊢
  obtain ⟨c, price⟩ := accumulated
  have still : c.Secured host := by
    rw [Secured, show c.pos = s.pos from same]
    exact secured
  dsimp only
  split
  · split
    · rw [Secured, lateEntryFill_pos]
      exact still
    next pending => exact entryFill_secured now basket price fillQty (not_not.mp pending) still
  · split
    · rw [Secured, flatFill_pos]
      exact still
    · exact exitFill_secured basket price fillQty still

/-! ## Entries and exits -/

/-- A market order keeps the profit that was secured. -/
theorem sendMarketOrder_secured (isBuy : Bool) (refPrice : ℚ) (userTag : String)
    (secured : s.Secured host) :
    (sendMarketOrder host now basket isBuy refPrice userTag s).Secured host := by
  simp only [sendMarketOrder]
  split
  · exact onFill_secured now basket refPrice _ true secured
  · split
    · exact secured
    · split
      · exact secured
      · exact Position.locked_flat host.cfg

theorem openEntry_secured (sig : OrbSignal) (price desiredSlDist : ℚ) (s : OrderManager) :
    (openEntry host now sig price desiredSlDist s).Secured host := by
  simp only [openEntry]
  refine sendMarketOrder_secured now _ _ price "entry" (Position.Locked.of_unflagged rfl rfl ?_)
  rintro (long | short)
  · cases long
  · cases short

theorem reopen_secured (secured : s.Secured host) : s.reopen.Secured host := secured.reopen ""

/-- Starting an exit keeps the profit locked, also where it fails and the stop is placed again. -/
theorem initiateExit_secured (reason : String) (refPrice : ℚ) (secured : s.Secured host) :
    (initiateExitLocked host now reason refPrice s).Secured host := by
  simp only [initiateExitLocked]
  split
  · exact secured
  · have cancelled : (cancelStopLocked host
        { s with slBreachTime := 0, stopResubmitPending := false }).Secured host :=
      secured.restop (cancelStop_pos { s with slBreachTime := 0, stopResubmitPending := false })
    generalize cancelStopLocked host { s with slBreachTime := 0, stopResubmitPending := false } = c
      at cancelled ⊢
    have begun : (beginExit host reason c).Secured host := cancelled.leave _ rfl
    split
    · exact onFill_secured now _ refPrice _ false begun
    · split
      · exact begun
      · split
        · exact begun
        · exact (begun.reopen "").restop (submitStop_pos _ _)

theorem abandonEntry_secured (s : OrderManager) : (abandonEntry host s).Secured host :=
  Position.locked_flat host.cfg

theorem flattenNow_secured (reason : String) (price : ℚ) (secured : s.Secured host) :
    (flattenNow host now reason price s).Secured host := by
  simp only [flattenNow]
  split
  · exact secured
  · exact abandonEntry_secured s
  · exact secured
  · exact initiateExit_secured now reason price secured
  · exact initiateExit_secured now reason price secured

/-- Nor does a signal. -/
theorem onSignal_secured (sig : OrbSignal) (price desiredSlDist : ℚ) (secured : s.Secured host) :
    (onSignal host now sig price desiredSlDist s).Secured host := by
  have entry (sig : OrbSignal) :
      (if s.entryHalted || s.ghostHalted then s
        else if s.risk.canTrade = false then s
        else if s.pos.state ≠ .flat then s
        else openEntry host now sig price desiredSlDist s).Secured host := by
    split_ifs
    · exact secured
    · exact secured
    · exact secured
    · exact openEntry_secured now sig price desiredSlDist s
  cases sig with
  | none => exact secured
  | flattenEod => exact flattenNow_secured now "eod_flatten" price secured
  | buy => exact entry .buy
  | sell => exact entry .sell

/-- The retry of a stuck exit keeps the profit that was secured. -/
theorem retryStuckExit_secured (secured : s.Secured host) :
    (retryStuckExit host now currentPrice s).Secured host := by
  simp only [retryStuckExit]
  split_ifs
  · exact secured
  · exact secured
  · have guarded : (guardExit host s).pos = s.pos := by
      simp only [guardExit]
      split
      · rfl
      · exact cancelOrder_pos _ _
    refine initiateExit_secured now _ _ (reopen_secured ?_)
    rw [Secured, guarded]
    exact secured

theorem adoptExternalClose_secured (refPrice : ℚ) (reason : String) (secured : s.Secured host) :
    (adoptExternalClose host refPrice reason s).Secured host := by
  simp only [adoptExternalClose]
  split
  · exact secured
  · exact Position.locked_flat host.cfg

/-! ## Price checks -/

/-- The excursion only grows. -/
theorem trackExcursion_secured (secured : s.Secured host) :
    (trackExcursion currentPrice s).Secured host := by
  refine ⟨secured.flags, fun moved => ?_, secured.held, secured.faces, secured.kept⟩
  have earned := secured.earned moved
  simp only [trackExcursion]
  generalize (if s.pos.state = .long then currentPrice - s.pos.entryPrice
    else s.pos.entryPrice - currentPrice) = gain
  split
  next more => exact earned.trans more.le
  next => exact earned

/-- A breach check that ends without an exit leaves the trade as it was. -/
theorem checkBreach_secured (secured : s.Secured host) (trading : s.inTrade = true) :
    (checkBreach host now currentPrice s).1.Secured host ∧
      ((checkBreach host now currentPrice s).2 = false →
        (checkBreach host now currentPrice s).1.inTrade = true) := by
  have exits (reason : String) (t : OrderManager) (same : t.pos = s.pos) :
      (initiateExitLocked host now reason currentPrice t).Secured host := by
    refine initiateExit_secured now reason currentPrice ?_
    rw [Secured, same]
    exact secured
  simp only [checkBreach]
  split_ifs
  · exact ⟨exits _ _ rfl, fun kept => absurd kept (by decide)⟩
  · exact ⟨exits _ _ rfl, fun kept => absurd kept (by decide)⟩
  · exact ⟨secured, fun _ => trading⟩
  · exact ⟨exits _ _ rfl, fun kept => absurd kept (by decide)⟩
  · exact ⟨secured, fun _ => trading⟩
  · exact ⟨secured, fun _ => trading⟩

/-- The side that an open position faces is its direction. -/
theorem long_iff_buy (secured : s.Secured host) (trading : s.inTrade = true) :
    s.pos.state = .long ↔ s.pos.direction = .buy := by
  have faces := secured.faces (shield_open trading)
  rw [heldState] at faces
  split at faces
  next buy => exact ⟨fun _ => buy, fun _ => faces⟩
  next other =>
    constructor
    · intro long
      exact absurd (long.symm.trans faces) (by decide)
    · exact fun buy => absurd buy other

theorem breakEvenSl_eq (secured : s.Secured host) (trading : s.inTrade = true) :
    breakEvenSl host s = s.pos.lockLevel host.cfg := by
  have side := long_iff_buy secured trading
  unfold breakEvenSl Position.lockLevel
  by_cases buy : s.pos.direction = .buy
  · rw [if_pos (side.mpr buy), if_pos buy]
  · rw [if_neg fun long => buy (side.mp long), if_neg buy]

/-- A level that improves the stop is at least as tight, and any other is not tighter. -/
theorem improves_tight (secured : s.Secured host) (trading : s.inTrade = true) (level : ℚ) :
    (s.improvesSl level = true → AtLeastAsTight s.pos.direction level s.pos.slPrice) ∧
      (s.improvesSl level = false → AtLeastAsTight s.pos.direction s.pos.slPrice level) := by
  have side := long_iff_buy secured trading
  unfold improvesSl AtLeastAsTight
  by_cases buy : s.pos.direction = .buy
  · rw [if_pos (side.mpr buy), if_pos buy, if_pos buy]
    exact ⟨fun improves => (of_decide_eq_true improves).le,
      fun stays => not_lt.mp (of_decide_eq_false stays)⟩
  · rw [if_neg fun long => buy (side.mp long), if_neg buy, if_neg buy]
    exact ⟨fun improves => (of_decide_eq_true improves).le,
      fun stays => not_lt.mp (of_decide_eq_false stays)⟩

/-- The break-even move is taken as soon as it is earned, and locks its level in. -/
theorem breakEven_secured (secured : s.Secured host) (trading : s.inTrade = true) :
    (breakEven host s).1.Secured host ∧
      (host.cfg.trailBeTrigger ≤ (breakEven host s).1.pos.mfe →
        (breakEven host s).1.pos.beTriggered = true) := by
  have level := breakEvenSl_eq secured trading
  obtain ⟨_, other⟩ := improves_tight secured trading (breakEvenSl host s)
  simp only [breakEven]
  split
  next due =>
    obtain ⟨_, earned⟩ := due
    have flags : s.pos.trailingActive = true → true = true := fun _ => rfl
    have held := s.inTrade_held trading
    split
    next improves =>
      have moved : Position.Locked host.cfg
          { s.pos with
            beTriggered := true, slPrice := breakEvenSl host s, beSlPrice := breakEvenSl host s } :=
        ⟨flags, fun _ => earned, fun _ => held, secured.faces, fun _ => by
          dsimp only
          rw [level]
          exact .refl _ _⟩
      have restopped := @updateStop_pos host (breakEvenSl host s) true
        { s with pos := { s.pos with
            beTriggered := true, slPrice := breakEvenSl host s, beSlPrice := breakEvenSl host s } }
      refine ⟨moved.restop restopped, fun _ => ?_⟩
      obtain ⟨basket, updated⟩ := restopped
      rw [updated]
    next stays =>
      have tight := other (Bool.eq_false_iff.mpr stays)
      rw [level] at tight
      exact ⟨⟨flags, fun _ => earned, fun _ => held, secured.faces, fun _ => tight⟩, fun _ => rfl⟩
  next idle =>
    refine ⟨secured, fun earned => ?_⟩
    by_contra unmoved
    exact idle ⟨Bool.eq_false_iff.mpr unmoved, earned⟩

theorem activateTrail_secured (secured : s.Secured host)
    (taken : host.cfg.trailBeTrigger ≤ s.pos.mfe → s.pos.beTriggered = true) :
    (activateTrail host now s).Secured host := by
  simp only [activateTrail]
  split
  next due =>
    exact ⟨fun _ => taken due.2.2, secured.earned, secured.held, secured.faces, secured.kept⟩
  next => exact secured

/-- Tightening the stop keeps the profit that was secured. -/
theorem tightenStop_secured (level : ℚ) (secured : s.Secured host) (trading : s.inTrade = true) :
    (tightenStop host level s).1.Secured host := by
  simp only [tightenStop]
  split
  next improves =>
    have tighter := (improves_tight secured trading level).1 improves
    have tightened : Position.Locked host.cfg { s.pos with slPrice := level } :=
      ⟨secured.flags, secured.earned, secured.held, secured.faces,
        fun moved => tighter.trans (secured.kept moved)⟩
    exact tightened.restop
      (updateStop_pos level false { s with pos := { s.pos with slPrice := level } })
  · exact secured

theorem trail_secured (secured : s.Secured host) (trading : s.inTrade = true) :
    (trail host currentPrice s).1.Secured host := by
  simp only [trail]
  split
  · exact tightenStop_secured _ secured trading
  · exact secured

/-- The price check gives no locked profit back: its levels only move towards the market. -/
theorem checkTrail_secured (secured : s.Secured host) :
    (checkTrailAndStop host now currentPrice s).1.Secured host := by
  simp only [checkTrailAndStop]
  split
  · exact secured
  next trading =>
    obtain ⟨kept, still⟩ := checkBreach_secured now currentPrice
      (trackExcursion_secured currentPrice secured) (Bool.eq_true_of_not_eq_false trading)
    generalize checkBreach host now currentPrice (trackExcursion currentPrice s) = checked
      at kept still ⊢
    obtain ⟨c, exited⟩ := checked
    cases exited with
    | true => exact kept
    | false =>
      have open_ : c.inTrade = true := still rfl
      simp only [Bool.false_eq_true, ↓reduceIte]
      split
      · exact initiateExit_secured now _ _ (s := { c with slBreachTime := 0 }) kept
      · obtain ⟨raised, taken⟩ := breakEven_secured kept open_
        have raisedOpen : (breakEven host c).1.inTrade = true :=
          (inTrade_of_state (breakEven_state c)).trans open_
        generalize (breakEven host c).1 = b at raised taken raisedOpen ⊢
        have activated := @activateTrail_shield host now b
        exact trail_secured currentPrice (activateTrail_secured now raised taken)
          ((inTrade_of_eq activated).trans raisedOpen)

/-- A strategy's stop is taken only where it is nearer, so it gives nothing back. -/
theorem checkExternal_secured (stratStop : Option ℚ) (secured : s.Secured host) :
    (checkExternalStop host now currentPrice stratStop s).1.Secured host := by
  simp only [checkExternalStop]
  split
  · exact secured
  next trading =>
    obtain ⟨kept, still⟩ := checkBreach_secured now currentPrice
      (trackExcursion_secured currentPrice secured) (Bool.eq_true_of_not_eq_false trading)
    generalize checkBreach host now currentPrice (trackExcursion currentPrice s) = checked
      at kept still ⊢
    obtain ⟨c, exited⟩ := checked
    cases exited with
    | true => exact kept
    | false =>
      have open_ : c.inTrade = true := still rfl
      simp only [Bool.false_eq_true, ↓reduceIte]
      cases stratStop with
      | none => exact kept
      | some level =>
        dsimp only
        split
        · exact tightenStop_secured _ kept open_
        · exact kept

/-! ## Rejections, cancel outcomes and id mappings -/

/-- A rejection keeps the profit that was secured. -/
theorem onOrderRejected_secured (secured : s.Secured host) :
    (onOrderRejected host now basket s).Secured host := by
  simp only [onOrderRejected]
  split
  · exact Position.locked_flat host.cfg
  · split
    · split
      · exact initiateExit_secured now _ _
          (s := { s.reopen with rejectedExitCount := s.rejectedExitCount + 1 })
          (reopen_secured secured)
      · exact reopen_secured secured
    · split
      · exact secured.restop ⟨"", rfl⟩
      · exact secured

/-- A failed cancel keeps the profit locked. -/
theorem onCancelFailed_secured (id : String) (secured : s.Secured host) :
    (onCancelFailed host id s).Secured host := by
  simp only [onCancelFailed]
  generalize (s.serverToClientCancelled.lookup id).getD id = client
  generalize (if (s.serverToClientCancelled.lookup id).isSome then id else "") = server
  split
  · exact secured
  · split
    · exact secured
    · split
      · exact secured
      · split
        · exact secured
        · have kept : (if s.pos.basketIdStop ≠ "" ∧ s.pos.basketIdStop ≠ client then
              cancelStopLocked host { s with stopResubmitPending := false }
              else { s with stopResubmitPending := false }).Secured host := by
            split
            · exact secured.restop (cancelStop_pos { s with stopResubmitPending := false })
            · exact secured
          exact kept.restop ⟨client, rfl⟩

theorem onStopServerMapped_pos (client server : String) (s : OrderManager) :
    (onStopServerMapped host client server s).pos = s.pos := by
  simp only [onStopServerMapped]
  split_ifs <;> rfl

theorem mapServerBasket_pos (client server : String) (s : OrderManager) :
    (mapServerBasket host client server s).pos = s.pos := by
  simp only [mapServerBasket]
  split_ifs <;> rfl

/-! ## Calls and runs -/

/-- No operation of the manager gives the locked profit back. By the operation. -/
theorem perform_secured (call : Call) (secured : s.Secured host) :
    (perform host call s).Secured host := by
  have kept {t : OrderManager} (same : t.pos = s.pos) : t.Secured host := by
    rw [Secured, same]
    exact secured
  obtain ⟨now, op⟩ := call
  cases op with
  | signal sig price dist => exact onSignal_secured now sig price dist secured
  | fill basket price qty isEntry => exact onFill_secured now basket price qty isEntry secured
  | checkTrail price => exact checkTrail_secured now price secured
  | checkExternal price stratStop => exact checkExternal_secured now price stratStop secured
  | flatten reason price => exact flattenNow_secured now reason price secured
  | retryStuckExit price => exact retryStuckExit_secured now price secured
  | entryTimeout secs =>
    simp only [perform, pendingEntryTimeoutCheck]
    split_ifs
    · exact secured
    · exact secured
    · exact secured
    · exact abandonEntry_secured s
  | rejected basket => exact onOrderRejected_secured now basket secured
  | cancelConfirmedByServer server =>
    refine kept ?_
    simp only [perform, onCancelConfirmedByServerBasket]
    split <;> rfl
  | cancelFailed id => exact onCancelFailed_secured id secured
  | stopServerMapped client server => exact kept (onStopServerMapped_pos client server s)
  | mapServer client server => exact kept (mapServerBasket_pos client server s)
  | externalClose refPrice reason => exact adoptExternalClose_secured refPrice reason secured
  | fillProcessed basket qty =>
    refine kept ?_
    simp only [perform, fillAlreadyProcessed]
    split <;> rfl
  | recancel =>
    refine kept ?_
    simp only [perform, recancelPendingStops]
    split <;> rfl
  | popCompleted =>
    refine kept ?_
    simp only [perform, popTradeCompleted]
    split <;> rfl
  | _ => exact secured

/-- In every run, whatever the calls are and in whatever order they come: an active trail has its
break-even move behind it, and that move was earned by the excursion of an open trade whose stop
is still at least as tight as the break-even level. -/
theorem profit_locked (host : Host) (risk : RiskManager) (seq : Nat) (calls : List Call) :
    let s := run (step host) (fresh risk seq) calls
    (s.pos.trailingActive = true → s.pos.beTriggered = true) ∧
      (s.pos.beTriggered = true →
        host.cfg.trailBeTrigger ≤ s.pos.mfe ∧ s.pos.state.isHeld = true ∧
          AtLeastAsTight s.pos.direction s.pos.slPrice (s.pos.lockLevel host.cfg)) := by
  have secured : (run (step host) (fresh risk seq) calls).Secured host :=
    run_invariant (step host) (Secured host) (fun _ _ => True)
      (fun s call kept _ => perform_secured call (s := { s with outbox := [] }) kept)
      (fresh risk seq) calls (Position.locked_flat host.cfg)
      (along_of_forall _ (fun _ _ => trivial) _ calls)
  exact ⟨secured.flags, fun moved => ⟨secured.earned moved, secured.held moved, secured.kept moved⟩⟩

end OrderManager

end RithmicEngine
