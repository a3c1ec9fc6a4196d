import RithmicEngine.Execution.LedgerRefinement
/-!
# Under which ids orders are cancelled

The manager cancels its stop by the server id where it knows one, an entry or an exit
by the server id that its table of orders gives, and a guard by the server id under
which its cancel is on record. Most operations cancel no other order than the stop, and
they leave it, none, or one that they placed; what they compose to does the same.
-/
namespace RithmicEngine.OrderManager

variable {host : Host}

/-- The ids of the cancels among the effects. -/
def cancelsIn (effects : List Effect) : List String :=
  effects.filterMap fun
    | .cancel id => some id
    | _ => none

@[simp] theorem cancelsIn_nil : cancelsIn [] = [] := rfl

@[simp] theorem cancelsIn_append (first second : List Effect) :
    cancelsIn (first ++ second) = cancelsIn first ++ cancelsIn second :=
  List.filterMap_append

@[simp] theorem cancelsIn_order (role : OrderRole) (request : OrderRequest) (taken : Bool) :
    cancelsIn [.order role request taken] = [] := rfl

@[simp] theorem cancelsIn_cancel (id : String) : cancelsIn [.cancel id] = [id] := rfl

@[simp] theorem cancelsIn_flatFill (basket : String) : cancelsIn [.flatFill basket] = [] := rfl

@[simp] theorem cancelsIn_persistNotice (basket : String) (wasBuyStop : Bool) :
    cancelsIn (host.persistNotice basket wasBuyStop) = [] := by
  rw [Host.persistNotice]
  split
  · rfl
  · rfl

@[simp] theorem cancelsIn_removeNotice (basket : String) :
    cancelsIn (host.removeNotice basket) = [] := by
  rw [Host.removeNotice]
  split
  · rfl
  · rfl

@[simp] theorem cancelsIn_persistServerNotice (client server : String) :
    cancelsIn (host.persistServerNotice client server) = [] := by
  rw [Host.persistServerNotice]
  split
  · rfl
  · rfl

@[simp] theorem cancelsIn_removeNotices (baskets : List String) :
    cancelsIn (baskets.flatMap host.removeNotice) = [] := by
  induction baskets with
  | nil => rfl
  | cons basket rest ih =>
    rw [List.flatMap_cons, cancelsIn_append, ih, cancelsIn_removeNotice, List.append_nil]

theorem cancelsIn_cancels (ids : List String) : cancelsIn (ids.map Effect.cancel) = ids := by
  induction ids with
  | nil => rfl
  | cons id rest ih =>
    rw [List.map_cons, ← List.singleton_append, cancelsIn_append, ih, cancelsIn_cancel,
      List.singleton_append]

/-! ## Operations that cancel the stop only -/

/-- The id under which the stop would be cancelled, or one of a stop still to be placed. -/
def StopId (host : Host) (s : OrderManager) (id : String) : Prop :=
  (s.pos.basketIdStop ≠ "" ∧
      id = if s.stopServerBasket = "" then s.pos.basketIdStop else s.stopServerBasket) ∨
    ∃ n, s.seq ≤ n ∧ id = host.basketId n

/-- The stop and the exit are two orders, and neither is still to be placed. -/
structure Distinct (host : Host) (s : OrderManager) : Prop where
  apart : s.pos.basketIdStop ≠ "" → s.pos.basketIdExit ≠ s.pos.basketIdStop
  placed : ∀ n, s.seq ≤ n →
    s.pos.basketIdStop ≠ host.basketId n ∧ s.pos.basketIdExit ≠ host.basketId n

theorem distinct_of_shape {s : OrderManager} (shape : s.ledger.Shape)
    (fresh : s.ledger.Fresh host) : s.Distinct host where
  apart := by
    intro stopped
    have none : s.pos.basketIdExit = "" := (shape.held (shape.open_of_stop stopped)).1
    rw [none]
    exact stopped.symm
  placed := fun n low => ⟨(fresh n low).stop.symm, (fresh n low).exit.symm⟩

/-- The order is the stop, the exit, or still to be placed. -/
def Current (host : Host) (s : OrderManager) (order : String) : Prop :=
  order ≠ "" ∧ (order = s.pos.basketIdStop ∨ order = s.pos.basketIdExit ∨
    ∃ n, s.seq ≤ n ∧ order = host.basketId n)

/-- The cancel is of the stop, or of one placed since, and that order is no longer
current. -/
def Retired (host : Host) (s t : OrderManager) (id : String) : Prop :=
  (s.pos.basketIdStop ≠ "" ∧
      (id = if s.stopServerBasket = "" then s.pos.basketIdStop else s.stopServerBasket) ∧
      ¬t.Current host s.pos.basketIdStop) ∨
    ∃ n, s.seq ≤ n ∧ id = host.basketId n ∧ ¬t.Current host (host.basketId n)

variable {t : OrderManager} (now : Int) (basket : String) (fillPrice currentPrice : ℚ)
  (fillQty : Int) (s : OrderManager)

theorem Retired.stopId {s : OrderManager} {id : String} (retired : Retired host s t id) :
    s.StopId host id :=
  retired.imp (fun stop => ⟨stop.1, stop.2.1⟩) fun ⟨n, later, same, _⟩ => ⟨n, later, same⟩

/-- Between two states no other order than the stop is cancelled, and it is not current
afterwards; the stop and the exit are the same, none, or new ones, and no order waits
newly for its server id. -/
structure Withdraws (host : Host) (s t : OrderManager) : Prop where
  later : s.seq ≤ t.seq
  stop : t.pos.basketIdStop = "" ∨
    (t.pos.basketIdStop = s.pos.basketIdStop ∧ t.stopServerBasket = s.stopServerBasket) ∨
    ∃ n, s.seq ≤ n ∧ t.pos.basketIdStop = host.basketId n ∧ t.stopServerBasket = ""
  exit : t.pos.basketIdExit = "" ∨ t.pos.basketIdExit = s.pos.basketIdExit ∨
    ∃ n, s.seq ≤ n ∧ t.pos.basketIdExit = host.basketId n
  waits : t.unmappedOrderCancels = s.unmappedOrderCancels
  distinct : s.Distinct host → t.Distinct host
  cancels : s.Distinct host → ∀ id ∈ cancelsIn t.outbox,
    id ∈ cancelsIn s.outbox ∨ Retired host s t id

/-- What is current afterwards was current before. -/
theorem Withdraws.current {s : OrderManager} (withdraws : Withdraws host s t) {order : String}
    (current : t.Current host order) : s.Current host order := by
  obtain ⟨known, stop | exit | ⟨n, low, named⟩⟩ := current
  · refine ⟨known, ?_⟩
    rcases withdraws.stop with none | same | ⟨n, low, fresh⟩
    · exact absurd (stop.trans none) known
    · exact Or.inl (stop.trans same.1)
    · exact Or.inr (Or.inr ⟨n, low, stop.trans fresh.1⟩)
  · refine ⟨known, ?_⟩
    rcases withdraws.exit with none | same | ⟨n, low, fresh⟩
    · exact absurd (exit.trans none) known
    · exact Or.inr (Or.inl (exit.trans same))
    · exact Or.inr (Or.inr ⟨n, low, exit.trans fresh⟩)
  · exact ⟨known, Or.inr (Or.inr ⟨n, withdraws.later.trans low, named⟩)⟩

theorem Withdraws.refl : Withdraws host s s where
  later := Nat.le_refl _
  stop := Or.inr (Or.inl ⟨rfl, rfl⟩)
  exit := Or.inr (Or.inl rfl)
  waits := rfl
  distinct := id
  cancels := fun _ _ inside => Or.inl inside

/-- Two stretches that cancel no order but the stop compose. -/
theorem Withdraws.trans {s u : OrderManager} (first : Withdraws host s t)
    (second : Withdraws host t u) : Withdraws host s u where
  later := first.later.trans second.later
  stop := by
    rcases second.stop with none | ⟨stop, server⟩ | ⟨n, low, fresh⟩
    · exact Or.inl none
    · rw [stop, server]
      exact first.stop
    · exact Or.inr (Or.inr ⟨n, first.later.trans low, fresh⟩)
  exit := by
    rcases second.exit with none | same | ⟨n, low, fresh⟩
    · exact Or.inl none
    · rw [same]
      exact first.exit
    · exact Or.inr (Or.inr ⟨n, first.later.trans low, fresh⟩)
  waits := second.waits.trans first.waits
  distinct := fun distinct => second.distinct (first.distinct distinct)
  cancels := by
    intro distinct id inside
    rcases second.cancels (first.distinct distinct) id inside with before | retired
    · refine (first.cancels distinct id before).imp_right fun retired => ?_
      exact retired.imp (fun ⟨stopped, named, gone⟩ => ⟨stopped, named, gone ∘ second.current⟩)
        fun ⟨n, low, named, gone⟩ => ⟨n, low, named, gone ∘ second.current⟩
    · right
      rcases retired with ⟨stopped, named, gone⟩ | ⟨n, low, named, gone⟩
      · rcases first.stop with none | ⟨stop, server⟩ | ⟨n, low, fresh, unmapped⟩
        · exact absurd none stopped
        · rw [stop, server] at named
          rw [stop] at stopped gone
          exact Or.inl ⟨stopped, named, gone⟩
        · rw [if_pos unmapped, fresh] at named
          rw [fresh] at gone
          exact Or.inr ⟨n, low, named, gone⟩
      · exact Or.inr ⟨n, first.later.trans low, named, gone⟩

/-- No cancel is sent, and the stop and the exit stay or go. -/
theorem withdraws_of_quiet {s : OrderManager} (quiet : cancelsIn t.outbox = cancelsIn s.outbox)
    (later : s.seq ≤ t.seq)
    (stop : t.pos.basketIdStop = "" ∨ (t.pos.basketIdStop = s.pos.basketIdStop ∧
      t.stopServerBasket = s.stopServerBasket))
    (exit : t.pos.basketIdExit = "" ∨ t.pos.basketIdExit = s.pos.basketIdExit)
    (waits : t.unmappedOrderCancels = s.unmappedOrderCancels) : Withdraws host s t where
  later := later
  stop := stop.imp_right Or.inl
  exit := exit.imp_right Or.inl
  waits := waits
  distinct := by
    rintro ⟨apart, placed⟩
    constructor
    · intro stopped
      have same := (stop.resolve_left stopped).1
      rw [same]
      rcases exit with none | kept
      · rw [none]
        exact fun clash => stopped (same.trans clash.symm)
      · rw [kept]
        exact apart (same ▸ stopped)
    · intro n low
      have known := host.basketId_ne_empty n
      obtain ⟨stop', exit'⟩ := placed n (later.trans low)
      constructor
      · rcases stop with none | ⟨same, _⟩
        · rw [none]
          exact known.symm
        · rw [same]
          exact stop'
      · rcases exit with none | same
        · rw [none]
          exact known.symm
        · rw [same]
          exact exit'
  cancels := by
    intro _ id inside
    rw [quiet] at inside
    exact Or.inl inside

/-- Placing a stop withdraws nothing. -/
theorem submitStop_withdraws (slPrice : ℚ) (s : OrderManager) :
    Withdraws host s (submitStopOrderLocked host slPrice s) := by
  simp only [submitStopOrderLocked]
  split
  · exact .refl s
  · split
    · exact .refl s
    · split
      · refine ⟨Nat.le_succ s.seq, Or.inr (Or.inr ⟨s.seq, Nat.le_refl _, rfl, rfl⟩),
          Or.inr (Or.inl rfl), rfl, ?_, ?_⟩
        · rintro ⟨apart, placed⟩
          refine ⟨fun _ => (placed s.seq (Nat.le_refl _)).2, fun n low => ⟨?_, ?_⟩⟩
          · exact fun same => absurd (host.basketId_injective same) (Nat.ne_of_lt low)
          · exact (placed n (Nat.le_of_succ_le low)).2
        · intro _ id inside
          simp only [cancelsIn_append, cancelsIn_order, cancelsIn_persistNotice, List.append_nil]
            at inside
          exact Or.inl inside
      · refine withdraws_of_quiet ?_ (Nat.le_succ s.seq) (Or.inl rfl) (Or.inr rfl) rfl
        simp

/-- Cancelling the stop takes it off the record, so it is not current afterwards. -/
theorem cancelStop_withdraws : Withdraws host s (cancelStopLocked host s) := by
  simp only [cancelStopLocked]
  split
  · exact .refl s
  next sends =>
    have known := host.basketId_ne_empty
    refine ⟨Nat.le_refl _, Or.inl rfl, Or.inr (Or.inl rfl), rfl, ?_, ?_⟩
    · rintro ⟨apart, placed⟩
      refine ⟨fun stopped => absurd rfl stopped, fun n low => ⟨?_, (placed n low).2⟩⟩
      exact (known n).symm
    · rintro ⟨apart, placed⟩ id inside
      have silent : cancelsIn (if s.stopServerBasket = "" then [] else
          host.persistServerNotice s.pos.basketIdStop s.stopServerBasket) = [] := by
        split
        · rfl
        · exact cancelsIn_persistServerNotice _ _
      simp only [cancelsIn_append, silent, cancelsIn_cancel, cancelsIn_persistNotice,
        List.append_nil, List.mem_append, List.mem_singleton] at inside
      have stopped := (not_or.mp sends).1
      refine inside.imp_right fun named => Or.inl ⟨stopped, named, ?_⟩
      rintro ⟨_, none | exit | ⟨n, low, fresh⟩⟩
      · exact stopped none
      · exact apart stopped exit.symm
      · exact (placed n low).1 fresh

/-- Replacing the stop cancels no other order. -/
theorem updateStop_withdraws (newSl : ℚ) (force : Bool) (s : OrderManager) :
    Withdraws host s (updateStopOrderLocked host newSl force s) := by
  simp only [updateStopOrderLocked]
  split
  · exact .refl s
  · split
    · exact .refl s
    · split
      · exact submitStop_withdraws newSl s
      · have marked : Withdraws host s { s with stopResubmitPending := true } :=
          withdraws_of_quiet rfl (Nat.le_refl _) (Or.inr ⟨rfl, rfl⟩) (Or.inr rfl) rfl
        exact (marked.trans (cancelStop_withdraws _)).trans (submitStop_withdraws newSl _)

/-- An unwind cancels nothing. -/
theorem sendUnwind_withdraws (fired : String) (fillPrice : ℚ) (unwindIsBuy : Bool)
    (userTag : String) (register : Bool) (s : OrderManager) :
    Withdraws host s (sendUnwind host fired fillPrice unwindIsBuy userTag register s) := by
  simp only [sendUnwind]
  split
  · exact .refl s
  · refine withdraws_of_quiet ?_ (Nat.le_succ s.seq) (Or.inr ⟨rfl, rfl⟩) (Or.inr rfl) rfl
    simp

theorem accumulateFill_withdraws (basket : String) (fillPrice : ℚ) (fillQty : Int)
    (s : OrderManager) : Withdraws host s (accumulateFill basket fillPrice fillQty s).1 := by
  simp only [accumulateFill]
  split
  · exact withdraws_of_quiet rfl (Nat.le_refl _) (Or.inr ⟨rfl, rfl⟩) (Or.inr rfl) rfl
  · exact .refl s

/-! ## Fills -/

/-- An entry fill cancels no other order than the stop. -/
theorem entryFill_withdraws : Withdraws host s (entryFill host now basket fillPrice fillQty s) := by
  simp only [entryFill]
  split
  · exact .refl s
  · split
    · exact .refl s
    · have opened : Withdraws host s (openedPosition host now fillPrice s) :=
        withdraws_of_quiet rfl (Nat.le_refl _) (Or.inr ⟨rfl, rfl⟩) (Or.inr rfl) rfl
      exact opened.trans (submitStop_withdraws _ _)

theorem lateEntryFill_withdraws : Withdraws host s (lateEntryFill host basket fillPrice s) := by
  simp only [lateEntryFill]
  split
  · have cleared : Withdraws host s { s with pendingCancelBasket := "" } :=
      withdraws_of_quiet rfl (Nat.le_refl _) (Or.inr ⟨rfl, rfl⟩) (Or.inr rfl) rfl
    exact cleared.trans (sendUnwind_withdraws _ _ _ _ _ _)
  · exact .refl s

theorem dropFiredGuard_withdraws : Withdraws host s (dropFiredGuard host basket s) := by
  refine withdraws_of_quiet ?_ (Nat.le_refl _) (Or.inr ⟨rfl, rfl⟩) (Or.inr rfl) rfl
  simp [dropFiredGuard, emit, eraseServerCancelForClientLocked]

/-- A fill while flat withdraws nothing: it may send an unwind. -/
theorem flatFill_withdraws : Withdraws host s (flatFill host basket fillPrice s) := by
  have noted : Withdraws host s (emit [.flatFill basket] s) := by
    refine withdraws_of_quiet ?_ (Nat.le_refl _) (Or.inr ⟨rfl, rfl⟩) (Or.inr rfl) rfl
    simp [emit]
  simp only [flatFill]
  generalize emit [.flatFill basket] s = c at noted ⊢
  refine noted.trans ?_
  split
  · have cleared : Withdraws host c { c with lastStopForUnwind := "" } :=
      withdraws_of_quiet rfl (Nat.le_refl _) (Or.inr ⟨rfl, rfl⟩) (Or.inr rfl) rfl
    exact (cleared.trans (dropFiredGuard_withdraws basket _)).trans
      (sendUnwind_withdraws _ _ _ _ _ _)
  · split
    · exact (dropFiredGuard_withdraws basket c).trans (sendUnwind_withdraws _ _ _ _ _ _)
    · split
      · exact withdraws_of_quiet rfl (Nat.le_refl _) (Or.inr ⟨rfl, rfl⟩) (Or.inr rfl) rfl
      · split
        · exact .refl c
        · exact withdraws_of_quiet rfl (Nat.le_refl _) (Or.inr ⟨rfl, rfl⟩) (Or.inr rfl) rfl

/-- An exit fill cancels no order but the stop. -/
theorem exitFill_withdraws : Withdraws host s (exitFill host basket fillPrice fillQty s) := by
  simp only [exitFill]
  split
  · exact .refl s
  · have dropped : Withdraws host s (dropFilledGuard host basket s) := by
      simp only [dropFilledGuard]
      split
      · refine withdraws_of_quiet ?_ (Nat.le_refl _) (Or.inr ⟨rfl, rfl⟩) (Or.inr rfl) rfl
        simp
      · exact .refl s
    generalize dropFilledGuard host basket s = c at dropped ⊢
    have booked : Withdraws host c (bookExit host basket fillPrice c) :=
      withdraws_of_quiet rfl (Nat.le_refl _) (Or.inr ⟨rfl, rfl⟩) (Or.inr rfl) rfl
    generalize bookExit host basket fillPrice c = d at booked ⊢
    have settled : Withdraws host d (settleStop host basket d) := by
      simp only [settleStop]
      split
      · exact .refl d
      · split
        · exact cancelStop_withdraws d
        · refine withdraws_of_quiet ?_ (Nat.le_refl _) (Or.inr ⟨rfl, rfl⟩) (Or.inr rfl) rfl
          simp [emit]
    generalize settleStop host basket d = e at settled ⊢
    have cleaned : Withdraws host e (dropStaleGuard host basket e) := by
      simp only [dropStaleGuard]
      split
      · refine withdraws_of_quiet ?_ (Nat.le_refl _) (Or.inr ⟨rfl, rfl⟩) (Or.inr rfl) rfl
        simp [eraseServerCancelForClientLocked, emit]
      · exact .refl e
    generalize dropStaleGuard host basket e = f at cleaned ⊢
    have closed : Withdraws host f (purgeGuards host (finishClose fillPrice f)) := by
      refine withdraws_of_quiet ?_ (Nat.le_refl _) (Or.inl rfl) (Or.inl rfl) rfl
      simp [purgeGuards, finishClose]
    exact (((dropped.trans booked).trans settled).trans cleaned).trans closed

/-- A fill cancels no other order than the stop. -/
theorem onFill_withdraws (isEntryFill : Bool) (s : OrderManager) :
    Withdraws host s (onFillNotificationLocked host now basket fillPrice fillQty
      isEntryFill s) := by
  have averaged := @accumulateFill_withdraws host basket fillPrice fillQty s
  simp only [onFillNotificationLocked]
  generalize accumulateFill basket fillPrice fillQty s = acc at averaged ⊢
  obtain ⟨c, price⟩ := acc
  refine averaged.trans ?_
  split
  · split
    · exact lateEntryFill_withdraws basket price c
    · exact entryFill_withdraws now basket price fillQty c
  · split
    · exact flatFill_withdraws basket price c
    · exact exitFill_withdraws basket price fillQty c

/-! ## Entries, exits and price checks -/

/-- A market order cancels nothing. -/
theorem sendMarketOrder_withdraws (isBuy : Bool) (refPrice : ℚ) (userTag : String)
    (s : OrderManager) :
    Withdraws host s (sendMarketOrder host now basket isBuy refPrice userTag s) := by
  simp only [sendMarketOrder]
  split
  · exact onFill_withdraws now basket refPrice s.pos.qty true s
  · split
    · exact .refl s
    · split
      · refine withdraws_of_quiet ?_ (Nat.le_refl _) (Or.inr ⟨rfl, rfl⟩) (Or.inr rfl) rfl
        simp [emit]
      · refine withdraws_of_quiet ?_ (Nat.le_refl _) (Or.inl rfl) (Or.inl rfl) rfl
        simp [emit]

theorem openEntry_withdraws (sig : OrbSignal) (price desiredSlDist : ℚ) (s : OrderManager) :
    Withdraws host s (openEntry host now sig price desiredSlDist s) := by
  simp only [openEntry]
  refine Withdraws.trans ?_ (sendMarketOrder_withdraws _ _ _ _ _ _)
  exact withdraws_of_quiet rfl (Nat.le_succ s.seq) (Or.inl rfl) (Or.inl rfl) rfl

theorem revertExit_withdraws : Withdraws host s (revertExit host s) := by
  have reopened : Withdraws host s s.exitRefused :=
    withdraws_of_quiet rfl (Nat.le_refl _) (Or.inr ⟨rfl, rfl⟩) (Or.inl rfl) rfl
  exact reopened.trans (submitStop_withdraws _ _)

/-- An exit that begins cancels at most the stop. -/
theorem beginExit_withdraws (reason : String) (s : OrderManager) :
    Withdraws host s (beginExit host reason s) where
  later := Nat.le_succ s.seq
  stop := Or.inr (Or.inl ⟨rfl, rfl⟩)
  exit := Or.inr (Or.inr ⟨s.seq, Nat.le_refl _, rfl⟩)
  waits := rfl
  distinct := by
    rintro ⟨apart, placed⟩
    refine ⟨fun _ => (placed s.seq (Nat.le_refl _)).1.symm, fun n low => ⟨?_, ?_⟩⟩
    · exact (placed n (Nat.le_of_succ_le low)).1
    · exact fun same => absurd (host.basketId_injective same) (Nat.ne_of_lt low)
  cancels := fun _ _ inside => Or.inl inside

/-- Starting an exit cancels the stop, and a failed exit places a new one. -/
theorem initiateExit_withdraws (now : Int) (reason : String) (refPrice : ℚ) (s : OrderManager) :
    Withdraws host s (initiateExitLocked host now reason refPrice s) := by
  simp only [initiateExitLocked]
  split
  · exact .refl s
  · have marked : Withdraws host s { s with slBreachTime := 0, stopResubmitPending := false } :=
      withdraws_of_quiet rfl (Nat.le_refl _) (Or.inr ⟨rfl, rfl⟩) (Or.inr rfl) rfl
    have cancelled := marked.trans (cancelStop_withdraws _)
    generalize cancelStopLocked host { s with slBreachTime := 0, stopResubmitPending := false } = c
      at cancelled ⊢
    have begun := @beginExit_withdraws host reason c
    have closing := cancelled.trans begun
    generalize beginExit host reason c = d at closing ⊢
    split
    · exact closing.trans (onFill_withdraws _ _ _ _ _ d)
    · split
      · exact closing
      · have sent (request : OrderRequest) (taken : Bool) :
            Withdraws host d (emit [.order .exit request taken] d) := by
          refine withdraws_of_quiet ?_ (Nat.le_refl _) (Or.inr ⟨rfl, rfl⟩) (Or.inr rfl) rfl
          simp [emit]
        split
        · exact closing.trans (sent _ _)
        · exact (closing.trans (sent _ _)).trans (revertExit_withdraws _)

/-- The software stop cancels no order but the stop. -/
theorem checkBreach_withdraws (now : Int) (currentPrice : ℚ) (s : OrderManager) :
    Withdraws host s (checkBreach host now currentPrice s).1 := by
  have marked {t : OrderManager} (outbox : t.outbox = s.outbox) (seq : t.seq = s.seq)
      (position : t.pos = s.pos) (server : t.stopServerBasket = s.stopServerBasket)
      (waits : t.unmappedOrderCancels = s.unmappedOrderCancels) :
      Withdraws host s t :=
    withdraws_of_quiet (by rw [outbox]) seq.ge (Or.inr ⟨by rw [position], server⟩)
      (Or.inr (by rw [position])) waits
  simp only [checkBreach]
  split_ifs
  · refine Withdraws.trans ?_ (initiateExit_withdraws _ _ _ _)
    exact marked rfl rfl rfl rfl rfl
  · refine Withdraws.trans ?_ (initiateExit_withdraws _ _ _ _)
    exact marked rfl rfl rfl rfl rfl
  · exact marked rfl rfl rfl rfl rfl
  · refine Withdraws.trans ?_ (initiateExit_withdraws _ _ _ _)
    exact marked rfl rfl rfl rfl rfl
  · exact .refl s
  · exact marked rfl rfl rfl rfl rfl

theorem tightenStop_withdraws (level : ℚ) (s : OrderManager) :
    Withdraws host s (tightenStop host level s).1 := by
  simp only [tightenStop]
  split
  · refine Withdraws.trans ?_ (updateStop_withdraws _ _ _)
    exact withdraws_of_quiet rfl (Nat.le_refl _) (Or.inr ⟨rfl, rfl⟩) (Or.inr rfl) rfl
  · exact .refl s

theorem breakEven_withdraws : Withdraws host s (breakEven host s).1 := by
  simp only [breakEven]
  split
  · split
    · refine Withdraws.trans ?_ (updateStop_withdraws _ _ _)
      exact withdraws_of_quiet rfl (Nat.le_refl _) (Or.inr ⟨rfl, rfl⟩) (Or.inr rfl) rfl
    · exact withdraws_of_quiet rfl (Nat.le_refl _) (Or.inr ⟨rfl, rfl⟩) (Or.inr rfl) rfl
  · exact .refl s

theorem activateTrail_withdraws : Withdraws host s (activateTrail host now s) := by
  simp only [activateTrail]
  split
  · exact withdraws_of_quiet rfl (Nat.le_refl _) (Or.inr ⟨rfl, rfl⟩) (Or.inr rfl) rfl
  · exact .refl s

theorem trail_withdraws : Withdraws host s (trail host currentPrice s).1 := by
  simp only [trail]
  split
  · exact tightenStop_withdraws _ s
  · exact .refl s

theorem trackExcursion_withdraws : Withdraws host s (trackExcursion currentPrice s) :=
  withdraws_of_quiet rfl (Nat.le_refl _) (Or.inr ⟨rfl, rfl⟩) (Or.inr rfl) rfl

/-- Nor does the price check. -/
theorem checkTrail_withdraws : Withdraws host s (checkTrailAndStop host now currentPrice s).1 := by
  have breached := (trackExcursion_withdraws currentPrice s).trans
    (@checkBreach_withdraws host now currentPrice (trackExcursion currentPrice s))
  simp only [checkTrailAndStop]
  generalize checkBreach host now currentPrice (trackExcursion currentPrice s) = result
    at breached ⊢
  obtain ⟨c, exited⟩ := result
  split
  · exact .refl s
  · split
    · exact breached
    · split
      · refine breached.trans (Withdraws.trans ?_ (initiateExit_withdraws _ _ _ _))
        exact withdraws_of_quiet rfl (Nat.le_refl _) (Or.inr ⟨rfl, rfl⟩) (Or.inr rfl) rfl
      · have raised := breached.trans (breakEven_withdraws c)
        exact (raised.trans (activateTrail_withdraws now _)).trans (trail_withdraws _ _)

/-- The strategy's stop, taken over or passed by the price, cancels at most the stop order. -/
theorem checkExternal_withdraws (stratStop : Option ℚ) (s : OrderManager) :
    Withdraws host s (checkExternalStop host now currentPrice stratStop s).1 := by
  have breached := (trackExcursion_withdraws currentPrice s).trans
    (@checkBreach_withdraws host now currentPrice (trackExcursion currentPrice s))
  simp only [checkExternalStop]
  generalize checkBreach host now currentPrice (trackExcursion currentPrice s) = result
    at breached ⊢
  obtain ⟨c, exited⟩ := result
  split
  · exact .refl s
  · split
    · exact breached
    · split
      · exact breached
      · split
        · exact breached.trans (tightenStop_withdraws _ c)
        · exact breached

/-- A rejection cancels no order but the stop. -/
theorem onOrderRejected_withdraws : Withdraws host s (onOrderRejected host now basket s) := by
  simp only [onOrderRejected]
  split
  · exact withdraws_of_quiet rfl (Nat.le_refl _) (Or.inl rfl) (Or.inl rfl) rfl
  · split
    · split
      · refine Withdraws.trans ?_ (initiateExit_withdraws _ _ _ _)
        exact withdraws_of_quiet rfl (Nat.le_refl _) (Or.inr ⟨rfl, rfl⟩) (Or.inl rfl) rfl
      · exact withdraws_of_quiet rfl (Nat.le_refl _) (Or.inr ⟨rfl, rfl⟩) (Or.inl rfl) rfl
    · split
      · refine withdraws_of_quiet ?_ (Nat.le_refl _) (Or.inl rfl) (Or.inr rfl) rfl
        simp
      · exact .refl s

theorem adoptExternalClose_withdraws (refPrice : ℚ) (reason : String) (s : OrderManager) :
    Withdraws host s (adoptExternalClose host refPrice reason s) := by
  simp only [adoptExternalClose]
  split
  · exact .refl s
  · exact (cancelStop_withdraws s).trans
      (withdraws_of_quiet rfl (Nat.le_refl _) (Or.inl rfl) (Or.inl rfl) rfl)

/-! ## What one call cancels -/

/-- The ids that one call cancels beside those of the stop: a pending entry's or a stuck
exit's, those of the guards when they are sent again, and a server id that was
reported. -/
def OtherId (s : OrderManager) (op : Op) (id : String) : Prop :=
  match op with
  | .signal _ _ _ | .flatten _ _ | .entryTimeout _ =>
    s.pos.state = .pendingEntry ∧ id = s.cancelIdForLocked s.pos.basketIdEntry
  | .retryStuckExit _ =>
    s.pos.state = .pendingExit ∧ s.pos.basketIdExit ≠ "" ∧
      id = s.cancelIdForLocked s.pos.basketIdExit
  | .recancel =>
    id ∈ s.serverToClientCancelled ∨
      (id ∈ s.cancelledStops ∧ s.serverToClientCancelled.hasValue id = false)
  | .stopServerMapped client server | .mapServer client server =>
    client ≠ "" ∧ server ≠ "" ∧ id = server
  | _ => False

/-- Giving up an entry cancels the entry at most. -/
theorem abandonEntry_cancels (id : String) (inside : id ∈ cancelsIn (abandonEntry host s).outbox) :
    id ∈ cancelsIn s.outbox ∨ id = s.cancelIdForLocked s.pos.basketIdEntry := by
  simp only [abandonEntry, cancelOrderLocked] at inside
  split at inside
  · exact Or.inl inside
  · simp only [cancelsIn_append, cancelsIn_cancel, List.mem_append, List.mem_singleton] at inside
    exact inside

/-- A flatten cancels the stop, or the entry that is still pending. -/
theorem flattenNow_cancels (reason : String) (price : ℚ) (s : OrderManager)
    (distinct : s.Distinct host) (id : String)
    (inside : id ∈ cancelsIn (flattenNow host now reason price s).outbox) :
    id ∈ cancelsIn s.outbox ∨ s.StopId host id ∨
      (s.pos.state = .pendingEntry ∧ id = s.cancelIdForLocked s.pos.basketIdEntry) := by
  simp only [flattenNow] at inside
  split at inside
  · exact Or.inl inside
  next pending =>
    exact (abandonEntry_cancels s id inside).imp_right fun named => Or.inr ⟨pending, named⟩
  · exact Or.inl inside
  · exact ((initiateExit_withdraws _ _ _ s).cancels distinct id inside).imp_right
      fun retired => Or.inl retired.stopId
  · exact ((initiateExit_withdraws _ _ _ s).cancels distinct id inside).imp_right
      fun retired => Or.inl retired.stopId

/-- Filing the exit as a guard cancels the exit alone. -/
theorem guardExit_cancels (id : String) (inside : id ∈ cancelsIn (guardExit host s).outbox) :
    id ∈ cancelsIn s.outbox ∨
      (s.pos.basketIdExit ≠ "" ∧ id = s.cancelIdForLocked s.pos.basketIdExit) := by
  simp only [guardExit, cancelOrderLocked] at inside
  split at inside
  · exact Or.inl inside
  next known =>
    split at inside
    · simp only [cancelsIn_append, cancelsIn_persistNotice, List.append_nil] at inside
      exact Or.inl inside
    · simp only [cancelsIn_append, cancelsIn_persistNotice, List.append_nil, cancelsIn_cancel,
        List.mem_append, List.mem_singleton, cancelIdForLocked] at inside
      exact inside.imp_right fun named => ⟨known, named⟩

/-- Guarding an exit leaves the stop, the exit and the next order number. -/
theorem guardExit_stop (s : OrderManager) :
    (guardExit host s).pos.basketIdStop = s.pos.basketIdStop ∧
      (guardExit host s).pos.basketIdExit = s.pos.basketIdExit ∧
      (guardExit host s).stopServerBasket = s.stopServerBasket ∧
      (guardExit host s).seq = s.seq := by
  simp only [guardExit, cancelOrderLocked]
  split
  · exact ⟨rfl, rfl, rfl, rfl⟩
  · split
    · exact ⟨rfl, rfl, rfl, rfl⟩
    · exact ⟨rfl, rfl, rfl, rfl⟩

theorem readoptStop_cancels (client server : String) (s : OrderManager) :
    cancelsIn (readoptStop host client server s).outbox = cancelsIn s.outbox := by
  simp [readoptStop]

/-- A failed cancel sends no cancel but of the stop. -/
theorem onCancelFailed_cancels (failed : String) (s : OrderManager) (distinct : s.Distinct host)
    (id : String) (inside : id ∈ cancelsIn (onCancelFailed host failed s).outbox) :
    id ∈ cancelsIn s.outbox ∨ s.StopId host id := by
  have marked : Withdraws host s { s with stopResubmitPending := false } :=
    withdraws_of_quiet rfl (Nat.le_refl _) (Or.inr ⟨rfl, rfl⟩) (Or.inr rfl) rfl
  have roomy := marked.trans (cancelStop_withdraws _)
  simp only [onCancelFailed] at inside
  generalize (if (s.serverToClientCancelled.lookup failed).isSome = true then failed else "") =
    server at inside
  generalize (s.serverToClientCancelled.lookup failed).getD failed = client at inside
  split_ifs at inside
  · exact Or.inl inside
  · exact Or.inl inside
  · exact Or.inl inside
  · rw [readoptStop_cancels] at inside
    exact (roomy.cancels distinct id inside).imp_right Retired.stopId
  · rw [readoptStop_cancels] at inside
    exact Or.inl inside
  · exact Or.inl inside

/-- What the cancels of one call name. -/
theorem perform_cancels (call : Call) (s : OrderManager) (distinct : s.Distinct host) (id : String)
    (inside : id ∈ cancelsIn (perform host call s).outbox) :
    id ∈ cancelsIn s.outbox ∨ s.StopId host id ∨ s.OtherId call.op id := by
  have withdrawn {t : OrderManager} (withdraws : Withdraws host s t)
      (sent : id ∈ cancelsIn t.outbox) :
      id ∈ cancelsIn s.outbox ∨ s.StopId host id ∨ s.OtherId call.op id :=
    (withdraws.cancels distinct id sent).imp_right fun retired => Or.inl retired.stopId
  obtain ⟨now, op⟩ := call
  cases op with
  | signal sig price dist =>
    simp only [perform, onSignal] at inside
    split at inside
    · exact flattenNow_cancels _ _ _ s distinct id inside
    · exact Or.inl inside
    · split_ifs at inside
      · exact Or.inl inside
      · exact Or.inl inside
      · exact Or.inl inside
      · exact withdrawn (openEntry_withdraws _ _ _ _ s) inside
    · split_ifs at inside
      · exact Or.inl inside
      · exact Or.inl inside
      · exact Or.inl inside
      · exact withdrawn (openEntry_withdraws _ _ _ _ s) inside
  | fill basket price qty isEntry => exact withdrawn (onFill_withdraws _ _ _ _ _ s) inside
  | checkTrail price => exact withdrawn (checkTrail_withdraws _ _ s) inside
  | checkExternal price stratStop => exact withdrawn (checkExternal_withdraws _ _ _ s) inside
  | flatten reason price => exact flattenNow_cancels _ _ _ s distinct id inside
  | retryStuckExit price =>
    simp only [perform, retryStuckExit] at inside
    split at inside
    · exact Or.inl inside
    next closing =>
      split at inside
      · exact Or.inl inside
      · obtain ⟨stop, exit, server, seq⟩ := @guardExit_stop host s
        have opened : Withdraws host (guardExit host s) (guardExit host s).reopen :=
          withdraws_of_quiet rfl (Nat.le_refl _) (Or.inr ⟨rfl, rfl⟩) (Or.inl rfl) rfl
        have kept : (guardExit host s).Distinct host := by
          constructor
          · rw [stop, exit]
            exact distinct.apart
          · rw [stop, exit, seq]
            exact distinct.placed
        have sent := ((opened.trans (initiateExit_withdraws _ _ _ _)).cancels kept id
          inside).imp_right Retired.stopId
        rcases sent with before | named
        · refine (guardExit_cancels s id before).imp_right fun exit => Or.inr ?_
          exact ⟨not_not.mp closing, exit⟩
        · simp only [StopId, stop, server, seq] at named
          exact Or.inr (Or.inl named)
  | entryTimeout secs =>
    simp only [perform, pendingEntryTimeoutCheck] at inside
    split at inside
    · exact Or.inl inside
    next pending =>
      split at inside
      · exact Or.inl inside
      · split at inside
        · exact Or.inl inside
        · refine (abandonEntry_cancels s id inside).imp_right fun named => Or.inr ?_
          exact ⟨not_not.mp pending, named⟩
  | rejected basket => exact withdrawn (onOrderRejected_withdraws _ _ s) inside
  | cancelConfirmed basket =>
    simp only [perform, onCancelConfirmed, cancelsIn_append, cancelsIn_removeNotice,
      List.append_nil] at inside
    exact Or.inl inside
  | cancelConfirmedByServer server =>
    simp only [perform, onCancelConfirmedByServerBasket] at inside
    split at inside
    · exact Or.inl inside
    · simp only [cancelsIn_append, cancelsIn_removeNotice, List.append_nil] at inside
      exact Or.inl inside
  | cancelFailed failed =>
    exact (onCancelFailed_cancels failed s distinct id inside).imp_right Or.inl
  | stopServerMapped client server =>
    simp only [perform, onStopServerMapped] at inside
    split at inside
    · exact Or.inl inside
    next given =>
      have known := not_or.mp given
      split_ifs at inside
      · simp only [cancelsIn_append, cancelsIn_persistServerNotice, List.append_nil] at inside
        exact Or.inl inside
      · exact Or.inl inside
      · exact Or.inl inside
      · simp only [cancelsIn_append, cancelsIn_persistServerNotice, List.append_nil,
          List.mem_append, Host.cancelNotice] at inside
        refine inside.imp_right fun sent => Or.inr ⟨known.1, known.2, ?_⟩
        split at sent
        · exact List.mem_singleton.mp sent
        · exact absurd sent List.not_mem_nil
      · exact Or.inl inside
  | mapServer client server =>
    simp only [perform, mapServerBasket] at inside
    split at inside
    · exact Or.inl inside
    next given =>
      have known := not_or.mp given
      split at inside
      · simp only [cancelsIn_append, List.mem_append, Host.cancelNotice] at inside
        refine inside.imp_right fun sent => Or.inr ⟨known.1, known.2, ?_⟩
        split at sent
        · exact List.mem_singleton.mp sent
        · exact absurd sent List.not_mem_nil
      · exact Or.inl inside
  | externalClose price reason => exact withdrawn (adoptExternalClose_withdraws _ _ s) inside
  | fillProcessed basket qty =>
    simp only [perform, fillAlreadyProcessed] at inside
    split at inside
    · exact Or.inl inside
    · exact Or.inl inside
  | recancel =>
    simp only [perform, recancelPendingStops] at inside
    split at inside
    · exact Or.inl inside
    · simp only [emit, cancelsIn_append, cancelsIn_cancels, List.mem_append, List.mem_filter,
        Bool.not_eq_true'] at inside
      exact inside.imp_right Or.inr
  | popCompleted =>
    simp only [perform, popTradeCompleted] at inside
    split at inside
    · exact Or.inl inside
    · exact Or.inl inside
  | _ => exact Or.inl inside

end RithmicEngine.OrderManager
