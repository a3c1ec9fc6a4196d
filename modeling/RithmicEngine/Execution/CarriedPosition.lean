import RithmicEngine.Execution.SessionCycle
/-!
# The memory of a carried position

A cycle that ends with a position leaves it to the next one. Until a position
snapshot of the account has been processed the process should hold back: no
entries, and no working order of the snapshot of orders is cancelled, since it
may be the position's protective stop. The variable that carries the position is
emptied at the top of a cycle and filled again only where a cycle ends with its
loops running, so a cycle that returns early forgets it. This module follows
what should be remembered beside the process, says which events make the process
forget, and proves that without them it holds back.
-/
namespace RithmicEngine

namespace Executor

variable (host : Host)

/-! ## What an event leaves alone -/

/-- The cycle goes on, keeps a halt and keeps deferring cancels. -/
structure Steady (x y : Executor) : Prop where
  stage : y.stage = x.stage
  running : y.running = x.running
  today : y.today = x.today
  halted : x.session.riskHalted = true → y.session.riskHalted = true
  defers : y.deferSnapshotCancels = x.deferSnapshotCancels

variable {y : Executor} {memory : Memory} (moment : Moment) (net : Int) (update : PositionUpdate)
  (consistent : Bool) (connection : Connection) (notice : OpLoop.OrderNotice) (x : Executor)

theorem Steady.refl : Steady x x := ⟨rfl, rfl, rfl, id, rfl⟩

theorem Steady.trans {x z : Executor} (first : Steady x y) (second : Steady y z) : Steady x z where
  stage := second.stage.trans first.stage
  running := second.running.trans first.running
  today := second.today.trans first.today
  halted := fun halted => second.halted (first.halted halted)
  defers := second.defers.trans first.defers

theorem onManager_steady (operation : OrderManager → OrderManager) (x : Executor) :
    Steady x (x.onManager operation) := ⟨rfl, rfl, rfl, id, rfl⟩

theorem halt_steady (reason : String) (x : Executor) : Steady x (x.halt reason) :=
  ⟨rfl, rfl, rfl, fun _ => rfl, rfl⟩

theorem sendUnwind_steady (qty : Int) (isBuy : Bool) (x : Executor) :
    Steady x (x.sendUnwind host moment qty isBuy).1 := by
  simp only [sendUnwind]
  split
  · exact Steady.refl x
  · exact ⟨rfl, rfl, rfl, id, rfl⟩

theorem cancelLastUnwind_steady : Steady x (x.cancelLastUnwind host) := by
  simp only [cancelLastUnwind]
  split
  · exact Steady.refl x
  · exact ⟨rfl, rfl, rfl, id, rfl⟩

/-- Acting on a mismatch leaves the cycle steady. -/
theorem actOnMismatch_steady : Steady x (x.actOnMismatch host moment net) := by
  simp only [actOnMismatch]
  obtain ⟨y, yIs⟩ : ∃ y, y = { x.halt "exchange_net_mismatch" with netHaltActive := true } :=
    ⟨_, rfl⟩
  rw [← yIs]
  have halted : Steady x y := by
    rw [yIs]
    exact ⟨rfl, rfl, rfl, fun _ => rfl, rfl⟩
  obtain ⟨z, zIs⟩ : ∃ z, z = (if (Notif.planUnwind net x.manager.pos host.cfg.qty).adoptFlat = true
      then y.onManager (OrderManager.adoptExternalClose host moment.lastPrice "external_close")
      else y) := ⟨_, rfl⟩
  rw [← zIs]
  have adopted : Steady y z := by
    rw [zIs]
    split
    · exact onManager_steady _ y
    · exact Steady.refl y
  have cancelled : Steady x (z.cancelLastUnwind host) :=
    (halted.trans adopted).trans (cancelLastUnwind_steady host z)
  split
  · exact cancelled.trans (sendUnwind_steady host moment _ _ _)
  · exact cancelled

theorem confirmBothFlat_steady : Steady x (x.confirmBothFlat net consistent) := by
  simp only [confirmBothFlat]
  split
  · exact onManager_steady _ x
  · exact Steady.refl x

/-- Agreement lifts a halt only after a mismatch was acted on, and only the halts
that a disagreement raised. -/
theorem clearMismatch_steady (stays : x.netHaltActive = true → x.session.awaitsAgreement = false) :
    Steady x (x.clearMismatch net) := by
  simp only [clearMismatch]
  split
  next active =>
    have other : x.session.awaitsAgreement = false := stays active
    split
    · simp only [onManager, other, Bool.false_eq_true, ↓reduceIte]
      exact ⟨rfl, rfl, rfl, id, rfl⟩
    · simp only [other, Bool.false_eq_true, ↓reduceIte]
      exact ⟨rfl, rfl, rfl, id, rfl⟩
  next => exact Steady.refl x

/-- A reconciliation that lifts no halt leaves the cycle steady. -/
theorem reconcileNet_steady
    (stays : consistent = true → x.netHaltActive = true → x.session.awaitsAgreement = false) :
    Steady x (x.reconcileNet host moment net consistent) := by
  simp only [reconcileNet]
  obtain ⟨recon, reconIs⟩ : ∃ recon, recon =
      (x.netRecon.observe consistent moment.nowMs host.cfg.netMismatchGraceMs 15000).1 := ⟨_, rfl⟩
  rw [← reconIs]
  have observed : Steady x { x with netRecon := recon } := ⟨rfl, rfl, rfl, id, rfl⟩
  have confirmed : Steady x (confirmBothFlat net consistent { x with netRecon := recon }) :=
    observed.trans (confirmBothFlat_steady net consistent _)
  split
  next => exact confirmed.trans (actOnMismatch_steady host moment net _)
  next verdict =>
    have agreed : consistent = true := (NetReconciler.observe_ok _ _ _ _ _).mp verdict
    refine confirmed.trans (Steady.trans (y := { confirmBothFlat net consistent
      { x with netRecon := recon } with lastUnwindBasket := "" }) ⟨rfl, rfl, rfl, id, rfl⟩ ?_)
    apply clearMismatch_steady net
    intro active
    have same : (confirmBothFlat net consistent { x with netRecon := recon }).netHaltActive =
        x.netHaltActive ∧
        (confirmBothFlat net consistent { x with netRecon := recon }).session = x.session := by
      simp only [confirmBothFlat]
      split
      · exact ⟨rfl, rfl⟩
      · exact ⟨rfl, rfl⟩
    simp only [same.1] at active
    simp only [same.2]
    exact stays agreed active
  next => exact confirmed

theorem checkBrokerLoss_steady : Steady x (x.checkBrokerLoss host moment update) := by
  simp only [checkBrokerLoss]
  split
  · split
    · exact ⟨rfl, rfl, rfl, fun _ => rfl, rfl⟩
    · exact ⟨rfl, rfl, rfl, fun _ => rfl, rfl⟩
  · exact Steady.refl x

theorem checkBrokerDrawdown_steady : Steady x (x.checkBrokerDrawdown host update) := by
  simp only [checkBrokerDrawdown]
  split
  · exact ⟨rfl, rfl, rfl, fun _ => rfl, rfl⟩
  · exact ⟨rfl, rfl, rfl, id, rfl⟩

/-- A halt for another reason does not wait for agreement. -/
theorem halt_awaitsAgreement {reason : String} (mismatch : reason ≠ "exchange_net_mismatch")
    (unowned : reason ≠ "unowned_fill_in_trade") :
    (x.halt reason).session.awaitsAgreement = false := by
  simp [halt, StrategySession.awaitsAgreement, StrategySession.haltTrading, mismatch, unowned]

/-- The broker's limits leave the disagreement as it is, and replace the reason
of the halt where one of them is newly breached. -/
theorem brokerChecks_disagreement (moment : Moment) (update : PositionUpdate) (x : Executor) :
    let y := (x.checkBrokerLoss host moment update).checkBrokerDrawdown host update
    y.netHaltActive = x.netHaltActive ∧
      (y.session.awaitsAgreement = true → x.session.awaitsAgreement = true ∧
        x.lossBreach host update = false ∧ x.drawdownBreach host update = false) := by
  have mark := checkBrokerLoss_mark host moment update x
  constructor
  · simp only [checkBrokerDrawdown, checkBrokerLoss]
    split_ifs
    all_goals rfl
  · intro awaits
    cases drawdown : x.drawdownBreach host update with
    | true =>
      simp only [checkBrokerDrawdown, mark, drawdown, ↓reduceIte] at awaits
      rw [halt_awaitsAgreement _ (by decide) (by decide)] at awaits
      exact absurd awaits Bool.false_ne_true
    | false =>
      simp only [checkBrokerDrawdown, mark, drawdown, Bool.false_eq_true, ↓reduceIte] at awaits
      cases loss : x.lossBreach host update with
      | true =>
        have other (y : Executor) :
            (y.halt "broker_day_pnl_limit").session.awaitsAgreement = false :=
          halt_awaitsAgreement y (by decide) (by decide)
        simp only [checkBrokerLoss, loss, ↓reduceIte] at awaits
        split at awaits
        · rw [other] at awaits
          exact absurd awaits Bool.false_ne_true
        · simp only [onManager] at awaits
          rw [other] at awaits
          exact absurd awaits Bool.false_ne_true
      | false =>
        simp only [checkBrokerLoss, loss, Bool.false_eq_true, ↓reduceIte] at awaits
        exact ⟨awaits, rfl, rfl⟩

/-- The update finds the exchange consistent after a mismatch that was acted on,
and the halt it lifts is the one a disagreement raised. -/
@[mk_iff]
structure Reconciles (x : Executor) (update : PositionUpdate) : Prop where
  ours : update.accountId = host.cfg.accountId
  consistent : x.manager.netQtyConsistent host update.netQuantity = true
  active : x.netHaltActive = true
  awaits : x.session.awaitsAgreement = true
  noLoss : x.lossBreach host update = false
  noDrawdown : x.drawdownBreach host update = false

/-- An update that is no snapshot lifts a halt only where it reconciles. -/
theorem handlePosUpdate_steady (live : update.isSnapshot = false)
    (stays : ¬Reconciles host x update) : Steady x (x.handlePosUpdate host moment update) := by
  simp only [handlePosUpdate]
  split
  next => exact Steady.refl x
  next ours =>
    simp only [live, Bool.false_eq_true, ↓reduceIte]
    obtain ⟨y, yIs⟩ : ∃ y, y = (x.checkBrokerLoss host moment update).checkBrokerDrawdown host
      update := ⟨_, rfl⟩
    have checked : Steady x y := by
      rw [yIs]
      exact (checkBrokerLoss_steady host moment update x).trans
        (checkBrokerDrawdown_steady host update _)
    obtain ⟨active, awaits⟩ := brokerChecks_disagreement host moment update x
    rw [← yIs] at active awaits ⊢
    refine checked.trans (Steady.trans (y := { y with lastExchNet := some update.netQuantity })
      ⟨rfl, rfl, rfl, id, rfl⟩ ?_)
    apply reconcileNet_steady
    intro consistent acted
    by_contra waits
    obtain ⟨reason, noLoss, noDrawdown⟩ := awaits (by simpa only [Bool.not_eq_false] using waits)
    exact stays ⟨not_not.mp ours, consistent, active ▸ acted, reason, noLoss, noDrawdown⟩

theorem handled_steady (outcome : OpLoop.Handled) (x : Executor) :
    Steady x (x.handled outcome) := by
  refine ⟨rfl, rfl, rfl, ?_, rfl⟩
  intro halted
  simp only [handled]
  generalize x.session = session at halted
  induction outcome.halts generalizing session with
  | nil => exact halted
  | cons reason rest ih => exact ih (session.haltTrading reason) rfl

theorem orderSnapshot_steady : Steady x (x.orderSnapshot host moment notice) := by
  simp only [orderSnapshot]
  split_ifs
  · exact ⟨rfl, rfl, rfl, id, rfl⟩
  · exact ⟨rfl, rfl, rfl, id, rfl⟩
  · exact Steady.refl x
  · exact halt_steady _ x
  · exact Steady.refl x
  · exact Steady.refl x

theorem orderMessage_steady : Steady x (x.orderMessage host moment notice) := by
  simp only [orderMessage]
  split
  · exact orderSnapshot_steady host moment notice x
  · exact handled_steady _ x

/-! ## Where the process is -/

/-- The stage, the process flag and the session date. -/
def place (x : Executor) : Stage × Bool × Option String := (x.stage, x.running, x.today)

theorem Steady.place_eq {x : Executor} (steady : Steady x y) : place y = place x := by
  simp only [place, steady.stage, steady.running, steady.today]

theorem positionSnapshot_place :
    place (x.positionSnapshot host moment net consistent) = place x := by
  simp only [positionSnapshot, snapshotMatches, snapshotGhost, snapshotFlat, unhaltPosition,
    sendUnwind]
  split_ifs
  all_goals rfl

theorem clearMismatch_place : place (x.clearMismatch net) = place x := by
  simp only [clearMismatch]
  split_ifs
  all_goals rfl

/-- Comparing the net position leaves the cycle where it is. -/
theorem reconcileNet_place : place (x.reconcileNet host moment net consistent) = place x := by
  simp only [reconcileNet]
  split
  · exact (actOnMismatch_steady host moment net _).place_eq.trans
      (confirmBothFlat_steady net consistent _).place_eq
  · exact (clearMismatch_place net _).trans (confirmBothFlat_steady net consistent _).place_eq
  · exact (confirmBothFlat_steady net consistent _).place_eq

/-- No position update ends a cycle. -/
theorem handlePosUpdate_place : place (x.handlePosUpdate host moment update) = place x := by
  simp only [handlePosUpdate]
  split
  · rfl
  · have checked : place ((x.checkBrokerLoss host moment update).checkBrokerDrawdown host update) =
        place x :=
      ((checkBrokerLoss_steady host moment update x).trans
        (checkBrokerDrawdown_steady host update _)).place_eq
    refine (reconcileNet_place host moment _ _ _).trans ?_
    split
    · exact (positionSnapshot_place host moment _ _ _).trans checked
    · exact checked

/-! ## What should be remembered -/

/-- The orders whose cancel a step wrote to the order plant itself. -/
def cancelledIn (sent : List Sent) : List String :=
  sent.filterMap fun
    | .cancelOrder basket => some basket
    | .unwind _ => none

/-- A position is carried and not yet accounted for by a snapshot, and the working
orders the snapshot of orders has cancelled in such a time. -/
structure Memory where
  remembered : Bool := false
  cancelled : List String := []
  deriving DecidableEq, Repr

/-- The event is a position snapshot of the account that is being processed. -/
def Accounts (x : Executor) (update : PositionUpdate) : Prop :=
  x.reading host = true ∧ update.isSnapshot = true ∧ update.accountId = host.cfg.accountId
deriving Decidable

/-- The memory after an event: a cycle that ends with a position starts it, a
position snapshot ends it. -/
def memoryAfter (memory : Memory) (x : Executor) (event : Event) (y : Executor) : Memory :=
  match event with
  | .readError | .mainLoopExit =>
    if x.stage = .live ∧ y.stage = .down ∧ x.manager.isFlat = false then
      { memory with remembered := true }
    else memory
  | .position _ update =>
    if Accounts host x update then { memory with remembered := false } else memory
  | .order _ notice =>
    if memory.remembered = true ∧ notice.isSnapshot = true then
      { memory with cancelled := memory.cancelled ++ cancelledIn y.sent }
    else memory
  | _ => memory

/-- While a position is remembered every cycle has entries halted, and no working
order was cancelled from a snapshot of orders. -/
@[mk_iff]
structure HoldsBack (x : Executor) (memory : Memory) : Prop where
  halted : memory.remembered = true → x.stage ≠ .down → x.session.riskHalted = true
  spared : memory.cancelled = []

/-- The events that lose the memory or the halt: a cycle returns early, a cycle
ends while its own order manager is flat, the date rolls over, the ticks resume
after their own halt took the place of the other, or an agreement lifts the halt
of a disagreement. -/
def Forgets (x : Executor) (event : Event) : Prop :=
  match event with
  | .earlyReturn => x.stage = .connecting
  | .readError => x.reading host = true ∧ x.manager.isFlat = true
  | .mainLoopExit => x.stage = .live ∧ x.running = true ∧ x.manager.isFlat = true
  | .rollover date => x.stage = .live ∧ x.today ≠ some date
  | .feedResumed =>
    x.stage = .live ∧ host.cfg.mdFromPg = true ∧ x.pgFeedFresh = false ∧
      x.session.haltReason = "pg_feed_stale"
  | .position _ update =>
    x.reading host = true ∧ update.isSnapshot = false ∧ Reconciles host x update
  | _ => False

/-- Nothing is forgotten while a position is remembered. -/
def Recalls (pair : Executor × Memory) (event : Event) : Prop :=
  pair.2.remembered = true → ¬Forgets host pair.1 event

instance (x : Executor) (update : PositionUpdate) : Decidable (Reconciles host x update) :=
  decidable_of_iff' _ (reconciles_iff ..)

instance (x : Executor) (event : Event) : Decidable (Forgets host x event) := by
  simp only [Forgets]
  split
  all_goals infer_instance

instance (pair : Executor × Memory) (event : Event) : Decidable (Recalls host pair event) :=
  inferInstanceAs (Decidable (_ → ¬_))

/-! ## The invariant -/

/-- Where a remembered position is kept in each stage: in the carried position
between two cycles, in the flag of a connecting cycle, in the deferral of a live
one. The session date is set by then, so no first session resets the halt. -/
structure Keeps (x : Executor) (memory : Memory) : Prop where
  spared : memory.cancelled = []
  dated : x.stage = .live ∨ memory.remembered = true → x.today.isSome = true
  down : memory.remembered = true → x.stage = .down → x.running = true →
    x.carriedPos.state ≠ .flat
  connecting : memory.remembered = true → x.stage = .connecting →
    x.session.riskHalted = true ∧ x.carriedNonflat = true
  live : memory.remembered = true → x.stage = .live →
    x.session.riskHalted = true ∧ x.deferSnapshotCancels = true

theorem Keeps.holdsBack {x : Executor} (keeps : Keeps x memory) : HoldsBack x memory where
  halted := by
    intro remembered up
    cases stage : x.stage with
    | down => exact absurd stage up
    | connecting => exact (keeps.connecting remembered stage).1
    | live => exact (keeps.live remembered stage).1
  spared := keeps.spared

/-- A live cycle that goes on steadily keeps what is remembered. -/
theorem Keeps.steady {x : Executor} (keeps : Keeps x memory) (stage : x.stage = .live)
    (steady : Steady x y) : Keeps y memory where
  spared := keeps.spared
  dated := by
    intro _
    rw [steady.today]
    exact keeps.dated (.inl stage)
  down := by
    intro _ down
    rw [steady.stage, stage] at down
    exact absurd down (by decide)
  connecting := by
    intro _ connecting
    rw [steady.stage, stage] at connecting
    exact absurd connecting (by decide)
  live := by
    intro remembered _
    obtain ⟨halted, defers⟩ := keeps.live remembered stage
    exact ⟨steady.halted halted, steady.defers.trans defers⟩

/-- Nothing is kept once nothing is remembered, except the date of a live cycle. -/
theorem keeps_of_forgotten {x : Executor} (spared : memory.cancelled = [])
    (dated : x.stage = .live → x.today.isSome = true) (forgotten : memory.remembered = false) :
    Keeps x memory where
  spared := spared
  dated := by
    rintro (live | remembered)
    · exact dated live
    · exact absurd (forgotten.symm.trans remembered) Bool.false_ne_true
  down := fun remembered => absurd (forgotten.symm.trans remembered) Bool.false_ne_true
  connecting := fun remembered => absurd (forgotten.symm.trans remembered) Bool.false_ne_true
  live := fun remembered => absurd (forgotten.symm.trans remembered) Bool.false_ne_true

/-- A new cycle halts entries for a carried position and takes over its memory. -/
theorem keeps_start (history : Option AccountHistory) {x : Executor} (keeps : Keeps x memory)
    (down : x.stage = .down) (running : x.running = true) :
    Keeps (x.startCycle host history) memory where
  spared := keeps.spared
  dated := by
    rintro (live | remembered)
    · exact absurd live (by simp [startCycle])
    · exact keeps.dated (.inr remembered)
  down := by
    intro _ stage
    exact absurd stage (by simp [startCycle])
  connecting := by
    intro remembered _
    have carried : x.carriedPos.state ≠ .flat := keeps.down remembered down running
    simp [startCycle, carried]
  live := by
    intro _ stage
    exact absurd stage (by simp [startCycle])

theorem freshStart_place :
    place (x.freshStart host connection) = (x.stage, x.running, some connection.date) := by
  simp only [freshStart]
  split
  · rfl
  · rfl

/-- A connected cycle is live and has a session date. -/
theorem connect_place :
    (x.connect host connection).stage = .live ∧
      (x.connect host connection).today.isSome = true := by
  simp only [connect]
  obtain ⟨y, yIs⟩ : ∃ y, y = { x with
    stage := Stage.live
    pnlConnected := connection.pnlConnected && !host.cfg.dryRun } := ⟨_, rfl⟩
  rw [← yIs]
  obtain ⟨z, zIs⟩ : ∃ z, z = (if host.cfg.dryRun = false ∧ connection.pnlConnected = false then
    y.halt "pnl_plant_unavailable" else y) := ⟨_, rfl⟩
  rw [← zIs]
  have stage : z.stage = .live := by
    rw [zIs, yIs]
    split
    · rfl
    · rfl
  split
  next =>
    have placed := freshStart_place host connection { z with
      deferSnapshotCancels := z.carriedNonflat
      brokerHwm := Notif.brokerHwm connection.accountHwm host.cfg.startingBalance none }
    simp only [place, Prod.mk.injEq] at placed
    refine ⟨placed.1.trans stage, ?_⟩
    rw [placed.2.2]
    rfl
  next known =>
    refine ⟨stage, ?_⟩
    rw [← Option.not_isNone]
    simpa only [Bool.not_eq_true, Bool.not_eq_eq_eq_not, Bool.not_true] using known

/-- A connected cycle of a remembered position defers, and it is no first session. -/
theorem keeps_connect {x : Executor} (keeps : Keeps x memory) (connecting : x.stage = .connecting) :
    Keeps (x.connect host connection) memory := by
  obtain ⟨stage, dated⟩ := connect_place host connection x
  refine ⟨keeps.spared, fun _ => dated, ?_, ?_, ?_⟩
  · intro _ down
    exact absurd (stage.symm.trans down) (by decide)
  · intro _ again
    exact absurd (stage.symm.trans again) (by decide)
  · intro remembered _
    obtain ⟨halted, carried⟩ := keeps.connecting remembered connecting
    have known : x.today.isNone = false := by
      have some := keeps.dated (.inr remembered)
      rw [← Option.not_isNone] at some
      simpa only [Bool.not_eq_true'] using some
    simp only [connect]
    split
    · simp only [halt, known, Bool.false_eq_true, ↓reduceIte]
      exact ⟨rfl, carried⟩
    · simp only [known, Bool.false_eq_true, ↓reduceIte]
      exact ⟨halted, carried⟩

/-- A cycle that ends with a position passes it on. -/
theorem keeps_endCycle {x : Executor} (keeps : Keeps x memory) (live : x.stage = .live)
    (remembered : Bool) (holds : remembered = true → x.manager.isFlat = false) :
    Keeps x.endCycle { memory with remembered := remembered } where
  spared := keeps.spared
  dated := by
    intro _
    exact keeps.dated (.inl live)
  down := by
    intro kept _ _ flat
    have nonflat : x.manager.isFlat = false := holds kept
    simp only [OrderManager.isFlat, decide_eq_false_iff_not] at nonflat
    exact nonflat flat
  connecting := by
    intro _ stage
    exact absurd stage (by simp [endCycle])
  live := by
    intro _ stage
    exact absurd stage (by simp [endCycle])

/-- A cycle that ends while it remembers a position ends with one, or forgets it. -/
theorem keeps_ended {x : Executor} (keeps : Keeps x memory) (live : x.stage = .live)
    (recalls : memory.remembered = true → ¬x.manager.isFlat = true) :
    Keeps x.endCycle
      (if x.stage = .live ∧ x.endCycle.stage = .down ∧ x.manager.isFlat = false then
        { memory with remembered := true }
      else memory) := by
  have down : x.endCycle.stage = .down := rfl
  simp only [live, down, true_and]
  split
  next nonflat => exact keeps_endCycle keeps live true (fun _ => nonflat)
  next flat =>
    apply keeps_endCycle keeps live memory.remembered
    intro remembered
    exact Bool.eq_false_iff.mpr (recalls remembered)

/-- A cycle that goes on starts no memory. -/
theorem keeps_going {x : Executor} (keeps : Keeps y memory) (same : y.stage = x.stage) :
    Keeps y
      (if x.stage = .live ∧ y.stage = .down ∧ x.manager.isFlat = false then
        { memory with remembered := true }
      else memory) := by
  have up : ¬(x.stage = .live ∧ y.stage = .down ∧ x.manager.isFlat = false) := by
    rintro ⟨live, down, -⟩
    rw [same, live] at down
    exact absurd down (by decide)
  rw [if_neg up]
  exact keeps

/-- A cycle that is cut off while connecting, or a process that stops: nothing is
lost that a later cycle would have needed. -/
theorem keeps_down {x : Executor} (keeps : Keeps x memory)
    (later : memory.remembered = true → x.running = true → x.carriedPos.state ≠ .flat) :
    Keeps { x with stage := .down } memory where
  spared := keeps.spared
  dated := by
    rintro (live | remembered)
    · exact absurd live (by simp)
    · exact keeps.dated (.inr remembered)
  down := fun remembered _ running => later remembered running
  connecting := by
    intro _ stage
    exact absurd stage (by simp)
  live := by
    intro _ stage
    exact absurd stage (by simp)

theorem reading_live {x : Executor} (reads : x.reading host = true) : x.stage = .live := by
  simp only [reading, Bool.and_eq_true, decide_eq_true_eq] at reads
  exact reads.1

/-- A position update keeps what is remembered, or accounts for it. -/
theorem keeps_position {x : Executor} (keeps : Keeps x memory) (reads : x.reading host = true)
    (recalls : memory.remembered = true → ¬Forgets host x (.position moment update)) :
    Keeps (x.handlePosUpdate host moment update)
      (memoryAfter host memory x (.position moment update)
        (x.handlePosUpdate host moment update)) := by
  have live : x.stage = .live := reading_live host reads
  have placed := handlePosUpdate_place host moment update x
  simp only [place, Prod.mk.injEq] at placed
  have dated : (x.handlePosUpdate host moment update).stage = .live →
      (x.handlePosUpdate host moment update).today.isSome = true := by
    intro _
    rw [placed.2.2]
    exact keeps.dated (.inl live)
  simp only [memoryAfter]
  split
  next => exact keeps_of_forgotten keeps.spared dated rfl
  next unaccounted =>
    cases remembered : memory.remembered with
    | false => exact keeps_of_forgotten keeps.spared dated remembered
    | true =>
      cases snapshot : update.isSnapshot with
      | true =>
        have other : update.accountId ≠ host.cfg.accountId := by
          intro ours
          exact unaccounted ⟨reads, snapshot, ours⟩
        simp only [handlePosUpdate, ne_eq, other, not_false_eq_true, ↓reduceIte]
        exact keeps
      | false =>
        apply keeps.steady live
        apply handlePosUpdate_steady host moment update x snapshot
        intro reconciles
        exact recalls remembered ⟨reads, snapshot, reconciles⟩

/-- While a position is remembered the snapshot of orders cancels nothing. -/
theorem orderSnapshot_sent {x : Executor} (defers : x.deferSnapshotCancels = true) :
    (x.orderSnapshot host moment notice).sent = x.sent := by
  simp only [orderSnapshot, defers, ↓reduceIte]
  split_ifs
  all_goals rfl

/-- One event that forgets nothing. -/
theorem Keeps.perform (event : Event) {x : Executor} (keeps : Keeps x memory) (quiet : x.sent = [])
    (recalls : memory.remembered = true → ¬Forgets host x event) :
    Keeps (perform host event x) (memoryAfter host memory x event (perform host event x)) := by
  cases event with
  | start history =>
    simp only [Executor.perform, memoryAfter]
    split
    next idle => exact keeps_start host history keeps idle.1 idle.2
    next => exact keeps
  | earlyReturn =>
    simp only [Executor.perform, memoryAfter]
    split
    next connecting =>
      refine keeps_down keeps ?_
      intro remembered _
      exact absurd connecting (recalls remembered)
    next => exact keeps
  | stopped =>
    simp only [Executor.perform, memoryAfter]
    have halted : Keeps { x with running := false } memory :=
      ⟨keeps.spared, keeps.dated, fun _ _ running => absurd running Bool.false_ne_true,
        keeps.connecting, keeps.live⟩
    exact keeps_down halted fun _ running => absurd running Bool.false_ne_true
  | connected connection =>
    simp only [Executor.perform, memoryAfter]
    split
    next connecting => exact keeps_connect host connection keeps connecting
    next => exact keeps
  | order moment notice =>
    simp only [Executor.perform]
    split
    next reads =>
      have live : x.stage = .live := reading_live host reads
      have after : Keeps (x.orderMessage host moment notice) memory :=
        keeps.steady live (orderMessage_steady host moment notice x)
      simp only [memoryAfter]
      split
      next noted =>
        have sent : (x.orderMessage host moment notice).sent = [] := by
          simp only [orderMessage, noted.2, ↓reduceIte]
          exact (orderSnapshot_sent host moment notice (keeps.live noted.1 live).2).trans quiet
        simp only [sent, cancelledIn, List.filterMap_nil, List.append_nil]
        exact after
      next => exact after
    next =>
      simp only [memoryAfter, quiet, cancelledIn, List.filterMap_nil, List.append_nil, ite_self]
      exact keeps
  | exchange moment notice =>
    simp only [Executor.perform, memoryAfter]
    split
    next reads => exact keeps.steady (reading_live host reads) (handled_steady _ x)
    next => exact keeps
  | response moment basketId rpCode =>
    simp only [Executor.perform, memoryAfter]
    split
    next reads => exact keeps.steady (reading_live host reads) (handled_steady _ x)
    next => exact keeps
  | position moment update =>
    simp only [Executor.perform]
    split
    next reads => exact keeps_position host moment update keeps reads recalls
    next unread =>
      have unaccounted : ¬Accounts host x update := fun accounts => unread accounts.1
      simp only [memoryAfter, unaccounted, ↓reduceIte]
      exact keeps
  | pnlResponse rpCode =>
    simp only [Executor.perform, memoryAfter]
    split
    next rejected => exact keeps.steady rejected.1 (halt_steady _ x)
    next => exact keeps
  | recheck moment =>
    simp only [Executor.perform, memoryAfter]
    split
    next => exact keeps
    next net _ =>
      split
      next again =>
        apply keeps.steady again.1
        exact reconcileNet_steady host moment net false x (fun agrees => by cases agrees)
      next => exact keeps
  | call call =>
    simp only [Executor.perform, memoryAfter]
    split
    next live => exact keeps.steady live.1 (onManager_steady _ x)
    next => exact keeps
  | feedStale =>
    simp only [Executor.perform, memoryAfter]
    split
    next stale => exact keeps.steady stale.1 ⟨rfl, rfl, rfl, fun _ => rfl, rfl⟩
    next => exact keeps
  | feedResumed =>
    simp only [Executor.perform, memoryAfter]
    split
    next resumed =>
      cases remembered : memory.remembered with
      | false =>
        have dated : x.today.isSome = true := keeps.dated (.inl resumed.1)
        refine keeps_of_forgotten keeps.spared ?_ remembered
        intro _
        simp only [Executor.feedResumed]
        split
        · exact dated
        · exact dated
      | true =>
        have other : x.session.haltReason ≠ "pg_feed_stale" := by
          intro stale
          exact recalls remembered ⟨resumed.1, resumed.2.1, resumed.2.2, stale⟩
        apply keeps.steady resumed.1
        simp only [Executor.feedResumed, other, and_false, ↓reduceIte]
        exact ⟨rfl, rfl, rfl, id, rfl⟩
    next => exact keeps
  | rollover date =>
    simp only [Executor.perform, memoryAfter]
    split
    next rolls =>
      cases remembered : memory.remembered with
      | false => exact keeps_of_forgotten keeps.spared (fun _ => rfl) remembered
      | true => exact absurd rolls (recalls remembered)
    next => exact keeps
  | shutdown moment =>
    simp only [Executor.perform, memoryAfter]
    split
    next live =>
      refine ⟨keeps.spared, fun _ => keeps.dated (.inl live), ?_, ?_, ?_⟩
      · intro _ _ running
        exact absurd running Bool.false_ne_true
      · intro _ connecting
        exact absurd (live.symm.trans connecting) (by decide)
      · intro remembered _
        exact ⟨rfl, (keeps.live remembered live).2⟩
    next => exact keeps
  | drained =>
    simp only [Executor.perform, memoryAfter]
    split
    next stopped =>
      refine keeps_down keeps ?_
      intro _ running
      exact absurd (stopped.symm.trans running) Bool.false_ne_true
    next => exact keeps
  | readError =>
    simp only [Executor.perform]
    split
    next reads =>
      refine keeps_ended keeps (reading_live host reads) ?_
      intro remembered flat
      exact recalls remembered ⟨reads, flat⟩
    next => exact keeps_going keeps rfl
  | mainLoopExit =>
    simp only [Executor.perform]
    split
    next live =>
      split
      next running =>
        refine keeps_ended keeps live ?_
        intro remembered flat
        exact recalls remembered ⟨live, running, flat⟩
      next =>
        exact keeps_going (keeps.steady live ⟨rfl, rfl, rfl, id, rfl⟩) rfl
    next => exact keeps_going keeps rfl

/-- One step that forgets nothing. -/
theorem Keeps.step {x : Executor} {memory : Memory} (keeps : Keeps x memory) (event : Event)
    (recalls : Recalls host (x, memory) event) :
    Keeps (step host x event) (memoryAfter host memory x event (step host x event)) := by
  have cleared : Keeps { x with sent := [], manager := { x.manager with outbox := [] } } memory :=
    ⟨keeps.spared, keeps.dated, keeps.down, keeps.connecting, keeps.live⟩
  have same : memoryAfter host memory x event (Executor.step host x event) =
      memoryAfter host memory { x with sent := [], manager := { x.manager with outbox := [] } }
        event (Executor.step host x event) := rfl
  rw [same]
  apply Keeps.perform host event cleared rfl
  intro remembered forgets
  apply recalls remembered
  cases event with
  | position moment update =>
    obtain ⟨reads, live, reconciles⟩ := forgets
    exact ⟨reads, live, reconciles.ours, reconciles.consistent, reconciles.active,
      reconciles.awaits, reconciles.noLoss, reconciles.noDrawdown⟩
  | _ => exact forgets

/-! ## Runs -/

/-- The process before its first cycle. -/
def fresh (risk : RiskManager) : Executor where
  manager := OrderManager.fresh risk 0

/-- A run of the process beside what should be remembered. -/
def remember (host : Host) (risk : RiskManager) (events : List Event) : Executor × Memory :=
  Runs.run (Runs.observe (step host) (memoryAfter host)) (fresh risk, {}) events

/-- In a run in which nothing is forgotten while a position is carried, every
cycle until the position snapshot has entries halted, and the snapshot of orders
cancels no working order. -/
theorem carried_position_held_back (host : Host) (risk : RiskManager) (events : List Event)
    (recalls : Runs.Along (Runs.observe (step host) (memoryAfter host)) (Recalls host)
      (fresh risk, {})
      events) :
    HoldsBack (remember host risk events).1 (remember host risk events).2 := by
  have initial : Keeps (fresh risk) {} := by
    refine keeps_of_forgotten rfl ?_ rfl
    intro live
    exact absurd live (by simp [fresh])
  have kept : Keeps (remember host risk events).1 (remember host risk events).2 := by
    refine Runs.run_invariant (Runs.observe (step host) (memoryAfter host))
      (fun pair => Keeps pair.1 pair.2) (Recalls host) ?_ (fresh risk, {}) events initial recalls
    intro pair event keeps nothing
    exact keeps.step host event nothing
  exact kept.holdsBack

instance (x : Executor) (memory : Memory) : Decidable (HoldsBack x memory) :=
  decidable_of_iff' _ (holdsBack_iff ..)

/-- The fill of an entry at 20000. -/
def entryFilled : OpLoop.OrderNotice where
  userTag := "MNQ-0-0"
  basketId := "entry"
  totalFillSize := 1
  avgFillPrice := 20000

/-- A cycle that opens a position with its stop and is then cut off. -/
def tradeCutOff : List Event :=
  [.start none, .connected { date := "2026-10-01" }, .call { op := .signal .buy 20000 0 },
    .order {} entryFilled, .readError]

/-- The stop as the snapshot of orders reports it. -/
def stopSnapshot : OpLoop.OrderNotice where
  userTag := "MNQ-0-1"
  basketId := "stop"
  symbol := "MNQ"
  totalUnfilledSize := 1
  isSnapshot := true

/-- The next cycle connects at once: the stop's cancel is deferred. -/
theorem reconnect_held_back :
    HoldsBack (remember .accepting {} (tradeCutOff ++ [.start none, .connected {},
        .order {} stopSnapshot])).1
      (remember .accepting {} (tradeCutOff ++ [.start none, .connected {},
        .order {} stopSnapshot])).2 ∧
    (remember .accepting {} (tradeCutOff ++ [.start none, .connected {},
        .order {} stopSnapshot])).2.remembered = true ∧
    (remember .accepting {} (tradeCutOff ++ [.start none, .connected {},
        .order {} stopSnapshot])).1.deferredSnapshotCancels = ["stop"] :=
  ⟨carried_position_held_back .accepting {} _ (by decide +kernel), by decide +kernel,
    by decide +kernel⟩

/-- One connection attempt in between fails: the cycle after it cancels the stop
of the position that is still open. -/
theorem failed_reconnect_cancels_stop :
    ¬HoldsBack (remember .accepting {} (tradeCutOff ++ [.start none, .earlyReturn, .start none,
        .connected {}, .order {} stopSnapshot])).1
      (remember .accepting {} (tradeCutOff ++ [.start none, .earlyReturn, .start none,
        .connected {}, .order {} stopSnapshot])).2 := by
  decide +kernel

end Executor

end RithmicEngine
