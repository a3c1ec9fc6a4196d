import RithmicEngine.Base.Runs
import RithmicEngine.Execution.CarriedPosition
import RithmicEngine.Execution.CycleBooks
/-!
# The causes of a halt

Every cause halts the strategy through one flag and one reason, and a new cause
overwrites the reason of the one before. Beside a run stand the causes that were
raised and not yet resolved: ticks that resume resolve a stale feed, an update in
which the exchange agrees resolves a mismatch and an unowned fill, and a position
snapshot that settles what the exchange holds resolves the causes of a start and of
a reconnect. Nothing resolves the others.

The executor lifts the halt by the reason text, at a ghost position whose unwind was
sent whatever the text is, and with every reset of the session. The drill, which
halts every cycle it runs in, is a parameter.
-/
namespace RithmicEngine

namespace Executor

variable (host : Host)

/-! ## The session after each operation -/

variable {consistent : Bool} {update : PositionUpdate} (drill : Bool) (moment : Moment) (net : Int)
  (connection : Connection) (x : Executor)

theorem sendUnwind_session (qty : Int) (isBuy : Bool) (x : Executor) :
    (x.sendUnwind host moment qty isBuy).1.session = x.session := by
  simp only [sendUnwind]
  split
  · rfl
  · rfl

theorem cancelLastUnwind_session : (x.cancelLastUnwind host).session = x.session := by
  simp only [cancelLastUnwind]
  split
  · rfl
  · rfl

theorem actOnMismatch_session :
    (x.actOnMismatch host moment net).session = x.session.haltTrading "exchange_net_mismatch" := by
  simp only [actOnMismatch]
  split
  · rw [sendUnwind_session, cancelLastUnwind_session]
    split
    · rfl
    · rfl
  · rw [cancelLastUnwind_session]
    split
    · rfl
    · rfl

theorem confirmBothFlat_keeps (consistent : Bool) (x : Executor) :
    (x.confirmBothFlat net consistent).session = x.session ∧
      (x.confirmBothFlat net consistent).netHaltActive = x.netHaltActive := by
  simp only [confirmBothFlat]
  split
  · exact ⟨rfl, rfl⟩
  · exact ⟨rfl, rfl⟩

/-- The agreement after an acted mismatch lifts a halt of a disagreement. -/
theorem clearMismatch_session :
    (x.clearMismatch net).session =
      if x.netHaltActive = true ∧ x.session.awaitsAgreement = true then x.session.unhaltTrading
      else x.session := by
  cases active : x.netHaltActive with
  | false => simp [clearMismatch, active]
  | true =>
    have kept (y : Executor) (same : y.session = x.session) :
        (if y.session.awaitsAgreement = true then { y with session := y.session.unhaltTrading }
          else y).session =
        if x.session.awaitsAgreement = true then x.session.unhaltTrading else x.session := by
      rw [same]
      split
      · rfl
      · exact same
    simp only [clearMismatch, active, ↓reduceIte, true_and]
    apply kept
    split
    · rfl
    · rfl

/-- What the reconciler says to an observation of the net position. -/
def netVerdict (moment : Moment) (consistent : Bool) (x : Executor) : Verdict :=
  (x.netRecon.observe consistent moment.nowMs host.cfg.netMismatchGraceMs 15000).2

/-- The session after a reconciliation, by its verdict: halted, resumed or as it was. -/
theorem reconcileNet_session (consistent : Bool) (x : Executor) :
    (x.reconcileNet host moment net consistent).session =
      if x.netVerdict host moment consistent = .mismatchAct then
        x.session.haltTrading "exchange_net_mismatch"
      else if consistent = true ∧ x.netHaltActive = true ∧ x.session.awaitsAgreement = true then
        x.session.unhaltTrading
      else x.session := by
  simp only [reconcileNet]
  obtain ⟨y, yIs⟩ : ∃ y, y = confirmBothFlat net consistent
      { x with netRecon := (x.netRecon.observe consistent moment.nowMs
        host.cfg.netMismatchGraceMs 15000).1 } := ⟨_, rfl⟩
  have keeps : y.session = x.session ∧ y.netHaltActive = x.netHaltActive := by
    rw [yIs]
    exact confirmBothFlat_keeps net consistent _
  obtain ⟨kept, active⟩ := keeps
  rw [← yIs]
  have agreed := NetReconciler.observe_ok consistent moment.nowMs host.cfg.netMismatchGraceMs 15000
    x.netRecon
  split
  next act =>
    have acts : x.netVerdict host moment consistent = .mismatchAct := act
    rw [if_pos acts, actOnMismatch_session, kept]
  next ok =>
    have rests : x.netVerdict host moment consistent ≠ .mismatchAct := by
      rw [netVerdict, ok]
      decide
    rw [if_neg rests, clearMismatch_session]
    simp [kept, active, agreed.mp ok]
  next wait =>
    have rests : x.netVerdict host moment consistent ≠ .mismatchAct := by
      rw [netVerdict, wait]
      decide
    have apart : consistent = false := by
      by_contra other
      rw [agreed.mpr (by simpa only [Bool.not_eq_false] using other)] at wait
      cases wait
    rw [if_neg rests]
    simp [kept, apart]

theorem checkBrokerLoss_session (update : PositionUpdate) (x : Executor) :
    (x.checkBrokerLoss host moment update).session =
      if x.lossBreach host update = true then x.session.haltTrading "broker_day_pnl_limit"
      else x.session := by
  simp only [checkBrokerLoss]
  split_ifs
  · rfl
  · rfl
  · rfl

theorem checkBrokerDrawdown_session (update : PositionUpdate) (x : Executor) :
    (x.checkBrokerDrawdown host update).session =
      if x.drawdownBreach host update = true then
        x.session.haltTrading "broker_trailing_drawdown"
      else x.session := by
  simp only [checkBrokerDrawdown]
  split
  · rfl
  · rfl

/-- A snapshot shows a position that is not ours and that was not acted on yet. -/
def Ghost (net : Int) (consistent : Bool) (x : Executor) : Prop :=
  net ≠ 0 ∧ consistent = false ∧ x.netRecon.acted = false
deriving Decidable

theorem unhaltPosition_session :
    x.unhaltPosition.session =
      if x.session.awaitsPosition = true then x.session.unhaltTrading else x.session := by
  simp only [unhaltPosition]
  split
  · rfl
  · rfl

/-- The unwind of a ghost lifts any halt, and where it could not be sent its own halt
takes the place. The reconciler is armed at this moment. -/
theorem positionSnapshot_ghost {net : Int} {x : Executor} (real : host.cfg.dryRun = false)
    (ghost : Ghost net consistent x) :
    (x.positionSnapshot host moment net consistent).session =
        (if moment.written = true then x.session.unhaltTrading
          else x.session.haltTrading "startup_ghost_unwind_failed") ∧
      (x.positionSnapshot host moment net consistent).netRecon =
        { mismatchSinceMs := moment.nowMs, acted := true, actedMs := moment.nowMs } := by
  obtain ⟨open_, apart, fresh⟩ := ghost
  have size : ¬(|net| : Int) ≤ 0 := not_le.mpr (abs_pos.mpr open_)
  have unwound (y : Executor) : (y.sendUnwind host moment |net| (!decide (net > 0))).2 =
      moment.written ∧
      (y.sendUnwind host moment |net| (!decide (net > 0))).1.session = y.session := by
    refine ⟨?_, sendUnwind_session host moment _ _ y⟩
    cases written : moment.written with
    | true =>
      simp [sendUnwind, size, real, written]
    | false => simp [sendUnwind, size, real, written]
  have deferred : (if x.deferSnapshotCancels = true then
      { x.cancelDeferred with deferSnapshotCancels := false } else x).session = x.session := by
    split
    · rfl
    · rfl
  rw [positionSnapshot, if_neg (by rintro ⟨-, same⟩; rw [apart] at same; cases same),
    if_pos ⟨open_, fresh⟩]
  simp only [snapshotGhost]
  generalize (if x.deferSnapshotCancels = true then
      { x.cancelDeferred with deferSnapshotCancels := false } else x) = y at *
  obtain ⟨sent, session⟩ := unwound y
  rw [sent, session, deferred]
  split
  · exact ⟨rfl, rfl⟩
  · exact ⟨rfl, rfl⟩

/-- Any other snapshot settles the position where it shows none or ours, and arms
nothing. -/
theorem positionSnapshot_other {net : Int} {x : Executor} (other : ¬Ghost net consistent x) :
    (x.positionSnapshot host moment net consistent).session =
        (if (net = 0 ∨ consistent = true) ∧ x.session.awaitsPosition = true then
          x.session.unhaltTrading else x.session) ∧
      (x.positionSnapshot host moment net consistent).netRecon = x.netRecon ∧
      (x.positionSnapshot host moment net consistent).netHaltActive = x.netHaltActive := by
  have unhalted (y : Executor) : y.unhaltPosition.netRecon = y.netRecon ∧
      y.unhaltPosition.netHaltActive = y.netHaltActive := by
    simp only [unhaltPosition]
    split
    · exact ⟨rfl, rfl⟩
    · exact ⟨rfl, rfl⟩
  by_cases flat : net = 0
  · simp only [positionSnapshot, flat, ne_eq, not_true_eq_false, false_and, ↓reduceIte, true_or,
      true_and, snapshotFlat, onManager, cancelDeferred]
    exact ⟨unhaltPosition_session _, unhalted _⟩
  · cases agrees : consistent with
    | true =>
      simp only [positionSnapshot, flat, ne_eq, not_false_eq_true, and_self, ↓reduceIte, or_true,
        true_and, snapshotMatches]
      split
      · exact ⟨unhaltPosition_session _, unhalted _⟩
      · exact ⟨unhaltPosition_session _, unhalted _⟩
    | false =>
      have acted : x.netRecon.acted = true := by
        by_contra fresh
        exact other ⟨flat, agrees, by simpa only [Bool.not_eq_true] using fresh⟩
      simp [positionSnapshot, flat, acted]

/-- The update newly breaches neither of the broker's limits. -/
def WithinLimits (update : PositionUpdate) (x : Executor) : Prop :=
  x.lossBreach host update = false ∧ x.drawdownBreach host update = false
deriving Decidable

/-- The broker's limits halt where one is newly breached, and their reason waits for
nothing. -/
theorem brokerChecks_session (moment : Moment) (update : PositionUpdate) (x : Executor) :
    let y := (x.checkBrokerLoss host moment update).checkBrokerDrawdown host update
    (y.session.riskHalted = true ↔
        x.session.riskHalted = true ∨ ¬WithinLimits host update x) ∧
      (WithinLimits host update x → y.session = x.session) ∧
      (¬WithinLimits host update x →
        y.session.awaitsPosition = false ∧ y.session.awaitsAgreement = false) ∧
      y.netRecon = x.netRecon ∧ y.netHaltActive = x.netHaltActive := by
  have mark := checkBrokerLoss_mark host moment update x
  have recon : ((x.checkBrokerLoss host moment update).checkBrokerDrawdown host update).netRecon =
        x.netRecon ∧
      ((x.checkBrokerLoss host moment update).checkBrokerDrawdown host update).netHaltActive =
        x.netHaltActive := by
    simp only [checkBrokerDrawdown, checkBrokerLoss]
    split_ifs
    all_goals exact ⟨rfl, rfl⟩
  have drawdownReason (session : StrategySession) :
      (session.haltTrading "broker_trailing_drawdown").awaitsPosition = false ∧
        (session.haltTrading "broker_trailing_drawdown").awaitsAgreement = false := by
    simp only [StrategySession.haltTrading]
    decide +kernel
  have lossReason (session : StrategySession) :
      (session.haltTrading "broker_day_pnl_limit").awaitsPosition = false ∧
        (session.haltTrading "broker_day_pnl_limit").awaitsAgreement = false := by
    simp only [StrategySession.haltTrading]
    decide +kernel
  simp only [checkBrokerDrawdown_session, checkBrokerLoss_session, mark, WithinLimits]
  cases drawdown : x.drawdownBreach host update with
  | true =>
    refine ⟨?_, ?_, fun _ => drawdownReason x.session, recon⟩
    · simp
    · rintro ⟨-, within⟩
      cases within
  | false =>
    cases loss : x.lossBreach host update with
    | true =>
      refine ⟨?_, ?_, fun _ => lossReason x.session, recon⟩
      · simp
      · rintro ⟨within, -⟩
        cases within
    | false =>
      refine ⟨?_, fun _ => rfl, fun outside => absurd ⟨rfl, rfl⟩ outside, recon⟩
      simp

/-! ## Causes and what resolves them -/

/-- The halts a position update of the account raises. -/
def raisedByPosition (moment : Moment) (update : PositionUpdate) (x : Executor) : List String :=
  let consistent := x.manager.netQtyConsistent host update.netQuantity
  let ghost := update.isSnapshot = true ∧ Ghost update.netQuantity consistent x
  (if x.lossBreach host update = true then ["broker_day_pnl_limit"] else []) ++
    (if x.drawdownBreach host update = true then ["broker_trailing_drawdown"] else []) ++
    (if ghost ∧ moment.written = false then ["startup_ghost_unwind_failed"] else []) ++
    if ¬ghost ∧ x.netVerdict host moment consistent = .mismatchAct then ["exchange_net_mismatch"]
    else []

/-- The state in which an event is taken: nothing sent yet. -/
def cleared (x : Executor) : Executor :=
  { x with sent := [], manager := { x.manager with outbox := [] } }

/-- The causes an event halts the strategy for, in the order of the calls. -/
def raised (drill : Bool) (x : Executor) : Event → List String
  | .start _ =>
    if x.stage = .down ∧ x.running = true then
      if x.carriedPos.state ≠ .flat then ["reconnect_unreconciled_position"] else []
    else []
  | .connected connection =>
    if x.stage = .connecting then
      (if host.cfg.dryRun = false ∧ connection.pnlConnected = false then
          ["pnl_plant_unavailable"] else []) ++
        (if x.today.isNone = true ∧ host.cfg.dryRun = false ∧
            connection.priorState ∈ ["LONG", "SHORT", "PENDING_EXIT"] then
          ["startup_stale_position_" ++ connection.priorState] else []) ++
        if drill then ["drill_mode"] else []
    else []
  | .order moment notice =>
    if x.reading host = true then
      if notice.isSnapshot then
        if notice.symbol = host.cfg.tradeSymbol ∧
            ¬(notice.totalUnfilledSize > 0 ∧ notice.basketId ≠ "") ∧
            notice.totalFillSize > 0 ∧ notice.totalUnfilledSize = 0 then
          ["startup_ghost_position_suspected"]
        else []
      else (OpLoop.orderNotice host moment.now moment.lastPrice notice x.cleared.manager).halts
    else []
  | .exchange moment notice =>
    if x.reading host = true then
      (OpLoop.exchangeNotice host moment.now notice x.cleared.manager).halts
    else []
  | .response moment basketId rpCode =>
    if x.reading host = true then
      (OpLoop.newOrderResponse host moment.now basketId rpCode x.cleared.manager).halts
    else []
  | .position moment update =>
    if x.reading host = true ∧ update.accountId = host.cfg.accountId then
      raisedByPosition host moment update x
    else []
  | .pnlResponse rpCode =>
    if x.stage = .live ∧ x.pnlConnected = true ∧ rpCode.headD "?" ≠ "0" then
      ["pnl_subscribe_rejected"]
    else []
  | .recheck moment =>
    match x.lastExchNet with
    | none => []
    | some net =>
      if x.stage = .live ∧ x.pnlConnected = true ∧
          x.manager.netQtyConsistent host net = false then
        if x.netVerdict host moment false = .mismatchAct then ["exchange_net_mismatch"] else []
      else []
  | .feedStale =>
    if x.stage = .live ∧ host.cfg.mdFromPg = true ∧ x.pgFeedFresh = true then ["pg_feed_stale"]
    else []
  | .shutdown _ => if x.stage = .live then ["shutdown"] else []
  | _ => []

/-- The ticks resume after the feed was stale or new. -/
def ticksResume (x : Executor) : Event → Prop
  | .feedResumed => x.stage = .live ∧ host.cfg.mdFromPg = true ∧ x.pgFeedFresh = false
  | _ => False

/-- The exchange reports the net position that is held here. -/
def netAgrees (x : Executor) : Event → Prop
  | .position _ update => x.reading host = true ∧ update.accountId = host.cfg.accountId ∧
      x.manager.netQtyConsistent host update.netQuantity = true
  | _ => False

/-- A position snapshot settles what the exchange holds: nothing, what is held here, or
a position whose unwind was sent. -/
def snapshotSettles (x : Executor) : Event → Prop
  | .position moment update => x.reading host = true ∧ update.accountId = host.cfg.accountId ∧
      update.isSnapshot = true ∧
      (update.netQuantity = 0 ∨ x.manager.netQtyConsistent host update.netQuantity = true ∨
        (x.netRecon.acted = false ∧ moment.written = true))
  | _ => False

/-- The event resolves the cause. -/
def Resolves (x : Executor) (event : Event) (cause : String) : Prop :=
  (cause = "pg_feed_stale" ∧ ticksResume host x event) ∨
    ((cause = "exchange_net_mismatch" ∨ cause = "unowned_fill_in_trade") ∧
      netAgrees host x event) ∨
    (("startup_".isPrefixOf cause = true ∨ cause = "reconnect_unreconciled_position") ∧
      snapshotSettles host x event)

/-! ## What lifts the halt -/

/-- A position update ends with the halt lifted: a ghost was unwound, or no limit is
newly breached, no mismatch is acted on, and the reason is one that waits for the
position at a snapshot that settles it, or for the agreement after a mismatch. -/
def LiftedByPosition (moment : Moment) (update : PositionUpdate) (x : Executor) : Prop :=
  let consistent := x.manager.netQtyConsistent host update.netQuantity
  (update.isSnapshot = true ∧ Ghost update.netQuantity consistent x ∧ moment.written = true) ∨
    (WithinLimits host update x ∧ x.netVerdict host moment consistent ≠ .mismatchAct ∧
      ((update.isSnapshot = true ∧ (update.netQuantity = 0 ∨ consistent = true) ∧
          x.session.awaitsPosition = true) ∨
        (consistent = true ∧ x.netHaltActive = true ∧ x.session.awaitsAgreement = true)))
deriving Decidable

theorem unhaltTrading_riskHalted (session : StrategySession) :
    session.unhaltTrading.riskHalted = false := by
  simp only [StrategySession.unhaltTrading]
  split
  · rfl
  next open_ => simpa only [Bool.not_eq_true] using open_

/-- The reconciler that a ghost has just armed waits. -/
theorem netVerdict_armed {x : Executor}
    (armed : x.netRecon =
      { mismatchSinceMs := moment.nowMs, acted := true, actedMs := moment.nowMs }) :
    x.netVerdict host moment false ≠ .mismatchAct := by
  simp [netVerdict, armed, NetReconciler.observe]

/-- The executor after the broker's limits and the snapshot, before the reconciler. -/
def settled (moment : Moment) (update : PositionUpdate) (x : Executor) : Executor :=
  let y := (x.checkBrokerLoss host moment update).checkBrokerDrawdown host update
  if update.isSnapshot = true then
    y.positionSnapshot host moment update.netQuantity
      (x.manager.netQtyConsistent host update.netQuantity)
  else y

/-- The session after a position update of our account: what the snapshot leaves, halted or freed
by the net verdict. -/
theorem handlePosUpdate_session {moment : Moment} {x : Executor}
    (ours : update.accountId = host.cfg.accountId) : let z := x.settled host moment update
    let consistent := x.manager.netQtyConsistent host update.netQuantity
    (x.handlePosUpdate host moment update).session =
      if z.netVerdict host moment consistent = .mismatchAct then
        z.session.haltTrading "exchange_net_mismatch"
      else if consistent = true ∧ z.netHaltActive = true ∧ z.session.awaitsAgreement = true then
        z.session.unhaltTrading
      else z.session := by
  simp only [handlePosUpdate, ours, ne_eq, not_true_eq_false, ↓reduceIte]
  exact reconcileNet_session host moment update.netQuantity _ _

/-- A halt stays or is raised where a ghost is shown exactly if its unwind is not sent. -/
theorem settled_ghost {x : Executor} (real : host.cfg.dryRun = false)
    (snapshot : update.isSnapshot = true)
    (ghost : Ghost update.netQuantity (x.manager.netQtyConsistent host update.netQuantity) x) :
    ((x.settled host moment update).session.riskHalted = true ↔ moment.written = false) ∧
      (x.settled host moment update).netVerdict host moment false ≠ .mismatchAct := by
  obtain ⟨-, -, -, recon, -⟩ := brokerChecks_session host moment update x
  simp only [settled, snapshot, ↓reduceIte]
  generalize (x.checkBrokerLoss host moment update).checkBrokerDrawdown host update = y at *
  have shown : Ghost update.netQuantity
      (x.manager.netQtyConsistent host update.netQuantity) y := by
    rw [Ghost, recon]
    exact ghost
  obtain ⟨session, armed⟩ := positionSnapshot_ghost host moment real shown
  refine ⟨?_, netVerdict_armed host moment armed⟩
  rw [session]
  cases written : moment.written with
  | true => simp [unhaltTrading_riskHalted]
  | false => simp

/-- Where no ghost is shown, a newly breached limit holds the halt, and else a snapshot
that settles the position lifts the halt that waits for it. -/
theorem settled_other (moment : Moment) {x : Executor}
    (other : ¬(update.isSnapshot = true ∧
      Ghost update.netQuantity (x.manager.netQtyConsistent host update.netQuantity) x)) :
    let z := x.settled host moment update
    (WithinLimits host update x → z.session =
        if update.isSnapshot = true ∧ (update.netQuantity = 0 ∨
            x.manager.netQtyConsistent host update.netQuantity = true) ∧
            x.session.awaitsPosition = true then
          x.session.unhaltTrading
        else x.session) ∧
      (¬WithinLimits host update x →
        z.session.riskHalted = true ∧ z.session.awaitsAgreement = false) ∧
      z.netRecon = x.netRecon ∧ z.netHaltActive = x.netHaltActive := by
  obtain ⟨halted, within, outside, recon, active⟩ := brokerChecks_session host moment update x
  simp only [settled]
  generalize (x.checkBrokerLoss host moment update).checkBrokerDrawdown host update = y at *
  have held (beyond : ¬WithinLimits host update x) : y.session.riskHalted = true :=
    halted.mpr (Or.inr beyond)
  cases snapshot : update.isSnapshot with
  | false =>
    simp only [Bool.false_eq_true, false_and, ↓reduceIte]
    exact ⟨within, fun beyond => ⟨held beyond, (outside beyond).2⟩, recon, active⟩
  | true =>
    have mine : ¬Ghost update.netQuantity
        (x.manager.netQtyConsistent host update.netQuantity) y := by
      rw [Ghost, recon]
      exact fun ghost => other ⟨snapshot, ghost⟩
    obtain ⟨session, reconAfter, activeAfter⟩ := positionSnapshot_other host moment mine
    simp only [↓reduceIte, true_and, session]
    refine ⟨fun inside => by rw [within inside], ?_, reconAfter.trans recon,
      activeAfter.trans active⟩
    intro beyond
    have waits : y.session.awaitsPosition = false := (outside beyond).1
    simp only [waits, Bool.false_eq_true, and_false, ↓reduceIte]
    exact ⟨held beyond, (outside beyond).2⟩

theorem netVerdict_congr {moment : Moment} {x y : Executor} (same : y.netRecon = x.netRecon) :
    y.netVerdict host moment consistent = x.netVerdict host moment consistent := by
  rw [netVerdict, netVerdict, same]

/-- The halt after a position update: it is kept or raised, unless it is lifted. -/
theorem handlePosUpdate_halted {moment : Moment} {x : Executor} (real : host.cfg.dryRun = false)
    (ours : update.accountId = host.cfg.accountId) :
    (x.handlePosUpdate host moment update).session.riskHalted = true ↔
      ¬LiftedByPosition host moment update x ∧
        (x.session.riskHalted = true ∨ raisedByPosition host moment update x ≠ []) := by
  rw [handlePosUpdate_session host ours]
  simp only [LiftedByPosition, raisedByPosition]
  by_cases ghost : update.isSnapshot = true ∧
      Ghost update.netQuantity (x.manager.netQtyConsistent host update.netQuantity) x
  · obtain ⟨snapshot, shown⟩ := ghost
    obtain ⟨halted, waits⟩ := settled_ghost host moment real snapshot shown
    have apart : x.manager.netQtyConsistent host update.netQuantity = false := shown.2.1
    have open_ : update.netQuantity ≠ 0 := shown.1
    simp only [apart] at shown ⊢
    rw [if_neg waits]
    simp only [snapshot, shown, open_, Bool.false_eq_true, false_and, true_and, ↓reduceIte,
      or_self, and_false, or_false, halted, not_true_eq_false, List.append_nil, ne_eq]
    cases moment.written with
    | true => simp
    | false =>
      simp
  · obtain ⟨within, outside, recon, active⟩ := settled_other host moment ghost
    rw [netVerdict_congr host recon, active]
    have unshown : ¬(update.isSnapshot = true ∧
        Ghost update.netQuantity (x.manager.netQtyConsistent host update.netQuantity) x ∧
        moment.written = true) := fun ⟨snapshot, shown, _⟩ => ghost ⟨snapshot, shown⟩
    simp only [ghost, unshown, not_false_eq_true, true_and, false_and, false_or, ↓reduceIte,
      List.append_nil]
    generalize x.manager.netQtyConsistent host update.netQuantity = consistent at *
    by_cases act : x.netVerdict host moment consistent = .mismatchAct
    · simp [act]
    · simp only [act, ↓reduceIte, List.append_nil, ne_eq, not_false_eq_true, true_and]
      by_cases inside : WithinLimits host update x
      · have unlifted : x.lossBreach host update = false ∧ x.drawdownBreach host update = false :=
          inside
        simp only [within inside, inside, unlifted, true_and, Bool.false_eq_true, ↓reduceIte,
          List.append_nil, not_true_eq_false, or_false]
        by_cases settles : update.isSnapshot = true ∧
            (update.netQuantity = 0 ∨ consistent = true) ∧ x.session.awaitsPosition = true
        · simp only [settles, and_self, ↓reduceIte, true_or, not_true_eq_false, false_and,
            iff_false]
          split
          · simp [unhaltTrading_riskHalted]
          · simp [unhaltTrading_riskHalted]
        · rw [if_neg settles]
          simp only [settles, false_or]
          split
          next agrees =>
            simp [unhaltTrading_riskHalted, agrees]
          next apart => simp [apart]
      · obtain ⟨held, other⟩ := outside inside
        have breached : x.lossBreach host update = true ∨ x.drawdownBreach host update = true := by
          by_contra none
          simp only [not_or, Bool.not_eq_true] at none
          exact inside none
        simp only [inside, other, held, Bool.false_eq_true, and_false, ↓reduceIte, false_and,
          not_false_eq_true, true_and, List.append_eq_nil_iff, ite_eq_right_iff, reduceCtorEq,
          imp_false, not_and, true_iff]
        by_cases loss : x.lossBreach host update = true
        · exact Or.inr fun quiet => absurd loss quiet
        · exact Or.inr fun _ quiet => quiet (breached.resolve_left loss)

/-- The event ends with the halt lifted by a call of its own. -/
def Lifted (x : Executor) : Event → Prop
  | .feedResumed => ticksResume host x .feedResumed ∧ x.session.riskHalted = true ∧
      x.session.haltReason = "pg_feed_stale"
  | .position moment update => x.reading host = true ∧ update.accountId = host.cfg.accountId ∧
      LiftedByPosition host moment update x
  | _ => False

/-- The event resets the session. -/
def Resets (x : Executor) : Event → Prop
  | .connected _ => x.stage = .connecting ∧ x.today.isNone = true
  | .rollover date => x.stage = .live ∧ x.today ≠ some date
  | _ => False

/-- The event resets the session and halts for nothing after it. -/
def ResetsOpen (drill : Bool) (x : Executor) (event : Event) : Prop :=
  Resets x event ∧
    match event with
    | .connected connection => drill = false ∧ ¬(host.cfg.dryRun = false ∧
        connection.priorState ∈ ["LONG", "SHORT", "PENDING_EXIT"])
    | _ => True

/-! ## One step -/

/-- One event of a process that may run a drill: each cycle then halts for it. -/
def stepDrill (drill : Bool) (x : Executor) (event : Event) : Executor :=
  match event with
  | .connected _ =>
    if drill = true ∧ x.stage = .connecting then (x.step host event).halt "drill_mode"
    else x.step host event
  | _ => x.step host event

theorem handled_halted (outcome : OpLoop.Handled) (x : Executor) :
    (x.handled outcome).session.riskHalted = true ↔
      x.session.riskHalted = true ∨ outcome.halts ≠ [] := by
  simp only [handled]
  generalize x.session = session
  induction outcome.halts generalizing session with
  | nil => simp
  | cons reason rest ih =>
    simp [ih]

/-- An order snapshot halts exactly for a filled order on our symbol that does not rest. -/
theorem orderSnapshot_halted (notice : OpLoop.OrderNotice) (x : Executor) :
    (x.orderSnapshot host moment notice).session.riskHalted = true ↔
      x.session.riskHalted = true ∨ (notice.symbol = host.cfg.tradeSymbol ∧
        ¬(notice.totalUnfilledSize > 0 ∧ notice.basketId ≠ "") ∧
        notice.totalFillSize > 0 ∧ notice.totalUnfilledSize = 0) := by
  simp only [orderSnapshot]
  by_cases ours : notice.symbol = host.cfg.tradeSymbol
  · rw [if_pos ours]
    by_cases working : notice.totalUnfilledSize > 0 ∧ notice.basketId ≠ ""
    · rw [if_pos working]
      have idle : ¬(notice.symbol = host.cfg.tradeSymbol ∧
          ¬(notice.totalUnfilledSize > 0 ∧ notice.basketId ≠ "") ∧
          notice.totalFillSize > 0 ∧ notice.totalUnfilledSize = 0) := by
        rintro ⟨_, other, _⟩
        exact other working
      rw [or_iff_left idle]
      split_ifs
      all_goals exact Iff.rfl
    · rw [if_neg working]
      by_cases filled : notice.totalFillSize > 0 ∧ notice.totalUnfilledSize = 0
      · rw [if_pos filled]
        exact iff_of_true rfl (Or.inr ⟨ours, working, filled⟩)
      · rw [if_neg filled]
        simp [filled]
  · rw [if_neg ours]
    simp [ours]

/-- A missing position feed halts before the first session of the day is set up. -/
theorem connect_eq :
    ∃ y, (y.session.riskHalted = true ↔ x.session.riskHalted = true ∨
        (host.cfg.dryRun = false ∧ connection.pnlConnected = false)) ∧
      x.connect host connection =
        if x.today.isNone = true then y.freshStart host connection else y := by
  simp only [connect]
  split
  next missing =>
    refine ⟨_, ?_, rfl⟩
    exact iff_of_true rfl (Or.inr missing)
  next feeds =>
    refine ⟨_, ?_, rfl⟩
    exact (or_iff_left feeds).symm

/-- The first session of the day resets and may halt for the position the database last
saw; a later cycle may halt for the missing position feed. -/
theorem connect_halted :
    (x.connect host connection).session.riskHalted = true ↔
      if x.today.isNone = true then
        host.cfg.dryRun = false ∧ connection.priorState ∈ ["LONG", "SHORT", "PENDING_EXIT"]
      else x.session.riskHalted = true ∨
        (host.cfg.dryRun = false ∧ connection.pnlConnected = false) := by
  obtain ⟨y, halted, connected⟩ := connect_eq host connection x
  rw [connected]
  split
  · simp only [freshStart]
    split
    next stale => exact iff_of_true rfl stale
    next clean => exact iff_of_false Bool.false_ne_true clean
  · exact halted

/-- A guarded operation raises what it raises where its guard holds. -/
theorem halted_ite {p : Prop} [Decidable p] {x y z : Executor} {reasons : List String}
    (taken : p → (y.session.riskHalted = true ↔ x.session.riskHalted = true ∨ reasons ≠ []))
    (passed : ¬p → z.session = x.session) :
    (if p then y else z).session.riskHalted = true ↔
      x.session.riskHalted = true ∨ (if p then reasons else []) ≠ [] := by
  split
  next holds => exact taken holds
  next fails =>
    rw [passed fails]
    simp

/-- A halt raises its reason. -/
theorem halt_raises (reason : String) (x y : Executor) :
    (y.halt reason).session.riskHalted = true ↔ x.session.riskHalted = true ∨ [reason] ≠ [] :=
  iff_of_true rfl (Or.inr (List.cons_ne_nil reason []))

theorem raises_nothing :
    x.session.riskHalted = true ↔ x.session.riskHalted = true ∨ ([] : List String) ≠ [] := by
  simp

/-- The events that lift nothing and reset nothing. -/
def Steadfast : Event → Prop
  | .connected _ => False
  | .position _ _ => False
  | .feedResumed => False
  | .rollover _ => False
  | _ => True

/-- Such an event keeps the halt or raises it. -/
theorem steadfast_halted {event : Event} (steadfast : Steadfast event) (x : Executor) :
    (x.step host event).session.riskHalted = true ↔
      x.session.riskHalted = true ∨ raised host drill x event ≠ [] := by
  cases event with
  | start history =>
    have begun : (x.cleared.startCycle host history).session.riskHalted = true ↔
        x.session.riskHalted = true ∨ (if x.carriedPos.state ≠ .flat then
          ["reconnect_unreconciled_position"] else []) ≠ [] := by
      simp only [startCycle, cleared]
      by_cases flat : x.carriedPos.state = .flat
      · simp [flat]
      · simp [flat]
    exact halted_ite (z := x.cleared) (fun _ => begun) (fun _ => rfl)
  | order moment notice =>
    refine halted_ite (z := x.cleared) (fun _ => ?_) (fun _ => rfl)
    simp only [orderMessage]
    cases notice.isSnapshot with
    | true =>
      simp only [↓reduceIte]
      rw [orderSnapshot_halted]
      refine or_congr Iff.rfl ?_
      split
      next suspected => exact iff_of_true suspected (List.cons_ne_nil _ _)
      next clear => exact iff_of_false clear (fun none => none rfl)
    | false => exact handled_halted _ x.cleared
  | exchange moment notice =>
    exact halted_ite (z := x.cleared) (fun _ => handled_halted _ x.cleared) (fun _ => rfl)
  | response moment basketId rpCode =>
    exact halted_ite (z := x.cleared) (fun _ => handled_halted _ x.cleared) (fun _ => rfl)
  | pnlResponse rpCode =>
    exact halted_ite (z := x.cleared) (fun _ => halt_raises _ x x.cleared) (fun _ => rfl)
  | recheck moment =>
    have stepped : x.step host (.recheck moment) = match x.lastExchNet with
        | none => x.cleared
        | some net =>
          if x.stage = .live ∧ x.pnlConnected = true ∧
              x.manager.netQtyConsistent host net = false then
            x.cleared.reconcileNet host moment net false
          else x.cleared := rfl
    have rechecked (net : Int) :
        (x.cleared.reconcileNet host moment net false).session.riskHalted = true ↔
          x.session.riskHalted = true ∨
            (if x.netVerdict host moment false = .mismatchAct then ["exchange_net_mismatch"]
              else []) ≠ [] := by
      rw [reconcileNet_session, netVerdict_congr host (x := x) (y := x.cleared) rfl]
      simp only [Bool.false_eq_true, false_and, ↓reduceIte]
      by_cases act : x.netVerdict host moment false = .mismatchAct
      · rw [if_pos act, if_pos act]
        exact iff_of_true rfl (Or.inr (List.cons_ne_nil _ _))
      · rw [if_neg act, if_neg act]
        exact raises_nothing x
    rw [stepped]
    simp only [raised]
    cases x.lastExchNet with
    | none => exact raises_nothing x
    | some net => exact halted_ite (fun _ => rechecked net) (fun _ => rfl)
  | feedStale => exact halted_ite (z := x.cleared) (fun _ => halt_raises _ x x) (fun _ => rfl)
  | shutdown moment => exact halted_ite (z := x.cleared) (fun _ => halt_raises _ x x) (fun _ => rfl)
  | connected _ => exact steadfast.elim
  | position _ _ => exact steadfast.elim
  | feedResumed => exact steadfast.elim
  | rollover _ => exact steadfast.elim
  | stopped => exact raises_nothing x
  | call | earlyReturn | drained | readError | mainLoopExit =>
    refine Iff.trans ?_ (raises_nothing x)
    simp only [step, perform]
    split_ifs
    all_goals exact Iff.rfl

/-- A connection halts for the missing feed, for a position of the day before and for
the drill; the reset of a first session comes between. -/
theorem connected_halted :
    (x.stepDrill host drill (.connected connection)).session.riskHalted = true ↔
      ¬ResetsOpen host drill x (.connected connection) ∧
        (x.session.riskHalted = true ∨ raised host drill x (.connected connection) ≠ []) := by
  by_cases connecting : x.stage = .connecting
  · have connected : x.step host (.connected connection) = x.cleared.connect host connection := by
      simp only [step, perform, connecting, ↓reduceIte]
      rfl
    have halted := connect_halted host connection x.cleared
    have day : x.cleared.today = x.today := rfl
    rw [day] at halted
    simp only [stepDrill, connected, connecting, and_true, ResetsOpen, Resets, raised, true_and,
      ↓reduceIte]
    cases drill with
    | true =>
      simp only [↓reduceIte, halt, StrategySession.haltTrading_riskHalted, Bool.true_eq_false,
        false_and, and_false, not_false_eq_true, ne_eq, List.append_eq_nil_iff, reduceCtorEq,
        or_true, and_self]
    | false =>
      simp only [Bool.false_eq_true, ↓reduceIte, halted, List.append_nil, true_and]
      by_cases first : x.today.isNone = true
      · simp only [first, ↓reduceIte, true_and]
        by_cases stale : host.cfg.dryRun = false ∧
            connection.priorState ∈ ["LONG", "SHORT", "PENDING_EXIT"]
        · simp only [stale, ↓reduceIte, and_self, not_true_eq_false, not_false_eq_true, ne_eq,
            List.append_eq_nil_iff, reduceCtorEq, and_false, or_true]
        · simp only [stale, not_false_eq_true, not_true_eq_false, false_and]
      · simp only [first, Bool.false_eq_true, ↓reduceIte, false_and, not_false_eq_true, true_and,
          List.append_nil]
        refine or_congr Iff.rfl ?_
        split
        next missing => exact iff_of_true missing (List.cons_ne_nil _ _)
        next feeds => exact iff_of_false feeds (fun none => none rfl)
  · have still : x.step host (.connected connection) = x.cleared := by
      simp only [step, perform, connecting, ↓reduceIte]
      rfl
    simp only [stepDrill, still, connecting, and_false, ↓reduceIte, ResetsOpen, Resets, false_and,
      not_false_eq_true, true_and, raised]
    exact raises_nothing x

/-- The halt after an event: it is kept or raised, unless the event lifts it or resets
the session for nothing. -/
theorem stepDrill_halted (event : Event) :
    (x.stepDrill host drill event).session.riskHalted = true ↔
      ¬Lifted host x event ∧ ¬ResetsOpen host drill x event ∧
        (x.session.riskHalted = true ∨ raised host drill x event ≠ []) := by
  have plain (steadfast : Steadfast event)
      (same : x.stepDrill host drill event = x.step host event)
      (lifts : ¬Lifted host x event) (resets : ¬ResetsOpen host drill x event) :
      (x.stepDrill host drill event).session.riskHalted = true ↔
        ¬Lifted host x event ∧ ¬ResetsOpen host drill x event ∧
          (x.session.riskHalted = true ∨ raised host drill x event ≠ []) := by
    rw [same, steadfast_halted host drill steadfast x]
    exact ⟨fun halted => ⟨lifts, resets, halted⟩, fun ⟨_, _, halted⟩ => halted⟩
  cases event with
  | connected connection =>
    refine (connected_halted host drill connection x).trans ?_
    exact ⟨fun halted => ⟨id, halted⟩, fun ⟨_, halted⟩ => halted⟩
  | position moment update =>
    have resets : ¬ResetsOpen host drill x (.position moment update) := fun resets => resets.1
    have stepped : x.stepDrill host drill (.position moment update) =
        if x.reading host = true then x.cleared.handlePosUpdate host moment update
        else x.cleared := rfl
    rw [stepped]
    simp only [resets, not_false_eq_true, true_and, Lifted, raised]
    by_cases reads : x.reading host = true
    · simp only [reads, ↓reduceIte, true_and]
      by_cases ours : update.accountId = host.cfg.accountId
      · simp only [ours, ↓reduceIte, true_and]
        have real : host.cfg.dryRun = false := by
          simp only [reading, Bool.and_eq_true, Bool.not_eq_true'] at reads
          exact reads.2
        exact handlePosUpdate_halted host (x := x.cleared) real ours
      · simp only [handlePosUpdate, ours, ne_eq, not_false_eq_true, ↓reduceIte, false_and,
          true_and, not_true_eq_false, or_false]
        exact Iff.rfl
    · simp only [reads, Bool.false_eq_true, ↓reduceIte, false_and, not_false_eq_true, true_and]
      exact raises_nothing x
  | feedResumed =>
    have resets : ¬ResetsOpen host drill x .feedResumed := fun resets => resets.1
    have stepped : x.stepDrill host drill .feedResumed =
        if x.stage = .live ∧ host.cfg.mdFromPg = true ∧ x.pgFeedFresh = false then
          x.cleared.feedResumed
        else x.cleared := rfl
    rw [stepped]
    simp only [resets, not_false_eq_true, true_and, Lifted, ticksResume, raised, ne_eq,
      not_true_eq_false, or_false]
    by_cases resumes : x.stage = .live ∧ host.cfg.mdFromPg = true ∧ x.pgFeedFresh = false
    · simp only [resumes, and_self, ↓reduceIte, true_and, feedResumed]
      split
      next stale =>
        have waits : x.session.riskHalted = true ∧ x.session.haltReason = "pg_feed_stale" := stale
        simp only [unhaltTrading_riskHalted, Bool.false_eq_true, waits, and_self,
          not_true_eq_false, false_and]
      next other =>
        have apart : ¬(x.session.riskHalted = true ∧
            x.session.haltReason = "pg_feed_stale") := other
        simp only [apart, not_false_eq_true, true_and]
        exact Iff.rfl
    · simp only [resumes, ↓reduceIte, false_and, not_false_eq_true, true_and]
      exact Iff.rfl
  | rollover date =>
    have stepped : x.stepDrill host drill (.rollover date) =
        if x.stage = .live ∧ x.today ≠ some date then x.cleared.rollover date else x.cleared := rfl
    rw [stepped]
    simp only [Lifted, not_false_eq_true, true_and, ResetsOpen, Resets, and_true, raised, ne_eq,
      not_true_eq_false, or_false]
    split
    next rolls =>
      simp only [rolls, not_true_eq_false, not_false_eq_true, and_self, false_and, iff_false]
      exact Bool.false_ne_true
    next stays =>
      simp only [stays, not_false_eq_true, true_and]
      exact Iff.rfl
  | _ => exact plain trivial rfl id (fun resets => resets.1)

/-! ## Runs -/

instance (x : Executor) (event : Event) : Decidable (ticksResume host x event) := by
  induction event using Event.casesOn
  all_goals
    dsimp only [ticksResume]
    infer_instance

instance (x : Executor) (event : Event) : Decidable (netAgrees host x event) := by
  induction event using Event.casesOn
  all_goals
    dsimp only [netAgrees]
    infer_instance

instance (x : Executor) (event : Event) : Decidable (snapshotSettles host x event) := by
  induction event using Event.casesOn
  all_goals
    dsimp only [snapshotSettles]
    infer_instance

instance (x : Executor) (event : Event) : Decidable (Lifted host x event) := by
  induction event using Event.casesOn
  all_goals
    dsimp only [Lifted]
    infer_instance

instance (x : Executor) (event : Event) : Decidable (Resets x event) := by
  induction event using Event.casesOn
  all_goals
    dsimp only [Resets]
    infer_instance

instance (x : Executor) (event : Event) (cause : String) :
    Decidable (Resolves host x event cause) :=
  inferInstanceAs (Decidable (_ ∨ _ ∨ _))

/-- The causes of the kind that counts that were raised and are not resolved. -/
def causesAfter (counts : String → Bool) (drill : Bool) (causes : List String) (x : Executor)
    (event : Event) (_ : Executor) : List String :=
  (causes ++ (raised host drill x event).filter counts).filter fun cause =>
    ¬Resolves host x event cause

/-- Unresolved causes keep the strategy halted. -/
def Held (pair : Executor × List String) : Prop :=
  pair.2 ≠ [] → pair.1.session.riskHalted = true
deriving Decidable

/-- The event resolves every cause, those of its own included. -/
def Settles (counts : String → Bool) (drill : Bool) (pair : Executor × List String)
    (event : Event) : Prop :=
  ∀ cause ∈ pair.2 ++ (raised host drill pair.1 event).filter counts,
    Resolves host pair.1 event cause
deriving Decidable

/-- A process that may run a drill, with the causes beside it. -/
def watchCauses (counts : String → Bool) (drill : Bool) :
    Executor × List String → Event → Executor × List String :=
  Runs.observe (stepDrill host drill) (causesAfter host counts drill)

theorem causesAfter_eq_nil (counts : String → Bool) (drill : Bool)
    (pair : Executor × List String) (event : Event) (y : Executor) :
    causesAfter host counts drill pair.2 pair.1 event y = [] ↔
      Settles host counts drill pair event := by
  simp only [causesAfter, Settles, List.filter_eq_nil_iff, decide_eq_true_eq, not_not]

/-- A step keeps the causes held exactly where it lifts the halt or resets the session
only when it resolves them all. -/
theorem held_step (counts : String → Bool) (drill : Bool) (pair : Executor × List String)
    (event : Event) (held : Held pair) :
    Held (watchCauses host counts drill pair event) ↔
      (Lifted host pair.1 event ∨ ResetsOpen host drill pair.1 event →
        Settles host counts drill pair event) := by
  have halted := stepDrill_halted host drill pair.1 event
  have none := causesAfter_eq_nil host counts drill pair event
    (pair.1.stepDrill host drill event)
  constructor
  · intro kept opens
    by_contra open_
    have after := halted.mp (kept (fun empty => open_ (none.mp empty)))
    exact opens.elim after.1 after.2.1
  · intro settles left
    have open_ : ¬Settles host counts drill pair event := fun all => left (none.mpr all)
    apply halted.mpr
    refine ⟨fun lifted => open_ (settles (Or.inl lifted)),
      fun resets => open_ (settles (Or.inr resets)), ?_⟩
    obtain ⟨cause, member⟩ := List.exists_mem_of_ne_nil _ left
    have source := (List.mem_filter.mp member).1
    rcases List.mem_append.mp source with before | now
    · exact Or.inl (held (List.ne_nil_of_mem before))
    · exact Or.inr (List.ne_nil_of_mem (List.mem_filter.mp now).1)

/-- Along a run the causes stay held exactly where no step opens over an unresolved one. -/
theorem held_along_iff (counts : String → Bool) (drill : Bool) (x : Executor)
    (events : List Event) :
    Runs.Along (watchCauses host counts drill)
        (fun pair event => Held (watchCauses host counts drill pair event)) (x, []) events ↔
      Runs.Along (watchCauses host counts drill)
        (fun pair event => Lifted host pair.1 event ∨ ResetsOpen host drill pair.1 event →
          Settles host counts drill pair event) (x, []) events := by
  apply Runs.along_invariant_iff
  · exact held_step host counts drill
  · exact fun left => absurd rfl left

/-- Every cause. -/
def everyCause (_ : String) : Bool := true

/-- The causes that no new day takes away. -/
def lasting (cause : String) : Bool :=
  decide (cause ≠ "broker_day_pnl_limit") && decide (cause ≠ "broker_trailing_drawdown")

/-- Between two resets of the session every cause holds the halt until it is resolved,
after every event of a run, exactly where no event of the run lifts the halt while a
cause that it does not resolve is there. -/
theorem causes_held_iff (drill : Bool) (x : Executor) (events : List Event)
    (between : Runs.Along (stepDrill host drill) (fun x event => ¬Resets x event) x events) :
    Runs.Along (watchCauses host everyCause drill)
        (fun pair event => Held (watchCauses host everyCause drill pair event)) (x, []) events ↔
      Runs.Along (watchCauses host everyCause drill)
        (fun pair event => Lifted host pair.1 event →
          Settles host everyCause drill pair event) (x, []) events := by
  refine (held_along_iff host everyCause drill x events).trans ?_
  have unreset := (Runs.along_observe_iff (stepDrill host drill)
    (causesAfter host everyCause drill) (fun x event => ¬Resets x event) (x, []) events).mpr between
  refine Runs.along_congr_of _ ?_ _ events unreset
  intro pair event stays
  have shut : ¬ResetsOpen host drill pair.1 event := fun resets => stays resets.1
  simp [shut]

/-- A cycle that is live, on the collector's feed, on its first day. -/
def pgHost : Host where
  cfg := { mdProvider := "pg" }

def started : Executor :=
  Runs.run (stepDrill pgHost false) (fresh {}) [.start none, .connected { date := "2026-09-24" }]

/-- An unresolved cause stays while another is raised and resolved after it was. -/
theorem stale_feed_held :
    Runs.Along (watchCauses pgHost everyCause false)
      (fun pair event => Held (watchCauses pgHost everyCause false pair event)) (started, [])
      [.feedResumed, .feedStale, .feedResumed, .pnlResponse ["7"]] := by
  refine (causes_held_iff pgHost false started _ ?_).mpr ?_
  · decide +kernel
  · decide +kernel

/-- The rejected position feed is forgotten when the tick feed went stale and came back. -/
theorem rejected_feed_forgotten :
    ¬Runs.Along (watchCauses pgHost everyCause false)
      (fun pair event => Held (watchCauses pgHost everyCause false pair event)) (started, [])
      [.feedResumed, .pnlResponse ["7"], .feedStale, .feedResumed] := by
  decide +kernel

/-- While a lasting cause is unresolved the strategy emits no entry. -/
def Silent (pair : Executor × List String) : Prop :=
  pair.2 ≠ [] → ∀ sig price dist, sig = .buy ∨ sig = .sell →
    pair.1.emits (.signal sig price dist) = false

/-- No entry is emitted under a cause exactly when the causes keep the halt on. -/
theorem silent_iff (pair : Executor × List String) : Silent pair ↔ Held pair := by
  constructor
  · intro silent left
    have shut := silent left .buy 0 0 (Or.inl rfl)
    simpa only [emits, Bool.not_eq_false'] using shut
  · intro held left sig price dist entry
    have halted : pair.1.session.riskHalted = true := held left
    rcases entry with rfl | rfl
    · simp [emits, halted]
    · simp [emits, halted]

/-- Over any number of cycles and new days, every lasting cause keeps the strategy from
emitting entries until it is resolved, exactly where no event lifts the halt or resets
the session while such a cause is there that it does not resolve. -/
theorem lasting_causes_silence_iff (drill : Bool) (x : Executor) (events : List Event) :
    Runs.Along (watchCauses host lasting drill)
        (fun pair event => Silent (watchCauses host lasting drill pair event)) (x, []) events ↔
      Runs.Along (watchCauses host lasting drill)
        (fun pair event => Lifted host pair.1 event ∨ ResetsOpen host drill pair.1 event →
          Settles host lasting drill pair event) (x, []) events := by
  refine Iff.trans ?_ (held_along_iff host lasting drill x events)
  exact Runs.along_congr _ (fun pair event => silent_iff _) _ events

/-- A cycle without a position feed is silent until the date rolls over. -/
theorem missing_feed_forgotten :
    ¬Runs.Along (watchCauses pgHost lasting false)
      (fun pair event => Silent (watchCauses pgHost lasting false pair event)) (fresh {}, [])
      [.start none, .connected { date := "2026-09-24" }, .readError, .start none,
        .connected { pnlConnected := false }, .rollover "2026-09-25"] := by
  intro silent
  have held := (Runs.along_congr _ (fun pair event => silent_iff _) _ _).mp silent
  revert held
  decide +kernel

end Executor

end RithmicEngine
