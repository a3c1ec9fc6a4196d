import RithmicEngine.Execution.PendingEntry
/-!
# The strategy in step with the order manager

A strategy takes itself to be in a position from the entry it signals until it is told
that a trade was closed. Where the order manager has no position, no entry under way
and no closed trade left to report, nothing will tell it, and it signals no entry for
the rest of the session. The host releases it in three places: after a signal that
left the order manager flat, after a closed trade, and at the end of a replay. Between
them lie the entry of the opening-range engine that never becomes an order, the entry
that is given up after it was taken, the leg the scalper keeps, and the cycle that
follows one which ended in a position. Everywhere else the strategy stays in step.
-/
namespace RithmicEngine

namespace OrderManager

variable {host : Host}

/-- An entry whose order is refused is dropped at once. -/
theorem openEntry_refused (now : Int) (sig : OrbSignal) (price dist : ℚ) (s : OrderManager)
    (refused : (host.cfg.dryRun || host.orderCb.all fun answer => answer (host.basketId s.seq)) =
      false) :
    (openEntry host now sig price dist s).isFlat = true ∧
      (openEntry host now sig price dist s).tradeCompleted = s.tradeCompleted := by
  obtain ⟨sends, answered⟩ := Bool.or_eq_false_iff.mp refused
  cases set : host.orderCb with
  | none =>
    rw [set] at answered
    exact absurd answered Bool.noConfusion
  | some answer =>
    have fails : answer (host.basketId s.seq) = false := by
      rw [set] at answered
      exact answered
    simp only [openEntry, sendMarketOrder, sends, set, fails, Bool.false_eq_true, ↓reduceIte]
    exact ⟨rfl, rfl⟩

/-- An entry signal opens an entry exactly where nothing halts it and nothing is held. -/
theorem onSignal_entry (host : Host) (now : Int) {sig : OrbSignal} (price dist : ℚ)
    (s : OrderManager) (entry : sig.isEntry = true) :
    onSignal host now sig price dist s =
      if s.entryHalted || s.ghostHalted then s
      else if s.risk.canTrade = false then s
      else if s.pos.state ≠ .flat then s
      else openEntry host now sig price dist s := by
  cases sig with
  | buy => rfl
  | sell => rfl
  | none => exact absurd entry Bool.false_ne_true
  | flattenEod => exact absurd entry Bool.false_ne_true

/-- An entry signal that finds the order manager flat and is not taken leaves it so. -/
theorem onSignal_refused (now : Int) (sig : OrbSignal) (price dist : ℚ) {s : OrderManager}
    (entry : sig.isEntry = true) (flat : s.isFlat = true) (refused : s.takesEntry host = false) :
    (onSignal host now sig price dist s).isFlat = true ∧
      (onSignal host now sig price dist s).tradeCompleted = s.tradeCompleted := by
  rw [onSignal_entry host now price dist s entry]
  split_ifs
  · exact ⟨flat, rfl⟩
  · exact ⟨flat, rfl⟩
  · exact ⟨flat, rfl⟩
  next unhalted trades _ =>
    refine openEntry_refused now sig price dist s ?_
    simpa only [takesEntry, Bool.eq_false_iff.mpr unhalted, Bool.eq_true_of_not_eq_false trades,
      flat, Bool.not_false, Bool.true_and] using refused

end OrderManager

namespace Executor

variable {host : Host}

variable {x : Executor}

theorem engaged_congr {y : Executor} (state : y.manager.pos.state = x.manager.pos.state)
    (completed : y.manager.tradeCompleted = x.manager.tradeCompleted) : Engaged y ↔ Engaged x := by
  rw [Engaged, Engaged, OrderManager.isFlat_congr state, completed]

/-- What remains of an engagement after an event that books nothing but a close: all of
it, unless a pending entry is given up. -/
theorem engaged_of_booked_iff {y : Executor} (booked : CycleBooked x.book y.book)
    (engaged : Engaged x) (dropped : Bool)
    (given : dropped = true → x.manager.pos.state = .pendingEntry ∧ y.manager.isFlat = true)
    (kept : dropped = false → x.manager.pos.state = .pendingEntry → y.manager.isFlat = false) :
    Engaged y ↔ (dropped = true → x.manager.tradeCompleted = true) := by
  cases dropped with
  | false =>
    exact iff_of_true (engaged_of_booked booked (kept rfl) engaged)
      (fun gone => Bool.noConfusion gone)
  | true =>
    obtain ⟨pending, flat⟩ := given rfl
    have unheld : x.book.held = false := by
      rw [book, OrderManager.book, pending]
      rfl
    have same : y.manager.tradeCompleted = x.manager.tradeCompleted := by
      obtain ⟨risk, _, booked⟩ := booked
      have idle : y.book.held = false := OrderManager.held_of_flat flat
      have buffer : y.manager.tradeCompleted = y.book.tradeCompleted := rfl
      rw [buffer]
      generalize y.book = after at booked idle
      cases booked with
      | same => rfl
      | opens before => exact absurd idle Bool.noConfusion
      | closes held closed => exact absurd (unheld.symm.trans held) Bool.false_ne_true
    rw [Engaged, flat, same]
    simp only [Bool.true_eq_false, false_or, true_imp_iff]

/-- A call that hands the order manager another risk manager changes no trade. -/
theorem host_trades (host : Host) (now : Int) (risk : RiskManager) (regime : Option RegimeState)
    (x : Executor) :
    (x.step host (.call ⟨now, .host risk regime⟩)).manager.pos = x.manager.pos ∧
      (x.step host (.call ⟨now, .host risk regime⟩)).manager.tradeCompleted =
        x.manager.tradeCompleted := by
  simp only [step, perform]
  split
  · exact ⟨rfl, rfl⟩
  · exact ⟨rfl, rfl⟩

/-- In a running cycle a position, a pending entry or a waiting trade stays with the
order manager until the trade is read, unless a pending entry is given up while no
trade waits. -/
theorem engaged_step_iff {event : Event} (live : x.stage = .live) (unread : x.popped event = none)
    (engaged : Engaged x) :
    Engaged (x.step host event) ↔
      (x.dropsEntry host event = true → x.manager.tradeCompleted = true) := by
  have ledger (same : (x.step host event).ledgerOf = x.ledgerOf)
      (quiet : x.dropsEntry host event = false) :
      Engaged (x.step host event) ↔
        (x.dropsEntry host event = true → x.manager.tradeCompleted = true) := by
    refine iff_of_true (engaged_of_ledger same engaged) (fun gone => ?_)
    exact absurd (quiet.symm.trans gone) Bool.false_ne_true
  have booked (within : WithinCycle x event) (pops : Event.pops event = false)
      (rolls : Event.rolls event = false) :
      Engaged (x.step host event) ↔
        (x.dropsEntry host event = true → x.manager.tradeCompleted = true) := by
    refine engaged_of_booked_iff (step_booked event x within pops rolls) engaged _ ?_ ?_
    · intro gone
      have pending : x.manager.pos.state = .pendingEntry := by
        simp only [dropsEntry, Bool.and_eq_true, decide_eq_true_eq] at gone
        exact gone.1.2
      exact ⟨pending, (step_pending event live pending).trans gone⟩
    · intro stays pending
      exact (step_pending event live pending).trans stays
  cases event with
  | start history =>
    refine ledger ?_ (Bool.and_false _)
    simp only [step, perform, live, reduceCtorEq, false_and, ↓reduceIte]
    rfl
  | connected connection => exact ledger (connected_ledger connection x) (Bool.and_false _)
  | rollover date => exact ledger (rollover_ledger date x) (Bool.and_false _)
  | call call =>
    obtain ⟨now, op⟩ := call
    cases op with
    | popCompleted => exact ledger (unread_ledger now x unread) (Bool.and_false _)
    | host risk regime =>
      have quiet : x.dropsEntry host (.call ⟨now, .host risk regime⟩) = false := Bool.and_false _
      obtain ⟨pos, completed⟩ := host_trades host now risk regime x
      refine iff_of_true ((engaged_congr (congrArg Position.state pos) completed).mpr engaged) ?_
      intro gone
      exact absurd (quiet.symm.trans gone) Bool.false_ne_true
    | _ => exact booked trivial rfl rfl
  | _ => exact booked trivial rfl rfl

end Executor

namespace Trader

variable (host : Host) (engine : Engine)

/-- In a running cycle whose feed is past its replay, the strategy is in no position
where the order manager is flat and has no closed trade left to report. -/
def InStep (x : Trader) : Prop :=
  x.executor.stage = .live → x.replaying = false → x.executor.manager.isFlat = true →
    x.executor.manager.tradeCompleted = false → x.inPosition = .none
deriving Decidable

/-! ## What keeps a strategy in step -/

/-- An entry signal becomes an order, or finds the order manager engaged, or is that of
an engine which the host releases. -/
def EntryHeard (x : Trader) (event : Event) : Prop :=
  (x.executor.signalled event).any OrbSignal.isEntry = true →
    engine.settles = true ∨ x.executor.Engaged ∨ x.executor.manager.takesEntry host = true

/-- No pending entry of a strategy in a position is given up, unless a trade that was
closed before is still to be reported or the flatten signal of an engine which the host
releases gives it up. -/
def EntryStands (x : Trader) (event : Event) : Prop :=
  x.inPosition ≠ .none → x.executor.dropsEntry host event = true →
    x.executor.manager.tradeCompleted = true ∨
      engine.settles = true ∧ x.executor.signalled event = some .flattenEod

/-- A cycle that begins without a position finds the strategy in none, unless the end of
its replay will release the strategy. -/
def BeginsReleased (x : Trader) : Event → Prop
  | .connected _ =>
    x.executor.stage = .connecting → engine.replays = false → ¬x.executor.Engaged →
      (if x.executor.today.isNone then engine.resetSession x.inPosition else x.inPosition) =
        .none
  | _ => True

/-- A happening that keeps the strategy in step. A gate keeps an entry only from an
engine which the host releases, or while the order manager is engaged. -/
def KeepsStep (x : Trader) : Happening → Prop
  | .event event =>
    (x.replaying = false →
      EntryHeard host engine x event ∧ EntryStands host engine x event ∧
        LegMatches engine x event) ∧
      BeginsReleased engine x event
  | .gated sig =>
    x.executor.stage = .live → x.executor.session.riskHalted = false → sig.isEntry = true →
      x.replaying = false → engine.settles = true ∨ x.executor.Engaged
  | .replayEnds => True

variable {host} {engine}

/-! ## One event -/

/-- In step: past its replay, a strategy in a position has an order manager that is engaged. -/
theorem inStep_iff (x : Trader) :
    InStep x ↔ (x.executor.stage = .live → x.replaying = false → x.inPosition ≠ .none →
      x.executor.Engaged) := by
  simp only [InStep, Executor.Engaged]
  constructor
  · intro after live fresh believes
    by_contra idle
    rw [not_or, Bool.not_eq_false, Bool.not_eq_true] at idle
    exact believes (after live fresh idle.1 idle.2)
  · intro after live fresh flat empty
    by_contra believes
    rcases after live fresh believes with open_ | waits
    · exact Bool.false_ne_true (open_.symm.trans flat)
    · exact Bool.false_ne_true (empty.symm.trans waits)

variable {x : Trader} {event : Event} {sig : OrbSignal}

/-- Only a live cycle drops an entry, and it stays live. -/
theorem stage_of_drops (drops : x.executor.dropsEntry host event = true) :
    x.executor.stage = .live ∧ (x.executor.step host event).stage = .live := by
  have acts := drops
  simp only [Executor.dropsEntry, Bool.and_eq_true, decide_eq_true_eq] at acts
  obtain ⟨⟨live, pending⟩, acts⟩ := acts
  refine ⟨live, ?_⟩
  have same := Executor.step_stage host event x.executor
    (fun history shape => by subst shape; exact Bool.false_ne_true acts)
    (fun connection shape => by subst shape; exact Bool.false_ne_true acts)
  rcases same with same | ⟨_, manager⟩
  · exact same.trans live
  · have flat := (Executor.step_pending event live pending).trans drops
    rw [manager] at flat
    exact absurd ((OrderManager.isFlat_of_pending pending).symm.trans flat) Bool.false_ne_true

/-- A strategy that keeps its position stays in step unless its entry is given up. -/
theorem kept_iff (live : x.executor.stage = .live) (fresh : x.replaying = false) (inStep : InStep x)
    (unread : x.executor.popped event = none) :
    InStep ⟨x.executor.step host event, x.inPosition, false⟩ ↔
      (x.inPosition ≠ .none → x.executor.dropsEntry host event = true →
        x.executor.manager.tradeCompleted = true) := by
  have engaged (believes : x.inPosition ≠ .none) : x.executor.Engaged :=
    (inStep_iff x).mp inStep live fresh believes
  rw [inStep_iff]
  constructor
  · intro after believes drops
    exact (Executor.engaged_step_iff live unread (engaged believes)).mp
      (after (stage_of_drops drops).2 rfl believes) drops
  · intro stands _ _ believes
    exact (Executor.engaged_step_iff live unread (engaged believes)).mpr (stands believes)

theorem call_stage (call : Call) (x : Executor) :
    (x.step host (.call call)).stage = x.stage := by
  simp only [Executor.step, Executor.perform]
  split
  · rfl
  · rfl

/-- Of the calls only a flatten signal gives up an entry by a signal. -/
theorem flattens_of_drops (emitted : x.executor.signalled event = some sig)
    (drops : x.executor.dropsEntry host event = true) : sig = .flattenEod := by
  obtain ⟨now, price, dist, rfl, _, _⟩ := Executor.signalled_eq_some emitted
  simp only [Executor.dropsEntry, OrderManager.dropsEntry, Bool.and_eq_true,
    decide_eq_true_eq] at drops
  exact drops.2

/-- Nothing is read by a signal. -/
theorem unread_of_signalled (emitted : x.executor.signalled event = some sig) :
    x.executor.popped event = none := by
  obtain ⟨now, price, dist, rfl, _, _⟩ := Executor.signalled_eq_some emitted
  rfl

theorem heard_of_silent (silent : x.executor.signalled event = none) :
    EntryHeard host engine x event := by
  rw [EntryHeard, silent]
  exact fun entry => absurd entry Bool.false_ne_true

theorem stands_of_stays (stays : x.executor.dropsEntry host event = false) :
    EntryStands host engine x event :=
  fun _ drops => absurd (stays.symm.trans drops) Bool.false_ne_true

theorem leg_of_unread (unread : x.executor.popped event = none) : LegMatches engine x event := by
  rw [LegMatches, unread]
  exact fun _ _ => rfl

/-- An entry signal gives no entry up. -/
theorem stays_of_entry (emitted : x.executor.signalled event = some sig)
    (entry : sig.isEntry = true) : x.executor.dropsEntry host event = false := by
  rw [← Bool.not_eq_true]
  intro drops
  rw [flattens_of_drops emitted drops] at entry
  exact Bool.false_ne_true entry

/-- An entry of an engine that the host does not release keeps it in step exactly where
the order manager is engaged or takes it. -/
theorem entered_iff (emitted : x.executor.signalled event = some sig) (entry : sig.isEntry = true) :
    InStep ⟨x.executor.step host event, sig, false⟩ ↔
      x.executor.Engaged ∨ x.executor.manager.takesEntry host = true := by
  have stays : x.executor.dropsEntry host event = false := stays_of_entry emitted entry
  have unread : x.executor.popped event = none := unread_of_signalled emitted
  obtain ⟨now, price, dist, rfl, live, emits⟩ := Executor.signalled_eq_some emitted
  have stage : (x.executor.step host (.call ⟨now, .signal sig price dist⟩)).stage = .live :=
    (call_stage _ x.executor).trans live
  have manager : (x.executor.step host (.call ⟨now, .signal sig price dist⟩)).manager =
      OrderManager.onSignal host now sig price dist { x.executor.manager with outbox := [] } :=
    Executor.signal_manager live emits
  by_cases engaged : x.executor.Engaged
  · refine iff_of_true ((inStep_iff _).mpr fun _ _ _ => ?_) (.inl engaged)
    refine (Executor.engaged_step_iff live unread engaged).mpr fun gone => ?_
    exact absurd (stays.symm.trans gone) Bool.false_ne_true
  · rw [Executor.Engaged, not_or, Bool.not_eq_false, Bool.not_eq_true] at engaged
    obtain ⟨flat, empty⟩ := engaged
    cases takes : x.executor.manager.takesEntry host with
    | true =>
      refine iff_of_true ((inStep_iff _).mpr fun _ _ _ => .inl ?_) (.inr rfl)
      rw [manager]
      exact OrderManager.onSignal_taken now sig price dist _ entry takes
    | false =>
      obtain ⟨still, none_⟩ := OrderManager.onSignal_refused now sig price dist
        (s := { x.executor.manager with outbox := [] }) entry flat takes
      have unheard : ¬(x.executor.Engaged ∨ false = true) := by
        rintro ((open_ | waits) | never)
        · exact Bool.false_ne_true (open_.symm.trans flat)
        · exact Bool.false_ne_true (empty.symm.trans waits)
        · exact Bool.false_ne_true never
      refine iff_of_false (fun after => ?_) unheard
      have released : sig = .none := after stage rfl (by rw [manager]; exact still) (by
        rw [manager]
        exact none_.trans empty)
      rw [released] at entry
      exact Bool.false_ne_true entry

/-- A signal that reaches the order manager. -/
theorem signalled_iff (fresh : x.replaying = false) (inStep : InStep x)
    (emitted : x.executor.signalled event = some sig) :
    InStep ⟨x.executor.step host event,
        engine.afterSignal sig (x.executor.step host event).manager.isFlat x.inPosition, false⟩ ↔
      EntryHeard host engine x event ∧ EntryStands host engine x event ∧
        LegMatches engine x event := by
  have heard : EntryHeard host engine x event ↔ (sig.isEntry = true →
      engine.settles = true ∨ x.executor.Engaged ∨ x.executor.manager.takesEntry host = true) := by
    rw [EntryHeard, emitted, Option.any_some]
  have unread : x.executor.popped event = none := unread_of_signalled emitted
  rw [heard, and_iff_left (leg_of_unread unread)]
  cases settles : engine.settles with
  | true =>
    refine iff_of_true ((inStep_iff _).mpr fun _ _ believes => ?_) ⟨fun _ => .inl rfl, ?_⟩
    · rcases afterSignal_engaged believes with open_ | unsettled
      · exact .inl open_
      · exact absurd (unsettled.symm.trans settles) Bool.false_ne_true
    · intro _ drops
      have flattens := flattens_of_drops emitted drops
      rw [flattens] at emitted
      exact .inr ⟨settles, emitted⟩
  | false =>
    simp only [Engine.afterSignal, Engine.settle, settles, Bool.false_and, Bool.false_eq_true,
      ↓reduceIte, false_or]
    cases entry : sig.isEntry with
    | true =>
      rw [and_iff_left (stands_of_stays (stays_of_entry emitted entry))]
      simp only [↓reduceIte, true_imp_iff]
      exact entered_iff emitted entry
    | false =>
      obtain ⟨_, _, _, _, live, _⟩ := Executor.signalled_eq_some emitted
      simp only [Bool.false_eq_true, false_imp_iff, true_and, ↓reduceIte, EntryStands, settles,
        false_and, or_false]
      exact kept_iff live fresh inStep unread

/-- A notification leaves the strategy in no position, unless the scalper holds another
leg than the one that was closed. -/
theorem notified_iff (engine : Engine) (direction inPosition : OrbSignal) :
    engine.notifyTradeFilled direction inPosition = .none ↔
      (engine.kind = .mtf → (!direction.isEntry || decide (inPosition = .none) ||
        decide (direction = inPosition)) = true) := by
  rw [Engine.notifyTradeFilled]
  cases engine.kind with
  | orb => exact iff_of_true rfl (fun other => EngineKind.noConfusion other)
  | trend hold => exact iff_of_true rfl (fun other => EngineKind.noConfusion other)
  | mtf =>
    simp only [true_imp_iff, Bool.or_eq_true, Bool.not_eq_true', decide_eq_true_eq]
    split
    next keeps =>
      obtain ⟨entry, holds, other⟩ := keeps
      refine iff_of_false holds ?_
      rintro ((unsided | nothing) | same)
      · exact Bool.false_ne_true (unsided.symm.trans entry)
      · exact holds nothing
      · exact other same
    next clears =>
      refine iff_of_true rfl ?_
      by_contra keeps
      simp only [not_or, Bool.not_eq_false] at keeps
      exact clears ⟨keeps.1.1, keeps.1.2, keeps.2⟩

/-- A closed trade that is reported. -/
theorem popped_iff {completed : Position} (read : x.executor.popped event = some completed) :
    InStep ⟨x.executor.step host event,
        engine.notifyTradeFilled completed.direction x.inPosition, false⟩ ↔
      EntryHeard host engine x event ∧ EntryStands host engine x event ∧
        LegMatches engine x event := by
  cases event with
  | call call =>
    obtain ⟨now, op⟩ := call
    have reads := read
    simp only [Executor.popped, Option.ite_none_right_eq_some] at reads
    obtain ⟨⟨rfl, live⟩, waits⟩ := reads
    have heard : EntryHeard host engine x (.call ⟨now, .popCompleted⟩) := heard_of_silent rfl
    have stands : EntryStands host engine x (.call ⟨now, .popCompleted⟩) :=
      stands_of_stays (Bool.and_false _)
    have emits : x.executor.emits .popCompleted = true := rfl
    have after : (x.executor.step host (.call ⟨now, .popCompleted⟩)).manager =
        (OrderManager.popTradeCompleted { x.executor.manager with outbox := [] }).1 := by
      simp only [Executor.step, Executor.perform]
      rw [if_pos ⟨live, emits⟩]
      rfl
    have manager : (x.executor.step host (.call ⟨now, .popCompleted⟩)).manager.isFlat =
          x.executor.manager.isFlat ∧
        (x.executor.step host (.call ⟨now, .popCompleted⟩)).manager.tradeCompleted = false := by
      rw [after]
      simp only [OrderManager.popTradeCompleted]
      split
      · exact ⟨rfl, rfl⟩
      next empty => exact ⟨rfl, Bool.eq_false_iff.mpr empty⟩
    have stage : (x.executor.step host (.call ⟨now, .popCompleted⟩)).stage = .live :=
      (call_stage _ x.executor).trans live
    have leg : LegMatches engine x (.call ⟨now, .popCompleted⟩) ↔
        (x.executor.manager.isFlat = true →
          engine.notifyTradeFilled completed.direction x.inPosition = .none) := by
      simp only [LegMatches, read, Option.all_some, notified_iff]
      exact imp.swap
    rw [and_iff_right heard, and_iff_right stands, leg, InStep]
    simp only [stage, manager.1, manager.2, true_imp_iff]
  | _ => exact absurd read (Option.some_ne_none _).symm

/-- An event by which the strategy is told nothing. -/
theorem silent_iff (live : x.executor.stage = .live) (fresh : x.replaying = false)
    (inStep : InStep x) (silent : x.executor.signalled event = none)
    (unread : x.executor.popped event = none) :
    InStep ⟨x.executor.step host event, x.inPosition, false⟩ ↔
      EntryHeard host engine x event ∧ EntryStands host engine x event ∧
        LegMatches engine x event := by
  have never : ¬(engine.settles = true ∧ x.executor.signalled event = some .flattenEod) := by
    rw [silent]
    exact fun flattens => absurd flattens.2 (Option.some_ne_none _).symm
  rw [and_iff_right (heard_of_silent silent), and_iff_left (leg_of_unread unread), EntryStands]
  simp only [never, or_false]
  exact kept_iff live fresh inStep unread

/-- An event that tells the strategy nothing and touches no entry asks for nothing. -/
theorem quiet_asks (silent : x.executor.signalled event = none)
    (unread : x.executor.popped event = none) (stays : x.executor.dropsEntry host event = false) :
    EntryHeard host engine x event ∧ EntryStands host engine x event ∧ LegMatches engine x event :=
  ⟨heard_of_silent silent, stands_of_stays stays, leg_of_unread unread⟩

/-- Outside a running cycle nothing is asked of an event. -/
theorem idle_asks (event : Event) (idle : x.executor.stage ≠ .live) :
    EntryHeard host engine x event ∧ EntryStands host engine x event ∧
      LegMatches engine x event := by
  refine quiet_asks ?_ ?_ ?_
  · by_contra emits
    obtain ⟨sig, emitted⟩ := Option.ne_none_iff_exists'.mp emits
    obtain ⟨_, _, _, _, live, _⟩ := Executor.signalled_eq_some emitted
    exact idle live
  · cases event with
    | call call => simp [Executor.popped, idle]
    | _ => rfl
  · simp [Executor.dropsEntry, idle]

/-- The strategy of a running cycle, after an event of its executor. -/
theorem live_iff (live : x.executor.stage = .live) (fresh : x.replaying = false)
    (inStep : InStep x) :
    InStep ⟨x.executor.step host event, x.believes engine event (x.executor.step host event),
        false⟩ ↔
      EntryHeard host engine x event ∧ EntryStands host engine x event ∧
        LegMatches engine x event := by
  cases emitted : x.executor.signalled event with
  | some sig =>
    have believes : x.believes engine event (x.executor.step host event) =
        engine.afterSignal sig (x.executor.step host event).manager.isFlat x.inPosition := by
      have shape := Executor.signalled_eq_some emitted
      obtain ⟨now, price, dist, rfl, _, _⟩ := shape
      simp only [Trader.believes, emitted]
    rw [believes]
    exact signalled_iff fresh inStep emitted
  | none =>
    cases read : x.executor.popped event with
    | some completed =>
      have believes : x.believes engine event (x.executor.step host event) =
          engine.notifyTradeFilled completed.direction x.inPosition := by
        cases event with
        | call call => simp only [Trader.believes, emitted, read]
        | _ => exact absurd read (Option.some_ne_none _).symm
      rw [believes]
      exact popped_iff read
    | none =>
      cases event with
      | connected connection =>
        have believes : x.believes engine (.connected connection)
            (x.executor.step host (.connected connection)) = x.inPosition := by
          simp [Trader.believes, live]
        rw [believes]
        exact silent_iff live fresh inStep emitted read
      | rollover date =>
        have same : (x.executor.step host (.rollover date)).ledgerOf = x.executor.ledgerOf :=
          Executor.rollover_ledger date x.executor
        refine iff_of_true ((inStep_iff _).mpr fun _ _ believes => ?_)
          (quiet_asks emitted read (Bool.and_false _))
        have held : x.inPosition ≠ .none := by
          simp only [Trader.believes] at believes
          split at believes
          · exact resetSession_none believes
          · exact believes
        exact Executor.engaged_of_ledger same ((inStep_iff x).mp inStep live fresh held)
      | _ =>
        simp only [Trader.believes, emitted, read]
        exact silent_iff live fresh inStep emitted read

/-- The first event after the connecting phase. -/
theorem connected_iff (connection : Connection) (connecting : x.executor.stage = .connecting) :
    InStep (x.handle host engine (.connected connection)) ↔
      KeepsStep host engine x (.event (.connected connection)) := by
  have idle : x.executor.stage ≠ .live := by
    rw [connecting]
    decide
  have same : (x.executor.step host (.connected connection)).ledgerOf = x.executor.ledgerOf :=
    Executor.connected_ledger connection x.executor
  have engaged : (x.executor.step host (.connected connection)).Engaged ↔ x.executor.Engaged := by
    simp only [Executor.ledgerOf, Prod.mk.injEq] at same
    exact Executor.engaged_congr (congrArg Position.state same.1) same.2.1
  have begins : (x.executor.step host (.connected connection)).stage = .live := by
    simp only [Executor.step, Executor.perform, connecting, ↓reduceIte]
    exact (Executor.connect_place host connection _).1
  rw [handle_reaching host engine (fun _ => rfl), inStep_iff]
  simp only [KeepsStep, BeginsReleased, connecting, begins, engaged, Trader.believes, replaysAfter,
    true_and, ↓reduceIte, true_imp_iff]
  constructor
  · intro after
    refine ⟨fun _ => idle_asks _ idle, fun replays free => ?_⟩
    by_contra believes
    exact free (after replays believes)
  · rintro ⟨_, released⟩ replays believes
    by_contra free
    exact believes (released replays free)

/-- Outside a running cycle only the end of the connecting phase begins one. -/
theorem step_idle {x : Executor} (idle : x.stage ≠ .live)
    (begins : x.stage = .connecting → ∀ connection, event ≠ .connected connection) :
    (x.step host event).stage ≠ .live := by
  by_cases starts : ∃ history, event = .start history
  · obtain ⟨history, rfl⟩ := starts
    simp only [Executor.step, Executor.perform]
    split
    · exact fun live => Stage.noConfusion live
    · exact idle
  · by_cases connects : ∃ connection, event = .connected connection
    · obtain ⟨connection, rfl⟩ := connects
      simp only [Executor.step, Executor.perform]
      split
      next connecting => exact absurd rfl (begins connecting connection)
      next => exact idle
    · rcases Executor.step_stage host event x (fun history shape => starts ⟨history, shape⟩)
        (fun connection shape => connects ⟨connection, shape⟩) with same | ⟨down, _⟩
      · rw [same]
        exact idle
      · rw [down]
        decide

/-- An event keeps the strategy in step exactly where it meets the condition. -/
theorem event_iff (event : Event) (inStep : InStep x) :
    InStep (x.handle host engine event) ↔ KeepsStep host engine x (.event event) := by
  by_cases connects : x.executor.stage = .connecting ∧ ∃ connection, event = .connected connection
  · obtain ⟨connecting, connection, rfl⟩ := connects
    exact connected_iff connection connecting
  · have began : BeginsReleased engine x event := by
      cases event with
      | connected connection =>
        exact fun connecting => absurd ⟨connecting, connection, rfl⟩ connects
      | _ => trivial
    have replays : x.replaysAfter engine event = x.replaying := by
      cases event with
      | connected connection =>
        refine if_neg fun connecting => connects ⟨connecting, connection, rfl⟩
      | _ => rfl
    rw [KeepsStep, and_iff_left began]
    cases replaying : x.replaying with
    | true =>
      refine iff_of_true (fun _ fresh => ?_) (fun fresh => absurd fresh.symm Bool.false_ne_true)
      have still : (x.handle host engine event).replaying = true := by
        rw [handle, replaying]
        split
        · rfl
        · exact replays.trans replaying
      exact absurd (fresh.symm.trans still) Bool.false_ne_true
    | false =>
      have handled : x.handle host engine event =
          ⟨x.executor.step host event, x.believes engine event (x.executor.step host event),
            false⟩ := by
        rw [handle_reaching host engine fun again =>
          absurd (replaying.symm.trans again) Bool.false_ne_true, replays, replaying]
      rw [handled]
      simp only [true_imp_iff]
      by_cases live : x.executor.stage = .live
      · exact live_iff live replaying inStep
      · have idle : (x.executor.step host event).stage ≠ .live :=
          step_idle live fun connecting connection shape => connects ⟨connecting, connection, shape⟩
        exact iff_of_true (fun again => absurd again idle) (idle_asks event live)

/-- From in step, one happening ends in step exactly when the engine is told of it. -/
theorem happening_iff (happening : Happening) (inStep : InStep x) :
    InStep (x.step host engine happening) ↔ KeepsStep host engine x happening := by
  cases happening with
  | event event => exact event_iff event inStep
  | replayEnds =>
    simp only [step, KeepsStep, iff_true]
    split
    · exact fun _ _ _ _ => rfl
    · exact inStep
  | gated sig =>
    simp only [step, KeepsStep]
    split
    next gates =>
      obtain ⟨live, unhalted, entry⟩ := gates
      simp only [live, unhalted, entry, true_imp_iff]
      cases replaying : x.replaying with
      | true =>
        refine iff_of_true (fun _ fresh => ?_) (fun fresh => absurd fresh.symm Bool.false_ne_true)
        exact absurd fresh.symm Bool.false_ne_true
      | false =>
        rw [inStep_iff]
        simp only [live, Bool.false_eq_true, ↓reduceIte, true_imp_iff]
        constructor
        · intro after
          cases settles : engine.settles with
          | true => exact .inl rfl
          | false =>
            refine .inr (after ?_)
            simp only [Engine.afterSignal, Engine.settle, settles, entry, Bool.false_and,
              Bool.false_eq_true, ↓reduceIte]
            intro nothing
            rw [nothing] at entry
            exact Bool.false_ne_true entry
        · intro kept believes
          rcases afterSignal_engaged believes with open_ | unsettled
          · exact .inl open_
          · rcases kept with settles | engaged
            · exact absurd (unsettled.symm.trans settles) Bool.false_ne_true
            · exact engaged
    next ignored =>
      refine iff_of_true inStep ?_
      intro live unhalted entry
      exact absurd ⟨live, unhalted, entry⟩ ignored

/-! ## Runs -/

/-- Over any number of cycles the strategy is in step after every happening exactly where
each happening meets the condition. -/
theorem strategy_in_step_iff (host : Host) (engine : Engine) (risk : RiskManager)
    (happenings : List Happening) :
    Runs.Along (step host engine) (fun x happening => InStep (x.step host engine happening))
        (fresh risk) happenings ↔
      Runs.Along (step host engine) (KeepsStep host engine) (fresh risk) happenings :=
  Runs.along_invariant_iff (step host engine) InStep (KeepsStep host engine)
    (fun _ happening inStep => happening_iff happening inStep) (fresh risk) happenings
    (fun live => Stage.noConfusion live)

/-- A cycle begins. -/
def begins : List Happening :=
  [.event (.start none), .event (.connected { date := "2026-10-01" })]

/-- The timer asks for a closed trade. -/
def pass : Happening := .event (.call { op := .popCompleted })

/-- The chase limit keeps the first entry of the opening-range engine from the order
manager, and the exchange rejects the first entry of the trend engine: the next pass
finds both order managers flat and both engines in a position. -/
theorem entries_not_released :
    ¬InStep (Runs.run (step .accepting { kind := .orb }) (fresh {})
      (begins ++ [.gated .buy, pass])) ∧
    ¬InStep (Runs.run (step .accepting { kind := .trend false }) (fresh {})
      (begins ++ [.event (.call { op := .signal .buy 20000 0 }),
        .event (.exchange {} { userTag := "MNQ-0-0", notifyType := 6 }), pass])) :=
  ⟨by decide +kernel, by decide +kernel⟩

end Trader

end RithmicEngine
