import RithmicEngine.Execution.StrategyHost
/-!
# Every trade is accounted for

A position that an entry fill opened is held by the order manager of the running
cycle until its close hands the profit to the risk manager; then it waits in the
buffer of the completed trade until a pass of the timer writes its row and tells the
strategy. Buffer and position die with the cycle, the buffer holds one trade, and
nothing tells a strategy of an entry that came to nothing. Where a cycle ends flat
and read, a close finds the buffer empty, and no entry is lost or given up, every
trade is booked once, and the strategy is in no position the order manager does not
hold.
-/
namespace RithmicEngine

namespace OrderManager

/-- The completed trade that has not been read. -/
def waiting (s : OrderManager) : List Position :=
  if s.tradeCompleted then [s.completedPos] else []

/-- An entry signal becomes an order that is taken. -/
def takesEntry (host : Host) (s : OrderManager) : Bool :=
  !(s.entryHalted || s.ghostHalted) && s.risk.canTrade && s.isFlat &&
    (host.cfg.dryRun || host.orderCb.all fun answer => answer (host.basketId s.seq))

end OrderManager

namespace Trader

variable (host : Host) (engine : Engine)

/-- The trades of a run are accounted for: each position that was opened is held or
was closed, each closed trade waits or has its row, and the strategy has been told of
each row once. Only a running cycle holds a position or keeps a trade waiting. Where a
snapshot after a reconnect was flat, a strategy is in no position while the order
manager is flat and no trade waits. -/
@[mk_iff]
structure Accounted (x : Trader) (tally : Tally) : Prop where
  opened : tally.opened = tally.closed.length +
    if x.executor.stage = .live ∧ x.executor.book.held = true then 1 else 0
  closed : tally.closed = tally.rows ++
    if x.executor.stage = .live then x.executor.manager.waiting else []
  notified : tally.notified = tally.rows
  released : tally.confirmedFlat = true → x.executor.stage = .live → x.replaying = false →
    x.executor.manager.isFlat = true → x.executor.manager.tradeCompleted = false →
    x.inPosition = .none

/-- The risk manager is handed the profit of the trade that a step closes, and no other. -/
def BooksProfit (x : Executor) (event : Event) (y : Executor) : Prop :=
  y.manager.risk.totalProfit = x.manager.risk.totalProfit +
    ((x.closed event y).toList.map Position.pnlUsd).sum

/-- What one happening should do. The seeding at the start of a cycle is no trade. -/
structure TradesOnce (pair : Trader × Tally) (happening : Happening) : Prop where
  accounted : Accounted (watch host engine pair happening).1 (watch host engine pair happening).2
  profit : ∀ event, happening = .event event → (∀ history, event ≠ .start history) →
    BooksProfit pair.1.executor event (watch host engine pair happening).1.executor

/-! ## What keeps the accounts -/

/-- A cycle ends with the order manager flat and no trade waiting. -/
def EndsClean (x y : Executor) : Prop :=
  x.stage = .live → y.stage = .down →
    x.manager.isFlat = true ∧ x.manager.tradeCompleted = false
deriving Decidable

/-- A close finds the buffer of the completed trade empty. -/
def ClosesAlone (x y : Executor) : Prop :=
  x.stage = .live → x.book.held = true → y.book.held = false → x.manager.tradeCompleted = false
deriving Decidable

/-- An entry signal that finds the order manager flat is taken, or the engine is
released by the host. -/
def EntryTaken (x : Executor) (event : Event) : Prop :=
  (x.signalled event).any OrbSignal.isEntry = true → x.manager.isFlat = true →
    engine.settles = true ∨ x.manager.takesEntry host = true
deriving Decidable

/-- A pending entry is given up only by the flatten signal of an engine that the host
releases. -/
def EntryKept (x : Executor) (event : Event) (y : Executor) : Prop :=
  x.stage = .live → x.manager.pos.state = .pendingEntry → y.manager.isFlat = true →
    engine.settles = true ∧ x.signalled event = some .flattenEod
deriving Decidable

/-- The scalper is told of the leg it is in, unless the next one is under way. -/
def LegMatches (x : Trader) (event : Event) : Prop :=
  engine.kind = .mtf → x.executor.manager.isFlat = true →
    (x.executor.popped event).all (fun completed =>
      !completed.direction.isEntry || decide (x.inPosition = .none) ||
        decide (completed.direction = x.inPosition)) = true
deriving Decidable

/-- No flatten signal of an engine that the host releases closes at once, as in a dry run. -/
def ExitSent (x : Executor) (event : Event) : Prop :=
  engine.settles = true → x.signalled event = some .flattenEod → x.book.held = true →
    host.cfg.dryRun = false
deriving Decidable

/-- The calls of a cycle never replace the risk manager. -/
def KeepsRisk (x : Executor) : Event → Prop
  | .call call =>
    match call.op with
    | .host risk _ => risk = x.manager.risk
    | _ => True
  | _ => True

/-- A happening that keeps the accounts. -/
def Orderly (x : Trader) : Happening → Prop
  | .event event =>
    EndsClean x.executor (x.executor.step host event) ∧
      ClosesAlone x.executor (x.executor.step host event) ∧
      EntryTaken host engine x.executor event ∧
      EntryKept engine x.executor event (x.executor.step host event) ∧
      LegMatches engine x event ∧ ExitSent host engine x.executor event
  | .gated sig =>
    sig.isEntry = true → x.executor.session.riskHalted = false → x.replaying = false →
      x.executor.manager.isFlat = true → engine.settles = true
  | .replayEnds => True

/-- A happening of the executor itself. -/
def Proper (x : Trader) : Happening → Prop
  | .event event => KeepsRisk x.executor event
  | _ => True

instance (x : Trader) (tally : Tally) : Decidable (Accounted x tally) :=
  decidable_of_iff' _ (accounted_iff ..)

instance (x : Executor) (event : Event) : Decidable (KeepsRisk x event) := by
  apply Event.casesOn (motive := fun event => Decidable (KeepsRisk x event)) event
  case call =>
    intro call
    apply Op.casesOn (motive := fun op => Decidable (KeepsRisk x (.call ⟨call.now, op⟩))) call.op
    all_goals
      intros
      dsimp only [KeepsRisk]
      infer_instance
  all_goals
    intros
    dsimp only [KeepsRisk]
    infer_instance

instance (x : Trader) (happening : Happening) : Decidable (Orderly host engine x happening) := by
  unfold Orderly
  split
  all_goals infer_instance

instance (x : Trader) (happening : Happening) : Decidable (Proper x happening) := by
  unfold Proper
  split
  all_goals infer_instance

end Trader

/-! ## One event of the executor -/

namespace OrderManager

variable {host : Host}

theorem isFlat_of_held {s : OrderManager} (held : s.book.held = true) : s.isFlat = false := by
  cases state : s.pos.state with
  | flat =>
    simp only [book, state, PosState.isHeld] at held
    exact absurd held Bool.false_ne_true
  | _ => simp [isFlat, state]

theorem held_of_flat {s : OrderManager} (flat : s.isFlat = true) : s.book.held = false := by
  cases held : s.book.held with
  | false => rfl
  | true =>
    rw [isFlat_of_held held] at flat
    exact absurd flat Bool.false_ne_true

/-- A pending entry that is filled or ignored is not flat. -/
theorem pendingFill_open (now : Int) (basket : String) (price : ℚ) (qty : Int) (s : OrderManager)
    (pending : s.pos.state = .pendingEntry) :
    (onFillNotificationLocked host now basket price qty true s).isFlat = false := by
  have accumulated := accumulateFill_pos basket price qty s
  simp only [onFillNotificationLocked, ↓reduceIte]
  generalize accumulateFill basket price qty s = answer at accumulated ⊢
  obtain ⟨c, average⟩ := answer
  have waits : c.pos.state = .pendingEntry := (congrArg Position.state accumulated).trans pending
  simp only [waits, ne_eq, not_true_eq_false, ↓reduceIte]
  cases booked : (entryFill host now basket average qty c).book.held with
  | true => exact isFlat_of_held booked
  | false =>
    simp only [entryFill] at booked ⊢
    split_ifs at booked ⊢
    · simp [isFlat, waits]
    · simp [isFlat, waits]
    · rw [submitStop_book] at booked
      simp only [book, openedPosition, heldState_isHeld] at booked
      exact absurd booked.symm Bool.false_ne_true

/-- A taken entry signal leaves the order manager with a pending entry or a position. -/
theorem onSignal_taken (now : Int) (sig : OrbSignal) (price dist : ℚ) (s : OrderManager)
    (entry : sig.isEntry = true) (takes : s.takesEntry host = true) :
    (onSignal host now sig price dist s).isFlat = false := by
  simp only [takesEntry, Bool.and_eq_true, Bool.not_eq_true', isFlat, decide_eq_true_eq]
    at takes
  obtain ⟨⟨⟨halts, trade⟩, flat⟩, answers⟩ := takes
  have opens : (openEntry host now sig price dist s).isFlat = false := by
    simp only [openEntry, sendMarketOrder]
    split
    · exact pendingFill_open now _ _ _ _ rfl
    next sends =>
      split
      · rfl
      next answer set =>
        simp only [Bool.not_eq_true] at sends
        simp only [sends, set, Option.all_some, Bool.false_or] at answers
        simp only [answers, ↓reduceIte]
        rfl
  cases sig with
  | buy =>
    simp only [onSignal, halts, trade, flat, Bool.false_eq_true, Bool.true_eq_false, ne_eq,
      not_true_eq_false, ↓reduceIte]
    exact opens
  | sell =>
    simp only [onSignal, halts, trade, flat, Bool.false_eq_true, Bool.true_eq_false, ne_eq,
      not_true_eq_false, ↓reduceIte]
    exact opens
  | none => exact absurd entry Bool.false_ne_true
  | flattenEod => exact absurd entry Bool.false_ne_true

end OrderManager

namespace Executor

variable {host : Host}

/-- The position, the waiting trade and the total profit. -/
def ledgerOf (x : Executor) : Position × Bool × Position × ℚ :=
  (x.manager.pos, x.manager.tradeCompleted, x.manager.completedPos,
    x.manager.risk.totalProfit)

theorem resetDaily_totalProfit (risk : RiskManager) :
    risk.resetDaily.totalProfit = risk.totalProfit := by
  simp only [RiskManager.resetDaily]
  split
  · split
    · split
      · rfl
      · rfl
    · rfl
  · rfl

/-- A rollover and the end of the connecting phase leave the trades alone. -/
theorem connected_ledger (connection : Connection) (x : Executor) :
    (x.step host (.connected connection)).ledgerOf = x.ledgerOf := by
  simp only [step, perform]
  split
  · simp only [connect, freshStart, halt, onManager]
    split_ifs
    all_goals simp only [ledgerOf, resetDaily_totalProfit]
  · rfl

theorem rollover_ledger (date : String) (x : Executor) :
    (x.step host (.rollover date)).ledgerOf = x.ledgerOf := by
  simp only [step, perform]
  split
  · simp only [rollover, onManager, ledgerOf, resetDaily_totalProfit]
  · rfl

variable {y : Executor} (event : Event) (x : Executor)

variable (host) in
/-- Within a cycle the stage changes only to its end, which leaves the order manager as
it is. -/
theorem step_stage (starts : ∀ history, event ≠ .start history)
    (connects : ∀ connection, event ≠ .connected connection) :
    (x.step host event).stage = x.stage ∨
      ((x.step host event).stage = .down ∧
        (x.step host event).manager = { x.manager with outbox := [] }) := by
  have same (place_eq : place (x.step host event) = place
      { x with sent := [], manager := { x.manager with outbox := [] } }) :
      (x.step host event).stage = x.stage := congrArg Prod.fst place_eq
  cases event with
  | start history => exact absurd rfl (starts history)
  | connected connection => exact absurd rfl (connects connection)
  | order moment notice =>
    refine .inl (same ?_)
    simp only [step, perform]
    split
    · exact (orderMessage_steady host moment notice _).place_eq
    · rfl
  | exchange moment notice =>
    refine .inl (same ?_)
    simp only [step, perform]
    split
    · exact (handled_steady _ _).place_eq
    · rfl
  | response moment basketId rpCode =>
    refine .inl (same ?_)
    simp only [step, perform]
    split
    · exact (handled_steady _ _).place_eq
    · rfl
  | position moment update =>
    refine .inl (same ?_)
    simp only [step, perform]
    split
    · exact handlePosUpdate_place host moment update _
    · rfl
  | recheck moment =>
    refine .inl (same ?_)
    simp only [step, perform]
    split
    · rfl
    · split
      · exact reconcileNet_place host moment _ false _
      · rfl
  | call call =>
    refine .inl ?_
    simp only [step, perform]
    split
    · rfl
    · rfl
  | pnlResponse | feedStale | feedResumed | rollover | shutdown =>
    refine .inl ?_
    simp only [step, perform, Executor.feedResumed, Executor.rollover, halt, onManager]
    split_ifs
    all_goals rfl
  | earlyReturn | drained | readError =>
    simp only [step, perform, endCycle]
    split_ifs
    · exact .inr ⟨rfl, rfl⟩
    · exact .inl rfl
  | stopped => exact .inr ⟨rfl, rfl⟩
  | mainLoopExit =>
    simp only [step, perform, endCycle]
    split_ifs
    · exact .inr ⟨rfl, rfl⟩
    · exact .inl rfl
    · exact .inl rfl

variable (host) in
/-- Before a cycle is connected and after it has ended nothing reaches the trades. -/
theorem idle_ledger (starts : ∀ history, event ≠ .start history) (idle : x.stage ≠ .live) :
    (x.step host event).ledgerOf = x.ledgerOf := by
  have quiet : reading host { x with sent := [], manager := { x.manager with outbox := [] } } =
      false := by
    simp [reading, idle]
  cases event with
  | start history => exact absurd rfl (starts history)
  | connected connection => exact connected_ledger connection x
  | rollover date => exact rollover_ledger date x
  | stopped => rfl
  | recheck moment =>
    simp only [step, perform, idle, false_and, ↓reduceIte]
    split
    · rfl
    · rfl
  | _ =>
    simp only [step, perform, quiet, idle, false_and, Bool.false_eq_true, ↓reduceIte]
    try split
    all_goals rfl

/-- What one event does to the trades: reading takes from the buffer, a close puts into
it, and a position is opened or closed. -/
structure Moves (x : Executor) (event : Event) (y : Executor) : Prop where
  queue : (x.popped event).toList ++ y.manager.waiting =
    x.manager.waiting ++ (x.closed event y).toList
  count : (if y.book.held then 1 else 0) + (x.closed event y).toList.length =
    (if x.book.held then 1 else 0) + if !x.book.held && y.book.held then 1 else 0

/-- A step that keeps a position or its absence closes none. -/
theorem closed_of_held {x : Executor} (same : y.book.held = x.book.held) :
    x.closed event y = none := by
  simp only [closed]
  split
  · rfl
  · rw [same, Bool.and_not_self]
    rfl

/-- An event that leaves the books and reads no trade moves nothing. -/
theorem moves_of_ledger {x : Executor} (pops : x.popped event = none)
    (same : y.ledgerOf = x.ledgerOf) : Moves x event y ∧ Trader.BooksProfit x event y := by
  simp only [ledgerOf, Prod.mk.injEq] at same
  obtain ⟨pos, completed, completedPos, total⟩ := same
  have held : y.book.held = x.book.held := by
    simp only [book, OrderManager.book, pos]
  have none_ := closed_of_held event held
  refine ⟨⟨?_, ?_⟩, ?_⟩
  · simp [pops, none_, OrderManager.waiting, completed, completedPos]
  · rw [none_, held, Bool.not_and_self]
    rfl
  · simp [Trader.BooksProfit, total, none_]

theorem onTradePnl_totalProfit (risk : RiskManager) (pnl : ℚ) :
    (risk.onTradePnl (some pnl)).totalProfit = risk.totalProfit + pnl := by
  have checked (booked : RiskManager) : booked.checkLimits.totalProfit = booked.totalProfit := by
    simp only [RiskManager.checkLimits]
    split_ifs
    all_goals rfl
  exact checked (risk.book pnl)

theorem totalProfit_of_halted {before after : RiskManager} (halted : before.HaltedFrom after) :
    after.totalProfit = before.totalProfit := by
  rcases halted with rfl | ⟨reason, rfl⟩
  · rfl
  · rfl

/-- An event of a running cycle that closes a trade into an empty buffer. -/
theorem moves_of_booked {x : Executor} (starts : ∀ history, event ≠ .start history)
    (pops : x.popped event = none) (booked : CycleBooked x.book y.book)
    (alone : x.book.held = true → y.book.held = false → x.manager.tradeCompleted = false) :
    Moves x event y ∧ Trader.BooksProfit x event y := by
  obtain ⟨risk, halted, booked⟩ := booked
  have total : risk.totalProfit = x.book.risk.totalProfit := totalProfit_of_halted halted
  have waiting (z : Executor) : z.manager.waiting =
      if z.book.tradeCompleted then [z.book.completedPos] else [] := rfl
  have profit (z : Executor) : z.manager.risk = z.book.risk := rfl
  have buffer : x.manager.tradeCompleted = x.book.tradeCompleted := rfl
  have ends : x.closed event y =
      if x.book.held && !y.book.held then some y.book.completedPos else none := by
    cases event with
    | start history => exact absurd rfl (starts history)
    | _ => rfl
  rw [buffer] at alone
  generalize afterIs : y.book = after at booked alone ends
  cases booked with
  | same =>
    have none_ : x.closed event y = none := closed_of_held event (by rw [afterIs])
    refine ⟨⟨?_, ?_⟩, ?_⟩
    · simp [pops, none_, waiting, afterIs]
    · simp [none_, afterIs]
    · simp [Trader.BooksProfit, profit, afterIs, total, none_]
  | opens idle =>
    have before : x.book.held = false := idle
    have none_ : x.closed event y = none := by
      rw [ends, before, Bool.false_and]
      rfl
    refine ⟨⟨?_, ?_⟩, ?_⟩
    · simp [pops, none_, waiting, afterIs]
    · simp [none_, afterIs, before]
    · simp [Trader.BooksProfit, profit, afterIs, total, none_]
  | closes held closed =>
    have before : x.book.held = true := held
    have empty : x.book.tradeCompleted = false := alone before rfl
    have one : x.closed event y = some closed := by
      rw [ends, before, Bool.not_false, Bool.and_self]
      rfl
    refine ⟨⟨?_, ?_⟩, ?_⟩
    · simp [pops, one, waiting, afterIs, empty]
    · simp [one, afterIs, before]
    · simp [Trader.BooksProfit, profit, afterIs, one, onTradePnl_totalProfit, total]

/-- A pass that finds no trade leaves the trades alone. -/
theorem unread_ledger (now : Int) (x : Executor)
    (unread : x.popped (.call ⟨now, .popCompleted⟩) = none) :
    (x.step host (.call ⟨now, .popCompleted⟩)).ledgerOf = x.ledgerOf := by
  have emitted (y : Executor) : y.emits .popCompleted = true := rfl
  by_cases live : x.stage = .live
  · cases completed : x.manager.tradeCompleted with
    | true =>
      simp only [popped, live, and_self, ↓reduceIte, OrderManager.popTradeCompleted,
        completed] at unread
      exact absurd unread (Option.some_ne_none _)
    | false =>
      simp [step, perform, live, emitted, onManager, OrderManager.perform,
        OrderManager.popTradeCompleted, completed, ledgerOf]
  · exact idle_ledger host _ x (fun history => Event.noConfusion) live

/-- A pass reads the waiting trade. -/
theorem moves_of_pop (now : Int) (x : Executor) :
    Moves x (.call ⟨now, .popCompleted⟩) (x.step host (.call ⟨now, .popCompleted⟩)) ∧
      Trader.BooksProfit x (.call ⟨now, .popCompleted⟩)
        (x.step host (.call ⟨now, .popCompleted⟩)) := by
  cases read : x.popped (.call ⟨now, .popCompleted⟩) with
  | none => exact moves_of_ledger _ read (unread_ledger now x read)
  | some trade =>
    have found : x.stage = .live ∧ x.manager.popTradeCompleted.2 = some trade := by
      simpa only [popped, true_and, Option.ite_none_right_eq_some] using read
    obtain ⟨live, buffered⟩ := found
    have emitted (y : Executor) : y.emits .popCompleted = true := rfl
    cases completed : x.manager.tradeCompleted with
    | true =>
      have after : (x.step host (.call ⟨now, .popCompleted⟩)).manager =
          { x.manager with outbox := [], tradeCompleted := false } := by
        simp [step, perform, live, emitted, onManager, OrderManager.perform,
          OrderManager.popTradeCompleted, completed]
      have held : (x.step host (.call ⟨now, .popCompleted⟩)).book.held = x.book.held := by
        simp only [book, after, OrderManager.book]
      have none_ := closed_of_held (.call ⟨now, .popCompleted⟩) held
      simp only [OrderManager.popTradeCompleted, completed, ↓reduceIte, Option.some.injEq]
        at buffered
      refine ⟨⟨?_, ?_⟩, ?_⟩
      · simp [read, none_, OrderManager.waiting, completed, after, buffered]
      · rw [none_, held, Bool.not_and_self]
        rfl
      · simp [Trader.BooksProfit, after, none_]
    | false =>
      simp only [OrderManager.popTradeCompleted, completed, Bool.false_eq_true, ↓reduceIte]
        at buffered
      exact absurd buffered.symm (Option.some_ne_none trade)

/-- Outside a running cycle the order manager is flat and no trade waits. -/
def Idle (x : Executor) : Prop :=
  x.stage ≠ .live → x.manager.isFlat = true ∧ x.manager.tradeCompleted = false

theorem Idle.held {x : Executor} (idle : Idle x) (stage : x.stage ≠ .live) :
    x.book.held = false := OrderManager.held_of_flat (idle stage).1

theorem Idle.waiting {x : Executor} (idle : Idle x) (stage : x.stage ≠ .live) :
    x.manager.waiting = [] := by
  simp [OrderManager.waiting, (idle stage).2]

/-- An event that keeps the risk manager is within the cycle. -/
theorem within_of_keepsRisk {event : Event} {x : Executor} (keeps : Trader.KeepsRisk x event)
    (starts : ∀ history, event ≠ .start history)
    (connects : ∀ connection, event ≠ .connected connection) : WithinCycle x event := by
  cases event with
  | start history => exact absurd rfl (starts history)
  | connected connection => exact absurd rfl (connects connection)
  | call call => exact keeps
  | _ => trivial

theorem popped_of_pops {event : Event} {x : Executor} (pops : Event.pops event = false) :
    x.popped event = none := by
  cases event with
  | call call =>
    have other : call.op ≠ .popCompleted := by
      simpa only [Event.pops, decide_eq_false_iff_not] using pops
    simp [popped, other]
  | _ => rfl

/-- Every event but the start of a cycle moves the trades. -/
theorem event_moves (starts : ∀ history, event ≠ .start history) (idle : Idle x)
    (keeps : Trader.KeepsRisk x event) (alone : Trader.ClosesAlone x (x.step host event)) :
    Moves x event (x.step host event) ∧ Trader.BooksProfit x event (x.step host event) := by
  cases pops : Event.pops event with
  | true =>
    cases event with
    | call call =>
      obtain ⟨now, op⟩ := call
      have read : op = .popCompleted := by
        simpa only [Event.pops, decide_eq_true_eq] using pops
      subst read
      exact moves_of_pop now x
    | _ => exact absurd pops Bool.false_ne_true
  | false =>
    have unread := popped_of_pops (x := x) pops
    by_cases connects : ∀ connection, event ≠ .connected connection
    · cases rolls : Event.rolls event with
      | true =>
        cases event with
        | rollover date => exact moves_of_ledger _ unread (rollover_ledger date x)
        | _ => exact absurd rolls Bool.false_ne_true
      | false =>
        refine moves_of_booked event starts unread
          (step_booked event x (within_of_keepsRisk keeps starts connects) pops rolls) ?_
        intro held closes
        by_cases live : x.stage = .live
        · exact alone live held closes
        · exact (idle live).2
    · simp only [not_forall, not_not] at connects
      obtain ⟨connection, rfl⟩ := connects
      exact moves_of_ledger _ unread (connected_ledger connection x)

/-- A new cycle begins with nothing, and the last one left nothing. -/
theorem start_moves (history : Option AccountHistory) (x : Executor) (idle : Idle x) :
    Moves x (.start history) (x.step host (.start history)) ∧
      Idle (x.step host (.start history)) := by
  by_cases begins : x.stage = .down ∧ x.running = true
  · have down : x.stage ≠ .live := by
      rw [begins.1]
      decide
    have after : (x.step host (.start history)).manager.isFlat = true ∧
        (x.step host (.start history)).manager.tradeCompleted = false := by
      simp only [step, perform, begins, and_self, ↓reduceIte]
      exact ⟨rfl, rfl⟩
    have held := OrderManager.held_of_flat after.1
    refine ⟨⟨?_, ?_⟩, fun _ => after⟩
    · rw [idle.waiting down]
      simp [popped, closed, OrderManager.waiting, after.2]
    · have before : (x.step host (.start history)).book.held = false := held
      simp [closed, before, idle.held down]
  · have same : x.step host (.start history) =
        { x with sent := [], manager := { x.manager with outbox := [] } } := by
      simp [step, perform, begins]
    rw [same]
    refine ⟨⟨?_, ?_⟩, idle⟩
    · exact (List.nil_append _).trans (List.append_nil _).symm
    · have held : ({ x with sent := [], manager := { x.manager with outbox := [] } } :
          Executor).book.held = x.book.held := rfl
      rw [held, Bool.not_and_self]
      rfl

/-- A cycle that ends clean leaves nothing. -/
theorem idle_step (idle : Idle x) (ends : Trader.EndsClean x (x.step host event)) :
    Idle (x.step host event) := by
  by_cases starts : ∀ history, event ≠ .start history
  · intro after
    by_cases live : x.stage = .live
    · by_cases connects : ∀ connection, event ≠ .connected connection
      · rcases step_stage host event x starts connects with same | ⟨down, manager⟩
        · exact absurd (same.trans live) after
        · have clean := ends live down
          rw [manager]
          exact clean
      · simp only [not_forall, not_not] at connects
        obtain ⟨connection, rfl⟩ := connects
        have same : (x.step host (.connected connection)).stage = .live := by
          simp [step, perform, live]
        exact absurd same after
    · have same := idle_ledger host event x starts live
      simp only [ledgerOf, Prod.mk.injEq] at same
      obtain ⟨pos, completed, _, _⟩ := same
      simp only [OrderManager.isFlat, pos, completed]
      exact idle live
  · simp only [not_forall, not_not] at starts
    obtain ⟨history, rfl⟩ := starts
    exact (start_moves history x idle).2

end Executor

/-! ## The position the strategy believes in -/

namespace Executor

variable {host : Host}

/-- A position or a pending entry is held, or a trade waits. -/
def Engaged (x : Executor) : Prop :=
  x.manager.isFlat = false ∨ x.manager.tradeCompleted = true

variable {x : Executor}

theorem Idle.not_engaged (idle : Idle x) (stage : x.stage ≠ .live) : ¬Engaged x := by
  obtain ⟨flat, empty⟩ := idle stage
  rintro (open_ | waits)
  · rw [flat] at open_
    exact Bool.false_ne_true open_.symm
  · rw [empty] at waits
    exact Bool.false_ne_true waits

theorem engaged_of_ledger {y : Executor} (same : y.ledgerOf = x.ledgerOf) (engaged : Engaged x) :
    Engaged y := by
  simp only [ledgerOf, Prod.mk.injEq] at same
  simp only [Engaged, OrderManager.isFlat, same]
  exact engaged

/-- Only giving up a pending entry, or reading the trade that waits, ends it. -/
theorem engaged_of_booked {y : Executor} (booked : CycleBooked x.book y.book)
    (kept : x.manager.pos.state = .pendingEntry → y.manager.isFlat = false) (engaged : Engaged x) :
    Engaged y := by
  obtain ⟨risk, _, booked⟩ := booked
  have buffer : y.manager.tradeCompleted = y.book.tradeCompleted := rfl
  generalize afterIs : y.book = after at booked
  cases booked with
  | same =>
    rcases engaged with open_ | waits
    · cases held : x.book.held with
      | true => exact .inl (OrderManager.isFlat_of_held ((congrArg Book.held afterIs).trans held))
      | false =>
        refine .inl (kept ?_)
        simp only [book, OrderManager.book] at held
        cases state : x.manager.pos.state with
        | pendingEntry => rfl
        | flat =>
          simp only [OrderManager.isFlat, state, decide_true] at open_
          exact absurd open_.symm Bool.false_ne_true
        | _ =>
          rw [state] at held
          exact absurd held.symm Bool.false_ne_true
    · exact .inr (by rw [buffer, afterIs]; exact waits)
  | opens idle => exact .inl (OrderManager.isFlat_of_held (congrArg Book.held afterIs))
  | closes held closed => exact .inr (by rw [buffer, afterIs])

/-- A signal is a call, from a strategy of a running cycle. -/
theorem signalled_eq_some {event : Event} {sig : OrbSignal}
    (emitted : x.signalled event = some sig) :
    ∃ now price dist, event = .call ⟨now, .signal sig price dist⟩ ∧ x.stage = .live ∧
      x.emits (.signal sig price dist) = true := by
  cases event with
  | call call =>
    obtain ⟨now, op⟩ := call
    cases op with
    | signal other price dist =>
      simp only [signalled, Option.ite_none_right_eq_some, Option.some.injEq] at emitted
      obtain ⟨⟨live, emits⟩, rfl⟩ := emitted
      exact ⟨now, price, dist, rfl, live, emits⟩
    | _ => exact absurd emitted (Option.some_ne_none sig).symm
  | _ => exact absurd emitted (Option.some_ne_none sig).symm

/-- What the order manager is after a signal. -/
theorem signal_manager {now : Int} {sig : OrbSignal} {price dist : ℚ} (live : x.stage = .live)
    (emits : x.emits (.signal sig price dist) = true) :
    (x.step host (.call ⟨now, .signal sig price dist⟩)).manager =
      OrderManager.onSignal host now sig price dist { x.manager with outbox := [] } := by
  have cleared : Executor.emits (.signal sig price dist)
      { x with sent := [], manager := { x.manager with outbox := [] } } = true := emits
  simp only [step, perform]
  rw [if_pos ⟨live, cleared⟩]
  rfl

/-- Within a cycle a position or a waiting trade stays until the trade is read, unless a
pending entry is given up. -/
theorem engaged_step {event : Event} (keeps : Trader.KeepsRisk x event)
    (starts : ∀ history, event ≠ .start history)
    (connects : ∀ connection, event ≠ .connected connection) (pops : Event.pops event = false)
    (kept : x.manager.pos.state = .pendingEntry → (x.step host event).manager.isFlat = false)
    (engaged : Engaged x) : Engaged (x.step host event) := by
  cases rolls : Event.rolls event with
  | true =>
    cases event with
    | rollover date => exact engaged_of_ledger (rollover_ledger date x) engaged
    | _ => exact absurd rolls Bool.false_ne_true
  | false =>
    exact engaged_of_booked
      (step_booked event x (within_of_keepsRisk keeps starts connects) pops rolls) kept engaged

end Executor

namespace Trader

variable {host : Host} {engine : Engine}

variable {x : Trader} {tally : Tally} {event : Event} {sig : OrbSignal}

/-- Where the engine is not released by the host, or the order manager is not flat, the
flatten of a strategy sends an exit and closes nothing. -/
theorem releasedAs_none (sent : ExitSent host engine x.executor event) :
    x.releasedAs engine event (x.executor.step host event) = none := by
  simp only [releasedAs]
  split
  next released =>
    obtain ⟨flattens, settles, _⟩ := released
    cases held : x.executor.book.held with
    | true =>
      have sends := sent settles flattens held
      obtain ⟨now, price, dist, rfl, live, emits⟩ := Executor.signalled_eq_some flattens
      refine Executor.closed_of_held _ ?_
      have same := OrderManager.flattenNow_book host now "eod_flatten" price
        { x.executor.manager with outbox := [] } sends
      simp only [Executor.book, Executor.signal_manager live emits]
      exact congrArg Book.held same
    | false =>
      obtain ⟨now, price, dist, rfl, _, _⟩ := Executor.signalled_eq_some flattens
      simp [Executor.closed, held]
  next => rfl

/-- What is true after every happening that keeps the accounts. -/
structure Sound (engine : Engine) (x : Trader) (tally : Tally) : Prop where
  idle : x.executor.Idle
  opened : tally.opened = tally.closed.length + if x.executor.book.held then 1 else 0
  closed : tally.closed = tally.rows ++ x.executor.manager.waiting
  notified : tally.notified = tally.rows
  replays : x.replaying = true → engine.replays = true
  believed : x.replaying = false → x.executor.stage = .live ∨ engine.replays = false →
    x.inPosition ≠ .none → x.executor.Engaged

/-- A sound tally accounts for every trade. -/
theorem Sound.accounted (sound : Sound engine x tally) : Accounted x tally where
  opened := by
    rw [sound.opened]
    by_cases live : x.executor.stage = .live
    · simp [live]
    · simp [live, sound.idle.held live]
  closed := by
    rw [sound.closed]
    by_cases live : x.executor.stage = .live
    · simp [live]
    · simp [live, sound.idle.waiting live]
  notified := sound.notified
  released := by
    intro _ live fresh flat empty
    by_contra believes
    rcases sound.believed fresh (.inl live) believes with open_ | waits
    · rw [flat] at open_
      exact Bool.false_ne_true open_.symm
    · rw [empty] at waits
      exact Bool.false_ne_true waits

theorem afterSignal_engaged {inPosition : OrbSignal} {flat : Bool}
    (believes : engine.afterSignal sig flat inPosition ≠ .none) :
    flat = false ∨ engine.settles = false := by
  cases settles : engine.settles with
  | false => exact .inr rfl
  | true =>
    cases flat with
    | false => exact .inl rfl
    | true =>
      refine absurd ?_ believes
      simp only [Engine.afterSignal, Engine.settle, settles, Bool.and_self, ↓reduceIte,
        Engine.notifyTradeFilled]
      split
      · rfl
      · rfl
      · simp [OrbSignal.isEntry]

/-- After a signal that reached the order manager the strategy is in no position that is
not held. -/
theorem believed_signal (emitted : x.executor.signalled event = some sig)
    (taken : EntryTaken host engine x.executor event)
    (kept : EntryKept engine x.executor event (x.executor.step host event))
    (before : x.inPosition ≠ .none → x.executor.Engaged)
    (believes : engine.afterSignal sig (x.executor.step host event).manager.isFlat
      x.inPosition ≠ .none) :
    (x.executor.step host event).Engaged := by
  rcases afterSignal_engaged believes with open_ | unsettled
  · exact .inl open_
  · obtain ⟨now, price, dist, shape, live, emits⟩ := Executor.signalled_eq_some emitted
    subst shape
    have stays (engaged : x.executor.Engaged) :
        (x.executor.step host (.call ⟨now, .signal sig price dist⟩)).Engaged := by
      refine Executor.engaged_step trivial (fun _ => Event.noConfusion)
        (fun _ => Event.noConfusion) rfl ?_ engaged
      intro pending
      by_contra flat
      obtain ⟨settles, _⟩ := kept live pending (by simpa only [Bool.not_eq_false] using flat)
      rw [unsettled] at settles
      exact Bool.false_ne_true settles
    cases entry : sig.isEntry with
    | true =>
      cases flat : x.executor.manager.isFlat with
      | false => exact stays (.inl flat)
      | true =>
        have offered : (x.executor.signalled (.call ⟨now, .signal sig price dist⟩)).any
            OrbSignal.isEntry = true := by
          rw [emitted]
          exact entry
        rcases taken offered flat with settles | takes
        · rw [unsettled] at settles
          exact absurd settles Bool.false_ne_true
        · refine .inl ?_
          rw [Executor.signal_manager live emits]
          exact OrderManager.onSignal_taken now sig price dist _ entry takes
    | false =>
      refine stays (before ?_)
      simpa only [Engine.afterSignal, Engine.settle, unsettled, entry, Bool.false_and,
        Bool.false_eq_true, ↓reduceIte] using believes

/-- A trade that was read leaves the strategy in no position that is not held. -/
theorem believed_read {now : Int} {completed : Position}
    (read : x.executor.popped (.call ⟨now, .popCompleted⟩) = some completed)
    (leg : LegMatches engine x (.call ⟨now, .popCompleted⟩))
    (believes : engine.notifyTradeFilled completed.direction x.inPosition ≠ .none) :
    (x.executor.step host (.call ⟨now, .popCompleted⟩)).Engaged := by
  have live : x.executor.stage = .live := by
    simp only [Executor.popped, true_and, Option.ite_none_right_eq_some] at read
    exact read.1
  have pos : (x.executor.step host (.call ⟨now, .popCompleted⟩)).manager.pos =
      x.executor.manager.pos := by
    have emitted (y : Executor) : y.emits .popCompleted = true := rfl
    simp only [Executor.step, Executor.perform, live, emitted, and_self, ↓reduceIte,
      Executor.onManager, OrderManager.perform, OrderManager.popTradeCompleted]
    split
    · rfl
    · rfl
  cases kind : engine.kind with
  | orb => exact absurd (by simp only [Engine.notifyTradeFilled, kind]) believes
  | trend hold => exact absurd (by simp only [Engine.notifyTradeFilled, kind]) believes
  | mtf =>
    cases flat : x.executor.manager.isFlat with
    | false =>
      refine .inl ?_
      simp only [OrderManager.isFlat, pos] at flat ⊢
      exact flat
    | true =>
      have told := leg kind flat
      rw [read] at told
      simp only [Option.all_some, Bool.or_eq_true, Bool.not_eq_true', decide_eq_true_eq] at told
      refine absurd ?_ believes
      simp only [Engine.notifyTradeFilled, kind]
      split
      next another =>
        obtain ⟨entry, held, other⟩ := another
        rcases told with (flatten | released) | same
        · rw [entry] at flatten
          exact absurd flatten.symm Bool.false_ne_true
        · exact absurd released held
        · exact absurd same other
      next => rfl

/-! ## One happening -/

variable (host engine) in
/-- An event that is not a dropped signal reaches the executor. -/
theorem handle_reaching (reaches : x.replaying = true → x.executor.signalled event = none) :
    x.handle host engine event =
      { executor := x.executor.step host event
        inPosition := x.believes engine event (x.executor.step host event)
        replaying := x.replaysAfter engine event } := by
  simp only [handle]
  split
  next replaying emitted =>
    rw [reaches replaying] at emitted
    exact absurd emitted (Option.some_ne_none _).symm
  next => rfl

/-- A reset or a notification never invents a position. -/
theorem resetSession_none {inPosition : OrbSignal}
    (believes : engine.resetSession inPosition ≠ .none) : inPosition ≠ .none := by
  simp only [Engine.resetSession] at believes
  split at believes
  · exact believes
  · exact absurd rfl believes

/-- At the end of the connecting phase a strategy whose feed replays nothing is in no
position that is not held. -/
theorem believed_connected (connection : Connection) (sound : Sound engine x tally)
    (fresh : x.replaysAfter engine (.connected connection) = false)
    (stage : (x.executor.step host (.connected connection)).stage = .live ∨ engine.replays = false)
    (believes : x.believes engine (.connected connection)
      (x.executor.step host (.connected connection)) ≠ .none) :
    (x.executor.step host (.connected connection)).Engaged := by
  refine Executor.engaged_of_ledger (Executor.connected_ledger connection x.executor) ?_
  simp only [Trader.believes] at believes
  by_cases connecting : x.executor.stage = .connecting
  · simp only [replaysAfter, connecting, ↓reduceIte] at fresh
    have unreplayed : x.replaying = false := by
      by_contra replaying
      rw [sound.replays (by simpa only [Bool.not_eq_false] using replaying)] at fresh
      exact Bool.false_ne_true fresh.symm
    refine sound.believed unreplayed (.inr fresh) ?_
    split at believes
    · exact resetSession_none believes
    · exact believes
  · simp only [replaysAfter, connecting, false_and, ↓reduceIte] at fresh believes
    refine sound.believed fresh ?_ believes
    rcases stage with live | never
    · left
      simpa only [Executor.step, Executor.perform, connecting, ↓reduceIte] using live
    · exact .inr never

/-- A cycle that begins holds nothing, and the strategy was in no position. -/
theorem believed_start (history : Option AccountHistory) (sound : Sound engine x tally)
    (unreplayed : x.replaying = false)
    (stage : (x.executor.step host (.start history)).stage = .live ∨ engine.replays = false)
    (believes : x.inPosition ≠ .none) : (x.executor.step host (.start history)).Engaged := by
  by_cases begins : x.executor.stage = .down ∧ x.executor.running = true
  · have idle : ¬x.executor.Engaged := sound.idle.not_engaged (by
      rw [begins.1]
      decide)
    have connecting : (x.executor.step host (.start history)).stage = .connecting := by
      simp [Executor.step, Executor.perform, begins, Executor.startCycle]
    rcases stage with live | never
    · rw [connecting] at live
      exact absurd live (by decide)
    · exact absurd (sound.believed unreplayed (.inr never) believes) idle
  · have same : x.executor.step host (.start history) = { x.executor with
        sent := [], manager := { x.executor.manager with outbox := [] } } := by
      simp [Executor.step, Executor.perform, begins]
    rw [same] at stage ⊢
    exact sound.believed unreplayed stage believes

/-- An event by which the strategy is told nothing leaves what it is in with the order
manager. -/
theorem believed_silent (idle : x.executor.Idle) (proper : KeepsRisk x.executor event)
    (starts : ∀ history, event ≠ .start history)
    (connects : ∀ connection, event ≠ .connected connection)
    (kept : EntryKept engine x.executor event (x.executor.step host event))
    (emitted : x.executor.signalled event = none) (read : x.executor.popped event = none)
    (before : x.inPosition ≠ .none → x.executor.Engaged)
    (believes : x.believes engine event (x.executor.step host event) ≠ .none) :
    (x.executor.step host event).Engaged := by
  have held : x.inPosition ≠ .none := by
    cases event with
    | connected connection => exact absurd rfl (connects connection)
    | rollover date =>
      simp only [Trader.believes] at believes
      split at believes
      · exact resetSession_none believes
      · exact believes
    | _ => simpa only [Trader.believes, emitted, read] using believes
  cases pops : Executor.Event.pops event with
  | false =>
    refine Executor.engaged_step proper starts connects pops ?_ (before held)
    intro pending
    by_contra flat
    have live : x.executor.stage = .live := by
      by_contra down
      exact idle.not_engaged down (before held)
    obtain ⟨_, flattens⟩ := kept live pending (by simpa only [Bool.not_eq_false] using flat)
    rw [emitted] at flattens
    exact Option.some_ne_none _ flattens.symm
  | true =>
    cases event with
    | call call =>
      obtain ⟨now, op⟩ := call
      have pop : op = .popCompleted := by
        simpa only [Executor.Event.pops, decide_eq_true_eq] using pops
      subst pop
      exact Executor.engaged_of_ledger (Executor.unread_ledger now x.executor read) (before held)
    | _ => exact absurd pops Bool.false_ne_true

/-- After an event that reached the executor the strategy is in no position that is not
held, unless its feed replays history. -/
theorem believed_event (sound : Sound engine x tally) (proper : KeepsRisk x.executor event)
    (orderly : Orderly host engine x (.event event))
    (reaches : x.replaying = true → x.executor.signalled event = none)
    (fresh : (x.handle host engine event).replaying = false)
    (stage : (x.executor.step host event).stage = .live ∨ engine.replays = false)
    (believes : (x.handle host engine event).inPosition ≠ .none) :
    (x.executor.step host event).Engaged := by
  obtain ⟨_, _, taken, kept, leg, _⟩ := orderly
  rw [handle_reaching host engine reaches] at fresh believes
  by_cases connects : ∃ connection, event = .connected connection
  · obtain ⟨connection, rfl⟩ := connects
    exact believed_connected connection sound fresh stage believes
  · have connects : ∀ connection, event ≠ .connected connection :=
      fun connection same => connects ⟨connection, same⟩
    have unreplayed : x.replaying = false := by
      cases event with
      | connected connection => exact absurd rfl (connects connection)
      | _ => exact fresh
    by_cases starts : ∃ history, event = .start history
    · obtain ⟨history, rfl⟩ := starts
      exact believed_start history sound unreplayed stage believes
    · have starts : ∀ history, event ≠ .start history :=
        fun history same => starts ⟨history, same⟩
      have before (held : x.inPosition ≠ .none) : x.executor.Engaged := by
        refine sound.believed unreplayed ?_ held
        rcases stage with live | never
        · rcases Executor.step_stage host event x.executor starts connects with same | ⟨down, _⟩
          · exact .inl (same.symm.trans live)
          · rw [down] at live
            exact absurd live (by decide)
        · exact .inr never
      cases emitted : x.executor.signalled event with
      | some sig =>
        have shape := Executor.signalled_eq_some emitted
        refine believed_signal emitted taken kept before ?_
        obtain ⟨now, price, dist, rfl, _, _⟩ := shape
        simpa only [Trader.believes, emitted] using believes
      | none =>
        cases read : x.executor.popped event with
        | some completed =>
          cases event with
          | call call =>
            obtain ⟨now, op⟩ := call
            simp only [Executor.popped, Option.ite_none_right_eq_some] at read
            obtain ⟨⟨pops, live⟩, waits⟩ := read
            subst pops
            have reads : x.executor.popped (.call ⟨now, .popCompleted⟩) = some completed := by
              simp [Executor.popped, live, waits]
            refine believed_read reads leg ?_
            simpa only [Trader.believes, Executor.signalled, Executor.popped, live, and_self,
              ↓reduceIte, waits] using believes
          | _ => exact absurd read (Option.some_ne_none _).symm
        | none =>
          exact believed_silent sound.idle proper starts connects kept emitted read before believes

/-- The tally follows the trades of an event. -/
theorem sound_event (sound : Sound engine x tally) (proper : KeepsRisk x.executor event)
    (orderly : Orderly host engine x (.event event))
    (reaches : x.replaying = true → x.executor.signalled event = none) :
    Sound engine (x.handle host engine event)
      (note host engine tally x (.event event) (x.handle host engine event)) := by
  have moves : Executor.Moves x.executor event (x.executor.step host event) := by
    by_cases starts : ∃ history, event = .start history
    · obtain ⟨history, rfl⟩ := starts
      exact (Executor.start_moves history x.executor sound.idle).1
    · exact (Executor.event_moves event x.executor (fun history same => starts ⟨history, same⟩)
        sound.idle proper orderly.2.1).1
  have handled := handle_reaching host engine reaches
  have after : (x.handle host engine event).executor = x.executor.step host event := by
    rw [handled]
  constructor
  · rw [after]
    exact Executor.idle_step event x.executor sound.idle orderly.1
  · simp only [note, after, List.length_append]
    have counted := moves.count
    have before := sound.opened
    omega
  · simp only [note, after]
    rw [sound.closed, List.append_assoc, ← moves.queue, List.append_assoc]
  · simp [note, after, releasedAs_none orderly.2.2.2.2.2, sound.notified]
  · intro replaying
    rw [handled] at replaying
    cases event with
    | connected connection =>
      simp only [replaysAfter] at replaying
      split at replaying
      · exact replaying
      · exact sound.replays replaying
    | _ => exact sound.replays replaying
  · intro fresh stage believes
    rw [after] at stage ⊢
    exact believed_event sound proper orderly reaches fresh stage believes

/-- A signal of replayed history is dropped before it reaches anything. -/
theorem sound_dropped (sound : Sound engine x tally) (replaying : x.replaying = true)
    (emitted : x.executor.signalled event = some sig) :
    Sound engine (x.handle host engine event)
      (note host engine tally x (.event event) (x.handle host engine event)) := by
  have dropped : x.handle host engine event =
      { x with inPosition := if sig.isEntry then sig else x.inPosition } := by
    simp only [handle, replaying, emitted]
  have nothing := Executor.closed_of_held (x := x.executor) (y := x.executor) event rfl
  have unread : x.executor.popped event = none := by
    obtain ⟨now, price, dist, rfl, _, _⟩ := Executor.signalled_eq_some emitted
    rfl
  rw [dropped]
  constructor
  · exact sound.idle
  · simp only [note, nothing, Bool.not_and_self, Option.toList_none, List.append_nil,
      Bool.false_eq_true, ↓reduceIte, add_zero]
    exact sound.opened
  · simp only [note, nothing, unread, Option.toList_none, List.append_nil]
    exact sound.closed
  · simp only [note, releasedAs, nothing, unread, ite_self, Option.toList_none, List.append_nil]
    exact sound.notified
  · exact sound.replays
  · intro fresh
    exact absurd replaying (Bool.eq_false_iff.mp fresh)

/-- One happening keeps the tally of opened, closed and notified trades sound. -/
theorem sound_step (pair : Trader × Tally) (happening : Happening)
    (sound : Sound engine pair.1 pair.2) (proper : Proper pair.1 happening)
    (orderly : Orderly host engine pair.1 happening) :
    Sound engine (watch host engine pair happening).1 (watch host engine pair happening).2 := by
  obtain ⟨x, tally⟩ := pair
  cases happening with
  | event event =>
    by_cases reaches : x.replaying = true → x.executor.signalled event = none
    · exact sound_event sound proper orderly reaches
    · simp only [Classical.not_imp] at reaches
      obtain ⟨replaying, emits⟩ := reaches
      obtain ⟨sig, emitted⟩ := Option.ne_none_iff_exists'.mp emits
      exact sound_dropped sound replaying emitted
  | gated sig =>
    simp only [watch, Runs.observe, step, note]
    split
    next signalled =>
      obtain ⟨live, unhalted, entry⟩ := signalled
      refine ⟨sound.idle, sound.opened, sound.closed, sound.notified, sound.replays, ?_⟩
      intro fresh stage believes
      have fresh : x.replaying = false := fresh
      simp only [fresh, Bool.false_eq_true, ↓reduceIte] at believes
      rcases afterSignal_engaged believes with open_ | unsettled
      · exact .inl open_
      · cases flat : x.executor.manager.isFlat with
        | false => exact .inl flat
        | true =>
          have settles := orderly entry unhalted fresh flat
          rw [unsettled] at settles
          exact absurd settles Bool.false_ne_true
    next => exact sound
  | replayEnds =>
    simp only [watch, Runs.observe, step, note]
    split
    · refine ⟨sound.idle, sound.opened, sound.closed, sound.notified, ?_, ?_⟩
      · intro replaying
        exact absurd replaying Bool.false_ne_true
      · intro _ _ believes
        exact absurd rfl believes
    · exact sound

/-- One happening that keeps the accounts books what it closes. -/
theorem tradesOnce_step (pair : Trader × Tally) (happening : Happening)
    (sound : Sound engine pair.1 pair.2) (proper : Proper pair.1 happening)
    (orderly : Orderly host engine pair.1 happening) : TradesOnce host engine pair happening where
  accounted := (sound_step pair happening sound proper orderly).accounted
  profit := by
    obtain ⟨x, tally⟩ := pair
    rintro event rfl starts
    by_cases reaches : x.replaying = true → x.executor.signalled event = none
    · have moved := (Executor.event_moves event x.executor starts sound.idle proper
        orderly.2.1).2
      simp only [watch, Runs.observe, step]
      rw [handle_reaching host engine reaches]
      exact moved
    · simp only [Classical.not_imp] at reaches
      obtain ⟨replaying, emits⟩ := reaches
      obtain ⟨sig, emitted⟩ := Option.ne_none_iff_exists'.mp emits
      have same : (x.handle host engine event).executor = x.executor := by
        simp only [handle, replaying, emitted]
      simp [watch, Runs.observe, step, BooksProfit, same,
        Executor.closed_of_held (x := x.executor) (y := x.executor) event rfl]

/-! ## Runs -/

/-- A process before its first cycle. -/
def fresh (risk : RiskManager) : Trader where
  executor := Executor.fresh risk

theorem fresh_sound (risk : RiskManager) : Sound engine (fresh risk) {} where
  idle := fun _ => ⟨rfl, rfl⟩
  opened := rfl
  closed := rfl
  notified := rfl
  replays := fun replaying => absurd replaying Bool.false_ne_true
  believed := fun _ _ believes => absurd rfl believes

/-- Over any number of cycles every trade is booked, written and notified once, where
every cycle ends clean, no close meets a waiting trade and no entry is lost. -/
theorem trades_booked_once (host : Host) (engine : Engine) (risk : RiskManager)
    (happenings : List Happening)
    (orderly : Runs.Along (watch host engine)
      (fun pair happening => Proper pair.1 happening ∧ Orderly host engine pair.1 happening)
      (fresh risk, {}) happenings) :
    Runs.Along (watch host engine) (TradesOnce host engine) (fresh risk, {}) happenings := by
  refine Runs.along_of_invariant (watch host engine) (fun pair => Sound engine pair.1 pair.2)
    ?_ ?_ (fresh risk, {}) happenings (fresh_sound risk) orderly
  · intro pair happening sound allowed
    exact tradesOnce_step pair happening sound allowed.1 allowed.2
  · intro pair happening sound allowed
    exact sound_step pair happening sound allowed.1 allowed.2

/-- The fill of the entry. -/
def entryAt (price : ℚ) : OpLoop.OrderNotice where
  userTag := "MNQ-0-0"
  basketId := "entry"
  totalFillSize := 1
  avgFillPrice := price

/-- The fill of the protective stop. -/
def stopAt (price : ℚ) : OpLoop.OrderNotice where
  userTag := "MNQ-0-1"
  basketId := "stop"
  totalFillSize := 1
  avgFillPrice := price

/-- The first cycle opens a position. -/
def opensTrade : List Happening :=
  [.event (.start none), .event (.connected { date := "2026-10-01" }),
    .event (.call { op := .signal .buy 20000 0 }), .event (.order {} (entryAt 20000))]

/-- The connection is lost, and the next cycle is shown a flat account. -/
def reconnectsFlat : List Happening :=
  [.event .readError, .event (.start none), .event (.connected {}),
    .event (.position {} { isSnapshot := true })]

/-- A trade that is stopped out and read before the connection is lost. -/
theorem trade_read_before_reconnect :
    Runs.Along (watch .accepting {}) (TradesOnce .accepting {}) (fresh {}, {})
      (opensTrade ++ [.event (.order {} (stopAt 19985)), .event (.call { op := .popCompleted })] ++
        reconnectsFlat) ∧
    (Runs.run (watch .accepting {}) (fresh {}, {})
      (opensTrade ++ [.event (.order {} (stopAt 19985)), .event (.call { op := .popCompleted })] ++
        reconnectsFlat)).2.rows.map Position.pnlUsd = [-31] :=
  ⟨trades_booked_once .accepting {} {} _ (by decide +kernel), by decide +kernel⟩

/-- The connection is lost while the position is open, and its stop fills meanwhile: no
profit is booked, no row is written, and the strategy stays in the position. -/
theorem carried_trade_lost :
    Runs.Along (watch .accepting {}) (fun pair happening => Proper pair.1 happening) (fresh {}, {})
      (opensTrade ++ reconnectsFlat) ∧
    ¬Accounted (Runs.run (watch .accepting {}) (fresh {}, {}) (opensTrade ++ reconnectsFlat)).1
      (Runs.run (watch .accepting {}) (fresh {}, {}) (opensTrade ++ reconnectsFlat)).2 ∧
    (Runs.run (watch .accepting {}) (fresh {}, {}) (opensTrade ++ reconnectsFlat)).1.inPosition =
      .buy :=
  ⟨by decide +kernel, by decide +kernel, by decide +kernel⟩

end Trader

end RithmicEngine
