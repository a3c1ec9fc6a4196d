import RithmicEngine.Execution.TradeAccounts
import RithmicEngine.Execution.OrbTick
/-!
# The executor's end-of-day backstop

Beside an engine with a window of its own the executor flattens in the configured
minute, once a trading date and only where there is something to flatten. Nothing
asks the clock again before 18:00: what is opened, or opened again, after the backstop
is carried past the flatten time.

Of the engine nothing is kept, and its signals are calls like any other; the executor
acts on its order manager by calls of the manager's operations. A pass comes at least
once a minute.
-/
namespace RithmicEngine

namespace OrderManager

/-- An entry is pending or a position is open. -/
def exposed (s : OrderManager) : Bool :=
  match s.pos.state with
  | .pendingEntry => true
  | .long => true
  | .short => true
  | .flat => false
  | .pendingExit => false

/-- The rejection of the exit that is not answered with another one. -/
def givesUpExit (basket : String) (s : OrderManager) : Bool :=
  decide (s.pos.state = .pendingExit) &&
    decide (s.pos.basketIdExit = (s.serverToClientOrders.lookup basket).getD basket) &&
    decide (3 ≤ s.rejectedExitCount)

/-- The calls that expose an order manager which is not: an entry signal that it takes,
and the rejection with which it gives up an exit. -/
def exposes (call : Call) (s : OrderManager) : Bool :=
  match call.op with
  | .signal sig _ _ => sig.isEntry && !s.isEntryHalted && s.risk.canTrade && s.isFlat
  | .rejected basket => s.givesUpExit basket
  | _ => false

variable {host : Host}

variable {s : OrderManager}

theorem exposed_congr {t : OrderManager} (same : t.pos.state = s.pos.state) :
    t.exposed = s.exposed := by
  rw [exposed, exposed, same]

theorem exposed_eq_false_iff (s : OrderManager) :
    s.exposed = false ↔ s.pos.state = .flat ∨ s.pos.state = .pendingExit := by
  rw [exposed]
  cases s.pos.state <;> decide

theorem exposed_heldState {direction : OrbSignal} (held : s.pos.state = heldState direction) :
    s.exposed = true := by
  obtain long | short := heldState_open direction
  · rw [exposed, held, long]
  · rw [exposed, held, short]

/-- Every order that is sent is taken. -/
def Sure (host : Host) : Prop :=
  ∀ answer, host.orderCb = some answer → ∀ basket, answer basket = true

/-! ## Fills -/

/-- A fill leaves a position that is closed or closing so. -/
theorem onFill_closed (now : Int) (basket : String) (fillPrice : ℚ) (fillQty : Int)
    (isEntryFill : Bool) (closed : s.exposed = false) :
    (onFillNotificationLocked host now basket fillPrice fillQty isEntryFill s).exposed = false := by
  have same := accumulateFill_pos basket fillPrice fillQty s
  simp only [onFillNotificationLocked]
  generalize accumulateFill basket fillPrice fillQty s = accumulated at same ⊢
  obtain ⟨c, price⟩ := accumulated
  have still : c.exposed = false := by
    rw [exposed_congr (congrArg Position.state same)]
    exact closed
  have states := (exposed_eq_false_iff c).mp still
  have notPending : c.pos.state ≠ .pendingEntry := by
    obtain flat | closing := states
    · rw [flat]
      decide
    · rw [closing]
      decide
  cases isEntryFill with
  | true =>
    simp only [↓reduceIte, notPending, ne_eq, not_false_eq_true, lateEntryFill]
    split
    · rw [exposed_congr (congrArg Position.state (sendUnwind_pos _ _ _ _ _ _))]
      exact still
    · exact still
  | false =>
    simp only [Bool.false_eq_true, ↓reduceIte]
    split
    · rw [exposed_congr (flatFill_state basket price c)]
      exact still
    · simp only [exitFill]
      split
      · exact still
      · rfl

/-! ## Exits -/

/-- An exit that is sent is taken, and closes the position or is on its way. -/
theorem initiateExit_closed (sure : Sure host) (now : Int) (reason : String) (refPrice : ℚ)
    (trading : s.inTrade = true) :
    (initiateExitLocked host now reason refPrice s).exposed = false := by
  simp only [initiateExitLocked, trading, Bool.true_eq_false, ↓reduceIte]
  split
  · exact onFill_closed now _ refPrice _ false rfl
  · split
    · rfl
    · next answer set =>
      simp only [sure answer set, ↓reduceIte]
      rfl

theorem inTrade_of_held {direction : OrbSignal} (held : s.pos.state = heldState direction) :
    s.inTrade = true := by
  obtain long | short := heldState_open direction
  · simp [inTrade, held, long]
  · simp [inTrade, held, short]

/-- With orders accepted, flattening leaves no position without an exit. -/
theorem flattenNow_closed (now : Int) (reason : String) (price : ℚ) (sure : Sure host)
    (s : OrderManager) : (flattenNow host now reason price s).exposed = false := by
  simp only [flattenNow]
  split
  next flat => rw [exposed, flat]
  next => rfl
  next closing => rw [exposed, closing]
  next long =>
    have held : s.pos.state = heldState .buy := long
    exact initiateExit_closed sure now reason price (inTrade_of_held held)
  next short =>
    have held : s.pos.state = heldState .sell := short
    exact initiateExit_closed sure now reason price (inTrade_of_held held)

/-- From a closed book exactly a rejected exit that is given up exposes it. -/
theorem onOrderRejected_exposed (sure : Sure host) (now : Int) (basket : String)
    (closed : s.exposed = false) :
    (onOrderRejected host now basket s).exposed = s.givesUpExit basket := by
  obtain flat | closing := (exposed_eq_false_iff s).mp closed
  · simp only [onOrderRejected, givesUpExit, flat, reduceCtorEq, and_false, ↓reduceIte,
      decide_false, Bool.false_and]
    split
    · rfl
    · exact closed
  · simp only [onOrderRejected, givesUpExit, closing, reduceCtorEq, and_false, and_true, ↓reduceIte,
      decide_true, Bool.true_and]
    split
    · next own =>
      simp only [own, decide_true, Bool.true_and]
      split
      · next retries =>
        rw [initiateExit_closed sure now _ 0 (inTrade_of_held rfl)]
        exact (decide_eq_false (by omega)).symm
      · next gives =>
        rw [exposed_heldState rfl]
        exact (decide_eq_true (by omega)).symm
    · next foreign =>
      simp only [foreign, decide_false, Bool.false_and]
      split
      · rfl
      · exact closed

theorem retryStuckExit_closed (sure : Sure host) (now : Int) (currentPrice : ℚ)
    (closed : s.exposed = false) : (retryStuckExit host now currentPrice s).exposed = false := by
  simp only [retryStuckExit]
  split
  · exact closed
  · split
    · exact closed
    · exact initiateExit_closed sure now _ currentPrice (inTrade_of_held rfl)

/-! ## Entries -/

/-- The fill of a pending entry exposes the book. -/
theorem pendingFill_exposed (now : Int) (basket : String) (price : ℚ) (qty : Int)
    (pending : s.pos.state = .pendingEntry) :
    (onFillNotificationLocked host now basket price qty true s).exposed = true := by
  have same := accumulateFill_pos basket price qty s
  simp only [onFillNotificationLocked, ↓reduceIte]
  generalize accumulateFill basket price qty s = accumulated at same ⊢
  obtain ⟨c, average⟩ := accumulated
  have waits : c.pos.state = .pendingEntry := (congrArg Position.state same).trans pending
  simp only [waits, ne_eq, not_true_eq_false, ↓reduceIte, entryFill]
  split
  · rw [exposed, waits]
  · split
    · rw [exposed, waits]
    · exact exposed_heldState (submitStop_state _ _)

theorem openEntry_exposed (sure : Sure host) (now : Int) (sig : OrbSignal) (price dist : ℚ)
    (s : OrderManager) : (openEntry host now sig price dist s).exposed = true := by
  simp only [openEntry, sendMarketOrder]
  split
  · exact pendingFill_exposed now _ _ _ rfl
  · split
    · rfl
    · next answer set =>
      simp only [sure answer set, ↓reduceIte]
      rfl

/-- From a closed book exactly an entry signal that passes every gate exposes it. -/
theorem onSignal_exposed (sure : Sure host) (now : Int) (sig : OrbSignal) (price dist : ℚ)
    (closed : s.exposed = false) :
    (onSignal host now sig price dist s).exposed =
      (sig.isEntry && !s.isEntryHalted && s.risk.canTrade && s.isFlat) := by
  have entry (direction : OrbSignal) :
      (if s.entryHalted || s.ghostHalted then s
        else if s.risk.canTrade = false then s
        else if s.pos.state ≠ .flat then s
        else openEntry host now direction price dist s).exposed =
        (!s.isEntryHalted && s.risk.canTrade && s.isFlat) := by
    rw [isEntryHalted, isFlat]
    cases halts : s.entryHalted || s.ghostHalted with
    | true => simpa only [↓reduceIte, Bool.not_true, Bool.false_and] using closed
    | false =>
      cases trades : s.risk.canTrade with
      | false =>
        simpa only [Bool.false_eq_true, ↓reduceIte, Bool.and_false, Bool.false_and] using closed
      | true =>
        by_cases flat : s.pos.state = .flat
        · simp only [flat, Bool.false_eq_true, Bool.true_eq_false, ne_eq, not_true_eq_false,
            ↓reduceIte, Bool.not_false, Bool.true_and, decide_true]
          exact openEntry_exposed sure now direction price dist s
        · simpa only [flat, Bool.false_eq_true, Bool.true_eq_false, ne_eq, not_false_eq_true,
            ↓reduceIte, decide_false, Bool.and_false] using closed
  cases sig with
  | none => exact closed
  | buy => exact entry .buy
  | sell => exact entry .sell
  | flattenEod => exact flattenNow_closed now _ price sure s

/-- A call exposes a manager that is not exposed exactly where it is one of the two. -/
theorem step_exposed (sure : Sure host) (closed : s.exposed = false) (call : Call) :
    (step host s call).exposed = s.exposes call := by
  have still : ({ s with outbox := [] } : OrderManager).exposed = false := closed
  have untraded : ({ s with outbox := [] } : OrderManager).inTrade = false := by
    obtain flat | closing := (exposed_eq_false_iff s).mp closed
    · simp [inTrade, flat]
    · simp [inTrade, closing]
  have kept : s.exposes call =
      ({ s with outbox := [] } : OrderManager).exposes call := rfl
  rw [step, kept]
  generalize ({ s with outbox := [] } : OrderManager) = c at still untraded ⊢
  obtain ⟨now, op⟩ := call
  cases op with
  | signal sig price dist => exact onSignal_exposed sure now sig price dist still
  | fill basket price qty isEntry => exact onFill_closed now basket price qty isEntry still
  | checkTrail price =>
    simp only [perform, checkTrailAndStop, untraded, ↓reduceIte]
    exact still
  | checkExternal price stratStop =>
    simp only [perform, checkExternalStop, untraded, ↓reduceIte]
    exact still
  | flatten reason price => exact flattenNow_closed now reason price sure c
  | retryStuckExit price => exact retryStuckExit_closed sure now price still
  | entryTimeout secs =>
    simp only [perform, pendingEntryTimeoutCheck]
    split_ifs
    · exact still
    · exact still
    · exact still
    · rfl
  | rejected basket => exact onOrderRejected_exposed sure now basket still
  | externalClose refPrice reason =>
    simp only [perform, adoptExternalClose]
    split
    · exact still
    · rfl
  | cancelFailed id =>
    rw [perform, exposed_congr (onCancelFailed_state id c)]
    exact still
  | cancelConfirmedByServer server =>
    simp only [perform, onCancelConfirmedByServerBasket]
    split
    · exact still
    · exact still
  | stopServerMapped client server =>
    simp only [perform, onStopServerMapped]
    split_ifs
    all_goals exact still
  | mapServer client server =>
    simp only [perform, mapServerBasket]
    split_ifs
    all_goals exact still
  | fillProcessed basket qty =>
    simp only [perform, fillAlreadyProcessed]
    split_ifs
    all_goals exact still
  | recancel =>
    simp only [perform, recancelPendingStops]
    split_ifs
    all_goals exact still
  | popCompleted =>
    simp only [perform, popTradeCompleted]
    split_ifs
    all_goals exact still
  | _ => exact still

/-- A run of calls that expose nothing leaves the manager as closed as it was. -/
theorem run_closed (sure : Sure host) (closed : s.exposed = false) (calls : List Call)
    (quiet : Runs.Along (step host) (fun s call => s.exposes call = false) s calls) :
    (Runs.run (step host) s calls).exposed = false := by
  refine Runs.run_invariant (step host) (fun s => s.exposed = false) _ ?_ s calls closed quiet
  intro t call closed quiet
  rw [step_exposed sure closed call]
  exact quiet

end OrderManager

/-! ## The passes of the executor's timer -/

/-- A time of day before 18:00, when the trading date rolls. -/
structure FlattenTime where
  hour : Int := 15
  minute : Int := 55
  hours : 0 ≤ hour ∧ hour < 18 := by decide
  minutes : 0 ≤ minute ∧ minute < 60 := by decide

namespace FlattenTime

variable (flatten : FlattenTime)

/-- The clock shows the minute of the flatten time. -/
def now (clock : Int) : Bool :=
  decide (etHour clock = flatten.hour) && decide (etMinute clock = flatten.minute)

/-- The clock shows the flatten time or later, and less than 18:00. -/
def closesDay (clock : Int) : Bool :=
  decide (flatten.hour * 60 + flatten.minute ≤ etHour clock * 60 + etMinute clock) &&
    decide (etHour clock < 18)

end FlattenTime

/-- The order manager, the minute of the latest pass, the trading date, and the date on
which the backstop was used last. -/
structure Backstopped where
  manager : OrderManager
  clock : Int
  today : Int
  backstopDay : Option Int := none

/-- What happens beside the backstop. A pass comes in the minute of the one before it or
in the next, and goes on with further calls. -/
inductive BackstopEvent
  | call (call : Call)
  | cycle (risk : RiskManager)
  | pass (later : Bool) (now : Int) (lastPrice : ℚ) (rest : List Call)

namespace Backstopped

variable (host : Host) (flatten : FlattenTime)

/-- The process as it starts. -/
def start (risk : RiskManager) (seq : Nat) (clock : Int) : Backstopped where
  manager := OrderManager.fresh risk seq
  clock := clock
  today := tradingDate clock

def backstop (now : Int) (lastPrice : ℚ) (x : Backstopped) : Backstopped :=
  if flatten.now x.clock = true ∧ x.backstopDay ≠ some x.today ∧ x.manager.isFlat = false then
    { x with
      backstopDay := some x.today
      manager := OrderManager.flattenNow host now "eod_backstop" lastPrice x.manager }
  else x

/-- The clock of the pass, and the backstop. -/
def beginPass (later : Bool) (now : Int) (lastPrice : ℚ) (x : Backstopped) : Backstopped :=
  backstop host flatten now lastPrice { x with clock := if later then x.clock + 1 else x.clock }

def step (x : Backstopped) : BackstopEvent → Backstopped
  | .call call => { x with manager := x.manager.step host call }
  | .cycle risk => { x with manager := OrderManager.fresh risk x.manager.seq }
  | .pass later now lastPrice rest =>
    let x := beginPass host flatten later now lastPrice x
    { x with
      today := tradingDate x.clock
      manager := Runs.run (OrderManager.step host) x.manager rest }

/-- After a pass between the flatten time and 18:00 nothing is exposed. -/
def ClosedOut (x : Backstopped) (event : BackstopEvent) : Prop :=
  match event with
  | .pass _ _ _ _ =>
    flatten.closesDay (x.step host flatten event).clock = true →
      (x.step host flatten event).manager.exposed = false
  | _ => True

/-- Once a pass has read a time between the flatten time and 18:00, no entry signal is
taken and no exit is given up, until a pass reads another. -/
def StaysShut (x : Backstopped) (event : BackstopEvent) : Prop :=
  match event with
  | .call call => flatten.closesDay x.clock = true → x.manager.exposes call = false
  | .cycle _ => True
  | .pass later now lastPrice rest =>
    flatten.closesDay (beginPass host flatten later now lastPrice x).clock = true →
      Runs.Along (OrderManager.step host) (fun s call => s.exposes call = false)
        (beginPass host flatten later now lastPrice x).manager rest

/-! ## What the passes keep -/

variable {flatten}

/-- The window in minutes since the trading date rolled. -/
theorem closesDay_iff (clock : Int) :
    flatten.closesDay clock = true ↔
      flatten.hour * 60 + flatten.minute + 360 ≤ (clock + 360) % 1440 := by
  have hours := flatten.hours
  have minutes := flatten.minutes
  rw [FlattenTime.closesDay, Bool.and_eq_true, decide_eq_true_eq, decide_eq_true_eq, etHour,
    etMinute]
  omega

theorem now_iff (clock : Int) :
    flatten.now clock = true ↔
      (clock + 360) % 1440 = flatten.hour * 60 + flatten.minute + 360 := by
  have hours := flatten.hours
  have minutes := flatten.minutes
  rw [FlattenTime.now, Bool.and_eq_true, decide_eq_true_eq, decide_eq_true_eq, etHour, etMinute]
  omega

/-- What holds between two events: nothing is exposed once a pass has read a time of the
window, the date is the clock's, and the backstop was used on an earlier date, or on
this one at a time of the window. -/
structure Shut (flatten : FlattenTime) (x : Backstopped) : Prop where
  closed : flatten.closesDay x.clock = true → x.manager.exposed = false
  dated : x.today = tradingDate x.clock
  used : ∀ date, x.backstopDay = some date →
    date ≤ x.today ∧ (date = x.today → flatten.closesDay x.clock = true)

theorem start_shut (risk : RiskManager) (seq : Nat) (clock : Int) :
    Shut flatten (start risk seq clock) where
  closed := fun _ => rfl
  dated := rfl
  used := nofun

variable {host}

theorem backstop_clock (now : Int) (lastPrice : ℚ) (x : Backstopped) :
    (backstop host flatten now lastPrice x).clock = x.clock := by
  rw [backstop]
  split
  · rfl
  · rfl

/-- The backstop is used on the date as it stands, in the flatten minute, or not at all. -/
theorem backstop_day (now : Int) (lastPrice : ℚ) (x : Backstopped) :
    (backstop host flatten now lastPrice x).backstopDay = x.backstopDay ∨
      (flatten.now x.clock = true ∧
        (backstop host flatten now lastPrice x).backstopDay = some x.today) := by
  rw [backstop]
  split
  · next used => exact Or.inr ⟨used.1, rfl⟩
  · exact Or.inl rfl

/-- In the window a pass goes on with nothing exposed: in the flatten minute the backstop
sees to it, unless it was used in this window, and after that minute nothing was
exposed before the pass. -/
theorem Shut.beginPass_closed (sure : OrderManager.Sure host) {x : Backstopped}
    (shut : Shut flatten x) (later : Bool) (now : Int) (lastPrice : ℚ)
    (closes : flatten.closesDay (if later then x.clock + 1 else x.clock) = true) :
    (beginPass host flatten later now lastPrice x).manager.exposed = false := by
  obtain ⟨clock, isClock⟩ : ∃ clock, clock = if later then x.clock + 1 else x.clock := ⟨_, rfl⟩
  have paced : x.clock ≤ clock ∧ clock ≤ x.clock + 1 := by
    rw [isClock]
    split
    · omega
    · omega
  rw [← isClock] at closes
  rw [beginPass, ← isClock, backstop]
  dsimp only
  have window := (closesDay_iff clock).mp closes
  have hours := flatten.hours
  have minutes := flatten.minutes
  split
  · exact OrderManager.flattenNow_closed now _ lastPrice sure x.manager
  · next unused =>
    by_cases minute : flatten.now clock = true
    · by_cases flat : x.manager.isFlat = true
      · rw [OrderManager.exposed_eq_false_iff]
        exact Or.inl (of_decide_eq_true flat)
      · have spent : x.backstopDay = some x.today := by
          by_contra fresh
          exact unused ⟨minute, fresh, Bool.not_eq_true _ ▸ flat⟩
        exact shut.closed ((shut.used x.today spent).2 rfl)
    · have before : flatten.closesDay x.clock = true := by
        rw [closesDay_iff]
        rw [now_iff] at minute
        omega
      exact shut.closed before

/-- An event keeps the window shut, where it brings nothing into it. -/
theorem Shut.step (sure : OrderManager.Sure host) {x : Backstopped} (shut : Shut flatten x)
    (event : BackstopEvent) (quiet : StaysShut host flatten x event) :
    Shut flatten (x.step host flatten event) := by
  cases event with
  | call call =>
    refine ⟨fun closes => ?_, shut.dated, shut.used⟩
    rw [Backstopped.step, OrderManager.step_exposed sure (shut.closed closes)]
    exact quiet closes
  | cycle risk => exact ⟨fun _ => rfl, shut.dated, shut.used⟩
  | pass later now lastPrice rest =>
    obtain ⟨y, isBegun⟩ : ∃ y, y = beginPass host flatten later now lastPrice x := ⟨_, rfl⟩
    have clocked : y.clock = if later then x.clock + 1 else x.clock := by
      rw [isBegun]
      exact backstop_clock now lastPrice _
    have stepped : x.step host flatten (.pass later now lastPrice rest) =
        { y with
          today := tradingDate y.clock
          manager := Runs.run (OrderManager.step host) y.manager rest } := by
      rw [isBegun]
      rfl
    rw [stepped]
    refine ⟨fun closes => ?_, rfl, ?_⟩
    · have begun : y.manager.exposed = false := by
        rw [isBegun]
        apply shut.beginPass_closed sure
        rw [← clocked]
        exact closes
      apply OrderManager.run_closed sure begun
      rw [isBegun]
      apply quiet
      rw [← isBegun]
      exact closes
    · intro date used
      have paced : x.clock ≤ y.clock ∧ y.clock ≤ x.clock + 1 := by
        rw [clocked]
        split
        · omega
        · omega
      have today : x.today = (x.clock + 360) / 1440 := shut.dated
      have hours := flatten.hours
      have minutes := flatten.minutes
      change date ≤ (y.clock + 360) / 1440 ∧
        (date = (y.clock + 360) / 1440 → flatten.closesDay y.clock = true)
      rw [closesDay_iff]
      have days : y.backstopDay = x.backstopDay ∨
          (flatten.now y.clock = true ∧ y.backstopDay = some x.today) := by
        rw [clocked, isBegun]
        exact backstop_day now lastPrice { x with clock := if later then x.clock + 1 else x.clock }
      obtain kept | ⟨minute, fresh⟩ := days
      · obtain ⟨earlier, here⟩ := shut.used date (kept.symm.trans used)
        refine ⟨by omega, fun same => ?_⟩
        have window := (closesDay_iff x.clock).mp (here (by omega))
        omega
      · obtain rfl : x.today = date := Option.some.inj (fresh.symm.trans used)
        rw [now_iff] at minute
        refine ⟨by omega, fun _ => by omega⟩

/-- After every pass between the flatten time and 18:00 nothing is exposed, in every run
in which no entry signal is taken and no exit is given up in that time. -/
theorem closed_out (sure : OrderManager.Sure host) (risk : RiskManager) (seq : Nat) (clock : Int)
    (events : List BackstopEvent)
    (quiet : Runs.Along (Backstopped.step host flatten) (StaysShut host flatten)
      (start risk seq clock) events) :
    Runs.Along (Backstopped.step host flatten) (ClosedOut host flatten) (start risk seq clock)
      events := by
  have closes : ∀ (x : Backstopped) (event : BackstopEvent), Shut flatten x →
      StaysShut host flatten x event → ClosedOut host flatten x event := by
    intro x event shut quiet
    cases event with
    | call call => trivial
    | cycle risk => trivial
    | pass later now lastPrice rest => exact (shut.step sure _ quiet).closed
  exact Runs.along_of_invariant (Backstopped.step host flatten) (Shut flatten) closes
    (fun _ event shut quiet => shut.step sure event quiet) (start risk seq clock) events
    (start_shut risk seq clock) quiet

/-! ## Two afternoons -/

instance (x : Backstopped) (event : BackstopEvent) : Decidable (StaysShut host flatten x event) :=
  match event with
  | .call _ => inferInstanceAs (Decidable (_ → _))
  | .cycle _ => isTrue trivial
  | .pass _ _ _ _ => inferInstanceAs (Decidable (_ → _))

instance (x : Backstopped) (event : BackstopEvent) : Decidable (ClosedOut host flatten x event) :=
  match event with
  | .call _ => isTrue trivial
  | .cycle _ => isTrue trivial
  | .pass _ _ _ _ => inferInstanceAs (Decidable (_ → _))

/-- An entry signal, and the fill of the order it becomes. -/
def entered (seq : Nat) : List BackstopEvent :=
  [.call { op := .signal .buy 20000 0 },
    .call { op := .fill (Host.accepting.basketId seq) 20000 1 true }]

/-- A position that is flattened at 15:55, its exit filled in the same minute. -/
theorem closed_out_at_flatten :
    Runs.Along (Backstopped.step .accepting {}) (ClosedOut .accepting {})
      (start {} 0 (15 * 60 + 53))
      (entered 0 ++ [.pass true 1 20010 [], .pass true 1 20010 [],
        .call { op := .fill (Host.accepting.basketId 2) 20009 1 false }, .pass false 1 20010 []]) :=
  closed_out (by intro answer set basket; cases set; rfl) {} 0 (15 * 60 + 53) _ (by decide +kernel)

/-- The trend engine's window of entries, between two clock readings such as 930. -/
def trendInWindow (winStart winEnd hhmm : Int) : Bool :=
  if winStart ≤ winEnd then decide (hhmm ≥ winStart) && decide (hhmm < winEnd)
  else decide (hhmm ≥ winStart) || decide (hhmm < winEnd)

/-- A window to 16:00 lets an entry through at 15:55, after that minute's only pass. -/
theorem entered_after_backstop :
    trendInWindow 930 1600 1555 = true ∧
      ¬ Runs.Along (Backstopped.step .accepting {}) (ClosedOut .accepting {})
        (start {} 0 (15 * 60 + 54))
        (.pass true 1 20000 [] :: entered 0 ++ [.pass true 1 20000 []]) := by
  decide +kernel

end Backstopped

end RithmicEngine
