import RithmicEngine.Base.Numerals
import RithmicEngine.Base.Runs
import RithmicEngine.Paper.Lockstep
/-!
# The paper engine

The main loop of the fleet. Each turn takes a batch of ticks, each with the quotes up
to it, through every runner in order, then checks the account's limits again, the
clock, the trading day and the operator's rows. The account hears of every trade close
while a runner is being served; a halt of the account flattens the whole fleet and
halts its strategies.

What the database answers (ticks, quotes, the day's true range, the rows of the
operator), what the clock reads and which signals the strategies emit are inputs. The
reference feed, the saved rows and the log are left out.
-/
namespace RithmicEngine

/-- The trading day of an instant, which begins at 18:00 Eastern, as its date. -/
def etTradeDate (tsUs : Int) : String :=
  let sec := tsUs.tdiv 1000000
  let et := sec - usEtOffset (gmtime sec) * 3600
  let day := gmtime (if (utcToEt tsUs).1 ≥ 18 then et + 86400 else et)
  String.ofList (Numerals.integer day.year ++ '-' :: Numerals.padded 2 day.month.toNat ++
    '-' :: Numerals.padded 2 day.mday.toNat)

/-! ## The account -/

structure AccountEnvelope where
  startingBalance : ℚ := 50000
  dailyLossLimit : ℚ := 0
  ddCap : ℚ := 0
  totalPnl : ℚ := 0
  dayPnl : ℚ := 0
  peakEquity : ℚ := 50000
  dayStartEquity : ℚ := 0
  haltReason : String := ""
  deriving DecidableEq, Repr

namespace AccountEnvelope

def equity (a : AccountEnvelope) : ℚ := a.startingBalance + a.totalPnl

def halted (a : AccountEnvelope) : Bool := decide (a.haltReason ≠ "")

/-- The limit that is breached, empty for none. -/
def checkLimits (a : AccountEnvelope) : String :=
  if a.dailyLossLimit < 0 ∧ a.dayPnl ≤ a.dailyLossLimit then "account_daily_loss"
  else if a.ddCap > 0 ∧ a.equity < a.peakEquity - a.ddCap then "account_trailing_dd"
  else ""

def raisePeak (a : AccountEnvelope) : AccountEnvelope :=
  { a with peakEquity := if a.equity > a.peakEquity then a.equity else a.peakEquity }

def seed (totalPnl dayPnl peakEquity : ℚ) (a : AccountEnvelope) : AccountEnvelope :=
  raisePeak { a with
    totalPnl := totalPnl
    dayPnl := dayPnl
    peakEquity := if peakEquity > a.startingBalance then peakEquity else a.startingBalance }

/-- Book a closed trade. The answer is the reason to halt, if the close gave one. -/
def onTradeClose (pnlUsd : ℚ) (a : AccountEnvelope) : AccountEnvelope × String :=
  let a := raisePeak { a with totalPnl := a.totalPnl + pnlUsd, dayPnl := a.dayPnl + pnlUsd }
  (a, a.checkLimits)

def setHalt (reason : String) (a : AccountEnvelope) : AccountEnvelope :=
  { a with haltReason := reason }

/-- The rollover lifts a halt for the day's loss; one for the drawdown stays. -/
def resetDay (a : AccountEnvelope) : AccountEnvelope :=
  { a with
    dayStartEquity := a.equity
    dayPnl := 0
    haltReason := if a.haltReason = "account_daily_loss" then "" else a.haltReason }

end AccountEnvelope

/-! ## The engine -/

/-- What the loop is started with. -/
structure LoopDesk where
  feedGapResetUs : Int := 300000000
  warmupUntilUs : Int := 0

/-- The batch that ended with this tick, or an empty one, reaches the end of the warm-up. -/
def LoopDesk.reachedBy (last : Option Int) (loop : LoopDesk) : Bool :=
  match last with
  | none => true
  | some tsUs => decide (tsUs + 5000000 ≥ loop.warmupUntilUs)

/-- The fleet beside its account. The halt reasons that closes have returned are kept
for what is said of runs; the program does not read them again. -/
structure PaperEngine where
  account : AccountEnvelope
  runners : List Runner
  regime : SessionRegime := {}
  warmingUp : Bool := false
  curDate : String
  warmDate : String
  prevTickTs : Int := 0
  lastEodMinute : Int := -1
  returned : List String := []

/-- When the host flattens, and the last prices that it flattens at. -/
structure Marks where
  nowUs : Int := 0
  lastPrice : Nat → ℚ := fun _ => 0

inductive ControlAction
  | disable
  | enable
  | flatten
  deriving DecidableEq, Repr

namespace PaperEngine

variable (loop : LoopDesk)

/-- The close callback's last part: the account is told, and latches a halt that the
close gives. -/
def bookClose (x : PaperEngine) (row : PaperTradeRow) : PaperEngine :=
  let told := x.account.onTradeClose row.pnlUsd
  if told.2 = "" then { x with account := told.1 }
  else { x with account := told.1.setHalt told.2, returned := x.returned ++ [told.2] }

/-- A runner after a list of events, under the session's readings as they stand. -/
def serve (plan : Nat → Runner → List RunnerEvent) (regime : SessionRegime) (i : Nat)
    (r : Runner) : Runner :=
  Runs.run Runner.step r ((plan i r).map (fun event => (regime, event)))

/-- Serve every runner in order with the events its place and state call for; the account
hears of each trade that this closes. -/
def visit (plan : Nat → Runner → List RunnerEvent) (x : PaperEngine) : PaperEngine :=
  let closed := x.runners.mapIdx (fun i r =>
    r.broker.closedSince (serve plan x.regime i r).broker)
  { closed.flatten.foldl bookClose x with runners := x.runners.mapIdx (serve plan x.regime) }

/-- Halt the account and every strategy, and flatten every runner. -/
def haltAll (reason : String) (marks : Marks) (x : PaperEngine) : PaperEngine :=
  visit (fun i _ => [.halt, .flatten .accountHalt marks.nowUs (marks.lastPrice i)])
    { x with account := x.account.setHalt reason }

/-- The trading day rolls when an instant lies in another one. -/
def rollDayIfNeeded (atUs : Int) (atr : ℚ) (marks : Marks) (x : PaperEngine) : PaperEngine :=
  let date := etTradeDate atUs
  if date = x.curDate then x
  else
    let x := visit (fun _ _ => [.rollDay])
      { x with curDate := date, regime := x.regime.setAtr date atr }
    let x := { x with account := x.account.resetDay }
    -- A halt that survives the rollover is applied to every strategy again.
    if x.account.halted then haltAll x.account.haltReason marks x else x

/-- The trading day of a replayed tick; the account stays with today's. -/
def warmRollTo (date : String) (atr : ℚ) (x : PaperEngine) : PaperEngine :=
  if date = x.warmDate then x
  else
    visit (fun _ _ => [.warmRoll])
      { x with warmDate := date, regime := x.regime.setAtr date atr }

def endWarmup (atr : ℚ) (x : PaperEngine) : PaperEngine :=
  let x := warmRollTo x.curDate atr { x with warmingUp := false }
  visit (fun _ _ => [.endWarmup]) { x with regime := x.regime.setAtr x.curDate atr }

/-- A tick that is older than the position a warm-up resumed. -/
def predates (tsUs : Int) (x : PaperEngine) (r : Runner) : Bool :=
  x.warmingUp && decide (r.broker.posDir ≠ 0) && decide (tsUs < r.broker.entryTimeUs)

/-- What comes before a tick is looked at: the end of the warm-up, or the tick's own
trading day. -/
def enterTick (tsUs : Int) (atr : ℚ) (marks : Marks) (x : PaperEngine) : PaperEngine :=
  let x := if x.warmingUp ∧ tsUs ≥ loop.warmupUntilUs then endWarmup atr x else x
  if x.warmingUp then warmRollTo (etTradeDate tsUs) atr x else rollDayIfNeeded tsUs atr marks x

/-- The guard against a hole in the stream. The session is fed again to the opening-range
engines where both sides of the hole lie in one trading day. -/
def gapGuard (tsUs : Int) (refeed : Nat → List EngineSignal) (x : PaperEngine) : PaperEngine :=
  let sameDay := !x.warmingUp && decide (etTradeDate x.prevTickTs = etTradeDate tsUs)
  let x :=
    if x.prevTickTs ≠ 0 ∧ tsUs - x.prevTickTs > loop.feedGapResetUs then
      visit (fun i _ => [.gap (if sameDay then some (refeed i) else none)]) x
    else x
  { x with prevTickTs := tsUs }

/-- A quote reaches the broker, and then the trend engine, which may trade on it. -/
def onQuote (q : Quote) (signals : Nat → List EngineSignal) (x : PaperEngine) : PaperEngine :=
  visit (fun i _ => .quote q :: (signals i).map .signal) x

/-- The flatten signal of an engine whose window has ended. -/
def eodSignal (engine : Engine) : EngineSignal :=
  match engine.kind with
  | .orb => { sig := .flattenEod, reason := "eod_flatten", own := by decide }
  | .trend _ => { sig := .flattenEod, reason := "session_end", own := by decide }
  | .mtf => { sig := .flattenEod, reason := "Session End / Out of Range", own := by decide }

/-- The check of the window's end, for the strategies whose window it finds ended. -/
def checkEod (ended : Nat → Bool) (i : Nat) (r : Runner) : List RunnerEvent :=
  if ended i then [.signal (eodSignal r.broker.engine)] else []

/-- The check once for every minute of tick time. -/
def minuteCheck (tsUs : Int) (ended : Nat → Bool) (x : PaperEngine) : PaperEngine :=
  let minute := (utcToEt tsUs).1 * 60 + (utcToEt tsUs).2
  if minute = x.lastEodMinute then x
  else
    visit (fun i r => if x.predates tsUs r then [] else checkEod ended i r)
      { x with lastEodMinute := minute }

/-- The tick itself: the session's readings, then for each runner its broker and its
strategy. -/
def onTick (t : OrbTick) (bracket : Nat → Bracket) (signals : Nat → List EngineSignal)
    (x : PaperEngine) : PaperEngine :=
  let date := if x.warmingUp then x.warmDate else x.curDate
  let et := utcToEt t.tsMicros
  visit (fun i r =>
      if x.predates t.tsMicros r then [] else .tick t (bracket i) :: (signals i).map .signal)
    { x with regime := x.regime.onTick date et.1 et.2 t.tsMicros t.price t.size }

/-- After the batch: a warm-up ends when the stream has caught up with its end. -/
def caughtUp (last : Option Int) (atr : ℚ) (x : PaperEngine) : PaperEngine :=
  if x.warmingUp && loop.reachedBy last then endWarmup atr x else x

/-- The re-check of the account's limits. -/
def recheck (marks : Marks) (x : PaperEngine) : PaperEngine :=
  if x.account.halted then x
  else if x.account.checkLimits = "" then x
  else haltAll x.account.checkLimits marks x

/-- The check of the window's end by the clock. -/
def wallCheck (ended : Nat → Bool) (x : PaperEngine) : PaperEngine :=
  if x.warmingUp then x else visit (checkEod ended) x

/-- A row of the operator acts on the first runner of its name. -/
def control (id : String) (action : ControlAction) (marks : Marks) (x : PaperEngine) :
    PaperEngine :=
  match x.runners.findIdx? (fun r => decide (r.desk.strategyId = id)) with
  | none => x
  | some hit =>
    let event : RunnerEvent :=
      match action with
      | .disable => .halt
      | .enable => .enable
      | .flatten => .flatten .manual marks.nowUs (marks.lastPrice hit)
    visit (fun i _ => if i = hit then [event] else []) x

end PaperEngine

/-- The stretches of the loop, each with what it is given. -/
inductive Phase
  | enterTick (tsUs : Int) (atr : ℚ) (marks : Marks)
  | gapGuard (tsUs : Int) (refeed : Nat → List EngineSignal)
  | quote (q : Quote) (signals : Nat → List EngineSignal)
  | minuteCheck (tsUs : Int) (ended : Nat → Bool)
  | tick (t : OrbTick) (bracket : Nat → Bracket) (signals : Nat → List EngineSignal)
  | caughtUp (last : Option Int) (atr : ℚ)
  | recheck (marks : Marks)
  | wallCheck (ended : Nat → Bool)
  | wallRoll (nowUs : Int) (atr : ℚ) (marks : Marks)
  | control (id : String) (action : ControlAction) (marks : Marks)

def PaperEngine.step (loop : LoopDesk) (x : PaperEngine) : Phase → PaperEngine
  | .enterTick tsUs atr marks => x.enterTick loop tsUs atr marks
  | .gapGuard tsUs refeed => x.gapGuard loop tsUs refeed
  | .quote q signals => x.onQuote q signals
  | .minuteCheck tsUs ended => x.minuteCheck tsUs ended
  | .tick t bracket signals => x.onTick t bracket signals
  | .caughtUp last atr => x.caughtUp loop last atr
  | .recheck marks => x.recheck marks
  | .wallCheck ended => x.wallCheck ended
  | .wallRoll nowUs atr marks => x.rollDayIfNeeded nowUs atr marks
  | .control id action marks => x.control id action marks

/-! ## Turns of the loop -/

/-- A tick of the batch with all that goes with it. -/
structure TickInput where
  t : OrbTick
  atr : ℚ := 0
  marks : Marks := {}
  refeed : Nat → List EngineSignal := fun _ => []
  quotes : List (Quote × (Nat → List EngineSignal)) := []
  ended : Nat → Bool := fun _ => false
  bracket : Nat → Bracket := fun _ => {}
  signals : Nat → List EngineSignal := fun _ => []

def TickInput.phases (input : TickInput) : List Phase :=
  [.enterTick input.t.tsMicros input.atr input.marks, .gapGuard input.t.tsMicros input.refeed] ++
    input.quotes.map (fun q => .quote q.1 q.2) ++
    [.minuteCheck input.t.tsMicros input.ended, .tick input.t input.bracket input.signals]

/-- One turn of the loop: the batch, and what the loop does after it. -/
structure Turn where
  ticks : List TickInput := []
  atr : ℚ := 0
  marks : Marks := {}
  ended : Nat → Bool := fun _ => false
  clockUs : Int
  rows : List (String × ControlAction) := []

def Turn.phases (turn : Turn) : List Phase :=
  turn.ticks.flatMap TickInput.phases ++
    [.caughtUp (turn.ticks.getLast?.map (·.t.tsMicros)) turn.atr, .recheck turn.marks,
      .wallCheck turn.ended, .wallRoll turn.clockUs turn.atr turn.marks] ++
    turn.rows.map (fun row => .control row.1 row.2 turn.marks)

/-- What the fleet is started with. -/
structure Launch where
  account : AccountEnvelope := {}
  boots : List Boot
  totalPnl : ℚ := 0
  dayPnl : ℚ := 0
  peakEquity : ℚ := 50000
  warm : Bool := false
  date : String
  regime : SessionRegime := {}
  marks : Marks := {}

/-- The fleet as the main loop finds it. The account hears of the legs that a restart
drops before it is seeded. -/
def Launch.engine (launch : Launch) : PaperEngine :=
  let runners := launch.boots.map (fun boot => boot.runner.setWarmup launch.warm)
  let built : PaperEngine :=
    { account := launch.account
      runners := runners
      regime := launch.regime
      warmingUp := launch.warm
      curDate := launch.date
      warmDate := launch.date }
  let told := (runners.flatMap (fun r =>
    r.broker.outbox.filterMap PaperBroker.closedRow)).foldl PaperEngine.bookClose built
  let seeded := { told with
    account := told.account.seed launch.totalPnl launch.dayPnl launch.peakEquity
    returned := [] }
  if seeded.account.checkLimits = "" then seeded
  else seeded.haltAll seeded.account.checkLimits launch.marks

end RithmicEngine
