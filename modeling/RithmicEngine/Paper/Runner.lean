import RithmicEngine.Base.Standing
import RithmicEngine.Execution.StrategyHost
import RithmicEngine.Paper.PaperBracketBroker
import RithmicEngine.Paper.StopLegs
/-!
# A runner of the paper fleet

One enabled strategy beside its paper broker. The opening-range and the trend engine
trade through the plain broker, the scalper through the bracket broker; the host calls
the broker with a tick before the strategy, hands every trade the broker closes to the
strategy, and hands every signal of the strategy to the broker, which answers nothing.

Of the strategy only the position it believes in and its halt are kept, as beside the
executor; which signals it emits is left open. The counters of the day and the rows
that are saved for them are left out.
-/
namespace RithmicEngine

/-- The engines that trade through the plain broker. -/
inductive PlainEngine
  | orb
  | trend (hold : Bool)
  deriving DecidableEq, Repr

def PlainEngine.kind : PlainEngine → EngineKind
  | .orb => .orb
  | .trend hold => .trend hold

/-- The reason the host keeps for the leg a restart dropped. -/
def restartFlatten : String := "restart_flatten"

/-- What a strategy emits. No engine uses the reason of a restart. -/
structure EngineSignal where
  sig : OrbSignal
  reason : String
  own : reason ≠ restartFlatten

/-- Why the host flattens a runner while it runs. -/
inductive HostFlatten
  | accountHalt
  | manual
  deriving DecidableEq, Repr

def HostFlatten.text : HostFlatten → String
  | .accountHalt => "account_halt"
  | .manual => "manual"

/-! ## The two brokers as one -/

/-- A paper broker with the engine it serves. -/
inductive Broker
  | plain (engine : PlainEngine) (b : PaperBroker)
  | bracket (b : PaperBracketBroker)
  deriving DecidableEq

namespace Broker

variable (desk : PaperDesk)

def engine : Broker → Engine
  | .plain engine _ => { kind := engine.kind }
  | .bracket _ => { kind := .mtf }

/-- What the broker holds and what waits. -/
def standing : Broker → Standing
  | .plain _ b => { held := b.posDir, waiting := b.pendingDir }
  | .bracket b => { held := b.posDir, waiting := b.pendingDir, turning := b.pendingFlip }

def posDir (b : Broker) : SignType := b.standing.held

def halted : Broker → Bool
  | .plain _ b => b.halted
  | .bracket b => b.halted

def warmup : Broker → Bool
  | .plain _ b => b.warmup
  | .bracket b => b.warmup

def entryTimeUs : Broker → Int
  | .plain _ b => b.entryTimeUs
  | .bracket b => b.entryTimeUs

def outbox : Broker → List PaperEffect
  | .plain _ b => b.outbox
  | .bracket b => b.outbox

/-- The trades closed between two states. -/
def closedSince (before after : Broker) : List PaperTradeRow :=
  (after.outbox.drop before.outbox.length).filterMap PaperBroker.closedRow

def onSignal (regime : Option SessionRegime) (sig : OrbSignal) (reason : String) :
    Broker → Broker
  | .plain engine b => .plain engine (b.onSignal desk regime sig reason)
  | .bracket b => .bracket (b.onSignal desk regime sig reason)

def onQuote (q : Quote) : Broker → Broker
  | .plain engine b => .plain engine (b.onQuote desk q)
  | .bracket b => .bracket (b.onQuote desk q)

/-- The bracket is the scalper's as of the previous tick. -/
def onTick (regime : Option SessionRegime) (t : OrbTick) (bracket : Bracket) : Broker → Broker
  | .plain engine b => .plain engine (b.onTick desk regime t)
  | .bracket b => .bracket (b.onTick desk t bracket)

def flatten (reason : String) (tsUs : Int) (priceHint : ℚ) : Broker → Broker
  | .plain engine b => .plain engine (b.flatten desk reason tsUs priceHint)
  | .bracket b => .bracket (b.flatten desk reason tsUs priceHint)

def resetDay : Broker → Broker
  | .plain engine b => .plain engine b.resetDay
  | .bracket b => .bracket b.resetDay

def setWarmup (on : Bool) : Broker → Broker
  | .plain engine b => .plain engine (b.setWarmup on)
  | .bracket b => .bracket (b.setWarmup on)

end Broker

/-! ## The runner -/

structure Runner where
  desk : PaperDesk
  allowFlips : Bool := false
  broker : Broker
  inPosition : OrbSignal := .none
  riskHalted : Bool := false
  startupHalt : Bool := false

/-- The direction of a closed trade as the host reads it from the row. -/
def PaperTradeRow.closedDir (row : PaperTradeRow) : OrbSignal :=
  if row.direction = "LONG" then .buy else .sell

namespace Runner

def strategyInPosition (r : Runner) : Bool := decide (r.inPosition ≠ .none)

def notifyTradeFilled (direction : OrbSignal) (r : Runner) : Runner :=
  { r with inPosition := r.broker.engine.notifyTradeFilled direction r.inPosition }

/-- Tell the strategy that its trade closed. The leg that a restart dropped is not the
scalper's decision. -/
def onTradeClosed (r : Runner) (row : PaperTradeRow) : Runner :=
  if r.broker.engine.kind = .mtf ∧ row.exitReason = restartFlatten then r
  else r.notifyTradeFilled row.closedDir

/-- Put the broker into its next state and hand over the trades that this closed. -/
def settleTo (next : Broker) (r : Runner) : Runner :=
  (r.broker.closedSince next).foldl onTradeClosed { r with broker := next }

def sHalt (r : Runner) : Runner := { r with riskHalted := true }

def sUnhalt (r : Runner) : Runner := { r with riskHalted := false }

def sReset (r : Runner) : Runner :=
  { r with inPosition := r.broker.engine.resetSession r.inPosition, riskHalted := false }

/-- An engine enters when it is neither halted nor in a position; the scalper, where it
may flip, also against the position it is in. -/
def mayEnter (sig : OrbSignal) (r : Runner) : Bool :=
  !r.riskHalted &&
    (!r.strategyInPosition ||
      (decide (r.broker.engine.kind = .mtf) && r.allowFlips && decide (sig ≠ r.inPosition)))

/-- One emission of the strategy. It takes itself to be in the position it signalled,
whatever the broker makes of the signal. -/
def emit (regime : SessionRegime) (s : EngineSignal) (r : Runner) : Runner :=
  if s.sig.isEntry then
    if r.mayEnter s.sig then
      { r with
        broker := r.broker.onSignal r.desk (some regime) s.sig s.reason
        inPosition := s.sig }
    else r
  else { r with broker := r.broker.onSignal r.desk (some regime) s.sig s.reason }

/-- A hole in the tick stream: a flat runner of the plain broker that is not halted may
restart its session. -/
def gapResettable (r : Runner) : Bool :=
  match r.broker with
  | .bracket _ => false
  | .plain _ b => decide (b.posDir = 0) && !b.halted && !r.riskHalted

/-- Release whatever the strategy takes itself to hold, where the broker is flat. -/
def release (r : Runner) : Runner :=
  if r.strategyInPosition ∧ r.broker.posDir = 0 then r.notifyTradeFilled .flattenEod else r

def setWarmup (on : Bool) (r : Runner) : Runner :=
  { r with broker := r.broker.setWarmup on }

/-- Feed the recorded session again into the opening-range engine, its entries
suppressed. -/
def refeedOrb (regime : SessionRegime) (signals : List EngineSignal) (r : Runner) : Runner :=
  ((signals.foldl (fun r s => r.emit regime s) (r.setWarmup true)).setWarmup false).release

/-- What the host does to a runner when the stream has had a hole; without signals
nothing is fed again. -/
def gapReset (regime : SessionRegime) (refeed : Option (List EngineSignal)) (r : Runner) : Runner :=
  if r.gapResettable then
    match refeed, r.broker with
    | some signals, .plain .orb _ => r.sReset.refeedOrb regime signals
    | _, _ => r.sReset
  else r

/-- The rollover of the trading day. The scalper's own unhalt does nothing more, since
its reset has lifted the halt. -/
def rollDay (r : Runner) : Runner := { r.sReset with broker := r.broker.resetDay }

def endWarmup (r : Runner) : Runner :=
  let r := (r.setWarmup false).release
  if r.startupHalt then r.sHalt else r

def flatten (why : HostFlatten) (tsUs : Int) (priceHint : ℚ) (r : Runner) : Runner :=
  r.settleTo (r.broker.flatten r.desk why.text tsUs priceHint)

/-- The operator's enable is refused while the broker's own risk manager is halted. -/
def enable (r : Runner) : Runner := if r.broker.halted then r else r.sUnhalt

end Runner

/-- What the host does to a runner. Every emission of the strategy is an event of its
own, whether a tick, a quote or the clock brought it about. -/
inductive RunnerEvent
  | quote (q : Quote)
  | tick (t : OrbTick) (bracket : Bracket)
  | signal (s : EngineSignal)
  | rollDay
  | warmRoll
  | endWarmup
  | gap (refeed : Option (List EngineSignal))
  | halt
  | enable
  | flatten (why : HostFlatten) (tsUs : Int) (priceHint : ℚ)

namespace Runner

/-- One event, under the session's readings as they stand. History is not fed again
while a warm-up replays it, and a warm-up ends once. -/
def step (r : Runner) (moment : SessionRegime × RunnerEvent) : Runner :=
  match moment.2 with
  | .quote q => { r with broker := r.broker.onQuote r.desk q }
  | .tick t bracket => r.settleTo (r.broker.onTick r.desk (some moment.1) t bracket)
  | .signal s => r.emit moment.1 s
  | .rollDay => r.rollDay
  | .warmRoll => r.sReset
  | .endWarmup => if r.broker.warmup then r.endWarmup else r
  | .gap refeed => r.gapReset moment.1 (if r.broker.warmup then none else refeed)
  | .halt => r.sHalt
  | .enable => r.enable
  | .flatten why tsUs priceHint => r.flatten why tsUs priceHint

end Runner

/-! ## Starting a runner -/

/-- The open position of a strategy in the database. -/
structure OpenRow where
  direction : SignType
  qty : Int
  entryPrice : ℚ
  stopPrice : ℚ
  entryTimeUs : Int
  some : direction ≠ 0

/-- What is read from the database when a runner is built. The halt is that of a
disabled strategy or of its day's row; seeding a risk manager never halts it. -/
structure RunnerSeed where
  totalPnl : ℚ := 0
  dayPnl : ℚ := 0
  entriesToday : Int := 0
  position : Option OpenRow := none
  halt : Bool := false
  warm : Bool := false
  nowUs : Int := 0

namespace Runner

variable (desk : PaperDesk) (seed : RunnerSeed)

/-- The plain broker resumes the saved position. Only the trend engine is told of it. -/
def startPlain (engine : PlainEngine) : Runner :=
  let fresh := PaperBroker.fresh desk
  let risk := (fresh.risk.seedTotalProfit seed.totalPnl).seedDailyPnl seed.dayPnl
  let seeded := { fresh with risk := risk }.seedEntriesToday seed.entriesToday
  let resumed := match seed.position with
    | none => seeded
    | some p => seeded.resumePosition p.direction p.qty p.entryPrice p.stopPrice p.entryTimeUs
  { desk := desk
    broker := .plain engine (resumed.setWarmup seed.warm)
    inPosition :=
      match engine, seed.position with
      | .trend _, some p => if p.direction > 0 then .buy else .sell
      | _, _ => .none
    riskHalted := seed.halt
    startupHalt := seed.halt }

/-- The bracket broker resumes the leg and closes it at once: the scalper starts flat. -/
def startBracket (allowFlips : Bool) : Runner :=
  let fresh := PaperBracketBroker.fresh desk
  let risk := (fresh.risk.seedTotalProfit seed.totalPnl).seedDailyPnl seed.dayPnl
  let seeded := { fresh with risk := risk }
  let resumed := match seed.position with
    | none => seeded
    | some p =>
      (seeded.resumePosition p.direction p.qty p.entryPrice p.stopPrice p.entryTimeUs).flatten
        desk restartFlatten seed.nowUs 0
  { desk := desk
    allowFlips := allowFlips
    broker := .bracket (resumed.setWarmup seed.warm)
    riskHalted := seed.halt
    startupHalt := seed.halt }

end Runner

end RithmicEngine
