import RithmicEngine.Execution.CarriedPosition
import RithmicEngine.Execution.CycleBooks
/-!
# The strategy beside its executor

A strategy decides for itself whether it is in a position: it is once it has
signalled an entry, until the host tells it that a trade was closed or resets its
session. The signal callback answers nothing. The opening-range engine is left as it
is; the trend engine and the scalper are released where the callback left the order
manager flat. At the start of a cycle the feed of those two may replay history, and
what they signal then is dropped.

Of the strategy only the direction of that position is kept here, beside the halt
the executor has. Which signals it emits is left open, and so is what its gates on
the chase, the book and the regime answer.
-/
namespace RithmicEngine

def OrbSignal.isEntry : OrbSignal → Bool
  | .buy => true
  | .sell => true
  | .none => false
  | .flattenEod => false

inductive EngineKind
  | orb
  | trend (hold : Bool)
  | mtf
  deriving DecidableEq, Repr

/-- The engine, and whether the configuration asks for a warm-up replay. -/
structure Engine where
  kind : EngineKind := .orb
  warmup : Bool := false
  deriving DecidableEq, Repr

namespace Engine

/-- The host releases the engine where the order manager stayed flat. -/
def settles (engine : Engine) : Bool := decide (engine.kind ≠ .orb)

def replays (engine : Engine) : Bool := engine.settles && engine.warmup

/-- A trade of this direction was closed. The scalper keeps the leg it holds where
the closed one was the other; a direction-less notification releases every engine. -/
def notifyTradeFilled (engine : Engine) (direction inPosition : OrbSignal) : OrbSignal :=
  match engine.kind with
  | .orb => .none
  | .trend _ => .none
  | .mtf =>
    if direction.isEntry = true ∧ inPosition ≠ .none ∧ direction ≠ inPosition then inPosition
    else .none

/-- The hold mode of the trend engine keeps its position over the rollover. -/
def resetSession (engine : Engine) (inPosition : OrbSignal) : OrbSignal :=
  match engine.kind with
  | .trend true => inPosition
  | _ => .none

def settle (engine : Engine) (flat : Bool) (inPosition : OrbSignal) : OrbSignal :=
  if engine.settles && flat then engine.notifyTradeFilled .flattenEod inPosition else inPosition

/-- After a signal: the engine is in the position it signalled, whatever the callback
did, and is then settled. -/
def afterSignal (engine : Engine) (sig : OrbSignal) (flat : Bool) (inPosition : OrbSignal) :
    OrbSignal :=
  engine.settle flat (if sig.isEntry then sig else inPosition)

end Engine

namespace Executor

variable (host : Host)

/-- The signal that the strategy emits with this event. -/
def signalled (x : Executor) : Event → Option OrbSignal
  | .call call =>
    match call.op with
    | .signal sig _ _ => if x.stage = .live ∧ x.emits call.op = true then some sig else none
    | _ => none
  | _ => none

/-- The completed trade that this event reads. -/
def popped (x : Executor) : Event → Option Position
  | .call call =>
    if call.op = .popCompleted ∧ x.stage = .live then x.manager.popTradeCompleted.2 else none
  | _ => none

/-- The trade that a step closed. -/
def closed (x : Executor) (event : Event) (y : Executor) : Option Position :=
  match event with
  | .start _ => none
  | _ => if x.book.held && !y.book.held then some y.manager.completedPos else none

end Executor

/-- The executor, the position the strategy believes in, and whether its feed replays
history. -/
structure Trader where
  executor : Executor := {}
  inPosition : OrbSignal := .none
  replaying : Bool := false

inductive Happening
  | event (event : Event)
  | gated (sig : OrbSignal)
  | replayEnds

namespace Trader

variable (host : Host) (engine : Engine)

/-- The position the strategy believes in after an event of the executor. -/
def believes (x : Trader) (event : Event) (y : Executor) : OrbSignal :=
  match event with
  | .connected _ =>
    if x.executor.stage = .connecting ∧ x.executor.today.isNone = true then
      engine.resetSession x.inPosition
    else x.inPosition
  | .rollover date =>
    if x.executor.stage = .live ∧ x.executor.today ≠ some date then
      engine.resetSession x.inPosition
    else x.inPosition
  | _ =>
    match x.executor.signalled event, x.executor.popped event with
    | some sig, _ => engine.afterSignal sig y.manager.isFlat x.inPosition
    | none, some completed => engine.notifyTradeFilled completed.direction x.inPosition
    | none, none => x.inPosition

/-- Whether the feed replays after an event: it does from the start of the loops. -/
def replaysAfter (x : Trader) : Event → Bool
  | .connected _ => if x.executor.stage = .connecting then engine.replays else x.replaying
  | _ => x.replaying

/-- An event of the executor; a signal from replayed history never reaches it. -/
def handle (x : Trader) (event : Event) : Trader :=
  match x.replaying, x.executor.signalled event with
  | true, some sig => { x with inPosition := if sig.isEntry then sig else x.inPosition }
  | _, _ =>
    let y := x.executor.step host event
    { executor := y
      inPosition := x.believes engine event y
      replaying := x.replaysAfter engine event }

/-- One happening. A gate keeps an entry signal from the order manager; the end of the
replay releases the strategy. -/
def step (x : Trader) (happening : Happening) : Trader :=
  match happening with
  | .event event => x.handle host engine event
  | .gated sig =>
    if x.executor.stage = .live ∧ x.executor.session.riskHalted = false ∧ sig.isEntry = true then
      { x with
        inPosition :=
          if x.replaying then sig
          else engine.afterSignal sig x.executor.manager.isFlat x.inPosition }
    else x
  | .replayEnds =>
    if x.executor.stage = .live ∧ x.replaying = true then
      { x with inPosition := .none, replaying := false }
    else x

end Trader

/-- What should be known of the trades beside a run: the entry fills that opened a
position, the closed trades, the rows written, the closes the strategy was told of,
and whether a snapshot of this cycle, which followed another, was flat. -/
structure Tally where
  opened : Nat := 0
  closed : List Position := []
  rows : List Position := []
  notified : List Position := []
  reconnected : Bool := false
  confirmedFlat : Bool := false
  deriving DecidableEq

namespace Trader

variable (host : Host) (engine : Engine)

/-- The closed trade for which a settling engine is released although its own flatten
closed it: the close itself is notified later. -/
def releasedAs (x : Trader) (event : Event) (y : Executor) : Option Position :=
  if x.executor.signalled event = some .flattenEod ∧ engine.settles = true ∧
      x.inPosition ≠ .none then
    x.executor.closed event y
  else none

/-- The event is a flat position snapshot that is being processed. -/
def showsFlat (x : Executor) : Event → Bool
  | .position _ update =>
    x.reading host && decide (update.accountId = host.cfg.accountId) && update.isSnapshot &&
      decide (update.netQuantity = 0)
  | _ => false

def note (tally : Tally) (x : Trader) (happening : Happening) (y : Trader) : Tally :=
  match happening with
  | .event event =>
    { opened := tally.opened +
        if !x.executor.book.held && y.executor.book.held then 1 else 0
      closed := tally.closed ++ (x.executor.closed event y.executor).toList
      rows := tally.rows ++ (x.executor.popped event).toList
      notified := tally.notified ++ (x.executor.popped event).toList ++
        (x.releasedAs engine event y.executor).toList
      reconnected :=
        match event with
        | .start _ =>
          if x.executor.stage = .down ∧ x.executor.running = true then x.executor.today.isSome
          else tally.reconnected
        | _ => tally.reconnected
      confirmedFlat :=
        match event with
        | .start _ =>
          if x.executor.stage = .down ∧ x.executor.running = true then false
          else tally.confirmedFlat
        | _ => tally.confirmedFlat || (tally.reconnected && showsFlat host x.executor event) }
  | _ => tally

/-- A run with the trades noted beside it. -/
def watch : Trader × Tally → Happening → Trader × Tally :=
  Runs.observe (step host engine) (note host engine)

end Trader

end RithmicEngine
