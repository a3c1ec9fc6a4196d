import RithmicEngine.Base.Runs
import RithmicEngine.Paper.StopLegs
/-!
# A paper broker and its tape

A plain broker sits with the session that it reads and takes one tape: quotes, prints
under their trade date, the prior day's range, the signals of its strategy and the turn
of the day. Beside it stand the trades a broker has closed, and what the operations that
manage a stop leave alone.
-/
namespace RithmicEngine

namespace PaperBroker

/-- The trades a broker has closed. -/
def trades (b : PaperBroker) : List PaperTradeRow := b.outbox.filterMap closedRow

/-- Saving the position closes no trade. -/
theorem persistPosition_trades (desk : PaperDesk) (unreal : ℚ) (b : PaperBroker) :
    (persistPosition desk unreal b).trades = b.trades := by
  rw [persistPosition]
  split
  · rfl
  · simp [trades, emit, List.filterMap_cons, closedRow]

/-- Save the position when its stop moved. -/
def settle (desk : PaperDesk) (unreal : ℚ) (b : PaperBroker) : PaperBroker :=
  if b.slDirty then persistPosition desk unreal { b with slDirty := false } else b

theorem markOpen_settles (desk : PaperDesk) (price : ℚ) (b : PaperBroker) :
    markOpen desk price b =
      settle desk (unrealized desk price b)
        { b with risk := b.risk.updateUnrealized (some (unrealized desk price b)) } :=
  rfl

/-- Two states of a broker differ in the stop of its position alone. -/
structure Restopped (b b' : PaperBroker) : Prop extends SameTrade b b' where
  risk : b'.risk = b.risk
  qs : b'.qs = b.qs
  qty : b'.qty = b.qty
  mae : b'.mae = b.mae
  entryPrice : b'.entryPrice = b.entryPrice
  spreadEntry : b'.spreadEntry = b.spreadEntry
  entryBbo : b'.entryBbo = b.entryBbo
  pendingSinceUs : b'.pendingSinceUs = b.pendingSinceUs
  warmup : b'.warmup = b.warmup
  entriesToday : b'.entriesToday = b.entriesToday
  cooldownUntilUs : b'.cooldownUntilUs = b.cooldownUntilUs
  lastTickUs : b'.lastTickUs = b.lastTickUs
  lastEtHour : b'.lastEtHour = b.lastEtHour
  lastEtMin : b'.lastEtMin = b.lastEtMin

section Restop

variable (desk : PaperDesk) (regime : Option SessionRegime)

theorem syncPlacedStop_restops (force : Bool) (b : PaperBroker) :
    Restopped b (syncPlacedStop desk regime force b) := by
  rw [syncPlacedStop]
  split
  · repeat' constructor
  · split
    · repeat' constructor
    · repeat' constructor

theorem breakEven_restops (b : PaperBroker) : Restopped b (breakEven desk regime b) := by
  simp only [breakEven, syncPlacedStop, or_true, ↓reduceIte]
  split
  · split
    · repeat' constructor
    · repeat' constructor
  · repeat' constructor

theorem bookBreakEven_restops (t : OrbTick) (b : PaperBroker) :
    Restopped b (bookBreakEven desk regime t b) := by
  simp only [bookBreakEven, syncPlacedStop, or_true, ↓reduceIte]
  split
  · split
    · repeat' constructor
    · repeat' constructor
  · repeat' constructor

theorem armTrail_restops (tsUs : Int) (b : PaperBroker) :
    Restopped b (armTrail desk tsUs b) := by
  rw [armTrail]
  split
  · repeat' constructor
  · repeat' constructor

theorem trail_restops (price : ℚ) (b : PaperBroker) :
    Restopped b (trail desk regime price b) := by
  rw [trail]
  split
  · have synced := syncPlacedStop_restops desk regime false
      (raiseStop (trailLevel desk regime price b) b)
    exact { synced with }
  · repeat' constructor

end Restop

end PaperBroker

/-! ## The seat -/

/-- What reaches a broker and the session it reads. -/
inductive TapeEvent
  | quote (q : Quote)
  | tick (date : String) (t : OrbTick)
  | signal (sig : OrbSignal) (reason : String)
  | atr (date : String) (pts : ℚ)
  | newDay
  deriving DecidableEq

/-- A broker and the session it reads, if its host shares one. -/
structure Seat where
  regime : Option SessionRegime
  broker : PaperBroker

namespace Seat

variable (desk : PaperDesk)

/-- A seat before the first event. -/
def vacant (hosted : Bool) : Seat where
  regime := if hosted then some {} else none
  broker := PaperBroker.fresh desk

/-- The session takes a print before the broker does. -/
def step (s : Seat) : TapeEvent → Seat
  | .quote q => { s with broker := s.broker.onQuote desk q }
  | .tick date t =>
    let et := utcToEt t.tsMicros
    let regime := s.regime.map (·.onTick date et.1 et.2 t.tsMicros t.price t.size)
    { regime := regime, broker := s.broker.onTick desk regime t }
  | .signal sig reason => { s with broker := s.broker.onSignal desk s.regime sig reason }
  | .atr date pts => { s with regime := s.regime.map (·.setAtr date pts) }
  | .newDay => { s with broker := s.broker.resetDay }

def run (tape : List TapeEvent) (s : Seat) : Seat := Runs.run (step desk) s tape

/-- A second of the session's morning. -/
def morning (second : Int) : Int := 1746021600000000 + 1000000 * second

def print (second : Int) (price : ℚ) : TapeEvent :=
  .tick "2025-04-30" { tsMicros := morning second, price := price }

end Seat

end RithmicEngine
