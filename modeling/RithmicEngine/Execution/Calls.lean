import RithmicEngine.Base.Runs
import RithmicEngine.Execution.OrderManager
/-!
# Calls and runs of the order manager

Every public operation as a call at a time of the steady clock, and a run as a
list of calls in the order in which they take the mutex. The risk manager and
the regime readings are shared with the rest of the process, which may change
them between two calls; that is a call of its own. Each step starts with an
empty outbox, so the outbox after a step is what that one call sent.
-/
namespace RithmicEngine

inductive Op
  | signal (sig : OrbSignal) (price desiredSlDist : ℚ)
  | fill (basket : String) (price : ℚ) (qty : Int) (isEntry : Bool)
  | checkTrail (price : ℚ)
  | checkExternal (price : ℚ) (stratStop : Option ℚ)
  | flatten (reason : String) (price : ℚ)
  | retryStuckExit (price : ℚ)
  | entryTimeout (timeoutSecs : Int)
  | rejected (basket : String)
  | cancelConfirmed (basket : String)
  | cancelConfirmedByServer (server : String)
  | cancelFailed (id : String)
  | stopServerMapped (client server : String)
  | mapServer (client server : String)
  | setStopServer (server : String)
  | externalClose (refPrice : ℚ) (reason : String)
  | fillProcessed (basket : String) (qty : Int)
  | recancel
  | clearRecancels
  | registerUnwind (basket : String)
  | confirmFlat
  | seedStop (basket : String) (wasBuyStop : Bool)
  | seedServer (server client : String)
  | popCompleted
  | host (risk : RiskManager) (regime : Option RegimeState)
  deriving DecidableEq

/-- One call, with the time the clock shows during it. -/
structure Call where
  now : Int := 1
  op : Op
  deriving DecidableEq

namespace OrderManager

variable (host : Host)

/-- The state after a call, return values dropped. -/
def perform (call : Call) (s : OrderManager) : OrderManager :=
  match call.op with
  | .signal sig price dist => onSignal host call.now sig price dist s
  | .fill basket price qty isEntry =>
    onFillNotificationLocked host call.now basket price qty isEntry s
  | .checkTrail price => (checkTrailAndStop host call.now price s).1
  | .checkExternal price stratStop => (checkExternalStop host call.now price stratStop s).1
  | .flatten reason price => flattenNow host call.now reason price s
  | .retryStuckExit price => retryStuckExit host call.now price s
  | .entryTimeout secs => (pendingEntryTimeoutCheck host call.now secs s).1
  | .rejected basket => onOrderRejected host call.now basket s
  | .cancelConfirmed basket => onCancelConfirmed host basket s
  | .cancelConfirmedByServer server => onCancelConfirmedByServerBasket host server s
  | .cancelFailed id => onCancelFailed host id s
  | .stopServerMapped client server => onStopServerMapped host client server s
  | .mapServer client server => mapServerBasket host client server s
  | .setStopServer server => setStopServerBasket server s
  | .externalClose refPrice reason => adoptExternalClose host refPrice reason s
  | .fillProcessed basket qty => (fillAlreadyProcessed basket qty s).1
  | .recancel => recancelPendingStops host s
  | .clearRecancels => clearPostCloseRecancels s
  | .registerUnwind basket => registerUnwindBasket basket s
  | .confirmFlat => confirmExchangeFlat s
  | .seedStop basket wasBuyStop => seedCancelledStops basket wasBuyStop s
  | .seedServer server client => seedServerStopCancel server client s
  | .popCompleted => (popTradeCompleted s).1
  | .host risk regime => { s with risk := risk, regime := regime }

/-- One step: the outbox afterwards holds what this call sent. -/
def step (s : OrderManager) (call : Call) : OrderManager :=
  perform host call { s with outbox := [] }

/-- The manager a process constructs, with the basket counter it inherits. -/
def fresh (risk : RiskManager) (seq : Nat) : OrderManager := { risk := risk, seq := seq }

end OrderManager

end RithmicEngine
