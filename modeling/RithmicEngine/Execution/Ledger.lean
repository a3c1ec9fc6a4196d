import Mathlib.Logic.Relation
import RithmicEngine.Execution.Calls
/-!
# The order ledger

Which order stands for what, without prices and timers. The ledger is the order
manager's book of baskets: the position and the orders of its trade, the stops
and exits whose cancel may not have been honoured, the unwinds under way and the
abandoned entry. It says what the component is for: every order that may still
fill is on the book, under the rule by which its fill will be answered.

A move is what the manager does to the book on its own initiative, a walk is any
number of moves, and a step is what one call does. The relations are looser than
the code wherever the book does not depend on it: when a stop moves, at which
price an exit is sent, whether a signal is accepted.
-/
namespace RithmicEngine

structure Ledger where
  state : PosState
  direction : OrbSignal
  qty : Int
  entry : String
  exit : String
  stop : String
  stopServer : String
  trade : Nat
  guards : Table String Bool
  guardTrade : Table String Nat
  servers : Table String String
  clientOnly : Finset String
  orders : Table String String
  lastStop : String
  lastStopBuy : Bool
  unwinds : Finset String
  abandoned : String
  abandonedBuy : Bool
  ghost : Bool
  next : Nat
  sent : List Effect

namespace Ledger

variable (host : Host)

/-! ## What can happen to the book -/

/-- No position and no order of one. -/
def reset (l : Ledger) : Ledger :=
  { l with state := .flat, direction := .none, qty := 1, entry := "", exit := "", stop := "" }

/-- A position is open and no exit is under way. -/
def Open (l : Ledger) : Prop := l.state = .long ∨ l.state = .short

/-- The order carries the next basket id, the quantity and the side. -/
structure Places (l : Ledger) (request : OrderRequest) (qty : Int) (isBuy : Bool) : Prop where
  basket : request.basket = host.basketId l.next
  qty : request.qty = qty
  side : request.isBuy = isBuy

/-- Draw the next basket id and record the order that carries it. -/
def order (role : OrderRole) (request : OrderRequest) (accepted : Bool) (l : Ledger) : Ledger :=
  { l with next := l.next + 1, sent := l.sent ++ [Effect.order role request accepted] }

/-- A new trade with its entry order pending. -/
def enter (direction : OrbSignal) (qty : Int) (request : OrderRequest) (l : Ledger) : Ledger :=
  { order .entry request true l with
    state := .pendingEntry, direction := direction, qty := qty
    entry := host.basketId l.next, exit := "", stop := "", trade := l.trade + 1 }

/-- A new trade whose entry order was refused. -/
def refuseEntry (request : OrderRequest) (l : Ledger) : Ledger :=
  { (order .entry request false l).reset with trade := l.trade + 1 }

/-- Give up the pending entry, remembering its basket. -/
def abandon (cancels : List Effect) (l : Ledger) : Ledger :=
  { l.reset with
    abandoned := l.entry, abandonedBuy := decide (l.direction = .buy)
    sent := l.sent ++ cancels }

def submitStop (request : OrderRequest) (l : Ledger) : Ledger :=
  { order .stop request true l with
    stop := host.basketId l.next, stopServer := ""
    sent := l.sent ++ [Effect.order .stop request true] ++
      host.persistNotice (host.basketId l.next) (!decide (l.state = .long)) }

def refuseStop (request : OrderRequest) (l : Ledger) : Ledger :=
  { order .stop request false l with stop := "", stopServer := "" }

/-- Cancel the protective stop and guard it. -/
def cancelStop (l : Ledger) : Ledger :=
  { l with
    lastStop := l.stop
    lastStopBuy := decide (l.direction = .sell)
    guards := l.guards.insert l.stop (decide (l.direction = .sell))
    guardTrade := l.guardTrade.insert l.stop l.trade
    servers := if l.stopServer = "" then l.servers else l.servers.insert l.stopServer l.stop
    clientOnly := if l.stopServer = "" then insert l.stop l.clientOnly else l.clientOnly
    sent := l.sent ++ host.persistNotice l.stop (decide (l.direction = .sell)) ++
      (if l.stopServer = "" then [] else host.persistServerNotice l.stop l.stopServer) ++
      [Effect.cancel (if l.stopServer = "" then l.stop else l.stopServer)]
    stop := ""
    stopServer := "" }

/-- Cancel the protective stop if there is one. -/
def withdrawStop (l : Ledger) : Ledger :=
  if l.stop = "" then l else cancelStop host l

def sendExit (request : OrderRequest) (l : Ledger) : Ledger :=
  { order .exit request true l with state := .pendingExit, exit := host.basketId l.next }

/-- The exit send failed: the position is open as before. -/
def refuseExit (request : OrderRequest) (l : Ledger) : Ledger :=
  { order .exit request false l with state := heldState l.direction, exit := "" }

/-- The exit is gone and the position is open again. -/
def reopen (l : Ledger) : Ledger := { l with state := heldState l.direction, exit := "" }

/-- Guard the exit that is about to be replaced, cancelled by the given id, and
open the position again. -/
def guardExit (id : String) (l : Ledger) : Ledger :=
  { l.reopen with
    guards := l.guards.insert l.exit (decide (l.direction = .sell))
    guardTrade := l.guardTrade.insert l.exit l.trade
    servers := if id ≠ l.exit then l.servers.insert id l.exit else l.servers
    clientOnly := if id ≠ l.exit then l.clientOnly else insert l.exit l.clientOnly
    lastStop := l.exit
    lastStopBuy := decide (l.direction = .sell)
    sent := l.sent ++ [Effect.cancel id] ++
      host.persistNotice l.exit (decide (l.direction = .sell)) }

/-- Only cancels. -/
def Cancels (effects : List Effect) : Prop := ∀ effect ∈ effects, ∃ id, effect = Effect.cancel id

/-- Send cancels again. -/
def recancel (cancels : List Effect) (l : Ledger) : Ledger := { l with sent := l.sent ++ cancels }

/-- What the manager does on its own initiative. -/
inductive Move (l : Ledger) : Ledger → Prop
  | enter (direction : OrbSignal) (regime : Option RegimeState)
      (request : OrderRequest) (idle : l.state = .flat) (clear : l.ghost = false)
      (sided : direction = .buy ∨ direction = .sell)
      (places : l.Places host request (RegimeState.qtyFor host.cfg regime)
        (decide (direction = .buy)))
      (accepted : host.accepts (host.basketId l.next) = true) :
      Move l (l.enter host direction (RegimeState.qtyFor host.cfg regime) request)
  | refuseEntry (request : OrderRequest) (idle : l.state = .flat) :
      Move l (l.refuseEntry request)
  | abandon (cancels : List Effect) (pending : l.state = .pendingEntry)
      (only : Cancels cancels) : Move l (l.abandon cancels)
  | submitStop (request : OrderRequest) (held : l.Open) (bare : l.stop = "")
      (places : l.Places host request (if l.qty > 0 then l.qty else host.cfg.qty)
        (!decide (l.state = .long)))
      (accepted : host.accepts (host.basketId l.next) = true) :
      Move l (l.submitStop host request)
  | refuseStop (request : OrderRequest) (held : l.Open) (bare : l.stop = "") :
      Move l (l.refuseStop request)
  | cancelStop (held : l.Open) (stopped : l.stop ≠ "") :
      Move l (l.cancelStop host)
  | sendExit (request : OrderRequest) (held : l.Open) (bare : l.stop = "")
      (places : l.Places host request l.qty (decide (l.direction = .sell)))
      (accepted : host.accepts (host.basketId l.next) = true) :
      Move l (l.sendExit host request)
  | refuseExit (request : OrderRequest) (held : l.Open) (bare : l.stop = "") :
      Move l (l.refuseExit request)
  | guardExit (id : String) (closing : l.state = .pendingExit)
      (sent : l.exit ≠ "") (names : id = l.exit ∨ l.orders.lookup id = some l.exit) :
      Move l (l.guardExit host id)
  | recancel (cancels : List Effect) (only : Cancels cancels) :
      Move l (l.recancel cancels)

/-- Any number of moves. -/
abbrev Walk : Ledger → Ledger → Prop := Relation.ReflTransGen (Move host)

variable (l : Ledger)

/-- Withdrawing the stop of an open position is a walk that leaves it bare. -/
theorem withdrawStop_walk (held : l.Open) : Walk host l (l.withdrawStop host) := by
  by_cases none : l.stop = ""
  · simp only [withdrawStop, none, ↓reduceIte]
    exact .refl
  · simp only [withdrawStop, none, ↓reduceIte]
    exact .single (.cancelStop held none)

theorem withdrawStop_bare : (l.withdrawStop host).stop = "" := by
  by_cases none : l.stop = ""
  · simp [withdrawStop, none]
  · simp [withdrawStop, none, cancelStop]

/-- Withdrawing the stop leaves the position's state alone. -/
theorem withdrawStop_state : (l.withdrawStop host).state = l.state := by
  simp only [withdrawStop]
  split
  · rfl
  · rfl

theorem withdrawStop_open (held : l.Open) : (l.withdrawStop host).Open := by
  simpa only [Open, withdrawStop_state] using held

/-! ## Fills -/

/-- Send the order that reverses the fired one; a registered one is remembered. -/
def unwind (fired : String) (request : OrderRequest) (accepted register : Bool) (l : Ledger) :
    Ledger :=
  { order (.unwind fired) request accepted l with
    unwinds := if accepted ∧ register then insert (host.basketId l.next) l.unwinds
      else l.unwinds }

/-- Note that the checks of a fill outside a position began. -/
def noteFill (basket : String) (l : Ledger) : Ledger :=
  { l with sent := l.sent ++ [Effect.flatFill basket] }

/-- Drop the guard of an order that fired outside a position. -/
def dropFired (basket : String) (l : Ledger) : Ledger :=
  { l with
    guards := l.guards.erase basket
    servers := l.servers.dropValue basket
    clientOnly := l.clientOnly.erase basket
    sent := l.sent ++ host.removeNotice basket }

/-- The pending entry filled: the position is open, its stop not yet placed. -/
def fillEntry (l : Ledger) : Ledger :=
  { l with state := heldState l.direction, abandoned := "", abandonedBuy := false }

/-- Drop the guard of an order that closes the position. -/
def dropFilled (basket : String) (l : Ledger) : Ledger :=
  if basket ∈ l.guards then
    { l with
      guards := l.guards.erase basket
      guardTrade := l.guardTrade.erase basket
      servers := l.servers.dropValue basket
      clientOnly := l.clientOnly.erase basket
      lastStop := if l.lastStop = basket then "" else l.lastStop
      sent := l.sent ++ host.removeNotice basket }
  else l

/-- The stop of a closing position: filled, or cancelled and guarded. -/
def settleStop (basket : String) (l : Ledger) : Ledger :=
  if l.stop = "" then l
  else if l.stop ≠ basket then cancelStop host l
  else { l with sent := l.sent ++ host.removeNotice basket }

/-- A guard is kept while its cancel is known to be unacknowledged. -/
def keepsGuard (l : Ledger) (basket : String) : Bool :=
  l.servers.hasValue basket || decide (basket ∈ l.clientOnly)

/-- Purge the guards that count as confirmed and forget the unwinds. -/
def purge (l : Ledger) : Ledger :=
  { l with
    guards := l.guards.keep (fun basket _ => l.keepsGuard basket)
    unwinds := ∅
    sent := l.sent ++ (l.guards.keys.filter (fun basket => !l.keepsGuard basket)).flatMap
      host.removeNotice }

/-- The position closed by a complete fill of the basket. -/
def close (basket : String) (l : Ledger) : Ledger :=
  purge host { (settleStop host basket (dropFilled host basket l)).reset with orders := ∅ }

/-- What one fill notification does. -/
inductive Filled (basket : String) (qty : Int) (l : Ledger) : Bool → Ledger → Prop
  | spurious (elsewhere : l.state ≠ .pendingEntry)
      (unknown : ¬(l.abandoned ≠ "" ∧ basket = l.abandoned)) : Filled basket qty l true l
  | late (request : OrderRequest) (elsewhere : l.state ≠ .pendingEntry)
      (remembered : l.abandoned ≠ "") (named : basket = l.abandoned)
      (places : l.Places host request host.cfg.qty (!l.abandonedBuy)) :
      Filled basket qty l true
        (({ l with abandoned := "" } : Ledger).unwind host basket request
          (host.accepts (host.basketId l.next)) false)
  | mismatch (pending : l.state = .pendingEntry) (other : l.entry ≠ basket) :
      Filled basket qty l true l
  | partialEntry (pending : l.state = .pendingEntry) (named : l.entry = basket)
      (part : qty > 0 ∧ qty < l.qty) : Filled basket qty l true l
  | entered {l' : Ledger} (pending : l.state = .pendingEntry) (named : l.entry = basket)
      (whole : ¬(qty > 0 ∧ qty < l.qty)) (protect : Move host l.fillEntry l') :
      Filled basket qty l true l'
  | lastGuard (request : OrderRequest)
      (idle : l.state = .flat ∨ l.state = .pendingEntry)
      (remembered : l.lastStop ≠ "") (named : basket = l.lastStop)
      (places : l.Places host request host.cfg.qty (!l.lastStopBuy)) :
      Filled basket qty l false
        ((dropFired host basket { l.noteFill basket with lastStop := "" }).unwind host basket
          request (host.accepts (host.basketId l.next)) true)
  | guard (request : OrderRequest) (wasBuy : Bool)
      (idle : l.state = .flat ∨ l.state = .pendingEntry)
      (other : ¬(l.lastStop ≠ "" ∧ basket = l.lastStop))
      (guarded : l.guards.lookup basket = some wasBuy)
      (places : l.Places host request host.cfg.qty (!wasBuy)) :
      Filled basket qty l false
        ((dropFired host basket (l.noteFill basket)).unwind host basket request
          (host.accepts (host.basketId l.next)) true)
  | unwound (idle : l.state = .flat ∨ l.state = .pendingEntry)
      (other : ¬(l.lastStop ≠ "" ∧ basket = l.lastStop)) (free : basket ∉ l.guards)
      (known : basket ∈ l.unwinds) :
      Filled basket qty l false
        { l.noteFill basket with unwinds := l.unwinds.erase basket, ghost := false }
  | unknown (idle : l.state = .flat ∨ l.state = .pendingEntry)
      (other : ¬(l.lastStop ≠ "" ∧ basket = l.lastStop)) (free : basket ∉ l.guards)
      (unknown : basket ∉ l.unwinds) :
      Filled basket qty l false { l.noteFill basket with ghost := true }
  | partialExit (held : l.Open ∨ l.state = .pendingExit)
      (part : qty > 0 ∧ qty < l.qty) : Filled basket qty l false l
  | closed (held : l.Open ∨ l.state = .pendingExit)
      (whole : ¬(qty > 0 ∧ qty < l.qty)) : Filled basket qty l false (l.close host basket)

/-! ## Notices and host calls -/

/-- The order a rejection names. -/
def resolve (basket : String) (l : Ledger) : String := (l.orders.lookup basket).getD basket

/-- A rejected stop never worked. -/
def dropStop (l : Ledger) : Ledger :=
  { l with stop := "", stopServer := "", sent := l.sent ++ host.removeNotice l.stop }

/-- The cancel of an order was acknowledged. -/
def acknowledge (client : String) (servers : Table String String) (l : Ledger) : Ledger :=
  { l with
    guards := l.guards.erase client
    servers := servers
    clientOnly := l.clientOnly.erase client
    lastStop := if l.lastStop = client then "" else l.lastStop
    sent := l.sent ++ host.removeNotice client }

/-- A guard becomes the protective stop again, its row removed. -/
def readopt (client server : String) (l : Ledger) : Ledger :=
  { acknowledge host client
      (if server ≠ "" then l.servers.erase server else l.servers) l with
    stop := client, stopServer := server }

/-- The stop that stands in the way of a readopted one is cancelled. -/
def makeRoom (client : String) (l : Ledger) : Ledger :=
  if l.stop ≠ "" ∧ l.stop ≠ client then cancelStop host l else l

/-- The order whose cancel failed, and the id by which it was cancelled. -/
def Routes (id client server : String) (l : Ledger) : Prop :=
  (l.servers.lookup id = some client ∧ server = id) ∨
    (l.servers.lookup id = none ∧ client = id ∧ server = "" ∧
      l.servers.hasValue client = false)

def mapStop (client server : String) (l : Ledger) : Ledger :=
  { l with stopServer := server, sent := l.sent ++ host.persistServerNotice client server }

/-- A guard's server id became known and its cancel is sent again. -/
def mapGuard (client server : String) (effects : List Effect) (l : Ledger) : Ledger :=
  { l with
    servers := l.servers.insert server client
    clientOnly := l.clientOnly.erase client
    sent := l.sent ++ effects }

def mapOrder (client server : String) (l : Ledger) : Ledger :=
  { l with orders := l.orders.insert server client }

/-- The position closed at the exchange: its stop is cancelled and it is forgotten. -/
def closeExternally (l : Ledger) : Ledger :=
  { (withdrawStop host l).reset with orders := ∅ }

/-- No effect that the book answers for: mappings, cancels and nothing else. -/
def Quiet (effects : List Effect) : Prop :=
  ∀ effect ∈ effects, (∃ id, effect = Effect.cancel id) ∨
    ∃ client server, effect = Effect.persistServerId client server

/-- The calls in which the manager acts on its own initiative, or not at all. -/
def Initiates : Op → Bool
  | .signal _ _ _ | .checkTrail _ | .checkExternal _ _ | .flatten _ _ | .retryStuckExit _
  | .entryTimeout _ | .recancel | .fillProcessed _ _ | .popCompleted | .host _ _ => true
  | _ => false

/-- The notices that may be about an order the book does not know. -/
def Notifies : Op → Bool
  | .rejected _ | .cancelConfirmedByServer _ | .cancelFailed _ | .stopServerMapped _ _
  | .mapServer _ _ | .externalClose _ _ => true
  | _ => false

/-- What one call does to the book. -/
inductive Stepped (l : Ledger) : Op → Ledger → Prop
  | own {op : Op} {l' : Ledger} (initiates : Initiates op = true) (walk : Walk host l l') :
      Stepped l op l'
  | ignored {op : Op} (notifies : Notifies op = true) : Stepped l op l
  | filled (basket : String) (price : ℚ) (qty : Int) (isEntry : Bool) {l' : Ledger}
      (filled : Filled host basket qty l isEntry l') :
      Stepped l (.fill basket price qty isEntry) l'
  | rejectedEntry (basket : String) (pending : l.state = .pendingEntry)
      (named : l.entry = l.resolve basket) : Stepped l (.rejected basket) l.reset
  | rejectedExit (basket : String) {l' : Ledger} (closing : l.state = .pendingExit)
      (named : l.exit = l.resolve basket) (walk : Walk host l.reopen l') :
      Stepped l (.rejected basket) l'
  | rejectedStop (basket : String)
      (named : l.stop = l.resolve basket ∨ (l.stopServer ≠ "" ∧ l.stopServer = basket)) :
      Stepped l (.rejected basket) (l.dropStop host)
  | ackClient (basket : String) :
      Stepped l (.cancelConfirmed basket)
        (l.acknowledge host basket (l.servers.dropValue basket))
  | ackServer (server client : String)
      (mapped : l.servers.lookup server = some client) :
      Stepped l (.cancelConfirmedByServer server)
        (l.acknowledge host client (l.servers.erase server))
  | readopted (id client server : String) (held : l.Open)
      (guarded : client ∈ l.guards) (own : l.guardTrade.lookup client = some l.trade)
      (routes : l.Routes id client server) :
      Stepped l (.cancelFailed id) ((l.makeRoom host client).readopt host client server)
  | mapStop (client server : String) (named : client = l.stop)
      (known : client ≠ "") : Stepped l (.stopServerMapped client server)
      (l.mapStop host client server)
  | mapGuard (client server : String) (effects : List Effect)
      (guarded : client ∈ l.guards) (quiet : Quiet effects)
      (given : ¬(client = "" ∨ server = "")) :
      Stepped l (.stopServerMapped client server) (l.mapGuard client server effects)
  | mapOrder (client server : String) (given : ¬(client = "" ∨ server = "")) :
      Stepped l (.mapServer client server) (l.mapOrder client server)
  | mapCancelled (client server : String) (effects : List Effect)
      (quiet : Quiet effects) (given : ¬(client = "" ∨ server = "")) :
      Stepped l (.mapServer client server)
        ({ l.mapOrder client server with sent := l.sent ++ effects } : Ledger)
  | mapCancelledGuard (client server : String) (effects : List Effect)
      (guarded : client ∈ l.guards) (quiet : Quiet effects)
      (given : ¬(client = "" ∨ server = "")) :
      Stepped l (.mapServer client server)
        ((l.mapOrder client server).mapGuard client server effects)
  | setStopServer (server : String) :
      Stepped l (.setStopServer server) ({ l with stopServer := server } : Ledger)
  | externalClose (price : ℚ) (reason : String)
      (held : l.Open ∨ l.state = .pendingExit) :
      Stepped l (.externalClose price reason) (l.closeExternally host)
  | clearLast :
      Stepped l .clearRecancels ({ l with lastStop := "", lastStopBuy := false } : Ledger)
  | register (basket : String) :
      Stepped l (.registerUnwind basket) ({ l with unwinds := insert basket l.unwinds } : Ledger)
  | confirmFlat : Stepped l .confirmFlat ({ l with ghost := false } : Ledger)
  | seedStop (basket : String) (wasBuy : Bool) :
      Stepped l (.seedStop basket wasBuy)
        ({ l with guards := l.guards.insert basket wasBuy } : Ledger)
  | seedServer (server client : String) :
      Stepped l (.seedServer server client)
        ({ l with servers := l.servers.insert server client } : Ledger)

/-- A fill notification does nothing else than what it does as a fill. -/
theorem Stepped.isFilled {l l' : Ledger} {basket : String} {price : ℚ} {qty : Int}
    {isEntry : Bool} (stepped : Stepped host l (.fill basket price qty isEntry) l') :
    Filled host basket qty l isEntry l' := by
  cases stepped with
  | own initiates walk => exact absurd initiates Bool.false_ne_true
  | ignored notifies => exact absurd notifies Bool.false_ne_true
  | filled _ _ _ _ filled => exact filled

end Ledger

end RithmicEngine
