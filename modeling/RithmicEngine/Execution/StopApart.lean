import RithmicEngine.Execution.Guards
import RithmicEngine.Execution.Journal
/-!
# The live stop is never its own guard

A stop either protects the position or is a guard whose cancel is under way, and
moving it from one place to the other touches three tables. In every run in which
each order has at most one server id, the protective stop is no guard and neither of
its ids is among the cancels on record, so that sending those again never reaches it
and its fill closes the position. One table is not part of this: an exit that was
cancelled by client id waits there for its server id, and when a failed cancel makes
it the stop, the late mapping cancels the stop.
-/
namespace RithmicEngine

open Runs

variable {host : Host}

/-! ## Whose order an id is -/

/-- The server ids of the orders: those the process hands out itself are none, and no
order has two. -/
structure ServerIds (host : Host) (clientOf : String → Option String) : Prop where
  empty : clientOf "" = none
  own : ∀ n, clientOf (host.basketId n) = none
  single : ∀ server other client, clientOf server = some client →
    clientOf other = some client → server = other

/-- A single server id, of an order that is not it. -/
theorem ServerIds.one {server client : String} (known : server ≠ "")
    (foreign : ∀ n, host.basketId n ≠ server) :
    ServerIds host fun id => if id = server then some client else none where
  empty := if_neg known.symm
  own := fun n => if_neg (foreign n)
  single := by
    have read {id held : String} (found : (if id = server then some client else none) = some held) :
        id = server := by
      split at found
      next same => exact same
      next => exact absurd found (Option.some_ne_none held).symm
    intro first second held found found'
    rw [read found, read found']

/-- No basket id of the host that takes every order starts as the given id does. -/
theorem accepting_apart {id : String} (head : id.toList.head? ≠ some 'M') (n : Nat) :
    Host.accepting.basketId n ≠ id := by
  rintro rfl
  simp [Host.basketId, Host.accepting, String.toList_append] at head

/-- The order that an id, of either kind, stands for. -/
def orderOf (clientOf : String → Option String) (id : String) : String :=
  (clientOf id).getD id

namespace Ledger

variable {clientOf : String → Option String} {ours : String → Prop}

/-- The server ids that the call brings in are those of the orders it names, and what
it seeds is no server id and was left by another process. -/
def Reports (clientOf : String → Option String) (inherited : Finset String) (l : Ledger) :
    Op → Prop
  | .stopServerMapped client server | .mapServer client server =>
    client = "" ∨ server = "" ∨ clientOf server = some client
  | .setStopServer server => l.stop = "" ∨ server = "" ∨ clientOf server = some l.stop
  | .seedServer server client => clientOf server = some client ∧ client ∈ inherited
  | .seedStop basket _ => clientOf basket = none
  | _ => True

instance (clientOf : String → Option String) (inherited : Finset String) (l : Ledger) (op : Op) :
    Decidable (l.Reports clientOf inherited op) := by
  induction op using Op.casesOn
  all_goals
    dsimp only [Reports]
    infer_instance

/-- The server ids on the book are those of the orders they stand for. -/
def Mapped (clientOf : String → Option String) (l : Ledger) : Prop :=
  ∀ other, l.Bound fun id => (clientOf id).getD other

variable {basket : String} {l : Ledger} {qty : Int} {isEntry : Bool} {op : Op} {seq : Nat}
  {l' : Ledger} {client : String}

theorem some_of_getD {found : Option String} (all : ∀ other, found.getD other = client) :
    found = some client := by
  cases found with
  | none =>
    have clash : "" = "x" := (all "").trans (all "x").symm
    exact absurd clash (by decide)
  | some held => exact congrArg some (all "")

theorem Mapped.server (mapped : l.Mapped clientOf) {server : String}
    (found : l.servers.lookup server = some client) : clientOf server = some client :=
  some_of_getD fun other => (mapped other).servers server client found

theorem Mapped.order (mapped : l.Mapped clientOf) {server : String}
    (found : l.orders.lookup server = some client) : clientOf server = some client :=
  some_of_getD fun other => (mapped other).orders server client found

/-- A report with the id that the server gave agrees with the book. -/
theorem Reports.agrees {inherited : Finset String} (reports : l.Reports clientOf inherited op)
    (other : String) : Agrees (fun id => (clientOf id).getD other) l op := by
  have named {server client : String} (found : clientOf server = some client) :
      (clientOf server).getD other = client := by
    rw [found, Option.getD_some]
  cases op with
  | stopServerMapped client server => exact reports.imp_right (Or.imp_right named)
  | mapServer client server => exact reports.imp_right (Or.imp_right named)
  | setStopServer server => exact reports.imp_right (Or.imp_right named)
  | seedServer server client => exact named reports.1
  | _ => trivial

/-! ## The orders of a trade are this process's own -/

/-- The stop, the exit and the orders recorded with a trade are the process's own. -/
structure Within (ours : String → Prop) (l : Ledger) : Prop where
  stop : ours l.stop
  exit : ours l.exit
  trade : ∀ basket ∈ l.guardTrade, basket ≠ "" ∧ ours basket

theorem Within.cancelStop (within : l.Within ours) (none : ours "") (stopped : l.stop ≠ "") :
    (l.cancelStop host).Within ours where
  stop := none
  exit := within.exit
  trade := by
    intro basket inside
    rcases (Table.mem_insert _ _ _ _).mp inside with rfl | before
    · exact ⟨stopped, within.stop⟩
    · exact within.trade basket before

theorem Within.withdrawStop (within : l.Within ours) (none : ours "") :
    (l.withdrawStop host).Within ours := by
  simp only [Ledger.withdrawStop]
  split
  · exact within
  next stopped => exact within.cancelStop none stopped

/-- A move leaves every id on the book one of ours. -/
theorem Move.within (move : Move host l l') (none : ours "")
    (placed : host.basketId l.next ∈ takenIn l'.sent → ours (host.basketId l.next))
    (within : l.Within ours) : l'.Within ours := by
  cases move with
  | enter => exact ⟨none, none, within.trade⟩
  | refuseEntry => exact ⟨none, none, within.trade⟩
  | abandon => exact ⟨none, none, within.trade⟩
  | submitStop request held bare places taken =>
    refine ⟨placed ?_, within.exit, within.trade⟩
    simp only [Ledger.submitStop, takenIn_append, takenIn_taken, places.basket, Finset.mem_union,
      Finset.mem_singleton, or_true, true_or]
  | refuseStop => exact ⟨none, within.exit, within.trade⟩
  | cancelStop held stopped => exact within.cancelStop none stopped
  | sendExit request held bare places taken =>
    refine ⟨within.stop, placed ?_, within.trade⟩
    simp [Ledger.sendExit, order, places.basket]
  | refuseExit => exact ⟨within.stop, none, within.trade⟩
  | guardExit id closing sent =>
    refine ⟨within.stop, none, ?_⟩
    intro basket inside
    rcases (Table.mem_insert _ _ _ _).mp inside with rfl | before
    · exact ⟨sent, within.exit⟩
    · exact within.trade basket before
  | recancel => exact ⟨within.stop, within.exit, within.trade⟩

/-- Moves place only orders of ours. -/
theorem Walk.within (walk : Walk host l l') (none : ours "")
    (placed : ∀ n, l.next ≤ n → host.basketId n ∈ takenIn l'.sent → ours (host.basketId n))
    (within : l.Within ours) : l'.Within ours := by
  induction walk with
  | refl => exact within
  | tail walk move ih =>
    have before := ih fun n low inside => placed n low (move.issues.takenIn_subset inside)
    exact move.within none (placed _ (Walk.next_le walk)) before

/-- So does a fill: the one id it may add is that of its unwind. -/
theorem Filled.within (filled : Filled host basket qty l isEntry l') (none : ours "")
    (placed : host.basketId l.next ∈ takenIn l'.sent → ours (host.basketId l.next))
    (within : l.Within ours) : l'.Within ours := by
  have same {c : Ledger} (stop : c.stop = l.stop) (exit : c.exit = l.exit)
      (trade : c.guardTrade = l.guardTrade) : c.Within ours :=
    ⟨stop ▸ within.stop, exit ▸ within.exit, trade ▸ within.trade⟩
  cases filled with
  | entered pending named whole protect =>
    exact protect.within none placed ⟨within.stop, within.exit, within.trade⟩
  | closed held whole =>
    refine ⟨none, none, ?_⟩
    have dropped : ∀ other ∈ (l.dropFilled host basket).guardTrade,
        other ≠ "" ∧ ours other := by
      intro other inside
      simp only [dropFilled] at inside
      split at inside
      · exact within.trade other ((Table.mem_erase _ _ _).mp inside).2
      · exact within.trade other inside
    have stop : (l.dropFilled host basket).stop = l.stop := by
      simp only [dropFilled]
      split
      · rfl
      · rfl
    intro other inside
    simp only [close, purge, settleStop, reset] at inside
    split_ifs at inside with bare
    · exact dropped other inside
    · rcases (Table.mem_insert _ _ _ _).mp inside with rfl | before
      · exact ⟨bare, stop ▸ within.stop⟩
      · exact dropped other before
    · exact dropped other inside
  | _ => exact same rfl rfl rfl

/-- Every step keeps the orders of a trade within those of the process, where the orders
it places are. -/
theorem Stepped.within (stepped : Stepped host l op l') (none : ours "")
    (placed : ∀ n, l.next ≤ n → host.basketId n ∈ takenIn l'.sent → ours (host.basketId n))
    (within : l.Within ours) : l'.Within ours := by
  cases stepped with
  | own initiates walk => exact Walk.within walk none placed within
  | filled basket price qty isEntry filled =>
    exact filled.within none (placed _ (Nat.le_refl _)) within
  | rejectedEntry => exact ⟨none, none, within.trade⟩
  | rejectedExit basket closing named walk =>
    exact Walk.within walk none placed ⟨within.stop, none, within.trade⟩
  | rejectedStop => exact ⟨none, within.exit, within.trade⟩
  | readopted id client server held guarded own routes =>
    have roomy : (l.makeRoom host client).Within ours := by
      simp only [Ledger.makeRoom]
      split
      next apart => exact within.cancelStop none apart.1
      next => exact within
    exact ⟨(within.trade client (Table.mem_of_lookup own)).2, roomy.exit, roomy.trade⟩
  | externalClose price reason held =>
    exact ⟨none, none, (within.withdrawStop none).trade⟩
  | _ => exact ⟨within.stop, within.exit, within.trade⟩

/-! ## The stop and the guards -/

/-- The stop is no guard and no cancel on record is its own; every cancel on record is
a guard's, or was seeded; guards are client ids; and an open position has no abandoned
entry. -/
structure Apart (clientOf : String → Option String) (inherited : Finset String) (l : Ledger) :
    Prop where
  guard : l.stop ≠ "" → l.stop ∉ l.guards
  server : l.stop ≠ "" → ∀ server, l.servers.lookup server ≠ some l.stop
  values : ∀ server client, l.servers.lookup server = some client →
    client ∈ l.guards ∨ client ∈ inherited
  clients : ∀ basket ∈ l.guards, clientOf basket = none
  entered : l.state ≠ .flat → l.state ≠ .pendingEntry → l.abandoned = ""

variable {inherited : Finset String}

/-- A book without a stop is apart where its tables are. -/
theorem Apart.bare (none : l.stop = "")
    (values : ∀ server client, l.servers.lookup server = some client →
      client ∈ l.guards ∨ client ∈ inherited)
    (clients : ∀ basket ∈ l.guards, clientOf basket = Option.none)
    (entered : l.state ≠ .flat → l.state ≠ .pendingEntry → l.abandoned = "") :
    l.Apart clientOf inherited where
  guard := fun stopped => absurd none stopped
  server := fun stopped => absurd none stopped
  values := values
  clients := clients
  entered := entered

/-- Apart depends on the stop, the guards and the ids only. -/
theorem Apart.congr (apart : l.Apart clientOf inherited) (stop : l'.stop = l.stop)
    (guards : l'.guards = l.guards) (servers : l'.servers = l.servers)
    (entered : l'.state ≠ .flat → l'.state ≠ .pendingEntry → l'.abandoned = "") :
    l'.Apart clientOf inherited where
  guard := by simpa only [stop, guards] using apart.guard
  server := by simpa only [stop, servers] using apart.server
  values := by simpa only [servers, guards] using apart.values
  clients := by simpa only [guards] using apart.clients
  entered := entered

/-- Without a position the stop is apart. -/
theorem Apart.idle (apart : l.Apart clientOf inherited) (stop : l'.stop = "")
    (guards : l'.guards = l.guards) (servers : l'.servers = l.servers)
    (idle : l'.state = .flat ∨ l'.state = .pendingEntry) : l'.Apart clientOf inherited := by
  refine .bare stop ?_ ?_ ?_
  · simpa only [servers, guards] using apart.values
  · simpa only [guards] using apart.clients
  · intro busy entering
    exact absurd idle (not_or.mpr ⟨busy, entering⟩)

/-- The tables after a cancel of one of the orders, filed under the given server id or
none. -/
theorem Apart.file {c : Ledger} {wasBuy : Bool} (apart : l.Apart clientOf inherited)
    (plain : clientOf basket = none) (guards : c.guards = l.guards.insert basket wasBuy)
    (servers : c.servers = l.servers ∨ ∃ id, c.servers = l.servers.insert id basket) :
    (∀ server client, c.servers.lookup server = some client →
      client ∈ c.guards ∨ client ∈ inherited) ∧ ∀ other ∈ c.guards, clientOf other = none := by
  constructor
  · intro server client found
    rw [guards, Table.mem_insert]
    have kept (before : l.servers.lookup server = some client) :
        (client = basket ∨ client ∈ l.guards) ∨ client ∈ inherited :=
      (apart.values server client before).imp_left Or.inr
    rcases servers with same | ⟨id, filed⟩
    · exact kept (same ▸ found)
    · rw [filed, Table.lookup_insert] at found
      split at found
      · exact Or.inl (Or.inl (Option.some.inj found).symm)
      · exact kept found
  · intro other inside
    rcases (Table.mem_insert _ _ _ _).mp (guards ▸ inside) with rfl | before
    · exact plain
    · exact apart.clients other before

theorem Apart.cancelStop (apart : l.Apart clientOf inherited) (plain : clientOf l.stop = none) :
    (l.cancelStop host).Apart clientOf inherited := by
  have filed := apart.file (c := l.cancelStop host) plain rfl (by
      simp only [Ledger.cancelStop]
      split
      · exact Or.inl rfl
      · exact Or.inr ⟨l.stopServer, rfl⟩)
  exact .bare rfl filed.1 filed.2 apart.entered

theorem Apart.withdrawStop (apart : l.Apart clientOf inherited) (plain : clientOf l.stop = none) :
    (l.withdrawStop host).Apart clientOf inherited := by
  simp only [Ledger.withdrawStop]
  split
  · exact apart
  · exact apart.cancelStop plain

/-- A move keeps stop and guards apart. Only a close files the stop as a guard. -/
theorem Move.apart (move : Move host l l') (shape : Shape l) (fresh : Fresh host l)
    (foreign : host.basketId l.next ∉ inherited)
    (within : l.Within fun basket => clientOf basket = none) (apart : l.Apart clientOf inherited) :
    l'.Apart clientOf inherited := by
  have opened (held : l.Open) : l.abandoned = "" := apart.entered held.states.1 held.states.2.1
  cases move with
  | enter => exact apart.idle rfl rfl rfl (Or.inr rfl)
  | refuseEntry => exact apart.idle rfl rfl rfl (Or.inl rfl)
  | abandon => exact apart.idle rfl rfl rfl (Or.inl rfl)
  | submitStop request held bare places taken =>
    have unused : host.basketId l.next ∉ l.guards := (fresh l.next (Nat.le_refl _)).guards
    refine ⟨fun _ => unused, ?_, apart.values, apart.clients, apart.entered⟩
    intro _ server found
    exact (apart.values server _ found).elim unused foreign
  | refuseStop => exact .bare rfl apart.values apart.clients apart.entered
  | cancelStop => exact apart.cancelStop within.stop
  | sendExit request held => exact apart.congr rfl rfl rfl (fun _ _ => opened held)
  | refuseExit request held => exact apart.congr rfl rfl rfl (fun _ _ => opened held)
  | guardExit id closing sent names =>
    have filed := apart.file (c := l.guardExit host id) within.exit rfl (by
        simp only [Ledger.guardExit]
        split
        · exact Or.inr ⟨id, rfl⟩
        · exact Or.inl rfl)
    refine .bare (shape.pendingExit closing).2 filed.1 filed.2 (fun _ _ => ?_)
    apply apart.entered
    · rw [closing]
      decide
    · rw [closing]
      decide
  | recancel => exact apart.congr rfl rfl rfl apart.entered

/-- Moves keep the stop apart from the inherited orders. -/
theorem Walk.apart (walk : Walk host l l') (shape : Shape l) (fresh : Fresh host l)
    (foreign : ∀ n, l.next ≤ n → host.basketId n ∉ inherited) (ids : ServerIds host clientOf)
    (within : l.Within fun basket => clientOf basket = none) (apart : l.Apart clientOf inherited) :
    l'.Apart clientOf inherited := by
  induction walk with
  | refl => exact apart
  | tail walk move ih =>
    exact move.apart (Walk.shape walk shape) (Walk.fresh walk fresh)
      (foreign _ (Walk.next_le walk))
      (Walk.within walk ids.empty (fun n _ _ => ids.own n) within) ih

/-- Dropping a guard with every cancel on record for it. -/
theorem Apart.drop {dropped : String} (apart : l.Apart clientOf inherited)
    (stop : l'.stop ≠ "" → l'.stop = l.stop) (guards : l'.guards = l.guards.erase dropped)
    (servers : ∀ server client, l'.servers.lookup server = some client →
      l.servers.lookup server = some client ∧ client ≠ dropped)
    (entered : l'.state ≠ .flat → l'.state ≠ .pendingEntry → l'.abandoned = "") :
    l'.Apart clientOf inherited where
  guard := by
    intro stopped inside
    rw [guards, Table.mem_erase] at inside
    have same := stop stopped
    exact apart.guard (same ▸ stopped) (same ▸ inside.2)
  server := by
    intro stopped server found
    have same := stop stopped
    exact apart.server (same ▸ stopped) server (same ▸ (servers server _ found).1)
  values := by
    intro server client found
    obtain ⟨before, other⟩ := servers server client found
    rw [guards, Table.mem_erase]
    exact (apart.values server client before).imp_left (fun inside => ⟨other, inside⟩)
  clients := by
    intro basket inside
    rw [guards, Table.mem_erase] at inside
    exact apart.clients basket inside.2
  entered := entered

theorem dropped_value {table : Table String String} {dropped : String} (server client : String)
    (found : (table.dropValue dropped).lookup server = some client) :
    table.lookup server = some client ∧ client ≠ dropped :=
  (Table.lookup_dropValue_eq_some _ _ _ _).mp found

/-- The close makes a guard of the stop and leaves none on the book, so they stay apart. -/
theorem Apart.close {filled : String} (apart : l.Apart clientOf inherited)
    (plain : clientOf l.stop = none) : (l.close host filled).Apart clientOf inherited := by
  have dropped : (l.dropFilled host filled).Apart clientOf inherited ∧
      (l.dropFilled host filled).stop = l.stop := by
    simp only [dropFilled]
    split
    · exact ⟨apart.drop (fun _ => rfl) rfl dropped_value apart.entered, rfl⟩
    · exact ⟨apart, rfl⟩
  have settled : ((l.dropFilled host filled).settleStop host filled).Apart clientOf inherited ∨
      ∃ c : Ledger, (l.dropFilled host filled).settleStop host filled = c ∧
        c.guards = (l.dropFilled host filled).guards ∧
        c.servers = (l.dropFilled host filled).servers := by
    simp only [settleStop]
    split_ifs
    · exact Or.inl dropped.1
    · exact Or.inl (dropped.1.cancelStop (dropped.2 ▸ plain))
    · exact Or.inr ⟨_, rfl, rfl, rfl⟩
  have tables : (∀ server client,
      ((l.dropFilled host filled).settleStop host filled).servers.lookup server = some client →
        client ∈ ((l.dropFilled host filled).settleStop host filled).guards ∨
          client ∈ inherited) ∧
      ∀ basket ∈ ((l.dropFilled host filled).settleStop host filled).guards,
        clientOf basket = none := by
    rcases settled with done | ⟨c, isC, guards, servers⟩
    · exact ⟨done.values, done.clients⟩
    · rw [isC, guards, servers]
      exact ⟨dropped.1.values, dropped.1.clients⟩
  generalize settledIs : (l.dropFilled host filled).settleStop host filled = c at tables
  simp only [Ledger.close, settledIs, purge, reset]
  refine .bare rfl ?_ ?_ (fun busy => absurd rfl busy)
  · -- A guard with a cancel on record survives the purge.
    intro server client found
    refine (tables.1 server client found).imp_left (fun inside => ?_)
    have listed : c.servers.hasValue client = true :=
      (Table.hasValue_iff _ _).mpr ⟨server, found⟩
    refine (Table.mem_keep _ _ _).mpr ⟨inside, ?_⟩
    simp [keepsGuard, listed]
  · intro basket inside
    exact tables.2 basket ((Table.mem_keep _ _ _).mp inside).1

/-- A fill keeps them apart, the id of an unwind being drawn fresh. -/
theorem Filled.apart (filled : Filled host basket qty l isEntry l') (shape : Shape l)
    (fresh : Fresh host l) (foreign : host.basketId l.next ∉ inherited)
    (within : l.Within fun basket => clientOf basket = none) (apart : l.Apart clientOf inherited) :
    l'.Apart clientOf inherited := by
  have fired {c : Ledger} {request : OrderRequest} {taken : Bool}
      (idle : l.state = .flat ∨ l.state = .pendingEntry) (state : c.state = l.state)
      (stop : c.stop = l.stop) (guards : c.guards = l.guards.erase basket)
      (servers : c.servers = l.servers.dropValue basket) :
      (c.unwind host basket request taken true).Apart clientOf inherited := by
    refine apart.drop (fun _ => stop) guards ?_ ?_
    · intro server client found
      exact dropped_value server client (servers ▸ found)
    · intro busy entering
      exact absurd (idle.imp state.trans state.trans) (not_or.mpr ⟨busy, entering⟩)
  cases filled with
  | spurious => exact apart
  | late => exact apart.congr rfl rfl rfl (fun _ _ => rfl)
  | mismatch => exact apart
  | partialEntry => exact apart
  | entered pending named whole protect =>
    have resumes : Resumes l l.fillEntry := Or.inr (Or.inr ⟨pending, rfl⟩)
    have unused : l.fillEntry.Fresh host := by
      intro n later
      exact { fresh n later with abandoned := fun _ => (fresh n later).known }
    exact protect.apart (resumes.shape shape) unused foreign
      ⟨within.stop, within.exit, within.trade⟩ (apart.congr rfl rfl rfl (fun _ _ => rfl))
  | lastGuard request idle => exact fired idle rfl rfl rfl rfl
  | guard request wasBuy idle => exact fired idle rfl rfl rfl rfl
  | unwound => exact apart.congr rfl rfl rfl apart.entered
  | unknown => exact apart.congr rfl rfl rfl apart.entered
  | partialExit => exact apart
  | closed => exact apart.close within.stop

/-- The id is blank, or one that the process hands out from this number on. -/
def Ours (host : Host) (seq : Nat) (basket : String) : Prop :=
  basket = "" ∨ ∃ n, seq ≤ n ∧ basket = host.basketId n

theorem Ours.plain (own : Ours host seq basket) (ids : ServerIds host clientOf) :
    clientOf basket = none := by
  rcases own with rfl | ⟨n, _, rfl⟩
  · exact ids.empty
  · exact ids.own n

theorem Within.plain (within : l.Within (Ours host seq)) (ids : ServerIds host clientOf) :
    l.Within fun basket => clientOf basket = none where
  stop := within.stop.plain ids
  exit := within.exit.plain ids
  trade := fun basket inside => (within.trade basket inside).imp_right fun own => own.plain ids

/-- Filing another server id for a guard. -/
theorem Apart.map {server : String} (apart : l.Apart clientOf inherited)
    (inside : client ∈ l.guards) (stop : l'.stop = l.stop) (guards : l'.guards = l.guards)
    (servers : l'.servers = l.servers.insert server client)
    (entered : l'.state ≠ .flat → l'.state ≠ .pendingEntry → l'.abandoned = "") :
    l'.Apart clientOf inherited where
  guard := by simpa only [stop, guards] using apart.guard
  server := by
    rw [stop, servers]
    intro stopped other found
    rw [Table.lookup_insert] at found
    split at found
    · exact apart.guard stopped (Option.some.inj found ▸ inside)
    · exact apart.server stopped other found
  values := by
    intro other held found
    rw [servers, Table.lookup_insert] at found
    rw [guards]
    split at found
    · exact Or.inl (Option.some.inj found ▸ inside)
    · exact apart.values other held found
  clients := by simpa only [guards] using apart.clients
  entered := entered

/-- Making a guard the stop again takes it and its cancel off the tables. -/
theorem Apart.readopt {server : String} (apart : l.Apart clientOf inherited) (held : l.Open)
    (cleared : ∀ other, (if server ≠ "" then l.servers.erase server else l.servers).lookup other ≠
      some client) :
    (l.readopt host client server).Apart clientOf inherited where
  guard := fun _ inside => ((Table.mem_erase _ _ _).mp inside).1 rfl
  server := fun _ other found => cleared other found
  values := by
    intro other value found
    have apart' : value ≠ client := by
      rintro rfl
      exact cleared other found
    have before : l.servers.lookup other = some value := by
      simp only [Ledger.readopt, acknowledge] at found
      split at found
      · exact lookup_of_erase found
      · exact found
    refine (apart.values other value before).imp_left (fun inside => ?_)
    exact (Table.mem_erase _ _ _).mpr ⟨apart', inside⟩
  clients := fun basket inside => apart.clients basket ((Table.mem_erase _ _ _).mp inside).2
  entered := fun _ _ => apart.entered held.states.1 held.states.2.1

/-- Once room is made, the only cancel on record for a readopted order is the one that
failed. -/
theorem makeRoom_cleared {id server : String} (ids : ServerIds host clientOf)
    (mapped : l.Mapped clientOf) (routes : l.Routes id client server) (other : String) :
    (if server ≠ "" then (l.makeRoom host client).servers.erase server
      else (l.makeRoom host client).servers).lookup other ≠ some client := by
  have roomy {sid : String} (found : (l.makeRoom host client).servers.lookup sid = some client) :
      l.servers.lookup sid = some client := by
    simp only [makeRoom] at found
    split at found
    next apart =>
      simp only [Ledger.cancelStop] at found
      split at found
      · exact found
      · rw [Table.lookup_insert] at found
        split at found
        · exact absurd (Option.some.inj found) apart.2
        · exact found
    next => exact found
  intro found
  rcases routes with ⟨here, same⟩ | ⟨_, _, unmapped, free⟩
  · by_cases blank : server = ""
    · -- A blank id is never filed.
      have named := mapped.server here
      rw [← same, blank, ids.empty] at named
      exact absurd named (Option.some_ne_none client).symm
    · rw [if_pos blank, Table.lookup_erase] at found
      split at found
      · exact absurd found (Option.some_ne_none client).symm
      next different =>
        refine different ?_
        exact (ids.single other server client (mapped.server (roomy found))
          (same ▸ mapped.server here))
  · rw [if_neg (not_not.mpr unmapped)] at found
    have listed : l.servers.hasValue client = true :=
      (Table.hasValue_iff _ _).mpr ⟨other, roomy found⟩
    rw [free] at listed
    exact absurd listed Bool.false_ne_true

/-- Every step keeps the stop apart from the guards. -/
theorem Stepped.apart (stepped : Stepped host l op l') (shape : Shape l) (fresh : Fresh host l)
    (drawn : seq ≤ l.next) (ids : ServerIds host clientOf)
    (left : ∀ n, seq ≤ n → host.basketId n ∉ inherited) (mapped : l.Mapped clientOf)
    (within : l.Within (Ours host seq)) (foreign : Foreign host seq op)
    (reports : l.Reports clientOf inherited op) (apart : l.Apart clientOf inherited) :
    l'.Apart clientOf inherited := by
  have plain := within.plain ids
  have later : ∀ n, l.next ≤ n → host.basketId n ∉ inherited :=
    fun n low => left n (drawn.trans low)
  cases stepped with
  | own initiates walk => exact Walk.apart walk shape fresh later ids plain apart
  | ignored notifies => exact apart
  | filled basket price qty isEntry filled =>
    exact filled.apart shape fresh (later _ (Nat.le_refl _)) plain apart
  | rejectedEntry => exact apart.idle rfl rfl rfl (Or.inl rfl)
  | rejectedExit basket closing named walk =>
    have resumes : Resumes l l.reopen := Or.inr (Or.inl ⟨closing, rfl⟩)
    have unused : l.reopen.Fresh host := by
      intro n low
      exact { fresh n low with exit := (fresh n low).known }
    have closed : l.abandoned = "" := by
      apply apart.entered
      · rw [closing]
        decide
      · rw [closing]
        decide
    exact Walk.apart walk (resumes.shape shape) unused later ids
      ⟨plain.stop, ids.empty, plain.trade⟩ (apart.congr rfl rfl rfl (fun _ _ => closed))
  | rejectedStop => exact .bare rfl apart.values apart.clients apart.entered
  | ackClient client => exact apart.drop (fun _ => rfl) rfl dropped_value apart.entered
  | ackServer server client found =>
    refine apart.drop (fun _ => rfl) rfl ?_ apart.entered
    intro other value listed
    simp only [Ledger.acknowledge, Table.lookup_erase] at listed
    split at listed
    · exact absurd listed (Option.some_ne_none value).symm
    next different =>
      refine ⟨listed, ?_⟩
      rintro rfl
      exact different (ids.single other server value (mapped.server listed) (mapped.server found))
  | readopted id client server held inside own routes =>
    have room : (l.makeRoom host client).Apart clientOf inherited ∧
        (l.makeRoom host client).Open := by
      simp only [Ledger.makeRoom]
      split
      · exact ⟨apart.cancelStop plain.stop, held⟩
      · exact ⟨apart, held⟩
    exact room.1.readopt room.2 (makeRoom_cleared ids mapped routes)
  | mapStop => exact apart.congr rfl rfl rfl apart.entered
  | mapGuard client server effects inside => exact apart.map inside rfl rfl rfl apart.entered
  | mapOrder => exact apart.congr rfl rfl rfl apart.entered
  | mapCancelled => exact apart.congr rfl rfl rfl apart.entered
  | mapCancelledGuard client server effects inside =>
    exact apart.map inside rfl rfl rfl apart.entered
  | setStopServer => exact apart.congr rfl rfl rfl apart.entered
  | externalClose price reason held =>
    have bare : (l.withdrawStop host).Apart clientOf inherited := apart.withdrawStop plain.stop
    exact .bare rfl bare.values bare.clients (fun busy => absurd rfl busy)
  | clearLast => exact apart.congr rfl rfl rfl apart.entered
  | register => exact apart.congr rfl rfl rfl apart.entered
  | confirmFlat => exact apart.congr rfl rfl rfl apart.entered
  | seedStop basket wasBuy =>
    refine ⟨?_, apart.server, ?_, ?_, apart.entered⟩
    · intro stopped inside
      rcases (Table.mem_insert _ _ _ _).mp inside with same | before
      · obtain ⟨n, low, named⟩ := within.stop.resolve_left stopped
        exact foreign n low (same.symm.trans named)
      · exact apart.guard stopped before
    · intro server client found
      refine (apart.values server client found).imp_left (fun inside => ?_)
      exact (Table.mem_insert _ _ _ _).mpr (Or.inr inside)
    · intro other inside
      rcases (Table.mem_insert _ _ _ _).mp inside with rfl | before
      · exact reports
      · exact apart.clients other before
  | seedServer server client =>
    refine ⟨apart.guard, ?_, ?_, apart.clients, apart.entered⟩
    · intro stopped other found
      simp only [Table.lookup_insert] at found
      split at found
      · obtain ⟨n, low, named⟩ := within.stop.resolve_left stopped
        refine left n low ?_
        rw [← named, ← Option.some.inj found]
        exact reports.2
      · exact apart.server stopped other found
    · intro other value found
      simp only [Table.lookup_insert] at found
      split at found
      · exact Or.inr (Option.some.inj found ▸ reports.2)
      · exact apart.values other value found

/-- Closing a position places no order. -/
theorem close_orders {filled : String} {role : OrderRole} {request : OrderRequest} {taken : Bool}
    (placed : .order role request taken ∈ (l.close host filled).sent) :
    .order role request taken ∈ l.sent := by
  have removes (basket : String) : .order role request taken ∉ host.removeNotice basket := by
    simp only [Host.removeNotice]
    split
    · simp only [List.mem_singleton, reduceCtorEq, not_false_eq_true]
    · exact List.not_mem_nil
  have dropped (c : Ledger) (inside : .order role request taken ∈ (c.dropFilled host filled).sent) :
      .order role request taken ∈ c.sent := by
    simp only [dropFilled] at inside
    split at inside
    · exact (List.mem_append.mp inside).resolve_right (removes filled)
    · exact inside
  have cancelled (c : Ledger) (inside : .order role request taken ∈ (c.cancelStop host).sent) :
      .order role request taken ∈ c.sent := by
    simp only [Ledger.cancelStop, Host.persistNotice, Host.persistServerNotice] at inside
    split_ifs at inside
    all_goals
      simpa only [List.mem_append, List.mem_singleton, List.not_mem_nil, reduceCtorEq, or_false]
        using inside
  have settled (c : Ledger) (inside : .order role request taken ∈ (c.settleStop host filled).sent) :
      .order role request taken ∈ c.sent := by
    simp only [settleStop] at inside
    split_ifs at inside
    · exact inside
    · exact cancelled c inside
    · exact (List.mem_append.mp inside).resolve_right (removes filled)
  simp only [Ledger.close, purge, reset] at placed
  refine dropped l (settled _ ((List.mem_append.mp placed).resolve_right ?_))
  intro purged
  obtain ⟨basket, _, inside⟩ := List.mem_flatMap.mp purged
  exact removes basket inside

/-- While a position is open a fill places no order. -/
theorem Filled.silent (filled : Filled host basket qty l isEntry l') (held : l.Open)
    (apart : l.Apart clientOf inherited) (quiet : l.sent = []) (role : OrderRole)
    (request : OrderRequest) (taken : Bool) : .order role request taken ∉ l'.sent := by
  have none : .order role request taken ∉ l.sent := by
    rw [quiet]
    exact List.not_mem_nil
  have busy (idle : l.state = .flat ∨ l.state = .pendingEntry) : False :=
    idle.elim held.states.1 held.states.2.1
  cases filled with
  | spurious => exact none
  | late request elsewhere remembered =>
    exact absurd (apart.entered held.states.1 held.states.2.1) remembered
  | mismatch => exact none
  | partialEntry => exact none
  | entered pending => exact (busy (Or.inr pending)).elim
  | lastGuard request idle => exact (busy idle).elim
  | guard request wasBuy idle => exact (busy idle).elim
  | unwound idle => exact (busy idle).elim
  | unknown idle => exact (busy idle).elim
  | partialExit => exact none
  | closed => exact fun placed => none (close_orders placed)

end Ledger

namespace OrderManager

variable {clientOf : String → Option String} {inherited : Finset String}

/-- A protective stop is no guard and neither of its ids is among the cancels on
record, each of which is a guard's or was seeded. -/
structure StopApart (clientOf : String → Option String) (inherited : Finset String)
    (s : OrderManager) : Prop where
  unguarded : s.pos.basketIdStop ≠ "" → s.pos.basketIdStop ∉ s.cancelledStops
  unlisted : s.pos.basketIdStop ≠ "" → ∀ server client,
    s.serverToClientCancelled.lookup server = some client →
      client ≠ s.pos.basketIdStop ∧ orderOf clientOf server ≠ s.pos.basketIdStop
  guarded : ∀ server client, s.serverToClientCancelled.lookup server = some client →
    client ∉ inherited → client ∈ s.cancelledStops

/-- What the call sends spares the stop: no cancel that is sent again and no late
mapping's names it, and its own fill is not reversed. -/
def Spares (clientOf : String → Option String) (s : OrderManager) (op : Op)
    (sent : List Effect) : Prop :=
  s.pos.basketIdStop ≠ "" →
  match op with
  | .recancel | .stopServerMapped _ _ | .mapServer _ _ =>
    ∀ id, .cancel id ∈ sent → orderOf clientOf id ≠ s.pos.basketIdStop
  | .fill basket _ _ _ =>
    basket = s.pos.basketIdStop → ∀ fired request taken, .order (.unwind fired) request taken ∉ sent
  | _ => True

/-- The call maps the stop while the cancel it was sent before it became the stop
still waits for its server id. -/
def RecallsStop (s : OrderManager) (op : Op) : Prop :=
  match op with
  | .mapServer client server =>
    client ≠ "" ∧ server ≠ "" ∧ client = s.pos.basketIdStop ∧ client ∈ s.unmappedOrderCancels
  | _ => False

instance (s : OrderManager) (op : Op) : Decidable (s.RecallsStop op) := by
  induction op using Op.casesOn
  all_goals
    dsimp only [RecallsStop]
    infer_instance

variable {seq : Nat} {s : OrderManager}

/-- What holds of the ledger holds of the manager. -/
theorem stopApart_of_apart (mapped : s.ledger.Mapped clientOf)
    (apart : s.ledger.Apart clientOf inherited) : StopApart clientOf inherited s where
  unguarded := apart.guard
  unlisted := by
    intro stopped server client found
    have other : client ≠ s.pos.basketIdStop := by
      rintro rfl
      exact apart.server stopped server found
    refine ⟨other, ?_⟩
    rw [orderOf, mapped.server found, Option.getD_some]
    exact other
  guarded := fun server client found own => (apart.values server client found).resolve_right own

/-- The cancels sent again are those of guards and of cancels on record. -/
theorem recancel_spares (quiet : s.outbox = []) (mapped : s.ledger.Mapped clientOf)
    (apart : s.ledger.Apart clientOf inherited) :
    Spares clientOf s .recancel (recancelPendingStops host s).outbox := by
  intro stopped id inside
  have separate := stopApart_of_apart mapped apart
  simp only [recancelPendingStops] at inside
  split at inside
  · rw [quiet] at inside
    exact absurd inside List.not_mem_nil
  · simp only [emit, quiet, List.nil_append, List.mem_append, List.mem_map, Effect.cancel.injEq,
      exists_eq_right, List.mem_filter] at inside
    rcases inside with server | ⟨guard, _⟩
    · obtain ⟨client, found⟩ := (Table.mem_iff_lookup _ _).mp server
      exact (separate.unlisted stopped id client found).2
    · have plain : clientOf id = none := apart.clients id guard
      rw [orderOf, plain, Option.getD_none]
      rintro rfl
      exact separate.unguarded stopped guard

/-- A late mapping of a stop cancels only guards. -/
theorem stopServerMapped_spares {client server : String} (quiet : s.outbox = [])
    (apart : s.ledger.Apart clientOf inherited)
    (reports : client = "" ∨ server = "" ∨ clientOf server = some client) :
    Spares clientOf s (.stopServerMapped client server)
      (onStopServerMapped host client server s).outbox := by
  intro stopped id inside
  have silent (same : (onStopServerMapped host client server s).outbox = s.outbox) : False := by
    rw [same, quiet] at inside
    exact absurd inside List.not_mem_nil
  have saved (basket sid : String) : .cancel id ∉ host.persistServerNotice basket sid := by
    simp only [Host.persistServerNotice]
    split
    · simp only [List.mem_singleton, reduceCtorEq, not_false_eq_true]
    · exact List.not_mem_nil
  revert silent inside
  simp only [onStopServerMapped]
  split_ifs with blank current other guard filed
  · exact fun _ silent => (silent rfl).elim
  · simp only [quiet, List.nil_append]
    exact fun inside _ => absurd inside (saved client server)
  · exact fun _ silent => (silent rfl).elim
  · exact fun _ silent => (silent rfl).elim
  · intro inside _
    simp only [quiet, List.nil_append, List.mem_append, saved, false_or, Host.cancelNotice]
      at inside
    split at inside
    · have named : id = server := Effect.cancel.inj (List.mem_singleton.mp inside)
      rw [not_or] at blank
      have own := (reports.resolve_left blank.1).resolve_left blank.2
      rw [named, orderOf, own, Option.getD_some]
      rintro rfl
      exact apart.guard stopped guard
    · exact absurd inside List.not_mem_nil
  · exact fun _ silent => (silent rfl).elim

/-- A late mapping of an entry or exit cancels it where its cancel still waits for its
server id, which spares the stop exactly when it is another order. -/
theorem mapServer_spares_iff (live : host.Live) {client server : String} (quiet : s.outbox = [])
    (reports : client = "" ∨ server = "" ∨ clientOf server = some client) :
    Spares clientOf s (.mapServer client server) (mapServerBasket host client server s).outbox ↔
      ¬s.RecallsStop (.mapServer client server) := by
  by_cases blank : client = "" ∨ server = ""
  · have silent : (mapServerBasket host client server s).outbox = [] := by
      rw [mapServerBasket, if_pos blank]
      exact quiet
    rw [silent]
    constructor
    · rintro _ ⟨known, mapped, _⟩
      exact blank.elim known mapped
    · exact fun _ _ _ inside => absurd inside List.not_mem_nil
  · have own : orderOf clientOf server = client := by
      rw [not_or] at blank
      rw [orderOf, (reports.resolve_left blank.1).resolve_left blank.2, Option.getD_some]
    by_cases waits : client ∈ s.unmappedOrderCancels
    · have sent : (mapServerBasket host client server s).outbox = [.cancel server] := by
        simp [mapServerBasket, blank, waits, quiet, Host.cancelNotice, live.cancels]
      rw [sent]
      rw [not_or] at blank
      constructor
      · rintro spares ⟨_, _, same, _⟩
        exact spares (same ▸ blank.1) server (List.mem_singleton.mpr rfl) (own.trans same)
      · intro recalls stopped id inside named
        rw [Effect.cancel.inj (List.mem_singleton.mp inside), own] at named
        exact recalls ⟨blank.1, blank.2, named, waits⟩
    · have sent : (mapServerBasket host client server s).outbox = [] := by
        simp [mapServerBasket, blank, waits, quiet]
      rw [sent]
      constructor
      · rintro _ ⟨_, _, _, waiting⟩
        exact waits waiting
      · exact fun _ _ _ inside => absurd inside List.not_mem_nil

/-! ## Every run -/

/-- The stop is apart from the guards, under the facts about the book that this takes. -/
structure Separated (host : Host) (clientOf : String → Option String)
    (inherited : Finset String) (seq : Nat) (s : OrderManager) : Prop where
  shape : s.ledger.Shape
  fresh : s.ledger.Fresh host
  drawn : seq ≤ s.seq
  mapped : s.ledger.Mapped clientOf
  within : s.ledger.Within (Ledger.Ours host seq)
  apart : s.ledger.Apart clientOf inherited

/-- What was sent is no part of what keeps the stop apart. -/
theorem Separated.emptied (effects : List Effect)
    (separated : Separated host clientOf inherited seq s) :
    Separated host clientOf inherited seq { s with outbox := effects } := by
  obtain ⟨shape, fresh, drawn, mapped, within, apart⟩ := separated
  exact {
    shape := shape.congr rfl rfl rfl rfl rfl
    fresh := fun n later => { fresh n later with }
    drawn := drawn
    mapped := fun other => ⟨(mapped other).servers, (mapped other).orders, (mapped other).stop⟩
    within := ⟨within.stop, within.exit, within.trade⟩
    apart := apart.congr rfl rfl rfl apart.entered }

/-- An operation keeps the books separated, its reports being of orders known. -/
theorem Separated.perform (live : host.Live) (ids : ServerIds host clientOf)
    (left : ∀ n, seq ≤ n → host.basketId n ∉ inherited) {call : Call}
    (separated : Separated host clientOf inherited seq s)
    (foreign : Ledger.Foreign host seq call.op)
    (reports : s.ledger.Reports clientOf inherited call.op) :
    Separated host clientOf inherited seq (OrderManager.perform host call s) := by
  obtain ⟨shape, fresh, drawn, mapped, within, apart⟩ := separated
  have stepped := perform_refines live s call shape
  have later : s.seq ≤ (OrderManager.perform host call s).seq := stepped.next_le
  exact {
    shape := stepped.shape shape
    fresh := stepped.fresh fresh (fun n low => foreign n (drawn.trans low))
    drawn := drawn.trans later
    mapped := fun other => stepped.bound (mapped other) (reports.agrees other)
    within := stepped.within (Or.inl rfl) (fun n low _ => Or.inr ⟨n, drawn.trans low, rfl⟩) within
    apart := stepped.apart shape fresh drawn ids left mapped within foreign reports apart }

/-- One call keeps the stop separated. -/
theorem Separated.step (live : host.Live) (ids : ServerIds host clientOf) {seq : Nat}
    (left : ∀ n, seq ≤ n → host.basketId n ∉ inherited) {s : OrderManager} {call : Call}
    (separated : Separated host clientOf inherited seq s)
    (foreign : Ledger.Foreign host seq call.op)
    (reports : s.ledger.Reports clientOf inherited call.op) :
    Separated host clientOf inherited seq (OrderManager.step host s call) :=
  (separated.emptied []).perform live ids left foreign reports

/-- A step spares the stop unless it maps the stop while an earlier cancel waits. -/
theorem step_spares_iff (live : host.Live) {call : Call}
    (separated : Separated host clientOf inherited seq s)
    (reports : s.ledger.Reports clientOf inherited call.op) :
    Spares clientOf s call.op (step host s call).outbox ↔ ¬s.RecallsStop call.op := by
  have stepped := step_refines live s call separated.shape
  obtain ⟨now, op⟩ := call
  have mapped : ({ s with outbox := [] } : OrderManager).ledger.Mapped clientOf :=
    fun other => ⟨(separated.mapped other).servers, (separated.mapped other).orders,
      (separated.mapped other).stop⟩
  have apart : ({ s with outbox := [] } : OrderManager).ledger.Apart clientOf inherited :=
    separated.apart.congr rfl rfl rfl separated.apart.entered
  cases op with
  | recancel => exact iff_of_true (recancel_spares rfl mapped apart) not_false
  | stopServerMapped client server =>
    exact iff_of_true (stopServerMapped_spares rfl apart reports) not_false
  | mapServer client server =>
    exact mapServer_spares_iff (s := { s with outbox := [] }) live rfl reports
  | fill basket price qty isEntry =>
    refine iff_of_true ?_ not_false
    rintro stopped rfl fired request taken
    have held : s.cleared.Open := by
      by_contra closed
      have idle : s.pos.basketIdStop = "" := by
        cases state : s.pos.state with
        | flat => exact (separated.shape.flat state).2.2.1
        | pendingEntry => exact (separated.shape.pendingEntry state).2.2
        | long => exact absurd (Or.inl state) closed
        | short => exact absurd (Or.inr state) closed
        | pendingExit => exact (separated.shape.pendingExit state).2
      exact stopped idle
    exact stepped.isFilled.silent held apart rfl _ _ _
  | _ => exact iff_of_true (fun _ => trivial) not_false

/-- A fresh manager has nothing to keep apart. -/
theorem fresh_separated (risk : RiskManager) (seq : Nat) :
    Separated host clientOf inherited seq (fresh risk seq) := by
  have untouched (server client : String) :
      (fresh risk seq).ledger.servers.lookup server ≠ some client := by
    simp [ledger, fresh]
  exact {
    shape := fresh_shape risk seq
    fresh := fresh_fresh risk seq
    drawn := Nat.le_refl seq
    mapped := fun _ => fresh_bound risk seq
    within := ⟨Or.inl rfl, Or.inl rfl, fun _ inside => absurd inside (AList.notMem_empty _)⟩
    apart := .bare rfl (fun server client found => absurd found (untouched server client))
      (fun _ inside => absurd inside (AList.notMem_empty _)) (fun busy => absurd rfl busy) }

/-- In every run in which each order has at most one server id and the seeds were left
by another process, the stop stays apart from the guards; and every step spares it
exactly when no step maps the stop while an earlier cancel of it still waits for its
server id. -/
theorem stop_spared_iff (live : host.Live) (ids : ServerIds host clientOf) (risk : RiskManager)
    (seq : Nat) (left : ∀ n, seq ≤ n → host.basketId n ∉ inherited) (calls : List Call)
    (foreign : ∀ call ∈ calls, Ledger.Foreign host seq call.op)
    (reports : Along (step host) (fun s call => s.ledger.Reports clientOf inherited call.op)
      (fresh risk seq) calls) :
    Along (step host) (fun s call => StopApart clientOf inherited (step host s call) ∧
        Spares clientOf s call.op (step host s call).outbox) (fresh risk seq) calls ↔
      Along (step host) (fun s call => ¬s.RecallsStop call.op) (fresh risk seq) calls := by
  have start : Separated host clientOf inherited seq (fresh risk seq) := fresh_separated risk seq
  have base : Along (step host) (fun s call => Separated host clientOf inherited seq s ∧
      Ledger.Foreign host seq call.op ∧ s.ledger.Reports clientOf inherited call.op)
      (fresh risk seq) calls :=
    along_of_invariant (step host) (Separated host clientOf inherited seq)
      (fun s call separated here => ⟨separated, here.2, here.1⟩)
      (fun s call separated here => separated.step live ids left here.2 here.1)
      (fresh risk seq) calls start (along_and_of_mem _ _ calls reports foreign)
  refine along_congr_of (step host) ?_ (fresh risk seq) calls base
  rintro s call ⟨separated, foreign, reports⟩
  have after := separated.step live ids left foreign reports
  exact (and_iff_right (stopApart_of_apart after.mapped after.apart)).trans
    (step_spares_iff live separated reports)

/-- A live host that refuses the order with this sequence number. -/
def refusing (seq : Nat) : Host :=
  { Host.accepting with
    orderCb := some fun basket => !decide (basket = Host.accepting.basketId seq) }

/-- A trade whose exit is cancelled by client id and replaced by one that is refused. -/
def refusedRetry : List Call :=
  [⟨1, .signal .buy 100 0⟩, ⟨2, .fill "MNQ-0-0" 100 1 true⟩, ⟨3, .flatten "manual" 101⟩,
    ⟨4, .retryStuckExit 101⟩, ⟨5, .stopServerMapped "MNQ-0-4" "S4"⟩, ⟨6, .recancel⟩]

/-- The orders behind the server ids of that run. -/
def retryClient (server : String) : Option String :=
  if server = "S2" then some "MNQ-0-2" else if server = "S4" then some "MNQ-0-4" else none

theorem refusing_live (seq : Nat) : (refusing seq).Live := ⟨rfl, rfl, rfl⟩

/-- The ids of the witness are those of an exchange that answers properly. -/
theorem retry_ids : ServerIds (refusing 3) retryClient where
  empty := rfl
  own := by
    intro n
    have apart (id : String) (head : id.toList.head? = some 'S') :
        (refusing 3).basketId n ≠ id := by
      rintro rfl
      simp [Host.basketId, refusing, Host.accepting, String.toList_append] at head
    rw [retryClient, if_neg (apart "S2" rfl), if_neg (apart "S4" rfl)]
  single := by
    have read {id held : String} (found : retryClient id = some held) :
        (id = "S2" ∧ held = "MNQ-0-2") ∨ (id = "S4" ∧ held = "MNQ-0-4") := by
      simp only [retryClient] at found
      split_ifs at found with second fourth
      · exact Or.inl ⟨second, (Option.some.inj found).symm⟩
      · exact Or.inr ⟨fourth, (Option.some.inj found).symm⟩
    intro server other client found found'
    rcases read found with ⟨rfl, rfl⟩ | ⟨rfl, rfl⟩
    · rcases read found' with ⟨rfl, _⟩ | ⟨_, clash⟩
      · rfl
      · exact absurd clash (by decide)
    · rcases read found' with ⟨_, clash⟩ | ⟨rfl, _⟩
      · exact absurd clash (by decide)
      · rfl

/-- The exit whose replacement was refused stays a guard, and the sweep spares the
stop. -/
theorem refused_retry_spared :
    Along (step (refusing 3)) (fun s call =>
        StopApart retryClient ∅ (step (refusing 3) s call) ∧
          Spares retryClient s call.op (step (refusing 3) s call).outbox)
        (fresh {} 0) refusedRetry ↔
      Along (step (refusing 3)) (fun s call => ¬s.RecallsStop call.op) (fresh {} 0) refusedRetry :=
  stop_spared_iff (refusing_live 3) retry_ids {} 0 (fun _ _ => Finset.notMem_empty _) refusedRetry
    (fun call inside => Ledger.foreign_of_not_brings (by revert call; decide +kernel))
    (by decide +kernel)

/-- An exit whose cancel failed is the stop, and its server id brings the cancel back. -/
theorem readopted_exit_recalled :
    ¬∀ (host : Host), host.Live → ∀ (clientOf : String → Option String),
      ServerIds host clientOf → ∀ (risk : RiskManager) (seq : Nat) (calls : List Call),
      (∀ call ∈ calls, Ledger.Foreign host seq call.op) →
      Along (step host) (fun s call => s.ledger.Reports clientOf ∅ call.op)
        (fresh risk seq) calls →
      Along (step host) (fun s call => Spares clientOf s call.op (step host s call).outbox)
        (fresh risk seq) calls := by
  intro spared
  have along := spared (refusing 3) (refusing_live 3) retryClient retry_ids {} 0
    (refusedRetry ++ [⟨7, .cancelFailed "MNQ-0-2"⟩, ⟨8, .mapServer "MNQ-0-2" "S2"⟩])
    (fun call inside => Ledger.foreign_of_not_brings (by revert call; decide +kernel))
    (by decide +kernel)
  obtain ⟨_, late⟩ := (along_append _ _ _ _ _).mp along
  refine late.2.1 ?_ "S2" ?_ ?_
  · decide +kernel
  · decide +kernel
  · decide +kernel

end OrderManager
end RithmicEngine
