import RithmicEngine.Execution.LedgerRefinement
/-!
# What keeps a guard

A guard is an order that was cancelled and may still fill. Its cancel is on record
as not acknowledged while a server id stands for it or the cancel went out by
client id. Where the exchange gives each order a server id of its own, the record
of one guard is never overwritten by another, so a guard with a record stays until
it fills, its cancel is acknowledged, or a failed cancel makes it the stop again.
-/
namespace RithmicEngine

variable {host : Host} {clientOf : String → String}

namespace Ledger

/-- The cancel of the order is on record as not acknowledged. -/
def Recorded (l : Ledger) (basket : String) : Prop :=
  basket ∈ l.clientOnly ∨ l.servers.hasValue basket = true
deriving Decidable

/-- The order is a guard, and its cancel is on record unless that is excused. -/
def Guarded (excused : Prop) (l : Ledger) (basket : String) : Prop :=
  basket ∈ l.guards ∧ (excused ∨ l.Recorded basket)

/-- The server ids on the book belong to the orders that the assignment gives. -/
structure Bound (clientOf : String → String) (l : Ledger) : Prop where
  servers : ∀ server client, l.servers.lookup server = some client → clientOf server = client
  orders : ∀ server client, l.orders.lookup server = some client → clientOf server = client
  stop : l.stop ≠ "" → l.stopServer ≠ "" → clientOf l.stopServer = l.stop

/-- A server id that the call brings in belongs to the order that it names. -/
def Agrees (clientOf : String → String) (l : Ledger) : Op → Prop
  | .stopServerMapped client server | .mapServer client server =>
    client = "" ∨ server = "" ∨ clientOf server = client
  | .seedServer server client => clientOf server = client
  | .setStopServer server => l.stop = "" ∨ server = "" ∨ clientOf server = l.stop
  | _ => True

instance (clientOf : String → String) (l : Ledger) (op : Op) :
    Decidable (Agrees clientOf l op) := by
  induction op using Op.casesOn
  all_goals
    simp only [Agrees]
    infer_instance

variable {l : Ledger} {table : Table String String} {l' : Ledger} {basket dropped client : String}
  {op : Op} {qty : Int} {server : String}

/-- A book without new server ids is bound like the one before. -/
theorem Bound.shrink (bound : l.Bound clientOf)
    (servers : ∀ server client, l'.servers.lookup server = some client →
      l.servers.lookup server = some client)
    (orders : ∀ server client, l'.orders.lookup server = some client →
      l.orders.lookup server = some client)
    (stop : l'.stop ≠ "" → l'.stopServer ≠ "" → clientOf l'.stopServer = l'.stop) :
    l'.Bound clientOf where
  servers := fun server client found => bound.servers server client (servers server client found)
  orders := fun server client found => bound.orders server client (orders server client found)
  stop := stop

/-- Recording a server id under its own order keeps the tables bound. -/
theorem bound_insert
    (bound : ∀ server client, table.lookup server = some client → clientOf server = client)
    (own : clientOf server = client) (other held : String)
    (found : (table.insert server client).lookup other = some held) : clientOf other = held := by
  rw [Table.lookup_insert] at found
  split at found
  next same =>
    rw [same, own]
    exact Option.some.inj found
  next => exact bound other held found

theorem lookup_of_erase {β : Type} {table : Table String β} {erased : String} {client : β}
    (found : (table.erase erased).lookup server = some client) :
    table.lookup server = some client := by
  rw [Table.lookup_erase] at found
  split at found
  next => exact absurd found (Option.some_ne_none client).symm
  next => exact found

theorem lookup_of_dropValue (found : (table.dropValue dropped).lookup server = some client) :
    table.lookup server = some client :=
  ((Table.lookup_dropValue_eq_some _ _ _ _).mp found).1

/-- A cancelled stop, now a guard, keeps the book bound. -/
theorem Bound.cancelStop (bound : l.Bound clientOf) (stopped : l.stop ≠ "") :
    (l.cancelStop host).Bound clientOf := by
  refine ⟨?_, bound.orders, fun bare => absurd rfl bare⟩
  intro server client found
  simp only [Ledger.cancelStop] at found
  split at found
  next => exact bound.servers server client found
  next mapped => exact bound_insert bound.servers (bound.stop stopped mapped) server client found

theorem Bound.withdrawStop (bound : l.Bound clientOf) : (l.withdrawStop host).Bound clientOf := by
  simp only [Ledger.withdrawStop]
  split
  next => exact bound
  next stopped => exact bound.cancelStop stopped

theorem Bound.makeRoom (host : Host) (bound : l.Bound clientOf) (client : String) :
    (l.makeRoom host client).Bound clientOf := by
  simp only [Ledger.makeRoom]
  split
  next stopped => exact bound.cancelStop stopped.1
  next => exact bound

/-- A move keeps the server ids bound to their clients. By the move. -/
theorem Move.bound (move : Move host l l') (bound : l.Bound clientOf) : l'.Bound clientOf := by
  have bare {c : Ledger} (servers : c.servers = l.servers) (orders : c.orders = l.orders)
      (stop : c.stop ≠ "" → c.stopServer ≠ "" → clientOf c.stopServer = c.stop) :
      c.Bound clientOf := by
    apply bound.shrink
    · intro server client found
      exact servers ▸ found
    · intro server client found
      exact orders ▸ found
    · exact stop
  cases move with
  | enter => exact bare rfl rfl (fun stopped => absurd rfl stopped)
  | refuseEntry => exact bare rfl rfl (fun stopped => absurd rfl stopped)
  | abandon => exact bare rfl rfl (fun stopped => absurd rfl stopped)
  | submitStop => exact bare rfl rfl (fun _ mapped => absurd rfl mapped)
  | refuseStop => exact bare rfl rfl (fun stopped => absurd rfl stopped)
  | cancelStop held stopped => exact bound.cancelStop stopped
  | sendExit => exact bare rfl rfl bound.stop
  | refuseExit => exact bare rfl rfl bound.stop
  | guardExit id closing sent names =>
    refine ⟨?_, bound.orders, bound.stop⟩
    intro server client found
    simp only [Ledger.guardExit] at found
    split at found
    next apart =>
      have mapped := names.resolve_left apart
      exact bound_insert bound.servers (bound.orders id l.exit mapped) server client found
    next => exact bound.servers server client found
  | recancel => exact bare rfl rfl bound.stop

theorem Walk.bound (walk : Walk host l l') (bound : l.Bound clientOf) : l'.Bound clientOf := by
  induction walk with
  | refl => exact bound
  | tail walk move ih => exact move.bound ih

theorem Resumes.bound {c : Ledger} (resumes : Resumes l c) (bound : l.Bound clientOf) :
    c.Bound clientOf := by
  rcases resumes with rfl | ⟨_, rfl⟩ | ⟨_, rfl⟩
  · exact bound
  · exact ⟨bound.servers, bound.orders, bound.stop⟩
  · exact ⟨bound.servers, bound.orders, bound.stop⟩

theorem Bound.dropFilled (host : Host) (bound : l.Bound clientOf) (filled : String) :
    (l.dropFilled host filled).Bound clientOf := by
  simp only [Ledger.dropFilled]
  split
  · exact bound.shrink (fun _ _ found => lookup_of_dropValue found) (fun _ _ found => found)
      bound.stop
  · exact bound

theorem Bound.settleStop (host : Host) (bound : l.Bound clientOf) (filled : String) :
    (l.settleStop host filled).Bound clientOf := by
  simp only [Ledger.settleStop]
  split_ifs with none other
  · exact bound
  · exact bound.cancelStop none
  · exact bound.shrink (fun _ _ found => found) (fun _ _ found => found) bound.stop

theorem Bound.close (bound : l.Bound clientOf) (filled : String) :
    (l.close host filled).Bound clientOf := by
  apply ((bound.dropFilled host filled).settleStop host filled).shrink
  · exact fun _ _ found => found
  · intro server client found
    exact absurd found (by simp [Ledger.close, purge])
  · exact fun stopped => absurd rfl stopped

theorem Bound.acknowledge (bound : l.Bound clientOf) (client : String)
    {servers : Table String String}
    (fewer : ∀ server client,
      servers.lookup server = some client → l.servers.lookup server = some client) :
    (l.acknowledge host client servers).Bound clientOf :=
  bound.shrink fewer (fun _ _ found => found) bound.stop

/-- A fill keeps the server ids bound too. -/
theorem Filled.bound {isEntry : Bool} (filled : Filled host basket qty l isEntry l')
    (bound : l.Bound clientOf) : l'.Bound clientOf := by
  cases filled with
  | spurious => exact bound
  | late => exact ⟨bound.servers, bound.orders, bound.stop⟩
  | mismatch => exact bound
  | partialEntry => exact bound
  | entered pending named whole protect =>
    exact protect.bound ⟨bound.servers, bound.orders, bound.stop⟩
  | lastGuard =>
    exact bound.shrink (fun _ _ found => lookup_of_dropValue found) (fun _ _ found => found)
      bound.stop
  | guard =>
    exact bound.shrink (fun _ _ found => lookup_of_dropValue found) (fun _ _ found => found)
      bound.stop
  | unwound => exact ⟨bound.servers, bound.orders, bound.stop⟩
  | unknown => exact ⟨bound.servers, bound.orders, bound.stop⟩
  | partialExit => exact bound
  | closed => exact bound.close basket

/-- Every step whose server ids agree with the assignment keeps the book bound. -/
theorem Stepped.bound (stepped : Stepped host l op l') (bound : l.Bound clientOf)
    (agrees : Agrees clientOf l op) : l'.Bound clientOf := by
  have own {client server : String} (given : ¬(client = "" ∨ server = ""))
      (agrees : client = "" ∨ server = "" ∨ clientOf server = client) :
      clientOf server = client := by
    rw [not_or] at given
    exact (agrees.resolve_left given.1).resolve_left given.2
  cases stepped with
  | own initiates walk => exact Walk.bound walk bound
  | ignored notifies => exact bound
  | filled basket price qty isEntry filled => exact filled.bound bound
  | rejectedEntry => exact ⟨bound.servers, bound.orders, fun stopped => absurd rfl stopped⟩
  | rejectedExit basket closing named walk =>
    exact Walk.bound walk ⟨bound.servers, bound.orders, bound.stop⟩
  | rejectedStop => exact ⟨bound.servers, bound.orders, fun stopped => absurd rfl stopped⟩
  | ackClient basket => exact bound.acknowledge basket (fun _ _ found => lookup_of_dropValue found)
  | ackServer server client mapped =>
    exact bound.acknowledge client (fun _ _ found => lookup_of_erase found)
  | readopted id client server held guarded own routes =>
    have roomy := bound.makeRoom host client
    have cleared : ((l.makeRoom host client).acknowledge host client
        (if server ≠ "" then (l.makeRoom host client).servers.erase server
          else (l.makeRoom host client).servers)).Bound clientOf := by
      apply roomy.acknowledge client
      intro other held found
      split at found
      next => exact lookup_of_erase found
      next => exact found
    refine ⟨cleared.servers, cleared.orders, ?_⟩
    intro _ mapped
    rcases routes with ⟨found, same⟩ | ⟨_, _, unmapped, _⟩
    · exact bound.servers server client (same ▸ found)
    · exact absurd unmapped mapped
  | mapStop client server named known =>
    refine ⟨bound.servers, bound.orders, ?_⟩
    intro _ mapped
    exact (own (not_or.mpr ⟨known, mapped⟩) agrees).trans named
  | mapGuard client server effects guarded quiet given =>
    exact ⟨bound_insert bound.servers (own given agrees), bound.orders, bound.stop⟩
  | mapOrder client server given =>
    exact ⟨bound.servers, bound_insert bound.orders (own given agrees), bound.stop⟩
  | mapCancelled client server effects quiet given =>
    exact ⟨bound.servers, bound_insert bound.orders (own given agrees), bound.stop⟩
  | mapCancelledGuard client server effects guarded quiet given =>
    exact ⟨bound_insert bound.servers (own given agrees),
      bound_insert bound.orders (own given agrees), bound.stop⟩
  | setStopServer server =>
    refine ⟨bound.servers, bound.orders, ?_⟩
    intro stopped mapped
    exact (agrees.resolve_left stopped).resolve_left mapped
  | externalClose price reason held =>
    have bare : (l.withdrawStop host).Bound clientOf := bound.withdrawStop
    refine ⟨bare.servers, ?_, fun stopped => absurd rfl stopped⟩
    intro server client found
    simp only [closeExternally, Table.lookup_empty, reduceCtorEq] at found
  | clearLast => exact ⟨bound.servers, bound.orders, bound.stop⟩
  | register => exact ⟨bound.servers, bound.orders, bound.stop⟩
  | confirmFlat => exact ⟨bound.servers, bound.orders, bound.stop⟩
  | seedStop => exact ⟨bound.servers, bound.orders, bound.stop⟩
  | seedServer server client => exact ⟨bound_insert bound.servers agrees, bound.orders, bound.stop⟩

/-! ## Guards that stay -/

variable {excused : Prop}

/-- The record of a guard survives where its client id and its server ids do. -/
theorem Recorded.mono (recorded : l.Recorded basket)
    (client : basket ∈ l.clientOnly → l'.Recorded basket)
    (server : ∀ server, l.servers.lookup server = some basket → l'.Recorded basket) :
    l'.Recorded basket := by
  rcases recorded with unmapped | mapped
  · exact client unmapped
  · obtain ⟨id, found⟩ := (Table.hasValue_iff _ _).mp mapped
    exact server id found

/-- The record of another order's cancel leaves a guard's record alone. -/
theorem Recorded.insert (recorded : l.Recorded basket) (bound : l.Bound clientOf)
    (own : clientOf server = client)
    (clients : basket ∈ l.clientOnly → basket ∈ l'.clientOnly ∨ basket = client)
    (servers : l'.servers = l.servers.insert server client) : l'.Recorded basket := by
  have mapped (found : l'.servers.lookup server = some basket) : l'.Recorded basket :=
    Or.inr ((Table.hasValue_iff _ _).mpr ⟨server, found⟩)
  have here : l'.servers.lookup server = some client := by
    rw [servers, Table.lookup_insert, if_pos rfl]
  apply recorded.mono
  · intro unmapped
    rcases clients unmapped with kept | same
    · exact Or.inl kept
    · exact mapped (same ▸ here)
  · intro other found
    by_cases same : other = server
    · subst same
      have equal : client = basket := own.symm.trans (bound.servers other basket found)
      exact mapped (equal ▸ here)
    · refine Or.inr ((Table.hasValue_iff _ _).mpr ⟨other, ?_⟩)
      rw [servers, Table.lookup_insert, if_neg same]
      exact found

/-- A step that touches no guard keeps every guard. -/
theorem Guarded.congr (guarded : Guarded excused l basket) (guards : l'.guards = l.guards)
    (servers : l'.servers = l.servers) (clients : l'.clientOnly = l.clientOnly) :
    Guarded excused l' basket := by
  simpa only [Guarded, Recorded, guards, servers, clients] using guarded

/-- Dropping one guard keeps the others. -/
theorem Guarded.drop (guarded : Guarded excused l basket) (other : basket ≠ dropped)
    (guards : l'.guards = l.guards.erase dropped)
    (clients : l'.clientOnly = l.clientOnly.erase dropped)
    (servers : ∀ server, l.servers.lookup server = some basket →
      l'.servers.lookup server = some basket) :
    Guarded excused l' basket := by
  obtain ⟨inside, lasting⟩ := guarded
  constructor
  · rw [guards]
    exact (Table.mem_erase _ _ _).mpr ⟨other, inside⟩
  · refine lasting.imp_right (fun recorded => recorded.mono ?_ ?_)
    · intro unmapped
      left
      rw [clients]
      exact Finset.mem_erase.mpr ⟨other, unmapped⟩
    · intro server found
      exact Or.inr ((Table.hasValue_iff _ _).mpr ⟨server, servers server found⟩)

theorem lookup_dropValue_of_ne (other : basket ≠ dropped)
    (found : table.lookup server = some basket) :
    (table.dropValue dropped).lookup server = some basket :=
  (Table.lookup_dropValue_eq_some _ _ _ _).mpr ⟨found, other⟩

/-- The cancelled stop is a guard with its cancel on record. -/
theorem cancelStop_guarded (l : Ledger) : Guarded excused (l.cancelStop host) l.stop := by
  constructor
  · rw [Ledger.cancelStop, Table.mem_insert]
    exact Or.inl rfl
  · right
    by_cases unmapped : l.stopServer = ""
    · left
      simp [Ledger.cancelStop, unmapped]
    · right
      rw [Table.hasValue_iff]
      refine ⟨l.stopServer, ?_⟩
      simp [Ledger.cancelStop, unmapped]

/-- Cancelling the stop leaves the other guards guarded. -/
theorem Guarded.cancelStop (guarded : Guarded excused l basket) (bound : l.Bound clientOf)
    (stopped : l.stop ≠ "") : Guarded excused (l.cancelStop host) basket := by
  obtain ⟨inside, lasting⟩ := guarded
  constructor
  · rw [Ledger.cancelStop, Table.mem_insert]
    exact Or.inr inside
  · refine lasting.imp_right (fun recorded => ?_)
    by_cases unmapped : l.stopServer = ""
    · apply recorded.mono
      · intro client
        left
        simp [Ledger.cancelStop, unmapped, client]
      · intro server found
        right
        rw [Table.hasValue_iff]
        refine ⟨server, ?_⟩
        simp [Ledger.cancelStop, unmapped, found]
    · refine recorded.insert bound (bound.stop stopped unmapped) ?_ ?_
      · intro client
        left
        simp [Ledger.cancelStop, unmapped, client]
      · simp [Ledger.cancelStop, unmapped]

/-- A stop or a guard is a guard once the stop is withdrawn. -/
theorem withdrawStop_guarded (known : basket ≠ "") (bound : l.Bound clientOf)
    (held : basket = l.stop ∨ Guarded excused l basket) :
    Guarded excused (l.withdrawStop host) basket := by
  by_cases none : l.stop = ""
  · simp only [Ledger.withdrawStop, none, ↓reduceIte]
    exact held.resolve_left (fun same => known (same.trans none))
  · simp only [Ledger.withdrawStop, none, ↓reduceIte]
    rcases held with rfl | guarded
    · exact cancelStop_guarded l
    · exact guarded.cancelStop bound none

theorem Guarded.makeRoom (guarded : Guarded excused l basket) (bound : l.Bound clientOf)
    (client : String) : Guarded excused (l.makeRoom host client) basket := by
  simp only [Ledger.makeRoom]
  split
  next stopped => exact guarded.cancelStop bound stopped.1
  next => exact guarded

/-- The replaced exit is a guard with its cancel on record. -/
theorem guardExit_guarded (l : Ledger) (id : String) :
    Guarded excused (l.guardExit host id) l.exit := by
  constructor
  · rw [Ledger.guardExit, Table.mem_insert]
    exact Or.inl rfl
  · right
    by_cases same : id = l.exit
    · left
      simp [Ledger.guardExit, same]
    · right
      rw [Table.hasValue_iff]
      refine ⟨id, ?_⟩
      simp [Ledger.guardExit, same]

/-- Every move keeps a guard. -/
theorem Move.guarded (move : Move host l l') (bound : l.Bound clientOf)
    (guarded : Guarded excused l basket) : Guarded excused l' basket := by
  cases move with
  | cancelStop held stopped => exact guarded.cancelStop bound stopped
  | guardExit id closing sent names =>
    obtain ⟨inside, lasting⟩ := guarded
    constructor
    · rw [Ledger.guardExit, Table.mem_insert]
      exact Or.inr inside
    · refine lasting.imp_right (fun recorded => ?_)
      by_cases same : id = l.exit
      · apply recorded.mono
        · intro client
          left
          simp [Ledger.guardExit, same, client]
        · intro server found
          right
          rw [Table.hasValue_iff]
          refine ⟨server, ?_⟩
          simp [Ledger.guardExit, same, found]
      · refine recorded.insert bound (bound.orders id l.exit (names.resolve_left same)) ?_ ?_
        · intro client
          left
          simp [Ledger.guardExit, same, client]
        · simp [Ledger.guardExit, same]
  | _ => exact guarded.congr rfl rfl rfl

theorem Walk.guarded (walk : Walk host l l') (bound : l.Bound clientOf)
    (guarded : Guarded excused l basket) : Guarded excused l' basket := by
  induction walk with
  | refl => exact guarded
  | tail walk move ih => exact move.guarded (Walk.bound walk bound) ih

/-! ## What drops a guard -/

/-- A report of less than the position's quantity while it is held is put aside. -/
def HeldBack (l : Ledger) (qty : Int) : Prop :=
  (l.Open ∨ l.state = .pendingExit) ∧ 0 < qty ∧ qty < l.qty

instance (l : Ledger) (qty : Int) : Decidable (l.HeldBack qty) := by
  simp only [HeldBack, Open]
  infer_instance

/-- The call takes the order off the book: it reports a fill that is not put
aside, an acknowledged cancel or a rejection. -/
def Drops (l : Ledger) (op : Op) (basket : String) : Prop :=
  match op with
  | .fill filled _ qty false => basket = filled ∧ ¬l.HeldBack qty
  | .cancelConfirmed client => basket = client
  | .cancelConfirmedByServer server => l.servers.lookup server = some basket
  | .rejected id =>
    basket = l.resolve id ∨ (l.stopServer ≠ "" ∧ l.stopServer = id ∧ basket = l.stop)
  | _ => False

instance (l : Ledger) (op : Op) (basket : String) : Decidable (l.Drops op basket) := by
  simp only [Drops]
  split
  all_goals infer_instance

/-- The call tells what became of an order of this size: it filled completely, its
cancel was acknowledged, or it was rejected. -/
def Settles (l : Ledger) (op : Op) (basket : String) (size : Int) : Prop :=
  match op with
  | .fill filled _ qty false => basket = filled ∧ (qty ≤ 0 ∨ size ≤ qty)
  | op => l.Drops op basket

instance (l : Ledger) (op : Op) (basket : String) (size : Int) :
    Decidable (l.Settles op basket size) := by
  simp only [Settles]
  split
  all_goals infer_instance

/-- A fill report of one of the orders is complete, or it is put aside. -/
def Whole (l : Ledger) (op : Op) (orders : Finset (String × Int)) : Prop :=
  match op with
  | .fill filled _ qty false =>
    l.HeldBack qty ∨ ∀ order ∈ orders, order.1 = filled → qty ≤ 0 ∨ order.2 ≤ qty
  | _ => True

instance (l : Ledger) (op : Op) (orders : Finset (String × Int)) :
    Decidable (l.Whole op orders) := by
  simp only [Whole]
  split
  all_goals infer_instance

/-- Where fills come whole, an order of which nothing final was heard stays. -/
theorem not_drops {orders : Finset (String × Int)} {size : Int} (whole : l.Whole op orders)
    (inside : (basket, size) ∈ orders) (unsettled : ¬l.Settles op basket size) :
    ¬l.Drops op basket := by
  cases op with
  | fill filled price qty isEntry =>
    cases isEntry with
    | true => exact not_false
    | false =>
      rintro ⟨rfl, counted⟩
      have complete := whole.resolve_left counted (basket, size) inside rfl
      exact unsettled ⟨rfl, complete⟩
  | _ => exact unsettled

/-- The order is the one that a failed cancel is about. -/
def Names (l : Ledger) (id basket : String) : Prop := basket = (l.servers.lookup id).getD id

/-- The call is a failed cancel that makes a guard of the open position's trade its
protective stop again. -/
def Readopts (l : Ledger) (op : Op) (basket : String) : Prop :=
  match op with
  | .cancelFailed id =>
    l.Open ∧ l.Names id basket ∧ basket ∈ l.guards ∧
      l.guardTrade.lookup basket = some l.trade ∧
      (l.servers.lookup id = none → l.servers.hasValue basket = false)
  | _ => False

instance (l : Ledger) (op : Op) (basket : String) : Decidable (l.Readopts op basket) := by
  simp only [Readopts, Open, Names]
  split
  all_goals infer_instance

/-- The call closes the position by a complete fill. -/
def Closes (l : Ledger) (op : Op) : Prop :=
  match op with
  | .fill _ _ qty false => (l.Open ∨ l.state = .pendingExit) ∧ ¬l.HeldBack qty
  | _ => False

instance (l : Ledger) (op : Op) : Decidable (l.Closes op) := by
  simp only [Closes, Open]
  split
  all_goals infer_instance

theorem Routes.names {id : String} (routes : l.Routes id client server) : l.Names id client := by
  rcases routes with ⟨found, _⟩ | ⟨missing, same, _⟩
  · rw [Names, found, Option.getD_some]
  · rw [Names, missing, Option.getD_none]
    exact same

theorem Routes.unmapped {id : String} (routes : l.Routes id client server)
    (missing : l.servers.lookup id = none) : l.servers.hasValue client = false := by
  rcases routes with ⟨found, _⟩ | ⟨_, _, _, free⟩
  · exact absurd (found.symm.trans missing) (Option.some_ne_none client)
  · exact free

/-- A position that is idle holds nothing back. -/
theorem not_heldBack (idle : l.state = .flat ∨ l.state = .pendingEntry) : ¬l.HeldBack qty := by
  rintro ⟨held | closing, _⟩
  · exact idle.elim held.states.1 held.states.2.1
  · rw [closing] at idle
    exact absurd idle (by decide)

theorem not_heldBack_of_whole (whole : ¬(qty > 0 ∧ qty < l.qty)) :
    ¬l.HeldBack qty := fun held => whole held.2

theorem Guarded.dropFilled {filled : String} (guarded : Guarded excused l basket)
    (other : basket ≠ filled) : Guarded excused (l.dropFilled host filled) basket := by
  simp only [Ledger.dropFilled]
  split
  · exact guarded.drop other rfl rfl (fun _ found => lookup_dropValue_of_ne other found)
  · exact guarded

/-- A close turns the stop into a guard and keeps every guard whose cancel is on
record, the filled order aside. -/
theorem close_guarded {filled : String} (known : basket ≠ "") (other : basket ≠ filled)
    (bound : l.Bound clientOf) (held : basket = l.stop ∨ Guarded False l basket) :
    Guarded False (l.close host filled) basket := by
  have dropped : basket = (l.dropFilled host filled).stop ∨
      Guarded False (l.dropFilled host filled) basket := by
    rcases held with same | guarded
    · left
      simp only [Ledger.dropFilled]
      split
      · exact same
      · exact same
    · exact Or.inr (guarded.dropFilled other)
  have settled : Guarded False ((l.dropFilled host filled).settleStop host filled) basket := by
    have fewer := bound.dropFilled host filled
    generalize l.dropFilled host filled = c at dropped fewer
    simp only [Ledger.settleStop]
    split_ifs with none apart
    · exact dropped.resolve_left (fun same => known (same.trans none))
    · rcases dropped with rfl | guarded
      · exact cancelStop_guarded c
      · exact guarded.cancelStop fewer none
    · have equal : c.stop = filled := not_not.mp apart
      have guarded := dropped.resolve_left (fun same => other (same.trans equal))
      exact guarded.congr rfl rfl rfl
  obtain ⟨inside, lasting⟩ := settled
  have recorded := lasting.resolve_left id
  refine ⟨(Table.mem_keep _ _ _).mpr ⟨inside, ?_⟩, Or.inr recorded⟩
  rw [keepsGuard, Bool.or_eq_true, decide_eq_true_eq]
  exact recorded.symm

theorem Guarded.excuse (guarded : Guarded False l basket) :
    Guarded excused l basket := ⟨guarded.1, guarded.2.imp_left False.elim⟩

/-- A guard whose cancel is on record needs no excuse. -/
theorem Guarded.recorded (guarded : Guarded excused l basket)
    (lasting : excused → l.Recorded basket) : Guarded False l basket :=
  ⟨guarded.1, Or.inr (guarded.2.elim lasting id)⟩

/-- Every fill keeps a guard that it does not drop, provided an excused guard has
its cancel on record when the position closes. -/
theorem Filled.guarded {filledId : String} {price : ℚ} {isEntry : Bool}
    (filled : Filled host filledId qty l isEntry l') (known : basket ≠ "")
    (bound : l.Bound clientOf) (kept : ¬l.Drops (.fill filledId price qty isEntry) basket)
    (lasting : excused → l.Closes (.fill filledId price qty isEntry) → l.Recorded basket)
    (guarded : Guarded excused l basket) : Guarded excused l' basket := by
  cases filled with
  | spurious => exact guarded
  | late => exact guarded.congr rfl rfl rfl
  | mismatch => exact guarded
  | partialEntry => exact guarded
  | entered pending named whole protect =>
    have opened : l.fillEntry.Bound clientOf := ⟨bound.servers, bound.orders, bound.stop⟩
    exact protect.guarded opened (guarded.congr rfl rfl rfl)
  | lastGuard request idle remembered named places =>
    have other : basket ≠ filledId := fun same => kept ⟨same, not_heldBack idle⟩
    exact guarded.drop other rfl rfl (fun _ found => lookup_dropValue_of_ne other found)
  | guard request wasBuy idle apart found places =>
    have other : basket ≠ filledId := fun same => kept ⟨same, not_heldBack idle⟩
    exact guarded.drop other rfl rfl (fun _ found => lookup_dropValue_of_ne other found)
  | unwound => exact guarded.congr rfl rfl rfl
  | unknown => exact guarded.congr rfl rfl rfl
  | partialExit => exact guarded
  | closed held whole =>
    have aside := not_heldBack_of_whole whole
    have other : basket ≠ filledId := fun same => kept ⟨same, aside⟩
    have recorded := guarded.recorded (fun excuse => lasting excuse ⟨held, aside⟩)
    exact (close_guarded known other bound (Or.inr recorded)).excuse

/-- Mapping a server id to its order keeps every guard. -/
theorem Guarded.map (guarded : Guarded excused l basket) (bound : l.Bound clientOf)
    (own : clientOf server = client) (guards : l'.guards = l.guards)
    (clients : basket ∈ l.clientOnly → basket ∈ l'.clientOnly ∨ basket = client)
    (servers : l'.servers = l.servers.insert server client) : Guarded excused l' basket := by
  constructor
  · rw [guards]
    exact guarded.1
  · exact guarded.2.imp_right (fun recorded => recorded.insert bound own clients servers)

/-- Every step keeps a guard that it neither drops nor makes the stop again. -/
theorem Stepped.guarded (stepped : Stepped host l op l') (known : basket ≠ "")
    (bound : l.Bound clientOf) (agrees : Agrees clientOf l op) (kept : ¬l.Drops op basket)
    (stays : ¬l.Readopts op basket) (lasting : excused → l.Closes op → l.Recorded basket)
    (guarded : Guarded excused l basket) : Guarded excused l' basket := by
  have own {client server : String} (given : ¬(client = "" ∨ server = ""))
      (agrees : client = "" ∨ server = "" ∨ clientOf server = client) :
      clientOf server = client := by
    rw [not_or] at given
    exact (agrees.resolve_left given.1).resolve_left given.2
  have unmapped {client : String} (inside : basket ∈ l.clientOnly) :
      basket ∈ l.clientOnly.erase client ∨ basket = client := by
    by_cases same : basket = client
    · exact Or.inr same
    · exact Or.inl (Finset.mem_erase.mpr ⟨same, inside⟩)
  cases stepped with
  | own initiates walk => exact Walk.guarded walk bound guarded
  | ignored notifies => exact guarded
  | filled filledId price qty isEntry filled =>
    exact filled.guarded known bound kept lasting guarded
  | rejectedEntry => exact guarded.congr rfl rfl rfl
  | rejectedExit id closing named walk =>
    have reopened : l.reopen.Bound clientOf := ⟨bound.servers, bound.orders, bound.stop⟩
    exact Walk.guarded walk reopened (guarded.congr rfl rfl rfl)
  | rejectedStop => exact guarded.congr rfl rfl rfl
  | ackClient client =>
    have other : basket ≠ client := kept
    exact guarded.drop other rfl rfl (fun _ found => lookup_dropValue_of_ne other found)
  | ackServer server client mapped =>
    have other : basket ≠ client := by
      rintro rfl
      exact kept mapped
    apply guarded.drop other rfl rfl
    intro id found
    have apart : id ≠ server := by
      rintro rfl
      exact other (Option.some.inj (found.symm.trans mapped))
    simp [Ledger.acknowledge, apart, found]
  | readopted id client server held inside own routes =>
    have other : basket ≠ client := by
      rintro rfl
      exact stays ⟨held, routes.names, inside, own, routes.unmapped⟩
    have roomy : Guarded excused (l.makeRoom host client) basket := guarded.makeRoom bound client
    apply roomy.drop other rfl rfl
    intro sid found
    simp only [readopt, Ledger.acknowledge]
    split
    next mapped =>
      have apart : sid ≠ server := by
        rintro rfl
        rcases routes with ⟨here, same⟩ | ⟨_, _, none, _⟩
        · have mine := (bound.makeRoom host client).servers sid basket found
          have theirs := bound.servers sid client (same ▸ here)
          exact other (mine.symm.trans theirs)
        · exact mapped none
      rw [Table.lookup_erase, if_neg apart]
      exact found
    next => exact found
  | mapStop => exact guarded.congr rfl rfl rfl
  | mapGuard client server effects inside quiet given =>
    exact guarded.map bound (own given agrees) rfl unmapped rfl
  | mapOrder => exact guarded.congr rfl rfl rfl
  | mapCancelled => exact guarded.congr rfl rfl rfl
  | mapCancelledGuard client server effects inside quiet given =>
    exact guarded.map bound (own given agrees) rfl unmapped rfl
  | setStopServer => exact guarded.congr rfl rfl rfl
  | externalClose price reason held =>
    have bare : Guarded excused (l.withdrawStop host) basket :=
      withdrawStop_guarded known bound (Or.inr guarded)
    exact bare.congr rfl rfl rfl
  | clearLast => exact guarded.congr rfl rfl rfl
  | register => exact guarded.congr rfl rfl rfl
  | confirmFlat => exact guarded.congr rfl rfl rfl
  | seedStop seeded wasBuy =>
    refine ⟨(Table.mem_insert _ _ _ _).mpr (Or.inr guarded.1), ?_⟩
    exact guarded.2
  | seedServer server client => exact guarded.map bound agrees rfl Or.inl rfl

end Ledger

/-- A newly constructed manager knows no server id. -/
theorem OrderManager.fresh_bound (risk : RiskManager) (seq : Nat) :
    (OrderManager.fresh risk seq).ledger.Bound clientOf where
  servers := by
    intro server client found
    simp only [OrderManager.ledger, OrderManager.fresh, Table.lookup_empty, reduceCtorEq] at found
  orders := by
    intro server client found
    simp only [OrderManager.ledger, OrderManager.fresh, Table.lookup_empty, reduceCtorEq] at found
  stop := fun stopped => absurd rfl stopped

end RithmicEngine
