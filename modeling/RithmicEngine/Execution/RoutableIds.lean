import RithmicEngine.Execution.CancelIds
import RithmicEngine.Execution.StopApart
/-!
# Cancels go out under the id the exchange can route

A cancel by client id is refused for an order that the exchange knows under its server
id. A record beside the run holds the orders of which a notification with both ids was
delivered, first to the table of orders and then to that of the stops. From then on the
manager cancels them by server id, wherever they stand: as the stop, as a guard, or as
the entry or exit of the trade. The table of orders is emptied at every close, when the
orders of the trade are gone or guarded, and the record says which orders it lost.
-/
namespace RithmicEngine

open Runs

variable {host : Host} {clientOf : String → Option String}

namespace Ledger

/-- Every order on the book whose ids were delivered has its server id on the book, and
no order still to be sent was reported. -/
structure Filed (host : Host) (clientOf : String → Option String)
    (ordered delivered : Finset String) (l : Ledger) : Prop where
  stop : l.stop ≠ "" → l.stop ∈ delivered → l.stopServer ≠ ""
  entry : l.entry ≠ "" → l.entry ∈ ordered → l.orders.hasValue l.entry = true
  exit : l.exit ≠ "" → l.exit ∈ ordered → l.orders.hasValue l.exit = true
  guards : ∀ basket ∈ l.guards, basket ∈ delivered → l.servers.hasValue basket = true
  plain : clientOf l.entry = none
  unsent : ∀ n, l.next ≤ n → host.basketId n ∉ ordered
  reported : delivered ⊆ ordered

variable {ordered delivered inherited : Finset String}

variable {l : Ledger} {dropped basket : String} {l' : Ledger}

/-- A book that changes only where it says so stays filed. -/
theorem Filed.congr (filed : l.Filed host clientOf ordered delivered) (next : l.next ≤ l'.next)
    (stop : l'.stop = "" ∨ (l'.stop = l.stop ∧ l'.stopServer = l.stopServer))
    (entry : l'.entry = "" ∨ (l'.entry = l.entry ∧ l'.orders = l.orders))
    (exit : l'.exit = "" ∨ (l'.exit = l.exit ∧ l'.orders = l.orders))
    (guards : ∀ basket ∈ l'.guards, basket ∈ delivered → l'.servers.hasValue basket = true)
    (blank : clientOf "" = none) : l'.Filed host clientOf ordered delivered where
  stop := by
    intro stopped inside
    obtain ⟨same, mapped⟩ := stop.resolve_left stopped
    rw [mapped]
    exact filed.stop (same ▸ stopped) (same ▸ inside)
  entry := by
    intro known inside
    obtain ⟨same, orders⟩ := entry.resolve_left known
    rw [orders, same]
    exact filed.entry (same ▸ known) (same ▸ inside)
  exit := by
    intro known inside
    obtain ⟨same, orders⟩ := exit.resolve_left known
    rw [orders, same]
    exact filed.exit (same ▸ known) (same ▸ inside)
  guards := guards
  plain := by
    rcases entry with none | same
    · rw [none]
      exact blank
    · rw [same.1]
      exact filed.plain
  unsent := fun n later => filed.unsent n (next.trans later)
  reported := filed.reported

/-- Recording a server id under its own order loses no other order. -/
theorem insert_keeps {table : Table String String} {server client other : String}
    (own : ∀ server client, table.lookup server = some client → clientOf server = some client)
    (mine : clientOf server = some client)
    (listed : other = client ∨ table.hasValue other = true) :
    (table.insert server client).hasValue other = true := by
  by_cases same : other = client
  · rw [same]
    exact Table.hasValue_insert _ _ _
  · refine Table.hasValue_insert_of_ne (listed.resolve_left same) ?_
    intro clash
    have equal := (own server other clash).symm.trans mine
    exact same (Option.some.inj equal)

/-- Filing the cancel of one order keeps the guards filed. -/
theorem Filed.file {id : String} (filed : l.Filed host clientOf ordered delivered)
    (mapped : l.Mapped clientOf) (own : clientOf id = some basket) (other : String)
    (inside : other = basket ∨ other ∈ l.guards) (known : other ∈ delivered) :
    (l.servers.insert id basket).hasValue other = true :=
  insert_keeps (fun _ _ found => mapped.server found) own
    (inside.imp_right fun guarded => filed.guards other guarded known)

/-- Cancelling the stop keeps its delivered ids on the book. -/
theorem Filed.cancelStop (filed : l.Filed host clientOf ordered delivered)
    (mapped : l.Mapped clientOf) (blank : clientOf "" = none) (stopped : l.stop ≠ "") :
    (l.cancelStop host).Filed host clientOf ordered delivered := by
  refine filed.congr (Nat.le_refl _) (Or.inl rfl) (Or.inr ⟨rfl, rfl⟩) (Or.inr ⟨rfl, rfl⟩) ?_ blank
  intro other inside known
  have held := (Table.mem_insert _ _ _ _).mp inside
  simp only [Ledger.cancelStop]
  split
  next none =>
    have guarded := held.resolve_left fun same =>
      filed.stop stopped (same ▸ known) none
    exact filed.guards other guarded known
  next server =>
    have own : clientOf l.stopServer = some l.stop :=
      some_of_getD fun other => (mapped other).stop stopped server
    exact filed.file mapped own other held known

theorem Filed.withdrawStop (filed : l.Filed host clientOf ordered delivered)
    (mapped : l.Mapped clientOf) (blank : clientOf "" = none) :
    (l.withdrawStop host).Filed host clientOf ordered delivered := by
  simp only [Ledger.withdrawStop]
  split
  next => exact filed
  next stopped => exact filed.cancelStop mapped blank stopped

/-- Every move keeps the book filed, provided no exit is on it that was reported. -/
theorem Move.filed (move : Move host l l') (mapped : l.Mapped clientOf)
    (ids : ServerIds host clientOf) (unreported : l.exit ∉ delivered)
    (filed : l.Filed host clientOf ordered delivered) :
    l'.Filed host clientOf ordered delivered := by
  have next := filed.unsent l.next (Nat.le_refl _)
  have unsent : ∀ n, l.next + 1 ≤ n → host.basketId n ∉ ordered :=
    fun n later => filed.unsent n ((Nat.le_succ _).trans later)
  have quiet {c : Ledger} (low : l.next ≤ c.next)
      (stop : c.stop = "" ∨ (c.stop = l.stop ∧ c.stopServer = l.stopServer))
      (entry : c.entry = "" ∨ (c.entry = l.entry ∧ c.orders = l.orders))
      (exit : c.exit = "" ∨ (c.exit = l.exit ∧ c.orders = l.orders))
      (guards : c.guards = l.guards) (servers : c.servers = l.servers) :
      c.Filed host clientOf ordered delivered := by
    refine filed.congr low stop entry exit ?_ ids.empty
    rw [guards, servers]
    exact filed.guards
  cases move with
  | enter =>
    exact ⟨fun stopped => absurd rfl stopped, fun _ inside => absurd inside next,
      fun known => absurd rfl known, filed.guards, ids.own l.next, unsent, filed.reported⟩
  | refuseEntry => exact quiet (Nat.le_succ _) (Or.inl rfl) (Or.inl rfl) (Or.inl rfl) rfl rfl
  | abandon => exact quiet (Nat.le_refl _) (Or.inl rfl) (Or.inl rfl) (Or.inl rfl) rfl rfl
  | submitStop =>
    exact ⟨fun _ inside => absurd (filed.reported inside) next, filed.entry, filed.exit,
      filed.guards, filed.plain, unsent, filed.reported⟩
  | refuseStop =>
    exact quiet (Nat.le_succ _) (Or.inl rfl) (Or.inr ⟨rfl, rfl⟩) (Or.inr ⟨rfl, rfl⟩) rfl rfl
  | cancelStop held stopped => exact filed.cancelStop mapped ids.empty stopped
  | sendExit =>
    exact ⟨filed.stop, filed.entry, fun _ inside => absurd inside next,
      filed.guards, filed.plain, unsent, filed.reported⟩
  | refuseExit =>
    exact quiet (Nat.le_succ _) (Or.inr ⟨rfl, rfl⟩) (Or.inr ⟨rfl, rfl⟩) (Or.inl rfl) rfl rfl
  | guardExit id closing sent names =>
    refine filed.congr (Nat.le_refl _) (Or.inr ⟨rfl, rfl⟩) (Or.inr ⟨rfl, rfl⟩) (Or.inl rfl) ?_
      ids.empty
    intro other inside known
    have held := (Table.mem_insert _ _ _ _).mp inside
    simp only [Ledger.guardExit]
    split
    next apart =>
      have own : clientOf id = some l.exit := mapped.order (names.resolve_left apart)
      exact filed.file mapped own other held known
    next =>
      have guarded := held.resolve_left fun same => unreported (same ▸ known)
      exact filed.guards other guarded known
  | recancel =>
    exact quiet (Nat.le_refl _) (Or.inr ⟨rfl, rfl⟩) (Or.inr ⟨rfl, rfl⟩) (Or.inr ⟨rfl, rfl⟩) rfl rfl

/-- The exit of a move is the one before, none, or newly sent. -/
theorem Move.unreported (move : Move host l l') (known : "" ∉ delivered)
    (unsent : host.basketId l.next ∉ delivered) (unreported : l.exit ∉ delivered) :
    l'.exit ∉ delivered := by
  cases move with
  | enter => exact known
  | refuseEntry => exact known
  | abandon => exact known
  | sendExit => exact unsent
  | refuseExit => exact known
  | guardExit => exact known
  | _ => exact unreported

/-- A walk that starts without a reported exit keeps the book filed. -/
theorem Walk.filed (walk : Walk host l l') (mapped : l.Mapped clientOf)
    (ids : ServerIds host clientOf) (known : "" ∉ delivered) (unreported : l.exit ∉ delivered)
    (filed : l.Filed host clientOf ordered delivered) :
    l'.Filed host clientOf ordered delivered := by
  have both : l'.Filed host clientOf ordered delivered ∧ l'.exit ∉ delivered := by
    induction walk with
    | refl => exact ⟨filed, unreported⟩
    | tail walk move ih =>
      have bound : Mapped clientOf _ := fun other => Walk.bound walk (mapped other)
      refine ⟨move.filed bound ids ih.2 ih.1, ?_⟩
      exact move.unreported known
        (fun inside => ih.1.unsent _ (Nat.le_refl _) (ih.1.reported inside)) ih.2
  exact both.1

/-- Dropping a guard with its own cancels on record keeps the others filed. -/
theorem Filed.drop {guards : Table String Bool} {servers : Table String String}
    (filed : l.Filed host clientOf ordered delivered)
    (fewer : ∀ basket ∈ guards, basket ∈ l.guards ∧ basket ≠ dropped)
    (kept : ∀ server client, client ≠ dropped → l.servers.lookup server = some client →
      servers.lookup server = some client)
    (basket : String) (inside : basket ∈ guards) (known : basket ∈ delivered) :
    servers.hasValue basket = true := by
  obtain ⟨guarded, other⟩ := fewer basket inside
  obtain ⟨server, found⟩ := (Table.hasValue_iff _ _).mp (filed.guards basket guarded known)
  exact (Table.hasValue_iff _ _).mpr ⟨server, kept server basket other found⟩

theorem erase_fewer {guards : Table String Bool} (inside : basket ∈ guards.erase dropped) :
    basket ∈ guards ∧ basket ≠ dropped :=
  ((Table.mem_erase _ _ _).mp inside).symm

theorem dropValue_keeps {servers : Table String String} (server client : String)
    (other : client ≠ dropped) (found : servers.lookup server = some client) :
    (servers.dropValue dropped).lookup server = some client :=
  (Table.lookup_dropValue_eq_some _ _ _ _).mpr ⟨found, other⟩

/-- Closing a trade keeps the delivered ids on the book. -/
theorem Filed.close {filled : String} (filed : l.Filed host clientOf ordered delivered)
    (mapped : l.Mapped clientOf) (blank : clientOf "" = none) :
    (l.close host filled).Filed host clientOf ordered delivered := by
  have dropped : (l.dropFilled host filled).Filed host clientOf ordered delivered := by
    simp only [dropFilled]
    split
    · refine filed.congr (Nat.le_refl _) (Or.inr ⟨rfl, rfl⟩) (Or.inr ⟨rfl, rfl⟩)
        (Or.inr ⟨rfl, rfl⟩) ?_ blank
      exact filed.drop (fun _ inside => erase_fewer inside) dropValue_keeps
    · exact filed
  have bound : (l.dropFilled host filled).Mapped clientOf :=
    fun other => (mapped other).dropFilled host filled
  have settled : ((l.dropFilled host filled).settleStop host filled).Filed host clientOf
      ordered delivered := by
    generalize l.dropFilled host filled = c at dropped bound
    simp only [settleStop]
    split_ifs with none
    · exact dropped
    · exact dropped.cancelStop bound blank none
    · exact dropped.congr (Nat.le_refl _) (Or.inr ⟨rfl, rfl⟩) (Or.inr ⟨rfl, rfl⟩)
        (Or.inr ⟨rfl, rfl⟩) dropped.guards blank
  refine settled.congr (Nat.le_refl _) (Or.inl rfl) (Or.inl rfl) (Or.inl rfl) ?_ blank
  intro basket inside known
  exact settled.guards basket ((Table.mem_keep _ _ _).mp inside).1 known

/-- A fill keeps the server id of every reported order on the book. -/
theorem Filled.filed {qty : Int} {isEntry : Bool} (filled : Filled host basket qty l isEntry l')
    (shape : Shape l) (mapped : l.Mapped clientOf) (ids : ServerIds host clientOf)
    (known : "" ∉ delivered) (filed : l.Filed host clientOf ordered delivered) :
    l'.Filed host clientOf ordered delivered := by
  have fired {c : Ledger} {request : OrderRequest} {taken : Bool} (next : c.next = l.next)
      (stop : c.stop = l.stop ∧ c.stopServer = l.stopServer)
      (entry : c.entry = l.entry ∧ c.orders = l.orders)
      (exit : c.exit = l.exit ∧ c.orders = l.orders) (guards : c.guards = l.guards.erase basket)
      (servers : c.servers = l.servers.dropValue basket) :
      (c.unwind host basket request taken true).Filed host clientOf ordered delivered := by
    refine filed.congr ?_ (Or.inr stop) (Or.inr entry) (Or.inr exit) ?_ ids.empty
    · exact (next ▸ Nat.le_succ c.next : l.next ≤ c.next + 1)
    · refine filed.drop (fun _ inside => erase_fewer (guards ▸ inside)) ?_
      intro server client other found
      simp only [Ledger.unwind, order, servers]
      exact dropValue_keeps server client other found
  have noted {c : Ledger} (next : c.next = l.next)
      (stop : c.stop = l.stop ∧ c.stopServer = l.stopServer)
      (entry : c.entry = l.entry ∧ c.orders = l.orders)
      (exit : c.exit = l.exit ∧ c.orders = l.orders) (guards : c.guards = l.guards)
      (servers : c.servers = l.servers) : c.Filed host clientOf ordered delivered := by
    refine filed.congr next.ge (Or.inr stop) (Or.inr entry) (Or.inr exit) ?_ ids.empty
    rw [guards, servers]
    exact filed.guards
  cases filled with
  | spurious => exact filed
  | late =>
    refine filed.congr (Nat.le_succ _) (Or.inr ⟨rfl, rfl⟩) (Or.inr ⟨rfl, rfl⟩)
      (Or.inr ⟨rfl, rfl⟩) filed.guards ids.empty
  | mismatch => exact filed
  | partialEntry => exact filed
  | entered pending named whole protect =>
    have opened : l.fillEntry.Filed host clientOf ordered delivered :=
      noted rfl ⟨rfl, rfl⟩ ⟨rfl, rfl⟩ ⟨rfl, rfl⟩ rfl rfl
    have bound : l.fillEntry.Mapped clientOf :=
      fun other => ⟨(mapped other).servers, (mapped other).orders, (mapped other).stop⟩
    have none : l.fillEntry.exit = "" := (shape.pendingEntry pending).2.1
    exact protect.filed bound ids (none ▸ known) opened
  | lastGuard => exact fired rfl ⟨rfl, rfl⟩ ⟨rfl, rfl⟩ ⟨rfl, rfl⟩ rfl rfl
  | guard => exact fired rfl ⟨rfl, rfl⟩ ⟨rfl, rfl⟩ ⟨rfl, rfl⟩ rfl rfl
  | unwound => exact noted rfl ⟨rfl, rfl⟩ ⟨rfl, rfl⟩ ⟨rfl, rfl⟩ rfl rfl
  | unknown => exact noted rfl ⟨rfl, rfl⟩ ⟨rfl, rfl⟩ ⟨rfl, rfl⟩ rfl rfl
  | partialExit => exact filed
  | closed => exact filed.close mapped ids.empty

/-- The call brings in a mapping of a server id. -/
def Maps : Op → Bool
  | .stopServerMapped _ _ | .mapServer _ _ => true
  | _ => false

/-- No order is seeded as a guard after it was reported, and no server id of the stop is
taken back. -/
def Seeds (delivered : Finset String) : Op → Prop
  | .seedStop basket _ => basket ∉ delivered
  | .setStopServer server => server ≠ ""
  | _ => True

/-- The call empties the table of orders: a complete closing fill, or an external close
of a position. -/
def Wipes (l : Ledger) (op : Op) : Prop :=
  match op with
  | .externalClose _ _ => l.Open ∨ l.state = .pendingExit
  | op => l.Closes op

instance (delivered : Finset String) (op : Op) : Decidable (Seeds delivered op) := by
  induction op using Op.casesOn
  all_goals
    dsimp only [Seeds]
    infer_instance

instance (l : Ledger) (op : Op) : Decidable (l.Wipes op) := by
  induction op using Op.casesOn
  all_goals
    dsimp only [Wipes, Open]
    infer_instance

/-- A readopted guard that was reported comes back with its server id. -/
theorem Filed.readopt {id client server : String} (filed : l.Filed host clientOf ordered delivered)
    (mapped : l.Mapped clientOf) (ids : ServerIds host clientOf) (guarded : client ∈ l.guards)
    (routes : l.Routes id client server) :
    ((l.makeRoom host client).readopt host client server).Filed host clientOf ordered
      delivered := by
  have roomy : (l.makeRoom host client).Filed host clientOf ordered delivered := by
    simp only [Ledger.makeRoom]
    split
    next apart => exact filed.cancelStop mapped ids.empty apart.1
    next => exact filed
  have bound : (l.makeRoom host client).Mapped clientOf :=
    fun other => (mapped other).makeRoom host client
  have kept := filed.guards client guarded
  generalize l.makeRoom host client = c at roomy bound
  refine { roomy with stop := ?_, guards := ?_ }
  · intro _ inside
    rcases routes with ⟨found, rfl⟩ | ⟨_, _, _, unlisted⟩
    · rintro rfl
      exact Option.some_ne_none client ((mapped.server found).symm.trans ids.empty)
    · exact absurd (kept inside) (by rw [unlisted]; exact Bool.false_ne_true)
  · refine roomy.drop (fun _ inside => erase_fewer inside) ?_
    intro other held apart found
    simp only [Ledger.readopt, acknowledge]
    split
    · rw [Table.lookup_erase, if_neg]
      · exact found
      · rintro rfl
        rcases routes with ⟨mine, rfl⟩ | ⟨_, _, none, _⟩
        · exact apart (Option.some.inj ((bound.server found).symm.trans (mapped.server mine)))
        · contradiction
    · exact found

/-- Every step that maps no server id keeps the book filed, but for the manager's own
while an exit is under way. -/
theorem Stepped.filed {op : Op} (stepped : Stepped host l op l') (shape : Shape l)
    (mapped : l.Mapped clientOf) (ids : ServerIds host clientOf) (known : "" ∉ delivered)
    (idle : Initiates op = true → l.state ≠ .pendingExit) (other : Maps op = false)
    (seeds : Seeds delivered op) (reports : l.Reports clientOf inherited op)
    (filed : l.Filed host clientOf ordered delivered) :
    l'.Filed host clientOf ordered delivered := by
  have same {c : Ledger} (next : c.next = l.next)
      (stop : c.stop = l.stop ∧ c.stopServer = l.stopServer)
      (entry : c.entry = l.entry ∧ c.orders = l.orders)
      (exit : c.exit = l.exit ∧ c.orders = l.orders) (guards : c.guards = l.guards)
      (servers : c.servers = l.servers) : c.Filed host clientOf ordered delivered := by
    refine filed.congr next.ge (Or.inr stop) (Or.inr entry) (Or.inr exit) ?_ ids.empty
    rw [guards, servers]
    exact filed.guards
  have bare (state : l.state ≠ .pendingExit) : l.exit ∉ delivered := by
    have none : l.exit = "" := by
      cases held : l.state with
      | flat => exact (shape.flat held).2.1
      | pendingEntry => exact (shape.pendingEntry held).2.1
      | long => exact (shape.held (Or.inl held)).1
      | short => exact (shape.held (Or.inr held)).1
      | pendingExit => exact absurd held state
    rw [none]
    exact known
  cases stepped with
  | own initiates walk => exact Walk.filed walk mapped ids known (bare (idle initiates)) filed
  | ignored => exact filed
  | filled basket price qty isEntry filled => exact filled.filed shape mapped ids known filed
  | rejectedEntry =>
    exact filed.congr (Nat.le_refl _) (Or.inl rfl) (Or.inl rfl) (Or.inl rfl) filed.guards ids.empty
  | rejectedExit basket closing named walk =>
    have opened : l.reopen.Filed host clientOf ordered delivered :=
      filed.congr (Nat.le_refl _) (Or.inr ⟨rfl, rfl⟩) (Or.inr ⟨rfl, rfl⟩) (Or.inl rfl) filed.guards
        ids.empty
    have bound : l.reopen.Mapped clientOf :=
      fun other => ⟨(mapped other).servers, (mapped other).orders, (mapped other).stop⟩
    exact Walk.filed walk bound ids known known opened
  | rejectedStop =>
    exact filed.congr (Nat.le_refl _) (Or.inl rfl) (Or.inr ⟨rfl, rfl⟩) (Or.inr ⟨rfl, rfl⟩)
      filed.guards ids.empty
  | ackClient basket =>
    refine filed.congr (Nat.le_refl _) (Or.inr ⟨rfl, rfl⟩) (Or.inr ⟨rfl, rfl⟩) (Or.inr ⟨rfl, rfl⟩)
      ?_ ids.empty
    exact filed.drop (fun _ inside => erase_fewer inside) dropValue_keeps
  | ackServer server client found =>
    refine filed.congr (Nat.le_refl _) (Or.inr ⟨rfl, rfl⟩) (Or.inr ⟨rfl, rfl⟩) (Or.inr ⟨rfl, rfl⟩)
      ?_ ids.empty
    refine filed.drop (fun _ inside => erase_fewer inside) ?_
    intro other held apart listed
    simp only [acknowledge]
    rw [Table.lookup_erase, if_neg]
    · exact listed
    · rintro rfl
      exact apart (Option.some.inj (listed.symm.trans found))
  | readopted id client server held guarded own routes =>
    exact filed.readopt mapped ids guarded routes
  | setStopServer server =>
    exact { filed with stop := fun _ _ => seeds }
  | externalClose price reason held =>
    have bare : (l.withdrawStop host).Filed host clientOf ordered delivered :=
      filed.withdrawStop mapped ids.empty
    refine bare.congr (Nat.le_refl _) (Or.inl rfl) (Or.inl rfl) (Or.inl rfl) bare.guards ids.empty
  | clearLast => exact same rfl ⟨rfl, rfl⟩ ⟨rfl, rfl⟩ ⟨rfl, rfl⟩ rfl rfl
  | register => exact same rfl ⟨rfl, rfl⟩ ⟨rfl, rfl⟩ ⟨rfl, rfl⟩ rfl rfl
  | confirmFlat => exact same rfl ⟨rfl, rfl⟩ ⟨rfl, rfl⟩ ⟨rfl, rfl⟩ rfl rfl
  | seedStop basket wasBuy =>
    refine { filed with guards := ?_ }
    intro other inside reported
    rcases (Table.mem_insert _ _ _ _).mp inside with rfl | before
    · exact absurd reported seeds
    · exact filed.guards other before reported
  | seedServer server client =>
    refine { filed with guards := ?_ }
    intro other inside reported
    exact insert_keeps (fun _ _ found => mapped.server found) reports.1
      (Or.inr (filed.guards other inside reported))
  | mapStop => exact absurd other Bool.false_ne_true.symm
  | mapGuard => exact absurd other Bool.false_ne_true.symm
  | mapOrder => exact absurd other Bool.false_ne_true.symm
  | mapCancelled => exact absurd other Bool.false_ne_true.symm
  | mapCancelledGuard => exact absurd other Bool.false_ne_true.symm

/-! ## The table of orders -/

theorem Walk.orders {l l' : Ledger} (walk : Walk host l l') : l'.orders = l.orders := by
  induction walk with
  | refl => rfl
  | tail _ move ih => exact move.adds.2.trans ih

/-- A fill empties the table of orders exactly when it closes the position. -/
theorem Filled.orders {basket : String} {price : ℚ} {qty : Int} {isEntry : Bool} {l l' : Ledger}
    (filled : Filled host basket qty l isEntry l') :
    l'.orders = if l.Wipes (.fill basket price qty isEntry) then ∅ else l.orders := by
  have open_ (idle : l.state = .flat ∨ l.state = .pendingEntry) :
      ¬(l.Open ∨ l.state = .pendingExit) := by
    simp only [Open]
    rcases idle with state | state
    · rw [state]
      decide
    · rw [state]
      decide
  have unclosed (idle : l.state = .flat ∨ l.state = .pendingEntry) :
      ¬l.Wipes (.fill basket price qty false) := fun wipes => open_ idle wipes.1
  have entering : ¬l.Wipes (.fill basket price qty true) := id
  cases filled with
  | spurious => rw [if_neg entering]
  | late =>
    rw [if_neg entering]
    rfl
  | mismatch => rw [if_neg entering]
  | partialEntry => rw [if_neg entering]
  | entered pending named whole protect =>
    rw [if_neg entering]
    exact protect.adds.2
  | lastGuard request idle =>
    rw [if_neg (unclosed idle)]
    rfl
  | guard request wasBuy idle =>
    rw [if_neg (unclosed idle)]
    rfl
  | unwound idle =>
    rw [if_neg (unclosed idle)]
    rfl
  | unknown idle =>
    rw [if_neg (unclosed idle)]
    rfl
  | partialExit held part =>
    have waits : ¬l.Wipes (.fill basket price qty false) := fun wipes => wipes.2 ⟨held, part⟩
    rw [if_neg waits]
  | closed held whole =>
    have closes : l.Wipes (.fill basket price qty false) := ⟨held, fun back => whole back.2⟩
    rw [if_pos closes]
    rfl

/-- A call that neither maps an order nor empties the table leaves it alone. -/
theorem Stepped.orders {op : Op} {l l' : Ledger} (stepped : Stepped host l op l')
    (keeps : ¬l.Wipes op) (other : ∀ client server, op ≠ .mapServer client server) :
    l'.orders = l.orders := by
  cases stepped with
  | own initiates walk => exact Walk.orders walk
  | filled basket price qty isEntry filled =>
    have table := @Filled.orders host basket price qty isEntry l l' filled
    rwa [if_neg keeps] at table
  | rejectedExit basket closing named walk =>
    have reopened := Walk.orders walk
    exact reopened
  | readopted =>
    simp only [Ledger.readopt, acknowledge, makeRoom]
    split
    · rfl
    · rfl
  | mapOrder client server => exact absurd rfl (other client server)
  | mapCancelled client server => exact absurd rfl (other client server)
  | mapCancelledGuard client server => exact absurd rfl (other client server)
  | externalClose price reason held => exact absurd held keeps
  | _ => rfl

end Ledger

namespace OrderManager

variable {ordered delivered inherited : Finset String} {seq : Nat}

/-- While an exit is under way the manager leaves the book alone, but for replacing a
stuck one. -/
theorem step_closing (s : OrderManager) (call : Call) (closing : s.pos.state = .pendingExit)
    (initiates : Ledger.Initiates call.op = true)
    (other : ∀ price, call.op ≠ .retryStuckExit price) :
    (step host s call).ledger = { s.ledger with sent := (step host s call).outbox } := by
  have busy : s.pos.state ≠ .flat := by
    rw [closing]
    decide
  obtain ⟨now, op⟩ := call
  cases op with
  | signal sig price dist =>
    cases sig with
    | buy =>
      simp only [step, perform, onSignal]
      split_ifs
      · rfl
      · rfl
      · rfl
    | sell =>
      simp only [step, perform, onSignal]
      split_ifs
      · rfl
      · rfl
      · rfl
    | flattenEod =>
      simp only [step, perform, onSignal, flattenNow, closing]
      rfl
    | none => rfl
  | checkTrail price =>
    simp only [step, perform, checkTrailAndStop, inTrade, closing]
    rfl
  | checkExternal price stratStop =>
    simp only [step, perform, checkExternalStop, inTrade, closing]
    rfl
  | flatten reason price =>
    simp only [step, perform, flattenNow, closing]
    rfl
  | retryStuckExit price => exact absurd rfl (other price)
  | entryTimeout secs =>
    simp only [step, perform, pendingEntryTimeoutCheck, closing]
    rfl
  | recancel =>
    simp only [step, perform, recancelPendingStops]
    split
    · rfl
    · rfl
  | fillProcessed basket qty =>
    simp only [step, perform, fillAlreadyProcessed]
    split
    · rfl
    · rfl
  | popCompleted =>
    simp only [step, perform, popTradeCompleted]
    split
    · rfl
    · rfl
  | host => rfl
  | _ => exact absurd initiates Bool.false_ne_true

variable {s : OrderManager} {d : Delivery} {l : Ledger} {client : String} {op : Op}

/-- An exit that was reported is replaced under its server id. -/
theorem guardExit_filed (ids : ServerIds host clientOf) (mapped : s.ledger.Mapped clientOf)
    (plain : clientOf s.pos.basketIdExit = none) (sent : s.pos.basketIdExit ≠ "")
    (filed : s.ledger.Filed host clientOf ordered delivered) :
    (s.ledger.guardExit host (s.cancelIdForLocked s.pos.basketIdExit)).Filed host clientOf
      ordered delivered := by
  refine filed.congr (Nat.le_refl _) (Or.inr ⟨rfl, rfl⟩) (Or.inr ⟨rfl, rfl⟩) (Or.inl rfl) ?_
    ids.empty
  intro other inside reported
  have held := (Table.mem_insert _ _ _ _).mp inside
  have names := cancelIdFor_names s.pos.basketIdExit s
  simp only [Ledger.guardExit]
  split
  next apart =>
    exact filed.file mapped (mapped.order (names.resolve_left apart)) other held reported
  next same =>
    -- A reported exit is in the table of orders, so its server id is not its own.
    have guarded : other ∈ s.cancelledStops := by
      refine held.resolve_left ?_
      rintro rfl
      have listed := filed.exit sent (filed.reported reported)
      cases found : s.serverToClientOrders.keyOf? s.pos.basketIdExit with
      | none =>
        rw [Table.keyOf?_eq_none] at found
        exact Bool.false_ne_true (found.symm.trans listed)
      | some server =>
        have own := mapped.order (Table.lookup_of_keyOf? found)
        have equal : server = s.pos.basketIdExit := by
          have := not_not.mp same
          rwa [cancelIdForLocked, found, Option.getD_some] at this
        rw [equal, plain] at own
        exact Option.some_ne_none _ own.symm
    exact filed.guards other guarded reported

/-- What was reported of the orders: those mapped for the table of orders, those mapped
after that for the stops as well, those whose place in the table was wiped since, and
the unwinds that the reconciler sent. -/
structure Delivery where
  ordered : Finset String := ∅
  delivered : Finset String := ∅
  wiped : Finset String := ∅
  unwinds : Finset String := ∅
  deriving DecidableEq

/-- What a call adds to the record. -/
def Delivery.note (d : Delivery) (l : Ledger) (op : Op) : Delivery :=
  match op with
  | .mapServer client server =>
    if client = "" ∨ server = "" then d
    else { d with ordered := insert client d.ordered, wiped := d.wiped.erase client }
  | .stopServerMapped client server =>
    if client = "" ∨ server = "" ∨ client ∉ d.ordered then d
    else { d with delivered := insert client d.delivered }
  | op => if l.Wipes op then { d with wiped := d.ordered } else d

/-- A notification names an order of this process that was sent, one that another
process left, or an unwind. -/
def Accounted (host : Host) (inherited : Finset String) (d : Delivery)
    (s : OrderManager) : Op → Prop
  | .mapServer client _ =>
    client ∈ inherited ∨ client ∈ d.unwinds ∨ ∃ n < s.seq, client = host.basketId n
  | _ => True

instance (d : Delivery) (s : OrderManager) (op : Op) :
    Decidable (Accounted host inherited d s op) := by
  induction op using Op.casesOn
  all_goals
    dsimp only [Accounted]
    infer_instance

/-- The calls that the rest of the process and the exchange make. -/
@[mk_iff]
structure Attested (host : Host) (clientOf : String → Option String) (inherited : Finset String)
    (d : Delivery) (s : OrderManager) (op : Op) : Prop where
  reports : s.ledger.Reports clientOf inherited op
  seeds : Ledger.Seeds d.delivered op
  accounted : Accounted host inherited d s op

instance (d : Delivery) (s : OrderManager) (op : Op) :
    Decidable (Attested host clientOf inherited d s op) :=
  decidable_of_iff' _ (attested_iff ..)

/-- The orders that were reported are on the book under their server ids, and the table
of orders holds those that were not wiped. -/
structure Routable (host : Host) (clientOf : String → Option String) (inherited : Finset String)
    (seq : Nat) (s : OrderManager) (d : Delivery) : Prop where
  separated : Separated host clientOf inherited seq s
  known : "" ∉ d.ordered
  filed : s.ledger.Filed host clientOf d.ordered d.delivered
  listed : ∀ client ∈ d.ordered,
    (s.serverToClientOrders.hasValue client = true ↔ client ∉ d.wiped)
  unwound : ∀ basket ∈ d.unwinds, ∀ n, basket ≠ host.basketId n

/-- The outbox is no part of what keeps the book filed. -/
theorem filed_of_quiet {t : OrderManager} {effects : List Effect}
    (filed : s.ledger.Filed host clientOf ordered delivered)
    (same : t.ledger = { s.ledger with sent := effects }) :
    t.ledger.Filed host clientOf ordered delivered := by
  rw [same]
  exact ⟨filed.stop, filed.entry, filed.exit, filed.guards, filed.plain, filed.unsent,
    filed.reported⟩

/-- A stuck exit is replaced and the book stays filed. -/
theorem retry_filed (live : host.Live) (ids : ServerIds host clientOf) (now : Int) (price : ℚ)
    (shape : s.ledger.Shape) (mapped : s.ledger.Mapped clientOf)
    (plain : clientOf s.pos.basketIdExit = none) (known : "" ∉ delivered)
    (filed : s.ledger.Filed host clientOf ordered delivered) :
    (retryStuckExit host now price s).ledger.Filed host clientOf ordered delivered := by
  by_cases closing : s.pos.state = .pendingExit
  · have sent : s.pos.basketIdExit ≠ "" := (shape.pendingExit closing).1
    have guarded := guardExit_ledger live s sent
    have start : (guardExit host s).reopen.ledger.Filed host clientOf ordered delivered := by
      rw [guarded]
      exact guardExit_filed ids mapped plain sent filed
    have bound : (guardExit host s).reopen.ledger.Mapped clientOf := by
      rw [guarded]
      exact fun other => (Ledger.Move.guardExit _ closing sent (cancelIdFor_names _ s)).bound
        (mapped other)
    have held : (guardExit host s).reopen.ledger.Open := heldState_open _
    have walk := initiateExit_walk live now "stuck_exit_retry" price _ held
    simp only [retryStuckExit, closing, live.sends, ne_eq, not_true_eq_false, Bool.false_eq_true,
      ↓reduceIte]
    exact Ledger.Walk.filed walk bound ids known known start
  · simp only [retryStuckExit, closing, ne_eq, not_false_eq_true, ↓reduceIte]
    exact filed

/-- A call that maps no server id keeps the book filed. -/
theorem step_filed (live : host.Live) (ids : ServerIds host clientOf) {call : Call}
    (separated : Separated host clientOf inherited seq s) (known : "" ∉ delivered)
    (reports : s.ledger.Reports clientOf inherited call.op) (seeds : Ledger.Seeds delivered call.op)
    (other : Ledger.Maps call.op = false) (filed : s.ledger.Filed host clientOf ordered delivered) :
    (step host s call).ledger.Filed host clientOf ordered delivered := by
  have start : s.cleared.Filed host clientOf ordered delivered :=
    filed_of_quiet (t := { s with outbox := [] }) filed rfl
  have bound : s.cleared.Mapped clientOf := fun other =>
    ⟨(separated.mapped other).servers, (separated.mapped other).orders,
      (separated.mapped other).stop⟩
  have shape : s.cleared.Shape := separated.shape.congr rfl rfl rfl rfl rfl
  have stepped := step_refines live s call separated.shape
  by_cases closing : s.pos.state = .pendingExit ∧ Ledger.Initiates call.op = true
  · obtain ⟨closing, initiates⟩ := closing
    by_cases retry : ∃ price, call.op = .retryStuckExit price
    · obtain ⟨price, named⟩ := retry
      have plain : clientOf s.pos.basketIdExit = none := separated.within.exit.plain ids
      have retried := retry_filed (s := { s with outbox := [] }) live ids call.now price shape bound
        plain known start
      simpa only [step, perform, named] using retried
    · exact filed_of_quiet filed
        (step_closing s call closing initiates fun price named => retry ⟨price, named⟩)
  · refine stepped.filed shape bound ids known ?_ other seeds reports start
    exact fun initiates state => closing ⟨state, initiates⟩

/-- Mapping an order for the table of orders. -/
theorem mapServer_filed {server : String} (mapped : s.ledger.Mapped clientOf)
    (given : ¬(client = "" ∨ server = "")) (own : clientOf server = some client)
    (sent : ∀ n, s.seq ≤ n → client ≠ host.basketId n)
    (filed : s.ledger.Filed host clientOf ordered delivered) :
    (mapServerBasket host client server s).ledger.Filed host clientOf (insert client ordered)
      delivered := by
  have orders : (mapServerBasket host client server s).serverToClientOrders =
      s.serverToClientOrders.insert server client := by
    simp only [mapServerBasket, given, ↓reduceIte]
    split
    · rfl
    · rfl
  have book : (mapServerBasket host client server s).pos = s.pos ∧
      (mapServerBasket host client server s).stopServerBasket = s.stopServerBasket ∧
      (mapServerBasket host client server s).cancelledStops = s.cancelledStops ∧
      (mapServerBasket host client server s).seq = s.seq := by
    simp only [mapServerBasket]
    split_ifs
    all_goals exact ⟨rfl, rfl, rfl, rfl⟩
  have listed (basket : String)
      (before : basket ∈ ordered → s.serverToClientOrders.hasValue basket = true)
      (inside : basket ∈ insert client ordered) :
      (mapServerBasket host client server s).serverToClientOrders.hasValue basket = true := by
    rw [orders]
    exact Ledger.insert_keeps (fun _ _ found => mapped.order found) own
      ((Finset.mem_insert.mp inside).imp_right before)
  obtain ⟨position, mappedStop, guards, drawn⟩ := book
  refine ⟨?_, ?_, ?_, ?_, ?_, ?_, ?_⟩
  · simpa only [ledger, position, mappedStop] using filed.stop
  · simp only [ledger, position]
    exact fun entered => listed _ (filed.entry entered)
  · simp only [ledger, position]
    exact fun exited => listed _ (filed.exit exited)
  · intro basket inside reported
    have guarded : basket ∈ s.cancelledStops := by
      rw [← guards]
      exact inside
    have before := filed.guards basket guarded reported
    have stays := @Ledger.insert_keeps clientOf s.ledger.servers server client basket
      (fun _ _ found => mapped.server found) own (Or.inr before)
    simp only [ledger, mapServerBasket, given, ↓reduceIte]
    split_ifs
    · exact stays
    · exact before
    · exact before
  · simpa only [ledger, position] using filed.plain
  · intro n later inside
    have low : s.seq ≤ n := drawn.ge.trans later
    rcases Finset.mem_insert.mp inside with same | before
    · exact sent n low same.symm
    · exact filed.unsent n low before
  · exact filed.reported.trans (Finset.subset_insert _ _)

/-- Mapping an order for the stops: from then on it may count as reported. -/
theorem stopServerMapped_filed {server : String} {reported : Finset String}
    (mapped : s.ledger.Mapped clientOf) (given : ¬(client = "" ∨ server = ""))
    (own : clientOf server = some client)
    (apart : s.ledger.stop ≠ "" → s.ledger.stop ∉ s.ledger.guards)
    (fewer : reported ⊆ insert client delivered) (kept : reported ⊆ ordered)
    (filed : s.ledger.Filed host clientOf ordered delivered) :
    (onStopServerMapped host client server s).ledger.Filed host clientOf ordered reported := by
  rw [not_or] at given
  have older {basket : String} (other : basket ≠ client) (inside : basket ∈ reported) :
      basket ∈ delivered := (Finset.mem_insert.mp (fewer inside)).resolve_left other
  simp only [onStopServerMapped, given.1, given.2, or_self, ↓reduceIte]
  by_cases current : s.pos.basketIdStop ≠ "" ∧ client = s.pos.basketIdStop
  · have guards : ∀ basket ∈ s.ledger.guards, basket ∈ reported →
        s.ledger.servers.hasValue basket = true := by
      intro basket inside told
      refine filed.guards basket inside (older ?_ told)
      intro same
      have here : basket = s.ledger.stop := same.trans current.2
      rw [here] at inside
      exact apart current.1 inside
    have stop : s.ledger.stop ≠ "" → s.ledger.stop ∈ reported → server ≠ "" :=
      fun _ _ => given.2
    rw [if_pos current]
    split
    · exact ⟨stop, filed.entry, filed.exit, guards, filed.plain, filed.unsent, kept⟩
    next same =>
      refine ⟨?_, filed.entry, filed.exit, guards, filed.plain, filed.unsent, kept⟩
      intro _ _
      have held : s.stopServerBasket = server := not_not.mp same
      exact fun none => given.2 (held.symm.trans none)
  · have stop : s.ledger.stop ≠ "" → s.ledger.stop ∈ reported →
        s.ledger.stopServer ≠ "" := by
      intro stopped told
      refine filed.stop stopped (older ?_ told)
      rintro rfl
      exact current ⟨stopped, rfl⟩
    rw [if_neg current]
    split
    next free =>
      refine ⟨stop, filed.entry, filed.exit, ?_, filed.plain, filed.unsent, kept⟩
      intro basket inside told
      refine filed.guards basket inside (older ?_ told)
      rintro rfl
      exact free inside
    next =>
      split
      next known =>
        refine ⟨stop, filed.entry, filed.exit, ?_, filed.plain, filed.unsent, kept⟩
        intro basket inside told
        by_cases same : basket = client
        · exact (Table.hasValue_iff _ _).mpr ⟨server, same ▸ known⟩
        · exact filed.guards basket inside (older same told)
      next =>
        refine ⟨stop, filed.entry, filed.exit, ?_, filed.plain, filed.unsent, kept⟩
        intro basket inside told
        refine Ledger.insert_keeps (fun _ _ found => mapped.server found) own ?_
        by_cases same : basket = client
        · exact Or.inl same
        · exact Or.inr (filed.guards basket inside (older same told))

/-- A call that wipes the table notes every order in it. -/
theorem note_wipes (wipes : l.Wipes op) : d.note l op = { d with wiped := d.ordered } := by
  cases op with
  | fill basket price qty isEntry => simp [Delivery.note, wipes]
  | externalClose price reason => simp [Delivery.note, wipes]
  | _ => exact wipes.elim

/-- A call that wipes nothing leaves what was ordered and wiped. -/
theorem note_keeps (keeps : ¬l.Wipes op) (other : ∀ client server, op ≠ .mapServer client server) :
    (d.note l op).ordered = d.ordered ∧ (d.note l op).wiped = d.wiped := by
  cases op with
  | mapServer client server => exact absurd rfl (other client server)
  | stopServerMapped client server =>
    simp only [Delivery.note]
    split
    · exact ⟨rfl, rfl⟩
    · exact ⟨rfl, rfl⟩
  | _ => simp [Delivery.note, keeps]

/-- A complete closing fill and an external close empty the table of orders. -/
theorem wipes_orders (live : host.Live) {call : Call} (shape : s.ledger.Shape)
    (wipes : s.ledger.Wipes call.op) : (step host s call).serverToClientOrders = ∅ := by
  have stepped := step_refines live s call shape
  obtain ⟨now, op⟩ := call
  cases op with
  | fill basket price qty isEntry =>
    have table := @Ledger.Filled.orders host basket price qty isEntry _ _ stepped.isFilled
    have wiped : s.cleared.Wipes (.fill basket price qty isEntry) := wipes
    rwa [if_pos wiped] at table
  | externalClose price reason =>
    have held : ¬(s.pos.state ≠ .long ∧ s.pos.state ≠ .short ∧ s.pos.state ≠ .pendingExit) := by
      rintro ⟨long, short, closing⟩
      exact wipes.elim (fun held => held.elim long short) closing
    simp [step, perform, adoptExternalClose, held]
  | _ => exact wipes.elim

/-- After a call the table holds the orders that were mapped and not wiped. -/
theorem step_listed (live : host.Live) {call : Call}
    (separated : Separated host clientOf inherited seq s)
    (reports : s.ledger.Reports clientOf inherited call.op)
    (listed : ∀ client ∈ d.ordered,
      (s.serverToClientOrders.hasValue client = true ↔ client ∉ d.wiped)) :
    ∀ client ∈ (d.note s.ledger call.op).ordered,
      ((step host s call).serverToClientOrders.hasValue client = true ↔
        client ∉ (d.note s.ledger call.op).wiped) := by
  have stepped := step_refines live s call separated.shape
  have empty (client : String) : ¬(∅ : Table String String).hasValue client = true := by
    rw [Table.hasValue_iff]
    rintro ⟨server, found⟩
    rw [Table.lookup_empty] at found
    exact Option.some_ne_none client found.symm
  have kept (same : (step host s call).serverToClientOrders = s.serverToClientOrders)
      (noted : (d.note s.ledger call.op).ordered = d.ordered ∧
        (d.note s.ledger call.op).wiped = d.wiped) :
      ∀ client ∈ (d.note s.ledger call.op).ordered,
        ((step host s call).serverToClientOrders.hasValue client = true ↔
          client ∉ (d.note s.ledger call.op).wiped) := by
    rw [same, noted.1, noted.2]
    exact listed
  by_cases maps : ∃ client server, call.op = .mapServer client server
  · obtain ⟨client, server, named⟩ := maps
    obtain ⟨now, op⟩ := call
    have op : op = .mapServer client server := named
    subst op
    by_cases blank : client = "" ∨ server = ""
    · refine kept ?_ ?_
      · simp [step, perform, mapServerBasket, blank]
      · simp [Delivery.note, blank]
    · have table : (step host s ⟨now, .mapServer client server⟩).serverToClientOrders =
          s.serverToClientOrders.insert server client := by
        simp only [step, perform, mapServerBasket, blank, ↓reduceIte]
        split
        · rfl
        · rfl
      have own : clientOf server = some client := by
        have given := not_or.mp blank
        exact (reports.resolve_left given.1).resolve_left given.2
      simp only [table, Delivery.note, blank, ↓reduceIte, Finset.mem_insert, Finset.mem_erase,
        not_and_or, not_not]
      intro other inside
      by_cases same : other = client
      · rw [same]
        exact iff_of_true (Table.hasValue_insert _ _ _) (Or.inl rfl)
      · have before := listed other (inside.resolve_left same)
        rw [or_iff_right same, ← before]
        constructor
        · intro found
          obtain ⟨key, found⟩ := (Table.hasValue_iff _ _).mp found
          rw [Table.lookup_insert] at found
          split at found
          · exact absurd (Option.some.inj found).symm same
          · exact (Table.hasValue_iff _ _).mpr ⟨key, found⟩
        · intro found
          exact Ledger.insert_keeps (fun _ _ found => separated.mapped.order found) own
            (Or.inr found)
  · have other (client server : String) : call.op ≠ .mapServer client server :=
      fun named => maps ⟨client, server, named⟩
    by_cases wipes : s.ledger.Wipes call.op
    · rw [wipes_orders live separated.shape wipes, note_wipes wipes]
      exact fun client inside => iff_of_false (empty client) (not_not.mpr inside)
    · exact kept (stepped.orders wipes other) (note_keeps wipes other)

/-- A call that neither maps an order nor wipes the table is not noted. -/
theorem note_idle (keeps : ¬l.Wipes op) (other : Ledger.Maps op = false) : d.note l op = d := by
  cases op with
  | mapServer => exact absurd other Bool.false_ne_true.symm
  | stopServerMapped => exact absurd other Bool.false_ne_true.symm
  | _ => simp [Delivery.note, keeps]

/-- A call that maps nothing delivers no id. -/
theorem note_delivered (other : Ledger.Maps op = false) :
    (d.note l op).ordered = d.ordered ∧ (d.note l op).delivered = d.delivered := by
  cases op with
  | mapServer => exact absurd other Bool.false_ne_true.symm
  | stopServerMapped => exact absurd other Bool.false_ne_true.symm
  | _ =>
    simp only [Delivery.note]
    split
    · exact ⟨rfl, rfl⟩
    · exact ⟨rfl, rfl⟩

theorem note_unwinds (d : Delivery) (l : Ledger) (op : Op) :
    (d.note l op).unwinds = d.unwinds := by
  cases op with
  | _ =>
    simp only [Delivery.note]
    split
    · rfl
    · rfl

/-- Every call keeps the orders that were reported on the book under their server ids. -/
theorem Routable.call (live : host.Live) (ids : ServerIds host clientOf)
    (left : ∀ n, seq ≤ n → host.basketId n ∉ inherited) (call : Call)
    (routable : Routable host clientOf inherited seq s d)
    (foreign : Ledger.Foreign host seq call.op)
    (attested : Attested host clientOf inherited d s call.op) :
    Routable host clientOf inherited seq (step host s call) (d.note s.ledger call.op) := by
  obtain ⟨separated, known, filed, listed, unwound⟩ := routable
  have after := separated.step live ids left foreign attested.reports
  have table := step_listed live separated attested.reports listed
  have unwinds := note_unwinds d s.ledger call.op
  have start : ({ s with outbox := [] } : OrderManager).ledger.Filed host clientOf d.ordered
      d.delivered := filed_of_quiet (t := { s with outbox := [] }) filed rfl
  have bound : ({ s with outbox := [] } : OrderManager).ledger.Mapped clientOf := fun other =>
    ⟨(separated.mapped other).servers, (separated.mapped other).orders,
      (separated.mapped other).stop⟩
  suffices noted : "" ∉ (d.note s.ledger call.op).ordered ∧
      (step host s call).ledger.Filed host clientOf (d.note s.ledger call.op).ordered
        (d.note s.ledger call.op).delivered from
    ⟨after, noted.1, noted.2, table, unwinds ▸ unwound⟩
  have plain (other : Ledger.Maps call.op = false) :
      "" ∉ (d.note s.ledger call.op).ordered ∧
        (step host s call).ledger.Filed host clientOf (d.note s.ledger call.op).ordered
          (d.note s.ledger call.op).delivered := by
    obtain ⟨orders, delivered⟩ := note_delivered (d := d) (l := s.ledger) other
    rw [orders, delivered]
    exact ⟨known, step_filed live ids separated (fun inside => known (filed.reported inside))
      attested.reports attested.seeds other filed⟩
  obtain ⟨now, op⟩ := call
  cases op with
  | mapServer client server =>
    by_cases blank : client = "" ∨ server = ""
    · have silent : step host s ⟨now, .mapServer client server⟩ = { s with outbox := [] } := by
        simp [step, perform, mapServerBasket, blank]
      simp only [silent, Delivery.note, blank, ↓reduceIte]
      exact ⟨known, start⟩
    · have given := not_or.mp blank
      have own : clientOf server = some client :=
        (attested.reports.resolve_left given.1).resolve_left given.2
      have sent : ∀ n, s.seq ≤ n → client ≠ host.basketId n := by
        rintro n later rfl
        rcases attested.accounted with old | unwind | ⟨m, drawn, same⟩
        · exact left n (separated.drawn.trans later) old
        · exact unwound _ unwind n rfl
        · have equal : n = m := host.basketId_injective same
          omega
      simp only [Delivery.note, blank, ↓reduceIte, Finset.mem_insert, not_or]
      exact ⟨⟨fun none => given.1 none.symm, known⟩, mapServer_filed bound blank own sent start⟩
  | stopServerMapped client server =>
    by_cases blank : client = "" ∨ server = ""
    · have silent : step host s ⟨now, .stopServerMapped client server⟩ =
          { s with outbox := [] } := by
        simp [step, perform, onStopServerMapped, blank]
      have same : d.note s.ledger (.stopServerMapped client server) = d := by
        simp only [Delivery.note]
        rw [if_pos (or_assoc.mp (Or.inl blank))]
      simp only [silent, same]
      exact ⟨known, start⟩
    · have given := not_or.mp blank
      have own : clientOf server = some client :=
        (attested.reports.resolve_left given.1).resolve_left given.2
      have filed {reported : Finset String} (fewer : reported ⊆ insert client d.delivered)
          (kept : reported ⊆ d.ordered) :
          (step host s ⟨now, .stopServerMapped client server⟩).ledger.Filed host clientOf
            d.ordered reported :=
        stopServerMapped_filed bound blank own separated.apart.guard fewer kept start
      by_cases before : client ∈ d.ordered
      · have noted : d.note s.ledger (.stopServerMapped client server) =
            { d with delivered := insert client d.delivered } := by
          simp [Delivery.note, given.1, given.2, before]
        simp only [noted]
        exact ⟨known, filed (Finset.Subset.refl _) (Finset.insert_subset before start.reported)⟩
      · have noted : d.note s.ledger (.stopServerMapped client server) = d := by
          simp [Delivery.note, before]
        simp only [noted]
        exact ⟨known, filed (Finset.subset_insert _ _) start.reported⟩
  | _ => exact plain rfl

/-! ## Under which ids the cancels go out -/

/-- Each cancel of an order that was reported goes out under its server id. -/
def Routes (clientOf : String → Option String) (delivered : Finset String) (ids : List String) :
    Prop :=
  ∀ id ∈ ids, orderOf clientOf id ∈ delivered → clientOf id = some (orderOf clientOf id)
deriving Decidable

theorem orderOf_server {id : String} (own : clientOf id = some client) :
    clientOf id = some (orderOf clientOf id) := by
  rw [orderOf, own, Option.getD_some]

theorem orderOf_plain {id : String} (plain : clientOf id = none) : orderOf clientOf id = id := by
  rw [orderOf, plain, Option.getD_none]

/-- The id under which an entry or exit is cancelled is its server id once it is in the
table of orders. -/
theorem cancelIdFor_routes (mapped : s.ledger.Mapped clientOf) (plain : clientOf client = none)
    (listed : client ∈ delivered → s.serverToClientOrders.hasValue client = true)
    (known : orderOf clientOf (s.cancelIdForLocked client) ∈ delivered) :
    clientOf (s.cancelIdForLocked client) =
      some (orderOf clientOf (s.cancelIdForLocked client)) := by
  cases found : s.serverToClientOrders.keyOf? client with
  | none =>
    have same : s.cancelIdForLocked client = client := by
      rw [cancelIdForLocked, found, Option.getD_none]
    rw [same, orderOf_plain plain] at known
    rw [Table.keyOf?_eq_none, listed known] at found
    exact Bool.noConfusion found
  | some server =>
    have same : s.cancelIdForLocked client = server := by
      rw [cancelIdForLocked, found, Option.getD_some]
    rw [same]
    exact orderOf_server (mapped.order (Table.lookup_of_keyOf? found))

/-- The manager cancels every order that was reported under its server id. -/
theorem Routable.routes (ids : ServerIds host clientOf) (call : Call)
    (routable : Routable host clientOf inherited seq s d)
    (reports : s.ledger.Reports clientOf inherited call.op) :
    Routes clientOf d.delivered (cancelsIn (step host s call).outbox) := by
  obtain ⟨separated, known, filed, listed, unwound⟩ := routable
  have mapped := separated.mapped
  have entered : s.pos.basketIdEntry ∈ d.delivered →
      s.serverToClientOrders.hasValue s.pos.basketIdEntry = true := by
    intro inside
    have ordered := filed.reported inside
    exact filed.entry (fun none => known (none ▸ ordered)) ordered
  have exited : s.pos.basketIdExit ∈ d.delivered →
      s.serverToClientOrders.hasValue s.pos.basketIdExit = true := by
    intro inside
    have ordered := filed.reported inside
    exact filed.exit (fun none => known (none ▸ ordered)) ordered
  intro id inside reported
  have entry (named : id = s.cancelIdForLocked s.pos.basketIdEntry) :
      clientOf id = some (orderOf clientOf id) := by
    subst named
    exact cancelIdFor_routes mapped filed.plain entered reported
  have distinct : ({ s with outbox := [] } : OrderManager).Distinct host :=
    distinct_of_shape (separated.shape.congr rfl rfl rfl rfl rfl)
      fun n later => { separated.fresh n later with }
  rcases perform_cancels call { s with outbox := [] } distinct id inside with before | stop | other
  · exact absurd before List.not_mem_nil
  · rcases stop with ⟨stopped, named⟩ | ⟨n, later, rfl⟩
    · simp only at stopped named
      have plain : clientOf s.pos.basketIdStop = none := separated.within.stop.plain ids
      split at named
      next none =>
        subst named
        rw [orderOf_plain plain] at reported
        exact absurd none (filed.stop stopped reported)
      next server =>
        subst named
        exact orderOf_server (Ledger.some_of_getD fun other => (mapped other).stop stopped server)
    · rw [orderOf_plain (ids.own n)] at reported
      exact absurd (filed.reported reported) (filed.unsent n later)
  · obtain ⟨now, op⟩ := call
    cases op with
    | signal sig price dist => exact entry other.2
    | flatten reason price => exact entry other.2
    | entryTimeout secs => exact entry other.2
    | retryStuckExit price =>
      have named : id = s.cancelIdForLocked s.pos.basketIdExit := other.2.2
      subst named
      exact cancelIdFor_routes mapped (separated.within.exit.plain ids) exited reported
    | recancel =>
      rcases other with server | ⟨guarded, unlisted⟩
      · obtain ⟨client, found⟩ := (Table.mem_iff_lookup _ _).mp server
        exact orderOf_server (mapped.server found)
      · have plain : clientOf id = none := separated.apart.clients id guarded
        rw [orderOf_plain plain] at reported
        have kept := filed.guards id guarded reported
        exact absurd (kept.symm.trans unlisted) Bool.false_ne_true.symm
    | stopServerMapped client server =>
      obtain ⟨known, given, rfl⟩ := other
      exact orderOf_server ((reports.resolve_left known).resolve_left given)
    | mapServer client server =>
      obtain ⟨known, given, rfl⟩ := other
      exact orderOf_server ((reports.resolve_left known).resolve_left given)
    | _ => exact other.elim

end OrderManager
end RithmicEngine
