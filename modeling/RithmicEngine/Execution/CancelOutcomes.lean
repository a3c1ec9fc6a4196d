import RithmicEngine.Execution.CancelAttempts
import RithmicEngine.Execution.OpLoop
/-!
# How attempts to cancel are answered

An attempt is answered by a notification with both ids of its order, after which the
order is gone or still working. An order whose cancel was acknowledged is no guard, and
no cancel that is sent again is for it. A guard of the open trade has an attempt without
an answer, or it is the stop again.
-/
namespace RithmicEngine

open Runs OrderManager

variable {host : Host} {clientOf : String → Option String} {inherited : Finset String}

namespace Ledger

/-- None of the orders is the stop, the exit, a guard or on record with a server id. -/
structure FreeOf (gone : String → Prop) (l : Ledger) : Prop where
  stop : ¬gone l.stop
  exit : ¬gone l.exit
  guards : ∀ basket ∈ l.guards, ¬gone basket
  servers : ∀ server client, l.servers.lookup server = some client → ¬gone client

variable {gone : String → Prop}

variable {l : Ledger} {filled : String} {l' : Ledger}

/-- A book that only lost orders. -/
theorem FreeOf.fewer (free : l.FreeOf gone) (blank : ¬gone "")
    (stop : l'.stop = "" ∨ l'.stop = l.stop) (exit : l'.exit = "" ∨ l'.exit = l.exit)
    (guards : ∀ basket ∈ l'.guards, basket ∈ l.guards)
    (servers : ∀ server client, l'.servers.lookup server = some client →
      l.servers.lookup server = some client) :
    l'.FreeOf gone where
  stop := by
    rcases stop with none | same
    · exact none ▸ blank
    · exact same ▸ free.stop
  exit := by
    rcases exit with none | same
    · exact none ▸ blank
    · exact same ▸ free.exit
  guards := fun basket inside => free.guards basket (guards basket inside)
  servers := fun server client found => free.servers server client (servers server client found)

/-- A book on which one more of its orders is filed. -/
theorem FreeOf.file {order : String} {wasBuy : Bool} (free : l.FreeOf gone) (known : ¬gone order)
    (stop : ¬gone l'.stop) (exit : ¬gone l'.exit)
    (guards : l'.guards = l.guards.insert order wasBuy)
    (servers : l'.servers = l.servers ∨ ∃ id, l'.servers = l.servers.insert id order) :
    l'.FreeOf gone where
  stop := stop
  exit := exit
  guards := by
    intro basket inside
    rw [guards, Table.mem_insert] at inside
    rcases inside with rfl | before
    · exact known
    · exact free.guards basket before
  servers := by
    intro server client found
    rcases servers with same | ⟨id, filed⟩
    · exact free.servers server client (same ▸ found)
    · rw [filed, Table.lookup_insert] at found
      split at found
      · exact Option.some.inj found ▸ known
      · exact free.servers server client found

theorem FreeOf.cancelStop (free : l.FreeOf gone) (blank : ¬gone "") :
    (l.cancelStop host).FreeOf gone := by
  refine free.file free.stop blank free.exit rfl ?_
  simp only [Ledger.cancelStop]
  split
  · exact Or.inl rfl
  · exact Or.inr ⟨l.stopServer, rfl⟩

theorem FreeOf.withdrawStop (free : l.FreeOf gone) (blank : ¬gone "") :
    (l.withdrawStop host).FreeOf gone := by
  simp only [Ledger.withdrawStop]
  split
  · exact free
  · exact free.cancelStop blank

/-- A move of the book brings back no order that is gone: the ids it writes are old or drawn
fresh. -/
theorem Move.free (move : Move host l l') (blank : ¬gone "") (placed : ¬gone (host.basketId l.next))
    (free : l.FreeOf gone) : l'.FreeOf gone := by
  have same (server client : String) (found : l.servers.lookup server = some client) :
      l.servers.lookup server = some client := found
  cases move with
  | submitStop => exact ⟨placed, free.exit, free.guards, free.servers⟩
  | sendExit => exact ⟨free.stop, placed, free.guards, free.servers⟩
  | cancelStop => exact free.cancelStop blank
  | guardExit id =>
    refine free.file free.exit free.stop blank rfl ?_
    simp only [Ledger.guardExit]
    split
    · exact Or.inr ⟨id, rfl⟩
    · exact Or.inl rfl
  | enter =>
    exact free.fewer blank (Or.inl rfl) (Or.inl rfl) (fun _ inside => inside) same
  | refuseEntry =>
    exact free.fewer blank (Or.inl rfl) (Or.inl rfl) (fun _ inside => inside) same
  | abandon =>
    exact free.fewer blank (Or.inl rfl) (Or.inl rfl) (fun _ inside => inside) same
  | refuseStop =>
    exact free.fewer blank (Or.inl rfl) (Or.inr rfl) (fun _ inside => inside) same
  | refuseExit =>
    exact free.fewer blank (Or.inr rfl) (Or.inl rfl) (fun _ inside => inside) same
  | recancel =>
    exact free.fewer blank (Or.inr rfl) (Or.inr rfl) (fun _ inside => inside) same

theorem Walk.free (walk : Walk host l l') (blank : ¬gone "")
    (placed : ∀ n, l.next ≤ n → ¬gone (host.basketId n)) (free : l.FreeOf gone) :
    l'.FreeOf gone := by
  induction walk with
  | refl => exact free
  | tail walk move ih => exact move.free blank (placed _ (Walk.next_le walk)) ih

/-- Closing a position leaves the book free of what it is free of once the filled order
was dropped. -/
theorem FreeOf.close (blank : ¬gone "") (free : (l.dropFilled host filled).FreeOf gone) :
    (l.close host filled).FreeOf gone := by
  have settled : ((l.dropFilled host filled).settleStop host filled).FreeOf gone := by
    generalize l.dropFilled host filled = c at free
    simp only [settleStop]
    split_ifs
    · exact free
    · exact free.cancelStop blank
    · exact free.fewer blank (Or.inr rfl) (Or.inr rfl) (fun _ inside => inside)
        (fun _ _ found => found)
  exact settled.fewer blank (Or.inl rfl) (Or.inl rfl)
    (fun _ inside => ((Table.mem_keep _ _ _).mp inside).1) (fun _ _ found => found)

theorem FreeOf.dropFilled (free : l.FreeOf gone) (blank : ¬gone "") :
    (l.dropFilled host filled).FreeOf gone := by
  simp only [Ledger.dropFilled]
  split
  · exact free.fewer blank (Or.inr rfl) (Or.inr rfl)
      (fun _ inside => ((Table.mem_erase _ _ _).mp inside).2)
      (fun server client found => (dropped_value server client found).1)
  · exact free

/-- Nor does a fill bring one back. -/
theorem Filled.free {basket : String} {qty : Int} {isEntry : Bool}
    (filled : Filled host basket qty l isEntry l') (blank : ¬gone "")
    (placed : ¬gone (host.basketId l.next)) (free : l.FreeOf gone) : l'.FreeOf gone := by
  have same {c : Ledger} (stop : c.stop = l.stop) (exit : c.exit = l.exit)
      (guards : c.guards = l.guards) (servers : c.servers = l.servers) : c.FreeOf gone :=
    free.fewer blank (Or.inr stop) (Or.inr exit) (guards ▸ fun _ inside => inside)
      (servers ▸ fun _ _ found => found)
  have fired {c : Ledger} (stop : c.stop = l.stop) (exit : c.exit = l.exit)
      (guards : c.guards = l.guards.erase basket)
      (servers : c.servers = l.servers.dropValue basket) :
      c.FreeOf gone := by
    refine free.fewer blank (Or.inr stop) (Or.inr exit) ?_ ?_
    · rw [guards]
      exact fun _ inside => ((Table.mem_erase _ _ _).mp inside).2
    · rw [servers]
      exact fun server client found => (dropped_value server client found).1
  cases filled with
  | spurious => exact free
  | late => exact same rfl rfl rfl rfl
  | mismatch => exact free
  | partialEntry => exact free
  | entered pending named whole protect =>
    have opened : l.fillEntry.FreeOf gone := same rfl rfl rfl rfl
    exact protect.free blank placed opened
  | lastGuard => exact fired rfl rfl rfl rfl
  | guard => exact fired rfl rfl rfl rfl
  | unwound => exact same rfl rfl rfl rfl
  | unknown => exact same rfl rfl rfl rfl
  | partialExit => exact free
  | closed => exact .close blank (free.dropFilled blank)

/-- The call brings back one of the orders as a guard or with a server id. -/
def BringsBack (gone : String → Prop) : Op → Prop
  | .seedStop basket _ => gone basket
  | .seedServer _ client => gone client
  | _ => False

instance (gone : String → Prop) [DecidablePred gone] (op : Op) :
    Decidable (BringsBack gone op) := by
  induction op using Op.casesOn
  all_goals
    dsimp only [BringsBack]
    infer_instance

/-- No step but a failed cancel brings back an order that the book is free of. -/
theorem Stepped.free {op : Op} (stepped : Stepped host l op l')
    (honest : ∀ id, op ≠ .cancelFailed id) (spared : ¬BringsBack gone op) (blank : ¬gone "")
    (placed : ∀ n, l.next ≤ n → ¬gone (host.basketId n)) (free : l.FreeOf gone) :
    l'.FreeOf gone := by
  have same {c : Ledger} (stop : c.stop = l.stop) (exit : c.exit = l.exit)
      (guards : c.guards = l.guards) (servers : c.servers = l.servers) : c.FreeOf gone :=
    free.fewer blank (Or.inr stop) (Or.inr exit) (guards ▸ fun _ inside => inside)
      (servers ▸ fun _ _ found => found)
  have erased (client basket : String) (inside : basket ∈ l.guards.erase client) :
      basket ∈ l.guards := ((Table.mem_erase _ _ _).mp inside).2
  have mapped {client server : String} (guarded : client ∈ l.guards) (other value : String)
      (found : (l.servers.insert server client).lookup other = some value) : ¬gone value := by
    rw [Table.lookup_insert] at found
    split at found
    · exact Option.some.inj found ▸ free.guards client guarded
    · exact free.servers other value found
  cases stepped with
  | own initiates walk => exact Walk.free walk blank placed free
  | ignored => exact free
  | filled basket price qty isEntry filled =>
    exact filled.free blank (placed _ (Nat.le_refl _)) free
  | rejectedEntry =>
    exact free.fewer blank (Or.inl rfl) (Or.inl rfl) (fun _ inside => inside)
      (fun _ _ found => found)
  | rejectedExit basket closing named walk =>
    have opened : l.reopen.FreeOf gone := ⟨free.stop, blank, free.guards, free.servers⟩
    exact Walk.free walk blank placed opened
  | rejectedStop => exact ⟨blank, free.exit, free.guards, free.servers⟩
  | ackClient client =>
    exact free.fewer blank (Or.inr rfl) (Or.inr rfl) (erased client)
      (fun server client found => (dropped_value server client found).1)
  | ackServer server client found =>
    exact free.fewer blank (Or.inr rfl) (Or.inr rfl) (erased client)
      (fun _ _ found => lookup_of_erase found)
  | readopted id => exact absurd rfl (honest id)
  | mapStop => exact same rfl rfl rfl rfl
  | mapGuard client server effects guarded =>
    exact ⟨free.stop, free.exit, free.guards, mapped guarded⟩
  | mapOrder => exact same rfl rfl rfl rfl
  | mapCancelled => exact same rfl rfl rfl rfl
  | mapCancelledGuard client server effects guarded =>
    exact ⟨free.stop, free.exit, free.guards, mapped guarded⟩
  | setStopServer => exact same rfl rfl rfl rfl
  | externalClose =>
    exact (free.withdrawStop blank).fewer blank (Or.inl rfl) (Or.inl rfl) (fun _ inside => inside)
      (fun _ _ found => found)
  | clearLast => exact same rfl rfl rfl rfl
  | register => exact same rfl rfl rfl rfl
  | confirmFlat => exact same rfl rfl rfl rfl
  | seedStop basket =>
    refine ⟨free.stop, free.exit, ?_, free.servers⟩
    intro other inside
    rcases (Table.mem_insert _ _ _ _).mp inside with rfl | before
    · exact spared
    · exact free.guards other before
  | seedServer server client =>
    refine ⟨free.stop, free.exit, free.guards, ?_⟩
    intro other value found
    simp only [Table.lookup_insert] at found
    split at found
    · exact Option.some.inj found ▸ spared
    · exact free.servers other value found

/-- A complete fill of an order of an open position closes it. -/
theorem Filled.closes {basket : String} {qty : Int} (filled : Filled host basket qty l false l')
    (held : l.Open) (whole : l.qty ≤ qty) : l' = l.close host basket := by
  have busy (idle : l.state = .flat ∨ l.state = .pendingEntry) : False :=
    idle.elim held.states.1 held.states.2.1
  cases filled with
  | lastGuard request idle => exact (busy idle).elim
  | guard request wasBuy idle => exact (busy idle).elim
  | unwound idle => exact (busy idle).elim
  | unknown idle => exact (busy idle).elim
  | partialExit _ part => omega
  | closed => rfl

/-- A closing fill of an order that is no stop leaves it nowhere on the book. -/
theorem close_free (blank : filled ≠ "") (stop : l.stop ≠ filled) (exit : l.exit ≠ filled)
    (inside : filled ∈ l.guards) : (l.close host filled).FreeOf (· = filled) := by
  refine .close (fun same => blank same.symm) ?_
  simp only [Ledger.dropFilled, inside, ↓reduceIte]
  exact ⟨stop, exit, fun basket listed => ((Table.mem_erase _ _ _).mp listed).1,
    fun server client found => (dropped_value server client found).2⟩

end Ledger

namespace OrderManager

/-- What the attempts on orders leave behind: every attempt was on an order that is current
no more, the guards of the trade are covered, and what was acknowledged is gone. -/
structure Tried (host : Host) (clientOf : String → Option String) (inherited : Finset String)
    (seq : Nat) (base answered : List String) (acked : Finset String) (s : OrderManager) :
    Prop where
  separated : Separated host clientOf inherited seq s
  entry : Ledger.Ours host seq s.pos.basketIdEntry
  idle : ∀ order ∈ s.ledger.tries clientOf base, ¬s.Current host order
  waits : ∀ order ∈ s.unmappedOrderCancels, order ∈ s.ledger.tries clientOf base
  covered : s.ledger.Covered clientOf (fun order => ∀ n, seq ≤ n → order ≠ host.basketId n) base
    answered
  known : ∀ order ∈ acked, order ≠ "" ∧ order ∈ s.ledger.tries clientOf base
  free : s.ledger.FreeOf (· ∈ acked)

variable {seq : Nat} {base answered : List String} {acked : Finset String}

variable {s : OrderManager} {order : String}

/-- What is current is the process's own. -/
theorem current_ours (separated : Separated host clientOf inherited seq s)
    (current : s.Current host order) : ∃ n, seq ≤ n ∧ order = host.basketId n := by
  obtain ⟨known, stop | exit | ⟨n, low, named⟩⟩ := current
  · have own : Ledger.Ours host seq s.pos.basketIdStop := separated.within.stop
    exact (stop ▸ own).resolve_left known
  · have own : Ledger.Ours host seq s.pos.basketIdExit := separated.within.exit
    exact (exit ▸ own).resolve_left known
  · exact ⟨n, separated.drawn.trans low, named⟩

/-- Neither a guard, nor a cancel on record, nor one that waits for its server id is of an
order that is current. -/
theorem Tried.spared (left : ∀ n, seq ≤ n → host.basketId n ∉ inherited)
    (tried : Tried host clientOf inherited seq base answered acked s) (order : String)
    (listed : order ∈ s.cancelledStops ∨ order ∈ s.unmappedOrderCancels ∨
      ∃ server, s.serverToClientCancelled.lookup server = some order) :
    ¬s.Current host order := by
  have guard (guarded : order ∈ s.cancelledStops) : ¬s.Current host order := by
    rcases tried.covered.guards order guarded with known | aside
    · exact tried.idle order known
    · intro current
      obtain ⟨n, low, named⟩ := current_ours tried.separated current
      exact aside n low named
  rcases listed with guarded | waits | ⟨server, found⟩
  · exact guard guarded
  · exact tried.idle order (tried.waits order waits)
  · rcases tried.separated.apart.values server order found with guarded | foreign
    · exact guard guarded
    · intro current
      obtain ⟨n, low, named⟩ := current_ours tried.separated current
      exact left n low (named ▸ foreign)

/-- A call that reports no failed cancel and seeds nothing that was acknowledged. -/
theorem Tried.perform (live : host.Live) (ids : ServerIds host clientOf)
    (left : ∀ n, seq ≤ n → host.basketId n ∉ inherited) (call : Call)
    (tried : Tried host clientOf inherited seq base answered acked s)
    (foreign : Ledger.Foreign host seq call.op)
    (reports : s.ledger.Reports clientOf inherited call.op)
    (honest : ∀ id, call.op ≠ .cancelFailed id) (spared : ¬Ledger.BringsBack (· ∈ acked) call.op) :
    Tried host clientOf inherited seq base answered acked (perform host call s) := by
  have separated := tried.separated
  have stepped := perform_refines live s call separated.shape
  have retires := perform_retires live ids call separated tried.entry (tried.spared left) reports
    honest
  have within := separated.within
  have aside (basket : String) (introduced : Ledger.Introduces call.op basket) :
      (∀ n, seq ≤ n → basket ≠ host.basketId n) ∧ s.ledger.guardTrade.lookup basket = none := by
    have other (n : Nat) (low : seq ≤ n) : basket ≠ host.basketId n := by
      rintro rfl
      exact foreign n low introduced
    refine ⟨other, (Table.lookup_eq_none _ _).mpr fun inside => ?_⟩
    obtain ⟨known, own⟩ := within.trade basket inside
    obtain ⟨n, low, named⟩ := own.resolve_left known
    exact other n low named
  have covered := stepped.covered separated.mapped ids (within.plain ids) aside tried.covered
  have longer (order : String) (known : order ∈ s.ledger.tries clientOf base) :
      order ∈ (OrderManager.perform host call s).ledger.tries clientOf base := by
    have positive := List.count_pos_iff.mpr known
    exact List.count_pos_iff.mp (positive.trans_le
      (Ledger.tries_le stepped.longer clientOf base order))
  have blank : "" ∉ acked := fun inside => (tried.known "" inside).1 rfl
  have placed (n : Nat) (low : s.seq ≤ n) : host.basketId n ∉ acked := by
    intro inside
    have known := tried.known _ inside
    exact tried.idle _ known.2 ⟨known.1, Or.inr (Or.inr ⟨n, low, rfl⟩)⟩
  exact {
    separated := separated.perform live ids left foreign reports
    entry := stepped.entry_ours separated.drawn tried.entry
    idle := by
      intro order known current
      rcases List.mem_append.mp known with before | sent
      · exact tried.idle order (List.mem_append_left _ before) (retires.current order current)
      · obtain ⟨id, inside, named⟩ := List.mem_map.mp sent
        rcases retires.gone id inside with earlier | gone
        · exact tried.idle order (List.mem_append_right _ (List.mem_map.mpr ⟨id, earlier, named⟩))
            (retires.current order current)
        · exact gone (named ▸ current)
    waits := by
      intro order inside
      rcases retires.waits order inside with before | sent
      · exact longer order (tried.waits order before)
      · exact List.mem_append_right _ sent
    covered := covered
    known := fun order inside => (tried.known order inside).imp_right (longer order)
    free := stepped.free honest spared blank placed tried.free }

/-- An answer is counted: the order still has an attempt without one, if it guards the
trade. -/
theorem Tried.answer (tried : Tried host clientOf inherited seq base answered acked s)
    (open_ : answered.count order < (s.ledger.tries clientOf base).count order)
    (left : s.ledger.Open ∨ s.ledger.state = .pendingExit → order ∈ s.ledger.guards →
      s.ledger.guardTrade.lookup order = some s.ledger.trade →
        answered.count order + 1 < (s.ledger.tries clientOf base).count order) :
    Tried host clientOf inherited seq base (order :: answered) acked s where
  separated := tried.separated
  entry := tried.entry
  idle := tried.idle
  waits := tried.waits
  known := tried.known
  free := tried.free
  covered := by
    refine ⟨tried.covered.guards, ?_, tried.covered.old, tried.covered.entering, ?_⟩
    · intro other
      by_cases same : order = other
      · subst same
        rw [List.count_cons_self]
        exact open_
      · rw [List.count_cons_of_ne same]
        exact tried.covered.tried other
    · intro busy other inside found
      by_cases same : order = other
      · subst same
        rw [List.count_cons_self]
        exact left busy inside found
      · rw [List.count_cons_of_ne same]
        exact tried.covered.held busy other inside found

/-- An acknowledgement is noted of an order that is gone. -/
theorem Tried.acknowledge (tried : Tried host clientOf inherited seq base answered acked s)
    (known : order ≠ "") (sent : order ∈ s.ledger.tries clientOf base)
    (unguarded : order ∉ s.cancelledStops)
    (unlisted : ∀ server, s.serverToClientCancelled.lookup server ≠ some order) :
    Tried host clientOf inherited seq base answered (insert order acked) s where
  separated := tried.separated
  entry := tried.entry
  idle := tried.idle
  waits := tried.waits
  covered := tried.covered
  known := by
    intro other inside
    rcases Finset.mem_insert.mp inside with rfl | before
    · exact ⟨known, sent⟩
    · exact tried.known other before
  free := by
    have gone := tried.idle order sent
    have other {basket : String} (apart : basket ≠ order) (free : basket ∉ acked) :
        basket ∉ insert order acked := by
      rw [Finset.mem_insert, not_or]
      exact ⟨apart, free⟩
    refine ⟨other ?_ tried.free.stop, other ?_ tried.free.exit, ?_, ?_⟩
    · intro same
      exact gone ⟨known, Or.inl same.symm⟩
    · intro same
      exact gone ⟨known, Or.inr (Or.inl same.symm)⟩
    · intro basket inside
      refine other ?_ (tried.free.guards basket inside)
      rintro rfl
      exact unguarded inside
    · intro server client found
      refine other ?_ (tried.free.servers server client found)
      rintro rfl
      exact unlisted server found

end OrderManager

namespace OpLoop

inductive Answer
  | acked
  | refused
  deriving DecidableEq

/-- How a 351 notification answers a cancel, if it does. -/
def OrderNotice.answer (notice : OrderNotice) : Option Answer :=
  if notice.notifyType = 17 ∨ notice.status = "Cancellation Failed" then some .refused
  else if notice.notifyType = 3 then some .acked
  else none

/-- The notification is a complete fill, not yet booked, of the stop or of a guard of the
open trade. -/
def FillsAll (notice : OrderNotice) (om : OrderManager) : Prop :=
  om.isStopBasket notice.userTag = true ∧
    (om.processedFillQty.lookup notice.userTag).getD 0 < notice.totalFillSize ∧
    om.pos.qty ≤ notice.totalFillSize
deriving Decidable

/-- An acknowledged cancel is recognised, or nothing is on record that it would clear. -/
def Clears (notice : OrderNotice) (om : OrderManager) : Prop :=
  notice.totalFillSize ≤ 0 ∨
    (notice.userTag ∉ om.cancelledStops ∧
      om.serverToClientCancelled.hasValue notice.userTag = false) ∨
    FillsAll notice om
deriving Decidable

/-- The order is no guard of the trade, another attempt on it is under way or sent at
once, or the order filled. -/
def Spared (tried answered : Nat) (notice : OrderNotice) (om : OrderManager) : Prop :=
  ¬((om.inTrade = true ∨ om.pos.state = .pendingExit) ∧ notice.userTag ∈ om.cancelledStops ∧
      om.cancelledStopTrade.lookup notice.userTag = some om.tradeSeq) ∨
    answered + 1 < tried ∨
    notice.userTag ∈ om.unmappedOrderCancels ∨
    om.serverToClientCancelled.lookup notice.basketId ≠ some notice.userTag ∨
    (0 < notice.totalFillSize ∧ FillsAll notice om)
deriving Decidable

/-! ## What a notification with both ids does first -/

/-- The manager after both tables were told the server id. -/
def mapped (host : Host) (tag basket : String) (om : OrderManager) : OrderManager :=
  onStopServerMapped host tag basket (mapServerBasket host tag basket om)

/-- Noting a server id attributes no fill. -/
theorem mapped_same (host : Host) (tag basket : String) (om : OrderManager) :
    attribution (mapped host tag basket om) = attribution om ∧
      (mapped host tag basket om).processedFillQty = om.processedFillQty := by
  constructor
  · exact (onStopServerMapped_attribution host tag basket _).trans
      (mapServerBasket_attribution host tag basket om)
  · simp only [mapped, onStopServerMapped, mapServerBasket]
    split_ifs
    all_goals rfl

/-- Afterwards the cancel of a guard is on record under its server id. -/
theorem mapped_guard {tag basket : String} {om : OrderManager} (known : tag ≠ "")
    (given : basket ≠ "") (apart : tag ≠ om.pos.basketIdStop) (guarded : tag ∈ om.cancelledStops) :
    (mapped host tag basket om).serverToClientCancelled.lookup basket = some tag := by
  have same := mapServerBasket_attribution host tag basket om
  simp only [mapped]
  generalize mapServerBasket host tag basket om = c at same ⊢
  simp only [attribution, Prod.mk.injEq] at same
  obtain ⟨position, guards, _⟩ := same
  have other : ¬(c.pos.basketIdStop ≠ "" ∧ tag = c.pos.basketIdStop) := by
    rw [position]
    exact fun current => apart current.2
  have inside : ¬tag ∉ c.cancelledStops := by
    rw [guards]
    exact not_not.mpr guarded
  simp only [onStopServerMapped, known, given, or_self, other, inside, ↓reduceIte]
  split
  next filed => exact filed
  next => simp

/-- An order that is no guard gets no cancel on record. -/
theorem mapped_other {tag basket : String} {om : OrderManager}
    (unguarded : tag ∉ om.cancelledStops) :
    (mapped host tag basket om).serverToClientCancelled = om.serverToClientCancelled := by
  have first : (mapServerBasket host tag basket om).serverToClientCancelled =
      om.serverToClientCancelled := by
    simp only [mapServerBasket, unguarded, decide_false, Bool.false_eq_true, ↓reduceIte]
    split_ifs
    all_goals rfl
  have same := mapServerBasket_attribution host tag basket om
  simp only [mapped]
  rw [← first]
  generalize mapServerBasket host tag basket om = c at same ⊢
  simp only [attribution, Prod.mk.injEq] at same
  rw [← same.2.1] at unguarded
  simp only [onStopServerMapped, unguarded, not_false_eq_true, ↓reduceIte]
  split_ifs
  all_goals rfl

/-- A mapped stop only adds to what was sent. -/
theorem onStopServerMapped_longer (client server : String) (om : OrderManager) :
    om.outbox <+: (onStopServerMapped host client server om).outbox := by
  simp only [onStopServerMapped]
  split_ifs
  · exact List.prefix_refl _
  · exact List.prefix_append _ _
  · exact List.prefix_refl _
  · exact List.prefix_refl _
  · exact (List.prefix_append _ _).trans (List.prefix_append _ _)
  · exact List.prefix_refl _

theorem mapServerBasket_longer (client server : String) (om : OrderManager) :
    om.outbox <+: (mapServerBasket host client server om).outbox := by
  simp only [mapServerBasket]
  split_ifs
  · exact List.prefix_refl _
  · exact List.prefix_append _ _
  · exact List.prefix_append _ _
  · exact List.prefix_refl _

/-- Noting a server id takes no attempt back. -/
theorem mapped_longer (tag basket : String) (om : OrderManager)
    (clientOf : String → Option String) (base : List String) (order : String) :
    (om.ledger.tries clientOf base).count order ≤
      ((mapped host tag basket om).ledger.tries clientOf base).count order :=
  Ledger.tries_le ((mapServerBasket_longer tag basket om).trans (onStopServerMapped_longer _ _ _))
    clientOf base order

/-- The first report of a guard's server id, and the first since it was cancelled as an
entry or exit, sends the cancel again. -/
theorem mapped_again (live : host.Live) {tag basket : String} {om : OrderManager}
    (known : tag ≠ "") (given : basket ≠ "") (own : clientOf basket = some tag)
    (apart : tag ≠ om.pos.basketIdStop) (guarded : tag ∈ om.cancelledStops)
    (first : tag ∈ om.unmappedOrderCancels ∨
      om.serverToClientCancelled.lookup basket ≠ some tag) (base : List String) :
    (om.ledger.tries clientOf base).count tag + 1 ≤
      ((mapped host tag basket om).ledger.tries clientOf base).count tag := by
  have names : orderOf clientOf basket = tag := by rw [orderOf, own, Option.getD_some]
  have more {c : OrderManager} (sent : cancelsIn c.outbox = cancelsIn om.outbox ++ [basket]) :
      (om.ledger.tries clientOf base).count tag + 1 ≤ (c.ledger.tries clientOf base).count tag := by
    have tries : c.ledger.tries clientOf base = om.ledger.tries clientOf base ++ [tag] := by
      simp only [Ledger.tries, ledger, triedIn, sent, List.map_append, List.map_singleton, names,
        List.append_assoc]
    rw [tries, List.count_append, List.count_singleton_self]
  have notice : host.cancelNotice basket = [.cancel basket] := by
    simp [Host.cancelNotice, live.cancels]
  have same := mapServerBasket_attribution host tag basket om
  by_cases waits : tag ∈ om.unmappedOrderCancels
  · have sent : (mapServerBasket host tag basket om).outbox = om.outbox ++ [.cancel basket] := by
      simp [mapServerBasket, known, given, waits, notice]
    have asked : cancelsIn (mapServerBasket host tag basket om).outbox =
        cancelsIn om.outbox ++ [basket] := by
      rw [sent, cancelsIn_append, cancelsIn_cancel]
    exact (more asked).trans (Ledger.tries_le (onStopServerMapped_longer _ _ _) clientOf base tag)
  · have kept : (mapServerBasket host tag basket om).outbox = om.outbox ∧
        (mapServerBasket host tag basket om).serverToClientCancelled =
          om.serverToClientCancelled := by
      simp [mapServerBasket, known, given, waits]
    refine more ?_
    simp only [mapped]
    rw [← kept.1]
    rw [← kept.2] at first
    generalize mapServerBasket host tag basket om = c at same first ⊢
    simp only [attribution, Prod.mk.injEq] at same
    obtain ⟨position, guards, _⟩ := same
    have other : ¬(c.pos.basketIdStop ≠ "" ∧ tag = c.pos.basketIdStop) := by
      rw [position]
      exact fun current => apart current.2
    have inside : ¬tag ∉ c.cancelledStops := by
      rw [guards]
      exact not_not.mpr guarded
    simp [onStopServerMapped, known, given, other, inside, first.resolve_left waits, notice]

/-! ## One notification -/

variable {seq : Nat} {base answered : List String} {acked : Finset String}

/-- Calls that neither seed nor map nor report a failed cancel. -/
def Ordinary : Op → Prop
  | .fill _ _ _ _ | .fillProcessed _ _ | .rejected _ | .cancelConfirmed _ => True
  | _ => False

variable {om : OrderManager}

/-- An ordinary operation keeps the record of attempts. -/
theorem tried_ordinary (live : host.Live) (ids : ServerIds host clientOf)
    (left : ∀ n, seq ≤ n → host.basketId n ∉ inherited) (call : Call) (ordinary : Ordinary call.op)
    (tried : Tried host clientOf inherited seq base answered acked om) :
    Tried host clientOf inherited seq base answered acked (perform host call om) := by
  obtain ⟨now, op⟩ := call
  cases op with
  | fill basket price qty isEntry =>
    exact tried.perform live ids left _ (Ledger.foreign_of_not_brings rfl) trivial
      (fun _ clash => nomatch clash) id
  | fillProcessed basket qty =>
    exact tried.perform live ids left _ (Ledger.foreign_of_not_brings rfl) trivial
      (fun _ clash => nomatch clash) id
  | rejected basket =>
    exact tried.perform live ids left _ (Ledger.foreign_of_not_brings rfl) trivial
      (fun _ clash => nomatch clash) id
  | cancelConfirmed basket =>
    exact tried.perform live ids left _ (Ledger.foreign_of_not_brings rfl) trivial
      (fun _ clash => nomatch clash) id
  | _ => exact ordinary.elim

/-- So does learning a server id. -/
theorem tried_mapped (live : host.Live) (ids : ServerIds host clientOf)
    (left : ∀ n, seq ≤ n → host.basketId n ∉ inherited) {tag basket : String}
    (reports : tag = "" ∨ basket = "" ∨ clientOf basket = some tag)
    (tried : Tried host clientOf inherited seq base answered acked om) :
    Tried host clientOf inherited seq base answered acked (mapped host tag basket om) := by
  have ordered : Tried host clientOf inherited seq base answered acked
      (mapServerBasket host tag basket om) :=
    tried.perform live ids left ⟨0, .mapServer tag basket⟩ (Ledger.foreign_of_not_brings rfl)
      reports (fun _ clash => nomatch clash) id
  exact ordered.perform live ids left ⟨0, .stopServerMapped tag basket⟩
    (Ledger.foreign_of_not_brings rfl) reports (fun _ clash => nomatch clash) id

/-- A fill, whoever owns it, is a few ordinary calls. -/
theorem tried_filled (live : host.Live) (ids : ServerIds host clientOf)
    (left : ∀ n, seq ≤ n → host.basketId n ∉ inherited) (now : Int) (lastPrice : ℚ)
    (notice : OrderNotice) (tried : Tried host clientOf inherited seq base answered acked om) :
    Tried host clientOf inherited seq base answered acked
      (orderFill host now lastPrice notice om).manager := by
  have asked (basket : String) (qty : Int) {c : OrderManager}
      (tried : Tried host clientOf inherited seq base answered acked c) :
      Tried host clientOf inherited seq base answered acked
        (fillAlreadyProcessed basket qty c).1 :=
    tried_ordinary live ids left ⟨now, .fillProcessed basket qty⟩ trivial tried
  have booked (basket : String) (price : ℚ) (qty : Int) (isEntry : Bool) {c : OrderManager}
      (tried : Tried host clientOf inherited seq base answered acked c) :
      Tried host clientOf inherited seq base answered acked
        (onFillNotificationLocked host now basket price qty isEntry c) :=
    tried_ordinary live ids left ⟨now, .fill basket price qty isEntry⟩ trivial tried
  simp only [orderFill]
  split_ifs
  · have first := asked notice.userTag notice.totalFillSize tried
    simp only [ownedFill]
    split
    · exact first
    · exact booked _ _ _ _ first
  · have again {c : OrderManager}
      (tried : Tried host clientOf inherited seq base answered acked c) :
        Tried host clientOf inherited seq base answered acked
          (Notif.unownedFillIsDuplicate notice.userTag notice.basketId notice.totalFillSize c).1 :=
      asked _ _ tried
    have first := again tried
    have second := again first
    simp only [unownedFill]
    split
    · exact first
    · simp only [Notif.handleUnownedFill]
      split_ifs
      · exact first
      · exact second
      · exact booked (Notif.fillKey notice.userTag notice.basketId) _ _ false second
      · exact second
  · exact tried

/-- The stop, or a guard of an open trade, belongs to an open position. -/
theorem open_of_stopBasket {tag : String} (shape : om.ledger.Shape)
    (stops : om.isStopBasket tag = true) : om.ledger.Open := by
  simp only [isStopBasket] at stops
  split at stops
  next current => exact shape.open_of_stop current.1
  next =>
    split at stops
    next held => exact (inTrade_iff om).mp held
    next => exact absurd stops Bool.false_ne_true

/-- A complete fill of a guard closes the position. -/
theorem orderFill_closes (live : host.Live) (now : Int) (lastPrice : ℚ) (notice : OrderNotice)
    (shape : om.ledger.Shape) (fills : FillsAll notice om) :
    (orderFill host now lastPrice notice om).manager.ledger =
      om.ledger.close host notice.userTag := by
  obtain ⟨stops, unseen, whole⟩ := fills
  have held := open_of_stopBasket shape stops
  have owned : owns notice.userTag om = true := by
    simp [owns, stops]
  obtain ⟨c, cIs⟩ : ∃ c : OrderManager, c = { om with
    processedFillQty := om.processedFillQty.insert notice.userTag notice.totalFillSize } := ⟨_, rfl⟩
  have asked : fillAlreadyProcessed notice.userTag notice.totalFillSize om = (c, false) := by
    simp [fillAlreadyProcessed, Int.not_le.mpr unseen, cIs]
  have same : c.ledger = om.ledger := by
    rw [cIs]
    rfl
  have stepped := perform_refines live c
    ⟨now, .fill notice.userTag (notice.fillPx lastPrice) notice.totalFillSize false⟩ (same ▸ shape)
  rw [same] at stepped
  have filled : (orderFill host now lastPrice notice om).manager =
      perform host
        ⟨now, .fill notice.userTag (notice.fillPx lastPrice) notice.totalFillSize false⟩ c := by
    simp [orderFill, owned, ownedFill, stops, asked, perform]
  rw [filled]
  exact stepped.isFilled.closes held whole

theorem fillsAll_congr {notice : OrderNotice} {c : OrderManager}
    (same : attribution c = attribution om ∧ c.processedFillQty = om.processedFillQty)
    (fills : FillsAll notice om) : FillsAll notice c := by
  cases om
  cases c
  simp only [attribution, Prod.mk.injEq] at same
  obtain ⟨⟨rfl, rfl, rfl, rfl⟩, rfl⟩ := same
  exact fills

/-- A refusal that names a client id leaves the manager alone, once the cancel of a guard
is on record under its server id. -/
theorem onCancelFailed_mapped {om : OrderManager} {tag : String}
    (servers : om.ledger.Mapped clientOf) (plain : clientOf tag = none)
    (listed : tag ∈ om.cancelledStops → om.serverToClientCancelled.hasValue tag = true) :
    onCancelFailed host tag om = om := by
  have unlisted : om.serverToClientCancelled.lookup tag = none := by
    cases found : om.serverToClientCancelled.lookup tag with
    | none => rfl
    | some client =>
      have own : clientOf tag = some client := servers.server found
      rw [plain] at own
      exact nomatch own
  by_cases guarded : tag ∈ om.cancelledStops
  · simp [onCancelFailed, unlisted, guarded, listed guarded]
  · simp [onCancelFailed, unlisted, guarded]

/-- After a complete fill of the guard there is no position, and nothing is on record of
the order. -/
theorem tried_closed (live : host.Live) (now : Int) (lastPrice : ℚ) (notice : OrderNotice)
    (tried : Tried host clientOf inherited seq base answered acked om) (known : notice.userTag ≠ "")
    (sent : notice.userTag ∈ om.ledger.tries clientOf base) (fills : FillsAll notice om) :
    (orderFill host now lastPrice notice om).manager.ledger.state = .flat ∧
      (orderFill host now lastPrice notice om).manager.ledger.FreeOf (· = notice.userTag) ∧
      ∀ order, (om.ledger.tries clientOf base).count order ≤
        ((orderFill host now lastPrice notice om).manager.ledger.tries clientOf base).count
          order := by
  have gone := tried.idle _ sent
  have stop : om.pos.basketIdStop ≠ notice.userTag := fun same => gone ⟨known, Or.inl same.symm⟩
  have exit : om.pos.basketIdExit ≠ notice.userTag :=
    fun same => gone ⟨known, Or.inr (Or.inl same.symm)⟩
  have inside : notice.userTag ∈ om.cancelledStops := by
    have stops := fills.1
    simp only [isStopBasket, stop, and_false, ↓reduceIte] at stops
    split at stops
    · exact of_decide_eq_true (Bool.and_eq_true_iff.mp stops).2
    · exact absurd stops Bool.false_ne_true
  have closed := orderFill_closes live now lastPrice notice tried.separated.shape fills
  rw [closed]
  exact ⟨rfl, Ledger.close_free known stop exit inside,
    Ledger.tries_le (Ledger.close_longer om.ledger notice.userTag) clientOf base⟩

theorem flat_idle {l : Ledger} (flat : l.state = .flat) : ¬(l.Open ∨ l.state = .pendingExit) := by
  rw [Ledger.Open, flat]
  decide

/-- A refusal keeps the guards covered where the order is spared. -/
theorem tried_refused (live : host.Live) (ids : ServerIds host clientOf)
    (left : ∀ n, seq ≤ n → host.basketId n ∉ inherited) (now : Int) (lastPrice : ℚ)
    (notice : OrderNotice) (tried : Tried host clientOf inherited seq base answered acked om)
    (refused : notice.notifyType = 17 ∨ notice.status = "Cancellation Failed")
    (known : notice.userTag ≠ "") (given : notice.basketId ≠ "")
    (own : clientOf notice.basketId = some notice.userTag) (plain : clientOf notice.userTag = none)
    (open_ : answered.count notice.userTag < (om.ledger.tries clientOf base).count notice.userTag)
    (spared : Spared ((om.ledger.tries clientOf base).count notice.userTag)
      (answered.count notice.userTag) notice om) :
    Tried host clientOf inherited seq base (notice.userTag :: answered) acked
      (orderNotice host now lastPrice notice om).manager := by
  have sent : notice.userTag ∈ om.ledger.tries clientOf base :=
    List.count_pos_iff.mp (Nat.zero_lt_of_lt open_)
  have apart : notice.userTag ≠ om.pos.basketIdStop :=
    fun same => tried.idle _ sent ⟨known, Or.inl same⟩
  have mine : Tried host clientOf inherited seq base answered acked
      (mapped host notice.userTag notice.basketId om) :=
    tried_mapped live ids left (Or.inr (Or.inr own)) tried
  have same := mapped_same host notice.userTag notice.basketId om
  have guard := @mapped_guard host notice.userTag notice.basketId om known given apart
  have again (guarded) (first) :=
    @mapped_again host clientOf live notice.userTag notice.basketId om known given own apart guarded
      first base
  have longer := @mapped_longer host notice.userTag notice.basketId om clientOf base
    notice.userTag
  have fills (fills : FillsAll notice om) := fillsAll_congr same fills
  have shown : (orderNotice host now lastPrice notice om).manager =
      if notice.totalFillSize > 0 then
        (orderFill host now lastPrice notice
          (mapped host notice.userTag notice.basketId om)).manager
      else
        onCancelFailed host notice.userTag (mapped host notice.userTag notice.basketId om) := by
    simp only [orderNotice, Notif.handleCancelNotification, refused, known, ne_eq,
      not_false_eq_true, ↓reduceIte, mapped]
    split
    · rfl
    · rfl
  rw [shown]
  generalize mapped host notice.userTag notice.basketId om = c at mine same guard again longer fills
  simp only [attribution, Prod.mk.injEq] at same
  obtain ⟨⟨position, guards, trades, trade⟩, _⟩ := same
  have unanswered : answered.count notice.userTag <
      (c.ledger.tries clientOf base).count notice.userTag := open_.trans_le longer
  -- Counted before a fill is booked, unless it is the fill that spares the order.
  have counted (roomy : c.ledger.Open ∨ c.ledger.state = .pendingExit →
      notice.userTag ∈ c.cancelledStops →
      c.cancelledStopTrade.lookup notice.userTag = some c.tradeSeq →
      answered.count notice.userTag + 1 < (c.ledger.tries clientOf base).count notice.userTag) :
      Tried host clientOf inherited seq base (notice.userTag :: answered) acked
        (if notice.totalFillSize > 0 then (orderFill host now lastPrice notice c).manager
          else onCancelFailed host notice.userTag c) := by
    have after := mine.answer unanswered roomy
    split
    · exact tried_filled live ids left now lastPrice notice after
    · have kept := @onCancelFailed_mapped host clientOf c notice.userTag mine.separated.mapped plain
        (fun inside => (Table.hasValue_iff _ _).mpr ⟨notice.basketId, guard (guards ▸ inside)⟩)
      rw [kept]
      exact after
  rcases spared with unguarded | more | waits | unfiled | ⟨filled, whole⟩
  · refine counted fun busy inside found => absurd ⟨?_, guards ▸ inside, ?_⟩ unguarded
    · have same : c.ledger.state = om.ledger.state := congrArg Position.state position
      rw [Ledger.Open, same] at busy
      rw [inTrade_iff]
      exact busy
    · rw [← trades, ← trade]
      exact found
  · exact counted fun _ _ _ => more.trans_le longer
  · refine counted fun _ inside _ => ?_
    exact (Nat.add_lt_add_right open_ 1).trans_le (again (guards ▸ inside) (Or.inl waits))
  · refine counted fun _ inside _ => ?_
    exact (Nat.add_lt_add_right open_ 1).trans_le (again (guards ▸ inside) (Or.inr unfiled))
  · rw [if_pos filled]
    have listed : notice.userTag ∈ c.ledger.tries clientOf base :=
      List.count_pos_iff.mp (Nat.zero_lt_of_lt unanswered)
    obtain ⟨flat, _, sent⟩ := tried_closed live now lastPrice notice mine known listed (fills whole)
    have booked := tried_filled live ids left now lastPrice notice mine
    refine booked.answer (unanswered.trans_le (sent notice.userTag)) fun busy => ?_
    exact absurd busy (flat_idle flat)

/-- An acknowledgement clears the order where it is recognised. -/
theorem tried_acked (live : host.Live) (ids : ServerIds host clientOf)
    (left : ∀ n, seq ≤ n → host.basketId n ∉ inherited) (now : Int) (lastPrice : ℚ)
    (notice : OrderNotice) (tried : Tried host clientOf inherited seq base answered acked om)
    (accepted : ¬(notice.notifyType = 17 ∨ notice.status = "Cancellation Failed"))
    (cancels : notice.notifyType = 3) (known : notice.userTag ≠ "")
    (own : clientOf notice.basketId = some notice.userTag)
    (open_ : answered.count notice.userTag < (om.ledger.tries clientOf base).count notice.userTag)
    (clears : Clears notice om) :
    Tried host clientOf inherited seq base (notice.userTag :: answered)
      (insert notice.userTag acked) (orderNotice host now lastPrice notice om).manager := by
  have mine : Tried host clientOf inherited seq base answered acked
      (mapped host notice.userTag notice.basketId om) :=
    tried_mapped live ids left (Or.inr (Or.inr own)) tried
  have same := mapped_same host notice.userTag notice.basketId om
  have other (unguarded : notice.userTag ∉ om.cancelledStops) :=
    @mapped_other host notice.userTag notice.basketId om unguarded
  have longer := @mapped_longer host notice.userTag notice.basketId om clientOf base
    notice.userTag
  have fills (fills : FillsAll notice om) := fillsAll_congr same fills
  have shown : (orderNotice host now lastPrice notice om).manager =
      if notice.totalFillSize > 0 then
        (orderFill host now lastPrice notice
          (mapped host notice.userTag notice.basketId om)).manager
      else
        onCancelConfirmed host notice.userTag (mapped host notice.userTag notice.basketId om) := by
    rw [cancels] at accepted
    simp only [orderNotice, cancels, accepted, known, ne_eq, not_false_eq_true, ↓reduceIte, mapped]
    split
    · rfl
    · rfl
  rw [shown]
  generalize mapped host notice.userTag notice.basketId om = c at mine same other longer fills
  simp only [attribution, Prod.mk.injEq] at same
  obtain ⟨⟨_, guards, _⟩, _⟩ := same
  have unanswered : answered.count notice.userTag <
      (c.ledger.tries clientOf base).count notice.userTag := open_.trans_le longer
  -- Nothing is on record of the order: the answer is counted and the acknowledgement noted.
  have cleared {d : OrderManager} (after : Tried host clientOf inherited seq base answered acked d)
      (sent : (c.ledger.tries clientOf base).count notice.userTag ≤
        (d.ledger.tries clientOf base).count notice.userTag)
      (unguarded : notice.userTag ∉ d.cancelledStops)
      (unlisted : ∀ server, d.serverToClientCancelled.lookup server ≠ some notice.userTag) :
      Tried host clientOf inherited seq base (notice.userTag :: answered)
        (insert notice.userTag acked) d := by
    have room := unanswered.trans_le sent
    have counted := after.answer room fun _ inside => absurd inside unguarded
    exact counted.acknowledge known (List.count_pos_iff.mp (Nat.zero_lt_of_lt room)) unguarded
      unlisted
  by_cases filled : notice.totalFillSize > 0
  · rw [if_pos filled]
    rcases clears with none | ⟨unguarded, unlisted⟩ | whole
    · exact absurd none (Int.not_le.mpr filled)
    · have bare := cleared mine (Nat.le_refl _) (guards ▸ unguarded) fun server found => by
        rw [other unguarded] at found
        have listed := (Table.hasValue_iff _ _).mpr ⟨server, found⟩
        exact Bool.false_ne_true (unlisted.symm.trans listed)
      exact tried_filled live ids left now lastPrice notice bare
    · have listed : notice.userTag ∈ c.ledger.tries clientOf base :=
        List.count_pos_iff.mp (Nat.zero_lt_of_lt unanswered)
      obtain ⟨_, free, sent⟩ :=
        tried_closed live now lastPrice notice mine known listed (fills whole)
      have booked := tried_filled live ids left now lastPrice notice mine
      exact cleared booked (sent _) (fun inside => free.guards _ inside rfl)
        (fun server found => free.servers server _ found rfl)
  · rw [if_neg filled]
    have after := tried_ordinary live ids left ⟨now, .cancelConfirmed notice.userTag⟩ trivial mine
    refine cleared after (Ledger.tries_le (List.prefix_append _ _) clientOf base _) ?_ ?_
    · exact fun inside => ((Table.mem_erase _ _ _).mp inside).1 rfl
    · exact fun server found => (Ledger.dropped_value server _ found).2 rfl

/-- A notification that answers nothing. -/
theorem tried_unanswering (live : host.Live) (ids : ServerIds host clientOf)
    (left : ∀ n, seq ≤ n → host.basketId n ∉ inherited) (now : Int) (lastPrice : ℚ)
    (notice : OrderNotice) (tried : Tried host clientOf inherited seq base answered acked om)
    (accepted : ¬(notice.notifyType = 17 ∨ notice.status = "Cancellation Failed"))
    (working : notice.notifyType ≠ 3)
    (reports : notice.userTag = "" ∨ notice.basketId = "" ∨
      clientOf notice.basketId = some notice.userTag) :
    Tried host clientOf inherited seq base answered acked
      (orderNotice host now lastPrice notice om).manager := by
  have mine : Tried host clientOf inherited seq base answered acked
      (mapped host notice.userTag notice.basketId om) := tried_mapped live ids left reports tried
  simp only [mapped] at mine
  simp only [orderNotice]
  generalize onStopServerMapped host notice.userTag notice.basketId
    (mapServerBasket host notice.userTag notice.basketId om) = c at mine
  split
  · exact tried_filled live ids left now lastPrice notice mine
  · split
    · dsimp only
      split
      · exact tried_ordinary live ids left ⟨now, .rejected notice.userTag⟩ trivial mine
      · exact mine
    · exact mine

/-! ## Every run -/

/-- The manager with the orders tried before the last event, in the order of the attempts,
the orders of the answers so far, and those acknowledged. -/
structure Outcomes where
  om : OrderManager
  earlier : List String := []
  answered : List String := []
  acked : Finset String := ∅

/-- Every attempt so far. -/
def Outcomes.tried (clientOf : String → Option String) (x : Outcomes) : List String :=
  x.om.ledger.tries clientOf x.earlier

/-- A call of another thread, or a notification that the receive loop handles. -/
inductive Turn
  | call (call : Call)
  | notice (now : Int) (lastPrice : ℚ) (notice : OrderNotice)

def Outcomes.take (host : Host) (clientOf : String → Option String) (x : Outcomes) :
    Turn → Outcomes
  | .call call => { x with om := step host x.om call, earlier := x.tried clientOf }
  | .notice now lastPrice notice =>
    { om := (orderNotice host now lastPrice notice { x.om with outbox := [] }).manager
      earlier := x.tried clientOf
      answered := if notice.answer = none then x.answered else notice.userTag :: x.answered
      acked := if notice.answer = some .acked then insert notice.userTag x.acked else x.acked }

/-- The host seeds only orders that are not its own. -/
def Turn.Foreign (host : Host) (seq : Nat) : Turn → Prop
  | .call given => Ledger.Foreign host seq given.op
  | .notice _ _ _ => True

def Turn.brings : Turn → Bool
  | .call given => Ledger.Brings given.op
  | .notice _ _ _ => false

theorem foreign_of_calls {turn : Turn} (own : turn.brings = false) : turn.Foreign host seq := by
  cases turn with
  | call given => exact Ledger.foreign_of_not_brings own
  | notice => trivial

/-- The call reports a failed cancel. -/
def reportsFailure : Op → Bool
  | .cancelFailed _ => true
  | _ => false

/-- What the exchange and the process can do: server ids are reported of their own
orders, nothing acknowledged is seeded again, only the receive loop reports failed
cancels, and each attempt is answered at most once, under both ids of its order. -/
def Possible (clientOf : String → Option String) (inherited : Finset String) (x : Outcomes) :
    Turn → Prop
  | .call call =>
    x.om.ledger.Reports clientOf inherited call.op ∧
      ¬Ledger.BringsBack (· ∈ x.acked) call.op ∧ reportsFailure call.op = false
  | .notice _ _ notice =>
    if notice.answer = none then
      notice.userTag = "" ∨ notice.basketId = "" ∨
        clientOf notice.basketId = some notice.userTag
    else
      notice.userTag ≠ "" ∧ notice.basketId ≠ "" ∧
        clientOf notice.basketId = some notice.userTag ∧ clientOf notice.userTag = none ∧
        x.answered.count notice.userTag < (x.tried clientOf).count notice.userTag

/-- An acknowledged order is no guard and is in no cancel that is sent again, and in an open
trade each of its guards has an attempt without an answer or is the stop. -/
structure Honoured (host : Host) (clientOf : String → Option String) (x : Outcomes) : Prop where
  gone : ∀ order ∈ x.acked, order ∉ x.om.cancelledStops ∧
    order ∉ triedIn clientOf (recancelPendingStops host { x.om with outbox := [] }).outbox
  covered : x.om.inTrade = true → ∀ order ∈ x.om.cancelledStops,
    x.om.cancelledStopTrade.lookup order = some x.om.tradeSeq →
      x.answered.count order < (x.tried clientOf).count order ∨ order = x.om.pos.basketIdStop

/-- The answer clears the order, or spares it. -/
def Met (clientOf : String → Option String) (x : Outcomes) : Turn → Prop
  | .call _ => True
  | .notice _ _ notice =>
    match notice.answer with
    | none => True
    | some .acked => Clears notice x.om
    | some .refused =>
      Spared ((x.tried clientOf).count notice.userTag) (x.answered.count notice.userTag) notice x.om

/-- What was sent counts as tried before the next event. -/
theorem tried_emptied (tried : Tried host clientOf inherited seq base answered acked om) :
    Tried host clientOf inherited seq (om.ledger.tries clientOf base) answered acked
      { om with outbox := [] } := by
  obtain ⟨c, cIs⟩ : ∃ c : OrderManager, c = { om with outbox := [] } := ⟨_, rfl⟩
  have same : c.ledger.tries clientOf (om.ledger.tries clientOf base) =
      om.ledger.tries clientOf base := by
    rw [cIs]
    exact List.append_nil _
  have separated : Separated host clientOf inherited seq c := cIs ▸ tried.separated.emptied []
  have covered := tried.covered
  have free := tried.free
  rw [← cIs]
  refine ⟨separated, ?_, ?_, ?_, ?_, ?_, ?_⟩
  · rw [cIs]
    exact tried.entry
  · rw [same, cIs]
    exact tried.idle
  · rw [same, cIs]
    exact tried.waits
  · refine ⟨?_, ?_, ?_, ?_, ?_⟩
    · rw [same, cIs]
      exact covered.guards
    · rw [same]
      exact covered.tried
    · rw [cIs]
      exact covered.old
    · rw [cIs]
      exact covered.entering
    · rw [same, cIs]
      exact covered.held
  · rw [same]
    exact tried.known
  · rw [cIs]
    exact ⟨free.stop, free.exit, free.guards, free.servers⟩

/-- What every event keeps whose answer clears or spares its order. -/
def Outcomes.Sound (host : Host) (clientOf : String → Option String) (inherited : Finset String)
    (seq : Nat) (x : Outcomes) : Prop :=
  Tried host clientOf inherited seq x.earlier x.answered x.acked x.om

/-- One turn keeps the record of attempts and answers sound. A call goes by its operation, a notice
by the fills, cancels and refusals it carries. -/
theorem take_sound (live : host.Live) (ids : ServerIds host clientOf)
    (left : ∀ n, seq ≤ n → host.basketId n ∉ inherited) {x : Outcomes} {turn : Turn}
    (sound : x.Sound host clientOf inherited seq) (foreign : turn.Foreign host seq)
    (possible : Possible clientOf inherited x turn) (met : Met clientOf x turn) :
    (x.take host clientOf turn).Sound host clientOf inherited seq := by
  have start := tried_emptied sound
  cases turn with
  | call call =>
    obtain ⟨reports, spared, honest⟩ := possible
    refine start.perform live ids left call foreign reports ?_ spared
    intro id named
    rw [named] at honest
    exact Bool.false_ne_true honest.symm
  | notice now lastPrice notice =>
    have tries : ({ x.om with outbox := [] } : OrderManager).ledger.tries clientOf
        (x.tried clientOf) = x.tried clientOf := List.append_nil _
    simp only [Outcomes.Sound, Outcomes.take]
    simp only [Possible] at possible
    simp only [Met] at met
    by_cases refused : notice.notifyType = 17 ∨ notice.status = "Cancellation Failed"
    · have answer : notice.answer = some .refused := by
        rw [OrderNotice.answer, if_pos refused]
      simp only [answer, reduceCtorEq, ↓reduceIte] at possible met ⊢
      obtain ⟨known, given, own, plain, room⟩ := possible
      rw [← tries] at room met
      simp only [Option.some.injEq, reduceCtorEq, ↓reduceIte]
      exact tried_refused live ids left now lastPrice notice start refused known given own plain
        room met
    · by_cases cancels : notice.notifyType = 3
      · have answer : notice.answer = some .acked := by
          rw [OrderNotice.answer, if_neg refused, if_pos cancels]
        simp only [answer, reduceCtorEq, ↓reduceIte] at possible met ⊢
        obtain ⟨known, given, own, plain, room⟩ := possible
        rw [← tries] at room
        exact tried_acked live ids left now lastPrice notice start refused cancels
          known own room met
      · have answer : notice.answer = none := by
          rw [OrderNotice.answer, if_neg refused, if_neg cancels]
        simp only [answer, reduceCtorEq, ↓reduceIte] at possible ⊢
        exact tried_unanswering live ids left now lastPrice notice start refused cancels possible

/-- What holds between two turns honours the outcomes heard so far. -/
theorem sound_honoured (live : host.Live) {x : Outcomes}
    (sound : x.Sound host clientOf inherited seq) : Honoured host clientOf x where
  gone := by
    intro order inside
    refine ⟨fun guarded => sound.free.guards order guarded inside, ?_⟩
    intro again
    obtain ⟨id, sent, named⟩ := List.mem_map.mp again
    simp only [recancelPendingStops, live.cancels, Bool.true_eq_false, ↓reduceIte, emit,
      List.nil_append, cancelsIn_append, cancelsIn_cancels, List.mem_append,
        List.mem_filter] at sent
    rcases sent with server | ⟨guard, _⟩
    · obtain ⟨client, found⟩ := (Table.mem_iff_lookup _ _).mp server
      rw [orderOf, sound.separated.mapped.server found, Option.getD_some] at named
      exact sound.free.servers id client found (named ▸ inside)
    · rw [orderOf, sound.separated.apart.clients id guard, Option.getD_none] at named
      exact sound.free.guards id guard (named ▸ inside)
  covered := by
    intro held order inside found
    exact Or.inl (sound.covered.held (Or.inl ((inTrade_iff x.om).mp held)) order inside found)

/-- A fresh manager has nothing to account for. -/
theorem fresh_sound (risk : RiskManager) (seq : Nat) :
    Outcomes.Sound host clientOf inherited seq { om := fresh risk seq } where
  separated := fresh_separated risk seq
  entry := Or.inl rfl
  idle := fun _ inside => absurd inside List.not_mem_nil
  waits := fun _ inside => absurd inside (Finset.notMem_empty _)
  covered := {
    guards := fun _ inside => absurd inside (AList.notMem_empty _)
    tried := fun _ => Nat.le_refl _
    old := by
      intro basket trade found
      exact absurd found (by simp [ledger, fresh])
    entering := fun pending => nomatch pending
    held := fun busy => absurd busy (flat_idle rfl) }
  known := fun _ inside => absurd inside (Finset.notMem_empty _)
  free := {
    stop := Finset.notMem_empty _
    exit := Finset.notMem_empty _
    guards := fun _ inside => absurd inside (AList.notMem_empty _)
    servers := by
      intro server client found
      exact absurd found (by simp [ledger, fresh]) }

/-- In every run in which each acknowledgement that reports a fill clears its order and
each refusal spares it, every outcome of a cancel is honoured. -/
theorem cancels_honoured (live : host.Live) (ids : ServerIds host clientOf) (risk : RiskManager)
    (seq : Nat) (left : ∀ n, seq ≤ n → host.basketId n ∉ inherited) (turns : List Turn)
    (foreign : ∀ turn ∈ turns, turn.Foreign host seq)
    (possible : Along (Outcomes.take host clientOf) (Possible clientOf inherited)
      { om := fresh risk seq } turns)
    (met : Along (Outcomes.take host clientOf) (Met clientOf) { om := fresh risk seq } turns) :
    Along (Outcomes.take host clientOf)
      (fun x turn => Honoured host clientOf (x.take host clientOf turn))
      { om := fresh risk seq } turns := by
  have start : Outcomes.Sound host clientOf inherited seq { om := fresh risk seq } :=
    fresh_sound risk seq
  have along := along_and_of_mem _ _ turns (along_and _ _ turns possible met) foreign
  refine along_of_invariant _ (Outcomes.Sound host clientOf inherited seq) ?_ ?_ _ turns start along
  · intro x turn sound here
    exact sound_honoured live (take_sound live ids left sound here.2 here.1.1 here.1.2)
  · intro x turn sound here
    exact take_sound live ids left sound here.2 here.1.1 here.1.2

instance (clientOf : String → Option String) (inherited : Finset String) (x : Outcomes)
    (turn : Turn) : Decidable (Possible clientOf inherited x turn) :=
  match turn with
  | .call _ => inferInstanceAs (Decidable (_ ∧ _ ∧ _))
  | .notice _ _ _ => by
    dsimp only [Possible]
    infer_instance

instance (clientOf : String → Option String) (x : Outcomes) (turn : Turn) :
    Decidable (Met clientOf x turn) :=
  match turn with
  | .call _ => isTrue trivial
  | .notice _ _ notice => by
    dsimp only [Met]
    cases notice.answer with
    | none => exact isTrue trivial
    | some answer =>
      cases answer with
      | acked => exact inferInstanceAs (Decidable (Clears notice x.om))
      | refused => exact inferInstanceAs (Decidable (Spared _ _ notice x.om))

/-- The one server id of the runs below: of the first stop. -/
def trailedClient (server : String) : Option String :=
  if server = "S1" then some "MNQ-0-1" else none

theorem trailed_ids : ServerIds Host.accepting trailedClient :=
  .one (by decide) (accepting_apart (by decide))

/-- A stop that is trailed once its server id is known. -/
def trailedStop : List Turn :=
  [.call ⟨1, .signal .buy 100 0⟩, .call ⟨2, .fill "MNQ-0-0" 100 1 true⟩,
    .notice 3 100 { basketId := "S1", userTag := "MNQ-0-1", notifyType := 1 },
    .call ⟨4, .checkExternal 110 (some 105)⟩]

/-- The cancel of the trailed stop is acknowledged. -/
theorem trailed_ack_honoured :
    Along (Outcomes.take .accepting trailedClient)
      (fun x turn => Honoured .accepting trailedClient (x.take .accepting trailedClient turn))
      { om := fresh {} 0 } (trailedStop ++
        [.notice 5 110 { basketId := "S1", userTag := "MNQ-0-1", notifyType := 3 }]) :=
  cancels_honoured Host.accepting_live trailed_ids {} 0 (fun _ _ => Finset.notMem_empty _) _
    (fun turn inside => foreign_of_calls (by revert turn; decide +kernel)) (by decide +kernel)
    (by decide +kernel)

/-- The cancel by server id is refused, and the refusal is taken for that of an earlier
one: the stop still works beside the new one, and no cancel of it is under way. -/
theorem refusal_ignored :
    ¬∀ (host : Host), host.Live → ∀ (clientOf : String → Option String),
      ServerIds host clientOf → ∀ (risk : RiskManager) (seq : Nat) (turns : List Turn),
      (∀ turn ∈ turns, turn.Foreign host seq) →
      Along (Outcomes.take host clientOf) (Possible clientOf ∅) { om := fresh risk seq } turns →
      Along (Outcomes.take host clientOf)
        (fun x turn => Honoured host clientOf (x.take host clientOf turn))
        { om := fresh risk seq } turns := by
  intro honoured
  have along := honoured Host.accepting Host.accepting_live trailedClient trailed_ids {} 0
    (trailedStop ++ [.notice 5 110 { basketId := "S1", userTag := "MNQ-0-1", notifyType := 17 }])
    (fun turn inside => foreign_of_calls (by revert turn; decide +kernel)) (by decide +kernel)
  obtain ⟨_, late⟩ := (along_append _ _ _ _ _).mp along
  have covered := late.1.covered (by decide +kernel) "MNQ-0-1" (by decide +kernel)
    (by decide +kernel)
  revert covered
  decide +kernel

end OpLoop

end RithmicEngine
