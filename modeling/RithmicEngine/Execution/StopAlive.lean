import RithmicEngine.Execution.StopApart
import Mathlib.Data.Finset.Option
/-!
# The position counts on no dead stop

While a position is open its software stop waits for the stop at the exchange, so the
manager has to notice when that stop is gone. A record beside the run holds the orders
the exchange took and those of which the manager was told since that they are dead:
rejected, cancelled or filled, under their own id or under a server id on its book.
Rejections and fills of the current stop always take it off the position. An
acknowledged cancel never does, and a failed cancel brings back an order that was
reported dead while it was a guard.
-/
namespace RithmicEngine

open Runs

variable {host : Host} {clientOf : String → Option String} {inherited : Finset String}

namespace Ledger

/-- The orders for which the book keeps the server id. -/
def mappedIds (l : Ledger) (server : String) : Finset String :=
  (l.orders.lookup server).toFinset ∪ (l.servers.lookup server).toFinset ∪
    if l.stopServer ≠ "" ∧ l.stopServer = server then {l.stop} else ∅

/-- The orders that a notice under the id may be about. -/
def namedIds (l : Ledger) (id : String) : Finset String := insert id (l.mappedIds id)

/-- The orders that the call reports dead. -/
def told (l : Ledger) : Op → Finset String
  | .rejected id => l.namedIds id
  | .cancelConfirmed client => {client}
  | .cancelConfirmedByServer server => l.mappedIds server
  | .fill basket _ qty false => if l.HeldBack qty then ∅ else {basket}
  | _ => ∅

variable {l l' : Ledger}

/-- After a move the stop is gone, newly placed, or the one before. -/
theorem Move.stop_from (move : Move host l l') :
    l'.stop = "" ∨ l'.stop ∈ takenIn l'.sent ∨ l'.stop = l.stop := by
  cases move with
  | enter => exact Or.inl rfl
  | refuseEntry => exact Or.inl rfl
  | abandon => exact Or.inl rfl
  | submitStop request held bare places taken =>
    right
    left
    simp only [Ledger.submitStop, takenIn_append, takenIn_taken, places.basket, Finset.mem_union,
      Finset.mem_singleton, or_true, true_or]
  | refuseStop => exact Or.inl rfl
  | cancelStop => exact Or.inl rfl
  | sendExit => exact Or.inr (Or.inr rfl)
  | refuseExit => exact Or.inr (Or.inr rfl)
  | guardExit => exact Or.inr (Or.inr rfl)
  | recancel => exact Or.inr (Or.inr rfl)

/-- A stop after moves is none, was sent, or is the one from before. -/
theorem Walk.stop_from (walk : Walk host l l') :
    l'.stop = "" ∨ l'.stop ∈ takenIn l'.sent ∨ l'.stop = l.stop := by
  induction walk with
  | refl => exact Or.inr (Or.inr rfl)
  | tail walk move ih =>
    rcases move.stop_from with none | placed | same
    · exact Or.inl none
    · exact Or.inr (Or.inl placed)
    · rw [same]
      exact ih.imp_right (Or.imp_left fun inside => move.issues.takenIn_subset inside)

theorem Filled.stop_from {basket : String} {qty : Int} {isEntry : Bool}
    (filled : Filled host basket qty l isEntry l') :
    l'.stop = "" ∨ l'.stop ∈ takenIn l'.sent ∨ l'.stop = l.stop := by
  cases filled with
  | entered pending named whole protect => exact protect.stop_from
  | closed => exact Or.inl rfl
  | _ => exact Or.inr (Or.inr rfl)

/-- After a step the stop is gone, newly placed, the one before, or a guard whose cancel
failed. -/
theorem Stepped.stop_from {op : Op} (stepped : Stepped host l op l') :
    (l'.stop = "" ∨ l'.stop ∈ takenIn l'.sent ∨ l'.stop = l.stop) ∨ l.Readopts op l'.stop := by
  cases stepped with
  | own initiates walk => exact Or.inl (Walk.stop_from walk)
  | filled basket price qty isEntry filled => exact Or.inl filled.stop_from
  | rejectedEntry => exact Or.inl (Or.inl rfl)
  | rejectedExit basket closing named walk =>
    have reopened := Walk.stop_from walk
    exact Or.inl reopened
  | rejectedStop => exact Or.inl (Or.inl rfl)
  | readopted id client server held inside own routes =>
    exact Or.inr ⟨held, routes.names, inside, own, routes.unmapped⟩
  | externalClose => exact Or.inl (Or.inl rfl)
  | _ => exact Or.inl (Or.inr (Or.inr rfl))

/-- A complete fill of the stop closes the position. -/
theorem Filled.clears {qty : Int} (filled : Filled host l.stop qty l false l') (held : l.Open)
    (whole : ¬l.HeldBack qty) : l'.stop = "" := by
  have busy (idle : l.state = .flat ∨ l.state = .pendingEntry) : False :=
    idle.elim held.states.1 held.states.2.1
  cases filled with
  | lastGuard request idle => exact (busy idle).elim
  | guard request wasBuy idle => exact (busy idle).elim
  | unwound idle => exact (busy idle).elim
  | unknown idle => exact (busy idle).elim
  | partialExit _ part => exact absurd ⟨Or.inl held, part⟩ whole
  | closed => rfl

end Ledger

namespace OrderManager

/-- What the manager was told of its orders: those the exchange took, and those
reported dead since. -/
structure Heard where
  taken : Finset String := ∅
  dead : Finset String := ∅

/-- The record after a step. -/
def Heard.note (heard : Heard) (before : OrderManager) (call : Call) (after : OrderManager) :
    Heard where
  taken := heard.taken ∪ takenIn after.outbox
  dead := (heard.dead ∪ before.ledger.told call.op) \ takenIn after.outbox

/-- The stop of an open position is an order the exchange took and that was not reported
dead; and once there is none, a breach starts the exit at the first check. -/
structure Protected (host : Host) (heard : Heard) (s : OrderManager) : Prop where
  alive : s.inTrade = true → s.pos.basketIdStop ≠ "" →
    s.pos.basketIdStop ∈ heard.taken ∧ s.pos.basketIdStop ∉ heard.dead
  software : ∀ now price, s.inTrade = true →
    (s.pos.basketIdStop = "" ∨ s.pos.basketIdStop ∈ heard.dead) → s.slBreached price = true →
      (checkBreach host now price s).2 = true

/-- The call acknowledges the cancel of the current stop, or it is a failed cancel that
brings back an order reported dead. -/
def Misheard (heard : Heard) (s : OrderManager) (op : Op) : Prop :=
  match op with
  | .cancelConfirmed client => s.pos.basketIdStop ≠ "" ∧ client = s.pos.basketIdStop
  | .cancelConfirmedByServer server =>
    s.pos.basketIdStop ≠ "" ∧ s.pos.basketIdStop ∈ s.ledger.mappedIds server
  | .cancelFailed id =>
    s.ledger.Readopts op ((s.serverToClientCancelled.lookup id).getD id) ∧
      (s.serverToClientCancelled.lookup id).getD id ∈ heard.dead
  | _ => False

instance (heard : Heard) (s : OrderManager) (op : Op) : Decidable (Misheard heard s op) := by
  induction op using Op.casesOn
  all_goals
    dsimp only [Misheard]
    infer_instance

/-- A rejection under any id of the current stop takes it off the position. -/
theorem onOrderRejected_clears {s : OrderManager} {now : Int} {id : String}
    (held : s.ledger.Open) (stopped : s.pos.basketIdStop ≠ "")
    (plain : clientOf s.pos.basketIdStop = none) (mapped : s.ledger.Mapped clientOf)
    (apart : s.ledger.Apart clientOf inherited)
    (named : s.pos.basketIdStop ∈ s.ledger.namedIds id) :
    (onOrderRejected host now id s).pos.basketIdStop = "" := by
  have reached : s.pos.basketIdStop = (s.serverToClientOrders.lookup id).getD id ∨
      (s.stopServerBasket ≠ "" ∧ s.stopServerBasket = id) := by
    simp only [Ledger.namedIds, Ledger.mappedIds, Finset.mem_insert, Finset.mem_union,
      Option.mem_toFinset, Option.mem_def] at named
    rcases named with same | (ordered | filed) | current
    · left
      -- The stop's own id is no server id, so nothing is on record under it.
      have free : s.serverToClientOrders.lookup id = none := by
        cases found : s.serverToClientOrders.lookup id with
        | none => rfl
        | some client =>
          have clash : clientOf id = some client :=
            Ledger.some_of_getD fun other => (mapped other).orders id client found
          rw [← same, plain] at clash
          exact absurd clash (Option.some_ne_none client).symm
      rw [free, Option.getD_none]
      exact same
    · left
      have found : s.serverToClientOrders.lookup id = some s.pos.basketIdStop := ordered
      rw [found, Option.getD_some]
    · exact absurd filed (apart.server stopped id)
    · right
      split at current
      next mine => exact mine
      next => exact absurd current (Finset.notMem_empty _)
  have busy : s.pos.state ≠ .pendingEntry ∧ s.pos.state ≠ .pendingExit := held.states.2
  simp [onOrderRejected, busy.1, busy.2, reached]

variable {seq : Nat}

/-- A notice that the stop is dead takes it off the position, acknowledged cancels
aside. -/
theorem told_clears (live : host.Live) (ids : ServerIds host clientOf) {s : OrderManager}
    {call : Call} {heard : Heard} (separated : Separated host clientOf inherited seq s)
    (stopped : s.pos.basketIdStop ≠ "") (told : s.pos.basketIdStop ∈ s.ledger.told call.op)
    (right : ¬Misheard heard s call.op) : (step host s call).pos.basketIdStop = "" := by
  have held : s.ledger.Open := separated.shape.open_of_stop stopped
  have stepped := step_refines live s call separated.shape
  obtain ⟨now, op⟩ := call
  cases op with
  | rejected id =>
    have mapped : ({ s with outbox := [] } : OrderManager).ledger.Mapped clientOf :=
      fun other => ⟨(separated.mapped other).servers, (separated.mapped other).orders,
        (separated.mapped other).stop⟩
    have apart : ({ s with outbox := [] } : OrderManager).ledger.Apart clientOf inherited :=
      separated.apart.congr rfl rfl rfl separated.apart.entered
    exact onOrderRejected_clears held stopped (separated.within.plain ids).stop mapped apart told
  | cancelConfirmed client =>
    exact absurd ⟨stopped, (Finset.mem_singleton.mp told).symm⟩ right
  | cancelConfirmedByServer server => exact absurd ⟨stopped, told⟩ right
  | fill basket price qty isEntry =>
    cases isEntry with
    | true => exact absurd told (Finset.notMem_empty _)
    | false =>
      simp only [Ledger.told] at told
      split at told
      next => exact absurd told (Finset.notMem_empty _)
      next whole =>
        have named := Finset.mem_singleton.mp told
        subst named
        exact Ledger.Filled.clears (l := s.cleared) stepped.isFilled held whole
  | _ => exact absurd told (Finset.notMem_empty _)

/-- A failed cancel of a guard of the open trade makes it the stop and places nothing. -/
theorem readopts_stop (ids : ServerIds host clientOf) {s : OrderManager} {id client : String}
    (mapped : s.ledger.Mapped clientOf) (readopts : s.ledger.Readopts (.cancelFailed id) client) :
    (onCancelFailed host id s).pos.basketIdStop = client ∧
      (onCancelFailed host id s).inTrade = true ∧
      takenIn (onCancelFailed host id s).outbox = takenIn s.outbox := by
  obtain ⟨held, named, inside, own, unmapped⟩ := readopts
  have busy : s.inTrade = true := (inTrade_iff s).mpr held
  have counts : ¬((if (s.serverToClientCancelled.lookup id).isSome then id else "") = "" ∧
      s.serverToClientCancelled.hasValue client = true) := by
    rintro ⟨blank, listed⟩
    cases found : s.serverToClientCancelled.lookup id with
    | none => exact absurd ((unmapped found).symm.trans listed) Bool.false_ne_true
    | some held =>
      simp only [found, Option.isSome_some, ↓reduceIte] at blank
      have clash : clientOf id = some held := mapped.server found
      rw [blank, ids.empty] at clash
      exact absurd clash (Option.some_ne_none held).symm
  have guarded : client ∈ s.cancelledStops := inside
  have mine : s.cancelledStopTrade.lookup client = some s.tradeSeq := own
  have isClient : (s.serverToClientCancelled.lookup id).getD id = client := named.symm
  have silent (basket : String) : takenIn (host.removeNotice basket) = ∅ :=
    takenIn_eq_empty (accepted_removeNotice basket)
  have cancelled (c : OrderManager) :
      takenIn (cancelStopLocked host c).outbox = takenIn c.outbox := by
    simp only [cancelStopLocked]
    split
    · rfl
    · split
      all_goals
        simp only [takenIn_append, takenIn_eq_empty (accepted_persistNotice _ _),
          takenIn_eq_empty (accepted_persistServerNotice _ _),
          takenIn_eq_empty (accepted_cancel _), takenIn_eq_empty accepted_nil,
          Finset.union_empty]
  have state : ({ s with stopResubmitPending := false } : OrderManager).inTrade = true := busy
  simp only [onCancelFailed, isClient, guarded, not_true_eq_false, ↓reduceIte, counts, mine,
    ne_eq, state, Bool.true_eq_false, and_false]
  refine ⟨rfl, ?_, ?_⟩
  · simp only [readoptStop, inTrade] at state ⊢
    split
    · rw [cancelStop_state]
      exact state
    · exact state
  · simp only [readoptStop, takenIn_append, silent, Finset.union_empty]
    split
    · exact cancelled _
    · rfl

/-! ## Every run -/

/-- The orders of the trade were taken by the exchange, and the stop was not reported
dead. -/
structure Vouched (host : Host) (clientOf : String → Option String) (inherited : Finset String)
    (seq : Nat) (pair : OrderManager × Heard) : Prop where
  separated : Separated host clientOf inherited seq pair.1
  within : pair.1.ledger.Within fun basket => basket = "" ∨ basket ∈ pair.2.taken
  alive : pair.1.pos.basketIdStop ≠ "" → pair.1.pos.basketIdStop ∉ pair.2.dead

/-- What the seeds and the server ids of a call are. -/
def Proper (host : Host) (clientOf : String → Option String) (inherited : Finset String)
    (seq : Nat) (s : OrderManager) (call : Call) : Prop :=
  Ledger.Foreign host seq call.op ∧ s.ledger.Reports clientOf inherited call.op

/-- One call keeps the stop among the orders taken and not reported dead, unless it is misheard. -/
theorem Vouched.step (live : host.Live) (ids : ServerIds host clientOf) {seq : Nat}
    (left : ∀ n, seq ≤ n → host.basketId n ∉ inherited) {pair : OrderManager × Heard}
    {call : Call} (vouched : Vouched host clientOf inherited seq pair)
    (proper : Proper host clientOf inherited seq pair.1 call)
    (right : ¬Misheard pair.2 pair.1 call.op) :
    Vouched host clientOf inherited seq
      (observe (OrderManager.step host) Heard.note pair call) := by
  obtain ⟨s, heard⟩ := pair
  obtain ⟨separated, within, alive⟩ := vouched
  have stepped := step_refines live s call separated.shape
  refine ⟨separated.step live ids left proper.1 proper.2, ?_, ?_⟩
  · -- What the step placed joins the record together with it.
    have before : s.cleared.Within fun basket =>
        basket = "" ∨ basket ∈ heard.taken ∪ takenIn (OrderManager.step host s call).outbox := by
      have wider {basket : String} (known : basket = "" ∨ basket ∈ heard.taken) : basket = "" ∨
          basket ∈ heard.taken ∪ takenIn (OrderManager.step host s call).outbox :=
        known.imp_right (Finset.mem_union_left _)
      exact ⟨wider within.stop, wider within.exit,
        fun basket inside => (within.trade basket inside).imp_right wider⟩
    exact stepped.within (Or.inl rfl) (fun n _ placed => Or.inr (Finset.mem_union_right _ placed))
      before
  · intro stopped dead
    obtain ⟨reported, old⟩ := Finset.mem_sdiff.mp dead
    rcases stepped.stop_from with (none | placed | same) | readopts
    · exact stopped none
    · exact old placed
    · have before : (OrderManager.step host s call).pos.basketIdStop = s.pos.basketIdStop := same
      have here : s.pos.basketIdStop ∈ heard.dead ∪ s.ledger.told call.op := before ▸ reported
      have known : s.pos.basketIdStop ≠ "" := before ▸ stopped
      rcases Finset.mem_union.mp here with long | now
      · exact alive known long
      · exact stopped (told_clears live ids separated known now right)
    · obtain ⟨now, op⟩ := call
      cases op with
      | cancelFailed id =>
        have client : (OrderManager.step host s ⟨now, .cancelFailed id⟩).pos.basketIdStop =
            (s.serverToClientCancelled.lookup id).getD id := readopts.2.1
        refine right ⟨client ▸ readopts, client ▸ ?_⟩
        exact (Finset.mem_union.mp reported).resolve_right (Finset.notMem_empty _)
      | _ => exact readopts.elim

/-- A position that is vouched for is protected. -/
theorem Vouched.isProtected {pair : OrderManager × Heard}
    (vouched : Vouched host clientOf inherited seq pair) : Protected host pair.2 pair.1 where
  alive := fun _ stopped => ⟨vouched.within.stop.resolve_left stopped, vouched.alive stopped⟩
  software := by
    intro now price _ gone breached
    have none : pair.1.pos.basketIdStop = "" := by
      by_contra stopped
      exact gone.elim stopped (vouched.alive stopped)
    simp [checkBreach, breached, none]

/-- A misheard notice leaves a stop that was reported dead on the position. -/
theorem not_protected_of_misheard (ids : ServerIds host clientOf) {pair : OrderManager × Heard}
    {call : Call} (vouched : Vouched host clientOf inherited seq pair)
    (misheard : Misheard pair.2 pair.1 call.op) :
    ¬Protected host (observe (step host) Heard.note pair call).2
      (observe (step host) Heard.note pair call).1 := by
  obtain ⟨s, heard⟩ := pair
  obtain ⟨now, op⟩ := call
  intro sound
  have alive := sound.alive
  have stays {after : OrderManager} (isAfter : step host s ⟨now, op⟩ = after)
      (stopped : s.pos.basketIdStop ≠ "") (told : s.pos.basketIdStop ∈ s.ledger.told op)
      (position : after.pos = s.pos) (silent : takenIn after.outbox = ∅) : False := by
    have held := (inTrade_iff s).mpr (vouched.separated.shape.open_of_stop stopped)
    simp only [observe, Heard.note, isAfter, silent, Finset.sdiff_empty, inTrade, position]
      at alive held
    exact (alive held stopped).2 (Finset.mem_union_right _ told)
  have removes (basket : String) : takenIn ([] ++ host.removeNotice basket) = ∅ :=
    takenIn_eq_empty (accepted_removeNotice basket)
  cases op with
  | cancelConfirmed client =>
    obtain ⟨stopped, same⟩ := misheard
    exact stays rfl stopped (Finset.mem_singleton.mpr same.symm) rfl (removes client)
  | cancelConfirmedByServer server =>
    obtain ⟨stopped, mapped⟩ := misheard
    simp only [OrderManager.step, perform, onCancelConfirmedByServerBasket] at stays
    split at stays
    · exact stays rfl stopped mapped rfl rfl
    next client _ => exact stays rfl stopped mapped rfl (removes client)
  | cancelFailed id =>
    obtain ⟨readopts, dead⟩ := misheard
    have mapped : ({ s with outbox := [] } : OrderManager).ledger.Mapped clientOf :=
      fun other => ⟨(vouched.separated.mapped other).servers,
        (vouched.separated.mapped other).orders, (vouched.separated.mapped other).stop⟩
    obtain ⟨stop, busy, silent⟩ :=
      @readopts_stop host clientOf ids { s with outbox := [] } id _ mapped readopts
    have known : (step host s ⟨now, .cancelFailed id⟩).pos.basketIdStop ≠ "" := by
      have own := Table.mem_of_lookup readopts.2.2.2.1
      exact stop ▸ (vouched.within.trade _ own).1
    have taken : takenIn (step host s ⟨now, .cancelFailed id⟩).outbox = ∅ := silent
    refine (alive busy known).2 (Finset.mem_sdiff.mpr ⟨Finset.mem_union_left _ ?_, ?_⟩)
    · exact stop ▸ dead
    · rw [taken]
      exact Finset.notMem_empty _
  | _ => exact misheard

/-- In every run in which each order has at most one server id and the seeds were left
by another process, the position never counts on a stop that was reported dead exactly
when no step acknowledges the cancel of the current stop or brings back, by a failed
cancel, an order reported dead. -/
theorem protected_iff (live : host.Live) (ids : ServerIds host clientOf) (risk : RiskManager)
    (seq : Nat) (left : ∀ n, seq ≤ n → host.basketId n ∉ inherited) (calls : List Call)
    (foreign : ∀ call ∈ calls, Ledger.Foreign host seq call.op)
    (reports : Along (step host) (fun s call => s.ledger.Reports clientOf inherited call.op)
      (fresh risk seq) calls) :
    Along (observe (step host) Heard.note) (fun pair call =>
        Protected host (observe (step host) Heard.note pair call).2
          (observe (step host) Heard.note pair call).1) (fresh risk seq, {}) calls ↔
      Along (observe (step host) Heard.note) (fun pair call => ¬Misheard pair.2 pair.1 call.op)
        (fresh risk seq, {}) calls := by
  have start : Vouched host clientOf inherited seq (fresh risk seq, {}) := {
    separated := fresh_separated risk seq
    within := ⟨Or.inl rfl, Or.inl rfl, fun _ inside => absurd inside (AList.notMem_empty _)⟩
    alive := fun _ => Finset.notMem_empty _ }
  have proper : Along (observe (step host) Heard.note)
      (fun pair call => Proper host clientOf inherited seq pair.1 call)
      (fresh risk seq, {}) calls := by
    refine (along_observe_iff (step host) Heard.note _ _ calls).mpr ?_
    have along := along_and_of_mem (step host) _ calls reports foreign
    refine (along_congr (step host) ?_ _ calls).mp along
    exact fun s call => and_comm
  refine along_iff_of_base _ (Vouched host clientOf inherited seq) ?_ ?_ _ calls start proper
  · intro pair call vouched proper
    constructor
    · exact fun sound misheard => not_protected_of_misheard ids vouched misheard sound
    · exact fun right => (vouched.step live ids left proper right).isProtected
  · exact fun pair call vouched proper right => vouched.step live ids left proper right

/-- No order has a server id. -/
def unmappedIds (_ : String) : Option String := none

theorem unmapped_ids : ServerIds host unmappedIds where
  empty := rfl
  own := fun _ => rfl
  single := fun _ _ client found => absurd found (Option.some_ne_none client).symm

/-- A stop that is trailed, and the rejection of the new one. -/
def rejectedTrail : List Call :=
  [⟨1, .signal .buy 100 0⟩, ⟨2, .fill "MNQ-0-0" 100 1 true⟩, ⟨3, .checkExternal 110 (some 105)⟩,
    ⟨4, .rejected "MNQ-0-2"⟩]

/-- A rejected replacement of the stop: the run is protected exactly where no call is misheard. -/
theorem rejected_trail_protected :
    Along (observe (step .accepting) Heard.note) (fun pair call =>
        Protected .accepting (observe (step .accepting) Heard.note pair call).2
          (observe (step .accepting) Heard.note pair call).1) (fresh {} 0, {}) rejectedTrail ↔
      Along (observe (step .accepting) Heard.note)
        (fun pair call => ¬Misheard pair.2 pair.1 call.op) (fresh {} 0, {}) rejectedTrail :=
  protected_iff Host.accepting_live unmapped_ids {} 0 (fun _ _ => Finset.notMem_empty _)
    rejectedTrail (fun call inside => Ledger.foreign_of_not_brings (by revert call; decide +kernel))
    (by decide +kernel)

/-- A stop whose cancel was acknowledged is still the position's stop. -/
theorem acknowledged_stop_counted :
    ¬∀ (host : Host), host.Live → ∀ (clientOf : String → Option String),
      ServerIds host clientOf → ∀ (risk : RiskManager) (seq : Nat) (calls : List Call),
      (∀ call ∈ calls, Ledger.Foreign host seq call.op) →
      Along (step host) (fun s call => s.ledger.Reports clientOf ∅ call.op)
        (fresh risk seq) calls →
      Along (observe (step host) Heard.note) (fun pair call =>
        Protected host (observe (step host) Heard.note pair call).2
          (observe (step host) Heard.note pair call).1) (fresh risk seq, {}) calls := by
  intro sound
  have along := sound .accepting Host.accepting_live unmappedIds unmapped_ids {} 0
    [⟨1, .signal .buy 100 0⟩, ⟨2, .fill "MNQ-0-0" 100 1 true⟩, ⟨3, .cancelConfirmed "MNQ-0-1"⟩]
    (fun call inside => Ledger.foreign_of_not_brings (by revert call; decide +kernel))
    (by decide +kernel)
  have alive := along.2.2.1.alive
  revert alive
  decide +kernel

end OrderManager
end RithmicEngine
