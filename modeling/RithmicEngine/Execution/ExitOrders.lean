import RithmicEngine.Execution.Guards
import RithmicEngine.Execution.Journal
/-!
# No exit order is left behind

A working exit order is the exit of a closing position, or it was replaced: its
cancel was requested and it is a guard. The one exit order that is neither is
that of a closing position which is closed by something else, the fill of another
order or an external close: the position's record is reset and nothing is done
about its exit. A failed cancel can also turn a replaced exit into the position's
protective stop.
-/
namespace RithmicEngine

open Runs

variable {host : Host} {clientOf : String → String}

namespace Ledger

/-- A cancel of the order was requested: earlier, or among what was sent since, by
its own id or by the server id mapped to it. -/
def Requested (earlier : Prop) (l : Ledger) (basket : String) : Prop :=
  earlier ∨ ∃ id, Effect.cancel id ∈ l.sent ∧ (id = basket ∨ l.orders.lookup id = some basket)

/-- The order is the exit of a closing position, or a guard with its cancel requested. -/
def ExitKept (earlier : Prop) (l : Ledger) (basket : String) : Prop :=
  (l.state = .pendingExit ∧ basket = l.exit) ∨
    (Guarded False l basket ∧ Requested earlier l basket)

variable {earlier : Prop}

variable {l l' : Ledger} {basket : String}

theorem Move.requested (move : Move host l l') (requested : Requested earlier l basket) :
    Requested earlier l' basket := by
  obtain ⟨sent, orders⟩ := move.adds
  refine requested.imp_right ?_
  rintro ⟨id, inside, names⟩
  refine ⟨id, sent.subset inside, ?_⟩
  rw [orders]
  exact names

/-- Replacing the exit of a closing position requests its cancel. -/
theorem guardExit_requested {id : String} (names : id = l.exit ∨ l.orders.lookup id = some l.exit) :
    Requested earlier (l.guardExit host id) l.exit := by
  refine Or.inr ⟨id, ?_, names⟩
  simp only [Ledger.guardExit, List.mem_append, List.mem_singleton, or_true, true_or]

/-- Every move keeps an exit order current or guarded. -/
theorem Move.exitKept (move : Move host l l') (bound : l.Bound clientOf)
    (kept : ExitKept earlier l basket) : ExitKept earlier l' basket := by
  rcases kept with ⟨closing, same⟩ | ⟨guarded, requested⟩
  · have busy (other : l.state = .flat ∨ l.state = .pendingEntry) : False := by
      rw [closing] at other
      exact absurd other (by decide)
    have shut (held : l.Open) : False := held.states.2.2 closing
    cases move with
    | enter direction regime request idle => exact (busy (Or.inl idle)).elim
    | refuseEntry request idle => exact (busy (Or.inl idle)).elim
    | abandon cancels pending => exact (busy (Or.inr pending)).elim
    | submitStop request held => exact (shut held).elim
    | refuseStop request held => exact (shut held).elim
    | cancelStop held => exact (shut held).elim
    | sendExit request held => exact (shut held).elim
    | refuseExit request held => exact (shut held).elim
    | guardExit id closing sent names =>
      right
      rw [same]
      exact ⟨guardExit_guarded l id, guardExit_requested names⟩
    | recancel => exact Or.inl ⟨closing, same⟩
  · exact Or.inr ⟨move.guarded bound guarded, move.requested requested⟩

theorem Walk.exitKept (walk : Walk host l l') (bound : l.Bound clientOf)
    (kept : ExitKept earlier l basket) : ExitKept earlier l' basket := by
  induction walk with
  | refl => exact kept
  | tail walk move ih => exact move.exitKept (Walk.bound walk bound) ih

/-- The exits that a walk sends are current or guarded after it. -/
theorem Walk.exits_kept (walk : Walk host l l') (bound : l.Bound clientOf)
    (sent : basket ∈ idsOf .exit l'.sent) :
    basket ∈ idsOf .exit l.sent ∨ ExitKept earlier l' basket := by
  induction walk with
  | refl => exact Or.inl sent
  | tail walk move ih =>
    rcases move.closing_sent.2 sent with before | ⟨current, closing⟩
    · exact (ih before).imp_right (fun kept => move.exitKept (Walk.bound walk bound) kept)
    · exact Or.inr (Or.inl ⟨closing, current⟩)

/-- Every exit that a step sends is current or guarded after it. -/
theorem Stepped.exits_kept {op : Op} (stepped : Stepped host l op l') (bound : l.Bound clientOf)
    (quiet : l.sent = []) (sent : basket ∈ idsOf .exit l'.sent) : ExitKept earlier l' basket := by
  have none : basket ∉ idsOf .exit l.sent := by
    rw [quiet]
    exact Finset.notMem_empty basket
  rcases stepped.sends with ⟨c, resumes, walk⟩ | unwinds
  · have before : basket ∈ idsOf .exit c.sent ∨ ExitKept earlier l' basket :=
      Walk.exits_kept walk (resumes.bound bound) sent
    rw [resumes.sent.1] at before
    exact before.resolve_left none
  · have initiated : Initiated .exit := trivial
    rw [unwinds.idsOf_eq (not_unwinds l op initiated)] at sent
    exact absurd sent none

/-- The call closes a closing position by something else than its exit. -/
def Bypasses (l : Ledger) (op : Op) : Prop :=
  match op with
  | .fill filled _ qty false => l.state = .pendingExit ∧ ¬l.HeldBack qty ∧ filled ≠ l.exit
  | .externalClose _ _ => l.state = .pendingExit
  | _ => False

instance (l : Ledger) (op : Op) : Decidable (l.Bypasses op) := by
  apply Op.casesOn (motive := fun op => Decidable (l.Bypasses op)) op
  case fill =>
    intro filled price qty isEntry
    apply Bool.casesOn (motive := fun isEntry =>
      Decidable (l.Bypasses (.fill filled price qty isEntry))) isEntry
    all_goals
      dsimp only [Bypasses]
      infer_instance
  all_goals
    intros
    dsimp only [Bypasses]
    infer_instance

/-- The exit of a closing position stays its exit until something is heard of it,
it is replaced, or the position is closed past it. -/
theorem Stepped.exit_current {op : Op} (stepped : Stepped host l op l') (bound : l.Bound clientOf)
    (closing : l.state = .pendingExit) (stays : ¬l.Drops op l.exit) (direct : ¬l.Bypasses op) :
    ExitKept earlier l' l.exit := by
  have current (state : l'.state = l.state) (exit : l'.exit = l.exit) :
      ExitKept earlier l' l.exit := Or.inl ⟨state.trans closing, exit.symm⟩
  have shut (held : l.Open) : False := held.states.2.2 closing
  cases stepped with
  | own initiates walk => exact Walk.exitKept walk bound (Or.inl ⟨closing, rfl⟩)
  | ignored notifies => exact current rfl rfl
  | filled filledId price qty isEntry filled =>
    cases filled with
    | entered pending => exact absurd (closing.symm.trans pending) (by decide)
    | closed held whole =>
      have aside := not_heldBack_of_whole whole
      by_cases same : filledId = l.exit
      · exact absurd ⟨same.symm, aside⟩ stays
      · exact absurd ⟨closing, aside, same⟩ direct
    | _ => exact current rfl rfl
  | rejectedEntry basket pending => exact absurd (closing.symm.trans pending) (by decide)
  | rejectedExit basket _ named => exact absurd (Or.inl named) stays
  | readopted id client server held => exact (shut held).elim
  | externalClose => exact absurd closing direct
  | _ => exact current rfl rfl

end Ledger

namespace OrderManager

/-! ## The watch -/

/-- The exits of which nothing final was heard, with their quantities, and the
orders whose cancel was requested. -/
structure ExitWatch where
  sent : Finset (String × Int) := ∅
  requested : Finset String := ∅

/-- The orders whose cancel is among the effects, named by their own id or by the
server id mapped to them. -/
def requestedIn (orders : Table String String) (effects : List Effect) : Finset String :=
  (effects.flatMap fun effect =>
    match effect with
    | .cancel id => [id, (orders.lookup id).getD id]
    | _ => []).toFinset

/-- A cancel that names an order, or a server id of it, requests it. -/
theorem mem_requestedIn {orders : Table String String} {effects : List Effect} {basket : String}
    (asked : ∃ id, Effect.cancel id ∈ effects ∧ (id = basket ∨ orders.lookup id = some basket)) :
    basket ∈ requestedIn orders effects := by
  obtain ⟨id, inside, names⟩ := asked
  simp only [requestedIn, List.mem_toFinset, List.mem_flatMap]
  refine ⟨_, inside, ?_⟩
  rcases names with rfl | found
  · exact List.mem_cons_self
  · simp [found]

def ExitWatch.note (watch : ExitWatch) (before : OrderManager) (call : Call)
    (after : OrderManager) : ExitWatch where
  sent := watch.sent.filter (fun exit => ¬before.ledger.Settles call.op exit.1 exit.2) ∪
    sizesIn .exit after.outbox
  requested := watch.requested ∪ requestedIn after.serverToClientOrders after.outbox

/-- What the run asks: server ids agree with the assignment, a partial report of an
exit comes while a larger position is held, a closing position with a working exit
is closed by that exit, and no working exit becomes the stop by a failed cancel. -/
@[mk_iff]
structure Orderly (clientOf : String → String) (pair : OrderManager × ExitWatch) (call : Call) :
    Prop where
  agrees : Ledger.Agrees clientOf pair.1.ledger call.op
  whole : pair.1.ledger.Whole call.op pair.2.sent
  direct : pair.1.ledger.Bypasses call.op → ∀ exit ∈ pair.2.sent, exit.1 ≠ pair.1.ledger.exit
  stays : ∀ exit ∈ pair.2.sent, ¬pair.1.ledger.Readopts call.op exit.1

instance (clientOf : String → String) (pair : OrderManager × ExitWatch) (call : Call) :
    Decidable (Orderly clientOf pair call) :=
  decidable_of_iff' _ (orderly_iff ..)

/-- Every exit under watch is current, or guarded with its cancel requested. -/
structure Accounts (clientOf : String → String) (pair : OrderManager × ExitWatch) : Prop where
  shape : pair.1.ledger.Shape
  bound : pair.1.ledger.Bound clientOf
  known : ∀ exit ∈ pair.2.sent, exit.1 ≠ ""
  kept : ∀ exit ∈ pair.2.sent,
    (pair.1.pos.state = .pendingExit ∧ exit.1 = pair.1.pos.basketIdExit) ∨
      (Ledger.Guarded False pair.1.ledger exit.1 ∧ exit.1 ∈ pair.2.requested)

/-- An exit that the exchange took has an id. -/
theorem exit_known {s s' : OrderManager} {op : Op} {exit : String × Int}
    (stepped : Ledger.Stepped host s.cleared op s'.ledger)
    (inside : exit ∈ sizesIn .exit s'.outbox) : exit.1 ≠ "" := by
  obtain ⟨request, taken, same⟩ := mem_idsOf.mp (mem_idsOf_of_sizesIn inside)
  obtain ⟨orders, sent, numbered, _⟩ := stepped.issues
  have listed : accepted s'.outbox = orders := sent
  rw [listed] at taken
  obtain ⟨n, _, _, named⟩ := numbered.number taken
  rw [← same, named]
  exact host.basketId_ne_empty n

/-- Every orderly step keeps every exit under watch current or guarded. -/
theorem Accounts.step (live : host.Live) {pair : OrderManager × ExitWatch} {call : Call}
    (accounts : Accounts clientOf pair) (orderly : Orderly clientOf pair call) :
    Accounts clientOf (observe (OrderManager.step host) ExitWatch.note pair call) := by
  obtain ⟨s, watch⟩ := pair
  obtain ⟨shape, bound, known, kept⟩ := accounts
  have stepped := step_refines live s call shape
  have bound' : s.cleared.Bound clientOf := ⟨bound.servers, bound.orders, bound.stop⟩
  have agrees : Ledger.Agrees clientOf s.cleared call.op := orderly.agrees
  -- An exit of which nothing final was heard stays current or guarded.
  have stays (exit : String × Int) (inside : exit ∈ watch.sent)
      (unsettled : ¬s.ledger.Settles call.op exit.1 exit.2) :
      Ledger.ExitKept (exit.1 ∈ watch.requested) (OrderManager.step host s call).ledger exit.1 := by
    have undropped : ¬s.cleared.Drops call.op exit.1 :=
      Ledger.not_drops orderly.whole inside unsettled
    rcases kept exit inside with ⟨closing, same⟩ | ⟨guarded, requested⟩
    · have direct : ¬s.cleared.Bypasses call.op :=
        fun bypasses => orderly.direct bypasses exit inside same
      rw [same] at undropped ⊢
      exact stepped.exit_current bound' closing undropped direct
    · have before : Ledger.Guarded False s.cleared exit.1 := guarded
      right
      refine ⟨?_, Or.inl requested⟩
      exact stepped.guarded (known exit inside) bound' agrees undropped
        (orderly.stays exit inside) False.elim before
  have either (exit : String × Int)
      (inside : exit ∈ (watch.note s call (OrderManager.step host s call)).sent) :
      exit.1 ≠ "" ∧ Ledger.ExitKept (exit.1 ∈ watch.requested)
        (OrderManager.step host s call).ledger exit.1 := by
    rcases Finset.mem_union.mp inside with watched | new
    · obtain ⟨inside, unsettled⟩ := Finset.mem_filter.mp watched
      exact ⟨known exit inside, stays exit inside unsettled⟩
    · exact ⟨exit_known stepped new, stepped.exits_kept bound' rfl (mem_idsOf_of_sizesIn new)⟩
  refine ⟨step_shape live s call shape, stepped.bound bound' agrees, ?_, ?_⟩
  · intro exit inside
    exact (either exit inside).1
  · intro exit inside
    refine (either exit inside).2.imp_right (fun guarded => ⟨guarded.1, ?_⟩)
    refine Finset.mem_union.mpr (guarded.2.imp_right ?_)
    exact fun asked => mem_requestedIn asked

/-- In every run of orderly steps from a newly constructed manager, an exit order of
which nothing final was heard is the exit of the closing position, or a guard whose
cancel was requested. -/
theorem no_exit_left_behind (live : host.Live) (clientOf : String → String)
    (risk : RiskManager) (seq : Nat) (calls : List Call)
    (orderly : Along (observe (step host) ExitWatch.note) (Orderly clientOf)
      (fresh risk seq, {}) calls)
    (exit : String × Int)
    (watched : exit ∈ (run (observe (step host) ExitWatch.note) (fresh risk seq, {})
      calls).2.sent) :
    ((run (step host) (fresh risk seq) calls).pos.state = .pendingExit ∧
        exit.1 = (run (step host) (fresh risk seq) calls).pos.basketIdExit) ∨
      (exit.1 ∈ (run (step host) (fresh risk seq) calls).cancelledStops ∧ exit.1 ∈
        (run (observe (step host) ExitWatch.note) (fresh risk seq, {}) calls).2.requested) := by
  have start : Accounts clientOf (fresh risk seq, {}) := by
    refine ⟨fresh_shape risk seq, fresh_bound risk seq, ?_, ?_⟩
    · exact fun exit inside => absurd inside (Finset.notMem_empty exit)
    · exact fun exit inside => absurd inside (Finset.notMem_empty exit)
  have final := run_invariant (observe (step host) ExitWatch.note) (Accounts clientOf)
    (Orderly clientOf) (fun _ _ accounts here => accounts.step live here)
    (fresh risk seq, {}) calls start orderly
  have same := run_observe_fst (step host) ExitWatch.note (fresh risk seq, {}) calls
  rw [← same]
  exact (final.kept exit watched).imp_right (fun guarded => ⟨guarded.1.1, guarded.2⟩)

/-- A position whose exit is sent, replaced when it is stuck, and then filled. -/
def stuckExit : List Call :=
  [⟨1, .signal .buy 100 0⟩, ⟨2, .fill "MNQ-0-0" 100 1 true⟩, ⟨3, .flatten "eod_flatten" 100⟩,
    ⟨4, .retryStuckExit 99⟩, ⟨5, .fill "MNQ-0-3" 99 1 false⟩]

/-- A stuck exit whose order is still open is current, or guarded with its cancel requested. -/
theorem stuck_exit_guarded :
    ((run (step .accepting) (fresh {} 0) stuckExit).pos.state = .pendingExit ∧
        "MNQ-0-2" = (run (step .accepting) (fresh {} 0) stuckExit).pos.basketIdExit) ∨
      ("MNQ-0-2" ∈ (run (step .accepting) (fresh {} 0) stuckExit).cancelledStops ∧ "MNQ-0-2" ∈
        (run (observe (step .accepting) ExitWatch.note) (fresh {} 0, {}) stuckExit).2.requested) :=
  no_exit_left_behind Host.accepting_live (fun _ => "") {} 0 stuckExit (by decide +kernel)
    ("MNQ-0-2", 1) (by decide +kernel)

/-- An external close forgets the working exit of a closing position. -/
theorem external_close_leaves_exit :
    ¬∀ (host : Host), host.Live → ∀ (risk : RiskManager) (seq : Nat) (calls : List Call)
      (exit : String × Int), (∀ call ∈ calls, Ledger.Foreign host seq call.op) →
      exit ∈ (run (observe (step host) ExitWatch.note) (fresh risk seq, {}) calls).2.sent →
      ((run (step host) (fresh risk seq) calls).pos.state = .pendingExit ∧
          exit.1 = (run (step host) (fresh risk seq) calls).pos.basketIdExit) ∨
        (exit.1 ∈ (run (step host) (fresh risk seq) calls).cancelledStops ∧ exit.1 ∈
          (run (observe (step host) ExitWatch.note) (fresh risk seq, {}) calls).2.requested) := by
  intro accounted
  have kept := accounted .accepting Host.accepting_live {} 0
    (stuckExit.take 3 ++ [⟨4, .externalClose 90 "external_close"⟩]) ("MNQ-0-2", 1)
    (fun call inside => Ledger.foreign_of_not_brings (by revert call; decide +kernel))
    (by decide +kernel)
  revert kept
  decide +kernel

end OrderManager
end RithmicEngine
