import RithmicEngine.Execution.Guards
import RithmicEngine.Execution.Journal
/-!
# No protective stop is forgotten

A stop that the exchange may still fill is either the current stop or a guard. A
watch beside the run holds the stops that were sent or seeded and of which nothing
final was heard since, and no operation drops one of these from the book, except
the purge at a trade's close: it keeps a guard only while its cancel is on record
as not acknowledged, and a guard that was seeded without its server id has no
such record.
-/
namespace RithmicEngine

open Runs

variable {host : Host} {clientOf : String → String} {excused : Prop}

namespace Ledger

/-- The order is the current stop or a guard. -/
def Kept (excused : Prop) (l : Ledger) (basket : String) : Prop :=
  basket = l.stop ∨ Guarded excused l basket

variable {l : Ledger} {basket : String} {l' : Ledger}

/-- Every move keeps the stop on the book. -/
theorem Move.kept (move : Move host l l') (shape : Shape l) (known : basket ≠ "")
    (bound : l.Bound clientOf) (kept : Kept excused l basket) : Kept excused l' basket := by
  rcases kept with same | guarded
  · have stopped : l.stop ≠ "" := fun none => known (same.trans none)
    cases move with
    | enter direction regime request idle => exact absurd (shape.flat idle).2.2.1 stopped
    | refuseEntry request idle => exact absurd (shape.flat idle).2.2.1 stopped
    | abandon cancels pending => exact absurd (shape.pendingEntry pending).2.2 stopped
    | submitStop request held bare => exact absurd bare stopped
    | refuseStop request held bare => exact absurd bare stopped
    | cancelStop =>
      right
      rw [same]
      exact cancelStop_guarded l
    | sendExit request held bare => exact absurd bare stopped
    | refuseExit request held bare => exact absurd bare stopped
    | guardExit id closing => exact absurd (shape.pendingExit closing).2 stopped
    | recancel => exact Or.inl same
  · exact Or.inr (move.guarded bound guarded)

theorem Walk.kept (walk : Walk host l l') (shape : Shape l) (known : basket ≠ "")
    (bound : l.Bound clientOf) (kept : Kept excused l basket) : Kept excused l' basket := by
  induction walk with
  | refl => exact kept
  | tail walk move ih =>
    exact move.kept (Walk.shape walk shape) known (Walk.bound walk bound) ih

/-- Every fill keeps a stop that it does not drop, as it keeps a guard. -/
theorem Filled.kept {filledId : String} {price : ℚ} {qty : Int} {isEntry : Bool}
    (filled : Filled host filledId qty l isEntry l') (shape : Shape l) (known : basket ≠ "")
    (bound : l.Bound clientOf) (stays : ¬l.Drops (.fill filledId price qty isEntry) basket)
    (lasting : excused → l.Closes (.fill filledId price qty isEntry) → l.Recorded basket)
    (kept : Kept excused l basket) : Kept excused l' basket := by
  rcases kept with same | guarded
  · have stopped : l.stop ≠ "" := fun none => known (same.trans none)
    cases filled with
    | entered pending => exact absurd (shape.pendingEntry pending).2.2 stopped
    | closed held whole =>
      have other : basket ≠ filledId := by
        intro equal
        exact stays ⟨equal, not_heldBack_of_whole whole⟩
      exact Or.inr (close_guarded known other bound (Or.inl same)).excuse
    | _ => exact Or.inl same
  · exact Or.inr (filled.guarded known bound stays lasting guarded)

/-- A failed cancel keeps the stop on the book, whichever order it is about. -/
theorem readopt_kept {id client server : String} (known : basket ≠ "") (bound : l.Bound clientOf)
    (held : l.Open) (inside : client ∈ l.guards) (own : l.guardTrade.lookup client = some l.trade)
    (routes : l.Routes id client server) (kept : Kept excused l basket) :
    Kept excused ((l.makeRoom host client).readopt host client server) basket := by
  by_cases equal : basket = client
  · exact Or.inl equal
  · right
    rcases kept with same | guarded
    · -- The stop that stands in the way is cancelled first.
      have stopped : l.stop ≠ "" := fun none => known (same.trans none)
      have roomy : l.makeRoom host client = l.cancelStop host := by
        rw [Ledger.makeRoom, if_pos ⟨stopped, fun hit => equal (same.trans hit)⟩]
      have cancelled : Guarded excused (l.cancelStop host) basket := by
        rw [same]
        exact cancelStop_guarded l
      rw [roomy]
      apply cancelled.drop equal rfl rfl
      intro sid found
      simp only [readopt, Ledger.acknowledge]
      split
      next mapped =>
        have apart : sid ≠ server := by
          rintro rfl
          rcases routes with ⟨here, named⟩ | ⟨_, _, none, _⟩
          · have mine := (bound.cancelStop stopped).servers sid basket found
            exact equal (mine.symm.trans (bound.servers sid client (named ▸ here)))
          · exact mapped none
        rw [Table.lookup_erase, if_neg apart]
        exact found
      next => exact found
    · have step : Stepped host l (.cancelFailed id)
          ((l.makeRoom host client).readopt host client server) :=
        .readopted id client server held inside own routes
      apply step.guarded known bound trivial not_false
      · rintro ⟨_, names, _⟩
        exact equal (names.trans routes.names.symm)
      · exact fun _ closes => closes.elim
      · exact guarded

/-- Every step keeps on the book a stop that it does not drop. -/
theorem Stepped.kept {op : Op} (stepped : Stepped host l op l') (shape : Shape l)
    (known : basket ≠ "") (bound : l.Bound clientOf) (agrees : Agrees clientOf l op)
    (stays : ¬l.Drops op basket) (lasting : excused → l.Closes op → l.Recorded basket)
    (kept : Kept excused l basket) : Kept excused l' basket := by
  have guard (apart : ¬l.Readopts op basket) (guarded : Guarded excused l basket) :
      Kept excused l' basket :=
    Or.inr (stepped.guarded known bound agrees stays apart lasting guarded)
  cases stepped with
  | own initiates walk => exact Walk.kept walk shape known bound kept
  | ignored notifies => exact kept
  | filled filledId price qty isEntry filled =>
    exact filled.kept shape known bound stays lasting kept
  | rejectedEntry id pending named =>
    refine kept.elim (fun same => ?_) (guard not_false)
    exact absurd (same.trans (shape.pendingEntry pending).2.2) known
  | rejectedExit id closing named walk =>
    refine kept.elim (fun same => ?_) (guard not_false)
    exact absurd (same.trans (shape.pendingExit closing).2) known
  | rejectedStop id named =>
    refine kept.elim (fun same => ?_) (guard not_false)
    refine absurd (named.imp ?_ ?_) stays
    · exact fun hit => same.trans hit
    · exact fun hit => ⟨hit.1, hit.2, same⟩
  | readopted id client server held inside own routes =>
    exact readopt_kept known bound held inside own routes kept
  | externalClose price reason held =>
    have bare : Guarded excused (l.withdrawStop host) basket :=
      withdrawStop_guarded known bound kept
    exact Or.inr (bare.congr rfl rfl rfl)
  | _ => exact kept.elim Or.inl (guard not_false)

/-- The stops that a move sends are the ones it leaves on the position, or they are
guards by then. -/
theorem Walk.stops_kept (walk : Walk host l l') (shape : Shape l) (known : basket ≠ "")
    (bound : l.Bound clientOf) (sent : basket ∈ idsOf .stop l'.sent) :
    basket ∈ idsOf .stop l.sent ∨ Kept False l' basket := by
  induction walk with
  | refl => exact Or.inl sent
  | tail walk move ih =>
    rcases move.closing_sent.1 sent with before | current
    · refine (ih before).imp_right (fun kept => ?_)
      exact move.kept (Walk.shape walk shape) known (Walk.bound walk bound) kept
    · exact Or.inr (Or.inl current)

/-- Every stop that a step sends is on the book after it. -/
theorem Stepped.stops_kept {op : Op} (stepped : Stepped host l op l') (shape : Shape l)
    (known : basket ≠ "") (bound : l.Bound clientOf) (quiet : l.sent = [])
    (sent : basket ∈ idsOf .stop l'.sent) : Kept False l' basket := by
  have none : basket ∉ idsOf .stop l.sent := by
    rw [quiet]
    exact Finset.notMem_empty basket
  rcases stepped.sends with ⟨c, resumes, walk⟩ | unwinds
  · have before := Walk.stops_kept walk (resumes.shape shape) known (resumes.bound bound) sent
    rw [resumes.sent.1] at before
    exact before.resolve_left none
  · have initiated : Initiated .stop := trivial
    rw [unwinds.idsOf_eq (not_unwinds l op initiated)] at sent
    exact absurd sent none

end Ledger

namespace OrderManager

/-! ## The watch -/

/-- The stops of which nothing final was heard: those sent, with their quantities,
and those seeded at the start of the process. -/
structure Watch where
  sent : Finset (String × Int) := ∅
  seeded : Finset String := ∅

/-- The stop that the call seeds. -/
def seeds : Op → Finset String
  | .seedStop basket _ => {basket}
  | .seedServer _ client => {client}
  | _ => ∅

/-- The watch after a step: what was settled leaves it, what was sent or seeded
enters it. The size of a seeded stop is unknown, so every fill report of it that
is not put aside settles it. -/
def Watch.note (watch : Watch) (before : OrderManager) (call : Call) (after : OrderManager) :
    Watch where
  sent := watch.sent.filter (fun stop => ¬before.ledger.Settles call.op stop.1 stop.2) ∪
    sizesIn .stop after.outbox
  seeded := watch.seeded.filter (fun basket => ¬before.ledger.Drops call.op basket) ∪
    seeds call.op

/-- The stop is under watch. -/
def Watch.Holds (watch : Watch) (basket : String) : Prop :=
  (∃ size, (basket, size) ∈ watch.sent) ∨ basket ∈ watch.seeded

/-- A server id is seeded for a guard only. -/
def SeedsGuard (s : OrderManager) : Op → Prop
  | .seedServer _ client => client ∈ s.cancelledStops
  | _ => True

instance (s : OrderManager) (op : Op) : Decidable (s.SeedsGuard op) := by
  induction op using Op.casesOn
  all_goals
    dsimp only [SeedsGuard]
    infer_instance

/-- What the run asks of the exchange and of the seeding: server ids agree with the
assignment; a partial report of a stop comes while a larger position is held; a
server id is seeded only for a guard; and when a position closes, the cancel of
each seeded stop that is still open is on record. -/
@[mk_iff]
structure Recoverable (clientOf : String → String) (pair : OrderManager × Watch) (call : Call) :
    Prop where
  agrees : Ledger.Agrees clientOf pair.1.ledger call.op
  whole : pair.1.ledger.Whole call.op pair.2.sent
  seeds : pair.1.SeedsGuard call.op
  recorded : pair.1.ledger.Closes call.op → ∀ basket ∈ pair.2.seeded,
    ¬pair.1.ledger.Drops call.op basket → pair.1.ledger.Recorded basket

instance (clientOf : String → String) (pair : OrderManager × Watch) (call : Call) :
    Decidable (Recoverable clientOf pair call) :=
  decidable_of_iff' _ (recoverable_iff ..)

/-- The book is sound and has every stop under watch. -/
structure Remembers (clientOf : String → String) (pair : OrderManager × Watch) : Prop where
  shape : pair.1.ledger.Shape
  bound : pair.1.ledger.Bound clientOf
  kept : ∀ basket, basket ≠ "" → pair.2.Holds basket →
    Ledger.Kept (basket ∈ pair.2.seeded) pair.1.ledger basket

/-- Every recoverable step keeps every stop under watch on the book. -/
theorem Remembers.step (live : host.Live) {pair : OrderManager × Watch} {call : Call}
    (remembers : Remembers clientOf pair) (recoverable : Recoverable clientOf pair call) :
    Remembers clientOf (observe (OrderManager.step host) Watch.note pair call) := by
  obtain ⟨s, watch⟩ := pair
  obtain ⟨shape, bound, kept⟩ := remembers
  have stepped := step_refines live s call shape
  have cleared : s.cleared.Shape := shape.congr rfl rfl rfl rfl rfl
  have bound' : s.cleared.Bound clientOf := ⟨bound.servers, bound.orders, bound.stop⟩
  have agrees : Ledger.Agrees clientOf s.cleared call.op := recoverable.agrees
  refine ⟨step_shape live s call shape, stepped.bound bound' agrees, ?_⟩
  intro basket known holds
  -- A stop that was on the book and is not dropped stays on it.
  have stays (held : watch.Holds basket) (undropped : ¬s.ledger.Drops call.op basket) :
      Ledger.Kept (basket ∈ (watch.note s call (OrderManager.step host s call)).seeded)
        (OrderManager.step host s call).ledger basket := by
    have before : Ledger.Kept (basket ∈ watch.seeded) s.cleared basket := kept basket known held
    have lasting : basket ∈ watch.seeded → s.cleared.Closes call.op →
        s.cleared.Recorded basket :=
      fun seeded closes => recoverable.recorded closes basket seeded undropped
    have after := stepped.kept cleared known bound' agrees undropped lasting before
    refine after.imp_right (fun guarded => ⟨guarded.1, guarded.2.imp_left ?_⟩)
    intro seeded
    exact Finset.mem_union_left _ (Finset.mem_filter.mpr ⟨seeded, undropped⟩)
  rcases holds with ⟨size, sent⟩ | seeded
  · rcases Finset.mem_union.mp sent with watched | new
    · obtain ⟨inside, unsettled⟩ := Finset.mem_filter.mp watched
      exact stays (Or.inl ⟨size, inside⟩)
        (Ledger.not_drops recoverable.whole inside unsettled)
    · have sent := stepped.stops_kept cleared known bound' rfl (mem_idsOf_of_sizesIn new)
      exact sent.imp_right Ledger.Guarded.excuse
  · rcases Finset.mem_union.mp seeded with watched | new
    · obtain ⟨inside, undropped⟩ := Finset.mem_filter.mp watched
      exact stays (Or.inr inside) undropped
    · right
      refine ⟨?_, Or.inl seeded⟩
      obtain ⟨now, op⟩ := call
      cases op with
      | seedStop seeded wasBuy =>
        obtain rfl := Finset.mem_singleton.mp new
        exact (Table.mem_insert _ _ _ _).mpr (Or.inl rfl)
      | seedServer server client =>
        obtain rfl := Finset.mem_singleton.mp new
        exact recoverable.seeds
      | _ => exact absurd new (Finset.notMem_empty basket)

/-- In every run of recoverable steps from a newly constructed manager, a stop that
was sent or seeded and of which nothing final was heard is the current stop or a
guard. -/
theorem no_stop_forgotten (live : host.Live) (clientOf : String → String)
    (risk : RiskManager) (seq : Nat) (calls : List Call)
    (recoverable : Along (observe (step host) Watch.note) (Recoverable clientOf)
      (fresh risk seq, {}) calls)
    (basket : String) (known : basket ≠ "")
    (watched : (run (observe (step host) Watch.note) (fresh risk seq, {}) calls).2.Holds basket) :
    basket = (run (step host) (fresh risk seq) calls).pos.basketIdStop ∨
      basket ∈ (run (step host) (fresh risk seq) calls).cancelledStops := by
  have start : Remembers clientOf (fresh risk seq, {}) := by
    refine ⟨fresh_shape risk seq, fresh_bound risk seq, ?_⟩
    · rintro other _ (⟨size, sent⟩ | seeded)
      · exact absurd sent (Finset.notMem_empty _)
      · exact absurd seeded (Finset.notMem_empty _)
  have final := run_invariant (observe (step host) Watch.note) (Remembers clientOf)
    (Recoverable clientOf) (fun _ _ remembers here => remembers.step live here)
    (fresh risk seq, {}) calls start recoverable
  have same := run_observe_fst (step host) Watch.note (fresh risk seq, {}) calls
  rw [← same]
  exact (final.kept basket known watched).imp_right (fun guarded => guarded.1)

/-- A stop left by an earlier process, a trade and its close. -/
def inheritedStop (server : List Call) : List Call :=
  ⟨1, .seedStop "MNQ-0-9" false⟩ :: server ++
    [⟨2, .signal .buy 100 0⟩, ⟨3, .fill "MNQ-0-10" 100 1 true⟩,
      ⟨4, .stopServerMapped "MNQ-0-11" "S11"⟩, ⟨5, .flatten "eod_flatten" 100⟩,
      ⟨6, .fill "MNQ-0-12" 99 1 false⟩]

/-- The client order behind each server id of that run. -/
def inheritedClient (server : String) : String := if server = "S9" then "MNQ-0-9" else "MNQ-0-11"

/-- A stop from before the start is current or guarded. -/
theorem inherited_stop_kept :
    "MNQ-0-9" = (run (step .accepting) (fresh {} 10)
        (inheritedStop [⟨1, .seedServer "S9" "MNQ-0-9"⟩])).pos.basketIdStop ∨
      "MNQ-0-9" ∈ (run (step .accepting) (fresh {} 10)
        (inheritedStop [⟨1, .seedServer "S9" "MNQ-0-9"⟩])).cancelledStops :=
  no_stop_forgotten Host.accepting_live inheritedClient {} 10
    (inheritedStop [⟨1, .seedServer "S9" "MNQ-0-9"⟩]) (by decide +kernel) "MNQ-0-9" (by decide)
    (Or.inr (by decide +kernel))

/-- A stop whose server id the database did not know is purged at the next close. -/
theorem inherited_stop_forgotten :
    ¬∀ (host : Host), host.Live → ∀ (risk : RiskManager) (seq : Nat) (calls : List Call)
      (basket : String), basket ≠ "" → (∀ call ∈ calls, Ledger.Foreign host seq call.op) →
      (run (observe (step host) Watch.note) (fresh risk seq, {}) calls).2.Holds basket →
      basket = (run (step host) (fresh risk seq) calls).pos.basketIdStop ∨
        basket ∈ (run (step host) (fresh risk seq) calls).cancelledStops := by
  intro remembered
  have kept := remembered .accepting Host.accepting_live {} 10 (inheritedStop []) "MNQ-0-9"
    (by decide) ?_ (Or.inr (by decide +kernel))
  · revert kept
    decide +kernel
  · intro call inside n later
    rcases List.mem_cons.mp inside with rfl | rest
    · intro same
      have equal : Host.accepting.basketId 9 = Host.accepting.basketId n := same
      have number := Host.accepting.basketId_injective equal
      omega
    · exact Ledger.foreign_of_not_brings (by revert call; decide +kernel) n later

end OrderManager
end RithmicEngine
