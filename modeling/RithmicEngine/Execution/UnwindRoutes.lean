import RithmicEngine.Execution.HaltCauses
import RithmicEngine.Execution.RoutableIds
/-!
# The reconciler's cancel of its previous unwind

The reconciler cancels the unwind it sent before by the id that the order manager's
table of orders gives. The manager empties that table at every close, in the same act
of the reconciler even, and an unwind outlives the trade. So beside the manager's
cancels, which all go out under the server ids that were reported, this one does exactly
where nothing was closed between the report and the retry.
-/
namespace RithmicEngine

open Runs OrderManager

variable {host : Host} {clientOf : String → Option String} {inherited : Finset String} {seq : Nat}

/-- What the order manager is called for, an unwind that the start-up snapshot sends, and
an observation of the net position. -/
inductive Deed
  | call (call : Call)
  | unwind (moment : Moment) (qty : Int) (isBuy : Bool)
  | reconcile (moment : Moment) (net : Int) (consistent : Bool)
  deriving DecidableEq

/-- The ids of the orders that were cancelled beside the order manager's callbacks. -/
def recalledIn (sent : List Sent) : List String :=
  sent.filterMap fun
    | .cancelOrder id => some id
    | .unwind _ => none

/-- The unwinds that were sent. -/
def unwindsIn (sent : List Sent) : Finset String :=
  (sent.filterMap fun
    | .cancelOrder _ => none
    | .unwind order => some order.basket).toFinset

namespace Executor

/-- One deed; the outboxes afterwards hold what it sent. -/
def act (host : Host) (x : Executor) (deed : Deed) : Executor :=
  let x := { x with sent := [], manager := { x.manager with outbox := [] } }
  match deed with
  | .call call => x.onManager (OrderManager.perform host call)
  | .unwind moment qty isBuy => (x.sendUnwind host moment qty isBuy).1
  | .reconcile moment net consistent => x.reconcileNet host moment net consistent

/-- The ids of all cancels that the last deed sent. -/
def cancelled (x : Executor) : List String :=
  cancelsIn x.manager.outbox ++ recalledIn x.sent

/-- The reconciler acts and takes the position for closed. -/
def Adopts (host : Host) (moment : Moment) (net : Int) (consistent : Bool) (x : Executor) : Prop :=
  x.netVerdict host moment consistent = .mismatchAct ∧
    (Notif.planUnwind net x.manager.pos host.cfg.qty).adoptFlat = true
deriving Decidable

/-- What a deed reports, or wipes from the table of orders. -/
def reportedBy (host : Host) (d : Delivery) (x : Executor) : Deed → Delivery
  | .call call => d.note x.manager.ledger call.op
  | .unwind _ _ _ => d
  | .reconcile moment net consistent =>
    if x.Adopts host moment net consistent then
      d.note x.manager.ledger (.externalClose moment.lastPrice "external_close")
    else d

/-- The record of reports and unwinds beside the process. -/
def noteDeed (host : Host) (d : Delivery) (x : Executor) (deed : Deed) (after : Executor) :
    Delivery :=
  { reportedBy host d x deed with unwinds := d.unwinds ∪ unwindsIn after.sent }

/-- The calls of the order manager are those that the rest of the process and the
exchange make. -/
def Vouches (host : Host) (clientOf : String → Option String) (inherited : Finset String)
    (pair : Executor × Delivery) : Deed → Prop
  | .call call => Attested host clientOf inherited pair.2 pair.1.manager call.op
  | _ => True

/-- A call brings in no id of an order that the manager will send. -/
def Imports (host : Host) (seq : Nat) : Deed → Prop
  | .call call => Ledger.Foreign host seq call.op
  | _ => True

/-- Every cancel of an order that was reported goes out under its server id. -/
def RoutesAll (host : Host) (clientOf : String → Option String) (pair : Executor × Delivery)
    (deed : Deed) : Prop :=
  Routes clientOf pair.2.delivered (pair.1.act host deed).cancelled
deriving Decidable

/-- The reconciler retries after its previous unwind was reported and since then, or in
this act, a close emptied the table of orders. -/
def RetriesLost (host : Host) (pair : Executor × Delivery) : Deed → Prop
  | .reconcile moment net consistent =>
    pair.1.netVerdict host moment consistent = .mismatchAct ∧
      pair.1.lastUnwindBasket ∈ pair.2.delivered ∧
      (pair.1.lastUnwindBasket ∈ pair.2.wiped ∨
        (pair.1.Adopts host moment net consistent ∧
          pair.1.manager.ledger.Wipes (.externalClose moment.lastPrice "external_close")))
  | _ => False

instance (pair : Executor × Delivery) (deed : Deed) :
    Decidable (Vouches host clientOf inherited pair deed) := by
  induction deed using Deed.casesOn
  all_goals
    dsimp only [Vouches]
    infer_instance

instance (pair : Executor × Delivery) (deed : Deed) :
    Decidable (RetriesLost host pair deed) := by
  induction deed using Deed.casesOn
  all_goals
    dsimp only [RetriesLost]
    infer_instance

@[simp] theorem recalledIn_append (first second : List Sent) :
    recalledIn (first ++ second) = recalledIn first ++ recalledIn second :=
  List.filterMap_append

@[simp] theorem unwindsIn_append (first second : List Sent) :
    unwindsIn (first ++ second) = unwindsIn first ∪ unwindsIn second := by
  simp [unwindsIn]

/-- No unwind has the id of an order of the manager. -/
theorem unwind_basket_ne (host : Host) (moment : Moment) (qty : Int) (isBuy : Bool) (n : Nat) :
    (unwindOrder host moment qty isBuy).basket ≠ host.basketId n := by
  intro same
  have lists := congrArg String.toList same
  simp only [unwindOrder, Host.basketId, String.toList_append] at lists
  have middle : "-unwind-".toList = ['-', 'u', 'n', 'w', 'i', 'n', 'd'] ++ ['-'] := by decide
  have hyphen : "-".toList = ['-'] := by decide
  rw [middle, hyphen] at lists
  have heads : ['-', 'u', 'n', 'w', 'i', 'n', 'd'] ++ '-' :: (toString moment.epochMs).toList =
      ['-'] ++ (toString (host.epochMs n)).toList ++ '-' :: (toString n).toList := by
    simpa only [List.append_assoc, List.singleton_append, List.cons_append,
      List.append_cancel_left_eq, List.nil_append] using lists
  have first : 'u' ∈ (toString (host.epochMs n)).toList ++ '-' :: (toString n).toList := by
    have tails : ('u' :: 'n' :: 'w' :: 'i' :: 'n' :: 'd' :: '-' ::
        (toString moment.epochMs).toList) =
          (toString (host.epochMs n)).toList ++ '-' :: (toString n).toList := by
      simpa only [List.cons_append, List.nil_append, List.cons.injEq, true_and] using heads
    rw [← tails]
    exact List.mem_cons_self
  have digits (m : Nat) : 'u' ∉ (toString m).toList := by
    intro inside
    rw [Nat.toString_eq_ofList_toDigits, String.toList_ofList] at inside
    have digit : ('u' : Char).isDigit = true :=
      Nat.isDigit_of_mem_toDigits (by decide) (by decide) inside
    exact absurd digit (by decide)
  rcases List.mem_append.mp first with inside | inside
  · exact digits _ inside
  · rcases List.mem_cons.mp inside with clash | inside
    · exact absurd clash (by decide)
    · exact digits _ inside

/-- The manager's orders are routable, the previous unwind was sent, and unwinds are
client ids. -/
structure Tracks (host : Host) (clientOf : String → Option String) (inherited : Finset String)
    (seq : Nat) (x : Executor) (d : Delivery) : Prop where
  routable : Routable host clientOf inherited seq x.manager d
  last : x.lastUnwindBasket = "" ∨ x.lastUnwindBasket ∈ d.unwinds
  plain : ∀ basket ∈ d.unwinds, clientOf basket = none

variable {x : Executor} {s : OrderManager} {d : Delivery}

/-- What a call sent is no part of what keeps the orders routable. -/
theorem routable_emit (effects : List Effect)
    (routable : Routable host clientOf inherited seq s d) :
    Routable host clientOf inherited seq { s with outbox := effects } d := by
  obtain ⟨⟨shape, fresh, drawn, mapped, within, apart⟩, known, filed, listed, unwound⟩ := routable
  have separated : Separated host clientOf inherited seq { s with outbox := effects } := {
    shape := shape.congr rfl rfl rfl rfl rfl
    fresh := fun n later => { fresh n later with }
    drawn := drawn
    mapped := fun other => ⟨(mapped other).servers, (mapped other).orders, (mapped other).stop⟩
    within := ⟨within.stop, within.exit, within.trade⟩
    apart := apart.congr rfl rfl rfl apart.entered }
  exact ⟨separated, known, filed_of_quiet (t := { s with outbox := effects }) filed rfl, listed,
    unwound⟩

/-- After an empty outbox a call is a step. -/
theorem step_of_quiet (quiet : s.outbox = []) (call : Call) :
    OrderManager.step host s call = OrderManager.perform host call s := by
  have same : ({ s with outbox := [] } : OrderManager) = s := by
    rw [← quiet]
  rw [OrderManager.step, same]

/-- A change of nothing but what was sent keeps the ids tracked. -/
theorem Tracks.quiet {x y : Executor} {d : Delivery} {effects : List Effect}
    (tracks : Tracks host clientOf inherited seq x d)
    (manager : y.manager = { x.manager with outbox := effects })
    (last : y.lastUnwindBasket = "" ∨ y.lastUnwindBasket = x.lastUnwindBasket) :
    Tracks host clientOf inherited seq y d where
  routable := by
    rw [manager]
    exact routable_emit effects tracks.routable
  last := by
    rcases last with none | same
    · exact Or.inl none
    · rw [same]
      exact tracks.last
  plain := tracks.plain

/-- Lifting the ghost halt changes no order. -/
theorem Tracks.confirm (live : host.Live) (ids : ServerIds host clientOf)
    (left : ∀ n, seq ≤ n → host.basketId n ∉ inherited) {y : Executor}
    (tracks : Tracks host clientOf inherited seq x d)
    (manager : y.manager = x.manager.confirmExchangeFlat)
    (last : y.lastUnwindBasket = x.lastUnwindBasket) : Tracks host clientOf inherited seq y d where
  routable := by
    have attested : Attested host clientOf inherited d x.manager .confirmFlat :=
      ⟨trivial, trivial, trivial⟩
    have noted : d.note x.manager.ledger .confirmFlat = d := note_idle id rfl
    have called := tracks.routable.call live ids left ⟨0, .confirmFlat⟩
      (Ledger.foreign_of_not_brings rfl) attested
    rw [noted] at called
    rw [manager]
    exact routable_emit x.manager.outbox called
  last := by
    rw [last]
    exact tracks.last
  plain := tracks.plain

/-- Sending an unwind registers its basket. -/
theorem Tracks.unwind (live : host.Live) (ids : ServerIds host clientOf)
    (left : ∀ n, seq ≤ n → host.basketId n ∉ inherited)
    (clients : ∀ moment qty isBuy, clientOf (unwindOrder host moment qty isBuy).basket = none)
    (moment : Moment) (qty : Int) (isBuy : Bool) (tracks : Tracks host clientOf inherited seq x d) :
    ∃ sent, (x.sendUnwind host moment qty isBuy).1.sent = x.sent ++ sent ∧ recalledIn sent = [] ∧
      (x.sendUnwind host moment qty isBuy).1.manager.outbox = x.manager.outbox ∧
      Tracks host clientOf inherited seq (x.sendUnwind host moment qty isBuy).1
        { d with unwinds := d.unwinds ∪ unwindsIn sent } := by
  simp only [sendUnwind]
  split
  · refine ⟨[], (List.append_nil _).symm, rfl, rfl, ?_⟩
    have same : d.unwinds ∪ unwindsIn [] = d.unwinds := Finset.union_empty _
    rw [same]
    exact tracks
  · obtain ⟨basket, basketIs⟩ : ∃ basket, (unwindOrder host moment qty isBuy).basket = basket :=
      ⟨_, rfl⟩
    have foreign (n : Nat) : basket ≠ host.basketId n :=
      basketIs ▸ unwind_basket_ne host moment qty isBuy n
    have attested : Attested host clientOf inherited d x.manager (.registerUnwind basket) :=
      ⟨trivial, trivial, trivial⟩
    have noted : d.note x.manager.ledger (.registerUnwind basket) = d := note_idle id rfl
    have called := tracks.routable.call live ids left ⟨0, .registerUnwind basket⟩
      (fun n _ same => foreign n same) attested
    rw [noted] at called
    have registered := routable_emit x.manager.outbox called
    refine ⟨[.unwind (unwindOrder host moment qty isBuy)], rfl, rfl, rfl, ?_⟩
    have unwinds : unwindsIn [.unwind (unwindOrder host moment qty isBuy)] = {basket} := by
      rw [← basketIs]
      rfl
    rw [unwinds, basketIs]
    refine ⟨⟨registered.separated, registered.known, registered.filed, registered.listed, ?_⟩,
      Or.inr (Finset.mem_union_right _ (Finset.mem_singleton_self _)), ?_⟩
    · intro other inside
      rcases Finset.mem_union.mp inside with before | same
      · exact registered.unwound other before
      · rw [Finset.mem_singleton.mp same]
        exact foreign
    · intro other inside
      rcases Finset.mem_union.mp inside with before | same
      · exact tracks.plain other before
      · rw [Finset.mem_singleton.mp same, ← basketIs]
        exact clients moment qty isBuy

theorem routes_append {delivered : Finset String} (first second : List String) :
    Routes clientOf delivered (first ++ second) ↔
      Routes clientOf delivered first ∧ Routes clientOf delivered second := by
  simp [Routes, or_imp, forall_and]

/-- The id under which an unwind is cancelled is its server id exactly when it is still in
the table of orders. -/
theorem routableId_routes {delivered : Finset String} {basket : String}
    (mapped : s.ledger.Mapped clientOf) (plain : clientOf basket = none) :
    Routes clientOf delivered [s.routableId basket] ↔
      (basket ∈ delivered → s.serverToClientOrders.hasValue basket = true) := by
  constructor
  · intro routes inside
    by_contra unlisted
    have found : s.serverToClientOrders.keyOf? basket = none := by
      rw [Table.keyOf?_eq_none]
      exact Bool.not_eq_true _ ▸ unlisted
    have same : s.routableId basket = basket := by
      rw [routableId, cancelIdForLocked, found, Option.getD_none]
    have own := routes basket (List.mem_singleton.mpr same.symm) (by rwa [orderOf_plain plain])
    exact Option.some_ne_none _ (own.symm.trans plain)
  · intro listed id inside reported
    obtain rfl := List.mem_singleton.mp inside
    exact cancelIdFor_routes mapped plain listed reported

/-- Taking the position for closed cancels its stop under the id that was reported. -/
theorem Tracks.adopt (live : host.Live) (ids : ServerIds host clientOf)
    (left : ∀ n, seq ≤ n → host.basketId n ∉ inherited) {x y : Executor} {d : Delivery}
    {price : ℚ} {reason : String} (tracks : Tracks host clientOf inherited seq x d)
    (quiet : x.manager.outbox = [])
    (manager : y.manager = adoptExternalClose host price reason x.manager)
    (last : y.lastUnwindBasket = x.lastUnwindBasket) :
    Tracks host clientOf inherited seq y (d.note x.manager.ledger (.externalClose price reason)) ∧
      Routes clientOf d.delivered (cancelsIn y.manager.outbox) := by
  have attested : Attested host clientOf inherited d x.manager (.externalClose price reason) :=
    ⟨trivial, trivial, trivial⟩
  have called := tracks.routable.call live ids left ⟨0, .externalClose price reason⟩
    (Ledger.foreign_of_not_brings rfl) attested
  have routes := tracks.routable.routes ids ⟨0, .externalClose price reason⟩ attested.reports
  rw [step_of_quiet quiet] at called routes
  have unwinds := note_unwinds d x.manager.ledger (.externalClose price reason)
  refine ⟨⟨?_, ?_, ?_⟩, ?_⟩
  · rw [manager]
    exact called
  · rw [last, unwinds]
    exact tracks.last
  · rw [unwinds]
    exact tracks.plain
  · rw [manager]
    exact routes

/-- The reconciler's act keeps the record, and it cancels what was reported under the
server ids exactly when the previous unwind was not wiped. -/
theorem Tracks.act (live : host.Live) (ids : ServerIds host clientOf)
    (left : ∀ n, seq ≤ n → host.basketId n ∉ inherited)
    (clients : ∀ moment qty isBuy, clientOf (unwindOrder host moment qty isBuy).basket = none)
    {after : Delivery} (moment : Moment) (net : Int)
    (tracks : Tracks host clientOf inherited seq x d) (quiet : x.manager.outbox = [])
    (silent : x.sent = [])
    (noted : after = if (Notif.planUnwind net x.manager.pos host.cfg.qty).adoptFlat = true then
      d.note x.manager.ledger (.externalClose moment.lastPrice "external_close") else d) :
    Tracks host clientOf inherited seq (x.actOnMismatch host moment net)
        { after with
          unwinds := d.unwinds ∪ unwindsIn (x.actOnMismatch host moment net).sent } ∧
      (Routes clientOf d.delivered (x.actOnMismatch host moment net).cancelled ↔
        (x.lastUnwindBasket ∈ d.delivered → x.lastUnwindBasket ∉ after.wiped)) := by
  obtain ⟨plan, planIs⟩ : ∃ plan, Notif.planUnwind net x.manager.pos host.cfg.qty = plan := ⟨_, rfl⟩
  rw [planIs] at noted
  have kept : after.unwinds = d.unwinds ∧ after.ordered = d.ordered ∧
      after.delivered = d.delivered := by
    rw [noted]
    split
    · exact ⟨note_unwinds _ _ _, note_delivered rfl⟩
    · exact ⟨rfl, rfl, rfl⟩
  obtain ⟨halted, haltedIs⟩ : ∃ halted : Executor,
      halted = { x.halt "exchange_net_mismatch" with netHaltActive := true } := ⟨_, rfl⟩
  obtain ⟨closed, closedIs⟩ : ∃ closed, closed = (if plan.adoptFlat = true then
      halted.onManager (OrderManager.adoptExternalClose host moment.lastPrice "external_close")
      else halted) := ⟨_, rfl⟩
  have begun : Tracks host clientOf inherited seq closed after ∧
      Routes clientOf d.delivered (cancelsIn closed.manager.outbox) ∧ closed.sent = [] ∧
      closed.lastUnwindBasket = x.lastUnwindBasket := by
    rw [closedIs, noted]
    split
    · have adopted := @Tracks.adopt host clientOf inherited seq live ids left x
        (halted.onManager (OrderManager.adoptExternalClose host moment.lastPrice "external_close"))
        d moment.lastPrice "external_close" tracks quiet (by rw [haltedIs]; rfl)
        (by rw [haltedIs]; rfl)
      exact ⟨adopted.1, adopted.2, by rw [haltedIs]; exact silent, by rw [haltedIs]; rfl⟩
    · have same : halted.manager = { x.manager with outbox := x.manager.outbox } := by
        rw [haltedIs]
        rfl
      refine ⟨tracks.quiet same (Or.inr (by rw [haltedIs]; rfl)), ?_, ?_, ?_⟩
      · rw [same, quiet]
        exact fun _ inside => absurd inside List.not_mem_nil
      · rw [haltedIs]
        exact silent
      · rw [haltedIs]
        rfl
  obtain ⟨tracked, routes, unsent, last⟩ := begun
  obtain ⟨cancelled, cancelledIs⟩ : ∃ cancelled, cancelled = closed.cancelLastUnwind host :=
    ⟨_, rfl⟩
  have retried : cancelled.manager = closed.manager ∧ cancelled.lastUnwindBasket = "" ∧
      unwindsIn cancelled.sent = ∅ ∧ recalledIn cancelled.sent =
        if x.lastUnwindBasket = "" then [] else
          [closed.manager.routableId x.lastUnwindBasket] := by
    rw [cancelledIs, cancelLastUnwind, last, unsent]
    split
    next none => exact ⟨rfl, last.trans none, by rw [unsent]; rfl, by rw [unsent]; rfl⟩
    next =>
      rw [live.sends]
      exact ⟨rfl, rfl, rfl, rfl⟩
  have listed : Routes clientOf d.delivered (recalledIn cancelled.sent) ↔
      (x.lastUnwindBasket ∈ d.delivered → x.lastUnwindBasket ∉ after.wiped) := by
    have ordered (inside : x.lastUnwindBasket ∈ d.delivered) :
        x.lastUnwindBasket ∈ after.ordered :=
      tracked.routable.filed.reported (kept.2.2.symm ▸ inside)
    rw [retried.2.2.2]
    split
    next none =>
      refine iff_of_true (fun _ inside => absurd inside List.not_mem_nil) fun inside => ?_
      exact absurd (none ▸ ordered inside) tracked.routable.known
    next some =>
      have sent := tracked.last.resolve_left (last ▸ some)
      rw [last] at sent
      rw [routableId_routes tracked.routable.separated.mapped (tracked.plain _ sent)]
      exact forall_congr' fun inside => tracked.routable.listed _ (ordered inside)
  have tracked' : Tracks host clientOf inherited seq cancelled after := by
    have same : cancelled.manager = { closed.manager with outbox := closed.manager.outbox } :=
      retried.1
    exact tracked.quiet same (Or.inl retried.2.1)
  have acted : x.actOnMismatch host moment net =
      if plan.qty > 0 then (cancelled.sendUnwind host moment plan.qty plan.isBuy).1
      else cancelled := by
    simp only [actOnMismatch, planIs, haltedIs, closedIs, cancelledIs]
  rw [acted]
  split
  · obtain ⟨sent, sentIs, none, outbox, unwound⟩ :=
      tracked'.unwind live ids left clients moment plan.qty plan.isBuy
    constructor
    · rw [sentIs, unwindsIn_append, retried.2.2.1, Finset.empty_union, ← kept.1]
      exact unwound
    · rw [Executor.cancelled, outbox, sentIs, recalledIn_append, none, List.append_nil,
        routes_append, retried.1, listed]
      exact and_iff_right routes
  · constructor
    · rw [retried.2.2.1, Finset.union_empty, ← kept.1]
      exact tracked'
    · rw [Executor.cancelled, routes_append, retried.1, listed]
      exact and_iff_right routes

/-- A deed that sends nothing is no retry and cancels nothing under a wrong id. -/
theorem routesAll_of_silent {y : Executor} {deed : Deed} (acted : x.act host deed = y)
    (quiet : y.manager.outbox = []) (silent : y.sent = []) :
    RoutesAll host clientOf (x, d) deed := by
  rw [RoutesAll, acted, cancelled, quiet, silent]
  exact fun _ inside => absurd inside List.not_mem_nil

/-- Clearing a mismatch confirms the exchange flat at most. -/
theorem clearMismatch_parts (net : Int) (x : Executor) :
    ((clearMismatch net x).manager = x.manager ∨
        (clearMismatch net x).manager = x.manager.confirmExchangeFlat) ∧
      (clearMismatch net x).sent = x.sent ∧
      (clearMismatch net x).lastUnwindBasket = x.lastUnwindBasket := by
  simp only [clearMismatch]
  split_ifs
  · exact ⟨Or.inr rfl, rfl, rfl⟩
  · exact ⟨Or.inr rfl, rfl, rfl⟩
  · exact ⟨Or.inl rfl, rfl, rfl⟩
  · exact ⟨Or.inl rfl, rfl, rfl⟩
  · exact ⟨Or.inl rfl, rfl, rfl⟩

/-- The reconciler goes by its verdict. -/
theorem reconcileNet_verdict (moment : Moment) (net : Int) (consistent : Bool) (x : Executor) :
    x.reconcileNet host moment net consistent =
      let y := confirmBothFlat net consistent { x with netRecon :=
        (x.netRecon.observe consistent moment.nowMs host.cfg.netMismatchGraceMs 15000).1 }
      if x.netVerdict host moment consistent = .mismatchAct then y.actOnMismatch host moment net
      else if x.netVerdict host moment consistent = .ok then
        clearMismatch net { y with lastUnwindBasket := "" }
      else y := by
  obtain ⟨verdict, observed⟩ : ∃ verdict, (x.netRecon.observe consistent moment.nowMs
      host.cfg.netMismatchGraceMs 15000).2 = verdict := ⟨_, rfl⟩
  have decided : x.netVerdict host moment consistent = verdict := observed
  simp only [reconcileNet, observed, decided]
  cases verdict with
  | mismatchAct => rfl
  | ok => rfl
  | mismatchWait => rfl

/-- The reconciler keeps the record, and every cancel of an order that was reported goes
out under its server id unless it retries after a close. -/
theorem Tracks.reconcile (live : host.Live) (ids : ServerIds host clientOf)
    (left : ∀ n, seq ≤ n → host.basketId n ∉ inherited)
    (clients : ∀ moment qty isBuy, clientOf (unwindOrder host moment qty isBuy).basket = none)
    (moment : Moment) (net : Int) (consistent : Bool)
    (tracks : Tracks host clientOf inherited seq x d) :
    Tracks host clientOf inherited seq (x.act host (.reconcile moment net consistent))
        (noteDeed host d x (.reconcile moment net consistent)
          (x.act host (.reconcile moment net consistent))) ∧
      (RoutesAll host clientOf (x, d) (.reconcile moment net consistent) ↔
        ¬RetriesLost host (x, d) (.reconcile moment net consistent)) := by
  obtain ⟨start, startIs⟩ : ∃ start : Executor, start = { x with
      sent := [], manager := { x.manager with outbox := [] },
      netRecon := (x.netRecon.observe consistent moment.nowMs
        host.cfg.netMismatchGraceMs 15000).1 } :=
    ⟨_, rfl⟩
  have cleared : start.manager = { x.manager with outbox := [] } := by rw [startIs]
  have tracked : Tracks host clientOf inherited seq start d :=
    tracks.quiet cleared (Or.inr (by rw [startIs]))
  obtain ⟨y, yIs⟩ : ∃ y, y = confirmBothFlat net consistent start := ⟨_, rfl⟩
  have confirmed : Tracks host clientOf inherited seq y d ∧ y.manager.outbox = [] ∧ y.sent = [] ∧
      y.lastUnwindBasket = x.lastUnwindBasket ∧ y.manager.pos = x.manager.pos := by
    rw [yIs, confirmBothFlat]
    split
    · refine ⟨tracked.confirm live ids left rfl rfl, ?_, ?_, ?_, ?_⟩
      all_goals rw [startIs]; rfl
    · refine ⟨tracked, ?_, ?_, ?_, ?_⟩
      all_goals rw [startIs]
  obtain ⟨kept, quiet, silent, last, position⟩ := confirmed
  have acted : x.act host (.reconcile moment net consistent) =
      if x.netVerdict host moment consistent = .mismatchAct then y.actOnMismatch host moment net
      else if x.netVerdict host moment consistent = .ok then
        clearMismatch net { y with lastUnwindBasket := "" }
      else y := by
    rw [yIs, startIs]
    exact reconcileNet_verdict moment net consistent
      { x with sent := [], manager := { x.manager with outbox := [] } }
  have rests {z : Executor} (other : x.netVerdict host moment consistent ≠ .mismatchAct)
      (ended : x.act host (.reconcile moment net consistent) = z)
      (tracked : Tracks host clientOf inherited seq z d) (quiet : z.manager.outbox = [])
      (silent : z.sent = []) :
      Tracks host clientOf inherited seq (x.act host (.reconcile moment net consistent))
          (noteDeed host d x (.reconcile moment net consistent)
            (x.act host (.reconcile moment net consistent))) ∧
        (RoutesAll host clientOf (x, d) (.reconcile moment net consistent) ↔
          ¬RetriesLost host (x, d) (.reconcile moment net consistent)) := by
    have noted : noteDeed host d x (.reconcile moment net consistent) z = d := by
      have stays : ¬x.Adopts host moment net consistent := fun adopts => other adopts.1
      simp only [noteDeed, reportedBy, stays, ↓reduceIte, silent]
      exact congrArg (fun unwinds => { d with unwinds := unwinds }) (Finset.union_empty _)
    rw [ended, noted]
    exact ⟨tracked, iff_of_true (routesAll_of_silent ended quiet silent)
      fun lost => other lost.1⟩
  cases verdict : x.netVerdict host moment consistent with
  | mismatchAct =>
    rw [if_pos verdict] at acted
    have adopts : x.Adopts host moment net consistent ↔
        (Notif.planUnwind net y.manager.pos host.cfg.qty).adoptFlat = true := by
      rw [position]
      exact and_iff_right verdict
    have same : y.manager.ledger.Wipes (.externalClose moment.lastPrice "external_close") ↔
        x.manager.ledger.Wipes (.externalClose moment.lastPrice "external_close") := by
      simp only [Ledger.Wipes, Ledger.Open, ledger, position]
    have noted : reportedBy host d x (.reconcile moment net consistent) =
        if (Notif.planUnwind net y.manager.pos host.cfg.qty).adoptFlat = true then
          d.note y.manager.ledger (.externalClose moment.lastPrice "external_close")
        else d := by
      simp only [reportedBy, Delivery.note, adopts, same]
    obtain ⟨tracked, routes⟩ := kept.act live ids left clients moment net quiet silent noted
    rw [acted]
    refine ⟨tracked, ?_⟩
    rw [RoutesAll, acted, routes, last]
    have wiped : x.lastUnwindBasket ∈ d.delivered →
        (x.lastUnwindBasket ∈ (reportedBy host d x (.reconcile moment net consistent)).wiped ↔
          (x.lastUnwindBasket ∈ d.wiped ∨ (x.Adopts host moment net consistent ∧
            x.manager.ledger.Wipes (.externalClose moment.lastPrice "external_close")))) := by
      intro inside
      simp only [reportedBy, Delivery.note]
      split_ifs with adopted wipes
      · exact iff_of_true (tracks.routable.filed.reported inside) (Or.inr ⟨adopted, wipes⟩)
      · exact (or_iff_left fun both => wipes both.2).symm
      · exact (or_iff_left fun both => adopted both.1).symm
    simp only [RetriesLost, verdict, true_and, not_and]
    exact forall_congr' fun inside => not_congr (wiped inside)
  | ok =>
    simp only [verdict, reduceCtorEq, ↓reduceIte] at acted
    obtain ⟨manager, sent, forgotten⟩ :=
      clearMismatch_parts net ({ y with lastUnwindBasket := "" } : Executor)
    have begun : Tracks host clientOf inherited seq ({ y with lastUnwindBasket := "" } : Executor)
        d :=
      @Tracks.quiet host clientOf inherited seq y _ d y.manager.outbox kept rfl (Or.inl rfl)
    refine rests (by rw [verdict]; decide) acted ?_ ?_ (sent.trans silent)
    · rcases manager with same | lifted
      · have unsent : (clearMismatch net ({ y with lastUnwindBasket := "" } : Executor)).manager =
            { y.manager with outbox := y.manager.outbox } := same
        exact begun.quiet unsent (Or.inr forgotten)
      · exact begun.confirm live ids left lifted forgotten
    · rcases manager with same | lifted
      · rw [same]
        exact quiet
      · rw [lifted]
        exact quiet
  | mismatchWait =>
    simp only [verdict, reduceCtorEq, ↓reduceIte] at acted
    exact rests (by rw [verdict]; decide) acted kept quiet silent

/-- Every deed keeps the record, and each cancel of an order that was reported goes out
under its server id unless the reconciler retries after a close. -/
theorem Tracks.deed (live : host.Live) (ids : ServerIds host clientOf)
    (left : ∀ n, seq ≤ n → host.basketId n ∉ inherited)
    (clients : ∀ moment qty isBuy, clientOf (unwindOrder host moment qty isBuy).basket = none)
    (deed : Deed) (tracks : Tracks host clientOf inherited seq x d)
    (vouches : Vouches host clientOf inherited (x, d) deed) (imports : Imports host seq deed) :
    Tracks host clientOf inherited seq (x.act host deed)
      (noteDeed host d x deed (x.act host deed)) ∧
      (RoutesAll host clientOf (x, d) deed ↔ ¬RetriesLost host (x, d) deed) := by
  cases deed with
  | call call =>
    have routable := tracks.routable.call live ids left call imports vouches
    have routes := tracks.routable.routes ids call vouches.reports
    have unwinds := note_unwinds d x.manager.ledger call.op
    have noted : noteDeed host d x (.call call) (x.act host (.call call)) =
        d.note x.manager.ledger call.op := by
      have none : d.unwinds ∪ unwindsIn [] = (d.note x.manager.ledger call.op).unwinds := by
        rw [unwinds]
        exact Finset.union_empty _
      exact congrArg
        (fun unwinds => { d.note x.manager.ledger call.op with unwinds := unwinds }) none
    rw [noted]
    refine ⟨⟨routable, unwinds ▸ tracks.last, unwinds ▸ tracks.plain⟩, ?_⟩
    refine iff_of_true ?_ not_false
    rw [RoutesAll, cancelled]
    exact (routes_append _ _).mpr ⟨routes, fun _ inside => absurd inside List.not_mem_nil⟩
  | unwind moment qty isBuy =>
    obtain ⟨start, startIs⟩ : ∃ start : Executor, start = { x with
        sent := [], manager := { x.manager with outbox := [] } } := ⟨_, rfl⟩
    have cleared : start.manager = { x.manager with outbox := [] } := by rw [startIs]
    have tracked : Tracks host clientOf inherited seq start d :=
      tracks.quiet cleared (Or.inr (by rw [startIs]))
    obtain ⟨sent, sentIs, none, outbox, unwound⟩ :=
      tracked.unwind live ids left clients moment qty isBuy
    have acted : x.act host (.unwind moment qty isBuy) =
        (start.sendUnwind host moment qty isBuy).1 := by
      rw [startIs]
      rfl
    have silent : start.sent = [] := by rw [startIs]
    rw [silent, List.nil_append] at sentIs
    constructor
    · rw [acted, noteDeed, sentIs]
      exact unwound
    · refine iff_of_true ?_ not_false
      rw [RoutesAll, acted, cancelled, sentIs, none, outbox, cleared]
      exact fun _ inside => absurd inside List.not_mem_nil
  | reconcile moment net consistent =>
    exact tracks.reconcile live ids left clients moment net consistent

/-- A new session cycle. -/
def begun (risk : RiskManager) (seq : Nat) : Executor := { manager := OrderManager.fresh risk seq }

/-- A process that just began has nothing to route. -/
theorem begun_tracks (ids : ServerIds host clientOf) (risk : RiskManager) (seq : Nat) :
    Tracks host clientOf inherited seq (begun risk seq) {} where
  routable := {
    separated := fresh_separated risk seq
    known := Finset.notMem_empty _
    filed := {
      stop := fun stopped => absurd rfl stopped
      entry := fun entered => absurd rfl entered
      exit := fun exited => absurd rfl exited
      guards := fun _ inside => absurd inside (AList.notMem_empty _)
      plain := ids.empty
      unsent := fun _ _ => Finset.notMem_empty _
      reported := Finset.Subset.refl _ }
    listed := fun _ inside => absurd inside (Finset.notMem_empty _)
    unwound := fun _ inside => absurd inside (Finset.notMem_empty _) }
  last := Or.inl rfl
  plain := fun _ inside => absurd inside (Finset.notMem_empty _)

/-- In every run of the order manager and the reconciler each cancel of an order whose ids
were delivered goes out under its server id, exactly when the reconciler never retries
after a close since the delivery. -/
theorem routed_iff (live : host.Live) (ids : ServerIds host clientOf)
    (clients : ∀ moment qty isBuy, clientOf (unwindOrder host moment qty isBuy).basket = none)
    (risk : RiskManager) (seq : Nat) (left : ∀ n, seq ≤ n → host.basketId n ∉ inherited)
    (deeds : List Deed) (imports : ∀ deed ∈ deeds, Imports host seq deed)
    (vouches : Along (observe (act host) (noteDeed host)) (Vouches host clientOf inherited)
      (begun risk seq, {}) deeds) :
    Along (observe (act host) (noteDeed host)) (RoutesAll host clientOf)
      (begun risk seq, {}) deeds ↔
      Along (observe (act host) (noteDeed host)) (fun pair deed => ¬RetriesLost host pair deed)
        (begun risk seq, {}) deeds := by
  refine along_iff_of_base _ (fun pair => Tracks host clientOf inherited seq pair.1 pair.2) ?_ ?_
    _ deeds (begun_tracks ids risk seq) (along_and_of_mem _ _ deeds vouches imports)
  · rintro ⟨x, d⟩ deed tracks ⟨vouched, imported⟩
    exact (tracks.deed live ids left clients deed vouched imported).2
  · rintro ⟨x, d⟩ deed tracks ⟨vouched, imported⟩ _
    exact (tracks.deed live ids left clients deed vouched imported).1

/-- A deed that brings in no id at all. -/
def quietDeed : Deed → Bool
  | .call call => !Ledger.Brings call.op
  | _ => true

theorem imports_of_quiet {deed : Deed} (quiet : quietDeed deed = true) : Imports host seq deed := by
  cases deed with
  | call call =>
    have none : Ledger.Brings call.op = false := (Bool.not_eq_true' _).mp quiet
    exact Ledger.foreign_of_not_brings none
  | unwind => trivial
  | reconcile => trivial

/-- The exchange holds one contract more than the trade, the unwind of which is reported
but does not fill. -/
def restingUnwind : List Deed :=
  [.call ⟨1, .signal .buy 100 0⟩, .call ⟨2, .fill "MNQ-0-0" 100 1 true⟩,
    .reconcile { now := 1000000000 } 2 false,
      .reconcile { now := 7000000000, epochMs := 7 } 2 false,
    .call ⟨7000000001, .mapServer "MNQ-unwind-7" "U7"⟩,
    .call ⟨7000000002, .stopServerMapped "MNQ-unwind-7" "U7"⟩]

/-- The one server id of that run. -/
def unwindClient (server : String) : Option String :=
  if server = "U7" then some "MNQ-unwind-7" else none

theorem unwind_ids : ServerIds Host.accepting unwindClient :=
  .one (by decide) (accepting_apart (by decide))

/-- The order of an unwind is no client's. -/
theorem unwind_clients (moment : Moment) (qty : Int) (isBuy : Bool) :
    unwindClient (unwindOrder Host.accepting moment qty isBuy).basket = none := by
  have apart : (unwindOrder Host.accepting moment qty isBuy).basket ≠ "U7" := by
    intro same
    have heads := congrArg (fun id => id.toList.head?) same
    simp [unwindOrder, Host.accepting, String.toList_append] at heads
  rw [unwindClient, if_neg apart]

/-- The retry while the trade is open cancels the unwind by its server id. -/
theorem open_retry_routed :
    Along (observe (act Host.accepting) (noteDeed Host.accepting))
        (RoutesAll Host.accepting unwindClient) (begun {} 0, {})
        (restingUnwind ++ [.reconcile { now := 23000000000, epochMs := 23 } 2 false]) ↔
      Along (observe (act Host.accepting) (noteDeed Host.accepting))
        (fun pair deed => ¬RetriesLost Host.accepting pair deed) (begun {} 0, {})
        (restingUnwind ++ [.reconcile { now := 23000000000, epochMs := 23 } 2 false]) :=
  routed_iff Host.accepting_live unwind_ids unwind_clients {} 0
    (fun _ _ => Finset.notMem_empty _) _
    (fun deed inside => imports_of_quiet (by revert deed; decide +kernel)) (by decide +kernel)

/-- The retry that also takes the position for closed cancels the unwind by its client
id, which the exchange cannot route. -/
theorem closing_retry_lost :
    ¬∀ (host : Host), host.Live → ∀ (clientOf : String → Option String),
      ServerIds host clientOf →
      (∀ moment qty isBuy, clientOf (unwindOrder host moment qty isBuy).basket = none) →
      ∀ (risk : RiskManager) (seq : Nat) (deeds : List Deed),
      (∀ deed ∈ deeds, Imports host seq deed) →
      Along (observe (act host) (noteDeed host)) (Vouches host clientOf ∅) (begun risk seq, {})
        deeds →
      Along (observe (act host) (noteDeed host)) (RoutesAll host clientOf) (begun risk seq, {})
        deeds := by
  intro routed
  have along := routed Host.accepting Host.accepting_live unwindClient unwind_ids unwind_clients {}
    0 (restingUnwind ++ [.reconcile { now := 23000000000, epochMs := 23 } 0 false])
    (fun deed inside => imports_of_quiet (by revert deed; decide +kernel)) (by decide +kernel)
  obtain ⟨_, late⟩ := (along_append _ _ _ _ _).mp along
  have wrong : "MNQ-unwind-7" ∈ (((run (observe (act Host.accepting) (noteDeed Host.accepting))
      (begun {} 0, {}) restingUnwind).1).act Host.accepting
        (.reconcile { now := 23000000000, epochMs := 23 } 0 false)).cancelled := by
    decide +kernel
  have own := late.1 "MNQ-unwind-7" wrong (by decide +kernel)
  exact absurd own (by decide)

end Executor
end RithmicEngine
