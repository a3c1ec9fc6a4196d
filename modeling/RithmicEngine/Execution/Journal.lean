import RithmicEngine.Execution.LedgerRefinement
import Mathlib.Data.Finset.Lattice.Lemmas
/-!
# The journal of a run

Everything a run sent, in order, and the orders the exchange took among it. Each
order draws its id from one counter, so the ids of the orders in a journal are
those of strictly increasing sequence numbers, and an id identifies its order.
-/
namespace RithmicEngine

variable {host : Host}

/-- The orders the exchange took among the effects. -/
def accepted (effects : List Effect) : List (OrderRole × OrderRequest) :=
  effects.filterMap fun effect =>
    match effect with
    | .order role request true => some (role, request)
    | _ => none

@[simp] theorem accepted_nil : accepted [] = [] := rfl

@[simp] theorem accepted_append (first second : List Effect) :
    accepted (first ++ second) = accepted first ++ accepted second :=
  List.filterMap_append

@[simp] theorem accepted_taken (role : OrderRole) (request : OrderRequest) :
    accepted [.order role request true] = [(role, request)] := rfl

@[simp] theorem accepted_refused (role : OrderRole) (request : OrderRequest) :
    accepted [.order role request false] = [] := rfl

@[simp] theorem accepted_cancel (id : String) : accepted [.cancel id] = [] := rfl

@[simp] theorem accepted_flatFill (basket : String) : accepted [.flatFill basket] = [] := rfl

@[simp] theorem accepted_persistNotice (basket : String) (wasBuyStop : Bool) :
    accepted (host.persistNotice basket wasBuyStop) = [] := by
  simp only [Host.persistNotice]
  split
  · rfl
  · rfl

@[simp] theorem accepted_removeNotice (basket : String) :
    accepted (host.removeNotice basket) = [] := by
  simp only [Host.removeNotice]
  split
  · rfl
  · rfl

@[simp] theorem accepted_persistServerNotice (client server : String) :
    accepted (host.persistServerNotice client server) = [] := by
  simp only [Host.persistServerNotice]
  split
  · rfl
  · rfl

@[simp] theorem accepted_removeNotices (baskets : List String) :
    accepted (baskets.flatMap host.removeNotice) = [] := by
  induction baskets with
  | nil => rfl
  | cons basket rest ih =>
    rw [List.flatMap_cons, accepted_append, ih, accepted_removeNotice, List.append_nil]

variable {role : OrderRole} {effects : List Effect}

/-- Effects that are no orders bring nothing to the exchange. -/
theorem accepted_of_quiet (quiet : Ledger.Quiet effects) : accepted effects = [] := by
  rw [accepted, List.filterMap_eq_nil_iff]
  intro effect inside
  obtain ⟨id, rfl⟩ | ⟨client, server, rfl⟩ := quiet effect inside
  · rfl
  · rfl

theorem accepted_of_cancels (only : Ledger.Cancels effects) : accepted effects = [] :=
  accepted_of_quiet (fun effect inside => Or.inl (only effect inside))

/-! ## The ids of the orders of a role -/

/-- The ids of the orders of a role that the exchange took among the effects. -/
def idsOf (role : OrderRole) (effects : List Effect) : Finset String :=
  ((accepted effects).filterMap fun order =>
    if order.1 = role then some order.2.basket else none).toFinset

@[simp] theorem idsOf_append (role : OrderRole) (first second : List Effect) :
    idsOf role (first ++ second) = idsOf role first ∪ idsOf role second := by
  simp [idsOf]

theorem idsOf_eq_empty (none : accepted effects = []) : idsOf role effects = ∅ := by
  simp [idsOf, none]

theorem idsOf_congr {effects' : List Effect} (same : accepted effects' = accepted effects) :
    idsOf role effects' = idsOf role effects := by
  simp only [idsOf, same]

/-- The ids in a role are those of the requests accepted in it. -/
theorem mem_idsOf {basket : String} :
    basket ∈ idsOf role effects ↔
      ∃ request, (role, request) ∈ accepted effects ∧ request.basket = basket := by
  simp only [idsOf, List.mem_toFinset, List.mem_filterMap]
  constructor
  · rintro ⟨⟨kind, request⟩, inside, found⟩
    split at found
    next same =>
      simp only at same
      subst same
      exact ⟨request, inside, Option.some.inj found⟩
    next => exact absurd found (by simp)
  · rintro ⟨request, inside, rfl⟩
    refine ⟨(role, request), inside, ?_⟩
    simp

/-- An order that was refused, or is of another role, is none of the role. -/
@[simp] theorem idsOf_refused (role kind : OrderRole) (request : OrderRequest) :
    idsOf role [.order kind request false] = ∅ := idsOf_eq_empty rfl

theorem idsOf_other {kind : OrderRole} (other : kind ≠ role) (request : OrderRequest)
    (taken : Bool) :
    idsOf role [.order kind request taken] = ∅ := by
  cases taken with
  | true =>
    simp only [idsOf, accepted_taken, List.filterMap_cons, other, ↓reduceIte,
      List.filterMap_nil, List.toFinset_nil]
  | false => exact idsOf_refused role kind request

@[simp] theorem idsOf_taken (role : OrderRole) (request : OrderRequest) :
    idsOf role [.order role request true] = {request.basket} := by
  simp only [idsOf, accepted_taken, List.filterMap_cons, ↓reduceIte, List.filterMap_nil,
    List.toFinset_cons, List.toFinset_nil, insert_empty_eq]

/-- The orders of a role that the exchange took, with their quantities. -/
def sizesIn (role : OrderRole) (effects : List Effect) : Finset (String × Int) :=
  ((accepted effects).filterMap fun order =>
    if order.1 = role then some (order.2.basket, order.2.qty) else none).toFinset

/-- An order with a size has its id among those of its role. -/
theorem mem_idsOf_of_sizesIn {order : String × Int} (inside : order ∈ sizesIn role effects) :
    order.1 ∈ idsOf role effects := by
  simp only [sizesIn, List.mem_toFinset, List.mem_filterMap] at inside
  obtain ⟨⟨kind, request⟩, member, found⟩ := inside
  split at found
  next same =>
    simp only at same
    subst same
    refine mem_idsOf.mpr ⟨request, member, ?_⟩
    rw [← Option.some.inj found]
  next => exact absurd found (Option.some_ne_none order).symm

/-- The ids of the orders the exchange took among the effects, whatever their role. -/
def takenIn (effects : List Effect) : Finset String :=
  ((accepted effects).map fun order => order.2.basket).toFinset

@[simp] theorem takenIn_append (first second : List Effect) :
    takenIn (first ++ second) = takenIn first ∪ takenIn second := by
  simp [takenIn]

@[simp] theorem takenIn_taken (role : OrderRole) (request : OrderRequest) :
    takenIn [.order role request true] = {request.basket} := by
  simp [takenIn, insert_empty_eq]

theorem takenIn_eq_empty (none : accepted effects = []) : takenIn effects = ∅ := by
  simp [takenIn, none]

/-! ## Ids identify orders -/

/-- The orders carry the ids of increasing sequence numbers from the range. -/
def Numbered (host : Host) (low high : Nat) (orders : List (OrderRole × OrderRequest)) : Prop :=
  ∃ numbers : List Nat, orders.map (fun order => order.2.basket) = numbers.map host.basketId ∧
    numbers.Pairwise (· < ·) ∧ ∀ n ∈ numbers, low ≤ n ∧ n < high

namespace Numbered

theorem nil (low high : Nat) : Numbered host low high [] :=
  ⟨[], rfl, List.Pairwise.nil, fun _ inside => absurd inside List.not_mem_nil⟩

variable {low high : Nat}

theorem single {role : OrderRole} {request : OrderRequest}
    (basket : request.basket = host.basketId low) :
    Numbered host low (low + 1) [(role, request)] := by
  refine ⟨[low], ?_, List.pairwise_singleton _ _, ?_⟩
  · simp [basket]
  · intro n inside
    rw [List.mem_singleton.mp inside]
    omega

/-- Two numbered stretches of orders make one. -/
theorem append {middle : Nat} {first second : List (OrderRole × OrderRequest)}
    (front : Numbered host low middle first) (back : Numbered host middle high second)
    (below : low ≤ middle) (above : middle ≤ high) : Numbered host low high (first ++ second) := by
  obtain ⟨numbers, named, sorted, ranged⟩ := front
  obtain ⟨numbers', named', sorted', ranged'⟩ := back
  refine ⟨numbers ++ numbers', ?_, ?_, ?_⟩
  · rw [List.map_append, List.map_append, named, named']
  · rw [List.pairwise_append]
    refine ⟨sorted, sorted', ?_⟩
    intro n inside m inside'
    have upper := ranged n inside
    have lower := ranged' m inside'
    omega
  · intro n inside
    rcases List.mem_append.mp inside with inside | inside
    · have bounds := ranged n inside
      omega
    · have bounds := ranged' n inside
      omega

/-- Every order carries the id of a number from the range. -/
theorem number {orders : List (OrderRole × OrderRequest)} (numbered : Numbered host low high orders)
    {order : OrderRole × OrderRequest} (inside : order ∈ orders) :
    ∃ n, low ≤ n ∧ n < high ∧ order.2.basket = host.basketId n := by
  obtain ⟨numbers, named, _, ranged⟩ := numbered
  have listed : order.2.basket ∈ numbers.map host.basketId := by
    rw [← named]
    exact List.mem_map.mpr ⟨order, inside, rfl⟩
  obtain ⟨n, member, same⟩ := List.mem_map.mp listed
  exact ⟨n, (ranged n member).1, (ranged n member).2, same.symm⟩

/-- Two orders with one id are the same order. -/
theorem unique {orders : List (OrderRole × OrderRequest)} (numbered : Numbered host low high orders)
    {one other : OrderRole × OrderRequest} (inside : one ∈ orders) (inside' : other ∈ orders)
    (same : one.2.basket = other.2.basket) : one = other := by
  obtain ⟨numbers, named, sorted, _⟩ := numbered
  have distinct : (orders.map (fun order => order.2.basket)).Nodup := by
    rw [named]
    refine List.Nodup.map (fun m n equal => host.basketId_injective equal) ?_
    exact sorted.imp (fun below => Nat.ne_of_lt below)
  exact List.inj_on_of_nodup_map distinct inside inside' same

end Numbered

namespace Ledger

/-- An order the manager sends on its own initiative. -/
def Initiated : OrderRole → Prop
  | .unwind _ => False
  | _ => True

/-- The book answers a fill of the order with an unwind: the abandoned entry when
the fill is taken for an entry's, else the last guard and every other guard. -/
def Answers (l : Ledger) (isEntry : Bool) (basket : String) : Prop :=
  if isEntry then l.abandoned ≠ "" ∧ basket = l.abandoned
  else (l.lastStop ≠ "" ∧ basket = l.lastStop) ∨ basket ∈ l.guards
deriving Decidable

/-- Between two books the orders placed are of the given roles and carry the ids
drawn between them. -/
def Issues (host : Host) (roles : OrderRole → Prop) (l l' : Ledger) : Prop :=
  ∃ orders, accepted l'.sent = accepted l.sent ++ orders ∧
    Numbered host l.next l'.next orders ∧ ∀ order ∈ orders, roles order.1

variable {roles : OrderRole → Prop}

variable {l l' : Ledger}

/-- A book without a new order issues nothing. -/
theorem issues_of_same (same : accepted l'.sent = accepted l.sent) : Issues host roles l l' :=
  ⟨[], by rw [same, List.append_nil], Numbered.nil _ _,
    fun _ inside => absurd inside List.not_mem_nil⟩

theorem Issues.refl (l : Ledger) : Issues host roles l l := issues_of_same rfl

/-- Orders issued one after the other have their own numbers. -/
theorem Issues.trans {l'' : Ledger} (first : Issues host roles l l')
    (second : Issues host roles l' l'') (below : l.next ≤ l'.next) (above : l'.next ≤ l''.next) :
    Issues host roles l l'' := by
  obtain ⟨orders, sent, numbered, kinds⟩ := first
  obtain ⟨orders', sent', numbered', kinds'⟩ := second
  refine ⟨orders ++ orders', ?_, numbered.append numbered' below above, ?_⟩
  · rw [sent', sent, List.append_assoc]
  · intro order inside
    exact (List.mem_append.mp inside).elim (kinds order) (kinds' order)

theorem Issues.mono {more : OrderRole → Prop} (issues : Issues host roles l l')
    (wider : ∀ role, roles role → more role) : Issues host more l l' := by
  obtain ⟨orders, sent, numbered, kinds⟩ := issues
  exact ⟨orders, sent, numbered, fun order inside => wider order.1 (kinds order inside)⟩

/-- An order under the next id, taken or refused, is all a placement issues. -/
theorem issues_order (role : OrderRole) (request : OrderRequest) (taken : Bool)
    (sent : accepted l'.sent = accepted (l.sent ++ [.order role request taken]))
    (next : l'.next = l.next + 1) (kind : roles role)
    (basket : taken = true → request.basket = host.basketId l.next) : Issues host roles l l' := by
  cases taken with
  | true =>
    refine ⟨[(role, request)], ?_, ?_, ?_⟩
    · rw [sent, accepted_append, accepted_taken]
    · rw [next]
      exact Numbered.single (basket rfl)
    · intro order inside
      rw [List.mem_singleton.mp inside]
      exact kind
  | false =>
    refine issues_of_same ?_
    rw [sent, accepted_append, accepted_refused, List.append_nil]

theorem cancelStop_accepted (host : Host) (l : Ledger) :
    accepted (l.cancelStop host).sent = accepted l.sent := by
  simp only [cancelStop, accepted_append, accepted_persistNotice, accepted_cancel,
    List.append_nil]
  split
  · exact List.append_nil _
  · rw [accepted_persistServerNotice, List.append_nil]

theorem withdrawStop_accepted (host : Host) (l : Ledger) :
    accepted (l.withdrawStop host).sent = accepted l.sent := by
  simp only [withdrawStop]
  split
  · rfl
  · exact cancelStop_accepted host l

/-- Closing a position places no order. -/
theorem close_accepted (host : Host) (basket : String) (l : Ledger) :
    accepted (l.close host basket).sent = accepted l.sent := by
  have dropped : accepted (l.dropFilled host basket).sent = accepted l.sent := by
    simp only [dropFilled]
    split
    · rw [accepted_append, accepted_removeNotice, List.append_nil]
    · rfl
  have settled (c : Ledger) : accepted (c.settleStop host basket).sent = accepted c.sent := by
    simp only [settleStop]
    split_ifs
    · rfl
    · exact cancelStop_accepted host c
    · rw [accepted_append, accepted_removeNotice, List.append_nil]
  simp only [close, purge, reset, accepted_append, accepted_removeNotices, List.append_nil,
    settled, dropped]

/-- A move places orders of the initiated roles only, under the ids drawn for them. -/
theorem Move.issues (move : Move host l l') : Issues host Initiated l l' := by
  cases move with
  | enter direction regime request idle clear sided places taken =>
    exact issues_order .entry request true rfl rfl trivial (fun _ => places.basket)
  | refuseEntry request idle =>
    exact issues_order .entry request false rfl rfl trivial
      (fun taken => absurd taken Bool.false_ne_true)
  | abandon cancels pending only =>
    refine issues_of_same ?_
    simp only [Ledger.abandon, accepted_append, accepted_of_cancels only, List.append_nil]
  | submitStop request held bare places taken =>
    refine issues_order .stop request true ?_ rfl trivial (fun _ => places.basket)
    simp only [Ledger.submitStop, accepted_append, accepted_persistNotice, List.append_nil]
  | refuseStop request held bare =>
    exact issues_order .stop request false rfl rfl trivial
      (fun taken => absurd taken Bool.false_ne_true)
  | cancelStop held stopped => exact issues_of_same (cancelStop_accepted host l)
  | sendExit request held bare places taken =>
    exact issues_order .exit request true rfl rfl trivial (fun _ => places.basket)
  | refuseExit request held bare =>
    exact issues_order .exit request false rfl rfl trivial
      (fun taken => absurd taken Bool.false_ne_true)
  | guardExit id closing sent names =>
    refine issues_of_same ?_
    simp only [Ledger.guardExit, accepted_append, accepted_cancel, accepted_persistNotice,
      List.append_nil]
  | recancel cancels only =>
    refine issues_of_same ?_
    simp [Ledger.recancel, accepted_of_cancels only]

/-- A book that issues orders has the ones before among those the exchange took. -/
theorem Issues.takenIn_subset (issues : Issues host roles l l') :
    takenIn l.sent ⊆ takenIn l'.sent := by
  obtain ⟨orders, sent, _⟩ := issues
  intro basket inside
  simp only [takenIn, sent, List.map_append, List.toFinset_append]
  exact Finset.mem_union_left _ inside

theorem Walk.issues (walk : Walk host l l') : Issues host Initiated l l' := by
  induction walk with
  | refl => exact .refl l
  | tail walk move ih => exact ih.trans move.issues (Walk.next_le walk) move.next_le

/-- An unwind issues one order, under the next number. -/
theorem unwind_issues {c : Ledger} {fired : String} {request : OrderRequest} {taken register : Bool}
    (kind : roles (.unwind fired)) (sent : accepted c.sent = accepted l.sent)
    (next : c.next = l.next) (basket : request.basket = host.basketId l.next) :
    Issues host roles l (c.unwind host fired request taken register) := by
  refine issues_order (.unwind fired) request taken ?_ ?_ kind (fun _ => basket)
  · simp [unwind, order, sent]
  · simp only [unwind, order, next]

/-- A step that places no order of the role adds no id of the role. -/
theorem Issues.idsOf_eq {role : OrderRole} (issues : Issues host roles l l') (other : ¬roles role) :
    idsOf role l'.sent = idsOf role l.sent := by
  obtain ⟨orders, sent, _, kinds⟩ := issues
  ext basket
  simp only [mem_idsOf, sent, List.mem_append]
  constructor
  · rintro ⟨request, inside | inside, same⟩
    · exact ⟨request, inside, same⟩
    · exact absurd (kinds _ inside) other
  · rintro ⟨request, inside, same⟩
    exact ⟨request, Or.inl inside, same⟩

/-- The stops and exits a move sends are the ones it leaves on the position. -/
theorem Move.closing_sent {basket : String} (move : Move host l l') :
    (basket ∈ idsOf .stop l'.sent → basket ∈ idsOf .stop l.sent ∨ basket = l'.stop) ∧
      (basket ∈ idsOf .exit l'.sent → basket ∈ idsOf .exit l.sent ∨
        (basket = l'.exit ∧ l'.state = .pendingExit)) := by
  have same (sent : accepted l'.sent = accepted l.sent) :
      (basket ∈ idsOf .stop l'.sent → basket ∈ idsOf .stop l.sent ∨ basket = l'.stop) ∧
        (basket ∈ idsOf .exit l'.sent → basket ∈ idsOf .exit l.sent ∨
          (basket = l'.exit ∧ l'.state = .pendingExit)) := by
    rw [idsOf_congr sent, idsOf_congr sent]
    exact ⟨Or.inl, Or.inl⟩
  cases move with
  | enter direction regime request idle clear sided places taken =>
    simp only [Ledger.enter, order, idsOf_append, idsOf_other (by decide : OrderRole.entry ≠ .stop),
      idsOf_other (by decide : OrderRole.entry ≠ .exit), Finset.union_empty]
    exact ⟨Or.inl, Or.inl⟩
  | refuseEntry request idle =>
    simp only [Ledger.refuseEntry, reset, order, idsOf_append, idsOf_refused, Finset.union_empty]
    exact ⟨Or.inl, Or.inl⟩
  | abandon cancels pending only =>
    refine same ?_
    simp only [Ledger.abandon, accepted_append, accepted_of_cancels only, List.append_nil]
  | submitStop request held bare places taken =>
    simp only [Ledger.submitStop, idsOf_append, idsOf_taken,
      idsOf_other (by decide : OrderRole.stop ≠ .exit), idsOf_eq_empty (accepted_persistNotice _ _),
      Finset.union_empty, Finset.mem_union, Finset.mem_singleton, places.basket]
    exact ⟨id, Or.inl⟩
  | refuseStop request held bare =>
    simp only [Ledger.refuseStop, order, idsOf_append, idsOf_refused, Finset.union_empty]
    exact ⟨Or.inl, Or.inl⟩
  | cancelStop held stopped => exact same (cancelStop_accepted host l)
  | sendExit request held bare places taken =>
    simp only [Ledger.sendExit, order, idsOf_append, idsOf_taken,
      idsOf_other (by decide : OrderRole.exit ≠ .stop), Finset.union_empty, Finset.mem_union,
      Finset.mem_singleton, places.basket, and_true]
    exact ⟨Or.inl, id⟩
  | refuseExit request held bare =>
    simp only [Ledger.refuseExit, order, idsOf_append, idsOf_refused, Finset.union_empty]
    exact ⟨Or.inl, Or.inl⟩
  | guardExit id closing sent names =>
    refine same ?_
    simp only [Ledger.guardExit, accepted_append, accepted_cancel, accepted_persistNotice,
      List.append_nil]
  | recancel cancels only =>
    refine same ?_
    simp [Ledger.recancel, accepted_of_cancels only]

/-- The unwinds that a call may place: those of the order it reports filled. -/
def Unwinds (l : Ledger) : Op → OrderRole → Prop
  | .fill basket _ _ isEntry, role => role = .unwind basket ∧ l.Answers isEntry basket
  | _, _ => False

/-- No order of another role is placed as an unwind. -/
theorem not_unwinds {role : OrderRole} (l : Ledger) (op : Op) (initiated : Initiated role) :
    ¬l.Unwinds op role := by
  intro unwinds
  cases op with
  | fill basket price qty isEntry =>
    rw [unwinds.1] at initiated
    exact initiated
  | _ => exact unwinds

/-- A fill is followed by moves of the manager's own, or it places unwinds only. -/
theorem Filled.sends {basket : String} {price : ℚ} {qty : Int} {isEntry : Bool}
    (filled : Filled host basket qty l isEntry l') :
    (∃ c, Resumes l c ∧ Walk host c l') ∨
      Issues host (l.Unwinds (.fill basket price qty isEntry)) l l' := by
  have noted : accepted (l.noteFill basket).sent = accepted l.sent := by
    simp [noteFill]
  have dropped (c : Ledger) : accepted (dropFired host basket c).sent = accepted c.sent := by
    simp [dropFired]
  cases filled with
  | entered pending named whole protect =>
    exact Or.inl ⟨l.fillEntry, Or.inr (Or.inr ⟨pending, rfl⟩), .single protect⟩
  | late request elsewhere remembered named places =>
    exact Or.inr (unwind_issues ⟨rfl, remembered, named⟩ rfl rfl places.basket)
  | lastGuard request idle remembered named places =>
    exact Or.inr (unwind_issues ⟨rfl, Or.inl ⟨remembered, named⟩⟩ ((dropped _).trans noted) rfl
      places.basket)
  | guard request wasBuy idle other guarded places =>
    exact Or.inr (unwind_issues ⟨rfl, Or.inr (Table.mem_of_lookup guarded)⟩
      ((dropped _).trans noted) rfl places.basket)
  | unwound idle other free known => exact Or.inr (issues_of_same noted)
  | unknown idle other free unknown => exact Or.inr (issues_of_same noted)
  | closed held whole => exact Or.inr (issues_of_same (close_accepted host basket l))
  | _ => exact Or.inr (.refl l)

/-- A call is answered by moves of the manager's own, or it places unwinds only. -/
theorem Stepped.sends {op : Op} (stepped : Stepped host l op l') :
    (∃ c, Resumes l c ∧ Walk host c l') ∨ Issues host (l.Unwinds op) l l' := by
  have acknowledged (client : String) (servers : Table String String) (c : Ledger) :
      accepted (c.acknowledge host client servers).sent = accepted c.sent := by
    simp [acknowledge]
  cases stepped with
  | own initiates walk => exact Or.inl ⟨l, Or.inl rfl, walk⟩
  | ignored notifies => exact Or.inr (.refl l)
  | filled basket price qty isEntry filled => exact filled.sends
  | rejectedEntry basket pending named => exact Or.inr (issues_of_same rfl)
  | rejectedExit basket closing named walk =>
    exact Or.inl ⟨l.reopen, Or.inr (Or.inl ⟨closing, rfl⟩), walk⟩
  | rejectedStop basket named =>
    right
    apply issues_of_same
    simp [dropStop]
  | ackClient basket => exact Or.inr (issues_of_same (acknowledged _ _ l))
  | ackServer server client mapped => exact Or.inr (issues_of_same (acknowledged _ _ l))
  | readopted id client server held guarded own routes =>
    have roomy : accepted (l.makeRoom host client).sent = accepted l.sent := by
      simp only [makeRoom]
      split
      · exact cancelStop_accepted host l
      · rfl
    right
    apply issues_of_same
    simp only [readopt]
    exact (acknowledged client _ (l.makeRoom host client)).trans roomy
  | mapStop client server named known =>
    right
    apply issues_of_same
    simp [Ledger.mapStop]
  | mapGuard client server effects guarded quiet =>
    right
    apply issues_of_same
    simp [Ledger.mapGuard, accepted_of_quiet quiet]
  | mapOrder client server => exact Or.inr (issues_of_same rfl)
  | mapCancelled client server effects quiet =>
    right
    apply issues_of_same
    simp [accepted_of_quiet quiet]
  | mapCancelledGuard client server effects guarded quiet =>
    right
    apply issues_of_same
    simp [Ledger.mapGuard, Ledger.mapOrder, accepted_of_quiet quiet]
  | externalClose price reason held =>
    exact Or.inr (issues_of_same (withdrawStop_accepted host l))
  | _ => exact Or.inr (issues_of_same rfl)

/-- The roles of the orders that a call places. -/
def CallRoles (l : Ledger) (op : Op) (role : OrderRole) : Prop := Initiated role ∨ l.Unwinds op role

/-- Every step issues orders under the ids it draws, each under an id of its own,
and an unwind only as the answer to a fill. -/
theorem Stepped.issues {op : Op} (stepped : Stepped host l op l') :
    Issues host (l.CallRoles op) l l' := by
  rcases stepped.sends with ⟨c, resumes, walk⟩ | unwinds
  · obtain ⟨orders, sent, numbered, kinds⟩ := Walk.issues walk
    rw [resumes.sent.1] at sent
    rw [resumes.sent.2] at numbered
    exact ⟨orders, sent, numbered, fun order inside => Or.inl (kinds order inside)⟩
  · exact unwinds.mono (fun _ => Or.inr)

end Ledger

/-! ## Runs with their journal -/

namespace OrderManager

/-- A run of the manager with everything it sent, in order. -/
def journal {ι : Type} (act : OrderManager → ι → OrderManager) (start : OrderManager)
    (inputs : List ι) : OrderManager × List Effect :=
  Runs.run (Runs.observe act (fun log _ _ after => log ++ after.outbox)) (start, []) inputs

section

variable {ι : Type} (act : OrderManager → ι → OrderManager)

variable (start : OrderManager)

theorem journal_fst (inputs : List ι) : (journal act start inputs).1 = Runs.run act start inputs :=
  Runs.run_observe_fst act _ (start, []) inputs

/-- What was sent before stays at the front of the journal. -/
theorem run_log (log : List Effect) (start : OrderManager) (inputs : List ι) :
    (Runs.run (Runs.observe act (fun log _ _ after => log ++ after.outbox)) (start, log)
      inputs).2 = log ++ (journal act start inputs).2 := by
  induction inputs generalizing start log with
  | nil => exact (List.append_nil log).symm
  | cons input rest ih =>
    simp only [journal, Runs.run_cons, Runs.observe, List.nil_append] at ih ⊢
    rw [ih, ih (act start input).outbox, List.append_assoc]

theorem journal_cons (input : ι) (rest : List ι) :
    (journal act start (input :: rest)).2 =
      (act start input).outbox ++ (journal act (act start input) rest).2 := by
  simp only [journal, Runs.run_cons, Runs.observe, List.nil_append]
  exact run_log act _ (act start input) rest

theorem journal_append (first second : List ι) :
    (journal act start (first ++ second)).2 =
      (journal act start first).2 ++ (journal act (Runs.run act start first) second).2 := by
  induction first generalizing start with
  | nil => rfl
  | cons input rest ih =>
    rw [List.cons_append, journal_cons, journal_cons, ih, Runs.run_cons, List.append_assoc]

end

/-- The book is well shaped, its later ids are unused, and the journal's orders
are numbered by the ids drawn since the start. -/
structure Sound (host : Host) (seq : Nat) (s : OrderManager) (log : List Effect) : Prop where
  shape : s.ledger.Shape
  fresh : s.ledger.Fresh host
  drawn : seq ≤ s.seq
  numbered : Numbered host seq s.seq (accepted log)

theorem fresh_sound (host : Host) (risk : RiskManager) (seq : Nat) :
    Sound host seq (OrderManager.fresh risk seq) [] where
  shape := fresh_shape risk seq
  fresh := fresh_fresh risk seq
  drawn := Nat.le_refl seq
  numbered := Numbered.nil seq seq

/-- A step of the book extends a sound journal soundly. -/
theorem Sound.extend {seq : Nat} {s s' : OrderManager} {log : List Effect} {op : Op}
    (sound : Sound host seq s log) (stepped : Ledger.Stepped host s.cleared op s'.ledger)
    (foreign : Ledger.Foreign host seq op) : Sound host seq s' (log ++ s'.outbox) := by
  have cleared : s.cleared.Shape := sound.shape.congr rfl rfl rfl rfl rfl
  have unused : s.cleared.Fresh host := fun n later => { sound.fresh n later with }
  have later : s.seq ≤ s'.seq := stepped.next_le
  obtain ⟨orders, sent, numbered, _⟩ := stepped.issues
  exact {
    shape := stepped.shape cleared
    fresh := stepped.fresh unused (fun n low => foreign n (sound.drawn.trans low))
    drawn := sound.drawn.trans later
    numbered := by
      have issued : accepted s'.outbox = orders := sent
      rw [accepted_append, issued]
      exact sound.numbered.append numbered sound.drawn later }

theorem Sound.step (live : host.Live) {seq : Nat} {s : OrderManager} {log : List Effect}
    (sound : Sound host seq s log) (call : Call) (foreign : Ledger.Foreign host seq call.op) :
    Sound host seq (OrderManager.step host s call)
      (log ++ (OrderManager.step host s call).outbox) :=
  sound.extend (step_refines live s call sound.shape) foreign

/-- Every run of a newly constructed manager is sound. -/
theorem journal_sound (live : host.Live) (risk : RiskManager) (seq : Nat) (calls : List Call)
    (foreign : ∀ call ∈ calls, Ledger.Foreign host seq call.op) :
    Sound host seq (journal (OrderManager.step host) (OrderManager.fresh risk seq) calls).1
      (journal (OrderManager.step host) (OrderManager.fresh risk seq) calls).2 := by
  have general : ∀ (calls : List Call) (pair : OrderManager × List Effect),
      Sound host seq pair.1 pair.2 → (∀ call ∈ calls, Ledger.Foreign host seq call.op) →
      Sound host seq
        (Runs.run (Runs.observe (OrderManager.step host)
          (fun log _ _ after => log ++ after.outbox)) pair calls).1
        (Runs.run (Runs.observe (OrderManager.step host)
          (fun log _ _ after => log ++ after.outbox)) pair calls).2 := by
    intro calls
    induction calls with
    | nil => exact fun pair sound _ => sound
    | cons call rest ih =>
      intro pair sound foreign
      refine ih _ (sound.step live call (foreign call List.mem_cons_self)) ?_
      intro later inside
      exact foreign later (List.mem_cons_of_mem call inside)
  exact general calls (OrderManager.fresh risk seq, []) (fresh_sound host risk seq) foreign

end OrderManager

end RithmicEngine
