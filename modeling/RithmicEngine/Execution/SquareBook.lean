import RithmicEngine.Execution.OrderSides
import Mathlib.Algebra.BigOperators.Group.Finset.Basic
import Mathlib.Algebra.Order.Group.Abs
import Mathlib.Tactic.Linarith
/-!
# When entries are enabled the book is square

With a fixed quantity every order of the manager has the configured quantity, so
the fills of a trade cancel, and so do the fill of a guard and its unwind. What is
neither a position nor covered by an unwind under way is loose, and the ghost halt
is there to cover it: an unknown fill sets it. The halt is one flag, though, and
the fill of any unwind lifts it, so with two unknown fills, or an unknown fill next
to the unwind of a guard, it is lifted while exposure remains.
-/
namespace RithmicEngine

variable {host : Host} {signed : String → Int}

/-- The signed quantity of an order. -/
def signedQty (request : OrderRequest) : Int := if request.isBuy then request.qty else -request.qty

/-- The configured quantity on a side. -/
def Host.sideQty (host : Host) (isBuy : Bool) : Int :=
  if isBuy then host.cfg.qty else -host.cfg.qty

theorem Host.sideQty_not (host : Host) (isBuy : Bool) :
    host.sideQty (!isBuy) = -host.sideQty isBuy := by
  cases isBuy with
  | true => rfl
  | false => exact (neg_neg host.cfg.qty).symm

theorem Host.abs_sideQty (host : Host) (isBuy : Bool) : |host.sideQty isBuy| = |host.cfg.qty| := by
  cases isBuy with
  | true => rfl
  | false => exact abs_neg host.cfg.qty

/-- An order of the configured quantity is signed by its side. -/
theorem signedQty_of_qty {request : OrderRequest} (whole : request.qty = host.cfg.qty) :
    signedQty request = host.sideQty request.isBuy := by
  rw [signedQty, Host.sideQty, whole]

/-- The ids of the unwinds that the exchange took among the effects. -/
def unwindIds (effects : List Effect) : Finset String :=
  ((accepted effects).filterMap fun order =>
    match order.1 with
    | .unwind _ => some order.2.basket
    | _ => none).toFinset

variable {effects : List Effect}

/-- The ids of the unwinds are those of the requests accepted for one. -/
theorem mem_unwindIds {basket : String} :
    basket ∈ unwindIds effects ↔
      ∃ fired request, (.unwind fired, request) ∈ accepted effects ∧ request.basket = basket := by
  simp only [unwindIds, List.mem_toFinset, List.mem_filterMap]
  constructor
  · rintro ⟨⟨role, request⟩, inside, found⟩
    cases role with
    | unwind fired => exact ⟨fired, request, inside, Option.some.inj found⟩
    | _ => exact absurd found (Option.some_ne_none basket).symm
  · rintro ⟨fired, request, inside, rfl⟩
    exact ⟨(.unwind fired, request), inside, rfl⟩

/-- Without a new order there is no new unwind. -/
theorem unwindIds_eq_empty (none : accepted effects = []) : unwindIds effects = ∅ := by
  simp [unwindIds, none]

/-- One unwind taken by the exchange. -/
theorem unwindIds_single {fired : String} {request : OrderRequest}
    (single : accepted effects = [(.unwind fired, request)]) :
    unwindIds effects = {request.basket} := by
  simp only [unwindIds, single, List.filterMap_cons, List.filterMap_nil, List.toFinset_cons,
    List.toFinset_nil, insert_empty_eq]

namespace Ledger

/-- The signed quantity of the position on the book; a pending entry holds none. -/
def exposure (host : Host) (l : Ledger) : Int :=
  match l.state with
  | .flat | .pendingEntry => 0
  | _ => host.sideQty (decide (l.direction = .buy))

/-- A position has the configured quantity. -/
def Fixed (host : Host) (l : Ledger) : Prop := l.state ≠ .flat → l.qty = host.cfg.qty

variable {l : Ledger} {basket : String} {qty : Int} {isEntry : Bool} {l' : Ledger}

theorem exposure_idle (idle : l.state = .flat ∨ l.state = .pendingEntry) : l.exposure host = 0 := by
  rcases idle with flat | pending
  · simp only [exposure, flat]
  · simp only [exposure, pending]

theorem exposure_held (held : l.Open ∨ l.state = .pendingExit) :
    l.exposure host = host.sideQty (decide (l.direction = .buy)) := by
  rcases held with (long | short) | closing
  · simp only [exposure, long]
  · simp only [exposure, short]
  · simp only [exposure, closing]

theorem heldState_held (opened : l.state = heldState l.direction) :
    l.Open ∨ l.state = .pendingExit := by
  left
  rw [Open, opened]
  exact heldState_open l.direction

/-- The side against a direction has the opposite quantity. -/
theorem sideQty_against (sided : l.direction = .buy ∨ l.direction = .sell) :
    host.sideQty (decide (l.direction = .sell)) = -host.sideQty (decide (l.direction = .buy)) := by
  rcases sided with buy | sell
  · rw [buy]
    exact Host.sideQty_not host true
  · rw [sell]
    exact Host.sideQty_not host false

/-- A move changes neither the exposure, nor the halt, nor the unwinds. -/
theorem Move.square (move : Move host l l') (fixed : host.cfg.vtRiskUsd ≤ 0)
    (whole : Fixed host l) :
    l'.exposure host = l.exposure host ∧ l'.ghost = l.ghost ∧ l'.unwinds = l.unwinds ∧
      Fixed host l' := by
  have same {c : Ledger} (state : c.state = l.state) (direction : c.direction = l.direction)
      (qty : c.qty = l.qty) : c.exposure host = l.exposure host ∧ Fixed host c := by
    simp only [exposure, Fixed, state, direction, qty]
    exact ⟨trivial, whole⟩
  have opened (c : Ledger) (held : l.Open ∨ l.state = .pendingExit)
      (held' : c.Open ∨ c.state = .pendingExit) (direction : c.direction = l.direction)
      (qty : c.qty = l.qty) : c.exposure host = l.exposure host ∧ Fixed host c := by
    have busy : l.state ≠ .flat := by
      rcases held with held | closing
      · exact held.states.1
      · rw [closing]
        decide
    refine ⟨?_, fun _ => qty.trans (whole busy)⟩
    rw [exposure_held held, exposure_held held', direction]
  cases move with
  | enter direction regime request idle =>
    refine ⟨?_, rfl, rfl, fun _ => RegimeState.qtyFor_fixed host.cfg regime fixed⟩
    rw [exposure_idle (Or.inl idle)]
    exact exposure_idle (Or.inr rfl)
  | refuseEntry request idle =>
    refine ⟨?_, rfl, rfl, fun busy => absurd rfl busy⟩
    rw [exposure_idle (Or.inl idle)]
    exact exposure_idle (Or.inl rfl)
  | abandon cancels pending =>
    refine ⟨?_, rfl, rfl, fun busy => absurd rfl busy⟩
    rw [exposure_idle (Or.inr pending)]
    exact exposure_idle (Or.inl rfl)
  | submitStop =>
    obtain ⟨equal, kept⟩ := same rfl rfl rfl
    exact ⟨equal, rfl, rfl, kept⟩
  | refuseStop =>
    obtain ⟨equal, kept⟩ := same rfl rfl rfl
    exact ⟨equal, rfl, rfl, kept⟩
  | cancelStop =>
    obtain ⟨equal, kept⟩ := same rfl rfl rfl
    exact ⟨equal, rfl, rfl, kept⟩
  | sendExit request held =>
    obtain ⟨equal, kept⟩ := opened (l.sendExit host request) (Or.inl held) (Or.inr rfl) rfl rfl
    exact ⟨equal, rfl, rfl, kept⟩
  | refuseExit request held =>
    obtain ⟨equal, kept⟩ := opened (l.refuseExit request) (Or.inl held) (heldState_held rfl) rfl rfl
    exact ⟨equal, rfl, rfl, kept⟩
  | guardExit id closing =>
    obtain ⟨equal, kept⟩ := opened (l.guardExit host id) (Or.inr closing)
      (heldState_held rfl) rfl rfl
    exact ⟨equal, rfl, rfl, kept⟩
  | recancel =>
    obtain ⟨equal, kept⟩ := same rfl rfl rfl
    exact ⟨equal, rfl, rfl, kept⟩

/-- Moves with fixed sizes leave exposure, ghost and unwinds. -/
theorem Walk.square (walk : Walk host l l') (fixed : host.cfg.vtRiskUsd ≤ 0)
    (whole : Fixed host l) :
    l'.exposure host = l.exposure host ∧ l'.ghost = l.ghost ∧ l'.unwinds = l.unwinds ∧
      Fixed host l' := by
  induction walk with
  | refl => exact ⟨rfl, rfl, rfl, whole⟩
  | tail walk move ih =>
    obtain ⟨exposure, ghost, unwinds, kept⟩ := ih
    obtain ⟨exposure', ghost', unwinds', kept'⟩ := move.square fixed kept
    exact ⟨exposure'.trans exposure, ghost'.trans ghost, unwinds'.trans unwinds, kept'⟩

/-- Every order of a move has the configured quantity. -/
theorem Move.sizes (move : Move host l l') (fixed : host.cfg.vtRiskUsd ≤ 0) (whole : Fixed host l)
    (sized : ∀ order ∈ accepted l.sent, order.2.qty = host.cfg.qty) :
    ∀ order ∈ accepted l'.sent, order.2.qty = host.cfg.qty := by
  have added {sent : List Effect} (role : OrderRole) {request : OrderRequest}
      (same : accepted sent = accepted l.sent ++ [(role, request)])
      (qty : request.qty = host.cfg.qty) : ∀ order ∈ accepted sent, order.2.qty = host.cfg.qty := by
    intro order inside
    rw [same] at inside
    rcases List.mem_append.mp inside with before | new
    · exact sized order before
    · rw [List.mem_singleton.mp new]
      exact qty
  have silent {sent : List Effect} (same : accepted sent = accepted l.sent) :
      ∀ order ∈ accepted sent, order.2.qty = host.cfg.qty := by
    rw [same]
    exact sized
  cases move with
  | enter direction regime request idle clear sided places taken =>
    refine added .entry ?_ (places.qty.trans (RegimeState.qtyFor_fixed host.cfg regime fixed))
    simp [Ledger.enter, order]
  | refuseEntry request idle =>
    refine silent ?_
    simp [Ledger.refuseEntry, reset, order]
  | abandon cancels pending only =>
    refine silent ?_
    simp [Ledger.abandon, accepted_of_cancels only]
  | submitStop request held bare places taken =>
    refine added .stop ?_ (places.qty.trans ?_)
    · simp only [Ledger.submitStop, accepted_append, accepted_taken, accepted_persistNotice,
        List.append_nil]
    · rw [whole held.states.1]
      split
      · rfl
      · rfl
  | refuseStop request held bare =>
    refine silent ?_
    simp [Ledger.refuseStop, order]
  | cancelStop held stopped => exact silent (cancelStop_accepted host l)
  | sendExit request held bare places taken =>
    refine added .exit ?_ (places.qty.trans (whole held.states.1))
    simp [Ledger.sendExit, order]
  | refuseExit request held bare =>
    refine silent ?_
    simp only [Ledger.refuseExit, order, accepted_append, accepted_refused, List.append_nil]
  | guardExit id closing sent names =>
    refine silent ?_
    simp only [Ledger.guardExit, accepted_append, accepted_cancel, accepted_persistNotice,
      List.append_nil]
  | recancel cancels only =>
    refine silent ?_
    simp [Ledger.recancel, accepted_of_cancels only]

theorem Walk.sizes (walk : Walk host l l') (fixed : host.cfg.vtRiskUsd ≤ 0) (whole : Fixed host l)
    (sized : ∀ order ∈ accepted l.sent, order.2.qty = host.cfg.qty) :
    ∀ order ∈ accepted l'.sent, order.2.qty = host.cfg.qty := by
  induction walk with
  | refl => exact sized
  | tail walk move ih => exact move.sizes fixed (Walk.square walk fixed whole).2.2.2 ih

/-- Every order of a fill has the configured quantity. -/
theorem Filled.sizes (filled : Filled host basket qty l isEntry l') (fixed : host.cfg.vtRiskUsd ≤ 0)
    (whole : Fixed host l) (quiet : l.sent = []) :
    ∀ order ∈ accepted l'.sent, order.2.qty = host.cfg.qty := by
  have none {sent : List Effect} (silent : accepted sent = []) :
      ∀ order ∈ accepted sent, order.2.qty = host.cfg.qty := by
    rw [silent]
    exact fun order inside => absurd inside List.not_mem_nil
  have noted : accepted (l.noteFill basket).sent = [] := by
    rw [noteFill, quiet]
    rfl
  have unwound {c : Ledger} {request : OrderRequest} {taken register : Bool}
      (silent : accepted c.sent = []) (size : request.qty = host.cfg.qty) :
      ∀ order ∈ accepted (c.unwind host basket request taken register).sent,
        order.2.qty = host.cfg.qty := by
    simp only [Ledger.unwind, order, accepted_append, silent, List.nil_append]
    cases taken with
    | true =>
      intro order inside
      rw [List.mem_singleton.mp inside]
      exact size
    | false => exact fun order inside => absurd inside List.not_mem_nil
  have dropped (c : Ledger) : accepted (dropFired host basket c).sent = accepted c.sent := by
    rw [dropFired, accepted_append, accepted_removeNotice, List.append_nil]
  have start : accepted l.sent = [] := by
    rw [quiet]
    rfl
  cases filled with
  | late request elsewhere remembered named places => exact unwound start places.qty
  | entered pending named part protect =>
    have busy : l.state ≠ .flat := by
      rw [pending]
      decide
    exact protect.sizes fixed (fun _ => whole busy) (none start)
  | lastGuard request idle remembered named places =>
    exact unwound ((dropped _).trans noted) places.qty
  | guard request wasBuy idle other guarded places =>
    exact unwound ((dropped _).trans noted) places.qty
  | unwound => exact none noted
  | unknown => exact none noted
  | closed => exact none ((close_accepted host basket l).trans start)
  | _ => exact none start

/-- Every order of a step has the configured quantity. -/
theorem Stepped.sizes {op : Op} (stepped : Stepped host l op l') (fixed : host.cfg.vtRiskUsd ≤ 0)
    (whole : Fixed host l) (quiet : l.sent = []) :
    ∀ order ∈ accepted l'.sent, order.2.qty = host.cfg.qty := by
  cases op with
  | fill basket price qty isEntry => exact stepped.isFilled.sizes fixed whole quiet
  | _ =>
    rcases stepped.sends with ⟨c, resumes, walk⟩ | ⟨orders, sent, _, kinds⟩
    · have kept : Fixed host c := by
        rcases resumes with rfl | ⟨closing, rfl⟩ | ⟨pending, rfl⟩
        · exact whole
        · exact fun _ => whole (by rw [closing]; decide)
        · exact fun _ => whole (by rw [pending]; decide)
      apply Walk.sizes walk fixed kept
      rw [resumes.sent.1, quiet]
      exact fun order inside => absurd inside List.not_mem_nil
    · intro order inside
      rw [sent, quiet, accepted_nil, List.nil_append] at inside
      exact (kinds order inside).elim

/-- Orders that are no unwinds add no unwind. -/
theorem Issues.unwindIds_eq {roles : OrderRole → Prop} (issues : Issues host roles l l')
    (quiet : l.sent = []) (others : ∀ fired, ¬roles (.unwind fired)) : unwindIds l'.sent = ∅ := by
  obtain ⟨orders, sent, _, kinds⟩ := issues
  rw [Finset.eq_empty_iff_forall_notMem]
  intro basket inside
  obtain ⟨fired, request, taken, _⟩ := mem_unwindIds.mp inside
  rw [sent, quiet, accepted_nil, List.nil_append] at taken
  exact others fired (kinds _ taken)

/-! ## Reports -/

/-- The position is flat or waits for its entry. -/
def Idle (l : Ledger) : Prop := l.state = .flat ∨ l.state = .pendingEntry
deriving Decidable

/-- The order closes the current trade: its stop, its exit, or one it replaced. -/
def Closer (l : Ledger) (basket : String) : Prop :=
  basket ≠ "" ∧ (basket = l.stop ∨ basket = l.exit ∨ l.guardTrade.lookup basket = some l.trade)
deriving Decidable

/-- The fill is of an order for which the book has neither a position nor a guard. -/
def Plain (l : Ledger) (isEntry : Bool) (basket : String) : Prop :=
  isEntry = false ∧ l.Idle ∧ ¬l.Answers isEntry basket
deriving Decidable

/-- The fill is answered with an unwind. -/
def Reverses (l : Ledger) (isEntry : Bool) (basket : String) : Prop :=
  (if isEntry then l.state ≠ .pendingEntry else l.Idle) ∧ l.Answers isEntry basket
deriving Decidable

/-- The fill reaches the order it is about: an entry's report names the pending or
the abandoned entry, and a report while a position is held is of the trade's own
closing orders, or at least of the position's quantity against it. -/
def Reaches (host : Host) (signed : String → Int) (l : Ledger) (basket : String)
    (isEntry : Bool) : Prop :=
  if isEntry then
    if l.state = .pendingEntry then basket = l.entry
    else l.abandoned ≠ "" ∧ basket = l.abandoned
  else l.Idle ∨ l.Closer basket ∨ signed basket = -l.exposure host
deriving Decidable

/-- What a fill does to the balance of the book. -/
inductive Balanced (host : Host) (signed : String → Int) (basket : String) (isEntry : Bool)
    (l l' : Ledger) : Prop
  | even (matched : ¬l.Plain isEntry basket) (ghost : l'.ghost = l.ghost)
      (unwinds : l'.unwinds ⊆ l.unwinds ∪ unwindIds l'.sent)
      (sum : signed basket + ∑ unwind ∈ unwindIds l'.sent, signed unwind =
        l'.exposure host - l.exposure host)
  | unknown (ghost : l'.ghost = true) (free : basket ∉ l.unwinds) (unwinds : l'.unwinds = l.unwinds)
  | lifted (plain : l.Plain isEntry basket) (registered : basket ∈ l.unwinds)
      (unwinds : l'.unwinds = l.unwinds.erase basket) (silent : unwindIds l'.sent = ∅)
      (same : l'.exposure host = l.exposure host)

/-- The exchange takes an unwind of the configured quantity on the other side. -/
theorem unwind_even {c : Ledger} {isBuy register : Bool} {request : OrderRequest}
    (quiet : accepted c.sent = []) (places : Places host l request host.cfg.qty (!isBuy))
    (next : c.next = l.next)
    (sized : ∀ order ∈ accepted (c.unwind host basket request
      (host.accepts (host.basketId l.next)) register).sent,
      signed order.2.basket = host.sideQty order.2.isBuy)
    (taken : host.accepts (host.basketId l.next) = true) (reversed : l.Reverses isEntry basket)
    (fired : signed basket = host.sideQty isBuy) (state : c.state = l.state)
    (direction : c.direction = l.direction) (ghost : c.ghost = l.ghost)
    (unwinds : c.unwinds = l.unwinds) :
    Balanced host signed basket isEntry l (c.unwind host basket request
      (host.accepts (host.basketId l.next)) register) := by
  have orders : accepted (c.unwind host basket request (host.accepts (host.basketId l.next))
      register).sent = [(.unwind basket, request)] := by
    simp [Ledger.unwind, order, quiet, taken]
  have against : signed request.basket = -host.sideQty isBuy := by
    have sent := sized (.unwind basket, request) (orders ▸ List.mem_singleton_self _)
    rw [sent, places.side, Host.sideQty_not]
  apply Balanced.even
  · exact fun plain => plain.2.2 reversed.2
  · exact ghost
  · rw [unwindIds_single orders]
    simp only [Ledger.unwind, unwinds, next, places.basket]
    split
    · intro id inside
      exact Finset.mem_union.mpr ((Finset.mem_insert.mp inside).symm.imp_right
        Finset.mem_singleton.mpr)
    · exact Finset.subset_union_left
  · rw [unwindIds_single orders, Finset.sum_singleton, fired, against, add_neg_cancel]
    have same : (c.unwind host basket request (host.accepts (host.basketId l.next))
        register).exposure host = l.exposure host := by
      simp only [exposure, Ledger.unwind, order, state, direction]
    rw [same, sub_self]

/-- A report of the configured quantity is no part of the position. -/
theorem not_part {isBuy : Bool} (whole : l.qty = host.cfg.qty) (complete : qty = |signed basket|)
    (fired : signed basket = host.sideQty isBuy) : ¬(qty > 0 ∧ qty < l.qty) := by
  rintro ⟨_, part⟩
  rw [complete, fired, Host.abs_sideQty, whole] at part
  exact absurd (le_abs_self host.cfg.qty) (not_le.mpr part)

/-- A fill that reaches a held position has its quantity against it. -/
theorem closing_side (shape : Shape l) (held : l.Open ∨ l.state = .pendingExit)
    (sided : basket ≠ "" → Sided l basket (fun flag => signed basket = host.sideQty flag))
    (reaches : Reaches host signed l basket false) :
    signed basket = host.sideQty (decide (l.direction = .sell)) := by
  have busy : l.state ≠ .flat := by
    rcases held with held | closing
    · exact held.states.1
    · rw [closing]
      decide
  have against : l.exposure host = -host.sideQty (decide (l.direction = .sell)) := by
    rw [exposure_held held, sideQty_against (shape.sided busy), neg_neg]
  rcases reaches with idle | ⟨known, stop | exit | own⟩ | equal
  · rcases idle with flat | pending
    · exact absurd flat busy
    · rcases held with held | closing
      · exact absurd pending held.states.2.1
      · exact absurd (closing.symm.trans pending) (by decide)
  · exact (sided known).stop stop
  · exact (sided known).exit exit
  · exact (sided known).ownGuard busy own
  · rw [equal, against, neg_neg]

/-- A complete fill that reaches its order balances the book, is unknown, or is
that of an unwind under way. -/
theorem Filled.balanced (filled : Filled host basket qty l isEntry l') (shape : Shape l)
    (fixed : host.cfg.vtRiskUsd ≤ 0) (whole : Fixed host l) (quiet : l.sent = [])
    (sided : basket ≠ "" → Sided l basket (fun flag => signed basket = host.sideQty flag))
    (sized : ∀ order ∈ accepted l'.sent, signed order.2.basket = host.sideQty order.2.isBuy)
    (complete : qty = |signed basket|) (reaches : Reaches host signed l basket isEntry)
    (taken : l.Reverses isEntry basket → basket ≠ "" ∧ host.accepts (host.basketId l.next) = true) :
    Balanced host signed basket isEntry l l' ∧ Fixed host l' := by
  have noted : accepted (l.noteFill basket).sent = [] := by
    rw [noteFill, quiet]
    rfl
  have dropped (c : Ledger) : accepted (dropFired host basket c).sent = accepted c.sent := by
    rw [dropFired, accepted_append, accepted_removeNotice, List.append_nil]
  cases filled with
  | spurious elsewhere unknown =>
    have reached : l.abandoned ≠ "" ∧ basket = l.abandoned := by
      simpa only [Reaches, ↓reduceIte, elsewhere] using reaches
    exact absurd reached unknown
  | late request elsewhere remembered named places =>
    have reversed : l.Reverses true basket := ⟨elsewhere, remembered, named⟩
    obtain ⟨known, accepts⟩ := taken reversed
    refine ⟨?_, whole⟩
    exact unwind_even (by rw [quiet]; rfl) places rfl sized accepts reversed
      ((sided known).abandoned named) rfl rfl rfl rfl
  | mismatch pending other =>
    have reached : basket = l.entry := by
      simpa only [Reaches, ↓reduceIte, pending] using reaches
    exact absurd reached.symm other
  | partialEntry pending named part =>
    have busy : l.state ≠ .flat := by
      rw [pending]
      decide
    have known : basket ≠ "" := by
      rw [← named]
      exact (shape.pendingEntry pending).1
    exact absurd part (not_part (whole busy) complete ((sided known).entry named.symm busy))
  | entered pending named part protect =>
    have busy : l.state ≠ .flat := by
      rw [pending]
      decide
    have known : basket ≠ "" := by
      rw [← named]
      exact (shape.pendingEntry pending).1
    obtain ⟨exposure, ghost, unwinds, kept⟩ := protect.square fixed (fun _ => whole busy)
    refine ⟨?_, kept⟩
    have silent : unwindIds l'.sent = ∅ := protect.issues.unwindIds_eq quiet (fun _ => id)
    apply Balanced.even
    · exact fun plain => absurd plain.1.symm Bool.false_ne_true
    · exact ghost
    · rw [unwinds]
      exact Finset.subset_union_left
    · rw [silent, Finset.sum_empty, add_zero, exposure, exposure_idle (Or.inr pending), sub_zero,
        exposure_held (heldState_held rfl)]
      exact (sided known).entry named.symm busy
  | lastGuard request idle remembered named places =>
    have reversed : l.Reverses false basket := ⟨idle, Or.inl ⟨remembered, named⟩⟩
    obtain ⟨known, accepts⟩ := taken reversed
    refine ⟨?_, whole⟩
    exact unwind_even ((dropped _).trans noted) places rfl sized accepts reversed
      ((sided known).lastStop named) rfl rfl rfl rfl
  | guard request wasBuy idle other guarded places =>
    have reversed : l.Reverses false basket := ⟨idle, Or.inr (Table.mem_of_lookup guarded)⟩
    obtain ⟨known, accepts⟩ := taken reversed
    refine ⟨?_, whole⟩
    exact unwind_even ((dropped _).trans noted) places rfl sized accepts reversed
      ((sided known).guard wasBuy guarded) rfl rfl rfl rfl
  | unwound idle other free known =>
    have plain : l.Plain false basket := by
      refine ⟨rfl, idle, ?_⟩
      rintro (last | inside)
      · exact other last
      · exact free inside
    exact ⟨.lifted plain known rfl (unwindIds_eq_empty noted) rfl, whole⟩
  | unknown idle other free unknown => exact ⟨.unknown rfl unknown rfl, whole⟩
  | partialExit held part =>
    have busy : l.state ≠ .flat := by
      rcases held with held | closing
      · exact held.states.1
      · rw [closing]
        decide
    have against := closing_side shape held sided reaches
    exact absurd part (not_part (whole busy) complete against)
  | closed held part =>
    have busy : l.state ≠ .flat := by
      rcases held with held | closing
      · exact held.states.1
      · rw [closing]
        decide
    have against := closing_side shape held sided reaches
    have silent : unwindIds (l.close host basket).sent = ∅ :=
      unwindIds_eq_empty ((close_accepted host basket l).trans (by rw [quiet]; rfl))
    refine ⟨?_, fun busy => absurd rfl busy⟩
    apply Balanced.even
    · rintro ⟨_, flat | pending, _⟩
      · exact busy flat
      · rcases held with held | closing
        · exact held.states.2.1 pending
        · exact absurd (closing.symm.trans pending) (by decide)
    · simp only [Ledger.close, purge, reset, settleStop, dropFilled, cancelStop]
      split_ifs
      all_goals rfl
    · exact Finset.empty_subset _
    · have gone : (l.close host basket).exposure host = 0 := exposure_idle (Or.inl rfl)
      rw [silent, Finset.sum_empty, add_zero, gone, zero_sub, exposure_held held, against,
        sideQty_against (shape.sided busy)]

/-- The unwind that a call registers. -/
def registeredBy : Op → Finset String
  | .registerUnwind basket => {basket}
  | _ => ∅

/-- The order whose fill a call reports. -/
def filledBy : Op → Finset String
  | .fill basket _ _ _ => {basket}
  | _ => ∅

/-- A call that reports no fill, lifts no halt by hand and closes no position past
its orders leaves the balance of the book alone. -/
theorem Stepped.still {op : Op} (stepped : Stepped host l op l') (fixed : host.cfg.vtRiskUsd ≤ 0)
    (whole : Fixed host l) (quiet : l.sent = []) (unfilled : filledBy op = ∅)
    (unconfirmed : op ≠ .confirmFlat)
    (internal : ∀ price reason, op = .externalClose price reason → l.Idle) :
    l'.exposure host = l.exposure host ∧ l'.ghost = l.ghost ∧
      l'.unwinds = l.unwinds ∪ registeredBy op ∧ unwindIds l'.sent = ∅ ∧ Fixed host l' := by
  have silent : unwindIds l'.sent = ∅ := by
    apply stepped.issues.unwindIds_eq quiet
    rintro fired (initiated | unwinds)
    · exact initiated
    · cases op with
      | fill basket => exact absurd unfilled (Finset.singleton_ne_empty basket)
      | _ => exact unwinds
  have walked {c : Ledger} (walk : Walk host c l') (whole : Fixed host c)
      (none : registeredBy op = ∅) : l'.exposure host = c.exposure host ∧ l'.ghost = c.ghost ∧
        l'.unwinds = c.unwinds ∪ registeredBy op ∧ unwindIds l'.sent = ∅ ∧ Fixed host l' := by
    obtain ⟨exposure, ghost, unwinds, kept⟩ := walk.square fixed whole
    rw [none, Finset.union_empty]
    exact ⟨exposure, ghost, unwinds, silent, kept⟩
  cases stepped with
  | own initiates walk =>
    have none : registeredBy op = ∅ := by
      cases op with
      | registerUnwind => exact absurd initiates Bool.false_ne_true
      | _ => rfl
    exact walked walk whole none
  | ignored notifies =>
    have none : registeredBy op = ∅ := by
      cases op with
      | registerUnwind => exact absurd notifies Bool.false_ne_true
      | _ => rfl
    rw [none, Finset.union_empty]
    exact ⟨rfl, rfl, rfl, silent, whole⟩
  | filled basket => exact absurd unfilled (Finset.singleton_ne_empty basket)
  | rejectedEntry basket pending =>
    refine ⟨?_, rfl, (Finset.union_empty _).symm, silent, fun busy => absurd rfl busy⟩
    rw [exposure_idle (Or.inr pending)]
    exact exposure_idle (Or.inl rfl)
  | rejectedExit basket closing named walk =>
    have busy : l.state ≠ .flat := by
      rw [closing]
      decide
    have reopened : l.reopen.exposure host = l.exposure host := by
      rw [exposure_held (Or.inr closing)]
      exact exposure_held (heldState_held rfl)
    obtain ⟨exposure, rest⟩ := walked walk (fun _ => whole busy) rfl
    exact ⟨exposure.trans reopened, rest⟩
  | readopted id client server held guarded own routes =>
    have roomy : (l.makeRoom host client).state = l.state ∧
        (l.makeRoom host client).direction = l.direction ∧
        (l.makeRoom host client).ghost = l.ghost ∧
        (l.makeRoom host client).unwinds = l.unwinds ∧ (l.makeRoom host client).qty = l.qty := by
      simp only [makeRoom]
      split
      · exact ⟨rfl, rfl, rfl, rfl, rfl⟩
      · exact ⟨rfl, rfl, rfl, rfl, rfl⟩
    obtain ⟨state, direction, ghost, unwinds, qty⟩ := roomy
    refine ⟨?_, ghost, unwinds.trans (Finset.union_empty _).symm, silent, ?_⟩
    · simp only [exposure, readopt, acknowledge, state, direction]
    · intro busy
      exact qty.trans (whole (fun flat => busy (state.trans flat)))
  | externalClose price reason held =>
    rcases internal price reason rfl with flat | pending
    · rcases held with held | closing
      · exact absurd flat held.states.1
      · exact absurd (closing.symm.trans flat) (by decide)
    · rcases held with held | closing
      · exact absurd pending held.states.2.1
      · exact absurd (closing.symm.trans pending) (by decide)
  | register basket =>
    refine ⟨rfl, rfl, ?_, silent, whole⟩
    rw [registeredBy, Finset.union_comm]
    rfl
  | confirmFlat => exact absurd rfl unconfirmed
  | _ => exact ⟨rfl, rfl, (Finset.union_empty _).symm, silent, whole⟩

end Ledger

namespace OrderManager

/-! ## The account of a run -/

/-- The signed sum of the fills reported so far, and the unwinds sent or registered
of which no fill was reported. -/
structure Account where
  total : Int := 0
  outstanding : Finset String := ∅

/-- The account after a step. -/
def Account.note (signed : String → Int) (account : Account) (_ : OrderManager) (call : Call)
    (after : OrderManager) : Account where
  total := account.total + ∑ basket ∈ Ledger.filledBy call.op, signed basket
  outstanding := (account.outstanding \ Ledger.filledBy call.op) ∪
    Ledger.registeredBy call.op ∪ unwindIds after.outbox

/-- What is neither in the position nor covered by an unwind under way. -/
def loose (host : Host) (signed : String → Int) (s : OrderManager) (account : Account) : Int :=
  account.total - s.ledger.exposure host + ∑ unwind ∈ account.outstanding, signed unwind

/-- What the run asks of each call. A fill is complete and reaches the order it is
about; an unwind is taken by the exchange; the fill of an unwind under way comes
while no position is held, and when it lifts a halt nothing is loose. A registered
unwind leaves nothing loose without a halt, a seeded guard is of the configured
quantity on its side, no held position is closed externally and no halt is lifted
by hand. -/
def Covered (host : Host) (signed : String → Int) (pair : OrderManager × Account) (call : Call) :
    Prop :=
  match call.op with
  | .fill basket _ qty isEntry =>
    qty = |signed basket| ∧ Ledger.Reaches host signed pair.1.ledger basket isEntry ∧
      (pair.1.ledger.Reverses isEntry basket →
        basket ≠ "" ∧ host.accepts (host.basketId pair.1.seq) = true) ∧
      (basket ∈ pair.2.outstanding → pair.1.ledger.Plain isEntry basket) ∧
      (pair.1.ghostHalted = true → pair.1.ledger.Plain isEntry basket →
        basket ∈ pair.1.unwindBaskets → loose host signed pair.1 pair.2 = 0)
  | .registerUnwind basket =>
    pair.1.ghostHalted = false → basket ∈ pair.2.outstanding ∨ signed basket = 0
  | .seedStop basket wasBuyStop => signed basket = host.sideQty wasBuyStop
  | .externalClose _ _ => pair.1.ledger.Idle
  | .confirmFlat => False
  | _ => True

/-- The orders that a call places are filled as they are sent. -/
def AsSent (host : Host) (signed : String → Int) (s : OrderManager) (call : Call) : Prop :=
  ∀ order ∈ accepted (step host s call).outbox, signed order.2.basket = signedQty order.2
deriving Decidable

instance (pair : OrderManager × Account) (call : Call) :
    Decidable (Covered host signed pair call) := by
  simp only [Covered]
  split
  all_goals infer_instance

/-- The book is sound, every order on it has the configured quantity on its side,
and without a halt nothing is loose. -/
structure Square (host : Host) (signed : String → Int) (seq : Nat)
    (pair : OrderManager × Account) : Prop where
  shape : pair.1.ledger.Shape
  drawn : seq ≤ pair.1.seq
  fixed : Ledger.Fixed host pair.1.ledger
  sided : ∀ basket, basket ≠ "" →
    Ledger.Sided pair.1.ledger basket (fun flag => signed basket = host.sideQty flag)
  registered : pair.1.unwindBaskets ⊆ pair.2.outstanding
  old : ∀ n, pair.1.seq ≤ n → host.basketId n ∉ pair.2.outstanding
  even : pair.1.ghostHalted = false → loose host signed pair.1 pair.2 = 0

variable {s s' : OrderManager}

/-- An unwind sent in a step carries an id drawn in it. -/
theorem unwindIds_drawn {op : Op} {basket : String}
    (stepped : Ledger.Stepped host s.cleared op s'.ledger) (inside : basket ∈ unwindIds s'.outbox) :
    ∃ n, s.seq ≤ n ∧ n < s'.seq ∧ basket = host.basketId n := by
  obtain ⟨fired, request, taken, rfl⟩ := mem_unwindIds.mp inside
  obtain ⟨orders, sent, numbered, _⟩ := stepped.issues
  have listed : accepted s'.outbox = orders := sent
  rw [listed] at taken
  exact numbered.number taken

/-- A balanced fill keeps the account even. -/
theorem even_of_balanced {account : Account} {basket : String} {price : ℚ} {qty : Int}
    {isEntry : Bool} {now : Int}
    (balanced : Ledger.Balanced host signed basket isEntry s.cleared s'.ledger)
    (registered : s.unwindBaskets ⊆ account.outstanding)
    (new : ∀ id ∈ unwindIds s'.outbox, id ∉ account.outstanding)
    (plain : basket ∈ account.outstanding → s.ledger.Plain isEntry basket)
    (lifts : s.ghostHalted = true → s.ledger.Plain isEntry basket →
      basket ∈ s.unwindBaskets → loose host signed s account = 0)
    (even : s.ghostHalted = false → loose host signed s account = 0) :
    s'.unwindBaskets ⊆ (account.note signed s ⟨now, .fill basket price qty isEntry⟩
      s').outstanding ∧
      (s'.ghostHalted = false → loose host signed s'
        (account.note signed s ⟨now, .fill basket price qty isEntry⟩ s') = 0) := by
  have outstanding : (account.note signed s ⟨now, .fill basket price qty isEntry⟩ s').outstanding =
      account.outstanding.erase basket ∪ unwindIds s'.outbox := by
    simp [Account.note, Ledger.filledBy, Ledger.registeredBy, Finset.sdiff_singleton_eq_erase]
  have total : (account.note signed s ⟨now, .fill basket price qty isEntry⟩ s').total =
      account.total + signed basket := by
    simp [Account.note, Ledger.filledBy]
  have apart : Disjoint (account.outstanding.erase basket) (unwindIds s'.outbox) := by
    rw [Finset.disjoint_right]
    exact fun id inside before => new id inside (Finset.mem_of_mem_erase before)
  have exposed : s.cleared.exposure host = s.ledger.exposure host := rfl
  simp only [loose, outstanding, total, Finset.sum_union apart]
  cases balanced with
  | even matched ghost unwinds sum =>
    have other : basket ∉ account.outstanding := fun inside => matched (plain inside)
    rw [Finset.erase_eq_of_notMem other]
    refine ⟨?_, ?_⟩
    · exact unwinds.trans (Finset.union_subset_union_left registered)
    · intro clear
      have before := even (ghost.symm.trans clear)
      have matched : signed basket + ∑ unwind ∈ unwindIds s'.outbox, signed unwind =
          s'.ledger.exposure host - s.cleared.exposure host := sum
      simp only [loose] at before
      rw [exposed] at matched
      linarith
  | unknown ghost free unwinds =>
    refine ⟨?_, ?_⟩
    · intro id inside
      have earlier : id ∈ s.unwindBaskets := by
        rw [← show s'.unwindBaskets = s.unwindBaskets from unwinds]
        exact inside
      have other : id ≠ basket := by
        rintro rfl
        exact free earlier
      exact Finset.mem_union_left _ (Finset.mem_erase.mpr ⟨other, registered earlier⟩)
    · intro clear
      exact absurd (ghost.symm.trans clear) (by decide)
  | lifted isPlain inside unwinds silent same =>
    have none : unwindIds s'.outbox = ∅ := silent
    have known : basket ∈ account.outstanding := registered inside
    have before : loose host signed s account = 0 := by
      cases ghost : s.ghostHalted with
      | true => exact lifts ghost isPlain inside
      | false => exact even ghost
    refine ⟨?_, ?_⟩
    · rw [none, Finset.union_empty]
      intro id later
      have kept : id ∈ s.unwindBaskets.erase basket := by
        rw [← show s'.unwindBaskets = s.unwindBaskets.erase basket from unwinds]
        exact later
      obtain ⟨other, earlier⟩ := Finset.mem_erase.mp kept
      exact Finset.mem_erase.mpr ⟨other, registered earlier⟩
    · intro _
      have unchanged : s'.ledger.exposure host = s.ledger.exposure host := same
      rw [none, Finset.sum_empty, unchanged, Finset.sum_erase_eq_sub known]
      simp only [loose] at before
      linarith

/-- A call without a fill keeps the account even. -/
theorem even_of_still {account : Account} {call : Call} (unfilled : Ledger.filledBy call.op = ∅)
    (still : s'.ledger.exposure host = s.cleared.exposure host ∧
      s'.ghostHalted = s.ghostHalted ∧
      s'.unwindBaskets = s.unwindBaskets ∪ Ledger.registeredBy call.op ∧
      unwindIds s'.outbox = ∅)
    (registered : s.unwindBaskets ⊆ account.outstanding)
    (covered : s.ghostHalted = false →
      ∀ basket ∈ Ledger.registeredBy call.op, basket ∉ account.outstanding → signed basket = 0)
    (even : s.ghostHalted = false → loose host signed s account = 0) :
    s'.unwindBaskets ⊆ (account.note signed s call s').outstanding ∧
      (s'.ghostHalted = false → loose host signed s' (account.note signed s call s') = 0) := by
  obtain ⟨exposure, ghost, unwinds, silent⟩ := still
  have outstanding : (account.note signed s call s').outstanding =
      account.outstanding ∪ Ledger.registeredBy call.op := by
    simp [Account.note, unfilled, silent]
  have total : (account.note signed s call s').total = account.total := by
    simp [Account.note, unfilled]
  rw [outstanding, unwinds]
  refine ⟨Finset.union_subset_union_left registered, ?_⟩
  intro clear
  have before := even (ghost.symm.trans clear)
  have sum : ∑ unwind ∈ account.outstanding ∪ Ledger.registeredBy call.op, signed unwind =
      ∑ unwind ∈ account.outstanding, signed unwind := by
    symm
    apply Finset.sum_subset Finset.subset_union_left
    intro id inside outside
    exact covered (ghost.symm.trans clear) id
      ((Finset.mem_union.mp inside).resolve_left outside) outside
  have exposed : s.cleared.exposure host = s.ledger.exposure host := rfl
  simp only [loose] at before ⊢
  rw [outstanding, total, sum, exposure, exposed]
  exact before

/-- One covered call keeps the book square: what it sends is on its side and of its size, and a
fill moves the balance by what it reports. -/
theorem Square.step (live : host.Live) (fixed : host.cfg.vtRiskUsd ≤ 0) {seq : Nat}
    {pair : OrderManager × Account} {call : Call} (square : Square host signed seq pair)
    (covered : Covered host signed pair call) (sent : AsSent host signed pair.1 call)
    (foreign : Ledger.Foreign host seq call.op) :
    Square host signed seq
      (Runs.observe (OrderManager.step host) (Account.note signed) pair call) := by
  obtain ⟨s, account⟩ := pair
  obtain ⟨shape, drawn, whole, sided, registered, old, even⟩ := square
  have stepped := step_refines live s call shape
  have cleared : s.cleared.Shape := shape.congr rfl rfl rfl rfl rfl
  have later : s.seq ≤ (OrderManager.step host s call).seq := stepped.next_le
  have sized : ∀ order ∈ accepted (OrderManager.step host s call).outbox,
      signed order.2.basket = host.sideQty order.2.isBuy := by
    intro order inside
    rw [sent order inside]
    exact signedQty_of_qty (stepped.sizes fixed whole rfl order inside)
  have new : ∀ id ∈ unwindIds (OrderManager.step host s call).outbox,
      id ∉ account.outstanding := by
    intro id inside
    obtain ⟨n, low, _, rfl⟩ := unwindIds_drawn stepped inside
    exact old n low
  have kept : Ledger.Fixed host (OrderManager.step host s call).ledger ∧
      (OrderManager.step host s call).unwindBaskets ⊆
        (account.note signed s call (OrderManager.step host s call)).outstanding ∧
      ((OrderManager.step host s call).ghostHalted = false →
        loose host signed (OrderManager.step host s call)
          (account.note signed s call (OrderManager.step host s call)) = 0) := by
    obtain ⟨now, op⟩ := call
    by_cases filled : ∃ basket price qty isEntry, op = .fill basket price qty isEntry
    · obtain ⟨basket, price, qty, isEntry, rfl⟩ := filled
      obtain ⟨complete, reaches, taken, plain, lifts⟩ := covered
      obtain ⟨balanced, fixed'⟩ := stepped.isFilled.balanced cleared fixed whole rfl
        (fun known => { sided basket known with }) sized complete reaches taken
      exact ⟨fixed', even_of_balanced balanced registered new plain lifts even⟩
    · have unfilled : Ledger.filledBy op = ∅ := by
        cases op with
        | fill basket price qty isEntry => exact absurd ⟨basket, price, qty, isEntry, rfl⟩ filled
        | _ => rfl
      have unconfirmed : op ≠ .confirmFlat := by
        rintro rfl
        exact covered
      have internal : ∀ price reason, op = .externalClose price reason → s.cleared.Idle := by
        rintro price reason rfl
        exact covered
      obtain ⟨exposure, ghost, unwinds, silent, fixed'⟩ :=
        stepped.still fixed whole rfl unfilled unconfirmed internal
      refine ⟨fixed', even_of_still unfilled ⟨exposure, ghost, unwinds, silent⟩ registered ?_ even⟩
      intro clear basket inside outside
      cases op with
      | registerUnwind unwind =>
        obtain rfl := Finset.mem_singleton.mp inside
        exact (covered clear).resolve_left outside
      | _ => exact absurd inside (Finset.notMem_empty basket)
  refine ⟨step_shape live s call shape, drawn.trans later, kept.1, ?_, kept.2.1, ?_, kept.2.2⟩
  · intro basket known
    have before : s.cleared.Sided basket (fun flag => signed basket = host.sideQty flag) :=
      { sided basket known with }
    apply stepped.sided cleared before
    · rintro order inside rfl
      exact sized order inside
    · intro wasBuy seeds
      obtain ⟨now, op⟩ := call
      obtain rfl : op = .seedStop basket wasBuy := seeds
      exact covered
  · intro n high inside
    have above : s.seq ≤ n := later.trans high
    rcases Finset.mem_union.mp inside with before | new
    · rcases Finset.mem_union.mp before with before | named
      · exact old n above (Finset.mem_sdiff.mp before).1
      · obtain ⟨now, op⟩ := call
        cases op with
        | registerUnwind unwind =>
          have same : unwind = host.basketId n := (Finset.mem_singleton.mp named).symm
          exact foreign n (drawn.trans above) same
        | _ => exact absurd named (Finset.notMem_empty _)
    · obtain ⟨m, _, below, same⟩ := unwindIds_drawn stepped new
      have equal : n = m := host.basketId_injective same
      have high' : (OrderManager.step host s call).seq ≤ n := high
      omega

/-- In every run whose calls are covered and whose orders are filled as sent, the
fills reported so far sum to zero whenever the manager is flat, no halt stands and
no unwind is under way. -/
theorem book_square (live : host.Live) (fixed : host.cfg.vtRiskUsd ≤ 0) (risk : RiskManager)
    (seq : Nat) (signed : String → Int) (calls : List Call)
    (foreign : ∀ call ∈ calls, Ledger.Foreign host seq call.op)
    (covered : Runs.Along (Runs.observe (step host) (Account.note signed))
      (fun pair call => Covered host signed pair call ∧ AsSent host signed pair.1 call)
      (fresh risk seq, {}) calls) :
    let final := Runs.run (Runs.observe (step host) (Account.note signed))
      (fresh risk seq, {}) calls
    final.1.pos.state = .flat → final.1.isEntryHalted = false → final.2.outstanding = ∅ →
      final.2.total = 0 := by
  have start : Square host signed seq (fresh risk seq, {}) := by
    refine ⟨fresh_shape risk seq, Nat.le_refl seq, fun busy => absurd rfl busy, ?_,
      Finset.Subset.refl _, fun _ _ => Finset.notMem_empty _, fun _ => rfl⟩
    intro basket known
    exact {
      known := known
      entry := fun same => absurd same known
      stop := fun same => absurd same known
      exit := fun same => absurd same known
      guard := fun _ found => absurd (found.symm.trans (Table.lookup_empty _))
        (Option.some_ne_none _)
      ownGuard := fun busy => absurd rfl busy
      lastStop := fun same => absurd same known
      abandoned := fun same => absurd same known
      trade := fun _ found => absurd (found.symm.trans (Table.lookup_empty _))
        (Option.some_ne_none _) }
  have final := Runs.run_invariant _ (Square host signed seq)
    (fun pair call => (Covered host signed pair call ∧ AsSent host signed pair.1 call) ∧
      Ledger.Foreign host seq call.op)
    (fun _ _ square here => square.step live fixed here.1.1 here.1.2 here.2) _ calls start
    (Runs.along_and_of_mem _ _ calls covered foreign)
  intro last flat unhalted settled
  have clear : last.1.ghostHalted = false := (Bool.or_eq_false_iff.mp unhalted).2
  have even := final.even clear
  have idle : last.1.ledger.exposure host = 0 := Ledger.exposure_idle (Or.inl flat)
  have balance : last.2.total - last.1.ledger.exposure host +
      ∑ unwind ∈ last.2.outstanding, signed unwind = 0 := even
  rw [idle, settled, Finset.sum_empty] at balance
  simpa only [sub_zero, add_zero] using balance

/-- A trade whose cancelled stop fills late, the given calls, and the fill of the
unwind that reversed the stop. -/
def lateStop (meanwhile : List Call) : List Call :=
  [⟨1, .signal .buy 100 0⟩, ⟨2, .fill "MNQ-0-0" 100 1 true⟩, ⟨3, .flatten "eod_flatten" 100⟩,
    ⟨4, .fill "MNQ-0-2" 99 1 false⟩, ⟨5, .fill "MNQ-0-1" 85 1 false⟩] ++ meanwhile ++
    [⟨7, .fill "MNQ-0-3" 86 1 false⟩]

/-- The orders of that run as the exchange has them, and a purchase by hand. -/
def lateStopSigned (basket : String) : Int :=
  if basket ∈ ["MNQ-0-0", "MNQ-0-3", "manual"] then 1 else -1

/-- A stop that is filled late leaves the account square. -/
theorem late_stop_square :
    (Runs.run (Runs.observe (step .accepting) (Account.note lateStopSigned)) (fresh {} 0, {})
      (lateStop [])).2.total = 0 :=
  book_square Host.accepting_live (by decide +kernel) {} 0 lateStopSigned (lateStop [])
    (fun call inside => Ledger.foreign_of_not_brings (by revert call; decide +kernel))
    (by decide +kernel) (by decide +kernel) (by decide +kernel) (by decide +kernel)

/-- The orders whose fills the calls report. -/
def fillsOf (calls : List Call) : List String :=
  calls.filterMap fun call =>
    match call.op with
    | .fill basket _ _ _ => some basket
    | _ => none

/-- A fill is reported in full. -/
def Complete (signed : String → Int) (call : Call) : Prop :=
  match call.op with
  | .fill basket _ qty _ => qty = |signed basket|
  | _ => True

instance (call : Call) : Decidable (Complete signed call) := by
  simp only [Complete]
  split
  all_goals infer_instance

/-- The unwind of a late stop lifts the halt that a purchase by hand had set. -/
theorem halt_lifted_early :
    ¬∀ (host : Host), host.Live → host.cfg.vtRiskUsd ≤ 0 →
      ∀ (risk : RiskManager) (seq : Nat) (signed : String → Int) (calls : List Call),
      (∀ call ∈ calls, Ledger.Foreign host seq call.op) →
      (∀ call ∈ calls, Complete signed call) → (fillsOf calls).Nodup →
      (∀ call ∈ calls, call.op ≠ .confirmFlat) →
      (∀ order ∈ accepted (journal (step host) (fresh risk seq) calls).2,
        signed order.2.basket = signedQty order.2) →
      let final :=
        Runs.run (Runs.observe (step host) (Account.note signed)) (fresh risk seq, {}) calls
      final.1.pos.state = .flat → final.1.isEntryHalted = false → final.2.outstanding = ∅ →
        final.2.total = 0 := by
  intro square
  have even := square .accepting Host.accepting_live (by decide +kernel) {} 0 lateStopSigned
    (lateStop [⟨6, .fill "manual" 90 1 false⟩])
    (fun call inside => Ledger.foreign_of_not_brings (by revert call; decide +kernel))
    (by decide +kernel) (by decide +kernel) (by decide +kernel) (by decide +kernel)
    (by decide +kernel) (by decide +kernel) (by decide +kernel)
  revert even
  decide +kernel

end OrderManager

end RithmicEngine
