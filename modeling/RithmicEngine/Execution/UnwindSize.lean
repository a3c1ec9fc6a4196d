import RithmicEngine.Execution.OrderSides
/-!
# How much an unwind reverses

When a guarded order fills while the manager is flat, the fill is reversed by one
order of the configured quantity, and the guard is gone from then on. Later
partial reports of the same order find no guard and send nothing. So the order is
reversed exactly when the exchange takes that one unwind and the order filled for
the configured quantity, however large it was and in however many parts.
-/
namespace RithmicEngine.OrderManager

open Runs

variable {host : Host}

/-- The unwinds the exchange took for fills of an order. -/
def unwindsOf (fired : String) (effects : List Effect) : List OrderRequest :=
  (accepted effects).filterMap fun order =>
    if order.1 = .unwind fired then some order.2 else none

/-- The contracts by which fills of an order were reversed on one side. -/
def unwound (fired : String) (isBuy : Bool) (effects : List Effect) : Int :=
  (((unwindsOf fired effects).filter (fun request => request.isBuy = isBuy)).map
    (fun request => request.qty)).sum

/-- The cumulative quantity a call reports for an order. -/
def reportedBy (basket : String) (call : Call) : Int :=
  match call.op with
  | .fill filled _ qty _ => if filled = basket then qty else 0
  | _ => 0

/-- The largest cumulative quantity reported for an order. -/
def reported (basket : String) (calls : List Call) : Int :=
  calls.foldl (fun largest call => max largest (reportedBy basket call)) 0

theorem unwindsOf_append (fired : String) (first second : List Effect) :
    unwindsOf fired (first ++ second) = unwindsOf fired first ++ unwindsOf fired second := by
  simp [unwindsOf]

/-! ## Orders that no fill is answered for -/

variable {l : Ledger}

/-- Orders of other roles are no unwinds of the id. -/
theorem unwindsOf_eq_nil {roles : OrderRole → Prop} {l' : Ledger} {fired : String}
    (issues : Ledger.Issues host roles l l') (cleared : accepted l.sent = [])
    (other : ¬roles (.unwind fired)) : unwindsOf fired l'.sent = [] := by
  obtain ⟨orders, sent, _, kinds⟩ := issues
  rw [unwindsOf, sent, cleared, List.nil_append, List.filterMap_eq_nil_iff]
  intro order inside
  have distinct : order.1 ≠ .unwind fired := by
    intro same
    exact other (same ▸ kinds order inside)
  simp [distinct]

/-- A step sends an unwind of an order only in answer to a fill of it. -/
theorem step_no_unwind {s s' : OrderManager} {op : Op} {fired : String}
    (stepped : Ledger.Stepped host s.cleared op s'.ledger)
    (unanswered : ∀ price qty isEntry, op = .fill fired price qty isEntry →
      ¬s.ledger.Answers isEntry fired) : unwindsOf fired s'.outbox = [] := by
  refine unwindsOf_eq_nil stepped.issues rfl ?_
  rintro (initiated | answered)
  · exact initiated
  · cases op with
    | fill basket price qty isEntry =>
      obtain ⟨same, answers⟩ := answered
      obtain rfl : fired = basket := by simpa only [OrderRole.unwind.injEq] using same
      exact unanswered price qty isEntry rfl answers
    | _ => exact answered

/-- An order without a guard gets no unwind when its fill is no entry's. -/
theorem unguarded_unanswered {basket : String} (unguarded : Ledger.Unguarded l basket) :
    ¬l.Answers false basket := by
  simp only [Ledger.Answers, Bool.false_eq_true, ↓reduceIte]
  rintro (⟨_, same⟩ | inside)
  · exact unguarded.lastStop same
  · exact unguarded.guards inside

/-- From an unguarded order on, a run whose reports of it are no entry fills
sends no unwind of it. -/
theorem unguarded_journal (live : host.Live) (seq n : Nat) (low : seq ≤ n)
    (calls : List Call) (s : OrderManager) (drawn : n < s.seq) (shape : s.ledger.Shape)
    (unguarded : Ledger.Unguarded s.ledger (host.basketId n))
    (foreign : ∀ call ∈ calls, Ledger.Foreign host seq call.op)
    (flagged : ∀ call ∈ calls, ∀ price qty isEntry,
      call.op = .fill (host.basketId n) price qty isEntry → isEntry = false) :
    unwindsOf (host.basketId n) (journal (step host) s calls).2 = [] := by
  induction calls generalizing s with
  | nil => rfl
  | cons call rest ih =>
    have stepped := step_refines live s call shape
    have later : s.seq ≤ (step host s call).seq := stepped.next_le
    have cleared : Ledger.Unguarded s.cleared (host.basketId n) := { unguarded with }
    have undrawn : Ledger.Undrawn host s.cleared (step host s call).ledger (host.basketId n) := by
      intro m after _ same
      have equal := host.basketId_injective same
      have above : s.seq ≤ m := after
      omega
    have kept := stepped.absent cleared undrawn (foreign call List.mem_cons_self n low)
    have quiet : unwindsOf (host.basketId n) (step host s call).outbox = [] := by
      apply step_no_unwind stepped
      intro price qty isEntry same
      obtain rfl := flagged call List.mem_cons_self price qty isEntry same
      exact unguarded_unanswered unguarded
    rw [journal_cons, unwindsOf_append, quiet, List.nil_append]
    apply ih (step host s call) (drawn.trans_le later) (step_shape live s call shape) kept
    · intro call' inside
      exact foreign call' (List.mem_cons_of_mem call inside)
    · intro call' inside
      exact flagged call' (List.mem_cons_of_mem call inside)

/-! ## The report that finds the guard -/

/-- The one unwind that a fill of a guarded order is answered with. -/
theorem guard_answered {basket : String} {qty : Int} {isBuy : Bool} {l' : Ledger}
    (filled : Ledger.Filled host basket qty l false l') (shape : l.Shape) (idle : l.state = .flat)
    (quiet : l.sent = []) (sided : l.Sided basket (fun flag => flag = isBuy))
    (guarded : basket ∈ l.guards ∨ basket = l.lastStop) :
    ∃ request : OrderRequest, request.qty = host.cfg.qty ∧ request.isBuy = !isBuy ∧
      unwindsOf basket l'.sent =
        (if host.accepts (host.basketId l.next) then [request] else []) ∧
      Ledger.Unguarded l' basket := by
  obtain ⟨entry, exit, stop, _⟩ := shape.flat idle
  have noExit : basket ≠ l.exit := fun same => sided.known (same.trans exit)
  have noStop : basket ≠ l.stop := fun same => sided.known (same.trans stop)
  have sent (request : OrderRequest) (c : Ledger)
      (before : accepted c.sent = []) :
      unwindsOf basket (c.unwind host basket request (host.accepts (host.basketId l.next))
        true).sent = if host.accepts (host.basketId l.next) then [request] else [] := by
    simp only [unwindsOf, Ledger.unwind, Ledger.order, accepted_append, before, List.nil_append]
    cases host.accepts (host.basketId l.next) with
    | true => simp only [accepted_taken, List.filterMap_cons, ↓reduceIte, List.filterMap_nil]
    | false =>
      simp only [accepted_refused, List.filterMap_nil, Bool.false_eq_true, ↓reduceIte]
  have before : accepted (Ledger.dropFired host basket (l.noteFill basket)).sent = [] := by
    simp only [Ledger.dropFired, Ledger.noteFill, quiet, List.nil_append, accepted_append,
      accepted_flatFill, accepted_removeNotice]
  have erased : basket ∉ l.guards.erase basket := by
    simp only [Table.mem_erase, ne_eq, not_true_eq_false, false_and, not_false_eq_true]
  cases filled with
  | lastGuard request _ remembered named places =>
    refine ⟨request, places.qty, ?_, sent request _ before, ?_⟩
    · have flagged : l.lastStopBuy = isBuy := sided.lastStop named
      rw [places.side, flagged]
    · exact {
        known := sided.known, exit := noExit, stop := noStop, lastStop := sided.known
        guards := erased
        entry := False.elim, abandoned := False.elim, unwinds := False.elim }
  | guard request wasBuy _ other found places =>
    have forgotten : basket ≠ l.lastStop := by
      intro same
      exact other ⟨fun empty => sided.known (same.trans empty), same⟩
    refine ⟨request, places.qty, ?_, sent request _ before, ?_⟩
    · have flagged : wasBuy = isBuy := sided.guard wasBuy found
      rw [places.side, flagged]
    · exact {
        known := sided.known, exit := noExit, stop := noStop, lastStop := forgotten
        guards := erased
        entry := False.elim, abandoned := False.elim, unwinds := False.elim }
  | unwound _ other free known =>
    refine absurd guarded ?_
    rintro (inside | same)
    · exact free inside
    · exact other ⟨fun empty => sided.known (same.trans empty), same⟩
  | unknown _ other free unknown =>
    refine absurd guarded ?_
    rintro (inside | same)
    · exact free inside
    · exact other ⟨fun empty => sided.known (same.trans empty), same⟩
  | partialExit held part =>
    refine absurd idle ?_
    rcases held with held | closing
    · exact held.states.1
    · rw [closing]
      decide
  | closed held whole =>
    refine absurd idle ?_
    rcases held with held | closing
    · exact held.states.1
    · rw [closing]
      decide

/-- Along a run the book agrees with the side of every order of an id. -/
theorem journal_sided (live : host.Live) (seq n : Nat) (low : seq ≤ n) (side : Bool → Prop)
    (calls : List Call) (s : OrderManager) (shape : s.ledger.Shape)
    (sided : s.ledger.Sided (host.basketId n) side)
    (foreign : ∀ call ∈ calls, Ledger.Foreign host seq call.op)
    (agrees : ∀ order ∈ accepted (journal (step host) s calls).2,
      order.2.basket = host.basketId n → side order.2.isBuy) :
    (run (step host) s calls).ledger.Sided (host.basketId n) side := by
  induction calls generalizing s with
  | nil => exact sided
  | cons call rest ih =>
    have stepped := step_refines live s call shape
    have cleared : s.cleared.Shape := shape.congr rfl rfl rfl rfl rfl
    have start : s.cleared.Sided (host.basketId n) side := { sided with }
    have unseeded : ∀ wasBuy, call.op = .seedStop (host.basketId n) wasBuy → side wasBuy := by
      intro wasBuy same
      have introduced : Ledger.Introduces call.op (host.basketId n) := by
        rw [same]
        rfl
      exact absurd introduced (foreign call List.mem_cons_self n low)
    rw [journal_cons, accepted_append] at agrees
    have kept := stepped.sided cleared start
      (fun order inside => agrees order (List.mem_append_left _ inside)) unseeded
    apply ih (step host s call) (step_shape live s call shape) kept
    · intro call' inside
      exact foreign call' (List.mem_cons_of_mem call inside)
    · intro order inside
      exact agrees order (List.mem_append_right _ inside)

/-! ## The size of the unwind -/

theorem reported_ge (basket : String) (calls : List Call) (start : Int) :
    start ≤ calls.foldl (fun largest call => max largest (reportedBy basket call)) start := by
  induction calls generalizing start with
  | nil => exact le_refl start
  | cons call rest ih => exact (le_max_left _ _).trans (ih _)

/-- For every order the manager sent, and every run in which its guard is found by
a first fill report while flat: the fills of the order are reversed to the
contract exactly when the exchange takes the unwind and the order filled for the
configured quantity in all. -/
theorem unwind_total_iff (live : host.Live) (risk : RiskManager) (seq : Nat)
    (before after : List Call) (report : Call)
    (foreign : ∀ call ∈ before ++ report :: after, Ledger.Foreign host seq call.op)
    (order : OrderRole × OrderRequest)
    (sent : order ∈ accepted (journal (step host) (fresh risk seq) before).2)
    (idle : (run (step host) (fresh risk seq) before).pos.state = .flat)
    (guarded : order.2.basket ∈ (run (step host) (fresh risk seq) before).cancelledStops ∨
      order.2.basket = (run (step host) (fresh risk seq) before).lastStopForUnwind)
    (price : ℚ) (qty : Int) (names : report.op = .fill order.2.basket price qty false)
    (positive : 0 < qty)
    (flagged : ∀ call ∈ after, ∀ price qty isEntry,
      call.op = .fill order.2.basket price qty isEntry → isEntry = false) :
    unwound order.2.basket (!order.2.isBuy)
        (journal (step host) (run (step host) (fresh risk seq) before) (report :: after)).2 =
      reported order.2.basket (report :: after) ↔
    host.accepts (host.basketId (run (step host) (fresh risk seq) before).seq) = true ∧
      reported order.2.basket (report :: after) = host.cfg.qty := by
  have foreignBefore : ∀ call ∈ before, Ledger.Foreign host seq call.op :=
    fun call inside => foreign call (List.mem_append_left _ inside)
  have foreignReport : Ledger.Foreign host seq report.op :=
    foreign report (List.mem_append_right _ List.mem_cons_self)
  have foreignAfter : ∀ call ∈ after, Ledger.Foreign host seq call.op :=
    fun call inside => foreign call
      (List.mem_append_right _ (List.mem_cons_of_mem report inside))
  have sound := journal_sound live risk seq before foreignBefore
  rw [journal_fst] at sound
  obtain ⟨n, low, high, basketIs⟩ := sound.numbered.number sent
  -- The id was drawn once, so the book knows the side of this very order.
  have sided : (run (step host) (fresh risk seq) before).ledger.Sided order.2.basket
      (fun flag => flag = order.2.isBuy) := by
    rw [basketIs]
    refine journal_sided live seq n low _ before (fresh risk seq)
      (fresh_shape risk seq) ?_ foreignBefore ?_
    · exact Ledger.Unused.sided (fresh_fresh risk seq n low) _ (Table.lookup_empty _)
    · intro other inside same
      rw [sound.numbered.unique inside sent (same.trans basketIs.symm)]
  generalize run (step host) (fresh risk seq) before = s at idle guarded sound sided high ⊢
  have stepped := step_refines live s report sound.shape
  rw [names] at stepped
  have filled := stepped.isFilled
  obtain ⟨request, whole, against, unwinds, unguarded⟩ := guard_answered filled
    (sound.shape.congr rfl rfl rfl rfl rfl) idle rfl { sided with } guarded
  have later : s.seq ≤ (step host s report).seq := filled.next_le
  have silent : unwindsOf order.2.basket (journal (step host) (step host s report) after).2 =
      [] := by
    rw [basketIs] at unguarded flagged ⊢
    exact unguarded_journal live seq n low after _ (high.trans_le later)
      (step_shape live s report sound.shape) unguarded foreignAfter flagged
  have total : unwound order.2.basket (!order.2.isBuy) (journal (step host) s
      (report :: after)).2 = if host.accepts (host.basketId s.seq) then host.cfg.qty else 0 := by
    have first : unwindsOf order.2.basket (step host s report).outbox =
        if host.accepts (host.basketId s.seq) then [request] else [] := unwinds
    rw [journal_cons, unwound, unwindsOf_append, silent, List.append_nil, first]
    cases host.accepts (host.basketId s.seq) with
    | true =>
      simp only [↓reduceIte, List.filter_cons, against, decide_true, List.filter_nil,
        List.map_cons, List.map_nil, List.sum_cons, List.sum_nil, whole, add_zero]
    | false =>
      simp
  have least : qty ≤ reported order.2.basket (report :: after) := by
    have counted : reportedBy order.2.basket report = qty := by
      simp [reportedBy, names]
    have bound := reported_ge order.2.basket after (max 0 (reportedBy order.2.basket report))
    rw [counted] at bound
    have start : qty ≤ max 0 qty := le_max_right 0 qty
    simp only [reported, List.foldl_cons, counted]
    exact start.trans bound
  rw [total]
  cases host.accepts (host.basketId s.seq) with
  | true =>
    simp only [↓reduceIte, true_and]
    exact eq_comm
  | false =>
    simp only [Bool.false_eq_true, ↓reduceIte, false_and, iff_false]
    omega

/-- A stop cancelled by a flatten whose exit fills at once. -/
def flattenedRun (qty : Int) : List Call :=
  [⟨2, .signal .buy 100 0⟩, ⟨3, .fill "MNQ-0-0" 100 qty true⟩, ⟨4, .flatten "eod_flatten" 100⟩,
    ⟨5, .fill "MNQ-0-2" 99 qty false⟩]

/-- The protective stop of a bought position at 100. -/
def flattenedStop (qty : Int) : OrderRole × OrderRequest :=
  (.stop, { basket := "MNQ-0-1", symbol := "MNQ", exchange := "CME", qty := qty
            orderType := .stopMarket, isBuy := false, price := 85, userTag := "stop_loss" })

/-- A stop that fills after the flatten is unwound exactly when its order is accepted and the
report is whole. -/
theorem late_stop_reversed_iff :
    unwound "MNQ-0-1" true (journal (step .accepting)
        (run (step .accepting) (fresh {} 0) (flattenedRun 1)) [⟨6, .fill "MNQ-0-1" 85 1 false⟩]).2 =
      reported "MNQ-0-1" [⟨6, .fill "MNQ-0-1" 85 1 false⟩] ↔
    Host.accepting.accepts (Host.accepting.basketId
        (run (step .accepting) (fresh {} 0) (flattenedRun 1)).seq) = true ∧
      reported "MNQ-0-1" [⟨6, .fill "MNQ-0-1" 85 1 false⟩] = 1 :=
  unwind_total_iff Host.accepting_live {} 0 (flattenedRun 1) [] ⟨6, .fill "MNQ-0-1" 85 1 false⟩
    (fun call inside => Ledger.foreign_of_not_brings (by revert call; decide +kernel))
    (flattenedStop 1) (by decide +kernel) (by decide +kernel) (Or.inl (by decide +kernel)) 85 1
    rfl (by decide) (fun _ inside => absurd inside List.not_mem_nil)

/-- A live host that sizes positions by a risk of 300 dollars. -/
def riskSized : Host := { Host.accepting with cfg := { vtRiskUsd := 300 } }

/-- A session with a range of 50 points before it, where that risk buys three contracts. -/
def quietSession : Call := ⟨1, .host {} (some { atrPts := 50 })⟩

/-- The stop of a three-lot position fires late and only one contract is reversed. -/
theorem late_stop_undersized :
    ¬∀ (host : Host), host.Live → ∀ (risk : RiskManager) (seq : Nat) (before after : List Call)
      (report : Call) (order : OrderRole × OrderRequest) (price : ℚ) (qty : Int),
      (∀ call ∈ before ++ report :: after, Ledger.Foreign host seq call.op) →
      order ∈ accepted (journal (step host) (fresh risk seq) before).2 →
      order.1 = .stop ∨ order.1 = .exit →
      (run (step host) (fresh risk seq) before).pos.state = .flat →
      order.2.basket ∈ (run (step host) (fresh risk seq) before).cancelledStops →
      report.op = .fill order.2.basket price qty false → 0 < qty →
      reported order.2.basket (report :: after) ≤ order.2.qty →
      (∀ call ∈ after, ∀ price qty isEntry,
        call.op = .fill order.2.basket price qty isEntry → isEntry = false) →
      unwound order.2.basket (!order.2.isBuy)
          (journal (step host) (run (step host) (fresh risk seq) before) (report :: after)).2 =
        reported order.2.basket (report :: after) := by
  intro sized
  have short := sized riskSized ⟨rfl, rfl, rfl⟩ {} 0 (quietSession :: flattenedRun 3) []
    ⟨6, .fill "MNQ-0-1" 85 3 false⟩ (flattenedStop 3) 85 3
    (fun call inside => Ledger.foreign_of_not_brings (by revert call; decide +kernel))
    (by decide +kernel) (Or.inl rfl) (by decide +kernel) (by decide +kernel) rfl (by decide)
    (by decide +kernel) (fun _ inside => absurd inside List.not_mem_nil)
  revert short
  decide +kernel

end RithmicEngine.OrderManager
