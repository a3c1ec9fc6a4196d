import RithmicEngine.Execution.TradeBooking
/-!
# The stop ratchet

The stop level of a trade only moves towards the market. A stop order is submitted at
the level in force, so the stop orders of a trade never loosen either, whatever moves
the level in between: break-even, the trail with its changing step, a strategy's own
stop, a failed exit that places the stop again.

The shield is the part of the order manager that says this: the trade, its side, its
level and the stop orders of one call. A move is what can happen to it, and every
operation is a walk of moves.
-/
namespace RithmicEngine

open Runs

/-- The first price protects a position of this direction at least as well as the other. -/
def AtLeastAsTight (direction : OrbSignal) (price other : ℚ) : Prop :=
  if direction = .buy then other ≤ price else price ≤ other

namespace AtLeastAsTight

variable {direction : OrbSignal} {price other third : ℚ}

theorem refl (direction : OrbSignal) (price : ℚ) : AtLeastAsTight direction price price := by
  rw [AtLeastAsTight]
  split
  · exact le_refl price
  · exact le_refl price

theorem trans (first : AtLeastAsTight direction price other)
    (second : AtLeastAsTight direction other third) : AtLeastAsTight direction price third := by
  rw [AtLeastAsTight] at first second ⊢
  split at first
  next long =>
    rw [if_pos long] at second ⊢
    exact second.trans first
  next short =>
    rw [if_neg short] at second ⊢
    exact first.trans second

end AtLeastAsTight

/-- What stands between a trade and the market: the level of its stop, and the prices of
the stop orders that were submitted so far. -/
structure Shield where
  trade : Nat
  state : PosState
  direction : OrbSignal
  level : ℚ
  stops : List ℚ

namespace Shield

def Open (p : Shield) : Prop := p.state = .long ∨ p.state = .short

/-- What can happen to the shield of a trade. A trade ends without a stop order, and the
level moves towards the market only. -/
inductive Move (p : Shield) : Shield → Prop
  | signal (direction : OrbSignal) (level : ℚ) (flat : p.state = .flat) (none : p.stops = []) :
      Move p { p with
        trade := p.trade + 1, state := .pendingEntry, direction := direction, level := level }
  | abandon (direction : OrbSignal) (level : ℚ) (idle : p.state.isHeld = false) :
      Move p { p with state := .flat, direction := direction, level := level }
  | fill (level : ℚ) (pending : p.state = .pendingEntry) :
      Move p { p with state := heldState p.direction, level := level }
  | tighten (level : ℚ) (trading : p.Open)
      (nearer : if p.state = .long then p.level < level else level < p.level) :
      Move p { p with level := level }
  | submit (trading : p.Open) : Move p { p with stops := p.stops ++ [p.level] }
  | leave (held : p.state.isHeld = true) : Move p { p with state := .pendingExit }
  | reopen (held : p.state.isHeld = true) : Move p { p with state := heldState p.direction }
  | close (direction : OrbSignal) (level : ℚ) (held : p.state.isHeld = true)
      (none : p.stops = []) :
      Move p { p with state := .flat, direction := direction, level := level }

/-- Any number of moves. -/
abbrev Walk : Shield → Shield → Prop := Relation.ReflTransGen Move

/-- A level or a stop order, with the trade that it belongs to. -/
structure Shown where
  trade : Nat
  direction : OrbSignal
  price : ℚ
  deriving DecidableEq, Repr

/-- Of two entries of one trade the later one is at least as tight. -/
def Tightens (earlier later : Shown) : Prop :=
  earlier.trade = later.trade →
    earlier.direction = later.direction ∧
      AtLeastAsTight later.direction later.price earlier.price

/-- The shield covers what was shown before: an entry of its own trade is no tighter than
its level, and no tighter than the stop orders it has submitted since. -/
structure Covers (shown : List Shown) (p : Shield) : Prop where
  faces : p.Open → p.state = heldState p.direction
  past : ∀ entry ∈ shown, entry.trade ≤ p.trade
  fresh : p.state = .pendingEntry → ∀ entry ∈ shown, entry.trade ≠ p.trade
  side : p.state.isHeld = true → ∀ entry ∈ shown, entry.trade = p.trade →
    entry.direction = p.direction ∧ AtLeastAsTight p.direction p.level entry.price ∧
      ∀ stop ∈ p.stops, AtLeastAsTight p.direction stop entry.price
  idle : p.state.isHeld = false → p.stops = []
  below : ∀ stop ∈ p.stops, AtLeastAsTight p.direction p.level stop
  ordered : p.stops.Pairwise fun earlier later => AtLeastAsTight p.direction later earlier

variable {shown : List Shown} {p q : Shield}

theorem Open.isHeld (trading : p.Open) : p.state.isHeld = true := by
  rcases trading with long | short
  · rw [long]
    rfl
  · rw [short]
    rfl

/-- A level nearer the market is tighter, on the side that the position faces. -/
theorem tighter_of_nearer {level : ℚ} (faces : p.state = heldState p.direction)
    (nearer : if p.state = .long then p.level < level else level < p.level) :
    AtLeastAsTight p.direction level p.level := by
  rw [AtLeastAsTight]
  by_cases long : p.direction = .buy
  · have state : p.state = .long := by rw [faces, heldState, if_pos long]
    rw [if_pos state] at nearer
    rw [if_pos long]
    exact nearer.le
  · have state : p.state ≠ .long := by
      rw [faces, heldState, if_neg long]
      decide
    rw [if_neg state] at nearer
    rw [if_neg long]
    exact nearer.le

/-- Nothing protects a trade that is not held, and there is nothing to loosen. -/
theorem Covers.of_idle (idle : p.state.isHeld = false) (none : p.stops = [])
    (past : ∀ entry ∈ shown, entry.trade ≤ p.trade)
    (fresh : p.state = .pendingEntry → ∀ entry ∈ shown, entry.trade ≠ p.trade) :
    Covers shown p := by
  constructor
  · intro trading
    exact absurd (trading.isHeld.symm.trans idle) (by decide)
  · exact past
  · exact fresh
  · intro held
    exact absurd (held.symm.trans idle) (by decide)
  · exact fun _ => none
  · rw [none]
    exact fun stop inside => absurd inside List.not_mem_nil
  · rw [none]
    exact List.Pairwise.nil

/-- A move of the shield keeps it covering what was shown before. By the move. -/
theorem Move.covers (move : Move p q) (covers : Covers shown p) : Covers shown q := by
  cases move with
  | signal direction level flat none =>
    apply Covers.of_idle
    · rfl
    · exact none
    · intro entry inside
      exact (covers.past entry inside).trans (Nat.le_succ p.trade)
    · intro _ entry inside
      have := covers.past entry inside
      dsimp only
      omega
  | abandon direction level idle =>
    apply Covers.of_idle
    · rfl
    · exact covers.idle idle
    · exact covers.past
    · intro pending
      cases pending
  | fill level pending =>
    have none : p.stops = [] := covers.idle (by rw [pending]; rfl)
    constructor
    · exact fun _ => rfl
    · exact covers.past
    · intro still
      rcases heldState_open p.direction with long | short
      · exact absurd (long.symm.trans still) (by decide)
      · exact absurd (short.symm.trans still) (by decide)
    · intro _ entry inside same
      exact absurd same (covers.fresh pending entry inside)
    · exact fun _ => none
    · rw [none]
      exact fun stop inside => absurd inside List.not_mem_nil
    · rw [none]
      exact List.Pairwise.nil
  | tighten level trading nearer =>
    have tighter := tighter_of_nearer (covers.faces trading) nearer
    constructor
    · exact covers.faces
    · exact covers.past
    · exact covers.fresh
    · intro held entry inside same
      obtain ⟨side, level, stops⟩ := covers.side held entry inside same
      exact ⟨side, tighter.trans level, stops⟩
    · exact covers.idle
    · intro stop inside
      exact tighter.trans (covers.below stop inside)
    · exact covers.ordered
  | submit trading =>
    constructor
    · exact covers.faces
    · exact covers.past
    · exact covers.fresh
    · intro held entry inside same
      obtain ⟨side, level, stops⟩ := covers.side held entry inside same
      refine ⟨side, level, fun stop submitted => ?_⟩
      rcases List.mem_append.mp submitted with before | now
      · exact stops stop before
      · rw [List.mem_singleton.mp now]
        exact level
    · intro idle
      exact absurd (trading.isHeld.symm.trans idle) (by decide)
    · intro stop submitted
      rcases List.mem_append.mp submitted with before | now
      · exact covers.below stop before
      · rw [List.mem_singleton.mp now]
        exact .refl p.direction p.level
    · rw [List.pairwise_append]
      refine ⟨covers.ordered, List.pairwise_singleton _ _, fun stop before now inside => ?_⟩
      rw [List.mem_singleton.mp inside]
      exact covers.below stop before
  | leave held =>
    constructor
    · rintro (long | short)
      · cases long
      · cases short
    · exact covers.past
    · intro pending
      cases pending
    · exact fun _ => covers.side held
    · intro idle
      cases idle
    · exact covers.below
    · exact covers.ordered
  | reopen held =>
    constructor
    · exact fun _ => rfl
    · exact covers.past
    · intro pending
      rcases heldState_open p.direction with long | short
      · exact absurd (long.symm.trans pending) (by decide)
      · exact absurd (short.symm.trans pending) (by decide)
    · exact fun _ => covers.side held
    · intro idle
      exact absurd ((heldState_isHeld p.direction).symm.trans idle) (by decide)
    · exact covers.below
    · exact covers.ordered
  | close direction level held none =>
    apply Covers.of_idle
    · rfl
    · exact none
    · exact covers.past
    · intro pending
      cases pending

theorem Walk.covers (walk : Walk p q) (covers : Covers shown p) : Covers shown q := by
  induction walk with
  | refl => exact covers
  | tail walk move ih => exact move.covers ih

theorem Move.trade_le (move : Move p q) : p.trade ≤ q.trade := by
  cases move with
  | signal direction level flat none => exact Nat.le_succ p.trade
  | _ => exact le_refl p.trade

theorem Walk.trade_le (walk : Walk p q) : p.trade ≤ q.trade := by
  induction walk with
  | refl => exact le_refl p.trade
  | tail walk move ih => exact ih.trans move.trade_le

/-! ## What a call shows -/

/-- The stop orders of a call and the level after it, under the trade that is on then. -/
def shows (p : Shield) : List Shown :=
  p.stops.map (fun stop => ⟨p.trade, p.direction, stop⟩) ++
    if p.state.isHeld then [⟨p.trade, p.direction, p.level⟩] else []

/-- A price is shown for the trade that is on, and is its level or one of its stop orders. -/
theorem mem_shows {entry : Shown} (inside : entry ∈ p.shows) :
    entry.trade = p.trade ∧ entry.direction = p.direction ∧
      (entry.price ∈ p.stops ∨ p.state.isHeld = true ∧ entry.price = p.level) := by
  rw [shows, List.mem_append] at inside
  rcases inside with stop | level
  · obtain ⟨price, submitted, rfl⟩ := List.mem_map.mp stop
    exact ⟨rfl, rfl, Or.inl submitted⟩
  · split at level
    next held =>
      rw [List.mem_singleton.mp level]
      exact ⟨rfl, rfl, Or.inr ⟨held, rfl⟩⟩
    next => exact absurd level List.not_mem_nil

/-- A shield without stop orders, as every call begins with. -/
def bare (p : Shield) : Shield := { p with stops := [] }

/-- What a shield shows is no tighter than itself from then on. -/
theorem Covers.extend (covers : Covers shown p) : Covers (shown ++ p.shows) p.bare := by
  refine ⟨covers.faces, ?_, ?_, ?_, fun _ => rfl, fun stop inside => absurd inside
    List.not_mem_nil, List.Pairwise.nil⟩
  · intro entry inside
    rcases List.mem_append.mp inside with before | now
    · exact covers.past entry before
    · exact (mem_shows now).1.le
  · intro pending entry inside
    have idle : p.state.isHeld = false := congrArg PosState.isHeld pending
    rcases List.mem_append.mp inside with before | now
    · exact covers.fresh pending entry before
    · obtain ⟨_, _, submitted | level⟩ := mem_shows now
      · rw [covers.idle idle] at submitted
        exact absurd submitted List.not_mem_nil
      · exact absurd (level.1.symm.trans idle) (by decide)
  · intro held entry inside same
    rcases List.mem_append.mp inside with before | now
    · obtain ⟨side, level, _⟩ := covers.side held entry before same
      exact ⟨side, level, fun stop inside => absurd inside List.not_mem_nil⟩
    · obtain ⟨_, side, submitted | level⟩ := mem_shows now
      · refine ⟨side, covers.below _ submitted, ?_⟩
        exact fun stop inside => absurd inside List.not_mem_nil
      · refine ⟨side, ?_, fun stop inside => absurd inside List.not_mem_nil⟩
        rw [level.2]
        exact .refl p.direction p.level

/-- What a shield shows tightens, and is at least as tight as what it covers. -/
theorem Covers.shows_tighten (covers : Covers shown p) (tightens : shown.Pairwise Tightens) :
    (shown ++ p.shows).Pairwise Tightens := by
  rw [List.pairwise_append]
  refine ⟨tightens, ?_, ?_⟩
  · rw [shows, List.pairwise_append]
    refine ⟨?_, ?_, ?_⟩
    · rw [List.pairwise_map]
      exact covers.ordered.imp fun tighter _ => ⟨rfl, tighter⟩
    · split
      · exact List.pairwise_singleton _ _
      · exact List.Pairwise.nil
    · intro stop inside level last
      obtain ⟨price, submitted, rfl⟩ := List.mem_map.mp inside
      split at last
      next =>
        rw [List.mem_singleton.mp last]
        exact fun _ => ⟨rfl, covers.below price submitted⟩
      next => exact absurd last List.not_mem_nil
  · intro entry before later now same
    obtain ⟨trade, direction, price⟩ := mem_shows now
    have own : entry.trade = p.trade := same.trans trade
    have held : p.state.isHeld = true := by
      rcases price with submitted | level
      · by_contra idle
        rw [covers.idle ((Bool.not_eq_true _).mp idle)] at submitted
        exact absurd submitted List.not_mem_nil
      · exact level.1
    obtain ⟨side, level, stops⟩ := covers.side held entry before own
    rw [direction]
    refine ⟨side, ?_⟩
    rcases price with submitted | ⟨_, same⟩
    · exact stops _ submitted
    · rw [same]
      exact level

end Shield


namespace OrderManager

variable {host : Host}

/-! ## The shield of the order manager -/

/-- The prices of the stop orders among the effects of a call. -/
def stopPrices (effects : List Effect) : List ℚ :=
  effects.filterMap fun
    | .order .stop request _ => some request.price
    | _ => none

def shield (s : OrderManager) : Shield where
  trade := s.tradeSeq
  state := s.pos.state
  direction := s.pos.direction
  level := s.pos.slPrice
  stops := stopPrices s.outbox

@[simp] theorem stopPrices_append (first second : List Effect) :
    stopPrices (first ++ second) = stopPrices first ++ stopPrices second :=
  List.filterMap_append

@[simp] theorem stopPrices_nil : stopPrices [] = [] := rfl

@[simp] theorem stopPrices_cons_stop (request : OrderRequest) (accepted : Bool)
    (rest : List Effect) :
    stopPrices (.order .stop request accepted :: rest) = request.price :: stopPrices rest := rfl

@[simp] theorem stopPrices_cancel (id : String) : stopPrices [.cancel id] = [] := rfl

@[simp] theorem stopPrices_persistNotice (basket : String) (wasBuyStop : Bool) :
    stopPrices (host.persistNotice basket wasBuyStop) = [] := by
  rw [Host.persistNotice]
  split
  · rfl
  · rfl

@[simp] theorem stopPrices_removeNotice (basket : String) :
    stopPrices (host.removeNotice basket) = [] := by
  rw [Host.removeNotice]
  split
  · rfl
  · rfl

@[simp] theorem stopPrices_persistServerNotice (client server : String) :
    stopPrices (host.persistServerNotice client server) = [] := by
  rw [Host.persistServerNotice]
  split
  · rfl
  · rfl

@[simp] theorem stopPrices_cancelNotice (id : String) :
    stopPrices (host.cancelNotice id) = [] := by
  rw [Host.cancelNotice]
  split
  · rfl
  · rfl

variable {t : OrderManager} (now : Int) (basket : String) (fillPrice : ℚ) (client : String)
  (currentPrice : ℚ) (fillQty : Int) (server : String) (s : OrderManager)

theorem shields_of_eq {s : OrderManager} {after : Shield} (same : t.shield = s.shield)
    (walk : Shield.Walk t.shield after) : Shield.Walk s.shield after := same ▸ walk

theorem shields_same {s : OrderManager} (same : t.shield = s.shield) :
    Shield.Walk s.shield t.shield := same ▸ .refl

theorem shield_open {s : OrderManager} (trading : s.inTrade = true) : s.shield.Open := by
  simp only [inTrade, Bool.or_eq_true, decide_eq_true_eq] at trading
  exact trading

theorem inTrade_of_state {s : OrderManager} (same : t.pos.state = s.pos.state) :
    t.inTrade = s.inTrade := by
  rw [inTrade, inTrade, same]

theorem inTrade_of_eq {s : OrderManager} (same : t.shield = s.shield) :
    t.inTrade = s.inTrade := inTrade_of_state (congrArg Shield.state same)

/-! ## Stop orders -/

/-- A stop order at the level in force is submitted, or none is. -/
theorem submitStop_shields (trading : s.inTrade = true) :
    Shield.Walk s.shield (submitStopOrderLocked host s.pos.slPrice s).shield := by
  simp only [submitStopOrderLocked]
  split
  · exact .refl
  · split
    · exact .refl
    next answer _ =>
      have submitted := Shield.Move.submit (shield_open trading)
      split
      · refine .single ?_
        simpa [shield, stopRequest] using submitted
      · refine .single ?_
        simpa [shield, stopRequest] using submitted

theorem cancelStop_shield (s : OrderManager) : (cancelStopLocked host s).shield = s.shield := by
  simp only [cancelStopLocked]
  split
  · rfl
  · split
    · simp [shield]
    · simp [shield]

/-- Moving the stop order submits the level of the shield. -/
theorem updateStop_shields (force : Bool) (s : OrderManager) (trading : s.inTrade = true) :
    Shield.Walk s.shield (updateStopOrderLocked host s.pos.slPrice force s).shield := by
  simp only [updateStopOrderLocked]
  split
  · exact .refl
  · split
    · exact .refl
    · split
      · exact submitStop_shields s trading
      · have cancelled := @cancelStop_shield host { s with stopResubmitPending := true }
        generalize cancelStopLocked host { s with stopResubmitPending := true } = c
          at cancelled ⊢
        have level : c.pos.slPrice = s.pos.slPrice := congrArg Shield.level cancelled
        have still : c.inTrade = s.inTrade :=
          inTrade_of_eq (s := { s with stopResubmitPending := true }) cancelled
        rw [← level]
        exact shields_of_eq cancelled (submitStop_shields c (still.trans trading))

theorem cancelOrder_shield (clientId : String) (s : OrderManager) :
    (cancelOrderLocked host clientId s).shield = s.shield := by
  simp only [cancelOrderLocked]
  split
  · rfl
  · simp [shield]

theorem sendUnwind_shield (fired : String) (fillPrice : ℚ) (unwindIsBuy : Bool)
    (userTag : String) (register : Bool) (s : OrderManager) :
    (sendUnwind host fired fillPrice unwindIsBuy userTag register s).shield = s.shield := by
  simp only [sendUnwind]
  split
  · rfl
  · simp [shield, stopPrices]

theorem accumulateFill_shield :
    (accumulateFill basket fillPrice fillQty s).1.shield = s.shield := by
  simp only [accumulateFill]
  split
  · rfl
  · rfl

/-! ## Fills -/

/-- The fill of a pending entry opens a trade with its first stop. -/
theorem entryFill_shields (pending : s.pos.state = .pendingEntry) :
    Shield.Walk s.shield (entryFill host now basket fillPrice fillQty s).shield := by
  simp only [entryFill]
  split
  · exact .refl
  · split
    · exact .refl
    · have filled : Shield.Move s.shield (openedPosition host now fillPrice s).shield :=
        .fill (entrySl host fillPrice s) pending
      refine .head filled (submitStop_shields (openedPosition host now fillPrice s) ?_)
      rcases heldState_open s.pos.direction with long | short
      · simp [inTrade, openedPosition, long]
      · simp [inTrade, openedPosition, short]

theorem dropFiredGuard_shield : (dropFiredGuard host basket s).shield = s.shield := by
  simp [dropFiredGuard, emit, eraseServerCancelForClientLocked, shield]

/-- A fill while flat leaves the shield. -/
theorem flatFill_shield : (flatFill host basket fillPrice s).shield = s.shield := by
  have told : (emit [.flatFill basket] s).shield = s.shield := by
    simp [emit, shield, stopPrices]
  simp only [flatFill]
  generalize emit [.flatFill basket] s = t at told ⊢
  split
  · rw [sendUnwind_shield, dropFiredGuard_shield]
    exact told
  · split
    · rw [sendUnwind_shield, dropFiredGuard_shield]
      exact told
    · split
      · exact told
      · split
        · exact told
        · exact told

/-- The complete fill of any order closes a held trade that submitted no stop meanwhile. -/
theorem exitFill_shields (held : s.pos.state.isHeld = true) (none : stopPrices s.outbox = []) :
    Shield.Walk s.shield (exitFill host basket fillPrice fillQty s).shield := by
  simp only [exitFill]
  split
  · exact .refl
  · have guard : (dropFilledGuard host basket s).shield = s.shield := by
      simp only [dropFilledGuard]
      split
      · simp [shield]
      · rfl
    generalize dropFilledGuard host basket s = g at guard ⊢
    have booked : Shield.Walk s.shield (bookExit host basket fillPrice g).shield := by
      refine shields_of_eq guard (.single (.leave ?_))
      exact (congrArg (PosState.isHeld ∘ Shield.state) guard).trans held
    have stops : stopPrices (bookExit host basket fillPrice g).outbox = [] :=
      (congrArg Shield.stops guard).trans none
    have leaving : (bookExit host basket fillPrice g).pos.state = .pendingExit := rfl
    generalize bookExit host basket fillPrice g = b at booked stops leaving ⊢
    have settled : (settleStop host basket b).shield = b.shield := by
      simp only [settleStop]
      split
      · rfl
      · split
        · exact cancelStop_shield b
        · simp [emit, shield]
    generalize settleStop host basket b = c at settled ⊢
    have stale : (dropStaleGuard host basket c).shield = c.shield := by
      simp only [dropStaleGuard]
      split
      · simp [eraseServerCancelForClientLocked, emit, shield]
      · rfl
    generalize dropStaleGuard host basket c = d at stale ⊢
    have removed (baskets : List String) : stopPrices (baskets.flatMap host.removeNotice) = [] := by
      induction baskets with
      | nil => rfl
      | cons head rest ih => simp [ih]
    have before : d.shield = b.shield := stale.trans settled
    refine booked.tail ?_
    rw [← before]
    have closed := Shield.Move.close (p := d.shield) .none 0
      (by rw [before]; exact congrArg PosState.isHeld leaving) (by rw [before]; exact stops)
    simpa [shield, purgeGuards, finishClose, removed] using closed

/-- A fill is a walk of the shield: it opens, closes or leaves the trade. -/
theorem onFill_shields (isEntryFill : Bool) (s : OrderManager) (none : stopPrices s.outbox = []) :
    Shield.Walk s.shield
      (onFillNotificationLocked host now basket fillPrice fillQty isEntryFill s).shield := by
  have same := accumulateFill_shield basket fillPrice fillQty s
  simp only [onFillNotificationLocked]
  generalize accumulateFill basket fillPrice fillQty s = accumulated at same ⊢
  obtain ⟨c, price⟩ := accumulated
  refine shields_of_eq same ?_
  dsimp only
  split
  · split
    · refine shields_same ?_
      simp only [lateEntryFill]
      split
      · exact sendUnwind_shield _ _ _ _ _ _
      · rfl
    next pending => exact entryFill_shields now basket price fillQty c (not_not.mp pending)
  · split
    · exact shields_same (flatFill_shield basket price c)
    next open_ =>
      refine exitFill_shields basket price fillQty c ?_ ((congrArg Shield.stops same).trans none)
      cases state : c.pos.state with
      | flat => exact absurd (by rw [state]; decide) open_
      | pendingEntry => exact absurd (by rw [state]; decide) open_
      | _ => rfl

/-! ## Entries and exits -/

/-- Sending the entry order walks: dry it fills at once, refused it is given up. -/
theorem sendMarketOrder_shields (isBuy : Bool) (refPrice : ℚ) (userTag : String) (s : OrderManager)
    (pending : s.pos.state = .pendingEntry) (none : stopPrices s.outbox = []) :
    Shield.Walk s.shield (sendMarketOrder host now basket isBuy refPrice userTag s).shield := by
  simp only [sendMarketOrder]
  split
  · exact onFill_shields now basket refPrice _ true s none
  · split
    · exact .refl
    next answer _ =>
      have sent : (emit [.order .entry (entryRequest host basket isBuy refPrice userTag s)
          (answer basket)] s).shield = s.shield := by
        simp [emit, shield, stopPrices]
      split
      · exact shields_same sent
      · refine shields_of_eq sent (.single (.abandon .none 0 ?_))
        exact congrArg PosState.isHeld pending

/-- Opening an entry is a walk of the shield. -/
theorem openEntry_shields (sig : OrbSignal) (price desiredSlDist : ℚ) (s : OrderManager)
    (flat : s.pos.state = .flat) (none : stopPrices s.outbox = []) :
    Shield.Walk s.shield (openEntry host now sig price desiredSlDist s).shield := by
  simp only [openEntry]
  refine .head ?_ (sendMarketOrder_shields now _ _ price "entry" _ ?_ ?_)
  · exact .signal sig 0 flat none
  · rfl
  · exact none

/-- Starting an exit leaves the trade, closes it in a dry run, or places the stop again
at its level when the exit is refused. -/
theorem initiateExit_shields (reason : String) (refPrice : ℚ) (s : OrderManager)
    (none : stopPrices s.outbox = []) :
    Shield.Walk s.shield (initiateExitLocked host now reason refPrice s).shield := by
  simp only [initiateExitLocked]
  split
  · exact .refl
  next trading =>
    have held := s.inTrade_held (by simpa only [Bool.not_eq_false] using trading)
    have cancelled := @cancelStop_shield host
      { s with slBreachTime := 0, stopResubmitPending := false }
    generalize cancelStopLocked host { s with slBreachTime := 0, stopResubmitPending := false } = c
      at cancelled ⊢
    have begun : Shield.Walk s.shield (beginExit host reason c).shield := by
      refine shields_of_eq cancelled (.single (.leave ?_))
      exact (congrArg (PosState.isHeld ∘ Shield.state) cancelled).trans held
    have quiet : stopPrices (beginExit host reason c).outbox = [] :=
      (congrArg Shield.stops cancelled).trans none
    have leaving : (beginExit host reason c).pos.state = .pendingExit := rfl
    generalize beginExit host reason c = b at begun quiet leaving ⊢
    split
    · exact begun.trans (onFill_shields now _ refPrice _ false b quiet)
    · split
      · exact begun
      next answer _ =>
        have sent : (emit [.order .exit (exitRequest host (host.basketId c.seq) reason refPrice b)
            (answer (host.basketId c.seq))] b).shield = b.shield := by
          simp [emit, shield, stopPrices]
        generalize emit [.order .exit (exitRequest host (host.basketId c.seq) reason refPrice b)
            (answer (host.basketId c.seq))] b = e at sent ⊢
        split
        · rw [sent]
          exact begun
        · have reopened : Shield.Move e.shield e.exitRefused.shield := by
            refine .reopen ?_
            rw [sent]
            exact congrArg PosState.isHeld leaving
          refine begun.trans (shields_of_eq sent (.head reopened ?_))
          refine submitStop_shields e.exitRefused ?_
          rcases heldState_open e.pos.direction with long | short
          · simp [inTrade, exitRefused, reopen, long]
          · simp [inTrade, exitRefused, reopen, short]

/-- A pending entry is given up, its trade without a level. -/
theorem abandonEntry_shields (pending : s.pos.state = .pendingEntry) :
    Shield.Walk s.shield (abandonEntry host s).shield := by
  have cancelled := @cancelOrder_shield host s.pos.basketIdEntry
    { s with
      pendingCancelBasket := s.pos.basketIdEntry
      pendingCancelWasBuy := decide (s.pos.direction = .buy) }
  rw [abandonEntry]
  generalize cancelOrderLocked host s.pos.basketIdEntry
    { s with
      pendingCancelBasket := s.pos.basketIdEntry
      pendingCancelWasBuy := decide (s.pos.direction = .buy) } = c at cancelled ⊢
  refine shields_of_eq cancelled (.single (.abandon .none 0 ?_))
  rw [cancelled]
  exact congrArg PosState.isHeld pending

/-- Flattening is a walk of the shield. -/
theorem flattenNow_shields (reason : String) (price : ℚ) (s : OrderManager)
    (none : stopPrices s.outbox = []) :
    Shield.Walk s.shield (flattenNow host now reason price s).shield := by
  simp only [flattenNow]
  split
  · exact .refl
  next pending => exact abandonEntry_shields s pending
  · exact .refl
  · exact initiateExit_shields now reason price s none
  · exact initiateExit_shields now reason price s none

/-- A signal walks: it starts a trade, or none. -/
theorem onSignal_shields (sig : OrbSignal) (price desiredSlDist : ℚ) (s : OrderManager)
    (none : stopPrices s.outbox = []) :
    Shield.Walk s.shield (onSignal host now sig price desiredSlDist s).shield := by
  have entry (sig : OrbSignal) :
      Shield.Walk s.shield (if s.entryHalted || s.ghostHalted then s
        else if s.risk.canTrade = false then s
        else if s.pos.state ≠ .flat then s
        else openEntry host now sig price desiredSlDist s).shield := by
    split
    · exact .refl
    · split
      · exact .refl
      · split
        · exact .refl
        next flat => exact openEntry_shields now sig price desiredSlDist s (not_not.mp flat) none
  cases sig with
  | none => exact .refl
  | flattenEod => exact flattenNow_shields now "eod_flatten" price s none
  | buy => exact entry .buy
  | sell => exact entry .sell

/-- Retrying a stuck exit reopens the trade and leaves it again. -/
theorem retryStuckExit_shields (none : stopPrices s.outbox = []) :
    Shield.Walk s.shield (retryStuckExit host now currentPrice s).shield := by
  simp only [retryStuckExit]
  split
  · exact .refl
  next closing =>
    split
    · exact .refl
    · have guarded : (guardExit host s).shield = s.shield := by
        simp only [guardExit]
        split
        · rfl
        · have cancelled := @cancelOrder_shield host s.pos.basketIdExit
          simpa [shield] using cancelled _
      generalize guardExit host s = g at guarded ⊢
      have closing : g.pos.state = .pendingExit :=
        (congrArg Shield.state guarded).trans (not_not.mp closing)
      refine shields_of_eq guarded (.head (.reopen ?_) (initiateExit_shields now _ _ g.reopen ?_))
      · exact congrArg PosState.isHeld closing
      · exact (congrArg Shield.stops guarded).trans none

/-- An external close ends the trade. -/
theorem adoptExternalClose_shields (refPrice : ℚ) (reason : String) (s : OrderManager)
    (none : stopPrices s.outbox = []) :
    Shield.Walk s.shield (adoptExternalClose host refPrice reason s).shield := by
  simp only [adoptExternalClose]
  split
  · exact .refl
  next open_ =>
    have held : s.pos.state.isHeld = true := by
      cases state : s.pos.state with
      | flat => exact absurd (by rw [state]; decide) open_
      | pendingEntry => exact absurd (by rw [state]; decide) open_
      | _ => rfl
    have cancelled := @cancelStop_shield host s
    generalize cancelStopLocked host s = c at cancelled ⊢
    refine shields_of_eq cancelled (.single (.close .none 0 ?_ ?_))
    · exact (congrArg (PosState.isHeld ∘ Shield.state) cancelled).trans held
    · exact (congrArg Shield.stops cancelled).trans none

/-! ## Price checks -/

/-- The breach check exits, or leaves the trade as it was. -/
theorem checkBreach_shields (now : Int) (currentPrice : ℚ) (s : OrderManager)
    (none : stopPrices s.outbox = []) :
    Shield.Walk s.shield (checkBreach host now currentPrice s).1.shield ∧
      ((checkBreach host now currentPrice s).2 = false →
        (checkBreach host now currentPrice s).1.shield = s.shield) := by
  have exits (reason : String) (t : OrderManager) (same : t.shield = s.shield) :
      Shield.Walk s.shield (initiateExitLocked host now reason currentPrice t).shield := by
    refine shields_of_eq same (initiateExit_shields now reason currentPrice t ?_)
    exact (congrArg Shield.stops same).trans none
  simp only [checkBreach]
  split_ifs
  · exact ⟨exits _ _ rfl, fun kept => absurd kept (by decide)⟩
  · exact ⟨exits _ _ rfl, fun kept => absurd kept (by decide)⟩
  · exact ⟨.refl, fun _ => rfl⟩
  · exact ⟨exits _ _ rfl, fun kept => absurd kept (by decide)⟩
  · exact ⟨.refl, fun _ => rfl⟩
  · exact ⟨.refl, fun _ => rfl⟩

/-- A level that improves the stop is nearer the market. -/
theorem tighten_of_improves {level : ℚ} {s : OrderManager} (trading : s.inTrade = true)
    (improves : s.improvesSl level = true) :
    Shield.Move s.shield { s.shield with level := level } := by
  refine .tighten level (shield_open trading) ?_
  rw [improvesSl] at improves
  split at improves
  next long =>
    rw [if_pos (show s.shield.state = .long from long)]
    exact of_decide_eq_true improves
  next short =>
    rw [if_neg (show s.shield.state ≠ .long from short)]
    exact of_decide_eq_true improves

theorem tightenStop_shields (level : ℚ) (s : OrderManager) (trading : s.inTrade = true) :
    Shield.Walk s.shield (tightenStop host level s).1.shield := by
  simp only [tightenStop]
  split
  next improves =>
    refine .head (tighten_of_improves trading improves) ?_
    exact updateStop_shields false { s with pos := { s.pos with slPrice := level } } trading
  · exact .refl

/-- The break-even move is a walk of the shield. -/
theorem breakEven_shields (s : OrderManager) (trading : s.inTrade = true) :
    Shield.Walk s.shield (breakEven host s).1.shield := by
  simp only [breakEven]
  split
  · split
    next improves =>
      refine .head (tighten_of_improves (s := s) trading improves) ?_
      exact updateStop_shields true
        { s with pos := { s.pos with
            beTriggered := true, slPrice := breakEvenSl host s, beSlPrice := breakEvenSl host s } }
        trading
    · exact .refl
  · exact .refl

theorem activateTrail_shield (now : Int) (s : OrderManager) :
    (activateTrail host now s).shield = s.shield := by
  simp only [activateTrail]
  split
  · rfl
  · rfl

theorem trail_shields (trading : s.inTrade = true) :
    Shield.Walk s.shield (trail host currentPrice s).1.shield := by
  simp only [trail]
  split
  · exact tightenStop_shields _ s trading
  · exact .refl

/-- The price check walks: it leaves the trade, or tightens its level and submits. -/
theorem checkTrail_shields (none : stopPrices s.outbox = []) :
    Shield.Walk s.shield (checkTrailAndStop host now currentPrice s).1.shield := by
  simp only [checkTrailAndStop]
  split
  · exact .refl
  next trading =>
    obtain ⟨shields, kept⟩ := @checkBreach_shields host now currentPrice
      (trackExcursion currentPrice s) none
    generalize checkBreach host now currentPrice (trackExcursion currentPrice s) = checked
      at shields kept ⊢
    obtain ⟨c, exited⟩ := checked
    cases exited with
    | true => exact shields
    | false =>
      have still : c.shield = s.shield := kept rfl
      have open_ : c.inTrade = true := by
        refine (inTrade_of_eq still).trans ?_
        simpa only [Bool.not_eq_false] using trading
      simp only [Bool.false_eq_true, ↓reduceIte]
      split
      · refine shields_of_eq still (initiateExit_shields now _ _ { c with slBreachTime := 0 } ?_)
        exact (congrArg Shield.stops still).trans none
      · have raised := @breakEven_shields host c open_
        have raisedOpen : (breakEven host c).1.inTrade = true :=
          (inTrade_of_state (breakEven_state c)).trans open_
        refine shields_of_eq still (raised.trans ?_)
        generalize (breakEven host c).1 = b at raisedOpen ⊢
        have activated := @activateTrail_shield host now b
        refine shields_of_eq activated (trail_shields currentPrice _ ?_)
        exact (inTrade_of_eq activated).trans raisedOpen

/-- The check with a strategy's stop walks the same way. -/
theorem checkExternal_shields (stratStop : Option ℚ) (s : OrderManager)
    (none : stopPrices s.outbox = []) :
    Shield.Walk s.shield (checkExternalStop host now currentPrice stratStop s).1.shield := by
  simp only [checkExternalStop]
  split
  · exact .refl
  next trading =>
    obtain ⟨shields, kept⟩ := @checkBreach_shields host now currentPrice
      (trackExcursion currentPrice s) none
    generalize checkBreach host now currentPrice (trackExcursion currentPrice s) = checked
      at shields kept ⊢
    obtain ⟨c, exited⟩ := checked
    cases exited with
    | true => exact shields
    | false =>
      have still : c.shield = s.shield := kept rfl
      have open_ : c.inTrade = true := by
        refine (inTrade_of_eq still).trans ?_
        simpa only [Bool.not_eq_false] using trading
      simp only [Bool.false_eq_true, ↓reduceIte]
      cases stratStop with
      | none => exact shields_same still
      | some level =>
        dsimp only
        split
        · exact shields_of_eq still (tightenStop_shields _ c open_)
        · exact shields_same still

/-! ## Rejections, cancel outcomes and id mappings -/

/-- A rejection that sends no stop is a move of the shield. -/
theorem onOrderRejected_shields (none : stopPrices s.outbox = []) :
    Shield.Walk s.shield (onOrderRejected host now basket s).shield := by
  simp only [onOrderRejected]
  split
  next pending =>
    refine .single (.abandon .none 0 ?_)
    exact congrArg PosState.isHeld pending.2
  · split
    next closing =>
      have reopened : Shield.Move s.shield
          { s.reopen with rejectedExitCount := s.rejectedExitCount + 1 }.shield :=
        .reopen (congrArg PosState.isHeld closing.2)
      split
      · exact .head reopened (initiateExit_shields now _ _ _ none)
      · exact .single reopened
    · split
      · exact shields_same (by simp [shield])
      · exact .refl

theorem readoptStop_shield : (readoptStop host client server s).shield = s.shield := by
  simp [readoptStop, shield]

/-- A failed cancel leaves the shield. -/
theorem onCancelFailed_shield (id : String) (s : OrderManager) :
    (onCancelFailed host id s).shield = s.shield := by
  simp only [onCancelFailed]
  generalize (s.serverToClientCancelled.lookup id).getD id = client
  generalize (if (s.serverToClientCancelled.lookup id).isSome then id else "") = server
  split
  · rfl
  · split
    · rfl
    · split
      · rfl
      · split
        · rfl
        · rw [readoptStop_shield]
          split
          · exact cancelStop_shield _
          · rfl

theorem onStopServerMapped_shield :
    (onStopServerMapped host client server s).shield = s.shield := by
  simp only [onStopServerMapped]
  split_ifs
  all_goals simp [shield]

theorem mapServerBasket_shield : (mapServerBasket host client server s).shield = s.shield := by
  simp only [mapServerBasket]
  split_ifs
  all_goals simp [shield]

theorem stopPrices_cancels (ids : List String) : stopPrices (ids.map Effect.cancel) = [] := by
  induction ids with
  | nil => rfl
  | cons id rest ih => exact ih

/-! ## Calls and runs -/

/-- With no stop order sent yet, an operation is a walk of moves of the shield. -/
theorem perform_shields (call : Call) (s : OrderManager) (none : stopPrices s.outbox = []) :
    Shield.Walk s.shield (perform host call s).shield := by
  obtain ⟨now, op⟩ := call
  cases op with
  | signal sig price dist => exact onSignal_shields now sig price dist s none
  | fill basket price qty isEntry => exact onFill_shields now basket price qty isEntry s none
  | checkTrail price => exact checkTrail_shields now price s none
  | checkExternal price stratStop => exact checkExternal_shields now price stratStop s none
  | flatten reason price => exact flattenNow_shields now reason price s none
  | retryStuckExit price => exact retryStuckExit_shields now price s none
  | entryTimeout secs =>
    simp only [perform, pendingEntryTimeoutCheck]
    split
    · exact .refl
    next pending =>
      split
      · exact .refl
      · split
        · exact .refl
        · exact abandonEntry_shields s (not_not.mp pending)
  | rejected basket => exact onOrderRejected_shields now basket s none
  | cancelConfirmed basket => exact shields_same (by simp [perform, onCancelConfirmed, shield])
  | cancelConfirmedByServer server =>
    refine shields_same ?_
    simp only [perform, onCancelConfirmedByServerBasket]
    split
    · rfl
    · simp [shield]
  | cancelFailed id => exact shields_same (onCancelFailed_shield id s)
  | stopServerMapped client server => exact shields_same (onStopServerMapped_shield client server s)
  | mapServer client server => exact shields_same (mapServerBasket_shield client server s)
  | externalClose refPrice reason => exact adoptExternalClose_shields refPrice reason s none
  | fillProcessed basket qty =>
    refine shields_same ?_
    simp only [perform, fillAlreadyProcessed]
    split
    · rfl
    · rfl
  | recancel =>
    refine shields_same ?_
    simp only [perform, recancelPendingStops]
    split
    · rfl
    · simp [emit, shield, stopPrices_cancels]
  | popCompleted =>
    refine shields_same ?_
    simp only [perform, popTradeCompleted]
    split
    · rfl
    · rfl
  | _ => exact .refl

theorem step_trade_le (host : Host) (s : OrderManager) (call : Call) :
    s.tradeSeq ≤ (step host s call).tradeSeq := by
  have walk : Shield.Walk { s with outbox := [] }.shield (step host s call).shield :=
    perform_shields call { s with outbox := [] } rfl
  exact walk.trade_le

/-- After each call of a run, the stop orders it submitted and the level it left. -/
def protection (host : Host) (risk : RiskManager) (seq : Nat) (calls : List Call) :
    List Shield.Shown :=
  (run (observe (step host) fun shown _ _ after => shown ++ after.shield.shows)
    (fresh risk seq, []) calls).2

/-- One call keeps the log tightening, and its last shield covers the log. -/
theorem step_covers (call : Call) {shown : List Shield.Shown} (s : OrderManager)
    (covers : Shield.Covers shown s.shield.bare) (tightens : shown.Pairwise Shield.Tightens) :
    Shield.Covers (shown ++ (step host s call).shield.shows) (step host s call).shield.bare ∧
      (shown ++ (step host s call).shield.shows).Pairwise Shield.Tightens := by
  have walk : Shield.Walk s.shield.bare (step host s call).shield :=
    perform_shields call { s with outbox := [] } rfl
  have after := walk.covers covers
  exact ⟨after.extend, after.shows_tighten tightens⟩

/-- In every run, whatever moves the stop, each level and each stop order of a trade is at
least as tight as the levels and the stop orders of that trade before it. -/
theorem protection_tightens (host : Host) (risk : RiskManager) (seq : Nat)
    (calls : List Call) : (protection host risk seq calls).Pairwise Shield.Tightens := by
  have holds := run_invariant
    (observe (step host) fun shown _ _ after => shown ++ after.shield.shows)
    (fun pair => Shield.Covers pair.2 pair.1.shield.bare ∧ pair.2.Pairwise Shield.Tightens)
    (fun _ _ => True)
    (fun pair call holds _ => step_covers call pair.1 holds.1 holds.2)
    (fresh risk seq, []) calls
    ⟨Shield.Covers.of_idle rfl rfl (fun _ inside => absurd inside List.not_mem_nil)
      (fun _ _ inside => absurd inside List.not_mem_nil), List.Pairwise.nil⟩
    (along_of_forall _ (fun _ _ => trivial) _ calls)
  exact holds.2

end OrderManager

end RithmicEngine
