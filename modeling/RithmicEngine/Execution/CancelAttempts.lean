import RithmicEngine.Execution.CancelIds
import RithmicEngine.Execution.StopApart
/-!
# Attempts to cancel

Every call of the cancel callback is an attempt on the order that its id stands for. An
order becomes a guard in the same step as an attempt on it is sent, so a guard of the
current trade has an attempt without an answer as long as no answer took the last one.
And no attempt is ever on the order that is the stop or the exit, or on one still to be
placed: an order is cancelled only as it stops being that.
-/
namespace RithmicEngine

open OrderManager

variable {host : Host} {clientOf : String → Option String} {inherited : Finset String}

/-- The orders that the cancels among the effects are for. -/
def triedIn (clientOf : String → Option String) (effects : List Effect) : List String :=
  (cancelsIn effects).map (orderOf clientOf)

@[simp] theorem triedIn_append (first second : List Effect) :
    triedIn clientOf (first ++ second) = triedIn clientOf first ++ triedIn clientOf second := by
  simp [triedIn]

theorem triedIn_silent {effects : List Effect} (silent : cancelsIn effects = []) :
    triedIn clientOf effects = [] := by
  rw [triedIn, silent, List.map_nil]

theorem triedIn_cancel {id order : String} (names : orderOf clientOf id = order) :
    triedIn clientOf [.cancel id] = [order] := by
  rw [triedIn, cancelsIn_cancel, List.map_singleton, names]

/-- What was sent later holds the earlier attempts. -/
theorem triedIn_longer {first second : List Effect} (longer : first <+: second) (order : String) :
    (triedIn clientOf first).count order ≤ (triedIn clientOf second).count order := by
  obtain ⟨rest, rfl⟩ := longer
  rw [triedIn_append, List.count_append]
  exact Nat.le_add_right _ _

namespace Ledger

/-- The attempts so far, those before this step first. -/
def tries (clientOf : String → Option String) (base : List String) (l : Ledger) : List String :=
  base ++ triedIn clientOf l.sent

/-- While a trade is open each of its guards has an attempt without an answer, and no more
was answered than tried. Every guard was tried, or was brought in from aside. Trades are
counted upwards. -/
structure Covered (clientOf : String → Option String) (aside : String → Prop)
    (base answered : List String) (l : Ledger) : Prop where
  guards : ∀ basket ∈ l.guards, basket ∈ l.tries clientOf base ∨ aside basket
  tried : ∀ order, answered.count order ≤ (l.tries clientOf base).count order
  old : ∀ basket trade, l.guardTrade.lookup basket = some trade → trade ≤ l.trade
  entering : l.state = .pendingEntry → ∀ basket, l.guardTrade.lookup basket ≠ some l.trade
  held : l.Open ∨ l.state = .pendingExit → ∀ basket ∈ l.guards,
    l.guardTrade.lookup basket = some l.trade →
      answered.count basket < (l.tries clientOf base).count basket

variable {aside : String → Prop} {base answered : List String}

variable {l : Ledger} {op : Op} {l' : Ledger}

/-- A book on which guards were only lost, and to which attempts were only added. -/
theorem Covered.shrink (covered : l.Covered clientOf aside base answered)
    (sent : ∀ order, (l.tries clientOf base).count order ≤ (l'.tries clientOf base).count order)
    (trade : l'.trade = l.trade)
    (trades : ∀ basket trade, l'.guardTrade.lookup basket = some trade →
      l.guardTrade.lookup basket = some trade)
    (entering : l'.state = .pendingEntry → l.state = .pendingEntry)
    (held : l'.Open ∨ l'.state = .pendingExit → l.Open ∨ l.state = .pendingExit)
    (guards : ∀ basket ∈ l'.guards,
      basket ∈ l.guards ∨ (aside basket ∧ l.guardTrade.lookup basket = none)) :
    l'.Covered clientOf aside base answered where
  guards := by
    intro basket inside
    rcases guards basket inside with before | brought
    · refine (covered.guards basket before).imp_left fun known => ?_
      exact List.count_pos_iff.mp ((List.count_pos_iff.mpr known).trans_le (sent basket))
    · exact Or.inr brought.1
  tried := fun order => (covered.tried order).trans (sent order)
  old := by
    intro basket recorded found
    rw [trade]
    exact covered.old basket recorded (trades basket recorded found)
  entering := by
    intro pending basket found
    rw [trade] at found
    exact covered.entering (entering pending) basket (trades basket _ found)
  held := by
    intro busy basket inside found
    rw [trade] at found
    have before := trades basket _ found
    rcases guards basket inside with guarded | ⟨_, unrecorded⟩
    · exact (covered.held (held busy) basket guarded before).trans_le (sent basket)
    · exact absurd (before.symm.trans unrecorded) (Option.some_ne_none _)

theorem tries_le (longer : l.sent <+: l'.sent) (clientOf : String → Option String)
    (base : List String) (order : String) :
    (l.tries clientOf base).count order ≤ (l'.tries clientOf base).count order := by
  rw [tries, tries, List.count_append, List.count_append]
  exact Nat.add_le_add_left (triedIn_longer longer order) _

/-- An order that becomes a guard of the current trade with an attempt on it. -/
theorem Covered.file {order : String} {wasBuy : Bool}
    (covered : l.Covered clientOf aside base answered)
    (sent : ∀ other, (l.tries clientOf base).count other + [order].count other ≤
      (l'.tries clientOf base).count other)
    (trade : l'.trade = l.trade) (guards : l'.guards = l.guards.insert order wasBuy)
    (trades : l'.guardTrade = l.guardTrade.insert order l.trade) (busy : l'.state ≠ .pendingEntry)
    (held : l'.Open ∨ l'.state = .pendingExit → l.Open ∨ l.state = .pendingExit) :
    l'.Covered clientOf aside base answered where
  guards := by
    intro basket inside
    have more := sent basket
    rw [guards, Table.mem_insert] at inside
    rcases inside with rfl | before
    · left
      rw [List.count_singleton_self] at more
      exact List.count_pos_iff.mp ((Nat.succ_pos _).trans_le more)
    · refine (covered.guards basket before).imp_left fun known => ?_
      have positive := List.count_pos_iff.mpr known
      exact List.count_pos_iff.mp (positive.trans_le ((Nat.le_add_right _ _).trans more))
  tried := fun other => (covered.tried other).trans ((Nat.le_add_right _ _).trans (sent other))
  old := by
    intro basket recorded found
    rw [trades, Table.lookup_insert] at found
    rw [trade]
    split at found
    · exact (Option.some.inj found).ge
    · exact covered.old basket recorded found
  entering := fun pending => absurd pending busy
  held := by
    intro open_ basket inside found
    have more := sent basket
    by_cases same : basket = order
    · subst same
      have tried := covered.tried basket
      rw [List.count_singleton_self] at more
      omega
    · rw [trades, Table.lookup_insert, if_neg same, trade] at found
      rw [guards, Table.mem_insert] at inside
      have before := covered.held (held open_) basket (inside.resolve_left same) found
      omega

/-- The id under which the stop is cancelled stands for the stop. -/
theorem Mapped.stop_names (mapped : l.Mapped clientOf) (plain : clientOf l.stop = none)
    (stopped : l.stop ≠ "") :
    orderOf clientOf (if l.stopServer = "" then l.stop else l.stopServer) = l.stop := by
  split
  · rw [orderOf, plain, Option.getD_none]
  next server =>
    have own : clientOf l.stopServer = some l.stop :=
      some_of_getD fun other => (mapped other).stop stopped server
    rw [orderOf, own, Option.getD_some]

/-- Cancelling the stop keeps the guards covered: it becomes one, with its attempt. -/
theorem Covered.cancelStop (covered : l.Covered clientOf aside base answered)
    (mapped : l.Mapped clientOf) (plain : clientOf l.stop = none) (stopped : l.stop ≠ "")
    (busy : l.state ≠ .pendingEntry) :
    (l.cancelStop host).Covered clientOf aside base answered := by
  have names := mapped.stop_names plain stopped
  have quiet : triedIn clientOf (if l.stopServer = "" then []
      else host.persistServerNotice l.stop l.stopServer) = [] := by
    split
    · rfl
    · exact triedIn_silent (cancelsIn_persistServerNotice _ _)
  have saved : triedIn clientOf (host.persistNotice l.stop (decide (l.direction = .sell))) = [] :=
    triedIn_silent (cancelsIn_persistNotice _ _)
  have sent (other : String) : (l.tries clientOf base).count other + [l.stop].count other ≤
      ((l.cancelStop host).tries clientOf base).count other := by
    simp only [tries, Ledger.cancelStop, triedIn_append, quiet, saved, triedIn_cancel names,
      List.append_nil, List.count_append]
    omega
  exact covered.file sent rfl rfl rfl busy id

theorem Covered.withdrawStop (covered : l.Covered clientOf aside base answered)
    (mapped : l.Mapped clientOf) (plain : clientOf l.stop = none) (busy : l.state ≠ .pendingEntry) :
    (l.withdrawStop host).Covered clientOf aside base answered := by
  simp only [Ledger.withdrawStop]
  split
  · exact covered
  next stopped => exact covered.cancelStop mapped plain stopped busy

theorem heldState_entered (direction : OrbSignal) : heldState direction ≠ .pendingEntry := by
  intro pending
  have held := heldState_open direction
  rw [pending] at held
  exact absurd held (by decide)

/-- Every move keeps the guards of the trade covered. -/
theorem Move.covered (move : Move host l l') (mapped : l.Mapped clientOf)
    (within : l.Within fun basket => clientOf basket = none)
    (covered : l.Covered clientOf aside base answered) :
    l'.Covered clientOf aside base answered := by
  have sent := tries_le move.adds.1 clientOf base
  have later (trade : l'.trade = l.trade + 1) (trades : l'.guardTrade = l.guardTrade)
      (guards : l'.guards = l.guards) (idle : ¬(l'.Open ∨ l'.state = .pendingExit)) :
      l'.Covered clientOf aside base answered := by
    refine ⟨?_, fun order => (covered.tried order).trans (sent order), ?_, ?_,
      fun busy => absurd busy idle⟩
    · intro basket inside
      rw [guards] at inside
      refine (covered.guards basket inside).imp_left fun known => ?_
      exact List.count_pos_iff.mp ((List.count_pos_iff.mpr known).trans_le (sent basket))
    · intro basket recorded found
      rw [trades] at found
      rw [trade]
      exact (covered.old basket recorded found).trans (Nat.le_succ _)
    · intro _ basket found
      rw [trades, trade] at found
      exact absurd (covered.old basket _ found) (Nat.not_succ_le_self _)
  have quiet (trade : l'.trade = l.trade) (trades : l'.guardTrade = l.guardTrade)
      (guards : l'.guards = l.guards)
      (entering : l'.state = .pendingEntry → l.state = .pendingEntry)
      (held : l'.Open ∨ l'.state = .pendingExit → l.Open ∨ l.state = .pendingExit) :
      l'.Covered clientOf aside base answered := by
    refine covered.shrink sent trade ?_ entering held ?_
    · rw [trades]
      exact fun _ _ found => found
    · rw [guards]
      exact fun _ inside => Or.inl inside
  cases move with
  | enter =>
    refine later rfl rfl rfl ?_
    simp [Open, Ledger.enter]
  | refuseEntry =>
    refine later rfl rfl rfl ?_
    simp [Open, Ledger.refuseEntry, reset]
  | abandon =>
    refine quiet rfl rfl rfl (by rintro ⟨⟩) ?_
    simp only [Open, Ledger.abandon, reset, reduceCtorEq, or_self, false_imp_iff]
  | submitStop request held => exact quiet rfl rfl rfl id id
  | refuseStop request held => exact quiet rfl rfl rfl id id
  | cancelStop held stopped => exact covered.cancelStop mapped within.stop stopped held.states.2.1
  | sendExit request held =>
    exact quiet rfl rfl rfl (by rintro ⟨⟩) (fun _ => Or.inl held)
  | refuseExit request held =>
    exact quiet rfl rfl rfl (fun pending => absurd pending (heldState_entered _))
      (fun _ => Or.inl held)
  | guardExit id closing known names =>
    have owned : orderOf clientOf id = l.exit := by
      rcases names with rfl | listed
      · rw [orderOf, within.exit, Option.getD_none]
      · rw [orderOf, mapped.order listed, Option.getD_some]
    have saved : triedIn clientOf (host.persistNotice l.exit (decide (l.direction = .sell))) = [] :=
      triedIn_silent (cancelsIn_persistNotice _ _)
    have tried (other : String) : (l.tries clientOf base).count other + [l.exit].count other ≤
        ((l.guardExit host id).tries clientOf base).count other := by
      simp only [tries, Ledger.guardExit, triedIn_append, saved, triedIn_cancel owned,
        List.append_nil, List.count_append]
      omega
    exact covered.file tried rfl rfl rfl (heldState_entered _) (fun _ => Or.inr closing)
  | recancel => exact quiet rfl rfl rfl id id

/-- Moves keep each guard of a trade covered by an attempt. -/
theorem Walk.covered (walk : Walk host l l') (mapped : l.Mapped clientOf)
    (ids : ServerIds host clientOf) (within : l.Within fun basket => clientOf basket = none)
    (covered : l.Covered clientOf aside base answered) :
    l'.Covered clientOf aside base answered := by
  induction walk with
  | refl => exact covered
  | tail walk move ih =>
    have bound : Mapped clientOf _ := fun other => Walk.bound walk (mapped other)
    exact move.covered bound (Walk.within walk ids.empty (fun n _ _ => ids.own n) within) ih

/-- A book on which the position and the trade stay, and guards are only lost. -/
theorem Covered.drop (covered : l.Covered clientOf aside base answered) (sent : l.sent <+: l'.sent)
    (trade : l'.trade = l.trade) (state : l'.state = l.state)
    (trades : ∀ basket trade, l'.guardTrade.lookup basket = some trade →
      l.guardTrade.lookup basket = some trade)
    (guards : ∀ basket ∈ l'.guards, basket ∈ l.guards) :
    l'.Covered clientOf aside base answered := by
  refine covered.shrink (tries_le sent clientOf base) trade trades ?_ ?_
    (fun basket inside => Or.inl (guards basket inside))
  · rw [state]
    exact id
  · rw [Open, Open, state]
    exact id

/-- A book without a position whose trades are as before. -/
theorem Covered.end (covered : l.Covered clientOf aside base answered) (sent : l.sent <+: l'.sent)
    (trade : l'.trade = l.trade) (state : l'.state = .flat) (trades : l'.guardTrade = l.guardTrade)
    (guards : ∀ basket ∈ l'.guards, basket ∈ l.guards) :
    l'.Covered clientOf aside base answered := by
  have idle : ¬(l'.Open ∨ l'.state = .pendingExit) := by
    rw [Open, state]
    decide
  refine covered.shrink (tries_le sent clientOf base) trade ?_ ?_ (fun busy => absurd busy idle)
    (fun basket inside => Or.inl (guards basket inside))
  · rw [trades]
    exact fun _ _ found => found
  · rw [state]
    exact fun pending => nomatch pending

/-- Closing a trade keeps the guards covered: a stop that still works becomes one with the attempt
to cancel it. -/
theorem Covered.close {filled : String} (covered : l.Covered clientOf aside base answered)
    (mapped : l.Mapped clientOf) (within : l.Within fun basket => clientOf basket = none)
    (busy : l.state ≠ .pendingEntry) :
    (l.close host filled).Covered clientOf aside base answered := by
  have same : (l.dropFilled host filled).stop = l.stop ∧
      (l.dropFilled host filled).state = l.state := by
    simp only [dropFilled]
    split
    · exact ⟨rfl, rfl⟩
    · exact ⟨rfl, rfl⟩
  have dropped : (l.dropFilled host filled).Covered clientOf aside base answered := by
    simp only [dropFilled]
    split
    · exact covered.drop (List.prefix_append _ _) rfl rfl (fun _ _ found => lookup_of_erase found)
        (fun _ inside => ((Table.mem_erase _ _ _).mp inside).2)
    · exact covered
  have settled : ((l.dropFilled host filled).settleStop host filled).Covered clientOf aside base
      answered := by
    have bound : (l.dropFilled host filled).Mapped clientOf :=
      fun other => (mapped other).dropFilled host filled
    have plain : clientOf (l.dropFilled host filled).stop = none := same.1 ▸ within.stop
    have entered : (l.dropFilled host filled).state ≠ .pendingEntry := same.2 ▸ busy
    generalize l.dropFilled host filled = c at dropped bound plain entered
    simp only [settleStop]
    split_ifs with none
    · exact dropped
    · exact dropped.cancelStop bound plain none entered
    · exact dropped.drop (List.prefix_append _ _) rfl rfl (fun _ _ found => found)
        (fun _ inside => inside)
  exact settled.end (List.prefix_append _ _) rfl rfl rfl
    (fun _ inside => ((Table.mem_keep _ _ _).mp inside).1)

/-- A fill keeps the guards covered, whichever way it is taken up. -/
theorem Filled.covered {basket : String} {qty : Int} {isEntry : Bool}
    (filled : Filled host basket qty l isEntry l') (mapped : l.Mapped clientOf)
    (within : l.Within fun basket => clientOf basket = none)
    (covered : l.Covered clientOf aside base answered) :
    l'.Covered clientOf aside base answered := by
  have same {c : Ledger} (sent : l.sent <+: c.sent) (trade : c.trade = l.trade)
      (state : c.state = l.state) (trades : c.guardTrade = l.guardTrade)
      (guards : ∀ basket ∈ c.guards, basket ∈ l.guards) : c.Covered clientOf aside base answered :=
    covered.drop sent trade state (trades ▸ fun _ _ found => found) guards
  have erased (other : String) (inside : other ∈ l.guards.erase basket) : other ∈ l.guards :=
    ((Table.mem_erase _ _ _).mp inside).2
  cases filled with
  | spurious => exact covered
  | late => exact same (List.prefix_append _ _) rfl rfl rfl (fun _ inside => inside)
  | mismatch => exact covered
  | partialEntry => exact covered
  | entered pending named whole protect =>
    have opened : l.fillEntry.Covered clientOf aside base answered := by
      refine ⟨covered.guards, covered.tried, covered.old,
        fun entering => absurd entering (heldState_entered _), ?_⟩
      intro _ other _ found
      exact absurd found (covered.entering pending other)
    have bound : l.fillEntry.Mapped clientOf :=
      fun other => ⟨(mapped other).servers, (mapped other).orders, (mapped other).stop⟩
    exact protect.covered bound ⟨within.stop, within.exit, within.trade⟩ opened
  | lastGuard =>
    refine same ?_ rfl rfl rfl erased
    exact ((List.prefix_append _ _).trans (List.prefix_append _ _)).trans (List.prefix_append _ _)
  | guard =>
    refine same ?_ rfl rfl rfl erased
    exact ((List.prefix_append _ _).trans (List.prefix_append _ _)).trans (List.prefix_append _ _)
  | unwound => exact same (List.prefix_append _ _) rfl rfl rfl (fun _ inside => inside)
  | unknown => exact same (List.prefix_append _ _) rfl rfl rfl (fun _ inside => inside)
  | partialExit => exact covered
  | closed held whole =>
    refine covered.close mapped within ?_
    rcases held with open_ | closing
    · exact open_.states.2.1
    · rw [closing]
      decide

/-- Every step keeps the guards of the trade covered, where nothing it brings in is
recorded with a trade. -/
theorem Stepped.covered (stepped : Stepped host l op l') (mapped : l.Mapped clientOf)
    (ids : ServerIds host clientOf) (within : l.Within fun basket => clientOf basket = none)
    (foreign : ∀ basket, Introduces op basket → aside basket ∧ l.guardTrade.lookup basket = none)
    (covered : l.Covered clientOf aside base answered) :
    l'.Covered clientOf aside base answered := by
  have same {c : Ledger} (sent : l.sent <+: c.sent) (trade : c.trade = l.trade)
      (state : c.state = l.state) (trades : c.guardTrade = l.guardTrade)
      (guards : ∀ basket ∈ c.guards, basket ∈ l.guards) : c.Covered clientOf aside base answered :=
    covered.drop sent trade state (trades ▸ fun _ _ found => found) guards
  have still {c : Ledger} (sent : l.sent <+: c.sent) (trade : c.trade = l.trade)
      (state : c.state = l.state) (trades : c.guardTrade = l.guardTrade)
      (guards : c.guards = l.guards) : c.Covered clientOf aside base answered :=
    same sent trade state trades (guards ▸ fun _ inside => inside)
  have refl := List.prefix_refl l.sent
  cases stepped with
  | own initiates walk => exact Walk.covered walk mapped ids within covered
  | ignored => exact covered
  | filled basket price qty isEntry filled => exact filled.covered mapped within covered
  | rejectedEntry => exact covered.end refl rfl rfl rfl (fun _ inside => inside)
  | rejectedExit basket closing named walk =>
    have opened : l.reopen.Covered clientOf aside base answered :=
      covered.shrink (fun _ => Nat.le_refl _) rfl (fun _ _ found => found)
        (fun pending => absurd pending (heldState_entered _)) (fun _ => Or.inr closing)
        (fun _ inside => Or.inl inside)
    have bound : l.reopen.Mapped clientOf :=
      fun other => ⟨(mapped other).servers, (mapped other).orders, (mapped other).stop⟩
    exact Walk.covered walk bound ids ⟨within.stop, ids.empty, within.trade⟩ opened
  | rejectedStop => exact still (List.prefix_append _ _) rfl rfl rfl rfl
  | ackClient basket =>
    exact same (List.prefix_append _ _) rfl rfl rfl
      (fun _ inside => ((Table.mem_erase _ _ _).mp inside).2)
  | ackServer server client found =>
    exact same (List.prefix_append _ _) rfl rfl rfl
      (fun _ inside => ((Table.mem_erase _ _ _).mp inside).2)
  | readopted id client server held guarded own routes =>
    have roomy : (l.makeRoom host client).Covered clientOf aside base answered ∧
        (l.makeRoom host client).state = l.state := by
      simp only [Ledger.makeRoom]
      split
      next apart =>
        exact ⟨covered.cancelStop mapped within.stop apart.1 held.states.2.1, rfl⟩
      next => exact ⟨covered, rfl⟩
    exact roomy.1.drop (List.prefix_append _ _) rfl rfl (fun _ _ found => found)
      (fun _ inside => ((Table.mem_erase _ _ _).mp inside).2)
  | mapStop => exact still (List.prefix_append _ _) rfl rfl rfl rfl
  | mapGuard => exact still (List.prefix_append _ _) rfl rfl rfl rfl
  | mapOrder => exact still refl rfl rfl rfl rfl
  | mapCancelled => exact still (List.prefix_append _ _) rfl rfl rfl rfl
  | mapCancelledGuard => exact still (List.prefix_append _ _) rfl rfl rfl rfl
  | setStopServer => exact still refl rfl rfl rfl rfl
  | externalClose price reason held =>
    have busy : l.state ≠ .pendingEntry := by
      rcases held with open_ | closing
      · exact open_.states.2.1
      · rw [closing]
        decide
    have bare : (l.withdrawStop host).Covered clientOf aside base answered :=
      covered.withdrawStop mapped within.stop busy
    exact bare.end (List.prefix_refl _) rfl rfl rfl (fun _ inside => inside)
  | clearLast => exact still refl rfl rfl rfl rfl
  | register => exact still refl rfl rfl rfl rfl
  | confirmFlat => exact still refl rfl rfl rfl rfl
  | seedStop basket wasBuy =>
    refine covered.shrink (tries_le refl clientOf base) rfl (fun _ _ found => found) id id ?_
    intro other inside
    rcases (Table.mem_insert _ _ _ _).mp inside with rfl | before
    · exact Or.inr (foreign other rfl)
    · exact Or.inl before
  | seedServer => exact still refl rfl rfl rfl rfl

/-- The entry of a book after a move is the one before, none, or newly placed. -/
theorem Move.entry_from (move : Move host l l') :
    l'.entry = "" ∨ l'.entry = l.entry ∨ l'.entry = host.basketId l.next := by
  cases move with
  | enter => exact Or.inr (Or.inr rfl)
  | refuseEntry => exact Or.inl rfl
  | abandon => exact Or.inl rfl
  | _ => exact Or.inr (Or.inl rfl)

variable {seq : Nat}

theorem Move.entry_ours (move : Move host l l') (drawn : seq ≤ l.next)
    (ours : Ours host seq l.entry) : Ours host seq l'.entry := by
  rcases move.entry_from with none | same | placed
  · exact Or.inl none
  · exact same ▸ ours
  · exact Or.inr ⟨l.next, drawn, placed⟩

theorem Walk.entry_ours (walk : Walk host l l') (drawn : seq ≤ l.next)
    (ours : Ours host seq l.entry) : Ours host seq l'.entry := by
  induction walk with
  | refl => exact ours
  | tail walk move ih => exact move.entry_ours (drawn.trans (Walk.next_le walk)) ih

/-- A step leaves the entry one of this process's orders. -/
theorem Stepped.entry_ours (stepped : Stepped host l op l') (drawn : seq ≤ l.next)
    (ours : Ours host seq l.entry) : Ours host seq l'.entry := by
  cases stepped with
  | own initiates walk => exact Walk.entry_ours walk drawn ours
  | filled basket price qty isEntry filled =>
    cases filled with
    | entered pending named whole protect =>
      have moved := protect.entry_ours drawn ours
      exact moved
    | closed => exact Or.inl rfl
    | _ => exact ours
  | rejectedEntry => exact Or.inl rfl
  | rejectedExit basket closing named walk =>
    have walked := Walk.entry_ours walk drawn ours
    exact walked
  | readopted =>
    simp only [Ledger.readopt, acknowledge, makeRoom]
    split
    · exact ours
    · exact ours
  | externalClose => exact Or.inl rfl
  | _ => exact ours

/-- A walk only adds to what was sent. -/
theorem Walk.longer (walk : Walk host l l') : l.sent <+: l'.sent := by
  induction walk with
  | refl => exact List.prefix_refl _
  | tail _ move ih => exact ih.trans move.adds.1

theorem cancelStop_longer (l : Ledger) : l.sent <+: (l.cancelStop host).sent := by
  simp only [Ledger.cancelStop, List.append_assoc]
  exact List.prefix_append _ _

/-- Closing only adds to what was sent. -/
theorem close_longer (l : Ledger) (filled : String) : l.sent <+: (l.close host filled).sent := by
  have dropped : l.sent <+: (l.dropFilled host filled).sent := by
    simp only [dropFilled]
    split
    · exact List.prefix_append _ _
    · exact List.prefix_refl _
  have settled : (l.dropFilled host filled).sent <+:
      ((l.dropFilled host filled).settleStop host filled).sent := by
    generalize l.dropFilled host filled = c
    simp only [settleStop]
    split_ifs
    · exact List.prefix_refl _
    · exact cancelStop_longer c
    · exact List.prefix_append _ _
  exact (dropped.trans settled).trans (List.prefix_append _ _)

/-- A fill only adds to what was sent. -/
theorem Filled.longer {basket : String} {qty : Int} {isEntry : Bool}
    (filled : Filled host basket qty l isEntry l') : l.sent <+: l'.sent := by
  cases filled with
  | late => exact List.prefix_append _ _
  | entered pending named whole protect => exact protect.adds.1
  | lastGuard =>
    exact ((List.prefix_append _ _).trans (List.prefix_append _ _)).trans (List.prefix_append _ _)
  | guard =>
    exact ((List.prefix_append _ _).trans (List.prefix_append _ _)).trans (List.prefix_append _ _)
  | unwound => exact List.prefix_append _ _
  | unknown => exact List.prefix_append _ _
  | closed => exact close_longer l basket
  | _ => exact List.prefix_refl _

/-- A step only adds to what was sent. -/
theorem Stepped.longer (stepped : Stepped host l op l') : l.sent <+: l'.sent := by
  cases stepped with
  | own initiates walk => exact Walk.longer walk
  | filled basket price qty isEntry filled => exact filled.longer
  | rejectedExit basket closing named walk =>
    have walked := Walk.longer walk
    exact walked
  | rejectedStop => exact List.prefix_append _ _
  | ackClient => exact List.prefix_append _ _
  | ackServer => exact List.prefix_append _ _
  | readopted id client =>
    have roomy : l.sent <+: (l.makeRoom host client).sent := by
      simp only [Ledger.makeRoom]
      split
      · exact cancelStop_longer l
      · exact List.prefix_refl _
    exact roomy.trans (List.prefix_append _ _)
  | mapStop => exact List.prefix_append _ _
  | mapGuard => exact List.prefix_append _ _
  | mapCancelled => exact List.prefix_append _ _
  | mapCancelledGuard => exact List.prefix_append _ _
  | externalClose =>
    simp only [closeExternally, withdrawStop]
    split
    · exact List.prefix_refl _
    · exact cancelStop_longer l
  | _ => exact List.prefix_refl _

end Ledger

namespace OrderManager

/-- Between two states nothing is cancelled that is current afterwards, nothing becomes
current that was neither current nor still to be placed, and what waits newly for its
server id was tried. -/
structure Retires (host : Host) (clientOf : String → Option String) (s t : OrderManager) :
    Prop where
  current : ∀ order, t.Current host order → s.Current host order
  gone : ∀ id ∈ cancelsIn t.outbox,
    id ∈ cancelsIn s.outbox ∨ ¬t.Current host (orderOf clientOf id)
  waits : ∀ order ∈ t.unmappedOrderCancels,
    order ∈ s.unmappedOrderCancels ∨ order ∈ triedIn clientOf t.outbox

variable {s t : OrderManager}

/-- The position and the counter stay. -/
theorem retires_of_same (position : t.pos = s.pos) (drawn : t.seq = s.seq)
    (sent : ∀ id ∈ cancelsIn t.outbox,
      id ∈ cancelsIn s.outbox ∨ ¬s.Current host (orderOf clientOf id))
    (waits : ∀ order ∈ t.unmappedOrderCancels, order ∈ s.unmappedOrderCancels) :
    Retires host clientOf s t := by
  have same (order : String) : t.Current host order ↔ s.Current host order := by
    rw [Current, Current, position, drawn]
  refine ⟨fun order => (same order).mp, ?_, fun order inside => Or.inl (waits order inside)⟩
  intro id inside
  rw [same]
  exact sent id inside

theorem Retires.refl (s : OrderManager) : Retires host clientOf s s :=
  retires_of_same rfl rfl (fun _ inside => Or.inl inside) (fun _ inside => inside)

/-- A retired stop is not a current order. -/
theorem retired_gone {id : String} (ids : ServerIds host clientOf)
    (mapped : s.ledger.Mapped clientOf) (plain : clientOf s.pos.basketIdStop = none)
    (retired : Retired host s t id) : ¬t.Current host (orderOf clientOf id) := by
  rcases retired with ⟨stopped, named, gone⟩ | ⟨n, _, named, gone⟩
  · have names : orderOf clientOf id = s.pos.basketIdStop := by
      rw [named]
      exact mapped.stop_names plain stopped
    rw [names]
    exact gone
  · rw [named, orderOf, ids.own n, Option.getD_none]
    exact gone

/-- What withdraws only the stop retires what it cancels. -/
theorem Withdraws.retires (withdraws : Withdraws host s t) (ids : ServerIds host clientOf)
    (distinct : s.Distinct host) (mapped : s.ledger.Mapped clientOf)
    (plain : clientOf s.pos.basketIdStop = none) : Retires host clientOf s t where
  current := fun _ => withdraws.current
  gone := fun id inside => (withdraws.cancels distinct id inside).imp_right
    (retired_gone ids mapped plain)
  waits := by
    rw [withdraws.waits]
    exact fun _ inside => Or.inl inside

/-- The id under which an entry or exit is cancelled stands for it. -/
theorem cancelIdFor_order {client : String} (mapped : s.ledger.Mapped clientOf)
    (plain : clientOf client = none) : orderOf clientOf (s.cancelIdForLocked client) = client := by
  rcases cancelIdFor_names client s with same | listed
  · rw [same, orderOf, plain, Option.getD_none]
  · rw [orderOf, mapped.order listed, Option.getD_some]

/-- What cancelling an entry or exit sends, and what waits for its server id then. -/
theorem cancelOrder_tries {s : OrderManager} {client : String}
    (names : orderOf clientOf (s.cancelIdForLocked client) = client) :
    (∀ id ∈ cancelsIn (cancelOrderLocked host client s).outbox,
        id ∈ cancelsIn s.outbox ∨ orderOf clientOf id = client) ∧
      ∀ order ∈ (cancelOrderLocked host client s).unmappedOrderCancels,
        order ∈ s.unmappedOrderCancels ∨
          order ∈ triedIn clientOf (cancelOrderLocked host client s).outbox := by
  simp only [cancelOrderLocked]
  split
  · exact ⟨fun _ inside => Or.inl inside, fun _ inside => Or.inl inside⟩
  · constructor
    · intro id inside
      simp only [cancelsIn_append, cancelsIn_cancel, List.mem_append, List.mem_singleton] at inside
      refine inside.imp_right fun same => ?_
      rw [same]
      exact names
    · intro order inside
      simp only [triedIn_append, triedIn_cancel names, List.mem_append, List.mem_singleton]
      split at inside
      · exact (Finset.mem_insert.mp inside).symm.imp_right Or.inr
      · exact Or.inl inside

variable {seq : Nat}

/-- Giving up the pending entry leaves nothing current but what is still to be placed. -/
theorem abandonEntry_retires (mapped : s.ledger.Mapped clientOf)
    (plain : clientOf s.pos.basketIdEntry = none)
    (placed : ∀ n, s.seq ≤ n → s.pos.basketIdEntry ≠ host.basketId n) :
    Retires host clientOf s (abandonEntry host s) := by
  obtain ⟨c, cIs⟩ : ∃ c : OrderManager, c = { s with
    pendingCancelBasket := s.pos.basketIdEntry
    pendingCancelWasBuy := decide (s.pos.direction = .buy) } := ⟨_, rfl⟩
  have listed : orderOf clientOf (s.cancelIdForLocked s.pos.basketIdEntry) =
      s.pos.basketIdEntry := cancelIdFor_order mapped plain
  have names : orderOf clientOf (c.cancelIdForLocked s.pos.basketIdEntry) =
      s.pos.basketIdEntry := by
    rw [cIs]
    exact listed
  have same : c.pos = s.pos ∧ c.seq = s.seq ∧ c.outbox = s.outbox ∧
      c.unmappedOrderCancels = s.unmappedOrderCancels := by
    rw [cIs]
    exact ⟨rfl, rfl, rfl, rfl⟩
  obtain ⟨position, drawn, sent, waits⟩ := same
  have tries := @cancelOrder_tries host clientOf c s.pos.basketIdEntry names
  have kept : (cancelOrderLocked host s.pos.basketIdEntry c).seq = s.seq := by
    rw [← drawn, cancelOrderLocked]
    split
    · rfl
    · rfl
  rw [sent, waits] at tries
  have abandoned : abandonEntry host s =
      { cancelOrderLocked host s.pos.basketIdEntry c with pos := {} } := by
    rw [abandonEntry, cIs]
  rw [abandoned]
  refine ⟨?_, ?_, tries.2⟩
  · rintro order ⟨known, none | none | ⟨n, low, fresh⟩⟩
    · exact absurd none known
    · exact absurd none known
    · exact ⟨known, Or.inr (Or.inr ⟨n, kept ▸ low, fresh⟩)⟩
  · intro id inside
    refine (tries.1 id inside).imp_right fun names => ?_
    rw [names]
    rintro ⟨known, none | none | ⟨n, low, fresh⟩⟩
    · exact known none
    · exact known none
    · exact placed n (kept ▸ low) fresh

theorem mem_triedIn_longer {first second : List Effect} (longer : first <+: second)
    {order : String} (inside : order ∈ triedIn clientOf first) :
    order ∈ triedIn clientOf second := by
  obtain ⟨rest, rfl⟩ := longer
  rw [triedIn_append]
  exact List.mem_append_left _ inside

/-- What guarding a stuck exit sends. -/
theorem guardExit_tries {s : OrderManager} (sent : s.pos.basketIdExit ≠ "")
    (names : orderOf clientOf (s.cancelIdForLocked s.pos.basketIdExit) = s.pos.basketIdExit) :
    (∀ id ∈ cancelsIn (guardExit host s).outbox,
        id ∈ cancelsIn s.outbox ∨ orderOf clientOf id = s.pos.basketIdExit) ∧
      ∀ order ∈ (guardExit host s).unmappedOrderCancels,
        order ∈ s.unmappedOrderCancels ∨ order ∈ triedIn clientOf (guardExit host s).outbox := by
  obtain ⟨c, cIs⟩ : ∃ c : OrderManager, c = { s with
    serverToClientCancelled :=
      if s.cancelIdForLocked s.pos.basketIdExit ≠ s.pos.basketIdExit then
        s.serverToClientCancelled.insert (s.cancelIdForLocked s.pos.basketIdExit) s.pos.basketIdExit
      else s.serverToClientCancelled
    clientOnlyCancels :=
      if s.cancelIdForLocked s.pos.basketIdExit ≠ s.pos.basketIdExit then s.clientOnlyCancels
      else insert s.pos.basketIdExit s.clientOnlyCancels
    cancelledStopTrade := s.cancelledStopTrade.insert s.pos.basketIdExit s.tradeSeq } := ⟨_, rfl⟩
  have tries := @cancelOrder_tries host clientOf c s.pos.basketIdExit (by rw [cIs]; exact names)
  have same : c.outbox = s.outbox ∧ c.unmappedOrderCancels = s.unmappedOrderCancels := by
    rw [cIs]
    exact ⟨rfl, rfl⟩
  rw [same.1, same.2] at tries
  simp only [guardExit, sent, ↓reduceIte, ← cIs]
  rw [cancelsIn_append, cancelsIn_persistNotice, List.append_nil]
  refine ⟨tries.1, fun order inside => (tries.2 order inside).imp_right fun tried => ?_⟩
  exact mem_triedIn_longer (List.prefix_append _ _) tried

/-- A stuck exit is no longer current once it is cancelled. -/
theorem retry_retires (live : host.Live) (ids : ServerIds host clientOf) (now : Int) (price : ℚ)
    (shape : s.ledger.Shape) (mapped : s.ledger.Mapped clientOf) (distinct : s.Distinct host)
    (plain : clientOf s.pos.basketIdExit = none) :
    Retires host clientOf s (retryStuckExit host now price s) := by
  by_cases closing : s.pos.state = .pendingExit
  · obtain ⟨sent, bare⟩ := shape.pendingExit closing
    obtain ⟨stop, _, _, drawn⟩ := @guardExit_stop host s
    obtain ⟨tries, waits⟩ := @guardExit_tries host clientOf s sent
      (cancelIdFor_order mapped plain)
    have held : (guardExit host s).reopen.ledger.Open := heldState_open _
    have walk := initiateExit_walk live now "stuck_exit_retry" price _ held
    have withdraws := @initiateExit_withdraws host now "stuck_exit_retry" price
      (guardExit host s).reopen
    have retried : retryStuckExit host now price s =
        initiateExitLocked host now "stuck_exit_retry" price (guardExit host s).reopen := by
      simp [retryStuckExit, closing, live.sends]
    rw [retried]
    generalize initiateExitLocked host now "stuck_exit_retry" price (guardExit host s).reopen = t
      at walk withdraws ⊢
    have none : (guardExit host s).reopen.pos.basketIdStop = "" := stop.trans bare
    have known := host.basketId_ne_empty
    have opened : (guardExit host s).reopen.Distinct host := by
      refine ⟨fun stopped => absurd none stopped, fun n _ => ⟨?_, (known n).symm⟩⟩
      rw [none]
      exact (known n).symm
    have later : s.seq ≤ t.seq := drawn.ge.trans withdraws.later
    refine ⟨?_, ?_, ?_⟩
    · intro order current
      obtain ⟨some, first | second | ⟨n, low, fresh⟩⟩ := withdraws.current current
      · exact absurd (first.trans none) some
      · exact absurd second some
      · exact ⟨some, Or.inr (Or.inr ⟨n, drawn.ge.trans low, fresh⟩)⟩
    · intro id inside
      rcases withdraws.cancels opened id inside with before | retired
      · refine (tries id before).imp_right fun names => ?_
        -- The replaced exit is neither what stands in the book now nor still to be placed.
        rw [names]
        have unplaced (n : Nat) (low : s.seq ≤ n) : s.pos.basketIdExit ≠ host.basketId n :=
          (distinct.placed n low).2
        rintro ⟨_, first | second | ⟨n, low, fresh⟩⟩
        · rcases withdraws.stop with empty | ⟨same, _⟩ | ⟨n, low, placed, _⟩
          · exact sent (first.trans empty)
          · exact sent (first.trans (same.trans none))
          · exact unplaced n (drawn.ge.trans low) (first.trans placed)
        · rcases withdraws.exit with empty | same | ⟨n, low, placed⟩
          · exact sent (second.trans empty)
          · exact sent (second.trans same)
          · exact unplaced n (drawn.ge.trans low) (second.trans placed)
        · exact unplaced n (later.trans low) fresh
      · right
        rcases retired with ⟨stopped, _⟩ | ⟨n, _, named, gone⟩
        · exact absurd none stopped
        · rw [named, orderOf, ids.own n, Option.getD_none]
          exact gone
    · rw [withdraws.waits]
      intro order inside
      exact (waits order inside).imp_right fun tried => mem_triedIn_longer walk.longer tried
  · simp only [retryStuckExit, closing, ne_eq, not_false_eq_true, ↓reduceIte]
    exact .refl s

/-- Flattening retires what it cancels: the entry or the stop, and the position is closed or
exits. -/
theorem flattenNow_retires (ids : ServerIds host clientOf) (now : Int) (reason : String) (price : ℚ)
    (mapped : s.ledger.Mapped clientOf) (distinct : s.Distinct host)
    (plain : clientOf s.pos.basketIdStop = none) (own : clientOf s.pos.basketIdEntry = none)
    (placed : ∀ n, s.seq ≤ n → s.pos.basketIdEntry ≠ host.basketId n) :
    Retires host clientOf s (flattenNow host now reason price s) := by
  have exits := (@initiateExit_withdraws host now reason price s).retires ids distinct
    mapped plain
  simp only [flattenNow]
  split
  · exact .refl s
  · exact abandonEntry_retires mapped own placed
  · exact .refl s
  · exact exits
  · exact exits

/-- Every call that reports no failed cancel cancels nothing that is current afterwards,
given that none of the guards, of the cancels on record and of those that wait for a
server id is of an order that is current. -/
theorem perform_retires (live : host.Live) (ids : ServerIds host clientOf) (call : Call)
    (separated : Separated host clientOf inherited seq s)
    (entry : Ledger.Ours host seq s.pos.basketIdEntry)
    (spared : ∀ order, order ∈ s.cancelledStops ∨ order ∈ s.unmappedOrderCancels ∨
      (∃ server, s.serverToClientCancelled.lookup server = some order) → ¬s.Current host order)
    (reports : s.ledger.Reports clientOf inherited call.op)
    (honest : ∀ id, call.op ≠ .cancelFailed id) :
    Retires host clientOf s (perform host call s) := by
  obtain ⟨shape, fresh, drawn, mapped, within, apart⟩ := separated
  have distinct : s.Distinct host := distinct_of_shape shape fresh
  have plain : clientOf s.pos.basketIdStop = none := (within.plain ids).stop
  have bare : clientOf s.pos.basketIdExit = none := (within.plain ids).exit
  have own : clientOf s.pos.basketIdEntry = none := entry.plain ids
  have placed (n : Nat) (low : s.seq ≤ n) : s.pos.basketIdEntry ≠ host.basketId n :=
    ((fresh n low).entry trivial).symm
  have withdrawn {t : OrderManager} (withdraws : Withdraws host s t) :
      Retires host clientOf s t := withdraws.retires ids distinct mapped plain
  have flattened (now : Int) (reason : String) (price : ℚ) :=
    flattenNow_retires ids now reason price mapped distinct plain own placed
  have silent {t : OrderManager} (position : t.pos = s.pos) (counter : t.seq = s.seq)
      (sent : cancelsIn t.outbox = cancelsIn s.outbox)
      (waits : t.unmappedOrderCancels = s.unmappedOrderCancels) : Retires host clientOf s t := by
    refine retires_of_same position counter ?_ ?_
    · rw [sent]
      exact fun _ inside => Or.inl inside
    · rw [waits]
      exact fun _ inside => inside
  obtain ⟨now, op⟩ := call
  cases op with
  | signal sig price dist =>
    simp only [perform, onSignal]
    split
    · exact flattened _ _ _
    · exact .refl s
    · split_ifs
      · exact .refl s
      · exact .refl s
      · exact .refl s
      · exact withdrawn (openEntry_withdraws _ _ _ _ s)
    · split_ifs
      · exact .refl s
      · exact .refl s
      · exact .refl s
      · exact withdrawn (openEntry_withdraws _ _ _ _ s)
  | fill basket price qty isEntry => exact withdrawn (onFill_withdraws _ _ _ _ _ s)
  | checkTrail price => exact withdrawn (checkTrail_withdraws _ _ s)
  | checkExternal price stratStop => exact withdrawn (checkExternal_withdraws _ _ _ s)
  | flatten reason price => exact flattened _ _ _
  | retryStuckExit price => exact retry_retires live ids now price shape mapped distinct bare
  | entryTimeout secs =>
    simp only [perform, pendingEntryTimeoutCheck]
    split_ifs
    · exact .refl s
    · exact .refl s
    · exact .refl s
    · exact abandonEntry_retires mapped own placed
  | rejected basket => exact withdrawn (onOrderRejected_withdraws _ _ s)
  | cancelConfirmed basket =>
    refine silent rfl rfl ?_ rfl
    simp [perform, onCancelConfirmed]
  | cancelConfirmedByServer server =>
    simp only [perform, onCancelConfirmedByServerBasket]
    split
    · exact .refl s
    · refine silent rfl rfl ?_ rfl
      simp
  | cancelFailed failed => exact absurd rfl (honest failed)
  | stopServerMapped client server =>
    simp only [perform, onStopServerMapped]
    split_ifs with blank current same guarded filed
    · exact .refl s
    · refine silent rfl rfl ?_ rfl
      simp
    · exact .refl s
    · exact .refl s
    · refine retires_of_same rfl rfl ?_ (fun _ inside => inside)
      intro id inside
      simp only [cancelsIn_append, cancelsIn_persistServerNotice, List.append_nil, List.mem_append,
        Host.cancelNotice, live.cancels, ↓reduceIte, cancelsIn_cancel, List.mem_singleton] at inside
      refine inside.imp_right fun named => ?_
      rw [not_or] at blank
      have owned : clientOf server = some client :=
        (reports.resolve_left blank.1).resolve_left blank.2
      rw [named, orderOf, owned, Option.getD_some]
      exact spared client (Or.inl guarded)
    · exact .refl s
  | mapServer client server =>
    simp only [perform, mapServerBasket]
    split
    · exact .refl s
    next blank =>
      split
      next waits =>
        refine retires_of_same rfl rfl ?_ (fun _ inside => (Finset.mem_erase.mp inside).2)
        intro id inside
        simp only [cancelsIn_append, List.mem_append, Host.cancelNotice, live.cancels, ↓reduceIte,
          cancelsIn_cancel, List.mem_singleton] at inside
        refine inside.imp_right fun named => ?_
        rw [not_or] at blank
        have owned : clientOf server = some client :=
          (reports.resolve_left blank.1).resolve_left blank.2
        rw [named, orderOf, owned, Option.getD_some]
        exact spared client (Or.inr (Or.inl waits))
      next => exact silent rfl rfl rfl rfl
  | setStopServer server => exact silent rfl rfl rfl rfl
  | externalClose price reason => exact withdrawn (adoptExternalClose_withdraws _ _ s)
  | fillProcessed basket qty =>
    simp only [perform, fillAlreadyProcessed]
    split
    · exact silent rfl rfl rfl rfl
    · exact silent rfl rfl rfl rfl
  | recancel =>
    simp only [perform, recancelPendingStops]
    split
    · exact .refl s
    · refine retires_of_same rfl rfl ?_ (fun _ inside => inside)
      intro id inside
      simp only [emit, cancelsIn_append, cancelsIn_cancels, List.mem_append, List.mem_filter]
        at inside
      refine inside.imp_right fun again => ?_
      rcases again with server | ⟨guard, _⟩
      · obtain ⟨client, found⟩ := (Table.mem_iff_lookup _ _).mp server
        rw [orderOf, mapped.server found, Option.getD_some]
        exact spared client (Or.inr (Or.inr ⟨id, found⟩))
      · rw [orderOf, apart.clients id guard, Option.getD_none]
        exact spared id (Or.inl guard)
  | clearRecancels => exact silent rfl rfl rfl rfl
  | registerUnwind basket => exact silent rfl rfl rfl rfl
  | confirmFlat => exact silent rfl rfl rfl rfl
  | seedStop basket wasBuyStop => exact silent rfl rfl rfl rfl
  | seedServer server client => exact silent rfl rfl rfl rfl
  | popCompleted =>
    simp only [perform, popTradeCompleted]
    split
    · exact silent rfl rfl rfl rfl
    · exact .refl s
  | host risk regime => exact silent rfl rfl rfl rfl

end OrderManager
end RithmicEngine
