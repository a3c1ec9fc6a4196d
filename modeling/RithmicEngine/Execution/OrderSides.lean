import RithmicEngine.Execution.Journal
/-!
# The side of every order on the book

A guard keeps a flag for the side of the order it stands for, and the flag decides
the side of the unwind long after the trade of that order is over. The flag is
taken from the direction of the trade, so what carries it over is that a stop or
an exit of an open trade was sent against the trade's direction, and that a guard
of the current trade still was. The facts are about one id at a time: whatever
order carries that id, what is true of its side is true of the side that the book
remembers.
-/
namespace RithmicEngine.Ledger

variable {host : Host}

/-- Wherever the id stands on the book, what holds of its order's side holds of the
side that the book has for it. -/
structure Sided (l : Ledger) (basket : String) (side : Bool → Prop) : Prop where
  known : basket ≠ ""
  entry : basket = l.entry → l.state ≠ .flat → side (decide (l.direction = .buy))
  stop : basket = l.stop → side (decide (l.direction = .sell))
  exit : basket = l.exit → side (decide (l.direction = .sell))
  guard : ∀ flag, l.guards.lookup basket = some flag → side flag
  ownGuard : l.state ≠ .flat → l.guardTrade.lookup basket = some l.trade →
    side (decide (l.direction = .sell))
  lastStop : basket = l.lastStop → side l.lastStopBuy
  abandoned : basket = l.abandoned → side l.abandonedBuy
  trade : ∀ number, l.guardTrade.lookup basket = some number → number ≤ l.trade

variable {side : Bool → Prop}

variable {l : Ledger} {basket : String} {l' : Ledger} (filled : String)

/-- An id off the book has whatever side its order will have. -/
theorem Unused.sided (unused : Unused l basket) (side : Bool → Prop)
    (ungoverned : l.guardTrade.lookup basket = none) : Sided l basket side where
  known := unused.known
  entry := fun same => absurd same (unused.entry trivial)
  stop := fun same => absurd same unused.stop
  exit := fun same => absurd same unused.exit
  guard := fun _ found => absurd (Table.mem_of_lookup found) unused.guards
  ownGuard := fun _ found => absurd (ungoverned.symm.trans found) (Option.some_ne_none _).symm
  lastStop := fun same => absurd same unused.lastStop
  abandoned := fun same => absurd same (unused.abandoned trivial)
  trade := fun _ found => absurd (ungoverned.symm.trans found) (Option.some_ne_none _).symm

/-- The protective stop of an open position is on the side against its direction. -/
theorem held_side (shape : Shape l) (held : l.Open) :
    (!decide (l.state = .long)) = decide (l.direction = .sell) := by
  rw [(shape.held held).2]
  obtain buy | sell := shape.sided held.states.1
  · rw [buy]
    decide
  · rw [sell]
    decide

/-- Going flat forgets the trade and keeps the guards. -/
theorem Sided.reset (sided : Sided l basket side) : Sided l.reset basket side :=
  { sided with
    entry := fun same => absurd same sided.known
    stop := fun same => absurd same sided.known
    exit := fun same => absurd same sided.known
    ownGuard := fun busy => absurd rfl busy }

/-- Opening the position again, its exit gone. -/
theorem Sided.reopen (sided : Sided l basket side) (busy : l.state ≠ .flat) :
    Sided l.reopen basket side :=
  { sided with
    entry := fun same _ => sided.entry same busy
    exit := fun same => absurd same sided.known
    ownGuard := fun _ => sided.ownGuard busy }

/-- A new guard takes its flag from the direction, and so does its order. -/
theorem Sided.guarded {old : String} (sided : Sided l basket side) (l' : Ledger)
    (against : basket = old → side (decide (l.direction = .sell)))
    (guards : l'.guards = l.guards.insert old (decide (l.direction = .sell)))
    (guardTrade : l'.guardTrade = l.guardTrade.insert old l.trade)
    (state : l'.state ≠ .flat → l.state ≠ .flat) (direction : l'.direction = l.direction)
    (trade : l'.trade = l.trade) :
    (∀ flag, l'.guards.lookup basket = some flag → side flag) ∧
      (l'.state ≠ .flat → l'.guardTrade.lookup basket = some l'.trade →
        side (decide (l'.direction = .sell))) ∧
      ∀ number, l'.guardTrade.lookup basket = some number → number ≤ l'.trade := by
  rw [guards, guardTrade, direction, trade]
  by_cases same : basket = old
  · have flagged := against same
    simp only [Table.lookup_insert, same, ↓reduceIte, Option.some.injEq]
    refine ⟨?_, fun _ _ => flagged, fun number found => found.symm.le⟩
    rintro flag rfl
    exact flagged
  · simp only [Table.lookup_insert, same, ↓reduceIte]
    exact ⟨sided.guard, fun busy => sided.ownGuard (state busy), sided.trade⟩

theorem Sided.cancelStop (sided : Sided l basket side) : Sided (l.cancelStop host) basket side := by
  obtain ⟨guard, ownGuard, trade⟩ := sided.guarded (l.cancelStop host) sided.stop rfl rfl id
    rfl rfl
  exact { sided with
    stop := fun same => absurd same sided.known
    guard := guard
    ownGuard := ownGuard
    lastStop := sided.stop
    trade := trade }

/-- Every move keeps the side of an order, and gives a new order the side it was
sent on. -/
theorem Move.sided (move : Move host l l') (shape : Shape l) (sided : Sided l basket side)
    (agrees : ∀ order ∈ accepted l'.sent, order.2.basket = basket → side order.2.isBuy) :
    Sided l' basket side := by
  cases move with
  | enter direction regime request idle clear oriented places taken =>
    have inside : (OrderRole.entry, request) ∈
        accepted (l.enter host direction (RegimeState.qtyFor host.cfg regime) request).sent := by
      simp only [Ledger.enter, order, accepted_append, accepted_taken, List.mem_append,
        List.mem_singleton, or_true]
    exact { sided with
      entry := fun same _ => places.side ▸ agrees _ inside (places.basket.trans same.symm)
      stop := fun same => absurd same sided.known
      exit := fun same => absurd same sided.known
      ownGuard := fun _ found => absurd (sided.trade _ found) (Nat.not_succ_le_self _)
      trade := fun number found => (sided.trade number found).trans (Nat.le_succ _) }
  | refuseEntry request idle =>
    exact { sided with
      entry := fun same => absurd same sided.known
      stop := fun same => absurd same sided.known
      exit := fun same => absurd same sided.known
      ownGuard := fun busy => absurd rfl busy
      trade := fun number found => (sided.trade number found).trans (Nat.le_succ _) }
  | abandon cancels pending only =>
    have busy : l.state ≠ .flat := by
      rw [pending]
      decide
    exact { sided.reset with
      abandoned := fun same => sided.entry same busy }
  | submitStop request held bare places taken =>
    have inside : (OrderRole.stop, request) ∈ accepted (l.submitStop host request).sent := by
      simp only [Ledger.submitStop, accepted_append, accepted_taken, List.mem_append,
        List.mem_singleton, or_true, true_or]
    exact { sided with
      stop := fun same => (places.side.trans (held_side shape held)) ▸
        agrees _ inside (places.basket.trans same.symm) }
  | refuseStop request held bare =>
    exact { sided with stop := fun same => absurd same sided.known }
  | cancelStop held stopped => exact sided.cancelStop
  | sendExit request held bare places taken =>
    have inside : (OrderRole.exit, request) ∈ accepted (l.sendExit host request).sent := by
      simp only [Ledger.sendExit, order, accepted_append, accepted_taken, List.mem_append,
        List.mem_singleton, or_true]
    exact { sided with
      entry := fun same _ => sided.entry same held.states.1
      exit := fun same => places.side ▸ agrees _ inside (places.basket.trans same.symm)
      ownGuard := fun _ => sided.ownGuard held.states.1 }
  | refuseExit request held bare =>
    exact { sided.reopen held.states.1 with }
  | guardExit id closing sent names =>
    have busy : l.state ≠ .flat := by
      rw [closing]
      decide
    obtain ⟨guard, ownGuard, trade⟩ := sided.guarded (l.guardExit host id) sided.exit rfl rfl
      (fun _ => busy) rfl rfl
    exact { sided.reopen busy with
      guard := guard
      ownGuard := ownGuard
      lastStop := sided.exit
      trade := trade }
  | recancel cancels only => exact { sided with }

/-- The orders placed earlier in a step are among those placed by its end. -/
theorem accepted_sub {roles : OrderRole → Prop} (issues : Issues host roles l l')
    {order : OrderRole × OrderRequest} (inside : order ∈ accepted l.sent) :
    order ∈ accepted l'.sent := by
  obtain ⟨orders, sent, _⟩ := issues
  rw [sent]
  exact List.mem_append_left orders inside

/-- Moves keep an order's side as it was accepted. -/
theorem Walk.sided (walk : Walk host l l') (shape : Shape l) (sided : Sided l basket side)
    (agrees : ∀ order ∈ accepted l'.sent, order.2.basket = basket → side order.2.isBuy) :
    Sided l' basket side := by
  induction walk with
  | refl => exact sided
  | tail walk move ih =>
    have earlier := ih (fun order inside => agrees order (accepted_sub move.issues inside))
    exact move.sided (Walk.shape walk shape) earlier agrees

/-- Dropping a fired order leaves the sides. -/
theorem Sided.dropFired (fired : String) (sided : Sided l basket side) :
    Sided (l.dropFired host fired) basket side := by
  have guard : ∀ flag, (l.guards.erase fired).lookup basket = some flag → side flag := by
    intro flag found
    rw [Table.lookup_erase] at found
    split at found
    · exact absurd found (Option.some_ne_none flag).symm
    · exact sided.guard flag found
  exact { sided with guard := guard }

/-- Dropping a filled guard leaves the sides of the others. -/
theorem Sided.dropFilled (sided : Sided l basket side) :
    Sided (l.dropFilled host filled) basket side := by
  simp only [Ledger.dropFilled]
  split
  · have guard : ∀ flag, (l.guards.erase filled).lookup basket = some flag → side flag := by
      intro flag found
      rw [Table.lookup_erase] at found
      split at found
      · exact absurd found (Option.some_ne_none flag).symm
      · exact sided.guard flag found
    have kept : ∀ number, (l.guardTrade.erase filled).lookup basket = some number →
        l.guardTrade.lookup basket = some number := by
      intro number found
      rw [Table.lookup_erase] at found
      split at found
      · exact absurd found (Option.some_ne_none number).symm
      · exact found
    have lastStop : (basket = if l.lastStop = filled then "" else l.lastStop) →
        side l.lastStopBuy := by
      split
      · exact fun same => absurd same sided.known
      · exact sided.lastStop
    exact { sided with
      guard := guard
      ownGuard := fun busy found => sided.ownGuard busy (kept _ found)
      lastStop := lastStop
      trade := fun number found => sided.trade number (kept number found) }
  · exact sided

theorem Sided.settleStop (sided : Sided l basket side) :
    Sided (l.settleStop host filled) basket side := by
  simp only [Ledger.settleStop]
  split
  · exact sided
  · split
    · exact sided.cancelStop
    · exact { sided with }

theorem Sided.purge (sided : Sided l basket side) : Sided (l.purge host) basket side :=
  { sided with
    guard := fun flag found =>
      sided.guard flag ((Table.lookup_keep_eq_some _ _ _ _).mp found).1 }

/-- Closing the position keeps the side of every guard. -/
theorem Sided.close (sided : Sided l basket side) : Sided (l.close host filled) basket side := by
  have dropped : Sided (l.dropFilled host filled) basket side := sided.dropFilled filled
  have settled : Sided ((l.dropFilled host filled).settleStop host filled) basket side :=
    dropped.settleStop filled
  have idle : Sided ({ ((l.dropFilled host filled).settleStop host filled).reset with
      orders := ∅ } : Ledger) basket side := { settled.reset with }
  exact idle.purge

theorem Sided.unwind {fired : String} {request : OrderRequest} {taken register : Bool}
    (sided : Sided l basket side) :
    Sided (l.unwind host fired request taken register) basket side := { sided with }

/-- Every fill keeps the side of an order. -/
theorem Filled.sided {filledId : String} {qty : Int} {isEntry : Bool}
    (filled : Filled host filledId qty l isEntry l') (shape : Shape l) (sided : Sided l basket side)
    (agrees : ∀ order ∈ accepted l'.sent, order.2.basket = basket → side order.2.isBuy) :
    Sided l' basket side := by
  cases filled with
  | spurious elsewhere unknown => exact sided
  | late request elsewhere remembered named places =>
    have cleared : Sided ({ l with abandoned := "" } : Ledger) basket side :=
      { sided with abandoned := fun same => absurd same sided.known }
    exact cleared.unwind
  | mismatch pending other => exact sided
  | partialEntry pending named part => exact sided
  | entered pending named whole protect =>
    have busy : l.state ≠ .flat := by
      rw [pending]
      decide
    have opened : Sided l.fillEntry basket side := { sided with
      entry := fun same _ => sided.entry same busy
      ownGuard := fun _ => sided.ownGuard busy
      abandoned := fun same => absurd same sided.known }
    exact protect.sided
      (shape_of_open rfl (shape.pendingEntry pending).2.1 (shape.sided busy)) opened agrees
  | lastGuard request idle remembered named places =>
    have noted : Sided ({ l.noteFill filledId with lastStop := "" } : Ledger) basket side :=
      { sided with lastStop := fun same => absurd same sided.known }
    exact (noted.dropFired filledId).unwind
  | guard request wasBuy idle other guarded places =>
    have noted : Sided (l.noteFill filledId) basket side := { sided with }
    exact (noted.dropFired filledId).unwind
  | unwound idle other free known => exact { sided with }
  | unknown idle other free unknown => exact { sided with }
  | partialExit held part => exact sided
  | closed held whole => exact sided.close filledId

/-- An acknowledged cancel leaves the sides. -/
theorem Sided.acknowledge (client : String) (servers : Table String String)
    (sided : Sided l basket side) : Sided (l.acknowledge host client servers) basket side := by
  have guard : ∀ flag, (l.guards.erase client).lookup basket = some flag → side flag := by
    intro flag found
    rw [Table.lookup_erase] at found
    split at found
    · exact absurd found (Option.some_ne_none flag).symm
    · exact sided.guard flag found
  have lastStop : (basket = if l.lastStop = client then "" else l.lastStop) →
      side l.lastStopBuy := by
    split
    · exact fun same => absurd same sided.known
    · exact sided.lastStop
  exact { sided with
    guard := guard
    lastStop := lastStop }

/-- Every step keeps the side of an order, if a seeded guard has the side it is
seeded with. -/
theorem Stepped.sided {op : Op} (stepped : Stepped host l op l') (shape : Shape l)
    (sided : Sided l basket side)
    (agrees : ∀ order ∈ accepted l'.sent, order.2.basket = basket → side order.2.isBuy)
    (seeds : ∀ wasBuy, op = .seedStop basket wasBuy → side wasBuy) : Sided l' basket side := by
  cases stepped with
  | own initiates walk => exact Walk.sided walk shape sided agrees
  | ignored notifies => exact sided
  | filled filledId price qty isEntry filled => exact filled.sided shape sided agrees
  | rejectedEntry client pending named => exact sided.reset
  | rejectedExit client closing named walk =>
    have busy : l.state ≠ .flat := by
      rw [closing]
      decide
    exact Walk.sided walk (shape_of_open rfl rfl (shape.sided busy)) (sided.reopen busy) agrees
  | rejectedStop client named =>
    exact { sided with stop := fun same => absurd same sided.known }
  | ackClient client => exact sided.acknowledge client _
  | ackServer server client mapped => exact sided.acknowledge client _
  | readopted id client server held guarded own routes =>
    have roomy : Sided (l.makeRoom host client) basket side := by
      simp only [makeRoom]
      split
      · exact sided.cancelStop
      · exact sided
    have kept : (l.makeRoom host client).direction = l.direction := by
      simp only [makeRoom]
      split
      · rfl
      · rfl
    have cleared : Sided ((l.makeRoom host client).acknowledge host client
        (if server ≠ "" then (l.makeRoom host client).servers.erase server
          else (l.makeRoom host client).servers)) basket side := roomy.acknowledge client _
    have adopted : basket = client →
        side (decide ((l.makeRoom host client).direction = .sell)) := by
      rintro rfl
      rw [kept]
      exact sided.ownGuard held.states.1 own
    exact { cleared with stop := adopted }
  | mapStop client server named known => exact { sided with }
  | mapGuard client server effects guarded quiet => exact { sided with }
  | mapOrder client server => exact { sided with }
  | mapCancelled client server effects quiet => exact { sided with }
  | mapCancelledGuard client server effects guarded quiet => exact { sided with }
  | setStopServer server => exact { sided with }
  | externalClose price reason held =>
    have bare : Sided (l.withdrawStop host) basket side := by
      simp only [withdrawStop]
      split
      · exact sided
      · exact sided.cancelStop
    exact { bare.reset with }
  | clearLast => exact { sided with lastStop := fun same => absurd same sided.known }
  | register registered => exact { sided with }
  | confirmFlat => exact { sided with }
  | seedStop seeded wasBuy =>
    have guard : ∀ flag, (l.guards.insert seeded wasBuy).lookup basket = some flag →
        side flag := by
      intro flag found
      rw [Table.lookup_insert] at found
      split at found
      next same =>
        obtain rfl : wasBuy = flag := Option.some.inj found
        exact seeds wasBuy (same ▸ rfl)
      next => exact sided.guard flag found
    exact { sided with guard := guard }
  | seedServer server client => exact { sided with }

end RithmicEngine.Ledger
