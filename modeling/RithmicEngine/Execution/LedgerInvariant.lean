import RithmicEngine.Execution.Ledger
/-!
# The shape of the ledger

Which orders a position has in each of its states, and where a basket id can
stand on the book. The shape holds after every step. An id that stands nowhere
on the book and is neither drawn from the counter nor brought in by the host
stays off it, so an id of an order still to be sent is nowhere on the book.
-/
namespace RithmicEngine

/-- The state a position is opened in is an open one. -/
theorem heldState_open (direction : OrbSignal) :
    heldState direction = .long ∨ heldState direction = .short := by
  simp only [heldState]
  split
  · exact Or.inl rfl
  · exact Or.inr rfl

namespace Ledger

variable {host : Host}

/-- The orders of a position in each of its states. -/
structure Shape (l : Ledger) : Prop where
  flat : l.state = .flat → l.entry = "" ∧ l.exit = "" ∧ l.stop = "" ∧ l.direction = .none
  pendingEntry : l.state = .pendingEntry → l.entry ≠ "" ∧ l.exit = "" ∧ l.stop = ""
  held : l.Open → l.exit = "" ∧ l.state = heldState l.direction
  pendingExit : l.state = .pendingExit → l.exit ≠ "" ∧ l.stop = ""
  sided : l.state ≠ .flat → l.direction = .buy ∨ l.direction = .sell

variable {l : Ledger} {basket : String} {qty : Int} {op : Op} {isEntry : Bool} {l' : Ledger}

/-- An open position is neither flat nor pending. -/
theorem Open.states (held : l.Open) :
    l.state ≠ .flat ∧ l.state ≠ .pendingEntry ∧ l.state ≠ .pendingExit := by
  obtain long | short := held
  · rw [long]
    decide
  · rw [short]
    decide

/-- Only an open position has a stop. -/
theorem Shape.open_of_stop (shape : Shape l) (stopped : l.stop ≠ "") : l.Open := by
  cases state : l.state with
  | flat => exact absurd (shape.flat state).2.2.1 stopped
  | pendingEntry => exact absurd (shape.pendingEntry state).2.2 stopped
  | long => exact Or.inl state
  | short => exact Or.inr state
  | pendingExit => exact absurd (shape.pendingExit state).2 stopped

/-- A reset book is flat and well shaped. -/
theorem shape_of_flat (state : l.state = .flat) (entry : l.entry = "") (exit : l.exit = "")
    (stop : l.stop = "") (direction : l.direction = .none) : Shape l where
  flat := fun _ => ⟨entry, exit, stop, direction⟩
  pendingEntry := fun pending => absurd (state.symm.trans pending) (by decide)
  held := fun held => absurd state held.states.1
  pendingExit := fun closing => absurd (state.symm.trans closing) (by decide)
  sided := fun busy => absurd state busy

/-- An open book whose state fits its direction is well shaped. -/
theorem shape_of_open (state : l.state = heldState l.direction) (exit : l.exit = "")
    (sided : l.direction = .buy ∨ l.direction = .sell) : Shape l := by
  have held : l.Open := by
    rw [Open, state]
    exact heldState_open l.direction
  exact {
    flat := fun flat => absurd flat held.states.1
    pendingEntry := fun pending => absurd pending held.states.2.1
    held := fun _ => ⟨exit, state⟩
    pendingExit := fun closing => absurd closing held.states.2.2
    sided := fun _ => sided }

/-- Steps that leave the position alone keep its shape. -/
theorem Shape.congr (shape : Shape l) (state : l'.state = l.state)
    (direction : l'.direction = l.direction) (entry : l'.entry = l.entry) (exit : l'.exit = l.exit)
    (stop : l'.stop = l.stop) : Shape l' where
  flat := by simpa only [state, entry, exit, stop, direction] using shape.flat
  pendingEntry := by simpa only [state, entry, exit, stop] using shape.pendingEntry
  held := by simpa only [Open, state, exit, direction] using shape.held
  pendingExit := by simpa only [state, exit, stop] using shape.pendingExit
  sided := by simpa only [state, direction] using shape.sided

/-- Withdrawing or changing the stop of an open position keeps the shape. -/
theorem Shape.restop (shape : Shape l) (held : l.Open) (state : l'.state = l.state)
    (direction : l'.direction = l.direction) (exit : l'.exit = l.exit) : Shape l' := by
  obtain ⟨noExit, fits⟩ := shape.held held
  refine shape_of_open ?_ (exit.trans noExit) ?_
  · rw [state, direction]
    exact fits
  · rw [direction]
    exact shape.sided held.states.1

/-- Every move keeps the shape. -/
theorem Move.shape (move : Move host l l') (shape : Shape l) : Shape l' := by
  cases move with
  | enter direction regime request idle clear sided places accepted =>
    exact {
      flat := fun flat => absurd flat (by decide : PosState.pendingEntry ≠ .flat)
      pendingEntry := fun _ => ⟨host.basketId_ne_empty l.next, rfl, rfl⟩
      held := fun held => absurd rfl held.states.2.1
      pendingExit := fun closing =>
        absurd closing (by decide : PosState.pendingEntry ≠ .pendingExit)
      sided := fun _ => sided }
  | refuseEntry request idle => exact shape_of_flat rfl rfl rfl rfl rfl
  | abandon cancels pending only => exact shape_of_flat rfl rfl rfl rfl rfl
  | submitStop request held bare places accepted => exact shape.restop held rfl rfl rfl
  | refuseStop request held bare => exact shape.restop held rfl rfl rfl
  | cancelStop held stopped => exact shape.restop held rfl rfl rfl
  | sendExit request held bare places accepted =>
    exact {
      flat := fun flat => absurd flat (by decide : PosState.pendingExit ≠ .flat)
      pendingEntry := fun pending =>
        absurd pending (by decide : PosState.pendingExit ≠ .pendingEntry)
      held := fun open_ => absurd rfl open_.states.2.2
      pendingExit := fun _ => ⟨host.basketId_ne_empty l.next, bare⟩
      sided := fun _ => shape.sided held.states.1 }
  | refuseExit request held bare => exact shape_of_open rfl rfl (shape.sided held.states.1)
  | guardExit id closing sent names =>
    have busy : l.state ≠ .flat := by
      rw [closing]
      decide
    exact shape_of_open rfl rfl (shape.sided busy)
  | recancel cancels only => exact shape.congr rfl rfl rfl rfl rfl

theorem Walk.shape (walk : Walk host l l') (shape : Shape l) : Shape l' := by
  induction walk with
  | refl => exact shape
  | tail _ move ih => exact move.shape ih

/-- Every fill keeps the shape. -/
theorem Filled.shape (filled : Filled host basket qty l isEntry l') (shape : Shape l) :
    Shape l' := by
  cases filled with
  | spurious elsewhere unknown => exact shape
  | late request elsewhere remembered named places => exact shape.congr rfl rfl rfl rfl rfl
  | mismatch pending other => exact shape
  | partialEntry pending named part => exact shape
  | entered pending named whole protect =>
    have busy : l.state ≠ .flat := by
      rw [pending]
      decide
    exact protect.shape
      (shape_of_open rfl (shape.pendingEntry pending).2.1 (shape.sided busy))
  | lastGuard request idle remembered named places => exact shape.congr rfl rfl rfl rfl rfl
  | guard request wasBuy idle other guarded places => exact shape.congr rfl rfl rfl rfl rfl
  | unwound idle other free known => exact shape.congr rfl rfl rfl rfl rfl
  | unknown idle other free unknown => exact shape.congr rfl rfl rfl rfl rfl
  | partialExit held part => exact shape
  | closed held whole => exact shape_of_flat rfl rfl rfl rfl rfl

/-- Every step keeps the shape. -/
theorem Stepped.shape (stepped : Stepped host l op l') (shape : Shape l) : Shape l' := by
  cases stepped with
  | own initiates walk => exact walk.shape shape
  | ignored notifies => exact shape
  | filled basket price qty isEntry filled => exact filled.shape shape
  | rejectedEntry basket pending named => exact shape_of_flat rfl rfl rfl rfl rfl
  | rejectedExit basket closing named walk =>
    have busy : l.state ≠ .flat := by
      rw [closing]
      decide
    exact walk.shape (shape_of_open rfl rfl (shape.sided busy))
  | rejectedStop basket named =>
    exact {
      flat := fun flat => by
        obtain ⟨entry, exit, _, direction⟩ := shape.flat flat
        exact ⟨entry, exit, rfl, direction⟩
      pendingEntry := fun pending => by
        obtain ⟨entry, exit, _⟩ := shape.pendingEntry pending
        exact ⟨entry, exit, rfl⟩
      held := shape.held
      pendingExit := fun closing => ⟨(shape.pendingExit closing).1, rfl⟩
      sided := shape.sided }
  | ackClient basket => exact shape.congr rfl rfl rfl rfl rfl
  | ackServer server client mapped => exact shape.congr rfl rfl rfl rfl rfl
  | readopted id client server held guarded own routes =>
    refine shape.restop held ?_ ?_ ?_
    all_goals
      simp only [readopt, acknowledge, makeRoom]
      split
      · rfl
      · rfl
  | mapStop client server named known => exact shape.congr rfl rfl rfl rfl rfl
  | mapGuard client server effects guarded quiet => exact shape.congr rfl rfl rfl rfl rfl
  | mapOrder client server => exact shape.congr rfl rfl rfl rfl rfl
  | mapCancelled client server effects quiet => exact shape.congr rfl rfl rfl rfl rfl
  | mapCancelledGuard client server effects guarded quiet =>
    exact shape.congr rfl rfl rfl rfl rfl
  | setStopServer server => exact shape.congr rfl rfl rfl rfl rfl
  | externalClose price reason held => exact shape_of_flat rfl rfl rfl rfl rfl
  | clearLast => exact shape.congr rfl rfl rfl rfl rfl
  | register basket => exact shape.congr rfl rfl rfl rfl rfl
  | confirmFlat => exact shape.congr rfl rfl rfl rfl rfl
  | seedStop basket wasBuy => exact shape.congr rfl rfl rfl rfl rfl
  | seedServer server client => exact shape.congr rfl rfl rfl rfl rfl

/-- The books from which the manager goes on by its own moves within one call: the
book itself, the reopened position after a rejected exit and the opened one after
its entry fill. -/
def Resumes (l c : Ledger) : Prop :=
  c = l ∨ (l.state = .pendingExit ∧ c = l.reopen) ∨ (l.state = .pendingEntry ∧ c = l.fillEntry)

/-- A seeded ledger keeps its shape. -/
theorem Resumes.shape {c : Ledger} (resumes : Resumes l c) (shape : Shape l) : Shape c := by
  rcases resumes with rfl | ⟨closing, rfl⟩ | ⟨pending, rfl⟩
  · exact shape
  · have busy : l.state ≠ .flat := by
      rw [closing]
      decide
    exact shape_of_open rfl rfl (shape.sided busy)
  · have busy : l.state ≠ .flat := by
      rw [pending]
      decide
    exact shape_of_open rfl (shape.pendingEntry pending).2.1 (shape.sided busy)

theorem Resumes.sent {c : Ledger} (resumes : Resumes l c) : c.sent = l.sent ∧ c.next = l.next := by
  rcases resumes with rfl | ⟨_, rfl⟩ | ⟨_, rfl⟩
  · exact ⟨rfl, rfl⟩
  · exact ⟨rfl, rfl⟩
  · exact ⟨rfl, rfl⟩

/-! ## Ids off the book -/

/-- The id is that of no closing order on the book: no exit, stop or guard. When
it is absent everywhere it is no entry and no unwind on the book either. -/
structure Absent (everywhere : Prop) (l : Ledger) (basket : String) : Prop where
  known : basket ≠ ""
  exit : basket ≠ l.exit
  stop : basket ≠ l.stop
  lastStop : basket ≠ l.lastStop
  guards : basket ∉ l.guards
  entry : everywhere → basket ≠ l.entry
  abandoned : everywhere → basket ≠ l.abandoned
  unwinds : everywhere → basket ∉ l.unwinds

/-- The id stands nowhere on the book. -/
abbrev Unused (l : Ledger) (basket : String) : Prop := Absent True l basket

/-- The id is that of no closing order on the book. -/
abbrev Unguarded (l : Ledger) (basket : String) : Prop := Absent False l basket

variable {everywhere : Prop}

/-- The id is not one of an order sent between two books. -/
def Undrawn (host : Host) (l l' : Ledger) (basket : String) : Prop :=
  ∀ n, l.next ≤ n → n < l'.next → basket ≠ host.basketId n

/-- Every move only adds to what was sent and maps no order. -/
theorem Move.adds (move : Move host l l') : l.sent <+: l'.sent ∧ l'.orders = l.orders := by
  cases move with
  | submitStop => exact ⟨(List.prefix_append _ _).trans (List.prefix_append _ _), rfl⟩
  | cancelStop =>
    refine ⟨?_, rfl⟩
    exact ((List.prefix_append _ _).trans (List.prefix_append _ _)).trans (List.prefix_append _ _)
  | guardExit => exact ⟨(List.prefix_append _ _).trans (List.prefix_append _ _), rfl⟩
  | _ => exact ⟨List.prefix_append _ _, rfl⟩

/-- No move takes an order number back. -/
theorem Move.next_le (move : Move host l l') : l.next ≤ l'.next := by
  cases move with
  | enter => exact Nat.le_succ l.next
  | refuseEntry => exact Nat.le_succ l.next
  | abandon => exact Nat.le_refl l.next
  | submitStop => exact Nat.le_succ l.next
  | refuseStop => exact Nat.le_succ l.next
  | cancelStop => exact Nat.le_refl l.next
  | sendExit => exact Nat.le_succ l.next
  | refuseExit => exact Nat.le_succ l.next
  | guardExit => exact Nat.le_refl l.next
  | recancel => exact Nat.le_refl l.next

theorem Walk.next_le (walk : Walk host l l') : l.next ≤ l'.next := by
  induction walk with
  | refl => exact Nat.le_refl _
  | tail _ move ih => exact ih.trans move.next_le

/-- A fill draws ids upwards. -/
theorem Filled.next_le (filled : Filled host basket qty l isEntry l') : l.next ≤ l'.next := by
  cases filled with
  | spurious => exact Nat.le_refl l.next
  | late => exact Nat.le_succ l.next
  | mismatch => exact Nat.le_refl l.next
  | partialEntry => exact Nat.le_refl l.next
  | entered pending named whole protect => exact protect.next_le
  | lastGuard => exact Nat.le_succ l.next
  | guard => exact Nat.le_succ l.next
  | unwound => exact Nat.le_refl l.next
  | unknown => exact Nat.le_refl l.next
  | partialExit => exact Nat.le_refl l.next
  | closed held whole =>
    have same : (l.close host basket).next = l.next := by
      simp only [close, purge, reset, settleStop, dropFilled, cancelStop]
      split_ifs
      all_goals rfl
    exact same.ge

/-- No call takes an order number back. -/
theorem Stepped.next_le (stepped : Stepped host l op l') : l.next ≤ l'.next := by
  cases stepped with
  | own initiates walk => exact walk.next_le
  | filled basket price qty isEntry filled => exact filled.next_le
  | rejectedExit basket closing named walk => exact walk.next_le
  | readopted id client server held guarded own routes =>
    simp only [readopt, acknowledge, makeRoom]
    split
    · exact Nat.le_refl l.next
    · exact Nat.le_refl l.next
  | externalClose price reason held =>
    simp only [closeExternally, reset, withdrawStop]
    split
    · exact Nat.le_refl l.next
    · exact Nat.le_refl l.next
  | _ => exact Nat.le_refl l.next

theorem Absent.cancelStop (absent : Absent everywhere l basket) :
    Absent everywhere (Ledger.cancelStop host l) basket :=
  { absent with
    stop := absent.known
    lastStop := absent.stop
    guards := fun inside =>
      ((Table.mem_insert _ _ _ _).mp inside).elim absent.stop absent.guards }

/-- Every move keeps an id off the book that it does not draw. -/
theorem Move.absent (move : Move host l l') (absent : Absent everywhere l basket)
    (undrawn : Undrawn host l l' basket) : Absent everywhere l' basket := by
  cases move with
  | enter direction regime request idle clear sided places accepted =>
    exact { absent with
      entry := fun _ => undrawn l.next (Nat.le_refl _) (Nat.lt_succ_self _)
      exit := absent.known
      stop := absent.known }
  | refuseEntry request idle =>
    exact { absent with entry := fun _ => absent.known, exit := absent.known, stop := absent.known }
  | abandon cancels pending only =>
    exact { absent with
      entry := fun _ => absent.known, exit := absent.known, stop := absent.known
      abandoned := absent.entry }
  | submitStop request held bare places accepted =>
    exact { absent with stop := undrawn l.next (Nat.le_refl _) (Nat.lt_succ_self _) }
  | refuseStop request held bare => exact { absent with stop := absent.known }
  | cancelStop held stopped => exact absent.cancelStop
  | sendExit request held bare places accepted =>
    exact { absent with exit := undrawn l.next (Nat.le_refl _) (Nat.lt_succ_self _) }
  | refuseExit request held bare => exact { absent with exit := absent.known }
  | guardExit id closing sent names =>
    exact { absent with
      exit := absent.known
      lastStop := absent.exit
      guards := fun inside =>
        ((Table.mem_insert _ _ _ _).mp inside).elim absent.exit absent.guards }
  | recancel cancels only => exact { absent with }

theorem Undrawn.left {l l' l'' : Ledger} {basket : String} (undrawn : Undrawn host l l'' basket)
    (later : l'.next ≤ l''.next) : Undrawn host l l' basket :=
  fun n low high => undrawn n low (Nat.lt_of_lt_of_le high later)

theorem Undrawn.right {l'' : Ledger} (undrawn : Undrawn host l l'' basket)
    (earlier : l.next ≤ l'.next) : Undrawn host l' l'' basket :=
  fun n low high => undrawn n (earlier.trans low) high

theorem Walk.absent (walk : Walk host l l') (absent : Absent everywhere l basket)
    (undrawn : Undrawn host l l' basket) : Absent everywhere l' basket := by
  induction walk with
  | refl => exact absent
  | tail walk move ih =>
    exact move.absent (ih (undrawn.left move.next_le)) (undrawn.right (Walk.next_le walk))

/-- Recording an unwind of another id keeps ours off the book. -/
theorem Absent.unwind {fired : String} {request : OrderRequest} {accepted register : Bool}
    (absent : Absent everywhere l basket) (other : basket ≠ host.basketId l.next) :
    Absent everywhere (l.unwind host fired request accepted register) basket := by
  refine { absent with unwinds := ?_ }
  intro relevant
  have free := absent.unwinds relevant
  simp only [Ledger.unwind]
  split
  · simp [other, free]
  · exact free

theorem Absent.dropFired (fired : String) (absent : Absent everywhere l basket) :
    Absent everywhere (Ledger.dropFired host fired l) basket :=
  { absent with
    guards := fun inside => absent.guards ((Table.mem_erase _ _ _).mp inside).2 }

theorem Absent.reset (absent : Absent everywhere l basket) : Absent everywhere l.reset basket :=
  { absent with entry := fun _ => absent.known, exit := absent.known, stop := absent.known }

/-- An order that is nowhere is nowhere after a filled one was dropped. -/
theorem Absent.dropFilled (filled : String) (absent : Absent everywhere l basket) :
    Absent everywhere (l.dropFilled host filled) basket := by
  by_cases guarded : filled ∈ l.guards
  · simp only [Ledger.dropFilled, guarded, ↓reduceIte]
    have lastStop : basket ≠ if l.lastStop = filled then "" else l.lastStop := by
      split
      · exact absent.known
      · exact absent.lastStop
    exact { absent with
      lastStop := lastStop
      guards := fun inside => absent.guards ((Table.mem_erase _ _ _).mp inside).2 }
  · simp only [Ledger.dropFilled, guarded, ↓reduceIte]
    exact absent

theorem Absent.settleStop (filled : String) (absent : Absent everywhere l basket) :
    Absent everywhere (l.settleStop host filled) basket := by
  simp only [Ledger.settleStop]
  split
  · exact absent
  · split
    · exact absent.cancelStop
    · exact { absent with }

theorem Absent.purge (absent : Absent everywhere l basket) :
    Absent everywhere (l.purge host) basket :=
  { absent with
    guards := fun inside => absent.guards ((Table.mem_keep _ _ _).mp inside).1
    unwinds := fun _ => Finset.notMem_empty basket }

/-- Every fill keeps an id off the book that it does not draw. -/
theorem Filled.absent {filledId : String} (filled : Filled host filledId qty l isEntry l')
    (absent : Absent everywhere l basket) (undrawn : Undrawn host l l' basket) :
    Absent everywhere l' basket := by
  cases filled with
  | spurious elsewhere unknown => exact absent
  | late request elsewhere remembered named places =>
    have cleared : Absent everywhere ({ l with abandoned := "" } : Ledger) basket :=
      { absent with abandoned := fun _ => absent.known }
    exact cleared.unwind (undrawn l.next (Nat.le_refl _) (Nat.lt_succ_self _))
  | mismatch pending other => exact absent
  | partialEntry pending named part => exact absent
  | entered pending named whole protect =>
    have opened : Absent everywhere l.fillEntry basket :=
      { absent with abandoned := fun _ => absent.known }
    exact protect.absent opened undrawn
  | lastGuard request idle remembered named places =>
    have noted : Absent everywhere ({ l.noteFill filledId with lastStop := "" } : Ledger) basket :=
      { absent with lastStop := absent.known }
    exact (noted.dropFired filledId).unwind
      (undrawn l.next (Nat.le_refl _) (Nat.lt_succ_self _))
  | guard request wasBuy idle other guarded places =>
    have noted : Absent everywhere (l.noteFill filledId) basket := { absent with }
    exact (noted.dropFired filledId).unwind
      (undrawn l.next (Nat.le_refl _) (Nat.lt_succ_self _))
  | unwound idle other free known =>
    exact { absent with
      unwinds := fun relevant inside =>
        absent.unwinds relevant (Finset.mem_of_mem_erase inside) }
  | unknown idle other free unknown => exact { absent with }
  | partialExit held part => exact absent
  | closed held whole =>
    have dropped : Absent everywhere (l.dropFilled host filledId) basket :=
      absent.dropFilled filledId
    have settled : Absent everywhere ((l.dropFilled host filledId).settleStop host
      filledId) basket :=
      dropped.settleStop filledId
    have closed : Absent everywhere ({ ((l.dropFilled host filledId).settleStop host
      filledId).reset with
        orders := ∅ } : Ledger) basket := { settled.reset with }
    exact closed.purge

/-- The host brings the id onto the book itself. -/
def Introduces : Op → String → Prop
  | .seedStop basket _, other => basket = other
  | .registerUnwind basket, other => basket = other
  | _, _ => False

/-- An order that is nowhere is nowhere after an acknowledgement. -/
theorem Absent.acknowledge (client : String) (servers : Table String String)
    (absent : Absent everywhere l basket) :
    Absent everywhere (l.acknowledge host client servers) basket := by
  have lastStop : basket ≠ if l.lastStop = client then "" else l.lastStop := by
    split
    · exact absent.known
    · exact absent.lastStop
  exact { absent with
    lastStop := lastStop
    guards := fun inside => absent.guards ((Table.mem_erase _ _ _).mp inside).2 }

theorem Absent.makeRoom (client : String) (absent : Absent everywhere l basket) :
    Absent everywhere (l.makeRoom host client) basket := by
  simp only [Ledger.makeRoom]
  split
  · exact absent.cancelStop
  · exact absent

theorem Absent.withdrawStop (absent : Absent everywhere l basket) :
    Absent everywhere (l.withdrawStop host) basket := by
  simp only [Ledger.withdrawStop]
  split
  · exact absent
  · exact absent.cancelStop

/-- Every step keeps an id off the book that it neither draws nor introduces. -/
theorem Stepped.absent (stepped : Stepped host l op l') (absent : Absent everywhere l basket)
    (undrawn : Undrawn host l l' basket) (foreign : ¬Introduces op basket) :
    Absent everywhere l' basket := by
  cases stepped with
  | own initiates walk => exact walk.absent absent undrawn
  | ignored notifies => exact absent
  | filled filledId price qty isEntry filled => exact filled.absent absent undrawn
  | rejectedEntry client pending named => exact absent.reset
  | rejectedExit client closing named walk =>
    have reopened : Absent everywhere l.reopen basket := { absent with exit := absent.known }
    exact walk.absent reopened undrawn
  | rejectedStop client named => exact { absent with stop := absent.known }
  | ackClient client => exact absent.acknowledge client _
  | ackServer server client mapped => exact absent.acknowledge client _
  | readopted id client server held guarded own routes =>
    have other : basket ≠ client := fun same => absent.guards (same ▸ guarded)
    have roomy : Absent everywhere (l.makeRoom host client) basket := absent.makeRoom client
    have cleared : Absent everywhere ((l.makeRoom host client).acknowledge host client
        (if server ≠ "" then (l.makeRoom host client).servers.erase server
          else (l.makeRoom host client).servers)) basket := roomy.acknowledge client _
    exact { cleared with stop := other }
  | mapStop client server named known => exact { absent with }
  | mapGuard client server effects guarded quiet => exact { absent with }
  | mapOrder client server => exact { absent with }
  | mapCancelled client server effects quiet => exact { absent with }
  | mapCancelledGuard client server effects guarded quiet => exact { absent with }
  | setStopServer server => exact { absent with }
  | externalClose price reason held =>
    have bare : Absent everywhere (l.withdrawStop host) basket := absent.withdrawStop
    exact { bare.reset with }
  | clearLast => exact { absent with lastStop := absent.known }
  | register registered =>
    exact { absent with
      unwinds := fun relevant inside => (Finset.mem_insert.mp inside).elim
        (fun same => foreign same.symm) (absent.unwinds relevant) }
  | confirmFlat => exact { absent with }
  | seedStop seeded wasBuy =>
    exact { absent with
      guards := fun inside => ((Table.mem_insert _ _ _ _).mp inside).elim
        (fun same => foreign same.symm) absent.guards }
  | seedServer server client => exact { absent with }

/-- The ids of orders still to be sent stand nowhere on the book. -/
def Fresh (host : Host) (l : Ledger) : Prop :=
  ∀ n, l.next ≤ n → Unused l (host.basketId n)

/-- The host brings in no id of an order still to be sent. -/
def Foreign (host : Host) (next : Nat) (op : Op) : Prop :=
  ∀ n, next ≤ n → ¬Introduces op (host.basketId n)

/-- Calls that bring in no id at all bring in no foreign one. -/
def Brings : Op → Bool
  | .seedStop _ _ => true
  | .registerUnwind _ => true
  | _ => false

theorem foreign_of_not_brings {next : Nat} (own : Brings op = false) : Foreign host next op := by
  intro n _
  cases op with
  | seedStop => exact absurd own (by simp [Brings])
  | registerUnwind =>
    exact absurd own (by simp [Brings])
  | _ => exact id

/-- Later ids are not drawn by an earlier step. -/
theorem undrawn_later {n : Nat} (later : l'.next ≤ n) : Undrawn host l l' (host.basketId n) := by
  intro m _ drawn same
  have equal : n = m := host.basketId_injective same
  omega

theorem Walk.fresh (walk : Walk host l l') (fresh : Fresh host l) : Fresh host l' :=
  fun n later => Walk.absent walk (fresh n ((Walk.next_le walk).trans later)) (undrawn_later later)

theorem Stepped.fresh (stepped : Stepped host l op l') (fresh : Fresh host l)
    (foreign : Foreign host l.next op) : Fresh host l' :=
  fun n later => stepped.absent (fresh n (stepped.next_le.trans later)) (undrawn_later later)
    (foreign n (stepped.next_le.trans later))

end Ledger

end RithmicEngine
