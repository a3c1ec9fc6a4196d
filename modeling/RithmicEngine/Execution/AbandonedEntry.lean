import RithmicEngine.Execution.OpLoop
import RithmicEngine.Execution.UnwindSize
/-!
# Fills of an abandoned entry

An abandoned entry is remembered, and an entry fill that names it is unwound. But
a fill is taken for an entry's only while its order is the current entry, which
abandoning it ends. So the guard of the abandoned entry is out of reach: however
its fills are reported and whenever it is given up, no unwind is sent for them.
-/
namespace RithmicEngine

open Notif

variable {host : Host}

namespace Ledger

/-- The id is that of no closing order and not both the current entry and the
abandoned one, so no fill that is attributed by the current ids is answered. -/
structure Clean (l : Ledger) (basket : String) : Prop where
  unguarded : Unguarded l basket
  current : basket = l.entry → basket ≠ l.abandoned

variable {l : Ledger} {seq : Nat} {l' : Ledger} {basket : String}

/-- Where the entry of a book comes from. -/
theorem Move.entry_cases (move : Move host l l') :
    l'.entry = "" ∨
    (l'.entry = host.basketId l.next ∧ l'.next = l.next + 1 ∧ l'.exit = "" ∧ l'.stop = "" ∧
      l'.lastStop = l.lastStop ∧ l'.guards = l.guards ∧ l'.abandoned = l.abandoned) ∨
    (l'.entry = l.entry ∧ l'.abandoned = l.abandoned) := by
  cases move with
  | enter => exact Or.inr (Or.inl ⟨rfl, rfl, rfl, rfl, rfl, rfl, rfl⟩)
  | refuseEntry => exact Or.inl rfl
  | abandon => exact Or.inl rfl
  | _ => exact Or.inr (Or.inr ⟨rfl, rfl⟩)

/-- A move keeps an id clean that it does not draw. -/
theorem Move.clean (move : Move host l l') (clean : Clean l basket)
    (undrawn : Undrawn host l l' basket) : Clean l' basket where
  unguarded := move.absent clean.unguarded undrawn
  current := by
    intro same
    rcases move.entry_cases with none | ⟨drawn, next, _⟩ | ⟨kept, abandoned⟩
    · exact absurd (same.trans none) clean.unguarded.known
    · exact absurd (same.trans drawn) (undrawn l.next (Nat.le_refl _) (by omega))
    · rw [abandoned]
      exact clean.current (same.trans kept)

theorem Walk.clean (walk : Walk host l l') (clean : Clean l basket)
    (undrawn : Undrawn host l l' basket) : Clean l' basket := by
  induction walk with
  | refl => exact clean
  | tail walk move ih =>
    exact move.clean (ih (undrawn.left move.next_le)) (undrawn.right (Walk.next_le walk))

/-- Steps that leave the entries alone keep an id clean. -/
theorem Clean.congr (clean : Clean l basket) (unguarded : Unguarded l' basket)
    (entry : l'.entry = l.entry ∨ l'.entry = "")
    (abandoned : l'.abandoned = l.abandoned ∨ l'.abandoned = "") : Clean l' basket where
  unguarded := unguarded
  current := by
    intro same
    rcases abandoned with kept | gone
    · rw [kept]
      rcases entry with still | none
      · exact clean.current (same.trans still)
      · exact absurd (same.trans none) unguarded.known
    · rw [gone]
      exact unguarded.known

/-- A fill keeps an id clean that is not drawn. -/
theorem Filled.clean {filledId : String} {qty : Int} {isEntry : Bool}
    (filled : Filled host filledId qty l isEntry l') (clean : Clean l basket)
    (undrawn : Undrawn host l l' basket) : Clean l' basket := by
  have unguarded : Unguarded l' basket := filled.absent clean.unguarded undrawn
  cases filled with
  | entered pending named whole protect =>
    have opened : Clean l.fillEntry basket :=
      clean.congr { clean.unguarded with abandoned := False.elim } (Or.inl rfl) (Or.inr rfl)
    exact protect.clean opened undrawn
  | late request elsewhere remembered named places =>
    exact clean.congr unguarded (Or.inl rfl) (Or.inr rfl)
  | closed held whole =>
    have forgotten : (l.close host filledId).abandoned = l.abandoned := by
      simp only [close, purge, reset, settleStop, dropFilled, cancelStop]
      split_ifs
      all_goals rfl
    exact clean.congr unguarded (Or.inr rfl) (Or.inl forgotten)
  | _ => exact clean.congr unguarded (Or.inl rfl) (Or.inl rfl)

/-- A step keeps an id clean that it neither draws nor brings in. -/
theorem Stepped.clean {op : Op} (stepped : Stepped host l op l') (clean : Clean l basket)
    (undrawn : Undrawn host l l' basket) (foreign : ¬Introduces op basket) : Clean l' basket := by
  have unguarded : Unguarded l' basket := stepped.absent clean.unguarded undrawn foreign
  cases stepped with
  | own initiates walk => exact Walk.clean walk clean undrawn
  | filled filledId price qty isEntry filled => exact filled.clean clean undrawn
  | rejectedExit client closing named walk =>
    have reopened : Clean l.reopen basket :=
      clean.congr { clean.unguarded with exit := clean.unguarded.known } (Or.inl rfl) (Or.inl rfl)
    exact Walk.clean walk reopened undrawn
  | rejectedEntry client pending named => exact clean.congr unguarded (Or.inr rfl) (Or.inl rfl)
  | readopted id client server held guarded own routes =>
    have entry : ((l.makeRoom host client).readopt host client server).entry = l.entry := by
      simp only [readopt, acknowledge, makeRoom]
      split
      all_goals rfl
    have abandoned : ((l.makeRoom host client).readopt host client server).abandoned =
        l.abandoned := by
      simp only [readopt, acknowledge, makeRoom]
      split
      all_goals rfl
    exact clean.congr unguarded (Or.inl entry) (Or.inl abandoned)
  | externalClose price reason held =>
    have abandoned : (l.closeExternally host).abandoned = l.abandoned := by
      simp only [closeExternally, reset, withdrawStop]
      split
      all_goals rfl
    exact clean.congr unguarded (Or.inr rfl) (Or.inl abandoned)
  | _ => exact clean.congr unguarded (Or.inl rfl) (Or.inl rfl)

/-- The current entry is an order of this process, and its id is clean. -/
def EntryClean (host : Host) (seq : Nat) (l : Ledger) : Prop :=
  l.entry ≠ "" →
    (∃ n, seq ≤ n ∧ n < l.next ∧ l.entry = host.basketId n) ∧ Clean l l.entry

/-- An id on the book is none of an order still to be sent. -/
theorem Fresh.undrawn_entry (fresh : Fresh host l) : Undrawn host l l' l.entry := by
  intro n later _ same
  exact (fresh n later).entry trivial same.symm

/-- A move keeps the current entry clean. A new entry is drawn fresh. -/
theorem Move.entryClean (move : Move host l l') (low : seq ≤ l.next) (fresh : Fresh host l)
    (clean : EntryClean host seq l) : EntryClean host seq l' := by
  intro known
  rcases move.entry_cases with
    none | ⟨drawn, next, exit, stop, lastStop, guards, abandoned⟩ | ⟨kept, _⟩
  · exact absurd none known
  · have unused := fresh l.next (Nat.le_refl _)
    rw [drawn] at known ⊢
    have unguarded : Unguarded l' (host.basketId l.next) := {
      known := known
      exit := exit ▸ known
      stop := stop ▸ known
      lastStop := lastStop ▸ unused.lastStop
      guards := guards ▸ unused.guards
      entry := False.elim, abandoned := False.elim, unwinds := False.elim }
    exact ⟨⟨l.next, low, by omega, rfl⟩, unguarded,
      fun _ => abandoned ▸ unused.abandoned trivial⟩
  · rw [kept] at known ⊢
    obtain ⟨⟨n, from_, below, named⟩, still⟩ := clean known
    exact ⟨⟨n, from_, below.trans_le move.next_le, named⟩, move.clean still fresh.undrawn_entry⟩

theorem Walk.entryClean (walk : Walk host l l') (low : seq ≤ l.next) (fresh : Fresh host l)
    (clean : EntryClean host seq l) : EntryClean host seq l' := by
  induction walk with
  | refl => exact clean
  | tail walk move ih =>
    exact move.entryClean (low.trans (Walk.next_le walk)) (Walk.fresh walk fresh) ih

/-- Every step keeps the current entry clean. -/
theorem Stepped.entryClean {op : Op} (stepped : Stepped host l op l') (low : seq ≤ l.next)
    (fresh : Fresh host l) (clean : EntryClean host seq l) (foreign : Foreign host seq op) :
    EntryClean host seq l' := by
  -- Where the entry stays, cleanness of its id is all there is to keep.
  have kept (entry : l'.entry = l.entry) : EntryClean host seq l' := by
    intro known
    rw [entry] at known ⊢
    obtain ⟨⟨n, from_, below, named⟩, still⟩ := clean known
    refine ⟨⟨n, from_, below.trans_le stepped.next_le, named⟩, ?_⟩
    exact stepped.clean still fresh.undrawn_entry (named ▸ foreign n from_)
  cases stepped with
  | own initiates walk => exact Walk.entryClean walk low fresh clean
  | filled filledId price qty isEntry filled =>
    cases filled with
    | entered pending named whole protect =>
      have opened : EntryClean host seq l.fillEntry := fun known =>
        ⟨(clean known).1, (clean known).2.congr
          { (clean known).2.unguarded with abandoned := False.elim } (Or.inl rfl) (Or.inr rfl)⟩
      have unused : Fresh host l.fillEntry := fun n later =>
        { fresh n later with abandoned := fun _ => (fresh n later).known }
      exact protect.entryClean low unused opened
    | closed held whole => exact fun known => absurd rfl known
    | _ => exact kept rfl
  | rejectedExit client closing named walk =>
    have reopened : EntryClean host seq l.reopen := fun known =>
      ⟨(clean known).1, (clean known).2.congr
        { (clean known).2.unguarded with exit := (clean known).2.unguarded.known }
        (Or.inl rfl) (Or.inl rfl)⟩
    have unused : Fresh host l.reopen := fun n later =>
      { fresh n later with exit := (fresh n later).known }
    exact Walk.entryClean walk low unused reopened
  | rejectedEntry client pending named => exact fun known => absurd rfl known
  | externalClose price reason held => exact fun known => absurd rfl known
  | readopted id client server held guarded own routes =>
    have entry : ((l.makeRoom host client).readopt host client server).entry = l.entry := by
      simp only [readopt, acknowledge, makeRoom]
      split
      all_goals rfl
    exact kept entry
  | _ => exact kept rfl

end Ledger

/-! ## Routed fill reports -/

namespace OrderManager

open Runs

/-- A fill report as the receive loop routes it: to the owner of its tag, and
otherwise to the router, on our own account. -/
def routeFill (host : Host) (now : Int) (basket : String) (price : ℚ) (qty : Int)
    (s : OrderManager) : OrderManager :=
  if OpLoop.owns basket s then
    onFillNotificationLocked host now basket price qty
      (s.isEntryBasket basket && !s.isStopBasket basket) s
  else
    (handleUnownedFill host now basket "" host.cfg.accountId host.cfg.accountId price qty s).1

/-- What happens to the manager: a call, or a fill report that is routed to it. -/
inductive Event
  | call (call : Call)
  | report (now : Int) (basket : String) (price : ℚ) (qty : Int)
  deriving DecidableEq

def act (host : Host) (s : OrderManager) : Event → OrderManager
  | .call made => step host s made
  | .report now basket price qty => routeFill host now basket price qty { s with outbox := [] }

/-- Fills come as routed reports only, and the host brings in no id of this process. -/
def Event.Routed (host : Host) (seq : Nat) : Event → Prop
  | .call made => Ledger.Foreign host seq made.op ∧
      ∀ basket price qty isEntry, made.op ≠ .fill basket price qty isEntry
  | .report _ _ _ _ => True

/-- The largest cumulative quantity the events report for an order. -/
def reportedTo (basket : String) (events : List Event) : Int :=
  events.foldl (fun largest event =>
    match event with
    | .report _ filled _ qty => if filled = basket then max largest qty else largest
    | .call _ => largest) 0

theorem fillProcessed_ledger (basket : String) (qty : Int) (s : OrderManager) :
    (fillAlreadyProcessed basket qty s).1.ledger = s.ledger := by
  simp only [fillAlreadyProcessed]
  split
  · rfl
  · rfl

/-- A routed report leaves the book alone or is a fill on it, an entry's fill only
when it names the current entry. -/
theorem routeFill_stepped (live : host.Live) (now : Int) (basket : String) (price : ℚ)
    (qty : Int) (s : OrderManager) (shape : s.ledger.Shape) :
    (routeFill host now basket price qty s).ledger = s.ledger ∨
      ∃ isEntry, (isEntry = true → basket = s.ledger.entry) ∧
        Ledger.Filled host basket qty s.ledger isEntry
          (routeFill host now basket price qty s).ledger := by
  have bare (pending : s.pos.state = .pendingEntry) : s.pos.basketIdStop = "" :=
    (shape.pendingEntry pending).2.2
  simp only [routeFill]
  split
  · right
    refine ⟨s.isEntryBasket basket && !s.isStopBasket basket, ?_,
      onFill_filled live now basket price qty _ s bare⟩
    intro named
    have entry : s.isEntryBasket basket = true := (Bool.and_eq_true_iff.mp named).1
    simp only [isEntryBasket, decide_eq_true_eq] at entry
    exact entry.symm
  · have key : fillKey basket "" = basket := by
      simp only [fillKey]
      split
      next empty => exact empty.symm
      next => rfl
    have asked := fillProcessed_ledger basket qty s
    simp only [handleUnownedFill, unownedFillIsDuplicate, key, ne_eq, not_true_eq_false,
      and_false, ↓reduceIte]
    generalize fillAlreadyProcessed basket qty s = answer at asked ⊢
    obtain ⟨c, duplicate⟩ := answer
    simp only at asked
    cases duplicate with
    | true => exact Or.inl asked
    | false =>
      simp only [Bool.false_eq_true, ↓reduceIte]
      split
      · right
        refine ⟨false, fun never => absurd never Bool.false_ne_true, ?_⟩
        rw [← asked]
        refine onFill_filled live now basket price qty false c (fun pending => ?_)
        have samePos : c.ledger.stop = s.ledger.stop := congrArg Ledger.stop asked
        have sameState : c.ledger.state = s.ledger.state := congrArg Ledger.state asked
        exact samePos.trans (bare (sameState.symm.trans pending))
      · exact Or.inl asked

/-- Every routed event is a step of the book; a report is an entry's fill only when
it names the current entry. -/
theorem act_stepped (live : host.Live) (seq : Nat) (s : OrderManager) (event : Event)
    (shape : s.ledger.Shape) (routed : event.Routed host seq) :
    ∃ op, Ledger.Stepped host s.cleared op (act host s event).ledger ∧
      Ledger.Foreign host seq op ∧
      ∀ basket price qty, op = .fill basket price qty true → basket = s.ledger.entry := by
  cases event with
  | call made =>
    refine ⟨made.op, step_refines live s made shape, routed.1, ?_⟩
    intro basket price qty same
    exact absurd same (routed.2 basket price qty true)
  | report now basket price qty =>
    have own (op : Op) (brings : Ledger.Brings op = false) : Ledger.Foreign host seq op :=
      Ledger.foreign_of_not_brings brings
    rcases routeFill_stepped live now basket price qty { s with outbox := [] }
      (shape.congr rfl rfl rfl rfl rfl) with same | ⟨isEntry, named, filled⟩
    · refine ⟨.fillProcessed basket qty, ?_, own _ rfl, ?_⟩
      · simp only [act, same]
        exact .own rfl .refl
      · intro other price qty taken
        exact absurd taken (by simp)
    · refine ⟨.fill basket price qty isEntry, .filled basket price qty isEntry filled,
        own _ rfl, ?_⟩
      intro other price' qty' same
      simp only [Op.fill.injEq] at same
      obtain ⟨rfl, _, _, entry⟩ := same
      exact named entry

/-- What holds of the book in every routed run. -/
structure Kept (host : Host) (seq : Nat) (s : OrderManager) : Prop where
  shape : s.ledger.Shape
  fresh : s.ledger.Fresh host
  drawn : seq ≤ s.seq
  entry : s.ledger.EntryClean host seq

/-- Every routed event keeps what the current entry rests on. -/
theorem act_kept (live : host.Live) (seq : Nat) (s : OrderManager) (event : Event)
    (kept : Kept host seq s) (routed : event.Routed host seq) :
    Kept host seq (act host s event) := by
  obtain ⟨op, stepped, foreign, _⟩ := act_stepped live seq s event kept.shape routed
  have shape : s.cleared.Shape := kept.shape.congr rfl rfl rfl rfl rfl
  have fresh : s.cleared.Fresh host := fun n later => { kept.fresh n later with }
  have clean : s.cleared.EntryClean host seq := fun known =>
    ⟨(kept.entry known).1, (kept.entry known).2.congr { (kept.entry known).2.unguarded with }
      (Or.inl rfl) (Or.inl rfl)⟩
  have later : s.seq ≤ (act host s event).seq := stepped.next_le
  exact {
    shape := stepped.shape shape
    fresh := stepped.fresh fresh (fun n low => foreign n (kept.drawn.trans low))
    drawn := kept.drawn.trans later
    entry := stepped.entryClean kept.drawn fresh clean foreign }

/-- So does every routed run. Induction on the events. -/
theorem run_kept (live : host.Live) (risk : RiskManager) (seq : Nat) (events : List Event)
    (routed : ∀ event ∈ events, event.Routed host seq) :
    Kept host seq (run (act host) (fresh risk seq) events) := by
  have start : Kept host seq (fresh risk seq) := {
    shape := fresh_shape risk seq
    fresh := fresh_fresh risk seq
    drawn := Nat.le_refl seq
    entry := fun known => absurd rfl known }
  generalize fresh risk seq = s at start ⊢
  induction events generalizing s with
  | nil => exact start
  | cons event rest ih =>
    apply ih
    · intro later inside
      exact routed later (List.mem_cons_of_mem event inside)
    · exact act_kept live seq s event start (routed event List.mem_cons_self)

/-- From a clean id on, a routed run sends no unwind of it. -/
theorem clean_journal (live : host.Live) (seq n : Nat) (low : seq ≤ n) (events : List Event)
    (s : OrderManager) (drawn : n < s.seq) (shape : s.ledger.Shape)
    (clean : s.ledger.Clean (host.basketId n))
    (routed : ∀ event ∈ events, event.Routed host seq) :
    unwindsOf (host.basketId n) (journal (act host) s events).2 = [] := by
  induction events generalizing s with
  | nil => rfl
  | cons event rest ih =>
    obtain ⟨op, stepped, foreign, named⟩ :=
      act_stepped live seq s event shape (routed event List.mem_cons_self)
    have later : s.seq ≤ (act host s event).seq := stepped.next_le
    have start : s.cleared.Clean (host.basketId n) :=
      clean.congr { clean.unguarded with } (Or.inl rfl) (Or.inl rfl)
    have undrawn : Ledger.Undrawn host s.cleared (act host s event).ledger (host.basketId n) := by
      intro m after _ same
      have equal := host.basketId_injective same
      have above : s.seq ≤ m := after
      omega
    have kept := stepped.clean start undrawn (foreign n low)
    have shaped := stepped.shape (shape.congr rfl rfl rfl rfl rfl)
    have quiet : unwindsOf (host.basketId n) (act host s event).outbox = [] := by
      apply step_no_unwind stepped
      intro price qty isEntry same
      cases isEntry with
      | false => exact unguarded_unanswered clean.unguarded
      | true =>
        have current := clean.current (named _ price qty same)
        simp only [Ledger.Answers, ↓reduceIte]
        exact fun answers => current answers.2
    rw [journal_cons, unwindsOf_append, quiet, List.nil_append]
    apply ih (act host s event) (drawn.trans_le later) shaped kept
    intro later inside
    exact routed later (List.mem_cons_of_mem event inside)

/-- In every routed run and from every pending entry on, whether and whenever it is
abandoned: fills reported of it are never reversed by what they amount to. -/
theorem entry_never_unwound (live : host.Live) (risk : RiskManager) (seq : Nat)
    (before after : List Event)
    (routed : ∀ event ∈ before ++ after, event.Routed host seq)
    (pending : (run (act host) (fresh risk seq) before).pos.state = .pendingEntry)
    (filled : 0 < reportedTo (run (act host) (fresh risk seq) before).pos.basketIdEntry after)
    (isBuy : Bool) :
    unwound (run (act host) (fresh risk seq) before).pos.basketIdEntry isBuy
        (journal (act host) (run (act host) (fresh risk seq) before) after).2 ≠
      reportedTo (run (act host) (fresh risk seq) before).pos.basketIdEntry after := by
  have kept := run_kept live risk seq before
    (fun event inside => routed event (List.mem_append_left after inside))
  generalize run (act host) (fresh risk seq) before = s at pending filled kept ⊢
  have known : s.ledger.entry ≠ "" := (kept.shape.pendingEntry pending).1
  obtain ⟨⟨n, low, below, named⟩, clean⟩ := kept.entry known
  have entryIs : s.pos.basketIdEntry = host.basketId n := named
  have none : unwindsOf s.pos.basketIdEntry (journal (act host) s after).2 = [] := by
    rw [entryIs]
    apply clean_journal live seq n low after s below kept.shape (named ▸ clean)
    intro event inside
    exact routed event (List.mem_append_right before inside)
  have zero : unwound s.pos.basketIdEntry isBuy (journal (act host) s after).2 = 0 := by
    simp [unwound, none]
  rw [zero]
  exact filled.ne

/-- A manager whose first entry, a buy of one contract, is pending. -/
def pendingBuy : OrderManager :=
  run (act .accepting) (fresh {} 0) [.call ⟨1, .signal .buy 100 0⟩]

/-- The entry is given up and then fills. -/
def lateEntry : List Event :=
  [.call ⟨2, .flatten "eod_flatten" 100⟩, .report 3 "MNQ-0-0" 100 1]

/-- The late entry of the witness is reported and not unwound. -/
theorem late_entry_never_unwound :
    unwound pendingBuy.pos.basketIdEntry false
        (journal (act .accepting) pendingBuy lateEntry).2 ≠
      reportedTo pendingBuy.pos.basketIdEntry lateEntry :=
  entry_never_unwound Host.accepting_live {} 0 [.call ⟨1, .signal .buy 100 0⟩] lateEntry
    (by
      intro event inside
      simp only [lateEntry, List.cons_append, List.nil_append, List.mem_cons, List.not_mem_nil,
        or_false] at inside
      rcases inside with rfl | rfl | rfl
      · exact ⟨Ledger.foreign_of_not_brings rfl, by simp⟩
      · exact ⟨Ledger.foreign_of_not_brings rfl, by simp⟩
      · trivial)
    (by decide +kernel) (by decide +kernel) false

/-- The calls that give up a pending entry. -/
def Abandons : Op → Prop
  | .flatten _ _ => True
  | .entryTimeout _ => True
  | .rejected _ => True
  | _ => False

/-- An entry that fills after a flatten is taken for an unknown fill: nothing is
sent against it. -/
theorem abandoned_entry_kept :
    ¬∀ (host : Host), host.Live → ∀ (risk : RiskManager) (seq : Nat) (before after : List Event)
      (abandon : Call) (s : OrderManager),
      s = run (act host) (fresh risk seq) before →
      (∀ event ∈ before ++ after, event.Routed host seq) →
      s.pos.state = .pendingEntry → Abandons abandon.op →
      (step host s abandon).pos.state = .flat →
      Along (act host) (fun s event => (act host s event).pos.state = .flat)
        (step host s abandon) after →
      reportedTo s.pos.basketIdEntry (before ++ after) ≤ s.pos.qty →
      unwound s.pos.basketIdEntry (!decide (s.pos.direction = .buy))
          (journal (act host) (step host s abandon) after).2 =
        reportedTo s.pos.basketIdEntry (before ++ after) := by
  intro reversed
  have unwoundAll := reversed .accepting Host.accepting_live {} 0
    [.call ⟨1, .signal .buy 100 0⟩] [.report 3 "MNQ-0-0" 100 1] ⟨2, .flatten "eod_flatten" 100⟩
    pendingBuy rfl
    (by
      intro event inside
      simp only [List.cons_append, List.nil_append, List.mem_cons, List.not_mem_nil,
        or_false] at inside
      rcases inside with rfl | rfl
      · exact ⟨Ledger.foreign_of_not_brings rfl, by simp⟩
      · trivial)
    (by decide +kernel) trivial (by decide +kernel) (by decide +kernel) (by decide +kernel)
  revert unwoundAll
  decide +kernel

end OrderManager

end RithmicEngine
