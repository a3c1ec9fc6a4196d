import RithmicEngine.Execution.Journal
/-!
# The orders that are placed

Two things that hold in every run, read off the ledger: the orders a position has are those of
its state, and no two orders carry one id however many managers a process constructs.
-/
namespace RithmicEngine

open Runs

namespace OrderManager

variable {host : Host}

theorem run_shape (live : host.Live) (risk : RiskManager) (seq : Nat) (calls : List Call) :
    (run (step host) (fresh risk seq) calls).ledger.Shape :=
  run_invariant (step host) (fun s => s.ledger.Shape) (fun _ _ => True)
    (fun s call shape _ => step_shape live s call shape) _ calls (fresh_shape risk seq)
    (along_of_forall _ (fun _ _ => trivial) _ calls)

/-- The orders of a position in each of its states. -/
structure OrdersFit (pos : Position) : Prop where
  flat : pos.state = .flat → pos.basketIdEntry = "" ∧ pos.basketIdExit = "" ∧
    pos.basketIdStop = "" ∧ pos.direction = .none
  pendingEntry : pos.state = .pendingEntry →
    pos.basketIdEntry ≠ "" ∧ pos.basketIdExit = "" ∧ pos.basketIdStop = ""
  held : pos.state = .long ∨ pos.state = .short →
    pos.basketIdExit = "" ∧ pos.state = heldState pos.direction
  pendingExit : pos.state = .pendingExit → pos.basketIdExit ≠ "" ∧ pos.basketIdStop = ""
  sided : pos.state ≠ .flat → pos.direction = .buy ∨ pos.direction = .sell

/-- In every run a flat manager has no orders, a pending entry has an entry order only, an open
position faces its direction and has no exit order, and one that is being closed has an exit order
and no stop. -/
theorem orders_fit_state (live : host.Live) (risk : RiskManager) (seq : Nat) (calls : List Call) :
    OrdersFit (run (step host) (fresh risk seq) calls).pos := by
  have shape := run_shape live risk seq calls
  exact ⟨shape.flat, shape.pendingEntry, shape.held, shape.pendingExit, shape.sided⟩

/-- A long position that is opened and flattened. -/
def boughtAndSold (entry : String) : List Call :=
  [⟨1, .signal .buy 100 0⟩, ⟨2, .fill entry 100 1 true⟩, ⟨3, .flatten "eod_flatten" 101⟩]

theorem orders_fit_boughtAndSold :
    OrdersFit (run (step .accepting) (fresh {} 0) (boughtAndSold "MNQ-0-0")).pos :=
  orders_fit_state Host.accepting_live {} 0 (boughtAndSold "MNQ-0-0")

/-! ## Ids -/

/-- The basket counter, and the orders that the exchange took, over the cycles of a process: each
constructs a manager, with a risk manager and the counter of the one before it, and makes calls. -/
def cycle (host : Host) (drawn : Nat × List (OrderRole × OrderRequest))
    (calls : RiskManager × List Call) : Nat × List (OrderRole × OrderRequest) :=
  let ran := journal (step host) (fresh calls.1 drawn.1) calls.2
  (ran.1.seq, drawn.2 ++ accepted ran.2)

/-- The host brings in no id that is still to be drawn. -/
def HostsOwn (host : Host) (drawn : Nat × List (OrderRole × OrderRequest))
    (calls : RiskManager × List Call) : Prop :=
  ∀ call ∈ calls.2, Ledger.Foreign host drawn.1 call.op

/-- Over any number of cycles no two orders carry one id, and every id is one that was drawn. -/
theorem order_ids_distinct (live : host.Live) (seq : Nat) (cycles : List (RiskManager × List Call))
    (own : Along (cycle host) (HostsOwn host) (seq, []) cycles) :
    let drawn := run (cycle host) (seq, []) cycles
    (drawn.2.map fun order => order.2.basket).Nodup ∧
      ∀ order ∈ drawn.2, ∃ n, seq ≤ n ∧ n < drawn.1 ∧ order.2.basket = host.basketId n := by
  have numbered := run_invariant (cycle host)
    (fun drawn => seq ≤ drawn.1 ∧ Numbered host seq drawn.1 drawn.2) (HostsOwn host)
    (by
      rintro ⟨next, orders⟩ ⟨risk, calls⟩ ⟨below, before⟩ own
      have sound := journal_sound live risk next calls own
      exact ⟨below.trans sound.drawn, before.append sound.numbered below sound.drawn⟩)
    (seq, []) cycles ⟨le_refl seq, Numbered.nil seq seq⟩ own
  obtain ⟨below, numbered⟩ := numbered
  refine ⟨?_, fun order inside => numbered.number inside⟩
  obtain ⟨numbers, named, sorted, _⟩ := numbered
  rw [named]
  exact List.Nodup.map (fun _ _ same => host.basketId_injective same)
    (sorted.imp fun below => Nat.ne_of_lt below)

theorem boughtAndSold_own (drawn : Nat × List (OrderRole × OrderRequest)) (entry : String) :
    HostsOwn host drawn ({}, boughtAndSold entry) := by
  intro call inside
  apply Ledger.foreign_of_not_brings
  simp only [boughtAndSold, List.mem_cons, List.not_mem_nil, or_false] at inside
  rcases inside with rfl | rfl | rfl
  · rfl
  · rfl
  · rfl

/-- Two cycles, the second with the counter of the first. -/
def boughtTwice : List (RiskManager × List Call) :=
  [({}, boughtAndSold "MNQ-0-0"), ({}, boughtAndSold "MNQ-0-3")]

theorem order_ids_boughtTwice :
    let drawn := run (cycle .accepting) (0, []) boughtTwice
    (drawn.2.map fun order => order.2.basket).Nodup ∧
      ∀ order ∈ drawn.2, ∃ n, 0 ≤ n ∧ n < drawn.1 ∧
        order.2.basket = Host.accepting.basketId n :=
  order_ids_distinct Host.accepting_live 0 boughtTwice
    ⟨boughtAndSold_own _ _, boughtAndSold_own _ _, trivial⟩

end OrderManager

end RithmicEngine
