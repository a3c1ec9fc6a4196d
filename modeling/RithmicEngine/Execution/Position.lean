import RithmicEngine.Base.Table
import RithmicEngine.Execution.RiskManager
import Mathlib.Data.Nat.Digits.Defs
import Mathlib.Data.Finset.Basic
/-!
# Positions, orders and the host

The record of one position, what the order manager hands to its callbacks, and
the host it runs in. A callback call is an effect appended to an outbox, so that
what was sent, cancelled and persisted can be read off a step. The host answers
each order by its basket id, and every order carries a fresh basket id, so the
answers are arbitrary. The empty string is the absent basket id, as in the source.

Times are nanoseconds of the steady clock with zero for the unset time point.
-/
namespace RithmicEngine

inductive PosState
  | flat
  | pendingEntry
  | long
  | short
  | pendingExit
  deriving DecidableEq, Repr

/-- The open position record. -/
structure Position where
  state : PosState := .flat
  direction : OrbSignal := .none
  basketIdEntry : String := ""
  basketIdExit : String := ""
  basketIdStop : String := ""
  entryPrice : ℚ := 0
  exitPrice : ℚ := 0
  slPrice : ℚ := 0
  triggerPrice : ℚ := 0
  fillPriceActual : ℚ := 0
  mfe : ℚ := 0
  mae : ℚ := 0
  qty : Int := 1
  beTriggered : Bool := false
  beSlPrice : ℚ := 0
  trailingActive : Bool := false
  fillTime : Int := 0
  exitReason : String := ""
  pnlPoints : ℚ := 0
  pnlUsd : ℚ := 0
  deriving DecidableEq, Repr

/-- The state an open position has in its direction. -/
def heldState (direction : OrbSignal) : PosState :=
  if direction = .buy then .long else .short

inductive OrderType
  | limit
  | stopMarket
  deriving DecidableEq, Repr

/-- The arguments of the order callback. -/
structure OrderRequest where
  basket : String
  symbol : String
  exchange : String
  qty : Int
  orderType : OrderType
  isBuy : Bool
  price : ℚ
  userTag : String
  deriving DecidableEq, Repr

/-- Which code path sent an order. The source does not carry it: it is read off
the call site, and an unwind names the order whose fill it answers. -/
inductive OrderRole
  | entry
  | stop
  | exit
  | unwind (fired : String)
  deriving DecidableEq, Repr

/-- What the order manager does to the outside: its callback calls, and the log
line with which the checks of a fill outside a position begin. -/
inductive Effect
  | order (role : OrderRole) (request : OrderRequest) (accepted : Bool)
  | cancel (id : String)
  | persist (basket : String) (wasBuyStop : Bool)
  | remove (basket : String)
  | persistServerId (client server : String)
  | flatFill (basket : String)
  deriving DecidableEq, Repr

/-- The configuration, the callbacks and the clock behind basket ids. An absent
order callback is `none`; a present one answers whether the send succeeded. -/
structure Host where
  cfg : OrbConfig := {}
  orderCb : Option (String → Bool) := none
  cancelCb : Bool := false
  persistCb : Bool := false
  removeCb : Bool := false
  persistServerCb : Bool := false
  epochMs : Nat → Nat := fun _ => 0

namespace Host

/-- The basket id of the order with this sequence number. -/
def basketId (host : Host) (seq : Nat) : String :=
  host.cfg.symbol ++ "-" ++ toString (host.epochMs seq) ++ "-" ++ toString seq

def persistNotice (host : Host) (basket : String) (wasBuyStop : Bool) : List Effect :=
  if host.persistCb then [.persist basket wasBuyStop] else []

def removeNotice (host : Host) (basket : String) : List Effect :=
  if host.removeCb then [.remove basket] else []

def persistServerNotice (host : Host) (client server : String) : List Effect :=
  if host.persistServerCb then [.persistServerId client server] else []

def cancelNotice (host : Host) (id : String) : List Effect :=
  if host.cancelCb then [.cancel id] else []

/-- The order leaves the process and the callbacks that protect it are set. -/
structure Live (host : Host) : Prop where
  sends : host.cfg.dryRun = false
  orders : host.orderCb.isSome = true
  cancels : host.cancelCb = true

/-- A live host whose exchange takes every order. -/
def accepting : Host where
  orderCb := some (fun _ => true)
  cancelCb := true
  persistCb := true
  removeCb := true
  persistServerCb := true

theorem accepting_live : accepting.Live := ⟨rfl, rfl, rfl⟩

/-- The answer of the order callback; an absent callback answers nothing. -/
def accepts (host : Host) (basket : String) : Bool :=
  match host.orderCb with
  | none => false
  | some answer => answer basket

theorem orderCb_of_live {host : Host} (live : host.Live) :
    host.orderCb = some host.accepts := by
  obtain ⟨answer, set⟩ := Option.isSome_iff_exists.mp live.orders
  rw [set]
  congr 1
  funext basket
  simp only [accepts, set]

/-- No digit of a sequence number is a hyphen. -/
theorem hyphen_notMem_digits (n : Nat) : '-' ∉ (toString n).toList := by
  intro inside
  have digit : ('-' : Char).isDigit = true := by
    rw [Nat.toString_eq_ofList_toDigits, String.toList_ofList] at inside
    exact Nat.isDigit_of_mem_toDigits (by decide) (by decide) inside
  exact absurd digit (by decide)

/-- A hyphen-free suffix after the last hyphen determines itself. -/
theorem suffix_of_hyphen (left right : List Char) {tail other : List Char}
    (free : '-' ∉ tail) (otherFree : '-' ∉ other)
    (same : left ++ '-' :: tail = right ++ '-' :: other) : tail = other := by
  induction left generalizing right with
  | nil =>
    cases right with
    | nil => simpa using same
    | cons head rest =>
      simp only [List.nil_append, List.cons_append, List.cons.injEq] at same
      exact absurd (same.2 ▸ by simp : '-' ∈ tail) free
  | cons head rest ih =>
    cases right with
    | nil =>
      simp only [List.nil_append, List.cons_append, List.cons.injEq] at same
      exact absurd (same.2 ▸ by simp : '-' ∈ other) otherFree
    | cons head' rest' =>
      simp only [List.cons_append, List.cons.injEq] at same
      exact ih rest' same.2

/-- Decimal numerals determine their number. -/
theorem toString_injective {m n : Nat} (same : toString m = toString n) : m = n := by
  rw [Nat.toString_eq_ofList_toDigits, Nat.toString_eq_ofList_toDigits] at same
  have digits : Nat.toDigits 10 m = Nat.toDigits 10 n := by
    have lists := congrArg String.toList same
    simpa only [String.toList_ofList] using lists
  have values := congrArg (fun digits => Nat.ofDigitChars 10 digits 0) digits
  simpa only [Nat.ofDigitChars_ten_toDigits] using values

/-- Orders of different sequence numbers have different basket ids, whatever the
clock read. -/
theorem basketId_injective (host : Host) {m n : Nat}
    (same : host.basketId m = host.basketId n) : m = n := by
  have lists := congrArg String.toList same
  simp only [basketId, String.toList_append] at lists
  have hyphen : "-".toList = ['-'] := by decide
  rw [hyphen] at lists
  have tails : (toString m).toList = (toString n).toList := by
    refine suffix_of_hyphen
      (host.cfg.symbol.toList ++ ['-'] ++ (toString (host.epochMs m)).toList)
      (host.cfg.symbol.toList ++ ['-'] ++ (toString (host.epochMs n)).toList)
      (hyphen_notMem_digits m) (hyphen_notMem_digits n) ?_
    simpa only [List.append_assoc, List.singleton_append] using lists
  exact toString_injective (String.toList_injective tails)

/-- A basket id is never the empty string. -/
theorem basketId_ne_empty (host : Host) (n : Nat) : host.basketId n ≠ "" := by
  intro empty
  have lists := congrArg String.toList empty
  simp only [basketId, String.toList_append] at lists
  have hyphen : "-".toList = ['-'] := by decide
  rw [hyphen] at lists
  simp at lists

end Host

end RithmicEngine
