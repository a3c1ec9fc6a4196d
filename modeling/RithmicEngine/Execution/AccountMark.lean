import Mathlib.Logic.Function.Basic
import RithmicEngine.Base.Numerals
import RithmicEngine.Base.Runs
import RithmicEngine.Execution.SessionCycle
/-!
# The account's mark

The trailing drawdown is counted from the highest balance of the account. A session of an executor
reads the stored mark when it begins, raises its own by every balance the broker reports, and
writes it back when it rises; the row of the account keeps the greatest, in cents. The executors of
one account share the row, and so do the sessions before and after a restart. A dry run writes
nothing: to the row its writes are lost.
-/
namespace RithmicEngine

open Runs

/-- The mark of a session, and whether its last write was lost. -/
structure SessionMark where
  brokerHwm : ℚ
  lost : Bool := false
  deriving DecidableEq

/-- The row of the account, and the sessions that use it. -/
structure AccountMarks where
  stored : Option ℚ := none
  sessions : Nat → Option SessionMark := fun _ => none

/-- A session begins, with a database that answers or not, or a balance is reported to it; the
write that may follow is answered or not. -/
inductive MarkEvent
  | connect (session : Nat) (reachable : Bool)
  | report (session : Nat) (balance : ℚ) (written : Bool)

namespace AccountMarks

/-- The row after an upsert, which keeps the greater mark. -/
def setAccountHwm (hwm : ℚ) : Option ℚ → ℚ
  | none => Numerals.rounded 2 hwm
  | some high => max high (Numerals.rounded 2 hwm)

def getAccountHwm (reachable : Bool) (s : AccountMarks) : Option ℚ :=
  if reachable then s.stored else none

def step (startingBalance : ℚ) (s : AccountMarks) : MarkEvent → AccountMarks
  | .connect session reachable =>
    let brokerHwm := Notif.brokerHwm (s.getAccountHwm reachable) startingBalance none
    { s with sessions := Function.update s.sessions session (some { brokerHwm }) }
  | .report session balance written =>
    match s.sessions session with
    | none => s
    | some own =>
      let hwmNow := Notif.brokerHwm (some own.brokerHwm) startingBalance (some balance)
      if hwmNow > own.brokerHwm then
        { stored := if written then some (setAccountHwm hwmNow s.stored) else s.stored
          sessions := Function.update s.sessions session (some ⟨hwmNow, !written⟩) }
      else s

variable {startingBalance : ℚ}

/-- Cents lose at most half a cent. -/
theorem le_rounded (x : ℚ) : x ≤ Numerals.rounded 2 x + 1 / 200 := by
  have near (y : ℚ) (positive : 0 ≤ y) : |(Numerals.roundHalfEven y : ℚ) - y| ≤ 1 / 2 := by
    have below := Nat.floor_le positive
    have above := Nat.lt_floor_add_one y
    rw [abs_le]
    simp only [Numerals.roundHalfEven]
    split_ifs
    all_goals push_cast; constructor <;> linarith
  obtain ⟨low, high⟩ := abs_le.mp (near (|x| * 10 ^ 2) (by positivity))
  simp only [Numerals.rounded]
  split_ifs with negative
  · rw [abs_of_neg negative] at low high ⊢
    linarith
  · rw [abs_of_nonneg (not_lt.mp negative)] at low high ⊢
    linarith

/-- A mark that the row remembers, up to half a cent, unless its last write was lost. -/
def Known (startingBalance : ℚ) (stored : Option ℚ) (own : SessionMark) : Prop :=
  own.lost = false →
    own.brokerHwm ≤ startingBalance ∨ ∃ high, stored = some high ∧ own.brokerHwm ≤ high + 1 / 200

/-- The row holds at least so much. -/
def Holds (high : ℚ) (s : AccountMarks) : Prop := ∃ more, s.stored = some more ∧ high ≤ more

/-- No event makes the store forget the mark. -/
theorem Holds.step {high : ℚ} {s : AccountMarks} (holds : s.Holds high) (event : MarkEvent) :
    (step startingBalance s event).Holds high := by
  obtain ⟨more, stored, above⟩ := holds
  cases event with
  | connect session reachable => exact ⟨more, stored, above⟩
  | report session balance written =>
    unfold AccountMarks.step
    dsimp only
    split
    · exact ⟨more, stored, above⟩
    · split_ifs
      · rw [stored]
        exact ⟨_, rfl, above.trans (le_max_left _ _)⟩
      · exact ⟨more, stored, above⟩
      · exact ⟨more, stored, above⟩

/-- What a session knows of the mark stays known to the store. -/
theorem Known.step {s : AccountMarks} {own : SessionMark}
    (known : Known startingBalance s.stored own) (event : MarkEvent) :
    Known startingBalance (step startingBalance s event).stored own := by
  refine fun kept => (known kept).imp_right ?_
  rintro ⟨high, stored, close⟩
  obtain ⟨more, now, above⟩ :=
    @Holds.step startingBalance high s ⟨high, stored, le_refl high⟩ event
  exact ⟨more, now, by linarith⟩

/-- The row remembers the marks of the sessions. -/
def Remembers (startingBalance : ℚ) (s : AccountMarks) : Prop :=
  ∀ session own, s.sessions session = some own → Known startingBalance s.stored own

/-- The store remembers a session's new mark when it knows it, and the others as before. -/
theorem remembers_update {sessions : Nat → Option SessionMark} {stored : Option ℚ}
    {other : Nat} {new : SessionMark} (known : Known startingBalance stored new)
    (kept : ∀ session own, sessions session = some own → Known startingBalance stored own) :
    Remembers startingBalance ⟨stored, Function.update sessions other (some new)⟩ := by
  intro session own held
  dsimp only at held
  rw [Function.update_apply] at held
  split_ifs at held
  · rw [← Option.some.inj held]
    exact known
  · exact kept session own held

/-- One event keeps the row remembering the marks of the sessions. -/
theorem Remembers.step {s : AccountMarks} (remembers : Remembers startingBalance s)
    (event : MarkEvent) : Remembers startingBalance (step startingBalance s event) := by
  have kept (session : Nat) (own : SessionMark) (held : s.sessions session = some own) :=
    (remembers session own held).step event
  cases event with
  | connect other reachable =>
    refine remembers_update (fun _ => ?_) kept
    cases read : s.getAccountHwm reachable with
    | none => exact .inl (le_refl startingBalance)
    | some high =>
      unfold getAccountHwm at read
      split_ifs at read
      rcases le_total high startingBalance with below | above
      · exact .inl (max_le below (le_refl startingBalance))
      · refine .inr ⟨high, read, ?_⟩
        simp only [Notif.brokerHwm, max_eq_left above]
        linarith
  | report other balance written =>
    unfold AccountMarks.step at kept ⊢
    dsimp only at kept ⊢
    split
    · exact remembers
    next old held =>
      rw [held] at kept
      dsimp only at kept
      split_ifs at kept ⊢ with higher answered
      · -- the upsert was answered, so the row holds what was written or more
        refine remembers_update (fun _ => .inr ⟨_, rfl, (le_rounded _).trans ?_⟩) kept
        cases s.stored with
        | none => exact le_refl _
        | some high => exact add_le_add_left (le_max_right _ _) _
      · refine remembers_update (fun saved => absurd ?_ answered) kept
        rwa [Bool.not_eq_false'] at saved
      · exact remembers

end AccountMarks

end RithmicEngine
