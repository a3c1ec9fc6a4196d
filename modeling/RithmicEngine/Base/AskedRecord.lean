import Mathlib.Data.List.Induction
import RithmicEngine.Base.Runs
import RithmicEngine.Base.Table
/-!
# A bounded record of what was asked about

A record keeps, for each id, the largest quantity it was asked about. From time to time a
round is closed; a record that then holds more rows than a bound is emptied. So a
quantity is on record exactly when the id was asked about with at least that quantity
and no round has been closed over the bound since.
-/
universe u

/-- What happens to a record. -/
inductive AskedRecord.Event (α : Type u)
  | asked (id : α) (qty : Int)
  | closed
  deriving DecidableEq

namespace AskedRecord

variable {α : Type u} [DecidableEq α]

/-- The record after a question: the quantity of an id never falls. -/
def ask (id : α) (qty : Int) (record : Table α Int) : Table α Int :=
  record.insert id (max ((record.lookup id).getD 0) qty)

/-- The record after a round was closed. -/
def pruned (bound : Nat) (record : Table α Int) : Table α Int :=
  if record.entries.length > bound then ∅ else record

def note (bound : Nat) (record : Table α Int) : Event α → Table α Int
  | .asked id qty => ask id qty record
  | .closed => pruned bound record

/-- The record of a history, from the empty one. -/
def ofHistory (bound : Nat) (events : List (Event α)) : Table α Int :=
  Runs.run (note bound) ∅ events

/-- The id is on record with at least the quantity. -/
def Holds (record : Table α Int) (id : α) (qty : Int) : Prop :=
  ∃ held, record.lookup id = some held ∧ qty ≤ held

/-- The event leaves the record as it is, or adds to it. -/
def Keeps (bound : Nat) (record : Table α Int) (event : Event α) : Prop :=
  event = .closed → record.entries.length ≤ bound

instance (bound : Nat) (record : Table α Int) (event : Event α) :
    Decidable (Keeps bound record event) :=
  inferInstanceAs (Decidable (_ → _))

/-- The id was asked about with at least the quantity (any question will do for a
quantity that is not positive), and no round was closed over the bound since. -/
def Remembered (bound : Nat) (events : List (Event α)) (id : α) (qty : Int) : Prop :=
  ∃ before asked after, events = before ++ .asked id asked :: after ∧ qty ≤ max asked 0 ∧
    Runs.Along (note bound) (Keeps bound) (ofHistory bound (before ++ [.asked id asked])) after

variable {bound : Nat}

@[simp] theorem lookup_ask (id other : α) (qty : Int) (record : Table α Int) :
    (ask id qty record).lookup other =
      if other = id then some (max ((record.lookup id).getD 0) qty) else record.lookup other :=
  Table.lookup_insert record id other _

variable (events : List (Event α)) (id : α) (qty : Int)

/-- Asking twice about the same is asking once. -/
theorem ask_ask (record : Table α Int) : ask id qty (ask id qty record) = ask id qty record := by
  have settled : (max (max ((record.lookup id).getD 0) qty) qty) =
      max ((record.lookup id).getD 0) qty := by omega
  simp only [ask, Table.lookup_insert, ↓reduceIte, Option.getD_some, settled]
  exact AList.insert_insert record

theorem ofHistory_append (later : List (Event α)) :
    ofHistory bound (events ++ later) = Runs.run (note bound) (ofHistory bound events) later :=
  Runs.run_append (note bound) ∅ events later

/-- No quantity on record is negative. -/
theorem held_nonneg {id : α} {held : Int} (found : (ofHistory bound events).lookup id = some held) :
    0 ≤ held := by
  induction events using List.reverseRecOn generalizing id held with
  | nil =>
    have none : (ofHistory bound ([] : List (Event α))).lookup id = none := Table.lookup_empty id
    exact absurd (none.symm.trans found) (by simp)
  | append_singleton events event ih =>
    rw [ofHistory_append, Runs.run_cons, Runs.run_nil] at found
    cases event with
    | asked about qty =>
      simp only [note, lookup_ask] at found
      split at found
      next same =>
        have before : 0 ≤ ((ofHistory bound events).lookup about).getD 0 := by
          cases row : (ofHistory bound events).lookup about with
          | none => exact Int.le_refl 0
          | some value => exact ih row
        have isMax := Option.some.inj found
        omega
      next => exact ih found
    | closed =>
      simp only [note, pruned] at found
      split at found
      · exact absurd ((Table.lookup_empty id).symm.trans found) (by simp)
      · exact ih found

/-- After a question the record holds what it held, and what was asked. -/
theorem holds_ask_iff {record : Table α Int} (about id : α) (asked qty : Int)
    (nonneg : ∀ held, record.lookup about = some held → 0 ≤ held) :
    Holds (ask about asked record) id qty ↔
      Holds record id qty ∨ (about = id ∧ qty ≤ max asked 0) := by
  simp only [Holds, lookup_ask]
  by_cases same : id = about
  · subst same
    simp only [↓reduceIte, Option.some.injEq, exists_eq_left', true_and]
    cases row : record.lookup id with
    | none =>
      simp only [Option.getD_none, reduceCtorEq, false_and, exists_false, false_or]
      omega
    | some value =>
      have := nonneg value row
      simp only [Option.getD_some, Option.some.injEq, exists_eq_left']
      omega
  · simp [same, Ne.symm same]

/-- A pruned record holds what it held, unless it was full. -/
theorem holds_pruned_iff (record : Table α Int) (id : α) (qty : Int) :
    Holds (pruned bound record) id qty ↔ record.entries.length ≤ bound ∧ Holds record id qty := by
  simp only [pruned]
  split
  next beyond =>
    have none : ¬Holds (∅ : Table α Int) id qty := by
      rintro ⟨held, found, -⟩
      exact absurd ((Table.lookup_empty id).symm.trans found) (by simp)
    simp [none, Nat.not_le.mpr beyond]
  next within => simp [Nat.not_lt.mp within]

/-- Nothing is remembered of the empty history. -/
theorem not_remembered_nil : ¬Remembered bound [] id qty := by
  rintro ⟨before, asked, after, split, -⟩
  exact absurd split (by simp)

/-- One more event: it is the question itself, or it leaves the earlier one on record. -/
theorem remembered_append_iff (event : Event α) (id : α) (qty : Int) :
    Remembered bound (events ++ [event]) id qty ↔
      (Remembered bound events id qty ∧ Keeps bound (ofHistory bound events) event) ∨
        ∃ asked, event = .asked id asked ∧ qty ≤ max asked 0 := by
  constructor
  · rintro ⟨before, asked, after, split, enough, along⟩
    rcases List.eq_nil_or_concat after with rfl | ⟨earlier, last, rfl⟩
    · obtain ⟨rfl, isLast⟩ := List.append_inj' split rfl
      exact Or.inr ⟨asked, List.singleton_inj.mp isLast, enough⟩
    · rw [List.concat_eq_append, ← List.cons_append, ← List.append_assoc] at split
      obtain ⟨rfl, isLast⟩ := List.append_inj' split rfl
      obtain rfl := List.singleton_inj.mp isLast
      rw [List.concat_eq_append, Runs.along_append] at along
      refine Or.inl ⟨⟨before, asked, earlier, rfl, enough, along.1⟩, ?_⟩
      have here := along.2.1
      rwa [← ofHistory_append, List.append_assoc] at here
  · rintro (⟨⟨before, asked, after, rfl, enough, along⟩, keeps⟩ | ⟨asked, rfl, enough⟩)
    · refine ⟨before, asked, after ++ [event], ?_, enough, ?_⟩
      · rw [List.append_assoc, List.cons_append]
      · refine (Runs.along_append _ _ _ _ _).mpr ⟨along, ?_, trivial⟩
        rwa [← ofHistory_append, List.append_assoc]
    · exact ⟨events, asked, [], rfl, enough, trivial⟩

/-- What is on record is what is remembered. -/
theorem holds_iff_remembered :
    Holds (ofHistory bound events) id qty ↔ Remembered bound events id qty := by
  induction events using List.reverseRecOn with
  | nil =>
    refine iff_of_false ?_ (not_remembered_nil id qty)
    rintro ⟨held, found, -⟩
    exact absurd ((Table.lookup_empty id).symm.trans found) (by simp)
  | append_singleton events event ih =>
    rw [remembered_append_iff, ofHistory_append, Runs.run_cons, Runs.run_nil, ← ih]
    cases event with
    | asked about asked =>
      rw [note, holds_ask_iff about id asked qty fun held => held_nonneg events]
      simp only [Keeps, reduceCtorEq, false_implies, and_true, Event.asked.injEq]
      refine or_congr Iff.rfl ?_
      constructor
      · rintro ⟨rfl, enough⟩
        exact ⟨asked, ⟨rfl, rfl⟩, enough⟩
      · rintro ⟨_, ⟨rfl, rfl⟩, enough⟩
        exact ⟨rfl, enough⟩
    | closed =>
      rw [note, holds_pruned_iff]
      simp [Keeps, and_comm]

end AskedRecord
