import Mathlib.Data.Fintype.Sigma
import Mathlib.Data.Sign.Basic
/-!
# Standings and those who follow them

The standing of an account that holds one position at a time: what it holds, the entry
that waits to be filled, and the reversal that waits to close the position and to enter
against it. Its heading is the direction it will hold once nothing waits.

A follower sees none of this. It believes in a direction, and it is told of each leg
that closes; it then lets go of its belief, or, where it may turn, keeps a belief that
goes against the leg. A follower that believes in the heading does so after every move.
-/

structure Standing where
  held : SignType := 0
  waiting : SignType := 0
  turning : SignType := 0
  deriving DecidableEq

namespace Standing

/-- Nothing held and nothing waiting. -/
def rest : Standing := {}

def heading (s : Standing) : SignType :=
  if s.turning ≠ 0 then s.turning else if s.held ≠ 0 then s.held else s.waiting

/-- An entry waits only while nothing is held, and a reversal only against what is. -/
@[mk_iff]
structure Sound (s : Standing) : Prop where
  alone : s.held = 0 ∨ s.waiting = 0
  against : s.turning ≠ 0 → s.held = -s.turning

instance (s : Standing) : Decidable s.Sound :=
  decidable_of_iff' _ (sound_iff ..)

/-! ## What moves a standing -/

/-- What one look at the market does, with the legs that it closes: a waiting entry may
fill, the position may close, and a waiting reversal closes it and waits as an entry. -/
inductive Moved : Standing → List SignType → Standing → Prop
  | stay (s : Standing) : Moved s [] s
  | fill (dir : SignType) : Moved { waiting := dir } [] { held := dir }
  | close (dir : SignType) (some : dir ≠ 0) : Moved { held := dir } [dir] rest
  | fillAndClose (dir : SignType) (some : dir ≠ 0) : Moved { waiting := dir } [dir] rest
  | turn (dir : SignType) (some : dir ≠ 0) :
      Moved { held := -dir, turning := dir } [-dir] { waiting := dir }

/-- An order can be taken at rest, and against a position. -/
def Fits (dir : SignType) (s : Standing) : Prop :=
  s = rest ∨ (s.held ≠ 0 ∧ dir ≠ s.held)
deriving Decidable

/-- The standing once an order is taken. -/
def order (dir : SignType) (s : Standing) : Standing :=
  if s.held ≠ 0 then { s with turning := dir } else { s with waiting := dir }

/-- The legs that going flat at once closes. -/
def closing (s : Standing) : List SignType := if s.held = 0 then [] else [s.held]

theorem heading_rest : rest.heading = 0 := rfl

theorem rest_sound : rest.Sound := by decide

theorem eq_rest_iff (s : Standing) : s = rest ↔ s.held = 0 ∧ s.waiting = 0 ∧ s.turning = 0 := by
  constructor
  · rintro rfl
    exact ⟨rfl, rfl, rfl⟩
  · rintro ⟨held, waiting, turning⟩
    cases s
    subst held waiting turning
    rfl

/-- Only the standing at rest heads nowhere. -/
theorem heading_eq_zero_iff (s : Standing) : s.heading = 0 ↔ s = rest := by
  obtain ⟨held, waiting, turning⟩ := s
  revert held waiting turning
  decide

variable {s s' : Standing} {closed : List SignType} {dir : SignType}

/-- There is a position for a reversal to close. -/
theorem Sound.held_of_turning (sound : s.Sound) (turns : s.turning ≠ 0) : s.held ≠ 0 := by
  rw [sound.against turns]
  generalize s.turning = dir at turns
  revert dir
  decide

theorem heading_waiting (dir : SignType) : Standing.heading { waiting := dir } = dir := rfl

theorem heading_held (dir : SignType) : Standing.heading { held := dir } = dir := by
  revert dir
  decide

theorem Moved.sound (moved : Moved s closed s') (sound : s.Sound) : s'.Sound := by
  cases moved with
  | stay => exact sound
  | fill dir => exact ⟨Or.inr rfl, fun turning => absurd rfl turning⟩
  | close dir some => exact rest_sound
  | fillAndClose dir some => exact rest_sound
  | turn dir some => exact ⟨Or.inl rfl, fun turning => absurd rfl turning⟩

/-- Nothing moves a standing at rest. -/
theorem Moved.of_rest (moved : Moved rest closed s') : closed = [] ∧ s' = rest := by
  generalize isRest : rest = s at moved
  cases moved with
  | stay => exact ⟨rfl, rfl⟩
  | fill dir =>
    obtain rfl : 0 = dir := congrArg waiting isRest
    exact ⟨rfl, rfl⟩
  | close dir some => exact absurd (congrArg held isRest).symm some
  | fillAndClose dir some => exact absurd (congrArg waiting isRest).symm some
  | turn dir some => exact absurd (congrArg turning isRest).symm some

/-- A position with nothing waiting stays or closes. -/
theorem Moved.of_held (moved : Moved { held := dir } closed s') :
    (closed = [] ∧ s' = { held := dir }) ∨ s' = rest := by
  generalize isHeld : ({ held := dir } : Standing) = s at moved
  cases moved with
  | stay => exact Or.inl ⟨rfl, rfl⟩
  | fill dir =>
    obtain rfl : 0 = dir := congrArg waiting isHeld
    exact Or.inr rfl
  | close dir some => exact Or.inr rfl
  | fillAndClose dir some => exact Or.inr rfl
  | turn dir some => exact absurd (congrArg turning isHeld).symm some

theorem order_sound (sound : s.Sound) (some : dir ≠ 0) (fits : s.Fits dir) :
    (s.order dir).Sound := by
  obtain ⟨held, waiting, turning⟩ := s
  revert held waiting turning dir
  decide

theorem order_heading (some : dir ≠ 0) (fits : s.Fits dir) : (s.order dir).heading = dir := by
  obtain ⟨held, waiting, turning⟩ := s
  revert held waiting turning dir
  decide

/-! ## Followers -/

/-- The belief after word of a closed leg. -/
def follow (turns : Bool) (belief closed : SignType) : SignType :=
  if turns = true ∧ closed ≠ 0 ∧ belief ≠ 0 ∧ closed ≠ belief then belief else 0

/-- A follower that cannot turn believes in nothing once a leg has closed. -/
theorem follow_plain (belief closed : SignType) : follow false belief closed = 0 := by
  simp [follow]

/-- A belief in the leg that closed is gone. -/
theorem follow_self (turns : Bool) (belief : SignType) : follow turns belief belief = 0 := by
  simp [follow]

/-- Word of a leg against the belief leaves it to a follower that may turn. -/
theorem follow_neg {belief : SignType} (some : belief ≠ 0) :
    follow true belief (-belief) = belief := by
  revert belief
  decide

/-- A follower that believes in the heading does so after a move; it need not be able
to turn while no reversal waits. -/
theorem Moved.follow (moved : Moved s closed s') {turns : Bool}
    (able : turns = true ∨ s.turning = 0) : closed.foldl (follow turns) s.heading = s'.heading := by
  cases moved with
  | stay => rfl
  | fill dir => exact (heading_waiting dir).trans (heading_held dir).symm
  | close dir some =>
    rw [List.foldl_cons, List.foldl_nil, heading_held, follow_self, heading_rest]
  | fillAndClose dir some =>
    rw [List.foldl_cons, List.foldl_nil, heading_waiting, follow_self, heading_rest]
  | turn dir some =>
    obtain rfl : turns = true := able.resolve_right some
    have heads : Standing.heading { held := -dir, turning := dir } = dir := if_pos some
    rw [List.foldl_cons, List.foldl_nil, heads, follow_neg some, heading_waiting]

/-- Going flat at once leaves no belief, where nothing waited. -/
theorem follow_closing (settled : s.waiting = 0 ∧ s.turning = 0) (turns : Bool) :
    s.closing.foldl (follow turns) s.heading = 0 := by
  obtain ⟨held, waiting, turning⟩ := s
  obtain ⟨rfl, rfl⟩ : waiting = 0 ∧ turning = 0 := settled
  revert held turns
  decide

end Standing
