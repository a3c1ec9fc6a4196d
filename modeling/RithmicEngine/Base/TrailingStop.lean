import Mathlib.Algebra.Order.Group.Abs
/-!
# Trailing stops with a lagging working copy

A leg is an open position with a protective stop. The stop moves to break-even once
the leg has been far enough in profit, and from then on follows the price at a step's
distance, nearer the market only. The level in memory moves with every improvement;
the working copy follows it when the two are a whole step apart, up to a slack, and
on the break-even move. The step may change from one price to the next.

Prices come from any ordered additive group. A level is passed through a snapping
function before it is taken.
-/
namespace TrailingStop

universe u

structure Rules (α : Type u) where
  trigger : α
  offset : α
  slack : α

structure Leg (α : Type u) where
  long : Bool
  entry : α
  mfe : α
  moved : Bool
  trailing : Bool
  level : α
  working : α

variable {α : Type u} [AddCommGroup α] [LinearOrder α]

namespace Leg

/-- The price shifted to the leg's profitable side. -/
def beyond (price distance : α) (leg : Leg α) : α :=
  if leg.long then price + distance else price - distance

/-- The price shifted to the leg's losing side. -/
def behind (price distance : α) (leg : Leg α) : α :=
  if leg.long then price - distance else price + distance

/-- A level improves the stop when it lies nearer the market. -/
def improves (level : α) (leg : Leg α) : Bool :=
  if leg.long then decide (level > leg.level) else decide (level < leg.level)

def track (price : α) (leg : Leg α) : Leg α :=
  let gain := if leg.long then price - leg.entry else leg.entry - price
  { leg with mfe := if gain > leg.mfe then gain else leg.mfe }

variable (rules : Rules α) (snap : α → α) (step : α)

/-- The working copy is a step or more away from the level. -/
def Due (leg : Leg α) : Prop := |leg.level - leg.working| ≥ step - rules.slack
deriving Decidable

def resync (leg : Leg α) : Leg α :=
  if Due rules step leg then { leg with working := leg.level } else leg

def breakEvenLevel (leg : Leg α) : α := snap (leg.beyond leg.entry rules.offset)

/-- The break-even move, taken once; the working copy goes along. -/
def breakEven (leg : Leg α) : Leg α :=
  if leg.moved = false ∧ leg.mfe ≥ rules.trigger then
    let be := breakEvenLevel rules snap leg
    if leg.improves be then { leg with moved := true, level := be, working := be }
    else { leg with moved := true }
  else leg

def arm (elapsed : Bool) (leg : Leg α) : Leg α :=
  if leg.trailing = false ∧ elapsed ∧ leg.mfe ≥ rules.trigger then { leg with trailing := true }
  else leg

def trailLevel (price : α) (leg : Leg α) : α := snap (leg.behind price step)

def trail (price : α) (leg : Leg α) : Leg α :=
  if leg.trailing ∧ leg.improves (trailLevel snap step price leg) then
    resync rules step { leg with level := trailLevel snap step price leg }
  else leg

/-- What one price does to a leg whose stop it did not reach. -/
def advance (elapsed : Bool) (price : α) (leg : Leg α) : Leg α :=
  trail rules snap step price (arm rules elapsed (breakEven rules snap (leg.track price)))

/-- The working copy never runs ahead of the level, lags it only under a trail, and no
trail runs before the break-even move was considered. -/
structure Sound (leg : Leg α) : Prop where
  lags : if leg.long then leg.working ≤ leg.level else leg.level ≤ leg.working
  lagging : leg.level ≠ leg.working → leg.trailing = true
  considered : leg.trailing = true → leg.moved = true

/-- The price moves the level by a whole step. -/
def Strides (price : α) (leg : Leg α) : Prop :=
  leg.trailing = true ∧ leg.improves (trailLevel snap step price leg) = true ∧
    |trailLevel snap step price leg - leg.level| ≥ step - rules.slack

/-- No lag comes due, unless the price itself moves the level by a whole step. -/
def Paced (price : α) (leg : Leg α) : Prop :=
  leg.level = leg.working ∨ ¬ Due rules step leg ∨ Strides rules snap step price leg

instance decidablePaced (price : α) (leg : Leg α) : Decidable (Paced rules snap step price leg) :=
  inferInstanceAs (Decidable (_ ∨ ¬ _ ∨ _ ∧ _ ∧ _))

/-- The working copy is at the level or less than a step away from it. -/
def Quiet (leg : Leg α) : Prop := leg.level = leg.working ∨ ¬Due rules step leg

/-! ## What an operation leaves alone -/

/-- Two legs are the same position, at the same entry. -/
structure SamePosition (leg leg' : Leg α) : Prop where
  long : leg'.long = leg.long
  entry : leg'.entry = leg.entry

theorem resync_same (leg : Leg α) : SamePosition leg (leg.resync rules step) := by
  rw [resync]
  split
  · exact ⟨rfl, rfl⟩
  · exact ⟨rfl, rfl⟩

theorem breakEven_same (leg : Leg α) : SamePosition leg (leg.breakEven rules snap) := by
  simp only [breakEven]
  split
  · split
    · exact ⟨rfl, rfl⟩
    · exact ⟨rfl, rfl⟩
  · exact ⟨rfl, rfl⟩

variable {leg : Leg α} {level : α} (elapsed : Bool) (price : α)

omit [AddCommGroup α] in
theorem arm_same (leg : Leg α) : SamePosition leg (leg.arm rules elapsed) := by
  rw [arm]
  split
  · exact ⟨rfl, rfl⟩
  · exact ⟨rfl, rfl⟩

theorem trail_same (leg : Leg α) : SamePosition leg (leg.trail rules snap step price) := by
  rw [trail]
  split
  · have same := resync_same rules step { leg with level := trailLevel snap step price leg }
    exact ⟨same.long, same.entry⟩
  · exact ⟨rfl, rfl⟩

/-- The leg before its trail, at a price. -/
theorem armed_same (leg : Leg α) :
    SamePosition leg (arm rules elapsed (breakEven rules snap (leg.track price))) := by
  have moved := breakEven_same rules snap (leg.track price)
  have armed := arm_same rules elapsed (breakEven rules snap (leg.track price))
  exact ⟨armed.long.trans moved.long, armed.entry.trans moved.entry⟩

theorem advance_same (leg : Leg α) :
    SamePosition leg (leg.advance rules snap step elapsed price) := by
  have armed := armed_same rules snap elapsed price leg
  have trailed := trail_same rules snap step price
    (arm rules elapsed (breakEven rules snap (leg.track price)))
  exact ⟨trailed.long.trans armed.long, trailed.entry.trans armed.entry⟩

/-- Snapping functions that agree on the break-even level and the trail's level give
the same leg. -/
theorem advance_congr (snap' : α → α) (elapsed : Bool) (price : α) (leg : Leg α)
    (even : snap (leg.beyond leg.entry rules.offset) = snap' (leg.beyond leg.entry rules.offset))
    (behind : snap (leg.behind price step) = snap' (leg.behind price step)) :
    leg.advance rules snap step elapsed price = leg.advance rules snap' step elapsed price := by
  have moved : (leg.track price).breakEven rules snap =
    (leg.track price).breakEven rules snap' := by
    have level : breakEvenLevel rules snap (leg.track price) =
        breakEvenLevel rules snap' (leg.track price) := even
    simp only [breakEven, level]
  have armed := armed_same rules snap' elapsed price leg
  rw [advance, advance, moved]
  generalize arm rules elapsed ((leg.track price).breakEven rules snap') = before at armed ⊢
  have level : trailLevel snap step price before = trailLevel snap' step price before := by
    simp only [trailLevel, Leg.behind, armed.long]
    exact behind
  simp only [trail, level]

/-! ## The lag -/

variable {rules} {snap} {step}

theorem Sound.resync (sound : leg.Sound) : (leg.resync rules step).Sound := by
  rw [Leg.resync]
  split
  · refine ⟨?_, fun apart => absurd rfl apart, sound.considered⟩
    split
    · exact le_rfl
    · exact le_rfl
  · exact sound

omit [AddCommGroup α] in
/-- An improving level keeps the working copy behind. -/
theorem Sound.behind (sound : leg.Sound) (improves : leg.improves level = true) :
    if leg.long then leg.working ≤ level else level ≤ leg.working := by
  have lags := sound.lags
  rw [Leg.improves] at improves
  split at improves
  · simp_all only [↓reduceIte, gt_iff_lt, decide_eq_true_eq]
    exact lags.trans improves.le
  · simp_all only [Bool.false_eq_true, ↓reduceIte, decide_eq_true_eq]
    exact improves.le.trans lags

theorem Sound.breakEven (sound : leg.Sound) : (leg.breakEven rules snap).Sound := by
  simp only [Leg.breakEven]
  split
  · split
    · refine ⟨?_, fun apart => absurd rfl apart, fun _ => rfl⟩
      split
      · exact le_rfl
      · exact le_rfl
    · exact ⟨sound.lags, sound.lagging, fun _ => rfl⟩
  · exact sound

/-- Once the trigger was reached the break-even move was considered. -/
theorem breakEven_moved (reached : (leg.breakEven rules snap).mfe ≥ rules.trigger) :
    (leg.breakEven rules snap).moved = true := by
  by_cases moves : leg.moved = false ∧ leg.mfe ≥ rules.trigger
  · simp only [Leg.breakEven, moves, and_self, ↓reduceIte]
    split
    · rfl
    · rfl
  · simp only [Leg.breakEven, moves, ↓reduceIte] at reached ⊢
    by_contra unmoved
    exact moves ⟨Bool.eq_false_iff.mpr unmoved, reached⟩

omit [AddCommGroup α] in
theorem Sound.arm (sound : leg.Sound) (elapsed : Bool)
    (considered : leg.mfe ≥ rules.trigger → leg.moved = true) : (leg.arm rules elapsed).Sound := by
  rw [Leg.arm]
  split
  next arms => exact ⟨sound.lags, fun _ => rfl, fun _ => considered arms.2.2⟩
  next => exact sound

theorem Sound.trail (sound : leg.Sound) (price : α) : (leg.trail rules snap step price).Sound := by
  rw [Leg.trail]
  split
  next trails =>
    apply Sound.resync
    exact ⟨sound.behind trails.2, fun _ => trails.1, sound.considered⟩
  next => exact sound

/-- A price keeps a sound leg sound. -/
theorem Sound.advance (sound : leg.Sound) (elapsed : Bool) (price : α) :
    (leg.advance rules snap step elapsed price).Sound := by
  have tracked : (leg.track price).Sound := ⟨sound.lags, sound.lagging, sound.considered⟩
  apply Sound.trail
  exact tracked.breakEven.arm elapsed breakEven_moved

/-- A price at which the trail already runs is left to the trail. -/
theorem advance_of_trailing (sound : leg.Sound) (trailing : leg.trailing = true) (elapsed : Bool)
    (price : α) :
    leg.advance rules snap step elapsed price = (leg.track price).trail rules snap step price := by
  have moved : (leg.track price).moved = true := sound.considered trailing
  have runs : (leg.track price).trailing = true := trailing
  rw [Leg.advance, Leg.breakEven, if_neg (by simp [moved]), Leg.arm, if_neg (by simp [runs])]

variable [IsOrderedAddMonoid α]

/-- An improving level is further from the working copy than from the level it
improves, and than that level is. -/
theorem Sound.widens (sound : leg.Sound) (improves : leg.improves level = true) :
    |level - leg.level| ≤ |level - leg.working| ∧
      |leg.level - leg.working| ≤ |level - leg.working| := by
  have lags := sound.lags
  rw [Leg.improves] at improves
  split at improves
  next long =>
    rw [if_pos long] at lags
    have above : leg.level < level := by simpa only [gt_iff_lt, decide_eq_true_eq] using improves
    rw [abs_of_pos (sub_pos.mpr above), abs_of_nonneg (sub_nonneg.mpr (lags.trans above.le)),
      abs_of_nonneg (sub_nonneg.mpr lags)]
    exact ⟨sub_le_sub_left lags level, sub_le_sub_right above.le leg.working⟩
  next short =>
    rw [if_neg short] at lags
    have below : level < leg.level := by simpa only [decide_eq_true_eq] using improves
    rw [abs_sub_comm level leg.level, abs_sub_comm level leg.working,
      abs_sub_comm leg.level leg.working,
      abs_of_pos (sub_pos.mpr below), abs_of_nonneg (sub_nonneg.mpr (below.le.trans lags)),
      abs_of_nonneg (sub_nonneg.mpr lags)]
    exact ⟨sub_le_sub_right lags level, sub_le_sub_left below.le leg.working⟩

omit [IsOrderedAddMonoid α] in
theorem resync_of_level (level : leg.level = leg.working) : leg.resync rules step = leg := by
  obtain ⟨long, entry, mfe, moved, trailing, at_, working⟩ := leg
  simp only at level
  subst level
  simp [Leg.resync]

omit [IsOrderedAddMonoid α] in
theorem Quiet.paced (quiet : leg.Quiet rules step) (price : α) :
    leg.Paced rules snap step price := quiet.imp_right Or.inl

/-- A step that does not shrink leaves the working copy less than a step away. -/
theorem Quiet.wider {step' : α} (quiet : leg.Quiet rules step) (wider : step ≤ step') :
    leg.Quiet rules step' :=
  quiet.imp_right fun early due => early ((sub_le_sub_right wider rules.slack).trans due)

omit [IsOrderedAddMonoid α] in
theorem resync_quiet (leg : Leg α) : (leg.resync rules step).Quiet rules step := by
  by_cases due : leg.Due rules step
  · rw [resync, if_pos due]
    exact Or.inl rfl
  · rw [resync, if_neg due]
    exact Or.inr due

omit [IsOrderedAddMonoid α] in
/-- A price leaves the working copy less than its own step away. -/
theorem Quiet.advance (quiet : leg.Quiet rules step) (elapsed : Bool) (price : α) :
    (leg.advance rules snap step elapsed price).Quiet rules step := by
  have moved : ((leg.track price).breakEven rules snap).Quiet rules step := by
    simp only [breakEven]
    split
    · split
      · exact Or.inl rfl
      · exact quiet
    · exact quiet
  have armed : (((leg.track price).breakEven rules snap).arm rules elapsed).Quiet rules step := by
    rw [arm]
    split_ifs
    · exact moved
    · exact moved
  rw [Leg.advance, trail]
  split_ifs
  · exact resync_quiet _
  · exact armed

omit [IsOrderedAddMonoid α] in
/-- A trail that improves by a step takes the working copy along. -/
theorem trail_of_wide (leg : Leg α) {price : α} (trailing : leg.trailing = true)
    (improves : leg.improves (trailLevel snap step price leg) = true)
    (wide : |trailLevel snap step price leg - leg.working| ≥ step - rules.slack) :
    leg.trail rules snap step price =
      { leg with
        level := trailLevel snap step price leg
        working := trailLevel snap step price leg } := by
  rw [Leg.trail, if_pos ⟨trailing, improves⟩]
  exact if_pos wide

omit [AddCommGroup α] [IsOrderedAddMonoid α] in
/-- An improving level is another level. -/
theorem improved_ne (improves : leg.improves level = true) : leg.level ≠ level := by
  rintro rfl
  simp only [Leg.improves, gt_iff_lt, lt_self_iff_false, decide_false, ite_self,
    Bool.false_eq_true] at improves

/-- A leg whose working copy catches up before the price is handled ends where the leg
that waits ends, as long as it keeps the pace. -/
theorem advance_resync (sound : leg.Sound) (elapsed : Bool) {price : α}
    (paced : leg.Paced rules snap step price) :
    (leg.resync rules step).advance rules snap step elapsed price =
      leg.advance rules snap step elapsed price := by
  by_cases level : leg.level = leg.working
  · rw [resync_of_level level]
  by_cases due : leg.Due rules step
  · obtain ⟨trailing, improves, strides⟩ :=
      (paced.resolve_left level).resolve_left (not_not.mpr due)
    have wide : |trailLevel snap step price leg - leg.working| ≥ step - rules.slack :=
      strides.trans (sound.widens improves).1
    have caught : leg.resync rules step = { leg with working := leg.level } := if_pos due
    have after : (leg.resync rules step).trailing = true := by rw [caught]; exact trailing
    rw [advance_of_trailing sound.resync after, advance_of_trailing sound trailing, caught]
    -- Both sides take the trail's level, a whole step from either working copy.
    have caughtUp := trail_of_wide (track price { leg with working := leg.level }) trailing
      improves strides
    have waited := trail_of_wide (leg.track price) trailing improves wide
    exact caughtUp.trans waited.symm
  · have waits : leg.resync rules step = leg := if_neg due
    rw [waits]

/-- A leg that does not keep the pace ends with another working copy than the leg that
waits. -/
theorem working_resync_ne (sound : leg.Sound) (elapsed : Bool) {price : α}
    (unpaced : ¬ leg.Paced rules snap step price) :
    ((leg.resync rules step).advance rules snap step elapsed price).working ≠
      (leg.advance rules snap step elapsed price).working := by
  obtain ⟨apart, due, short⟩ : leg.level ≠ leg.working ∧ leg.Due rules step ∧
      ¬ Strides rules snap step price leg := by
    simpa only [Leg.Paced, not_or, not_not] using unpaced
  have trailing : leg.trailing = true := sound.lagging apart
  have caught : leg.resync rules step = { leg with working := leg.level } := if_pos due
  have after : (leg.resync rules step).trailing = true := by rw [caught]; exact trailing
  rw [advance_of_trailing sound.resync after, advance_of_trailing sound trailing, caught]
  by_cases improves : leg.improves (trailLevel snap step price leg) = true
  · have close : ¬ |trailLevel snap step price leg - leg.level| ≥ step - rules.slack :=
      fun wide => short ⟨trailing, improves, wide⟩
    have wide : |trailLevel snap step price leg - leg.working| ≥ step - rules.slack :=
      le_trans due (sound.widens improves).2
    have waited : ((leg.track price).trail rules snap step price).working =
        trailLevel snap step price leg :=
      congrArg Leg.working (trail_of_wide (leg.track price) trailing improves wide)
    have stays : ((track price { leg with working := leg.level }).trail rules snap step
      price).working
        = leg.level := by
      rw [Leg.trail, if_pos ⟨trailing, improves⟩]
      exact congrArg Leg.working (if_neg close)
    rw [waited, stays]
    exact improved_ne improves
  · have idle (other : Leg α) (same : other.improves (trailLevel snap step price other) = false) :
        other.trail rules snap step price = other := by
      rw [Leg.trail, if_neg (by simp [same])]
    have still : leg.improves (trailLevel snap step price leg) = false :=
      Bool.eq_false_iff.mpr improves
    rw [idle (leg.track price) still, idle (track price { leg with working := leg.level }) still]
    exact apart

/-! ## Levels above zero -/

variable (rules snap step)

omit [IsOrderedAddMonoid α]

/-- The level and its working copy lie above zero. -/
def Positive (leg : Leg α) : Prop := 0 < leg.level ∧ 0 < leg.working

/-- A level that improves a positive one is positive, for a long leg in any case. -/
theorem improves_pos (positive : 0 < leg.level) (above : leg.long = false → 0 < level)
    (improves : leg.improves level = true) : 0 < level := by
  by_cases long : leg.long = true
  · simp only [Leg.improves, long, ↓reduceIte, gt_iff_lt, decide_eq_true_eq] at improves
    exact positive.trans improves
  · exact above (Bool.eq_false_iff.mpr long)

theorem Positive.resync (positive : leg.Positive) : (leg.resync rules step).Positive := by
  rw [Leg.resync]
  split
  · exact ⟨positive.1, positive.1⟩
  · exact positive

theorem Positive.breakEven (positive : leg.Positive)
    (above : leg.long = false → 0 < breakEvenLevel rules snap leg) :
    (leg.breakEven rules snap).Positive := by
  simp only [Leg.breakEven]
  split
  · split
    next improves =>
      have level := improves_pos positive.1 above improves
      exact ⟨level, level⟩
    next => exact positive
  · exact positive

theorem Positive.trail (positive : leg.Positive) (price : α)
    (above : leg.long = false → 0 < trailLevel snap step price leg) :
    (leg.trail rules snap step price).Positive := by
  rw [Leg.trail]
  split
  next trails =>
    apply Positive.resync
    exact ⟨improves_pos positive.1 above trails.2, positive.2⟩
  next => exact positive

/-- A price keeps the stop above zero where the break-even level and the trail's level
of a short leg are. -/
theorem Positive.advance (positive : leg.Positive) (elapsed : Bool) (price : α)
    (even : leg.long = false → 0 < snap (leg.beyond leg.entry rules.offset))
    (behind : leg.long = false → 0 < snap (leg.behind price step)) :
    (leg.advance rules snap step elapsed price).Positive := by
  have same := armed_same rules snap elapsed price leg
  have moved : (Leg.breakEven rules snap (leg.track price)).Positive := by
    have tracked : (leg.track price).Positive := positive
    exact tracked.breakEven rules snap even
  have armed : (arm rules elapsed (Leg.breakEven rules snap (leg.track price))).Positive := by
    rw [Leg.arm]
    split
    · exact moved
    · exact moved
  apply armed.trail
  intro short
  rw [same.long] at short
  simpa only [trailLevel, Leg.behind, same.long] using behind short

end Leg

end TrailingStop
