import RithmicEngine.Paper.FairFills
import RithmicEngine.Paper.PaperSeat
import RithmicEngine.Paper.StopParity
/-!
# The stops of the paper brokers

A plain broker keeps a stop in memory and a working copy of it. Neither loosens while a
leg is held, the copy is never the tighter one, and a tick that works on the leg leaves
the two less than a trail step apart.

The bracket broker has one stop, and takes what its strategy supplies where that is
tighter. A stop that is not positive counts as none: a short leg that has none takes the
first stop that there is.
-/
namespace RithmicEngine

/-- The new stop of a position of this direction is no farther from the market. -/
def Tightens (dir : SignType) (old new : ℚ) : Prop := dir * old ≤ dir * new

theorem Tightens.refl (dir : SignType) (stop : ℚ) : Tightens dir stop stop := le_refl _

variable {old new : ℚ}

theorem Tightens.trans {dir : SignType} {next : ℚ} (first : Tightens dir old next)
    (second : Tightens dir next new) : Tightens dir old new := le_trans first second

theorem tightens_long : Tightens 1 old new ↔ old ≤ new := by
  simp [Tightens]

theorem tightens_short : Tightens (-1) old new ↔ new ≤ old := by
  simp [Tightens]

/-- A restart's resumed position starts a leg of its own. -/
def DeskEvent.Resumes : DeskEvent → Prop
  | .usual _ => False
  | .resume _ => True

/-- The stop that the strategy of a bracket broker supplies with a tick. -/
def DeskEvent.suppliedStop : DeskEvent → Option ℚ
  | .usual (.tick _ _ given) => given.stop
  | _ => none

/-! ## The plain broker -/

namespace PaperBroker

variable (desk : PaperDesk) (regime : Option SessionRegime)

/-- The working copy is never tighter than the stop in memory. -/
def Lags (b : PaperBroker) : Prop := Tightens b.posDir b.placedStop b.stopPrice

/-- The stops of a leg move apart by less than this. -/
def Within (step : ℚ) (b : PaperBroker) : Prop := |b.stopPrice - b.placedStop| < step

/-- A leg keeps its side, and neither of its stops loosens. -/
structure Ratchets (b b' : PaperBroker) : Prop where
  side : b'.posDir = b.posDir
  stop : Tightens b.posDir b.stopPrice b'.stopPrice
  placed : Tightens b.posDir b.placedStop b'.placedStop
  lags : b'.Lags

/-- What a step of managing a leg does to its stops. -/
structure Moves (b b' : PaperBroker) : Prop where
  ratchets : b.Lags → Ratchets b b'
  within : b.Within (desk.trailStep regime) → b'.Within (desk.trailStep regime)

variable {desk regime}

variable {b b' : PaperBroker} {level : ℚ}

theorem Ratchets.trans {b'' : PaperBroker} (first : Ratchets b b') (second : Ratchets b' b'') :
    Ratchets b b'' where
  side := second.side.trans first.side
  stop := first.stop.trans (first.side ▸ second.stop)
  placed := first.placed.trans (first.side ▸ second.placed)
  lags := second.lags

/-- The stops are as they were. -/
theorem Ratchets.of_same (lags : b.Lags) (side : b'.posDir = b.posDir)
    (stop : b'.stopPrice = b.stopPrice) (placed : b'.placedStop = b.placedStop) :
    Ratchets b b' where
  side := side
  stop := by rw [stop]; exact Tightens.refl _ _
  placed := by rw [placed]; exact Tightens.refl _ _
  lags := by rw [Lags, side, stop, placed]; exact lags

theorem Moves.trans {b'' : PaperBroker} (first : Moves desk regime b b')
    (second : Moves desk regime b' b'') : Moves desk regime b b'' where
  ratchets lags := (first.ratchets lags).trans (second.ratchets (first.ratchets lags).lags)
  within close := second.within (first.within close)

theorem Moves.of_same (side : b'.posDir = b.posDir) (stop : b'.stopPrice = b.stopPrice)
    (placed : b'.placedStop = b.placedStop) : Moves desk regime b b' where
  ratchets lags := Ratchets.of_same lags side stop placed
  within close := by rw [Within, stop, placed]; exact close

/-- A level that improves tightens. -/
theorem tightens_of_improves (nearer : improves level b = true) :
    Tightens b.posDir b.stopPrice level := by
  simp only [improves, Bool.or_eq_true, Bool.and_eq_true, decide_eq_true_eq] at nearer
  rcases nearer with ⟨long, above⟩ | ⟨short, below⟩
  · have dir : b.posDir = 1 := by
      revert long
      generalize b.posDir = dir
      cases dir with
      | zero => exact fun long => absurd long (lt_irrefl (0 : SignType))
      | neg => decide
      | pos => exact fun _ => rfl
    rw [dir, tightens_long]
    exact above.le
  · have dir : b.posDir = -1 := by
      revert short
      generalize b.posDir = dir
      cases dir with
      | zero => exact fun short => absurd short (lt_irrefl (0 : SignType))
      | neg => exact fun _ => rfl
      | pos => decide
    rw [dir, tightens_short]
    exact below.le

/-- The working copy follows, or stays where it is. -/
theorem syncPlacedStop_cases (force : Bool) (b : PaperBroker) :
    syncPlacedStop desk regime force b = { b with placedStop := b.stopPrice } ∨
      syncPlacedStop desk regime force b = b ∧ force = false ∧
        |b.stopPrice - b.placedStop| < desk.trailStep regime - 1 / 1000000000 := by
  rw [syncPlacedStop]
  split
  next => exact Or.inl rfl
  next waits =>
    split
    next => exact Or.inl rfl
    next close =>
      refine Or.inr ⟨rfl, ?_, not_le.mp close⟩
      exact Bool.eq_false_iff.mpr fun forced => waits (Or.inr forced)

theorem placed_ratchets (lags : b.Lags) : Ratchets b { b with placedStop := b.stopPrice } where
  side := rfl
  stop := Tightens.refl _ _
  placed := lags
  lags := Tightens.refl _ _

theorem syncPlacedStop_ratchets (force : Bool) {b : PaperBroker} (lags : b.Lags) :
    Ratchets b (syncPlacedStop desk regime force b) := by
  rcases syncPlacedStop_cases force b with follows | ⟨stays, _⟩
  · rw [follows]
    exact placed_ratchets lags
  · rw [stays]
    exact Ratchets.of_same lags rfl rfl rfl

theorem raised_ratchets {c : PaperBroker} (lags : b.Lags) (nearer : improves level b = true)
    (raised : c = { raiseStop level b with beMoved := c.beMoved }) : Ratchets b c := by
  rw [raised]
  exact {
    side := rfl
    stop := tightens_of_improves nearer
    placed := Tightens.refl _ _
    lags := lags.trans (tightens_of_improves nearer) }

/-- A synchronised leg is within a step, whatever it was before. -/
theorem syncPlacedStop_within (positive : 0 < desk.cfg.trailStep) (force : Bool)
    (b : PaperBroker) : (syncPlacedStop desk regime force b).Within (desk.trailStep regime) := by
  rcases syncPlacedStop_cases force b with follows | ⟨stays, _, close⟩
  · rw [follows, Within, sub_self, abs_zero]
    exact PaperDesk.trailStep_pos regime positive
  · rw [stays, Within]
    linarith

/-- A stop is raised, and its working copy with it where that is due. -/
theorem raised_moves (positive : 0 < desk.cfg.trailStep) (force : Bool) {c : PaperBroker}
    (nearer : improves level b = true)
    (raised : c = { raiseStop level b with beMoved := c.beMoved }) :
    Moves desk regime b (syncPlacedStop desk regime force c) where
  ratchets lags :=
    let first := raised_ratchets lags nearer raised
    first.trans (syncPlacedStop_ratchets force first.lags)
  within _ := syncPlacedStop_within positive force _

theorem bookBreakEven_moves (positive : 0 < desk.cfg.trailStep) (t : OrbTick) (b : PaperBroker) :
    Moves desk regime b (bookBreakEven desk regime t b) := by
  simp only [bookBreakEven]
  split
  · split
    next nearer => exact raised_moves positive true nearer rfl
    next => exact Moves.of_same rfl rfl rfl
  · exact Moves.of_same rfl rfl rfl

theorem breakEven_moves (positive : 0 < desk.cfg.trailStep) (b : PaperBroker) :
    Moves desk regime b (breakEven desk regime b) := by
  simp only [breakEven]
  split
  · split
    next nearer =>
      exact (raised_moves positive true nearer rfl).trans (Moves.of_same rfl rfl rfl)
    next => exact Moves.of_same rfl rfl rfl
  · exact Moves.of_same rfl rfl rfl

theorem armTrail_moves (tsUs : Int) (b : PaperBroker) :
    Moves desk regime b (armTrail desk tsUs b) := by
  rw [armTrail]
  split
  · exact Moves.of_same rfl rfl rfl
  · exact Moves.of_same rfl rfl rfl

theorem trail_moves (positive : 0 < desk.cfg.trailStep) (price : ℚ) (b : PaperBroker) :
    Moves desk regime b (trail desk regime price b) := by
  rw [trail]
  split
  next nearer => exact raised_moves positive false nearer.2 rfl
  next => exact Moves.of_same rfl rfl rfl

theorem markOpen_moves (price : ℚ) (b : PaperBroker) :
    Moves desk regime b (markOpen desk price b) := by
  simp only [markOpen, persistPosition]
  split
  · split
    · exact Moves.of_same rfl rfl rfl
    · exact Moves.of_same rfl rfl rfl
  · exact Moves.of_same rfl rfl rfl

/-- Managing a leg starts with its working copy. -/
theorem managed_stops (positive : 0 < desk.cfg.trailStep) (t : OrbTick) (lags : b.Lags) :
    Ratchets b (ratchet desk regime t
        (bookBreakEven desk regime t (syncPlacedStop desk regime false b))) ∧
      (ratchet desk regime t
        (bookBreakEven desk regime t (syncPlacedStop desk regime false b))).Within
          (desk.trailStep regime) := by
  have synced := @syncPlacedStop_ratchets desk regime false b lags
  have close := @syncPlacedStop_within desk regime positive false b
  have tracked (c : PaperBroker) : Moves desk regime c (trackExcursion t.price c) :=
    Moves.of_same rfl rfl rfl
  have moves := (bookBreakEven_moves positive t (syncPlacedStop desk regime false b)).trans
    ((tracked _).trans ((breakEven_moves positive _).trans ((armTrail_moves t.tsMicros _).trans
      ((trail_moves positive t.price _).trans (markOpen_moves t.price _)))))
  exact ⟨synced.trans (moves.ratchets synced.lags), moves.within close⟩

/-- A tick that leaves a leg open has kept its stops. -/
theorem Works.stops (positive : 0 < desk.cfg.trailStep) {t : OrbTick}
    (works : Works desk regime t b b') (lags : b.Lags) (open_ : b'.posDir ≠ 0) :
    Ratchets b b' ∧ b'.Within (desk.trailStep regime) := by
  cases works with
  | idle flat => exact absurd flat open_
  | @left held fill reason level text asks leaves =>
    obtain ⟨effects, after, _⟩ := exitPosition_effects desk fill t.tsMicros reason
      { b with placedStop := level, pendingExitReason := text }
    rw [after] at open_
    exact absurd rfl open_
  | kept held unhit => exact managed_stops positive t lags

/-- What an event leaves of a leg's stops. A leg keeps them tight while it is held; a tick
that works on it, once a waiting entry is filled, leaves the two less than the trail step
in force apart. -/
structure KeepsStops (desk : PaperDesk) (b : PaperBroker) (event : DeskEvent)
    (b' : PaperBroker) : Prop where
  held : ¬event.Resumes → b.posDir ≠ 0 → b'.posDir ≠ 0 → Ratchets b b'
  lags : b'.Lags
  worked : ∀ regime t given, event = .usual (.tick regime t given) → predates t b = false →
    b'.posDir ≠ 0 → Ratchets (fillPending desk regime t (seeTick t b)) b' ∧
      b'.Within (desk.trailStep regime)

theorem lags_of_flat (flat : b.posDir = 0) : b.Lags := by
  rw [Lags, Tightens, flat, SignType.coe_zero, zero_mul, zero_mul]

theorem exitPosition_flat (fill : ℚ) (tsUs : Int) (reason : String) (b : PaperBroker) :
    (exitPosition desk fill tsUs reason b).posDir = 0 := by
  obtain ⟨effects, after, _⟩ := exitPosition_effects desk fill tsUs reason b
  rw [after]

/-- A tick that fills no entry finds the leg as it is. -/
theorem fillPending_held (t : OrbTick) (held : b.posDir ≠ 0) : fillPending desk regime t b = b := by
  rw [fillPending, if_neg fun fills => held fills.2.1]

theorem fillPending_lags (t : OrbTick) (lags : b.Lags) : (fillPending desk regime t b).Lags := by
  by_cases fills : b.pendingDir ≠ 0 ∧ b.posDir = 0 ∧ waitsForBook desk t b = false
  · rw [Lags, (fillPending_entered desk regime t fills).stop]
    exact Tightens.refl _ _
  · rw [fillPending, if_neg fills]
    exact lags

/-- A tick of the plain broker loosens neither stop of a leg, and leaves them less than a trail
step apart. -/
theorem onTick_stops (positive : 0 < desk.cfg.trailStep) (t : OrbTick) (given : Bracket)
    (lags : b.Lags) :
    KeepsStops desk b (.usual (.tick regime t given)) (onTick desk regime t b) := by
  have seen : Ratchets b (seeTick t b) := Ratchets.of_same lags rfl rfl rfl
  by_cases early : predates t b = true
  · have after : onTick desk regime t b = seeTick t b := if_pos early
    rw [after]
    refine ⟨fun _ _ _ => seen, seen.lags, ?_⟩
    intro _ now _ same current
    cases same
    exact absurd (early.symm.trans current) Bool.false_ne_true.symm
  · have after : onTick desk regime t b =
        work desk regime t (fillPending desk regime t (seeTick t b)) := if_neg early
    have works := work_works desk regime t (fillPending desk regime t (seeTick t b))
    have ready : (fillPending desk regime t (seeTick t b)).Lags := fillPending_lags t seen.lags
    rw [← after] at works
    refine ⟨?_, ?_, ?_⟩
    · intro _ held open_
      have same : fillPending desk regime t (seeTick t b) = seeTick t b := fillPending_held t held
      rw [same] at works
      exact seen.trans (works.stops positive seen.lags open_).1
    · by_cases open_ : (onTick desk regime t b).posDir = 0
      · exact lags_of_flat open_
      · exact (works.stops positive ready open_).1.lags
    · intro _ now _ same _ open_
      cases same
      exact works.stops positive ready open_

/-- What does not touch the leg leaves its stops. -/
theorem KeepsStops.idle {event : DeskEvent} (lags : b.Lags)
    (untimed : ∀ regime t given, event ≠ .usual (.tick regime t given))
    (side : b'.posDir = b.posDir) (stop : b'.stopPrice = b.stopPrice)
    (placed : b'.placedStop = b.placedStop) : KeepsStops desk b event b' where
  held _ _ _ := Ratchets.of_same lags side stop placed
  lags := (Ratchets.of_same lags side stop placed).lags
  worked regime t given same := absurd same (untimed regime t given)

/-- A signal leaves the side, the stop and the placed stop. -/
theorem onSignal_side (regime : Option SessionRegime) (sig : OrbSignal) (reason : String)
    (b : PaperBroker) : (onSignal desk regime sig reason b).posDir = b.posDir ∧
      (onSignal desk regime sig reason b).stopPrice = b.stopPrice ∧
      (onSignal desk regime sig reason b).placedStop = b.placedStop := by
  have entry (dir : SignType) : (onEntrySignal desk regime dir reason b).posDir = b.posDir ∧
      (onEntrySignal desk regime dir reason b).stopPrice = b.stopPrice ∧
      (onEntrySignal desk regime dir reason b).placedStop = b.placedStop := by
    have logged (blocked : String) : (logSignal desk (decide (dir > 0)) reason blocked b).posDir =
        b.posDir ∧ (logSignal desk (decide (dir > 0)) reason blocked b).stopPrice = b.stopPrice ∧
        (logSignal desk (decide (dir > 0)) reason blocked b).placedStop = b.placedStop := by
      rw [logSignal]
      split
      · exact ⟨rfl, rfl, rfl⟩
      · exact ⟨rfl, rfl, rfl⟩
    simp only [onEntrySignal]
    split_ifs
    all_goals first
      | exact ⟨rfl, rfl, rfl⟩
      | exact logged _
  cases sig with
  | buy => exact entry 1
  | sell => exact entry (-1)
  | none => exact ⟨rfl, rfl, rfl⟩
  | flattenEod =>
    simp only [onSignal]
    split
    · exact ⟨rfl, rfl, rfl⟩
    · exact ⟨rfl, rfl, rfl⟩

theorem flatten_flat (reason : String) (tsUs : Int) (priceHint : ℚ) (b : PaperBroker) :
    (flatten desk reason tsUs priceHint b).posDir = 0 := by
  simp only [flatten]
  split
  next flat => exact flat
  next => exact exitPosition_flat _ _ _ _

/-- Every event of a plain broker keeps its stops. -/
theorem step_stops (positive : 0 < desk.cfg.trailStep) (engine : PlainEngine) (lags : b.Lags)
    (event : DeskEvent) :
    ∃ b', (Broker.plain engine b).undergo desk event = .plain engine b' ∧
      KeepsStops desk b event b' := by
  cases event with
  | resume row =>
    exact ⟨_, rfl, fun other => absurd trivial other, Tightens.refl _ _, fun _ _ _ => nofun⟩
  | usual event =>
    cases event with
    | tick regime t given => exact ⟨_, rfl, onTick_stops positive t given lags⟩
    | signal regime sig reason =>
      obtain ⟨side, stop, placed⟩ := @onSignal_side desk regime sig reason b
      exact ⟨_, rfl, KeepsStops.idle lags (fun _ _ _ => nofun) side stop placed⟩
    | flatten reason tsUs priceHint =>
      have flat := @flatten_flat desk reason tsUs priceHint b
      exact ⟨_, rfl, fun _ _ open_ => absurd flat open_, lags_of_flat flat, fun _ _ _ => nofun⟩
    | quote q => exact ⟨_, rfl, KeepsStops.idle lags (fun _ _ _ => nofun) rfl rfl rfl⟩
    | resetDay => exact ⟨_, rfl, KeepsStops.idle lags (fun _ _ _ => nofun) rfl rfl rfl⟩
    | setWarmup on => exact ⟨_, rfl, KeepsStops.idle lags (fun _ _ _ => nofun) rfl rfl rfl⟩

end PaperBroker

/-! ## The bracket broker -/

namespace PaperBracketBroker

/-- A leg keeps its side and its stop does not loosen, but for a short leg without a stop
that takes the one its strategy supplies. -/
structure Ratchets (supplied : Option ℚ) (b b' : PaperBracketBroker) : Prop where
  side : b'.posDir = b.posDir
  stop : Tightens b.posDir b.stopPrice b'.stopPrice ∨ b.posDir < 0 ∧ b.stopPrice ≤ 0 ∧
    ∃ level, supplied = some level ∧ 0 < level ∧ b'.stopPrice ≤ level

/-- What an event leaves of the stop of a leg, also of one that its tick opens. -/
structure KeepsStop (desk : PaperDesk) (b : PaperBracketBroker) (event : DeskEvent)
    (b' : PaperBracketBroker) : Prop where
  held : ¬event.Resumes → b.posDir ≠ 0 → b'.posDir ≠ 0 → Ratchets event.suppliedStop b b'
  worked : ∀ regime t given, event = .usual (.tick regime t given) → b'.posDir ≠ 0 →
    Ratchets given.stop (fillPending desk t given (seeTick t b)) b'

variable {desk : PaperDesk}

variable {b b' : PaperBracketBroker} (t : OrbTick)

theorem Ratchets.of_same {supplied : Option ℚ} (side : b'.posDir = b.posDir)
    (stop : b'.stopPrice = b.stopPrice) : Ratchets supplied b b' where
  side := side
  stop := Or.inl (by rw [stop]; exact Tightens.refl _ _)

/-- A stop that tightens further. -/
theorem Ratchets.tighten {supplied : Option ℚ} {b'' : PaperBracketBroker}
    (first : Ratchets supplied b b') (side : b''.posDir = b'.posDir)
    (stop : Tightens b'.posDir b'.stopPrice b''.stopPrice) : Ratchets supplied b b'' where
  side := side.trans first.side
  stop := by
    rw [first.side] at stop
    rcases first.stop with tight | ⟨short, unset, level, given, positive, within⟩
    · exact Or.inl (tight.trans stop)
    · refine Or.inr ⟨short, unset, level, given, positive, ?_⟩
      have dir : b.posDir = -1 := by
        rcases dir_cases short.ne with long | short'
        · rw [long] at short
          exact absurd short (by decide)
        · exact short'
      rw [dir, tightens_short] at stop
      exact stop.trans within

/-- A bracket update tightens a held stop, or sets a short one's first level. -/
theorem updateBracket_ratchets (given : Bracket) (held : b.posDir ≠ 0) :
    Ratchets given.stop b (updateBracket given b) where
  side := rfl
  stop := by
    simp only [updateBracket]
    cases supplied : given.stop with
    | none => exact Or.inl (Tightens.refl _ _)
    | some level =>
      simp only
      by_cases positive : level > 0
      · rw [if_pos positive]
        by_cases unset : b.stopPrice ≤ 0
        · rw [if_pos unset]
          rcases dir_cases held with long | short
          · rw [long, tightens_long]
            exact Or.inl (unset.trans positive.le)
          · refine Or.inr ⟨?_, unset, level, rfl, positive, le_rfl⟩
            rw [short]
            decide
        · rw [if_neg unset]
          refine Or.inl ?_
          rcases dir_cases held with long | short
          · rw [if_pos (by rw [long]; decide), long, tightens_long]
            exact le_max_left _ _
          · rw [if_neg (by rw [short]; decide), short, tightens_short]
            exact min_le_left _ _
      · rw [if_neg positive]
        exact Or.inl (Tightens.refl _ _)

theorem bookBreakEven_tightens (b : PaperBracketBroker) :
    Tightens b.posDir b.stopPrice (bookBreakEven desk t b).stopPrice := by
  simp only [bookBreakEven]
  split
  · split
    next nearer => exact PaperBroker.tightens_of_improves nearer
    next => exact Tightens.refl _ _
  · exact Tightens.refl _ _

theorem exitPosition_flat (fill : ℚ) (tsUs : Int) (reason : String) (b : PaperBracketBroker) :
    (exitPosition desk fill tsUs reason b).posDir = 0 := by
  obtain ⟨effects, after, _⟩ := exitPosition_effects desk fill tsUs reason b
  rw [after]

/-- Managing a leg that stays open takes the bracket, and then the book's break-even. -/
theorem manage_ratchets (given : Bracket) (held : b.posDir ≠ 0)
    (open_ : (manage desk t given b).posDir ≠ 0) :
    Ratchets given.stop b (manage desk t given b) := by
  have works := manage_works desk t given b
  have taken := updateBracket_ratchets given held
  generalize manage desk t given b = after at open_ works ⊢
  cases works with
  | @left fill reason level leaves => exact absurd (exitPosition_flat _ _ _ _) open_
  | kept unhit =>
    have side : (bookBreakEven desk t (updateBracket given b)).posDir =
        (updateBracket given b).posDir := by
      rw [bookBreakEven_eq]
    exact taken.tighten side (bookBreakEven_tightens t _)

theorem turn_flat (b : PaperBracketBroker) : (turn desk t b).posDir = 0 := by
  simp only [turn]
  by_cases flat : b.posDir = 0
  · rw [if_neg (not_not.mpr flat)]
    split
    · exact flat
    · exact flat
  · rw [if_pos flat]
    split
    · exact exitPosition_flat _ _ _ _
    · exact exitPosition_flat _ _ _ _

/-- A tick of the bracket broker tightens the stop of a leg, or sets a short one's first level. -/
theorem onTick_stop (regime : Option SessionRegime) (t : OrbTick) (given : Bracket)
    (b : PaperBracketBroker) :
    KeepsStop desk b (.usual (.tick regime t given)) (onTick desk t given b) := by
  obtain ⟨c, isFilled⟩ : ∃ c, c = fillPending desk t given (seeTick t b) := ⟨_, rfl⟩
  have same (held : b.posDir ≠ 0) : c = seeTick t b := by
    rw [isFilled, fillPending, if_neg fun fills => held fills.2.1]
  -- Whatever the tick did, a leg that is open after it was worked on or is as it was.
  have worked (open_ : (onTick desk t given b).posDir ≠ 0) :
      Ratchets given.stop c (onTick desk t given b) := by
    by_cases early : predates t (seeTick t b) = true
    · have after : onTick desk t given b = seeTick t b := if_pos early
      rw [after] at open_ ⊢
      rw [same open_]
      exact Ratchets.of_same rfl rfl
    · by_cases flips : (seeTick t b).pendingFlip ≠ 0
      · have after : onTick desk t given b = turn desk t (seeTick t b) := by
          simp only [onTick, if_neg early, if_pos flips]
        rw [after] at open_
        exact absurd (turn_flat t _) open_
      · have after : onTick desk t given b = if c.posDir = 0 then c else manage desk t given c := by
          simp only [onTick, if_neg early, if_neg flips, isFilled]
        rw [after] at open_ ⊢
        by_cases flat : c.posDir = 0
        · rw [if_pos flat] at open_
          exact absurd flat open_
        · rw [if_neg flat] at open_ ⊢
          exact manage_ratchets t given flat open_
  refine ⟨?_, ?_⟩
  · intro _ held open_
    have kept := worked open_
    rw [same held] at kept
    exact ⟨kept.side, kept.stop⟩
  · intro _ _ _ isTick open_
    cases isTick
    rw [← isFilled]
    exact worked open_

theorem KeepsStop.idle {event : DeskEvent}
    (untimed : ∀ regime t given, event ≠ .usual (.tick regime t given))
    (side : b'.posDir = b.posDir) (stop : b'.stopPrice = b.stopPrice) :
    KeepsStop desk b event b' where
  held _ _ _ := Ratchets.of_same side stop
  worked regime t given same := absurd same (untimed regime t given)

/-- A signal leaves the side and the stop of the bracket broker. -/
theorem onSignal_side (regime : Option SessionRegime) (sig : OrbSignal) (reason : String)
    (b : PaperBracketBroker) : (onSignal desk regime sig reason b).posDir = b.posDir ∧
      (onSignal desk regime sig reason b).stopPrice = b.stopPrice := by
  have entry (dir : SignType) : (onEntrySignal desk regime dir reason b).posDir = b.posDir ∧
      (onEntrySignal desk regime dir reason b).stopPrice = b.stopPrice := by
    simp only [onEntrySignal, queue, logSignal, emit]
    split_ifs
    all_goals exact ⟨rfl, rfl⟩
  cases sig with
  | buy => exact entry 1
  | sell => exact entry (-1)
  | none => exact ⟨rfl, rfl⟩
  | flattenEod =>
    simp only [onSignal]
    split
    · exact ⟨rfl, rfl⟩
    · exact ⟨rfl, rfl⟩

theorem flatten_flat (reason : String) (tsUs : Int) (priceHint : ℚ) (b : PaperBracketBroker) :
    (flatten desk reason tsUs priceHint b).posDir = 0 := by
  simp only [flatten]
  split
  next flat => exact flat
  next => exact exitPosition_flat _ _ _ _

/-- Every event of a bracket broker keeps its stop. -/
theorem step_stop (b : PaperBracketBroker) (event : DeskEvent) :
    ∃ b', (Broker.bracket b).undergo desk event = .bracket b' ∧ KeepsStop desk b event b' := by
  cases event with
  | resume row => exact ⟨_, rfl, fun other => absurd trivial other, fun _ _ _ => nofun⟩
  | usual event =>
    cases event with
    | tick regime t given => exact ⟨_, rfl, onTick_stop regime t given b⟩
    | signal regime sig reason =>
      obtain ⟨side, stop⟩ := @onSignal_side desk regime sig reason b
      exact ⟨_, rfl, KeepsStop.idle (fun _ _ _ => nofun) side stop⟩
    | flatten reason tsUs priceHint =>
      have flat := @flatten_flat desk reason tsUs priceHint b
      exact ⟨_, rfl, fun _ _ open_ => absurd flat open_, fun _ _ _ => nofun⟩
    | quote q => exact ⟨_, rfl, KeepsStop.idle (fun _ _ _ => nofun) rfl rfl⟩
    | resetDay => exact ⟨_, rfl, KeepsStop.idle (fun _ _ _ => nofun) rfl rfl⟩
    | setWarmup on => exact ⟨_, rfl, KeepsStop.idle (fun _ _ _ => nofun) rfl rfl⟩

end PaperBracketBroker

/-! ## Every run -/

namespace Broker

def stopPrice : Broker → ℚ
  | .plain _ b => b.stopPrice
  | .bracket b => b.stopPrice

/-- What an event leaves of the stops of either broker. -/
inductive KeepsStops (desk : PaperDesk) : Broker → DeskEvent → Broker → Prop
  | plain (engine : PlainEngine) {b b' : PaperBroker} {event : DeskEvent}
    (keeps : PaperBroker.KeepsStops desk b event b') :
    KeepsStops desk (.plain engine b) event (.plain engine b')
  | bracket {b b' : PaperBracketBroker} {event : DeskEvent}
    (keeps : PaperBracketBroker.KeepsStop desk b event b') :
    KeepsStops desk (.bracket b) event (.bracket b')

/-- The stop of a leg that is held through an event does not loosen. -/
def OnlyTightens (b : Broker) (event : DeskEvent) (b' : Broker) : Prop :=
  ¬event.Resumes → b.posDir ≠ 0 → b'.posDir ≠ 0 → Tightens b.posDir b.stopPrice b'.stopPrice

/-- The working copy of a plain broker's stop lags. -/
def Lags : Broker → Prop
  | .plain _ b => b.Lags
  | .bracket _ => True

variable {desk : PaperDesk}

/-- One event moves the stops the right way and keeps the order behind its level. -/
theorem Lags.undergo (positive : 0 < desk.cfg.trailStep) {b : Broker} (lags : b.Lags)
    (event : DeskEvent) :
    KeepsStops desk b event (b.undergo desk event) ∧ (b.undergo desk event).Lags := by
  cases b with
  | plain engine b =>
    obtain ⟨b', after, keeps⟩ := PaperBroker.step_stops positive engine lags event
    rw [after]
    exact ⟨.plain engine keeps, keeps.lags⟩
  | bracket b =>
    obtain ⟨b', after, keeps⟩ := @PaperBracketBroker.step_stop desk b event
    rw [after]
    exact ⟨.bracket keeps, trivial⟩

/-- In every run of either broker the stops of a leg are a ratchet. -/
theorem stops_ratchet (positive : 0 < desk.cfg.trailStep) {start : Broker}
    (built : Built desk start) (events : List DeskEvent) :
    Runs.Along (undergo desk) (fun b event => KeepsStops desk b event (b.undergo desk event))
      start events := by
  have begins : start.Lags := by
    cases built with
    | plain engine => exact Tightens.refl _ _
    | bracket => exact trivial
  have free : Runs.Along (undergo desk) (fun _ _ => True) start events :=
    Runs.along_of_forall (undergo desk) (fun _ _ => trivial) start events
  refine Runs.along_of_invariant (undergo desk) Lags ?_ ?_ start events begins free
  · exact fun b event lags _ => (lags.undergo positive event).1
  · exact fun b event lags _ => (lags.undergo positive event).2

/-- A short position resumed without a stop, before the first stop of its strategy. -/
def resumedBare : List DeskEvent :=
  [.resume { direction := -1, qty := 1, entryPrice := 100, stopPrice := 0,
             entryTimeUs := Seat.morning 0, some := by decide },
    .usual (.tick none { tsMicros := Seat.morning 1, price := 90 } { stop := some 110 })]

theorem resumedBare_ratchets :
    Runs.Along (undergo {}) (fun b event => KeepsStops {} b event (b.undergo {} event))
      (.bracket (PaperBracketBroker.fresh {})) resumedBare :=
  stops_ratchet (by decide +kernel) .bracket resumedBare

/-- Its stop moves up. -/
theorem first_stop_loosens :
    ¬∀ desk : PaperDesk, 0 < desk.cfg.trailStep → ∀ start : Broker, Built desk start →
      ∀ events : List DeskEvent,
        Runs.Along (undergo desk) (fun b event => b.OnlyTightens event (b.undergo desk event))
          start events := by
  intro tight
  have along := tight {} (by decide +kernel) _ .bracket resumedBare
  have loosened := along.2.1 (by exact not_false) (by decide +kernel) (by decide +kernel)
  revert loosened
  rw [Tightens]
  decide +kernel

end Broker

end RithmicEngine
