import RithmicEngine.Execution.MtfGuardrails
/-!
# The bracket of a position

The stop and the target of a position are set when it is opened, when its fill is reported,
and on each bar after that. Opening and the bars agree: the stop only tightens, and the target
is retired by the trail. A fill sets the target without the trail and without the cap, and
takes a stop that is not over zero for one that is not set.
-/
namespace RithmicEngine

open PartialRuns

namespace MtfStrategy

/-! ## Stops of a side -/

variable {long : Bool} {a b c : Double}

theorem reaches_trans (first : reaches long a b = true) (second : reaches long b c = true) :
    reaches long a c = true := by
  unfold reaches at *
  cases long with
  | true =>
    exact decide_eq_true (Double.le_trans (of_decide_eq_true second) (of_decide_eq_true first))
  | false =>
    exact decide_eq_true (Double.le_trans (of_decide_eq_true first) (of_decide_eq_true second))

theorem reaches_comparable (here : reaches long a b = true) : a.Comparable ∧ b.Comparable := by
  unfold reaches at here
  cases long with
  | true => exact (Double.comparable_of_le (of_decide_eq_true here)).symm
  | false => exact Double.comparable_of_le (of_decide_eq_true here)

/-- The tighter of two stops is no farther than the second. -/
theorem reaches_tighter (known : a.Comparable) (old : b.Comparable) :
    reaches long (tighter long a b) b = true := by
  unfold reaches tighter
  cases long with
  | true =>
    refine decide_eq_true ?_
    change b ≤ if a < b then b else a
    split
    · exact Double.le_refl_of_comparable old
    · next beyond => exact not_not.mp fun above => beyond (Double.lt_of_not_le old known above)
  | false =>
    refine decide_eq_true ?_
    change (if b < a then b else a) ≤ b
    split
    · exact Double.le_refl_of_comparable old
    · next under => exact not_not.mp fun below => under (Double.lt_of_not_le known old below)

/-- The tighter of two stops can be compared. -/
theorem tighter_comparable (known : a.Comparable) : (tighter long a b).Comparable := by
  unfold tighter
  cases long with
  | true =>
    change (if a < b then b else a).Comparable
    split
    · next less =>
      intro isNan
      rw [isNan] at less
      exact Double.not_lt_nan a less
    · exact known
  | false =>
    change (if b < a then b else a).Comparable
    split
    · next less =>
      intro isNan
      rw [isNan] at less
      exact Bool.false_ne_true less
    · exact known

theorem tighter_nan (b : Double) : tighter long .nan b = .nan := by
  unfold tighter
  cases long with
  | true =>
    change (if Double.nan < b then b else Double.nan) = .nan
    exact if_neg Bool.false_ne_true
  | false =>
    change (if b < Double.nan then b else Double.nan) = .nan
    exact if_neg (Double.not_lt_nan b)

theorem toward_nan (a : Double) : toward long a .nan = .nan := by
  unfold toward
  cases long with
  | true =>
    cases a with
    | _ => rfl
  | false =>
    cases a with
    | _ => rfl

/-- A stop at a distance from a price is known where the distance is. -/
theorem toward_comparable (price : ℚ) (known : b.Comparable) :
    (toward long price b).Comparable := by
  unfold toward
  cases b with
  | nan => exact absurd rfl known
  | _ =>
    cases long with
    | true => exact fun isNan => by cases isNan
    | false => exact fun isNan => by cases isNan

/-- A step of the ratchet leaves a stop unset exactly where it was. -/
theorem tighten_nan {on : Bool} : (if on then tighter long a b else a) = .nan ↔ a = .nan := by
  split
  · constructor
    · intro isNan
      by_contra known
      exact tighter_comparable known isNan
    · intro isNan
      rw [isNan]
      exact tighter_nan b
  · exact Iff.rfl

/-! ## Positions with a bracket -/

variable {m : MtfDesk} {bar : MinuteBar} {bi now : Int} {s t r : MtfStrategy}
  {old mid new leg : MtfLeg}

/-- The target is that of the rule of the opening, at the entry price of now. The trail retires
it. -/
def TargetHolds (m : MtfDesk) (leg : MtfLeg) : Prop :=
  leg.curTp = if leg.trailOn then .nan
    else targetRule m (decide (leg.posDir > 0)) leg.entryPrice leg.lvTp
      (targetDistance m (stopUnit m leg.entryAtr))

/-- A stop that is set does not move away from the market. -/
def NotRetreated (long : Bool) (old new : Double) : Prop := old = .nan ∨ reaches long new old = true

theorem NotRetreated.trans (first : NotRetreated long a b) (second : NotRetreated long b c) :
    NotRetreated long a c := by
  rcases first with unset | tighter
  · exact .inl unset
  · rcases second with unset | further
    · exact absurd unset (reaches_comparable tighter).1
    · exact .inr (reaches_trans further tighter)

/-- What holds of an open position on a bar. -/
structure Braced (m : MtfDesk) (now : Int) (leg : MtfLeg) : Prop where
  placed : ∃ price : ℚ, leg.entryPrice = price
  known : leg.entryAtr ≠ .nan
  begun : leg.entryBar ≤ now
  unset : stopUnit m leg.entryAtr = .nan → leg.curStop = .nan
  target : TargetHolds m leg

def Sound (m : MtfDesk) (now : Int) (leg : MtfLeg) : Prop := leg.posDir ≠ 0 → Braced m now leg

/-- A position that is open after a step was opened in it, after some bar, or is the one from
before, whose stop has not retreated. -/
def Held (bi : Int) (old new : MtfLeg) : Prop :=
  new.posDir ≠ 0 → bi < new.entryBar ∨
    new.posDir = old.posDir ∧ new.entryBar = old.entryBar ∧
      NotRetreated (decide (new.posDir > 0)) old.curStop new.curStop

/-- The position stays sound, and is held. -/
structure Moves (m : MtfDesk) (bi now : Int) (old new : MtfLeg) : Prop where
  sound : Sound m now new
  held : Held bi old new

theorem NotRetreated.refl (long : Bool) (a : Double) : NotRetreated long a a := by
  by_cases unset : a = .nan
  · exact .inl unset
  · refine .inr ?_
    unfold reaches
    cases long with
    | true => exact decide_eq_true (Double.le_refl_of_comparable unset)
    | false => exact decide_eq_true (Double.le_refl_of_comparable unset)

theorem Moves.refl (sound : Sound m now leg) : Moves m bi now leg leg where
  sound := sound
  held := fun _ => .inr ⟨rfl, rfl, NotRetreated.refl _ _⟩

/-- Two moves of a position in a row are one. -/
theorem Moves.trans (first : Moves m bi now old mid) (second : Moves m bi now mid new) :
    Moves m bi now old new where
  sound := second.sound
  held := by
    intro isOpen
    rcases second.held isOpen with opened | ⟨side, same, further⟩
    · exact .inl opened
    · rcases first.held (side ▸ isOpen) with opened | ⟨sideOld, sameOld, tighter⟩
      · exact .inl (same ▸ opened)
      · exact .inr ⟨side.trans sideOld, same.trans sameOld, (side ▸ tighter).trans further⟩

/-- A position that is cleared is not open. -/
theorem moves_cleared (flat : new.posDir = 0) : Moves m bi now old new where
  sound := fun isOpen => absurd flat isOpen
  held := fun isOpen => absurd flat isOpen

/-- An exit that is asked for leaves the bracket alone. -/
theorem moves_pending (sound : Sound m now leg) :
    Moves m bi now leg { leg with exitPending := true } where
  sound := by
    intro isOpen
    obtain ⟨placed, known, begun, unset, target⟩ := sound isOpen
    exact ⟨placed, known, begun, unset, target⟩
  held := fun _ => .inr ⟨rfl, rfl, NotRetreated.refl _ _⟩

/-! ## The host's answers -/

theorem notifyTradeFilled_moves (sound : Sound m now s.leg) (c : MtfClose) :
    Moves m bi now s.leg (s.notifyTradeFilled m c).leg := by
  unfold notifyTradeFilled
  split
  · exact moves_cleared rfl
  · split
    · exact moves_cleared rfl
    · exact Moves.refl sound

/-- Reporting closes moves a sound position. -/
theorem notifyAll_moves (sound : Sound m now s.leg) (closes : List MtfClose) :
    Moves m bi now s.leg
      (closes.foldl (fun s close => s.notifyTradeFilled m close) s).leg := by
  induction closes generalizing s with
  | nil => exact Moves.refl sound
  | cons close rest ih =>
    have here : Moves m bi now s.leg (s.notifyTradeFilled m close).leg :=
      notifyTradeFilled_moves sound close
    exact here.trans (ih here.sound)

theorem callBack_moves (sound : Sound m now s.leg) (reply : MtfReply) (c : MtfCall) :
    Moves m bi now s.leg (s.callBack m reply c).leg := by
  exact notifyAll_moves (s := { s with marks := s.marks ++ [MtfMark.call c] }) sound (reply c)

/-- A flatten moves a sound position. -/
theorem emitFlatten_moves (sound : Sound m now s.leg) (reply : MtfReply) (reason : String) :
    Moves m bi now s.leg (s.emitFlatten m bar reply reason).leg := by
  have pending : Moves m bi now s.leg { s.leg with exitPending := true } := moves_pending sound
  have called : Moves m bi now { s.leg with exitPending := true }
      (s.emitFlatten m bar reply reason).leg :=
    callBack_moves (s := { s with leg := { s.leg with exitPending := true } }) pending.sound reply _
  exact pending.trans called

/-! ## The bracket on a bar -/

theorem legUnit_eq (known : s.leg.entryAtr ≠ .nan) : s.legUnit m = stopUnit m s.leg.entryAtr := by
  unfold legUnit
  rw [if_neg known]

/-- The stop after a bar: the tighter of one that is set where the distance is known, and of
the stop before. -/
theorem nextBracket_stop (placed : ∃ price : ℚ, s.leg.entryPrice = price) :
    ∃ ns, (ns = .nan ↔ s.legUnit m = .nan) ∧ (s.nextBracket m bar).curStop =
      tighter (decide (s.leg.posDir > 0)) ns
        (if s.leg.curStop = .nan then ns else s.leg.curStop) := by
  obtain ⟨price, isPrice⟩ := placed
  refine ⟨_, ?_, rfl⟩
  rw [tighten_nan, tighten_nan, isPrice]
  constructor
  · intro isNan
    by_contra known
    exact toward_comparable price known isNan
  · intro isNan
    rw [isNan]
    exact toward_nan _

/-- The bracket of the next bar keeps a position sound and never lets its stop retreat. -/
theorem nextBracket_moves (sound : Sound m now s.leg) (isOpen : s.leg.posDir ≠ 0) :
    Moves m bi now s.leg (s.nextBracket m bar) := by
  obtain ⟨placed, known, begun, unset, target⟩ := sound isOpen
  have unit := legUnit_eq (m := m) known
  obtain ⟨ns, isSet, stop⟩ := @nextBracket_stop m bar s placed
  constructor
  · intro _
    constructor
    · exact placed
    · exact known
    · exact begun
    · intro isNan
      rw [stop, isSet.mpr (unit.trans isNan)]
      exact tighter_nan _
    · unfold TargetHolds
      rw [show stopUnit m (s.nextBracket m bar).entryAtr = s.legUnit m from unit.symm]
      rfl
  · intro _
    refine .inr ⟨rfl, rfl, ?_⟩
    by_cases old : s.leg.curStop = .nan
    · exact .inl old
    · refine .inr ?_
      rw [stop, if_neg old]
      have set_ : ns ≠ .nan := fun isNan => old (unset (unit.symm.trans (isSet.mp isNan)))
      exact reaches_tighter set_ old

/-- Managing moves a sound position. -/
theorem manage_moves (sound : Sound m now s.leg) (reply : MtfReply) :
    Moves m bi now s.leg (s.manage m bar reply).leg := by
  unfold manage
  split
  · next managed =>
    have bracket : Moves m bi now s.leg (s.nextBracket m bar) :=
      nextBracket_moves sound managed.1
    unfold updateExits
    dsimp only
    split
    · exact bracket.trans (emitFlatten_moves (s := { s with leg := s.nextBracket m bar })
        bracket.sound reply _)
    · exact bracket
  · exact Moves.refl sound

theorem endSession_moves (sound : Sound m now s.leg) (reply : MtfReply) :
    Moves m bi now s.leg (s.endSession m bar reply).leg := by
  unfold endSession
  dsimp only
  split
  · exact emitFlatten_moves sound reply _
  · exact Moves.refl sound

/-! ## Opening -/

/-- A leg opened on a later bar is sound, and is the one held from then on. -/
theorem openLeg_moves (known : s.ind.atr ≠ .nan) (later : bi < s.barIndex) (long : Bool)
    (price : ℚ) (reason : String) :
    Moves m bi s.barIndex old (s.openLeg m long price reason) where
  sound := by
    intro _
    constructor
    · exact ⟨price, rfl⟩
    · exact known
    · exact Int.le_refl _
    · intro isNan
      change toward (!long) price (stopUnit m s.ind.atr) = _
      rw [show stopUnit m s.ind.atr = .nan from isNan, toward_nan]
    · cases long with
      | true => rfl
      | false => rfl
  held := fun _ => .inl later

/-- A position opened with a known range moves to a sound one. -/
theorem openPosition_moves (known : s.ind.atr ≠ .nan) (later : bi < s.barIndex)
    (reply : MtfReply) (long : Bool) (price : ℚ) (reason : String) :
    Moves m bi s.barIndex s.leg (s.openPosition m reply long price reason).leg := by
  have opened : Moves m bi s.barIndex s.leg (s.openLeg m long price reason) :=
    openLeg_moves known later long price reason
  exact opened.trans (callBack_moves (s := { s with
    leg := s.openLeg m long price reason
    guards := { s.guards with tradesToday := s.guards.tradesToday + 1 } }) opened.sound reply _)

/-- Acting on a bar keeps the position sound and held. -/
theorem act_moves {reply : MtfReply} {rolled : Bool} (known : r.ind.atr ≠ .nan)
    (later : bi < r.barIndex) (sound : Sound m r.barIndex r.leg)
    (acts : r.act m bar reply rolled = some t) : Moves m bi r.barIndex r.leg t.leg := by
  obtain ⟨e, entered, isT⟩ := act_cases acts
  have entry : Moves m bi r.barIndex r.leg e.leg := by
    rcases enter_cases entered with ⟨long, _, isE⟩ | ⟨_, isE⟩
    · rw [isE]
      exact openPosition_moves (s := r.confirmBar m rolled) known later reply long _ _
    · rw [isE]
      exact Moves.refl sound
  rw [isT]
  have managed : Moves m bi r.barIndex e.leg (e.manage m bar reply).leg :=
    manage_moves entry.sound reply
  exact (entry.trans managed).trans (endSession_moves managed.sound reply)

/-! ## A fill -/

/-- A fill at a price leaves the bracket as it should be: the trail is off, a cap at the price
is not under the level, and the stop is over zero or would not retreat to the price's. -/
@[mk_iff]
structure FillFits (m : MtfDesk) (s : MtfStrategy) (avg : ℚ) : Prop where
  unarmed : s.leg.trailOn = false
  uncapped : m.cfg.tpTargetMode = "opposing_cap_rr" → s.leg.lvTp ≠ .nan →
    ahead (decide (s.leg.posDir > 0)) s.leg.lvTp (toward (decide (s.leg.posDir > 0)) avg
      (targetDistance m (stopUnit m s.leg.entryAtr))) = false
  tightens : s.leg.curStop = .nan ∨ s.leg.curStop > 0 ∨
    reaches (decide (s.leg.posDir > 0)) (toward (!decide (s.leg.posDir > 0)) avg
      (stopUnit m s.leg.entryAtr)) s.leg.curStop = true

instance (m : MtfDesk) (s : MtfStrategy) (avg : ℚ) : Decidable (FillFits m s avg) :=
  decidable_of_iff' _ (fillFits_iff ..)

theorem nearer_of_not_ahead (inside : ahead long a b = false) : nearer long a b = a := by
  unfold ahead at inside
  unfold nearer
  cases long with
  | true => exact if_neg (of_decide_eq_false inside)
  | false => exact if_neg (of_decide_eq_false inside)

/-- A fitting fill re-anchors the bracket and leaves it sound. -/
theorem fill_moves {avg : ℚ} (sound : Sound m now s.leg) (isOpen : s.leg.posDir ≠ 0)
    (fits : FillFits m s avg) : Moves m bi now s.leg
      (initBracket m { s with leg := { s.leg with entryPrice := avg } }).leg := by
  obtain ⟨_, known, begun, unset, _⟩ := sound isOpen
  obtain ⟨unarmed, uncapped, tightens⟩ := fits
  constructor
  · intro _
    constructor
    · exact ⟨avg, rfl⟩
    · exact known
    · exact begun
    · intro isNan
      unfold initBracket
      dsimp only
      rw [show stopUnit m s.leg.entryAtr = .nan from isNan, toward_nan, unset isNan]
      rfl
    · unfold TargetHolds initBracket targetRule
      dsimp only
      rw [unarmed, if_neg Bool.false_ne_true]
      by_cases level : s.leg.lvTp ≠ .nan
      · rw [if_pos level, if_pos level]
        split
        · next capped => exact (nearer_of_not_ahead (uncapped capped level)).symm
        · rfl
      · rw [if_neg level, if_neg level]
  · intro _
    refine .inr ⟨rfl, rfl, ?_⟩
    by_cases old : s.leg.curStop = .nan
    · exact .inl old
    · refine .inr ?_
      unfold initBracket
      dsimp only
      have unit : (stopUnit m s.leg.entryAtr).Comparable := fun isNan => old (unset isNan)
      split_ifs with positive
      · exact reaches_tighter (toward_comparable avg unit) old
      · rcases tightens with isNan | above | reached
        · exact absurd isNan old
        · exact absurd ⟨old, above⟩ positive
        · exact reached

/-! ## The true range -/

/-- Not known yet, or a number. -/
def Plain (a : Double) : Prop := a = .nan ∨ ∃ x : ℚ, a = x

theorem max_number (x y : ℚ) : ∃ z : ℚ, max (x : Double) (y : Double) = z := by
  change ∃ z : ℚ, (if (x : Double) < (y : Double) then (y : Double) else (x : Double)) = z
  split
  · exact ⟨y, rfl⟩
  · exact ⟨x, rfl⟩

/-- The true range is a number where the last close is one, or none. -/
theorem trueRange_number {pc : Double} (plain : Plain pc) : ∃ x : ℚ, trueRange bar pc = x := by
  unfold trueRange
  rcases plain with unset | ⟨close, isClose⟩
  · exact ⟨bar.high + -bar.low, if_pos unset⟩
  · rw [isClose, if_neg (fun isNan => by cases isNan)]
    obtain ⟨wide, isWide⟩ := max_number (bar.high + -bar.low) |bar.high + -close|
    obtain ⟨range, isRange⟩ := max_number wide |bar.low + -close|
    refine ⟨range, ?_⟩
    rw [← isRange, ← isWide]
    rfl

/-- The running average of numbers is a number. -/
theorem rmaNext_number {prev : Double} {len : Int} (positive : 0 < len) (plain : Plain prev)
    (x : ℚ) : ∃ y : ℚ, rmaNext prev x len = y := by
  unfold rmaNext
  rcases plain with unset | ⟨before, isBefore⟩
  · exact ⟨x, if_pos unset⟩
  · rw [isBefore, if_neg (fun isNan => by cases isNan)]
    have nonzero : (len : ℚ) ≠ 0 := Int.cast_ne_zero.mpr positive.ne'
    exact ⟨(before * int32 (len - 1) + x) / len, if_neg nonzero⟩

variable {cfg : MtfScalperConfig} {i j : MtfIndicators} {hist : List MinuteBar}

theorem nextVwap_atr {key : Int} : (i.nextVwap bar key).atr = i.atr := by
  unfold MtfIndicators.nextVwap
  split_ifs
  all_goals rfl

theorem nextRsi_atr : (i.nextRsi cfg bar).atr = i.atr := by
  unfold MtfIndicators.nextRsi
  dsimp only
  split
  · rfl
  · rfl

theorem nextDmi_atr {tr : Double} : (i.nextDmi cfg bar tr).atr = i.atr := by
  unfold MtfIndicators.nextDmi
  dsimp only
  split
  · rfl
  · split
    · rfl
    · rfl

theorem nextRanks_atr (ranked : i.nextRanks cfg = some j) : j.atr = i.atr := by
  obtain ⟨_, _, rest⟩ := Option.bind_eq_some_iff.mp ranked
  obtain ⟨_, _, isJ⟩ := Option.bind_eq_some_iff.mp rest
  rw [← Option.some.inj isJ]

/-- A bar makes a number of the average true range. -/
theorem next_atr (positive : 0 < cfg.atrLen) (plain : Plain i.atr)
    (made : i.next cfg bar hist = some j) : ∃ x : ℚ, j.atr = x := by
  obtain ⟨pc, isPc, ranked⟩ := Option.bind_eq_some_iff.mp made
  have close : Plain pc := by
    unfold MtfIndicators.closeBefore at isPc
    split at isPc
    · exact .inl (Option.some.inj isPc).symm
    · obtain ⟨before, _, isClose⟩ := Option.map_eq_some_iff.mp isPc
      exact .inr ⟨before.close, isClose.symm⟩
  obtain ⟨range, isRange⟩ := @trueRange_number bar pc close
  obtain ⟨atr, isAtr⟩ := rmaNext_number positive plain range
  refine ⟨atr, ?_⟩
  rw [nextRanks_atr ranked, nextDmi_atr, isRange, ← isAtr]
  have same : (((i.nextTrend cfg bar).nextRsi cfg bar).nextStoch cfg bar hist).atr = i.atr := by
    change ((i.nextTrend cfg bar).nextRsi cfg bar).atr = _
    rw [nextRsi_atr]
    rfl
  unfold MtfIndicators.nextAtr
  rw [same]

/-! ## A step -/

/-- The average true range is a number or not known yet, and an open position has its
bracket. -/
structure Bracketed (m : MtfDesk) (s : MtfStrategy) : Prop where
  atr : Plain s.ind.atr
  sound : Sound m s.barIndex s.leg

theorem Sound.later (sound : Sound m now leg) (later : now ≤ bi) : Sound m bi leg := by
  intro isOpen
  obtain ⟨placed, known, begun, unset, target⟩ := sound isOpen
  exact ⟨placed, known, begun.trans later, unset, target⟩

theorem Read.atr (read : Read m bar s r) (positive : 0 < m.cfg.atrLen)
    (bracketed : Bracketed m s) : ∃ x : ℚ, r.ind.atr = x := by
  obtain ⟨key, made⟩ := read.ind
  have plain : Plain (s.ind.nextVwap bar key).atr := by
    rw [nextVwap_atr]
    exact bracketed.atr
  exact next_atr positive plain made

/-- The fill that the event reports, if it is one of the open position, fits. -/
def FillsFit (m : MtfDesk) (s : MtfStrategy) : MtfEvent → Prop
  | .entryFilled dir avg => dir.side ≠ 0 → dir.side = s.leg.posDir → FillFits m s avg
  | _ => True

instance (m : MtfDesk) (s : MtfStrategy) : (event : MtfEvent) → Decidable (FillsFit m s event)
  | .entryFilled dir avg =>
    inferInstanceAs (Decidable (dir.side ≠ 0 → dir.side = s.leg.posDir → FillFits m s avg))
  | .tick _ _ | .tradeFilled _ | .referenceBar _ _ _ | .timeFlatten _ _ _ | .halt _ | .unhalt
  | .resetSession | .seedState _ _ _ | .seedTradesToday _ => isTrue trivial

/-- Handling a completed bar keeps the bracket in order and the position held. -/
theorem handled_moves {reply : MtfReply} (handles : Handles m bar reply s t)
    (positive : 0 < m.cfg.atrLen) (bracketed : Bracketed m s) :
    Bracketed m t ∧ Held s.barIndex s.leg t.leg := by
  have still : Held s.barIndex s.leg s.leg := (Moves.refl bracketed.sound).held
  cases handles with
  | empty blank => exact ⟨bracketed, still⟩
  | cold r traded reads early =>
    have read := readBar_read reads
    have later : s.barIndex ≤ r.barIndex := by
      rw [read.barIndex]
      omega
    constructor
    · exact ⟨.inr (read.atr positive bracketed), by
        change Sound m r.barIndex r.leg
        rw [read.leg]
        exact bracketed.sound.later later⟩
    · change Held s.barIndex s.leg r.leg
      rw [read.leg]
      exact still
  | warm r a traded reads ready acts =>
    have read := readBar_read reads
    have later : s.barIndex < r.barIndex := by
      rw [read.barIndex]
      omega
    obtain ⟨atr, isAtr⟩ := read.atr positive bracketed
    have known : r.ind.atr ≠ .nan := by
      rw [isAtr]
      exact fun isNan => by cases isNan
    have sound : Sound m r.barIndex r.leg := by
      rw [read.leg]
      exact bracketed.sound.later later.le
    have moves := act_moves known later sound acts
    have kept := act_kept acts
    constructor
    · constructor
      · change Plain a.ind.atr
        rw [kept.ind]
        exact .inr ⟨atr, isAtr⟩
      · change Sound m a.barIndex a.leg
        rw [kept.barIndex]
        exact moves.sound
    · rw [← read.leg]
      exact moves.held

/-- A step that leaves the bars alone and moves the position. -/
theorem bracketed_of_moves (bracketed : Bracketed m s) (kept : Kept s t)
    (moves : Moves m s.barIndex s.barIndex s.leg t.leg) :
    Bracketed m t ∧ Held s.barIndex s.leg t.leg := by
  refine ⟨⟨?_, ?_⟩, moves.held⟩
  · rw [kept.ind]
    exact bracketed.atr
  · rw [kept.barIndex]
    exact moves.sound

/-- The flatten at a time moves a sound position. -/
theorem checkTimeFlatten_moves (sound : Sound m now s.leg) (reply : MtfReply)
    (etHour etMin : Int) :
    Moves m bi now s.leg (s.checkTimeFlatten m reply etHour etMin).leg := by
  unfold checkTimeFlatten
  split
  · have pending : Moves m bi now s.leg { s.leg with exitPending := true } := moves_pending sound
    exact pending.trans (callBack_moves (s := { s with
      clock := { s.clock with eodFlatEmitted := true }
      leg := { s.leg with exitPending := true } }) pending.sound reply _)
  · exact Moves.refl sound

/-- One event keeps the bracket in order and moves its levels only the way they may. -/
theorem take_moves {event : MtfEvent} (positive : 0 < m.cfg.atrLen)
    (bracketed : Bracketed m s) (fits : FillsFit m s event) (taken : s.take m event = some t) :
    Bracketed m t ∧ Held s.barIndex s.leg t.leg := by
  have still : Moves m s.barIndex s.barIndex s.leg s.leg := Moves.refl bracketed.sound
  cases event with
  | tick reply tick =>
    cases onTick_ticks taken with
    | within cur price _ => exact bracketed_of_moves bracketed (kept_of_same rfl) still
    | across h cur price _ _ _ handled =>
      obtain ⟨after, held⟩ := handled_moves (handles handled) positive bracketed
      exact ⟨⟨after.atr, after.sound⟩, held⟩
  | tradeFilled c =>
    cases Option.some.inj taken
    exact bracketed_of_moves bracketed (notifyTradeFilled_books c s).kept
      (notifyTradeFilled_moves bracketed.sound c)
  | entryFilled dir avg =>
    have isT := (Option.some.inj taken).symm
    unfold notifyEntryFilled at isT
    split at isT
    · rw [isT]
      exact bracketed_of_moves bracketed (Books.refl s).kept still
    · next filled =>
      rw [not_or, not_not] at filled
      have isOpen : s.leg.posDir ≠ 0 := fun flat => filled.1 (filled.2.trans flat)
      rw [isT]
      exact bracketed_of_moves bracketed (kept_of_same rfl)
        (fill_moves bracketed.sound isOpen (fits filled.1 filled.2))
  | referenceBar high low close =>
    obtain ⟨ref, _, isT⟩ := Option.bind_eq_some_iff.mp taken
    cases Option.some.inj isT
    exact bracketed_of_moves bracketed (kept_of_same rfl) still
  | timeFlatten reply etHour etMin =>
    cases Option.some.inj taken
    exact bracketed_of_moves bracketed (checkTimeFlatten_kept reply etHour etMin s)
      (checkTimeFlatten_moves bracketed.sound reply etHour etMin)
  | halt reason =>
    cases Option.some.inj taken
    exact bracketed_of_moves bracketed (kept_of_same rfl) still
  | unhalt =>
    cases Option.some.inj taken
    unfold unhaltTrading
    split
    · exact bracketed_of_moves bracketed (Books.refl s).kept still
    · exact bracketed_of_moves bracketed (kept_of_same rfl) still
  | resetSession =>
    cases Option.some.inj taken
    exact bracketed_of_moves bracketed (kept_of_same rfl) (moves_cleared rfl)
  | seedState trades pnl total =>
    cases Option.some.inj taken
    exact bracketed_of_moves bracketed (kept_of_same rfl) still
  | seedTradesToday n =>
    cases Option.some.inj taken
    exact bracketed_of_moves bracketed (kept_of_same rfl) still

/-- After a step the target is that of the rule, or retired by the trail, and a stop has not
moved away from the market where the position is the same. -/
def BracketHolds (m : MtfDesk) (s : MtfStrategy) (_ : MtfEvent) (t : MtfStrategy) : Prop :=
  t.leg.posDir ≠ 0 → TargetHolds m t.leg ∧
    (t.leg.posDir = s.leg.posDir → t.leg.entryBar = s.leg.entryBar →
      NotRetreated (decide (t.leg.posDir > 0)) s.leg.curStop t.leg.curStop)

end MtfStrategy

open MtfStrategy

/-- Along every run whose fills fit the bracket that they find, the bracket holds after every
step. -/
theorem bracket_holds {m : MtfDesk} {start : MtfStrategy} {events : List MtfEvent}
    (positive : 0 < m.cfg.atrLen) (built : m.fresh = some start)
    (fits : Meets (take m) (FillsFit m) start events) :
    Each (take m) (BracketHolds m) start events := by
  obtain ⟨window, _, isStart⟩ := Option.bind_eq_some_iff.mp built
  have initial : Bracketed m start := by
    cases Option.some.inj isStart
    exact ⟨.inl rfl, fun isOpen => absurd rfl isOpen⟩
  have holds (s : MtfStrategy) (event : MtfEvent) (t : MtfStrategy) (bracketed : Bracketed m s)
      (fits : FillsFit m s event) (taken : s.take m event = some t) :
      BracketHolds m s event t ∧ Bracketed m t := by
    obtain ⟨after, held⟩ := take_moves positive bracketed fits taken
    refine ⟨fun isOpen => ⟨(after.sound isOpen).target, ?_⟩, after⟩
    intro side same
    rcases held isOpen with opened | ⟨_, _, kept⟩
    · have begun := (bracketed.sound (side ▸ isOpen)).begun
      omega
    · exact kept
  exact each_of_invariant holds initial fits

/-- Signals of the oscillator, with a trail after one stop distance. -/
def trailedDesk : MtfDesk where
  cfg := { confirmedDesk.cfg with useConfTf := false, useTrailing := true }
  sqrt := id

/-- A short is opened. -/
def openedShort : List MtfEvent :=
  tradesOf 0 [100, 110, 90, 104] ++ tradesOf 1 [104, 110, 90, 96] ++
    tradesOf 2 [96, 110, 90, 98] ++ tradesOf 3 [98, 140, 98, 138] ++
    tradesOf 4 [100, 110, 90, 98] ++ tradesOf 5 [98]

/-- It runs far into its profit on the next bar. -/
def trailedShort : List MtfEvent := tradesOf 5 [30] ++ tradesOf 6 [30]

/-- What the runs of the short come to, with its fill reported before the trail is on and
after it. -/
theorem short_runs :
    trailedDesk.cfg.validate = .ok () ∧
      trailedDesk.fresh.any (fun start =>
        decide (Meets (take trailedDesk) (FillsFit trailedDesk) start
          (openedShort ++ .entryFilled .sell 97 :: trailedShort))) = true ∧
      (trailedDesk.play (openedShort ++ trailedShort)).any (fun s =>
        (s.take trailedDesk (.entryFilled .sell 97)).any fun t =>
          decide (t.leg.posDir ≠ 0 ∧ s.leg.curTp = .nan ∧ t.leg.trailOn = true ∧
            t.leg.curTp = ((53 / 5 : ℚ) : Double))) = true := by
  decide +kernel

theorem bracket_holds_with_prompt_fill : ∃ start, trailedDesk.fresh = some start ∧
    Each (take trailedDesk) (BracketHolds trailedDesk) start
      (openedShort ++ .entryFilled .sell 97 :: trailedShort) := by
  obtain ⟨start, built, fits⟩ := (Option.any_eq_true _ _).mp short_runs.2.1
  exact ⟨start, built, bracket_holds (by decide) built (of_decide_eq_true fits)⟩

/-- The fill of the short is reported after its trail is on, and sets a target again. -/
theorem late_fill_revives_target : trailedDesk.cfg.validate = .ok () ∧ ∃ s t,
    trailedDesk.play (openedShort ++ trailedShort) = some s ∧
      s.take trailedDesk (.entryFilled .sell 97) = some t ∧ s.leg.curTp = .nan ∧
      t.leg.trailOn = true ∧ t.leg.curTp = ((53 / 5 : ℚ) : Double) ∧
      ¬BracketHolds trailedDesk s (.entryFilled .sell 97) t := by
  obtain ⟨valid, _, runs⟩ := short_runs
  obtain ⟨s, arrives, later⟩ := (Option.any_eq_true _ _).mp runs
  obtain ⟨t, taken, holds⟩ := (Option.any_eq_true _ _).mp later
  obtain ⟨isOpen, retired, armed, revived⟩ := of_decide_eq_true holds
  refine ⟨valid, s, t, arrives, taken, retired, armed, revived, ?_⟩
  intro bracket
  have target := (bracket isOpen).1
  unfold TargetHolds at target
  rw [armed, if_pos rfl, revived] at target
  cases target

end RithmicEngine
