import RithmicEngine.Base.Pools
import RithmicEngine.Execution.MtfFrames
/-!
# The life of a zone

The zones of a side are a pool: at most one joins on a bar, those that the bar fills or that
are too old leave, those that it touches first are spent, and the oldest are popped while
there are too many. A maximum below zero cannot be reached by popping, and is not refused.
-/
namespace RithmicEngine

open PartialRuns Pools

variable {cfg : MtfScalperConfig} {bar : MinuteBar} {bull : Bool} {bi : Int}

/-! ## Zones as a pool -/

namespace Gap

/-- A zone is stamped with its bar and spent by its retest. -/
def lifecycle : Lifecycle Gap where
  born := Gap.bar
  spent := Gap.used
  spend g := { g with used := true }
  born_spend _ := rfl
  spent_spend _ := rfl

/-- The bar ends the zone. -/
def ended (cfg : MtfScalperConfig) (bar : MinuteBar) (bull : Bool) (bi : Int) (g : Gap) : Bool :=
  g.filled cfg bar bull || g.expired cfg bi

end Gap

/-- The first zone ends, is retested, or stays, and the rest is looked at. -/
theorem fvgMaintain_cons (g : Gap) (rest : List Gap) : fvgMaintain cfg bar bull bi (g :: rest) =
    if g.ended cfg bar bull bi = true then fvgMaintain cfg bar bull bi rest
    else if g.retested bar bull bi = true then
      { gaps := Gap.lifecycle.spend g :: (fvgMaintain cfg bar bull bi rest).gaps
        retest := true
        level := g.mid }
    else { fvgMaintain cfg bar bull bi rest with
      gaps := g :: (fvgMaintain cfg bar bull bi rest).gaps } :=
  rfl

/-- Maintaining the zones is a sweep of the pool. -/
theorem fvgMaintain_gaps (gaps : List Gap) : (fvgMaintain cfg bar bull bi gaps).gaps =
    sweep Gap.lifecycle (Gap.ended cfg bar bull bi) (Gap.retested bar bull bi) gaps := by
  induction gaps with
  | nil => rfl
  | cons g rest ih =>
    unfold sweep at ih ⊢
    rw [fvgMaintain_cons, List.filter_cons]
    cases isOver : g.ended cfg bar bull bi with
    | true => exact ih
    | false =>
      simp only [Bool.false_eq_true, ↓reduceIte, Bool.not_false, List.map_cons]
      split
      · exact congrArg _ ih
      · exact congrArg _ ih

/-- The pass retests what any zone alone would. -/
theorem fvgMaintain_retest (gaps : List Gap) : (fvgMaintain cfg bar bull bi gaps).retest =
    gaps.any fun g => !g.ended cfg bar bull bi && g.retested bar bull bi := by
  induction gaps with
  | nil => rfl
  | cons g rest ih =>
    rw [fvgMaintain_cons, List.any_cons, ← ih]
    cases isOver : g.ended cfg bar bull bi with
    | true => rfl
    | false =>
      cases fires : g.retested bar bull bi with
      | true => rfl
      | false => rfl

/-- Popping leaves the newest, and no more than there may be. -/
theorem popGaps_some {keep : Int} {gaps left : List Gap} (popped : popGaps keep gaps = some left) :
    left.Sublist gaps ∧ (left.length : Int) ≤ keep := by
  induction gaps with
  | nil =>
    unfold popGaps at popped
    split at popped
    · cases popped
    · next room =>
      cases Option.some.inj popped
      exact ⟨List.Sublist.refl _, not_lt.mp room⟩
  | cons g rest ih =>
    unfold popGaps at popped
    split at popped
    · obtain ⟨part, few⟩ := ih popped
      exact ⟨part.cons g, few⟩
    · next room =>
      cases Option.some.inj popped
      exact ⟨List.Sublist.refl _, not_lt.mp room⟩

theorem popGaps_isSome {keep : Int} (nonneg : 0 ≤ keep) (gaps : List Gap) :
    (popGaps keep gaps).isSome = true := by
  induction gaps with
  | nil =>
    unfold popGaps
    rw [if_neg (not_lt.mpr nonneg)]
    rfl
  | cons g rest ih =>
    unfold popGaps
    split
    · exact ih
    · rfl

namespace MtfFvg

/-- The zones of a side. -/
def gaps (bull : Bool) (f : MtfFvg) : List Gap := if bull then f.fvgBull else f.fvgBear

def retest (bull : Bool) (f : MtfFvg) : Bool := if bull then f.fvgRetestL else f.fvgRetestS

/-- What is gone through on a bar: the zones that are held, and the one that the bar forms. -/
def examined (cfg : MtfScalperConfig) (bar : MinuteBar) (atr : Double) (hist : List MinuteBar)
    (bi : Int) (bull : Bool) (f : MtfFvg) : List Gap :=
  f.gaps bull ++
    match f.formed cfg bar atr hist with
    | some (newer, older, least) =>
      if bull then bullGap least newer older bi else bearGap least newer older bi
    | none => []

variable {f after : MtfFvg} {atr : Double} {hist : List MinuteBar}

theorem bullGap_new {least : Double} {newer older : MinuteBar} :
    (bullGap least newer older bi).length ≤ 1 ∧
      ∀ g ∈ bullGap least newer older bi, g.bar = bi := by
  unfold bullGap
  split
  · refine ⟨le_rfl, ?_⟩
    intro g inside
    rw [List.mem_singleton.mp inside]
  · exact ⟨Nat.zero_le _, fun _ inside => absurd inside List.not_mem_nil⟩

theorem bearGap_new {least : Double} {newer older : MinuteBar} :
    (bearGap least newer older bi).length ≤ 1 ∧
      ∀ g ∈ bearGap least newer older bi, g.bar = bi := by
  unfold bearGap
  split
  · refine ⟨le_rfl, ?_⟩
    intro g inside
    rw [List.mem_singleton.mp inside]
  · exact ⟨Nat.zero_le _, fun _ inside => absurd inside List.not_mem_nil⟩

/-- One zone of a side at most joins, of this bar. -/
theorem examined_eq (f : MtfFvg) : ∃ new : List Gap,
    f.examined cfg bar atr hist bi bull = f.gaps bull ++ new ∧ new.length ≤ 1 ∧
      ∀ g ∈ new, g.bar = bi := by
  unfold examined
  cases f.formed cfg bar atr hist with
  | none => exact ⟨[], rfl, Nat.zero_le _, fun _ inside => absurd inside List.not_mem_nil⟩
  | some between =>
    obtain ⟨newer, older, least⟩ := between
    cases bull with
    | true => exact ⟨bullGap least newer older bi, rfl, bullGap_new⟩
    | false => exact ⟨bearGap least newer older bi, rfl, bearGap_new⟩

/-- The zones after a bar are the examined ones maintained and cut to the bound. -/
theorem next_gaps (used : cfg.useFvg = true) (made : f.next cfg bar atr hist bi = some after)
    (bull : Bool) :
    popGaps cfg.fvgMaxKeep
        (fvgMaintain cfg bar bull bi (f.examined cfg bar atr hist bi bull)).gaps =
      some (after.gaps bull) ∧
    after.retest bull =
      (fvgMaintain cfg bar bull bi (f.examined cfg bar atr hist bi bull)).retest := by
  unfold next at made
  dsimp only at made
  rw [if_neg (by rw [used]; decide)] at made
  have same : formed cfg bar atr hist { f with
      fvgRetestL := false
      fvgRetestS := false
      fvgRetLvlL := .nan
      fvgRetLvlS := .nan } = f.formed cfg bar atr hist := rfl
  rw [same] at made
  unfold examined
  cases between : f.formed cfg bar atr hist with
  | none =>
    rw [between] at made
    obtain ⟨bulls, isBulls, rest⟩ := Option.bind_eq_some_iff.mp made
    obtain ⟨bears, isBears, isAfter⟩ := Option.bind_eq_some_iff.mp rest
    cases Option.some.inj isAfter
    cases bull with
    | true => exact ⟨isBulls, rfl⟩
    | false => exact ⟨isBears, rfl⟩
  | some offered =>
    obtain ⟨newer, older, least⟩ := offered
    rw [between] at made
    obtain ⟨bulls, isBulls, rest⟩ := Option.bind_eq_some_iff.mp made
    obtain ⟨bears, isBears, isAfter⟩ := Option.bind_eq_some_iff.mp rest
    cases Option.some.inj isAfter
    cases bull with
    | true => exact ⟨isBulls, rfl⟩
    | false => exact ⟨isBears, rfl⟩

theorem next_unused (unused : cfg.useFvg = false) (made : f.next cfg bar atr hist bi = some after)
    (bull : Bool) : after.gaps bull = f.gaps bull ∧ after.retest bull = false := by
  unfold next at made
  dsimp only at made
  rw [if_pos unused] at made
  cases Option.some.inj made
  cases bull with
  | true => exact ⟨rfl, rfl⟩
  | false => exact ⟨rfl, rfl⟩

/-- The engine has a result wherever there may be some zones. -/
theorem next_isSome (nonneg : 0 ≤ cfg.fvgMaxKeep) (f : MtfFvg) :
    (f.next cfg bar atr hist bi).isSome = true := by
  unfold next
  dsimp only
  split
  · rfl
  · simp [Option.isSome_bind, popGaps_isSome nonneg]

theorem aggregate_gaps (made : f.aggregate cfg bar = some after) (bull : Bool) :
    after.gaps bull = f.gaps bull := by
  unfold aggregate at made
  split at made
  · obtain ⟨struct5, _, isAfter⟩ := Option.bind_eq_some_iff.mp made
    cases Option.some.inj isAfter
    rfl
  · cases Option.some.inj made
    rfl

end MtfFvg

namespace MtfStrategy

variable {m : MtfDesk} {s t r : MtfStrategy}

/-- The zones of a side that the step retests: those of the bar that it completes for which the
pass of the engine over the zone alone does. -/
def triggers (m : MtfDesk) (s : MtfStrategy) (event : MtfEvent) (bull : Bool) : List Gap :=
  if EndsBar s event ∧ m.cfg.useFvg = true then
    match s.fvg.aggregate m.cfg s.curBar, s.readBar m s.curBar with
    | some f, some r =>
      (f.examined m.cfg s.curBar r.ind.atr r.hist r.barIndex bull).filter fun g =>
        (fvgMaintain m.cfg s.curBar bull r.barIndex [g]).retest
    | _, _ => []
  else []

/-- No zone is too old or was filled since it was formed, and there are not too many. -/
structure ZonesHeld (m : MtfDesk) (s : MtfStrategy) : Prop where
  young : ∀ bull, ∀ g ∈ s.fvg.gaps bull, s.barIndex - g.bar ≤ m.cfg.fvgMaxBars
  whole : ∀ bull, ∀ g ∈ s.fvg.gaps bull, ∀ (i : Nat) (b : MinuteBar), g.bar ≤ i →
    s.bars[i]? = some b → g.filled m.cfg b bull = false
  few : ∀ bull, ((s.fvg.gaps bull).length : Int) ≤ m.cfg.fvgMaxKeep

/-- A trigger is of a zone that was there before the bar, and that the bar does not end. -/
def TriggersFair (m : MtfDesk) (s : MtfStrategy) (event : MtfEvent) (t : MtfStrategy) : Prop :=
  EndsBar s event → ∀ bull,
    (t.fvg.retest bull = true ↔ s.triggers m event bull ≠ []) ∧
      ∀ g ∈ s.triggers m event bull, g ∈ s.fvg.gaps bull ∧ g.bar < t.barIndex ∧
        t.barIndex - g.bar ≤ m.cfg.fvgMaxBars ∧ g.filled m.cfg s.curBar bull = false

/-- The zones on the bars so far: stamped by them, held well, and none without the engine. -/
structure Zoned (m : MtfDesk) (s : MtfStrategy) : Prop where
  counted : s.barIndex + 1 = s.bars.length
  stamped : ∀ bull, Stamped Gap.lifecycle s.barIndex (s.fvg.gaps bull)
  held : ZonesHeld m s
  idle : m.cfg.useFvg = false → ∀ bull, s.fvg.gaps bull = []

/-- The zones after a bar, where the engine is on. -/
theorem Read.zones (read : Read m bar s r) (used : m.cfg.useFvg = true) (bull : Bool) :
    ∃ f new, s.fvg.aggregate m.cfg bar = some f ∧
      f.examined m.cfg bar r.ind.atr r.hist r.barIndex bull = s.fvg.gaps bull ++ new ∧
      new.length ≤ 1 ∧ (∀ g ∈ new, g.bar = r.barIndex) ∧
      popGaps m.cfg.fvgMaxKeep (sweep Gap.lifecycle (Gap.ended m.cfg bar bull r.barIndex)
        (Gap.retested bar bull r.barIndex) (s.fvg.gaps bull ++ new)) = some (r.fvg.gaps bull) ∧
      r.fvg.retest bull = (s.fvg.gaps bull ++ new).any fun g =>
        !g.ended m.cfg bar bull r.barIndex && g.retested bar bull r.barIndex := by
  obtain ⟨f, isF, made⟩ := read.fvg
  obtain ⟨new, isNew, one, stamps⟩ := @MtfFvg.examined_eq m.cfg bar bull r.barIndex r.ind.atr
    r.hist f
  obtain ⟨popped, retest⟩ := MtfFvg.next_gaps used made bull
  rw [MtfFvg.aggregate_gaps isF] at isNew
  rw [isNew, fvgMaintain_gaps] at popped
  rw [isNew, fvgMaintain_retest] at retest
  exact ⟨f, new, isF, isNew, one, stamps, popped, retest⟩

/-- A zone after the bar is one from before or of the bar, which the bar does not end. -/
theorem Read.survives (read : Read m bar s r) (used : m.cfg.useFvg = true) {g : Gap}
    (inside : g ∈ r.fvg.gaps bull) : ∃ b, (b ∈ s.fvg.gaps bull ∨ b.bar = r.barIndex) ∧
      b.ended m.cfg bar bull r.barIndex = false ∧ g.bar = b.bar ∧
      ∀ c, g.filled m.cfg c bull = b.filled m.cfg c bull := by
  obtain ⟨_, new, _, _, _, stamps, popped, _⟩ := read.zones used bull
  obtain ⟨b, isIn, lives, isG⟩ := mem_sweep.mp ((popGaps_some popped).1.subset inside)
  refine ⟨b, (List.mem_append.mp isIn).imp_right (stamps b), lives, ?_, ?_⟩
  · rw [← isG]
    exact @born_swept _ Gap.lifecycle (Gap.retested bar bull r.barIndex) b
  · intro c
    rw [← isG]
    split
    · rfl
    · rfl

/-- Reading a bar keeps the zones stamped by the bars so far and held well. -/
theorem Read.zoned (read : Read m bar s r) (zoned : Zoned m s) : Zoned m r := by
  have counted : r.barIndex = s.bars.length := by
    rw [read.barIndex]
    exact zoned.counted
  have bars := read.bars
  cases used : m.cfg.useFvg with
  | false =>
    have same (bull : Bool) : r.fvg.gaps bull = s.fvg.gaps bull := by
      obtain ⟨f, isF, made⟩ := read.fvg
      rw [(MtfFvg.next_unused used made bull).1, MtfFvg.aggregate_gaps isF]
    have none (bull : Bool) : r.fvg.gaps bull = [] := by rw [same, zoned.idle used]
    constructor
    · rw [counted, bars, List.length_append]
      rfl
    · intro bull
      rw [none]
      exact Stamped.nil _ _
    · constructor
      · intro bull g inside
        rw [none] at inside
        exact absurd inside List.not_mem_nil
      · intro bull g inside
        rw [none] at inside
        exact absurd inside List.not_mem_nil
      · intro bull
        rw [same]
        exact zoned.held.few bull
    · exact fun _ => none
  | true =>
    constructor
    · rw [counted, bars, List.length_append]
      rfl
    · intro bull
      obtain ⟨_, new, _, _, one, stamps, popped, _⟩ := read.zones used bull
      have joined := (zoned.stamped bull).join (by rw [read.barIndex]; omega) one stamps
      exact joined.swept.of_sublist (popGaps_some popped).1
    · constructor
      · intro bull g inside
        obtain ⟨b, _, lives, stamp, _⟩ := read.survives used inside
        unfold Gap.ended Gap.expired at lives
        simp only [Bool.or_eq_false_iff, decide_eq_false_iff_not] at lives
        rw [stamp]
        exact not_lt.mp lives.2
      · intro bull g inside i c since isC
        obtain ⟨b, old, lives, stamp, filled⟩ := read.survives used inside
        rw [filled]
        rw [stamp] at since
        rw [bars] at isC
        rcases Nat.lt_or_ge i s.bars.length with before | now
        · rw [List.getElem?_append_left before] at isC
          rcases old with held | new
          · exact zoned.held.whole bull b held i c since isC
          · omega
        · have here : c = bar := by
            rw [List.getElem?_append_right now] at isC
            exact (List.mem_singleton.mp (List.mem_of_getElem? isC))
          unfold Gap.ended at lives
          rw [here]
          exact (Bool.or_eq_false_iff.mp lives).1
      · intro bull
        obtain ⟨_, _, _, _, _, _, popped, _⟩ := read.zones used bull
        exact (popGaps_some popped).2
    · intro unused
      rw [used] at unused
      cases unused

/-- Acting on a bar keeps the zones as they should be. -/
theorem Kept.zoned (kept : Kept s t) (zoned : Zoned m s) : Zoned m t where
  counted := by
    rw [kept.barIndex, kept.bars]
    exact zoned.counted
  stamped := by
    rw [kept.barIndex, kept.fvg]
    exact zoned.stamped
  held := by
    obtain ⟨young, whole, few⟩ := zoned.held
    constructor
    · rw [kept.barIndex, kept.fvg]
      exact young
    · rw [kept.bars, kept.fvg]
      exact whole
    · rw [kept.fvg]
      exact few
  idle := by
    rw [kept.fvg]
    exact zoned.idle

variable {event : MtfEvent}

theorem take_zoned (zoned : Zoned m s) (taken : s.take m event = some t) : Zoned m t := by
  rcases take_endsBar taken with ⟨_, r, reads, kept⟩ | ⟨_, kept⟩
  · exact kept.zoned ((readBar_read reads).zoned zoned)
  · exact kept.zoned zoned

/-- A fresh strategy has no zones. -/
theorem fresh_zoned (nonneg : 0 ≤ m.cfg.fvgMaxKeep) (built : m.fresh = some s) : Zoned m s := by
  obtain ⟨window, _, isS⟩ := Option.bind_eq_some_iff.mp built
  cases Option.some.inj isS
  have none (bull : Bool) : MtfFvg.gaps bull {} = [] := by
    cases bull with
    | true => rfl
    | false => rfl
  constructor
  · rfl
  · intro bull
    change Stamped _ _ (MtfFvg.gaps bull {})
    rw [none]
    exact Stamped.nil _ _
  · constructor
    · intro bull g inside
      change g ∈ MtfFvg.gaps bull {} at inside
      rw [none] at inside
      exact absurd inside List.not_mem_nil
    · intro bull g inside
      change g ∈ MtfFvg.gaps bull {} at inside
      rw [none] at inside
      exact absurd inside List.not_mem_nil
    · intro bull
      change ((MtfFvg.gaps bull {}).length : Int) ≤ _
      rw [none]
      exact nonneg
  · exact fun _ => none

/-! ## Triggers -/

/-- Without a completed bar, or with the engine off, there are none. -/
theorem triggers_idle (idle : ¬EndsBar s event ∨ m.cfg.useFvg = false) (bull : Bool) :
    s.triggers m event bull = [] := by
  unfold triggers
  refine if_neg ?_
  rintro ⟨ends, used⟩
  rcases idle with within | unused
  · exact within ends
  · rw [used] at unused
    cases unused

/-- The triggers of a completed bar: the zones that it neither ends nor leaves untouched. -/
theorem triggers_eq (ends : EndsBar s event) (used : m.cfg.useFvg = true)
    (reads : s.readBar m s.curBar = some r) {f : MtfFvg}
    (isF : s.fvg.aggregate m.cfg s.curBar = some f) (bull : Bool) :
    s.triggers m event bull =
      (f.examined m.cfg s.curBar r.ind.atr r.hist r.barIndex bull).filter fun g =>
        !g.ended m.cfg s.curBar bull r.barIndex && g.retested s.curBar bull r.barIndex := by
  have alone (g : Gap) : (fvgMaintain m.cfg s.curBar bull r.barIndex [g]).retest =
      (!g.ended m.cfg s.curBar bull r.barIndex && g.retested s.curBar bull r.barIndex) := by
    rw [fvgMaintain_retest, List.any_cons, List.any_nil, Bool.or_false]
  unfold triggers
  rw [if_pos ⟨ends, used⟩, reads, isF]
  simp only [alone]

/-- What a bar retests is unspent and of an earlier bar. -/
theorem retested_before {g : Gap} (retested : g.retested bar bull bi = true) :
    g.used = false ∧ g.bar < bi := by
  unfold Gap.retested at retested
  simp only [Bool.and_eq_true, Bool.not_eq_true', decide_eq_true_eq] at retested
  exact ⟨retested.1.1, retested.1.2⟩

/-- A bar that ends is triggered by young, unfilled zones of earlier bars only. -/
theorem triggers_fair (taken : s.take m event = some t) : TriggersFair m s event t := by
  intro ends bull
  rcases take_endsBar taken with ⟨_, r, reads, kept⟩ | ⟨within, _⟩
  · have read := readBar_read reads
    rw [kept.fvg, kept.barIndex]
    cases used : m.cfg.useFvg with
    | false =>
      obtain ⟨f, _, made⟩ := read.fvg
      rw [triggers_idle (.inr used), (MtfFvg.next_unused used made bull).2]
      refine ⟨by simp only [Bool.false_eq_true, ne_eq, not_true_eq_false], ?_⟩
      exact fun g inside => absurd inside List.not_mem_nil
    | true =>
      obtain ⟨f, new, isF, isNew, _, stamps, _, retest⟩ := read.zones used bull
      rw [triggers_eq ends used reads isF, isNew, retest]
      constructor
      · rw [List.any_eq_true, ne_eq, List.filter_eq_nil_iff, not_forall]
        simp only [not_forall, not_not, exists_prop]
      · intro g inside
        obtain ⟨isIn, fires⟩ := List.mem_filter.mp inside
        obtain ⟨lives, retested⟩ := Bool.and_eq_true_iff.mp fires
        obtain ⟨_, before⟩ := retested_before retested
        unfold Gap.ended Gap.expired at lives
        simp only [Bool.not_eq_true', Bool.or_eq_false_iff, decide_eq_false_iff_not] at lives
        refine ⟨?_, before, not_lt.mp lives.2, lives.1⟩
        rcases List.mem_append.mp isIn with held | young
        · exact held
        · exact absurd (stamps g young) before.ne
  · exact absurd ends within

/-- The stamp may yet be that of a trigger. -/
def MayTrigger (bull : Bool) (s : MtfStrategy) (stamp : Int) : Prop :=
  Waits Gap.lifecycle (s.fvg.gaps bull) stamp ∨ s.barIndex < stamp

/-- A zone that a step retests might have been before it, and may not be after it. -/
theorem triggers_spend (zoned : Zoned m s) (taken : s.take m event = some t) (bull : Bool) :
    ((s.triggers m event bull).map Gap.bar).Nodup ∧
      (∀ k ∈ (s.triggers m event bull).map Gap.bar, MayTrigger bull s k ∧ ¬MayTrigger bull t k) ∧
      ∀ k, MayTrigger bull t k → MayTrigger bull s k := by
  rcases take_endsBar taken with ⟨ends, r, reads, kept⟩ | ⟨within, kept⟩
  · have read := readBar_read reads
    unfold MayTrigger
    rw [kept.fvg, kept.barIndex, read.barIndex]
    cases used : m.cfg.useFvg with
    | false =>
      obtain ⟨f, isF, made⟩ := read.fvg
      rw [triggers_idle (.inr used), (MtfFvg.next_unused used made bull).1,
        MtfFvg.aggregate_gaps isF]
      refine ⟨List.nodup_nil, fun k inside => absurd inside List.not_mem_nil, ?_⟩
      exact fun k => Or.imp_right fun later => by omega
    | true =>
      obtain ⟨f, new, isF, isNew, one, stamps, popped, _⟩ := read.zones used bull
      have joined := (zoned.stamped bull).join (by rw [read.barIndex]; omega) one stamps
      rw [triggers_eq ends used reads isF, isNew]
      rw [read.barIndex] at stamps joined popped ⊢
      have back (k : Int) (waits : Waits Gap.lifecycle (r.fvg.gaps bull) k) :=
        (waits.of_subset (popGaps_some popped).1.subset).of_swept joined
      refine ⟨?_, ?_, ?_⟩
      · refine List.Pairwise.map _ (fun a b before => ?_)
          (joined.apart.sublist List.filter_sublist)
        exact Int.ne_of_lt before
      · intro k inside
        obtain ⟨g, isTrigger, isK⟩ := List.mem_map.mp inside
        obtain ⟨isIn, fires⟩ := List.mem_filter.mp isTrigger
        obtain ⟨_, retested⟩ := Bool.and_eq_true_iff.mp fires
        obtain ⟨unspent, before⟩ := retested_before retested
        have held : g ∈ s.fvg.gaps bull := by
          rcases List.mem_append.mp isIn with held | young
          · exact held
          · exact absurd (stamps g young) before.ne
        refine ⟨.inl ⟨g, held, unspent, isK⟩, ?_⟩
        rintro (waits | later)
        · have never := (back k waits).2 g isIn isK
          rw [retested] at never
          cases never
        · omega
      · rintro k (waits | later)
        · obtain ⟨g, isIn, unspent, isK⟩ := (back k waits).1
          rcases List.mem_append.mp isIn with held | young
          · exact .inl ⟨g, held, unspent, isK⟩
          · have stamp := stamps g young
            change g.bar = k at isK
            exact .inr (by omega)
        · exact .inr (by omega)
  · rw [triggers_idle (.inl within)]
    unfold MayTrigger
    rw [kept.fvg, kept.barIndex]
    exact ⟨List.nodup_nil, fun k inside => absurd inside List.not_mem_nil, fun k may => may⟩

end MtfStrategy

open MtfStrategy

/-- The zones live well along a run: they are held well in every state, each trigger is fair,
and no zone of a side is retested twice. -/
structure ZonesLive (m : MtfDesk) (start : MtfStrategy) (events : List MtfEvent) : Prop where
  held : ∀ t, reach (take m) start events = some t → ZonesHeld m t
  fair : Each (take m) (TriggersFair m) start events
  once : ∀ bull, (outputs (take m) (fun s event => (s.triggers m event bull).map Gap.bar)
    start events).Nodup

/-- The engine has a result on every bar, and the zones live well along every run, exactly if
the configured maximum is not negative. -/
theorem zones_live_iff {m : MtfDesk} {start : MtfStrategy} (built : m.fresh = some start) :
    ((∀ (f : MtfFvg) bar atr hist bi, (f.next m.cfg bar atr hist bi).isSome = true) ∧
        ∀ events, ZonesLive m start events) ↔ 0 ≤ m.cfg.fvgMaxKeep := by
  constructor
  · rintro ⟨_, live⟩
    have few := ((live []).held start rfl).few true
    exact le_trans (Int.natCast_nonneg _) few
  · intro nonneg
    have zoned := fresh_zoned nonneg built
    refine ⟨fun f bar atr hist bi => MtfFvg.next_isSome nonneg f, fun events => ?_⟩
    have always : Meets (take m) (fun _ _ => True) start events :=
      meets_of_forall (fun _ _ => trivial) start events
    have keeps (s : MtfStrategy) (event : MtfEvent) (t : MtfStrategy) (zoned : Zoned m s)
        (_ : True) (taken : s.take m event = some t) : Zoned m t :=
      take_zoned zoned taken
    have fair (s : MtfStrategy) (event : MtfEvent) (t : MtfStrategy) (zoned : Zoned m s)
        (_ : True) (taken : s.take m event = some t) :
        TriggersFair m s event t ∧ Zoned m t :=
      ⟨triggers_fair taken, take_zoned zoned taken⟩
    constructor
    · intro t arrives
      exact (reach_invariant keeps zoned always arrives).held
    · exact each_of_invariant fair zoned always
    · intro bull
      have spend (s : MtfStrategy) (event : MtfEvent) (t : MtfStrategy) (zoned : Zoned m s)
          (taken : s.take m event = some t) :=
        And.intro (take_zoned zoned taken) (triggers_spend zoned taken bull)
      exact outputs_nodup spend zoned

/-- The default configuration with a maximum of zones. -/
def keepingDesk (keep : Int) : MtfDesk where
  cfg := { fvgMaxKeep := keep }
  sqrt := id

theorem zones_live_of_eight : ∃ start, (keepingDesk 8).fresh = some start ∧
    ∀ events, ZonesLive (keepingDesk 8) start events := by
  have built : (keepingDesk 8).fresh.isSome := by decide +kernel
  obtain ⟨start, isStart⟩ := Option.isSome_iff_exists.mp built
  exact ⟨start, isStart, ((zones_live_iff isStart).mpr (by decide)).2⟩

/-- A negative maximum passes the checks of the configuration, and the first completed bar pops
a side that holds no zone. -/
theorem negative_keep_pops_nothing : (keepingDesk (-1)).cfg.validate = .ok () ∧
    ((keepingDesk (-1)).play [.print 100 100]).isSome = true ∧
    (keepingDesk (-1)).play [.print 100 100, .print 101 100] = none ∧
    ((keepingDesk 0).play [.print 100 100, .print 101 100]).isSome = true ∧
    ¬∀ (f : MtfFvg) bar atr hist bi,
      (f.next (keepingDesk (-1)).cfg bar atr hist bi).isSome = true := by
  refine ⟨by decide +kernel, by decide +kernel, ?_, by decide +kernel, ?_⟩
  · exact Option.isNone_iff_eq_none.mp (by decide +kernel)
  · intro total
    have pops := total {} {} .nan [] 0
    exact absurd pops (by decide +kernel)

end RithmicEngine
