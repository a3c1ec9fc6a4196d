import RithmicEngine.Base.Outcomes
import RithmicEngine.Execution.TrendEngine
/-!
# What a trend mode can do

Whatever a mode decides, it leaves the histories, the indicators, the bars in progress and
the higher frame alone. It stays quiet, or signals the exit once, or signals one entry on a
side that the gate admits at that moment; what it notes for itself it notes before.
-/
namespace RithmicEngine

open Outcomes

namespace TrendStrategy

/-- The histories, the indicators, the bars in progress and the higher frame stay. -/
structure Frame (s t : TrendStrategy) : Prop where
  htf : t.htf = s.htf
  tf : t.tf = s.tf
  ind : t.ind = s.ind
  m1 : t.m1 = s.m1
  tfCur : t.tfCur = s.tfCur

theorem Frame.refl (s : TrendStrategy) : Frame s s := ⟨rfl, rfl, rfl, rfl, rfl⟩

variable {sig : OrbSignal} {px : ℚ} {c : Prop} {mod : Int} {u : TrendStrategy} {why : String}

theorem Frame.trans {s t : TrendStrategy} (first : Frame s u) (second : Frame u t) : Frame s t where
  htf := second.htf.trans first.htf
  tf := second.tf.trans first.tf
  ind := second.ind.trans first.ind
  m1 := second.m1.trans first.m1
  tfCur := second.tfCur.trans first.tfCur

/-- Neither the host nor the position sees a change. -/
structure Quiet (s t : TrendStrategy) : Prop extends Frame s t where
  sess : t.sess = s.sess
  marks : t.marks = s.marks

theorem Quiet.refl (s : TrendStrategy) : Quiet s s := ⟨.refl s, rfl, rfl⟩

theorem Quiet.trans {s t : TrendStrategy} (first : Quiet s u) (second : Quiet u t) : Quiet s t where
  toFrame := first.toFrame.trans second.toFrame
  sess := second.sess.trans first.sess
  marks := second.marks.trans first.marks

variable {m : TrendMoment} {b : Bar} {s : TrendStrategy}

theorem Quiet.canEnter {t : TrendStrategy} (idle : Quiet s t) (dir : SignType) :
    t.canEnter m dir = s.canEnter m dir := by
  unfold TrendStrategy.canEnter
  rw [idle.sess, idle.htf]

/-- The close that the host tells of before a call of it returns. -/
def told (m : TrendMoment) (c : TrendCall) : List TrendMark := if m.closes c then [.closed] else []

theorem callBack_frame : Frame s (s.callBack m sig px why) := by
  dsimp only [callBack]
  split_ifs
  · exact ⟨rfl, rfl, rfl, rfl, rfl⟩
  · exact ⟨rfl, rfl, rfl, rfl, rfl⟩

theorem callBack_marks :
    (s.callBack m sig px why).marks =
      s.marks ++ .call (s.calling m sig px why) :: told m (s.calling m sig px why) := by
  dsimp only [callBack, told]
  split_ifs
  · exact List.append_assoc _ _ _
  · rfl

theorem emit_frame : Frame s (s.emit m sig px why) := by
  have called : Frame s (s.callBack m sig px why) := callBack_frame
  cases sig with
  | buy => exact called.trans ⟨rfl, rfl, rfl, rfl, rfl⟩
  | sell => exact called.trans ⟨rfl, rfl, rfl, rfl, rfl⟩
  | none => exact called
  | flattenEod => exact called

theorem emit_marks :
    (s.emit m sig px why).marks =
      s.marks ++ .call (s.calling m sig px why) :: told m (s.calling m sig px why) := by
  cases sig with
  | buy => exact callBack_marks
  | sell => exact callBack_marks
  | none => exact callBack_marks
  | flattenEod => exact callBack_marks

/-- The outcomes of a mode. -/
inductive Decides (m : TrendMoment) (s t : TrendStrategy) : Prop
  | quiet (idle : Quiet s t)
  | exits (u : TrendStrategy) (px : ℚ) (why : String) (idle : Quiet s u)
    (isExit : t = u.emit m .flattenEod px why)
  | enters (u : TrendStrategy) (dir : SignType) (px : ℚ) (why : String) (idle : Quiet s u)
    (side : dir ≠ 0) (gate : s.canEnter m dir = true)
    (isEntry : t = u.emit m (sideSignal dir) px why)

/-- What stays quiet first decides as the rest does. -/
theorem Decides.after {t : TrendStrategy} (idle : Quiet s u) (rest : Decides m u t) :
    Decides m s t := by
  cases rest with
  | quiet later => exact .quiet (idle.trans later)
  | exits v px why later isExit => exact .exits v px why (idle.trans later) isExit
  | enters v dir px why later side gate isEntry =>
    exact .enters v dir px why (idle.trans later) side (idle.canEnter dir ▸ gate) isEntry

theorem Decides.frame {t : TrendStrategy} (decides : Decides m s t) : Frame s t := by
  cases decides with
  | quiet idle => exact idle.toFrame
  | exits u px why idle isExit =>
    rw [isExit]
    exact idle.toFrame.trans emit_frame
  | enters u dir px why idle side gate isEntry =>
    rw [isEntry]
    exact idle.toFrame.trans emit_frame

/-- The host is called once, or not at all. -/
theorem Decides.marks {t : TrendStrategy} (decides : Decides m s t) :
    t.marks = s.marks ∨ ∃ c, t.marks = s.marks ++ .call c :: told m c := by
  cases decides with
  | quiet idle => exact .inl idle.marks
  | exits u px why idle isExit =>
    rw [isExit, emit_marks, idle.marks]
    exact .inr ⟨_, rfl⟩
  | enters u dir px why idle side gate isEntry =>
    rw [isEntry, emit_marks, idle.marks]
    exact .inr ⟨_, rfl⟩

theorem decides_flatten : Decides m s (s.flatten m b why) :=
  .exits s b.c why (.refl s) rfl

theorem side_neg {dir : SignType} (side : dir ≠ 0) : -dir ≠ 0 := by
  cases dir with
  | zero => exact side
  | neg => decide
  | pos => decide

/-- A mode that tries both sides decides as a mode may. -/
theorem decides_eitherSide {first : SignType} {cond other : Bool} {otherWhy : String}
    {noted : SignType → TrendStrategy → TrendStrategy} (side : first ≠ 0)
    (idle : ∀ dir u, Quiet u (noted dir u)) :
    Decides m s (s.eitherSide m first cond other px why otherWhy noted) := by
  unfold eitherSide
  split_ifs with left right
  · exact .enters _ first px why (idle first s) side left.2 rfl
  · exact .enters _ (-first) px otherWhy (idle (-first) s) (side_neg side) right.2 rfl
  · exact .quiet (.refl s)

theorem unnoted_quiet (dir : SignType) (u : TrendStrategy) : Quiet u (unnoted dir u) := .refl u

theorem decides_enter {dir : SignType} (side : dir ≠ 0) :
    Decides m s (s.enter m dir px why) := decides_eitherSide side unnoted_quiet

/-- A change of what the modes remember. -/
theorem quiet_of_memory (session : SessionModes) (modes : TrendModes) :
    Quiet s { s with session := session, modes := modes } := ⟨⟨rfl, rfl, rfl, rfl, rfl⟩, rfl, rfl⟩

/-! ## Rules for a mode's body -/

/-- Every outcome of the body is one that a mode may have. -/
def Acts (m : TrendMoment) (s : TrendStrategy) (body : Option TrendStrategy) : Prop :=
  Comes (Decides m s) body

theorem acts_pure {t : TrendStrategy} (decides : Decides m s t) : Acts m s (pure t) :=
  comes_pure decides

theorem acts_bind {α : Type} {first : Option α} {next : α → Option TrendStrategy}
    (later : ∀ x, Acts m s (next x)) : Acts m s (first >>= next) := comes_bind later

theorem acts_unless [Decidable c] {t : TrendStrategy} {rest : Option TrendStrategy}
    (now : Decides m s t) (later : Acts m s rest) : Acts m s (if c then pure t else rest) :=
  comes_ite (acts_pure now) later

theorem acts_skip [Decidable c] {rest : Option TrendStrategy} (later : Acts m s rest) :
    Acts m s (if c then pure s else rest) :=
  acts_unless (.quiet (.refl s)) later

theorem acts_after {body : Option TrendStrategy} (idle : Quiet s u) (rest : Acts m u body) :
    Acts m s body := fun t isT => (rest t isT).after idle

/-! ## Breakouts -/

theorem modeDonchian_acts : Acts m s (s.modeDonchian m b) := by
  apply acts_skip
  apply acts_bind
  intro _
  exact acts_pure (decides_eitherSide (by decide) unnoted_quiet)

theorem modePdhl_acts : Acts m s (s.modePdhl m b) := by
  apply acts_skip
  apply acts_skip
  apply acts_skip
  apply acts_bind
  intro _
  apply acts_bind
  intro _
  apply acts_skip
  apply acts_skip
  apply acts_bind
  intro _
  exact acts_pure (decides_eitherSide (by decide) unnoted_quiet)

theorem modeSqueeze_acts : Acts m s (s.modeSqueeze m b) := by
  apply acts_skip
  apply acts_bind
  intro _
  apply acts_unless (.quiet (quiet_of_memory _ _))
  apply acts_after (quiet_of_memory _ _)
  apply acts_skip
  exact acts_pure (decides_eitherSide (by decide) unnoted_quiet)

theorem modeNr7_acts : Acts m s (s.modeNr7 m b) := by
  apply acts_skip
  apply acts_bind
  intro _
  apply acts_bind
  intro _
  apply acts_skip
  exact acts_pure (decides_eitherSide (by decide) unnoted_quiet)

theorem modeAtrBreak_acts : Acts m s (s.modeAtrBreak m b) := by
  apply acts_skip
  apply acts_skip
  apply acts_skip
  apply acts_skip
  apply acts_bind
  intro _
  exact acts_pure (decides_eitherSide (by decide) fun _ _ => quiet_of_memory _ _)

theorem modeNewsBreak_acts : Acts m s (s.modeNewsBreak m b) := by
  apply acts_skip
  apply acts_skip
  apply acts_unless (.quiet (quiet_of_memory _ _))
  apply acts_after (quiet_of_memory _ _)
  apply acts_skip
  apply acts_skip
  exact acts_pure (decides_eitherSide (by decide) fun _ _ => quiet_of_memory _ _)

/-- The break of the initial balance acts as a mode may. -/
theorem modeIbBreak_acts : Acts m s (s.modeIbBreak m b) := by
  apply acts_skip
  apply acts_unless (.quiet (quiet_of_memory _ _))
  apply acts_after (quiet_of_memory _ _)
  apply acts_skip
  apply comes_ite
  · apply acts_unless (decides_flatten.after (quiet_of_memory _ _))
    exact acts_pure (.quiet (.refl _))
  · exact acts_pure (decides_eitherSide (by decide) fun _ _ => quiet_of_memory _ _)

/-! ## Pullbacks -/

theorem pullback_acts {up dn : Bool} {line : Double} {longWhy shortWhy : String} :
    Acts m s (s.pullback m b up dn line longWhy shortWhy) := by
  apply acts_bind
  intro _
  apply acts_skip
  exact acts_pure (decides_eitherSide (by decide) unnoted_quiet)

theorem modeEmaPullback_acts : Acts m s (s.modeEmaPullback m b) := by
  apply acts_skip
  apply acts_bind
  intro _
  apply acts_unless decides_flatten
  exact pullback_acts

theorem modeEmaRibbon_acts : Acts m s (s.modeEmaRibbon m b) := by
  apply acts_skip
  apply acts_unless decides_flatten
  apply acts_skip
  exact pullback_acts

theorem modeVwap_acts : Acts m s (s.modeVwap m b) := by
  apply acts_skip
  apply acts_bind
  intro _
  exact acts_pure (decides_eitherSide (by decide) unnoted_quiet)

theorem modeTrendDay_acts : Acts m s (s.modeTrendDay m b) := by
  apply acts_skip
  apply acts_skip
  exact acts_pure (decides_eitherSide (by decide) unnoted_quiet)

theorem decideDrive_quiet : Quiet s (s.decideDrive m b) := by
  unfold decideDrive
  split_ifs
  · exact quiet_of_memory _ _
  · exact .refl s

theorem modeDrive_acts : Acts m s (s.modeDrive m b) := by
  apply acts_skip
  apply acts_after decideDrive_quiet
  apply acts_skip
  apply acts_skip
  apply acts_bind
  intro _
  exact acts_pure (decides_eitherSide (by decide) unnoted_quiet)

/-- The retest of the opening range acts as a mode may. -/
theorem modeOrbRetest_acts : Acts m s (s.modeOrbRetest m b) := by
  apply acts_skip
  apply acts_unless (.quiet (quiet_of_memory _ _))
  apply acts_after (quiet_of_memory _ _)
  apply acts_skip
  apply comes_ite
  · apply acts_unless (.quiet (quiet_of_memory _ _))
    apply acts_unless (.quiet (quiet_of_memory _ _))
    exact acts_pure (.quiet (.refl _))
  · apply acts_after (quiet_of_memory _ _)
    apply acts_unless (.quiet (quiet_of_memory _ _))
    exact acts_pure (decides_eitherSide (by decide) fun _ _ => quiet_of_memory _ _)

/-! ## Momentum -/

theorem modeSupertrend_acts : Acts m s (s.modeSupertrend m b) := by
  apply acts_skip
  apply acts_bind
  intro _
  apply acts_after (quiet_of_memory _ _)
  apply acts_unless (decides_flatten.after (quiet_of_memory _ _))
  apply acts_skip
  exact acts_pure (decides_eitherSide (by decide) fun _ _ => quiet_of_memory _ _)

theorem modeKeltner_acts : Acts m s (s.modeKeltner m b) := by
  apply acts_skip
  apply acts_unless decides_flatten
  apply acts_bind
  intro _
  exact acts_pure (decides_eitherSide (by decide) unnoted_quiet)

theorem modeIchimoku_acts : Acts m s (s.modeIchimoku m b) := by
  apply acts_skip
  apply acts_bind
  intro _
  apply acts_bind
  intro _
  apply acts_bind
  intro _
  apply acts_bind
  intro _
  apply acts_bind
  intro _
  apply acts_unless decides_flatten
  apply acts_bind
  intro _
  exact acts_pure (decides_eitherSide (by decide) unnoted_quiet)

theorem modeRoc_acts : Acts m s (s.modeRoc m b) := by
  apply acts_skip
  apply acts_bind
  intro _
  apply acts_bind
  intro _
  exact acts_pure (decides_eitherSide (by decide) unnoted_quiet)

theorem modeDelta_acts : Acts m s (s.modeDelta m b) := by
  apply acts_skip
  apply acts_skip
  apply acts_bind
  intro _
  apply acts_bind
  intro _
  exact acts_pure (decides_eitherSide (by decide) unnoted_quiet)

theorem modeFib_acts : Acts m s (s.modeFib m b) := by
  apply acts_skip
  apply acts_bind
  intro bars
  apply acts_bind
  intro _
  cases swing bars with
  | none => exact acts_pure (.quiet (.refl s))
  | some _ => exact acts_pure (decides_eitherSide (by decide) unnoted_quiet)

theorem modeVolumeBurst_acts : Acts m s (s.modeVolumeBurst m b) := by
  apply acts_bind
  intro _
  apply acts_skip
  apply acts_skip
  exact acts_pure (decides_eitherSide (by decide) unnoted_quiet)

theorem modeHold_acts : Acts m s (s.modeHold m b) := by
  apply acts_skip
  apply acts_skip
  apply acts_after (quiet_of_memory _ _)
  apply acts_skip
  apply acts_skip
  apply acts_skip
  have side : (if m.tc.holdDir < 0 then -1 else 1 : SignType) ≠ 0 := by
    split_ifs
    · decide
    · decide
  exact acts_pure (decides_enter side)

theorem modeGap_acts : Acts m s (s.modeGap m b) := by
  apply acts_skip
  apply acts_skip
  apply acts_after (quiet_of_memory _ _)
  apply acts_skip
  apply acts_skip
  exact acts_pure (decides_eitherSide (by decide) unnoted_quiet)

theorem modeRs_acts : Acts m s (s.modeRs m b) := by
  apply acts_skip
  apply acts_bind
  intro _
  apply acts_bind
  intro _
  apply acts_bind
  intro _
  exact acts_pure (decides_eitherSide (by decide) unnoted_quiet)

theorem modeTod_acts : Acts m s (s.modeTod m b) := by
  apply acts_skip
  apply acts_unless (.quiet (quiet_of_memory _ _))
  apply acts_skip
  apply acts_bind
  intro _
  apply acts_skip
  apply acts_after (quiet_of_memory _ _)
  exact acts_pure (decides_eitherSide (by decide) unnoted_quiet)

theorem recogniseTrendDay_acts : Acts m s (s.recogniseTrendDay m b) := by
  apply acts_skip
  apply acts_skip
  apply acts_bind
  intro _
  exact acts_pure (.quiet (quiet_of_memory _ _))

/-! ## Fades -/

/-- The volume profile acts as a mode may. -/
theorem modeVprofile_acts : Acts m s (s.modeVprofile m b) := by
  apply acts_skip
  apply comes_ite
  · apply acts_unless (decides_flatten.after (quiet_of_memory _ _))
    exact acts_pure (.quiet (.refl s))
  apply acts_skip
  apply acts_bind
  intro _
  apply comes_ite
  · exact acts_pure (decides_eitherSide (by decide) fun _ _ => quiet_of_memory _ _)
  · exact acts_pure (decides_eitherSide (by decide) fun _ _ => quiet_of_memory _ _)

theorem modeGapFade_acts : Acts m s (s.modeGapFade m b) := by
  apply acts_skip
  apply acts_skip
  apply comes_ite
  · apply acts_unless (decides_flatten.after (quiet_of_memory _ _))
    exact acts_pure (.quiet (.refl s))
  apply acts_skip
  exact acts_pure (decides_eitherSide (by decide) fun _ _ => quiet_of_memory _ _)

theorem armFailedBreakout_quiet {bars : List Bar} : Quiet s (s.armFailedBreakout b bars) := by
  unfold armFailedBreakout
  split_ifs
  · exact quiet_of_memory _ _
  · exact quiet_of_memory _ _
  · exact .refl s

/-- The failed breakout acts as a mode may. -/
theorem modeFailedBreakout_acts : Acts m s (s.modeFailedBreakout m b) := by
  apply acts_skip
  apply acts_bind
  intro _
  apply acts_unless (.quiet armFailedBreakout_quiet)
  apply acts_after (quiet_of_memory _ _)
  apply acts_unless (.quiet ((quiet_of_memory _ _).trans armFailedBreakout_quiet))
  apply acts_unless ((decides_enter (by decide)).after (quiet_of_memory _ _))
  apply acts_unless ((decides_enter (by decide)).after (quiet_of_memory _ _))
  exact acts_pure (.quiet (.refl _))

theorem modeVwapFade_acts : Acts m s (s.modeVwapFade m b) := by
  apply acts_skip
  apply acts_skip
  apply acts_unless decides_flatten
  apply acts_bind
  intro _
  exact acts_pure (decides_eitherSide (by decide) unnoted_quiet)

theorem modeBandFade_acts : Acts m s (s.modeBandFade m b) := by
  apply acts_skip
  apply acts_bind
  intro _
  apply acts_unless decides_flatten
  apply acts_bind
  intro _
  exact acts_pure (decides_eitherSide (by decide) unnoted_quiet)

theorem modeRsi2_acts : Acts m s (s.modeRsi2 m b) := by
  apply acts_skip
  apply acts_bind
  intro _
  apply acts_unless decides_flatten
  exact acts_pure (decides_eitherSide (by decide) unnoted_quiet)

theorem modeThrustFade_acts : Acts m s (s.modeThrustFade m b) := by
  apply acts_skip
  apply acts_unless decides_flatten
  apply acts_bind
  intro _
  apply acts_bind
  intro _
  apply acts_bind
  intro _
  apply acts_skip
  apply acts_skip
  exact acts_pure (decides_eitherSide (by decide) fun _ _ => quiet_of_memory _ _)

theorem armAbsorption_acts : Acts m s (s.armAbsorption m b) := by
  apply acts_skip
  apply acts_bind
  intro _
  apply acts_skip
  apply acts_skip
  apply acts_bind
  intro _
  apply acts_skip
  exact acts_pure (.quiet (quiet_of_memory _ _))

theorem modeAbsorption_acts : Acts m s (s.modeAbsorption m b) := by
  apply comes_ite
  · exact armAbsorption_acts
  · apply acts_after (quiet_of_memory _ _)
    apply comes_ite
    · exact acts_after (quiet_of_memory _ _) armAbsorption_acts
    · exact acts_pure (decides_eitherSide (by decide) fun _ _ => quiet_of_memory _ _)

theorem modeDeltaDiv_acts : Acts m s (s.modeDeltaDiv m b) := by
  apply acts_skip
  apply acts_bind
  intro _
  apply acts_bind
  intro _
  apply acts_bind
  intro _
  apply acts_bind
  intro _
  exact acts_pure (decides_eitherSide (by decide) unnoted_quiet)

/-! ## Whichever mode is configured -/

/-- Every outcome of a bar's mode is one that the rules allow. By the mode. -/
theorem barMode_acts : Acts m s (s.barMode m b) := by
  unfold barMode
  split
  · exact modeDonchian_acts
  · exact modeTrendDay_acts
  · exact modeFailedBreakout_acts
  · exact modeKeltner_acts
  · exact modeIchimoku_acts
  · exact modeRoc_acts
  · exact modeDelta_acts
  · exact modeFib_acts
  · exact modeVwapFade_acts
  · exact modeBandFade_acts
  · exact modeRsi2_acts
  · exact modeEmaPullback_acts
  · exact modeVwap_acts
  · exact modeDrive_acts
  · exact modePdhl_acts
  · exact modeSqueeze_acts
  · exact modeSupertrend_acts
  · exact modeNr7_acts
  · exact modeEmaRibbon_acts
  · exact modeThrustFade_acts
  · exact modeAbsorption_acts
  · exact modeDeltaDiv_acts
  · exact modeVolumeBurst_acts
  · exact modeOrbRetest_acts
  · exact modeGapFade_acts
  · exact modeNewsBreak_acts
  · exact modeIbBreak_acts
  · exact modeHold_acts
  · exact modeAtrBreak_acts
  · exact modeVprofile_acts
  · exact acts_pure (.quiet (.refl s))

theorem minuteMode_acts : Acts m s (s.minuteMode m b) := by
  unfold minuteMode
  split
  · exact recogniseTrendDay_acts
  · exact modeGap_acts
  · exact modeTod_acts
  · exact modeRs_acts
  · exact acts_pure (.quiet (.refl s))

/-! ## What decides beside the modes -/

theorem timeStop_decides : Decides m s (s.timeStop m b) := by
  unfold timeStop
  split_ifs
  · exact decides_flatten
  · exact .quiet (.refl s)

theorem quiet_ite [Decidable c] {t : TrendStrategy} (left : Quiet s t) (right : Quiet s u) :
    Quiet s (if c then t else u) := by
  split_ifs
  · exact left
  · exact right

theorem followBest_quiet : Quiet s (s.followBest m b) :=
  quiet_ite ⟨⟨rfl, rfl, rfl, rfl, rfl⟩, rfl, rfl⟩ (.refl s)

theorem checkEod_decides : Decides m s (s.checkEod m) := by
  unfold checkEod
  split_ifs
  · exact .exits { s with eodEmitted := true } s.lastPx "session_end"
      ⟨⟨rfl, rfl, rfl, rfl, rfl⟩, rfl, rfl⟩ rfl
  · exact .quiet (.refl s)

theorem decides_ite [Decidable c] {t : TrendStrategy} (left : c → Decides m s t)
    (right : ¬c → Decides m s u) : Decides m s (if c then t else u) := by
  by_cases holds : c
  · rw [if_pos holds]
    exact left holds
  · rw [if_neg holds]
    exact right holds

theorem noteImbalance_quiet {side : SignType} {tsUs : Int} {mid : ℚ} :
    Quiet s (s.noteImbalance side tsUs mid) := ⟨⟨rfl, rfl, rfl, rfl, rfl⟩, rfl, rfl⟩

/-- The book's mode enters and leaves on a quote. -/
theorem onQuote_decides {tsUs bidSz askSz : Int} {bid ask tick : ℚ} :
    Decides m s (s.onQuote m tsUs bid bidSz ask askSz tick) := by
  apply decides_ite
  · intro _
    exact .quiet (.refl s)
  intro _
  apply decides_ite
  · intro _
    exact .quiet (.refl s)
  intro _
  apply Decides.after noteImbalance_quiet
  apply decides_ite
  · intro _
    apply decides_ite
    · intro _
      exact .exits _ _ _ (.refl _) rfl
    · intro _
      exact .quiet (.refl _)
  intro _
  apply decides_ite
  · intro _
    exact .quiet (.refl _)
  intro undecided
  have side := (not_or.mp undecided).1
  apply decides_ite
  · intro _
    exact .quiet (.refl _)
  intro _
  exact decides_enter side

/-! ## The phases of a tick that decide nothing -/

variable {t : OrbTick}

theorem finalizeProfile_quiet {frac : Double} : Quiet s (s.finalizeProfile frac) := by
  unfold finalizeProfile
  split
  · exact .refl s
  · exact ⟨⟨rfl, rfl, rfl, rfl, rfl⟩, rfl, rfl⟩

theorem endSession_quiet : Quiet s (s.endSession m) :=
  Quiet.trans (u := { s with day := { s.day with inRth := false } })
    ⟨⟨rfl, rfl, rfl, rfl, rfl⟩, rfl, rfl⟩ finalizeProfile_quiet

theorem sessionPhase_quiet : Quiet s (s.sessionPhase m t mod) := by
  apply quiet_ite
  · exact ⟨⟨rfl, rfl, rfl, rfl, rfl⟩, rfl, rfl⟩
  · exact quiet_ite endSession_quiet (.refl s)

theorem windowPhase_quiet : Quiet s (s.windowPhase m mod) :=
  quiet_ite (.refl s) ⟨⟨rfl, rfl, rfl, rfl, rfl⟩, rfl, rfl⟩

theorem trackLevels_quiet : Quiet s (s.trackLevels m t mod) := by
  apply quiet_ite
  · exact ⟨⟨rfl, rfl, rfl, rfl, rfl⟩, rfl, rfl⟩
  · exact quiet_ite ⟨⟨rfl, rfl, rfl, rfl, rfl⟩, rfl, rfl⟩ (.refl s)

theorem trackDelta_quiet : Quiet s (s.trackDelta m t mod) :=
  quiet_ite ⟨⟨rfl, rfl, rfl, rfl, rfl⟩, rfl, rfl⟩ (.refl s)

theorem arrive_quiet : Quiet s (s.arrive m t mod) := by
  have noted : Quiet s (s.notePrice t) := ⟨⟨rfl, rfl, rfl, rfl, rfl⟩, rfl, rfl⟩
  exact ((noted.trans sessionPhase_quiet).trans windowPhase_quiet).trans trackLevels_quiet

end TrendStrategy

end RithmicEngine
