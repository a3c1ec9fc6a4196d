import RithmicEngine.Base.Outcomes
import RithmicEngine.Execution.TrendEngine
/-!
# Reads of the trend engine's histories

A mode reads behind a guard that compares a history's length with a sum of configured
lengths. Where that sum fits in 32 bits the guard covers every read; a loop of consecutive
reads needs no guard, since one that starts below zero reads nothing.
-/
namespace RithmicEngine

open Outcomes

/-! ## Indices -/

theorem int32_of_fits {n : Int} (low : -2 ^ 31 ≤ n) (high : n < 2 ^ 31) : int32 n = n := by
  apply Int.bmod_eq_of_le
  · omega
  · omega

variable {i : Int}

theorem wrap64_le (low : 0 ≤ i) : (wrap64 i : Int) ≤ i := by
  unfold wrap64
  omega

theorem wrap64_of_fits (low : 0 ≤ i) (high : i < 2 ^ 64) : (wrap64 i : Int) = i := by
  unfold wrap64
  omega

theorem wrap64_of_neg (low : -2 ^ 63 ≤ i) (high : i < 0) : 2 ^ 63 ≤ wrap64 i := by
  unfold wrap64
  omega

theorem mem_indices {start stop : Int} {i : Nat} (inside : i ∈ indices start stop) :
    wrap64 start ≤ i ∧ i < wrap64 stop := by
  have bounds := List.mem_range'_1.mp inside
  omega

theorem readAt_isSome {α : Type} {xs : List α} (low : 0 ≤ i) (high : i < xs.length) :
    (readAt xs i).isSome := by
  have bound := wrap64_le low
  have inside : wrap64 i < xs.length := by omega
  unfold readAt
  rw [List.getElem?_eq_getElem inside]
  rfl

/-- A loop that ends inside reads inside, wherever it starts. -/
theorem readFrom_isSome {α : Type} {xs : List α} {start stop : Int} (low : 0 ≤ stop)
    (high : stop ≤ xs.length) : (readFrom xs start stop).isSome := by
  have bound := wrap64_le low
  apply isSome_mapM
  intro i inside
  have below : i < xs.length := by
    have inStop := (mem_indices inside).2
    omega
  rw [List.getElem?_eq_getElem below]
  rfl

/-! ## What the guards are about -/

namespace TrendConfig

/-- The lengths and the look-backs. -/
def lengths (cfg : TrendConfig) : List Int :=
  [cfg.atrLen, cfg.donchianN, cfg.emaFast, cfg.emaSlow, cfg.pullbackLookback, cfg.vwapSlopeBars,
    cfg.volAvgBars, cfg.bbLen, cfg.squeezeBars, cfg.stLen, cfg.nrN, cfg.rsLookbackMin,
    cfg.todLookbackMin, cfg.fbBars, cfg.ichiTenkan, cfg.ichiKijun, cfg.ichiSenkou, cfg.rocBars,
    cfg.rocHiBars, cfg.dtBars, cfg.ortMaxBars, cfg.fibSwingBars, cfg.rsiLen, cfg.ribbonFast,
    cfg.ribbonMid, cfg.ribbonSlow, cfg.thrustBars, cfg.absMoveBars, cfg.absArmBars, cfg.ddBars,
    cfg.htfEma]

/-- Positive 32-bit integers. -/
def Positive (cfg : TrendConfig) : Prop := ∀ n ∈ cfg.lengths, 0 < n ∧ n < 2 ^ 31
deriving Decidable

/-- The sum that the mode's guard compares fits in 32 bits, or its look-back is so short
that any two bars hold it. -/
def GuardFits (cfg : TrendConfig) : Bool :=
  match cfg.mode with
  | "vwap_trend" => decide (0 ≤ int32 (cfg.vwapSlopeBars * cfg.tf))
  | "roc_momentum" => decide (cfg.rocBars + cfg.rocHiBars < 2 ^ 31) || decide (cfg.rocBars = 1)
  | "thrust_fade" => decide (cfg.thrustBars + 2 < 2 ^ 31)
  | "absorption_reversal" => decide (cfg.absMoveBars + 2 < 2 ^ 31)
  | "ichimoku" =>
    decide (cfg.ichiSenkou + cfg.ichiKijun + 2 < 2 ^ 31) || decide (cfg.ichiKijun ≤ 2)
  | _ => true

end TrendConfig

namespace TrendStrategy

/-- What holds of the histories where a mode decides on a bar. -/
structure Ready (s : TrendStrategy) : Prop where
  two : 2 ≤ s.tf.length
  capped : s.tf.length ≤ 400
  volumes : 1 ≤ s.ind.volHist.length
  deltas : 1 ≤ s.ind.barDeltaHist.length

variable {m : TrendMoment} {b : Bar} {s : TrendStrategy}

theorem Ready.size (ready : s.Ready) : 2 ≤ s.size ∧ s.size ≤ 400 := by
  have two := ready.two
  have capped := ready.capped
  unfold TrendStrategy.size
  omega

theorem Ready.previous (ready : s.Ready) : s.previous.isSome := by
  have sized := ready.size
  apply readAt_isSome
  · omega
  · unfold TrendStrategy.size
    omega

/-- The bars before the last one, from wherever. -/
theorem Ready.past (ready : s.Ready) (start : Int) : (readFrom s.tf start (s.size - 1)).isSome := by
  have sized := ready.size
  apply readFrom_isSome
  · omega
  · unfold TrendStrategy.size
    omega

theorem average_isSome {sum : Double} {count : Int} (positive : 0 < count) :
    (average m sum count).isSome := by
  unfold average
  rw [if_neg fun void => positive.ne' void.1]
  rfl

theorem midRange_isSome {endExcl len : Int} (low : 0 ≤ endExcl) (high : endExcl ≤ s.size) :
    (s.midRange endExcl len).isSome := by
  have bound := wrap64_le low
  unfold TrendStrategy.size at high
  apply isSome_bind
  · apply readFrom_isSome
    · omega
    · omega
  · intro _ _
    rfl

theorem bollinger_isSome (positive : 0 < m.tc.bbLen) : (s.bollinger m).isSome := by
  apply isSome_bind
  · apply readFrom_isSome
    · unfold TrendStrategy.size
      omega
    · unfold TrendStrategy.size
      omega
  · intro _ _
    apply isSome_bind (average_isSome positive)
    intro _ _
    apply isSome_bind (average_isSome positive)
    intro _ _
    rfl

/-! ## Breakouts -/

theorem modeDonchian_isSome (ready : s.Ready) : (s.modeDonchian m b).isSome := by
  apply isSome_unless
  intro _
  apply isSome_bind (ready.past _)
  intro _ _
  rfl

/-- The levels of the day before stay inside. -/
theorem modePdhl_isSome (ready : s.Ready) (positive : 0 < m.tc.volAvgBars) :
    (s.modePdhl m b).isSome := by
  have volumes := ready.volumes
  apply isSome_unless
  intro _
  apply isSome_unless
  intro _
  apply isSome_unless
  intro _
  apply isSome_bind
  · apply readFrom_isSome
    · omega
    · omega
  intro _ _
  apply isSome_bind (average_isSome positive)
  intro _ _
  apply isSome_unless
  intro _
  apply isSome_unless
  intro _
  apply isSome_bind ready.previous
  intro _ _
  rfl

theorem modeSqueeze_isSome (positive : 0 < m.tc.bbLen) : (s.modeSqueeze m b).isSome := by
  apply isSome_unless
  intro _
  apply isSome_bind (bollinger_isSome positive)
  intro _ _
  apply isSome_unless
  intro _
  apply isSome_unless
  intro _
  rfl

theorem modeNr7_isSome (ready : s.Ready) : (s.modeNr7 m b).isSome := by
  have sized := ready.size
  apply isSome_unless
  intro _
  apply isSome_bind ready.previous
  intro _ _
  apply isSome_bind
  · apply readFrom_isSome
    · omega
    · unfold TrendStrategy.size
      omega
  intro _ _
  apply isSome_unless
  intro _
  rfl

theorem modeAtrBreak_isSome (ready : s.Ready) : (s.modeAtrBreak m b).isSome := by
  apply isSome_unless
  intro _
  apply isSome_unless
  intro _
  apply isSome_unless
  intro _
  apply isSome_unless
  intro _
  apply isSome_bind ready.previous
  intro _ _
  rfl

theorem modeNewsBreak_isSome : (s.modeNewsBreak m b).isSome := by
  apply isSome_unless
  intro _
  apply isSome_unless
  intro _
  apply isSome_unless
  intro _
  apply isSome_unless
  intro _
  apply isSome_unless
  intro _
  rfl

theorem modeIbBreak_isSome : (s.modeIbBreak m b).isSome := by
  apply isSome_unless
  intro _
  apply isSome_unless
  intro _
  apply isSome_unless
  intro _
  apply isSome_ite
  · intro _
    apply isSome_unless
    intro _
    rfl
  · intro _
    rfl

/-! ## Pullbacks -/

theorem pullbackBars_isSome : (s.pullbackBars m).isSome := by
  apply isSome_mapM
  intro k inside
  have bounds := List.mem_range'_1.mp inside
  apply readAt_isSome
  · omega
  · unfold TrendStrategy.size
    omega

theorem pullback_isSome {up dn : Bool} {line : Double} {longWhy shortWhy : String} :
    (s.pullback m b up dn line longWhy shortWhy).isSome := by
  apply isSome_bind pullbackBars_isSome
  intro _ _
  apply isSome_unless
  intro _
  rfl

theorem modeEmaPullback_isSome : (s.modeEmaPullback m b).isSome := by
  apply isSome_unless
  intro guarded
  have some6 : 6 ≤ s.ind.emaSPrev5.length := by
    have long := not_or.mp guarded
    omega
  apply isSome_bind
  · rw [List.head?_eq_getElem?, List.getElem?_eq_getElem (by omega)]
    rfl
  intro _ _
  apply isSome_unless
  intro _
  exact pullback_isSome

theorem modeEmaRibbon_isSome : (s.modeEmaRibbon m b).isSome := by
  apply isSome_unless
  intro _
  apply isSome_unless
  intro _
  apply isSome_unless
  intro _
  exact pullback_isSome

theorem modeVwap_isSome (low : 0 ≤ int32 (m.tc.vwapSlopeBars * m.tc.tf)) :
    (s.modeVwap m b).isSome := by
  apply isSome_unless
  intro guarded
  have known := (not_or.mp (not_or.mp guarded).2).2
  apply isSome_bind
  · apply readAt_isSome
    · omega
    · omega
  intro _ _
  rfl

theorem modeTrendDay_isSome : (s.modeTrendDay m b).isSome := by
  apply isSome_unless
  intro _
  apply isSome_unless
  intro _
  rfl

theorem decideDrive_ready (ready : s.Ready) : (s.decideDrive m b).Ready := by
  unfold decideDrive
  split_ifs
  · exact ⟨ready.two, ready.capped, ready.volumes, ready.deltas⟩
  · exact ready

theorem modeDrive_isSome (ready : s.Ready) : (s.modeDrive m b).isSome := by
  apply isSome_unless
  intro _
  apply isSome_unless
  intro _
  apply isSome_unless
  intro _
  apply isSome_bind (decideDrive_ready ready).previous
  intro _ _
  rfl

theorem modeOrbRetest_isSome : (s.modeOrbRetest m b).isSome := by
  apply isSome_unless
  intro _
  apply isSome_unless
  intro _
  apply isSome_unless
  intro _
  apply isSome_ite
  · intro _
    apply isSome_unless
    intro _
    apply isSome_unless
    intro _
    rfl
  · intro _
    apply isSome_unless
    intro _
    rfl

/-! ## Momentum -/

theorem modeSupertrend_isSome (ready : s.Ready) : (s.modeSupertrend m b).isSome := by
  apply isSome_unless
  intro _
  apply isSome_bind ready.previous
  intro _ _
  apply isSome_unless
  intro _
  apply isSome_unless
  intro _
  rfl

theorem modeKeltner_isSome (ready : s.Ready) : (s.modeKeltner m b).isSome := by
  apply isSome_unless
  intro _
  apply isSome_unless
  intro _
  apply isSome_bind ready.previous
  intro _ _
  rfl

/-- The cloud mode reads inside the history unless its lengths wrap. -/
theorem modeIchimoku_isSome (ready : s.Ready) (kijun : 0 < m.tc.ichiKijun)
    (senkou : 0 < m.tc.ichiSenkou)
    (fits : m.tc.ichiSenkou + m.tc.ichiKijun + 2 < 2 ^ 31 ∨ m.tc.ichiKijun ≤ 2) :
    (s.modeIchimoku m b).isSome := by
  have sized := ready.size
  apply isSome_unless
  intro guarded
  have covered : m.tc.ichiKijun ≤ s.size := by
    rcases fits with fits | short
    · rw [int32_of_fits (n := m.tc.ichiSenkou + m.tc.ichiKijun) (by omega) (by omega),
        int32_of_fits (by omega) fits] at guarded
      omega
    · omega
  apply isSome_bind (midRange_isSome (by omega) (by omega))
  intro _ _
  apply isSome_bind (midRange_isSome (by omega) (by omega))
  intro _ _
  apply isSome_bind (midRange_isSome (by omega) (by omega))
  intro _ _
  apply isSome_bind (midRange_isSome (by omega) (by omega))
  intro _ _
  apply isSome_bind (midRange_isSome (by omega) (by omega))
  intro _ _
  apply isSome_unless
  intro _
  apply isSome_bind ready.previous
  intro _ _
  rfl

theorem rocAt_isSome {i : Int} (low : 0 ≤ i - m.tc.rocBars) (positive : 0 < m.tc.rocBars)
    (high : i < s.size) : (s.rocAt m i).isSome := by
  unfold TrendStrategy.size at high
  apply isSome_bind
  · apply readAt_isSome
    · omega
    · exact high
  intro _ _
  apply isSome_bind
  · apply readAt_isSome
    · exact low
    · omega
  intro _ _
  rfl

/-- The rate-of-change mode reads inside the history unless its two lengths wrap. -/
theorem modeRoc_isSome (ready : s.Ready) (back : 0 < m.tc.rocBars)
    (high : 0 < m.tc.rocHiBars ∧ m.tc.rocHiBars < 2 ^ 31)
    (fits : m.tc.rocBars + m.tc.rocHiBars < 2 ^ 31 ∨ m.tc.rocBars = 1) :
    (s.modeRoc m b).isSome := by
  have sized := ready.size
  apply isSome_unless
  intro guarded
  have covered (inside : m.tc.rocBars + m.tc.rocHiBars < 2 ^ 31) :
      m.tc.rocBars + m.tc.rocHiBars < s.size := by
    rw [int32_of_fits (by omega) inside] at guarded
    omega
  apply isSome_bind
  · apply rocAt_isSome
    · omega
    · exact back
    · omega
  intro _ _
  apply isSome_bind
  · apply isSome_mapM
    intro i inside
    have bounds := mem_indices inside
    have stop := wrap64_le (i := s.size - 1) (by omega)
    have start : 0 ≤ s.size - 1 - m.tc.rocHiBars := by
      by_contra below
      have far := wrap64_of_neg (i := s.size - 1 - m.tc.rocHiBars) (by omega) (by omega)
      omega
    have first := wrap64_of_fits start (by omega)
    apply rocAt_isSome
    · omega
    · exact back
    · omega
  intro _ _
  rfl

theorem modeDelta_isSome (ready : s.Ready) : (s.modeDelta m b).isSome := by
  apply isSome_unless
  intro _
  apply isSome_unless
  intro _
  apply isSome_bind (ready.past _)
  intro _ _
  apply isSome_bind
  · apply readFrom_isSome
    · omega
    · omega
  intro _ _
  rfl

theorem modeFib_isSome (ready : s.Ready) : (s.modeFib m b).isSome := by
  apply isSome_unless
  intro _
  apply isSome_bind (ready.past _)
  intro bars _
  apply isSome_bind ready.previous
  intro _ _
  cases swing bars with
  | none => rfl
  | some _ => rfl

theorem avgVolPrior_isSome {n : Int} (ready : s.Ready) : (s.avgVolPrior m n).isSome := by
  have volumes := ready.volumes
  apply isSome_unless
  intro guarded
  have positive := (not_or.mp guarded).1
  apply isSome_bind
  · apply readFrom_isSome
    · omega
    · omega
  intro _ _
  exact average_isSome (by omega)

theorem modeVolumeBurst_isSome (ready : s.Ready) : (s.modeVolumeBurst m b).isSome := by
  apply isSome_bind (avgVolPrior_isSome ready)
  intro _ _
  apply isSome_unless
  intro _
  apply isSome_unless
  intro _
  rfl

theorem modeHold_isSome : (s.modeHold m b).isSome := by
  apply isSome_unless
  intro _
  apply isSome_unless
  intro _
  apply isSome_unless
  intro _
  apply isSome_unless
  intro _
  apply isSome_unless
  intro _
  rfl

theorem modeGap_isSome : (s.modeGap m b).isSome := by
  apply isSome_unless
  intro _
  apply isSome_unless
  intro _
  apply isSome_unless
  intro _
  apply isSome_unless
  intro _
  rfl

/-- The relative strength stays inside: its guard never overflows. -/
theorem modeRs_isSome (back : 0 < m.tc.rsLookbackMin) : (s.modeRs m b).isSome := by
  apply isSome_unless
  intro guarded
  have minutes := (not_or.mp guarded).1
  have references := (not_or.mp (not_or.mp guarded).2).1
  apply isSome_bind
  · apply readAt_isSome
    · omega
    · omega
  intro _ _
  apply isSome_bind
  · rw [List.getLast?_eq_getElem?, List.getElem?_eq_getElem (by omega)]
    rfl
  intro _ _
  apply isSome_bind
  · apply readAt_isSome
    · omega
    · omega
  intro _ _
  rfl

theorem modeTod_isSome (back : 0 < m.tc.todLookbackMin) : (s.modeTod m b).isSome := by
  apply isSome_unless
  intro _
  apply isSome_unless
  intro _
  apply isSome_unless
  intro guarded
  have minutes := (not_or.mp guarded).1
  apply isSome_bind
  · apply readAt_isSome
    · omega
    · omega
  intro _ _
  apply isSome_unless
  intro _
  rfl

/-- Each close is read beside an average that is there. -/
theorem closesBesideVwap_isSome : s.closesBesideVwap.isSome := by
  apply isSome_mapM
  intro i inside
  obtain ⟨inRange, within⟩ := List.mem_filter.mp inside
  have below := List.mem_range.mp inRange
  apply isSome_bind
  · rw [List.getElem?_eq_getElem (by omega)]
    rfl
  intro _ _
  apply isSome_bind
  · unfold readAt
    rw [List.getElem?_eq_getElem (of_decide_eq_true within)]
    rfl
  intro _ _
  rfl

theorem recogniseTrendDay_isSome : (s.recogniseTrendDay m b).isSome := by
  apply isSome_unless
  intro _
  apply isSome_unless
  intro _
  apply isSome_bind closesBesideVwap_isSome
  intro _ _
  rfl

/-! ## Fades -/

theorem modeVprofile_isSome (ready : s.Ready) : (s.modeVprofile m b).isSome := by
  apply isSome_unless
  intro _
  apply isSome_ite
  · intro _
    apply isSome_unless
    intro _
    rfl
  intro _
  apply isSome_unless
  intro _
  apply isSome_bind ready.previous
  intro _ _
  apply isSome_unless
  intro _
  rfl

theorem modeGapFade_isSome : (s.modeGapFade m b).isSome := by
  apply isSome_unless
  intro _
  apply isSome_unless
  intro _
  apply isSome_ite
  · intro _
    apply isSome_unless
    intro _
    rfl
  intro _
  apply isSome_unless
  intro _
  rfl

theorem modeFailedBreakout_isSome (ready : s.Ready) : (s.modeFailedBreakout m b).isSome := by
  apply isSome_unless
  intro _
  apply isSome_bind (ready.past _)
  intro _ _
  apply isSome_unless
  intro _
  apply isSome_unless
  intro _
  apply isSome_unless
  intro _
  apply isSome_unless
  intro _
  rfl

theorem modeVwapFade_isSome (ready : s.Ready) : (s.modeVwapFade m b).isSome := by
  apply isSome_unless
  intro _
  apply isSome_unless
  intro _
  apply isSome_unless
  intro _
  apply isSome_bind ready.previous
  intro _ _
  rfl

theorem modeBandFade_isSome (ready : s.Ready) (positive : 0 < m.tc.bbLen) :
    (s.modeBandFade m b).isSome := by
  apply isSome_unless
  intro _
  apply isSome_bind (bollinger_isSome positive)
  intro _ _
  apply isSome_unless
  intro _
  apply isSome_bind ready.previous
  intro _ _
  rfl

/-- The strength index reads inside the history. -/
theorem rsi_isSome {len : Int} (ready : s.Ready) (positive : 0 < len) (short : len < 2 ^ 31) :
    (s.rsi len).isSome := by
  have sized := ready.size
  have length : s.size = s.tf.length := rfl
  apply isSome_unless
  intro guarded
  apply isSome_bind
  · apply isSome_mapM
    intro i inside
    have bounds := mem_indices inside
    have stop := wrap64_le (i := s.size) (by omega)
    have start : 0 ≤ s.size - len := by
      by_contra below
      have far := wrap64_of_neg (i := s.size - len) (by omega) (by omega)
      omega
    have first := wrap64_of_fits start (by omega)
    apply isSome_bind
    · rw [List.getElem?_eq_getElem (by omega)]
      rfl
    intro _ _
    apply isSome_bind
    · apply readAt_isSome
      · omega
      · omega
    intro _ _
    rfl
  intro _ _
  apply isSome_unless
  intro _
  rfl

theorem modeRsi2_isSome (ready : s.Ready) (positive : 0 < m.tc.rsiLen)
    (short : m.tc.rsiLen < 2 ^ 31) : (s.modeRsi2 m b).isSome := by
  apply isSome_unless
  intro _
  apply isSome_bind (rsi_isSome ready positive short)
  intro _ _
  apply isSome_unless
  intro _
  rfl

/-- The thrust fade stays inside while its guard's sum fits. -/
theorem modeThrustFade_isSome (ready : s.Ready) (positive : 0 < m.tc.thrustBars)
    (fits : m.tc.thrustBars + 2 < 2 ^ 31) : (s.modeThrustFade m b).isSome := by
  have length : s.size = s.tf.length := rfl
  apply isSome_unless
  intro guarded
  rw [int32_of_fits (by omega) fits] at guarded
  have covered := (not_or.mp guarded).1
  apply isSome_unless
  intro _
  apply isSome_bind (ready.past _)
  intro _ _
  apply isSome_bind ready.previous
  intro _ _
  apply isSome_bind
  · apply readAt_isSome
    · omega
    · omega
  intro _ _
  apply isSome_unless
  intro _
  apply isSome_unless
  intro _
  rfl

/-- Arming the absorption stays inside while its guard's sum fits. -/
theorem armAbsorption_isSome (ready : s.Ready) (positive : 0 < m.tc.absMoveBars)
    (fits : m.tc.absMoveBars + 2 < 2 ^ 31) : (s.armAbsorption m b).isSome := by
  have length : s.size = s.tf.length := rfl
  apply isSome_unless
  intro guarded
  rw [int32_of_fits (by omega) fits] at guarded
  apply isSome_bind (avgVolPrior_isSome ready)
  intro _ _
  apply isSome_unless
  intro _
  apply isSome_unless
  intro _
  apply isSome_bind
  · apply readAt_isSome
    · omega
    · omega
  intro _ _
  apply isSome_unless
  intro _
  rfl

/-- The absorption stays inside while its guard's sum fits. -/
theorem modeAbsorption_isSome (ready : s.Ready) (positive : 0 < m.tc.absMoveBars)
    (fits : m.tc.absMoveBars + 2 < 2 ^ 31) : (s.modeAbsorption m b).isSome := by
  have later (modes : TrendModes) : ({ s with modes := modes } : TrendStrategy).Ready :=
    ⟨ready.two, ready.capped, ready.volumes, ready.deltas⟩
  apply isSome_ite
  · intro _
    exact armAbsorption_isSome ready positive fits
  · intro _
    apply isSome_ite
    · intro _
      exact armAbsorption_isSome (later _) positive fits
    · intro _
      rfl

theorem deltaSum_isSome {endExcl : Int} (low : 0 ≤ endExcl)
    (high : endExcl ≤ s.ind.barDeltaHist.length) : (s.deltaSum m endExcl).isSome := by
  apply isSome_bind (readFrom_isSome low high)
  intro _ _
  rfl

/-- The delta divergence always stays inside. -/
theorem modeDeltaDiv_isSome (ready : s.Ready) : (s.modeDeltaDiv m b).isSome := by
  have deltas := ready.deltas
  apply isSome_unless
  intro _
  apply isSome_bind (ready.past _)
  intro _ _
  apply isSome_bind (deltaSum_isSome (by omega) (by omega))
  intro _ _
  apply isSome_bind
  · apply isSome_mapM
    intro i inside
    have below := (mem_indices inside).2
    have stop := wrap64_le (i := (s.ind.barDeltaHist.length : Int)) (by omega)
    exact deltaSum_isSome (by omega) (by omega)
  intro _ _
  apply isSome_bind
  · rw [List.getLast?_eq_getElem?, List.getElem?_eq_getElem (by omega)]
    rfl
  intro _ _
  rfl

end TrendStrategy

end RithmicEngine
