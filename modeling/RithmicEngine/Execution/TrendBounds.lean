import RithmicEngine.Base.Runs
import RithmicEngine.Execution.TrendOutcomes
import RithmicEngine.Execution.TrendReads
/-!
# No trend mode reads outside its history

A mode decides on a bar only once the average true range is known, and so with two bars or
more. Together with the guards this keeps every read of a run inside, provided that the sums
that the guards compare fit in 32 bits.
-/
namespace RithmicEngine

open Runs Outcomes

variable {α : Type}

theorem pushCapped_length (cap : Nat) (x : α) (xs : List α) :
    (pushCapped cap x xs).length = if xs.length + 1 > cap then xs.length else xs.length + 1 := by
  unfold pushCapped
  split_ifs
  · simp
  · simp

theorem pushCapped_le {cap : Nat} {x : α} {xs : List α} (capped : xs.length ≤ cap) :
    (pushCapped cap x xs).length ≤ cap := by
  rw [pushCapped_length]
  split_ifs
  · exact capped
  · omega

theorem pushCapped_pos {cap : Nat} {x : α} {xs : List α} (some : 1 ≤ cap) :
    1 ≤ (pushCapped cap x xs).length := by
  rw [pushCapped_length]
  split_ifs
  · omega
  · omega

namespace TrendConfig

variable {cfg : TrendConfig}

/-- What the guards' sums come to in the modes that have one. -/
structure GuardSums (cfg : TrendConfig) : Prop where
  vwap : cfg.mode = "vwap_trend" → 0 ≤ int32 (cfg.vwapSlopeBars * cfg.tf)
  roc : cfg.mode = "roc_momentum" → cfg.rocBars + cfg.rocHiBars < 2 ^ 31 ∨ cfg.rocBars = 1
  thrust : cfg.mode = "thrust_fade" → cfg.thrustBars + 2 < 2 ^ 31
  absorption : cfg.mode = "absorption_reversal" → cfg.absMoveBars + 2 < 2 ^ 31
  ichimoku : cfg.mode = "ichimoku" →
    cfg.ichiSenkou + cfg.ichiKijun + 2 < 2 ^ 31 ∨ cfg.ichiKijun ≤ 2

/-- A guard that fits has sums that fit. -/
theorem guardSums (fits : cfg.GuardFits = true) : cfg.GuardSums := by
  constructor
  · intro mode
    simpa only [GuardFits, mode, decide_eq_true_eq] using fits
  · intro mode
    simpa only [GuardFits, mode, Bool.or_eq_true, decide_eq_true_eq] using fits
  · intro mode
    simpa only [GuardFits, mode, decide_eq_true_eq] using fits
  · intro mode
    simpa only [GuardFits, mode, decide_eq_true_eq] using fits
  · intro mode
    simpa only [GuardFits, mode, Bool.or_eq_true, decide_eq_true_eq] using fits

end TrendConfig

namespace TrendStrategy

variable {m : TrendMoment} {b : Bar} {s : TrendStrategy}

/-! ## The modes -/

/-- With the guard fitting its type, the mode of a bar reads no history that is not there. -/
theorem barMode_isSome (ready : s.Ready) (positive : m.tc.Positive)
    (fits : m.tc.GuardFits = true) : (s.barMode m b).isSome := by
  have length (n : Int) (isOne : n ∈ m.tc.lengths) : 0 < n ∧ n < 2 ^ 31 := positive n isOne
  have sums := TrendConfig.guardSums fits
  unfold barMode
  split
  · exact modeDonchian_isSome ready
  · exact modeTrendDay_isSome
  · exact modeFailedBreakout_isSome ready
  · exact modeKeltner_isSome ready
  · rename_i mode
    exact modeIchimoku_isSome ready (length _ (by simp [TrendConfig.lengths])).1
      (length _ (by simp [TrendConfig.lengths])).1 (sums.ichimoku mode)
  · rename_i mode
    exact modeRoc_isSome ready (length _ (by simp [TrendConfig.lengths])).1
      (length _ (by simp [TrendConfig.lengths])) (sums.roc mode)
  · exact modeDelta_isSome ready
  · exact modeFib_isSome ready
  · exact modeVwapFade_isSome ready
  · exact modeBandFade_isSome ready (length _ (by simp [TrendConfig.lengths])).1
  · exact modeRsi2_isSome ready (length _ (by simp [TrendConfig.lengths])).1
      (length _ (by simp [TrendConfig.lengths])).2
  · exact modeEmaPullback_isSome
  · rename_i mode
    exact modeVwap_isSome (sums.vwap mode)
  · exact modeDrive_isSome ready
  · exact modePdhl_isSome ready (length _ (by simp [TrendConfig.lengths])).1
  · exact modeSqueeze_isSome (length _ (by simp [TrendConfig.lengths])).1
  · exact modeSupertrend_isSome ready
  · exact modeNr7_isSome ready
  · exact modeEmaRibbon_isSome
  · rename_i mode
    exact modeThrustFade_isSome ready (length _ (by simp [TrendConfig.lengths])).1
      (sums.thrust mode)
  · rename_i mode
    exact modeAbsorption_isSome ready (length _ (by simp [TrendConfig.lengths])).1
      (sums.absorption mode)
  · exact modeDeltaDiv_isSome ready
  · exact modeVolumeBurst_isSome ready
  · exact modeOrbRetest_isSome
  · exact modeGapFade_isSome
  · exact modeNewsBreak_isSome
  · exact modeIbBreak_isSome
  · exact modeHold_isSome
  · exact modeAtrBreak_isSome ready
  · exact modeVprofile_isSome ready
  · rfl

/-- The modes of a minute read nothing outside. -/
theorem minuteMode_isSome (positive : m.tc.Positive) (fits : m.tc.GuardFits = true) :
    (s.minuteMode m b).isSome := by
  have length (n : Int) (isOne : n ∈ m.tc.lengths) : 0 < n ∧ n < 2 ^ 31 := positive n isOne
  have sums := TrendConfig.guardSums fits
  unfold minuteMode
  split
  · exact recogniseTrendDay_isSome
  · exact modeGap_isSome
  · exact modeTod_isSome (length _ (by simp [TrendConfig.lengths])).1
  · exact modeRs_isSome (length _ (by simp [TrendConfig.lengths])).1
  · rfl

/-! ## What every step keeps -/

/-- Nothing was read outside, and the average true range waits for two bars. -/
structure Bounded (s : TrendStrategy) : Prop where
  capped : s.tf.length ≤ 400
  early : s.tf.length < 2 → s.ind.atr = 0
  clean : .stray ∉ s.marks

variable {t : TrendStrategy}

theorem Bounded.of_frame (bounded : s.Bounded) (tf : t.tf = s.tf) (ind : t.ind = s.ind)
    (marks : .stray ∈ t.marks → .stray ∈ s.marks) : t.Bounded where
  capped := tf ▸ bounded.capped
  early := by
    intro few
    rw [ind]
    exact bounded.early (tf ▸ few)
  clean := fun strayed => bounded.clean (marks strayed)

theorem Bounded.quiet {t : TrendStrategy} (bounded : s.Bounded) (idle : Quiet s t) : t.Bounded :=
  bounded.of_frame idle.tf idle.ind fun strayed => idle.marks ▸ strayed

theorem stray_of_told {c : TrendCall} : TrendMark.stray ∉ told m c := by
  unfold told
  split_ifs
  · decide
  · decide

/-- A decision keeps every history within its bound. -/
theorem Bounded.decides (bounded : s.Bounded) (decides : Decides m s t) : t.Bounded := by
  apply bounded.of_frame decides.frame.tf decides.frame.ind
  intro strayed
  rcases decides.marks with same | ⟨c, called⟩
  · exact same ▸ strayed
  · rw [called, List.mem_append, List.mem_cons] at strayed
    rcases strayed with before | isCall | after
    · exact before
    · exact nomatch isCall
    · exact absurd after stray_of_told

theorem Bounded.acts {body : Option TrendStrategy} (bounded : s.Bounded) (acts : Acts m s body)
    (has : body.isSome) : (s.orStray body).Bounded := by
  obtain ⟨t, isT⟩ := Option.isSome_iff_exists.mp has
  rw [isT]
  exact bounded.decides (acts t isT)

/-! ## A completed bar -/

theorem nextAtr_isSome (positive : 0 < m.tc.atrLen) : (s.nextAtr m b).isSome := by
  apply isSome_ite
  · intro two
    apply isSome_bind
    · apply readAt_isSome
      · omega
      · unfold TrendStrategy.size
        omega
    intro _ _
    apply isSome_unless
    intro _
    exact average_isSome positive
  · intro _
    rfl

/-- With one bar the average true range is still what it was. -/
theorem nextAtr_early {atr : Double} (few : s.tf.length < 2) (isNext : s.nextAtr m b = some atr) :
    atr = s.ind.atr := by
  unfold nextAtr at isNext
  rw [if_neg (by unfold TrendStrategy.size; omega)] at isNext
  exact (Option.some.inj isNext).symm

/-- A pushed bar keeps every history within its bound. -/
theorem pushBar_bounded (bounded : s.Bounded) : (s.pushBar b).Bounded where
  capped := pushCapped_le bounded.capped
  early := by
    intro few
    apply bounded.early
    have length := pushCapped_length 400 b s.tf
    change (pushCapped 400 b s.tf).length < 2 at few
    split_ifs at length
    · omega
    · omega
  clean := by
    intro strayed
    rcases List.mem_append.mp strayed with old | new
    · exact bounded.clean old
    · exact nomatch List.mem_singleton.mp new

/-- After a bar the indicators are known, and if the average true range is, the modes are
ready. -/
theorem indicators_bounded (positive : 0 < m.tc.atrLen) (bounded : s.Bounded) :
    (s.orStray (s.indicators m b)).Bounded ∧
      (¬(s.orStray (s.indicators m b)).ind.atr ≤ 0 → (s.orStray (s.indicators m b)).Ready) := by
  obtain ⟨atr, isAtr⟩ := Option.isSome_iff_exists.mp (nextAtr_isSome (s := s) (b := b) positive)
  have early (few : s.tf.length < 2) : atr = 0 :=
    (nextAtr_early few isAtr).trans (bounded.early few)
  unfold indicators
  rw [isAtr]
  refine ⟨⟨bounded.capped, early, bounded.clean⟩, fun known => ?_⟩
  constructor
  · by_contra few
    have one : s.tf.length < 2 := Nat.lt_of_not_le few
    apply known
    change atr ≤ 0
    rw [early one]
    decide
  · exact bounded.capped
  · exact pushCapped_pos (by decide)
  · exact pushCapped_pos (by decide)

theorem Ready.of_quiet (ready : s.Ready) (idle : Quiet s t) : t.Ready where
  two := idle.tf ▸ ready.two
  capped := idle.tf ▸ ready.capped
  volumes := idle.ind ▸ ready.volumes
  deltas := idle.ind ▸ ready.deltas

/-- The close of a bar keeps every history within its bound and reads nothing outside. -/
theorem onTfClose_bounded (positive : m.tc.Positive) (fits : m.tc.GuardFits = true)
    (bounded : s.Bounded) : (s.onTfClose m b).Bounded := by
  have length := positive m.tc.atrLen (by simp [TrendConfig.lengths])
  obtain ⟨measured, ready⟩ := indicators_bounded (m := m) (b := b) length.1
    (pushBar_bounded (b := b) bounded)
  dsimp only [onTfClose, decideBar]
  split_ifs with unknown past
  · exact measured
  · exact measured.decides (decides_flatten.after followBest_quiet)
  · exact (measured.quiet followBest_quiet).acts barMode_acts
      (barMode_isSome ((ready unknown).of_quiet followBest_quiet) positive fits)

/-! ## A completed minute -/

/-- Closing the bars keeps every history within its bound. -/
theorem closeBars_bounded (positive : m.tc.Positive) (fits : m.tc.GuardFits = true)
    (bounded : s.Bounded) : (s.closeBars m b).Bounded := by
  have all (bars : List Bar) (t : TrendStrategy) (now : t.Bounded) :
      (bars.foldl (fun s bar => s.onTfClose m bar) t).Bounded := by
    induction bars generalizing t with
    | nil => exact now
    | cons bar rest ih => exact ih _ (onTfClose_bounded positive fits now)
  have done := all (aggregate m.tc.tf b s.tfCur).2 s bounded
  exact ⟨done.capped, done.early, done.clean⟩

/-- Closing a minute keeps every history within its bound. -/
theorem onM1Close_bounded (positive : m.tc.Positive) (fits : m.tc.GuardFits = true)
    (bounded : s.Bounded) : (s.onM1Close m b).Bounded := by
  have recorded : (s.recordMinute b).Bounded := ⟨bounded.capped, bounded.early, bounded.clean⟩
  have closed := closeBars_bounded (b := b) positive fits
    (recorded.decides (timeStop_decides (m := m) (b := b)))
  have remembered : (((s.recordMinute b).timeStop m b).closeBars m b).recordSession.Bounded := by
    unfold recordSession
    split_ifs
    · exact ⟨closed.capped, closed.early, closed.clean⟩
    · exact closed
  have sampled : ((((s.recordMinute b).timeStop m b).closeBars m b).recordSession.sampleHtf
      m b).Bounded := by
    unfold sampleHtf
    split_ifs
    · exact ⟨remembered.capped, remembered.early, remembered.clean⟩
    · exact remembered
  exact sampled.acts minuteMode_acts (minuteMode_isSome positive fits)

/-- A tick keeps every history within its bound. -/
theorem onTick_bounded {t : OrbTick} (positive : m.tc.Positive) (fits : m.tc.GuardFits = true)
    (bounded : s.Bounded) : (s.onTick m t).Bounded := by
  have idle : Quiet s (s.arrive m t (etMod t.tsMicros)) := arrive_quiet
  have arrived := bounded.quiet idle
  have tracked :
      ((s.arrive m t (etMod t.tsMicros)).trackMinute m t (etMod t.tsMicros)).Bounded := by
    unfold trackMinute
    split_ifs
    · have closed := onM1Close_bounded (b := (s.arrive m t (etMod t.tsMicros)).m1) positive fits
        arrived
      exact ⟨closed.capped, closed.early, closed.clean⟩
    · exact ⟨arrived.capped, arrived.early, arrived.clean⟩
    · exact ⟨arrived.capped, arrived.early, arrived.clean⟩
  exact tracked.quiet trackDelta_quiet

end TrendStrategy

/-! ## Runs -/

namespace TrendDesk

open TrendStrategy

variable (desk : TrendDesk)

/-- A mark that the host's own calls leave is no stray read. -/
theorem clean_snoc {marks : List TrendMark} {mark : TrendMark} (clean : .stray ∉ marks)
    (other : mark ≠ .stray) : .stray ∉ marks ++ [mark] := by
  intro strayed
  rcases List.mem_append.mp strayed with old | new
  · exact clean old
  · exact other (List.mem_singleton.mp new).symm

/-- One event keeps every history within its bound. -/
theorem handle_bounded (positive : desk.tc.Positive) (fits : desk.tc.GuardFits = true)
    (s : TrendStrategy) (e : TrendEvent) (bounded : s.Bounded) : (desk.handle s e).Bounded := by
  cases e with
  | tick t closes => exact onTick_bounded positive fits bounded
  | quote tsUs bid bidSz ask askSz tick closes => exact bounded.decides onQuote_decides
  | endOfDay h m closes => exact bounded.decides checkEod_decides
  | reference close => exact ⟨bounded.capped, bounded.early, bounded.clean⟩
  | halt why => exact ⟨bounded.capped, bounded.early, bounded.clean⟩
  | unhalt =>
    change (s.unhaltTrading).Bounded
    unfold unhaltTrading
    split_ifs
    · exact bounded
    · exact ⟨bounded.capped, bounded.early, bounded.clean⟩
  | seedTrades n => exact ⟨bounded.capped, bounded.early, clean_snoc bounded.clean nofun⟩
  | seedPosition dir entryTsUs => exact ⟨bounded.capped, bounded.early, bounded.clean⟩
  | closed => exact ⟨bounded.capped, bounded.early, clean_snoc bounded.clean nofun⟩
  | reset => exact ⟨bounded.capped, bounded.early, clean_snoc bounded.clean nofun⟩
  | eventDay on => exact ⟨bounded.capped, bounded.early, bounded.clean⟩
  | eventNextDay on => exact ⟨bounded.capped, bounded.early, bounded.clean⟩
  | dayAtr pts => exact ⟨bounded.capped, bounded.early, bounded.clean⟩

/-- In no run of an engine with positive lengths whose guards' sums fit does a mode read
outside a container, nor an average over nothing if that has no value. -/
theorem reads_inside (events : List TrendEvent) (positive : desk.tc.Positive)
    (fits : desk.tc.GuardFits = true) : .stray ∉ (run desk.handle {} events).marks := by
  have start : ({} : TrendStrategy).Bounded := ⟨by decide, fun _ => rfl, by decide⟩
  have reached : (run desk.handle {} events).Bounded :=
    run_invariant desk.handle TrendStrategy.Bounded (fun _ _ => True)
      (fun s e bounded _ => handle_bounded desk positive fits s e bounded) {} events start
      (along_of_forall desk.handle (fun _ _ => trivial) {} events)
  exact reached.clean

/-- Look-backs so long that the guard's sum of them wraps. -/
def wrappingDesk : TrendDesk where
  tc := { mode := "roc_momentum", tfMin := 1, rocBars := 2147483647, rocHiBars := 2 }
  sqrt := id
  countsVoid := true

/-- Three ticks at 10:00, 10:01 and 10:02 Eastern, of rising prices. -/
def risingTicks : List TrendEvent :=
  [.tick { tsMicros := 1746021600000000, price := 100 } fun _ => false,
    .tick { tsMicros := 1746021660000000, price := 102 } fun _ => false,
    .tick { tsMicros := 1746021720000000, price := 104 } fun _ => false]

theorem wrapped_guard_reads_outside :
    wrappingDesk.tc.Positive ∧ .stray ∈ (run wrappingDesk.handle {} risingTicks).marks := by
  decide +kernel

/-- The engine of the defaults. -/
def donchianDesk : TrendDesk where
  sqrt := id
  countsVoid := true

theorem reads_inside_of_rising_ticks :
    donchianDesk.tc.Positive ∧ donchianDesk.tc.GuardFits = true ∧
      .stray ∉ (run donchianDesk.handle {} risingTicks).marks :=
  ⟨by decide, by decide, reads_inside donchianDesk risingTicks (by decide) (by decide)⟩

end TrendDesk

end RithmicEngine
