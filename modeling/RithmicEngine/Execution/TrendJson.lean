import Mathlib.RingTheory.Coprime.Lemmas
import RithmicEngine.Base.Search
import RithmicEngine.Execution.OrbJson
import RithmicEngine.Execution.TrendConfig
/-!
# The trend engine's reader of its configuration

The file of an executor is read twice: by the readers of the outermost object, and for the
trend engine by a reader that looks for the first place where the quoted key stands and takes
what follows the next colon. Of a key whose colon this is, both use the value that the outermost
object has.
-/
namespace RithmicEngine

open Json

/-! ## The two families of readers -/

/-- A reader for each type of a key, each with the value that it returns otherwise. -/
structure JsonReaders where
  int : String → Int → Int
  dbl : String → Double → Double
  bool : String → Bool → Bool
  str : String → String → String

/-- What the flat reader takes for the value of a key; empty where there is none. -/
def raw (s key : List Char) : List Char :=
  match Search.find (needle key) s with
  | none => []
  | some p =>
    match (s.drop (p + (needle key).length)).dropWhile (fun c => decide (c ≠ ':')) with
    | [] => []
    | _ :: rest =>
      match rest.dropWhile Numerals.isBlank with
      | '"' :: tail => if '"' ∈ tail then tail.takeWhile (fun c => decide (c ≠ '"')) else []
      | value =>
        value.takeWhile fun c =>
          decide (c ≠ ',') && decide (c ≠ '}') && !Numerals.isBlank c

/-- The configuration by a family of readers. -/
def TrendConfig.read (r : JsonReaders) : TrendConfig :=
  let c : TrendConfig := {}
  { mode := r.str "mode" c.mode
    tfMin := r.int "tf_min" c.tfMin
    winStart := r.int "win_start" c.winStart
    winEnd := r.int "win_end" c.winEnd
    session := r.str "session" c.session
    allowLongs := r.bool "allow_longs" c.allowLongs
    allowShorts := r.bool "allow_shorts" c.allowShorts
    exitOnFlip := r.bool "exit_on_flip" c.exitOnFlip
    timeStopMin := r.int "time_stop_min" c.timeStopMin
    atrLen := r.int "atr_len" c.atrLen
    donchianN := r.int "donchian_n" c.donchianN
    emaFast := r.int "ema_fast" c.emaFast
    emaSlow := r.int "ema_slow" c.emaSlow
    pullbackTolAtr := r.dbl "pullback_tol_atr" c.pullbackTolAtr
    pullbackLookback := r.int "pullback_lookback" c.pullbackLookback
    vwapSlopeBars := r.int "vwap_slope_bars" c.vwapSlopeBars
    vwapTolAtr := r.dbl "vwap_tol_atr" c.vwapTolAtr
    driveMinutes := r.int "drive_minutes" c.driveMinutes
    driveMinAtr := r.dbl "drive_min_atr" c.driveMinAtr
    driveEntryFrom := r.int "drive_entry_from" c.driveEntryFrom
    driveEntryTo := r.int "drive_entry_to" c.driveEntryTo
    gapMinPts := r.dbl "gap_min_pts" c.gapMinPts
    gapWaitMin := r.int "gap_wait_min" c.gapWaitMin
    gapFillFrac := r.dbl "gap_fill_frac" c.gapFillFrac
    abK := r.dbl "ab_k" c.abK
    abAnchor := r.str "ab_anchor" c.abAnchor
    abDayAtr := r.bool "ab_day_atr" c.abDayAtr
    vpStyle := r.str "vp_style" c.vpStyle
    vpVaFrac := r.dbl "vp_va_frac" c.vpVaFrac
    vpTolAtr := r.dbl "vp_tol_atr" c.vpTolAtr
    holdEntryHhmm := r.int "hold_entry_hhmm" c.holdEntryHhmm
    holdDir := r.int "hold_dir" c.holdDir
    holdTom := r.bool "hold_tom" c.holdTom
    holdPreEvent := r.bool "hold_pre_event" c.holdPreEvent
    holdUpDay := r.bool "hold_up_day" c.holdUpDay
    ortMinutes := r.int "ort_minutes" c.ortMinutes
    ortTolAtr := r.dbl "ort_tol_atr" c.ortTolAtr
    ortMaxBars := r.int "ort_max_bars" c.ortMaxBars
    gfMinPts := r.dbl "gf_min_pts" c.gfMinPts
    gfWaitMin := r.int "gf_wait_min" c.gfWaitMin
    gfFillFrac := r.dbl "gf_fill_frac" c.gfFillFrac
    nbHhmm := r.int "nb_hhmm" c.nbHhmm
    nbRangeMin := r.int "nb_range_min" c.nbRangeMin
    nbWindowMin := r.int "nb_window_min" c.nbWindowMin
    nbEventOnly := r.bool "nb_event_only" c.nbEventOnly
    ibMinutes := r.int "ib_minutes" c.ibMinutes
    ibExt := r.dbl "ib_ext" c.ibExt
    ibMinAtr := r.dbl "ib_min_atr" c.ibMinAtr
    level := r.str "level" c.level
    volMult := r.dbl "vol_mult" c.volMult
    volAvgBars := r.int "vol_avg_bars" c.volAvgBars
    bbLen := r.int "bb_len" c.bbLen
    bbMult := r.dbl "bb_mult" c.bbMult
    kcMult := r.dbl "kc_mult" c.kcMult
    squeezeBars := r.int "squeeze_bars" c.squeezeBars
    stLen := r.int "st_len" c.stLen
    stMult := r.dbl "st_mult" c.stMult
    nrN := r.int "nr_n" c.nrN
    rsLookbackMin := r.int "rs_lookback_min" c.rsLookbackMin
    rsMinBp := r.dbl "rs_min_bp" c.rsMinBp
    todHhmm := r.int "tod_hhmm" c.todHhmm
    todLookbackMin := r.int "tod_lookback_min" c.todLookbackMin
    todMinAtr := r.dbl "tod_min_atr" c.todMinAtr
    todWindowMin := r.int "tod_window_min" c.todWindowMin
    tdCheckMin := r.int "td_check_min" c.tdCheckMin
    tdMinAtr := r.dbl "td_min_atr" c.tdMinAtr
    tdVwapFrac := r.dbl "td_vwap_frac" c.tdVwapFrac
    tdPullback := r.str "td_pullback" c.tdPullback
    fbBars := r.int "fb_bars" c.fbBars
    ichiTenkan := r.int "ichi_tenkan" c.ichiTenkan
    ichiKijun := r.int "ichi_kijun" c.ichiKijun
    ichiSenkou := r.int "ichi_senkou" c.ichiSenkou
    rocBars := r.int "roc_bars" c.rocBars
    rocMinAtr := r.dbl "roc_min_atr" c.rocMinAtr
    rocHiBars := r.int "roc_hi_bars" c.rocHiBars
    dtBars := r.int "dt_bars" c.dtBars
    fibSwingBars := r.int "fib_swing_bars" c.fibSwingBars
    fibLo := r.dbl "fib_lo" c.fibLo
    fibHi := r.dbl "fib_hi" c.fibHi
    mrDevAtr := r.dbl "mr_dev_atr" c.mrDevAtr
    mrTargetAtr := r.dbl "mr_target_atr" c.mrTargetAtr
    rsiLen := r.int "rsi_len" c.rsiLen
    rsiBuy := r.dbl "rsi_buy" c.rsiBuy
    rsiSell := r.dbl "rsi_sell" c.rsiSell
    rsiExit := r.dbl "rsi_exit" c.rsiExit
    htfTfMin := r.int "htf_tf_min" c.htfTfMin
    htfEma := r.int "htf_ema" c.htfEma
    biMin := r.dbl "bi_min" c.biMin
    biExit := r.dbl "bi_exit" c.biExit
    biMaxSpreadTicks := r.dbl "bi_max_spread_ticks" c.biMaxSpreadTicks
    biHoldSecs := r.int "bi_hold_secs" c.biHoldSecs
    chandelierMult := r.dbl "chandelier_mult" c.chandelierMult
    ribbonFast := r.int "ribbon_fast" c.ribbonFast
    ribbonMid := r.int "ribbon_mid" c.ribbonMid
    ribbonSlow := r.int "ribbon_slow" c.ribbonSlow
    thrustBars := r.int "thrust_bars" c.thrustBars
    thrustMinAtr := r.dbl "thrust_min_atr" c.thrustMinAtr
    thrustRetraceFrac := r.dbl "thrust_retrace_frac" c.thrustRetraceFrac
    thrustTargetAtr := r.dbl "thrust_target_atr" c.thrustTargetAtr
    absVolMult := r.dbl "abs_vol_mult" c.absVolMult
    absMaxRangeAtr := r.dbl "abs_max_range_atr" c.absMaxRangeAtr
    absMinMoveAtr := r.dbl "abs_min_move_atr" c.absMinMoveAtr
    absDeltaMin := r.dbl "abs_delta_min" c.absDeltaMin
    absMoveBars := r.int "abs_move_bars" c.absMoveBars
    absArmBars := r.int "abs_arm_bars" c.absArmBars
    ddBars := r.int "dd_bars" c.ddBars
    vbVolMult := r.dbl "vb_vol_mult" c.vbVolMult
    vbCloseLoc := r.dbl "vb_close_loc" c.vbCloseLoc
    vbDeltaMin := r.dbl "vb_delta_min" c.vbDeltaMin
    vbTrendAgree := r.bool "vb_trend_agree" c.vbTrendAgree
    biInvert := r.bool "bi_invert" c.biInvert }

namespace TrendConfig

/-! The keys of each type with their fields. -/

end TrendConfig

/-! ## What the flat reader takes -/

variable {doc : Document} {key : List Char} {m : Member}

variable {text : List Char} {n : Int}

variable {name : String}

end RithmicEngine
