import RithmicEngine.Base.Numerals
import RithmicEngine.Execution.TrendConfig
/-!
# The scalper's configuration and state

The momentum scalper on several time frames: its configuration, and what it remembers from
one completed minute to the next. Keys and fields are named as in the program, and the
fields are grouped by the part of the decision that they serve.

Prices and volumes are rationals. What is computed from the configuration's numbers is a
double, since these come unchecked from a file, and so is whatever is not a number until
enough bars are there. Sums and products of whole numbers of the configuration wrap at 32
bits. Log lines and the counters of the blocked entries are left out.
-/
namespace RithmicEngine

structure MtfScalperConfig where
  autoModeFlagFix : Bool := true
  allowLongs : Bool := true
  allowShorts : Bool := true
  allowFlips : Bool := true
  dateStartEpoch : Int := 0
  dateEndEpoch : Int := 0
  emaFastLen : Int := 9
  emaSlowLen : Int := 21
  requirePriceBeyondFast : Bool := true
  setupMode : String := "relaxed"
  useMacd : Bool := true
  macdFast : Int := 12
  macdSlow : Int := 26
  macdSignal : Int := 9
  macdHistExpanding : Bool := true
  rsiLen : Int := 9
  rsiMid : Double := 50
  stochKLen : Int := 8
  stochKSmooth : Int := 3
  stochDLen : Int := 3
  stochOb : Double := 80
  stochOs : Double := 20
  useVwap : Bool := false
  vwapAnchor : String := "globex"
  useMtf : Bool := true
  htfMode : String := "auto"
  htfMult : Int := 12
  htfManualMin : Int := 60
  htfFastLen : Int := 21
  htfSlowLen : Int := 50
  htfNeedPrice : Bool := false
  htfSlopeReq : Bool := false
  useHtf2 : Bool := false
  triggerMode : String := "auto"
  poleMinAtr : Double := 0.8
  flagLen : Int := 5
  poleRecencyBars : Int := 7
  flagMaxRngAtr : Double := 2
  maxRetrPct : Double := 75
  flagDriftAtr : Double := 0.3
  adaptivePole : Bool := true
  poleLenMin : Int := 6
  poleLenMax : Int := 20
  poleLenFixed : Int := 12
  retestTolAtr : Double := 0.5
  retestMaxBars : Int := 12
  retestInvalAtr : Double := 0.5
  retestConfClose : Bool := false
  retestStrictTrend : Bool := false
  useOnset : Bool := true
  onsetWindowBars : Int := 10
  onsetNeedMacd : Bool := true
  onsetMaxExtAtr : Double := 0.25
  onsetSwingLen : Int := 4
  onsetNeutralHtfOk : Bool := true
  useFvg : Bool := true
  fvgMinAtr : Double := 0.25
  fvgMaxBars : Int := 30
  fvgMaxKeep : Int := 8
  fvgMidInvalidate : Bool := false
  useFvgEntry : Bool := true
  useFvgFilter : Bool := false
  fvgStructMode : Bool := false
  fvgStructTfMin : Int := 5
  useLevels : Bool := true
  lvPd : Bool := true
  lvPw : Bool := true
  lvSess : Bool := true
  lvPdc : Bool := true
  sweepPenAtr : Double := 0
  useSweepEntry : Bool := true
  useLvFilter : Bool := false
  lvNearAtr : Double := 0.5
  useSmtEntry : Bool := false
  smtPivotLen : Int := 5
  imCorrLen : Int := 50
  imExpectedCorr : String := "inverse"
  imMinCorr : Double := 0.3
  useImFilter : Bool := false
  useConfTf : Bool := false
  confTfMin : Int := 5
  confNeedBull : Bool := true
  confMaxWait : Int := 6
  atrLen : Int := 14
  exitSizing : String := "atr"
  slAtrMult : Double := 1.2
  rrRatio : Double := 1.5
  slPoints : Double := 15
  tpPoints : Double := 35
  useOscExit : Bool := true
  useTimeStop : Bool := true
  maxHoldBars : Int := 20
  useBreakeven : Bool := true
  beTriggerPctTp : Double := 0.5
  useTrailing : Bool := false
  trailAtrMult : Double := 1
  trailStartR : Double := 1
  useTrendExit : Bool := true
  useHtfExit : Bool := false
  tpTargetMode : String := "fixed_rr"
  tpBufferAtr : Double := 0.1
  tpMinDistAtr : Double := 0.5
  tpFvg : Bool := true
  tpFvgCe : Bool := true
  useAtrFloor : Bool := true
  minAtrTicks : Int := 10
  atrRankMin : Double := 10
  rankLookback : Int := 200
  useRegime : Bool := true
  regimeDirOnly : Bool := true
  regimeMode : String := "relative"
  regimeComponentsRequired : Int := 2
  regimeBars : Int := 1
  regAdxOn : Bool := true
  adxLen : Int := 14
  adxMin : Double := 20
  adxRankMin : Double := 30
  adxRisingPass : Bool := true
  regAtrOn : Bool := true
  atrAvgLen : Int := 50
  atrPctOfAvg : Double := 80
  atrRankMinRegime : Double := 20
  atrExpansionPass : Bool := true
  regSpreadOn : Bool := true
  emaSpreadMinAtr : Double := 0.25
  useSession : Bool := true
  sessionWindow : String := "0900-1200"
  flatAtSessionEnd : Bool := true
  dayRolloverHourEt : Int := 18
  useMaxTrades : Bool := true
  maxDailyTrades : Int := 20
  useDailyLoss : Bool := true
  dailyLossPct : Double := 2
  dailyLossClosedOnly : Bool := true
  useCooldown : Bool := true
  cooldownAfterLosses : Int := 2
  cooldownBars : Int := 5
  riskPct : Double := 1
  minQty : Int := 1
  qtyMax : Int := 0
  pointValue : Double := 2
  tickSize : Double := 0.25
  startingBalance : Double := 25000
  warmupBars : Int := 1500

namespace MtfScalperConfig

/-- A whole number of the program as a double. -/
def ofInt (n : Int) : Double := .fin n

def htfMinutes (cfg : MtfScalperConfig) : Int :=
  if cfg.htfMode = "manual" then cfg.htfManualMin else cfg.htfMult

def htf2Minutes (cfg : MtfScalperConfig) : Int := int32 (cfg.htfMinutes * cfg.htfMult)

/-- The exits are sized in points, and otherwise in true ranges. -/
def fixedSizing (cfg : MtfScalperConfig) : Bool := decide (cfg.exitSizing = "fixed")

/-- A double as the library's `to_string` writes it. -/
def toText : Double → String
  | .nan => "nan"
  | .negInf => "-inf"
  | .fin x => String.ofList (Numerals.fixed 6 x)
  | .posInf => "inf"

def needPositive (key : String) (v : Double) : Except String Unit :=
  if v ≤ 0 then
    throw ("FATAL: invalid config key '" ++ key ++ "' — must be > 0 (got " ++ toText v ++ ")")
  else pure ()

/-- The keys that a configuration is loaded under only where they are positive. The other
lengths and counts are taken as they come. -/
def validate (cfg : MtfScalperConfig) : Except String Unit := do
  needPositive "point_value" cfg.pointValue
  needPositive "tick_size" cfg.tickSize
  needPositive "min_qty" (ofInt cfg.minQty)
  needPositive "atr_len" (ofInt cfg.atrLen)
  needPositive "ema_fast_len" (ofInt cfg.emaFastLen)
  needPositive "ema_slow_len" (ofInt cfg.emaSlowLen)
  needPositive "htf_mult" (ofInt cfg.htfMult)
  if cfg.warmupBars < 0 then
    throw "FATAL: invalid config key 'warmup_bars' — must be >= 0"

end MtfScalperConfig

/-- The bars of a higher time frame: the one in progress, with its number, and what is kept
of the completed ones. -/
structure HtfAgg where
  cur : MinuteBar := {}
  bucket : Int := -1
  emaF : Double := .nan
  emaS : Double := .nan
  emaFPrev : Double := .nan
  cls : Double := .nan
  slope : Double := .nan
  hasCompleted : Bool := false
  done : List MinuteBar := []
  atrRma : Double := .nan
  deriving DecidableEq

/-- A fair-value gap: its edges, the bar that it was formed on, and whether it has been
retested. -/
structure Gap where
  top : ℚ
  bot : ℚ
  bar : Int
  used : Bool
  deriving DecidableEq, Repr

/-- The trading day and week, the session window and the range of dates. -/
structure MtfClock where
  dayKey : Int := -1
  weekKey : Int := -1
  inSession : Bool := false
  prevInSession : Bool := false
  inDateRange : Bool := true
  eodFlatEmitted : Bool := false
  deriving DecidableEq

/-- The indicators of the entry frame. -/
structure MtfIndicators where
  emaFast : Double := .nan
  emaSlow : Double := .nan
  emaFastPrev : Double := .nan
  emaSlowPrev : Double := .nan
  macdEf : Double := .nan
  macdEs : Double := .nan
  macdLine : Double := .nan
  macdSig : Double := .nan
  macdHist : Double := .nan
  macdLinePrev : Double := .nan
  macdSigPrev : Double := .nan
  macdHistPrev : Double := .nan
  rmaUp : Double := .nan
  rmaDn : Double := .nan
  rsi : Double := .nan
  krawHist : List Double := []
  kHist : List Double := []
  stochK : Double := .nan
  stochD : Double := .nan
  stochKPrev : Double := .nan
  stochDPrev : Double := .nan
  atr : Double := .nan
  atrPrev : Double := .nan
  prevClose : Double := .nan
  atrHist : List Double := []
  adxHist : List Double := []
  atrRank : Double := 50
  adxRank : Double := 50
  dmiTr : Double := .nan
  dmiPdm : Double := .nan
  dmiMdm : Double := .nan
  adxRma : Double := .nan
  diPlus : Double := .nan
  diMinus : Double := .nan
  adx : Double := .nan
  prevHigh : Double := .nan
  prevLow : Double := .nan
  vwapPv : Double := 0
  vwapV : Double := 0
  vwap : Double := .nan
  vwapKey : Int := -1
  deriving DecidableEq

/-- The higher frames, and how they lie to the two sides. -/
structure MtfAlignment where
  htf : HtfAgg := {}
  htf2 : HtfAgg := {}
  htfUp : Bool := false
  htfDn : Bool := false
  mtfUp : Bool := false
  mtfDn : Bool := false
  deriving DecidableEq

/-- The levels of the days, the weeks and the sessions, and which of them were swept. -/
structure MtfLevels where
  dayBar : MinuteBar := {}
  weekBar : MinuteBar := {}
  dayBarKey : Int := -1
  weekBarKey : Int := -1
  pdh : Double := .nan
  pdl : Double := .nan
  pdc : Double := .nan
  pwh : Double := .nan
  pwl : Double := .nan
  pdhSwept : Bool := false
  pdlSwept : Bool := false
  pwhSwept : Bool := false
  pwlSwept : Bool := false
  sessH : Double := .nan
  sessL : Double := .nan
  psessH : Double := .nan
  psessL : Double := .nan
  pshSwept : Bool := false
  pslSwept : Bool := false
  sweepL : Bool := false
  sweepS : Bool := false
  sweepLvlL : Double := .nan
  sweepLvlS : Double := .nan
  deriving DecidableEq

/-- The flag pattern and the retest of its break. -/
structure MtfFlag where
  bullFlag : Bool := false
  bearFlag : Bool := false
  bullBreak : Bool := false
  bearBreak : Bool := false
  flagHi : Double := .nan
  flagLo : Double := .nan
  boLvlL : Double := .nan
  boLvlS : Double := .nan
  boBarL : Int := -1
  boBarS : Int := -1
  retestL : Bool := false
  retestS : Bool := false
  deriving DecidableEq

/-- The start of a trend. -/
structure MtfOnset where
  onsetBarL : Int := -1
  onsetBarS : Int := -1
  lastPh : Double := .nan
  lastPl : Double := .nan
  onsetPullL : Bool := false
  onsetPullS : Bool := false
  onsetStructL : Bool := false
  onsetStructS : Bool := false
  onsetTrigL : Bool := false
  onsetTrigS : Bool := false
  deriving DecidableEq

/-- The gaps held on each side, the retest on this bar, and the frame that they may be
formed on. -/
structure MtfFvg where
  fvgBull : List Gap := []
  fvgBear : List Gap := []
  fvgRetestL : Bool := false
  fvgRetestS : Bool := false
  fvgRetLvlL : Double := .nan
  fvgRetLvlS : Double := .nan
  struct5 : HtfAgg := {}
  structRolled : Bool := false
  deriving DecidableEq

/-- The reference market and the pivots of both. -/
structure MtfReference where
  refWired : Bool := false
  refHist : List MinuteBar := []
  refCloseHist : List ℚ := []
  chHi1 : Double := .nan
  chHi2 : Double := .nan
  chLo1 : Double := .nan
  chLo2 : Double := .nan
  rfHi1 : Double := .nan
  rfHi2 : Double := .nan
  rfLo1 : Double := .nan
  rfLo2 : Double := .nan
  smtTrigL : Bool := false
  smtTrigS : Bool := false
  deriving DecidableEq

/-- The trend, the momentum and the regime. -/
structure MtfRegime where
  trendUp : Bool := false
  trendDn : Bool := false
  trendUpLoose : Bool := false
  trendDnLoose : Bool := false
  momUp : Bool := false
  momDn : Bool := false
  regimeActive : Bool := false
  regimeCount : Int := 0
  deriving DecidableEq

/-- The triggers and the signals of this bar. -/
structure MtfGate where
  flagTrigL : Bool := false
  flagTrigS : Bool := false
  stochTrigL : Bool := false
  stochTrigS : Bool := false
  onsetFiredL : Bool := false
  onsetFiredS : Bool := false
  longSignal : Bool := false
  shortSignal : Bool := false
  deriving DecidableEq

/-- The confirmation frame and the signals that wait for it. -/
structure MtfConfirm where
  conf5 : HtfAgg := {}
  pendBarL : Int := -1
  pendBarS : Int := -1
  pendRefL : Double := .nan
  pendRefS : Double := .nan
  confGoL : Bool := false
  confGoS : Bool := false
  deriving DecidableEq

/-- The position and its bracket. -/
structure MtfLeg where
  posDir : SignType := 0
  entryPrice : Double := .nan
  entryAtr : Double := .nan
  entryBar : Int := -1
  rUnit : Double := 0
  beOn : Bool := false
  trailOn : Bool := false
  exitPending : Bool := false
  curStop : Double := .nan
  curTp : Double := .nan
  lvTp : Double := .nan
  entryReason : String := ""
  deriving DecidableEq

/-- What the guardrails count. -/
structure MtfGuards where
  tradesToday : Int := 0
  dayStartEquity : Double := .nan
  dayClosedPnl : Double := 0
  lossStreak : Int := 0
  lastLossBar : Int := -100000
  deriving DecidableEq

/-- A call of the signal callback. -/
structure MtfCall where
  sig : OrbSignal
  price : ℚ
  reason : String
  deriving DecidableEq

/-- A position is opened. -/
def MtfCall.isEntry (c : MtfCall) : Bool := decide (c.sig = .buy ∨ c.sig = .sell)

/-- What a strategy has taken and given, in order: a completed bar, a call of its host, and
a close that it was told of. -/
inductive MtfMark
  | bar (b : MinuteBar)
  | call (c : MtfCall)
  | closed
  deriving DecidableEq

structure MtfStrategy where
  sessStartMin : Int := 540
  sessEndMin : Int := 720
  curBar : MinuteBar := {}
  hist : List MinuteBar := []
  barIndex : Int := -1
  riskHalted : Bool := false
  haltReason : String := ""
  lastPrice : ℚ := 0
  equity : Double := 0
  clock : MtfClock := {}
  ind : MtfIndicators := {}
  align : MtfAlignment := {}
  levels : MtfLevels := {}
  flag : MtfFlag := {}
  onset : MtfOnset := {}
  fvg : MtfFvg := {}
  ref : MtfReference := {}
  regime : MtfRegime := {}
  gate : MtfGate := {}
  confirm : MtfConfirm := {}
  leg : MtfLeg := {}
  guards : MtfGuards := {}
  marks : List MtfMark := []
  deriving DecidableEq

/-- A close that the host reports: the side of the closed position and its profit. -/
structure MtfClose where
  dir : OrbSignal
  pnl : ℚ
  deriving DecidableEq

/-- What the strategy is built with. The square root is the C library's. -/
structure MtfDesk where
  cfg : MtfScalperConfig := {}
  sqrt : Double → Double

end RithmicEngine
