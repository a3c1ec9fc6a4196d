import RithmicEngine.Base.Doubles
import RithmicEngine.Execution.OrbStrategy
/-!
# The trend engine's configuration and state

One engine of some thirty entry modes. The configuration holds the keys of all of them;
the state holds the bars, the indicators, the session's levels and what each mode
remembers between two of its bars. Keys and fields are named as in the program.

Prices and volumes are rationals, and what is computed from the configuration's numbers
is a double, since these come unchecked from a file. Sums and products of whole numbers
of the configuration wrap at 32 bits.
-/
namespace RithmicEngine

structure TrendConfig where
  mode : String := "donchian"
  tfMin : Int := 5
  winStart : Int := 930
  winEnd : Int := 1555
  session : String := "rth"
  allowLongs : Bool := true
  allowShorts : Bool := true
  exitOnFlip : Bool := true
  timeStopMin : Int := 0
  atrLen : Int := 14
  donchianN : Int := 20
  emaFast : Int := 9
  emaSlow : Int := 21
  pullbackTolAtr : Double := 0.5
  pullbackLookback : Int := 3
  vwapSlopeBars : Int := 5
  vwapTolAtr : Double := 0.3
  driveMinutes : Int := 30
  driveMinAtr : Double := 1
  driveEntryFrom : Int := 1000
  driveEntryTo : Int := 1130
  gapMinPts : Double := 20
  gapWaitMin : Int := 15
  gapFillFrac : Double := 0.5
  level : String := "prior_day"
  volMult : Double := 1.5
  volAvgBars : Int := 20
  bbLen : Int := 20
  bbMult : Double := 2
  kcMult : Double := 1.5
  squeezeBars : Int := 6
  stLen : Int := 10
  stMult : Double := 3
  nrN : Int := 7
  rsLookbackMin : Int := 15
  rsMinBp : Double := 5
  todHhmm : Int := 1000
  todLookbackMin : Int := 15
  todMinAtr : Double := 0.8
  todWindowMin : Int := 30
  tdCheckMin : Int := 60
  tdMinAtr : Double := 1.5
  tdVwapFrac : Double := 0.8
  tdPullback : String := "vwap"
  fbBars : Int := 3
  ichiTenkan : Int := 9
  ichiKijun : Int := 26
  ichiSenkou : Int := 52
  rocBars : Int := 12
  rocMinAtr : Double := 2
  rocHiBars : Int := 20
  dtBars : Int := 10
  ortMinutes : Int := 5
  ortTolAtr : Double := 0.15
  ortMaxBars : Int := 30
  gfMinPts : Double := 20
  gfWaitMin : Int := 5
  gfFillFrac : Double := 0.8
  nbHhmm : Int := 830
  nbRangeMin : Int := 5
  nbWindowMin : Int := 45
  nbEventOnly : Bool := false
  ibMinutes : Int := 60
  ibExt : Double := 1
  ibMinAtr : Double := 0
  holdEntryHhmm : Int := 1555
  holdDir : Int := 1
  holdTom : Bool := false
  holdPreEvent : Bool := false
  holdUpDay : Bool := false
  abK : Double := 1
  abAnchor : String := "open"
  abDayAtr : Bool := true
  vpStyle : String := "break"
  vpVaFrac : Double := 0.7
  vpTolAtr : Double := 0.15
  fibSwingBars : Int := 20
  fibLo : Double := 0.382
  fibHi : Double := 0.618
  mrDevAtr : Double := 2
  mrTargetAtr : Double := 0.2
  rsiLen : Int := 2
  rsiBuy : Double := 10
  rsiSell : Double := 90
  rsiExit : Double := 50
  biMin : Double := 0.7
  biExit : Double := 0.55
  biMaxSpreadTicks : Double := 2
  biHoldSecs : Int := 5
  ribbonFast : Int := 8
  ribbonMid : Int := 21
  ribbonSlow : Int := 50
  thrustBars : Int := 4
  thrustMinAtr : Double := 2.5
  thrustRetraceFrac : Double := 0.5
  thrustTargetAtr : Double := 1
  absVolMult : Double := 2
  absMaxRangeAtr : Double := 0.5
  absMinMoveAtr : Double := 1.5
  absDeltaMin : Double := 0
  absMoveBars : Int := 5
  absArmBars : Int := 2
  ddBars : Int := 20
  vbVolMult : Double := 2.5
  vbCloseLoc : Double := 0.7
  vbDeltaMin : Double := 0.6
  vbTrendAgree : Bool := true
  biInvert : Bool := false
  htfTfMin : Int := 0
  htfEma : Int := 21
  chandelierMult : Double := 0

/-- The minutes of a bar of the mode's frame; the constructor raises them to one. -/
def TrendConfig.tf (cfg : TrendConfig) : Int := if cfg.tfMin < 1 then 1 else cfg.tfMin

/-- A 32-bit integer that has wrapped. -/
def int32 (n : Int) : Int := n.bmod (2 ^ 32)

/-- A bar of some minutes, by the Eastern minute of the day at which it starts. The
aggressors' buy volume is a part of the volume. -/
structure Bar where
  mod : Int := -1
  ts : Int := 0
  o : ℚ := 0
  h : ℚ := 0
  l : ℚ := 0
  c : ℚ := 0
  v : ℚ := 0
  bv : ℚ := 0
  deriving DecidableEq, Repr

structure TrendSession where
  tradesToday : Int := 0
  inPosition : Bool := false
  riskHalted : Bool := false
  haltReason : String := ""
  deriving DecidableEq, Repr

/-- The higher time frame of the alignment gate. -/
structure HigherFrame where
  ema : Double := 0
  close : ℚ := 0
  n : Int := 0
  deriving DecidableEq, Repr

structure TrendIndicators where
  atr : Double := 0
  emaF : Double := 0
  emaS : Double := 0
  ema20 : Double := 0
  emaRf : Double := 0
  emaRm : Double := 0
  emaRs : Double := 0
  emaSPrev5 : List Double := []
  volHist : List ℚ := []
  barDeltaHist : List ℚ := []
  deriving DecidableEq

/-- The levels of the session in progress, of the night and of the day before. -/
structure SessionLevels where
  inRth : Bool := false
  rthSeen : Bool := false
  havePrev : Bool := false
  rthOpen : ℚ := 0
  rthClose : ℚ := 0
  rthOpenMod : Int := 0
  dayHi : ℚ := -doubleMax
  dayLo : ℚ := doubleMax
  onHi : ℚ := -doubleMax
  onLo : ℚ := doubleMax
  prevHi : ℚ := 0
  prevLo : ℚ := 0
  prevClose : ℚ := 0
  gap : ℚ := 0
  vwapPv : ℚ := 0
  vwapV : ℚ := 0
  vwapHist : List ℚ := []
  cumDelta : ℚ := 0
  deltaHist : List ℚ := []
  deriving DecidableEq

/-- The volume of each bin of one point, in rising order of the bins. -/
abbrev Histogram := List (Int × ℚ)

/-- The profile of the session in progress, and what is left of that of the day before. -/
structure VolumeProfile where
  cur : Histogram := []
  poc : ℚ := 0
  vah : ℚ := 0
  val : ℚ := 0
  ready : Bool := false
  deriving DecidableEq

/-- What the modes of one session remember, and forget as the session starts. -/
structure SessionModes where
  ortHi : ℚ := 0
  ortLo : ℚ := 0
  ortSet : Bool := false
  ortArm : SignType := 0
  ortAge : Int := 0
  ortUsedLong : Bool := false
  ortUsedShort : Bool := false
  gfDone : Bool := false
  gfDir : SignType := 0
  nbHi : ℚ := 0
  nbLo : ℚ := 0
  nbSet : Bool := false
  nbDone : Bool := false
  ibHi : ℚ := 0
  ibLo : ℚ := 0
  ibSet : Bool := false
  ibDir : SignType := 0
  ibTarget : Double := 0
  holdDone : Bool := false
  abUsedLong : Bool := false
  abUsedShort : Bool := false
  vpUsedLong : Bool := false
  vpUsedShort : Bool := false
  vpDir : SignType := 0
  deriving DecidableEq

/-- What the other modes remember. -/
structure TrendModes where
  driveDir : SignType := 0
  driveDone : Bool := false
  gapDone : Bool := false
  todDone : Bool := false
  squeezeCount : Int := 0
  stDir : SignType := 0
  stUp : Double := 0
  stDn : Double := 0
  reenterDir : SignType := 0
  tdDir : SignType := 0
  tdDone : Bool := false
  fbDir : SignType := 0
  fbAge : Int := 0
  fbLevel : ℚ := 0
  imbDir : SignType := 0
  imbSince : Int := 0
  thrustEntryRef : ℚ := 0
  absDir : SignType := 0
  absAge : Int := 0
  absMid : ℚ := 0
  deriving DecidableEq

/-- A call of the signal callback, with the hour and minute of the decision and the session
and the higher frame as it finds them. -/
structure TrendCall where
  sig : OrbSignal
  price : ℚ
  reason : String
  hhmm : Int
  sess : TrendSession
  htf : HigherFrame
  deriving DecidableEq

/-- What passes between the engine and its host, in order: a signal, a close that the
strategy was told of, a count of trades that it was given, and a restart of its session,
which may keep a position; and within it a bar that was handed to the modes, and a read
outside a container by one of these. -/
inductive TrendMark
  | call (c : TrendCall)
  | closed
  | seeded (trades : Int)
  | restarted (keepsPosition : Bool)
  | bar (b : Bar)
  | stray
  deriving DecidableEq

structure TrendStrategy where
  sess : TrendSession := {}
  lastPx : ℚ := 0
  lastTs : Int := 0
  entryTs : Int := 0
  posDir : SignType := 0
  bestPx : ℚ := 0
  eodEmitted : Bool := false
  wasInWindow : Bool := false
  m1 : Bar := {}
  tfCur : Bar := {}
  tf : List Bar := []
  m1Hist : List Bar := []
  refCloses : List ℚ := []
  ind : TrendIndicators := {}
  day : SessionLevels := {}
  htf : HigherFrame := {}
  dayAtr : Double := 0
  eventDay : Bool := false
  eventNextDay : Bool := false
  vp : VolumeProfile := {}
  session : SessionModes := {}
  modes : TrendModes := {}
  marks : List TrendMark := []
  deriving DecidableEq

/-- What a trend engine is built with. The square root is the C library's, and an average
over nothing divides by zero, or has no value for one who wants to see it taken. -/
structure TrendDesk where
  tc : TrendConfig := {}
  maxDailyTrades : Int := 3
  sqrt : Double → Double
  countsVoid : Bool := false

/-- The hour and minute at which the engine decides, as hhmm, and the signals at which the
host's callback tells it that its trade is closed. -/
structure TrendMoment extends TrendDesk where
  hhmm : Int
  closes : TrendCall → Bool := fun _ => false

end RithmicEngine
