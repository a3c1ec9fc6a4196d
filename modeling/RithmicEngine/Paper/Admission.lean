import RithmicEngine.Execution.LiveLockstep
import RithmicEngine.Execution.OrbStrategy
import RithmicEngine.Paper.Lockstep
/-!
# Entries on paper and live

One opening-range strategy may be hosted by the paper broker and by the executor. Both
ask the same gates and the same risk. The paper broker asks besides for its own entry
window, which ends with an hour where the strategy's ends with a minute, for its own
count of the day and its own cooldown; the executor asks instead how far the price has
run from the range. Where these two sets of rules part, paper and live part.
-/
namespace RithmicEngine

/-- The configuration of both hosts and of the strategy. -/
structure EntryConfig extends PaperConfig where
  orbMinutes : Int := 15
  breakoutBuffer : ℚ := 0
  lastEntryMin : Int := 0
  newsBlackoutMin : Int := 5
  maxEntryOffset : ℚ := 0
  deriving DecidableEq, Repr

/-- What the strategy reads of it. -/
def EntryConfig.rules (cfg : EntryConfig) : OrbRules where
  orbMinutes := cfg.orbMinutes
  breakoutBuffer := cfg.breakoutBuffer
  maxDailyTrades := cfg.maxDailyTrades
  lastEntryHour := cfg.lastEntryHour
  lastEntryMin := cfg.lastEntryMin
  eodFlattenHour := cfg.eodFlattenHour
  eodFlattenMin := cfg.eodFlattenMin
  newsBlackoutMin := cfg.newsBlackoutMin
  stopCooldownSecs := cfg.stopCooldownSecs
  sessionOpenHour := cfg.sessionOpenHour
  sessionOpenMin := cfg.sessionOpenMin

/-- The minimum price increment of the contract. -/
def nqTickSize : ℚ := 1 / 4

/-! ## The executor's signal callback -/

/-- What the executor's callback reads and drives. -/
structure LiveHost where
  host : Host
  manager : OrderManager := {}
  book : QuoteState := {}
  regime : SessionRegime := {}
  lastTickUs : Int := 0

namespace LiveHost

variable (cfg : EntryConfig)

def onQuote (q : Quote) (x : LiveHost) : LiveHost :=
  { x with book := x.book.onQuote q nqTickSize }

/-- The points that the price has run beyond its side of the range. -/
def chase (range : OrbSession) (emission : OrbEmission) : ℚ :=
  if emission.sig = .buy then emission.price - range.orbHigh else range.orbLow - emission.price

/-- The price has run further than the configured offset allows. -/
def chases (range : OrbSession) (emission : OrbEmission) : Bool :=
  decide (cfg.maxEntryOffset > 0) && decide (emission.sig ≠ .flattenEod) &&
    decide (chase range emission > cfg.maxEntryOffset)

/-- The reason the book or the session blocks an entry for, empty for none. -/
def entryGate (long : Bool) (x : LiveHost) : String :=
  let book := x.book.gate cfg.toPaperConfig long x.lastTickUs nqTickSize
  if book ≠ "" then book else x.regime.gate cfg.toPaperConfig long

/-- The callback skips the signal, and tells the strategy so. -/
def skips (range : OrbSession) (emission : OrbEmission) (x : LiveHost) : Bool :=
  chases cfg range emission ||
    (emission.sig.isEntry && decide (x.entryGate cfg (decide (emission.sig = .buy)) ≠ ""))

/-- The callback of the opening-range engine. The order manager takes its stop distance
from the configuration. -/
def onEmission (now : Int) (range : OrbSession) (emission : OrbEmission) (x : LiveHost) :
    LiveHost :=
  if x.skips cfg range emission then x
  else { x with manager := x.manager.onSignal x.host now emission.sig emission.price 0 }

end LiveHost

/-- An entry signal that the broker does not accept moves nothing. -/
theorem PaperBroker.onEntrySignal_refused (desk : PaperDesk) (regime : Option SessionRegime)
    (reason : String) {dir : SignType} {b : PaperBroker}
    (refused : accepts desk regime dir b = false) :
    (onEntrySignal desk regime dir reason b).stance.standing = b.stance.standing := by
  simp only [onEntrySignal]
  split_ifs with warm busy halts barred counted cools outside blocked
  · rfl
  · rfl
  · rfl
  · rfl
  · rfl
  · rfl
  · rfl
  · exact (logSignal_steady desk _ reason _ b).standing
  · have resting : b.stance.standing = Standing.rest := by
      obtain ⟨flat, none⟩ := not_or.mp busy
      exact (Standing.eq_rest_iff _).mpr ⟨not_not.mp flat, not_not.mp none, rfl⟩
    simp only [accepts, Bool.eq_false_iff.mpr warm, resting, Bool.eq_false_iff.mpr halts, counted,
      cools, not_not.mp blocked, Bool.eq_true_of_not_eq_false barred,
      Bool.eq_true_of_not_eq_false outside, Bool.not_false, decide_true, decide_false,
      Bool.and_self] at refused
    exact absurd refused.symm Bool.false_ne_true

/-! ## One signal for both -/

/-- The moment at which the strategy, fed the same ticks on both sides, signals an entry,
and both hosts are flat: they were fed the same quotes, share the risk state, and have
seen the tick. No replay runs, and an order that is sent is taken. -/
structure EntryMoment where
  cfg : EntryConfig
  desk : PaperDesk
  sameCfg : desk.cfg = cfg.toPaperConfig
  sameTick : desk.tickSize = nqTickSize
  strategy : OrbStrategy
  tick : OrbTick
  emission : OrbEmission
  emits : (strategy.onTick cfg.rules false tick).2 = some emission
  live : LiveHost
  broker : PaperBroker
  sameBook : broker.qs = live.book
  sameRisk : broker.risk = live.manager.risk
  liveSaw : live.lastTickUs = tick.tsMicros
  paperSaw : broker.lastTickUs = tick.tsMicros ∧
    (broker.lastEtHour, broker.lastEtMin) = utcToEt tick.tsMicros
  replays : broker.warmup = false
  paperFlat : broker.posDir = 0 ∧ broker.pendingDir = 0
  liveFlat : live.manager.isFlat = true
  calm : live.manager.entryHalted = false ∧ live.manager.ghostHalted = false
  fills : (live.host.cfg.dryRun ||
    live.host.orderCb.any fun answer => answer (live.host.basketId live.manager.seq)) = true

namespace EntryMoment

variable (m : EntryMoment)

/-- The emission is an entry, and the strategy's own rules allow it. -/
theorem emission_isEntry : m.emission.sig.isEntry = true := by
  obtain ⟨_, ⟨none, _⟩ | ⟨emission, some, entry, _⟩⟩ :=
    OrbStrategy.onTick_cases m.cfg.rules false m.tick m.strategy
  · rw [m.emits] at none
    exact absurd none nofun
  · have same : emission = m.emission := Option.some.inj (some.symm.trans m.emits)
    rw [← same]
    obtain buys | sells := entry
    · rw [buys]
      rfl
    · rw [sells]
      rfl

/-- The strategy's own cutoff is a minute. -/
theorem emission_before_cutoff :
    (utcToEt m.tick.tsMicros).1 * 60 + (utcToEt m.tick.tsMicros).2 <
      m.cfg.lastEntryHour * 60 + m.cfg.lastEntryMin := by
  have emits := m.emits
  simp only [OrbStrategy.onTick] at emits
  split_ifs at emits with halted seeded unset barred
  rw [OrbStrategy.mayEnter, Bool.not_eq_false, Bool.and_eq_true, Bool.and_eq_true,
    decide_eq_true_eq, decide_eq_true_eq] at barred
  exact barred.1.2

def long : Bool := decide (m.emission.sig = .buy)

/-- The paper broker queues the entry. -/
def paperAccepts : Prop :=
  (m.broker.onSignal m.desk (some m.live.regime) m.emission.sig m.emission.reason).pendingDir ≠ 0

/-- The executor's callback leaves the order manager with the entry. -/
def liveSends (now : Int) : Prop :=
  (m.live.onEmission m.cfg now (m.strategy.onTick m.cfg.rules false m.tick).1.session
    m.emission).manager.isFlat = false

/-- What both sides ask for: the risk, and the gates of the book and the session. -/
def shared : Bool :=
  m.live.manager.risk.canTrade && decide (m.live.entryGate m.cfg m.long = "")

/-- The paper broker's own entry window: inside the session, before the hour of the last
entry. -/
def inWindow : Bool :=
  let et := utcToEt m.tick.tsMicros
  decide (m.tick.tsMicros ≤ 0) ||
    (m.desk.inSession (et.1 * 60 + et.2) && decide (et.1 < m.cfg.lastEntryHour))

/-- What only the paper broker refuses for: its window, its count of the day, and the
cooldown since its own last exit. -/
def paperBars : Bool :=
  !m.inWindow || decide (m.broker.entriesToday ≥ m.cfg.maxDailyTrades) ||
    decide (m.tick.tsMicros > 0 ∧ m.tick.tsMicros < m.broker.cooldownUntilUs)

/-- What only the executor refuses for. -/
def liveBars : Bool :=
  LiveHost.chases m.cfg (m.strategy.onTick m.cfg.rules false m.tick).1.session m.emission

/-- Where the gates and the risk let the entry through, both sides' own rules bar it or
neither's do. -/
def Agrees : Prop := m.shared = true → (m.paperBars = true ↔ m.liveBars = true)
deriving Decidable

theorem dir_pos : decide (m.emission.sig.dir > 0) = m.long := by
  rw [long]
  cases m.emission.sig <;> decide

/-- The gates of the two sides are the same. -/
theorem entryGate_same :
    m.broker.entryGate m.desk (some m.live.regime) m.long = m.live.entryGate m.cfg m.long := by
  simp only [PaperBroker.entryGate, LiveHost.entryGate, m.sameBook, m.sameCfg, m.sameTick,
    m.paperSaw.1, m.liveSaw]

/-- The broker's entry window is the moment's. -/
theorem inEntryWindow_same : m.broker.inEntryWindow m.desk = m.inWindow := by
  obtain ⟨seen, clock⟩ := m.paperSaw
  have hour : m.broker.lastEtHour = (utcToEt m.tick.tsMicros).1 := congrArg Prod.fst clock
  have minute : m.broker.lastEtMin = (utcToEt m.tick.tsMicros).2 := congrArg Prod.snd clock
  simp only [PaperBroker.inEntryWindow, inWindow, PaperBroker.lastMinute, seen, hour, minute]
  split
  · next before => simp [before]
  · next after =>
    simp [after, m.sameCfg]

/-- Where the cutoff is a whole hour, the paper broker's window is that of the session. -/
theorem inWindow_of_wholeHour (whole : m.cfg.lastEntryMin ≤ 0)
    (clock : 0 ≤ (utcToEt m.tick.tsMicros).2)
    (session : m.desk.inSession ((utcToEt m.tick.tsMicros).1 * 60 + (utcToEt m.tick.tsMicros).2) =
      true) : m.inWindow = true := by
  have before := m.emission_before_cutoff
  have hour : (utcToEt m.tick.tsMicros).1 < m.cfg.lastEntryHour := by omega
  simp [inWindow, session, hour]

/-- The paper broker accepts what the shared rules and its own let through. -/
theorem paperAccepts_iff : m.paperAccepts ↔ m.shared = true ∧ m.paperBars = false := by
  have accepts : m.broker.accepts m.desk (some m.live.regime) m.emission.sig.dir =
      (m.shared && !m.paperBars) := by
    have resting : m.broker.stance.standing = Standing.rest :=
      (Standing.eq_rest_iff _).mpr ⟨m.paperFlat.1, m.paperFlat.2, rfl⟩
    have risk : (!m.broker.halted && m.broker.risk.canTrade) = m.live.manager.risk.canTrade := by
      rw [PaperBroker.halted, m.sameRisk]
      cases halted : m.live.manager.risk.halted with
      | true => rw [RiskManager.canTrade_halted _ halted, Bool.and_false]
      | false => rw [Bool.not_false, Bool.true_and]
    have count : decide (m.broker.entriesToday ≥ m.desk.cfg.maxDailyTrades) =
        decide (m.broker.entriesToday ≥ m.cfg.maxDailyTrades) := by
      rw [m.sameCfg]
    simp only [PaperBroker.accepts, m.replays, resting, Bool.not_false, decide_true, Bool.true_and,
      risk, count, m.paperSaw.1, m.inEntryWindow_same, m.dir_pos, m.entryGate_same, shared,
      paperBars, Bool.not_or, Bool.not_not]
    cases m.live.manager.risk.canTrade <;>
      cases m.inWindow <;>
      simp [Bool.and_comm]
  have flat : m.broker.pendingDir = 0 := m.paperFlat.2
  have enters : m.broker.onSignal m.desk (some m.live.regime) m.emission.sig m.emission.reason =
      m.broker.onEntrySignal m.desk (some m.live.regime) m.emission.sig.dir m.emission.reason := by
    have entry := m.emission_isEntry
    cases sig : m.emission.sig with
    | buy => rfl
    | sell => rfl
    | none =>
      rw [sig] at entry
      exact absurd entry Bool.false_ne_true
    | flattenEod =>
      rw [sig] at entry
      exact absurd entry Bool.false_ne_true
  rw [paperAccepts, enters]
  cases taken : m.broker.accepts m.desk (some m.live.regime) m.emission.sig.dir with
  | true =>
    obtain ⟨_, _, ordered⟩ := PaperBroker.onEntrySignal_takes m.desk (some m.live.regime)
      m.emission.reason taken
    have queued := congrArg Standing.waiting ordered
    have unheld : ¬ m.broker.stance.standing.held ≠ 0 := not_not.mpr m.paperFlat.1
    rw [Standing.order, if_neg unheld] at queued
    rw [accepts, Bool.and_eq_true, Bool.not_eq_true'] at taken
    refine iff_of_true (fun none => ?_) taken
    exact Runner.dir_ne_zero m.emission_isEntry (queued.symm.trans none)
  | false =>
    have same := PaperBroker.onEntrySignal_refused m.desk (some m.live.regime)
      m.emission.reason taken
    have none := (congrArg Standing.waiting same).trans flat
    rw [accepts, Bool.and_eq_false_iff, Bool.not_eq_false'] at taken
    refine iff_of_false (not_not.mpr none) (fun both => ?_)
    obtain barred | barred := taken
    · exact absurd (barred.symm.trans both.1) Bool.false_ne_true
    · exact absurd (both.2.symm.trans barred) Bool.false_ne_true

/-- The executor sends what the shared rules and its own let through. -/
theorem liveSends_iff (now : Int) :
    m.liveSends now ↔ m.shared = true ∧ m.liveBars = false := by
  have entry := m.emission_isEntry
  have skips : m.live.skips m.cfg (m.strategy.onTick m.cfg.rules false m.tick).1.session
      m.emission =
      (m.liveBars || decide (m.live.entryGate m.cfg m.long ≠ "")) := by
    rw [LiveHost.skips, liveBars, entry, Bool.true_and]
    rfl
  have takes : m.live.manager.takesEntry m.live.host = m.live.manager.risk.canTrade := by
    have fills := m.fills
    obtain ⟨exits, ghosts⟩ := m.calm
    have answers : (m.live.host.cfg.dryRun || m.live.host.orderCb.all
        fun answer => answer (m.live.host.basketId m.live.manager.seq)) = true := by
      cases answered : m.live.host.orderCb with
      | none => exact Bool.or_true _
      | some answer =>
        rw [answered] at fills
        exact fills
    simp [OrderManager.takesEntry, exits, ghosts, m.liveFlat, answers]
  rw [liveSends, LiveHost.onEmission, skips]
  cases bars : m.liveBars with
  | true => simp [m.liveFlat]
  | false =>
    rw [Bool.false_or, shared, Bool.and_eq_true]
    by_cases passes : m.live.entryGate m.cfg m.long = ""
    · have unblocked : ¬ decide (m.live.entryGate m.cfg m.long ≠ "") = true := by
        rw [passes]
        decide
      rw [if_neg unblocked]
      cases trades : m.live.manager.risk.canTrade with
      | true =>
        have taken := OrderManager.onSignal_taken now m.emission.sig m.emission.price 0
          m.live.manager entry (takes.trans trades)
        exact iff_of_true taken ⟨⟨rfl, decide_eq_true passes⟩, rfl⟩
      | false =>
        obtain ⟨still, _⟩ := OrderManager.onSignal_refused now m.emission.sig m.emission.price 0
          entry m.liveFlat (takes.trans trades)
        refine iff_of_false (fun taken => ?_) (fun both => Bool.false_ne_true both.1.1)
        exact absurd (taken.symm.trans still) Bool.false_ne_true
    · rw [if_pos (decide_eq_true passes)]
      refine iff_of_false (fun taken => ?_) (fun both => passes (of_decide_eq_true both.1.2))
      exact absurd (taken.symm.trans m.liveFlat) Bool.false_ne_true

/-- Paper and live admit the same signal exactly where their own rules agree on it. -/
theorem admission_iff (now : Int) : (m.paperAccepts ↔ m.liveSends now) ↔ m.Agrees := by
  rw [m.paperAccepts_iff, m.liveSends_iff, Agrees]
  cases m.shared <;> cases m.paperBars <;> cases m.liveBars <;> decide

/-! ## A signal that only one side admits -/

/-- Entries until 10:30. -/
def firstHour : EntryConfig where
  lastEntryHour := 10
  lastEntryMin := 30

/-- A tick of a morning, this many minutes past 09:30 Eastern. -/
def morningTick (minutes : Int) (price : ℚ) : OrbTick where
  tsMicros := 1746019800000000 + minutes * 60000000
  price := price

/-- The strategy at 10:14, its range between 20000 and 20010. -/
def ranged : OrbStrategy :=
  [morningTick 0 20000, morningTick 1 20010, morningTick 15 20005, morningTick 44 20005].foldl
    (fun s t => (s.onTick firstHour.rules false t).1) {}

/-- The breakout at 10:15. -/
def lateBreakout : EntryMoment where
  cfg := firstHour
  desk := { cfg := firstHour.toPaperConfig }
  sameCfg := rfl
  sameTick := rfl
  strategy := ranged
  tick := morningTick 45 20012
  emission := { sig := .buy, price := 20012, reason := "orb_breakout_long" }
  emits := by decide +kernel
  live :=
    { host := { orderCb := some fun _ => true }
      lastTickUs := (morningTick 45 20012).tsMicros }
  broker :=
    { lastTickUs := (morningTick 45 20012).tsMicros
      lastEtHour := 10
      lastEtMin := 15 }
  sameBook := rfl
  sameRisk := rfl
  liveSaw := rfl
  paperSaw := by decide +kernel
  replays := rfl
  paperFlat := by decide
  liveFlat := by decide
  calm := by decide
  fills := rfl

/-- At 10:15 the strategy may still enter and the executor sends the order, while for the
paper broker the hour of the last entry has begun. -/
theorem paper_misses_late_entry :
    ¬ ∀ (m : EntryMoment) (now : Int), m.paperAccepts ↔ m.liveSends now := by
  intro always
  have agree := always lateBreakout 0
  rw [paperAccepts_iff, liveSends_iff] at agree
  revert agree
  decide +kernel

end EntryMoment

end RithmicEngine
