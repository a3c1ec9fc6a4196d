import RithmicEngine.Base.Table
import RithmicEngine.Execution.FreshCross
import RithmicEngine.Base.Numerals
/-!
# The saved range

Once a second the executor writes the row of its session, with the opening range where it is
set. A row belongs to a date, an account, an instrument and a strategy tag, and each write
replaces the one before. A process that starts looks up the row of the day under the tag ORB,
whatever its own tag is, and seeds its range from it. So does every new cycle of a process.

Numbers are written with four decimals into buffers of 31 characters. The rest of the database
and the risk manager's part of the row are inputs.
-/
namespace RithmicEngine

/-- What identifies the rows of an executor. -/
structure OrbIdentity where
  accountLabel : String
  instrument : String
  strategy : String
  deriving DecidableEq

structure SessionKey where
  sessionDate : Int
  accountLabel : String
  instrument : String
  strategy : String
  deriving DecidableEq

structure SessionRow where
  orbHigh : ℚ
  orbLow : ℚ
  orbRange : ℚ
  tradesTaken : Int
  dailyPnlUsd : ℚ
  peakEquity : ℚ
  riskHalted : Bool
  haltReason : String
  accountEquity : ℚ
  deriving DecidableEq

/-- What the risk manager knows in a pass. -/
structure SessionBooks where
  dailyPnl : ℚ := 0
  peakEquity : ℚ := 0
  halted : Bool := false
  haltReason : String := ""
  equity : ℚ := -1

abbrev LiveSessions := Table SessionKey SessionRow

namespace OrbIdentity

def key (who : OrbIdentity) (date : Int) : SessionKey where
  sessionDate := date
  accountLabel := who.accountLabel
  instrument := who.instrument
  strategy := who.strategy

end OrbIdentity

/-- A number as it is read back. -/
def stored (x : ℚ) : ℚ := (Numerals.readNumber ((Numerals.fixed 4 x).take 31)).getD 0

namespace LiveSessions

def upsertSession (sessions : LiveSessions) (who : OrbIdentity) (tradeDate : Int)
    (orbHigh orbLow : ℚ) (tradesTaken : Int) (books : SessionBooks) : LiveSessions :=
  let aeq := if books.equity ≥ 0 then books.equity else books.peakEquity
  sessions.insert (who.key tradeDate)
    { orbHigh := stored orbHigh
      orbLow := stored orbLow
      orbRange := stored (orbHigh - orbLow)
      tradesTaken := tradesTaken
      dailyPnlUsd := stored books.dailyPnl
      peakEquity := stored books.peakEquity
      riskHalted := books.halted
      haltReason := books.haltReason
      accountEquity := stored aeq }

/-- The row of the day that the range is seeded from. -/
def startupRow (sessions : LiveSessions) (who : OrbIdentity) (date : Int) : Option SessionRow :=
  let own : OrbIdentity := { who with strategy := "ORB" }
  (sessions.lookup (own.key date)).filter fun row => decide (row.orbHigh > row.orbLow)

end LiveSessions

/-- A strategy in its process, beside the table of the sessions. -/
structure LiveOrb where
  hosted : HostedOrb := {}
  sessions : LiveSessions := ∅

/-- What happens to a process: something to its strategy, a pass of the one-second timer, which
may find the database down, or a new cycle. -/
inductive LiveHappening
  | strategy (happening : OrbHappening)
  | pass (clock : Int) (books : SessionBooks) (connected : Bool)
  | cycle (connected : Bool)

namespace LiveOrb

variable (rules : OrbRules) (who : OrbIdentity)

/-- Seed the range from the row of the day. -/
def seedRange (x : LiveOrb) : LiveOrb :=
  match x.sessions.startupRow who x.hosted.today with
  | some row =>
    if row.orbHigh > row.orbLow ∧ row.orbHigh > 0 then
      { x with hosted := x.hosted.step rules (.seedRange row.orbHigh row.orbLow) }
    else x
  | none => x

/-- Write the row of the session. -/
def flushSession (books : SessionBooks) (x : LiveOrb) : LiveOrb :=
  let session := x.hosted.strategy.session
  { x with
    sessions := x.sessions.upsertSession who x.hosted.today
      (if session.orbSet then session.orbHigh else 0)
      (if session.orbSet then session.orbLow else 0) session.tradesToday books }

def step (x : LiveOrb) : LiveHappening → LiveOrb
  | .strategy happening => { x with hosted := x.hosted.step rules happening }
  | .pass clock books connected =>
    let hosted := (x.hosted.step rules (.checkEod clock)).step rules (.checkDate clock)
    let x := { x with hosted := hosted }
    if connected then x.flushSession who books else x
  | .cycle connected => if connected then x.seedRange rules who else x

/-- A fresh process on a day on which some trades were done. -/
def restarted (today done : Int) (sessions : LiveSessions) : LiveOrb :=
  let strategy := OrbStrategy.resetSession {}
  let strategy := if done > 0 then strategy.seedTradesToday done else strategy
  seedRange rules who { hosted := { strategy, today }, sessions }

end LiveOrb

/-! ## A range that is set -/

theorem stored_eq {x : ℚ} (fits : Numerals.Fits 4 31 x) : stored x = Numerals.rounded 4 x := by
  unfold stored
  rw [Numerals.readNumber_take_rounded (by decide) (by decide) fits]
  rfl

namespace OrbStrategy

variable {rules : OrbRules}

/-- A tick leaves a range that is set. -/
theorem onTick_range {refused : Bool} {t : OrbTick} {s : OrbStrategy}
    (isSet : s.session.orbSet = true) :
    HostedOrb.SameRange s (onTick rules refused t s).1 := by
  have ticks := onTick_ticks rules refused t s
  have built : (buildBar rules t s).session = s.session := by
    rcases (buildBar_built rules t s).session with stays | ⟨unset, _⟩
    · exact stays
    · exact absurd (unset.symm.trans isSet) Bool.false_ne_true
  have bar : HostedOrb.SameRange s (buildBar rules t s) := by
    constructor
    · rw [built]
    · rw [built]
    · rw [built]
  generalize onTick rules refused t s = after at ticks
  cases ticks with
  | ignored halted => exact HostedOrb.SameRange.refl s
  | anchored live seeded => exact ⟨bar.set, bar.high, bar.low⟩
  | widened live unseeded unset =>
    rw [built] at unset
    exact absurd (unset.symm.trans isSet) Bool.false_ne_true
  | passed live unseeded set => exact ⟨bar.set, bar.high, bar.low⟩
  | signalled live unseeded set admitted breaks =>
    cases refused with
    | true => exact ⟨bar.set, bar.high, bar.low⟩
    | false => exact ⟨bar.set, bar.high, bar.low⟩

end OrbStrategy

namespace HostedOrb

variable {rules : OrbRules}

/-- While the session goes on and no range is seeded, one that is set stays. -/
theorem step_range {x : HostedOrb} {happening : OrbHappening}
    (isSet : x.strategy.session.orbSet = true) (goesOn : SessionGoesOn x happening)
    (unseeded : ¬Seeds happening) :
    SameRange x.strategy (x.step rules happening).strategy ∧
      (x.step rules happening).today = x.today := by
  cases happening with
  | tick refused t => exact ⟨OrbStrategy.onTick_range isSet, rfl⟩
  | checkEod clock =>
    refine ⟨?_, rfl⟩
    change SameRange x.strategy (x.strategy.checkEod rules (etHour clock) (etMinute clock)).1
    rw [OrbStrategy.checkEod]
    split
    · exact ⟨rfl, rfl, rfl⟩
    · exact SameRange.refl _
  | checkDate clock =>
    have today : tradingDate clock = x.today := goesOn
    have same : x.step rules (.checkDate clock) = x := by
      unfold HostedOrb.step handle
      dsimp only
      rw [if_pos today]
    rw [same]
    exact ⟨SameRange.refl _, rfl⟩
  | tradeClosed => exact ⟨⟨rfl, rfl, rfl⟩, rfl⟩
  | halt reason => exact ⟨⟨rfl, rfl, rfl⟩, rfl⟩
  | unhalt =>
    refine ⟨?_, rfl⟩
    change SameRange x.strategy x.strategy.unhaltTrading
    rw [OrbStrategy.unhaltTrading]
    split
    · exact SameRange.refl _
    · exact ⟨rfl, rfl, rfl⟩
  | gapReset => exact goesOn.elim
  | seedTrades n => exact ⟨⟨rfl, rfl, rfl⟩, rfl⟩
  | seedRange high low => exact absurd trivial unseeded

end HostedOrb

namespace LiveOrb

variable {rules : OrbRules} {who : OrbIdentity}

/-- The session goes on, and no range is seeded but from the table. -/
def GoesOn (x : LiveOrb) : LiveHappening → Prop
  | .strategy happening =>
    HostedOrb.SessionGoesOn x.hosted happening ∧ ¬HostedOrb.Seeds happening
  | .pass clock _ _ => tradingDate clock = x.hosted.today
  | .cycle _ => True

/-- A level is kept by the row, to four decimals. -/
structure Level (x kept : ℚ) : Prop where
  fits : Numerals.Fits 4 31 x
  rounds : Numerals.rounded 4 x = kept

theorem Level.stored {x kept : ℚ} (level : Level x kept) : stored x = kept :=
  (stored_eq level.fits).trans level.rounds

/-- What is read back is kept again. -/
theorem Level.again {x kept : ℚ} (level : Level x kept) : Level kept kept where
  fits := level.rounds ▸ level.fits.rounded
  rounds := by
    rw [← level.rounds]
    exact (Numerals.rounded_eq_iff 4 _).mpr (Numerals.atMost_rounded 4 x)

/-- The range is set and its two levels are in the row of the day. -/
structure Saved (who : OrbIdentity) (date : Int) (high low : ℚ) (x : LiveOrb) : Prop where
  today : x.hosted.today = date
  isSet : x.hosted.strategy.session.orbSet = true
  isHigh : Level x.hosted.strategy.session.orbHigh high
  isLow : Level x.hosted.strategy.session.orbLow low
  row : ∃ row, x.sessions.lookup (who.key date) = some row ∧ row.orbHigh = high ∧ row.orbLow = low

variable {date : Int} {high low : ℚ} {x : LiveOrb}

/-- A strategy with the same range stays saved. -/
theorem Saved.hosted (saved : Saved who date high low x) {hosted : HostedOrb}
    (range : HostedOrb.SameRange x.hosted.strategy hosted.strategy)
    (today : hosted.today = x.hosted.today) : Saved who date high low { x with hosted } where
  today := today.trans saved.today
  isSet := range.set.trans saved.isSet
  isHigh := by
    rw [range.high]
    exact saved.isHigh
  isLow := by
    rw [range.low]
    exact saved.isLow
  row := saved.row

/-- A pass that finds the database up saves a range that is set. -/
theorem flushSession_saved {books : SessionBooks} {x : LiveOrb} {high low : ℚ}
    (isSet : x.hosted.strategy.session.orbSet = true)
    (isHigh : Level x.hosted.strategy.session.orbHigh high)
    (isLow : Level x.hosted.strategy.session.orbLow low) :
    Saved who x.hosted.today high low (x.flushSession who books) where
  today := rfl
  isSet := isSet
  isHigh := isHigh
  isLow := isLow
  row := by
    refine ⟨_, (Table.lookup_insert _ _ _ _).trans (if_pos rfl), ?_, ?_⟩
    · dsimp only
      rw [if_pos isSet, isHigh.stored]
    · dsimp only
      rw [if_pos isSet, isLow.stored]

/-- Under the tag ORB a process finds its own row. -/
theorem Saved.startupRow (saved : Saved who date high low x) (tag : who.strategy = "ORB")
    (width : low < high) :
    ∃ row, x.sessions.startupRow who date = some row ∧
      x.sessions.lookup (who.key date) = some row ∧ row.orbHigh = high ∧ row.orbLow = low := by
  obtain ⟨row, found, isHigh, isLow⟩ := saved.row
  have own : ({ who with strategy := "ORB" } : OrbIdentity) = who := by rw [← tag]
  refine ⟨row, ?_, found, isHigh, isLow⟩
  unfold LiveSessions.startupRow
  dsimp only
  rw [own, found, Option.filter_some, isHigh, isLow, decide_eq_true width]
  rfl

/-- What a process seeds from its own row. -/
theorem Saved.seedRange (saved : Saved who date high low x) (tag : who.strategy = "ORB")
    (width : low < high) (positive : 0 < high) {y : LiveOrb} (today : y.hosted.today = date)
    (sessions : y.sessions = x.sessions) :
    y.seedRange rules who = { y with hosted := y.hosted.step rules (.seedRange high low) } := by
  obtain ⟨row, found, _, isHigh, isLow⟩ := saved.startupRow tag width
  unfold LiveOrb.seedRange
  rw [today, sessions, found]
  dsimp only
  rw [isHigh, isLow, if_pos ⟨width, positive⟩]

/-- A happening that goes on keeps the range set and its levels in the row of the day. -/
theorem Saved.step {date : Int} {high low : ℚ} {x : LiveOrb} (saved : Saved who date high low x)
    (tag : who.strategy = "ORB") (width : low < high) (positive : 0 < high)
    {happening : LiveHappening} (goesOn : x.GoesOn happening) :
    Saved who date high low (x.step rules who happening) := by
  cases happening with
  | strategy happening =>
    obtain ⟨range, today⟩ := @HostedOrb.step_range rules x.hosted happening saved.isSet
      goesOn.1 goesOn.2
    exact saved.hosted range today
  | pass clock books connected =>
    obtain ⟨range, today⟩ := @HostedOrb.step_range rules x.hosted (.checkEod clock) saved.isSet
      trivial id
    have afterEod := saved.hosted range today
    obtain ⟨range, today⟩ := @HostedOrb.step_range rules (x.hosted.step rules (.checkEod clock))
      (.checkDate clock) afterEod.isSet goesOn id
    have afterDate := afterEod.hosted range today
    cases connected with
    | false => exact afterDate
    | true =>
      have flushed := @flushSession_saved who books _ high low afterDate.isSet afterDate.isHigh
        afterDate.isLow
      rw [afterDate.today] at flushed
      exact flushed
  | cycle connected =>
    cases connected with
    | false => exact saved
    | true =>
      change Saved who date high low (x.seedRange rules who)
      rw [saved.seedRange tag width positive saved.today rfl]
      exact ⟨saved.today, rfl, saved.isHigh.again, saved.isLow.again, saved.row⟩

end LiveOrb

/-! ## Entries after a restart -/

namespace OrbStrategy

variable {rules : OrbRules}

/-- A signal after a price above zero is a cross of one level. -/
theorem breakout_iff {price prev : ℚ} {s : OrbStrategy} (positive : 0 < prev) (sig : OrbSignal) :
    (∃ emission, breakout rules price prev s = some emission ∧ emission.sig = sig) ↔
      s.session.inPosition = false ∧ s.cooldownUntilUs ≤ s.lastTsUs ∧
        (sig = .buy ∧ prev ≤ buyLevel rules s ∧ buyLevel rules s < price ∨
          sig = .sell ∧ price < sellLevel rules s ∧ sellLevel rules s ≤ prev) := by
  constructor
  · rintro ⟨emission, breaks, rfl⟩
    obtain ⟨flat, cooled, _, crosses⟩ := breakout_crosses rules breaks
    refine ⟨flat, cooled, ?_⟩
    rcases crosses with ⟨buys, beyond, before⟩ | ⟨sells, beyond, before⟩
    · exact .inl ⟨buys, before.resolve_left (not_le.mpr positive), beyond⟩
    · exact .inr ⟨sells, beyond, before.resolve_left (not_le.mpr positive)⟩
  · rintro ⟨flat, cooled, crosses⟩
    unfold breakout
    rw [if_neg (by rw [flat]; exact Bool.false_ne_true), if_neg (not_lt.mpr cooled)]
    dsimp only
    change ∃ emission, (if price > buyLevel rules s ∧ (prev ≤ 0 ∨ prev ≤ buyLevel rules s) then
      _ else if price < sellLevel rules s ∧ (prev ≤ 0 ∨ prev ≥ sellLevel rules s) then _
      else _) = some emission ∧ _
    rcases crosses with ⟨rfl, before, beyond⟩ | ⟨rfl, beyond, before⟩
    · rw [if_pos ⟨beyond, .inr before⟩]
      exact ⟨_, rfl, rfl⟩
    · have other : ¬(price > buyLevel rules s ∧ (prev ≤ 0 ∨ prev ≤ buyLevel rules s)) := by
        rintro ⟨above, nonpositive | under⟩
        · exact absurd positive (not_lt.mpr nonpositive)
        · linarith
      rw [if_neg other, if_pos ⟨beyond, .inr before⟩]
      exact ⟨_, rfl, rfl⟩

theorem checkBreakout_emission {refused : Bool} {price prev : ℚ} {s : OrbStrategy} :
    (checkBreakout rules refused price prev s).2 = breakout rules price prev s := by
  unfold checkBreakout
  cases breakout rules price prev s with
  | none => rfl
  | some emission => rfl

/-- Once the range is set, a tick signals what its cross does if its guards are open. -/
theorem onTick_emission {refused : Bool} {t : OrbTick} {s : OrbStrategy}
    (isSet : s.session.orbSet = true) : (onTick rules refused t s).2 =
      if s.session.riskHalted = false ∧ s.seeded = false ∧ mayEnter rules t s = true then
        breakout rules t.price s.lastPrice (seeTick t s)
      else none := by
  have built := buildBar_built rules t s
  have same : (buildBar rules t s).session = s.session := by
    rcases built.session with stays | ⟨unset, _⟩
    · exact stays
    · exact absurd (unset.symm.trans isSet) Bool.false_ne_true
  have bar : seeTick t (buildBar rules t s) =
      { seeTick t s with currentBar := (buildBar rules t s).currentBar } := by
    rw [built.rest, same]
    rfl
  have anchor : (seeTick t (buildBar rules t s)).seeded = s.seeded := by
    rw [bar]
    rfl
  have session : (seeTick t (buildBar rules t s)).session = s.session := same
  have enters : mayEnter rules t (seeTick t (buildBar rules t s)) = mayEnter rules t s := by
    unfold mayEnter
    rw [session]
  have breaks : breakout rules t.price s.lastPrice (seeTick t (buildBar rules t s)) =
      breakout rules t.price s.lastPrice (seeTick t s) := by
    rw [bar]
    rfl
  unfold onTick
  dsimp only
  rw [anchor, session, isSet, enters]
  cases s.session.riskHalted with
  | true => rfl
  | false =>
    cases s.seeded with
    | true => rfl
    | false =>
      cases mayEnter rules t s with
      | false => rfl
      | true => exact checkBreakout_emission.trans breaks

/-- The guards of an entry are open on a tick. -/
structure Open (rules : OrbRules) (t : OrbTick) (s : OrbStrategy) : Prop where
  live : s.session.riskHalted = false
  flat : s.session.inPosition = false
  cooled : s.cooldownUntilUs ≤ t.tsMicros
  admitted : mayEnter rules t s = true

end OrbStrategy

namespace HostedOrb

/-- The price of the last tick that was taken. -/
def noteTaken (last : Option ℚ) (x : HostedOrb) (happening : OrbHappening) (_ : HostedOrb) :
    Option ℚ :=
  match happening with
  | .tick _ t => if x.strategy.session.riskHalted then last else some t.price
  | _ => last

/-- A run with the last price noted beside it. -/
def anchoring (rules : OrbRules) : HostedOrb × Option ℚ → OrbHappening → HostedOrb × Option ℚ :=
  Runs.observe (step rules) noteTaken

/-- A tick signals an entry exactly where its guards are open and its price is beyond a level
which the last price was not beyond. -/
def EntersFresh (rules : OrbRules) (high low : ℚ) (last : Option ℚ) (x : HostedOrb)
    (happening : OrbHappening) : Prop :=
  ∀ refused t, happening = .tick refused t → ∀ sig,
    (∃ emission, x.emits rules happening = some emission ∧ emission.sig = sig) ↔
      OrbStrategy.Open rules t x.strategy ∧ ∃ prev ∈ last,
        (sig = .buy ∧ prev ≤ high + rules.breakoutBuffer ∧ high + rules.breakoutBuffer < t.price ∨
          sig = .sell ∧ t.price < low - rules.breakoutBuffer ∧ low - rules.breakoutBuffer ≤ prev)

/-- The range is set to two levels, and the first tick that is taken only anchors the price. -/
structure Anchored (high low : ℚ) (x : HostedOrb) (last : Option ℚ) : Prop where
  isSet : x.strategy.session.orbSet = true
  isHigh : x.strategy.session.orbHigh = high
  isLow : x.strategy.session.orbLow = low
  first : last = none → x.strategy.seeded = true
  later : ∀ prev ∈ last, x.strategy.seeded = false ∧ x.strategy.lastPrice = prev ∧ 0 < prev

variable {rules : OrbRules} {high low : ℚ} {x : HostedOrb} {last : Option ℚ}

/-- While the saved range stands, an entry is a fresh cross of it. -/
theorem Anchored.enters (anchored : Anchored high low x last) (happening : OrbHappening) :
    EntersFresh rules high low last x happening := by
  rintro refused t rfl sig
  change (∃ emission, (OrbStrategy.onTick rules refused t x.strategy).2 = some emission ∧
    emission.sig = sig) ↔ _
  rw [OrbStrategy.onTick_emission anchored.isSet]
  cases last with
  | none =>
    have seeded := anchored.first rfl
    rw [if_neg fun guards => Bool.false_ne_true (guards.2.1.symm.trans seeded)]
    constructor
    · rintro ⟨_, none, _⟩
      exact nomatch none
    · rintro ⟨_, _, none, _⟩
      exact nomatch none
  | some prev =>
    obtain ⟨unseeded, price, positive⟩ := anchored.later prev rfl
    have levels := @OrbStrategy.breakout_iff rules t.price prev
      (OrbStrategy.seeTick t x.strategy) positive sig
    have top : OrbStrategy.buyLevel rules (OrbStrategy.seeTick t x.strategy) =
        high + rules.breakoutBuffer := congrArg (· + rules.breakoutBuffer) anchored.isHigh
    have bottom : OrbStrategy.sellLevel rules (OrbStrategy.seeTick t x.strategy) =
        low - rules.breakoutBuffer := congrArg (· - rules.breakoutBuffer) anchored.isLow
    rw [top, bottom] at levels
    rw [price]
    constructor
    · rintro ⟨emission, signalled, isSig⟩
      split_ifs at signalled with guards
      obtain ⟨flat, cooled, crosses⟩ := levels.mp ⟨emission, signalled, isSig⟩
      exact ⟨⟨guards.1, flat, cooled, guards.2.2⟩, prev, rfl, crosses⟩
    · rintro ⟨guards, other, isLast, crosses⟩
      obtain rfl := Option.some.inj isLast
      rw [if_pos ⟨guards.live, unseeded, guards.admitted⟩]
      exact levels.mpr ⟨guards.flat, guards.cooled, crosses⟩

/-- A tick at a set range leaves its price as the last one, and the strategy seeded no longer. -/
theorem onTick_anchors {refused : Bool} {t : OrbTick} {s : OrbStrategy}
    (live : s.session.riskHalted = false) (isSet : s.session.orbSet = true) :
    (OrbStrategy.onTick rules refused t s).1.seeded = false ∧
      (OrbStrategy.onTick rules refused t s).1.lastPrice = t.price := by
  have ticks := OrbStrategy.onTick_ticks rules refused t s
  have built := OrbStrategy.buildBar_built rules t s
  have anchor : (OrbStrategy.seeTick t (OrbStrategy.buildBar rules t s)).seeded = s.seeded := by
    rw [built.rest]
    rfl
  generalize OrbStrategy.onTick rules refused t s = after at ticks
  cases ticks with
  | ignored halted => exact absurd (live.symm.trans halted) Bool.false_ne_true
  | anchored _ seeded => exact ⟨rfl, rfl⟩
  | widened _ unseeded unset =>
    rcases built.session with stays | ⟨before, _⟩
    · rw [stays] at unset
      exact absurd (unset.symm.trans isSet) Bool.false_ne_true
    · exact absurd (before.symm.trans isSet) Bool.false_ne_true
  | passed _ unseeded set => exact ⟨anchor.trans unseeded, rfl⟩
  | signalled _ unseeded set admitted breaks =>
    cases refused with
    | true => exact ⟨anchor.trans unseeded, rfl⟩
    | false => exact ⟨anchor.trans unseeded, rfl⟩

/-- A happening of the same session keeps the strategy anchored to the saved range. -/
theorem Anchored.step (anchored : Anchored high low x last) {happening : OrbHappening}
    (goesOn : SessionGoesOn x happening) (unseeded : ¬Seeds happening)
    (positive : PositivePrice happening) :
    Anchored high low (x.step rules happening)
      (noteTaken last x happening (x.step rules happening)) := by
  obtain ⟨range, today⟩ := @step_range rules x happening anchored.isSet goesOn unseeded
  have isSet := range.set.trans anchored.isSet
  have isHigh := range.high.trans anchored.isHigh
  have isLow := range.low.trans anchored.isLow
  have idle (seeded : (x.step rules happening).strategy.seeded = x.strategy.seeded)
      (price : (x.step rules happening).strategy.lastPrice = x.strategy.lastPrice) :
      Anchored high low (x.step rules happening) last := by
    refine ⟨isSet, isHigh, isLow, ?_, ?_⟩
    · rw [seeded]
      exact anchored.first
    · rw [seeded, price]
      exact anchored.later
  cases happening with
  | tick refused t =>
    cases halted : x.strategy.session.riskHalted with
    | true =>
      have ignored : (x.step rules (.tick refused t)).strategy = x.strategy := by
        change (OrbStrategy.onTick rules refused t x.strategy).1 = x.strategy
        unfold OrbStrategy.onTick
        rw [if_pos halted]
      unfold noteTaken
      dsimp only
      rw [if_pos halted]
      exact idle (by rw [ignored]) (by rw [ignored])
    | false =>
      obtain ⟨open_, price⟩ := @onTick_anchors rules refused t x.strategy halted anchored.isSet
      unfold noteTaken
      dsimp only
      rw [if_neg (by rw [halted]; exact Bool.false_ne_true)]
      refine ⟨isSet, isHigh, isLow, nofun, ?_⟩
      intro prev isLast
      obtain rfl := Option.some.inj isLast
      exact ⟨open_, price, positive⟩
  | checkEod clock =>
    have kept : ∀ s : OrbStrategy, (s.checkEod rules (etHour clock) (etMinute clock)).1.seeded =
        s.seeded ∧ (s.checkEod rules (etHour clock) (etMinute clock)).1.lastPrice =
          s.lastPrice := by
      intro s
      unfold OrbStrategy.checkEod
      split_ifs
      · exact ⟨rfl, rfl⟩
      · exact ⟨rfl, rfl⟩
    exact idle (kept x.strategy).1 (kept x.strategy).2
  | checkDate clock =>
    have same : tradingDate clock = x.today := goesOn
    have stays : x.step rules (.checkDate clock) = x := by
      unfold HostedOrb.step handle
      dsimp only
      rw [if_pos same]
    exact idle (by rw [stays]) (by rw [stays])
  | tradeClosed => exact idle rfl rfl
  | halt reason => exact idle rfl rfl
  | unhalt =>
    have kept : ∀ s : OrbStrategy, s.unhaltTrading.seeded = s.seeded ∧
        s.unhaltTrading.lastPrice = s.lastPrice := by
      intro s
      unfold OrbStrategy.unhaltTrading
      split_ifs
      · exact ⟨rfl, rfl⟩
      · exact ⟨rfl, rfl⟩
    exact idle (kept x.strategy).1 (kept x.strategy).2
  | gapReset => exact goesOn.elim
  | seedTrades n => exact idle rfl rfl
  | seedRange high low => exact absurd trivial unseeded

/-- The session goes on, no range is seeded, and prices are above zero. -/
def Continues (x : HostedOrb) (happening : OrbHappening) : Prop :=
  SessionGoesOn x happening ∧ ¬Seeds happening ∧ PositivePrice happening

/-- Over happenings that go on from the restart, an anchored strategy enters only on a fresh
cross. -/
theorem Anchored.along (anchored : Anchored high low x last) {happenings : List OrbHappening}
    (continues : Runs.Along (anchoring rules) (fun pair happening => Continues pair.1 happening)
      (x, last) happenings) :
    Runs.Along (anchoring rules)
      (fun pair happening => EntersFresh rules high low pair.2 pair.1 happening)
      (x, last) happenings :=
  Runs.along_of_invariant (anchoring rules)
    (fun pair => Anchored high low pair.1 pair.2)
    (fun _ happening anchored _ => anchored.enters happening)
    (fun _ _ anchored given => anchored.step given.1 given.2.1 given.2.2)
    (x, last) happenings anchored continues

end HostedOrb

namespace LiveOrb

variable {rules : OrbRules} {who : OrbIdentity}

/-- The range is set, and the row tells its two levels apart and the upper one from nothing. -/
structure Recoverable (x : LiveOrb) : Prop where
  isSet : x.hosted.strategy.session.orbSet = true
  high : Numerals.Fits 4 31 x.hosted.strategy.session.orbHigh
  low : Numerals.Fits 4 31 x.hosted.strategy.session.orbLow
  width : Numerals.rounded 4 x.hosted.strategy.session.orbLow <
    Numerals.rounded 4 x.hosted.strategy.session.orbHigh
  positive : 0 < Numerals.rounded 4 x.hosted.strategy.session.orbHigh

/-- What a fresh process takes over from the row that the one before wrote: the range, and from
then on the entries at its levels. -/
structure Recovers (rules : OrbRules) (who : OrbIdentity) (done : Int) (x : LiveOrb) : Prop where
  row : ∃ row, x.sessions.startupRow who x.hosted.today = some row ∧
    x.sessions.lookup (who.key x.hosted.today) = some row
  isSet : (restarted rules who x.hosted.today done x.sessions).hosted.strategy.session.orbSet =
    x.hosted.strategy.session.orbSet
  high : (restarted rules who x.hosted.today done x.sessions).hosted.strategy.session.orbHigh =
    Numerals.rounded 4 x.hosted.strategy.session.orbHigh
  low : (restarted rules who x.hosted.today done x.sessions).hosted.strategy.session.orbLow =
    Numerals.rounded 4 x.hosted.strategy.session.orbLow
  enters : ∀ happenings : List OrbHappening,
    Runs.Along (HostedOrb.anchoring rules)
      (fun pair happening => HostedOrb.Continues pair.1 happening)
      ((restarted rules who x.hosted.today done x.sessions).hosted, none) happenings →
    Runs.Along (HostedOrb.anchoring rules)
      (fun pair happening => HostedOrb.EntersFresh rules
        (Numerals.rounded 4 x.hosted.strategy.session.orbHigh)
        (Numerals.rounded 4 x.hosted.strategy.session.orbLow) pair.2 pair.1 happening)
      ((restarted rules who x.hosted.today done x.sessions).hosted, none) happenings

/-- A fresh process takes the range over from the row of the day, and enters at its levels from
then on. -/
theorem Saved.recovers {date : Int} {high low : ℚ} {x : LiveOrb} (saved : Saved who date high low x)
    (tag : who.strategy = "ORB") (width : low < high) (positive : 0 < high) (done : Int) :
    Recovers rules who done x := by
  obtain ⟨row, found, own, _, _⟩ := saved.startupRow tag width
  obtain ⟨strategy, isRestarted⟩ : ∃ strategy : OrbStrategy,
      restarted rules who x.hosted.today done x.sessions =
        { hosted := { strategy := strategy.seedOrbRange high low, today := x.hosted.today }
          sessions := x.sessions } := by
    refine ⟨_, saved.seedRange tag width positive saved.today rfl⟩
  have isHigh := saved.isHigh.rounds
  have isLow := saved.isLow.rounds
  have anchored : HostedOrb.Anchored high low
      { strategy := strategy.seedOrbRange high low, today := x.hosted.today } none :=
    ⟨rfl, rfl, rfl, fun _ => rfl, nofun⟩
  constructor
  · rw [saved.today]
    exact ⟨row, found, own⟩
  · rw [isRestarted]
    exact saved.isSet.symm
  · rw [isRestarted]
    exact isHigh.symm
  · rw [isRestarted]
    exact isLow.symm
  · intro happenings continues
    rw [isRestarted] at continues ⊢
    rw [isHigh, isLow]
    exact anchored.along continues

end LiveOrb

open LiveOrb

/-- A process under the tag ORB that is stopped on the day of its range, after a pass that found
the range set and the database up, hands its range over to the next one. -/
theorem range_recovered (rules : OrbRules) (who : OrbIdentity) (start : LiveOrb)
    (before after : List LiveHappening) (clock : Int) (books : SessionBooks) (done : Int)
    (tag : who.strategy = "ORB")
    (recoverable : Recoverable
      (Runs.run (step rules who) start (before ++ [.pass clock books true])))
    (goesOn : Runs.Along (step rules who) GoesOn
      (Runs.run (step rules who) start (before ++ [.pass clock books true])) after) :
    Recovers rules who done
      (Runs.run (step rules who) start (before ++ [.pass clock books true] ++ after)) := by
  rw [Runs.run_append]
  obtain ⟨y, isAfter⟩ : ∃ y, y = Runs.run (step rules who) start
    (before ++ [.pass clock books true]) := ⟨_, rfl⟩
  obtain ⟨x, isFlushed⟩ : ∃ x : LiveOrb, y = x.flushSession who books := by
    rw [isAfter, Runs.run_append]
    exact ⟨_, rfl⟩
  rw [← isAfter] at recoverable goesOn ⊢
  have hosted : y.hosted = x.hosted := by
    rw [isFlushed]
    rfl
  obtain ⟨isSet, high, low, width, positive⟩ := recoverable
  have saved := @flushSession_saved who books x _ _ (hosted ▸ isSet) ⟨hosted ▸ high, rfl⟩
    ⟨hosted ▸ low, rfl⟩
  rw [← isFlushed, ← hosted] at saved
  have kept := Runs.run_invariant (step rules who) _ GoesOn
    (fun _ _ saved goesOn => Saved.step saved tag width positive goesOn) y after saved goesOn
  exact kept.recovers tag width positive done

/-- A morning whose range is set by a tick past the window, and the pass after it. -/
def savedMorning : List LiveHappening :=
  [.strategy (HostedOrb.printed 60 100), .strategy (HostedOrb.printed 120 90),
    .strategy (HostedOrb.printed 900 95), .strategy (HostedOrb.printed 960 96)]

def savedPass : LiveHappening := .pass (20208 * 1440 + 600) {} true

/-- A fresh process of a day. -/
def morningStart : LiveOrb where
  hosted := { today := 20208 }

def taggedAs (tag : String) : OrbIdentity where
  accountLabel := "tradeify"
  instrument := "MNQ"
  strategy := tag

theorem savedMorning_hosted (tag : String) :
    (Runs.run (step {} (taggedAs tag)) morningStart (savedMorning ++ [savedPass])).hosted =
      (Runs.run (step {} (taggedAs "ORB")) morningStart (savedMorning ++ [savedPass])).hosted :=
  rfl

theorem savedMorning_recoverable (tag : String) : Recoverable
    (Runs.run (step {} (taggedAs tag)) morningStart (savedMorning ++ [savedPass])) := by
  constructor
  all_goals
    rw [savedMorning_hosted]
    decide +kernel

theorem range_recovered_of_morning :
    Recovers {} (taggedAs "ORB") 1
      (Runs.run (step {} (taggedAs "ORB")) morningStart (savedMorning ++ [savedPass] ++ [])) :=
  range_recovered {} (taggedAs "ORB") morningStart savedMorning [] (20208 * 1440 + 600) {} 1 rfl
    (savedMorning_recoverable "ORB") trivial

/-- Under any other tag the row is written and not found. -/
theorem tagged_range_is_lost : ¬∀ (rules : OrbRules) (who : OrbIdentity) (start : LiveOrb)
    (before after : List LiveHappening) (clock : Int) (books : SessionBooks) (done : Int),
    Recoverable (Runs.run (step rules who) start (before ++ [.pass clock books true])) →
    Runs.Along (step rules who) GoesOn
      (Runs.run (step rules who) start (before ++ [.pass clock books true])) after →
    Recovers rules who done
      (Runs.run (step rules who) start (before ++ [.pass clock books true] ++ after)) := by
  intro recovered
  have recovers := recovered {} (taggedAs "ORBW") morningStart savedMorning []
    (20208 * 1440 + 600) {} 1 (savedMorning_recoverable "ORBW") trivial
  exact absurd recovers.isSet (by decide +kernel)

end RithmicEngine
