import RithmicEngine.Paper.MirrorBroker
import RithmicEngine.Paper.PaperSeat
/-!
# A reflected tape is traded in reflection

The tape of a seat, reflected about a constant on the tick grid, is traded in
reflection, as long as every price is one.
-/
namespace RithmicEngine

open TrailingStop (Inside)

namespace TapeEvent

/-- The event on the other side of the market. -/
def mirror (K : ℚ) : TapeEvent → TapeEvent
  | quote q => quote (q.mirror K)
  | tick date t => tick date (t.mirror K)
  | signal sig reason => signal sig.mirror reason
  | atr date pts => atr date pts
  | newDay => newDay

/-- The prices on the tape are positive. -/
def Positive : TapeEvent → Prop
  | quote q => 0 < q.bid ∧ 0 < q.ask
  | tick _ t => 0 < t.price
  | signal _ _ => True
  | atr _ _ => True
  | newDay => True

instance decidablePositive : ∀ event : TapeEvent, Decidable event.Positive
  | quote q => inferInstanceAs (Decidable (0 < q.bid ∧ 0 < q.ask))
  | tick _ t => inferInstanceAs (Decidable (0 < t.price))
  | signal _ _ => isTrue trivial
  | atr _ _ => isTrue trivial
  | newDay => isTrue trivial

end TapeEvent

namespace Seat

variable (desk : PaperDesk)

/-- The session and the position that the exits of a print are taken from. -/
def managed (date : String) (t : OrbTick) (s : Seat) : Option SessionRegime × PaperBroker :=
  let et := utcToEt t.tsMicros
  let regime := s.regime.map (·.onTick date et.1 et.2 t.tsMicros t.price t.size)
  (regime, (s.broker.seeTick t).fillPending desk regime t)

/-- A print that meets a position finds every price of its exits and of the working stop
that it moves inside. -/
def Roomy (K : ℚ) (s : Seat) : TapeEvent → Prop
  | .tick date t =>
    (s.managed desk date t).2.posDir ≠ 0 →
      (s.managed desk date t).2.Roomy K desk (s.managed desk date t).1 t
  | .quote _ => True
  | .signal _ _ => True
  | .atr _ _ => True
  | .newDay => True

instance decidableRoomy (K : ℚ) (s : Seat) : ∀ event, Decidable (s.Roomy desk K event)
  | .tick date t => inferInstanceAs (Decidable ((s.managed desk date t).2.posDir ≠ 0 →
      (s.managed desk date t).2.Roomy K desk (s.managed desk date t).1 t))
  | .quote _ => isTrue trivial
  | .signal _ _ => isTrue trivial
  | .atr _ _ => isTrue trivial
  | .newDay => isTrue trivial

/-- Two seats are reflections of each other. -/
structure Mirrors (K : ℚ) (s s' : Seat) : Prop where
  sessions : Option.Rel (SessionRegime.Mirrors K) s.regime s'.regime
  brokers : s.broker.Mirrors K s'.broker

variable {desk} {K : ℚ}

theorem Mirrors.vacant (K : ℚ) (hosted : Bool) :
    Mirrors K (vacant desk hosted) (vacant desk hosted) where
  sessions := by
    cases hosted with
    | true => exact Option.Rel.some (SessionRegime.Mirrors.before_open K {} rfl)
    | false => exact Option.Rel.none
  brokers := PaperBroker.Mirrors.fresh K desk

/-- Sessions that take the same call stay reflections. -/
theorem sessions_map {regime regime' : Option SessionRegime}
    (sessions : Option.Rel (SessionRegime.Mirrors K) regime regime')
    {f f' : SessionRegime → SessionRegime}
    (keeps : ∀ r r', SessionRegime.Mirrors K r r' → SessionRegime.Mirrors K (f r) (f' r')) :
    Option.Rel (SessionRegime.Mirrors K) (regime.map f) (regime'.map f') := by
  cases sessions with
  | some m => exact Option.Rel.some (keeps _ _ m)
  | none => exact Option.Rel.none

/-- One event and its reflection. -/
theorem Mirrors.step {s s' : Seat} (m : Mirrors K s s') (grid : desk.OnGrid K)
    {event : TapeEvent} (positive : event.Positive ∧ (event.mirror K).Positive)
    (roomy : s.Roomy desk K event) :
    Mirrors K (s.step desk event) (s'.step desk (event.mirror K)) := by
  cases event with
  | quote q =>
    have bid : Inside K q.bid := ⟨positive.1.1, sub_pos.mp positive.2.2⟩
    have ask : Inside K q.ask := ⟨positive.1.2, sub_pos.mp positive.2.1⟩
    exact ⟨m.sessions, m.brokers.onQuote bid ask⟩
  | tick date t =>
    have inside : Inside K t.price := ⟨positive.1, sub_pos.mp positive.2⟩
    have sessions := sessions_map m.sessions fun r r' read =>
      read.onTick date (utcToEt t.tsMicros).1 (utcToEt t.tsMicros).2 t.tsMicros t.price t.size
    exact ⟨sessions, m.brokers.onTick grid sessions inside roomy⟩
  | signal sig reason => exact ⟨m.sessions, m.brokers.onSignal m.sessions sig reason⟩
  | atr date pts => exact ⟨sessions_map m.sessions fun r r' read => read.setAtr date pts, m.brokers⟩
  | newDay => exact ⟨m.sessions, m.brokers.resetDay⟩

/-- A whole tape and its reflection. -/
theorem Mirrors.run {s s' : Seat} (m : Mirrors K s s') (grid : desk.OnGrid K)
    (tape : List TapeEvent) (positive : ∀ event ∈ tape, event.Positive ∧ (event.mirror K).Positive)
    (roomy : Runs.Along (Seat.step desk) (Seat.Roomy desk K) s tape) :
    Mirrors K (Seat.run desk tape s) (Seat.run desk (tape.map (TapeEvent.mirror K)) s') := by
  induction tape generalizing s s' with
  | nil => exact m
  | cons event rest ih =>
    obtain ⟨here, later⟩ := roomy
    apply ih (m.step grid (positive event List.mem_cons_self) here)
    · intro other inside
      exact positive other (List.mem_cons_of_mem event inside)
    · exact later

/-- Longs and shorts are mirror images: a tape and its reflection are traded alike, each
trade on the other side and at reflected prices, and so is the position at every moment. -/
theorem run_mirror (desk : PaperDesk) (K : ℚ) (grid : desk.OnGrid K) (hosted : Bool)
    (tape : List TapeEvent) (positive : ∀ event ∈ tape, event.Positive ∧ (event.mirror K).Positive)
    (roomy : Runs.Along (Seat.step desk) (Seat.Roomy desk K) (vacant desk hosted) tape) :
    (run desk (tape.map (TapeEvent.mirror K)) (vacant desk hosted)).broker.trades =
        (run desk tape (vacant desk hosted)).broker.trades.map (PaperTradeRow.mirror K) ∧
      (run desk tape (vacant desk hosted)).broker.Mirrors K
        (run desk (tape.map (TapeEvent.mirror K)) (vacant desk hosted)).broker := by
  have mirrors := (Mirrors.vacant K hosted).run grid tape positive roomy
  exact ⟨mirrors.brokers.trades, mirrors.brokers⟩

/-- A long that breaks even, trails and is stopped, with a book throughout. -/
def trailedLong : List TapeEvent :=
  [.atr "2025-04-30" 200,
    .quote { tsUs := morning 0, bid := 20000, ask := 20000 + 1 / 4, bidSz := 6, askSz := 4 },
    print 0 20000, .signal .buy "breakout", print 1 20000, print 2 20004,
    .quote { tsUs := morning 300, bid := 20030, ask := 20030 + 1 / 4, bidSz := 5, askSz := 7 },
    print 302 20030, print 303 20019]

/-- A trailed long position, mirrored, is the short one. -/
theorem trailed_long_mirrored :
    (run {} (trailedLong.map (TapeEvent.mirror 40000)) (vacant {} true)).broker.trades =
        (run {} trailedLong (vacant {} true)).broker.trades.map (PaperTradeRow.mirror 40000) ∧
      (run {} trailedLong (vacant {} true)).broker.Mirrors 40000
        (run {} (trailedLong.map (TapeEvent.mirror 40000)) (vacant {} true)).broker :=
  run_mirror {} 40000 (by decide +kernel) true trailedLong (by decide +kernel) (by decide +kernel)

/-- A long that is flattened at one tick, its slippage. -/
def unpricedExit : List TapeEvent :=
  [.quote { tsUs := morning 0, bid := 1 / 4, ask := 1 / 2, bidSz := 1, askSz := 1 },
    print 0 (1 / 4), .signal .buy "breakout", print 1 (1 / 4), .signal .flattenEod "eod",
    print 2 (1 / 4)]

/-- A long whose stop lies below zero when the trail moves it. -/
def unpricedStop : List TapeEvent :=
  [print 0 10, .signal .buy "breakout", print 1 10, print 2 (29 / 2), print 3 (17 / 4)]

/-- A configuration that breaks even behind its stop. -/
def looseOffset : PaperDesk where
  cfg := { trailBeOffset := -20, trailDelaySecs := 0 }

/-- A quote without a bid, which is no book until it is reflected. -/
def unpricedBid : List TapeEvent :=
  [.quote { tsUs := morning 0, bid := 0, ask := 10, bidSz := 0, askSz := 1 },
    print 0 10, .signal .buy "breakout", print 1 10, .signal .flattenEod "eod", print 2 10]

/-- A configuration that fills at the touch. -/
def atTouch : PaperDesk where
  cfg := { fillModel := "bbo" }

/-- A price of zero stands for none, and its reflection does not: an exit at no price, a
working stop below zero and a quote without a bid each have trades of their own in the
mirror, though every reflected price of their tapes is positive. -/
theorem unpriced_not_mirrored :
    ((∀ event ∈ unpricedExit, event.Positive ∧ (event.mirror 40).Positive) ∧
      (run {} (unpricedExit.map (TapeEvent.mirror 40)) (vacant {} true)).broker.trades ≠
        (run {} unpricedExit (vacant {} true)).broker.trades.map (PaperTradeRow.mirror 40)) ∧
    ((∀ event ∈ unpricedStop, event.Positive ∧ (event.mirror 40).Positive) ∧
      (run looseOffset (unpricedStop.map (TapeEvent.mirror 40))
          (vacant looseOffset true)).broker.trades ≠
        (run looseOffset unpricedStop (vacant looseOffset true)).broker.trades.map
          (PaperTradeRow.mirror 40)) ∧
    ((∀ event ∈ unpricedBid, (event.mirror 40).Positive) ∧
      (run atTouch (unpricedBid.map (TapeEvent.mirror 40)) (vacant atTouch true)).broker.trades ≠
        (run atTouch unpricedBid (vacant atTouch true)).broker.trades.map
          (PaperTradeRow.mirror 40)) := by
  decide +kernel

end Seat

end RithmicEngine
