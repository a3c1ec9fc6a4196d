import RithmicEngine.Paper.FairFills
import RithmicEngine.Paper.SavedPosition
/-!
# The ledger of a paper broker

Beside the plain broker its legs are noted as they are opened and closed, and the entries
that were signalled since the day was reset. Openings and trades alternate, a tick never
closes a leg before it was opened, the trades sum to the change of the total profit, the
excursions of a trade bound its result, and a day fills no more entries than it may.

A restart resumes a position into a broker that is flat, and the times of ticks count
from the epoch.
-/
namespace RithmicEngine

namespace PaperBroker

open Runs

variable (desk : PaperDesk)

/-- One event of the plain broker. -/
def undergo (b : PaperBroker) : DeskEvent → PaperBroker
  | .usual (.signal regime sig reason) => b.onSignal desk regime sig reason
  | .usual (.quote q) => b.onQuote desk q
  | .usual (.tick regime t _) => b.onTick desk regime t
  | .usual (.flatten reason tsUs priceHint) => b.flatten desk reason tsUs priceHint
  | .usual .resetDay => b.resetDay
  | .usual (.setWarmup on) => b.setWarmup on
  | .resume row =>
    b.resumePosition row.direction row.qty row.entryPrice row.stopPrice row.entryTimeUs

/-- A leg was opened, by an entry or a resumed position, or closed. -/
inductive LegMark
  | opened
  | closed (byTick : Bool) (row : PaperTradeRow)
  deriving DecidableEq

/-- A leg is opened while there is none, and closed while there is one. -/
def LegMark.turn (held : Bool) : LegMark → Option Bool
  | .opened => if held then none else some true
  | .closed _ _ => if held then some false else none

def LegMark.row : LegMark → Option PaperTradeRow
  | .opened => none
  | .closed _ row => some row

/-- The legs so far, whether the entry that waits was signalled since the day was reset,
and how many such entries were filled. -/
structure LegBook where
  marks : List LegMark := []
  ours : Bool := false
  entries : Nat := 0
  deriving DecidableEq

namespace LegBook

def rows (book : LegBook) : List PaperTradeRow := book.marks.filterMap LegMark.row

def close (byTick : Bool) (trades : List PaperTradeRow) (book : LegBook) : LegBook :=
  { book with marks := book.marks ++ trades.map (.closed byTick) }

/-- The waiting entry is filled. -/
def enter (book : LegBook) : LegBook where
  marks := book.marks ++ [.opened]
  ours := false
  entries := book.entries + if book.ours then 1 else 0

def note (book : LegBook) (before : PaperBroker) (event : DeskEvent) (after : PaperBroker) :
    LegBook :=
  match event with
  | .usual (.tick ..) =>
    (if after.entriesToday ≠ before.entriesToday then book.enter else book).close true
      (closedSince before after)
  | .usual (.signal ..) =>
    { book with ours := book.ours || decide (before.pendingDir = 0 ∧ after.pendingDir ≠ 0) }
  | .usual .resetDay => { book with ours := false, entries := 0 }
  | .usual (.flatten ..) => book.close false (closedSince before after)
  | .usual (.quote _) => book
  | .usual (.setWarmup _) => book
  | .resume _ => { book with marks := book.marks ++ [.opened] }

end LegBook

/-- The ledger balances. -/
structure Balanced (profit : ℚ) (b : PaperBroker) (book : LegBook) : Prop where
  alternates : (book.marks.foldlM LegMark.turn false).isSome = true
  times : ∀ row, .closed true row ∈ book.marks → row.entryTimeUs ≤ row.exitTimeUs
  sum : b.risk.totalProfit - profit = (book.rows.map (·.pnlUsd)).sum
  excursions : ∀ row ∈ book.rows, row.maePts ≤ min 0 row.pnlPts ∧ max 0 row.pnlPts ≤ row.mfePts
  recorded : desk.store = true → b.outbox.filterMap recordedRow = book.rows
  daily : book.entries ≤ desk.cfg.maxDailyTrades.toNat

/-- A resumed position finds the broker flat. -/
def ResumesFlat (b : PaperBroker) : DeskEvent → Prop
  | .resume _ => b.posDir = 0
  | .usual _ => True

instance (b : PaperBroker) (event : DeskEvent) : Decidable (b.ResumesFlat event) :=
  match event with
  | .resume _ => inferInstanceAs (Decidable (b.posDir = 0))
  | .usual _ => isTrue trivial

/-- A tick has a time since the epoch. -/
def SinceEpoch : DeskEvent → Prop
  | .usual (.tick _ t _) => 0 ≤ t.tsMicros
  | _ => True

/-! ## What the ledger takes -/

/-- The ledger balances, the last mark says whether a leg is held, and the counts cover
what is yet to come. -/
structure Booked (profit : ℚ) (b : PaperBroker) (book : LegBook) : Prop where
  holds : book.marks.foldlM LegMark.turn false = some (decide (b.posDir ≠ 0))
  balanced : Balanced desk profit b book
  mae : b.mae ≤ 0
  mfe : 0 ≤ b.mfe
  counted : (book.entries : Int) ≤ b.entriesToday
  admitted : book.ours = true → b.pendingDir ≠ 0 → b.entriesToday < desk.cfg.maxDailyTrades

variable {desk} {profit : ℚ} {b b' : PaperBroker} {book : LegBook}

/-- A broker whose position, trades and counts are as before. -/
theorem Booked.quiet (booked : Booked desk profit b book) (posDir : b'.posDir = b.posDir)
    (total : b'.risk.totalProfit = b.risk.totalProfit) (mae : b'.mae ≤ b.mae)
    (mfe : b.mfe ≤ b'.mfe) (entriesToday : b'.entriesToday = b.entriesToday)
    (outbox : ∃ effects, b'.outbox = b.outbox ++ effects ∧ Silent effects)
    (admitted : book.ours = true → b'.pendingDir ≠ 0 →
      b'.entriesToday < desk.cfg.maxDailyTrades) : Booked desk profit b' book where
  holds := by rw [booked.holds, posDir]
  balanced := {
    alternates := booked.balanced.alternates
    times := booked.balanced.times
    sum := by rw [total, booked.balanced.sum]
    excursions := booked.balanced.excursions
    recorded := by
      intro stored
      obtain ⟨effects, longer, silent⟩ := outbox
      rw [longer, List.filterMap_append, silent.recorded, List.append_nil]
      exact booked.balanced.recorded stored
    daily := booked.balanced.daily }
  mae := mae.trans booked.mae
  mfe := booked.mfe.trans mfe
  counted := by rw [entriesToday]; exact booked.counted
  admitted := admitted

theorem Booked.heldOn (booked : Booked desk profit b book) (held : HeldOn b b') :
    Booked desk profit b' book :=
  booked.quiet held.posDir held.total held.mae held.mfe held.entriesToday held.outbox (by
    rw [held.pendingDir, held.entriesToday]
    exact booked.admitted)

theorem onTradePnl_total (risk : RiskManager) (pnl : ℚ) :
    (risk.onTradePnl (some pnl)).totalProfit = risk.totalProfit + pnl :=
  (RiskManager.checkLimits_keeps (risk.book pnl)).2.1

/-- The excursions of a trade bound its result. -/
theorem tradeRow_excursions (fill : ℚ) (tsUs : Int) (reason : String) {b : PaperBroker}
    (mae : b.mae ≤ 0) (mfe : 0 ≤ b.mfe) :
    (tradeRow desk fill tsUs reason b).maePts ≤ min 0 (tradeRow desk fill tsUs reason b).pnlPts ∧
      max 0 (tradeRow desk fill tsUs reason b).pnlPts ≤
        (tradeRow desk fill tsUs reason b).mfePts := by
  simp only [tradeRow]
  generalize ((if desk.cfg.fillModel = "bbo" ∧ b.qs.fresh tsUs = true then exitBbo fill tsUs b
    else fill) - b.entryPrice) * b.posDir = points
  constructor
  · refine le_min ?_ ?_
    · split
      next lower => linarith
      next => exact mae
    · split
      next lower => exact le_rfl
      next higher => exact not_lt.mp higher
  · refine max_le ?_ ?_
    · split
      next higher => linarith
      next => exact mfe
    · split
      next higher => exact le_rfl
      next lower => exact not_lt.mp lower

/-- An exit closes the leg that is held. -/
theorem Booked.exits (booked : Booked desk profit b book) (held : b.posDir ≠ 0) (byTick : Bool)
    (fill : ℚ) {tsUs : Int} (reason : String)
    (times : byTick = true → b.entryTimeUs ≤ tsUs) :
    Booked desk profit (exitPosition desk fill tsUs reason b)
        (book.close byTick [tradeRow desk fill tsUs reason b]) ∧
      closedSince b (exitPosition desk fill tsUs reason b) = [tradeRow desk fill tsUs reason b] ∧
      (exitPosition desk fill tsUs reason b).entriesToday = b.entriesToday := by
  obtain ⟨effects, after, closing⟩ := exitPosition_effects desk fill tsUs reason b
  obtain ⟨row, isRow⟩ : ∃ row, row = tradeRow desk fill tsUs reason b := ⟨_, rfl⟩
  have excursions := @tradeRow_excursions desk fill tsUs reason b booked.mae booked.mfe
  have entry : row.entryTimeUs = b.entryTimeUs := by rw [isRow]; rfl
  have exit : row.exitTimeUs = tsUs := by rw [isRow]; rfl
  rw [← isRow] at closing excursions ⊢
  have rows : (book.close byTick [row]).rows = book.rows ++ [row] := by
    simp only [LegBook.rows, LegBook.close, List.map_singleton, List.filterMap_append,
      List.filterMap_cons, LegMark.row, List.filterMap_nil]
  have turned : (book.close byTick [row]).marks.foldlM LegMark.turn false = some false := by
    have open_ : decide (b.posDir ≠ 0) = true := decide_eq_true held
    have last : book.marks ++ [LegMark.closed byTick row] = (book.close byTick [row]).marks := rfl
    rw [← last, List.foldlM_append, booked.holds, open_]
    rfl
  have balanced : Balanced desk profit (exitPosition desk fill tsUs reason b)
      (book.close byTick [row]) := by
    rw [after]
    refine ⟨by rw [turned]; rfl, ?_, ?_, ?_, ?_, booked.balanced.daily⟩
    · intro other inside
      rcases List.mem_append.mp inside with before | now
      · exact booked.balanced.times other before
      · obtain ⟨ticked, rfl⟩ := LegMark.closed.inj (List.mem_singleton.mp now)
        rw [entry, exit]
        exact times ticked.symm
    · have total : (b.risk.updateUnrealized (some 0)).totalProfit = b.risk.totalProfit := rfl
      rw [rows, List.map_append, List.sum_append, ← booked.balanced.sum, List.map_singleton,
        List.sum_singleton, onTradePnl_total, total, isRow]
      ring
    · intro other inside
      rw [rows] at inside
      rcases List.mem_append.mp inside with before | now
      · exact booked.balanced.excursions other before
      · rw [List.mem_singleton.mp now]
        exact excursions
    · intro stored
      rw [rows, ← booked.balanced.recorded stored, ← closing.recorded stored]
      exact List.filterMap_append
  rw [after] at balanced ⊢
  refine ⟨⟨turned, balanced, ?_, ?_, booked.counted, booked.admitted⟩, ?_, rfl⟩
  · rw [← isRow]
    exact excursions.1.trans (min_le_left _ _)
  · rw [← isRow]
    exact (le_max_left _ _).trans excursions.2
  · rw [closedSince, List.drop_left, closing.closed]

/-- Once a waiting entry is filled a leg is held. -/
theorem Booked.enters (booked : Booked desk profit b book) (flat : b.posDir = 0)
    (some : b.pendingDir ≠ 0) {fill : ℚ} {tsUs : Int}
    (entered : JustEntered b.pendingDir fill tsUs b b') :
    Booked desk profit b' book.enter := by
  have counted := booked.counted
  have rows : book.enter.rows = book.rows := by
    simp [LegBook.rows, LegBook.enter, List.filterMap_cons, LegMark.row]
  have turned : book.enter.marks.foldlM LegMark.turn false = Option.some true := by
    have none : decide (b.posDir ≠ 0) = false := decide_eq_false (not_not.mpr flat)
    have last : book.marks ++ [LegMark.opened] = book.enter.marks := rfl
    rw [← last, List.foldlM_append, booked.holds, none]
    rfl
  have held : b'.posDir ≠ 0 := by
    rw [entered.posDir]
    exact some
  refine {
    holds := by rw [turned, decide_eq_true held]
    balanced := ⟨by rw [turned]; rfl, ?_, ?_, ?_, ?_, ?_⟩
    mae := entered.mae.le
    mfe := entered.mfe.ge
    counted := ?_
    admitted := fun ours => absurd ours Bool.false_ne_true }
  · intro row inside
    rcases List.mem_append.mp inside with before | now
    · exact booked.balanced.times row before
    · exact nomatch List.mem_singleton.mp now
  · rw [rows, entered.risk]
    exact booked.balanced.sum
  · rw [rows]
    exact booked.balanced.excursions
  · intro stored
    obtain ⟨effects, longer, silent⟩ := entered.outbox
    rw [rows, longer, List.filterMap_append, silent.recorded, List.append_nil]
    exact booked.balanced.recorded stored
  · have before := booked.balanced.daily
    simp only [LegBook.enter]
    split
    next ours =>
      have room := booked.admitted ours some
      omega
    next => exact before
  · rw [entered.entriesToday]
    simp only [LegBook.enter]
    split
    · omega
    · omega

variable {t : OrbTick}

/-- A step of managing only adds to what was sent. -/
theorem Works.longer {regime : Option SessionRegime} (works : Works desk regime t b b') :
    ∃ effects, b'.outbox = b.outbox ++ effects := by
  cases works with
  | idle flat => exact ⟨[], (List.append_nil _).symm⟩
  | @left held fill reason level text asks leaves =>
    obtain ⟨effects, after, _⟩ := exitPosition_effects desk fill t.tsMicros reason
      { b with placedStop := level, pendingExitReason := text }
    exact ⟨effects, by rw [after]⟩
  | kept held open_ =>
    obtain ⟨effects, longer, _⟩ := (managed_heldOn desk regime t b).outbox
    exact ⟨effects, longer⟩

/-- What a tick does to the position there is. -/
theorem Booked.works (booked : Booked desk profit b book) {regime : Option SessionRegime}
    (now : b.posDir ≠ 0 → b.entryTimeUs ≤ t.tsMicros) (works : Works desk regime t b b') :
    Booked desk profit b' (book.close true (closedSince b b')) ∧
      b'.entriesToday = b.entriesToday := by
  have none {c : PaperBroker} (kept : Booked desk profit c book)
      (outbox : ∃ effects, c.outbox = b.outbox ++ effects ∧ Silent effects) :
      Booked desk profit c (book.close true (closedSince b c)) := by
    obtain ⟨effects, longer, silent⟩ := outbox
    have rows : closedSince b c = [] := by rw [closedSince, longer, List.drop_left, silent.closed]
    rw [rows]
    simp only [LegBook.close, List.map_nil, List.append_nil]
    exact kept
  cases works with
  | idle flat =>
    refine ⟨none ?_ ⟨[], (List.append_nil _).symm, rfl, rfl⟩, rfl⟩
    exact booked.quiet rfl rfl le_rfl le_rfl rfl ⟨[], (List.append_nil _).symm, rfl, rfl⟩
      booked.admitted
  | @left held fill reason level text asks leaves =>
    have before : Booked desk profit { b with placedStop := level, pendingExitReason := text }
        book :=
      booked.quiet rfl rfl le_rfl le_rfl rfl ⟨[], (List.append_nil _).symm, rfl, rfl⟩
        booked.admitted
    obtain ⟨closed, rows, entries⟩ := before.exits held true fill reason fun _ => now held
    have same : closedSince b (exitPosition desk fill t.tsMicros reason
        { b with placedStop := level, pendingExitReason := text }) = _ := rows
    rw [same]
    exact ⟨closed, entries⟩
  | kept held open_ =>
    have stays := managed_heldOn desk regime t b
    exact ⟨none (booked.heldOn stays) stays.outbox, stays.entriesToday⟩

/-- A tick books what it closes, and nothing else moves the ledger. -/
theorem Booked.ticks (booked : Booked desk profit b book) (regime : Option SessionRegime)
    (given : Bracket) (epoch : 0 ≤ t.tsMicros) :
    Booked desk profit (onTick desk regime t b)
      (book.note b (.usual (.tick regime t given)) (onTick desk regime t b)) := by
  have seen : Booked desk profit (seeTick t b) book :=
    booked.quiet rfl rfl le_rfl le_rfl rfl ⟨[], (List.append_nil _).symm, rfl, rfl⟩
      booked.admitted
  simp only [LegBook.note]
  rcases onTick_cases desk regime t b with
    ⟨_, after⟩ | ⟨current, works | ⟨some, flat, c, entered, works⟩⟩
  · have rows : closedSince b (seeTick t b) = [] := by
      rw [closedSince]
      exact congrArg _ List.drop_length
    have same : (seeTick t b).entriesToday = b.entriesToday := rfl
    rw [after, rows, if_neg (not_not.mpr same)]
    simp only [LegBook.close, List.map_nil, List.append_nil]
    exact seen
  · have now : (seeTick t b).posDir ≠ 0 → (seeTick t b).entryTimeUs ≤ t.tsMicros := by
      intro held
      have held : b.posDir ≠ 0 := held
      simp only [predates, decide_eq_true held, Bool.true_and, Bool.and_eq_false_iff,
        decide_eq_false_iff_not, not_lt] at current
      rcases current with early | later
      · exact early.trans epoch
      · exact later
    obtain ⟨after, entries⟩ := seen.works now works
    have same : (onTick desk regime t b).entriesToday = b.entriesToday := entries
    rw [if_neg (not_not.mpr same)]
    exact after
  · have opened : Booked desk profit c book.enter := booked.enters flat some entered
    obtain ⟨after, entries⟩ := opened.works (fun _ => entered.entryTimeUs.le) works
    have more : (onTick desk regime t b).entriesToday ≠ b.entriesToday := by
      rw [entries, entered.entriesToday]
      omega
    have rows : closedSince b (onTick desk regime t b) =
        closedSince c (onTick desk regime t b) := by
      obtain ⟨early, earlier, silent⟩ := entered.outbox
      obtain ⟨late, later⟩ : ∃ late, (onTick desk regime t b).outbox = c.outbox ++ late :=
        works.longer
      rw [closedSince, closedSince, later, List.drop_left, earlier, List.append_assoc,
        List.drop_left, List.filterMap_append, silent.closed, List.nil_append]
    rw [if_pos more, rows]
    exact after

/-- What a signal leaves of a broker, and what it takes for an entry to wait from then on. -/
structure Queues (desk : PaperDesk) (b b' : PaperBroker) : Prop where
  posDir : b'.posDir = b.posDir
  risk : b'.risk = b.risk
  mae : b'.mae = b.mae
  mfe : b'.mfe = b.mfe
  entriesToday : b'.entriesToday = b.entriesToday
  outbox : ∃ effects, b'.outbox = b.outbox ++ effects ∧ Silent effects
  admits : b.pendingDir = 0 → b'.pendingDir ≠ 0 → b.entriesToday < desk.cfg.maxDailyTrades

theorem Queues.of_same (b : PaperBroker) (text : String) (dropped : Nat) :
    Queues desk b { b with pendingExitReason := text, warmupDropped := dropped } where
  posDir := rfl
  risk := rfl
  mae := rfl
  mfe := rfl
  entriesToday := rfl
  outbox := ⟨[], (List.append_nil _).symm, rfl, rfl⟩
  admits := fun none waits => absurd none waits

/-- An entry signal queues an order at most. It books nothing. -/
theorem onEntrySignal_queues (regime : Option SessionRegime) (dir : SignType) (reason : String)
    (b : PaperBroker) : Queues desk b (onEntrySignal desk regime dir reason b) := by
  have same : Queues desk b b := Queues.of_same b b.pendingExitReason b.warmupDropped
  simp only [onEntrySignal]
  split
  · exact Queues.of_same b b.pendingExitReason (b.warmupDropped + 1)
  · split
    · exact same
    · split
      · exact same
      · split
        · exact same
        · split
          · exact same
          next room =>
            split
            · exact same
            · split
              · exact same
              · generalize entryGate desk regime (decide (dir > 0)) b = blocked
                have logged : Queues desk b (logSignal desk (decide (dir > 0)) reason blocked b) ∧
                    (logSignal desk (decide (dir > 0)) reason blocked b).pendingDir =
                      b.pendingDir := by
                  rw [logSignal]
                  split
                  · exact ⟨same, rfl⟩
                  · refine ⟨⟨rfl, rfl, rfl, rfl, rfl, ⟨_, rfl, rfl, rfl⟩, ?_⟩, rfl⟩
                    exact fun none waits => absurd none waits
                split
                · exact logged.1
                · exact { logged.1 with admits := fun _ _ => not_le.mp room }

/-- A signal queues an order at most. -/
theorem onSignal_queues (regime : Option SessionRegime) (sig : OrbSignal) (reason : String)
    (b : PaperBroker) : Queues desk b (onSignal desk regime sig reason b) := by
  have same : Queues desk b b := Queues.of_same b b.pendingExitReason b.warmupDropped
  cases sig with
  | buy => exact onEntrySignal_queues regime 1 reason b
  | sell => exact onEntrySignal_queues regime (-1) reason b
  | none => exact same
  | flattenEod =>
    simp only [onSignal]
    split
    · exact Queues.of_same b "signal_flatten" b.warmupDropped
    · exact same

/-- Queueing an order keeps the ledger booked. -/
theorem Booked.queues (booked : Booked desk profit b book) (queues : Queues desk b b') :
    Booked desk profit b'
      { book with ours := book.ours || decide (b.pendingDir = 0 ∧ b'.pendingDir ≠ 0) } := by
  have kept : Booked desk profit b' { book with ours := false } := by
    have before : Booked desk profit b { book with ours := false } :=
      ⟨booked.holds, { booked.balanced with }, booked.mae, booked.mfe, booked.counted,
        fun ours => absurd ours Bool.false_ne_true⟩
    refine before.quiet queues.posDir (by rw [queues.risk]) queues.mae.le queues.mfe.ge
      queues.entriesToday queues.outbox ?_
    exact fun ours => absurd ours Bool.false_ne_true
  refine ⟨kept.holds, { kept.balanced with }, kept.mae, kept.mfe, kept.counted, ?_⟩
  intro ours waits
  rw [queues.entriesToday]
  by_cases none : b.pendingDir = 0
  · exact queues.admits none waits
  · simp only [none, false_and, decide_false, Bool.or_false] at ours
    exact booked.admitted ours none

/-- A flatten of the host drops what waits and closes the leg that is held. -/
theorem Booked.flattens (booked : Booked desk profit b book) (reason : String) (tsUs : Int)
    (priceHint : ℚ) :
    Booked desk profit (flatten desk reason tsUs priceHint b)
      (book.close false (closedSince b (flatten desk reason tsUs priceHint b))) := by
  have dropped : Booked desk profit { b with pendingDir := 0, pendingExitReason := "" } book :=
    booked.quiet rfl rfl le_rfl le_rfl rfl ⟨[], (List.append_nil _).symm, rfl, rfl⟩
      fun _ waits => absurd rfl waits
  simp only [flatten]
  split
  next flat =>
    have rows : closedSince b { b with pendingDir := 0, pendingExitReason := "" } = [] := by
      rw [closedSince]
      exact congrArg _ List.drop_length
    rw [rows]
    simp only [LegBook.close, List.map_nil, List.append_nil]
    exact dropped
  next held =>
    have open_ : false = true → b.entryTimeUs ≤ tsUs := fun byTick =>
      absurd byTick Bool.false_ne_true
    obtain ⟨closed, rows, _⟩ := dropped.exits held false
      ((if priceHint > 0 then priceHint else b.entryPrice) - b.posDir * desk.slip) reason open_
    have same : closedSince b (exitPosition desk
        ((if priceHint > 0 then priceHint else b.entryPrice) - b.posDir * desk.slip) tsUs reason
        { b with pendingDir := 0, pendingExitReason := "" }) = _ := rows
    rw [same]
    exact closed

/-- Resuming a saved position opens a leg that no trade is booked for yet. -/
theorem Booked.resumes (booked : Booked desk profit b book) (flat : b.posDir = 0) (row : OpenRow) :
    Booked desk profit
      (b.resumePosition row.direction row.qty row.entryPrice row.stopPrice row.entryTimeUs)
      { book with marks := book.marks ++ [.opened] } := by
  have rows : ({ book with marks := book.marks ++ [.opened] } : LegBook).rows = book.rows := by
    simp [LegBook.rows, List.filterMap_cons, LegMark.row]
  have turned : (book.marks ++ [LegMark.opened]).foldlM LegMark.turn false = some true := by
    have none : decide (b.posDir ≠ 0) = false := decide_eq_false (not_not.mpr flat)
    rw [List.foldlM_append, booked.holds, none]
    rfl
  refine {
    holds := turned.trans (congrArg some (decide_eq_true row.some).symm)
    balanced := ⟨by rw [turned]; rfl, ?_, ?_, ?_, ?_, booked.balanced.daily⟩
    mae := booked.mae
    mfe := booked.mfe
    counted := booked.counted
    admitted := booked.admitted }
  · intro other inside
    rcases List.mem_append.mp inside with before | now
    · exact booked.balanced.times other before
    · exact nomatch List.mem_singleton.mp now
  · rw [rows]
    exact booked.balanced.sum
  · rw [rows]
    exact booked.balanced.excursions
  · rw [rows]
    exact booked.balanced.recorded

/-! ## Every run -/

/-- Every event of the desk keeps the ledger booked. -/
theorem Booked.step (booked : Booked desk profit b book) {event : DeskEvent}
    (flat : b.ResumesFlat event) (epoch : SinceEpoch event) :
    Booked desk profit (undergo desk b event) (book.note b event (undergo desk b event)) := by
  have calm {c : PaperBroker} (posDir : c.posDir = b.posDir)
      (total : c.risk.totalProfit = b.risk.totalProfit) (mae : c.mae = b.mae) (mfe : c.mfe = b.mfe)
      (entries : c.entriesToday = b.entriesToday) (outbox : c.outbox = b.outbox)
      (pending : c.pendingDir = b.pendingDir) : Booked desk profit c book := by
    refine booked.quiet posDir total mae.le mfe.ge entries ⟨[], ?_, rfl, rfl⟩ ?_
    · rw [outbox, List.append_nil]
    · rw [pending, entries]
      exact booked.admitted
  cases event with
  | resume row => exact booked.resumes flat row
  | usual event =>
    cases event with
    | signal regime sig reason => exact booked.queues (onSignal_queues regime sig reason b)
    | quote q => exact calm rfl rfl rfl rfl rfl rfl rfl
    | tick regime t given => exact booked.ticks regime given epoch
    | flatten reason tsUs priceHint => exact booked.flattens reason tsUs priceHint
    | setWarmup on => exact calm rfl rfl rfl rfl rfl rfl rfl
    | resetDay =>
      have total : (undergo desk b (.usual .resetDay)).risk.totalProfit = b.risk.totalProfit :=
        (RiskManager.resetDaily_keeps b.risk).2.1
      have before := booked.balanced
      refine ⟨booked.holds, ⟨before.alternates, before.times, ?_, before.excursions,
        before.recorded, Nat.zero_le _⟩, booked.mae, booked.mfe, le_refl 0, ?_⟩
      · rw [total]
        exact before.sum
      · exact fun ours => absurd ours Bool.false_ne_true

/-- A broker as a restart builds it: its risk manager and its day's count are seeded. -/
def seeded (desk : PaperDesk) (risk : RiskManager) (entries : Nat) : PaperBroker :=
  { fresh desk with risk := risk, entriesToday := entries }

/-- A broker beside the book of its legs. -/
def kept (desk : PaperDesk) : PaperBroker × LegBook → DeskEvent → PaperBroker × LegBook :=
  observe (undergo desk) LegBook.note

/-- The ledger balances after every run in which a restart resumes a position into a flat
broker only. -/
theorem ledger_balances (desk : PaperDesk) (risk : RiskManager) (entries : Nat)
    (events : List DeskEvent) (epoch : ∀ event ∈ events, SinceEpoch event)
    (flat : Along (undergo desk) ResumesFlat (seeded desk risk entries) events) :
    Balanced desk risk.totalProfit (run (kept desk) (seeded desk risk entries, {}) events).1
      (run (kept desk) (seeded desk risk entries, {}) events).2 := by
  have start : Booked desk risk.totalProfit (seeded desk risk entries) {} := {
    holds := rfl
    balanced := {
      alternates := rfl
      times := fun _ inside => absurd inside List.not_mem_nil
      sum := sub_self _
      excursions := fun _ inside => absurd inside List.not_mem_nil
      recorded := fun _ => rfl
      daily := Nat.zero_le _ }
    mae := le_rfl
    mfe := le_rfl
    counted := Int.natCast_nonneg entries
    admitted := fun ours => absurd ours Bool.false_ne_true }
  have along := along_and_of_mem (undergo desk) _ events flat epoch
  have watched := (along_observe_iff (undergo desk) LegBook.note _
    (seeded desk risk entries, ({} : LegBook)) events).mpr along
  have after := run_invariant (kept desk) (fun pair => Booked desk risk.totalProfit pair.1 pair.2)
    _ (fun pair event booked allowed => booked.step allowed.1 allowed.2) _ events start watched
  exact after.balanced

/-- A resumed position, an older tick, its exit, and an entry of the same morning. -/
def resumedMorning : List DeskEvent :=
  [.resume { direction := 1, qty := 1, entryPrice := 100, stopPrice := 90,
             entryTimeUs := Seat.morning 60, some := by decide },
    .usual (.tick none { tsMicros := Seat.morning 0, price := 80 } {}),
    .usual (.tick none { tsMicros := Seat.morning 61, price := 89 } {}),
    .usual (.signal none .sell ""),
    .usual (.tick none { tsMicros := Seat.morning 70, price := 88 } {}),
    .usual (.flatten "account_halt" (Seat.morning 71) 87)]

/-- A morning after a restart balances. -/
theorem resumed_morning_balances :
    Balanced {} 250 (run (kept {}) (seeded {} { totalProfit := 250 } 1, {}) resumedMorning).1
      (run (kept {}) (seeded {} { totalProfit := 250 } 1, {}) resumedMorning).2 :=
  ledger_balances {} { totalProfit := 250 } 1 resumedMorning
    (by
      simp only [resumedMorning, List.forall_mem_cons, SinceEpoch]
      refine ⟨trivial, ?_, ?_, trivial, ?_, trivial, fun _ inside => absurd inside List.not_mem_nil⟩
      · decide
      · decide
      · decide)
    (by decide +kernel)

/-- A long position as a restart finds it. -/
def resumedLong : OpenRow where
  direction := 1
  qty := 1
  entryPrice := 100
  stopPrice := 90
  entryTimeUs := 0
  some := by decide

/-- An entry and its exit on the morning before the epoch, the exit the older one. -/
def beforeEpoch : List DeskEvent :=
  [.usual (.signal none .buy ""),
    .usual (.tick none { tsMicros := -32400000000, price := 100 } {}),
    .usual (.tick none { tsMicros := -32401000000, price := 80 } {})]

/-- A position resumed over an open leg leaves that leg without a trade, and before the
epoch a tick closes a leg that is opened later. -/
theorem ledger_unbalanced :
    (¬∀ (desk : PaperDesk) (risk : RiskManager) (entries : Nat) (events : List DeskEvent),
      (∀ event ∈ events, SinceEpoch event) →
      Balanced desk risk.totalProfit (run (kept desk) (seeded desk risk entries, {}) events).1
        (run (kept desk) (seeded desk risk entries, {}) events).2) ∧
    ¬∀ (desk : PaperDesk) (risk : RiskManager) (entries : Nat) (events : List DeskEvent),
      Along (undergo desk) ResumesFlat (seeded desk risk entries) events →
      Balanced desk risk.totalProfit (run (kept desk) (seeded desk risk entries, {}) events).1
        (run (kept desk) (seeded desk risk entries, {}) events).2 := by
  constructor
  · intro balanced
    have after := balanced {} {} 0 [.resume resumedLong, .resume resumedLong] (by
      simp only [List.forall_mem_cons, SinceEpoch]
      exact ⟨trivial, trivial, fun _ inside => absurd inside List.not_mem_nil⟩)
    have alternates := after.alternates
    revert alternates
    decide +kernel
  · intro balanced
    have after := balanced {} {} 0 beforeEpoch (by decide +kernel)
    have times : ∀ row ∈ (run (kept {}) (seeded {} {} 0, {}) beforeEpoch).2.rows,
        .closed true row ∈ (run (kept {}) (seeded {} {} 0, {}) beforeEpoch).2.marks →
          row.entryTimeUs ≤ row.exitTimeUs := by
      intro row _ inside
      exact after.times row inside
    revert times
    decide +kernel

end PaperBroker

end RithmicEngine
