import RithmicEngine.Base.Runs
import RithmicEngine.Execution.TrendOutcomes
/-!
# Trend entries pass the gate

Every entry that any mode signals, on a bar, a minute or a quote, is admitted by the gate at
the moment of its decision: counted against the marks of the run, not against the engine's
own counters. The alignment with the higher frame holds as long as its average is a number.
-/
namespace RithmicEngine

open Runs

/-! ## The history of a run -/

def TrendCall.isEntry (c : TrendCall) : Bool := decide (c.sig = .buy) || decide (c.sig = .sell)

/-- The entries since the last restart or seed, with the trades of the seed. -/
def countTrades (trades : Int) : TrendMark → Int
  | .call c => if c.isEntry then trades + 1 else trades
  | .seeded n => n
  | .restarted _ => 0
  | _ => trades

def tradesSince (marks : List TrendMark) : Int := marks.foldl countTrades 0

/-- There is an entry that neither a close nor a restart has ended. -/
def keepStanding (stands : Bool) : TrendMark → Bool
  | .call c => c.isEntry || stands
  | .closed => false
  | .restarted keepsPosition => keepsPosition && stands
  | _ => stands

def standing (marks : List TrendMark) : Bool := marks.foldl keepStanding false

theorem tradesSince_snoc (marks : List TrendMark) (mark : TrendMark) :
    tradesSince (marks ++ [mark]) = countTrades (tradesSince marks) mark := by
  unfold tradesSince
  rw [List.foldl_append, List.foldl_cons, List.foldl_nil]

theorem standing_snoc (marks : List TrendMark) (mark : TrendMark) :
    standing (marks ++ [mark]) = keepStanding (standing marks) mark := by
  unfold standing
  rw [List.foldl_append, List.foldl_cons, List.foldl_nil]

/-- An entry as the gate should have it, after these marks. -/
structure Admitted (desk : TrendDesk) (before : List TrendMark) (c : TrendCall) : Prop where
  lone : standing before = false
  flat : c.sess.inPosition = false
  trading : c.sess.riskHalted = false
  window : desk.tc.inWindow c.hhmm = true
  fewer : tradesSince before < desk.maxDailyTrades
  longs : c.sig = .buy → desk.tc.allowLongs = true
  shorts : c.sig = .sell → desk.tc.allowShorts = true
  above : 0 < desk.tc.htfTfMin → c.sig = .buy → c.htf.ema < (c.htf.close : Double)
  below : 0 < desk.tc.htfTfMin → c.sig = .sell → (c.htf.close : Double) < c.htf.ema

/-- What the engine's counters say of the marks, and that its higher average is a number. -/
structure Audited (desk : TrendDesk) (s : TrendStrategy) : Prop where
  trades : s.sess.tradesToday = tradesSince s.marks
  held : standing s.marks = true → s.sess.inPosition = true
  number : 0 < desk.tc.htfTfMin → ∃ x, s.htf.ema = .fin x

/-- A step from an audited state: it stays audited, and every entry among the new marks is
admitted at the step's time. -/
structure Advances (desk : TrendDesk) (hhmm : Int) (s t : TrendStrategy) : Prop where
  audited : Audited desk t
  admits : ∃ new, t.marks = s.marks ++ new ∧ ∀ before c after, new = before ++ .call c :: after →
    c.isEntry = true → Admitted desk (s.marks ++ before) c ∧ c.hhmm = hhmm

variable {desk : TrendDesk} {hhmm : Int} {s t : TrendStrategy}

/-- Two advances compose. -/
theorem Advances.trans {u : TrendStrategy} (first : Advances desk hhmm s u)
    (second : Advances desk hhmm u t) : Advances desk hhmm s t where
  audited := second.audited
  admits := by
    obtain ⟨new, isU, early⟩ := first.admits
    obtain ⟨newer, isT, late⟩ := second.admits
    refine ⟨new ++ newer, by rw [isT, isU, List.append_assoc], ?_⟩
    intro before c after split entry
    rcases List.append_eq_append_iff.mp split with
      ⟨rest, isBefore, isNewer⟩ | ⟨rest, isNew, isAfter⟩
    · rw [isBefore, ← List.append_assoc, ← isU]
      exact late rest c after isNewer entry
    · cases rest with
      | nil =>
        rw [List.append_nil] at isNew
        have atStart := late [] c after isAfter.symm entry
        rw [isU, List.append_nil, isNew] at atStart
        exact atStart
      | cons mark rest =>
        obtain ⟨isMark, isRest⟩ := List.cons.inj isAfter
        rw [← isMark] at isNew
        exact early before c rest isNew entry

/-- Where the session and the marks stay, the audit goes on. -/
theorem Advances.of_same (audited : Audited desk s) (sess : t.sess = s.sess)
    (marks : t.marks = s.marks) (number : 0 < desk.tc.htfTfMin → ∃ x, t.htf.ema = .fin x) :
    Advances desk hhmm s t where
  audited := ⟨by rw [sess, marks]; exact audited.trades,
    by rw [sess, marks]; exact audited.held, number⟩
  admits := by
    refine ⟨[], by rw [marks, List.append_nil], ?_⟩
    intro before c after split
    cases before with
    | nil => exact nomatch split
    | cons _ _ => exact nomatch split

/-- A mark that counts for nothing. -/
theorem Advances.note (mark : TrendMark) (audited : Audited desk s) (sess : t.sess = s.sess)
    (marks : t.marks = s.marks ++ [mark]) (htf : t.htf = s.htf)
    (uncounted : ∀ n, countTrades n mark = n) (unheard : ∀ b, keepStanding b mark = b) :
    Advances desk hhmm s t where
  audited := by
    refine ⟨?_, ?_, htf ▸ audited.number⟩
    · rw [sess, marks, audited.trades, tradesSince_snoc, uncounted]
    · rw [sess, marks, standing_snoc, unheard]
      exact audited.held
  admits := by
    refine ⟨[mark], marks, ?_⟩
    intro before c after split
    cases before with
    | nil =>
      have isCall := (List.cons.inj split).1
      have counted := uncounted 0
      intro entry
      rw [isCall] at counted
      simp [countTrades, entry] at counted
    | cons _ rest => cases rest <;> exact nomatch (List.cons.inj split).2

namespace TrendStrategy

variable {m : TrendMoment} {b : Bar} {s t : TrendStrategy}

/-! ## The gate -/

/-- What the gate has checked. -/
theorem canEnter_checks {dir : SignType} (gate : s.canEnter m dir = true) :
    (s.sess.inPosition = false ∧ s.sess.riskHalted = false) ∧ m.tc.inWindow m.hhmm = true ∧
      s.sess.tradesToday < m.maxDailyTrades ∧ (dir > 0 → m.tc.allowLongs = true) ∧
      (dir < 0 → m.tc.allowShorts = true) ∧
      (0 < m.tc.htfTfMin → ¬(dir > 0 ∧ (s.htf.close : Double) ≤ s.htf.ema) ∧
        ¬(dir < 0 ∧ s.htf.ema ≤ (s.htf.close : Double))) := by
  unfold canEnter at gate
  split_ifs at gate with held shut spent long short framed unset under beyond
  all_goals
    rw [not_or, Bool.not_eq_true, Bool.not_eq_true] at held
    refine ⟨held, Bool.not_eq_false _ ▸ shut, not_le.mp spent, ?_, ?_, ?_⟩
  · exact fun up => by simpa [up] using long
  · exact fun down => by simpa [down] using short
  · exact fun _ => ⟨under, beyond⟩
  · exact fun up => by simpa [up] using long
  · exact fun down => by simpa [down] using short
  · exact fun framed' => absurd framed' framed

theorem sideSignal_isEntry (dir : SignType) :
    sideSignal dir = .buy ∧ dir > 0 ∨ sideSignal dir = .sell ∧ ¬dir > 0 := by
  unfold sideSignal
  split_ifs with up
  · exact .inl ⟨rfl, up⟩
  · exact .inr ⟨rfl, up⟩

/-- A call of the host is the only mark of it that counts. -/
theorem tradesSince_call (marks : List TrendMark) (c : TrendCall) :
    tradesSince (marks ++ .call c :: told m c) = countTrades (tradesSince marks) (.call c) := by
  unfold tradesSince told
  split_ifs
  · rw [List.foldl_append]
    rfl
  · rw [List.foldl_append]
    rfl

theorem standing_call (marks : List TrendMark) (c : TrendCall) :
    standing (marks ++ .call c :: told m c) =
      if m.closes c then false else c.isEntry || standing marks := by
  unfold standing told
  split_ifs
  · rw [List.foldl_append]
    rfl
  · rw [List.foldl_append]
    rfl

/-- An exit leaves the day's count, and the position unless it closes. -/
theorem emit_exit_sess {px : ℚ} {why : String} :
    (s.emit m .flattenEod px why).sess.tradesToday = s.sess.tradesToday ∧
      (m.closes (s.calling m .flattenEod px why) = false →
        (s.emit m .flattenEod px why).sess.inPosition = s.sess.inPosition) := by
  dsimp only [emit, callBack]
  split_ifs with closes
  · exact ⟨rfl, fun open_ => absurd closes (by rw [open_]; decide)⟩
  · exact ⟨rfl, fun _ => rfl⟩

/-- An entry is counted, and is a position. -/
theorem emit_entry_sess {dir : SignType} {px : ℚ} {why : String} :
    (s.emit m (sideSignal dir) px why).sess.tradesToday = s.sess.tradesToday + 1 ∧
      (s.emit m (sideSignal dir) px why).sess.inPosition = true := by
  have kept (sig : OrbSignal) : (s.callBack m sig px why).sess.tradesToday =
    s.sess.tradesToday := by
    dsimp only [callBack]
    split_ifs
    · rfl
    · rfl
  unfold sideSignal
  split_ifs
  · exact ⟨congrArg (· + 1) (kept .buy), rfl⟩
  · exact ⟨congrArg (· + 1) (kept .sell), rfl⟩

/-- The marks of one call of the host split at no other call. -/
theorem split_call {c c' : TrendCall} {before after : List TrendMark}
    (split : .call c :: told m c = before ++ .call c' :: after) : before = [] ∧ c' = c := by
  unfold told at split
  cases before with
  | nil => exact ⟨rfl, (TrendMark.call.inj (List.cons.inj split).1).symm⟩
  | cons first rest =>
    have later := (List.cons.inj split).2
    split_ifs at later
    · cases rest with
      | nil => exact nomatch (List.cons.inj later).1
      | cons _ more => cases more <;> exact nomatch (List.cons.inj later).2
    · cases rest <;> exact nomatch later

/-- The gate's admission at the moment of an entry's signal. -/
theorem admitted_of_gate {u : TrendStrategy} {dir : SignType} {px : ℚ} {why : String}
    (audited : Audited m.toTrendDesk s) (idle : Quiet s u) (side : dir ≠ 0)
    (gate : s.canEnter m dir = true) :
    Admitted m.toTrendDesk s.marks (u.calling m (sideSignal dir) px why) := by
  obtain ⟨⟨flat, trading⟩, window, fewer, longs, shorts, aligned⟩ := canEnter_checks gate
  have upward (isBuy : sideSignal dir = .buy) : dir > 0 := by
    rcases sideSignal_isEntry dir with ⟨_, up⟩ | ⟨isSell, _⟩
    · exact up
    · exact nomatch isBuy.symm.trans isSell
  have downward (isSell : sideSignal dir = .sell) : dir < 0 := by
    rcases sideSignal_isEntry dir with ⟨isBuy, _⟩ | ⟨_, notUp⟩
    · exact nomatch isBuy.symm.trans isSell
    · exact lt_of_le_of_ne (not_lt.mp notUp) side
  constructor
  · by_contra stands
    have held := audited.held (Bool.not_eq_false _ ▸ stands)
    exact nomatch flat.symm.trans held
  · exact (congrArg TrendSession.inPosition idle.sess).trans flat
  · exact (congrArg TrendSession.riskHalted idle.sess).trans trading
  · exact window
  · exact audited.trades ▸ fewer
  · exact fun isBuy => longs (upward isBuy)
  · exact fun isSell => shorts (downward isSell)
  · intro framed isBuy
    obtain ⟨x, isFin⟩ := audited.number framed
    have under := (aligned framed).1
    change u.htf.ema < (u.htf.close : Double)
    rw [idle.htf, isFin, Double.fin_lt]
    rw [isFin, Double.fin_le] at under
    exact not_le.mp fun below => under ⟨upward isBuy, below⟩
  · intro framed isSell
    obtain ⟨x, isFin⟩ := audited.number framed
    have beyond := (aligned framed).2
    change (u.htf.close : Double) < u.htf.ema
    rw [idle.htf, isFin, Double.fin_lt]
    rw [isFin, Double.fin_le] at beyond
    exact not_le.mp fun above => beyond ⟨downward isSell, above⟩

theorem isEntry_sideSignal {u : TrendStrategy} (dir : SignType) (px : ℚ) (why : String) :
    (u.calling m (sideSignal dir) px why).isEntry = true := by
  change (decide (sideSignal dir = .buy) || decide (sideSignal dir = .sell)) = true
  rcases sideSignal_isEntry dir with ⟨isBuy, _⟩ | ⟨isSell, _⟩
  · rw [isBuy]
    rfl
  · rw [isSell]
    rfl

/-- What a mode decides advances an audited engine. -/
theorem Decides.advances (decides : Decides m s t) (audited : Audited m.toTrendDesk s) :
    Advances m.toTrendDesk m.hhmm s t := by
  have number : 0 < m.tc.htfTfMin → ∃ x, t.htf.ema = .fin x :=
    decides.frame.htf ▸ audited.number
  cases decides with
  | quiet idle => exact .of_same audited idle.sess idle.marks number
  | exits u px why idle isExit =>
    have calls : t.marks = s.marks ++ .call (u.calling m .flattenEod px why) ::
        told m (u.calling m .flattenEod px why) := by
      rw [isExit, emit_marks, idle.marks]
    obtain ⟨trades, kept⟩ := @emit_exit_sess m u px why
    constructor
    · refine ⟨?_, ?_, number⟩
      · rw [calls, tradesSince_call, isExit, trades, idle.sess]
        exact audited.trades
      · rw [calls, standing_call]
        split_ifs with closes
        · exact fun stands => nomatch stands
        · intro stands
          rw [isExit, kept (Bool.not_eq_true _ ▸ closes), idle.sess]
          exact audited.held stands
    · refine ⟨_, calls, ?_⟩
      intro before c after split entry
      rw [(split_call split).2] at entry
      exact nomatch entry
  | enters u dir px why idle side gate isEntry =>
    have calls : t.marks = s.marks ++ .call (u.calling m (sideSignal dir) px why) ::
        told m (u.calling m (sideSignal dir) px why) := by
      rw [isEntry, emit_marks, idle.marks]
    obtain ⟨trades, holds⟩ := @emit_entry_sess m u dir px why
    constructor
    · refine ⟨?_, ?_, number⟩
      · rw [calls, tradesSince_call, isEntry, trades, idle.sess, audited.trades]
        exact (if_pos (isEntry_sideSignal dir px why)).symm
      · intro _
        rw [isEntry]
        exact holds
    · refine ⟨_, calls, ?_⟩
      intro before c after split _
      obtain ⟨isFirst, isCall⟩ := split_call split
      rw [isFirst, isCall, List.append_nil]
      exact ⟨admitted_of_gate audited idle side gate, rfl⟩

/-! ## The stages of a tick -/

theorem quiet_advances (idle : Quiet s t) (audited : Audited m.toTrendDesk s) :
    Advances m.toTrendDesk m.hhmm s t := (Decides.quiet idle).advances audited

theorem acts_advances {body : Option TrendStrategy} (acts : Acts m s body)
    (audited : Audited m.toTrendDesk s) :
    Advances m.toTrendDesk m.hhmm s (s.orStray body) := by
  cases body with
  | none => exact .note .stray audited rfl rfl rfl (fun _ => rfl) fun _ => rfl
  | some u => exact (acts u rfl).advances audited

theorem pushBar_advances (audited : Audited m.toTrendDesk s) :
    Advances m.toTrendDesk m.hhmm s (s.pushBar b) :=
  .note (.bar b) audited rfl rfl rfl (fun _ => rfl) fun _ => rfl

theorem indicators_advances (audited : Audited m.toTrendDesk s) :
    Advances m.toTrendDesk m.hhmm s (s.orStray (s.indicators m b)) := by
  unfold indicators
  cases s.nextAtr m b with
  | none => exact .note .stray audited rfl rfl rfl (fun _ => rfl) fun _ => rfl
  | some atr => exact .of_same audited rfl rfl audited.number

/-- Deciding on a bar advances the audit. -/
theorem decideBar_advances (audited : Audited m.toTrendDesk s) :
    Advances m.toTrendDesk m.hhmm s (s.decideBar m b) := by
  have followed : Advances m.toTrendDesk m.hhmm s (s.followBest m b) :=
    quiet_advances followBest_quiet audited
  dsimp only [decideBar]
  split_ifs with unknown past
  · exact quiet_advances (.refl s) audited
  · exact followed.trans (decides_flatten.advances followed.audited)
  · exact followed.trans (acts_advances barMode_acts followed.audited)

theorem onTfClose_advances (audited : Audited m.toTrendDesk s) :
    Advances m.toTrendDesk m.hhmm s (s.onTfClose m b) := by
  have pushed := pushBar_advances (b := b) audited
  have measured := indicators_advances (b := b) pushed.audited
  exact (pushed.trans measured).trans (decideBar_advances measured.audited)

/-- Closing a minute advances the audit, bar by bar. -/
theorem closeBars_advances (audited : Audited m.toTrendDesk s) :
    Advances m.toTrendDesk m.hhmm s (s.closeBars m b) := by
  have all (bars : List Bar) (u : TrendStrategy) (now : Audited m.toTrendDesk u) :
      Advances m.toTrendDesk m.hhmm u (bars.foldl (fun s bar => s.onTfClose m bar) u) := by
    induction bars generalizing u with
    | nil => exact quiet_advances (.refl u) now
    | cons bar rest ih =>
      have first := onTfClose_advances (b := bar) now
      exact first.trans (ih _ first.audited)
  have closed := all (aggregate m.tc.tf b s.tfCur).2 s audited
  exact closed.trans (.of_same closed.audited rfl rfl closed.audited.number)

/-- The average of numbers is a number. -/
theorem emaStep_number {len : Int} {close x : ℚ} (divides : int32 (len + 1) ≠ 0) :
    ∃ y, emaStep len close (.fin x) = .fin y := by
  unfold emaStep
  split_ifs
  · exact ⟨close, rfl⟩
  · have nonzero : ((int32 (len + 1) : Int) : ℚ) ≠ 0 := Int.cast_ne_zero.mpr divides
    have quotient : (2 : Double) / ((int32 (len + 1) : ℚ) : Double) =
        .fin (2 / (int32 (len + 1) : ℚ)) := if_neg nonzero
    rw [quotient]
    exact ⟨_, rfl⟩

/-- The higher average stays a number where its length plus one does not wrap to zero. -/
theorem sampleHtf_advances (number : m.tc.htfTfMin ≤ 0 ∨ int32 (m.tc.htfEma + 1) ≠ 0)
    (audited : Audited m.toTrendDesk s) :
    Advances m.toTrendDesk m.hhmm s (s.sampleHtf m b) := by
  unfold sampleHtf
  split_ifs with ends
  · refine .of_same audited rfl rfl fun framed => ?_
    obtain ⟨x, isFin⟩ := audited.number framed
    change ∃ y, emaStep m.tc.htfEma b.c s.htf.ema = .fin y
    rw [isFin]
    exact emaStep_number (number.resolve_left (not_le.mpr framed))
  · exact quiet_advances (.refl s) audited

/-- Closing a minute keeps the strategy audited, and admits every entry it emits. -/
theorem onM1Close_advances (number : m.tc.htfTfMin ≤ 0 ∨ int32 (m.tc.htfEma + 1) ≠ 0)
    (audited : Audited m.toTrendDesk s) :
    Advances m.toTrendDesk m.hhmm s (s.onM1Close m b) := by
  have recorded : Advances m.toTrendDesk m.hhmm s (s.recordMinute b) :=
    .of_same audited rfl rfl audited.number
  have timed : Advances m.toTrendDesk m.hhmm (s.recordMinute b)
      ((s.recordMinute b).timeStop m b) := timeStop_decides.advances recorded.audited
  have closed := closeBars_advances (b := b) timed.audited
  have remembered : Advances m.toTrendDesk m.hhmm
      (((s.recordMinute b).timeStop m b).closeBars m b)
      (((s.recordMinute b).timeStop m b).closeBars m b).recordSession := by
    unfold recordSession
    split_ifs
    · exact .of_same closed.audited rfl rfl closed.audited.number
    · exact quiet_advances (.refl _) closed.audited
  have sampled := sampleHtf_advances (b := b) number remembered.audited
  have acted := acts_advances (minuteMode_acts (b := b)) sampled.audited
  exact ((((recorded.trans timed).trans closed).trans remembered).trans sampled).trans acted

/-- A tick keeps the strategy audited, and admits every entry it emits. -/
theorem onTick_advances {tick : OrbTick}
    (number : m.tc.htfTfMin ≤ 0 ∨ int32 (m.tc.htfEma + 1) ≠ 0)
    (audited : Audited m.toTrendDesk s) :
    Advances m.toTrendDesk m.hhmm s (s.onTick m tick) := by
  have arrived : Advances m.toTrendDesk m.hhmm s (s.arrive m tick (etMod tick.tsMicros)) :=
    quiet_advances arrive_quiet audited
  have tracked : Advances m.toTrendDesk m.hhmm (s.arrive m tick (etMod tick.tsMicros))
      ((s.arrive m tick (etMod tick.tsMicros)).trackMinute m tick (etMod tick.tsMicros)) := by
    unfold trackMinute
    split_ifs
    · have closed := onM1Close_advances (b := (s.arrive m tick (etMod tick.tsMicros)).m1) number
        arrived.audited
      exact closed.trans (.of_same closed.audited rfl rfl closed.audited.number)
    · exact .of_same arrived.audited rfl rfl arrived.audited.number
    · exact .of_same arrived.audited rfl rfl arrived.audited.number
  exact (arrived.trans tracked).trans (quiet_advances trackDelta_quiet tracked.audited)

end TrendStrategy

/-! ## Runs -/

/-- The time at which the engine decides. -/
def TrendEvent.clock : TrendEvent → Option Int
  | .tick t _ => some (etHhmm t.tsMicros)
  | .quote tsUs _ _ _ _ _ _ => some (etHhmm tsUs)
  | .endOfDay h m _ => some (h * 100 + m)
  | _ => none

namespace TrendDesk

open TrendStrategy

variable (desk : TrendDesk)

/-- The entries that a step adds to the marks are admitted at the event's time. -/
def Gated (s : TrendStrategy) (e : TrendEvent) : Prop :=
  ∀ before c after, (desk.handle s e).marks = before ++ .call c :: after →
    s.marks.length ≤ before.length → c.isEntry = true →
      Admitted desk before c ∧ e.clock = some c.hhmm

variable {desk}

variable {s : TrendStrategy} {e : TrendEvent}

/-- A step is gated when each of its new entries was admitted. -/
theorem gated_of_new (new : List TrendMark) (marks : (desk.handle s e).marks = s.marks ++ new)
    (admits : ∀ before c after, new = before ++ .call c :: after → c.isEntry = true →
      Admitted desk (s.marks ++ before) c ∧ e.clock = some c.hhmm) :
    desk.Gated s e := by
  intro before c after split later entry
  rw [marks] at split
  rcases List.append_eq_append_iff.mp split with
    ⟨rest, isBefore, isNew⟩ | ⟨rest, isMarks, isCall⟩
  · rw [isBefore]
    exact admits rest c after isNew entry
  · have none : rest = [] := by
      rw [isMarks, List.length_append] at later
      exact List.length_eq_zero_iff.mp (by omega)
    rw [none, List.append_nil] at isMarks
    rw [none, List.nil_append] at isCall
    have atStart := admits [] c after isCall.symm entry
    rwa [List.append_nil, isMarks] at atStart

theorem gated_of_advances {hhmm : Int} (clock : e.clock = some hhmm)
    (advances : Advances desk hhmm s (desk.handle s e)) : desk.Gated s e := by
  obtain ⟨new, marks, admits⟩ := advances.admits
  apply gated_of_new new marks
  intro before c after split entry
  obtain ⟨admitted, time⟩ := admits before c after split entry
  exact ⟨admitted, time ▸ clock⟩

/-- The host's own calls signal nothing. -/
theorem gated_of_silent (new : List TrendMark) (marks : (desk.handle s e).marks = s.marks ++ new)
    (silent : ∀ c, .call c ∉ new) : desk.Gated s e := by
  apply gated_of_new new marks
  intro before c after split
  exact absurd (split ▸ List.mem_append_right before List.mem_cons_self) (silent c)

theorem gated_of_mark {mark : TrendMark} (marks : (desk.handle s e).marks = s.marks ++ [mark])
    (silent : ∀ c, mark ≠ .call c) : desk.Gated s e :=
  gated_of_silent [mark] marks fun c called => silent c (List.mem_singleton.mp called).symm

/-- A call of the host that no counter and no signal knows of. -/
theorem gated_of_unseen (audited : Audited desk s)
    (trades : (desk.handle s e).sess.tradesToday = s.sess.tradesToday)
    (held : s.sess.inPosition = true → (desk.handle s e).sess.inPosition = true)
    (marks : (desk.handle s e).marks = s.marks) (htf : (desk.handle s e).htf = s.htf) :
    Audited desk (desk.handle s e) ∧ desk.Gated s e := by
  refine ⟨⟨?_, ?_, htf ▸ audited.number⟩,
    gated_of_silent [] (marks.trans (List.append_nil _).symm) fun _ => List.not_mem_nil⟩
  · rw [trades, marks]
    exact audited.trades
  · rw [marks]
    exact fun stands => held (audited.held stands)

/-- Lifting the halt keeps the audit and enters nothing. -/
theorem unhalt_gated (audited : Audited desk s) :
    Audited desk (desk.handle s .unhalt) ∧ desk.Gated s .unhalt := by
  by_cases trading : s.sess.riskHalted = false
  · have same : desk.handle s .unhalt = s := if_pos trading
    apply gated_of_unseen audited
    · rw [same]
    · rw [same]
      exact id
    · rw [same]
    · rw [same]
  · have cleared : desk.handle s .unhalt =
        { s with sess := { s.sess with riskHalted := false, haltReason := "" } } := if_neg trading
    apply gated_of_unseen audited
    · rw [cleared]
    · rw [cleared]
      exact id
    · rw [cleared]
    · rw [cleared]

/-- A step of an engine whose higher average stays a number: the counters follow the marks,
and the gate admits what is new. -/
theorem handle_gated (number : desk.tc.htfTfMin ≤ 0 ∨ int32 (desk.tc.htfEma + 1) ≠ 0)
    (s : TrendStrategy) (e : TrendEvent) (audited : Audited desk s) :
    Audited desk (desk.handle s e) ∧ desk.Gated s e := by
  cases e with
  | tick t closes =>
    have step : Advances desk (etHhmm t.tsMicros) s (desk.handle s (.tick t closes)) :=
      @onTick_advances (desk.moment (etHhmm t.tsMicros) closes) s t number audited
    exact ⟨step.audited, gated_of_advances rfl step⟩
  | quote tsUs bid bidSz ask askSz tick closes =>
    have step := (@onQuote_decides (desk.moment (etHhmm tsUs) closes) s tsUs bidSz askSz bid ask
      tick).advances audited
    exact ⟨step.audited, gated_of_advances rfl step⟩
  | endOfDay h m closes =>
    have step := (@checkEod_decides (desk.moment (h * 100 + m) closes) s).advances audited
    exact ⟨step.audited, gated_of_advances rfl step⟩
  | reference close => exact gated_of_unseen audited rfl id rfl rfl
  | halt why => exact gated_of_unseen audited rfl id rfl rfl
  | unhalt => exact unhalt_gated audited
  | seedTrades n =>
    refine ⟨⟨?_, ?_, audited.number⟩, gated_of_mark rfl fun _ isCall =>
      TrendMark.noConfusion isCall⟩
    · exact (tradesSince_snoc s.marks (.seeded n)).symm
    · exact fun stands => audited.held ((standing_snoc s.marks (.seeded n)).symm.trans stands)
  | seedPosition dir entryTsUs => exact gated_of_unseen audited rfl (fun _ => rfl) rfl rfl
  | closed =>
    refine ⟨⟨?_, ?_, audited.number⟩, gated_of_mark rfl fun _ isCall =>
      TrendMark.noConfusion isCall⟩
    · exact audited.trades.trans (tradesSince_snoc s.marks .closed).symm
    · exact fun stands => nomatch (standing_snoc s.marks .closed).symm.trans stands
  | reset =>
    refine ⟨⟨?_, ?_, audited.number⟩, gated_of_mark rfl fun _ isCall =>
      TrendMark.noConfusion isCall⟩
    · exact (tradesSince_snoc s.marks (.restarted _)).symm
    · intro stands
      have kept := (standing_snoc s.marks (.restarted _)).symm.trans stands
      exact (Bool.and_eq_true_iff.mp kept).1
  | eventDay on => exact gated_of_unseen audited rfl id rfl rfl
  | eventNextDay on => exact gated_of_unseen audited rfl id rfl rfl
  | dayAtr pts => exact gated_of_unseen audited rfl id rfl rfl

variable (desk)

/-- In every run of an engine whose higher average stays a number, each entry of any mode is
one that the gate admits at the time of its event. -/
theorem entries_admitted (events : List TrendEvent)
    (number : desk.tc.htfTfMin ≤ 0 ∨ int32 (desk.tc.htfEma + 1) ≠ 0) :
    Along desk.handle desk.Gated {} events := by
  have start : Audited desk {} := ⟨rfl, nofun, fun _ => ⟨0, rfl⟩⟩
  have free : Along desk.handle (fun _ _ => True) {} events :=
    along_of_forall desk.handle (fun _ _ => trivial) {} events
  exact along_of_invariant desk.handle (Audited desk)
    (fun s e audited _ => (handle_gated number s e audited).2)
    (fun s e audited _ => (handle_gated number s e audited).1) {} events start free

/-- A position held from 10:04 Eastern, by an engine whose higher average divides by zero. -/
def voidFrameDesk : TrendDesk where
  tc := { mode := "hold", tfMin := 1, htfTfMin := 1, htfEma := -1, holdEntryHhmm := 1004 }
  sqrt := id

/-- One tick a minute from 10:00 Eastern, each two points above the one before. -/
def minutely (n : Nat) : TrendEvent :=
  .tick { tsMicros := 1746021600000000 + 60000000 * n, price := 100 + 2 * n } fun _ => false

def fourMinutes : List TrendEvent := [minutely 0, minutely 1, minutely 2, minutely 3]

/-- The entry of the fifth minute, where the average is not a number. -/
def voidFrameEntry : TrendCall where
  sig := .buy
  price := 106
  reason := "hold_long"
  hhmm := 1004
  sess := {}
  htf := { ema := .nan, close := 104, n := 3 }

/-- An entry passes a frame whose average is void. -/
theorem entry_passes_void_average :
    ¬Along voidFrameDesk.handle voidFrameDesk.Gated {} (fourMinutes ++ [minutely 4]) := by
  intro along
  have last := ((along_append _ _ _ fourMinutes [minutely 4]).mp along).2.1
  have split : (run voidFrameDesk.handle {} (fourMinutes ++ [minutely 4])).marks =
      (run voidFrameDesk.handle {} (fourMinutes ++ [minutely 4])).marks.dropLast ++
        [.call voidFrameEntry] := by
    decide +kernel
  have later : (run voidFrameDesk.handle {} fourMinutes).marks.length ≤
      (run voidFrameDesk.handle {} (fourMinutes ++ [minutely 4])).marks.dropLast.length := by
    decide +kernel
  have admitted := (last _ _ _ split later rfl).1
  exact absurd (admitted.above (by decide) rfl) (by decide)

/-- The same engine with an average of two bars. -/
def framedDesk : TrendDesk where
  tc := { mode := "hold", tfMin := 1, htfTfMin := 1, htfEma := 2, holdEntryHhmm := 1004 }
  sqrt := id

theorem entries_admitted_of_framedDesk :
    tradesSince (run framedDesk.handle {} (fourMinutes ++ [minutely 4])).marks = 1 ∧
      Along framedDesk.handle framedDesk.Gated {} (fourMinutes ++ [minutely 4]) :=
  ⟨by decide +kernel,
    entries_admitted framedDesk (fourMinutes ++ [minutely 4]) (.inr (by decide))⟩

end TrendDesk

end RithmicEngine
