import RithmicEngine.Base.PartialRuns
import RithmicEngine.Execution.MtfStrategy
/-!
# What a step of the scalper does

Each part of a step writes some fields and leaves the others alone. The host's answers and
the exits touch the position, the guardrails and the equity only; a completed bar is read
first and kept on after that.
-/
namespace RithmicEngine

namespace MtfStrategy

variable {m : MtfDesk} {bar : MinuteBar} {s t r : MtfStrategy}

/-! ## The host's answers -/

/-- Only the books differ: the position, the guardrails, the equity, and what was marked
since. No bar is marked. -/
inductive Books (s : MtfStrategy) : MtfStrategy → Prop
  | differ (leg : MtfLeg) (guards : MtfGuards) (equity : Double) (marks : List MtfMark)
      (barless : ∀ b, MtfMark.bar b ∉ marks) :
      Books s { s with
        leg := leg
        guards := guards
        equity := equity
        marks := s.marks ++ marks }

theorem Books.refl (s : MtfStrategy) : Books s s := by
  have same := Books.differ (s := s) s.leg s.guards s.equity [] fun _ => List.not_mem_nil
  rw [List.append_nil] at same
  exact same

/-- Two steps that change the books only are one. -/
theorem Books.trans (first : Books s t) (second : Books t r) : Books s r := by
  obtain ⟨_, _, _, marks, barless⟩ := first
  obtain ⟨leg, guards, equity, later, barless'⟩ := second
  have none : ∀ b, MtfMark.bar b ∉ marks ++ later := by
    intro b inside
    rcases List.mem_append.mp inside with before | after
    · exact barless b before
    · exact barless' b after
  have composed := Books.differ (s := s) leg guards equity (marks ++ later) none
  rw [← List.append_assoc] at composed
  exact composed

theorem books_of_leg (s : MtfStrategy) (leg : MtfLeg) : Books s { s with leg := leg } := by
  have same := Books.differ (s := s) leg s.guards s.equity [] fun _ => List.not_mem_nil
  rw [List.append_nil] at same
  exact same

theorem notifyTradeFilled_books (c : MtfClose) (s : MtfStrategy) :
    Books s (s.notifyTradeFilled m c) := by
  unfold notifyTradeFilled
  split
  · exact books_of_leg s _
  · have one : ∀ b, MtfMark.bar b ∉ [MtfMark.closed] := by simp
    split
    · exact Books.differ (s := s) _ _ _ _ one
    · exact Books.differ (s := s) _ _ _ _ one

theorem notifyAll_books (closes : List MtfClose) (s : MtfStrategy) :
    Books s (closes.foldl (fun s close => s.notifyTradeFilled m close) s) := by
  induction closes generalizing s with
  | nil => exact Books.refl s
  | cons close rest ih => exact (notifyTradeFilled_books close s).trans (ih _)

theorem callBack_books (reply : MtfReply) (c : MtfCall) (s : MtfStrategy) :
    Books s (s.callBack m reply c) := by
  have marked : Books s { s with marks := s.marks ++ [MtfMark.call c] } :=
    Books.differ s.leg s.guards s.equity [MtfMark.call c] (by simp)
  exact marked.trans (notifyAll_books (reply c) _)

/-! ## Acting on a bar -/

theorem emitFlatten_books (reply : MtfReply) (reason : String) (s : MtfStrategy) :
    Books s (s.emitFlatten m bar reply reason) :=
  (books_of_leg s _).trans (callBack_books reply _ _)

theorem manage_books (reply : MtfReply) (s : MtfStrategy) : Books s (s.manage m bar reply) := by
  unfold manage
  split
  · unfold updateExits
    dsimp only
    split
    · exact (books_of_leg s _).trans (emitFlatten_books reply _ _)
    · exact books_of_leg s _
  · exact Books.refl s

theorem endSession_books (reply : MtfReply) (s : MtfStrategy) :
    Books s (s.endSession m bar reply) := by
  unfold endSession
  dsimp only
  split
  · exact emitFlatten_books reply _ s
  · exact Books.refl s

/-- Opening a position changes the books only. -/
theorem openPosition_books (reply : MtfReply) (long : Bool) (price : ℚ) (reason : String)
    (s : MtfStrategy) : Books s (s.openPosition m reply long price reason) := by
  unfold openPosition
  refine Books.trans ?_ (callBack_books reply _ _)
  have opened := Books.differ (s := s) (s.openLeg m long price reason)
    { s.guards with tradesToday := s.guards.tradesToday + 1 } s.equity []
    fun _ => List.not_mem_nil
  rw [List.append_nil] at opened
  exact opened

/-- A side may be opened: it is wanted, and there is a size for it. -/
theorem mayOpen_iff {long : Bool} : s.mayOpen m long = some true ↔
    s.wants m long = true ∧ ∃ q, s.qtyCalc m s.equity = some q ∧ 0 < q := by
  unfold mayOpen
  split
  · next wanted =>
    simp [Option.bind_eq_some_iff, wanted]
  · next idle => simp [idle]

variable {reply : MtfReply} {tick : OrbTick}

/-- An entry: of one side that may be opened, or none where neither may. -/
theorem enter_cases (entered : s.enter m bar reply = some t) :
    (∃ long, s.mayOpen m long = some true ∧ t =
      (s.openPosition m reply long bar.close (s.entryReason m long)).spendBreak long) ∨
      (∀ long, s.mayOpen m long ≠ some true) ∧ t = s := by
  obtain ⟨first, asked, rest⟩ := Option.bind_eq_some_iff.mp entered
  cases first with
  | true => exact Or.inl ⟨true, asked, (Option.some.inj rest).symm⟩
  | false =>
    obtain ⟨second, askedNext, last⟩ := Option.bind_eq_some_iff.mp rest
    cases second with
    | true => exact Or.inl ⟨false, askedNext, (Option.some.inj last).symm⟩
    | false =>
      refine Or.inr ⟨?_, (Option.some.inj last).symm⟩
      rintro (_ | _) opens
      · rw [askedNext] at opens
        cases opens
      · rw [asked] at opens
        cases opens

/-- Acting on a bar leaves alone what the bar was read into. -/
structure Kept (s t : MtfStrategy) : Prop where
  barIndex : t.barIndex = s.barIndex
  ind : t.ind = s.ind
  align : t.align = s.align
  fvg : t.fvg = s.fvg
  conf5 : t.confirm.conf5 = s.confirm.conf5
  marks : ∃ later, t.marks = s.marks ++ later ∧ ∀ b, MtfMark.bar b ∉ later

/-- What two steps leave alone, both of them in a row leave alone. -/
theorem Kept.trans (first : Kept s t) (second : Kept t r) : Kept s r where
  barIndex := second.barIndex.trans first.barIndex
  ind := second.ind.trans first.ind
  align := second.align.trans first.align
  fvg := second.fvg.trans first.fvg
  conf5 := second.conf5.trans first.conf5
  marks := by
    obtain ⟨before, isBefore, none⟩ := first.marks
    obtain ⟨after, isAfter, none'⟩ := second.marks
    refine ⟨before ++ after, by rw [isAfter, isBefore, List.append_assoc], ?_⟩
    intro b inside
    rcases List.mem_append.mp inside with early | late
    · exact none b early
    · exact none' b late

theorem Books.kept (books : Books s t) : Kept s t := by
  obtain ⟨_, _, _, marks, barless⟩ := books
  exact ⟨rfl, rfl, rfl, rfl, rfl, marks, rfl, barless⟩

theorem drop_conf5 (c : MtfConfirm) : (drop m s c).conf5 = c.conf5 := rfl

theorem settle_conf5 (rolled : Bool) (c : MtfConfirm) : (settle m rolled s c).conf5 = c.conf5 := by
  unfold settle
  split
  · split
    · rfl
    · rfl
  · rfl

theorem confirmBar_kept (rolled : Bool) (s : MtfStrategy) : Kept s (s.confirmBar m rolled) where
  barIndex := rfl
  ind := rfl
  align := rfl
  fvg := rfl
  conf5 := by
    unfold confirmBar
    dsimp only
    split
    · rw [drop_conf5, settle_conf5]
      rfl
    · rfl
  marks := ⟨[], (List.append_nil _).symm, fun _ => List.not_mem_nil⟩

theorem spendBreak_kept (long : Bool) (s : MtfStrategy) : Kept s (s.spendBreak long) where
  barIndex := rfl
  ind := rfl
  align := rfl
  fvg := rfl
  conf5 := rfl
  marks := ⟨[], (List.append_nil _).symm, fun _ => List.not_mem_nil⟩

theorem enter_kept (entered : s.enter m bar reply = some t) : Kept s t := by
  rcases enter_cases entered with ⟨long, _, isT⟩ | ⟨_, isT⟩
  · rw [isT]
    exact (openPosition_books reply long _ _ s).kept.trans (spendBreak_kept long _)
  · rw [isT]
    exact (Books.refl s).kept

theorem act_cases {rolled : Bool} (acts : s.act m bar reply rolled = some t) :
    ∃ e, (s.confirmBar m rolled).enter m bar reply = some e ∧
      t = (e.manage m bar reply).endSession m bar reply := by
  obtain ⟨e, entered, isT⟩ := Option.bind_eq_some_iff.mp acts
  exact ⟨e, entered, (Option.some.inj isT).symm⟩

theorem act_kept {rolled : Bool} (acts : s.act m bar reply rolled = some t) : Kept s t := by
  obtain ⟨e, entered, isT⟩ := act_cases acts
  rw [isT]
  exact (((confirmBar_kept rolled s).trans (enter_kept entered)).trans
    (manage_books reply e).kept).trans (endSession_books reply _).kept

/-! ## Reading a bar -/

/-- What a bar is read into, and what reading it leaves alone. -/
structure Read (m : MtfDesk) (bar : MinuteBar) (s r : MtfStrategy) : Prop where
  curBar : r.curBar = s.curBar
  barIndex : r.barIndex = s.barIndex + 1
  riskHalted : r.riskHalted = s.riskHalted
  dayKey : r.clock.dayKey = globexDay m bar
  leg : r.leg = s.leg
  guards : r.guards = (s.rollDay m bar).guards
  marks : r.marks = s.marks ++ [.bar bar]
  hist : r.hist = pushCapped 4096 bar s.hist
  ind : ∃ key, (s.ind.nextVwap bar key).next m.cfg bar r.hist = some r.ind
  align : ∃ a, s.align.aggregate m.cfg bar = some a ∧ r.align = a.read m.cfg
  fvg : ∃ f, s.fvg.aggregate m.cfg bar = some f ∧
    f.next m.cfg bar r.ind.atr r.hist r.barIndex = some r.fvg
  confirm : ∃ c, r.confirm = { s.confirm with conf5 := c } ∧
    s.confirm.conf5.updateIf m.cfg.useConfTf m.cfg.confTfMin 2 3 m.cfg.atrLen bar = some c
  signals : ∃ ok, r.guardsOk m = some ok ∧ (r.gate.longSignal = true → ok = true) ∧
    (r.gate.shortSignal = true → ok = true)

theorem signal_guarded {ok long : Bool} (signalled : s.signal m bar ok long = true) :
    ok = true := by
  unfold signal at signalled
  simp only [Bool.and_eq_true] at signalled
  exact signalled.1.1.1.1.1.1.1.2

/-- What the reading of a bar comes to, field by field: the relation the invariants are stated
on. -/
theorem readBar_read (reads : s.readBar m bar = some r) : Read m bar s r := by
  obtain ⟨a, aggregated, later⟩ := Option.bind_eq_some_iff.mp reads
  obtain ⟨b, analysed, signalled⟩ := Option.bind_eq_some_iff.mp later
  obtain ⟨align, isAlign, rest⟩ := Option.bind_eq_some_iff.mp aggregated
  obtain ⟨fvg, isFvg, rest⟩ := Option.bind_eq_some_iff.mp rest
  obtain ⟨conf5, isConf5, isA⟩ := Option.bind_eq_some_iff.mp rest
  cases Option.some.inj isA
  obtain ⟨ind, isInd, rest⟩ := Option.bind_eq_some_iff.mp analysed
  obtain ⟨flag, _, rest⟩ := Option.bind_eq_some_iff.mp rest
  obtain ⟨onset, _, rest⟩ := Option.bind_eq_some_iff.mp rest
  obtain ⟨gaps, isGaps, rest⟩ := Option.bind_eq_some_iff.mp rest
  obtain ⟨ref, _, isB⟩ := Option.bind_eq_some_iff.mp rest
  cases Option.some.inj isB
  obtain ⟨ok, isOk, isR⟩ := Option.bind_eq_some_iff.mp signalled
  cases Option.some.inj isR
  exact {
    curBar := rfl
    barIndex := rfl
    riskHalted := rfl
    dayKey := rfl
    leg := rfl
    guards := rfl
    marks := rfl
    hist := rfl
    ind := ⟨_, isInd⟩
    align := ⟨align, isAlign, rfl⟩
    fvg := ⟨fvg, isFvg, isGaps⟩
    confirm := ⟨conf5, rfl, isConf5⟩
    signals := ⟨ok, isOk, signal_guarded, signal_guarded⟩ }

/-! ## A completed bar -/

/-- A bar without volume is nothing. Any other is read, and kept on once the strategy is
warm. -/
inductive Handles (m : MtfDesk) (bar : MinuteBar) (reply : MtfReply) (s : MtfStrategy) :
    MtfStrategy → Prop
  | empty (blank : bar.volume = 0) : Handles m bar reply s s
  | cold (r : MtfStrategy) (traded : bar.volume ≠ 0) (reads : s.readBar m bar = some r)
      (early : ¬r.warmedUp m = true) : Handles m bar reply s r.closeBar
  | warm (r a : MtfStrategy) (traded : bar.volume ≠ 0) (reads : s.readBar m bar = some r)
      (ready : r.warmedUp m = true) (acts : r.act m bar reply (s.confRolled m bar) = some a) :
      Handles m bar reply s a.closeBar

/-- The handler of a completed bar does one of the three. -/
theorem handles (handled : s.handleCompletedBar m bar reply = some t) :
    Handles m bar reply s t := by
  unfold handleCompletedBar at handled
  split at handled
  · next blank =>
    cases Option.some.inj handled
    exact Handles.empty blank
  · next traded =>
    obtain ⟨r, reads, later⟩ := Option.bind_eq_some_iff.mp handled
    split at later
    · next ready =>
      obtain ⟨a, acts, isT⟩ := Option.bind_eq_some_iff.mp later
      cases Option.some.inj isT
      exact Handles.warm r a traded reads ready acts
    · next early =>
      cases Option.some.inj later
      exact Handles.cold r traded reads early

/-! ## Any step -/

theorem kept_of_same (same : t = { s with
    curBar := t.curBar
    lastPrice := t.lastPrice
    riskHalted := t.riskHalted
    haltReason := t.haltReason
    clock := t.clock
    leg := t.leg
    guards := t.guards
    equity := t.equity
    ref := t.ref }) : Kept s t := by
  rw [same]
  exact ⟨rfl, rfl, rfl, rfl, rfl, [], (List.append_nil _).symm, fun _ => List.not_mem_nil⟩

/-- A tick: of a halted strategy or within the bar in progress, or the first of another
minute. -/
inductive Ticks (m : MtfDesk) (reply : MtfReply) (tick : OrbTick) (s : MtfStrategy) :
    MtfStrategy → Prop
  | within (cur : MinuteBar) (price : ℚ) (goesOn : s.riskHalted = true ∨
      s.curBar.minuteUtc < 0 ∨ minuteOfTick tick = s.curBar.minuteUtc) :
      Ticks m reply tick s { s with curBar := cur, lastPrice := price }
  | across (h : MtfStrategy) (cur : MinuteBar) (price : ℚ) (running : s.riskHalted = false)
      (started : 0 ≤ s.curBar.minuteUtc) (ends : minuteOfTick tick ≠ s.curBar.minuteUtc)
      (handled : s.handleCompletedBar m s.curBar reply = some h) :
      Ticks m reply tick s { h with curBar := cur, lastPrice := price }

/-- What a tick comes to, by the branch of the source it takes. -/
theorem onTick_ticks (ticked : s.onTick m reply tick = some t) : Ticks m reply tick s t := by
  unfold onTick at ticked
  split at ticked
  · next halted =>
    cases Option.some.inj ticked
    exact Ticks.within s.curBar s.lastPrice (Or.inl halted)
  · next running =>
    obtain ⟨b, built, isT⟩ := Option.bind_eq_some_iff.mp ticked
    cases Option.some.inj isT
    unfold buildBar at built
    dsimp only at built
    by_cases unset : s.curBar.minuteUtc < 0
    · rw [if_pos unset, if_neg (not_not.mpr rfl)] at built
      cases Option.some.inj built
      exact Ticks.within _ _ (Or.inr (Or.inl unset))
    · rw [if_neg unset] at built
      split at built
      · next ends =>
        obtain ⟨h, handled, isB⟩ := Option.bind_eq_some_iff.mp built
        cases Option.some.inj isB
        exact Ticks.across h _ _ (Bool.not_eq_true _ ▸ running) (not_lt.mp unset) ends handled
      · next same =>
        cases Option.some.inj built
        exact Ticks.within _ _ (Or.inr (Or.inr (not_not.mp same)))

theorem checkTimeFlatten_kept (reply : MtfReply) (etHour etMin : Int) (s : MtfStrategy) :
    Kept s (s.checkTimeFlatten m reply etHour etMin) := by
  unfold checkTimeFlatten
  split
  · exact (kept_of_same rfl).trans (callBack_books reply _ _).kept
  · exact (Books.refl s).kept

/-- The event completes the bar in progress, which has volume. -/
def EndsBar (s : MtfStrategy) : MtfEvent → Prop
  | .tick _ t => s.riskHalted = false ∧ 0 ≤ s.curBar.minuteUtc ∧
      minuteOfTick t ≠ s.curBar.minuteUtc ∧ s.curBar.volume ≠ 0
  | _ => False

instance (s : MtfStrategy) : (event : MtfEvent) → Decidable (EndsBar s event)
  | .tick _ _ => inferInstanceAs (Decidable (_ ∧ _ ∧ _ ∧ _))
  | .tradeFilled _ | .entryFilled _ _ | .referenceBar _ _ _ | .timeFlatten _ _ _ | .halt _
  | .unhalt | .resetSession | .seedState _ _ _ | .seedTradesToday _ => isFalse id

theorem not_endsBar_of_goesOn
    (goesOn : s.riskHalted = true ∨
      s.curBar.minuteUtc < 0 ∨ minuteOfTick tick = s.curBar.minuteUtc) :
    ¬EndsBar s (.tick reply tick) := by
  rintro ⟨running, started, ends, _⟩
  rcases goesOn with halted | unset | same
  · rw [running] at halted
    cases halted
  · exact absurd unset (not_lt.mpr started)
  · exact ends same

/-- A bar with volume is read, and one without is not. -/
theorem handled_endsBar (handles : Handles m bar reply s t) :
    (bar.volume ≠ 0 ∧ ∃ r, s.readBar m bar = some r ∧ Kept r t) ∨ bar.volume = 0 ∧ Kept s t := by
  cases handles with
  | empty blank => exact Or.inr ⟨blank, (Books.refl s).kept⟩
  | cold r traded reads _ => exact Or.inl ⟨traded, r, reads, kept_of_same rfl⟩
  | warm r a traded reads _ acts =>
    exact Or.inl ⟨traded, r, reads, (act_kept acts).trans (kept_of_same rfl)⟩

/-- A tick that completes the bar in progress reads it; any other one reads nothing. -/
theorem ticked_endsBar (ticks : Ticks m reply tick s t) :
    (EndsBar s (.tick reply tick) ∧ ∃ r, s.readBar m s.curBar = some r ∧ Kept r t) ∨
      ¬EndsBar s (.tick reply tick) ∧ Kept s t := by
  cases ticks with
  | within cur price goesOn =>
    exact Or.inr ⟨not_endsBar_of_goesOn goesOn, kept_of_same rfl⟩
  | across h cur price running started ends handled =>
    rcases handled_endsBar (handles handled) with ⟨traded, r, reads, kept⟩ | ⟨blank, kept⟩
    · exact Or.inl ⟨⟨running, started, ends, traded⟩, r, reads, kept.trans (kept_of_same rfl)⟩
    · exact Or.inr ⟨fun completes => completes.2.2.2 blank, kept.trans (kept_of_same rfl)⟩

/-- A step reads the bar that it completes. Any other leaves the readings alone. -/
theorem take_endsBar {event : MtfEvent} (taken : s.take m event = some t) :
    (EndsBar s event ∧ ∃ r, s.readBar m s.curBar = some r ∧ Kept r t) ∨
      ¬EndsBar s event ∧ Kept s t := by
  cases event with
  | tick reply tick => exact ticked_endsBar (onTick_ticks taken)
  | tradeFilled c =>
    cases Option.some.inj taken
    exact Or.inr ⟨id, (notifyTradeFilled_books c s).kept⟩
  | entryFilled dir avg =>
    cases Option.some.inj taken
    refine Or.inr ⟨id, ?_⟩
    unfold notifyEntryFilled
    split
    · exact (Books.refl s).kept
    · exact kept_of_same rfl
  | referenceBar high low close =>
    obtain ⟨ref, _, isT⟩ := Option.bind_eq_some_iff.mp taken
    cases Option.some.inj isT
    exact Or.inr ⟨id, kept_of_same rfl⟩
  | timeFlatten reply etHour etMin =>
    cases Option.some.inj taken
    exact Or.inr ⟨id, checkTimeFlatten_kept reply etHour etMin s⟩
  | halt reason =>
    cases Option.some.inj taken
    exact Or.inr ⟨id, kept_of_same rfl⟩
  | unhalt =>
    cases Option.some.inj taken
    refine Or.inr ⟨id, ?_⟩
    unfold unhaltTrading
    split
    · exact (Books.refl s).kept
    · exact kept_of_same rfl
  | resetSession =>
    cases Option.some.inj taken
    exact Or.inr ⟨id, kept_of_same rfl⟩
  | seedState trades pnl total =>
    cases Option.some.inj taken
    exact Or.inr ⟨id, kept_of_same rfl⟩
  | seedTradesToday n =>
    cases Option.some.inj taken
    exact Or.inr ⟨id, kept_of_same rfl⟩

/-- What a step does to the readings of the bars: nothing, or a completed bar is read. -/
inductive Steps (m : MtfDesk) (s t : MtfStrategy) : Prop
  | still (kept : Kept s t)
  | bar (b : MinuteBar) (r : MtfStrategy) (traded : b.volume ≠ 0) (reads : Read m b s r)
      (kept : Kept r t)

theorem take_steps {event : MtfEvent} (taken : s.take m event = some t) : Steps m s t := by
  rcases take_endsBar taken with ⟨completes, r, reads, kept⟩ | ⟨_, kept⟩
  · cases event with
    | tick reply tick => exact Steps.bar s.curBar r completes.2.2.2 (readBar_read reads) kept
    | _ => exact completes.elim
  · exact Steps.still kept

/-! ## The bars that were completed -/

/-- The completed bars with volume, in order. -/
def bars (s : MtfStrategy) : List MinuteBar :=
  s.marks.filterMap fun mark =>
    match mark with
    | .bar b => some b
    | _ => none

/-- Acting on a bar completes no other bar. -/
theorem Kept.bars (kept : Kept s t) : t.bars = s.bars := by
  obtain ⟨later, isT, barless⟩ := kept.marks
  unfold MtfStrategy.bars
  rw [isT, List.filterMap_append]
  have none : later.filterMap (fun mark =>
      match mark with
      | .bar b => some b
      | _ => none) = [] := by
    apply List.filterMap_eq_nil_iff.mpr
    intro mark inside
    cases mark with
    | bar b => exact absurd inside (barless b)
    | call c => rfl
    | closed => rfl
  rw [none, List.append_nil]

theorem Read.bars (read : Read m bar s r) : r.bars = s.bars ++ [bar] := by
  unfold MtfStrategy.bars
  rw [read.marks, List.filterMap_append]
  rfl

end MtfStrategy

/-- What the strategy comes to after some events, where each of them has a result. -/
def MtfDesk.play (m : MtfDesk) (events : List MtfEvent) : Option MtfStrategy :=
  m.fresh.bind fun s => PartialRuns.reach (MtfStrategy.take m) s events

end RithmicEngine
