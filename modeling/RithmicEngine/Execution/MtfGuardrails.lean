import RithmicEngine.Execution.MtfSteps
/-!
# Entries under the guardrails

The guardrails are read into the signals of a bar. A signal of that bar passes them, and so
does one that the confirmation frame settles on the same bar. A signal that has waited for
the frame was let through on an earlier bar, and nothing asks again: these late entries are
the only ones that can find a guardrail closed.
-/
namespace RithmicEngine

open PartialRuns

namespace MtfStrategy

variable {m : MtfDesk} {bar : MinuteBar} {s t r : MtfStrategy}

/-! ## The guardrails -/

/-- The guardrails let a trade through. -/
structure GuardsOpen (m : MtfDesk) (s : MtfStrategy) : Prop where
  trades : m.cfg.useMaxTrades = true → s.guards.tradesToday < m.cfg.maxDailyTrades
  cooldown : m.cfg.useCooldown = true →
    s.barIndex - s.guards.lastLossBar > m.cfg.cooldownBars
  dailyLoss : m.cfg.useDailyLoss = true → ∃ pnl, s.dailyPnl m = some pnl ∧ pnl > s.lossLimit m

/-- What the check lets through is within the guardrails. -/
theorem guardsOk_open (ok : s.guardsOk m = some true) : s.GuardsOpen m := by
  obtain ⟨pnl, isPnl, all⟩ := Option.bind_eq_some_iff.mp ok
  have parts := Option.some.inj all
  simp only [Bool.and_eq_true] at parts
  obtain ⟨⟨cooldown, trades⟩, loss⟩ := parts
  constructor
  · intro used
    simpa [tradesOk, used] using trades
  · intro used
    simpa [cooldownOk, used] using cooldown
  · intro used
    exact ⟨pnl, isPnl, by simpa [dailyLossOk, used] using loss⟩

/-! ## Entries among the marks -/

/-- An entry was called. -/
def Opens (s t : MtfStrategy) : Prop :=
  ∃ later c, t.marks = s.marks ++ later ∧ MtfMark.call c ∈ later ∧ c.isEntry = true

/-- Something was marked, and no entry. -/
def Entryless (s t : MtfStrategy) : Prop :=
  ∃ later, t.marks = s.marks ++ later ∧ ∀ c, MtfMark.call c ∈ later → c.isEntry = false

theorem Entryless.of_same (same : t.marks = s.marks) : Entryless s t :=
  ⟨[], by rw [same, List.append_nil], fun _ inside => absurd inside List.not_mem_nil⟩

theorem Entryless.trans (first : Entryless s t) (second : Entryless t r) : Entryless s r := by
  obtain ⟨before, isBefore, none⟩ := first
  obtain ⟨after, isAfter, none'⟩ := second
  refine ⟨before ++ after, by rw [isAfter, isBefore, List.append_assoc], ?_⟩
  intro c inside
  rcases List.mem_append.mp inside with early | late
  · exact none c early
  · exact none' c late

theorem Entryless.not_opens (quiet : Entryless s t) : ¬Opens s t := by
  rintro ⟨later, c, isT, inside, entry⟩
  obtain ⟨others, isOthers, none⟩ := quiet
  have same : later = others := List.append_cancel_left (isT.symm.trans isOthers)
  rw [same] at inside
  rw [none c inside] at entry
  cases entry

theorem Opens.after (opens : Opens t r) (quiet : Entryless s t) : Opens s r := by
  obtain ⟨later, c, isR, inside, entry⟩ := opens
  obtain ⟨before, isT, _⟩ := quiet
  exact ⟨before ++ later, c, by rw [isR, isT, List.append_assoc],
    List.mem_append_right _ inside, entry⟩

theorem Opens.before (opens : Opens s t) (quiet : Entryless t r) : Opens s r := by
  obtain ⟨later, c, isT, inside, entry⟩ := opens
  obtain ⟨after, isR, _⟩ := quiet
  exact ⟨later ++ after, c, by rw [isR, isT, List.append_assoc],
    List.mem_append_left _ inside, entry⟩

/-- An entry that is not of the first part is of the rest. -/
theorem Opens.since {u : MtfStrategy} (opens : Opens s u) (first : Entryless s t)
    (grows : ∃ later, u.marks = t.marks ++ later) : Opens t u := by
  obtain ⟨all, c, isU, inside, entry⟩ := opens
  obtain ⟨before, isT, none⟩ := first
  obtain ⟨later, grown⟩ := grows
  have split_ : all = before ++ later := by
    rw [isT, List.append_assoc] at grown
    exact List.append_cancel_left (isU.symm.trans grown)
  rw [split_] at inside
  rcases List.mem_append.mp inside with early | late
  · rw [none c early] at entry
    cases entry
  · exact ⟨later, c, grown, late, entry⟩

theorem notifyTradeFilled_entryless (c : MtfClose) (s : MtfStrategy) :
    Entryless s (s.notifyTradeFilled m c) := by
  have closed : ∀ c, MtfMark.call c ∈ [MtfMark.closed] → c.isEntry = false := by simp
  unfold notifyTradeFilled
  split
  · exact Entryless.of_same rfl
  · split
    · exact ⟨[.closed], rfl, closed⟩
    · exact ⟨[.closed], rfl, closed⟩

theorem notifyAll_entryless (closes : List MtfClose) (s : MtfStrategy) :
    Entryless s (closes.foldl (fun s close => s.notifyTradeFilled m close) s) := by
  induction closes generalizing s with
  | nil => exact Entryless.of_same rfl
  | cons close rest ih => exact (notifyTradeFilled_entryless close s).trans (ih _)

/-- A call that is no entry enters nothing. -/
theorem callBack_entryless {c : MtfCall} (other : c.isEntry = false) (reply : MtfReply)
    (s : MtfStrategy) : Entryless s (s.callBack m reply c) := by
  have marked : Entryless s { s with marks := s.marks ++ [MtfMark.call c] } := by
    refine ⟨[.call c], rfl, ?_⟩
    intro d inside
    cases List.mem_singleton.mp inside
    exact other
  exact marked.trans (notifyAll_entryless (reply c) _)

variable {rolled : Bool} {event : MtfEvent} {long : Bool} (reply : MtfReply)

theorem emitFlatten_entryless (reason : String) (s : MtfStrategy) :
    Entryless s (s.emitFlatten m bar reply reason) := by
  have pending : Entryless s { s with leg := { s.leg with exitPending := true } } :=
    Entryless.of_same rfl
  exact pending.trans (callBack_entryless rfl reply _)

theorem manage_entryless (s : MtfStrategy) : Entryless s (s.manage m bar reply) := by
  unfold manage
  split
  · have bracket : Entryless s { s with leg := s.nextBracket m bar } := Entryless.of_same rfl
    unfold updateExits
    dsimp only
    split
    · exact bracket.trans (emitFlatten_entryless reply _ _)
    · exact bracket
  · exact Entryless.of_same rfl

theorem endSession_entryless (s : MtfStrategy) : Entryless s (s.endSession m bar reply) := by
  unfold endSession
  dsimp only
  split
  · exact emitFlatten_entryless reply _ s
  · exact Entryless.of_same rfl

/-- Opening a position calls an entry. -/
theorem openPosition_opens (long : Bool) (price : ℚ) (reason : String) (s : MtfStrategy) :
    Opens s (s.openPosition m reply long price reason) := by
  obtain ⟨later, marked, _⟩ := notifyAll_entryless (m := m)
    (reply ⟨if long then .buy else .sell, price, reason⟩)
    { s with
      leg := s.openLeg m long price reason
      guards := { s.guards with tradesToday := s.guards.tradesToday + 1 }
      marks := s.marks ++ [MtfMark.call ⟨if long then .buy else .sell, price, reason⟩] }
  refine ⟨[.call ⟨if long then .buy else .sell, price, reason⟩] ++ later, _, ?_,
    List.mem_append_left _ (List.mem_singleton.mpr rfl), ?_⟩
  · rw [← List.append_assoc]
    exact marked
  · cases long with
    | true => rfl
    | false => rfl

/-! ## Late entries -/

/-- The bar on which a side started to wait, which is negative where it does not. -/
def pendBar (long : Bool) (s : MtfStrategy) : Int :=
  if long then s.confirm.pendBarL else s.confirm.pendBarS

def confGo (long : Bool) (s : MtfStrategy) : Bool :=
  if long then s.confirm.confGoL else s.confirm.confGoS

def signalled (long : Bool) (s : MtfStrategy) : Bool :=
  if long then s.gate.longSignal else s.gate.shortSignal

/-- A signal that waits since an earlier bar is confirmed on this one, and can be taken. -/
structure Late (m : MtfDesk) (rolled long : Bool) (r : MtfStrategy) : Prop where
  rolls : rolled = true
  waits : 0 ≤ r.pendBar long
  strong : ∃ cb, r.confirm.conf5.done.getLast? = some cb ∧ strong m long cb = true
  inSession : r.clock.inSession = true
  inDateRange : r.clock.inDateRange = true
  side : r.leg.posDir = 0 ∨ m.cfg.allowFlips = true ∧ r.leg.posDir = -(if long then 1 else -1)
  exitPending : r.leg.exitPending = false
  warm : r.warmedUp m = true
  size : ∃ q, r.qtyCalc m r.equity = some q ∧ 0 < q

/-- The bar on which a side waits, once the signals of this bar are latched. -/
def latchedBar (long : Bool) (s : MtfStrategy) : Int :=
  if long then s.pend.pendBarL else s.pend.pendBarS

/-- What waits after the latch was waiting, or was signalled on this bar. -/
theorem waiting_of_latched (waits : 0 ≤ r.latchedBar long) :
    0 ≤ r.pendBar long ∨ r.signalled long = true := by
  cases long with
  | true =>
    change 0 ≤ r.pend.pendBarL at waits
    unfold pend at waits
    dsimp only at waits
    split at waits
    · next armed => exact Or.inr (of_decide_eq_true armed).1
    · exact Or.inl waits
  | false =>
    change 0 ≤ r.pend.pendBarS at waits
    unfold pend at waits
    dsimp only at waits
    split at waits
    · next armed => exact Or.inr (of_decide_eq_true armed).1
    · exact Or.inl waits

/-- A side that waits is not latched again. -/
theorem latchedBar_of_waiting (waits : 0 ≤ r.pendBar long) :
    r.latchedBar long = r.pendBar long := by
  cases long with
  | true =>
    have other : ¬decide (r.gate.longSignal = true ∧ r.leg.posDir ≤ 0 ∧
        r.confirm.pendBarL < 0) = true :=
      fun armed => absurd (of_decide_eq_true armed).2.2 (not_lt.mpr waits)
    exact if_neg other
  | false =>
    have other : ¬decide (r.gate.shortSignal = true ∧ r.leg.posDir ≥ 0 ∧
        r.confirm.pendBarS < 0) = true :=
      fun armed => absurd (of_decide_eq_true armed).2.2 (not_lt.mpr waits)
    exact if_neg other

/-- What the confirmation frame lets through. -/
theorem confGo_iff (used : m.cfg.useConfTf = true) :
    (r.confirmBar m rolled).confGo long = true ↔
      rolled = true ∧ (∃ cb, r.confirm.conf5.done.getLast? = some cb ∧ strong m long cb = true) ∧
        r.clock.inSession = true ∧ r.clock.inDateRange = true ∧ 0 ≤ r.latchedBar long := by
  unfold confGo confirmBar latchedBar
  simp only [used, ↓reduceIte]
  unfold drop settle
  have same : r.pend.conf5.done = r.confirm.conf5.done := rfl
  simp only [same]
  cases r.confirm.conf5.done.getLast? with
  | none =>
    cases long with
    | true => simp
    | false => simp
  | some cb =>
    cases rolled with
    | false =>
      cases long with
      | true => simp
      | false => simp
    | true =>
      cases long with
      | true => simp [and_assoc, and_comm]
      | false => simp [and_assoc, and_comm]

/-- The frame lets nothing through where it is not used. -/
theorem useConfTf_of_confGo (go : (r.confirmBar m rolled).confGo long = true) :
    m.cfg.useConfTf = true := by
  by_contra unused
  unfold confGo confirmBar at go
  rw [if_neg unused] at go
  cases long with
  | true => cases go
  | false => cases go

/-- An entry that is made passed the guardrails on its bar, or is late. -/
theorem wanted_guarded (read : Read m bar s r) (warm : r.warmedUp m = true)
    (opens : (r.confirmBar m rolled).mayOpen m long = some true) :
    r.GuardsOpen m ∨ Late m rolled long r := by
  have guarded (signal : r.signalled long = true) : r.GuardsOpen m := by
    obtain ⟨ok, isOk, guardedL, guardedS⟩ := read.signals
    have passed : ok = true := by
      cases long with
      | true => exact guardedL signal
      | false => exact guardedS signal
    exact guardsOk_open (passed ▸ isOk)
  obtain ⟨wanted, size⟩ := mayOpen_iff.mp opens
  unfold wants at wanted
  simp only [Bool.and_eq_true, Bool.or_eq_true, decide_eq_true_eq,
    Bool.not_eq_eq_eq_not, Bool.not_true] at wanted
  obtain ⟨⟨direct | go, side⟩, free⟩ := wanted
  · exact Or.inl (guarded direct.1)
  · obtain ⟨rolls, isStrong, session, range, latched⟩ :=
      (confGo_iff (useConfTf_of_confGo go)).mp go
    rcases waiting_of_latched latched with waits | signal
    · exact Or.inr ⟨rolls, waits, isStrong, session, range, side, free, warm, size⟩
    · exact Or.inl (guarded signal)

/-- What is late is wanted. -/
theorem Late.mayOpen (late : Late m rolled long r) (used : m.cfg.useConfTf = true) :
    (r.confirmBar m rolled).mayOpen m long = some true := by
  refine mayOpen_iff.mpr ⟨?_, late.size⟩
  have go : (r.confirmBar m rolled).confGo long = true := (confGo_iff used).mpr
    ⟨late.rolls, late.strong, late.inSession, late.inDateRange,
      (latchedBar_of_waiting late.waits).symm ▸ late.waits⟩
  unfold confGo at go
  unfold wants
  simp only [Bool.and_eq_true, Bool.or_eq_true, decide_eq_true_eq,
    Bool.not_eq_eq_eq_not, Bool.not_true]
  exact ⟨⟨Or.inr go, late.side⟩, late.exitPending⟩

/-- An entry of the step is one that the guardrails let through on its bar. -/
def GuardsBind (m : MtfDesk) (s : MtfStrategy) (_ : MtfEvent) (t : MtfStrategy) : Prop :=
  Opens s t → ∃ r, s.readBar m s.curBar = some r ∧ r.GuardsOpen m

/-- No late entry finds a guardrail closed. -/
def LateGuarded (m : MtfDesk) (s : MtfStrategy) (event : MtfEvent) (_ : MtfStrategy) : Prop :=
  EndsBar s event → ∀ r, s.readBar m s.curBar = some r →
    ∀ long, Late m (s.confRolled m s.curBar) long r → r.GuardsOpen m

/-- Reading a bar marks the bar. -/
theorem Read.entryless (read : Read m bar s r) : Entryless s r := by
  refine ⟨[.bar bar], read.marks, ?_⟩
  intro c inside
  cases List.mem_singleton.mp inside

/-- Acting on a bar marks an entry exactly if a side may be opened. -/
theorem act_opens {reply : MtfReply} (acts : r.act m bar reply rolled = some t) :
    Opens r t ↔ ∃ long, (r.confirmBar m rolled).mayOpen m long = some true := by
  obtain ⟨e, entered, isT⟩ := act_cases acts
  have confirms : Entryless r (r.confirmBar m rolled) := Entryless.of_same rfl
  have exits : Entryless e t := by
    rw [isT]
    exact (manage_entryless reply e).trans (endSession_entryless reply _)
  constructor
  · intro opens
    rcases enter_cases entered with ⟨long, may, _⟩ | ⟨_, isE⟩
    · exact ⟨long, may⟩
    · have still : Entryless (r.confirmBar m rolled) e := Entryless.of_same (by rw [isE])
      exact absurd opens ((confirms.trans still).trans exits).not_opens
  · rintro ⟨long, may⟩
    rcases enter_cases entered with ⟨side, _, isE⟩ | ⟨idle, _⟩
    · have spent : Entryless ((r.confirmBar m rolled).openPosition m reply side bar.close
          ((r.confirmBar m rolled).entryReason m side)) e := Entryless.of_same (by rw [isE]; rfl)
      exact (((openPosition_opens reply side _ _ _).before spent).after confirms).before exits
    · exact absurd may (idle long)

/-- A completed bar marks an entry exactly if it is acted on with a side that may be opened. -/
theorem handled_opens {reply : MtfReply} (handles : Handles m bar reply s t) :
    Opens s t ↔ bar.volume ≠ 0 ∧ ∃ r long, s.readBar m bar = some r ∧ r.warmedUp m = true ∧
      (r.confirmBar m (s.confRolled m bar)).mayOpen m long = some true := by
  cases handles with
  | empty blank =>
    have still : ¬Opens s s := (Entryless.of_same rfl).not_opens
    simp [still, blank]
  | cold r traded reads early =>
    have read : Entryless s r.closeBar := (readBar_read reads).entryless.trans
      (Entryless.of_same rfl)
    constructor
    · exact fun opens => absurd opens read.not_opens
    · rintro ⟨_, other, _, again, ready, _⟩
      cases Option.some.inj (reads.symm.trans again)
      exact absurd ready early
  | warm r a traded reads ready acts =>
    have read := (readBar_read reads).entryless
    have closes : Entryless a a.closeBar := Entryless.of_same rfl
    constructor
    · intro opens
      obtain ⟨later, grown, _⟩ := (act_kept acts).marks
      have here : Opens r a := opens.since read ⟨later, grown⟩
      obtain ⟨long, may⟩ := (act_opens acts).mp here
      exact ⟨traded, r, long, reads, ready, may⟩
    · rintro ⟨_, other, long, again, _, may⟩
      cases Option.some.inj (reads.symm.trans again)
      exact (((act_opens acts).mpr ⟨long, may⟩).after read).before closes

/-- No other event than a tick marks an entry. -/
theorem take_entryless (other : ∀ reply tick, event ≠ .tick reply tick)
    (taken : s.take m event = some t) : Entryless s t := by
  cases event with
  | tick reply tick => exact absurd rfl (other reply tick)
  | tradeFilled c =>
    cases Option.some.inj taken
    exact notifyTradeFilled_entryless c s
  | entryFilled dir avg =>
    cases Option.some.inj taken
    unfold notifyEntryFilled
    split
    · exact Entryless.of_same rfl
    · exact Entryless.of_same rfl
  | referenceBar high low close =>
    obtain ⟨ref, _, isT⟩ := Option.bind_eq_some_iff.mp taken
    cases Option.some.inj isT
    exact Entryless.of_same rfl
  | timeFlatten reply etHour etMin =>
    cases Option.some.inj taken
    unfold checkTimeFlatten
    split
    · exact (Entryless.of_same rfl).trans (callBack_entryless rfl reply _)
    · exact Entryless.of_same rfl
  | halt reason =>
    cases Option.some.inj taken
    exact Entryless.of_same rfl
  | unhalt =>
    cases Option.some.inj taken
    unfold unhaltTrading
    split
    · exact Entryless.of_same rfl
    · exact Entryless.of_same rfl
  | resetSession =>
    cases Option.some.inj taken
    exact Entryless.of_same rfl
  | seedState trades pnl total =>
    cases Option.some.inj taken
    exact Entryless.of_same rfl
  | seedTradesToday n =>
    cases Option.some.inj taken
    exact Entryless.of_same rfl

/-- A step marks an entry exactly if it completes a bar on which a side may be opened. -/
theorem take_opens (taken : s.take m event = some t) :
    Opens s t ↔ EndsBar s event ∧ ∃ r long, s.readBar m s.curBar = some r ∧
      r.warmedUp m = true ∧
      (r.confirmBar m (s.confRolled m s.curBar)).mayOpen m long = some true := by
  cases event with
  | tick reply tick =>
    cases onTick_ticks taken with
    | within cur price goesOn =>
      have quiet : ¬Opens s { s with curBar := cur, lastPrice := price } :=
        (Entryless.of_same rfl).not_opens
      simp [quiet, not_endsBar_of_goesOn goesOn]
    | across h cur price running started ends handled =>
      have same : Opens s { h with curBar := cur, lastPrice := price } ↔ Opens s h := Iff.rfl
      rw [same, handled_opens (handles handled)]
      exact and_congr_left fun _ => ⟨fun traded => ⟨running, started, ends, traded⟩,
        fun completes => completes.2.2.2⟩
  | _ =>
    have quiet := (take_entryless (by rintro _ _ ⟨⟩) taken).not_opens
    simp [quiet, EndsBar]

/-- The guardrails bind the entry of a step exactly if they bind the late ones. -/
theorem guardsBind_iff (taken : s.take m event = some t) :
    GuardsBind m s event t ↔ LateGuarded m s event t := by
  constructor
  · intro binds completes r reads long late
    have used : m.cfg.useConfTf = true := by
      have rolls := late.rolls
      unfold confRolled at rolls
      simp only [Bool.and_eq_true] at rolls
      exact rolls.1.1
    have opens : Opens s t := (take_opens taken).mpr
      ⟨completes, r, long, reads, late.warm, late.mayOpen used⟩
    obtain ⟨other, again, guarded⟩ := binds opens
    cases Option.some.inj (reads.symm.trans again)
    exact guarded
  · intro lateOnes opens
    obtain ⟨completes, r, long, reads, warm, may⟩ := (take_opens taken).mp opens
    refine ⟨r, reads, ?_⟩
    rcases wanted_guarded (readBar_read reads) warm may with guarded | late
    · exact guarded
    · exact lateOnes completes r reads long late

end MtfStrategy

open MtfStrategy

/-- Along every run the guardrails bind every entry exactly if no signal that waited for the
confirmation frame is taken on a bar on which a guardrail is closed. -/
theorem guardrails_bind_iff (m : MtfDesk) (start : MtfStrategy) (events : List MtfEvent) :
    Each (take m) (GuardsBind m) start events ↔ Each (take m) (LateGuarded m) start events :=
  have exact_ (s : MtfStrategy) (event : MtfEvent) (t : MtfStrategy) (_ : True)
      (taken : s.take m event = some t) : GuardsBind m s event t ↔ LateGuarded m s event t :=
    guardsBind_iff taken
  each_iff_of_invariant exact_ (fun _ _ _ _ _ => trivial) trivial

/-- Signals of the oscillator, confirmed on five minutes, with a cooldown after each loss. -/
def confirmedDesk : MtfDesk where
  cfg := {
    useMtf := false, useRegime := false, regimeDirOnly := false, useFvg := false
    useLevels := false, useOnset := false, useAtrFloor := false, useSession := false
    warmupBars := 0, triggerMode := "stoch", stochKLen := 1, stochKSmooth := 1, stochDLen := 2
    emaFastLen := 1, emaSlowLen := 3, requirePriceBeyondFast := false, useOscExit := false
    useTimeStop := false, useTrendExit := false, useBreakeven := false, atrLen := 1
    useConfTf := true, confTfMin := 5, cooldownAfterLosses := 1 }
  sqrt := id

/-- The trades of a minute. -/
def tradesOf (minute : Int) (prices : List ℚ) : List MtfEvent :=
  prices.map fun price => .tick (fun _ => [])
    { tsMicros := (28927800 + minute) * 60000000, price := price }

/-- A short is confirmed and opened, a long is signalled, and then the short is stopped out
with a loss. Four minutes later the frame completes. -/
def shortThenLong : List MtfEvent :=
  tradesOf 0 [100, 110, 90, 104] ++ tradesOf 1 [104, 110, 90, 96] ++
    tradesOf 2 [96, 110, 90, 98] ++ tradesOf 3 [98, 140, 98, 138] ++
    tradesOf 4 [100, 110, 90, 98] ++ tradesOf 5 [98, 100, 85, 90] ++
    tradesOf 6 [90, 118, 90, 110] ++ tradesOf 7 [111] ++
    [.tradeFilled { dir := .sell, pnl := -200 }] ++ tradesOf 7 [112] ++
    tradesOf 8 [114] ++ tradesOf 9 [116] ++ tradesOf 10 [118]

/-- The long is opened on the fourth bar after the loss, within a cooldown of five. -/
theorem late_entry_in_cooldown :
    confirmedDesk.cfg.validate = .ok () ∧ ∃ s event t,
      confirmedDesk.play shortThenLong = some s ∧ s.take confirmedDesk event = some t ∧
      Opens s t ∧ s.guards.lastLossBar = 6 ∧ t.barIndex = 10 ∧
      confirmedDesk.cfg.cooldownBars = 5 ∧ ¬GuardsBind confirmedDesk s event t := by
  let event : MtfEvent := .tick (fun _ => []) { tsMicros := 28927811 * 60000000, price := 120 }
  have runs : (confirmedDesk.play shortThenLong).any (fun s =>
      (s.take confirmedDesk event).any fun t => (s.readBar confirmedDesk s.curBar).any fun r =>
        decide (t.marks = s.marks ++ [.bar s.curBar, .call ⟨.buy, 118, "conf_long"⟩] ∧
          s.guards.lastLossBar = 6 ∧ t.barIndex = 10 ∧
          ¬r.barIndex - r.guards.lastLossBar > 5)) = true := by
    decide +kernel
  obtain ⟨s, arrives, later⟩ := (Option.any_eq_true _ _).mp runs
  obtain ⟨t, taken, rest⟩ := (Option.any_eq_true _ _).mp later
  obtain ⟨r, reads, holds⟩ := (Option.any_eq_true _ _).mp rest
  obtain ⟨marked, lost, opened, cooling⟩ := of_decide_eq_true holds
  have opens : Opens s t := ⟨_, _, marked, List.mem_cons_of_mem _ (List.mem_singleton.mpr rfl), rfl⟩
  refine ⟨by decide +kernel, s, event, t, arrives, taken, opens, lost, opened, rfl, ?_⟩
  intro binds
  obtain ⟨other, again, guarded⟩ := binds opens
  cases Option.some.inj (reads.symm.trans again)
  exact cooling (guarded.cooldown rfl)

end RithmicEngine
