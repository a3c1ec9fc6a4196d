import RithmicEngine.Execution.MtfSteps
/-!
# Seeded guardrails

A strategy that has just been built knows no trading day, so the first bar that it completes
starts one, and the trades and the profit that it was seeded with are gone. They survive the
ticks of a quiet run exactly while no bar with volume has completed, or where there was
nothing to lose.
-/
namespace RithmicEngine

open PartialRuns

/-- A trade is opened or closed. -/
def MtfMark.isTrade : MtfMark → Bool
  | .bar _ => false
  | .call c => c.isEntry
  | .closed => true

/-- The bars that ticks complete, from the bar in progress on. -/
def builtBars : MinuteBar → List OrbTick → List MinuteBar
  | _, [] => []
  | cur, t :: rest =>
    let curMin := MtfStrategy.minuteOfTick t
    let cur := if cur.minuteUtc < 0 then { cur with minuteUtc := curMin } else cur
    if curMin ≠ cur.minuteUtc then
      cur :: builtBars (({ minuteUtc := curMin } : MinuteBar).update t.price t.size) rest
    else builtBars (cur.update t.price t.size) rest

section

variable {cur : MinuteBar} {t : OrbTick} (rest : List OrbTick)

theorem builtBars_start (unset : cur.minuteUtc < 0) : builtBars cur (t :: rest) =
    builtBars (({ cur with minuteUtc := MtfStrategy.minuteOfTick t } : MinuteBar).update
      t.price t.size) rest := by
  rw [builtBars]
  simp only [if_pos unset, ne_eq, not_true_eq_false, ↓reduceIte]

theorem builtBars_within (set_ : ¬cur.minuteUtc < 0)
    (within : MtfStrategy.minuteOfTick t = cur.minuteUtc) :
    builtBars cur (t :: rest) = builtBars (cur.update t.price t.size) rest := by
  rw [builtBars]
  simp only [if_neg set_, within, ne_eq, not_true_eq_false, ↓reduceIte]

theorem builtBars_across (set_ : ¬cur.minuteUtc < 0)
    (across : MtfStrategy.minuteOfTick t ≠ cur.minuteUtc) :
    builtBars cur (t :: rest) = cur ::
      builtBars (({ minuteUtc := MtfStrategy.minuteOfTick t } : MinuteBar).update t.price t.size)
        rest := by
  rw [builtBars]
  simp only [if_neg set_, if_pos across]

end

namespace MtfStrategy

variable {m : MtfDesk} {bar : MinuteBar} {s t : MtfStrategy}

/-- No trade was opened or closed. -/
def Quiet (s : MtfStrategy) : Prop := ∀ mark ∈ s.marks, mark.isTrade = false
deriving Decidable

theorem Books.quiet (books : Books s t) (quiet : t.Quiet) : s.Quiet := by
  obtain ⟨_, _, _, marks, _⟩ := books
  intro mark inside
  exact quiet mark (List.mem_append_left _ inside)

/-! ## What a quiet bar does -/

/-- The guardrails, the day and the halt are the same. -/
structure Unmoved (s t : MtfStrategy) : Prop where
  guards : t.guards = s.guards
  dayKey : t.clock.dayKey = s.clock.dayKey
  riskHalted : t.riskHalted = s.riskHalted

theorem Unmoved.trans {r : MtfStrategy} (first : Unmoved s t) (second : Unmoved t r) :
    Unmoved s r where
  guards := second.guards.trans first.guards
  dayKey := second.dayKey.trans first.dayKey
  riskHalted := second.riskHalted.trans first.riskHalted

/-- A report that marks no trade leaves the guardrails. -/
theorem notifyTradeFilled_unmoved {c : MtfClose} (quiet : (s.notifyTradeFilled m c).Quiet) :
    Unmoved s (s.notifyTradeFilled m c) := by
  unfold notifyTradeFilled at quiet ⊢
  split_ifs at quiet ⊢ with release matches_
  · exact ⟨rfl, rfl, rfl⟩
  · exact absurd (quiet .closed (List.mem_append_right _ (List.mem_singleton.mpr rfl))) (by decide)
  · exact absurd (quiet .closed (List.mem_append_right _ (List.mem_singleton.mpr rfl))) (by decide)

/-- Reports that mark no trade leave the guardrails. -/
theorem notifyAll_unmoved {closes : List MtfClose}
    (quiet : (closes.foldl (fun s close => s.notifyTradeFilled m close) s).Quiet) :
    Unmoved s (closes.foldl (fun s close => s.notifyTradeFilled m close) s) := by
  induction closes generalizing s with
  | nil => exact ⟨rfl, rfl, rfl⟩
  | cons close rest ih =>
    have before : (s.notifyTradeFilled m close).Quiet := (notifyAll_books rest _).quiet quiet
    exact (notifyTradeFilled_unmoved before).trans (ih quiet)

variable {reply : MtfReply}

theorem callBack_unmoved {c : MtfCall} (quiet : (s.callBack m reply c).Quiet) :
    Unmoved s (s.callBack m reply c) := by
  have marked : Unmoved s { s with marks := s.marks ++ [MtfMark.call c] } := ⟨rfl, rfl, rfl⟩
  exact marked.trans (notifyAll_unmoved quiet)

theorem emitFlatten_unmoved {reason : String} (quiet : (s.emitFlatten m bar reply reason).Quiet) :
    Unmoved s (s.emitFlatten m bar reply reason) := by
  have pending : Unmoved s { s with leg := { s.leg with exitPending := true } } := ⟨rfl, rfl, rfl⟩
  exact pending.trans (callBack_unmoved quiet)

/-- Managing that marks no trade leaves the guardrails. -/
theorem manage_unmoved (quiet : (s.manage m bar reply).Quiet) :
    Unmoved s (s.manage m bar reply) := by
  unfold manage at quiet ⊢
  split_ifs at quiet ⊢ with open_
  · unfold updateExits at quiet ⊢
    dsimp only at quiet ⊢
    have moved : Unmoved s { s with leg := s.nextBracket m bar } := ⟨rfl, rfl, rfl⟩
    split at quiet
    · exact moved.trans (emitFlatten_unmoved quiet)
    · exact moved
  · exact ⟨rfl, rfl, rfl⟩

theorem endSession_unmoved (quiet : (s.endSession m bar reply).Quiet) :
    Unmoved s (s.endSession m bar reply) := by
  unfold endSession at quiet ⊢
  dsimp only at quiet ⊢
  split_ifs at quiet ⊢ with ends
  · exact emitFlatten_unmoved quiet
  · exact ⟨rfl, rfl, rfl⟩

/-- An entry is not quiet. -/
theorem openPosition_loud {long : Bool} {price : ℚ} {reason : String} :
    ¬(s.openPosition m reply long price reason).Quiet := by
  intro quiet
  unfold openPosition callBack at quiet
  have before := (notifyAll_books _ _).quiet quiet
  have entry := before (.call ⟨if long then .buy else .sell, price, reason⟩)
    (List.mem_append_right _ (List.mem_singleton.mpr rfl))
  cases long with
  | true => cases entry
  | false => cases entry

theorem enter_quiet (entered : s.enter m bar reply = some t) (quiet : t.Quiet) : t = s := by
  rcases enter_cases entered with ⟨long, _, isT⟩ | ⟨_, isT⟩
  · rw [isT] at quiet
    exact absurd quiet openPosition_loud
  · exact isT

/-- A bar on which no trade is opened or closed leaves the guardrails. -/
theorem act_unmoved {rolled : Bool} (acts : s.act m bar reply rolled = some t) (quiet : t.Quiet) :
    Unmoved s t := by
  obtain ⟨e, entered, isT⟩ := act_cases acts
  rw [isT] at quiet ⊢
  have quietManaged : (e.manage m bar reply).Quiet := (endSession_books reply _).quiet quiet
  have quietEntered : e.Quiet := (manage_books reply e).quiet quietManaged
  have same := enter_quiet entered quietEntered
  have confirmed : Unmoved s e := by
    rw [same]
    exact ⟨rfl, rfl, rfl⟩
  exact (confirmed.trans (manage_unmoved quietManaged)).trans (endSession_unmoved quiet)

/-- After a quiet bar with volume the guardrails are those of its trading day. -/
theorem Handles.unmoved (handles : Handles m bar reply s t) (quiet : t.Quiet)
    (traded : bar.volume ≠ 0) :
    t.guards = (s.rollDay m bar).guards ∧
      t.clock.dayKey = globexDay m bar ∧ t.riskHalted = s.riskHalted := by
  cases handles with
  | empty blank => exact absurd blank traded
  | cold r _ reads _ =>
    have read := readBar_read reads
    exact ⟨read.guards, read.dayKey, read.riskHalted⟩
  | warm r a _ reads _ acts =>
    have read := readBar_read reads
    have unmoved := act_unmoved acts quiet
    exact ⟨unmoved.guards.trans read.guards, unmoved.dayKey.trans read.dayKey,
      unmoved.riskHalted.trans read.riskHalted⟩

/-! ## Runs of ticks -/

/-- The counters that a trading day starts over. -/
def counters (s : MtfStrategy) : Int × Double := (s.guards.tradesToday, s.guards.dayClosedPnl)

/-- A bar that starts no trading day for a strategy that knows none: it has no volume, or its
day has the number that stands for none, which no date from 1970 on has. -/
def Unrolled (m : MtfDesk) (b : MinuteBar) : Prop := b.volume = 0 ∨ globexDay m b = -1
deriving Decidable

theorem rollDay_counters (s : MtfStrategy) : (s.rollDay m bar).counters =
    if globexDay m bar ≠ s.clock.dayKey then (0, 0) else s.counters := by
  unfold counters rollDay
  by_cases same : globexDay m bar = s.clock.dayKey
  · simp [same]
  · simp [same]

/-- A tick of a running strategy: it goes on with the bar in progress, or completes it. -/
theorem onTick_cases {tick : OrbTick} (running : s.riskHalted = false)
    (ticked : s.onTick m reply tick = some t) :
    ((∃ cur price, t = { s with curBar := cur, lastPrice := price }) ∧
        ∀ rest, builtBars s.curBar (tick :: rest) = builtBars t.curBar rest) ∨
      (∃ h cur price, s.handleCompletedBar m s.curBar reply = some h ∧
        t = { h with curBar := cur, lastPrice := price }) ∧
        ∀ rest, builtBars s.curBar (tick :: rest) = s.curBar :: builtBars t.curBar rest := by
  unfold onTick at ticked
  rw [if_neg (by simp [running])] at ticked
  obtain ⟨b, built, isT⟩ := Option.bind_eq_some_iff.mp ticked
  cases Option.some.inj isT
  unfold buildBar at built
  dsimp only at built
  by_cases unset : s.curBar.minuteUtc < 0
  · rw [if_pos unset, if_neg (not_not.mpr rfl)] at built
    cases Option.some.inj built
    exact Or.inl ⟨⟨_, _, rfl⟩, fun rest => builtBars_start rest unset⟩
  · rw [if_neg unset] at built
    by_cases within : minuteOfTick tick = s.curBar.minuteUtc
    · rw [if_neg (not_not.mpr within)] at built
      cases Option.some.inj built
      exact Or.inl ⟨⟨_, _, rfl⟩, fun rest => builtBars_within rest unset within⟩
    · rw [if_pos within] at built
      obtain ⟨h, handled, isB⟩ := Option.bind_eq_some_iff.mp built
      cases Option.some.inj isB
      exact Or.inr ⟨⟨h, _, _, handled, rfl⟩, fun rest => builtBars_across rest unset within⟩

theorem Kept.quiet (kept : Kept s t) (quiet : t.Quiet) : s.Quiet := by
  obtain ⟨later, isT, _⟩ := kept.marks
  intro mark inside
  exact quiet mark (by rw [isT]; exact List.mem_append_left _ inside)

theorem Steps.quiet (steps : Steps m s t) (quiet : t.Quiet) : s.Quiet := by
  cases steps with
  | still kept => exact kept.quiet quiet
  | bar b r traded read kept =>
    intro mark inside
    exact kept.quiet quiet mark (by rw [read.marks]; exact List.mem_append_left _ inside)

theorem reach_quiet {events : List MtfEvent} (arrives : reach (take m) s events = some t)
    (quiet : t.Quiet) : s.Quiet := by
  induction events generalizing s with
  | nil =>
    cases Option.some.inj arrives
    exact quiet
  | cons event rest ih =>
    obtain ⟨next, taken, later⟩ := Option.bind_eq_some_iff.mp arrives
    exact (take_steps taken).quiet (ih later)

/-- A completed bar of a quiet run: none at all without volume, and the roll of its day. -/
theorem handled_quiet (handled : s.handleCompletedBar m bar reply = some t) (quiet : t.Quiet) :
    t.riskHalted = s.riskHalted ∧
      (bar.volume = 0 ∧ t = s ∨ bar.volume ≠ 0 ∧ t.clock.dayKey = globexDay m bar ∧
        t.counters = if globexDay m bar ≠ s.clock.dayKey then (0, 0) else s.counters) := by
  by_cases blank : bar.volume = 0
  · unfold handleCompletedBar at handled
    rw [if_pos blank] at handled
    cases Option.some.inj handled
    exact ⟨rfl, Or.inl ⟨blank, rfl⟩⟩
  · obtain ⟨guards, dayKey, halted⟩ := (handles handled).unmoved quiet blank
    refine ⟨halted, Or.inr ⟨blank, dayKey, ?_⟩⟩
    rw [← rollDay_counters]
    unfold counters
    rw [guards]

/-- The events of some ticks. -/
def ticksOf (ticks : List (MtfReply × OrbTick)) : List MtfEvent :=
  ticks.map fun tick => .tick tick.1 tick.2

/-- Counters that are zero stay so over a quiet run of ticks. -/
theorem zero_stays {ticks : List (MtfReply × OrbTick)} (running : s.riskHalted = false)
    (arrives : reach (take m) s (ticksOf ticks) = some t) (quiet : t.Quiet)
    (zero : s.counters = (0, 0)) : t.counters = (0, 0) := by
  induction ticks generalizing s with
  | nil =>
    cases Option.some.inj arrives
    exact zero
  | cons tick rest ih =>
    obtain ⟨next, taken, later⟩ := Option.bind_eq_some_iff.mp arrives
    have quietNext : next.Quiet := reach_quiet later quiet
    rcases onTick_cases running taken with
      ⟨⟨cur, price, isNext⟩, _⟩ | ⟨⟨h, cur, price, handled, isNext⟩, _⟩
    · have same : next.counters = s.counters := by rw [isNext]; rfl
      exact ih (by rw [isNext]; exact running) later (same.trans zero)
    · have same : next.counters = h.counters := by rw [isNext]; rfl
      obtain ⟨halted, moved⟩ := handled_quiet handled (by rw [isNext] at quietNext; exact quietNext)
      refine ih (by rw [isNext]; exact halted.trans running) later (same.trans ?_)
      rcases moved with ⟨_, isH⟩ | ⟨_, _, counted⟩
      · rw [isH, zero]
      · rw [counted, zero, ite_self]

/-- The counters of a strategy that knows no trading day after a quiet run of ticks. -/
theorem counters_run {ticks : List (MtfReply × OrbTick)} (running : s.riskHalted = false)
    (unknown : s.clock.dayKey = -1) (arrives : reach (take m) s (ticksOf ticks) = some t)
    (quiet : t.Quiet) : t.counters =
      if ∀ b ∈ builtBars s.curBar (ticks.map Prod.snd), Unrolled m b then s.counters
      else (0, 0) := by
  induction ticks generalizing s with
  | nil =>
    cases Option.some.inj arrives
    simp [builtBars]
  | cons tick rest ih =>
    obtain ⟨next, taken, later⟩ := Option.bind_eq_some_iff.mp arrives
    have quietNext : next.Quiet := reach_quiet later quiet
    rw [List.map_cons]
    rcases onTick_cases running taken with
      ⟨⟨cur, price, isNext⟩, goes⟩ | ⟨⟨h, cur, price, handled, isNext⟩, ends⟩
    · have same : next.counters = s.counters := by rw [isNext]; rfl
      rw [goes, ← same]
      exact ih (by rw [isNext]; exact running) (by rw [isNext]; exact unknown) later
    · have same : next.counters = h.counters := by rw [isNext]; rfl
      obtain ⟨halted, moved⟩ := handled_quiet handled (by rw [isNext] at quietNext; exact quietNext)
      have nextRunning : next.riskHalted = false := by rw [isNext]; exact halted.trans running
      rw [ends]
      by_cases unrolled : Unrolled m s.curBar
      · have still : h.clock.dayKey = -1 ∧ h.counters = s.counters := by
          rcases moved with ⟨_, isH⟩ | ⟨traded, dayKey, counted⟩
          · rw [isH]
            exact ⟨unknown, rfl⟩
          · have sentinel : globexDay m s.curBar = -1 := unrolled.resolve_left traded
            exact ⟨dayKey.trans sentinel,
              counted.trans (if_neg (not_not.mpr (sentinel.trans unknown.symm)))⟩
        have goesOn := ih nextRunning (by rw [isNext]; exact still.1) later
        simpa [unrolled, same, still.2] using goesOn
      · have zero : h.counters = (0, 0) := by
          rcases moved with ⟨blank, _⟩ | ⟨_, _, counted⟩
          · exact absurd (Or.inl blank) unrolled
          · refine counted.trans (if_pos ?_)
            rw [unknown]
            exact fun isOne => unrolled (Or.inr isOne)
        have ended := zero_stays nextRunning later quiet (same.trans zero)
        simpa [unrolled] using ended

end MtfStrategy

open MtfStrategy

/-- The host's two ways of seeding a strategy, with the profit that is seeded. -/
inductive Seeds (m : MtfDesk) (n : Int) (s : MtfStrategy) : ℚ → MtfStrategy → Prop
  | state (p total : ℚ) : Seeds m n s p (s.seedState m n p total)
  | trades : Seeds m n s 0 (s.seedTradesToday n)

/-- Seeds survive a quiet run of ticks exactly if no bar of a trading day completes in it, or
if they are zero. -/
theorem seeds_survive_iff {m : MtfDesk} {built seeded t : MtfStrategy} {n : Int} {p : ℚ}
    (ticks : List (MtfReply × OrbTick)) (fresh : m.fresh = some built)
    (seeds : Seeds m n built p seeded)
    (arrives : reach (take m) seeded (ticksOf ticks) = some t) (quiet : t.Quiet) :
    (t.guards.tradesToday = n ∧ t.guards.dayClosedPnl = p) ↔
      (∀ b ∈ builtBars {} (ticks.map Prod.snd), Unrolled m b) ∨ (n = 0 ∧ p = 0) := by
  obtain ⟨window, _, isBuilt⟩ := Option.bind_eq_some_iff.mp fresh
  cases Option.some.inj isBuilt
  have counted : t.counters =
      if ∀ b ∈ builtBars {} (ticks.map Prod.snd), Unrolled m b then (n, (p : Double))
      else (0, 0) := by
    cases seeds with
    | state p total => exact counters_run rfl rfl arrives quiet
    | trades => exact counters_run rfl rfl arrives quiet
  have both : (t.guards.tradesToday = n ∧ t.guards.dayClosedPnl = p) ↔
      t.counters = (n, (p : Double)) := Prod.mk.injEq _ _ _ _ ▸ Iff.rfl
  rw [both, counted]
  by_cases survives : ∀ b ∈ builtBars {} (ticks.map Prod.snd), Unrolled m b
  · rw [if_pos survives]
    exact ⟨fun _ => Or.inl survives, fun _ => rfl⟩
  · rw [if_neg survives]
    constructor
    · intro ended
      obtain ⟨isN, isP⟩ := Prod.mk.inj ended
      exact Or.inr ⟨isN.symm, (Double.fin.inj isP).symm⟩
    · rintro (kept | ⟨isN, isP⟩)
      · exact absurd kept survives
      · rw [isN, isP]
        rfl

/-- The default configuration. -/
def defaultDesk : MtfDesk where
  cfg := {}
  sqrt := id

/-- A trade of the last day of 2024, some minutes after 18:00 UTC. -/
def afternoonTick (minute : Int) : MtfReply × OrbTick :=
  (fun _ => [], { tsMicros := (28927800 + minute) * 60000000, price := 100 })

/-- Ticks of one minute complete no bar, so the seeds survive them. -/
theorem seeds_survive_within_a_minute : ∃ built t, defaultDesk.fresh = some built ∧
    reach (take defaultDesk) (built.seedState defaultDesk 3 (-100) (-250))
      (ticksOf [afternoonTick 0, afternoonTick 0]) = some t ∧
    t.guards.tradesToday = 3 ∧ t.guards.dayClosedPnl = (-100 : ℚ) := by
  have runs : defaultDesk.fresh.any (fun built =>
      (reach (take defaultDesk) (built.seedState defaultDesk 3 (-100) (-250))
        (ticksOf [afternoonTick 0, afternoonTick 0])).any fun t => decide t.Quiet) = true := by
    decide +kernel
  obtain ⟨built, fresh, later⟩ := (Option.any_eq_true _ _).mp runs
  obtain ⟨t, arrives, quiet⟩ := (Option.any_eq_true _ _).mp later
  have none : ∀ b ∈ builtBars {} ([afternoonTick 0, afternoonTick 0].map Prod.snd),
      Unrolled defaultDesk b := by
    decide +kernel
  exact ⟨built, t, fresh, arrives, (seeds_survive_iff _ fresh (Seeds.state (-100) (-250)) arrives
    (of_decide_eq_true quiet)).mpr (Or.inl none)⟩

/-- The first minute that completes after a restart in the middle of a day takes the seeds
with it, on the same trading day. -/
theorem first_bar_clears_seeds :
    globexDay defaultDesk { minuteUtc := 28927800 } =
        globexDay defaultDesk { minuteUtc := 28927801 } ∧
      ∃ built t, defaultDesk.fresh = some built ∧
        reach (take defaultDesk) (built.seedState defaultDesk 3 (-100) (-250))
          (ticksOf [afternoonTick 0, afternoonTick 1]) = some t ∧ t.Quiet ∧
        t.guards.tradesToday = 0 ∧ t.guards.dayClosedPnl = 0 := by
  have runs : defaultDesk.fresh.any (fun built =>
      (reach (take defaultDesk) (built.seedState defaultDesk 3 (-100) (-250))
        (ticksOf [afternoonTick 0, afternoonTick 1])).any fun t =>
          decide (t.Quiet ∧ t.guards.tradesToday = 0 ∧ t.guards.dayClosedPnl = 0)) = true := by
    decide +kernel
  obtain ⟨built, fresh, later⟩ := (Option.any_eq_true _ _).mp runs
  obtain ⟨t, arrives, holds⟩ := (Option.any_eq_true _ _).mp later
  exact ⟨by decide +kernel, built, t, fresh, arrives, of_decide_eq_true holds⟩

end RithmicEngine
