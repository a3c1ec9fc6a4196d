import RithmicEngine.Base.Grouping
import RithmicEngine.Base.Runs
import RithmicEngine.Execution.TrendOutcomes
/-!
# The bars of the trend engine are the batch bars

The bars handed to the modes against the ticks grouped by Eastern date and bucket of
minutes. The engine compares minutes of the day alone, so the two agree as long as the ticks
around a change of date lie apart on the clock; and it hands a bar over at its last minute,
or else once a minute of another bar is complete.
-/
namespace RithmicEngine

open Runs Grouping

/-! ## Eastern minutes -/

/-- Seconds of the Eastern wall clock since 1970. -/
def easternSec (tsUs : Int) : Int :=
  tsUs.tdiv 1000000 - usEtOffset (gmtime (tsUs.tdiv 1000000)) * 3600

/-- The Eastern minute of a tick, its date and its minute of the day. -/
def minuteOf (t : OrbTick) : Int := easternSec t.tsMicros / 60

def dateOf (t : OrbTick) : Int := minuteOf t / 1440

def minuteOfDay (t : OrbTick) : Int := minuteOf t % 1440

/-- The minute of the source is the Eastern minute of the day. -/
theorem etMod_eq {t : OrbTick} (since : 0 ≤ easternSec t.tsMicros) :
    etMod t.tsMicros = minuteOfDay t := by
  obtain ⟨sec, isSec⟩ : ∃ sec, sec = easternSec t.tsMicros := ⟨_, rfl⟩
  have hour : (sec.tdiv 3600).tmod 24 = sec / 3600 % 24 := by
    rw [Int.tdiv_eq_ediv_of_nonneg (by omega), Int.tmod_eq_emod_of_nonneg (by omega)]
  have minute : (sec.tmod 3600).tdiv 60 = sec % 3600 / 60 := by
    rw [Int.tmod_eq_emod_of_nonneg (by omega), Int.tdiv_eq_ediv_of_nonneg (by omega)]
  unfold etMod utcToEt minuteOfDay minuteOf
  change (if ((easternSec t.tsMicros).tdiv 3600).tmod 24 < 0 then _
    else ((easternSec t.tsMicros).tdiv 3600).tmod 24) * 60 +
      ((easternSec t.tsMicros).tmod 3600).tdiv 60 = _
  rw [← isSec, hour, minute, if_neg (by omega)]
  omega

/-- The bar that a tick belongs to. -/
def barKey (tf : Int) (t : OrbTick) : Int × Int := (dateOf t, minuteOfDay t / tf)

/-- The tick lies in the last minute of its bar. -/
def EndsBar (tf : Int) (t : OrbTick) : Prop := (minuteOfDay t + 1) / tf ≠ minuteOfDay t / tf
deriving Decidable

/-- Two ticks in a row: the Eastern minute does not fall, and where the date changes neither
the minute of the day is the same nor an unfinished bucket of them. -/
structure Follows (tf : Int) (a b : OrbTick) : Prop where
  later : minuteOf a ≤ minuteOf b
  apart : dateOf a ≠ dateOf b → minuteOfDay a ≠ minuteOfDay b
  unmixed : dateOf a ≠ dateOf b → minuteOfDay a / tf = minuteOfDay b / tf → EndsBar tf a

/-! ## Candles -/

structure Candle where
  o : ℚ
  h : ℚ
  l : ℚ
  c : ℚ
  v : ℚ
  bv : ℚ
  deriving DecidableEq, Repr

def Bar.candle (b : Bar) : Candle where
  o := b.o
  h := b.h
  l := b.l
  c := b.c
  v := b.v
  bv := b.bv

/-- The candle of some ticks in order: the first price, the extremes, the last price, the
volume and the aggressors' buy volume. -/
def candleOf : List OrbTick → Candle
  | [] => ⟨0, 0, 0, 0, 0, 0⟩
  | t :: rest => {
    o := t.price
    h := rest.foldl (fun h x => max h x.price) t.price
    l := rest.foldl (fun l x => min l x.price) t.price
    c := (rest.getLast?.getD t).price
    v := ((t :: rest).map fun x => (x.size : ℚ)).sum
    bv := ((t :: rest).map fun x => if x.isBuy then (x.size : ℚ) else 0).sum }

/-- A candle after another print. -/
def Candle.print (t : OrbTick) (k : Candle) : Candle where
  o := k.o
  h := max k.h t.price
  l := min k.l t.price
  c := t.price
  v := k.v + t.size
  bv := k.bv + if t.isBuy then (t.size : ℚ) else 0

/-- A candle and the one that follows it. -/
def Candle.merge (later k : Candle) : Candle where
  o := k.o
  h := max k.h later.h
  l := min k.l later.l
  c := later.c
  v := k.v + later.v
  bv := k.bv + later.bv

variable {tf : Int} {grp done : List OrbTick} {u : OrbTick} {b cur : Bar} {ticks : List OrbTick}
  (t : OrbTick)

theorem candleOf_snoc (some : ticks ≠ []) : candleOf (ticks ++ [t]) = (candleOf ticks).print t := by
  cases ticks with
  | nil => exact absurd rfl some
  | cons first rest =>
    simp [candleOf, Candle.print, add_assoc]

theorem Candle.merge_print (k later : Candle) (t : OrbTick) :
    (later.print t).merge k = (later.merge k).print t := by
  simp only [Candle.merge, Candle.print, max_assoc, min_assoc, add_assoc]

/-- The candle of two stretches merges their candles. -/
theorem candleOf_append {first second : List OrbTick} (some : first ≠ []) (more : second ≠ []) :
    candleOf (first ++ second) = (candleOf second).merge (candleOf first) := by
  induction second using List.reverseRecOn with
  | nil => exact absurd rfl more
  | append_singleton rest t ih =>
    rcases rest.eq_nil_or_concat with none | ⟨_, _, isRest⟩
    · rw [none, List.nil_append, candleOf_snoc t some]
      simp [candleOf, Candle.merge, Candle.print]
    · have left : rest ≠ [] := by
        rw [isRest, List.concat_eq_append]
        exact List.concat_ne_nil _ _
      rw [← List.append_assoc, candleOf_snoc t (List.append_ne_nil_of_left_ne_nil some rest),
        candleOf_snoc t left, ih left, Candle.merge_print]

theorem candle_printed (b : Bar) (t : OrbTick) : (b.printed t).candle = b.candle.print t := by
  unfold Bar.printed Bar.candle Candle.print
  cases t.isBuy with
  | false => simp
  | true => simp

theorem candle_opened (mod : Int) (t : OrbTick) : (Bar.opened mod t).candle = candleOf [t] := by
  unfold Bar.opened Bar.candle candleOf
  cases isBuy : t.isBuy with
  | false => simp [isBuy]
  | true => simp [isBuy]

theorem candle_merge (later b : Bar) : (later.merge b).candle = later.candle.merge b.candle := rfl

/-! ## The bars in progress -/

/-- The part of the engine that gathers ticks into bars: the minute and the bar in progress,
and the bars handed over. -/
structure Gathering where
  m1 : Bar
  cur : Bar
  passed : List Bar

namespace Gathering

def minute (tf : Int) (b : Bar) (g : Gathering) : Gathering :=
  let next := aggregate tf b g.cur
  { g with cur := next.1, passed := g.passed ++ next.2 }

def tick (tf mod : Int) (t : OrbTick) (g : Gathering) : Gathering :=
  if g.m1.mod ≠ mod then
    let g := if g.m1.mod ≥ 0 then g.minute tf g.m1 else g
    { g with m1 := Bar.opened mod t }
  else { g with m1 := g.m1.printed t }

end Gathering

/-- The bars among the marks. -/
def barsOf (marks : List TrendMark) : List Bar :=
  marks.filterMap fun mark => match mark with
    | .bar b => some b
    | _ => none

theorem barsOf_append (first second : List TrendMark) :
    barsOf (first ++ second) = barsOf first ++ barsOf second := List.filterMap_append

namespace TrendStrategy

variable {m : TrendMoment} {b : Bar} {s t : TrendStrategy}

def gathering (s : TrendStrategy) : Gathering where
  m1 := s.m1
  cur := s.tfCur
  passed := barsOf s.marks

theorem gathering_of_frame (frame : Frame s t) (bars : barsOf t.marks = barsOf s.marks) :
    t.gathering = s.gathering := by
  unfold gathering
  rw [frame.m1, frame.tfCur, bars]

theorem Quiet.gathering (idle : Quiet s t) : t.gathering = s.gathering :=
  gathering_of_frame idle.toFrame (congrArg barsOf idle.marks)

theorem Decides.gathering (decides : Decides m s t) : t.gathering = s.gathering := by
  apply gathering_of_frame decides.frame
  rcases decides.marks with same | ⟨c, called⟩
  · rw [same]
  · have none : barsOf (.call c :: told m c) = [] := by
      unfold told
      split_ifs
      · rfl
      · rfl
    rw [called, barsOf_append, none, List.append_nil]

theorem stray_gathering : (s.orStray none).gathering = s.gathering := by
  unfold orStray gathering
  rw [barsOf_append]
  exact congrArg (Gathering.mk s.m1 s.tfCur) (List.append_nil _)

theorem Acts.gathering {body : Option TrendStrategy} (acts : Acts m s body) :
    (s.orStray body).gathering = s.gathering := by
  cases isBody : body with
  | none => exact stray_gathering
  | some t => exact (acts t isBody).gathering

/-- A bar handed to the modes is the only change that the bars in progress see of it. -/
theorem onTfClose_gathering :
    (s.onTfClose m b).gathering = { s.gathering with passed := s.gathering.passed ++ [b] } := by
  have pushed : (s.pushBar b).gathering =
      { s.gathering with passed := s.gathering.passed ++ [b] } := by
    unfold pushBar gathering
    rw [barsOf_append]
    rfl
  obtain ⟨u, isU⟩ : ∃ u, u = (s.pushBar b).orStray ((s.pushBar b).indicators m b) := ⟨_, rfl⟩
  have measured : u.gathering = (s.pushBar b).gathering := by
    rw [isU]
    unfold indicators
    cases (s.pushBar b).nextAtr m b with
    | none => exact stray_gathering
    | some atr => rfl
  have decided : (u.decideBar m b).gathering = u.gathering := by
    dsimp only [decideBar]
    split_ifs
    · rfl
    · exact (decides_flatten.after (followBest_quiet (m := m) (b := b))).gathering
    · exact (Acts.gathering (barMode_acts (b := b))).trans followBest_quiet.gathering
  dsimp only [onTfClose]
  rw [← isU, decided, measured, pushed]

/-- Closing a minute puts it into the bar in progress, and hands the bar over where it ends. -/
theorem closeBars_gathering : (s.closeBars m b).gathering = s.gathering.minute m.tc.tf b := by
  have all (bars : List Bar) (u : TrendStrategy) :
      (bars.foldl (fun s bar => s.onTfClose m bar) u).gathering =
        { u.gathering with passed := u.gathering.passed ++ bars } := by
    induction bars generalizing u with
    | nil => rw [List.append_nil]; rfl
    | cons bar rest ih =>
      rw [List.foldl_cons, ih, onTfClose_gathering]
      simp only [List.append_assoc, List.singleton_append]
  have closed := all (aggregate m.tc.tf b s.tfCur).2 s
  unfold closeBars Gathering.minute
  change ({ gathering _ with cur := _ } : Gathering) = _
  rw [closed]
  rfl

/-- The close of a minute gathers it and does nothing else to the bars. -/
theorem onM1Close_gathering : (s.onM1Close m b).gathering = s.gathering.minute m.tc.tf b := by
  have recorded : ((s.recordMinute b).timeStop m b).gathering = s.gathering :=
    timeStop_decides.gathering
  have remembered (u : TrendStrategy) : u.recordSession.gathering = u.gathering := by
    unfold recordSession
    split_ifs
    · rfl
    · rfl
  have sampled (u : TrendStrategy) : (u.sampleHtf m b).gathering = u.gathering := by
    unfold sampleHtf
    split_ifs
    · rfl
    · rfl
  dsimp only [onM1Close]
  rw [Acts.gathering minuteMode_acts, sampled, remembered, closeBars_gathering, recorded]

/-- A tick moves the gathering of bars by itself alone, whatever the gates decide. -/
theorem onTick_gathering {tick : OrbTick} :
    (s.onTick m tick).gathering = s.gathering.tick m.tc.tf (etMod tick.tsMicros) tick := by
  obtain ⟨u, isU⟩ : ∃ u, u = s.arrive m tick (etMod tick.tsMicros) := ⟨_, rfl⟩
  have arrived : u.gathering = s.gathering := by
    rw [isU]
    exact arrive_quiet.gathering
  have tracked : (u.trackMinute m tick (etMod tick.tsMicros)).gathering =
      u.gathering.tick m.tc.tf (etMod tick.tsMicros) tick := by
    have isM1 : u.gathering.m1 = u.m1 := rfl
    dsimp only [trackMinute, Gathering.tick]
    rw [isM1]
    split_ifs with other open_
    · have closed := onM1Close_gathering (m := m) (b := u.m1) (s := u)
      change ({ gathering _ with m1 := _ } : Gathering) = _
      rw [closed]
    · rfl
    · rfl
  dsimp only [onTick]
  rw [← isU, trackDelta_quiet.gathering, tracked, arrived]

end TrendStrategy

/-! ## Batch and stream -/

def candleAt (tf : Int) (ticks : List OrbTick) (k : Int × Int) : Candle :=
  candleOf (group (barKey tf) k ticks)

/-- The bars that have been handed over once these ticks are in completed minutes: each bar
but the last, and the last one if its last minute is over. -/
def passedKeys (tf : Int) (done : List OrbTick) : List (Int × Int) :=
  match done.getLast? with
  | none => []
  | some d => if EndsBar tf d then keys (barKey tf) done else (keys (barKey tf) done).dropLast

/-- What the bar in progress and the bars handed over are, with these ticks in completed
minutes: none yet, or the last bar has ended, or it is in progress. -/
inductive Settled (tf : Int) : List OrbTick → Bar → List Bar → Prop
  | start (cur : Bar) (closed : cur.mod < 0) : Settled tf [] cur []
  | ended (done : List OrbTick) (d : OrbTick) (front : List (Int × Int)) (cur : Bar)
    (passed : List Bar) (isLast : done.getLast? = some d)
    (isKeys : keys (barKey tf) done = front ++ [barKey tf d]) (lone : barKey tf d ∉ front)
    (ends : EndsBar tf d) (closed : cur.mod < 0)
    (bars : passed.map Bar.candle = (front ++ [barKey tf d]).map (candleAt tf done)) :
    Settled tf done cur passed
  | pending (done : List OrbTick) (d : OrbTick) (front : List (Int × Int)) (cur : Bar)
    (passed : List Bar) (isLast : done.getLast? = some d)
    (isKeys : keys (barKey tf) done = front ++ [barKey tf d]) (lone : barKey tf d ∉ front)
    (unended : ¬EndsBar tf d) (opened : 0 ≤ cur.mod) (bucket : cur.mod / tf = minuteOfDay d / tf)
    (candle : cur.candle = candleAt tf done (barKey tf d))
    (bars : passed.map Bar.candle = front.map (candleAt tf done)) :
    Settled tf done cur passed

/-- The bars handed over are those of the ticks in them. -/
theorem Settled.bars {passed : List Bar} (settled : Settled tf done cur passed) :
    passed.map Bar.candle = (passedKeys tf done).map (candleAt tf done) := by
  cases settled with
  | start cur closed => rfl
  | ended _ d front _ _ isLast isKeys lone ends closed bars =>
    unfold passedKeys
    rw [isLast, bars, ← isKeys]
    simp only [if_pos ends]
  | pending _ d front _ _ isLast isKeys lone unended opened bucket candle bars =>
    unfold passedKeys
    rw [isLast, bars]
    simp only [if_neg unended, isKeys, List.dropLast_concat]

/-- A bucket that has ended comes to no later minute of its day, and a minute between two of
one bar belongs to it. -/
theorem barKey_ended {d t : OrbTick} (frame : 0 < tf) (ends : EndsBar tf d)
    (later : minuteOf d < minuteOf t) : barKey tf d ≠ barKey tf t := by
  intro same
  have date : minuteOf d / 1440 = minuteOf t / 1440 := congrArg Prod.fst same
  have bucket : minuteOf d % 1440 / tf = minuteOf t % 1440 / tf := congrArg Prod.snd same
  have next : minuteOf d % 1440 + 1 ≤ minuteOf t % 1440 := by omega
  have upper := Int.ediv_le_ediv frame next
  have lower : minuteOf d % 1440 / tf ≤ (minuteOf d % 1440 + 1) / tf :=
    Int.ediv_le_ediv frame (by omega)
  apply ends
  change (minuteOf d % 1440 + 1) / tf = minuteOf d % 1440 / tf
  omega

/-- Between two minutes of one bar all are of that bar. -/
theorem barKey_between {t d : OrbTick} (frame : 0 < tf) (same : barKey tf t = barKey tf u)
    (first : minuteOf t ≤ minuteOf d) (second : minuteOf d ≤ minuteOf u) :
    barKey tf d = barKey tf u := by
  have date : minuteOf t / 1440 = minuteOf u / 1440 := congrArg Prod.fst same
  have bucket : minuteOf t % 1440 / tf = minuteOf u % 1440 / tf := congrArg Prod.snd same
  have sameDate : minuteOf d / 1440 = minuteOf u / 1440 := by omega
  have lower : minuteOf t % 1440 / tf ≤ minuteOf d % 1440 / tf :=
    Int.ediv_le_ediv frame (by omega)
  have upper : minuteOf d % 1440 / tf ≤ minuteOf u % 1440 / tf :=
    Int.ediv_le_ediv frame (by omega)
  exact Prod.ext sameDate (by change minuteOf d % 1440 / tf = minuteOf u % 1440 / tf; omega)

/-! ## One more minute -/

/-- The ticks of a completed minute, and the bar that was made of them. -/
structure Minute (grp : List OrbTick) (u : OrbTick) (b : Bar) : Prop where
  isLast : grp.getLast? = some u
  same : ∀ t ∈ grp, minuteOf t = minuteOf u
  mod : b.mod = minuteOfDay u
  candle : b.candle = candleOf grp

theorem Minute.ne_nil (minute : Minute grp u b) : grp ≠ [] := by
  intro none
  rw [none] at minute
  exact nomatch minute.isLast

theorem Minute.key (minute : Minute grp u b) (tf : Int) : ∀ t ∈ grp, barKey tf t = barKey tf u := by
  intro t inside
  unfold barKey dateOf minuteOfDay
  rw [minute.same t inside]

theorem Minute.last {grp : List OrbTick} {u : OrbTick} {b : Bar} (minute : Minute grp u b)
    (done : List OrbTick) : (done ++ grp).getLast? = some u := by
  rw [List.getLast?_append, minute.isLast]
  rfl

/-- The bar of a completed minute, as the start of a bar of the frame. -/
def startOf (tf : Int) (b : Bar) : Bar := { b with mod := b.mod.tdiv tf * tf }

/-- The bar in progress and the bars handed over, after its last minute or another. -/
def handOver (tf : Int) (b cur : Bar) : Bar × List Bar :=
  if (b.mod + 1).tdiv tf ≠ b.mod.tdiv tf then ({ cur with mod := -1 }, [cur]) else (cur, [])

theorem aggregate_closed (closed : cur.mod < 0) :
    aggregate tf b cur = handOver tf b (startOf tf b) := by
  unfold aggregate handOver startOf
  simp only [decide_eq_true closed, Bool.true_or, if_true, true_and, ge_iff_le,
    if_neg (not_le.mpr closed), List.nil_append]

/-- A minute of the same bar is merged into it. -/
theorem aggregate_same (opened : 0 ≤ cur.mod) (same : cur.mod.tdiv tf = b.mod.tdiv tf) :
    aggregate tf b cur = handOver tf b (b.merge cur) := by
  unfold aggregate handOver
  have stale : (decide (cur.mod < 0) || decide (cur.mod.tdiv tf ≠ b.mod.tdiv tf)) = false := by
    simp only [Bool.or_eq_false_iff, decide_eq_false_iff_not, not_lt, not_not]
    exact ⟨opened, same⟩
  simp only [stale, Bool.false_eq_true, false_and, if_false, List.nil_append]

/-- A minute of another bar hands the old one over. -/
theorem aggregate_other (opened : 0 ≤ cur.mod) (other : cur.mod.tdiv tf ≠ b.mod.tdiv tf) :
    aggregate tf b cur =
      ((handOver tf b (startOf tf b)).1, cur :: (handOver tf b (startOf tf b)).2) := by
  unfold aggregate handOver startOf
  have fresh : (decide (cur.mod < 0) || decide (cur.mod.tdiv tf ≠ b.mod.tdiv tf)) = true := by
    rw [decide_eq_true other, Bool.or_true]
  simp only [fresh, true_and, if_true, ge_iff_le, if_pos opened]
  split_ifs
  · rfl
  · rfl

/-- After a minute: the bar in progress is that of these ticks, and it is handed over if this
is its last minute. -/
theorem handOver_settled {tf : Int} {ticks : List OrbTick} {u : OrbTick}
    {front : List (Int × Int)} {b cur : Bar} {passed : List Bar}
    (isLast : ticks.getLast? = some u) (isKeys : keys (barKey tf) ticks = front ++ [barKey tf u])
    (lone : barKey tf u ∉ front) (mod : b.mod = minuteOfDay u) (opened : 0 ≤ cur.mod)
    (bucket : cur.mod / tf = minuteOfDay u / tf)
    (candle : cur.candle = candleAt tf ticks (barKey tf u))
    (bars : passed.map Bar.candle = front.map (candleAt tf ticks)) :
    Settled tf ticks (handOver tf b cur).1 (passed ++ (handOver tf b cur).2) := by
  have day : 0 ≤ minuteOfDay u := by
    unfold minuteOfDay
    omega
  have test : (b.mod + 1).tdiv tf ≠ b.mod.tdiv tf ↔ EndsBar tf u := by
    unfold EndsBar
    rw [mod, Int.tdiv_eq_ediv_of_nonneg (by omega), Int.tdiv_eq_ediv_of_nonneg day]
  unfold handOver
  by_cases ends : EndsBar tf u
  · rw [if_pos (test.mpr ends)]
    apply Settled.ended ticks u front _ _ isLast isKeys lone ends
      (by change (-1 : Int) < 0; decide)
    rw [List.map_append, bars, List.map_append]
    exact congrArg (fun c => front.map (candleAt tf ticks) ++ [c]) candle
  · rw [if_neg (fun ended => ends (test.mp ended)), List.append_nil]
    exact Settled.pending ticks u front cur passed isLast isKeys lone ends opened bucket candle bars

theorem Minute.others (minute : Minute grp u b) {ks : List (Int × Int)} (apart : barKey tf u ∉ ks) :
    ks.map (candleAt tf (done ++ grp)) = ks.map (candleAt tf done) := by
  apply List.map_congr_left
  intro k inside
  have other : k ≠ barKey tf u := fun same => apart (same ▸ inside)
  unfold candleAt
  rw [group_append_other (minute.key tf) other]

/-- The bar that starts with a minute is that of its ticks so far. -/
theorem Minute.starts (minute : Minute grp u b) (new : barKey tf u ∉ keys (barKey tf) done) :
    (startOf tf b).candle = candleAt tf (done ++ grp) (barKey tf u) := by
  unfold candleAt
  rw [group_append_same (minute.key tf), group_eq_nil new, List.nil_append]
  exact minute.candle

/-- A minute lies in the bar that its minute of the day gives. -/
theorem Minute.place (minute : Minute grp u b) (frame : 0 < tf) :
    b.mod.tdiv tf = minuteOfDay u / tf ∧ 0 ≤ (startOf tf b).mod ∧
      (startOf tf b).mod / tf = minuteOfDay u / tf := by
  have day : 0 ≤ minuteOfDay u := by
    unfold minuteOfDay
    omega
  have quotient : b.mod.tdiv tf = minuteOfDay u / tf := by
    rw [minute.mod, Int.tdiv_eq_ediv_of_nonneg day]
  refine ⟨quotient, ?_, ?_⟩
  · change 0 ≤ b.mod.tdiv tf * tf
    rw [quotient]
    exact Int.mul_nonneg (Int.ediv_nonneg day frame.le) frame.le
  · change b.mod.tdiv tf * tf / tf = _
    rw [Int.mul_ediv_cancel _ frame.ne', quotient]

/-- The ticks of one more completed minute settle in the bars. -/
theorem Settled.minute (frame : 0 < tf) {passed : List Bar} (settled : Settled tf done cur passed)
    (minute : Minute grp u b)
    (ordered : ∀ d, done.getLast? = some d → (∀ t ∈ done, minuteOf t ≤ minuteOf d) ∧
      minuteOf d < minuteOf u ∧
      (dateOf d ≠ dateOf u → minuteOfDay d / tf = minuteOfDay u / tf → EndsBar tf d)) :
    Settled tf (done ++ grp) (aggregate tf b cur).1 (passed ++ (aggregate tf b cur).2) := by
  have isLast := minute.last done
  have keyed := minute.key tf
  obtain ⟨quotient, opened, bucket⟩ := minute.place frame
  cases settled with
  | start _ closed =>
    have new : barKey tf u ∉ keys (barKey tf) [] := by
      intro old
      obtain ⟨_, inside, _⟩ := (mem_keys _).mp old
      exact nomatch inside
    rw [aggregate_closed closed]
    exact @handOver_settled tf grp u [] b (startOf tf b) [] isLast
      (keys_append_new minute.ne_nil keyed new) List.not_mem_nil minute.mod opened bucket
      (minute.starts new) rfl
  | ended _ d front _ _ dLast isKeys lone ends closed bars =>
    obtain ⟨sorted, later, _⟩ := ordered d dLast
    have new : barKey tf u ∉ keys (barKey tf) done := by
      intro old
      obtain ⟨t, inside, same⟩ := (mem_keys _).mp old
      exact barKey_ended frame ends later (barKey_between frame same (sorted t inside) later.le)
    rw [aggregate_closed closed]
    apply handOver_settled isLast (keys_append_new minute.ne_nil keyed new) new minute.mod
      opened bucket (minute.starts new)
    rw [bars, minute.others new, isKeys]
  | pending _ d front _ _ dLast isKeys lone unended curOpened curBucket candle bars =>
    obtain ⟨sorted, later, unmixed⟩ := ordered d dLast
    have curQuotient : cur.mod.tdiv tf = minuteOfDay d / tf := by
      rw [Int.tdiv_eq_ediv_of_nonneg curOpened, curBucket]
    by_cases same : barKey tf d = barKey tf u
    · have sameBucket : minuteOfDay d / tf = minuteOfDay u / tf := congrArg Prod.snd same
      have old : barKey tf u ∈ keys (barKey tf) done := by
        rw [isKeys, same]
        exact List.mem_append_right _ (List.mem_singleton_self _)
      rw [same] at isKeys lone candle
      rw [aggregate_same curOpened (by rw [curQuotient, quotient, sameBucket])]
      apply @handOver_settled tf _ u front b (b.merge cur) passed isLast
        ((keys_append_old keyed old).trans isKeys) lone minute.mod curOpened
        (curBucket.trans sameBucket)
      · unfold candleAt at candle ⊢
        rw [group_append_same keyed, candleOf_append (group_ne_nil old) minute.ne_nil,
          candle_merge, minute.candle, candle]
      · rw [bars, minute.others lone]
    · have new : barKey tf u ∉ keys (barKey tf) done := by
        intro old
        obtain ⟨t, inside, isU⟩ := (mem_keys _).mp old
        exact same (barKey_between frame isU (sorted t inside) later.le)
      have apart : minuteOfDay d / tf ≠ minuteOfDay u / tf := by
        intro sameBucket
        by_cases date : dateOf d = dateOf u
        · exact same (Prod.ext date sameBucket)
        · exact unended (unmixed date sameBucket)
      rw [aggregate_other curOpened (by rw [curQuotient, quotient]; exact apart)]
      rw [List.append_cons]
      apply handOver_settled isLast (keys_append_new minute.ne_nil keyed new) new minute.mod
        opened bucket (minute.starts new)
      rw [List.map_append, bars, minute.others new, isKeys, List.map_append]
      exact congrArg (fun c => front.map (candleAt tf done) ++ [c]) candle

/-! ## Runs -/

/-- The ticks in completed minutes, which is to say before the minute of the last one. -/
def completed (ticks : List OrbTick) : List OrbTick :=
  match ticks.getLast? with
  | none => []
  | some u => ticks.filter fun t => decide (minuteOf t ≠ minuteOf u)

/-- What the minute and the bar in progress are after some ticks. -/
inductive Gathered (tf : Int) : List OrbTick → Gathering → Prop
  | start (g : Gathering) (unopened : g.m1.mod < 0) (closed : g.cur.mod < 0)
    (none : g.passed = []) : Gathered tf [] g
  | going (done grp : List OrbTick) (u : OrbTick) (g : Gathering) (minute : Minute grp u g.m1)
    (before : ∀ t ∈ done, minuteOf t < minuteOf u)
    (ordered : ∀ d, done.getLast? = some d → (∀ t ∈ done, minuteOf t ≤ minuteOf d) ∧
      minuteOf d < minuteOf u ∧
      (dateOf d ≠ dateOf u → minuteOfDay d / tf = minuteOfDay u / tf → EndsBar tf d))
    (settled : Settled tf done g.cur g.passed) : Gathered tf (done ++ grp) g

/-- The bars passed on are the completed minutes' candles, key by key. -/
theorem Gathered.bars {g : Gathering} (gathered : Gathered tf ticks g) :
    g.passed.map Bar.candle =
      (passedKeys tf (completed ticks)).map (candleAt tf (completed ticks)) := by
  cases gathered with
  | start _ _ _ none =>
    rw [none]
    rfl
  | going done grp u _ minute before ordered settled =>
    have isDone : completed (done ++ grp) = done := by
      have kept : done.filter (fun t => decide (minuteOf t ≠ minuteOf u)) = done := by
        apply List.filter_eq_self.mpr
        intro t inside
        exact decide_eq_true (before t inside).ne
      have dropped : grp.filter (fun t => decide (minuteOf t ≠ minuteOf u)) = [] := by
        apply List.filter_eq_nil_iff.mpr
        intro t inside isOther
        exact of_decide_eq_true isOther (minute.same t inside)
      unfold completed
      rw [minute.last done]
      simp only [List.filter_append, kept, dropped, List.append_nil]
    rw [isDone]
    exact settled.bars

theorem minute_opened (mod : Int) (t : OrbTick) (isMod : mod = minuteOfDay t) :
    Minute [t] t (Bar.opened mod t) where
  isLast := rfl
  same := by
    intro x inside
    rw [List.mem_singleton.mp inside]
  mod := isMod
  candle := candle_opened mod t

/-- A print of the same minute belongs to its bar. -/
theorem Minute.printed {t : OrbTick} (minute : Minute grp u b) (same : minuteOf t = minuteOf u) :
    Minute (grp ++ [t]) t (b.printed t) where
  isLast := List.getLast?_concat
  same := by
    intro x inside
    rcases List.mem_append.mp inside with old | new
    · rw [minute.same x old, same]
    · rw [List.mem_singleton.mp new]
  mod := by
    unfold minuteOfDay
    rw [same]
    exact minute.mod
  candle := by
    rw [candle_printed, candleOf_snoc t minute.ne_nil, minute.candle]

/-- One more tick. -/
theorem Gathered.tick (frame : 0 < tf) {g : Gathering} (gathered : Gathered tf ticks g)
    (t : OrbTick) (mod : Int) (isMod : mod = minuteOfDay t)
    (follows : ∀ u, ticks.getLast? = some u → Follows tf u t) :
    Gathered tf (ticks ++ [t]) (g.tick tf mod t) := by
  have day (x : OrbTick) : 0 ≤ minuteOfDay x := by
    unfold minuteOfDay
    omega
  unfold Gathering.tick
  cases gathered with
  | start _ unopened closed none =>
    have other : g.m1.mod ≠ mod := by
      have low := day t
      omega
    rw [if_pos other, if_neg (not_le.mpr unopened)]
    apply Gathered.going [] [t] t _ (minute_opened mod t isMod)
    · exact fun _ inside => nomatch inside
    · exact fun _ isLast => nomatch isLast
    · rw [none]
      exact Settled.start g.cur closed
  | going done grp u _ minute before ordered settled =>
    have next := follows u (minute.last done)
    by_cases same : minuteOf t = minuteOf u
    · have alike : g.m1.mod = mod := by
        rw [minute.mod, isMod]
        unfold minuteOfDay
        rw [same]
      rw [if_neg (not_not.mpr alike), List.append_assoc]
      apply Gathered.going done (grp ++ [t]) t _ (minute.printed same)
      · intro x inside
        rw [same]
        exact before x inside
      · unfold dateOf minuteOfDay at ordered ⊢
        rw [same]
        exact ordered
      · exact settled
    · have later : minuteOf u < minuteOf t := by
        have notBefore := next.later
        omega
      have other : g.m1.mod ≠ mod := by
        rw [minute.mod, isMod]
        by_cases date : dateOf u = dateOf t
        · unfold dateOf at date
          unfold minuteOfDay
          omega
        · exact next.apart date
      rw [if_pos other, if_pos (by rw [minute.mod]; exact day u)]
      apply Gathered.going (done ++ grp) [t] t _ (minute_opened mod t isMod)
      · intro x inside
        rcases List.mem_append.mp inside with old | recent
        · exact (before x old).trans later
        · rw [minute.same x recent]
          exact later
      · intro d isLast
        have isU : d = u := Option.some.inj (isLast.symm.trans (minute.last done))
        rw [isU]
        refine ⟨?_, later, next.unmixed⟩
        intro x inside
        rcases List.mem_append.mp inside with old | recent
        · exact (before x old).le
        · exact (minute.same x recent).le
      · exact settled.minute frame minute ordered

/-- The ticks among the events. -/
def ticksOf (events : List TrendEvent) : List OrbTick :=
  events.filterMap fun e => match e with
    | .tick t _ => some t
    | _ => none

namespace TrendDesk

open TrendStrategy

variable (desk : TrendDesk)

/-- Only a tick moves the bars in progress. -/
theorem handle_gathering (s : TrendStrategy) (e : TrendEvent) :
    (desk.handle s e).gathering = match e with
      | .tick t _ => s.gathering.tick desk.tc.tf (etMod t.tsMicros) t
      | _ => s.gathering := by
  have snoc (marks : List TrendMark) (mark : TrendMark) (other : barsOf [mark] = []) :
      barsOf (marks ++ [mark]) = barsOf marks := by
    rw [barsOf_append, other, List.append_nil]
  cases e with
  | tick t closes => exact onTick_gathering
  | quote tsUs bid bidSz ask askSz tick closes => exact onQuote_decides.gathering
  | endOfDay h m closes => exact checkEod_decides.gathering
  | reference close => rfl
  | halt why => rfl
  | unhalt =>
    change s.unhaltTrading.gathering = s.gathering
    unfold unhaltTrading
    split_ifs
    · rfl
    · rfl
  | seedTrades n => exact gathering_of_frame ⟨rfl, rfl, rfl, rfl, rfl⟩ (snoc s.marks _ rfl)
  | seedPosition dir entryTsUs => rfl
  | closed => exact gathering_of_frame ⟨rfl, rfl, rfl, rfl, rfl⟩ (snoc s.marks _ rfl)
  | reset => exact gathering_of_frame ⟨rfl, rfl, rfl, rfl, rfl⟩ (snoc s.marks _ rfl)
  | eventDay on => rfl
  | eventNextDay on => rfl
  | dayAtr pts => rfl

theorem tf_pos (cfg : TrendConfig) : 0 < cfg.tf := by
  unfold TrendConfig.tf
  split_ifs
  · decide
  · omega

/-- Along a run the bars gathered are those of the ticks so far. -/
theorem gathered_run (events : List TrendEvent)
    (since : ∀ t ∈ ticksOf events, 0 ≤ easternSec t.tsMicros)
    (follows : (ticksOf events).IsChain (Follows desk.tc.tf)) :
    Gathered desk.tc.tf (ticksOf events) (run desk.handle {} events).gathering := by
  induction events using List.reverseRecOn with
  | nil =>
    have unopened : (-1 : Int) < 0 := by decide
    exact Gathered.start _ unopened unopened rfl
  | append_singleton events e ih =>
    have split : ticksOf (events ++ [e]) = ticksOf events ++ ticksOf [e] := List.filterMap_append
    rw [split] at since follows ⊢
    obtain ⟨earlier, _, joined⟩ := List.isChain_append.mp follows
    have before := ih (fun t inside => since t (List.mem_append_left _ inside)) earlier
    rw [run_append, run_cons, run_nil, handle_gathering]
    cases e with
    | tick t closes =>
      apply before.tick (tf_pos desk.tc) t _ (etMod_eq (since t _))
      · intro u isLast
        exact joined u isLast t rfl
      · exact List.mem_append_right _ (List.mem_singleton_self t)
    | _ => exact (List.append_nil _).symm ▸ before

/-- If the Eastern minutes of the ticks do not fall and ticks of different dates lie apart on
the clock, the bars handed to the modes are the batch bars of the completed minutes, each
once: every bar but the last, and the last one if its last minute is over. -/
theorem bars_are_batch (events : List TrendEvent)
    (since : ∀ t ∈ ticksOf events, 0 ≤ easternSec t.tsMicros)
    (follows : (ticksOf events).IsChain (Follows desk.tc.tf)) :
    (barsOf (run desk.handle {} events).marks).map Bar.candle =
      (passedKeys desk.tc.tf (completed (ticksOf events))).map
        (candleAt desk.tc.tf (completed (ticksOf events))) :=
  (gathered_run desk events since follows).bars

/-- A tick of one lot, told apart by its time and its price. -/
def lot (sec : Int) (price : ℚ) : TrendEvent :=
  .tick { tsMicros := sec * 1000000, price := price } fun _ => false

/-- Two ticks at 10:00 Eastern a day apart, and one a minute later. -/
def twoMornings : List TrendEvent := [lot 1746021600 100, lot 1746108000 200, lot 1746108060 300]

/-- Ticks at 10:01 and 10:07 Eastern. -/
def skippedMinute : List TrendEvent := [lot 1746021660 100, lot 1746022020 200]

def minuteDesk : TrendDesk where
  tc := { tfMin := 1 }
  sqrt := id

def fiveMinuteDesk : TrendDesk where
  sqrt := id

/-- Ticks at 01:00 and 01:01 Eastern on the morning on which the clock is set back, an hour
before that and after it. -/
def repeatedHour : List TrendEvent :=
  [lot 1762059600 100, lot 1762059660 200, lot 1762063200 300, lot 1762063260 400]

/-- Ticks in the last Eastern minute before 1970 and in the first two after. -/
def newYear : List TrendEvent := [lot 17940 100, lot 18000 200, lot 18060 300]

/-- The two mornings make one bar; a bar whose last minute was skipped is not handed over with
the next tick; the minute that the clock repeats makes two bars; and the minute before 1970
makes none. -/
theorem bars_are_not_batch :
    ((barsOf (run minuteDesk.handle {} twoMornings).marks).map Bar.candle =
        [⟨100, 200, 100, 200, 2, 2⟩] ∧
      (keys (barKey 1) (ticksOf twoMornings)).map (candleAt 1 (ticksOf twoMornings)) =
        [⟨100, 100, 100, 100, 1, 1⟩, ⟨200, 200, 200, 200, 1, 1⟩, ⟨300, 300, 300, 300, 1, 1⟩]) ∧
    (barsOf (run fiveMinuteDesk.handle {} skippedMinute).marks = [] ∧
      keys (barKey 5) (ticksOf skippedMinute) = [(20208, 120), (20208, 121)]) ∧
    ((barsOf (run minuteDesk.handle {} repeatedHour).marks).length = 3 ∧
      keys (barKey 1) (ticksOf repeatedHour) = [(20394, 60), (20394, 61)]) ∧
    ((barsOf (run minuteDesk.handle {} newYear).marks).map Bar.candle =
        [⟨200, 200, 200, 200, 1, 1⟩] ∧
      keys (barKey 1) (ticksOf newYear) = [(-1, 1439), (0, 0), (0, 1)]) := by
  decide +kernel

/-- A morning's three minutes, whose bars of one minute are handed over in turn. -/
def threeMinutes : List TrendEvent := [lot 1746021600 100, lot 1746021660 102, lot 1746021720 104]

/-- The bars of three minutes, as the witness runs them. -/
theorem bars_of_three_minutes :
    (barsOf (run minuteDesk.handle {} threeMinutes).marks).map Bar.candle =
      (passedKeys 1 (completed (ticksOf threeMinutes))).map
        (candleAt 1 (completed (ticksOf threeMinutes))) := by
  apply bars_are_batch minuteDesk threeMinutes
  · decide +kernel
  · have next (a b : Int) (x y : ℚ)
        (later : easternSec (a * 1000000) / 60 ≤ easternSec (b * 1000000) / 60)
        (today : easternSec (a * 1000000) / 60 / 1440 = easternSec (b * 1000000) / 60 / 1440) :
        Follows 1 { tsMicros := a * 1000000, price := x } { tsMicros := b * 1000000, price := y } :=
      ⟨later, fun other => absurd today other, fun other => absurd today other⟩
    exact .cons_cons (next _ _ _ _ (by decide +kernel) (by decide +kernel))
      (.cons_cons (next _ _ _ _ (by decide +kernel) (by decide +kernel)) (.singleton _))

end TrendDesk

end RithmicEngine
