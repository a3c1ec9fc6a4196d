import RithmicEngine.Base.Grouping
import RithmicEngine.Execution.MtfSteps
/-!
# The higher frames read completed buckets

The readings of a higher frame against the buckets of its minutes: those that came before
the bucket of the current bar, each taken together into one bar, and the same recurrences
folded over them. A frame of a positive length holds exactly these readings after every bar,
so bars that differ only inside the current bucket leave the alignment of the strategy alone.
-/
namespace RithmicEngine

open Grouping PartialRuns

/-! ## Buckets -/

/-- The number of the bucket of a bar, for a frame of some minutes. -/
def bucketOf (minutes : Int) (b : MinuteBar) : Int := b.minuteUtc.tdiv minutes

/-- Minutes that follow one another, each with trades in it. -/
@[mk_iff]
structure Orderly (bars : List MinuteBar) : Prop where
  later : bars.Pairwise fun a b => a.minuteUtc < b.minuteUtc
  traded : ∀ b ∈ bars, 0 < b.volume
  since : ∀ b ∈ bars, 0 ≤ b.minuteUtc

instance (bars : List MinuteBar) : Decidable (Orderly bars) :=
  decidable_of_iff' _ (orderly_iff ..)

/-- The bar of a bucket: its first price, its extremes, its last price and its volume. -/
def bucketBar : List MinuteBar → MinuteBar
  | [] => {}
  | b :: rest => {
    opened := b.opened
    high := rest.foldl (fun h x => max h x.high) b.high
    low := rest.foldl (fun l x => min l x.low) b.low
    close := (rest.getLast?.getD b).close
    volume := ((b :: rest).map fun x => x.volume).sum }

/-- The bars of the buckets before the one of the last bar. -/
def completedBars (minutes : Int) (bars : List MinuteBar) : List MinuteBar :=
  match bars.getLast? with
  | some last =>
    (groups (bucketOf minutes)
      (others (bucketOf minutes) (bucketOf minutes last) bars)).map bucketBar
  | none => []

/-- A bar without the minute that it started in. -/
def MinuteBar.untimed (b : MinuteBar) : MinuteBar := { b with minuteUtc := -1 }

variable {bars : List MinuteBar} {α : Type} (cap : Nat)

/-- One more bar in a bucket: high, low, close and volume move on, the open stays. -/
theorem bucketBar_snoc (some : bars ≠ []) (b : MinuteBar) :
    bucketBar (bars ++ [b]) = {
      opened := (bucketBar bars).opened
      high := max (bucketBar bars).high b.high
      low := min (bucketBar bars).low b.low
      close := b.close
      volume := (bucketBar bars).volume + b.volume } := by
  cases bars with
  | nil => exact absurd rfl some
  | cons first rest =>
    simp [bucketBar, add_assoc]

/-- The bar of a bucket of traded bars is traded. -/
theorem bucketBar_traded (some : bars ≠ []) (traded : ∀ b ∈ bars, 0 < b.volume) :
    0 < (bucketBar bars).volume := by
  induction bars using List.reverseRecOn with
  | nil => exact absurd rfl some
  | append_singleton rest b ih =>
    have last : 0 < b.volume := traded b (by simp)
    rcases rest.eq_nil_or_concat with none | ⟨_, _, isRest⟩
    · rw [none]
      simpa [bucketBar] using last
    · have more : rest ≠ [] := by
        rw [isRest, List.concat_eq_append]
        exact List.concat_ne_nil _ _
      have before : 0 < (bucketBar rest).volume :=
        ih more fun x inside => traded x (List.mem_append_left _ inside)
      rw [bucketBar_snoc more]
      exact Int.add_pos before last

theorem extend_first (b : MinuteBar) (minute : Int) :
    (b.extend { minuteUtc := minute }).untimed = bucketBar [b] := by
  simp [MinuteBar.extend, MinuteBar.untimed, bucketBar]

/-- A later bar of a bucket extends the bucket's bar. -/
theorem extend_later {cur : MinuteBar} (b : MinuteBar) (some : bars ≠ [])
    (isCur : cur.untimed = bucketBar bars) (traded : cur.volume ≠ 0) :
    (b.extend cur).untimed = bucketBar (bars ++ [b]) := by
  have higher : (if b.high > cur.high then b.high else cur.high) = max cur.high b.high := by
    rw [max_comm, max_def']
    split_ifs <;> first | rfl | grind
  have lower : (if b.low < cur.low then b.low else cur.low) = min cur.low b.low := by
    rw [min_comm, min_def']
    split_ifs <;> first | rfl | grind
  rw [bucketBar_snoc some, ← isCur]
  simp only [MinuteBar.extend, if_neg traded, higher, lower, MinuteBar.untimed]

/-! ## Readings -/

/-- What a higher frame is read for. -/
structure Readings where
  hasCompleted : Bool := false
  emaF : Double := .nan
  emaS : Double := .nan
  emaFPrev : Double := .nan
  cls : Double := .nan
  slope : Double := .nan
  atrRma : Double := .nan
  last : Option MinuteBar := none
  deriving DecidableEq

namespace Readings

variable (lenF lenS atrLen : Int)

/-- The recurrences over one more completed bar. -/
def next (r : Readings) (c : MinuteBar) : Readings :=
  let emaF := emaNext r.emaF c.close lenF
  { hasCompleted := true
    emaF := emaF
    emaS := emaNext r.emaS c.close lenS
    emaFPrev := r.emaF
    cls := c.close
    slope := if emaF ≠ .nan ∧ r.emaF ≠ .nan then emaF - r.emaF else .nan
    atrRma := rmaNext r.atrRma (trueRange c (r.last.elim .nan fun before => before.close)) atrLen
    last := some c }

def ofBars (bars : List MinuteBar) : Readings := bars.foldl (next lenF lenS atrLen) {}

theorem ofBars_snoc (bars : List MinuteBar) (c : MinuteBar) :
    ofBars lenF lenS atrLen (bars ++ [c]) =
      (ofBars lenF lenS atrLen bars).next lenF lenS atrLen c :=
  List.foldl_append

end Readings

def HtfAgg.readings (a : HtfAgg) : Readings where
  hasCompleted := a.hasCompleted
  emaF := a.emaF
  emaS := a.emaS
  emaFPrev := a.emaFPrev
  cls := a.cls
  slope := a.slope
  atrRma := a.atrRma
  last := a.done.getLast?.map MinuteBar.untimed

theorem pushCapped_last (positive : 0 < cap) (x : α) (xs : List α) :
    (pushCapped cap x xs).getLast? = some x := by
  unfold pushCapped
  split
  · next full =>
    cases xs with
    | nil => simp at full; omega
    | cons y rest => simp
  · simp

/-- The one before the newest is the newest so far. -/
theorem pushCapped_before (two : 2 ≤ cap) (x : α) (xs : List α) :
    (pushCapped cap x xs).reverse[1]? = xs.getLast? := by
  unfold pushCapped
  rcases xs.eq_nil_or_concat with none | ⟨rest, y, isXs⟩
  · subst none
    rw [if_neg (by simp; omega)]
    rfl
  · rw [isXs, List.concat_eq_append]
    split
    · next full =>
      cases rest with
      | nil =>
        simp at full
        omega
      | cons z more =>
        have last : (z :: (more ++ [y])).getLast? = some y := by
          rw [← List.cons_append, List.getLast?_concat]
        simp [last]
    · simp

theorem pushCapped_min (x : α) {xs : List α} {n : Nat} (kept : xs.length = min cap n) :
    (pushCapped cap x xs).length = min cap (n + 1) := by
  unfold pushCapped
  split
  · rw [List.length_drop, List.length_append, List.length_singleton]
    omega
  · rw [List.length_append, List.length_singleton]
    omega

namespace HtfAgg

variable {minutes lenF lenS atrLen : Int} {a after : HtfAgg} {bars : List MinuteBar} {b : MinuteBar}

/-- A completed bucket moves the readings on by its bar. -/
theorem complete_readings (a : HtfAgg) : (a.complete lenF lenS atrLen).readings =
    a.readings.next lenF lenS atrLen a.cur.untimed := by
  have before := pushCapped_before 8 (by decide) a.cur a.done
  have last := pushCapped_last 8 (by decide) a.cur a.done
  unfold complete readings Readings.next
  simp only [before, last, Option.map_some]
  cases a.done.getLast? with
  | none => rfl
  | some closed => rfl

/-- A frame in a bucket: the bars before the bucket and those in it. -/
structure At (minutes lenF lenS atrLen : Int) (first second : List MinuteBar) (a : HtfAgg) :
    Prop where
  some : second ≠ []
  inBucket : ∀ b ∈ second, bucketOf minutes b = a.bucket
  earlier : ∀ b ∈ first, bucketOf minutes b < a.bucket
  since : 0 ≤ a.bucket
  cur : a.cur.untimed = bucketBar second
  reads : a.readings =
    Readings.ofBars lenF lenS atrLen ((groups (bucketOf minutes) first).map bucketBar)
  kept : a.done.length = min 8 (groups (bucketOf minutes) first).length

/-- A frame that has been given some bars. -/
inductive Tracks (minutes lenF lenS atrLen : Int) : List MinuteBar → HtfAgg → Prop
  | fresh : Tracks minutes lenF lenS atrLen [] {}
  | within (first second : List MinuteBar) (a : HtfAgg)
      (here : At minutes lenF lenS atrLen first second a) :
      Tracks minutes lenF lenS atrLen (first ++ second) a

variable {first second : List MinuteBar}

theorem At.others (here : At minutes lenF lenS atrLen first second a) :
    others (bucketOf minutes) a.bucket (first ++ second) = first := by
  apply others_append here.inBucket
  intro b inside
  exact ne_of_lt (here.earlier b inside)

/-- The completed bars are those of the groups before the current one. -/
theorem At.completed (here : At minutes lenF lenS atrLen first second a) :
    completedBars minutes (first ++ second) = (groups (bucketOf minutes) first).map bucketBar := by
  obtain ⟨last, isLast⟩ : ∃ last, second.getLast? = Option.some last :=
    ⟨_, List.getLast?_eq_some_getLast here.some⟩
  have bucket : bucketOf minutes last = a.bucket :=
    here.inBucket last (List.mem_of_getLast? isLast)
  unfold completedBars
  rw [List.getLast?_append, isLast]
  simp only [Option.some_or, bucket, here.others]

/-- The bar in progress has volume. -/
theorem At.traded (here : At minutes lenF lenS atrLen first second a)
    (traded : ∀ b ∈ second, 0 < b.volume) : 0 < a.cur.volume := by
  have volume : a.cur.volume = (bucketBar second).volume := by
    rw [← here.cur]
    rfl
  rw [volume]
  exact bucketBar_traded here.some traded

/-- A bar of the bucket in progress. -/
theorem At.extend (here : At minutes lenF lenS atrLen first second a)
    (traded : ∀ b ∈ second, 0 < b.volume) (same : bucketOf minutes b = a.bucket) :
    At minutes lenF lenS atrLen first (second ++ [b]) { a with cur := b.extend a.cur } where
  some := List.concat_ne_nil _ _
  inBucket := by
    intro other inside
    rcases List.mem_append.mp inside with before | last
    · exact here.inBucket other before
    · rw [List.mem_singleton.mp last]
      exact same
  earlier := here.earlier
  since := here.since
  cur := extend_later b here.some here.cur (ne_of_gt (here.traded traded))
  reads := here.reads
  kept := here.kept

/-- The first bar of another bucket. -/
theorem At.roll (here : At minutes lenF lenS atrLen first second a)
    (traded : ∀ b ∈ second, 0 < b.volume) (later : a.bucket < bucketOf minutes b) :
    At minutes lenF lenS atrLen (first ++ second) [b]
      { a.roll lenF lenS atrLen (bucketOf minutes b) b with
        cur := b.extend (a.roll lenF lenS atrLen (bucketOf minutes b) b).cur } := by
  have rolled : a.roll lenF lenS atrLen (bucketOf minutes b) b =
      { a.complete lenF lenS atrLen with
        cur := { minuteUtc := b.minuteUtc }, bucket := bucketOf minutes b } := by
    unfold HtfAgg.roll
    rw [if_pos (here.traded traded)]
  have new : a.bucket ∉ keys (bucketOf minutes) first := by
    intro old
    obtain ⟨x, inside, isKey⟩ := (mem_keys _).mp old
    exact absurd isKey (ne_of_lt (here.earlier x inside))
  have grouped := groups_append_new here.some here.inBucket new
  rw [rolled]
  exact {
    some := List.cons_ne_nil _ _
    inBucket := by
      intro other inside
      rw [List.mem_singleton.mp inside]
    earlier := by
      intro other inside
      rcases List.mem_append.mp inside with before | last
      · exact (here.earlier other before).trans later
      · rw [here.inBucket other last]
        exact later
    since := here.since.trans later.le
    cur := extend_first b b.minuteUtc
    reads := by
      have completed : a.readings.next lenF lenS atrLen a.cur.untimed =
          Readings.ofBars lenF lenS atrLen
            ((groups (bucketOf minutes) (first ++ second)).map bucketBar) := by
        rw [grouped, List.map_append, List.map_singleton, Readings.ofBars_snoc, ← here.reads,
          here.cur]
      exact (complete_readings a).trans completed
    kept := by
      rw [grouped, List.length_append, List.length_singleton]
      exact pushCapped_min 8 a.cur here.kept }

theorem update_within (nonzero : minutes ≠ 0) (since : 0 ≤ a.bucket)
    (same : bucketOf minutes b = a.bucket) :
    a.update minutes lenF lenS atrLen b = Option.some { a with cur := b.extend a.cur } := by
  unfold bucketOf at same
  unfold HtfAgg.update
  simp only [if_neg nonzero, if_neg (not_lt.mpr since), same, ne_eq, not_true_eq_false, ↓reduceIte]

/-- A bar of another bucket ends the current one. -/
theorem update_across (nonzero : minutes ≠ 0) (since : 0 ≤ a.bucket)
    (apart : bucketOf minutes b ≠ a.bucket) :
    a.update minutes lenF lenS atrLen b =
      Option.some { a.roll lenF lenS atrLen (bucketOf minutes b) b with
        cur := b.extend (a.roll lenF lenS atrLen (bucketOf minutes b) b).cur } := by
  unfold bucketOf at apart ⊢
  unfold HtfAgg.update
  simp only [if_neg nonzero, if_neg (not_lt.mpr since), if_pos apart]

theorem update_fresh (nonzero : minutes ≠ 0) :
    ({} : HtfAgg).update minutes lenF lenS atrLen b =
      Option.some { cur := b.extend {}, bucket := bucketOf minutes b } := by
  have unset : ({} : HtfAgg).bucket < 0 := by decide
  unfold bucketOf
  unfold HtfAgg.update
  simp only [if_neg nonzero, if_pos unset, ne_eq, not_true_eq_false, ↓reduceIte]

/-- One more bar: a frame of a positive length follows the buckets. -/
theorem Tracks.update (tracks : Tracks minutes lenF lenS atrLen bars a) (positive : 0 < minutes)
    (orderly : Orderly (bars ++ [b])) (updated : a.update minutes lenF lenS atrLen b = some after) :
    Tracks minutes lenF lenS atrLen (bars ++ [b]) after := by
  have nonzero : minutes ≠ 0 := ne_of_gt positive
  have since : 0 ≤ bucketOf minutes b :=
    Int.tdiv_nonneg (orderly.since b (by simp)) positive.le
  cases tracks with
  | fresh =>
    rw [update_fresh nonzero] at updated
    cases Option.some.inj updated
    exact Tracks.within [] [b] _ {
      some := List.cons_ne_nil _ _
      inBucket := by
        intro other inside
        rw [List.mem_singleton.mp inside]
      earlier := by
        intro other inside
        exact absurd inside List.not_mem_nil
      since := since
      cur := extend_first b (-1)
      reads := rfl
      kept := rfl }
  | within first second a here =>
    have traded : ∀ x ∈ second, 0 < x.volume := by
      intro x inside
      exact orderly.traded x (by simp [inside])
    have ordered : ∀ x ∈ first ++ second, bucketOf minutes x ≤ bucketOf minutes b := by
      intro x inside
      have before : x.minuteUtc < b.minuteUtc :=
        (List.pairwise_append.mp orderly.later).2.2 x inside b (List.mem_singleton.mpr rfl)
      unfold bucketOf
      rw [Int.tdiv_eq_ediv_of_nonneg (orderly.since x (List.mem_append_left _ inside)),
        Int.tdiv_eq_ediv_of_nonneg (orderly.since b (by simp))]
      exact Int.ediv_le_ediv positive before.le
    have reached : a.bucket ≤ bucketOf minutes b := by
      obtain ⟨x, inside⟩ := List.exists_mem_of_ne_nil second here.some
      rw [← here.inBucket x inside]
      exact ordered x (List.mem_append_right _ inside)
    by_cases same : bucketOf minutes b = a.bucket
    · rw [update_within nonzero here.since same] at updated
      cases Option.some.inj updated
      rw [List.append_assoc]
      exact Tracks.within first (second ++ [b]) _ (here.extend traded same)
    · rw [update_across nonzero here.since same] at updated
      cases Option.some.inj updated
      have later : a.bucket < bucketOf minutes b := lt_of_le_of_ne reached (Ne.symm same)
      exact Tracks.within (first ++ second) [b] _ (here.roll traded later)

/-- The readings of a frame are those of the buckets before the current one. -/
theorem Tracks.readings (tracks : Tracks minutes lenF lenS atrLen bars a) :
    a.readings = Readings.ofBars lenF lenS atrLen (completedBars minutes bars) := by
  cases tracks with
  | fresh => rfl
  | within first second a here => rw [here.reads, here.completed]

/-- The same where a frame may not be in use. -/
theorem tracks_updateIf {used : Bool} (positive : 0 < minutes) (orderly : Orderly (bars ++ [b]))
    (updated : a.updateIf used minutes lenF lenS atrLen b = some after) (inUse : used = true)
    (tracks : Tracks minutes lenF lenS atrLen bars a) :
    Tracks minutes lenF lenS atrLen (bars ++ [b]) after := by
  unfold updateIf at updated
  rw [if_pos inUse] at updated
  exact tracks.update positive orderly updated

end HtfAgg

/-! ## The frames of the strategy -/

/-- The lengths of the frames in use are positive, and that of the second one fits. -/
@[mk_iff]
structure MtfScalperConfig.Lengths (cfg : MtfScalperConfig) : Prop where
  htf : 0 < cfg.htfMinutes
  htf2 : cfg.useHtf2 = true → 0 < cfg.htfMult ∧ cfg.htfMinutes * cfg.htfMult < 2 ^ 31
  struct5 : cfg.fvgStructMode = true → 0 < cfg.fvgStructTfMin
  conf5 : cfg.useConfTf = true → 0 < cfg.confTfMin

instance (cfg : MtfScalperConfig) : Decidable cfg.Lengths :=
  decidable_of_iff' _ (MtfScalperConfig.lengths_iff ..)

/-- The length of the second frame is the product that the file gives. -/
theorem MtfScalperConfig.Lengths.product {cfg : MtfScalperConfig} (lengths : cfg.Lengths)
    (inUse : cfg.useHtf2 = true) : cfg.htf2Minutes = cfg.htfMinutes * cfg.htfMult := by
  obtain ⟨mult, fits⟩ := lengths.htf2 inUse
  have positive : 0 < cfg.htfMinutes * cfg.htfMult := Int.mul_pos lengths.htf mult
  unfold MtfScalperConfig.htf2Minutes int32
  rw [Int.bmod_eq_of_le (by omega) (by omega)]

namespace MtfStrategy

variable {m : MtfDesk} {s t r : MtfStrategy} {b : MinuteBar}

/-- Each frame in use holds the readings of its completed buckets. -/
structure Aligned (m : MtfDesk) (s : MtfStrategy) : Prop where
  htf : s.align.htf.readings = Readings.ofBars m.cfg.htfFastLen m.cfg.htfSlowLen m.cfg.atrLen
    (completedBars m.cfg.htfMinutes s.bars)
  htf2 : m.cfg.useHtf2 = true → s.align.htf2.readings =
    Readings.ofBars m.cfg.htfFastLen m.cfg.htfSlowLen m.cfg.atrLen
      (completedBars m.cfg.htf2Minutes s.bars)
  struct5 : m.cfg.fvgStructMode = true → s.fvg.struct5.readings =
    Readings.ofBars 2 3 m.cfg.atrLen (completedBars m.cfg.fvgStructTfMin s.bars)
  conf5 : m.cfg.useConfTf = true → s.confirm.conf5.readings =
    Readings.ofBars 2 3 m.cfg.atrLen (completedBars m.cfg.confTfMin s.bars)

/-- The frames in use that have positive lengths follow the buckets of the bars, and the
alignment is read from them. -/
structure Framed (m : MtfDesk) (s : MtfStrategy) : Prop where
  htf : 0 < m.cfg.htfMinutes → HtfAgg.Tracks m.cfg.htfMinutes m.cfg.htfFastLen
    m.cfg.htfSlowLen m.cfg.atrLen s.bars s.align.htf
  htf2 : m.cfg.useHtf2 = true → 0 < m.cfg.htf2Minutes → HtfAgg.Tracks m.cfg.htf2Minutes
    m.cfg.htfFastLen m.cfg.htfSlowLen m.cfg.atrLen s.bars s.align.htf2
  struct5 : m.cfg.fvgStructMode = true → 0 < m.cfg.fvgStructTfMin →
    HtfAgg.Tracks m.cfg.fvgStructTfMin 2 3 m.cfg.atrLen s.bars s.fvg.struct5
  conf5 : m.cfg.useConfTf = true → 0 < m.cfg.confTfMin →
    HtfAgg.Tracks m.cfg.confTfMin 2 3 m.cfg.atrLen s.bars s.confirm.conf5
  gates : s.bars ≠ [] → s.align.read m.cfg = s.align

/-- The gap engine leaves the structure frame and its flag. -/
theorem fvg_next_struct {f after : MtfFvg} {atr : Double} {hist : List MinuteBar} {bi : Int}
    (made : f.next m.cfg b atr hist bi = some after) :
    after.struct5 = f.struct5 ∧ after.structRolled = f.structRolled := by
  unfold MtfFvg.next at made
  dsimp only at made
  split at made
  · cases Option.some.inj made
    exact ⟨rfl, rfl⟩
  · obtain ⟨bull, _, rest⟩ := Option.bind_eq_some_iff.mp made
    obtain ⟨bear, _, isAfter⟩ := Option.bind_eq_some_iff.mp rest
    cases Option.some.inj isAfter
    exact ⟨rfl, rfl⟩

/-- Acting on a bar keeps the frames. -/
theorem Kept.framed (kept : Kept s t) (framed : Framed m s) : Framed m t where
  htf := by
    rw [kept.bars, kept.align]
    exact framed.htf
  htf2 := by
    rw [kept.bars, kept.align]
    exact framed.htf2
  struct5 := by
    rw [kept.bars, kept.fvg]
    exact framed.struct5
  conf5 := by
    rw [kept.bars, kept.conf5]
    exact framed.conf5
  gates := by
    rw [kept.bars, kept.align]
    exact framed.gates

/-- Reading the next bar keeps the frames on the buckets of the bars. -/
theorem Read.framed (read : Read m b s r) (orderly : Orderly r.bars) (framed : Framed m s) :
    Framed m r := by
  obtain ⟨align, isAlign, isRead⟩ := read.align
  obtain ⟨htf, isHtf, rest⟩ := Option.bind_eq_some_iff.mp isAlign
  obtain ⟨htf2, isHtf2, made⟩ := Option.bind_eq_some_iff.mp rest
  cases Option.some.inj made
  obtain ⟨fvg, isFvg, isNext⟩ := read.fvg
  obtain ⟨conf5, isConfirm, isConf5⟩ := read.confirm
  have orderly' : Orderly (s.bars ++ [b]) := read.bars ▸ orderly
  exact {
    htf := by
      intro positive
      rw [read.bars, isRead]
      exact (framed.htf positive).update positive orderly' isHtf
    htf2 := by
      intro inUse positive
      rw [read.bars, isRead]
      exact HtfAgg.tracks_updateIf positive orderly' isHtf2 inUse (framed.htf2 inUse positive)
    struct5 := by
      intro inUse positive
      rw [read.bars, (fvg_next_struct isNext).1]
      unfold MtfFvg.aggregate at isFvg
      rw [if_pos inUse] at isFvg
      obtain ⟨after, updated, isAfter⟩ := Option.bind_eq_some_iff.mp isFvg
      cases Option.some.inj isAfter
      exact (framed.struct5 inUse positive).update positive orderly' updated
    conf5 := by
      intro inUse positive
      rw [read.bars, isConfirm]
      exact HtfAgg.tracks_updateIf positive orderly' isConf5 inUse (framed.conf5 inUse positive)
    gates := by
      intro _
      rw [isRead]
      rfl }

theorem Orderly.front {front back : List MinuteBar} (orderly : Orderly (front ++ back)) :
    Orderly front where
  later := (List.pairwise_append.mp orderly.later).1
  traded := fun x inside => orderly.traded x (List.mem_append_left _ inside)
  since := fun x inside => orderly.since x (List.mem_append_left _ inside)

/-- A step keeps the frames, as long as the bars are orderly. -/
theorem Steps.framed (steps : Steps m s t) (framed : Orderly s.bars → Framed m s) :
    Orderly t.bars → Framed m t := by
  intro orderly
  cases steps with
  | still kept => exact kept.framed (framed (kept.bars ▸ orderly))
  | bar b r traded read kept =>
    have orderlyR : Orderly r.bars := kept.bars ▸ orderly
    have orderlyS : Orderly s.bars := Orderly.front (read.bars ▸ orderlyR)
    exact kept.framed (read.framed orderlyR (framed orderlyS))

theorem fresh_eq (built : m.fresh = some s) :
    s = { sessStartMin := s.sessStartMin, sessEndMin := s.sessEndMin
          equity := m.cfg.startingBalance } := by
  obtain ⟨window, _, isS⟩ := Option.bind_eq_some_iff.mp built
  cases Option.some.inj isS
  rfl

theorem framed_fresh (built : m.fresh = some s) : Framed m s := by
  rw [fresh_eq built]
  exact {
    htf := fun _ => HtfAgg.Tracks.fresh
    htf2 := fun _ _ => HtfAgg.Tracks.fresh
    struct5 := fun _ _ => HtfAgg.Tracks.fresh
    conf5 := fun _ _ => HtfAgg.Tracks.fresh
    gates := fun some => absurd rfl some }

/-- Every run keeps the frames on the buckets of its bars. -/
theorem play_framed {events : List MtfEvent} (arrives : m.play events = some s)
    (orderly : Orderly s.bars) : Framed m s := by
  obtain ⟨start, built, reaches⟩ := Option.bind_eq_some_iff.mp arrives
  have keeps (s : MtfStrategy) (event : MtfEvent) (t : MtfStrategy)
      (framed : Orderly s.bars → Framed m s) (_ : True) (taken : s.take m event = some t) :
      Orderly t.bars → Framed m t := (take_steps taken).framed framed
  exact reach_invariant keeps (fun _ => framed_fresh built)
    (meets_of_forall (fun _ _ => trivial) start events) reaches orderly

/-- With positive lengths each frame in use holds the readings of its completed buckets. -/
theorem Framed.aligned (framed : Framed m s) (lengths : m.cfg.Lengths) : Aligned m s where
  htf := (framed.htf lengths.htf).readings
  htf2 := by
    intro inUse
    refine (framed.htf2 inUse ?_).readings
    rw [lengths.product inUse]
    exact Int.mul_pos lengths.htf (lengths.htf2 inUse).1
  struct5 := fun inUse => (framed.struct5 inUse (lengths.struct5 inUse)).readings
  conf5 := fun inUse => (framed.conf5 inUse (lengths.conf5 inUse)).readings

/-! ## What the current bucket cannot change -/

/-- Bars that go on inside one bucket leave the completed bars as they are. -/
theorem completedBars_append {minutes k : Int} {common current : List MinuteBar}
    (some : current ≠ []) (inside : ∀ b ∈ current, bucketOf minutes b = k) :
    completedBars minutes (common ++ current) =
      (groups (bucketOf minutes) (others (bucketOf minutes) k common)).map bucketBar := by
  obtain ⟨last, isLast⟩ : ∃ last, current.getLast? = Option.some last :=
    ⟨_, List.getLast?_eq_some_getLast some⟩
  have bucket : bucketOf minutes last = k := inside last (List.mem_of_getLast? isLast)
  have none : others (bucketOf minutes) k current = [] := by
    apply List.filter_eq_nil_iff.mpr
    intro b isOne
    simp [inside b isOne]
  unfold completedBars
  rw [List.getLast?_append, isLast]
  simp only [Option.some_or, bucket]
  unfold others at none ⊢
  rw [List.filter_append, none, List.append_nil]

/-- How the first frame leans depends on its readings only. -/
theorem leans_congr {cfg : MtfScalperConfig} {a a' : MtfAlignment}
    (same : a.htf.readings = a'.htf.readings) (long : Bool) :
    a.leans cfg long = a'.leans cfg long := by
  have completed : a.htf.hasCompleted = a'.htf.hasCompleted := congrArg Readings.hasCompleted same
  have emaF : a.htf.emaF = a'.htf.emaF := congrArg Readings.emaF same
  have emaS : a.htf.emaS = a'.htf.emaS := congrArg Readings.emaS same
  have cls : a.htf.cls = a'.htf.cls := congrArg Readings.cls same
  have slope : a.htf.slope = a'.htf.slope := congrArg Readings.slope same
  unfold MtfAlignment.leans
  rw [completed, emaF, emaS, cls, slope]

/-- How the second frame leans depends on its readings only, where it is used. -/
theorem leans2_congr {cfg : MtfScalperConfig} {a a' : MtfAlignment}
    (same : cfg.useHtf2 = true → a.htf2.readings = a'.htf2.readings) (long : Bool) :
    a.leans2 cfg long = a'.leans2 cfg long := by
  unfold MtfAlignment.leans2
  cases inUse : cfg.useHtf2 with
  | false => rfl
  | true =>
    have completed : a.htf2.hasCompleted = a'.htf2.hasCompleted :=
      congrArg Readings.hasCompleted (same inUse)
    have emaF : a.htf2.emaF = a'.htf2.emaF := congrArg Readings.emaF (same inUse)
    have emaS : a.htf2.emaS = a'.htf2.emaS := congrArg Readings.emaS (same inUse)
    rw [completed, emaF, emaS]

/-- How the strategy lies to the higher frames. -/
structure SameGates (s t : MtfStrategy) : Prop where
  htfUp : s.align.htfUp = t.align.htfUp
  htfDn : s.align.htfDn = t.align.htfDn
  mtfUp : s.align.mtfUp = t.align.mtfUp
  mtfDn : s.align.mtfDn = t.align.mtfDn

/-- Inside one bucket the gates read completed bars only, so two runs with the same completed bars
agree on them. -/
theorem sameGates {common current current' : List MinuteBar} (framed : Framed m s)
    (framed' : Framed m t) (lengths : m.cfg.Lengths) (isBars : s.bars = common ++ current)
    (isBars' : t.bars = common ++ current') (some : current ≠ []) (some' : current' ≠ [])
    (since : ∀ b ∈ current ++ current', 0 ≤ b.minuteUtc) {k : Int}
    (inside : ∀ b ∈ current ++ current', bucketOf m.cfg.htfMinutes b = k) : SameGates s t := by
  have htf : s.align.htf.readings = t.align.htf.readings := by
    rw [(framed.aligned lengths).htf, (framed'.aligned lengths).htf, isBars, isBars',
      completedBars_append some fun b isOne => inside b (List.mem_append_left _ isOne),
      completedBars_append some' fun b isOne => inside b (List.mem_append_right _ isOne)]
  have htf2 (inUse : m.cfg.useHtf2 = true) : s.align.htf2.readings = t.align.htf2.readings := by
    -- a bucket of the second frame is made of whole buckets of the first
    have nested : ∀ b ∈ current ++ current', bucketOf m.cfg.htf2Minutes b = k / m.cfg.htfMult := by
      intro b isOne
      rw [← inside b isOne, lengths.product inUse]
      unfold bucketOf
      rw [Int.tdiv_eq_ediv_of_nonneg (since b isOne), Int.tdiv_eq_ediv_of_nonneg (since b isOne),
        Int.ediv_ediv_of_nonneg lengths.htf.le]
    rw [(framed.aligned lengths).htf2 inUse, (framed'.aligned lengths).htf2 inUse, isBars, isBars',
      completedBars_append some fun b isOne => nested b (List.mem_append_left _ isOne),
      completedBars_append some' fun b isOne => nested b (List.mem_append_right _ isOne)]
  have read : s.align.read m.cfg = s.align := framed.gates (by simp [isBars, some])
  have read' : t.align.read m.cfg = t.align := framed'.gates (by simp [isBars', some'])
  have up := @leans_congr m.cfg _ _ htf true
  have down := @leans_congr m.cfg _ _ htf false
  have same : s.align.read m.cfg = { t.align.read m.cfg with
      htf := s.align.htf, htf2 := s.align.htf2 } := by
    unfold MtfAlignment.read
    rw [up, down, leans2_congr htf2 true, leans2_congr htf2 false]
  rw [read, read'] at same
  exact {
    htfUp := by rw [same]
    htfDn := by rw [same]
    mtfUp := by rw [same]
    mtfDn := by rw [same] }

end MtfStrategy

open MtfStrategy

/-- Frames of positive lengths hold, after every run, the readings of their completed
buckets, and runs whose bars differ only inside the current bucket give the same alignment. -/
theorem frames_read_completed {m : MtfDesk} {events : List MtfEvent} {s : MtfStrategy}
    (lengths : m.cfg.Lengths) (arrives : m.play events = some s) (orderly : Orderly s.bars) :
    Aligned m s ∧
      ∀ (others : List MtfEvent) (t : MtfStrategy) (common current current' : List MinuteBar)
        (k : Int), m.play others = some t → Orderly t.bars → s.bars = common ++ current →
        t.bars = common ++ current' → current ≠ [] → current' ≠ [] →
        (∀ b ∈ current ++ current', bucketOf m.cfg.htfMinutes b = k) → SameGates s t := by
  have framed : Framed m s := play_framed arrives orderly
  refine ⟨framed.aligned lengths, ?_⟩
  intro others t common current current' k arrives' orderly' isBars isBars' some some' inside
  refine sameGates framed (play_framed arrives' orderly') lengths isBars isBars' some some'
    ?_ inside
  intro b isOne
  rcases List.mem_append.mp isOne with one | other
  · exact orderly.since b (by simp [isBars, one])
  · exact orderly'.since b (by simp [isBars', other])

/-- A print in a minute. -/
def MtfEvent.print (minute : Int) (price : ℚ) : MtfEvent :=
  .tick (fun _ => []) { tsMicros := minute * 60000000, price := price }

/-- The default configuration with a higher frame of so many minutes, by hand. -/
def manualDesk (minutes : Int) : MtfDesk where
  cfg := { htfMode := "manual", htfManualMin := minutes }
  sqrt := id

/-- Three prints of the first minutes of three buckets, for any of the two lengths. -/
def threeMinutes : List MtfEvent := [.print 120 100, .print 180 101, .print 240 102]

/-- The same prints but for the price in the second hour. -/
def otherMinutes : List MtfEvent := [.print 120 100, .print 180 109, .print 240 102]

/-- Frames of an hour, over two runs that differ in the hour before the last print. -/
theorem frames_read_completed_of_hour :
    ∃ s t, (manualDesk 60).play threeMinutes = some s ∧ (manualDesk 60).play otherMinutes = some t ∧
      s.bars ≠ t.bars ∧ Aligned (manualDesk 60) s ∧ SameGates s t := by
  have runs : ((manualDesk 60).play threeMinutes).any (fun s =>
      ((manualDesk 60).play otherMinutes).any fun t => decide (
        (Orderly s.bars ∧ Orderly t.bars ∧ s.bars ≠ t.bars) ∧ s.bars.take 1 = t.bars.take 1 ∧
        s.bars.drop 1 ≠ [] ∧ t.bars.drop 1 ≠ [] ∧
        ∀ b ∈ s.bars.drop 1 ++ t.bars.drop 1, bucketOf 60 b = 3)) = true := by
    decide +kernel
  obtain ⟨s, arrives, runs⟩ := (Option.any_eq_true _ _).mp runs
  obtain ⟨t, arrives', runs⟩ := (Option.any_eq_true _ _).mp runs
  obtain ⟨⟨orderly, orderly', differ⟩, common, some, some', inside⟩ := of_decide_eq_true runs
  have lengths : (manualDesk 60).cfg.Lengths := by decide
  obtain ⟨aligned, gates⟩ := frames_read_completed lengths arrives orderly
  refine ⟨s, t, arrives, arrives', differ, aligned, ?_⟩
  exact gates otherMinutes t (s.bars.take 1) (s.bars.drop 1) (t.bars.drop 1) 3 arrives' orderly'
    (List.take_append_drop 1 s.bars).symm (by rw [common, List.take_append_drop]) some some' inside

/-- A negative length passes the checks of the configuration, and its buckets never
complete: the averages stay unset where the bucket of the bar before has ended. -/
theorem negative_frame_reads_nothing :
    (manualDesk (-60)).cfg.validate = .ok () ∧
      ∃ s, (manualDesk (-60)).play threeMinutes = some s ∧ Orderly s.bars ∧
        s.align.htf.emaF = .nan ∧ ¬Aligned (manualDesk (-60)) s := by
  have runs : ((manualDesk (-60)).play threeMinutes).any (fun s => decide (Orderly s.bars ∧
      s.align.htf.emaF = .nan ∧
      (Readings.ofBars 21 50 14 (completedBars (-60) s.bars)).emaF = 100)) = true := by
    decide +kernel
  obtain ⟨s, arrives, holds⟩ := (Option.any_eq_true _ _).mp runs
  obtain ⟨orderly, unset, completed⟩ := of_decide_eq_true holds
  refine ⟨by decide +kernel, s, arrives, orderly, unset, ?_⟩
  intro aligned
  have reads : s.align.htf.emaF = (Readings.ofBars 21 50 14 (completedBars (-60) s.bars)).emaF :=
    congrArg Readings.emaF aligned.htf
  rw [unset, completed] at reads
  exact absurd reads (by decide)

end RithmicEngine
