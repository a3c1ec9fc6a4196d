import RithmicEngine.Execution.MtfFrames
/-!
# Rollovers of the structure frame

A rollover of the structure frame is told by the number of completed bars that are kept. The
number grows with the first eight of them and then stays, so a rollover is seen exactly while
fewer than eight buckets came before it.
-/
namespace RithmicEngine

open Grouping PartialRuns

/-- The bar comes after the end of a bucket. -/
def Completes (minutes : Int) (bars : List MinuteBar) (b : MinuteBar) : Prop :=
  ∃ last, bars.getLast? = some last ∧ bucketOf minutes b ≠ bucketOf minutes last

/-- The bars that a gap may be formed of when a bucket of the structure frame has ended: the
completed one and the one before the one before it. -/
def MtfFvg.offered (cfg : MtfScalperConfig) (f : MtfFvg) :
    Option (MinuteBar × MinuteBar × Double) :=
  if f.struct5.atrRma ≠ .nan then do
    let done := f.struct5.done.reverse
    return (← done[0]?, ← done[2]?, cfg.fvgMinAtr * f.struct5.atrRma)
  else none

namespace MtfStrategy

variable {m : MtfDesk} {s t : MtfStrategy} {b : MinuteBar} {event : MtfEvent}

/-- The completed bar of the step rolls the structure frame exactly when it comes after the
end of a bucket, and then gaps are formed of completed bars. -/
def RolloverSeen (m : MtfDesk) (s : MtfStrategy) (_ : MtfEvent) (t : MtfStrategy) : Prop :=
  ∀ b, t.bars = s.bars ++ [b] → Orderly t.bars →
    (t.fvg.structRolled = true ↔ Completes m.cfg.fvgStructTfMin s.bars b) ∧
      (Completes m.cfg.fvgStructTfMin s.bars b →
        ∀ atr hist, t.fvg.formed m.cfg b atr hist = t.fvg.offered m.cfg)

/-- Fewer than eight buckets were completed before the one that the bar comes after. -/
def WithinEight (m : MtfDesk) (s : MtfStrategy) (_ : MtfEvent) (t : MtfStrategy) : Prop :=
  ∀ b, t.bars = s.bars ++ [b] → Orderly t.bars → Completes m.cfg.fvgStructTfMin s.bars b →
    (completedBars m.cfg.fvgStructTfMin s.bars).length < 8

/-- A bar completes the frame exactly when it falls into another bucket than the one being built. -/
theorem completes_iff {minutes lenF lenS atrLen : Int} {first second : List MinuteBar}
    {a : HtfAgg} (here : HtfAgg.At minutes lenF lenS atrLen first second a) :
    Completes minutes (first ++ second) b ↔ bucketOf minutes b ≠ a.bucket := by
  obtain ⟨last, isLast⟩ : ∃ last, second.getLast? = some last :=
    ⟨_, List.getLast?_eq_some_getLast here.some⟩
  have bucket : bucketOf minutes last = a.bucket :=
    here.inBucket last (List.mem_of_getLast? isLast)
  have last_of : (first ++ second).getLast? = some last := by
    rw [List.getLast?_append, isLast, Option.some_or]
  unfold Completes
  rw [last_of]
  constructor
  · rintro ⟨other, isOther, apart⟩
    cases Option.some.inj isOther
    rw [← bucket]
    exact apart
  · intro apart
    exact ⟨last, rfl, by rw [bucket]; exact apart⟩

/-- The number of the kept bars changes exactly at a rollover that has fewer than eight
completed buckets before it. -/
theorem kept_changes {minutes lenF lenS atrLen : Int} {bars : List MinuteBar} {a after : HtfAgg}
    (tracks : HtfAgg.Tracks minutes lenF lenS atrLen bars a) (positive : 0 < minutes)
    (updated : a.update minutes lenF lenS atrLen b = some after)
    (orderly : Orderly (bars ++ [b])) :
    after.done.length ≠ a.done.length ↔
      Completes minutes bars b ∧ (completedBars minutes bars).length < 8 := by
  have nonzero : minutes ≠ 0 := ne_of_gt positive
  cases tracks with
  | fresh =>
    rw [HtfAgg.update_fresh nonzero] at updated
    cases Option.some.inj updated
    constructor
    · intro changed
      exact absurd rfl changed
    · rintro ⟨⟨last, isLast, _⟩, _⟩
      cases isLast
  | within first second a here =>
    rw [completes_iff here, here.completed, List.length_map]
    by_cases same : bucketOf minutes b = a.bucket
    · rw [HtfAgg.update_within nonzero here.since same] at updated
      cases Option.some.inj updated
      simp [same]
    · rw [HtfAgg.update_across nonzero here.since same] at updated
      cases Option.some.inj updated
      have traded : 0 < a.cur.volume := by
        apply here.traded
        intro x inside
        exact orderly.traded x (by simp [inside])
      have grown : (a.roll lenF lenS atrLen (bucketOf minutes b) b).done.length =
          min 8 ((groups (bucketOf minutes) first).length + 1) := by
        unfold HtfAgg.roll
        rw [if_pos traded]
        exact pushCapped_min 8 a.cur here.kept
      change (a.roll lenF lenS atrLen (bucketOf minutes b) b).done.length ≠ a.done.length ↔ _
      rw [grown, here.kept]
      constructor
      · intro changed
        exact ⟨same, by omega⟩
      · rintro ⟨_, few⟩
        omega

/-- A bar rolls the structure frame exactly when it completes it, with fewer than eight before. -/
theorem Read.rolled {r : MtfStrategy} (read : Read m b s r) (mode : m.cfg.fvgStructMode = true)
    (positive : 0 < m.cfg.fvgStructTfMin) (orderly : Orderly r.bars) (framed : Framed m s) :
    r.fvg.structRolled = true ↔ Completes m.cfg.fvgStructTfMin s.bars b ∧
      (completedBars m.cfg.fvgStructTfMin s.bars).length < 8 := by
  obtain ⟨fvg, isFvg, isNext⟩ := read.fvg
  unfold MtfFvg.aggregate at isFvg
  rw [if_pos mode] at isFvg
  obtain ⟨after, updated, isAfter⟩ := Option.bind_eq_some_iff.mp isFvg
  cases Option.some.inj isAfter
  rw [(fvg_next_struct isNext).2, decide_eq_true_eq]
  exact kept_changes (framed.struct5 mode positive) positive updated (read.bars ▸ orderly)

/-- One step: a rollover is seen exactly within the first eight. -/
theorem rolloverSeen_iff (mode : m.cfg.fvgStructMode = true)
    (positive : 0 < m.cfg.fvgStructTfMin) (framed : Orderly s.bars → Framed m s)
    (taken : s.take m event = some t) : RolloverSeen m s event t ↔ WithinEight m s event t := by
  have rolled (b : MinuteBar) (grown : t.bars = s.bars ++ [b]) (orderly : Orderly t.bars) :
      t.fvg.structRolled = true ↔ Completes m.cfg.fvgStructTfMin s.bars b ∧
        (completedBars m.cfg.fvgStructTfMin s.bars).length < 8 := by
    cases take_steps taken with
    | still kept =>
      have same : s.bars ++ [b] = s.bars := grown.symm.trans kept.bars
      exact absurd (List.append_right_eq_self.mp same) (List.cons_ne_nil _ _)
    | bar b' r traded read kept =>
      have isB : b' = b := by
        have both : s.bars ++ [b'] = s.bars ++ [b] := by
          rw [← read.bars, ← kept.bars, grown]
        exact List.singleton_injective (List.append_cancel_left both)
      rw [kept.fvg, ← isB]
      refine read.rolled mode positive (kept.bars ▸ orderly) (framed ?_)
      exact Orderly.front (grown ▸ orderly)
  constructor
  · intro seen b grown orderly completes
    have here := (seen b grown orderly).1.mpr completes
    exact ((rolled b grown orderly).mp here).2
  · intro within b grown orderly
    have seen : t.fvg.structRolled = true ↔ Completes m.cfg.fvgStructTfMin s.bars b := by
      rw [rolled b grown orderly, and_iff_left_iff_imp]
      exact within b grown orderly
    refine ⟨seen, ?_⟩
    intro completes atr hist
    unfold MtfFvg.formed MtfFvg.offered
    rw [mode, seen.mpr completes]
    simp

end MtfStrategy

open MtfStrategy

/-- Along every run of a structure frame, the rollovers are all seen exactly if none of them
comes after eight completed buckets. -/
theorem rollovers_seen_iff {m : MtfDesk} {start : MtfStrategy} (events : List MtfEvent)
    (mode : m.cfg.fvgStructMode = true) (positive : 0 < m.cfg.fvgStructTfMin)
    (built : m.fresh = some start) :
    Each (take m) (RolloverSeen m) start events ↔ Each (take m) (WithinEight m) start events := by
  have exact_ (s : MtfStrategy) (event : MtfEvent) (t : MtfStrategy)
      (framed : Orderly s.bars → Framed m s) (taken : s.take m event = some t) :
      RolloverSeen m s event t ↔ WithinEight m s event t :=
    rolloverSeen_iff mode positive framed taken
  have keeps (s : MtfStrategy) (event : MtfEvent) (t : MtfStrategy)
      (framed : Orderly s.bars → Framed m s) (taken : s.take m event = some t) :
      Orderly t.bars → Framed m t := (take_steps taken).framed framed
  exact each_iff_of_invariant exact_ keeps fun _ => framed_fresh built

/-- A structure frame of single minutes. -/
def structDesk : MtfDesk where
  cfg := { fvgStructMode := true, fvgStructTfMin := 1 }
  sqrt := id

/-- Prints of some minutes in a row. -/
def minutesInARow (count : Nat) : List MtfEvent :=
  (List.range count).map fun i => .print (100 + i) 100

/-- What ten minutes in a row come to. -/
theorem minutes_run :
    structDesk.fresh.isSome ∧
      (structDesk.play (minutesInARow 10)).any (fun s =>
        (s.take structDesk (.print 110 100)).any fun t =>
          decide (t.bars = s.bars ++ [s.curBar] ∧ Orderly t.bars ∧
            t.fvg.structRolled = false ∧
            s.bars.getLast?.any (fun last =>
              decide (bucketOf 1 s.curBar ≠ bucketOf 1 last)))) = true := by
  decide +kernel

/-- Three minutes in a row, each of them a bucket. -/
theorem rollovers_seen_iff_of_minutes : ∃ start, structDesk.fresh = some start ∧
    (Each (take structDesk) (RolloverSeen structDesk) start (minutesInARow 3) ↔
      Each (take structDesk) (WithinEight structDesk) start (minutesInARow 3)) := by
  obtain ⟨start, isStart⟩ := Option.isSome_iff_exists.mp minutes_run.1
  exact ⟨start, isStart, rollovers_seen_iff (minutesInARow 3) rfl (by decide) isStart⟩

/-- The ninth bucket ends unseen: eight were completed before it, and eight are kept. -/
theorem ninth_rollover_is_missed :
    ∃ s t, structDesk.play (minutesInARow 10) = some s ∧
      s.take structDesk (.print 110 100) = some t ∧
      ¬RolloverSeen structDesk s (.print 110 100) t := by
  obtain ⟨s, arrives, more⟩ := (Option.any_eq_true _ _).mp minutes_run.2
  obtain ⟨t, taken, holds⟩ := (Option.any_eq_true _ _).mp more
  obtain ⟨grown, orderly, missed, ends⟩ := of_decide_eq_true holds
  obtain ⟨last, isLast, apart⟩ := (Option.any_eq_true _ _).mp ends
  refine ⟨s, t, arrives, taken, ?_⟩
  intro seen
  have rolled := (seen s.curBar grown orderly).1.mpr ⟨last, isLast, of_decide_eq_true apart⟩
  rw [missed] at rolled
  cases rolled

end RithmicEngine
