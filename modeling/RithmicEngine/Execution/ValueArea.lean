import RithmicEngine.Execution.TrendEngine
/-!
# The value area of a session's profile

The area widens bin by bin from the lowest of the heaviest bins toward the heavier of its two
neighbours, and stops where neither neighbour has traded. So it holds its part of the volume
exactly if an unbroken run of bins around that bin does.
-/
namespace RithmicEngine

open TrendStrategy

namespace Histogram

/-- A map of positive volumes: its bins rise. -/
structure Proper (bins : Histogram) : Prop where
  rising : bins.Pairwise fun a b => a.1 < b.1
  positive : ∀ bin ∈ bins, 0 < bin.2

variable {bin : Int × ℚ} {px : Int} {rest : Histogram}

theorem Proper.tail (proper : Proper (bin :: rest)) : Proper rest where
  rising := (List.pairwise_cons.mp proper.rising).2
  positive := fun other inside => proper.positive other (List.mem_cons_of_mem bin inside)

theorem Proper.above (proper : Proper (bin :: rest)) :
    ∀ other ∈ rest, bin.1 < other.1 := (List.pairwise_cons.mp proper.rising).1

/-! ## The heaviest bin -/

/-- The lowest of the heaviest bins. -/
def LowestHeaviest (bins : Histogram) (px : Int) : Prop :=
  ∃ v, (px, v) ∈ bins ∧ ∀ other ∈ bins, other.2 ≤ v ∧ (other.1 < px → other.2 < v)

/-- There is one lowest heaviest bin. -/
theorem LowestHeaviest.unique {bins : Histogram} {qx : Int} (left : LowestHeaviest bins px)
    (right : LowestHeaviest bins qx) : px = qx := by
  obtain ⟨v, inside, above⟩ := left
  obtain ⟨w, insideToo, aboveToo⟩ := right
  rcases lt_trichotomy px qx with less | same | more
  · exact absurd ((aboveToo _ inside).2 less) (not_lt.mpr (above _ insideToo).1)
  · exact same
  · exact absurd ((above _ insideToo).2 more) (not_lt.mpr (aboveToo _ inside).1)

/-- The scan keeps the lowest of the heaviest bins seen so far. -/
theorem scan_lowestHeaviest (rest seen : Histogram) (best : Int × ℚ)
    (rising : (seen ++ rest).Pairwise fun a b => a.1 < b.1) (isIn : best ∈ seen)
    (above : ∀ other ∈ seen, other.2 ≤ best.2 ∧ (other.1 < best.1 → other.2 < best.2)) :
    let found := rest.foldl (fun best bin => if bin.2 > best.2 then bin else best) best
    found ∈ seen ++ rest ∧
      ∀ other ∈ seen ++ rest, other.2 ≤ found.2 ∧ (other.1 < found.1 → other.2 < found.2) := by
  induction rest generalizing seen best with
  | nil => simpa only [List.append_nil, List.foldl_nil] using ⟨isIn, above⟩
  | cons bin rest ih =>
    have shift : seen ++ bin :: rest = seen ++ [bin] ++ rest := by
      rw [List.append_assoc, List.singleton_append]
    have before : best.1 < bin.1 :=
      (List.pairwise_append.mp rising).2.2 best isIn bin List.mem_cons_self
    rw [shift] at rising ⊢
    rw [List.foldl_cons]
    split_ifs with heavier
    · apply ih (seen ++ [bin]) bin rising (List.mem_append_right seen (List.mem_singleton_self bin))
      intro other inside
      rcases List.mem_append.mp inside with old | new
      · have lighter := (above other old).1.trans_lt heavier
        exact ⟨lighter.le, fun _ => lighter⟩
      · rw [List.mem_singleton.mp new]
        exact ⟨le_refl _, fun less => absurd less (lt_irrefl _)⟩
    · apply ih (seen ++ [bin]) best rising (List.mem_append_left [bin] isIn)
      intro other inside
      rcases List.mem_append.mp inside with old | new
      · exact above other old
      · rw [List.mem_singleton.mp new]
        exact ⟨not_lt.mp heavier, fun less => absurd less (not_lt.mpr before.le)⟩

/-- The bin found is the lowest of the heaviest. -/
theorem heaviest_lowest (proper : Proper (bin :: rest)) :
    heaviest (bin :: rest) bin.1 ∈ bin :: rest ∧
      LowestHeaviest (bin :: rest) (heaviest (bin :: rest) bin.1).1 := by
  have first : heaviest (bin :: rest) bin.1 =
      rest.foldl (fun best bin => if bin.2 > best.2 then bin else best) bin := by
    unfold heaviest
    rw [List.foldl_cons, if_pos]
    have some := proper.positive bin List.mem_cons_self
    change (-1 : ℚ) < bin.2
    linarith
  obtain ⟨isIn, above⟩ := scan_lowestHeaviest rest [bin] bin proper.rising
    (List.mem_singleton_self bin) (by
      intro other isBin
      rw [List.mem_singleton.mp isBin]
      exact ⟨le_refl _, fun less => absurd less (lt_irrefl _)⟩)
  rw [first]
  exact ⟨isIn, _, isIn, above⟩

/-! ## Ranges of bins -/

def within (lo hi : Int) (bin : Int × ℚ) : Bool := decide (lo ≤ bin.1) && decide (bin.1 ≤ hi)

def totalVolume (bins : Histogram) : ℚ := (bins.map (·.2)).sum

def volumeWithin (lo hi : Int) (bins : Histogram) : ℚ :=
  ((bins.filter (within lo hi)).map (·.2)).sum

/-- A range splits at any of its bins. -/
theorem within_perm (bins : Histogram) (lo mid hi : Int) (low : lo ≤ mid + 1) (high : mid ≤ hi) :
    (bins.filter (within lo mid) ++ bins.filter (within (mid + 1) hi)).Perm
      (bins.filter (within lo hi)) := by
  have parts := List.filter_append_perm (fun bin : Int × ℚ => decide (bin.1 ≤ mid))
    (bins.filter (within lo hi))
  rw [List.filter_filter, List.filter_filter] at parts
  have left : (fun bin : Int × ℚ => decide (bin.1 ≤ mid) && within lo hi bin) = within lo mid := by
    funext bin
    unfold within
    rw [Bool.eq_iff_iff]
    simp only [Bool.and_eq_true, decide_eq_true_eq]
    omega
  have right : (fun bin : Int × ℚ => (!decide (bin.1 ≤ mid)) && within lo hi bin) =
      within (mid + 1) hi := by
    funext bin
    unfold within
    rw [Bool.eq_iff_iff]
    simp only [Bool.and_eq_true, Bool.not_eq_true', decide_eq_false_iff_not, decide_eq_true_eq]
    omega
  rw [left, right] at parts
  exact parts

/-- A bin that has traded is alone at its place. -/
theorem filter_at {bins : Histogram} {v : ℚ} (proper : Proper bins)
    (traded : volumeAt bins px = some v) : bins.filter (within px px) = [(px, v)] := by
  induction bins with
  | nil => exact nomatch traded
  | cons first rest ih =>
    unfold volumeAt at traded
    rw [List.find?_cons] at traded
    by_cases same : first.1 = px
    · rw [decide_eq_true same] at traded
      have isV : first.2 = v := Option.some.inj traded
      have isFirst : first = (px, v) := Prod.ext same isV
      have others : rest.filter (within px px) = [] := by
        apply List.filter_eq_nil_iff.mpr
        intro other inside
        have above := proper.above other inside
        unfold within
        simp only [Bool.and_eq_true, decide_eq_true_eq]
        omega
      rw [List.filter_cons_of_pos (by simp [within, same]), others, isFirst]
    · rw [decide_eq_false same] at traded
      rw [List.filter_cons_of_neg, ih proper.tail traded]
      unfold within
      simp only [Bool.and_eq_true, decide_eq_true_eq]
      omega

/-- A price with volume is a bin. -/
theorem volumeAt_mem {bins : Histogram} {v : ℚ} (traded : volumeAt bins px = some v) :
    (px, v) ∈ bins := by
  unfold volumeAt at traded
  obtain ⟨bin, found, isV⟩ := Option.map_eq_some_iff.mp traded
  have isPx : bin.1 = px := by
    have test := List.find?_some found
    exact of_decide_eq_true test
  have inside := List.mem_of_find?_eq_some found
  rwa [show bin = (px, v) from Prod.ext isPx isV] at inside

theorem volumeAt_of_mem {bins : Histogram} {v : ℚ} (inside : (px, v) ∈ bins) :
    (volumeAt bins px).isSome := by
  unfold volumeAt
  rw [Option.isSome_map, List.find?_isSome]
  exact ⟨(px, v), inside, decide_eq_true rfl⟩

/-- A wider stretch of bins holds no less volume. -/
theorem volumeWithin_mono {bins : Histogram} (proper : Proper bins) {lo hi wide high : Int}
    (below : wide ≤ lo) (above : hi ≤ high) :
    volumeWithin lo hi bins ≤ volumeWithin wide high bins := by
  have sub : (bins.filter (within lo hi)).Sublist (bins.filter (within wide high)) := by
    apply List.monotone_filter_right
    intro bin
    unfold within
    simp only [Bool.and_eq_true, decide_eq_true_eq]
    omega
  apply (sub.map _).sum_le_sum
  intro v isV
  obtain ⟨bin, inside, isBin⟩ := List.mem_map.mp isV
  exact isBin ▸ (proper.positive bin (List.mem_of_mem_filter inside)).le

/-! ## The expansion -/

/-- The range holds the point of control and every bin of it has traded. -/
structure Area (bins : Histogram) (poc lo hi : Int) (inside : ℚ) : Prop where
  below : lo ≤ poc
  above : poc ≤ hi
  unbroken : ∀ px, lo ≤ px → px ≤ hi → (volumeAt bins px).isSome
  volume : inside = volumeWithin lo hi bins

variable {bins : Histogram} {poc lo hi : Int} {inside v : ℚ}

/-- Taking the bin above extends the area by it. -/
theorem Area.up (proper : Proper bins) (area : Area bins poc lo hi inside)
    (traded : volumeAt bins (hi + 1) = some v) :
    Area bins poc lo (hi + 1) (inside + v) ∧
      (bins.filter (within lo (hi + 1))).length = (bins.filter (within lo hi)).length + 1 := by
  have ordered := area.below.trans area.above
  have parts := within_perm bins lo hi (hi + 1) (by omega) (by omega)
  rw [filter_at proper traded] at parts
  refine ⟨⟨area.below, area.above.trans (by omega), ?_, ?_⟩, ?_⟩
  · intro px low high
    rcases Int.lt_or_eq_of_le high with old | new
    · exact area.unbroken px low (by omega)
    · rw [new, traded]
      rfl
  · unfold volumeWithin
    rw [← (parts.map (·.2)).sum_eq, List.map_append, List.sum_append, area.volume]
    simp only [List.map_cons, List.map_nil, List.sum_singleton]
    rfl
  · rw [← parts.length_eq, List.length_append, List.length_singleton]

/-- Taking the bin below extends the area by it. -/
theorem Area.down (proper : Proper bins) (area : Area bins poc lo hi inside)
    (traded : volumeAt bins (lo - 1) = some v) :
    Area bins poc (lo - 1) hi (inside + v) ∧
      (bins.filter (within (lo - 1) hi)).length = (bins.filter (within lo hi)).length + 1 := by
  have ordered := area.below.trans area.above
  have parts := within_perm bins (lo - 1) (lo - 1) hi (by omega) (by omega)
  rw [filter_at proper traded, Int.sub_add_cancel] at parts
  refine ⟨⟨(by have := area.below; omega), area.above, ?_, ?_⟩, ?_⟩
  · intro px low high
    rcases Int.lt_or_eq_of_le low with old | new
    · exact area.unbroken px (by omega) high
    · rw [← new, traded]
      rfl
  · unfold volumeWithin
    rw [← (parts.map (·.2)).sum_eq, List.map_append, List.sum_append, area.volume, add_comm]
    simp only [List.map_cons, List.map_nil, List.sum_singleton]
    rfl
  · rw [← parts.length_eq, List.length_append, List.length_singleton, add_comm]

/-- The expansion ends: with the part of the volume inside, or between two bins that have not
traded. -/
theorem expand_area (proper : Proper bins) (frac : Double) (total : ℚ) (steps : Nat)
    (area : Area bins poc lo hi inside)
    (enough : bins.length < steps + (bins.filter (within lo hi)).length) :
    ∃ low high held, expand bins frac total steps lo hi inside = some (low, high, held) ∧
      Area bins poc low high held ∧
      (¬((held : Double) < frac * (total : Double)) ∨
        volumeAt bins (high + 1) = none ∧ volumeAt bins (low - 1) = none) := by
  induction steps generalizing lo hi inside with
  | zero =>
    have few := List.length_filter_le (within lo hi) bins
    omega
  | succ steps ih =>
    unfold expand
    split_ifs with short
    · cases up : volumeAt bins (hi + 1) with
      | none =>
        cases down : volumeAt bins (lo - 1) with
        | none =>
          rw [if_pos (by decide)]
          exact ⟨lo, hi, inside, rfl, area, .inr ⟨up, down⟩⟩
        | some v =>
          have some := proper.positive _ (volumeAt_mem down)
          simp only [Option.getD_none, Option.getD_some]
          rw [if_neg (fun both => absurd both.2 (not_lt.mpr some.le)),
            if_neg (fun more => absurd (more.trans_lt (by norm_num : (-1 : ℚ) < 0))
              (not_lt.mpr some.le))]
          obtain ⟨wider, longer⟩ := area.down proper down
          exact ih wider (by omega)
      | some u =>
        have some := proper.positive _ (volumeAt_mem up)
        simp only [Option.getD_some]
        rw [if_neg (fun both => absurd both.1 (not_lt.mpr some.le))]
        split_ifs with more
        · obtain ⟨wider, longer⟩ := area.up proper up
          exact ih wider (by omega)
        · cases down : volumeAt bins (lo - 1) with
          | none =>
            rw [down, Option.getD_none] at more
            exact absurd (le_trans (by norm_num : (-1 : ℚ) ≤ 0) some.le) more
          | some v =>
            obtain ⟨wider, longer⟩ := area.down proper down
            exact ih wider (by omega)
    · exact ⟨lo, hi, inside, rfl, area, .inl short⟩

/-- The value area of a session with bins is expanded from the heaviest. -/
theorem valueArea_cons (frac : Double) (first : Int × ℚ) (rest : Histogram) :
    valueArea frac (first :: rest) =
      (expand (first :: rest) frac (totalVolume (first :: rest)) (first :: rest).length
        (heaviest (first :: rest) first.1).1 (heaviest (first :: rest) first.1).1
        (heaviest (first :: rest) first.1).2).map fun area =>
          (area.1, (heaviest (first :: rest) first.1).1, area.2.1, area.2.2) := rfl

/-- Around the lowest heaviest bin the expansion takes a range, which holds the part of the
volume unless it lies between two bins that have not traded. -/
theorem valueArea_area (proper : Proper bins) (traded : bins ≠ []) (frac : Double) :
    ∃ low point high held, valueArea frac bins = some (low, point, high, held) ∧
      LowestHeaviest bins point ∧ Area bins point low high held ∧
      (¬((held : Double) < frac * (totalVolume bins : Double)) ∨
        volumeAt bins (high + 1) = none ∧ volumeAt bins (low - 1) = none) := by
  cases bins with
  | nil => exact absurd rfl traded
  | cons first rest =>
    obtain ⟨isIn, lowest⟩ := heaviest_lowest proper
    obtain ⟨best, isBest⟩ : ∃ best, best = heaviest (first :: rest) first.1 := ⟨_, rfl⟩
    rw [← isBest] at isIn lowest
    have isVolume : volumeAt (first :: rest) best.1 = some best.2 := by
      obtain ⟨v, isV⟩ := Option.isSome_iff_exists.mp (volumeAt_of_mem (v := best.2) isIn)
      have single := filter_at proper isV
      have again : best ∈ (first :: rest).filter (within best.1 best.1) :=
        List.mem_filter.mpr ⟨isIn, by simp [within]⟩
      rw [single, List.mem_singleton] at again
      rw [isV, congrArg Prod.snd again]
    have alone := filter_at proper isVolume
    have start : Area (first :: rest) best.1 best.1 best.1 best.2 := by
      refine ⟨le_refl _, le_refl _, ?_, ?_⟩
      · intro px low high
        rw [le_antisymm high low, isVolume]
        rfl
      · unfold volumeWithin
        rw [alone]
        exact (List.sum_singleton).symm
    obtain ⟨low, high, held, ended, area, stopped⟩ := expand_area proper frac
      (totalVolume (first :: rest)) (first :: rest).length start (by rw [alone]; simp)
    refine ⟨low, best.1, high, held, ?_, lowest, area, stopped⟩
    rw [valueArea_cons, ← isBest, ended]
    rfl

/-- An unbroken run of bins lies in any range of them that ends at bins without trades. -/
theorem Area.maximal (area : Area bins poc lo hi inside) (up : volumeAt bins (hi + 1) = none)
    (down : volumeAt bins (lo - 1) = none) {left right : Int} (low : left ≤ poc)
    (high : poc ≤ right) (run : ∀ px, left ≤ px → px ≤ right → (volumeAt bins px).isSome) :
    lo ≤ left ∧ right ≤ hi := by
  have below := area.below
  have above := area.above
  constructor
  · by_contra beyond
    have traded := run (lo - 1) (by omega) (by omega)
    rw [down] at traded
    exact nomatch traded
  · by_contra beyond
    have traded := run (hi + 1) (by omega) (by omega)
    rw [up] at traded
    exact nomatch traded

end Histogram

open Histogram

/-- A profile's value area: a range around its point of control that contains a bin of the
greatest volume, and this part of the volume of all. -/
structure IsValueArea (frac : ℚ) (bins : Histogram) (vp : VolumeProfile) : Prop where
  ready : vp.ready = true
  below : vp.val ≤ vp.poc
  above : vp.poc ≤ vp.vah
  heaviest : ∃ bin ∈ bins, vp.val ≤ bin.1 ∧ bin.1 + 1 ≤ vp.vah ∧ ∀ other ∈ bins, other.2 ≤ bin.2
  covers : frac * totalVolume bins ≤
    ((bins.filter fun bin => decide (vp.val ≤ bin.1) && decide (bin.1 + 1 ≤ vp.vah)).map
      (·.2)).sum

/-- An unbroken run of bins around the lowest heaviest one holds this part of the volume. -/
def UnbrokenRunHolds (frac : ℚ) (bins : Histogram) : Prop :=
  ∃ point low high, LowestHeaviest bins point ∧ low ≤ point ∧ point ≤ high ∧
    (∀ px, low ≤ px → px ≤ high → ∃ v, (px, v) ∈ bins) ∧
    frac * totalVolume bins ≤ volumeWithin low high bins

/-- The session's end makes a value area of its histogram exactly if an unbroken run of bins
around the lowest heaviest one holds the part of the volume that is asked for. -/
theorem value_area_iff (s : TrendStrategy) (frac : ℚ) (proper : Proper s.vp.cur)
    (traded : s.vp.cur ≠ []) :
    ((valueArea (frac : Double) s.vp.cur).isSome ∧
        IsValueArea frac s.vp.cur (s.finalizeProfile frac).vp) ↔
      UnbrokenRunHolds frac s.vp.cur := by
  obtain ⟨low, point, high, held, isArea, lowest, area, stopped⟩ :=
    valueArea_area proper traded (frac : Double)
  have profile : (s.finalizeProfile frac).vp =
      { cur := [], poc := point + 1 / 2, vah := high + 1, val := low, ready := true } := by
    unfold finalizeProfile
    rw [isArea]
  have range : (fun bin : Int × ℚ => decide ((low : ℚ) ≤ bin.1) &&
      decide ((bin.1 : ℚ) + 1 ≤ (high : ℚ) + 1)) = within low high := by
    funext bin
    unfold within
    rw [Bool.eq_iff_iff]
    simp
  rw [isArea, profile]
  constructor
  · rintro ⟨_, isValueArea⟩
    have covers := isValueArea.covers
    simp only [range] at covers
    refine ⟨point, low, high, lowest, area.below, area.above, ?_, covers⟩
    intro px left right
    obtain ⟨v, isV⟩ := Option.isSome_iff_exists.mp (area.unbroken px left right)
    exact ⟨v, volumeAt_mem isV⟩
  · rintro ⟨point', left, right, lowest', below, above, unbroken, holds⟩
    have same := lowest'.unique lowest
    rw [same] at below above
    have covers : frac * totalVolume s.vp.cur ≤ volumeWithin low high s.vp.cur := by
      rcases stopped with full | ⟨up, down⟩
      · rw [← area.volume]
        rw [Double.fin_mul, Double.fin_lt] at full
        exact not_lt.mp full
      · have inner := area.maximal up down below above fun px from_ to_ => by
          obtain ⟨v, inside⟩ := unbroken px from_ to_
          exact volumeAt_of_mem inside
        exact holds.trans (volumeWithin_mono proper inner.1 inner.2)
    obtain ⟨v, isIn, greatest⟩ := lowest
    refine ⟨rfl, ⟨rfl, ?_, ?_, ⟨(point, v), isIn, ?_, ?_, fun other inside =>
      (greatest other inside).1⟩, ?_⟩⟩
    · have cast : (low : ℚ) ≤ point := by exact_mod_cast area.below
      change (low : ℚ) ≤ point + 1 / 2
      linarith
    · have cast : (point : ℚ) ≤ high := by exact_mod_cast area.above
      change (point : ℚ) + 1 / 2 ≤ high + 1
      linarith
    · change (low : ℚ) ≤ point
      exact_mod_cast area.below
    · change (point : ℚ) + 1 ≤ high + 1
      have cast : (point : ℚ) ≤ high := by exact_mod_cast area.above
      linarith
    · simp only [range]
      exact covers

/-- A session that has traded at two prices five points apart. -/
def gappedSession : TrendStrategy := { vp := { cur := [(100, 10), (105, 9)] } }

/-- The area stops at the empty bin above the heavier price, with ten of nineteen lots. -/
theorem value_area_stops_at_empty_bin :
    Proper gappedSession.vp.cur ∧
      ¬IsValueArea (7 / 10) gappedSession.vp.cur
        (gappedSession.finalizeProfile ((7 / 10 : ℚ) : Double)).vp := by
  refine ⟨⟨by decide +kernel, by decide +kernel⟩, fun isValueArea => ?_⟩
  have covers := isValueArea.covers
  revert covers
  decide +kernel

/-- A session that has traded at three prices side by side. -/
def evenSession : TrendStrategy := { vp := { cur := [(100, 5), (101, 10), (102, 6)] } }

/-- The value area of a session with even bins. -/
theorem value_area_of_even_session :
    Proper evenSession.vp.cur ∧
      (((valueArea ((7 / 10 : ℚ) : Double) evenSession.vp.cur).isSome ∧
          IsValueArea (7 / 10) evenSession.vp.cur
            (evenSession.finalizeProfile ((7 / 10 : ℚ) : Double)).vp) ↔
        UnbrokenRunHolds (7 / 10) evenSession.vp.cur) := by
  have proper : Proper evenSession.vp.cur := ⟨by decide +kernel, by decide +kernel⟩
  exact ⟨proper, value_area_iff evenSession (7 / 10) proper (by decide +kernel)⟩

end RithmicEngine
