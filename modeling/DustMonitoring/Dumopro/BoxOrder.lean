import DustMonitoring.Dumopro.Candles
import DustMonitoring.Lib.Quantile

/-!
# The shape of a box

The quartiles that `compute_box_stats` takes are interpolated between two
values, its whiskers are values of the array.

Main results:

* `computeBoxStats_partition` -- some value is inside the fences, every
  value is inside, an outlier or an extreme and only one of these, and the
  whiskers are the smallest and the largest value inside;
* `computeBoxStats_ordered` -- the quartiles are in order and the whiskers
  on both sides of the median.  A whisker ends inside of the box when the
  value next to the quartile is beyond its fence.
-/

namespace DustMonitoring.Dumopro

open DustMonitoring.Lib

variable {arr : List Rat}

/-! ## Quartiles -/

theorem percentile_eq_quantile (arr : List Rat) (q : Nat) :
    percentile arr q = quantile arr q 100 := by
  unfold percentile quantile rank
  simp

theorem rank_le_percentile {q j : Nat} (hne : arr ≠ []) (hq : q ≤ 100)
    (h : 100 * j ≤ (arr.length - 1) * q) : rank 0 arr j ≤ percentile arr q := by
  rw [percentile_eq_quantile]
  exact rank_le_quantile (by omega) hq hne h

theorem percentile_le_rank {q j : Nat} (hj : j < arr.length)
    (h : (arr.length - 1) * q ≤ 100 * j) : percentile arr q ≤ rank 0 arr j := by
  rw [percentile_eq_quantile]
  exact quantile_le_rank (by omega) hj h

theorem percentile_mono {p q : Nat} (hne : arr ≠ []) (hpq : p ≤ q) (hq : q ≤ 100) :
    percentile arr p ≤ percentile arr q := by
  rw [percentile_eq_quantile, percentile_eq_quantile]
  exact quantile_mono (by omega) hpq hq hne

/-- The fences are around the quartiles. -/
theorem fences_around (hne : arr ≠ []) :
    (fences arr).extremeLower ≤ (fences arr).lower ∧
      (fences arr).lower ≤ percentile arr 25 ∧
      percentile arr 25 ≤ percentile arr 75 ∧
      percentile arr 75 ≤ (fences arr).upper ∧
      (fences arr).upper ≤ (fences arr).extremeUpper := by
  have hquartiles : percentile arr 25 ≤ percentile arr 75 :=
    percentile_mono hne (by omega) (by omega)
  unfold fences
  dsimp only
  refine ⟨?_, ?_, hquartiles, ?_, ?_⟩ <;> linarith

theorem inFence_iff {f : Fences} {x : Rat} :
    f.inFence x = true ↔ f.lower ≤ x ∧ x ≤ f.upper := by
  simp [Fences.inFence]

theorem inFence_of_between {x : Rat} (hne : arr ≠ []) (hlow : percentile arr 25 ≤ x)
    (hhigh : x ≤ percentile arr 75) : (fences arr).inFence x = true := by
  obtain ⟨-, hlower, -, hupper, -⟩ := fences_around hne
  exact inFence_iff.mpr ⟨hlower.trans hlow, hhigh.trans hupper⟩

/-! ## The values inside -/

/-- `in_fence` -/
def inFence (arr : List Rat) : List Rat := arr.filter (fences arr).inFence

theorem mem_inFence {x : Rat} :
    x ∈ inFence arr ↔ x ∈ arr ∧ (fences arr).lower ≤ x ∧ x ≤ (fences arr).upper := by
  rw [inFence, List.mem_filter, inFence_iff]

/-- The quartiles of two values are a quarter of their distance inside, and
the fences go past both. -/
theorem inFence_of_length_two (h : arr.length = 2) {j : Nat} (hj : j < 2) :
    rank 0 arr j ∈ inFence arr := by
  have hstep : rank 0 arr 0 ≤ rank 0 arr 1 := rank_le_rank (by omega) (by omega)
  have hq (q : Nat) (hq : q < 100) : percentile arr q =
      rank 0 arr 0 + (rank 0 arr 1 - rank 0 arr 0) * ((q : Rat) / 100) := by
    rw [percentile_eq_quantile, quantile]
    simp [h, Nat.div_eq_of_lt hq, Nat.mod_eq_of_lt hq]
  have hj' : j = 0 ∨ j = 1 := by omega
  refine mem_inFence.mpr ⟨rank_mem (by omega), ?_⟩
  unfold fences
  dsimp only
  rw [hq 25 (by omega), hq 75 (by omega)]
  push_cast
  rcases hj' with rfl | rfl
  · constructor <;> linarith
  · constructor <;> linarith

/-- The median is between two values inside the fences. -/
theorem exists_inFence_around_median (hne : arr ≠ []) :
    (∃ x ∈ inFence arr, x ≤ percentile arr 50) ∧
      ∃ x ∈ inFence arr, percentile arr 50 ≤ x := by
  have hlen : 0 < arr.length := List.length_pos_iff.mpr hne
  by_cases htwo : arr.length = 2
  · refine ⟨⟨rank 0 arr 0, inFence_of_length_two htwo (by omega), ?_⟩,
      rank 0 arr 1, inFence_of_length_two htwo (by omega), ?_⟩
    · exact rank_le_percentile hne (by omega) (by omega)
    · exact percentile_le_rank (by omega) (by omega)
  · refine ⟨⟨rank 0 arr ((arr.length + 2) / 4), ?_, ?_⟩,
      rank 0 arr (3 * (arr.length - 1) / 4), ?_, ?_⟩
    · refine List.mem_filter.mpr ⟨rank_mem (by omega), inFence_of_between hne ?_ ?_⟩
      · exact percentile_le_rank (by omega) (by omega)
      · exact rank_le_percentile hne (by omega) (by omega)
    · exact rank_le_percentile hne (by omega) (by omega)
    · refine List.mem_filter.mpr ⟨rank_mem (by omega), inFence_of_between hne ?_ ?_⟩
      · exact percentile_le_rank (by omega) (by omega)
      · exact rank_le_percentile hne (by omega) (by omega)
    · exact percentile_le_rank (by omega) (by omega)

theorem inFence_ne_nil (hne : arr ≠ []) : inFence arr ≠ [] := by
  obtain ⟨⟨x, hx, -⟩, -⟩ := exists_inFence_around_median hne
  exact List.ne_nil_of_mem hx

/-! ## The three sets -/

/-- A value that is not inside the fences is an outlier or an extreme, not
both. -/
theorem three_ways (hne : arr ≠ []) (x : Rat) :
    ((fences arr).inFence x = true ∧ (fences arr).isOutlier x = false ∧
        (fences arr).isExtreme x = false) ∨
      ((fences arr).inFence x = false ∧ (fences arr).isOutlier x = true ∧
        (fences arr).isExtreme x = false) ∨
      ((fences arr).inFence x = false ∧ (fences arr).isOutlier x = false ∧
        (fences arr).isExtreme x = true) := by
  obtain ⟨hextremeLower, hlower, hquartiles, hupper, hextremeUpper⟩ := fences_around hne
  unfold Fences.inFence Fences.isOutlier Fences.isExtreme
  simp only [Bool.and_eq_true, Bool.or_eq_true, decide_eq_true_eq, Bool.and_eq_false_iff,
    Bool.or_eq_false_iff, decide_eq_false_iff_not, not_le, not_lt]
  grind

/-- Parts that take every element once. -/
theorem perm_parts {α : Type*} {p q r : α → Bool} (xs : List α)
    (h : ∀ x, (p x = true ∧ q x = false ∧ r x = false) ∨
      (p x = false ∧ q x = true ∧ r x = false) ∨
      (p x = false ∧ q x = false ∧ r x = true)) :
    xs.Perm (xs.filter p ++ (xs.filter q ++ xs.filter r)) := by
  induction xs with
  | nil => exact List.Perm.refl _
  | cons x xs ih =>
    rcases h x with ⟨hp, hq, hr⟩ | ⟨hp, hq, hr⟩ | ⟨hp, hq, hr⟩
    · simp only [List.filter_cons, hp, hq, hr, if_true, Bool.false_eq_true, if_false,
        List.cons_append]
      exact ih.cons x
    · simp only [List.filter_cons, hp, hq, hr, if_true, Bool.false_eq_true, if_false,
        List.cons_append]
      exact (ih.cons x).trans List.perm_middle.symm
    · simp only [List.filter_cons, hp, hq, hr, if_true, Bool.false_eq_true, if_false]
      rw [← List.append_assoc]
      refine (ih.cons x).trans ?_
      rw [← List.append_assoc]
      exact List.perm_middle.symm

/-! ## Whiskers -/

theorem arrMax_spec {xs : List Rat} (hne : xs ≠ []) (d : Rat) :
    arrMax xs d ∈ xs ∧ ∀ x ∈ xs, x ≤ arrMax xs d := by
  unfold arrMax
  cases hmax : xs.max? with
  | none => exact absurd (List.max?_eq_none_iff.mp hmax) hne
  | some top => exact List.max?_eq_some_iff.mp hmax

theorem arrMin_spec {xs : List Rat} (hne : xs ≠ []) (d : Rat) :
    arrMin xs d ∈ xs ∧ ∀ x ∈ xs, arrMin xs d ≤ x := by
  unfold arrMin
  cases hmin : xs.min? with
  | none => exact absurd (List.min?_eq_none_iff.mp hmin) hne
  | some bottom => exact List.min?_eq_some_iff.mp hmin

/-- What `compute_box_stats` gives for some values. -/
theorem computeBoxStats_of_ne_nil (hne : arr ≠ []) :
    computeBoxStats arr = some
      { q1 := percentile arr 25
        q3 := percentile arr 75
        median := percentile arr 50
        iqr := percentile arr 75 - percentile arr 25
        upperFence := (fences arr).upper
        lowerFence := (fences arr).lower
        extremeUpper := (fences arr).extremeUpper
        extremeLower := (fences arr).extremeLower
        whiskerHigh := arrMax (inFence arr) (arrMax arr 0)
        whiskerLow := arrMin (inFence arr) (arrMin arr 0)
        outliers := arr.filter (fences arr).isOutlier
        extremes := arr.filter (fences arr).isExtreme
        count := arr.length } := by
  unfold computeBoxStats
  rw [if_neg hne]
  rfl

/-- The values are divided into those inside the fences, the outliers and
the extremes; the whiskers are the ends of those inside. -/
theorem computeBoxStats_partition (hne : arr ≠ []) :
    ∃ stats, computeBoxStats arr = some stats ∧ inFence arr ≠ [] ∧
      (∀ x ∈ arr,
        (x ∈ inFence arr ∧ x ∉ stats.outliers ∧ x ∉ stats.extremes) ∨
        (x ∉ inFence arr ∧ x ∈ stats.outliers ∧ x ∉ stats.extremes) ∨
        (x ∉ inFence arr ∧ x ∉ stats.outliers ∧ x ∈ stats.extremes)) ∧
      arr.Perm (inFence arr ++ (stats.outliers ++ stats.extremes)) ∧
      (inFence arr).length + stats.outliers.length + stats.extremes.length =
        stats.count ∧
      (stats.whiskerLow ∈ inFence arr ∧ ∀ x ∈ inFence arr, stats.whiskerLow ≤ x) ∧
      stats.whiskerHigh ∈ inFence arr ∧ ∀ x ∈ inFence arr, x ≤ stats.whiskerHigh := by
  have hinside := inFence_ne_nil hne
  have hperm := perm_parts arr (three_ways hne)
  refine ⟨_, computeBoxStats_of_ne_nil hne, hinside, ?_, hperm, ?_,
    arrMin_spec hinside _, arrMax_spec hinside _⟩
  · intro x hx
    have hways := three_ways hne x
    simp only [inFence, List.mem_filter, hx, true_and]
    simpa only [Bool.not_eq_true] using hways
  · have hlength := hperm.length_eq
    simp only [List.length_append] at hlength
    simp only [inFence]
    omega

theorem computeBoxStats_partition_sample :
    ([-100, 0, 0, 0] : List Rat) ≠ [] ∧
      ∃ stats, computeBoxStats [-100, 0, 0, 0] = some stats ∧
        inFence [-100, 0, 0, 0] ≠ [] ∧ stats.whiskerLow ∈ inFence [-100, 0, 0, 0] := by
  have hne : ([-100, 0, 0, 0] : List Rat) ≠ [] := List.cons_ne_nil _ _
  obtain ⟨stats, hstats, hinside, -, -, -, ⟨hlow, -⟩, -⟩ := computeBoxStats_partition hne
  exact ⟨hne, stats, hstats, hinside, hlow⟩

/-! ## The order of a box -/

/-- `25 / 100` of the way is a quarter of it. -/
theorem place_q1 (n : Nat) : n * 25 / 100 = n / 4 := by
  omega

theorem place_q3 (n : Nat) : (n * 75 + 100 - 1) / 100 = (3 * n + 3) / 4 := by
  omega

/-- A whisker is below `q1` as far as the value before `q1` is inside. -/
theorem whiskerLow_le_q1_iff (hne : arr ≠ []) (d : Rat) :
    arrMin (inFence arr) d ≤ percentile arr 25 ↔
      (fences arr).lower ≤ rank 0 arr ((arr.length - 1) / 4) := by
  have hlen : 0 < arr.length := List.length_pos_iff.mpr hne
  obtain ⟨hmem, hleast⟩ := arrMin_spec (inFence_ne_nil hne) d
  obtain ⟨-, hlower, hquartiles, hupper, -⟩ := fences_around hne
  have hrank : rank 0 arr ((arr.length - 1) / 4) ≤ percentile arr 25 :=
    rank_le_percentile hne (by omega) (by omega)
  constructor
  · intro h
    rw [percentile_eq_quantile] at h
    have hle := le_rank_of_le_quantile (by omega) (by omega) (mem_inFence.mp hmem).1 h
    rw [place_q1] at hle
    exact (mem_inFence.mp hmem).2.1.trans hle
  · intro h
    have hinside : rank 0 arr ((arr.length - 1) / 4) ∈ inFence arr :=
      mem_inFence.mpr ⟨rank_mem (by omega), h, hrank.trans (hquartiles.trans hupper)⟩
    exact (hleast _ hinside).trans hrank

theorem q3_le_whiskerHigh_iff (hne : arr ≠ []) (d : Rat) :
    percentile arr 75 ≤ arrMax (inFence arr) d ↔
      rank 0 arr ((3 * (arr.length - 1) + 3) / 4) ≤ (fences arr).upper := by
  have hlen : 0 < arr.length := List.length_pos_iff.mpr hne
  obtain ⟨hmem, hgreatest⟩ := arrMax_spec (inFence_ne_nil hne) d
  obtain ⟨-, hlower, hquartiles, hupper, -⟩ := fences_around hne
  have hrank : percentile arr 75 ≤ rank 0 arr ((3 * (arr.length - 1) + 3) / 4) :=
    percentile_le_rank (by omega) (by omega)
  constructor
  · intro h
    rw [percentile_eq_quantile] at h
    have hle := rank_le_of_quantile_le (by omega) (by omega) (mem_inFence.mp hmem).1 h
    rw [place_q3] at hle
    exact hle.trans (mem_inFence.mp hmem).2.2
  · intro h
    have hinside : rank 0 arr ((3 * (arr.length - 1) + 3) / 4) ∈ inFence arr :=
      mem_inFence.mpr ⟨rank_mem (by omega), (hlower.trans hquartiles).trans hrank, h⟩
    exact hrank.trans (hgreatest _ hinside)

/-- The quartiles and the median are in order, the median is between the
whiskers.  A whisker reaches its side of the box exactly when the value next
to the quartile is inside the fence. -/
theorem computeBoxStats_ordered (hne : arr ≠ []) :
    ∃ stats, computeBoxStats arr = some stats ∧
      stats.q1 ≤ stats.median ∧ stats.median ≤ stats.q3 ∧
      stats.whiskerLow ≤ stats.median ∧ stats.median ≤ stats.whiskerHigh ∧
      (stats.whiskerLow ≤ stats.q1 ↔
        stats.lowerFence ≤ rank 0 arr ((arr.length - 1) / 4)) ∧
      (stats.q3 ≤ stats.whiskerHigh ↔
        rank 0 arr ((3 * (arr.length - 1) + 3) / 4) ≤ stats.upperFence) := by
  have hinside := inFence_ne_nil hne
  obtain ⟨⟨below, hbelow, hle⟩, above, habove, hge⟩ := exists_inFence_around_median hne
  refine ⟨_, computeBoxStats_of_ne_nil hne, percentile_mono hne (by omega) (by omega),
    percentile_mono hne (by omega) (by omega), ?_, ?_, whiskerLow_le_q1_iff hne _,
    q3_le_whiskerHigh_iff hne _⟩
  · exact ((arrMin_spec hinside _).2 below hbelow).trans hle
  · exact hge.trans ((arrMax_spec hinside _).2 above habove)

theorem computeBoxStats_ordered_sample :
    ([-100, 0, 0, 0] : List Rat) ≠ [] ∧
      ∃ stats, computeBoxStats [-100, 0, 0, 0] = some stats ∧
        stats.q1 ≤ stats.median ∧ ¬ stats.whiskerLow ≤ stats.q1 := by
  have hne : ([-100, 0, 0, 0] : List Rat) ≠ [] := List.cons_ne_nil _ _
  obtain ⟨stats, hstats, hquartile, -, -, -, hlow, -⟩ := computeBoxStats_ordered hne
  refine ⟨hne, stats, hstats, hquartile, ?_⟩
  rw [hlow, not_le]
  have hcomputed : (computeBoxStats [-100, 0, 0, 0]).map (fun s => s.lowerFence) =
      some (-125 / 2) := by
    decide +kernel
  rw [hstats] at hcomputed
  have hfence : stats.lowerFence = -125 / 2 := Option.some.inj hcomputed
  rw [hfence]
  decide +kernel

/-- The lowest of four values is an outlier, and pulls `q1` below the others
all the same. -/
theorem whiskers_inside_the_box :
    ¬ ∀ arr : List Rat, arr ≠ [] → ∃ stats, computeBoxStats arr = some stats ∧
      stats.whiskerLow ≤ stats.q1 ∧ stats.q1 ≤ stats.median ∧
      stats.median ≤ stats.q3 ∧ stats.q3 ≤ stats.whiskerHigh := by
  intro h
  obtain ⟨stats, hstats, hlow, -⟩ := h [-100, 0, 0, 0] (List.cons_ne_nil _ _)
  have hcomputed : (computeBoxStats [-100, 0, 0, 0]).map
      (fun s => decide (s.whiskerLow ≤ s.q1)) = some false := by
    decide +kernel
  rw [hstats] at hcomputed
  exact of_decide_eq_false (Option.some.inj hcomputed) hlow

end DustMonitoring.Dumopro
