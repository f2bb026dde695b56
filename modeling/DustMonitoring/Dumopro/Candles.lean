import Mathlib.Algebra.Order.Ring.Rat
import Mathlib.Data.List.MinMax
import DustMonitoring.Lib.Query

/-!
# Box statistics

`compute_box_stats` of `dumopro_core/candles.py`, in exact arithmetic.
`percentile` is the linear interpolation that `np.percentile` does by
default.

The result depends on the order of the values only through the order of
its two lists, `outliers` and `extremes` (`computeBoxStats_eq_sorted_iff`).
-/

namespace DustMonitoring.Dumopro

open DustMonitoring.Lib

/-- `CandleStats`, without `updated_at`. -/
structure CandleStats where
  q1 : Rat
  q3 : Rat
  median : Rat
  iqr : Rat
  upperFence : Rat
  lowerFence : Rat
  extremeUpper : Rat
  extremeLower : Rat
  whiskerHigh : Rat
  whiskerLow : Rat
  outliers : List Rat
  extremes : List Rat
  count : Nat
deriving DecidableEq, Repr

/-- `np.percentile(arr, q)`. -/
def percentile (arr : List Rat) (q : Nat) : Rat :=
  let sorted := orderBy id arr
  let position := (arr.length - 1) * q
  let low := sorted.getD (position / 100) 0
  let high := sorted.getD (min (position / 100 + 1) (arr.length - 1)) 0
  low + (high - low) * ((position % 100 : Nat) / 100 : Rat)

/-- The largest value, or the default when there is none. -/
def arrMax (arr : List Rat) (default : Rat) : Rat := arr.max?.getD default

/-- The smallest value, or the default when there is none. -/
def arrMin (arr : List Rat) (default : Rat) : Rat := arr.min?.getD default

/-- The fences of an array: the bounds of the outliers, and those of the
extremes. -/
structure Fences where
  lower : Rat
  upper : Rat
  extremeLower : Rat
  extremeUpper : Rat

def fences (arr : List Rat) : Fences :=
  let q1 := percentile arr 25
  let q3 := percentile arr 75
  { lower := q1 - 3 / 2 * (q3 - q1)
    upper := q3 + 3 / 2 * (q3 - q1)
    extremeLower := q1 - 3 * (q3 - q1)
    extremeUpper := q3 + 3 * (q3 - q1) }

def Fences.inFence (f : Fences) (x : Rat) : Bool :=
  decide (f.lower ≤ x) && decide (x ≤ f.upper)

/-- `outlier_mask`. -/
def Fences.isOutlier (f : Fences) (x : Rat) : Bool :=
  (decide (f.upper < x) && decide (x ≤ f.extremeUpper)) ||
    (decide (x < f.lower) && decide (f.extremeLower ≤ x))

/-- `extreme_mask`. -/
def Fences.isExtreme (f : Fences) (x : Rat) : Bool :=
  decide (f.extremeUpper < x) || decide (x < f.extremeLower)

/-- `compute_box_stats`; `none` is the `ValueError` of an empty array. -/
def computeBoxStats (arr : List Rat) : Option CandleStats :=
  if arr = [] then none
  else
    let f := fences arr
    let inFence := arr.filter f.inFence
    some
      { q1 := percentile arr 25
        q3 := percentile arr 75
        median := percentile arr 50
        iqr := percentile arr 75 - percentile arr 25
        upperFence := f.upper
        lowerFence := f.lower
        extremeUpper := f.extremeUpper
        extremeLower := f.extremeLower
        whiskerHigh := arrMax inFence (arrMax arr 0)
        whiskerLow := arrMin inFence (arrMin arr 0)
        outliers := arr.filter f.isOutlier
        extremes := arr.filter f.isExtreme
        count := arr.length }

example : (computeBoxStats [1, 2, 3, 4, 5, 6, 7, 8, 100, 18]).map
    (fun s => (s.q1, s.median, s.q3, s.outliers, s.extremes)) =
      some (13 / 4, 11 / 2, 31 / 4, [18], [100]) := by
  decide +kernel

theorem exists_computeBoxStats {arr : List Rat} (h : arr ≠ []) :
    ∃ stats, computeBoxStats arr = some stats := by
  unfold computeBoxStats
  rw [if_neg h]
  exact ⟨_, rfl⟩

theorem count_of_computeBoxStats {arr : List Rat} {stats : CandleStats}
    (h : computeBoxStats arr = some stats) : stats.count = arr.length := by
  unfold computeBoxStats at h
  split at h
  · contradiction
  · exact (congrArg CandleStats.count (Option.some.inj h)).symm

theorem ne_nil_of_computeBoxStats {arr : List Rat} {stats : CandleStats}
    (h : computeBoxStats arr = some stats) : arr ≠ [] := by
  intro hnil
  rw [hnil] at h
  contradiction

/-! ## The order of the values -/

section Perm

variable {xs ys : List Rat}

theorem orderBy_eq_of_perm (h : xs.Perm ys) : orderBy id xs = orderBy id ys :=
  eq_orderBy_of_perm ((perm_orderBy id xs).trans h) (pairwise_orderBy id xs)

theorem percentile_eq_of_perm (h : xs.Perm ys) (q : Nat) :
    percentile xs q = percentile ys q := by
  unfold percentile
  rw [orderBy_eq_of_perm h, h.length_eq]

theorem arrMax_eq_of_perm (h : xs.Perm ys) (d : Rat) :
    arrMax xs d = arrMax ys d := by
  unfold arrMax
  rw [List.getD_max?_eq_unbotD_maximum, List.getD_max?_eq_unbotD_maximum,
    h.maximum_eq]

theorem arrMin_eq_of_perm (h : xs.Perm ys) (d : Rat) :
    arrMin xs d = arrMin ys d := by
  unfold arrMin
  rw [List.getD_min?_eq_untopD_minimum, List.getD_min?_eq_untopD_minimum,
    h.minimum_eq]

theorem fences_eq_of_perm (h : xs.Perm ys) : fences xs = fences ys := by
  unfold fences
  rw [percentile_eq_of_perm h, percentile_eq_of_perm h]

end Perm

/-- A filtered list is in order exactly when filtering the ordered list
gives the same. -/
theorem filter_orderBy_eq_iff (p : Rat → Bool) (xs : List Rat) :
    (orderBy id xs).filter p = xs.filter p ↔
      (xs.filter p).Pairwise (fun a b => a ≤ b) := by
  have hsorted := (pairwise_orderBy id xs).filter p
  have hperm := (perm_orderBy id xs).filter p
  constructor
  · intro h
    rw [← h]
    exact hsorted
  · intro h
    rw [eq_orderBy_of_perm hperm hsorted]
    exact (eq_orderBy_of_perm (List.Perm.refl _) h).symm

/-- The outliers of the values are in ascending order among themselves, and
so are the extremes. -/
def BeyondSorted (xs : List Rat) : Prop :=
  (xs.filter (fences xs).isOutlier).Pairwise (fun a b => a ≤ b) ∧
    (xs.filter (fences xs).isExtreme).Pairwise (fun a b => a ≤ b)

instance (xs : List Rat) : Decidable (BeyondSorted xs) :=
  inferInstanceAs (Decidable (_ ∧ _))

/-- The box statistics of the values in ascending order are those of the
values as they are exactly when the values beyond the fences are in
ascending order. -/
theorem computeBoxStats_eq_sorted_iff (xs : List Rat) :
    computeBoxStats (orderBy id xs) = computeBoxStats xs ↔ BeyondSorted xs := by
  have hperm : (orderBy id xs).Perm xs := perm_orderBy id xs
  by_cases hnil : xs = []
  · subst hnil
    exact iff_of_true rfl ⟨List.Pairwise.nil, List.Pairwise.nil⟩
  · have hnil' : orderBy id xs ≠ [] := by
      intro h
      rw [h] at hperm
      exact hnil hperm.symm.eq_nil
    have hfences := fences_eq_of_perm hperm
    have hin := hperm.filter (fences xs).inFence
    unfold computeBoxStats BeyondSorted
    rw [if_neg hnil, if_neg hnil']
    simp only [hfences, percentile_eq_of_perm hperm, arrMax_eq_of_perm hperm,
      arrMin_eq_of_perm hperm, arrMax_eq_of_perm hin, arrMin_eq_of_perm hin,
      hperm.length_eq, Option.some.injEq, CandleStats.mk.injEq, true_and, and_true,
      filter_orderBy_eq_iff]

end DustMonitoring.Dumopro
