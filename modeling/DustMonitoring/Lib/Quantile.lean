import Mathlib.Algebra.Order.Field.Basic
import Mathlib.Data.List.GetD
import Mathlib.Tactic.FieldSimp
import Mathlib.Tactic.Linarith
import DustMonitoring.Lib.Query

/-!
# Order statistics and interpolated quantiles

`rank d xs i` is the value of `xs` at place `i` in ascending order.
`quantile xs num den` interpolates linearly between the two values next to
the place `(xs.length - 1) * num / den`.

Main results:

* `rank_le_quantile`, `quantile_le_rank` -- a quantile is bounded by each
  value whose place is on one side of it;
* `le_rank_of_le_quantile`, `rank_le_of_quantile_le` -- no value of the list
  is strictly between a quantile and the next place;
* `quantile_mono` -- quantiles grow with their fraction.
-/

namespace DustMonitoring.Lib

/-! ## Order statistics -/

section Rank

variable {β : Type*} [LinearOrder β] {d : β} {xs : List β} {i j : Nat}

def rank (d : β) (xs : List β) (i : Nat) : β := (orderBy id xs).getD i d

theorem length_orderBy (xs : List β) : (orderBy id xs).length = xs.length :=
  (perm_orderBy id xs).length_eq

theorem rank_mem (h : i < xs.length) : rank d xs i ∈ xs := by
  have hi : i < (orderBy id xs).length := by rwa [length_orderBy]
  unfold rank
  rw [List.getD_eq_getElem _ _ hi]
  exact (perm_orderBy id xs).mem_iff.mp (List.getElem_mem hi)

theorem exists_rank {x : β} (h : x ∈ xs) : ∃ i < xs.length, rank d xs i = x := by
  have hx : x ∈ orderBy id xs := (perm_orderBy id xs).mem_iff.mpr h
  obtain ⟨i, hi, heq⟩ := List.getElem_of_mem hx
  refine ⟨i, ?_, ?_⟩
  · rwa [length_orderBy] at hi
  · unfold rank
    rw [List.getD_eq_getElem _ _ hi]
    exact heq

theorem rank_le_rank (hij : i ≤ j) (hj : j < xs.length) :
    rank d xs i ≤ rank d xs j := by
  have hj' : j < (orderBy id xs).length := by rwa [length_orderBy]
  have hi' : i < (orderBy id xs).length := by omega
  unfold rank
  rw [List.getD_eq_getElem _ _ hi', List.getD_eq_getElem _ _ hj']
  rcases Nat.lt_or_eq_of_le hij with hlt | heq
  · exact List.pairwise_iff_getElem.mp (pairwise_orderBy id xs) i j hi' hj' hlt
  · subst heq
    exact le_refl _

/-- A value above the one at place `i` is at least the one after it. -/
theorem rank_succ_le {x : β} (hx : x ∈ xs) (hi : i < xs.length)
    (h : rank d xs i < x) : rank d xs (i + 1) ≤ x := by
  obtain ⟨k, hk, rfl⟩ := exists_rank (d := d) hx
  have hik : i < k := by
    by_contra hle
    exact absurd (rank_le_rank (not_lt.mp hle) hi) (not_le.mpr h)
  exact rank_le_rank hik hk

/-- A value below the one after place `i` is at most the one at it. -/
theorem le_rank_of_lt {x : β} (hx : x ∈ xs) (hi : i < xs.length)
    (h : x < rank d xs (i + 1)) : x ≤ rank d xs i := by
  obtain ⟨k, hk, rfl⟩ := exists_rank (d := d) hx
  have hki : k < i + 1 := by
    by_contra hle
    exact absurd (rank_le_rank (not_lt.mp hle) hk) (not_le.mpr h)
  exact rank_le_rank (by omega) hi

omit [LinearOrder β] in
/-- The place before the quantile is one of the list. -/
theorem place_lt {xs : List β} {num den : Nat} (hne : xs ≠ []) (hnum : num ≤ den) :
    (xs.length - 1) * num / den < xs.length := by
  have hlen : 0 < xs.length := List.length_pos_iff.mpr hne
  have hle : (xs.length - 1) * num / den ≤ xs.length - 1 := by
    apply Nat.div_le_of_le_mul
    rw [Nat.mul_comm den]
    exact Nat.mul_le_mul_left _ hnum
  omega

end Rank

/-! ## Interpolation -/

section Quantile

variable {K : Type*} [Field K] [LinearOrder K] [IsStrictOrderedRing K]
  {xs : List K} {num num' den j : Nat}

/-- The value at place `(xs.length - 1) * num / den`, where a broken place
is interpolated between the two values next to it. -/
def quantile (xs : List K) (num den : Nat) : K :=
  let position := (xs.length - 1) * num
  let low := rank 0 xs (position / den)
  let high := rank 0 xs (min (position / den + 1) (xs.length - 1))
  low + (high - low) * ((position % den : Nat) / (den : K))

theorem interpolate_le {low high bound t : K} (hlow : low ≤ bound)
    (hhigh : high ≤ bound) (h0 : 0 ≤ t) (h1 : t ≤ 1) :
    low + (high - low) * t ≤ bound := by
  have hleft := mul_nonneg (sub_nonneg.mpr hhigh) h0
  have hright := mul_nonneg (sub_nonneg.mpr hlow) (sub_nonneg.mpr h1)
  linarith

theorem le_interpolate {low high bound t : K} (hlow : bound ≤ low)
    (hhigh : bound ≤ high) (h0 : 0 ≤ t) (h1 : t ≤ 1) :
    bound ≤ low + (high - low) * t := by
  have hleft := mul_nonneg (sub_nonneg.mpr hhigh) h0
  have hright := mul_nonneg (sub_nonneg.mpr hlow) (sub_nonneg.mpr h1)
  linarith

theorem fraction_nonneg (m den : Nat) : (0 : K) ≤ (m : K) / (den : K) :=
  div_nonneg (Nat.cast_nonneg m) (Nat.cast_nonneg den)

theorem fraction_lt_one {m den : Nat} (h : m < den) : (m : K) / (den : K) < 1 := by
  have hden : (0 : K) < den := Nat.cast_pos.mpr (by omega)
  rw [div_lt_one hden]
  exact Nat.cast_lt.mpr h

theorem fraction_bounds (hden : 0 < den) (m : Nat) :
    (0 : K) ≤ (m % den : Nat) / (den : K) ∧ ((m % den : Nat) : K) / (den : K) < 1 :=
  ⟨fraction_nonneg _ _, fraction_lt_one (Nat.mod_lt m hden)⟩

/-- A quantile is at least every value whose place is not after it. -/
theorem rank_le_quantile (hden : 0 < den) (hnum : num ≤ den) (hne : xs ≠ [])
    (h : den * j ≤ (xs.length - 1) * num) :
    rank 0 xs j ≤ quantile xs num den := by
  have hplace := place_lt hne hnum
  have hj : j ≤ (xs.length - 1) * num / den := by
    rw [Nat.le_div_iff_mul_le hden, Nat.mul_comm]
    exact h
  obtain ⟨h0, h1⟩ := fraction_bounds (K := K) hden ((xs.length - 1) * num)
  apply le_interpolate _ _ h0 h1.le
  · exact rank_le_rank hj hplace
  · exact rank_le_rank (by omega) (by omega)

/-- A quantile is at most every value whose place is not before it. -/
theorem quantile_le_rank (hden : 0 < den) (hj : j < xs.length)
    (h : (xs.length - 1) * num ≤ den * j) :
    quantile xs num den ≤ rank 0 xs j := by
  have hplace : (xs.length - 1) * num / den ≤ j := Nat.div_le_of_le_mul h
  obtain ⟨h0, h1⟩ := fraction_bounds (K := K) hden ((xs.length - 1) * num)
  rcases Nat.lt_or_eq_of_le hplace with hlt | heq
  · apply interpolate_le _ _ h0 h1.le
    · exact rank_le_rank hplace hj
    · exact rank_le_rank (by omega) hj
  · have hmod : (xs.length - 1) * num % den = 0 := by
      have hdiv := Nat.div_add_mod ((xs.length - 1) * num) den
      rw [heq] at hdiv
      omega
    unfold quantile
    simp [hmod, heq]

theorem quantile_mono (hden : 0 < den) (hle : num ≤ num') (hnum : num' ≤ den)
    (hne : xs ≠ []) : quantile xs num den ≤ quantile xs num' den := by
  have hpos : (xs.length - 1) * num ≤ (xs.length - 1) * num' := Nat.mul_le_mul_left _ hle
  have hdiv := Nat.div_le_div_right (c := den) hpos
  have hplace := place_lt hne hnum
  rcases Nat.lt_or_eq_of_le hdiv with hlt | heq
  · calc quantile xs num den
        ≤ rank 0 xs ((xs.length - 1) * num / den + 1) := by
          apply quantile_le_rank hden (by omega)
          rw [Nat.mul_add, Nat.mul_one]
          exact (Nat.lt_mul_div_succ _ hden).le
      _ ≤ quantile xs num' den := by
          apply rank_le_quantile hden hnum hne
          rw [Nat.mul_comm, ← Nat.le_div_iff_mul_le hden]
          exact hlt
  · have hmod : (xs.length - 1) * num % den ≤ (xs.length - 1) * num' % den := by
      have hleft := Nat.div_add_mod ((xs.length - 1) * num) den
      have hright := Nat.div_add_mod ((xs.length - 1) * num') den
      rw [heq] at hleft
      apply Nat.le_of_add_le_add_left (a := den * ((xs.length - 1) * num' / den))
      rw [hleft, hright]
      exact hpos
    have hstep : rank 0 xs ((xs.length - 1) * num' / den) ≤
        rank 0 xs (min ((xs.length - 1) * num' / den + 1) (xs.length - 1)) := by
      generalize (xs.length - 1) * num' / den = place at hplace
      exact rank_le_rank (by omega) (by omega)
    have hfraction : (((xs.length - 1) * num % den : Nat) : K) / (den : K) ≤
        (((xs.length - 1) * num' % den : Nat) : K) / (den : K) :=
      div_le_div_of_nonneg_right (Nat.cast_le.mpr hmod) (Nat.cast_nonneg den)
    unfold quantile
    simp only [heq]
    exact add_le_add_right
      (mul_le_mul_of_nonneg_left hfraction (sub_nonneg.mpr hstep)) _

/-- No value of the list is between the place before a quantile and the
quantile. -/
theorem le_rank_of_le_quantile {x : K} (hden : 0 < den) (hnum : num ≤ den)
    (hx : x ∈ xs) (h : x ≤ quantile xs num den) :
    x ≤ rank 0 xs ((xs.length - 1) * num / den) := by
  have hplace := place_lt (List.ne_nil_of_mem hx) hnum
  obtain ⟨h0, h1⟩ := fraction_bounds (K := K) hden ((xs.length - 1) * num)
  by_contra hlt
  rw [not_le] at hlt
  have hsucc := rank_succ_le hx hplace hlt
  obtain ⟨k, hk, hkx⟩ := exists_rank (d := 0) hx
  have hlast : (xs.length - 1) * num / den + 1 ≤ xs.length - 1 := by
    by_contra hcon
    rw [← hkx] at hlt
    exact absurd (rank_le_rank (by omega) hplace) (not_le.mpr hlt)
  have hq : quantile xs num den < x := by
    unfold quantile
    simp only [min_eq_left hlast]
    have hmul := mul_nonneg (sub_nonneg.mpr hsucc) h0
    have hgap := mul_pos (sub_pos.mpr hlt) (sub_pos.mpr h1)
    linarith
  exact absurd h (not_le.mpr hq)

theorem ceil_of_mod_eq_zero {m : Nat} (hden : 0 < den) (h : m % den = 0) :
    (m + den - 1) / den = m / den := by
  have hdiv := Nat.div_add_mod m den
  apply Nat.div_eq_of_lt_le
  · rw [Nat.mul_comm]
    omega
  · rw [Nat.add_mul, Nat.mul_comm]
    omega

theorem ceil_of_mod_ne_zero {m : Nat} (hden : 0 < den) (h : m % den ≠ 0) :
    (m + den - 1) / den = m / den + 1 := by
  have hdiv := Nat.div_add_mod m den
  have hmod := Nat.mod_lt m hden
  apply Nat.div_eq_of_lt_le
  · rw [Nat.add_mul, Nat.mul_comm]
    omega
  · rw [Nat.add_mul, Nat.add_mul, Nat.mul_comm (m / den)]
    omega

/-- No value of the list is between a quantile and the place after it. -/
theorem rank_le_of_quantile_le {x : K} (hden : 0 < den) (hnum : num ≤ den)
    (hx : x ∈ xs) (h : quantile xs num den ≤ x) :
    rank 0 xs (((xs.length - 1) * num + den - 1) / den) ≤ x := by
  have hplace := place_lt (List.ne_nil_of_mem hx) hnum
  have hdiv := Nat.div_add_mod ((xs.length - 1) * num) den
  have hmod := Nat.mod_lt ((xs.length - 1) * num) hden
  by_cases hzero : (xs.length - 1) * num % den = 0
  · rw [ceil_of_mod_eq_zero hden hzero]
    exact (rank_le_quantile hden hnum (List.ne_nil_of_mem hx) (by omega)).trans h
  · rw [ceil_of_mod_ne_zero hden hzero]
    by_contra hlt
    rw [not_le] at hlt
    have hle := le_rank_of_lt hx hplace hlt
    obtain ⟨k, hk, hkx⟩ := exists_rank (d := 0) hx
    have hlast : (xs.length - 1) * num / den + 1 ≤ xs.length - 1 := by
      have hstrict : (xs.length - 1) * num / den < xs.length - 1 := by
        rw [Nat.div_lt_iff_lt_mul hden]
        apply lt_of_le_of_ne (Nat.mul_le_mul_left _ hnum)
        intro heq
        rw [heq, Nat.mul_mod_left] at hzero
        exact hzero rfl
      omega
    have hfraction := (fraction_bounds (K := K) hden ((xs.length - 1) * num)).2
    have hpos : (0 : K) < (((xs.length - 1) * num % den : Nat) : K) / (den : K) :=
      div_pos (Nat.cast_pos.mpr (by omega)) (Nat.cast_pos.mpr hden)
    have hq : x < quantile xs num den := by
      unfold quantile
      simp only [min_eq_left hlast]
      have hgap := mul_pos (sub_pos.mpr hlt) hpos
      have hmul := mul_nonneg (sub_nonneg.mpr hle) (sub_nonneg.mpr hfraction.le)
      linarith
    exact absurd h (not_le.mpr hq)

end Quantile

end DustMonitoring.Lib
