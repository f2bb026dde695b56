import Mathlib.Data.List.Lex
import Mathlib.Data.String.Basic
import DustMonitoring.Lib.Text

/-!
# Texts of numbers with fixed widths

A layout says how wide each number of a text is and what stands before it.
Texts of one layout have the order of their numbers.

Main results:

* `toList_zeroPad` -- a zero-padded decimal consists of its digits;
* `digits_lt` -- decimals of one width are ordered as their numbers;
* `render_lt` -- texts of one layout are ordered as the lists of their numbers.
-/

namespace DustMonitoring.Lib

/-! ## Lists of one length -/

section Lex

variable {α : Type*} [LinearOrder α] {xs ys : List α}

/-- What decides between two lists of one length decides between all their
continuations. -/
theorem append_lt_append_of_lt (hlength : xs.length = ys.length) (hlt : xs < ys)
    (s t : List α) : xs ++ s < ys ++ t := by
  induction xs generalizing ys with
  | nil =>
    rw [List.length_nil, eq_comm, List.length_eq_zero_iff] at hlength
    subst hlength
    exact absurd hlt (lt_irrefl _)
  | cons x xs ih =>
    cases ys with
    | nil => exact absurd hlength (by simp)
    | cons y ys =>
      rw [List.cons_append, List.cons_append, List.cons_lt_cons_iff]
      rcases List.cons_lt_cons_iff.mp hlt with hxy | ⟨rfl, hrest⟩
      · exact Or.inl hxy
      · exact Or.inr ⟨rfl, ih (Nat.succ.inj hlength) hrest⟩

end Lex

/-! ## Decimals -/

/-- The last `width` decimal digits of a number. -/
def digits : Nat → Nat → List Char
  | 0, _ => []
  | width + 1, n => digits width (n / 10) ++ [(n % 10).digitChar]

@[simp] theorem length_digits (width n : Nat) : (digits width n).length = width := by
  induction width generalizing n with
  | zero => rfl
  | succ width ih => rw [digits, List.length_append, ih, List.length_singleton]

theorem isDigit_digitChar : ∀ d < 10, (Nat.digitChar d).isDigit = true := by decide

theorem digitChar_lt : ∀ d < 10, ∀ c < d, Nat.digitChar c < Nat.digitChar d := by decide

theorem isDigit_of_mem_digits {width n : Nat} {c : Char} (hc : c ∈ digits width n) :
    c.isDigit = true := by
  induction width generalizing n with
  | zero => cases hc
  | succ width ih =>
    rw [digits, List.mem_append, List.mem_singleton] at hc
    rcases hc with hc | rfl
    · exact ih hc
    · exact isDigit_digitChar _ (Nat.mod_lt n (by omega))

/-- Decimals of one width are ordered as their numbers. -/
theorem digits_lt {width m n : Nat} (hlt : m < n) (hn : n < 10 ^ width) :
    digits width m < digits width n := by
  induction width generalizing m n with
  | zero =>
    rw [pow_zero] at hn
    omega
  | succ width ih =>
    rw [digits, digits]
    rcases Nat.lt_or_eq_of_le (Nat.div_le_div_right hlt.le : m / 10 ≤ n / 10) with hdiv | hdiv
    · have hn' : n / 10 < 10 ^ width := Nat.div_lt_of_lt_mul (by rwa [pow_succ'] at hn)
      exact append_lt_append_of_lt (by simp) (ih hdiv hn') _ _
    · rw [hdiv]
      apply List.append_left_lt
      rw [List.cons_lt_cons_iff]
      exact Or.inl (digitChar_lt _ (Nat.mod_lt n (by omega)) _ (by omega))

/-- The digits of a number that needs them all. -/
theorem digits_eq_toDigits {width n : Nat} (hlow : 10 ^ width ≤ n) (hhigh : n < 10 ^ (width + 1)) :
    digits (width + 1) n = Nat.toDigits 10 n := by
  induction width generalizing n with
  | zero =>
    rw [Nat.toDigits_of_lt_base (by omega), digits, digits, Nat.mod_eq_of_lt (by omega)]
    rfl
  | succ width ih =>
    rw [pow_succ] at hlow hhigh
    have hten : 10 ≤ n := by
      have := Nat.one_le_pow width 10 (by omega)
      omega
    rw [Nat.toDigits_of_base_le (by omega) hten, digits, ih (by omega) (by omega)]

theorem digits_succ_of_lt {width n : Nat} (h : n < 10 ^ width) :
    digits (width + 1) n = '0' :: digits width n := by
  induction width generalizing n with
  | zero =>
    obtain rfl : n = 0 := by simpa using h
    rfl
  | succ width ih =>
    have hn : n / 10 < 10 ^ width := Nat.div_lt_of_lt_mul (by rwa [pow_succ'] at h)
    rw [digits, ih hn]
    rfl

/-- A zero-padded decimal consists of its digits. -/
theorem toList_zeroPad {width n : Nat} (hwidth : 0 < width) (h : n < 10 ^ width) :
    (zeroPad width n).toList = digits width n := by
  rw [zeroPad, String.toList_append, toList_pushn, Nat.toString_eq_repr, ← String.length_toList,
    Nat.toList_repr]
  show List.replicate (width - (Nat.toDigits 10 n).length) '0' ++ Nat.toDigits 10 n = _
  obtain ⟨width, rfl⟩ : ∃ k, width = k + 1 := ⟨width - 1, by omega⟩
  clear hwidth
  induction width with
  | zero =>
    rw [Nat.toDigits_of_lt_base (by omega), digits, digits, Nat.mod_eq_of_lt (by omega)]
    rfl
  | succ width ih =>
    by_cases hlt : n < 10 ^ (width + 1)
    · have hlength := (Nat.length_toDigits_le_iff (by omega) (Nat.succ_pos width)).mpr hlt
      rw [digits_succ_of_lt hlt, ← ih hlt, Nat.succ_sub hlength, List.replicate_succ,
        List.cons_append]
    · rw [← digits_eq_toDigits (by omega) h, length_digits, Nat.sub_self]
      rfl

/-- A decimal that is long enough is not padded. -/
theorem toList_zeroPad_of_le {width k n : Nat} (hwidth : width ≤ k + 1) (hlow : 10 ^ k ≤ n)
    (hhigh : n < 10 ^ (k + 1)) : (zeroPad width n).toList = digits (k + 1) n := by
  rw [zeroPad, String.toList_append, toList_pushn, Nat.toString_eq_repr, ← String.length_toList,
    Nat.toList_repr]
  show List.replicate (width - (Nat.toDigits 10 n).length) '0' ++ Nat.toDigits 10 n = _
  rw [← digits_eq_toDigits hlow hhigh, length_digits, Nat.sub_eq_zero_of_le hwidth]
  rfl

/-! ## Layouts -/

/-- What stands before each number, and how wide it is. -/
abbrev Layout := List (List Char × Nat)

/-- The text of the numbers. -/
def render : Layout → List Nat → List Char
  | (sep, width) :: layout, n :: ns => sep ++ (digits width n ++ render layout ns)
  | _, _ => []

/-- There is one number for each place, and it fits. -/
def FitsLayout (layout : Layout) (ns : List Nat) : Prop :=
  List.Forall₂ (fun field n => n < 10 ^ field.2) layout ns

/-- Texts of one layout are ordered as the lists of their numbers. -/
theorem render_lt {layout : Layout} {ms ns : List Nat} (hm : FitsLayout layout ms)
    (hn : FitsLayout layout ns) (hlt : ms < ns) : render layout ms < render layout ns := by
  induction hm generalizing ns with
  | nil =>
    cases hn
    exact absurd hlt (lt_irrefl _)
  | cons hfield hrest ih =>
    cases hn with
    | cons hfield' hrest' =>
      apply List.append_left_lt
      rcases List.cons_lt_cons_iff.mp hlt with hnumber | ⟨rfl, htail⟩
      · exact append_lt_append_of_lt (by simp) (digits_lt hnumber hfield') _ _
      · exact List.append_left_lt (ih hrest' htail)

end DustMonitoring.Lib
