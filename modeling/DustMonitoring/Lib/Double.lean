import Mathlib.Algebra.Order.Ring.Rat

/-!
# Doubles in exact arithmetic

A `Double` is a finite rational, one of the two infinities, or NaN.  The
finite values are not rounded: the development uses doubles for the order
comparisons of the source and never for its arithmetic.  `gt` is the `>`
of IEEE 754, which is false as soon as one side is NaN, and `ofInt` is the
conversion of an integer.
-/

namespace DustMonitoring.Lib

/-- The value of a double. -/
inductive Double where
  | nan
  | negInf
  | finite (q : Rat)
  | posInf
deriving DecidableEq, Repr

namespace Double

/-- `x > y` of IEEE 754. -/
def gt : Double → Double → Bool
  | nan, _ => false
  | _, nan => false
  | _, posInf => false
  | posInf, _ => true
  | negInf, _ => false
  | finite _, negInf => true
  | finite x, finite y => decide (y < x)

@[simp] theorem nan_gt (x : Double) : gt nan x = false := by
  cases x <;> rfl

@[simp] theorem negInf_gt (x : Double) : gt negInf x = false := by
  cases x <;> rfl

@[simp] theorem gt_nan (x : Double) : gt x nan = false := by
  cases x <;> rfl

theorem gt_trans {x y z : Double} (hxy : gt x y = true) (hyz : gt y z = true) :
    gt x z = true := by
  cases x <;> cases y <;> cases z <;> simp_all [gt]
  case finite.finite.finite => exact hyz.trans hxy

/-- Apart from NaN the order is total. -/
theorem gt_of_not_gt {x y z : Double} (hx : x ≠ nan) (hyx : gt y x = false)
    (hyz : gt y z = true) : gt x z = true := by
  cases x <;> cases y <;> cases z <;> simp_all [gt]
  case finite.finite.finite => exact hyz.trans_le hyx

/-- The double nearest to an integer, ties to the even one.  There is none
when the integer is too large. -/
def ofInt (n : Int) : Option Double :=
  let a := n.natAbs
  let shift := Nat.log2 a + 1 - 53
  let quotient := a >>> shift
  let rest := a % 2 ^ shift
  let half := 2 ^ shift / 2
  let up := decide (half < rest) ||
    (decide (0 < shift) && rest == half && quotient % 2 == 1)
  let rounded := (quotient + if up then 1 else 0) * 2 ^ shift
  if rounded < 2 ^ 1024 then
    some (finite (if n < 0 then -(rounded : Rat) else (rounded : Rat)))
  else none

example : ofInt (2 ^ 53 + 1) = some (.finite 9007199254740992) ∧
    ofInt (-3) = some (.finite (-3)) ∧ ofInt (2 ^ 1024) = none := by
  decide +kernel

end Double

end DustMonitoring.Lib
