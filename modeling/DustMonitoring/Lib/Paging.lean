import Mathlib.Algebra.Order.Floor.Div
import Mathlib.Data.List.Sort

/-!
# Pages of an ordered list

`sortBy cmp` puts rows into the order of a comparison and leaves those that
are equal to it as they stood, so the rows of one scan may come out in another
order than those of the next.  `page size p` is a page of the result.

Main results:

* `sortBy_eq_of_perm` -- when no two rows are equal to the comparison, the scan
  does not show;
* `flatMap_page` -- the pages, one after the other, are the list.
-/

namespace DustMonitoring.Lib

variable {α : Type*}

/-! ## The order -/

/-- The rows in the order in which they are scanned. -/
structure Scan (rows : List α) where
  order : List α
  perm : order.Perm rows

/-- The rows in ascending order. -/
def sortBy (cmp : α → α → Ordering) (rows : List α) : List α :=
  rows.insertionSort (fun a b => (cmp a b).isLE = true)

variable {cmp : α → α → Ordering} {rows rows' : List α}

theorem perm_sortBy (cmp : α → α → Ordering) (rows : List α) : (sortBy cmp rows).Perm rows :=
  List.perm_insertionSort _ rows

theorem pairwise_sortBy [Std.TransCmp cmp] (rows : List α) :
    (sortBy cmp rows).Pairwise fun a b => (cmp a b).isLE = true := by
  have htotal : Std.Total (fun a b : α => (cmp a b).isLE = true) := by
    constructor
    intro a b
    by_cases hab : (cmp a b).isLE = true
    · exact Or.inl hab
    · exact Or.inr (Ordering.isLE_of_eq_lt (Std.OrientedCmp.lt_of_not_isLE hab))
  have htrans : IsTrans α (fun a b => (cmp a b).isLE = true) :=
    ⟨fun _ _ _ hab hbc => Std.TransCmp.isLE_trans hab hbc⟩
  exact List.pairwise_insertionSort _ rows

/-- When no two of the rows are equal to the comparison, the order in which
they come does not count. -/
theorem sortBy_eq_of_perm [Std.TransCmp cmp] (hperm : rows.Perm rows')
    (heq : ∀ a ∈ rows, ∀ b ∈ rows, cmp a b = .eq → a = b) :
    sortBy cmp rows = sortBy cmp rows' := by
  have hsorted : (sortBy cmp rows).Perm (sortBy cmp rows') :=
    (perm_sortBy cmp rows).trans (hperm.trans (perm_sortBy cmp rows').symm)
  refine hsorted.eq_of_pairwise ?_ (pairwise_sortBy rows) (pairwise_sortBy rows')
  intro a b ha hb hab hba
  have ha : a ∈ rows := (perm_sortBy cmp rows).mem_iff.mp ha
  have hb : b ∈ rows := hperm.mem_iff.mpr ((perm_sortBy cmp rows').mem_iff.mp hb)
  exact heq a ha b hb (Std.OrientedCmp.isLE_antisymm hab hba)

/-! ## The pages -/

/-- The page with the number, from one on. -/
def page (size : Nat) (rows : List α) (p : Nat) : List α := (rows.drop ((p - 1) * size)).take size

theorem flatMap_page_eq_take (size k : Nat) (rows : List α) :
    (List.range' 1 k).flatMap (page size rows) = rows.take (k * size) := by
  induction k with
  | zero => simp
  | succ k ih =>
    have hlast : page size rows (1 + k) = (rows.drop (k * size)).take size := by
      rw [page, Nat.add_sub_cancel_left]
    rw [List.range'_1_concat, List.flatMap_append, ih, List.flatMap_singleton, hlast,
      Nat.succ_mul, List.take_add]

/-- The pages are the list. -/
theorem flatMap_page {size : Nat} (hsize : 1 ≤ size) (rows : List α) :
    (List.range' 1 (rows.length ⌈/⌉ size)).flatMap (page size rows) = rows := by
  rw [flatMap_page_eq_take, List.take_of_length_le]
  calc rows.length ≤ size • (rows.length ⌈/⌉ size) := le_smul_ceilDiv hsize
    _ = rows.length ⌈/⌉ size * size := by rw [smul_eq_mul, Nat.mul_comm]

end DustMonitoring.Lib
