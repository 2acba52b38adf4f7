import Mathlib
import TrafficBoard.Series.Count

namespace TrafficBoard

/-!
# Exact counts — when adding up is addition

* `Count.Exact` says that the operations on counts are those of an ordered group, so that nothing is
  rounded and the order of a sum does not matter;
* `Count.total_eq_sum` and `Count.sum_eq_sum` turn the two ways to add up a list into its sum;
* whole numbers and fractions are exact, doubles are not.
-/

namespace Count

/-- Counts that are exact numbers: every operation is the one of an ordered group. -/
class Exact (α : Type) [Count α] [AddCommGroup α] [LinearOrder α] : Prop where
  zero_eq : (zero : α) = 0
  emptySum_eq : (emptySum : α) = 0
  add_eq (a b : α) : add a b = a + b
  sub_eq (a b : α) : sub a b = a - b
  isZero_iff (a : α) : isZero a = true ↔ a = 0
  atMost_iff (a b : α) : atMost a b = true ↔ a ≤ b
  exceeds_iff (d t : α) : exceeds d t = true ↔ t < |d|

instance : Exact Int where
  zero_eq := rfl
  emptySum_eq := rfl
  add_eq _ _ := rfl
  sub_eq _ _ := rfl
  isZero_iff _ := decide_eq_true_iff
  atMost_iff _ _ := decide_eq_true_iff
  exceeds_iff d t := by
    rw [Int.abs_eq_natAbs]
    exact decide_eq_true_iff

instance : Count ℚ where
  zero := 0
  one := 1
  emptySum := 0
  add := (· + ·)
  sub := (· - ·)
  isZero x := x = 0
  atMost x y := x ≤ y
  exceeds d t := t < |d|

instance : Exact ℚ where
  zero_eq := rfl
  emptySum_eq := rfl
  add_eq _ _ := rfl
  sub_eq _ _ := rfl
  isZero_iff _ := decide_eq_true_iff
  atMost_iff _ _ := decide_eq_true_iff
  exceeds_iff _ _ := decide_eq_true_iff

attribute [simp] Exact.zero_eq Exact.emptySum_eq Exact.add_eq Exact.sub_eq Exact.isZero_iff
  Exact.atMost_iff Exact.exceeds_iff

variable {α : Type} [Count α] [AddCommGroup α] [LinearOrder α] [Exact α]

/-- Adding up on top of a value is that value plus the sum. -/
theorem foldl_add_eq (a : α) (xs : List α) : xs.foldl add a = a + xs.sum := by
  induction xs generalizing a with
  | nil => simp
  | cons x rest ih =>
    rw [List.foldl_cons, ih, Exact.add_eq, List.sum_cons, add_assoc]

/-- The cells of a series hold sums. -/
theorem total_eq_sum (xs : List α) : total xs = xs.sum := by
  rw [total, foldl_add_eq, Exact.zero_eq, zero_add]

/-- The total of a list is its sum. -/
theorem sum_eq_sum (xs : List α) : sum xs = xs.sum := by
  rw [sum, foldl_add_eq, Exact.emptySum_eq, zero_add]

end Count

end TrafficBoard
