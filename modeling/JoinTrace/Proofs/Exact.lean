import Mathlib.Data.Rat.Floor
import JoinTrace.Scalar

-- The analysis in exact numbers. A square root leaves the rationals, so that a standard deviation
-- stands as its square.
namespace JoinTrace

instance : Scalar ℚ where
  ofNat n := n
  abs x := |x|
  sqrt x := x
  lt x y := x < y
  le x y := x ≤ y
  eq x y := x = y
  sortsBefore x y := x ≤ y
  emptySum := 0
  floor x := ⌊x⌋₊

namespace Exact

theorem isNaN_eq (x : ℚ) : Scalar.isNaN x = false := by simp [Scalar.isNaN,Scalar.eq]

theorem max_eq (x y : ℚ) : Scalar.max x y = max x y := by
  simp only [Scalar.max,isNaN_eq,Scalar.lt,Bool.or_false,decide_eq_true_eq]
  split
  next lower => exact (max_eq_right_of_lt lower).symm
  next notLower => exact (max_eq_left (not_lt.mp notLower)).symm

theorem min_eq (x y : ℚ) : Scalar.min x y = min x y := by
  simp only [Scalar.min,isNaN_eq,Scalar.lt,Bool.or_false,decide_eq_true_eq]
  split
  next lower => exact (min_eq_right_of_lt lower).symm
  next notLower => exact (min_eq_left (not_lt.mp notLower)).symm

theorem sum_eq (values : List ℚ) : Scalar.sum values = values.sum := by
  have started (first : ℚ) : values.foldl (· + ·) first = first + values.sum := by
    induction values generalizing first with
    | nil => simp
    | cons value rest ih => rw [List.foldl_cons,ih,List.sum_cons,add_assoc]
  exact (started 0).trans (zero_add _)

end Exact
end JoinTrace
