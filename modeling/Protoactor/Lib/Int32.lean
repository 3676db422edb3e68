import Mathlib.Algebra.GroupWithZero.Nat
import Mathlib.Algebra.Ring.Int.Defs

/-!
# 32-bit two's complement arithmetic

`int32 x` is the value that an `int` object holds after an operation whose exact
result is `x`: atomic read-modify-write operations on `std::atomic<int>` wrap.
-/

namespace Protoactor.Lib
set_option autoImplicit false

/-- The 32-bit two's complement value congruent to `x`. -/
def int32 (x : Int) : Int := x.bmod (2 ^ 32)

/-- Wrapping twice is wrapping once: a counter only sees its exact history modulo `2^32`. -/
@[simp] theorem int32_add (x y : Int) : int32 (int32 x + y) = int32 (x + y) := by
  simp only [int32, Int.bmod_add_bmod]

@[simp] theorem int32_sub (x y : Int) : int32 (int32 x - y) = int32 (x - y) := by
  rw [Int.sub_eq_add_neg, int32_add, ← Int.sub_eq_add_neg]

/-- In range nothing wraps. -/
theorem int32_of_range {x : Int} (low : -2 ^ 31 ≤ x) (high : x < 2 ^ 31) : int32 x = x := by
  unfold int32
  rw [Int.bmod_def]
  split <;> omega

/-- No value is below the least one. -/
theorem int32_low (x : Int) : -2 ^ 31 ≤ int32 x := Int.le_bmod (by decide)

/-- No value is above the greatest one. -/
theorem int32_high (x : Int) : int32 x < 2 ^ 31 := Int.bmod_lt (by decide)

@[simp] theorem int32_zero : int32 0 = 0 := rfl

/-- A positive count below `2^31` is seen as positive. -/
theorem int32_pos {n : Nat} (some : 0 < n) (bound : n < 2 ^ 31) : 0 < int32 n := by
  rw [int32_of_range (by omega) (by omega)]
  omega

/-- A cast size is not more than the size. -/
theorem int32_le (n : Nat) : int32 n ≤ n := by
  by_cases small : n < 2 ^ 31
  · exact Int.le_of_eq (int32_of_range (by omega) (by omega))
  · have high := int32_high n
    omega

end Protoactor.Lib
