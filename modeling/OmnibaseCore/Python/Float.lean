import Mathlib.Data.Int.Log
import Mathlib.Tactic

/-!
# Floating point numbers

A finite `float` is the rational number that it stands for. An operation on floats returns the
float nearest to the exact result, `nearestFloat`.
-/

namespace OmnibaseCore

/-- The nearest integer; of two, the even one. -/
def roundHalfEven (x : ℚ) : ℤ :=
  let floor := ⌊x⌋
  if x - floor < 1 / 2 then floor
  else if 1 / 2 < x - floor then floor + 1
  else if floor % 2 = 0 then floor
  else floor + 1

/-- The distance of floats around a number. -/
def floatSpacing (x : ℚ) : ℚ := 2 ^ max (Int.log 2 |x| - 52) (-1074)

def nearestFloat (x : ℚ) : ℚ := roundHalfEven (x / floatSpacing x) * floatSpacing x

/-- `float(n)` raises an `OverflowError`. -/
def floatOverflows (n : ℤ) : Bool := 2 ^ 1024 - 2 ^ 970 ≤ |n|

@[simp] theorem roundHalfEven_intCast (n : ℤ) : roundHalfEven n = n := by
  unfold roundHalfEven
  simp

@[simp] theorem nearestFloat_zero : nearestFloat 0 = 0 := by
  unfold nearestFloat
  rw [zero_div, show (0 : ℚ) = ((0 : ℤ) : ℚ) from rfl, roundHalfEven_intCast, Int.cast_zero,
    zero_mul]

theorem floatOverflows_eq_false {n : ℤ} (h : |n| ≤ 60000) : floatOverflows n = false := by
  have hlargest : (60000 : ℤ) < 2 ^ 1024 - 2 ^ 970 := by decide +kernel
  unfold floatOverflows
  rw [decide_eq_false_iff_not, not_le]
  exact lt_of_le_of_lt h hlargest

end OmnibaseCore
