import Mathlib.Tactic.Ring
import Mathlib.Tactic.Linarith

/-! Rounding of a quotient to the nearest integer, halves upward, on integers. -/

namespace Rounding

/-- `n / d` rounded to the nearest integer, a half going up: the floor of
`n / d + 1 / 2`. -/
def roundDiv (n d : Int) : Int :=
  (2 * n + d) / (2 * d)

section

variable {n m k d : Int}

theorem le_roundDiv_iff (hd : 0 < d) : k ≤ roundDiv n d ↔ k * (2 * d) ≤ 2 * n + d := by
  rw [roundDiv, Int.le_ediv_iff_mul_le (by linarith)]

theorem roundDiv_lt_iff (hd : 0 < d) : roundDiv n d < k ↔ 2 * n + d < k * (2 * d) := by
  rw [roundDiv, Int.ediv_lt_iff_lt_mul (by linarith)]

theorem roundDiv_nonneg (hd : 0 < d) (hn : 0 ≤ n) : 0 ≤ roundDiv n d := by
  rw [le_roundDiv_iff hd]
  linarith

theorem roundDiv_mono (hd : 0 < d) (h : n ≤ m) : roundDiv n d ≤ roundDiv m d := by
  rw [le_roundDiv_iff hd]
  have hSelf := (le_roundDiv_iff (n := n) hd).mp le_rfl
  linarith

/-- An exact quotient is not moved. -/
theorem roundDiv_mul_self (hd : 0 < d) : roundDiv (k * d) d = k := by
  refine le_antisymm ?_ ?_
  · rw [← Int.lt_add_one_iff, roundDiv_lt_iff hd]
    linarith
  · rw [le_roundDiv_iff hd]
    linarith

/-- A share of at most `d` parts in `d` is at most the whole. -/
theorem roundDiv_le_of_le_mul (hd : 0 < d) (h : n ≤ k * d) : roundDiv n d ≤ k :=
  (roundDiv_mono hd h).trans_eq (roundDiv_mul_self hd)

end

end Rounding
