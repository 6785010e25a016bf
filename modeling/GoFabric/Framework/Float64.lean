import Mathlib.Data.Int.Log
import Mathlib.Data.Rat.Floor

/-!
# Rounding to `float64`

A finite `float64` is an integer of at most 53 bits times a power of two, of at
least `2 ^ (-1074)`, and an operation on such values is exact but for one rounding
at its end (`float64`): to the nearest of them, and from the middle between two to
the even one. What is one of them already stays as it is (`float64_exact`).
Exponents have no upper bound here: where the machine's result is an infinity, the
result here is some larger value.
-/

namespace GF

/-- The nearest integer, and of two the even one. -/
def roundEven (x : ℚ) : ℤ :=
  if x - ⌊x⌋ < 1 / 2 ∨ x - ⌊x⌋ = 1 / 2 ∧ 2 ∣ ⌊x⌋ then ⌊x⌋ else ⌊x⌋ + 1

/-- The exponent of the last of the 53 bits. -/
def lastBit (x : ℚ) : ℤ := max (Int.log 2 |x| - 52) (-1074)

/-- The `float64` next to `x`. -/
def float64 (x : ℚ) : ℚ := roundEven (x / 2 ^ lastBit x) * 2 ^ lastBit x

variable {m k n : ℤ}

theorem roundEven_intCast (n : ℤ) : roundEven n = n := by
  exact if_pos (.inl (by norm_num))

theorem lastBit_le (h0 : m ≠ 0) (hm : |m| < 2 ^ 53) (hk : -1074 ≤ k) : lastBit (m * 2 ^ k) ≤ k := by
  have hpos : 0 < |(m * 2 ^ k : ℚ)| := abs_pos.2 (mul_ne_zero (Int.cast_ne_zero.2 h0) (zpow_ne_zero k two_ne_zero))
  have hlt : |(m * 2 ^ k : ℚ)| < (2 : ℕ) ^ (53 + k) := by
    rw [abs_mul, abs_of_pos (zpow_pos (two_pos : (0 : ℚ) < 2) k), Nat.cast_ofNat, zpow_add₀ two_ne_zero]
    exact mul_lt_mul_of_pos_right (by exact_mod_cast hm) (zpow_pos two_pos k)
  have hlog := (Int.lt_zpow_iff_log_lt Nat.one_lt_two hpos).1 hlt
  refine max_le ?_ hk
  omega

theorem float64_exact (hm : |m| < 2 ^ 53) (hk : -1074 ≤ k) : float64 (m * 2 ^ k) = m * 2 ^ k := by
  rcases eq_or_ne m 0 with rfl | h0
  · rw [Int.cast_zero, zero_mul, float64, zero_div, ← Int.cast_zero, roundEven_intCast, Int.cast_zero, zero_mul]
  -- the last bit of the value is not below that of its significand
  obtain ⟨j, hj⟩ := Int.le.dest (lastBit_le h0 hm hk)
  have hne : (2 : ℚ) ^ lastBit (m * 2 ^ k) ≠ 0 := zpow_ne_zero _ two_ne_zero
  have hint : (m * 2 ^ k : ℚ) / 2 ^ lastBit (m * 2 ^ k) = (m * 2 ^ j : ℤ) := by
    rw [div_eq_iff hne]
    nth_rewrite 1 [← hj]
    rw [zpow_add₀ two_ne_zero, zpow_natCast]
    push_cast
    ring
  rw [float64, hint, roundEven_intCast, ← hint, div_mul_cancel₀ _ hne]

theorem float64_intCast (h : |n| < 2 ^ 53) : float64 n = n := by
  have hexact := float64_exact (k := 0) h (by decide)
  rwa [zpow_zero, mul_one] at hexact

theorem float64_add (h : |m + n| < 2 ^ 53) : float64 (m + n) = (m + n : ℤ) := by
  rw [← Int.cast_add]
  exact float64_intCast h

theorem float64_sub (h : |m - n| < 2 ^ 53) : float64 (m - n) = (m - n : ℤ) := by
  rw [← Int.cast_sub]
  exact float64_intCast h

theorem float64_half (h : |n| < 2 ^ 53) : float64 (n / 2) = n / 2 := by
  have hexact := float64_exact (k := -1) h (by decide)
  rwa [zpow_neg_one] at hexact

end GF
