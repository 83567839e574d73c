/-
# Binary64 arithmetic on the rationals

The numbers of binary64 are rationals, and an operation on them is the exact one followed
by `round`, to the nearest of them and to the even one of two.  Exponents are bounded
below, as in the format, and not above: an overflow gives a number beyond its range.

* `round_eq_self` : what has 53 bits is its own rounding;
* `round_intCast` : so whole numbers below `2 ^ 53` are.
-/
import Mathlib.Algebra.Order.Field.Power
import Mathlib.Data.Int.Log
import Mathlib.Data.Rat.Floor
import Mathlib.Tactic.Linarith

namespace Binary64

/-- The nearest integer, the even one of two. -/
def roundEven (y : ℚ) : ℤ :=
  let n := y.floor
  if y - n < 1 / 2 then n
  else if 1 / 2 < y - n then n + 1
  else if n % 2 = 0 then n
  else n + 1

theorem roundEven_intCast (n : ℤ) : roundEven n = n := by
  simp only [roundEven, Rat.floor_intCast, sub_self]
  exact if_pos (by norm_num)

/-- The exponent of the last of the 53 bits of a number; subnormal numbers share one. -/
def lastPlace (x : ℚ) : ℤ := max (Int.log 2 |x| - 52) (-1074)

/-- The number of binary64 nearest to a rational. -/
def round (x : ℚ) : ℚ := roundEven (x / 2 ^ lastPlace x) * 2 ^ lastPlace x

/-- The last place of `m * 2 ^ k` is no higher than `k`. -/
theorem lastPlace_le {m k : ℤ} (hm : |m| < 2 ^ 53) (hne : m ≠ 0) (hk : -1074 ≤ k) :
    lastPlace (m * 2 ^ k) ≤ k := by
  have hbase : (1 : ℕ) < 2 := by omega
  have hpos : (0 : ℚ) < 2 ^ k := zpow_pos (by norm_num) k
  have hlt : |(m : ℚ) * 2 ^ k| < ((2 : ℕ) : ℚ) ^ (53 + k) := by
    have hbound : |(m : ℚ)| < 2 ^ (53 : ℤ) := by exact_mod_cast hm
    rw [abs_mul, abs_of_pos hpos, Nat.cast_ofNat, zpow_add₀ (by norm_num)]
    exact mul_lt_mul_of_pos_right hbound hpos
  have habs : (0 : ℚ) < |(m : ℚ) * 2 ^ k| :=
    abs_pos.mpr (mul_ne_zero (Int.cast_ne_zero.mpr hne) hpos.ne')
  have hlog := (Int.lt_zpow_iff_log_lt hbase habs).mp hlt
  unfold lastPlace
  omega

/-- **What has 53 bits is its own rounding.** -/
theorem round_eq_self {m k : ℤ} (hm : |m| < 2 ^ 53) (hk : -1074 ≤ k) :
    round (m * 2 ^ k) = m * 2 ^ k := by
  rcases eq_or_ne m 0 with rfl | hne
  · unfold round
    rw [Int.cast_zero, zero_mul, zero_div, ← Int.cast_zero, roundEven_intCast, Int.cast_zero,
      zero_mul]
  · have hle := lastPlace_le hm hne hk
    generalize hp : lastPlace ((m : ℚ) * 2 ^ k) = p at hle
    have hne2 : (2 : ℚ) ≠ 0 := by norm_num
    -- `k` is `p` and a natural number
    obtain ⟨j, rfl⟩ := Int.le.dest hle
    have hscaled : (m : ℚ) * 2 ^ (p + j) = (m * 2 ^ j : ℤ) * 2 ^ p := by
      rw [zpow_add₀ hne2, zpow_natCast]
      push_cast
      rw [mul_comm (2 ^ p : ℚ), mul_assoc]
    unfold round
    rw [hp, hscaled, mul_div_assoc, div_self (zpow_ne_zero p hne2), mul_one,
      roundEven_intCast]

/-- So is a whole number of at most 53 bits. -/
theorem round_intCast {n : ℤ} (h : |n| < 2 ^ 53) : round n = n := by
  have hself := round_eq_self (k := 0) h (by omega)
  rwa [zpow_zero, mul_one] at hself

theorem round_natCast {n : ℕ} (h : n < 2 ^ 53) : round n = n := by
  have hself := round_intCast (n := n) (by rw [Nat.abs_cast]; exact_mod_cast h)
  rwa [Int.cast_natCast] at hself

/-- Three times a tenth is not three tenths. -/
example : round (3 * round (1 / 10)) ≠ round (3 / 10) := by decide +kernel

end Binary64
