/-
# Rounding to nearest, ties to even

Rationals rounded to an integer and to `p` binary digits, as the arithmetic of a
binary floating point format does it between the ends of its exponent range.

A number of `p` digits is an integer times a power of two, so rounding to `p` digits
is rounding to an integer at the right scale (`roundBinary`).  What it costs is half
of the last digit, a part `2 ^ (-p)` of the number (`abs_roundBinary_sub_le`), and
an integer of `p` digits costs nothing (`roundBinary_intCast`).
-/

import Mathlib.Data.Int.Log
import Mathlib.Data.Rat.Floor
import Mathlib.Tactic.Linarith
import Mathlib.Tactic.Ring

namespace Rounding

/-! ### Integers -/

/-- The nearest integer, ties to even. -/
def roundHalfEven (q : ℚ) : ℤ :=
  let f := ⌊q⌋
  if q - f < 1 / 2 then f else if 1 / 2 < q - f then f + 1 else if f % 2 = 0 then f else f + 1

/-- The nearest integer is within a half. -/
theorem abs_roundHalfEven_sub_le (q : ℚ) : |(roundHalfEven q : ℚ) - q| ≤ 1 / 2 := by
  have hlow := Int.floor_le q
  have hhigh := Int.lt_floor_add_one q
  unfold roundHalfEven
  dsimp only
  split_ifs <;> push_cast <;> rw [abs_le] <;> constructor <;> linarith

/-- An integer is its own nearest. -/
theorem roundHalfEven_intCast (n : ℤ) : roundHalfEven n = n := by
  simp [roundHalfEven]

/-! ### Binary digits -/

/-- The place of the last of `p` binary digits of `x`. -/
def lastPlace (p : ℕ) (x : ℚ) : ℤ := Int.log 2 |x| + 1 - p

/-- The nearest number of `p` binary digits, ties to even. -/
def roundBinary (p : ℕ) (x : ℚ) : ℚ :=
  roundHalfEven (x / 2 ^ lastPlace p x) * 2 ^ lastPlace p x

variable {p : ℕ} {x : ℚ}

/-- Half of the last digit is small against the number. -/
theorem half_lastPlace_le (p : ℕ) (hx : x ≠ 0) :
    (2 : ℚ) ^ lastPlace p x / 2 ≤ (2 : ℚ) ^ (-(p : ℤ)) * |x| := by
  have hlog : ((2 : ℕ) : ℚ) ^ Int.log 2 |x| ≤ |x| :=
    Int.zpow_log_le_self Nat.one_lt_two (abs_pos.2 hx)
  calc (2 : ℚ) ^ lastPlace p x / 2
      = (2 : ℚ) ^ (-(p : ℤ)) * 2 ^ Int.log 2 |x| := by
        rw [lastPlace, sub_eq_add_neg, zpow_add₀ two_ne_zero, zpow_add₀ two_ne_zero, zpow_one]
        ring
    _ ≤ (2 : ℚ) ^ (-(p : ℤ)) * |x| := by
        rw [Nat.cast_two] at hlog
        exact mul_le_mul_of_nonneg_left hlog (zpow_nonneg zero_le_two _)

/-- **Rounding to `p` digits costs at most a part `2 ^ (-p)` of the number.** -/
theorem abs_roundBinary_sub_le (p : ℕ) (x : ℚ) :
    |roundBinary p x - x| ≤ (2 : ℚ) ^ (-(p : ℤ)) * |x| := by
  rcases eq_or_ne x 0 with rfl | hx
  · simp [roundBinary, roundHalfEven]
  have hscale : (0 : ℚ) < 2 ^ lastPlace p x := zpow_pos zero_lt_two _
  have hsplit : roundBinary p x - x =
      ((roundHalfEven (x / 2 ^ lastPlace p x) : ℚ) - x / 2 ^ lastPlace p x) *
        2 ^ lastPlace p x := by
    rw [roundBinary, sub_mul, div_mul_cancel₀ _ hscale.ne']
  calc |roundBinary p x - x|
      = |(roundHalfEven (x / 2 ^ lastPlace p x) : ℚ) - x / 2 ^ lastPlace p x| *
          2 ^ lastPlace p x := by rw [hsplit, abs_mul, abs_of_pos hscale]
    _ ≤ 1 / 2 * 2 ^ lastPlace p x := by
        exact mul_le_mul_of_nonneg_right (abs_roundHalfEven_sub_le _) hscale.le
    _ = 2 ^ lastPlace p x / 2 := by ring
    _ ≤ (2 : ℚ) ^ (-(p : ℤ)) * |x| := half_lastPlace_le p hx

/-- An integer of `p` digits is kept. -/
theorem roundBinary_intCast {n : ℤ} (hn : |n| < 2 ^ p) : roundBinary p (n : ℚ) = n := by
  rcases eq_or_ne n 0 with rfl | hne
  · simp [roundBinary, roundHalfEven]
  -- its last digit is at the units or behind them
  have hlog : Int.log 2 |(n : ℚ)| < p := by
    rw [← Int.lt_zpow_iff_log_lt Nat.one_lt_two (abs_pos.2 (Int.cast_ne_zero.2 hne))]
    exact_mod_cast hn
  obtain ⟨k, hk⟩ := Int.eq_ofNat_of_zero_le (a := -lastPlace p (n : ℚ)) (by rw [lastPlace]; omega)
  have hplace : lastPlace p (n : ℚ) = -(k : ℤ) := by
    rw [← neg_neg (lastPlace p (n : ℚ)), hk]
  have hint : (n : ℚ) / 2 ^ (-(k : ℤ)) = ((n * 2 ^ k : ℤ) : ℚ) := by
    rw [zpow_neg, zpow_natCast]
    push_cast
    rw [div_inv_eq_mul]
  rw [roundBinary, hplace, hint, roundHalfEven_intCast, ← hint,
    div_mul_cancel₀ _ (zpow_ne_zero _ two_ne_zero)]

end Rounding
