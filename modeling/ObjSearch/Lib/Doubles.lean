/- Doubles: the numbers of 53 bits, the infinities, and nan.
   digest: The double nearest to a number keeps within each whole bound that the number keeps
   within. -/

import Mathlib.Data.Int.Log
import ObjSearch.Lib.Decimals

set_option autoImplicit false
set_option relaxedAutoImplicit false

namespace ObjSearch.Lib.Doubles

open ObjSearch.Lib.Decimals
open ObjSearch.Lib.Printf

inductive Number where
  | finite (x : ℚ)
  | infinite (negative : Bool)
  | nan
deriving DecidableEq

/-- `<=` on doubles: nothing compares with a nan. -/
def Number.le : Number → Number → Bool
  | .finite x, .finite y => x ≤ y
  | .infinite negative, .finite _ => negative
  | .finite _, .infinite negative => !negative
  | .infinite negative, .infinite negative' => negative || !negative'
  | .nan, _ => false
  | _, .nan => false

def Number.neg : Number → Number
  | .finite x => .finite (-x)
  | .infinite negative => .infinite (!negative)
  | .nan => .nan

/-- The place of the last of 53 bits of a number of this size, but none below `2 ^ -1074`. -/
def lastPlace (x : ℚ) : ℤ := max (Int.log 2 |x| - 52) (-1074)

/-- The nearest multiple of the last place, of two the even one. -/
def nearest (x : ℚ) : ℚ := roundHalfEven (x / 2 ^ lastPlace x) * 2 ^ lastPlace x

/-- The nearest double: an infinity where the numbers of 53 bits go too far. -/
def Number.ofRat (x : ℚ) : Number :=
  if 2 ^ 1024 ≤ |nearest x| then .infinite (x < 0) else .finite (nearest x)

example : Number.ofRat (90 + 1 / 10 ^ 16) = .finite 90 := by decide +kernel

theorem lastPlace_nonpos {x : ℚ} (small : |x| < 2 ^ 53) : lastPlace x ≤ 0 := by
  refine max_le ?_ (by decide)
  by_cases zero : x = 0
  · rw [zero, abs_zero, Int.log_zero_right]
    decide
  · have below : Int.log 2 |x| < 53 :=
      (Int.lt_zpow_iff_log_lt (by decide) (abs_pos.mpr zero)).mp (by exact_mod_cast small)
    omega

theorem abs_nearest_le {x : ℚ} {b : ℕ} (few : b < 2 ^ 53) (h : |x| ≤ b) : |nearest x| ≤ b := by
  have small : |x| < 2 ^ 53 := h.trans_lt (by exact_mod_cast few)
  obtain ⟨k, place⟩ := Int.eq_ofNat_of_zero_le (neg_nonneg.mpr (lastPlace_nonpos small))
  have unit : (2 : ℚ) ^ lastPlace x = 1 / 2 ^ k := by
    rw [← neg_neg (lastPlace x), place, zpow_neg, zpow_natCast, one_div]
  obtain ⟨least, most⟩ := abs_le.mp h
  have positive : (0 : ℚ) ≤ 2 ^ k := by positivity
  have up : roundHalfEven (x * 2 ^ k) ≤ b * 2 ^ k := by
    have mono := roundHalfEven_mono (mul_le_mul_of_nonneg_right most positive)
    rwa [show (b * 2 ^ k : ℚ) = ((b * 2 ^ k : ℤ) : ℚ) by push_cast; rfl, roundHalfEven_intCast]
      at mono
  have down : -(b * 2 ^ k) ≤ roundHalfEven (x * 2 ^ k) := by
    have mono := roundHalfEven_mono (mul_le_mul_of_nonneg_right least positive)
    rwa [show (-b * 2 ^ k : ℚ) = ((-(b * 2 ^ k) : ℤ) : ℚ) by push_cast; ring, roundHalfEven_intCast]
      at mono
  rw [nearest, unit, div_div_eq_mul_div, div_one, mul_one_div, abs_le, le_div_iff₀ (by positivity),
    div_le_iff₀ (by positivity), neg_mul]
  exact ⟨by exact_mod_cast down, by exact_mod_cast up⟩

theorem ofRat_of_abs_le {x : ℚ} {b : ℕ} (few : b < 2 ^ 53) (h : |x| ≤ b) :
    Number.ofRat x = .finite (nearest x) ∧ |nearest x| ≤ b := by
  have bound := abs_nearest_le few h
  have finite : ¬ 2 ^ 1024 ≤ |nearest x| := by
    have large : (2 : ℚ) ^ 53 ≤ 2 ^ 1024 := pow_le_pow_right₀ (by norm_num) (by decide)
    have few' : (b : ℚ) < 2 ^ 53 := by exact_mod_cast few
    exact not_le.mpr (bound.trans_lt (few'.trans_le large))
  exact ⟨if_neg finite, bound⟩

end ObjSearch.Lib.Doubles
