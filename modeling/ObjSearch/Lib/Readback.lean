/- Numbers written with a fixed count of decimals and read again.
   digest: `strtod` reads the whole text back as the rounded number, which is off by half a unit of
   the last decimal at most. -/

import ObjSearch.Lib.Decimals
import ObjSearch.Lib.Strtod

set_option autoImplicit false
set_option relaxedAutoImplicit false

namespace ObjSearch.Lib.Readback

open ObjSearch.Lib.Texts (Text)
open ObjSearch.Lib.Printf
open ObjSearch.Lib.Decimals
open ObjSearch.Lib.Doubles (Number)
open ObjSearch.Lib.Strtod

theorem abs_roundHalfEven_sub_le (x : ℚ) : |(roundHalfEven x : ℚ) - x| ≤ 1 / 2 := by
  have low := Int.floor_le x
  have high := Int.lt_floor_add_one x
  rw [abs_le]
  unfold roundHalfEven
  split_ifs <;> push_cast <;> constructor <;> linarith

theorem roundHalfEven_nonneg {x : ℚ} (h : 0 ≤ x) : 0 ≤ roundHalfEven x := by
  have mono := roundHalfEven_mono h
  rwa [← Int.cast_zero (R := ℚ), roundHalfEven_intCast] at mono

theorem abs_units_sub_le (k : ℕ) (x : ℚ) : |(units k x : ℚ) - |x| * 10 ^ k| ≤ 1 / 2 := by
  have nonneg : 0 ≤ roundHalfEven (|x| * 10 ^ k) := roundHalfEven_nonneg (by positivity)
  have cast : ((units k x : ℕ) : ℚ) = (roundHalfEven (|x| * 10 ^ k) : ℚ) := by
    rw [units]
    exact_mod_cast Int.toNat_of_nonneg nonneg
  rw [cast]
  exact abs_roundHalfEven_sub_le _

theorem abs_rounded_sub_le (k : ℕ) (x : ℚ) : |rounded k x - x| ≤ 1 / (2 * 10 ^ k) := by
  have scale : (0 : ℚ) < 10 ^ k := by positivity
  have half := abs_units_sub_le k x
  have magnitude : |(units k x : ℚ) / 10 ^ k - (|x|)| ≤ 1 / (2 * 10 ^ k) := by
    have split : (units k x : ℚ) / 10 ^ k - |x| = ((units k x : ℚ) - |x| * 10 ^ k) / 10 ^ k := by
      field_simp
    rw [split, abs_div, abs_of_pos scale, div_le_div_iff₀ scale (by positivity)]
    nlinarith
  unfold rounded
  split_ifs with negative
  · rw [abs_of_neg negative] at magnitude
    rw [show -((units k x : ℚ) / 10 ^ k) - x = -((units k x : ℚ) / 10 ^ k - -x) by ring, abs_neg]
    exact magnitude
  · rwa [abs_of_nonneg (not_lt.mp negative)] at magnitude

theorem written_eq_rounded (x : ℚ) : written x = rounded 6 x := by
  have million : (10 : ℚ) ^ 6 = 1000000 := by norm_num
  rw [written, rounded, units, micros, million]

/-- What `%f` writes is off by half a millionth. -/
theorem abs_written_sub_le (x : ℚ) : |written x - x| ≤ 1 / 2000000 := by
  have off := abs_rounded_sub_le 6 x
  rw [← written_eq_rounded] at off
  norm_num at off ⊢
  exact off

/-! `strtod` on such a text. -/

theorem digitValue_of_isDigit {c : Char} (digit : c.isDigit) :
    digitValue c = c.toNat - '0'.toNat :=
  if_pos digit

theorem isDigitIn_of_isDigit {c : Char} (digit : c.isDigit) : isDigitIn 10 c := by
  have most : c.toNat ≤ 57 := (Char.isDigit_iff_toNat.mp digit).2
  rw [isDigitIn, digitValue_of_isDigit digit]
  exact decide_eq_true (by simp only [Char.reduceToNat]; omega)

theorem valueIn_of_isDigit {t : Text} (digits : ∀ c ∈ t, c.isDigit) :
    valueIn 10 t = Nat.ofDigitChars 10 t 0 := by
  rw [valueIn, Nat.ofDigitChars_eq_foldl]
  apply List.foldl_ext
  intro n c mem
  rw [digitValue_of_isDigit (digits c mem)]

theorem positional_pointed {k : ℕ} (positive : 0 < k) (n : ℕ) :
    positional decimalRadix (pointed k n) = some ((n : ℚ) / 10 ^ k) := by
  have short : n % 10 ^ k < 10 ^ k := Nat.mod_lt _ (by positivity)
  have wholeDigits : ∀ c ∈ digits (n / 10 ^ k), c.isDigit := fun c => isDigit_of_mem_digits
  have fractionDigits : ∀ c ∈ padded k (n % 10 ^ k), c.isDigit := fun c => isDigit_of_mem_padded
  have base : decimalRadix.base = 10 := rfl
  have whole : (pointed k n).takeWhile (isDigitIn 10) = digits (n / 10 ^ k) := by
    rw [pointed, List.takeWhile_append_of_pos
      (fun c mem => isDigitIn_of_isDigit (wholeDigits c mem))]
    exact List.append_nil _
  have behind : (pointed k n).dropWhile (isDigitIn 10) = '.' :: padded k (n % 10 ^ k) := by
    rw [pointed, List.dropWhile_append_of_pos
      (fun c mem => isDigitIn_of_isDigit (wholeDigits c mem))]
    rfl
  have fraction : fractionOf 10 ('.' :: padded k (n % 10 ^ k)) = (padded k (n % 10 ^ k), []) := by
    rw [fractionOf, List.takeWhile_eq_self_iff.mpr
      (fun c mem => isDigitIn_of_isDigit (fractionDigits c mem)), List.dropWhile_eq_nil_iff.mpr
      (fun c mem => isDigitIn_of_isDigit (fractionDigits c mem))]
  have number : valueIn 10 (digits (n / 10 ^ k) ++ padded k (n % 10 ^ k)) = n := by
    rw [valueIn_of_isDigit (List.forall_mem_append.mpr ⟨wholeDigits, fractionDigits⟩),
      Nat.ofDigitChars_append, ofDigitChars_digits, Nat.ofDigitChars_eq_ofDigitChars_zero,
      length_padded positive short, ofDigitChars_padded]
    exact Nat.div_add_mod n _
  have some_ : digits (n / 10 ^ k) ++ padded k (n % 10 ^ k) ≠ [] :=
    List.append_ne_nil_of_left_ne_nil (digits_ne_nil _) _
  unfold positional
  simp only [base, whole, behind, fraction, if_neg some_, number, length_padded positive short]
  simp [exponent, decimalRadix]

theorem signed_of_digit {c : Char} {t : Text} (digit : c.isDigit) :
    signed (c :: t) = (false, c :: t) := by
  unfold signed
  split
  · next h =>
    obtain ⟨rfl, -⟩ := List.cons.inj h
    cases digit
  · next h =>
    obtain ⟨rfl, -⟩ := List.cons.inj h
    cases digit
  · rfl

theorem decimal_fixed {k : ℕ} (positive : 0 < k) (x : ℚ) :
    Strtod.decimal (fixed k x) = some (rounded k x) := by
  have read := positional_pointed positive (units k x)
  unfold fixed rounded
  by_cases negative : x < 0
  · rw [if_pos negative, decide_eq_true negative, Strtod.decimal]
    show (positional decimalRadix (pointed k (units k x))).map _ = _
    rw [read]
    rfl
  · obtain ⟨c, w, begins, digit, -⟩ := exists_digits_eq_cons (units k x / 10 ^ k)
    have unsigned : signed (pointed k (units k x)) = (false, pointed k (units k x)) := by
      rw [pointed, begins, List.cons_append]
      exact signed_of_digit digit
    rw [if_neg negative, decide_eq_false negative, Strtod.decimal]
    rw [show sign false ++ pointed k (units k x) = pointed k (units k x) from rfl, unsigned, read]
    rfl

/-- The number is read, and nothing is left. -/
theorem strtodWith_fixed (round : ℚ → Number) {k : ℕ} (positive : 0 < k) (x : ℚ) :
    strtodWith round (fixed k x) = (round (rounded k x), []) := by
  have none_ : ∀ c ∈ ([] : Text), isspace c := fun _ mem => absurd mem List.not_mem_nil
  have read := @strtodWith_of_decimal round _ _ _ _ (decimal_fixed positive x) none_ none_
  rwa [List.nil_append, List.append_nil] at read

end ObjSearch.Lib.Readback
