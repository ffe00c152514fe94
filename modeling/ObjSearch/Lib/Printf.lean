/- The printf conversions `%i`, `%ld` and `%f`, on exact integers and rationals.
   digest: Reading the digits back gives the number, rounded to six decimals for `%f`. -/

import ObjSearch.Lib.Texts
import Mathlib.Data.Rat.Floor
import Mathlib.Tactic.Linarith
import Mathlib.Tactic.Positivity
import Mathlib.Tactic.NormNum

set_option autoImplicit false
set_option relaxedAutoImplicit false

namespace ObjSearch.Lib.Printf

open ObjSearch.Lib.Texts (Text)

def digits (n : ℕ) : Text := Nat.toDigits 10 n

def sixDigits (n : ℕ) : Text := List.replicate (6 - (digits n).length) '0' ++ digits n

/-- Nearest integer, ties to even, as printf rounds an exact decimal expansion. -/
def roundHalfEven (x : ℚ) : ℤ :=
  if x - ⌊x⌋ < 1 / 2 then ⌊x⌋
  else if 1 / 2 < x - ⌊x⌋ then ⌊x⌋ + 1
  else if ⌊x⌋ % 2 = 0 then ⌊x⌋ else ⌊x⌋ + 1

/-- The magnitude that `%f` prints, in millionths. -/
def micros (x : ℚ) : ℕ := (roundHalfEven (|x| * 1000000)).toNat

def sign (negative : Bool) : Text := if negative then ['-'] else []

def decimals (n : ℕ) : Text := digits (n / 1000000) ++ '.' :: sixDigits (n % 1000000)

/-- `%f` -/
def formatF (x : ℚ) : Text := sign (x < 0) ++ decimals (micros x)

/-- `%i` and `%ld` -/
def formatI (n : ℤ) : Text := sign (n < 0) ++ digits n.natAbs

/-- The number that `%f` writes: the argument rounded to six decimals. -/
def written (x : ℚ) : ℚ := if x < 0 then -(micros x / 1000000) else micros x / 1000000

theorem isDigit_of_mem_digits {n : ℕ} {c : Char} (h : c ∈ digits n) : c.isDigit :=
  Nat.isDigit_of_mem_toDigits (by decide) (by decide) h

theorem digits_ne_nil (n : ℕ) : digits n ≠ [] := Nat.toDigits_ne_nil

theorem exists_digits_eq_cons (n : ℕ) :
    ∃ c w, digits n = c :: w ∧ c.isDigit ∧ ∀ d ∈ w, d.isDigit := by
  obtain ⟨c, w, h⟩ := List.exists_cons_of_ne_nil (digits_ne_nil n)
  have all : ∀ d ∈ c :: w, d.isDigit := fun d hd => isDigit_of_mem_digits (h ▸ hd)
  exact ⟨c, w, h, all c List.mem_cons_self, fun d hd => all d (List.mem_cons_of_mem c hd)⟩

theorem isDigit_of_mem_sixDigits {n : ℕ} {c : Char} (h : c ∈ sixDigits n) : c.isDigit := by
  rcases List.mem_append.mp h with zero | digit
  · rw [List.eq_of_mem_replicate zero]
    rfl
  · exact isDigit_of_mem_digits digit

theorem length_sixDigits {n : ℕ} (h : n < 1000000) : (sixDigits n).length = 6 := by
  have bound : (digits n).length ≤ 6 :=
    (Nat.length_toDigits_le_iff (by decide) (by decide)).mpr (by omega)
  simp only [sixDigits, List.length_append, List.length_replicate]
  omega

theorem ofDigitChars_digits (n : ℕ) : Nat.ofDigitChars 10 (digits n) 0 = n :=
  Nat.ofDigitChars_ten_toDigits

theorem ofDigitChars_sixDigits (n : ℕ) : Nat.ofDigitChars 10 (sixDigits n) 0 = n := by
  rw [sixDigits, Nat.ofDigitChars_append, Nat.ofDigitChars_replicate_zero, Nat.mul_zero,
    ofDigitChars_digits]

theorem roundHalfEven_intCast (n : ℤ) : roundHalfEven n = n := by
  simp [roundHalfEven]

theorem roundHalfEven_le {x : ℚ} {m : ℤ} (h : x ≤ m) : roundHalfEven x ≤ m := by
  have floor : ⌊x⌋ ≤ m := Int.floor_le_iff.mpr (by linarith)
  rcases lt_or_eq_of_le floor with below | exact
  · unfold roundHalfEven
    split_ifs <;> omega
  · have whole : x - ⌊x⌋ < 1 / 2 := by
      have : (⌊x⌋ : ℚ) = m := by exact_mod_cast exact
      linarith
    rw [roundHalfEven, if_pos whole, exact]

theorem abs_written_le {x : ℚ} {n : ℕ} (h : |x| ≤ n) : |written x| ≤ n := by
  have scaled : |x| * 1000000 ≤ ((n * 1000000 : ℕ) : ℤ) := by
    push_cast
    linarith
  have bound : micros x ≤ n * 1000000 := by
    have := roundHalfEven_le scaled
    unfold micros
    omega
  have magnitude : |written x| = micros x / 1000000 := by
    have nonneg : (0 : ℚ) ≤ micros x / 1000000 := by positivity
    unfold written
    split_ifs
    · rw [abs_neg, abs_of_nonneg nonneg]
    · exact abs_of_nonneg nonneg
  have cast : (micros x : ℚ) ≤ n * 1000000 := by exact_mod_cast bound
  rw [magnitude]
  linarith

theorem written_intCast (n : ℤ) : written n = n := by
  have cast : |(n : ℚ)| * 1000000 = ((|n| * 1000000 : ℤ) : ℚ) := by push_cast; ring
  have magnitude : ((micros n : ℕ) : ℚ) = |(n : ℚ)| * 1000000 := by
    have value : micros n = (|n| * 1000000 : ℤ).toNat := by
      rw [micros, cast, roundHalfEven_intCast]
    have nonneg : (0 : ℤ) ≤ |n| * 1000000 := by positivity
    rw [value, cast]
    exact_mod_cast Int.toNat_of_nonneg nonneg
  unfold written
  rw [magnitude]
  split_ifs with neg
  · rw [abs_of_neg neg]
    ring
  · rw [abs_of_nonneg (not_lt.mp neg)]
    ring

end ObjSearch.Lib.Printf
