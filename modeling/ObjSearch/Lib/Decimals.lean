/- Numbers with a fixed count of decimals: `%.kf` writes them and `atof` reads them.
   digest: What is read back is the number rounded to that many decimals, and rounding keeps the
   order. -/

import ObjSearch.Lib.Printf
import Mathlib.Data.List.TakeWhile
import Mathlib.Tactic.FieldSimp

set_option autoImplicit false
set_option relaxedAutoImplicit false

namespace ObjSearch.Lib.Decimals

open ObjSearch.Lib.Texts (Text)
open ObjSearch.Lib.Printf

def padded (width n : ℕ) : Text := List.replicate (width - (digits n).length) '0' ++ digits n

/-- A number of units of which `10 ^ k` make one. -/
def pointed (k n : ℕ) : Text := digits (n / 10 ^ k) ++ '.' :: padded k (n % 10 ^ k)

/-- The magnitude that `%.kf` prints, in its last decimal. -/
def units (k : ℕ) (x : ℚ) : ℕ := (roundHalfEven (|x| * 10 ^ k)).toNat

/-- `%.kf`, with at least one decimal. -/
def fixed (k : ℕ) (x : ℚ) : Text := sign (x < 0) ++ pointed k (units k x)

def rounded (k : ℕ) (x : ℚ) : ℚ := if x < 0 then -(units k x / 10 ^ k) else units k x / 10 ^ k

/-- The number after the sign: digits, and a point with digits; what follows is not read. -/
def unsigned (t : Text) : ℚ :=
  let whole : ℚ := Nat.ofDigitChars 10 (t.takeWhile Char.isDigit) 0
  match t.dropWhile Char.isDigit with
  | '.' :: rest =>
      let fraction := rest.takeWhile Char.isDigit
      whole + Nat.ofDigitChars 10 fraction 0 / 10 ^ fraction.length
  | _ => whole

/-- `atof` of a text without blanks and letters: 0 where no number begins it. -/
def atof : Text → ℚ
  | '-' :: t => -unsigned t
  | '+' :: t => unsigned t
  | t => unsigned t

theorem isDigit_of_mem_padded {width n : ℕ} {c : Char} (h : c ∈ padded width n) : c.isDigit := by
  rcases List.mem_append.mp h with zero | digit
  · rw [List.eq_of_mem_replicate zero]
    rfl
  · exact isDigit_of_mem_digits digit

theorem length_padded {k n : ℕ} (positive : 0 < k) (h : n < 10 ^ k) : (padded k n).length = k := by
  have bound : (digits n).length ≤ k :=
    (Nat.length_toDigits_le_iff (by decide) positive).mpr h
  simp only [padded, List.length_append, List.length_replicate]
  omega

theorem ofDigitChars_padded (width n : ℕ) : Nat.ofDigitChars 10 (padded width n) 0 = n := by
  rw [padded, Nat.ofDigitChars_append, Nat.ofDigitChars_replicate_zero, Nat.mul_zero,
    ofDigitChars_digits]

theorem unsigned_of_isDigit {t : Text} (all : ∀ c ∈ t, c.isDigit) :
    unsigned t = Nat.ofDigitChars 10 t 0 := by
  have whole : t.takeWhile Char.isDigit = t := List.takeWhile_eq_self_iff.mpr all
  have rest : t.dropWhile Char.isDigit = [] := List.dropWhile_eq_nil_iff.mpr all
  rw [unsigned, rest, whole]

theorem unsigned_of_point {whole fraction : Text} (digit : ∀ c ∈ whole, c.isDigit)
    (decimal : ∀ c ∈ fraction, c.isDigit) :
    unsigned (whole ++ '.' :: fraction) = Nat.ofDigitChars 10 whole 0 +
      Nat.ofDigitChars 10 fraction 0 / 10 ^ fraction.length := by
  have before : (whole ++ '.' :: fraction).takeWhile Char.isDigit = whole := by
    rw [List.takeWhile_append_of_pos digit]
    exact List.append_nil _
  have rest : (whole ++ '.' :: fraction).dropWhile Char.isDigit = '.' :: fraction := by
    rw [List.dropWhile_append_of_pos digit]
    rfl
  have behind : fraction.takeWhile Char.isDigit = fraction := List.takeWhile_eq_self_iff.mpr decimal
  rw [unsigned, rest, before]
  simp only [behind]

theorem whole_add_decimals (k n : ℕ) :
    ((n / 10 ^ k : ℕ) : ℚ) + ((n % 10 ^ k : ℕ) : ℚ) / 10 ^ k = n / 10 ^ k := by
  have split : ((n / 10 ^ k * 10 ^ k + n % 10 ^ k : ℕ) : ℚ) = n :=
    congrArg Nat.cast (Nat.div_add_mod' n _)
  have scale : (10 : ℚ) ^ k ≠ 0 := by positivity
  rw [← split]
  push_cast
  field_simp

theorem unsigned_padded_pointed {k : ℕ} (positive : 0 < k) (width n : ℕ) :
    unsigned (padded width (n / 10 ^ k) ++ '.' :: padded k (n % 10 ^ k)) = n / 10 ^ k := by
  have short : n % 10 ^ k < 10 ^ k := Nat.mod_lt _ (by positivity)
  rw [unsigned_of_point (fun c => isDigit_of_mem_padded) (fun c => isDigit_of_mem_padded),
    ofDigitChars_padded, ofDigitChars_padded, length_padded positive short, whole_add_decimals]

theorem padded_zero (n : ℕ) : padded 0 n = digits n := by
  rw [padded, Nat.zero_sub]
  rfl

theorem unsigned_pointed {k : ℕ} (positive : 0 < k) (n : ℕ) :
    unsigned (pointed k n) = n / 10 ^ k := by
  rw [pointed, ← padded_zero, unsigned_padded_pointed positive]

theorem atof_of_digit {c : Char} {t : Text} (digit : c.isDigit) :
    atof (c :: t) = unsigned (c :: t) := by
  unfold atof
  split
  · next h =>
    obtain ⟨rfl, -⟩ := List.cons.inj h
    cases digit
  · next h =>
    obtain ⟨rfl, -⟩ := List.cons.inj h
    cases digit
  · rfl

theorem atof_of_isDigit {t : Text} (some_ : t ≠ []) (all : ∀ c ∈ t, c.isDigit) (rest : Text) :
    atof (t ++ rest) = unsigned (t ++ rest) := by
  obtain ⟨c, w, rfl⟩ := List.exists_cons_of_ne_nil some_
  exact atof_of_digit (all c List.mem_cons_self)

theorem padded_ne_nil (width n : ℕ) : padded width n ≠ [] := by
  obtain ⟨c, w, split, -, -⟩ := exists_digits_eq_cons n
  rw [padded, split]
  simp

theorem atof_padded (width n : ℕ) : atof (padded width n) = n := by
  have begins := atof_of_isDigit (padded_ne_nil width n) (fun c => isDigit_of_mem_padded) []
  rw [List.append_nil] at begins
  rw [begins, unsigned_of_isDigit (fun c => isDigit_of_mem_padded), ofDigitChars_padded]

theorem atof_padded_pointed {k : ℕ} (positive : 0 < k) (width n : ℕ) :
    atof (padded width (n / 10 ^ k) ++ '.' :: padded k (n % 10 ^ k)) = n / 10 ^ k := by
  rw [atof_of_isDigit (padded_ne_nil width _) (fun c => isDigit_of_mem_padded),
    unsigned_padded_pointed positive]

theorem atof_pointed {k : ℕ} (positive : 0 < k) (n : ℕ) : atof (pointed k n) = n / 10 ^ k := by
  rw [pointed, ← padded_zero, atof_padded_pointed positive]

theorem atof_fixed {k : ℕ} (positive : 0 < k) (x : ℚ) : atof (fixed k x) = rounded k x := by
  rw [fixed, rounded]
  by_cases negative : x < 0
  · rw [if_pos negative, decide_eq_true negative]
    exact congrArg Neg.neg (unsigned_pointed positive _)
  · rw [if_neg negative, decide_eq_false negative]
    exact atof_pointed positive _

theorem roundHalfEven_mono {x y : ℚ} (h : x ≤ y) : roundHalfEven x ≤ roundHalfEven y := by
  have least (z : ℚ) : ⌊z⌋ ≤ roundHalfEven z := by
    unfold roundHalfEven
    split_ifs <;> omega
  have most (z : ℚ) : roundHalfEven z ≤ ⌊z⌋ + 1 := by
    unfold roundHalfEven
    split_ifs <;> omega
  rcases lt_or_eq_of_le (Int.floor_le_floor h) with below | same
  · have := most x
    have := least y
    omega
  · unfold roundHalfEven
    rw [same]
    split_ifs <;> first | omega | linarith

theorem roundHalfEven_of_lt {x : ℚ} (nonneg : 0 ≤ x) (less : x < 1 / 2) : roundHalfEven x = 0 := by
  have floor : ⌊x⌋ = 0 := Int.floor_eq_zero_iff.mpr ⟨nonneg, by linarith⟩
  rw [roundHalfEven, floor, Int.cast_zero, sub_zero, if_pos less]

theorem one_le_roundHalfEven {x : ℚ} (more : 1 / 2 < x) : 1 ≤ roundHalfEven x := by
  rcases lt_or_ge x 1 with below | above
  · have floor : ⌊x⌋ = 0 := Int.floor_eq_zero_iff.mpr ⟨by linarith, below⟩
    rw [roundHalfEven, floor, Int.cast_zero, sub_zero, if_neg (not_lt.mpr more.le), if_pos more]
    decide
  · have one := roundHalfEven_mono above
    rw [← Int.cast_one (R := ℚ), roundHalfEven_intCast] at one
    exact one

theorem units_mono {k : ℕ} {x y : ℚ} (h : |x| ≤ |y|) : units k x ≤ units k y :=
  Int.toNat_le_toNat (roundHalfEven_mono (mul_le_mul_of_nonneg_right h (by positivity)))

theorem rounded_mono {k : ℕ} {x y : ℚ} (h : x ≤ y) : rounded k x ≤ rounded k y := by
  have scale : (0 : ℚ) < 10 ^ k := by positivity
  have cast {m n : ℕ} (le : m ≤ n) : (m : ℚ) / 10 ^ k ≤ n / 10 ^ k :=
    div_le_div_of_nonneg_right (Nat.cast_le.mpr le) scale.le
  have nonneg (n : ℕ) : (0 : ℚ) ≤ n / 10 ^ k := by positivity
  unfold rounded
  split_ifs with hx hy hy
  · have : |y| ≤ |x| := by
      rw [abs_of_neg hx, abs_of_neg hy]
      linarith
    exact neg_le_neg (cast (units_mono this))
  · exact (neg_nonpos.mpr (nonneg _)).trans (nonneg _)
  · linarith
  · have : |x| ≤ |y| := by
      rw [abs_of_nonneg (not_lt.mp hx), abs_of_nonneg (not_lt.mp hy)]
      exact h
    exact cast (units_mono this)

theorem fixed_eq_iff {k : ℕ} (positive : 0 < k) {x y : ℚ} (signs : x < 0 ↔ y < 0) :
    fixed k x = fixed k y ↔ units k x = units k y := by
  constructor
  · intro same
    have scale : (10 : ℚ) ^ k ≠ 0 := by positivity
    have read := congrArg atof same
    rw [atof_fixed positive, atof_fixed positive, rounded, rounded] at read
    simp only [signs] at read
    split_ifs at read
    · exact_mod_cast (div_left_inj' scale).mp (neg_inj.mp read)
    · exact_mod_cast (div_left_inj' scale).mp read
  · intro same
    simp only [fixed, same, signs]

end ObjSearch.Lib.Decimals
