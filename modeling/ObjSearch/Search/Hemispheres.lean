/- Positions with a letter for their hemisphere, as `fromDMM` reads them.
   digest: They are read as what they say, in degrees and minutes as well as in degrees, minutes
   and seconds. -/

import ObjSearch.Search.FromDMM

set_option autoImplicit false
set_option relaxedAutoImplicit false

namespace ObjSearch.Search.Hemispheres

open ObjSearch.Lib.Arrays
open ObjSearch.Lib.Decimals
open ObjSearch.Lib.Pieces
open ObjSearch.Lib.Texts (Text)
open ObjSearch.Search.FromDMM

/-- The upper case of single characters, as far as it matters for positions. -/
structure IsUpperCase (upper : Char → Char) : Prop where
  ascii : ∀ c, c.toNat < 128 → upper c = c.toUpper
  degree : upper '°' = '°'
  lower : ∀ c, ¬ (upper c).isLower

theorem isUpperCase_toUpper : IsUpperCase Char.toUpper where
  ascii := fun _ _ => rfl
  degree := by decide
  lower := by
    intro c small
    have ⟨least, most⟩ : 'a'.val ≤ c.toUpper.val ∧ c.toUpper.val ≤ 'z'.val :=
      (Bool.and_eq_true_iff.mp small).imp of_decide_eq_true of_decide_eq_true
    by_cases before : 'a'.val ≤ c.val ∧ c.val ≤ 'z'.val
    · have moved : c.toUpper.val = c.val + ('A'.val - 'a'.val) := by
        delta Char.toUpper
        rw [dif_pos before]
      grind [UInt32.toNat_add]
    · have same : c.toUpper = c := dif_neg before
      rw [same] at least most
      exact before ⟨least, most⟩

inductive Hemisphere where
  | north
  | south
  | east
  | west
deriving DecidableEq

def Hemisphere.letter : Hemisphere → Char
  | north => 'N'
  | south => 'S'
  | east => 'E'
  | west => 'W'

def Hemisphere.sign : Hemisphere → ℚ
  | north => 1
  | south => -1
  | east => 1
  | west => -1

/-- Zeros fill the numbers up to these widths; the last of them has so many decimals. -/
structure Format where
  degreesWidth : ℕ
  minutesWidth : ℕ
  secondsWidth : ℕ
  decimals : ℕ
  some_ : 0 < decimals

def Format.decimal (f : Format) (width n : ℕ) : Text :=
  padded width (n / 10 ^ f.decimals) ++ '.' :: padded f.decimals (n % 10 ^ f.decimals)

/-- `d° m.mmmm' H` -/
def Format.degreesMinutes (f : Format) (d m : ℕ) (h : Hemisphere) : Text :=
  padded f.degreesWidth d ++ "° ".toList ++ f.decimal f.minutesWidth m ++ "' ".toList ++ [h.letter]

/-- `d° m' s.s" H` -/
def Format.degreesMinutesSeconds (f : Format) (d m s : ℕ) (h : Hemisphere) : Text :=
  padded f.degreesWidth d ++ "° ".toList ++ padded f.minutesWidth m ++ "' ".toList ++
    f.decimal f.secondsWidth s ++ "\" ".toList ++ [h.letter]

theorem replace_of_not_mem (old new : Text) {s : Text} {x : Char} (mem : x ∈ old)
    (absent : x ∉ s) : replace old new s = s := by
  rw [replace]
  induction s with
  | nil => rfl
  | cons c s ih =>
    have no : ¬ old.isPrefixOf (c :: s) := by
      intro h
      exact absent ((List.isPrefixOf_iff_prefix.mp h).subset mem)
    rw [replaceFrom, if_neg no, ih (fun h => absent (List.mem_cons_of_mem c h))]

theorem mem_or_mem_of_mem_replaceFrom {old new s : Text} {found : ℕ} {x : Char}
    (h : x ∈ replaceFrom old new found s) : x ∈ new ∨ x ∈ s := by
  induction s generalizing found with
  | nil =>
    cases found <;> cases h
  | cons c s ih =>
    cases found with
    | succ found => exact (ih h).imp_right (List.mem_cons_of_mem c)
    | zero =>
      rw [replaceFrom] at h
      split_ifs at h
      · rcases List.mem_append.mp h with new_ | later
        · exact .inl new_
        · exact (ih later).imp_right (List.mem_cons_of_mem c)
      · rcases List.mem_cons.mp h with rfl | later
        · exact .inr List.mem_cons_self
        · exact (ih later).imp_right (List.mem_cons_of_mem c)

theorem not_isLower_of_mem_text {upper : Char → Char} (case_ : IsUpperCase upper) {sdms : Text}
    {c : Char} (h : c ∈ text upper sdms) : ¬ c.isLower := by
  have mapped {s : Text} (h : c ∈ s.map upper) : ¬ c.isLower := by
    obtain ⟨x, -, rfl⟩ := List.mem_map.mp h
    exact case_.lower x
  have mem : c ∈ prepare upper sdms := (List.takeWhile_subset _) h
  rw [prepare] at mem
  split_ifs at mem
  · rcases mem_or_mem_of_mem_replaceFrom mem with blank | before
    · rw [List.mem_singleton.mp blank]
      decide
    · exact mapped before
  · exact mapped mem

theorem any_negates_iff {upper : Char → Char} (case_ : IsUpperCase upper) (sdms : Text) :
    (text upper sdms).any negates ↔ 'W' ∈ text upper sdms ∨ 'S' ∈ text upper sdms := by
  rw [List.any_eq_true]
  constructor
  · rintro ⟨c, mem, negative⟩
    have large := not_isLower_of_mem_text case_ mem
    rcases (negates_iff c).mp negative with rfl | rfl | rfl | rfl
    · exact absurd rfl large
    · exact .inl mem
    · exact absurd rfl large
    · exact .inr mem
  · rintro (mem | mem)
    · exact ⟨'W', mem, rfl⟩
    · exact ⟨'S', mem, rfl⟩

/-! Texts in the two formats. -/

def Plain (c : Char) : Prop := c.isDigit ∨ c ∈ "°'\". ".toList

theorem plain_padded (width n : ℕ) : ∀ c ∈ padded width n, Plain c :=
  fun _ h => .inl (isDigit_of_mem_padded h)

theorem isDigit_or_point_decimal (f : Format) (width n : ℕ) :
    ∀ c ∈ f.decimal width n, c.isDigit ∨ c = '.' := by
  intro c h
  rcases List.mem_append.mp h with whole | behind
  · exact .inl (isDigit_of_mem_padded whole)
  · rcases List.mem_cons.mp behind with point | fraction
    · exact .inr point
    · exact .inl (isDigit_of_mem_padded fraction)

theorem plain_decimal (f : Format) (width n : ℕ) : ∀ c ∈ f.decimal width n, Plain c := by
  intro c h
  rcases isDigit_or_point_decimal f width n c h with digit | rfl
  · exact .inl digit
  · exact .inr (by decide)

theorem plain_signs {s : Text} (signs : s.all (fun c => c ∈ "°'\". ".toList)) :
    ∀ c ∈ s, Plain c :=
  fun c hc => .inr (of_decide_eq_true (List.all_eq_true.mp signs c hc))

theorem toUpper_of_isDigit {c : Char} (h : c.isDigit) : c.toUpper = c := by
  have most : c.toNat ≤ 57 := (Char.isDigit_iff_toNat.mp h).2
  have small : ¬ ('a'.val ≤ c.val ∧ c.val ≤ 'z'.val) := by
    rintro ⟨least, -⟩
    have more : 97 ≤ c.toNat := UInt32.le_iff_toNat_le.mp least
    omega
  exact dif_neg small

theorem ne_of_plain {c x : Char} (plain : Plain c) (no : ¬ x.isDigit)
    (other : x ∉ "°'\". ".toList) : c ≠ x := by
  rintro rfl
  rcases plain with digit | sign
  · exact no digit
  · exact other sign

variable {upper : Char → Char} {body : Text} (h : Hemisphere)

theorem not_mem_of_plain (plain : ∀ c ∈ body, Plain c) {x : Char} (no : ¬ x.isDigit)
    (other : x ∉ "°'\". ".toList) (letter : x ≠ h.letter) : x ∉ body ++ [h.letter] := by
  intro mem
  rcases List.mem_append.mp mem with inside | last
  · exact ne_of_plain (plain x inside) no other rfl
  · exact letter (List.mem_singleton.mp last)

theorem upper_of_plain (case_ : IsUpperCase upper) {c : Char} (plain : Plain c) :
    upper c = c := by
  rcases plain with digit | sign
  · have most : c.toNat ≤ 57 := (Char.isDigit_iff_toNat.mp digit).2
    rw [case_.ascii c (by omega), toUpper_of_isDigit digit]
  · have signs : c = '°' ∨ c = '\'' ∨ c = '"' ∨ c = '.' ∨ c = ' ' := by simpa using sign
    rcases signs with rfl | rfl | rfl | rfl | rfl
    · exact case_.degree
    · exact case_.ascii _ (by decide)
    · exact case_.ascii _ (by decide)
    · exact case_.ascii _ (by decide)
    · exact case_.ascii _ (by decide)

theorem text_of_plain (case_ : IsUpperCase upper) (plain : ∀ c ∈ body, Plain c) :
    text upper (body ++ [h.letter]) = body ++ [h.letter] := by
  have absent {x : Char} (no : ¬ x.isDigit) (other : x ∉ "°'\". ".toList)
      (small : x ∉ "NSEW".toList) : x ∉ body ++ [h.letter] := by
    apply not_mem_of_plain h plain no other
    rintro rfl
    cases h <;> exact small (by decide)
  have dot := absent (x := '·') (by decide) (by decide) (by decide)
  have caron := absent (x := 'š') (by decide) (by decide) (by decide)
  have v := absent (x := 'v') (by decide) (by decide) (by decide)
  have z := absent (x := 'z') (by decide) (by decide) (by decide)
  have dash := absent (x := '-') (by decide) (by decide) (by decide)
  have noNul := absent (x := nul) (by decide) (by decide) (by decide)
  have large : (body ++ [h.letter]).map upper = body ++ [h.letter] := by
    have letter : upper h.letter = h.letter := by
      cases h <;> exact case_.ascii _ (by decide)
    rw [List.map_append, List.map_singleton, letter]
    congr 1
    have kept : ∀ c ∈ body, upper c = c := fun c hc => upper_of_plain case_ (plain c hc)
    exact (List.map_congr_left kept).trans (List.map_id' body)
  have prepared : prepare upper (body ++ [h.letter]) = body ++ [h.letter] := by
    rw [prepare]
    simp only [replace_of_not_mem "´·".toList _ (by decide) dot,
      replace_of_not_mem "\"·".toList _ (by decide) dot,
      replace_of_not_mem "·".toList _ (by decide) dot,
      replace_of_not_mem "s. š.".toList _ (by decide) caron,
      replace_of_not_mem "j. š.".toList _ (by decide) caron,
      replace_of_not_mem "v. d.".toList _ (by decide) v,
      replace_of_not_mem "z. d.".toList _ (by decide) z,
      replace_of_not_mem "-".toList _ (by decide) dash, large, ite_self]
  rw [text, prepared, upToNul, List.takeWhile_eq_self_iff]
  intro c hc
  have other : c ≠ nul := fun same => noNul (same ▸ hc)
  exact decide_eq_true other

theorem ends_of_digit_or_point {c : Char} (h : c.isDigit ∨ c = '.') : ends c = false := by
  have stay : stays c := by
    rcases h with digit | rfl
    · have between : '0'.val ≤ c.val ∧ c.val ≤ '9'.val := by simpa [Char.isDigit] using digit
      exact decide_eq_true (.inl between)
    · rfl
  rw [ends, stay]
  rfl

theorem numbers_skip {c : Char} (ended : ends c) (t : Text) : numbers (c :: t) = numbers t := by
  rw [numbers, pieces_skip ended, numbers]

theorem numbers_run {r : Text} {c : Char} (some_ : r ≠ [])
    (digits : ∀ c ∈ r, c.isDigit ∨ c = '.') (ended : ends c) (t : Text) :
    numbers (r ++ c :: t) = atof r :: numbers t := by
  have same : r.map FromDMM.decimal = r := by
    refine (List.map_congr_left ?_).trans (List.map_id' r)
    intro y hy
    have plain : y ≠ ',' := by
      rintro rfl
      rcases digits ',' hy with digit | point
      · cases digit
      · cases point
    rw [FromDMM.decimal, if_neg plain]
  rw [numbers, pieces_run some_ (fun y hy => ends_of_digit_or_point (digits y hy)) ended,
    List.map_cons, same, numbers]

theorem ends_letter : ends h.letter := by
  cases h <;> rfl

theorem numbers_letter : numbers [h.letter] = [] := numbers_skip (ends_letter h) []

theorem sign_eq (plain : ∀ c ∈ body, Plain c) :
    (if (body ++ [h.letter]).any negates then -1 else 1) = h.sign := by
  have none_ : body.any negates = false := by
    rw [List.any_eq_false]
    intro c hc negative
    rcases (negates_iff c).mp negative with rfl | rfl | rfl | rfl
    · exact ne_of_plain (plain _ hc) (by decide) (by decide) rfl
    · exact ne_of_plain (plain _ hc) (by decide) (by decide) rfl
    · exact ne_of_plain (plain _ hc) (by decide) (by decide) rfl
    · exact ne_of_plain (plain _ hc) (by decide) (by decide) rfl
  rw [List.any_append, none_, Bool.false_or]
  cases h <;> rfl

theorem fromDMM_of_plain (case_ : IsUpperCase upper) (plain : ∀ c ∈ body, Plain c)
    (short : (body ++ [h.letter]).length < 64) {xs : List ℚ}
    (read : numbers (body ++ [h.letter]) = xs) :
    fromDMM upper (body ++ [h.letter]) =
      .ok (h.sign * (xs.getD 0 0 + (xs.getD 1 0 + xs.getD 2 0 / 60) / 60)) := by
  have same := text_of_plain h case_ plain
  have readable : Readable (text upper (body ++ [h.letter])) := by
    rw [same]
    refine ⟨short, ?_⟩
    intro c hc
    rw [List.getLast?_concat] at hc
    rw [← Option.some.inj hc]
    exact ends_letter h
  rw [fromDMM_of_readable upper readable, same, position, sign_eq h plain, read]

theorem decimal_ne_nil (f : Format) (width n : ℕ) : f.decimal width n ≠ [] := by
  rw [Format.decimal]
  exact List.append_ne_nil_of_left_ne_nil (padded_ne_nil _ _) _

theorem atof_decimal (f : Format) (width n : ℕ) : atof (f.decimal width n) = n / 10 ^ f.decimals :=
  atof_padded_pointed f.some_ width n

theorem isDigit_or_point_padded (width n : ℕ) : ∀ c ∈ padded width n, c.isDigit ∨ c = '.' :=
  fun _ h => .inl (isDigit_of_mem_padded h)

theorem fromDMM_degreesMinutes (case_ : IsUpperCase upper) (f : Format) (d m : ℕ)
    (short : (f.degreesMinutes d m h).length < 64) :
    fromDMM upper (f.degreesMinutes d m h) =
      .ok (h.sign * (d + m / 10 ^ f.decimals / 60)) := by
  have read : numbers (f.degreesMinutes d m h) = [(d : ℚ), m / 10 ^ f.decimals] := by
    have layout : f.degreesMinutes d m h = padded f.degreesWidth d ++ '°' :: ' ' ::
        (f.decimal f.minutesWidth m ++ '\'' :: ' ' :: [h.letter]) := by
      simp [Format.degreesMinutes]
    rw [layout, numbers_run (padded_ne_nil _ _) (isDigit_or_point_padded _ _) rfl, numbers_skip rfl,
      numbers_run (decimal_ne_nil _ _ _) (isDigit_or_point_decimal _ _ _) rfl, numbers_skip rfl,
      numbers_letter, atof_padded, atof_decimal]
  have plain : ∀ c ∈ padded f.degreesWidth d ++ "° ".toList ++ f.decimal f.minutesWidth m ++
      "' ".toList, Plain c := by
    simp only [List.forall_mem_append]
    exact ⟨⟨⟨plain_padded _ _, plain_signs rfl⟩, plain_decimal _ _ _⟩,
      plain_signs rfl⟩
  have value := fromDMM_of_plain h case_ plain short read
  rw [Format.degreesMinutes, value]
  simp

theorem fromDMM_degreesMinutesSeconds (case_ : IsUpperCase upper) (f : Format) (d m s : ℕ)
    (short : (f.degreesMinutesSeconds d m s h).length < 64) :
    fromDMM upper (f.degreesMinutesSeconds d m s h) =
      .ok (h.sign * (d + (m + s / 10 ^ f.decimals / 60) / 60)) := by
  have read : numbers (f.degreesMinutesSeconds d m s h) = [(d : ℚ), m, s / 10 ^ f.decimals] := by
    have layout : f.degreesMinutesSeconds d m s h = padded f.degreesWidth d ++ '°' :: ' ' ::
        (padded f.minutesWidth m ++ '\'' :: ' ' ::
          (f.decimal f.secondsWidth s ++ '"' :: ' ' :: [h.letter])) := by
      simp [Format.degreesMinutesSeconds]
    rw [layout, numbers_run (padded_ne_nil _ _) (isDigit_or_point_padded _ _) rfl, numbers_skip rfl,
      numbers_run (padded_ne_nil _ _) (isDigit_or_point_padded _ _) rfl, numbers_skip rfl,
      numbers_run (decimal_ne_nil _ _ _) (isDigit_or_point_decimal _ _ _) rfl, numbers_skip rfl,
      numbers_letter, atof_padded, atof_padded, atof_decimal]
  have plain : ∀ c ∈ padded f.degreesWidth d ++ "° ".toList ++ padded f.minutesWidth m ++
      "' ".toList ++ f.decimal f.secondsWidth s ++ "\" ".toList, Plain c := by
    simp only [List.forall_mem_append]
    exact ⟨⟨⟨⟨⟨plain_padded _ _, plain_signs rfl⟩, plain_padded _ _⟩,
      plain_signs rfl⟩, plain_decimal _ _ _⟩, plain_signs rfl⟩
  have value := fromDMM_of_plain h case_ plain short read
  rw [Format.degreesMinutesSeconds, value]
  simp

/-- The value is that of the numbers read, negated for the south and the west; 32 numbers are room
    enough, and nothing is ever written to `narrowbuf` at `len` or behind it, or read there. The two
    formats say what is read. -/
theorem hemispheres_decoded (case_ : IsUpperCase upper) :
    (∀ sdms, (text upper sdms).length < 64 → (∀ c ∈ (text upper sdms).getLast?, ends c) →
      ∃ r, decode upper sdms = .ok r ∧ fromDMM upper sdms = .ok r.value ∧
        r.value = (if 'W' ∈ text upper sdms ∨ 'S' ∈ text upper sdms then -1 else 1) *
          ((numbers (text upper sdms)).getD 0 0 +
            ((numbers (text upper sdms)).getD 1 0 +
              (numbers (text upper sdms)).getD 2 0 / 60) / 60) ∧
        r.top = (numbers (text upper sdms)).length ∧ r.top ≤ 32 ∧
        r.len = (text upper sdms).length ∧ ∀ i, r.len ≤ i → r.narrowbuf i = none) ∧
    (∀ (f : Format) d m h, (f.degreesMinutes d m h).length < 64 →
      fromDMM upper (f.degreesMinutes d m h) = .ok (h.sign * (d + m / 10 ^ f.decimals / 60))) ∧
    ∀ (f : Format) d m s h, (f.degreesMinutesSeconds d m s h).length < 64 →
      fromDMM upper (f.degreesMinutesSeconds d m s h) =
        .ok (h.sign * (d + (m + s / 10 ^ f.decimals / 60) / 60)) := by
  refine ⟨?_, fun f d m h => fromDMM_degreesMinutes h case_ f d m,
    fun f d m s h => fromDMM_degreesMinutesSeconds h case_ f d m s⟩
  intro sdms short ended
  have half := length_numbers_le ended
  refine ⟨_, decode_of_terminated upper rfl short ended,
    fromDMM_of_readable upper ⟨short, ended⟩, ?_, rfl, ?_, rfl, ?_⟩
  · simp only [position, any_negates_iff case_]
  · change (numbers (text upper sdms)).length ≤ 32
    omega
  · intro i behind
    exact List.getElem?_eq_none ((List.length_map _).trans_le behind)

theorem hemispheres_decoded_toUpper :
    (∃ r, decode Char.toUpper "43° 16.8' w".toList = .ok r ∧ r.value = -(43 + 84 / 5 / 60)) ∧
      fromDMM Char.toUpper "043° 16.8000' N".toList = .ok (43 + 84 / 5 / 60) := by
  constructor
  · have last : (text Char.toUpper "43° 16.8' w".toList).getLast? = some 'W' := by decide +kernel
    obtain ⟨r, read, -, value, -⟩ := (hemispheres_decoded isUpperCase_toUpper).1
      "43° 16.8' w".toList (by decide +kernel) (fun c hc => by
        rw [last] at hc
        rw [← Option.some.inj hc]
        rfl)
    refine ⟨r, read, value.trans ?_⟩
    have runs : numbers (text Char.toUpper "43° 16.8' w".toList) = [43, 84 / 5] := by decide +kernel
    have west : 'W' ∈ text Char.toUpper "43° 16.8' w".toList := by decide +kernel
    rw [runs, if_pos (.inl west)]
    norm_num
  · have read := (hemispheres_decoded isUpperCase_toUpper).2.1 ⟨3, 2, 0, 4, by decide⟩ 43 168000
      .north (by decide +kernel)
    have written : Format.degreesMinutes ⟨3, 2, 0, 4, by decide⟩ 43 168000 .north =
        "043° 16.8000' N".toList := by decide +kernel
    rw [← written, read]
    norm_num [Hemisphere.sign]

end ObjSearch.Search.Hemispheres
