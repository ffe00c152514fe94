/- The number at the beginning of a text, as `strtod` and `strtol` read it.
   digest: After white space `strtod` reads the longest beginning of an expected form, and a text
   that is a decimal number between blanks as that number. -/

import ObjSearch.Lib.Doubles

set_option autoImplicit false
set_option relaxedAutoImplicit false

namespace ObjSearch.Lib.Strtod

open ObjSearch.Lib.Texts (Text)
open ObjSearch.Lib.Doubles

/-! The longest beginning that `read` accepts. -/

section Longest

variable {α : Type} (read : Text → Option α)

/-- What `read` makes of the longest beginning that it accepts, of those that reach at least to the
end of `before`, and the text behind. -/
def longest (before : Text) : Text → Option (α × Text)
  | [] => (read before).map (fun x => (x, []))
  | c :: rest =>
      (longest (before ++ [c]) rest).or ((read before).map (fun x => (x, c :: rest)))

structure IsLongest (t p : Text) (x : α) : Prop where
  begins : p <+: t
  reads : read p = some x
  longest : ∀ q, q <+: t → read q ≠ none → q.length ≤ p.length

variable {read}

theorem IsLongest.unique {t p q : Text} {x y : α} (h : IsLongest read t p x)
    (k : IsLongest read t q y) : p = q ∧ x = y := by
  have one : p.length = q.length := by
    apply Nat.le_antisymm
    · exact k.longest p h.begins (by rw [h.reads]; simp)
    · exact h.longest q k.begins (by rw [k.reads]; simp)
  have same : p = q := (List.prefix_of_prefix_length_le h.begins k.begins one.le).eq_of_length one
  subst same
  exact ⟨rfl, Option.some.inj (h.reads.symm.trans k.reads)⟩

theorem longest_none {before rest : Text} (h : longest read before rest = none) {q : Text}
    (begins : q <+: rest) : read (before ++ q) = none := by
  induction rest generalizing before q with
  | nil =>
    rw [List.prefix_nil.mp begins, List.append_nil]
    exact Option.map_eq_none_iff.mp h
  | cons c rest ih =>
    obtain ⟨later, here⟩ := Option.or_eq_none_iff.mp h
    rcases List.prefix_cons_iff.mp begins with rfl | ⟨q, rfl, behind⟩
    · rw [List.append_nil]
      exact Option.map_eq_none_iff.mp here
    · have := ih later behind
      rwa [List.append_assoc] at this

theorem longest_some {before rest after : Text} {x : α}
    (h : longest read before rest = some (x, after)) :
    ∃ p, rest = p ++ after ∧ read (before ++ p) = some x ∧
      ∀ q, q <+: rest → read (before ++ q) ≠ none → q.length ≤ p.length := by
  induction rest generalizing before with
  | nil =>
    obtain ⟨y, reads, same⟩ := Option.map_eq_some_iff.mp h
    cases same
    refine ⟨[], rfl, by rwa [List.append_nil], ?_⟩
    intro q begins _
    rw [List.prefix_nil.mp begins]
  | cons c rest ih =>
    rcases Option.or_eq_some_iff.mp h with later | ⟨later, here⟩
    · obtain ⟨p, rfl, reads, least⟩ := ih later
      refine ⟨c :: p, rfl, by rwa [List.append_assoc] at reads, ?_⟩
      intro q begins accepted
      rcases List.prefix_cons_iff.mp begins with rfl | ⟨q, rfl, behind⟩
      · exact Nat.zero_le _
      · apply Nat.succ_le_succ
        apply least q behind
        rwa [List.append_assoc]
    · obtain ⟨y, reads, same⟩ := Option.map_eq_some_iff.mp here
      cases same
      refine ⟨[], rfl, by rwa [List.append_nil], ?_⟩
      intro q begins accepted
      rcases List.prefix_cons_iff.mp begins with rfl | ⟨q, rfl, behind⟩
      · exact le_rfl
      · have := longest_none later behind
        rw [List.append_assoc] at this
        exact absurd this accepted

theorem longest_eq_some_iff {t : Text} {x : α} {after : Text} :
    longest read [] t = some (x, after) ↔ ∃ p, t = p ++ after ∧ IsLongest read t p x := by
  constructor
  · intro h
    obtain ⟨p, split, reads, least⟩ := longest_some h
    exact ⟨p, split, ⟨after, split.symm⟩, reads, least⟩
  · rintro ⟨p, split, h⟩
    cases result : longest read [] t with
    | none =>
      have nothing := longest_none result h.begins
      rw [List.nil_append, h.reads] at nothing
      cases nothing
    | some found =>
      obtain ⟨q, split', reads, least⟩ := longest_some result
      obtain ⟨rfl, rfl⟩ := h.unique ⟨⟨_, split'.symm⟩, reads, least⟩
      rw [List.append_cancel_left (split.symm.trans split')]

theorem longest_eq_none_iff {t : Text} :
    longest read [] t = none ↔ ∀ p, p <+: t → read p = none := by
  constructor
  · intro h p begins
    exact longest_none h begins
  · intro h
    cases result : longest read [] t with
    | none => rfl
    | some found =>
      obtain ⟨p, split, reads, -⟩ := longest_some result
      have nothing := h p ⟨_, split.symm⟩
      rw [List.nil_append, nothing] at reads
      cases reads

end Longest

/-! The forms `strtod` expects. -/

structure Radix where
  base : ℕ
  scale : ℕ
  letter : Char

def decimalRadix : Radix := ⟨10, 10, 'e'⟩

def hexadecimalRadix : Radix := ⟨16, 2, 'p'⟩

def digitValue (c : Char) : ℕ :=
  if c.isDigit then c.toNat - '0'.toNat
  else if c.isLower then c.toNat - 'a'.toNat + 10
  else if c.isUpper then c.toNat - 'A'.toNat + 10
  else 36

def isDigitIn (base : ℕ) (c : Char) : Bool := digitValue c < base

def valueIn (base : ℕ) (t : Text) : ℕ := t.foldl (fun n c => base * n + digitValue c) 0

def signed : Text → Bool × Text
  | '-' :: t => (true, t)
  | '+' :: t => (false, t)
  | t => (false, t)

def exponent (letter : Char) : Text → Option ℤ
  | [] => some 0
  | c :: t =>
      let s := signed t
      if c.toLower = letter ∧ s.2 ≠ [] ∧ s.2.all (isDigitIn 10) then
        some (if s.1 then -valueIn 10 s.2 else valueIn 10 s.2)
      else none

def fractionOf (base : ℕ) : Text → Text × Text
  | '.' :: t => (t.takeWhile (isDigitIn base), t.dropWhile (isDigitIn base))
  | t => ([], t)

/-- The whole text as digits, with a point or without, and an exponent. -/
def positional (r : Radix) (t : Text) : Option ℚ :=
  let whole := t.takeWhile (isDigitIn r.base)
  let (fraction, rest) := fractionOf r.base (t.dropWhile (isDigitIn r.base))
  if whole ++ fraction = [] then none
  else (exponent r.letter rest).map (fun e =>
    (valueIn r.base (whole ++ fraction) : ℚ) / (r.base : ℚ) ^ fraction.length * (r.scale : ℚ) ^ e)

def decimal (t : Text) : Option ℚ :=
  let s := signed t
  (positional decimalRadix s.2).map (fun x => if s.1 then -x else x)

def hexadecimal : Text → Option ℚ
  | '0' :: x :: t => if x.toLower = 'x' then positional hexadecimalRadix t else none
  | _ => none

def lower (t : Text) : Text := t.map Char.toLower

/-- `nan`, or with letters, digits and underscores between parentheses. -/
def isNan (t : Text) : Bool :=
  match t with
  | a :: b :: c :: t =>
      lower [a, b, c] = "nan".toList && (t = [] || t.length ≥ 2 && t.head? = some '(' &&
        t.getLast? = some ')' && t.tail.dropLast.all (fun c => c.isAlphanum || c = '_'))
  | _ => false

def special (t : Text) : Option Number :=
  if lower t = "inf".toList || lower t = "infinity".toList then some (.infinite false)
  else if isNan t then some .nan
  else none

section

/-! A number goes through `round` as soon as its digits are read, with its sign. -/

variable (round : ℚ → Number)

def subject (t : Text) : Option Number :=
  let s := signed t
  let number : ℚ → Number := fun x => round (if s.1 then -x else x)
  ((positional decimalRadix s.2).map number).or
    (((hexadecimal s.2).map number).or ((special s.2).map (fun x => if s.1 then x.neg else x)))

def isspace (c : Char) : Bool := [' ', '\t', '\n', '\x0b', '\x0c', '\r'].contains c

/-- The number and the text behind it: 0 and the whole text where no number begins it. -/
def strtodWith (t : Text) : Number × Text :=
  (longest (subject round) [] (t.dropWhile isspace)).getD (.finite 0, t)

end

def strtod (t : Text) : Number × Text := strtodWith Number.ofRat t

/-- `strtol` in base 10, for a `long` of 64 bits. -/
def strtol (t : Text) : ℤ :=
  let s := signed (t.dropWhile isspace)
  let n : ℤ := valueIn 10 (s.2.takeWhile (isDigitIn 10))
  max (-2 ^ 63) (min (2 ^ 63 - 1) (if s.1 then -n else n))

/-! No form has white space in it. -/

theorem isspace_cases {c : Char} (h : isspace c) :
    c = ' ' ∨ c = '\t' ∨ c = '\n' ∨ c = '\x0b' ∨ c = '\x0c' ∨ c = '\r' := by
  have mem := List.contains_iff_mem.mp h
  simpa only [List.mem_cons, List.not_mem_nil, or_false] using mem

theorem toLower_of_isspace {c : Char} (h : isspace c) : c.toLower = c := by
  rcases isspace_cases h with rfl | rfl | rfl | rfl | rfl | rfl <;> rfl

theorem not_isDigitIn_of_isspace {base : ℕ} (small : base ≤ 36) {c : Char} (h : isspace c) :
    isDigitIn base c = false := by
  have noDigit : digitValue c = 36 := by
    rcases isspace_cases h with rfl | rfl | rfl | rfl | rfl | rfl <;> rfl
  rw [isDigitIn, noDigit]
  exact decide_eq_false (by omega)

theorem not_isspace_of_isDigitIn {base : ℕ} (small : base ≤ 36) {c : Char} (h : isDigitIn base c) :
    isspace c = false := by
  by_contra space
  rw [not_isDigitIn_of_isspace small (eq_true_of_ne_false space)] at h
  cases h

theorem not_isspace_of_toLower {c d : Char} (h : c.toLower = d) (other : isspace d = false) :
    isspace c = false := by
  by_contra space
  have space := eq_true_of_ne_false space
  rw [← h, toLower_of_isspace space, space] at other
  cases other

theorem signed_cases (t : Text) :
    t = (signed t).2 ∨ t = '-' :: (signed t).2 ∨ t = '+' :: (signed t).2 := by
  unfold signed
  split
  · exact .inr (.inl rfl)
  · exact .inr (.inr rfl)
  · exact .inl rfl

def Solid (t : Text) : Prop := ∀ c ∈ t, isspace c = false

theorem Solid.nil : Solid [] := fun _ mem => absurd mem List.not_mem_nil

theorem Solid.cons {c : Char} {t : Text} (first : isspace c = false) (h : Solid t) :
    Solid (c :: t) :=
  List.forall_mem_cons.mpr ⟨first, h⟩

theorem Solid.append {t u : Text} (h : Solid t) (k : Solid u) : Solid (t ++ u) :=
  List.forall_mem_append.mpr ⟨h, k⟩

theorem solid_of_all {t : Text} (h : t.all (fun c => !isspace c)) : Solid t := by
  intro c mem
  exact Bool.not_eq_true' _ ▸ List.all_eq_true.mp h c mem

theorem solid_of_isDigitIn {base : ℕ} (small : base ≤ 36) {t : Text}
    (digits : ∀ c ∈ t, isDigitIn base c) : Solid t := by
  intro c mem
  exact not_isspace_of_isDigitIn small (digits c mem)

theorem solid_of_signed {t : Text} (h : Solid (signed t).2) : Solid t := by
  rcases signed_cases t with same | minus | plus
  · rw [same]
    exact h
  · rw [minus]
    exact h.cons rfl
  · rw [plus]
    exact h.cons rfl

theorem solid_of_exponent {letter : Char} (other : isspace letter = false) {t : Text} {e : ℤ}
    (h : exponent letter t = some e) : Solid t := by
  cases t with
  | nil => exact .nil
  | cons c t =>
    simp only [exponent] at h
    split at h
    · next written =>
      obtain ⟨first, -, digits⟩ := written
      rw [List.all_eq_true] at digits
      have rest : Solid t := solid_of_signed (solid_of_isDigitIn (by decide) digits)
      exact rest.cons (not_isspace_of_toLower first other)
    · cases h

theorem takeWhile_solid {base : ℕ} (small : base ≤ 36) (t : Text) :
    Solid (t.takeWhile (isDigitIn base)) :=
  solid_of_isDigitIn small (fun _ mem => List.mem_takeWhile_imp mem)

theorem solid_of_fractionOf {base : ℕ} (small : base ≤ 36) {t : Text}
    (h : Solid (fractionOf base t).2) : Solid t := by
  unfold fractionOf at h
  split at h
  · next t =>
    have fraction := (takeWhile_solid small t).append h
    rw [List.takeWhile_append_dropWhile] at fraction
    exact fraction.cons rfl
  · exact h

theorem solid_of_positional {r : Radix} (small : r.base ≤ 36) (other : isspace r.letter = false)
    {t : Text} {x : ℚ} (h : positional r t = some x) : Solid t := by
  unfold positional at h
  dsimp only at h
  split at h
  · cases h
  · obtain ⟨e, written, -⟩ := Option.map_eq_some_iff.mp h
    have rest := solid_of_fractionOf small (solid_of_exponent other written)
    have whole := (takeWhile_solid small t).append rest
    rwa [List.takeWhile_append_dropWhile] at whole

theorem solid_of_lower {t word : Text} (h : lower t = word) (solid : Solid word) : Solid t := by
  intro c mem
  exact not_isspace_of_toLower rfl (solid _ (h ▸ List.mem_map_of_mem mem))

theorem solid_of_hexadecimal {t : Text} {x : ℚ} (h : hexadecimal t = some x) : Solid t := by
  unfold hexadecimal at h
  split at h
  · next t =>
    split at h
    · next letter =>
      have digits := solid_of_positional (r := hexadecimalRadix) (by decide) rfl h
      exact (digits.cons (not_isspace_of_toLower letter rfl)).cons rfl
    · cases h
  · cases h

theorem not_isspace_of_isAlphanum {c : Char} (h : c.isAlphanum || c = '_') : isspace c = false := by
  by_contra space
  rcases isspace_cases (eq_true_of_ne_false space) with rfl | rfl | rfl | rfl | rfl | rfl <;> cases h

theorem solid_of_parentheses {t : Text} (long : 2 ≤ t.length) (first : t.head? = some '(')
    (last : t.getLast? = some ')') (inside : Solid t.tail.dropLast) : Solid t := by
  obtain ⟨u, rfl⟩ := List.head?_eq_some_iff.mp first
  have more : u ≠ [] := by
    rintro rfl
    exact absurd long (by decide)
  have ends : u.getLast more = ')' := by
    rw [List.getLast?_eq_some_getLast (List.cons_ne_nil _ _), List.getLast_cons more] at last
    exact Option.some.inj last
  have split : u = u.dropLast ++ [')'] := by
    rw [← ends, List.dropLast_append_getLast more]
  have behind : Solid u := by
    rw [split]
    exact Solid.append inside (.cons rfl .nil)
  exact behind.cons rfl

theorem solid_of_isNan {t : Text} (h : isNan t) : Solid t := by
  unfold isNan at h
  split at h
  · next a b c t =>
    obtain ⟨word, rest⟩ := Bool.and_eq_true_iff.mp h
    have first : Solid [a, b, c] := solid_of_lower (of_decide_eq_true word) (solid_of_all rfl)
    refine Solid.append first ?_
    rcases Bool.or_eq_true_iff.mp rest with nothing | parentheses
    · rw [of_decide_eq_true nothing]
      exact .nil
    · simp only [Bool.and_eq_true, decide_eq_true_eq, List.all_eq_true] at parentheses
      obtain ⟨⟨⟨long, opened⟩, closed⟩, inside⟩ := parentheses
      refine solid_of_parentheses long opened closed ?_
      intro c mem
      exact not_isspace_of_isAlphanum (by simpa using inside c mem)
  · cases h

theorem solid_of_special {t : Text} {x : Number} (h : special t = some x) : Solid t := by
  unfold special at h
  split at h
  · next word =>
    rcases Bool.or_eq_true_iff.mp word with short | long
    · exact solid_of_lower (of_decide_eq_true short) (solid_of_all rfl)
    · exact solid_of_lower (of_decide_eq_true long) (solid_of_all rfl)
  · split at h
    · next isNan => exact solid_of_isNan isNan
    · cases h

variable {round : ℚ → Number}

theorem solid_of_subject {t : Text} {x : Number} (h : subject round t = some x) : Solid t := by
  apply solid_of_signed
  rcases Option.or_eq_some_iff.mp h with digits | ⟨-, form⟩
  · obtain ⟨x, digits, -⟩ := Option.map_eq_some_iff.mp digits
    exact solid_of_positional (by decide) rfl digits
  · rcases Option.or_eq_some_iff.mp form with digits | ⟨-, word⟩
    · obtain ⟨x, digits, -⟩ := Option.map_eq_some_iff.mp digits
      exact solid_of_hexadecimal digits
    · obtain ⟨x, word, -⟩ := Option.map_eq_some_iff.mp word
      exact solid_of_special word

/-! Decimal numbers between blanks. -/

theorem subject_of_decimal {t : Text} {x : ℚ} (h : decimal t = some x) :
    subject round t = some (round x) := by
  simp only [decimal, Option.map_eq_some_iff] at h
  obtain ⟨y, digits, rfl⟩ := h
  simp only [subject, digits]
  rfl

theorem ne_nil_of_decimal {t : Text} {x : ℚ} (h : decimal t = some x) : t ≠ [] := by
  rintro rfl
  cases h

/-- White space that follows a form is not part of a longer one. -/
theorem isLongest_subject {s after : Text} {x : Number} (h : subject round s = some x)
    (space : ∀ c ∈ after, isspace c) : IsLongest (subject round) (s ++ after) s x := by
  refine ⟨List.prefix_append s after, h, ?_⟩
  intro q begins accepted
  obtain ⟨y, reads⟩ := Option.ne_none_iff_exists'.mp accepted
  by_contra longer
  obtain ⟨r, rfl⟩ := List.prefix_of_prefix_length_le (List.prefix_append s after) begins (by omega)
  have more : r ≠ [] := by
    rintro rfl
    simp at longer
  obtain ⟨c, r, rfl⟩ := List.exists_cons_of_ne_nil more
  have behind : c :: r <+: after := (List.prefix_append_right_inj s).mp begins
  have white := space c (behind.subset List.mem_cons_self)
  have solid := solid_of_subject reads c (List.mem_append_right s List.mem_cons_self)
  rw [white] at solid
  cases solid

theorem strtodWith_of_longest {t p after : Text} {x : Number}
    (split : t.dropWhile isspace = p ++ after)
    (h : IsLongest (subject round) (t.dropWhile isspace) p x) :
    strtodWith round t = (x, after) := by
  rw [strtodWith, longest_eq_some_iff.mpr ⟨p, split, h⟩]
  rfl

theorem strtodWith_of_nothing {t : Text}
    (h : ∀ p, p <+: t.dropWhile isspace → subject round p = none) :
    strtodWith round t = (.finite 0, t) := by
  rw [strtodWith, longest_eq_none_iff.mpr h]
  rfl

theorem dropWhile_isspace {before s : Text} (after : Text) (space : ∀ c ∈ before, isspace c)
    (solid : Solid s) (some_ : s ≠ []) :
    (before ++ s ++ after).dropWhile isspace = s ++ after := by
  obtain ⟨c, s, rfl⟩ := List.exists_cons_of_ne_nil some_
  rw [List.append_assoc, List.dropWhile_append_of_pos space]
  exact List.dropWhile_cons_of_neg (by rw [solid c List.mem_cons_self]; decide)

/-- A decimal number between blanks is read as it stands, up to the blanks behind it. -/
theorem strtodWith_of_decimal {before s after : Text} {x : ℚ} (h : decimal s = some x)
    (spaceBefore : ∀ c ∈ before, isspace c) (spaceAfter : ∀ c ∈ after, isspace c) :
    strtodWith round (before ++ s ++ after) = (round x, after) := by
  have reads := @subject_of_decimal round _ _ h
  have split := dropWhile_isspace after spaceBefore (solid_of_subject reads) (ne_nil_of_decimal h)
  apply strtodWith_of_longest split
  rw [split]
  exact isLongest_subject reads spaceAfter

end ObjSearch.Lib.Strtod
