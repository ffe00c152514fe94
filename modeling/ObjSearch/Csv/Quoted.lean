/- A quoted section in any C string, in a buffer of any size.
   digest: Decoding it in place reads up to the NUL at most and keeps the writing behind the
   reading; it ends in front of a delimiter exactly where there is a section, and there with its
   text. -/

import Mathlib.Data.List.TakeWhile
import ObjSearch.Csv.Checked
import ObjSearch.Csv.Table

set_option autoImplicit false
set_option relaxedAutoImplicit false

namespace ObjSearch.Csv.Quoted

open ObjSearch.Lib.Texts (Text)
open ObjSearch.Lib.Cells
open ObjSearch.Csv.Parser
open ObjSearch.Csv.Scanner
open ObjSearch.Csv.Table
open ObjSearch.Csv.Checked

/-- What must not happen: a read behind the NUL, a write cursor that has caught up with the read
cursor, a loop that goes on. -/
inductive Misstep where
  | pastNul
  | overtaken
  | endless
deriving DecidableEq

def readUpTo (last : ℕ) (m : Buffer) (i : ℕ) : Except Misstep Char :=
  if last < i then .error .pastNul else .ok (m i)

/-! `csv_process_quoted_string` and its two loops, on cells without end. -/

def copyQuotedUpTo (last : ℕ) : ℕ → Buffer → ℕ → ℕ → Except Misstep (Bool × Buffer × ℕ × ℕ)
  | 0, _, _, _ => .error .endless
  | turns + 1, m, p, q =>
    if q ≤ p then .error .overtaken
    else do
      let c ← readUpTo last m q
      if c = nul then .ok (false, m, p, q)
      else if c = '"' then do
        let d ← readUpTo last m (q + 1)
        if d ≠ '"' then .ok (true, m, p, q + 1)
        else copyQuotedUpTo last turns (put m p d) (p + 1) (q + 2)
      else copyQuotedUpTo last turns (put m p c) (p + 1) (q + 1)

def skipBlanksUpTo (last : ℕ) : ℕ → Buffer → ℕ → Except Misstep ℕ
  | 0, _, _ => .error .endless
  | turns + 1, m, q => do
    let c ← readUpTo last m q
    if isBlank c then skipBlanksUpTo last turns m (q + 1) else .ok q

def csvProcessQuotedStringUpTo (last turns : ℕ) (m : Buffer) (buff : ℕ) :
    Except Misstep (ℤ × Buffer × ℕ) := do
  let (closed, m, p, q) ← copyQuotedUpTo last turns m buff (buff + 1)
  if !closed then return (eQuotedString, m, buff)
  if q ≤ p then .error .overtaken
  else do
    let m := put m p nul
    let q ← skipBlanksUpTo last turns m q
    let c ← readUpTo last m q
    if c ≠ ',' ∧ c ≠ '\n' ∧ c ≠ nul then return (eQuotedString, m, buff)
    return (0, m, q - 1)

/-! What a section is. -/

def Delimiter (c : Char) : Prop := c = ',' ∨ c = '\n' ∨ c = nul

instance (c : Char) : Decidable (Delimiter c) := inferInstanceAs (Decidable (_ ∨ _ ∨ _))

/-- The text `t` between quotes, its own quotes doubled, and then only blanks. -/
def quoted (t blanks : Text) : Text := '"' :: (escaped t ++ '"' :: blanks)

def Begins (m : Buffer) (buff : ℕ) (t blanks : Text) : Prop :=
  nul ∉ t ∧ (∀ c ∈ blanks, isBlank c) ∧ Holds m buff (quoted t blanks) ∧
    Delimiter (m (buff + (quoted t blanks).length))

/-- The section from `buff` to the cell before the delimiter has become a C string. -/
structure Decoded (m m' : Buffer) (buff last at_ : ℕ) : Prop where
  moved : buff < at_
  inside : at_ + 1 ≤ last
  delimiter : Delimiter (m' (at_ + 1))
  text : ∃ t blanks, Begins m buff t blanks ∧ buff + (quoted t blanks).length = at_ + 1 ∧
    Holds m' buff (t ++ [nul])
  before : ∀ j, j < buff → m' j = m j
  after : ∀ j, at_ + 1 ≤ j → m' j = m j

theorem unquote_other {c : Char} (other : c ≠ '"') (cs : Text) :
    unquote (c :: cs) = (c :: (unquote cs).1, (unquote cs).2) := by
  cases cs with
  | nil => simp only [unquote, if_neg other]
  | cons d cs => simp only [unquote, if_neg other]

theorem unquote_escaped (t : Text) {rest : Text} (stop : rest.head? ≠ some '"') :
    unquote (escaped t ++ '"' :: rest) = (t, some rest) := by
  induction t with
  | nil =>
    cases rest with
    | nil => rfl
    | cons d rest =>
      have other : d ≠ '"' := fun same => stop (by rw [same]; rfl)
      show unquote ('"' :: d :: rest) = _
      simp only [unquote, if_true, if_neg other]
  | cons c t ih =>
    by_cases quote : c = '"'
    · rw [escaped, if_pos quote, quote]
      show unquote ('"' :: '"' :: (escaped t ++ '"' :: rest)) = _
      simp only [unquote, if_true, ih]
    · rw [escaped, if_neg quote]
      show unquote (c :: (escaped t ++ '"' :: rest)) = _
      rw [unquote_other quote, ih]

theorem split_of_unquote {cs t rest : Text} (h : unquote cs = (t, some rest)) :
    cs = escaped t ++ '"' :: rest := by
  induction cs using unquote.induct generalizing t with
  | case1 => cases h
  | case2 =>
    cases h
    rfl
  | case3 c other =>
    simp only [unquote, if_neg other] at h
    cases h
  | case4 cs ih =>
    simp only [unquote, if_true] at h
    obtain ⟨rfl, behind⟩ := Prod.mk.inj h
    rw [escaped, if_pos rfl]
    exact congrArg (fun u => '"' :: '"' :: u) (ih (Prod.ext rfl behind))
  | case5 d cs other =>
    simp only [unquote, if_true, if_neg other] at h
    cases h
    rfl
  | case6 c d cs other ih =>
    simp only [unquote, if_neg other] at h
    obtain ⟨rfl, behind⟩ := Prod.mk.inj h
    rw [escaped, if_neg other]
    exact congrArg (List.cons c) (ih (Prod.ext rfl behind))

theorem length_quoted (t blanks : Text) :
    (quoted t blanks).length = (escaped t).length + blanks.length + 2 := by
  rw [quoted, List.length_cons, List.length_append, List.length_cons]
  omega

/-! The loops over a string. -/

theorem readUpTo_ok {last i : ℕ} (m : Buffer) (le : i ≤ last) : readUpTo last m i = .ok (m i) := by
  rw [readUpTo, if_neg (by omega)]

section turn

variable {last turns : ℕ} {m : Buffer} {p q : ℕ}

theorem copyUpTo_nul (behind : p < q) (le : q ≤ last) (here : m q = nul) :
    copyQuotedUpTo last (turns + 1) m p q = .ok (false, m, p, q) := by
  rw [copyQuotedUpTo, if_neg (by omega), readUpTo_ok m le, here]
  rfl

theorem copyUpTo_closed (behind : p < q) (le : q + 1 ≤ last) (here : m q = '"')
    (next : m (q + 1) ≠ '"') :
    copyQuotedUpTo last (turns + 1) m p q = .ok (true, m, p, q + 1) := by
  rw [copyQuotedUpTo, if_neg (by omega), readUpTo_ok m (by omega), here]
  show (readUpTo last m (q + 1) >>= _) = _
  rw [readUpTo_ok m le]
  exact if_pos next

theorem copyUpTo_doubled (behind : p < q) (le : q + 1 ≤ last) (here : m q = '"')
    (next : m (q + 1) = '"') :
    copyQuotedUpTo last (turns + 1) m p q =
      copyQuotedUpTo last turns (put m p '"') (p + 1) (q + 2) := by
  rw [copyQuotedUpTo, if_neg (by omega), readUpTo_ok m (by omega), here]
  show (readUpTo last m (q + 1) >>= _) = _
  rw [readUpTo_ok m le, next]
  rfl

theorem copyUpTo_other {c : Char} (behind : p < q) (le : q ≤ last) (here : m q = c)
    (notNul : c ≠ nul) (notQuote : c ≠ '"') :
    copyQuotedUpTo last (turns + 1) m p q =
      copyQuotedUpTo last turns (put m p c) (p + 1) (q + 1) := by
  rw [copyQuotedUpTo, if_neg (by omega), readUpTo_ok m le, here]
  exact (if_neg notNul).trans (if_neg notQuote)

end turn

/-- What the copying leaves: the text from `p` on, and all from `q` on as it was. -/
structure Moved (m m' : Buffer) (p q : ℕ) (t : Text) : Prop where
  text : Holds m' p t
  before : ∀ j, j < p → m' j = m j
  after : ∀ j, q ≤ j → m' j = m j
  behind : p + t.length < q

theorem Moved.nil (m : Buffer) {p q : ℕ} (behind : p < q) : Moved m m p q [] :=
  ⟨trivial, fun _ _ => rfl, fun _ _ => rfl, behind⟩

theorem Moved.cons {m m' : Buffer} {p q : ℕ} {c : Char} {t : Text}
    (h : Moved (put m p c) m' (p + 1) q t) : Moved m m' p q (c :: t) := by
  have first : m' p = c := (h.before p (by omega)).trans (put_self m p c)
  have behind := h.behind
  refine ⟨⟨first, h.text⟩, ?_, ?_, ?_⟩
  · intro j below
    exact (h.before j (by omega)).trans (put_ne m c (by omega))
  · intro j above
    exact (h.after j above).trans (put_ne m c (by omega))
  · rw [List.length_cons]
    omega

def Copies (cs : Text) (m : Buffer) (p last : ℕ)
    (result : Except Misstep (Bool × Buffer × ℕ × ℕ)) : Prop :=
  match (unquote cs).2 with
  | none => ∃ m' p' q', result = .ok (false, m', p', q')
  | some rest => ∃ m' q', result = .ok (true, m', p + (unquote cs).1.length, q') ∧
      q' + rest.length = last ∧ Moved m m' p q' (unquote cs).1

theorem Copies.cons {c : Char} {cs u : Text} {m : Buffer} {p last : ℕ}
    {result : Except Misstep (Bool × Buffer × ℕ × ℕ)}
    (same : unquote cs = (c :: (unquote u).1, (unquote u).2))
    (h : Copies u (put m p c) (p + 1) last result) : Copies cs m p last result := by
  unfold Copies at h ⊢
  rw [same]
  dsimp only
  cases remainder : (unquote u).2 with
  | none =>
    rw [remainder] at h
    exact h
  | some rest =>
    rw [remainder] at h
    obtain ⟨m', q', ran, lengths, moved⟩ := h
    refine ⟨m', q', ?_, lengths, moved.cons⟩
    rw [ran, List.length_cons, Nat.add_assoc, Nat.add_comm 1]

theorem copyQuotedUpTo_spec (cs : Text) {last turns : ℕ} {m : Buffer} {p q : ℕ}
    (text : Holds m q (cs ++ [nul])) (ends : q + cs.length = last) (behind : p < q)
    (enough : cs.length < turns) (clean : nul ∉ cs) :
    Copies cs m p last (copyQuotedUpTo last turns m p q) := by
  obtain ⟨turns, rfl⟩ : ∃ n, turns = n + 1 := ⟨turns - 1, by omega⟩
  induction cs using unquote.induct generalizing turns m p q with
  | case1 => exact ⟨m, p, q, copyUpTo_nul behind ends.le text.1⟩
  | case2 =>
    obtain ⟨quote, zero, -⟩ := text
    rw [List.length_singleton] at ends
    exact ⟨m, q + 1, copyUpTo_closed behind (by omega) quote (by rw [zero]; decide), ends,
      .nil m (by omega)⟩
  | case3 c other =>
    obtain ⟨here, zero, -⟩ := text
    rw [List.mem_singleton] at clean
    rw [List.length_singleton] at ends enough
    obtain ⟨turns, rfl⟩ : ∃ n, turns = n + 1 := ⟨turns - 1, by omega⟩
    rw [copyUpTo_other behind (by omega) here (Ne.symm clean) other]
    apply Copies.cons (unquote_other other [])
    exact ⟨_, _, _, copyUpTo_nul (by omega) (by omega) ((put_ne m c (by omega)).trans zero)⟩
  | case4 cs ih =>
    obtain ⟨here, next, text⟩ := text
    simp only [List.length_cons] at ends enough
    obtain ⟨turns, rfl⟩ : ∃ n, turns = n + 1 := ⟨turns - 1, by omega⟩
    rw [copyUpTo_doubled behind (by omega) here next]
    apply Copies.cons (c := '"') (u := cs) (by simp only [unquote, if_true])
    exact ih (text.put_before '"' (by omega)) (by omega) (by omega)
      (fun h => clean (.tail _ (.tail _ h))) turns (by omega)
  | case5 d cs other =>
    obtain ⟨here, next, -⟩ := text
    simp only [List.length_cons] at ends
    rw [copyUpTo_closed behind (by omega) here (by rw [next]; exact other)]
    unfold Copies
    simp only [unquote, if_true, if_neg other]
    exact ⟨m, q + 1, rfl, by rw [List.length_cons]; omega, .nil m (by omega)⟩
  | case6 c d cs other ih =>
    obtain ⟨here, text⟩ := text
    rw [List.mem_cons, not_or] at clean
    rw [List.length_cons] at ends enough
    obtain ⟨turns, rfl⟩ : ∃ n, turns = n + 1 :=
      ⟨turns - 1, by rw [List.length_cons] at enough; omega⟩
    rw [copyUpTo_other behind (by omega) here (Ne.symm clean.1) other]
    apply Copies.cons (unquote_other other (d :: cs))
    exact ih (text.put_before c (by omega)) (by omega) (by omega) clean.2 turns (by omega)

theorem skipBlanksUpTo_spec (cs : Text) {last turns : ℕ} {m : Buffer} {q : ℕ}
    (text : Holds m q (cs ++ [nul])) (ends : q + cs.length = last) (enough : cs.length < turns) :
    ∃ q', skipBlanksUpTo last turns m q = .ok q' ∧
      q' = q + (cs.takeWhile isBlank).length ∧ Holds m q' (cs.dropWhile isBlank ++ [nul]) := by
  obtain ⟨turns, rfl⟩ : ∃ n, turns = n + 1 := ⟨turns - 1, by omega⟩
  induction cs generalizing turns q with
  | nil =>
    refine ⟨q, ?_, rfl, text⟩
    rw [skipBlanksUpTo, readUpTo_ok m (show q ≤ last from ends.le), text.1]
    rfl
  | cons c cs ih =>
    rw [List.length_cons] at ends enough
    have here : m q = c := text.1
    rw [skipBlanksUpTo, readUpTo_ok m (by omega), here, List.dropWhile_cons, List.takeWhile_cons]
    show ∃ q', (if isBlank c then _ else _) = _ ∧ _
    by_cases blank : isBlank c = true
    · obtain ⟨turns, rfl⟩ : ∃ n, turns = n + 1 := ⟨turns - 1, by omega⟩
      obtain ⟨q', ran, place, rest⟩ := ih text.2 (by omega) turns (by omega)
      rw [if_pos blank, if_pos blank, if_pos blank]
      exact ⟨q', ran, by rw [List.length_cons]; omega, rest⟩
    · rw [if_neg blank, if_neg blank, if_neg blank]
      exact ⟨q, rfl, rfl, text⟩

/-! The whole function. -/

theorem ite_delimiter {α : Type} (c : Char) (x y : α) :
    (if c ≠ ',' ∧ c ≠ '\n' ∧ c ≠ nul then x else y) = if Delimiter c then y else x := by
  have test : c ≠ ',' ∧ c ≠ '\n' ∧ c ≠ nul ↔ ¬Delimiter c := by rw [Delimiter, not_or, not_or]
  by_cases delimiter : Delimiter c
  · rw [if_pos delimiter, if_neg (fun bad => test.mp bad delimiter)]
  · rw [if_neg delimiter, if_pos (test.mpr delimiter)]

theorem upTo_of_loops {last turns : ℕ} {m m1 : Buffer} {buff p q q' : ℕ}
    (copied : copyQuotedUpTo last turns m buff (buff + 1) = .ok (true, m1, p, q)) (behind : p < q)
    (skipped : skipBlanksUpTo last turns (put m1 p nul) q = .ok q') (inside : q' ≤ last) :
    csvProcessQuotedStringUpTo last turns m buff =
      .ok (if Delimiter (put m1 p nul q') then (0, put m1 p nul, q' - 1)
        else (eQuotedString, put m1 p nul, buff)) := by
  rw [csvProcessQuotedStringUpTo, copied]
  show (if q ≤ p then _ else _) = _
  rw [if_neg (by omega)]
  show (skipBlanksUpTo last turns (put m1 p nul) q >>= _) = _
  rw [skipped]
  show (readUpTo last (put m1 p nul) q' >>= _) = _
  rw [readUpTo_ok _ inside, apply_ite Except.ok]
  exact ite_delimiter _ _ _

section string

variable {m : Buffer} {buff last turns : ℕ} {cs : Text} (text : Holds m (buff + 1) (cs ++ [nul]))
  (ends : buff + 1 + cs.length = last) (clean : nul ∉ cs)

include text ends clean in
theorem unclosed_spec (enough : cs.length < turns) (unclosed : (unquote cs).2 = none) :
    ∃ m', csvProcessQuotedStringUpTo last turns m buff = .ok (eQuotedString, m', buff) := by
  have copies := copyQuotedUpTo_spec cs text ends (Nat.lt_succ_self buff) enough clean
  unfold Copies at copies
  rw [unclosed] at copies
  obtain ⟨m', p', q', ran⟩ := copies
  refine ⟨m', ?_⟩
  rw [csvProcessQuotedStringUpTo, ran]
  rfl

include text ends clean in
theorem closed_spec (enough : cs.length < turns) {t rest : Text}
    (closed : unquote cs = (t, some rest)) :
    ∃ m', Holds m' buff (t ++ [nul]) ∧ (∀ j, j < buff → m' j = m j) ∧
      (∀ j, buff + (quoted t (rest.takeWhile isBlank)).length ≤ j → m' j = m j) ∧
      csvProcessQuotedStringUpTo last turns m buff =
        if Delimiter (m (buff + (quoted t (rest.takeWhile isBlank)).length)) then
          .ok (0, m', buff + (quoted t (rest.takeWhile isBlank)).length - 1)
        else .ok (eQuotedString, m', buff) := by
  have copies := copyQuotedUpTo_spec cs text ends (Nat.lt_succ_self buff) enough clean
  unfold Copies at copies
  rw [closed] at copies
  obtain ⟨m1, q, ran, place, moved⟩ := copies
  dsimp only at place moved ran
  have split := split_of_unquote closed
  have length := congrArg List.length split
  rw [List.length_append, List.length_cons] at length
  have behind := moved.behind
  have short := (List.takeWhile_prefix isBlank (l := rest)).length_le
  have end_ : q + (rest.takeWhile isBlank).length =
      buff + (quoted t (rest.takeWhile isBlank)).length := by
    rw [length_quoted]
    omega
  -- the NUL goes behind the text, and the rest of the string is as it was
  have kept : ∀ j, q ≤ j → put m1 (buff + t.length) nul j = m j := by
    intro j above
    rw [put_ne m1 nul (by omega), moved.after j above]
  have rest_ : Holds m q (rest ++ [nul]) := by
    rw [split, List.append_assoc, holds_append] at text
    rw [show q = buff + 1 + (escaped t).length + 1 by omega]
    exact text.2.2
  obtain ⟨q', skipped, next, -⟩ := skipBlanksUpTo_spec rest
    (rest_.congr (fun j low _ => kept j low)) place (show rest.length < turns by omega)
  rw [end_] at next
  subst next
  refine ⟨put m1 (buff + t.length) nul, ?_, ?_, ?_, ?_⟩
  · exact holds_concat.mpr ⟨moved.text.put_after nul le_rfl, put_self _ _ _⟩
  · intro j below
    rw [put_ne m1 nul (by omega), moved.before j below]
  · intro j above
    exact kept j (by omega)
  · rw [upTo_of_loops ran behind skipped (by omega), kept _ (by omega)]
    split_ifs
    · rfl
    · rfl

include text clean in
theorem unquote_of_begins {t blanks : Text} (h : Begins m buff t blanks) :
    ∃ rest, unquote cs = (t, some rest) ∧ rest.takeWhile isBlank = blanks := by
  obtain ⟨noNul, blank, here, delimiter⟩ := h
  have solid : nul ∉ escaped t ++ '"' :: blanks := by
    rw [List.mem_append, mem_escaped, List.mem_cons]
    rintro (inside | quote | space)
    · exact noNul inside
    · exact absurd quote (by decide)
    · exact absurd (blank nul space) (by decide)
  obtain ⟨more, rfl⟩ := Holds.begins here.2 text solid
  have next : ∀ c u, more = c :: u → Delimiter c := by
    rintro c u rfl
    rw [List.append_assoc, holds_append] at text
    have at_ : buff + (quoted t blanks).length =
        buff + 1 + (escaped t ++ '"' :: blanks).length := by
      rw [quoted, List.length_cons]
      omega
    rw [at_, text.2.1] at delimiter
    exact delimiter
  refine ⟨blanks ++ more, ?_, ?_⟩
  · rw [List.append_assoc]
    apply unquote_escaped
    intro first
    cases blanks with
    | nil =>
      obtain ⟨u, rfl⟩ := List.head?_eq_some_iff.mp first
      exact absurd (next '"' u rfl) (by decide)
    | cons b blanks =>
      cases first
      exact absurd (blank '"' List.mem_cons_self) (by decide)
  · rw [List.takeWhile_append_of_pos blank]
    cases more with
    | nil => exact List.append_nil blanks
    | cons c u =>
      have solid : ¬isBlank c = true := by
        rcases next c u rfl with rfl | rfl | rfl <;> decide
      rw [List.takeWhile_cons_of_neg solid, List.append_nil]

include text ends clean in
theorem begins_of_unquote (quote : m buff = '"') {t rest : Text}
    (found : unquote cs = (t, some rest))
    (delimiter : Delimiter (m (buff + (quoted t (rest.takeWhile isBlank)).length))) :
    Begins m buff t (rest.takeWhile isBlank) ∧
      buff + (quoted t (rest.takeWhile isBlank)).length ≤ last := by
  have split := split_of_unquote found
  have inside : nul ∈ t → nul ∈ cs := by
    have mem := (@mem_unquote cs nul).1
    rwa [found] at mem
  have parts : cs = (escaped t ++ '"' :: rest.takeWhile isBlank) ++ rest.dropWhile isBlank := by
    rw [List.append_assoc, List.cons_append, List.takeWhile_append_dropWhile]
    exact split
  have length := congrArg List.length parts
  rw [List.length_append] at length
  rw [parts, List.append_assoc, holds_append] at text
  refine ⟨⟨fun mem => clean (inside mem), ?_, ⟨quote, text.1⟩, delimiter⟩, ?_⟩
  · intro c mem
    exact List.mem_takeWhile_imp mem
  · rw [quoted, List.length_cons]
    omega

end string

/-- From an opening quote on, in a string that ends in cell `last`, either no section is found and
there is none, or the one that is there is decoded. -/
theorem finds_section {m : Buffer} {buff last : ℕ} (quote : m buff = '"') (before : buff < last)
    (ended : m last = nul) (first : ∀ j, buff < j → j < last → m j ≠ nul) :
    ∃ code m' at_, csvProcessQuotedStringUpTo last (last - buff) m buff = .ok (code, m', at_) ∧
      (code = eQuotedString ∧ (∀ t blanks, ¬Begins m buff t blanks) ∨
        code = 0 ∧ Decoded m m' buff last at_) := by
  obtain ⟨cs, text, ends, clean⟩ := exists_holds (m := m) (Nat.succ_le_of_lt before) (by
    intro j low high
    rw [ended]
    exact first j low high)
  rw [ended] at text clean
  have enough : cs.length < last - buff := by omega
  cases closed : (unquote cs).2 with
  | none =>
    obtain ⟨m', ran⟩ := unclosed_spec text ends clean enough closed
    refine ⟨_, m', buff, ran, .inl ⟨rfl, ?_⟩⟩
    intro t blanks begins
    obtain ⟨rest, found, -⟩ := unquote_of_begins text clean begins
    rw [found] at closed
    cases closed
  | some rest =>
    have found : unquote cs = ((unquote cs).1, some rest) := Prod.ext rfl closed
    obtain ⟨m', decoded, below, above, ran⟩ :=
      closed_spec text ends clean enough found
    by_cases delimiter :
        Delimiter (m (buff + (quoted (unquote cs).1 (rest.takeWhile isBlank)).length))
    · obtain ⟨begins, inside⟩ := begins_of_unquote text ends clean quote found delimiter
      have more : 2 ≤ (quoted (unquote cs).1 (rest.takeWhile isBlank)).length := by
        rw [length_quoted]
        exact Nat.le_add_left _ _
      have back : buff + (quoted (unquote cs).1 (rest.takeWhile isBlank)).length - 1 + 1 =
          buff + (quoted (unquote cs).1 (rest.takeWhile isBlank)).length := by omega
      rw [if_pos delimiter] at ran
      refine ⟨0, m', _, ran, .inr ⟨rfl, by omega, back.trans_le inside, ?_, ?_, below, ?_⟩⟩
      · rw [back, above _ le_rfl]
        exact delimiter
      · exact ⟨_, _, begins, back.symm, decoded⟩
      · rw [back]
        exact above
    · rw [if_neg delimiter] at ran
      refine ⟨_, m', buff, ran, .inl ⟨rfl, ?_⟩⟩
      intro t blanks begins
      obtain ⟨rest', found', rfl⟩ := unquote_of_begins text clean begins
      rw [found'] at found delimiter
      cases found
      exact delimiter begins.2.2.2

/-! More turns change nothing, and the parser's own function does the same in its buffer. -/

theorem of_readUpTo {last i : ℕ} {m : Buffer} {c : Char} (h : readUpTo last m i = .ok c) :
    i ≤ last ∧ m i = c := by
  unfold readUpTo at h
  split_ifs at h with past
  exact ⟨by omega, Except.ok.inj h⟩

theorem copyUpTo_cases {last turns : ℕ} {m : Buffer} {p q : ℕ} {r : Bool × Buffer × ℕ × ℕ}
    (ran : copyQuotedUpTo last (turns + 1) m p q = .ok r) :
    p < q ∧ q ≤ last ∧
      (m q = nul ∧ r = (false, m, p, q) ∨
        m q = '"' ∧ q + 1 ≤ last ∧ m (q + 1) ≠ '"' ∧ r = (true, m, p, q + 1) ∨
        m q = '"' ∧ q + 1 ≤ last ∧ m (q + 1) = '"' ∧
          copyQuotedUpTo last turns (put m p '"') (p + 1) (q + 2) = .ok r ∨
        m q ≠ nul ∧ m q ≠ '"' ∧
          copyQuotedUpTo last turns (put m p (m q)) (p + 1) (q + 1) = .ok r) := by
  unfold copyQuotedUpTo at ran
  by_cases caught : q ≤ p
  · rw [if_pos caught] at ran
    cases ran
  · rw [if_neg caught] at ran
    obtain ⟨c, read, ran⟩ := bind_eq_ok ran
    obtain ⟨le, rfl⟩ := of_readUpTo read
    refine ⟨by omega, le, ?_⟩
    by_cases isNul : m q = nul
    · rw [if_pos isNul] at ran
      exact .inl ⟨isNul, (Except.ok.inj ran).symm⟩
    · rw [if_neg isNul] at ran
      by_cases quote : m q = '"'
      · rw [if_pos quote] at ran
        obtain ⟨d, read', ran⟩ := bind_eq_ok ran
        obtain ⟨le', rfl⟩ := of_readUpTo read'
        by_cases doubled : m (q + 1) = '"'
        · rw [if_neg (not_not.mpr doubled), doubled] at ran
          exact .inr (.inr (.inl ⟨quote, le', doubled, ran⟩))
        · rw [if_pos doubled] at ran
          exact .inr (.inl ⟨quote, le', doubled, (Except.ok.inj ran).symm⟩)
      · rw [if_neg quote] at ran
        exact .inr (.inr (.inr ⟨isNul, quote, ran⟩))

theorem copyUpTo_mono {last turns turns' : ℕ} {m : Buffer} {p q : ℕ}
    {r : Bool × Buffer × ℕ × ℕ} (le : turns ≤ turns')
    (ran : copyQuotedUpTo last turns m p q = .ok r) : copyQuotedUpTo last turns' m p q = .ok r := by
  induction turns generalizing turns' m p q with
  | zero => cases ran
  | succ turns ih =>
    obtain ⟨turns', rfl⟩ : ∃ n, turns' = n + 1 := ⟨turns' - 1, by omega⟩
    obtain ⟨behind, inside, ⟨here, rfl⟩ | ⟨here, next, other, rfl⟩ | ⟨here, next, same, ran⟩ |
      ⟨notNul, notQuote, ran⟩⟩ := copyUpTo_cases ran
    · exact copyUpTo_nul behind inside here
    · exact copyUpTo_closed behind next here other
    · rw [copyUpTo_doubled behind next here same]
      exact ih (by omega) ran
    · rw [copyUpTo_other behind inside rfl notNul notQuote]
      exact ih (by omega) ran

theorem skipBlanksUpTo_mono {last turns turns' : ℕ} {m : Buffer} {q q' : ℕ}
    (le : turns ≤ turns') (ran : skipBlanksUpTo last turns m q = .ok q') :
    skipBlanksUpTo last turns' m q = .ok q' := by
  induction turns generalizing turns' q with
  | zero => cases ran
  | succ turns ih =>
    obtain ⟨turns', rfl⟩ : ∃ n, turns' = n + 1 := ⟨turns' - 1, by omega⟩
    obtain ⟨c, read, ran⟩ := bind_eq_ok ran
    rw [skipBlanksUpTo, read]
    show (if isBlank c then _ else _) = _
    by_cases blank : isBlank c = true
    · rw [if_pos blank] at ran ⊢
      exact ih (by omega) ran
    · rw [if_neg blank] at ran ⊢
      exact ran

theorem copyQuotedChecked_of_upTo {last turns : ℕ} {m : Buffer} {p q : ℕ}
    {r : Bool × Buffer × ℕ × ℕ} (inside : last < maxLineLen)
    (ran : copyQuotedUpTo last turns m p q = .ok r) :
    copyQuotedChecked last turns m p q = .ok r := by
  induction turns generalizing m p q with
  | zero => cases ran
  | succ turns ih =>
    obtain ⟨behind, le, ⟨here, rfl⟩ | ⟨here, next, other, rfl⟩ | ⟨here, next, same, ran⟩ |
      ⟨notNul, notQuote, ran⟩⟩ := copyUpTo_cases ran
    · exact copyChecked_nul inside le here
    · exact copyChecked_closed inside next here other
    · rw [copyChecked_doubled inside behind next here same]
      exact ih ran
    · rw [copyChecked_other inside behind le notNul notQuote]
      exact ih ran

theorem skipBlanksChecked_of_upTo {last turns : ℕ} {m : Buffer} {q q' : ℕ}
    (inside : last < maxLineLen) (ran : skipBlanksUpTo last turns m q = .ok q') :
    skipBlanksChecked last turns m q = .ok q' := by
  induction turns generalizing q with
  | zero => cases ran
  | succ turns ih =>
    obtain ⟨c, read, ran⟩ := bind_eq_ok ran
    obtain ⟨le, rfl⟩ := of_readUpTo read
    rw [skipBlanksChecked, readAt_ok m inside le]
    show (if isBlank (m q) then _ else _) = _
    by_cases blank : isBlank (m q) = true
    · rw [if_pos blank] at ran ⊢
      exact ih ran
    · rw [if_neg blank] at ran ⊢
      exact ok_congr ran

theorem upTo_cases {last turns : ℕ} {m : Buffer} {buff : ℕ} {r : ℤ × Buffer × ℕ}
    (ran : csvProcessQuotedStringUpTo last turns m buff = .ok r) :
    ∃ closed m1 p q, copyQuotedUpTo last turns m buff (buff + 1) = .ok (closed, m1, p, q) ∧
      (closed = false ∧ r = (eQuotedString, m1, buff) ∨
        closed = true ∧ p < q ∧ ∃ q', skipBlanksUpTo last turns (put m1 p nul) q = .ok q' ∧
          q' ≤ last ∧ r = if Delimiter (put m1 p nul q') then (0, put m1 p nul, q' - 1)
            else (eQuotedString, put m1 p nul, buff)) := by
  obtain ⟨⟨closed, m1, p, q⟩, copied, after⟩ := bind_eq_ok ran
  refine ⟨closed, m1, p, q, copied, ?_⟩
  cases closed with
  | false => exact .inl ⟨rfl, (Except.ok.inj after).symm⟩
  | true =>
    have after : (if q ≤ p then Except.error Misstep.overtaken else _) = Except.ok r := after
    by_cases caught : q ≤ p
    · rw [if_pos caught] at after
      cases after
    · rw [if_neg caught] at after
      obtain ⟨q', skipped, after⟩ := bind_eq_ok after
      obtain ⟨c, read, -⟩ := bind_eq_ok after
      have inside := (of_readUpTo read).1
      rw [upTo_of_loops copied (by omega) skipped inside] at ran
      exact .inr ⟨rfl, by omega, q', skipped, inside, (Except.ok.inj ran).symm⟩

theorem upTo_mono {last turns turns' : ℕ} {m : Buffer} {buff : ℕ} {r : ℤ × Buffer × ℕ}
    (le : turns ≤ turns') (ran : csvProcessQuotedStringUpTo last turns m buff = .ok r) :
    csvProcessQuotedStringUpTo last turns' m buff = .ok r := by
  obtain ⟨closed, m1, p, q, copied, ⟨rfl, rfl⟩ | ⟨rfl, behind, q', skipped, inside, rfl⟩⟩ :=
    upTo_cases ran
  · rw [csvProcessQuotedStringUpTo, copyUpTo_mono le copied]
    rfl
  · exact upTo_of_loops (copyUpTo_mono le copied) behind (skipBlanksUpTo_mono le skipped) inside

theorem checked_of_upTo {last : ℕ} {m : Buffer} {buff : ℕ} {r : ℤ × Buffer × ℕ}
    (small : last < maxLineLen)
    (ran : csvProcessQuotedStringUpTo last maxLineLen m buff = .ok r) :
    csvProcessQuotedStringChecked last m buff = .ok r := by
  obtain ⟨closed, m1, p, q, copied, ⟨rfl, rfl⟩ | ⟨rfl, behind, q', skipped, inside, rfl⟩⟩ :=
    upTo_cases ran
  · rw [csvProcessQuotedStringChecked, copyQuotedChecked_of_upTo small copied]
    rfl
  · rw [csvProcessQuotedStringChecked_of_loops small (copyQuotedChecked_of_upTo small copied) behind
      (skipBlanksChecked_of_upTo small skipped) inside, verdict]
    exact congrArg Except.ok (ite_delimiter _ _ _)

/-- From an opening quote on, in a string of any length: the function ends within as many turns as
the string has cells left, always alike and without a misstep, and so in the buffer of the parser;
and either it finds no section and there is none, or it decodes the one that is there. -/
theorem quoted_section {m : Buffer} {buff last : ℕ} (quote : m buff = '"') (before : buff < last)
    (ended : m last = nul) (first : ∀ j, buff < j → j < last → m j ≠ nul) :
    ∃ code m' at_,
      (∀ turns, last ≤ buff + turns →
        csvProcessQuotedStringUpTo last turns m buff = .ok (code, m', at_)) ∧
      (last < maxLineLen → csvProcessQuotedString m buff = .ok (code, m', at_)) ∧
      (code = eQuotedString ∧ (∀ t blanks, ¬Begins m buff t blanks) ∨
        code = 0 ∧ Decoded m m' buff last at_) := by
  obtain ⟨code, m', at_, ran, found⟩ := finds_section quote before ended first
  refine ⟨code, m', at_, ?_, ?_, found⟩
  · intro turns enough
    exact upTo_mono (by omega) ran
  · intro small
    exact csvProcessQuotedString_of_checked (checked_of_upTo small (upTo_mono (by omega) ran))

def oneSection : Buffer := putAll (fun _ => '?') 0 "a\"b\"\"c\" \x00".toList

theorem quoted_section_oneSection :
    ∃ code m' at_,
      (∀ turns, 8 ≤ 1 + turns →
        csvProcessQuotedStringUpTo 8 turns oneSection 1 = .ok (code, m', at_)) ∧
      (8 < maxLineLen → csvProcessQuotedString oneSection 1 = .ok (code, m', at_)) ∧
      (code = eQuotedString ∧ (∀ t blanks, ¬Begins oneSection 1 t blanks) ∨
        code = 0 ∧ Decoded oneSection m' 1 8 at_) := by
  have clean : ∀ j < 8, 1 < j → oneSection j ≠ nul := by decide
  exact quoted_section (by decide) (by decide) (by decide) (fun j low high => clean j high low)

end ObjSearch.Csv.Quoted
