/- What the fields of a line are, without a buffer.
   digest: The line parser finds exactly the scanner's fields, each as a C string in its place. -/

import Mathlib.Data.List.Forall2
import ObjSearch.Csv.Parser

set_option autoImplicit false
set_option relaxedAutoImplicit false

namespace ObjSearch.Csv.Scanner

open List (Forall₂)
open ObjSearch.Lib.Texts (Text)
open ObjSearch.Lib.Cells
open ObjSearch.Csv.Parser

/-- The text of a quoted section, and what follows its closing quote, if there is one. -/
def unquote : Text → Text × Option Text
  | [] => ([], none)
  | [c] => if c = '"' then ([], some []) else ([c], none)
  | c :: d :: cs =>
    if c = '"' then
      if d = '"' then (d :: (unquote cs).1, (unquote cs).2) else ([], some (d :: cs))
    else (c :: (unquote (d :: cs)).1, (unquote (d :: cs)).2)

inductive Mode where
  | plain
  | quoted
  /-- right behind a quote in a quoted section -/
  | closing
  /-- only blanks may come before the end of the field -/
  | blanks
deriving DecidableEq

/-- The fields from here on, `field` being the part already read of the first one, and whether
the line is well quoted. At an error the fields read so far come back. -/
def scanFrom : Mode → Text → Text → List Text × Bool
  | mode, field, [] => ([field], mode ≠ .quoted)
  | .plain, field, c :: cs =>
    if c = ',' then (field :: (scanFrom .plain [] cs).1, (scanFrom .plain [] cs).2)
    else if c = '"' then scanFrom .quoted field cs
    else scanFrom .plain (field ++ [c]) cs
  | .quoted, field, c :: cs =>
    if c = '"' then scanFrom .closing field cs else scanFrom .quoted (field ++ [c]) cs
  | .closing, field, c :: cs =>
    if c = '"' then scanFrom .quoted (field ++ [c]) cs
    else if c = ',' then (field :: (scanFrom .plain [] cs).1, (scanFrom .plain [] cs).2)
    else if isBlank c then scanFrom .blanks field cs
    else ([field], false)
  | .blanks, field, c :: cs =>
    if c = ',' then (field :: (scanFrom .plain [] cs).1, (scanFrom .plain [] cs).2)
    else if isBlank c then scanFrom .blanks field cs
    else ([field], false)

def scan (line : Text) : List Text × Bool := scanFrom .plain [] line

theorem scanFrom_quoted (field cs : Text) :
    scanFrom .quoted field cs = match (unquote cs).2 with
      | none => ([field ++ (unquote cs).1], false)
      | some rest => scanFrom .blanks (field ++ (unquote cs).1) rest := by
  induction cs using unquote.induct generalizing field with
  | case1 => simp [scanFrom, unquote]
  | case2 => simp [scanFrom, unquote]
  | case3 c other => simp [scanFrom, unquote, other]
  | case4 cs ih => simp [scanFrom, unquote, ih]
  | case5 d cs hd => simp [scanFrom, unquote, hd]
  | case6 c d cs hc ih =>
    rw [scanFrom, if_neg hc, ih]
    simp [unquote, hc]

def afterSection (field : Text) : Text → List Text × Bool
  | [] => ([field], true)
  | c :: rest =>
    if c = ',' then (field :: (scan rest).1, (scan rest).2) else ([field], false)

theorem scanFrom_blanks (field cs : Text) :
    scanFrom .blanks field cs = afterSection field (cs.dropWhile isBlank) := by
  induction cs with
  | nil => rfl
  | cons c cs ih =>
    by_cases comma : c = ','
    · subst comma
      rfl
    · by_cases blank : isBlank c = true
      · rw [scanFrom, if_neg comma, if_pos blank, ih, List.dropWhile_cons, if_pos blank]
      · rw [scanFrom, if_neg comma, if_neg blank, List.dropWhile_cons, if_neg blank, afterSection,
          if_neg comma]

theorem mem_unquote {cs : Text} {c : Char} :
    (c ∈ (unquote cs).1 → c ∈ cs) ∧ ∀ rest, (unquote cs).2 = some rest → c ∈ rest → c ∈ cs := by
  induction cs using unquote.induct with
  | case1 => simp [unquote]
  | case2 => simp [unquote]
  | case3 d other => simp [unquote, other]
  | case4 cs ih =>
    simp only [unquote, if_true, List.mem_cons]
    exact ⟨Or.imp_right fun h => .inr (ih.1 h), fun rest h hc => .inr (.inr (ih.2 rest h hc))⟩
  | case5 d cs hd =>
    simp only [unquote, hd, if_true, if_false]
    refine ⟨by simp, ?_⟩
    rintro rest same here
    exact .tail _ (Option.some.inj same ▸ here)
  | case6 d e cs hd ih =>
    simp only [unquote, hd, if_false, List.mem_cons]
    rw [List.mem_cons] at ih
    exact ⟨Or.imp_right ih.1, fun rest h hc => .inr (by simpa using ih.2 rest h hc)⟩

/-! The loops over a buffer that holds the rest of a line. -/

def ending : Text := ['\n', nul]

/-- What copying a quoted section leaves: its text from `p` on, and the rest of the line. -/
structure Copied (m m' : Buffer) (p q : ℕ) (t rest : Text) : Prop where
  text : Holds m' p t
  before : ∀ j, j < p → m' j = m j
  after : Holds m' q (rest ++ ending)
  behind : p + t.length < q

theorem Copied.cons {m m' : Buffer} {p q : ℕ} {c : Char} {t rest : Text}
    (h : Copied (put m p c) m' (p + 1) q t rest) : Copied m m' p q (c :: t) rest := by
  have first : m' p = c := (h.before p (by omega)).trans (put_self m p c)
  have behind := h.behind
  refine ⟨⟨first, h.text⟩, ?_, h.after, ?_⟩
  · intro j below
    exact (h.before j (by omega)).trans (put_ne m c (by omega))
  · rw [List.length_cons]
    omega

section turn

variable {turns : ℕ} {m : Buffer} {p q : ℕ}

theorem copyQuoted_nul (inside : q < maxLineLen) (here : m q = nul) :
    copyQuoted (turns + 1) m p q = .ok (false, m, p, q) := by
  rw [copyQuoted, if_neg (by omega), if_pos here]

theorem copyQuoted_closed (inside : q + 1 < maxLineLen) (here : m q = '"')
    (next : m (q + 1) ≠ '"') : copyQuoted (turns + 1) m p q = .ok (true, m, p, q + 1) := by
  rw [copyQuoted, if_neg (by omega), here, if_neg (by decide), if_pos rfl, if_neg (by omega),
    if_pos next]

theorem copyQuoted_doubled (inside : q + 1 < maxLineLen) (here : m q = '"')
    (next : m (q + 1) = '"') :
    copyQuoted (turns + 1) m p q = copyQuoted turns (put m p '"') (p + 1) (q + 2) := by
  rw [copyQuoted, if_neg (by omega), here, if_neg (by decide), if_pos rfl, if_neg (by omega),
    next, if_neg (not_not.mpr rfl)]

theorem copyQuoted_other {c : Char} (inside : q < maxLineLen) (here : m q = c) (notNul : c ≠ nul)
    (notQuote : c ≠ '"') :
    copyQuoted (turns + 1) m p q = copyQuoted turns (put m p c) (p + 1) (q + 1) := by
  rw [copyQuoted, if_neg (by omega), here, if_neg notNul, if_neg notQuote]

end turn

theorem copyQuoted_spec (cs : Text) (turns : ℕ) (m : Buffer) (p q : ℕ)
    (line : Holds m q (cs ++ ending)) (behind : p < q) (room : q + cs.length + 2 ≤ maxLineLen)
    (enough : cs.length + 2 ≤ turns) (clean : nul ∉ cs) :
    match (unquote cs).2 with
    | none => ∃ m' p' q', copyQuoted turns m p q = .ok (false, m', p', q')
    | some rest => ∃ m' q', copyQuoted turns m p q = .ok (true, m', p + (unquote cs).1.length, q') ∧
        q' + rest.length = q + cs.length ∧ Copied m m' p q' (unquote cs).1 rest := by
  obtain ⟨turns, rfl⟩ : ∃ n, turns = n + 2 := ⟨turns - 2, by omega⟩
  induction cs using unquote.induct generalizing turns m p q with
  | case1 =>
    obtain ⟨newline, zero, -⟩ := line
    refine ⟨put m p '\n', p + 1, q + 1, ?_⟩
    rw [copyQuoted_other (by omega) newline (by decide) (by decide)]
    exact copyQuoted_nul (by omega) ((put_ne m _ (by omega)).trans zero)
  | case2 =>
    obtain ⟨quote, newline, zero, -⟩ := line
    refine ⟨m, q + 1, copyQuoted_closed (by simp at room; omega) quote (by rw [newline]; decide),
      rfl, trivial, fun _ _ => rfl, ⟨newline, zero, trivial⟩, ?_⟩
    show p + 0 < q + 1
    omega
  | case3 c other =>
    obtain ⟨here, newline, zero, -⟩ := line
    rw [List.mem_singleton] at clean
    rw [List.length_singleton] at room enough
    obtain ⟨turns, rfl⟩ : ∃ n, turns = n + 1 := ⟨turns - 1, by omega⟩
    simp only [unquote, other, if_false]
    refine ⟨put (put m p c) (p + 1) '\n', p + 2, q + 2, ?_⟩
    rw [copyQuoted_other (by omega) here (Ne.symm clean) other,
      copyQuoted_other (by omega) ((put_ne m _ (by omega)).trans newline) (by decide) (by decide)]
    exact copyQuoted_nul (by omega)
      ((put_ne _ _ (by omega)).trans ((put_ne m _ (by omega)).trans zero))
  | case4 cs ih =>
    obtain ⟨here, next, line⟩ := line
    simp only [List.length_cons] at room enough
    simp only [unquote, if_true]
    have shifted : Holds (put m p '"') (q + 2) (cs ++ ending) := line.put_before _ (by omega)
    obtain ⟨turns, rfl⟩ : ∃ n, turns = n + 1 := ⟨turns - 1, by omega⟩
    have rest := ih (put m p '"') (p + 1) (q + 2) shifted (by omega) (by omega)
      (fun h => clean (.tail _ (.tail _ h))) turns (by omega)
    rw [copyQuoted_doubled (by omega) here next]
    cases remainder : (unquote cs).2 with
    | none =>
      rw [remainder] at rest
      exact rest
    | some r =>
      rw [remainder] at rest
      obtain ⟨m', q', ran, lengths, copied⟩ := rest
      refine ⟨m', q', ?_, by simp only [List.length_cons]; omega, copied.cons⟩
      rw [ran, List.length_cons, Nat.add_assoc, Nat.add_comm 1]
  | case5 d cs hd =>
    obtain ⟨here, next, line⟩ := line
    simp only [List.length_cons] at room enough
    simp only [unquote, hd, if_true, if_false]
    refine ⟨m, q + 1, copyQuoted_closed (by omega) here (by rw [next]; exact hd),
      by simp only [List.length_cons]; omega, trivial, fun _ _ => rfl, ⟨next, line⟩, ?_⟩
    show p + 0 < q + 1
    omega
  | case6 c d cs hc ih =>
    obtain ⟨here, line⟩ := line
    rw [List.length_cons] at room enough
    rw [List.mem_cons, not_or] at clean
    have shifted : Holds (put m p c) (q + 1) (d :: cs ++ ending) := line.put_before _ (by omega)
    obtain ⟨turns, rfl⟩ : ∃ n, turns = n + 1 :=
      ⟨turns - 1, by rw [List.length_cons] at enough; omega⟩
    have rest := ih (put m p c) (p + 1) (q + 1) shifted (by omega) (by omega) clean.2 turns
      (by omega)
    rw [copyQuoted_other (by omega) here (Ne.symm clean.1) hc]
    simp only [unquote, hc, if_false]
    cases remainder : (unquote (d :: cs)).2 with
    | none =>
      rw [remainder] at rest
      exact rest
    | some r =>
      rw [remainder] at rest
      obtain ⟨m', q', ran, lengths, copied⟩ := rest
      refine ⟨m', q', ?_, by simp only [List.length_cons] at lengths ⊢; omega, copied.cons⟩
      rw [ran, List.length_cons, Nat.add_assoc, Nat.add_comm 1]

theorem skipBlanks_spec (cs : Text) (turns : ℕ) (m : Buffer) (q : ℕ)
    (line : Holds m q (cs ++ ending)) (room : q + cs.length + 2 ≤ maxLineLen)
    (enough : cs.length + 1 ≤ turns) :
    ∃ q', skipBlanks turns m q = .ok q' ∧ q ≤ q' ∧
      q' + (cs.dropWhile isBlank).length = q + cs.length ∧
      Holds m q' (cs.dropWhile isBlank ++ ending) := by
  obtain ⟨turns, rfl⟩ : ∃ n, turns = n + 1 := ⟨turns - 1, by omega⟩
  induction cs generalizing turns q with
  | nil =>
    have newline : m q = '\n' := line.1
    refine ⟨q, ?_, le_refl q, rfl, line⟩
    rw [skipBlanks, if_neg (by omega), newline, if_neg (by decide)]
  | cons c cs ih =>
    rw [List.length_cons] at room enough
    have here : m q = c := line.1
    rw [skipBlanks, if_neg (by omega), here, List.dropWhile_cons]
    by_cases blank : isBlank c = true
    · obtain ⟨turns, rfl⟩ : ∃ n, turns = n + 1 := ⟨turns - 1, by omega⟩
      obtain ⟨q', ran, le, lengths, rest⟩ := ih (q + 1) line.2 (by omega) turns (by omega)
      rw [if_pos blank, if_pos blank, List.length_cons]
      exact ⟨q', ran, by omega, by omega, rest⟩
    · rw [if_neg blank, if_neg blank]
      exact ⟨q, rfl, le_refl q, rfl, line⟩

structure Decoded (m m' : Buffer) (buff q : ℕ) (t rest : Text) : Prop where
  text : Holds m' buff (t ++ [nul])
  before : ∀ j, j < buff → m' j = m j
  after : Holds m' q (rest ++ ending)
  behind : buff + t.length < q

theorem csvProcessQuotedString_unclosed (cs : Text) (m : Buffer) (buff : ℕ)
    (line : Holds m (buff + 1) (cs ++ ending)) (room : buff + cs.length + 3 ≤ maxLineLen)
    (clean : nul ∉ cs) (unclosed : (unquote cs).2 = none) :
    ∃ m', csvProcessQuotedString m buff = .ok (eQuotedString, m', buff) := by
  have copied := copyQuoted_spec cs maxLineLen m buff (buff + 1) line (by omega) (by omega)
    (by omega) clean
  rw [unclosed] at copied
  obtain ⟨m', p', q', ran⟩ := copied
  refine ⟨m', ?_⟩
  rw [csvProcessQuotedString, ran]
  rfl

theorem csvProcessQuotedString_closed (cs rest : Text) (m : Buffer) (buff : ℕ)
    (line : Holds m (buff + 1) (cs ++ ending)) (room : buff + cs.length + 3 ≤ maxLineLen)
    (clean : nul ∉ cs) (closed : (unquote cs).2 = some rest) :
    ∃ m' q, Decoded m m' buff q (unquote cs).1 (rest.dropWhile isBlank) ∧
      q + (rest.dropWhile isBlank).length = buff + 1 + cs.length ∧
      csvProcessQuotedString m buff =
        if m' q ≠ ',' ∧ m' q ≠ '\n' ∧ m' q ≠ nul then .ok (eQuotedString, m', buff)
        else .ok (0, m', q - 1) := by
  have copied := copyQuoted_spec cs maxLineLen m buff (buff + 1) line (by omega) (by omega)
    (by omega) clean
  rw [closed] at copied
  obtain ⟨m', q, ran, lengths, text, before, after, behind⟩ := copied
  have shifted : Holds (put m' (buff + (unquote cs).1.length) nul) q (rest ++ ending) :=
    after.put_before _ behind
  obtain ⟨q', skipped, le, lengths', rest'⟩ := skipBlanks_spec rest maxLineLen _ q shifted
    (by omega) (by omega)
  refine ⟨_, q', ⟨holds_concat.mpr ⟨text.put_after _ le_rfl, put_self _ _ _⟩, ?_, rest', by omega⟩,
    by omega, ?_⟩
  · intro j below
    exact (put_ne m' _ (by omega)).trans (before j below)
  · rw [csvProcessQuotedString, ran]
    show (skipBlanks maxLineLen (put m' (buff + (unquote cs).1.length) nul) q >>= _) = _
    rw [skipped]
    rfl

section turn

variable {turns : ℕ} {m : Buffer} {buff : ℕ} {columns : List ℕ}

theorem parseFields_newline (inside : buff < maxLineLen) (here : m buff = '\n') :
    parseFields (turns + 1) m buff columns = .ok (0, put m buff nul, columns) := by
  rw [parseFields, if_neg (by omega), if_pos here]

theorem parseFields_comma (inside : buff < maxLineLen) (here : m buff = ',')
    (few : columns.length < maxColumnCount) :
    parseFields (turns + 1) m buff columns =
      parseFields turns (put m buff nul) (buff + 1) (columns ++ [buff + 1]) := by
  rw [parseFields, if_neg (by omega), here, if_neg (by decide), if_pos rfl, if_neg (by omega)]

theorem parseFields_quote (inside : buff < maxLineLen) (here : m buff = '"') :
    parseFields (turns + 1) m buff columns =
      (csvProcessQuotedString m buff >>= fun (code, m, buff) =>
        if code = eQuotedString then .ok (eQuotedString, m, columns)
        else parseFields turns m (buff + 1) columns) := by
  rw [parseFields, if_neg (by omega), here, if_neg (by decide), if_neg (by decide), if_pos rfl]
  rfl

theorem parseFields_other {c : Char} (inside : buff < maxLineLen) (here : m buff = c)
    (notNewline : c ≠ '\n') (notComma : c ≠ ',') (notQuote : c ≠ '"') :
    parseFields (turns + 1) m buff columns = parseFields turns m (buff + 1) columns := by
  rw [parseFields, if_neg (by omega), here, if_neg notNewline, if_neg notComma, if_neg notQuote]

end turn

/-- A column that starts at cell `s` and reads as the C string `t`, all of it below `bound`. -/
structure Column (m : Buffer) (bound s : ℕ) (t : Text) : Prop where
  cells : Holds m s (t ++ [nul])
  inside : s + t.length < bound
  clean : nul ∉ t

theorem Column.congr {m m' : Buffer} {bound bound' s : ℕ} {t : Text} (h : Column m bound s t)
    (same : ∀ j, j < bound → m' j = m j) (le : bound ≤ bound') : Column m' bound' s t := by
  have inside := h.inside
  refine ⟨h.cells.congr ?_, by omega, h.clean⟩
  intro j _ high
  rw [List.length_append, List.length_singleton] at high
  exact same j (by omega)

theorem columns_congr {m m' : Buffer} {bound bound' : ℕ} {starts : List ℕ} {texts : List Text}
    (h : Forall₂ (Column m bound) starts texts) (same : ∀ j, j < bound → m' j = m j)
    (le : bound ≤ bound') : Forall₂ (Column m' bound') starts texts :=
  h.imp fun _ _ column => column.congr same le

theorem length_scanFrom_pos (mode : Mode) (field cs : Text) :
    0 < (scanFrom mode field cs).1.length := by
  induction cs generalizing mode field with
  | nil => simp [scanFrom]
  | cons c cs ih =>
    cases mode <;> simp only [scanFrom] <;> split_ifs <;> first | exact ih _ _ | simp

/-- The parser stands at cell `buff` with the rest `cs` of the line before it; the current field
has been read up to there from cell `s` on, and the fields before it are finished. -/
structure Standing (m : Buffer) (s buff : ℕ) (starts : List ℕ) (done : List Text)
    (field cs : Text) : Prop where
  line : Holds m buff (cs ++ ending)
  current : Holds m s field
  reaches : s + field.length = buff
  room : buff + cs.length + 2 ≤ maxLineLen
  noNul : nul ∉ cs
  noNewline : '\n' ∉ cs
  fieldClean : nul ∉ field
  columns : Forall₂ (Column m s) starts done
  few : starts.length + (scanFrom .plain field cs).1.length ≤ maxColumnCount

def Parsed (result : Except Fault (ℤ × Buffer × List ℕ)) (fields : List Text) (ok : Bool) : Prop :=
  ∃ m columns, result = .ok (if ok then 0 else eQuotedString, m, columns) ∧
    (ok = true → Forall₂ (Column m maxLineLen) columns fields)

/-- From wherever this is the rest of a line, the parser finds the scanner's fields. -/
def Finds (cs : Text) : Prop :=
  ∀ turns m s buff starts done field, cs.length + 1 ≤ turns →
    Standing m s buff starts done field cs →
      Parsed (parseFields turns m buff (starts ++ [s]))
        (done ++ (scanFrom .plain field cs).1) (scanFrom .plain field cs).2

theorem finds_nil : Finds [] := by
  intro turns m s buff starts done field enough h
  obtain ⟨turns, rfl⟩ : ∃ k, turns = k + 1 := ⟨turns - 1, by omega⟩
  have inside : buff < maxLineLen := by
    have := h.room
    omega
  have reaches := h.reaches
  have last : Column (put m buff nul) maxLineLen s field := by
    refine ⟨holds_concat.mpr ⟨h.current.put_after _ (by omega), ?_⟩, by omega, h.fieldClean⟩
    rw [reaches, put_self]
  have earlier : Forall₂ (Column (put m buff nul) maxLineLen) starts done :=
    columns_congr h.columns (fun j below => put_ne m nul (by omega)) (by omega)
  exact ⟨_, _, parseFields_newline inside h.line.1, fun _ => List.rel_append earlier (.cons last .nil)⟩

theorem finds_comma {cs : Text} (ih : Finds cs) : Finds (',' :: cs) := by
  intro turns m s buff starts done field enough h
  obtain ⟨turns, rfl⟩ : ∃ k, turns = k + 1 := ⟨turns - 1, by omega⟩
  obtain ⟨line, current, reaches, room, noNul, noNewline, fieldClean, columns, few⟩ := h
  rw [List.length_cons] at room enough
  have scanned : scanFrom .plain field (',' :: cs) =
      (field :: (scanFrom .plain [] cs).1, (scanFrom .plain [] cs).2) := by
    rw [scanFrom, if_pos rfl]
  have positive := length_scanFrom_pos .plain [] cs
  rw [scanned, List.length_cons] at few
  have finished : Forall₂ (Column (put m buff nul) (buff + 1)) (starts ++ [s]) (done ++ [field]) := by
    refine List.rel_append (columns_congr columns (fun j below => put_ne m nul (by omega))
      (by omega)) (.cons ?_ .nil)
    refine ⟨holds_concat.mpr ⟨current.put_after _ (by omega), ?_⟩, by omega, fieldClean⟩
    rw [reaches, put_self]
  have next : Standing (put m buff nul) (buff + 1) (buff + 1) (starts ++ [s]) (done ++ [field]) []
      cs := by
    refine ⟨line.2.put_before _ (by omega), trivial, rfl, by omega, ?_, ?_, by simp, finished, ?_⟩
    · exact fun here => noNul (.tail _ here)
    · exact fun here => noNewline (.tail _ here)
    · rw [List.length_append, List.length_singleton]
      omega
  rw [parseFields_comma (by omega) line.1 (by rw [List.length_append, List.length_singleton]; omega),
    scanned]
  have found := ih turns _ _ _ _ _ _ (by omega) next
  rw [List.append_assoc done] at found
  exact found

theorem finds_other {cs : Text} {c : Char} (notComma : c ≠ ',') (notQuote : c ≠ '"')
    (ih : Finds cs) : Finds (c :: cs) := by
  intro turns m s buff starts done field enough h
  obtain ⟨turns, rfl⟩ : ∃ k, turns = k + 1 := ⟨turns - 1, by omega⟩
  obtain ⟨line, current, reaches, room, noNul, noNewline, fieldClean, columns, few⟩ := h
  rw [List.length_cons] at room enough
  rw [List.mem_cons, not_or] at noNul noNewline
  have scanned : scanFrom .plain field (c :: cs) = scanFrom .plain (field ++ [c]) cs := by
    rw [scanFrom, if_neg notComma, if_neg notQuote]
  have next : Standing m s (buff + 1) starts done (field ++ [c]) cs := by
    refine ⟨line.2, holds_concat.mpr ⟨current, reaches ▸ line.1⟩, ?_, by omega, noNul.2,
      noNewline.2, ?_, columns, scanned ▸ few⟩
    · rw [List.length_append, List.length_singleton]
      omega
    · rw [List.mem_append, List.mem_singleton, not_or]
      exact ⟨fieldClean, noNul.1⟩
  rw [parseFields_other (by omega) line.1 (Ne.symm noNewline.1) notComma notQuote, scanned]
  exact ih turns _ _ _ _ _ _ (by omega) next

theorem parsed_afterSection (turns : ℕ) {rest : Text} {m : Buffer} {s q : ℕ} {starts : List ℕ}
    {done : List Text} {field : Text} (tail : ∀ r, rest = ',' :: r → Finds r)
    (enough : rest.length + 1 ≤ turns) (line : Holds m q (rest ++ ending))
    (room : q + rest.length + 2 ≤ maxLineLen) (noNul : nul ∉ rest) (noNewline : '\n' ∉ rest)
    (columns : Forall₂ (Column m q) (starts ++ [s]) (done ++ [field]))
    (few : starts.length + (afterSection field rest).1.length ≤ maxColumnCount) :
    Parsed (if m q ≠ ',' ∧ m q ≠ '\n' ∧ m q ≠ nul then .ok (eQuotedString, m, starts ++ [s])
        else parseFields turns m q (starts ++ [s]))
      (done ++ (afterSection field rest).1) (afterSection field rest).2 := by
  obtain ⟨turns, rfl⟩ : ∃ k, turns = k + 1 := ⟨turns - 1, by omega⟩
  cases rest with
  | nil =>
    have newline : m q = '\n' := line.1
    rw [if_neg (fun h => h.2.1 newline), parseFields_newline (by omega) newline]
    refine ⟨_, _, rfl, fun _ => ?_⟩
    exact columns_congr columns (fun j below => put_ne m nul (by omega)) (by omega)
  | cons c r =>
    have here : m q = c := line.1
    rw [List.length_cons] at enough room
    rw [List.mem_cons, not_or] at noNul noNewline
    unfold afterSection at few ⊢
    by_cases comma : c = ','
    · subst comma
      simp only [if_true, List.length_cons] at few ⊢
      have positive : 0 < (scan r).1.length := length_scanFrom_pos .plain [] r
      have next : Standing (put m q nul) (q + 1) (q + 1) (starts ++ [s]) (done ++ [field]) [] r :=
        ⟨line.2.put_before _ (by omega), trivial, rfl, by omega, noNul.2, noNewline.2, by simp,
          columns_congr columns (fun j below => put_ne m nul (by omega)) (by omega), by
            rw [List.length_append, List.length_singleton]
            unfold scan at few
            omega⟩
      have found := tail r rfl turns _ _ _ _ _ _ (by omega) next
      rw [List.append_assoc done] at found
      rw [if_neg (fun h => h.1 here), parseFields_comma (by omega) here (by
        rw [List.length_append, List.length_singleton]; omega)]
      exact found
    · simp only [comma, if_false]
      rw [here, if_pos ⟨comma, Ne.symm noNewline.1, Ne.symm noNul.1⟩]
      exact ⟨_, _, rfl, by simp⟩

theorem finds_quote {cs : Text} (ih : ∀ cs', cs'.length < cs.length → Finds cs') :
    Finds ('"' :: cs) := by
  intro turns m s buff starts done field enough h
  obtain ⟨turns, rfl⟩ : ∃ k, turns = k + 1 := ⟨turns - 1, by omega⟩
  have room := h.room
  rw [List.length_cons] at room enough
  have noNul : nul ∉ cs := fun here => h.noNul (.tail _ here)
  have noNewline : '\n' ∉ cs := fun here => h.noNewline (.tail _ here)
  have scanned : scanFrom .plain field ('"' :: cs) = scanFrom .quoted field cs := by
    rw [scanFrom, if_neg (by decide), if_pos rfl]
  rw [parseFields_quote (by omega) h.line.1]
  cases closed : (unquote cs).2 with
  | none =>
    obtain ⟨m', ran⟩ := csvProcessQuotedString_unclosed cs m buff h.line.2 (by omega) noNul closed
    rw [ran, scanned, scanFrom_quoted, closed]
    exact ⟨m', _, rfl, by simp⟩
  | some rest =>
    obtain ⟨m', q, ⟨text, before, after, behind⟩, lengths, ran⟩ :=
      csvProcessQuotedString_closed cs rest m buff h.line.2 (by omega) noNul closed
    obtain ⟨-, current, reaches, -, -, -, fieldClean, columns, few⟩ := h
    have whole : scanFrom .plain field ('"' :: cs) =
        afterSection (field ++ (unquote cs).1) (rest.dropWhile isBlank) := by
      rw [scanned, scanFrom_quoted, closed]
      exact scanFrom_blanks _ _
    rw [whole] at few ⊢
    have inRest {c : Char} (here : c ∈ rest.dropWhile isBlank) : c ∈ cs :=
      mem_unquote.2 rest closed ((List.dropWhile_sublist isBlank).mem here)
    -- the section was written right behind the text before its quote
    have last : Column m' q s (field ++ (unquote cs).1) := by
      refine ⟨?_, by rw [List.length_append]; omega, ?_⟩
      · rw [List.append_assoc, holds_append, reaches]
        exact ⟨current.congr fun j _ high => before j (by omega), text⟩
      · rw [List.mem_append, not_or]
        exact ⟨fieldClean, fun here => noNul (mem_unquote.1 here)⟩
    have finished : Forall₂ (Column m' q) (starts ++ [s]) (done ++ [field ++ (unquote cs).1]) :=
      List.rel_append (columns_congr columns (fun j below => before j (by omega)) (by omega))
        (.cons last .nil)
    have tail : ∀ r, rest.dropWhile isBlank = ',' :: r → Finds r := by
      intro r split
      rw [split, List.length_cons] at lengths
      exact ih r (by omega)
    have parsed := parsed_afterSection turns tail (by omega) after (by omega)
      (fun here => noNul (inRest here)) (fun here => noNewline (inRest here)) finished few
    have resumes : (csvProcessQuotedString m buff >>= fun (code, m, buff) =>
        if code = eQuotedString then .ok (eQuotedString, m, starts ++ [s])
        else parseFields turns m (buff + 1) (starts ++ [s])) =
        if m' q ≠ ',' ∧ m' q ≠ '\n' ∧ m' q ≠ nul then .ok (eQuotedString, m', starts ++ [s])
        else parseFields turns m' q (starts ++ [s]) := by
      rw [ran]
      split_ifs
      · rfl
      · show (if (0 : ℤ) = eQuotedString then .ok (eQuotedString, m', starts ++ [s])
          else parseFields turns m' (q - 1 + 1) (starts ++ [s])) = _
        rw [if_neg (by decide), show q - 1 + 1 = q by omega]
    rw [resumes]
    exact parsed

theorem finds (cs : Text) : Finds cs := by
  induction size : cs.length using Nat.strong_induction_on generalizing cs with
  | _ n ih =>
    subst size
    cases cs with
    | nil => exact finds_nil
    | cons c cs =>
      have shorter : ∀ cs', cs'.length < (c :: cs).length → Finds cs' :=
        fun cs' lt => ih cs'.length lt cs' rfl
      have tail := shorter cs (Nat.lt_succ_self _)
      by_cases comma : c = ','
      · exact comma ▸ finds_comma tail
      · by_cases quote : c = '"'
        · exact quote ▸ finds_quote fun cs' lt => shorter cs' (Nat.lt_succ_of_lt lt)
        · exact finds_other comma quote tail

end ObjSearch.Csv.Scanner
