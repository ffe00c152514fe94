/- Tokens of SQL text as SQLite reads them: words, numbers, string literals, operators.
   digest: A quoted text is one literal with that value, whatever it contains. -/

import ObjSearch.Lib.Printf
import Mathlib.Tactic.SplitIfs

set_option autoImplicit false
set_option relaxedAutoImplicit false

namespace ObjSearch.Sql.Lexer

open ObjSearch.Lib.Texts (Text)
open ObjSearch.Lib.Printf

inductive Token where
  /-- an identifier or a keyword -/
  | word (w : Text)
  /-- a numeral -/
  | num (w : Text)
  /-- a string literal, by its value -/
  | str (s : Text)
  | op (c : Char)
deriving DecidableEq, Repr

/-- What the tokenizer is inside of; the texts are the characters read so far, reversed. -/
inductive Mode where
  | idle
  | word (w : Text)
  | num (w : Text)
  | quote (s : Text)
  /-- just after an apostrophe inside a literal: either half of a doubled one or the end -/
  | quoteEnd (s : Text)
  | dash
  | comment
  | slash
  | block
  | blockStar
deriving DecidableEq, Repr

/-- Tokens found so far, latest first, and the token under way. -/
structure LexState where
  done : List Token
  mode : Mode
deriving DecidableEq, Repr

def isSpace (c : Char) : Bool :=
  c = ' ' ∨ c = '\t' ∨ c = '\n' ∨ c = '\r' ∨ c = '\x0c'

/-- Characters of identifiers: letters, digits, underscore, dollar and all beyond ASCII. -/
def isIdChar (c : Char) : Bool :=
  c.isAlphanum ∨ c = '_' ∨ c = '$' ∨ 128 ≤ c.toNat

def isNumChar (c : Char) : Bool := isIdChar c ∨ c = '.'

def start (done : List Token) (c : Char) : LexState :=
  if isSpace c then ⟨done, .idle⟩
  else if c = '\'' then ⟨done, .quote []⟩
  else if c = '-' then ⟨done, .dash⟩
  else if c = '/' then ⟨done, .slash⟩
  else if c.isDigit then ⟨done, .num [c]⟩
  else if isIdChar c then ⟨done, .word [c]⟩
  else ⟨.op c :: done, .idle⟩

def step (st : LexState) (c : Char) : LexState :=
  match st.mode with
  | .idle => start st.done c
  | .word w => if isIdChar c then ⟨st.done, .word (c :: w)⟩ else start (.word w.reverse :: st.done) c
  | .num w => if isNumChar c then ⟨st.done, .num (c :: w)⟩ else start (.num w.reverse :: st.done) c
  | .quote s => if c = '\'' then ⟨st.done, .quoteEnd s⟩ else ⟨st.done, .quote (c :: s)⟩
  | .quoteEnd s =>
      if c = '\'' then ⟨st.done, .quote ('\'' :: s)⟩ else start (.str s.reverse :: st.done) c
  | .dash => if c = '-' then ⟨st.done, .comment⟩ else start (.op '-' :: st.done) c
  | .comment => if c = '\n' then ⟨st.done, .idle⟩ else st
  | .slash => if c = '*' then ⟨st.done, .block⟩ else start (.op '/' :: st.done) c
  | .block => if c = '*' then ⟨st.done, .blockStar⟩ else st
  | .blockStar =>
      if c = '/' then ⟨st.done, .idle⟩ else if c = '*' then st else ⟨st.done, .block⟩

/-- The tokens at the end of the text; a literal that is still open is no token at all. -/
def finish (st : LexState) : Option (List Token) :=
  match st.mode with
  | .idle | .comment | .block | .blockStar => some st.done.reverse
  | .word w => some (Token.word w.reverse :: st.done).reverse
  | .num w => some (Token.num w.reverse :: st.done).reverse
  | .quote _ => none
  | .quoteEnd s => some (Token.str s.reverse :: st.done).reverse
  | .dash => some (Token.op '-' :: st.done).reverse
  | .slash => some (Token.op '/' :: st.done).reverse

def lexFrom (done : List Token) (t : Text) : Option (List Token) :=
  finish (t.foldl step ⟨done, .idle⟩)

def lex (t : Text) : Option (List Token) := lexFrom [] t

/-- Every apostrophe doubled, as in `Replace("'", "''")`. -/
def doubled (s : Text) : Text :=
  s.flatMap (fun c => if c = '\'' then ['\'', '\''] else [c])

theorem doubled_cons (c : Char) (s : Text) :
    doubled (c :: s) = (if c = '\'' then ['\'', '\''] else [c]) ++ doubled s := by
  simp [doubled]

theorem doubled_of_not_mem (s : Text) (h : '\'' ∉ s) : doubled s = s := by
  induction s with
  | nil => rfl
  | cons c s ih =>
    have hc : c ≠ '\'' := fun e => h (e ▸ List.mem_cons_self)
    have hs : '\'' ∉ s := fun m => h (List.mem_cons_of_mem c m)
    rw [doubled_cons, if_neg hc, ih hs]
    rfl

theorem foldl_quote_doubled (done : List Token) (acc s : Text) :
    (doubled s).foldl step ⟨done, .quote acc⟩ = ⟨done, .quote (s.reverse ++ acc)⟩ := by
  induction s generalizing acc with
  | nil => rfl
  | cons c s ih =>
    rw [doubled_cons, List.foldl_append]
    have head : (if c = '\'' then ['\'', '\''] else [c]).foldl step ⟨done, .quote acc⟩ =
        ⟨done, .quote (c :: acc)⟩ := by
      by_cases hc : c = '\''
      · subst hc
        rfl
      · simp [hc, step]
    rw [head, ih]
    simp

/-- Tokens found earlier are kept and have no influence on how the text is read. -/
theorem foldl_append_done (t : Text) (d done : List Token) (m : Mode) :
    t.foldl step ⟨d ++ done, m⟩ =
      ⟨(t.foldl step ⟨d, m⟩).done ++ done, (t.foldl step ⟨d, m⟩).mode⟩ := by
  induction t generalizing d m with
  | nil => rfl
  | cons c t ih =>
    have started (d : List Token) : start (d ++ done) c =
        ⟨(start d c).done ++ done, (start d c).mode⟩ := by
      unfold start
      split_ifs <;> rfl
    have stepped : step ⟨d ++ done, m⟩ c =
        ⟨(step ⟨d, m⟩ c).done ++ done, (step ⟨d, m⟩ c).mode⟩ := by
      cases m <;> simp only [step, ← List.cons_append, started] <;> split_ifs <;> rfl
    rw [List.foldl_cons, stepped, ih]
    rfl

/-- The tokens of a fixed text, latest first, and the mode it leaves. -/
def scan (t : Text) : LexState := t.foldl step ⟨[], .idle⟩

private theorem foldl_idle (t : Text) (done : List Token) :
    t.foldl step ⟨done, .idle⟩ = ⟨(scan t).done ++ done, (scan t).mode⟩ :=
  foldl_append_done t [] done .idle

theorem lexFrom_fixed (c : Text) (whole : (scan c).mode = .idle) (done : List Token)
    (rest : Text) : lexFrom done (c ++ rest) = lexFrom ((scan c).done ++ done) rest := by
  rw [lexFrom, List.foldl_append, foldl_idle, whole]
  rfl

/-- A doubled text between a fixed text that opens a literal and one that closes it is one
string literal whose value is the text; the tokens around it do not depend on it. -/
theorem lexFrom_quoted (c c' : Text) (opens : (scan c).mode = .quote [])
    (closes : ∀ s, ('\'' :: c').foldl step ⟨[], .quote s⟩ =
      ⟨(scan c').done ++ [.str s.reverse], .idle⟩)
    (done : List Token) (s rest : Text) :
    lexFrom done (c ++ (doubled s ++ ('\'' :: c' ++ rest))) =
      lexFrom ((scan c').done ++ .str s :: ((scan c).done ++ done)) rest := by
  have close (d : List Token) (s : Text) : ('\'' :: c').foldl step ⟨d, .quote s⟩ =
      ⟨(scan c').done ++ .str s.reverse :: d, .idle⟩ := by
    have split := foldl_append_done ('\'' :: c') [] d (.quote s)
    rw [closes s, List.append_assoc] at split
    exact split
  rw [lexFrom, List.foldl_append, foldl_idle, opens, List.foldl_append, foldl_quote_doubled,
    List.foldl_append, close, List.append_nil, List.reverse_reverse]
  rfl

theorem lexFrom_quoted_end (c : Text) (opens : (scan c).mode = .quote []) (done : List Token)
    (s : Text) : lexFrom done (c ++ (doubled s ++ ['\''])) =
      some (.str s :: ((scan c).done ++ done)).reverse := by
  rw [lexFrom, List.foldl_append, foldl_idle, opens, List.foldl_append, foldl_quote_doubled,
    List.append_nil]
  simp only [List.foldl_cons, List.foldl_nil, step, if_true, finish, List.reverse_reverse]

private theorem finish_append_done (d done : List Token) (m : Mode) :
    finish ⟨d ++ done, m⟩ = (finish ⟨d, m⟩).map (done.reverse ++ ·) := by
  cases m <;> simp [finish]

theorem exists_later {t : Text} {done ts : List Token} {m : Mode}
    (lexed : finish (t.foldl step ⟨done, m⟩) = some ts) : ∃ later, ts = done.reverse ++ later := by
  have kept := foldl_append_done t [] done m
  rw [List.nil_append] at kept
  rw [kept, finish_append_done] at lexed
  obtain ⟨later, -, rfl⟩ := Option.map_eq_some_iff.mp lexed
  exact ⟨later, rfl⟩

/-- An open literal ends at the first apostrophe that is not doubled. -/
theorem literal_of_lexed {t : Text} {done ts : List Token} {acc : Text}
    (lexed : finish (t.foldl step ⟨done, .quote acc⟩) = some ts) :
    ∃ v rest later, t = doubled v ++ '\'' :: rest ∧
      ts = done.reverse ++ .str (acc.reverse ++ v) :: later := by
  induction size : t.length using Nat.strong_induction_on generalizing t acc with
  | _ n ih =>
    subst size
    rcases t with _ | ⟨c, t⟩
    · cases lexed
    · by_cases quote : c = '\''
      · subst quote
        rcases t with _ | ⟨d, t⟩
        · refine ⟨[], [], [], rfl, ?_⟩
          rw [List.append_nil]
          exact (Option.some.inj lexed).symm.trans List.reverse_cons
        · by_cases doubled_ : d = '\''
          · subst doubled_
            have inside : finish (t.foldl step ⟨done, .quote ('\'' :: acc)⟩) = some ts := lexed
            obtain ⟨v, rest, later, text, tokens⟩ := ih t.length
              (by simp only [List.length_cons]; omega) inside rfl
            refine ⟨'\'' :: v, rest, later, ?_, ?_⟩
            · rw [text]
              rfl
            · rw [tokens, List.reverse_cons, List.append_assoc]
              rfl
          · have started : step ⟨done, .quoteEnd acc⟩ d = start (.str acc.reverse :: done) d := by
              simp [step, doubled_]
            have kept : start (.str acc.reverse :: done) d =
                step ⟨.str acc.reverse :: done, .idle⟩ d := rfl
            have lexed' : finish ((d :: t).foldl step ⟨.str acc.reverse :: done, .idle⟩) = some ts := by
              rw [List.foldl_cons, ← kept, ← started]
              exact lexed
            obtain ⟨later, tokens⟩ := exists_later lexed'
            refine ⟨[], d :: t, later, rfl, ?_⟩
            rw [tokens, List.reverse_cons, List.append_assoc, List.append_nil]
            rfl
      · have stepped : step ⟨done, .quote acc⟩ c = ⟨done, .quote (c :: acc)⟩ := by
          simp [step, quote]
        rw [List.foldl_cons, stepped] at lexed
        obtain ⟨v, rest, later, text, tokens⟩ := ih t.length (Nat.lt_succ_self _) lexed rfl
        refine ⟨c :: v, rest, later, ?_, ?_⟩
        · rw [text, doubled_cons, if_neg quote]
          rfl
        · rw [tokens, List.reverse_cons, List.append_assoc]
          rfl

theorem literal_of_lexFrom (c : Text) (opens : (scan c).mode = .quote []) {done ts : List Token}
    {t : Text} (lexed : lexFrom done (c ++ t) = some ts) :
    ∃ v rest later, t = doubled v ++ '\'' :: rest ∧
      ts = ((scan c).done ++ done).reverse ++ .str v :: later := by
  rw [lexFrom, List.foldl_append, foldl_idle, opens] at lexed
  exact literal_of_lexed lexed

/-- A text that is not doubled is not read back from a literal, unless it has no apostrophe. -/
private theorem apostrophes_run_ahead (j : ℕ) (s r r' : Text) (other : r'.head? ≠ some '\'') :
    List.replicate (j + 1) '\'' ++ (doubled s ++ '\'' :: r) ≠ s ++ '\'' :: r' := by
  induction s generalizing j with
  | nil =>
    intro same
    rw [List.replicate_succ, List.cons_append, List.nil_append] at same
    apply other
    rw [← (List.cons.inj same).2]
    cases j <;> rfl
  | cons c s ih =>
    intro same
    rw [List.replicate_succ, List.cons_append, List.cons_append] at same
    obtain ⟨rfl, rest⟩ := List.cons.inj same
    rw [doubled_cons, if_pos rfl, List.append_assoc, ← List.append_assoc,
      show ['\'', '\''] = List.replicate 2 '\'' from rfl, List.replicate_append_replicate] at rest
    exact ih (j + 1) rest

theorem notMem_of_doubled {s r r' : Text} (other : r'.head? ≠ some '\'')
    (same : doubled s ++ '\'' :: r = s ++ '\'' :: r') : '\'' ∉ s := by
  induction s with
  | nil => exact List.not_mem_nil
  | cons c s ih =>
    by_cases quote : c = '\''
    · subst quote
      rw [doubled_cons, if_pos rfl] at same
      exact absurd (List.cons.inj same).2 (apostrophes_run_ahead 0 s r r' other)
    · rw [doubled_cons, if_neg quote] at same
      rw [List.mem_cons, not_or]
      exact ⟨Ne.symm quote, ih (List.cons.inj same).2⟩

private theorem foldl_num (done : List Token) (acc w : Text) (h : ∀ c ∈ w, isNumChar c) :
    w.foldl step ⟨done, .num acc⟩ = ⟨done, .num (w.reverse ++ acc)⟩ := by
  induction w generalizing acc with
  | nil => rfl
  | cons c w ih =>
    have hc : isNumChar c = true := h c List.mem_cons_self
    have here : step ⟨done, .num acc⟩ c = ⟨done, .num (c :: acc)⟩ := by simp [step, hc]
    rw [List.foldl_cons, here, ih (c :: acc) (fun d hd => h d (List.mem_cons_of_mem c hd))]
    simp

private theorem start_digit (done : List Token) (c : Char) (h : c.isDigit) :
    start done c = ⟨done, .num [c]⟩ := by
  have ne : ∀ d : Char, d.isDigit = false → c ≠ d := fun d hd e => by simp [e, hd] at h
  have space : isSpace c = false := by
    simp [isSpace, ne ' ' rfl, ne '\t' rfl, ne '\n' rfl, ne '\r' rfl, ne '\x0c' rfl]
  simp [start, space, ne '\'' rfl, ne '-' rfl, ne '/' rfl, h]

theorem lexFrom_num (done : List Token) (c : Char) (w rest : Text) (hc : c.isDigit)
    (hw : ∀ d ∈ w, isNumChar d) (h : rest.head?.any isNumChar = false) :
    lexFrom done (c :: (w ++ rest)) = lexFrom (.num (c :: w) :: done) rest := by
  have first : step ⟨done, .idle⟩ c = ⟨done, .num [c]⟩ := start_digit done c hc
  unfold lexFrom
  rw [List.foldl_cons, first, List.foldl_append, foldl_num done [c] w hw]
  cases rest with
  | nil => simp [finish]
  | cons d rest =>
    have hd : isNumChar d = false := h
    simp [step, hd]

private theorem lexFrom_minus (done : List Token) (c : Char) (rest : Text) (hc : c.isDigit) :
    lexFrom done ('-' :: c :: rest) = lexFrom (.op '-' :: done) (c :: rest) := by
  have ne : c ≠ '-' := fun e => by simp [e] at hc
  have dash : step ⟨done, .idle⟩ '-' = ⟨done, .dash⟩ := rfl
  unfold lexFrom
  rw [List.foldl_cons, dash]
  simp [step, ne]

theorem lexFrom_word (c w : Text) (ends : (scan c).mode = .word w) (done : List Token) (rest : Text)
    (h : rest.head?.any isIdChar = false) :
    lexFrom done (c ++ rest) = lexFrom (.word w.reverse :: ((scan c).done ++ done)) rest := by
  rw [lexFrom, List.foldl_append, foldl_idle, ends]
  cases rest with
  | nil => rfl
  | cons d rest =>
    have hd : isIdChar d = false := h
    simp [lexFrom, step, hd]

def numberTokens (negative : Bool) (w : Text) : List Token :=
  if negative then [.num w, .op '-'] else [.num w]

theorem semicolon_notMem_numberTokens (negative : Bool) (w : Text) :
    .op ';' ∉ numberTokens negative w := by
  cases negative <;> simp [numberTokens]

private theorem lexFrom_number (done : List Token) (negative : Bool) (c : Char) (w rest : Text)
    (hc : c.isDigit) (hw : ∀ d ∈ w, isNumChar d) (h : rest.head?.any isNumChar = false) :
    lexFrom done (sign negative ++ (c :: (w ++ rest))) =
      lexFrom (numberTokens negative (c :: w) ++ done) rest := by
  have unsigned := fun done => lexFrom_num done c w rest hc hw h
  cases negative with
  | false => exact unsigned done
  | true => exact (lexFrom_minus done c (w ++ rest) hc).trans (unsigned (.op '-' :: done))

private theorem isNumChar_of_isDigit {c : Char} (h : c.isDigit) : isNumChar c := by
  simp [isNumChar, isIdChar, Char.isAlphanum, h]

theorem lexFrom_formatI (done : List Token) (n : ℤ) (rest : Text)
    (h : rest.head?.any isNumChar = false) :
    lexFrom done (formatI n ++ rest) =
      lexFrom (numberTokens (n < 0) (digits n.natAbs) ++ done) rest := by
  obtain ⟨c, w, split, hc, hw⟩ := exists_digits_eq_cons n.natAbs
  rw [formatI, split, List.append_assoc, List.cons_append]
  exact lexFrom_number done _ c w rest hc (fun d hd => isNumChar_of_isDigit (hw d hd)) h

theorem lexFrom_formatF (done : List Token) (x : ℚ) (rest : Text)
    (h : rest.head?.any isNumChar = false) :
    lexFrom done (formatF x ++ rest) =
      lexFrom (numberTokens (x < 0) (decimals (micros x)) ++ done) rest := by
  obtain ⟨c, w, split, hc, hw⟩ := exists_digits_eq_cons (micros x / 1000000)
  have numerals : ∀ d ∈ w ++ '.' :: sixDigits (micros x % 1000000), isNumChar d := by
    intro d hd
    rcases List.mem_append.mp hd with whole | fraction
    · exact isNumChar_of_isDigit (hw d whole)
    · rcases List.mem_cons.mp fraction with rfl | digit
      · rfl
      · exact isNumChar_of_isDigit (isDigit_of_mem_sixDigits digit)
  rw [formatF, decimals, split, List.append_assoc, List.cons_append, List.cons_append]
  exact lexFrom_number done _ c _ rest hc numerals h

end ObjSearch.Sql.Lexer
