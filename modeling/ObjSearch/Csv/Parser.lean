/- The CSV reader: lines by `fgets`, fields by rewriting the line buffer in place.
   digest: The functions of csv_parser.cpp over a buffer of cells, with a fault for every access
   outside the buffer or the column table. -/

import ObjSearch.Lib.Cells
import ObjSearch.Lib.Texts

set_option autoImplicit false
set_option relaxedAutoImplicit false

namespace ObjSearch.Csv.Parser

open ObjSearch.Lib.Texts (Text)
open ObjSearch.Lib.Cells

def maxLineLen : ℕ := 1024 * 512

def maxColumnCount : ℕ := 1024

def eLineTooWide : ℤ := -2

def eQuotedString : ℤ := -1

def nul : Char := '\x00'

/-- `char buff[MAX_LINE_LEN]`; only the cells below `maxLineLen` exist. -/
abbrev Buffer := ℕ → Char

inductive Fault where
  | outOfBuffer
  | outOfColumns
deriving DecidableEq

/-- The loop of `csv_process_quoted_string`: whether the closing quote was found, the buffer,
and the cursors `p` and `q` behind it. Every turn moves `q` on, so that turns as many as the
buffer has cells outlast it. -/
def copyQuoted : ℕ → Buffer → ℕ → ℕ → Except Fault (Bool × Buffer × ℕ × ℕ)
  | 0, _, _, _ => .error .outOfBuffer
  | turns + 1, m, p, q =>
    if maxLineLen ≤ q then .error .outOfBuffer
    else if m q = nul then .ok (false, m, p, q)
    else if m q = '"' then
      if maxLineLen ≤ q + 1 then .error .outOfBuffer
      else if m (q + 1) ≠ '"' then .ok (true, m, p, q + 1)
      else copyQuoted turns (put m p (m (q + 1))) (p + 1) (q + 2)
    else copyQuoted turns (put m p (m q)) (p + 1) (q + 1)

def isBlank (c : Char) : Bool := c = ' ' || c = '\t'

def skipBlanks : ℕ → Buffer → ℕ → Except Fault ℕ
  | 0, _, _ => .error .outOfBuffer
  | turns + 1, m, q =>
    if maxLineLen ≤ q then .error .outOfBuffer
    else if isBlank (m q) then skipBlanks turns m (q + 1)
    else .ok q

/-- The result code, the buffer and `*buff`. -/
def csvProcessQuotedString (m : Buffer) (buff : ℕ) : Except Fault (ℤ × Buffer × ℕ) := do
  let (closed, m, p, q) ← copyQuoted maxLineLen m buff (buff + 1)
  if !closed then return (eQuotedString, m, buff)
  let m := put m p nul
  let q ← skipBlanks maxLineLen m q
  if m q ≠ ',' ∧ m q ≠ '\n' ∧ m q ≠ nul then return (eQuotedString, m, buff)
  return (0, m, q - 1)

/-- The loop of `csv_parse_line`: the result code, the buffer and `column_values`. -/
def parseFields : ℕ → Buffer → ℕ → List ℕ → Except Fault (ℤ × Buffer × List ℕ)
  | 0, _, _, _ => .error .outOfBuffer
  | turns + 1, m, buff, columns =>
    if maxLineLen ≤ buff then .error .outOfBuffer
    else if m buff = '\n' then .ok (0, put m buff nul, columns)
    else if m buff = ',' then
      if maxColumnCount ≤ columns.length then .error .outOfColumns
      else parseFields turns (put m buff nul) (buff + 1) (columns ++ [buff + 1])
    else if m buff = '"' then do
      let (code, m, buff) ← csvProcessQuotedString m buff
      if code = eQuotedString then return (eQuotedString, m, columns)
      parseFields turns m (buff + 1) columns
    else parseFields turns m (buff + 1) columns

def cStringUpTo : ℕ → Buffer → ℕ → Text
  | 0, _, _ => []
  | left + 1, m, i => if m i = nul then [] else m i :: cStringUpTo left m (i + 1)

def cString (m : Buffer) (i : ℕ) : Text := cStringUpTo (maxLineLen - i) m i

variable {σ : Type}

/-- A callback with its `params` as a state: the columns, read as C strings, and an int back. -/
abbrev Callback (σ : Type) := σ → List Text → σ × ℤ

def csvParseLine (cb : Option (Callback σ)) (m : Buffer) (params : σ) :
    Except Fault (ℤ × Buffer × σ) := do
  let (code, m, columns) ← parseFields maxLineLen m 0 [0]
  if code = eQuotedString then return (eQuotedString, m, params)
  match cb with
  | none => return (0, m, params)
  | some cb =>
    let (params, r) := cb params (columns.map (cString m))
    return (r, m, params)

/-- At most `n` characters of the file, up to and with the first newline, and the rest. -/
def takeLine : ℕ → Text → Text × Text
  | _, [] => ([], [])
  | 0, file => ([], file)
  | n + 1, c :: file =>
    if c = '\n' then ([c], file)
    else ((c :: (takeLine n file).1), (takeLine n file).2)

def putAll (m : Buffer) : ℕ → Text → Buffer
  | _, [] => m
  | i, c :: cs => putAll (put m i c) (i + 1) cs

/-- `fgets(buff, MAX_LINE_LEN, fp)`; none is NULL, at the end of the file. -/
def fgets (m : Buffer) (file : Text) : Option (Buffer × Text) :=
  if file = [] then none
  else
    let (line, rest) := takeLine (maxLineLen - 1) file
    some (putAll m 0 (line ++ [nul]), rest)

theorem length_takeLine_le (n : ℕ) (file : Text) :
    (takeLine n file).2.length ≤ file.length := by
  induction file generalizing n with
  | nil => cases n <;> simp [takeLine]
  | cons c file ih =>
    cases n with
    | zero => simp [takeLine]
    | succ n =>
      have shorter : (takeLine n file).2.length ≤ file.length := ih n
      rw [takeLine, List.length_cons]
      split_ifs
      · exact Nat.le_succ _
      · exact Nat.le_succ_of_le shorter

theorem length_takeLine_lt (n : ℕ) (c : Char) (file : Text) :
    (takeLine (n + 1) (c :: file)).2.length < (c :: file).length := by
  have shorter := length_takeLine_le n file
  rw [takeLine, List.length_cons]
  split_ifs
  · exact Nat.lt_succ_self _
  · exact Nat.lt_succ_of_le shorter

theorem length_fgets_lt {m m' : Buffer} {file rest : Text}
    (read : fgets m file = some (m', rest)) : rest.length < file.length := by
  obtain ⟨n, hn⟩ : ∃ n, maxLineLen - 1 = n + 1 := ⟨maxLineLen - 2, rfl⟩
  cases file with
  | nil => cases read
  | cons c file =>
    rw [fgets, if_neg (List.cons_ne_nil c file), hn] at read
    obtain ⟨-, rfl⟩ := Prod.mk.inj (Option.some.inj read)
    exact length_takeLine_lt n c file

/-- The loop of `csv_parse`; the buffer is uninitialised at first. -/
def csvParse (cb : Option (Callback σ)) (m : Buffer) (file : Text) (params : σ) :
    Except Fault (ℤ × σ) :=
  match h : fgets (put m (maxLineLen - 1) '*') file with
  | none => .ok (0, params)
  | some (m, rest) =>
    if m (maxLineLen - 1) = nul ∧ m (maxLineLen - 2) ≠ '\n' then .ok (eLineTooWide, params)
    else match csvParseLine cb m params with
      | .error fault => .error fault
      | .ok (r, m, params) =>
        if r = eQuotedString then .ok (eQuotedString, params)
        else if r ≠ 0 then .ok (0, params)
        else
          have := length_fgets_lt h
          csvParse cb m rest params
termination_by file.length

end ObjSearch.Csv.Parser
