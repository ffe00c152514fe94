/- A file as its lines, and where the reading of them stops.
   digest: Each line is read as if it were alone, up to the first one that is too wide or
   ill-quoted or whose callback asks to stop. -/

import ObjSearch.Csv.Table

set_option autoImplicit false
set_option relaxedAutoImplicit false

namespace ObjSearch.Csv.Lines

open ObjSearch.Lib.Texts (Text)
open ObjSearch.Lib.Cells
open ObjSearch.Csv.Parser
open ObjSearch.Csv.Scanner
open ObjSearch.Csv.Reader
open ObjSearch.Csv.Table

variable {σ : Type}

/-- The lines without their newlines; the last one may have none. -/
def linesOf : Text → List Text
  | [] => []
  | c :: cs =>
    if c = '\n' then [] :: linesOf cs
    else match linesOf cs with
      | [] => [[c]]
      | line :: lines => (c :: line) :: lines

def Fits (line : Text) : Prop := line.length + 1 < maxLineLen

instance (line : Text) : Decidable (Fits line) := inferInstanceAs (Decidable (_ < _))

/-- What `csv_parse_line` makes of a line alone, in a buffer of NULs: the code, and the fields of
each call of the callback. -/
def lineAlone (line : Text) : Except Fault (ℤ × List (List Text)) :=
  (csvParseLine (some keep) (putAll (fun _ => nul) 0 (line ++ ending)) []).map
    (fun r => (r.1, r.2.2))

/-- Reading these lines makes the callback take its `params` from one state to the other, and
ends with this code. -/
inductive Reads (cb : Callback σ) : List Text → σ → ℤ → σ → Prop where
  | done (params : σ) : Reads cb [] params 0 params
  | next {line : Text} {lines fields : List Text} {params params' last : σ} {code : ℤ}
      (fits : Fits line) (good : lineAlone line = .ok (0, [fields]))
      (called : cb params fields = (params', 0)) (rest : Reads cb lines params' code last) :
      Reads cb (line :: lines) params code last
  | tooWide {line : Text} (lines : List Text) (params : σ) (wide : ¬Fits line) :
      Reads cb (line :: lines) params eLineTooWide params
  | illQuoted {line : Text} (lines : List Text) (params : σ) (fits : Fits line)
      (bad : lineAlone line = .ok (eQuotedString, [])) :
      Reads cb (line :: lines) params eQuotedString params
  | stopped {line : Text} (lines : List Text) {fields : List Text} {params params' : σ} {r : ℤ}
      (fits : Fits line) (good : lineAlone line = .ok (0, [fields]))
      (called : cb params fields = (params', r)) (stop : r ≠ 0) :
      Reads cb (line :: lines) params (if r = eQuotedString then eQuotedString else 0) params'

theorem linesOf_line (line rest : Text) (noNewline : '\n' ∉ line) :
    linesOf (line ++ '\n' :: rest) = line :: linesOf rest := by
  induction line with
  | nil => rfl
  | cons c line ih =>
    rw [List.mem_cons, not_or] at noNewline
    rw [List.cons_append, linesOf, if_neg (Ne.symm noNewline.1), ih noNewline.2]

theorem lines_induction {P : Text → Prop} (last : ∀ line, '\n' ∉ line → P line)
    (line : ∀ line rest, '\n' ∉ line → P rest → P (line ++ '\n' :: rest)) (t : Text) : P t := by
  induction size : t.length using Nat.strong_induction_on generalizing t with
  | _ n ih =>
    by_cases more : '\n' ∈ t
    · obtain ⟨l, rest, split, noNewline⟩ := List.eq_append_cons_of_mem more
      subst split
      refine line l rest noNewline (ih rest.length ?_ rest rfl)
      rw [List.length_append, List.length_cons] at size
      omega
    · exact last t more

theorem holds_alone (line : Text) :
    Holds (putAll (fun _ => nul) 0 (line ++ ending)) 0 (line ++ ending) :=
  holds_putAll _ 0 _

theorem lineAlone_eq {line : Text} (fits : Fits line) (noNul : nul ∉ line)
    (noNewline : '\n' ∉ line) (few : (scan line).1.length ≤ maxColumnCount) :
    lineAlone line =
      .ok (if (scan line).2 then (0, [(scan line).1]) else (eQuotedString, [])) := by
  have room : line.length + 2 ≤ maxLineLen := by
    unfold Fits at fits
    omega
  obtain ⟨m', parsed⟩ := csvParseLine_spec keep _ [] line (holds_alone line) room noNul noNewline
    few
  rw [lineAlone, parsed]
  cases (scan line).2 <;> rfl

theorem takeLine_of_long (line rest : Text) (n : ℕ) (long : n ≤ line.length)
    (noNewline : '\n' ∉ line) : (takeLine n (line ++ rest)).1 = line.take n := by
  induction line generalizing n with
  | nil =>
    rw [List.length_nil] at long
    obtain rfl : n = 0 := by omega
    cases rest <;> rfl
  | cons c line ih =>
    rw [List.mem_cons, not_or] at noNewline
    cases n with
    | zero => rfl
    | succ n =>
      rw [List.length_cons] at long
      rw [List.cons_append, takeLine, if_neg (Ne.symm noNewline.1), List.take_succ_cons,
        ih n (by omega) noNewline.2]

theorem fgets_of_wide (m : Buffer) (line rest : Text) (wide : ¬Fits line)
    (noNewline : '\n' ∉ line) :
    ∃ m' rest', fgets m (line ++ '\n' :: rest) = some (m', rest') ∧
      m' (maxLineLen - 1) = nul ∧ m' (maxLineLen - 2) ≠ '\n' := by
  have long : maxLineLen - 1 ≤ line.length := by
    unfold Fits at wide
    omega
  have size : (line.take (maxLineLen - 1)).length = maxLineLen - 1 := List.length_take_of_le long
  have cells := holds_putAll m 0 (line.take (maxLineLen - 1) ++ [nul])
  refine ⟨putAll m 0 (line.take (maxLineLen - 1) ++ [nul]),
    (takeLine (maxLineLen - 1) (line ++ '\n' :: rest)).2, ?_, ?_, ?_⟩
  · rw [fgets, if_neg (by simp), ← takeLine_of_long line ('\n' :: rest) _ long noNewline]
  · have last := (holds_concat.mp cells).2
    rwa [size, Nat.zero_add] at last
  · -- the last character read is one of the line's own
    obtain ⟨init, c, split⟩ : ∃ init c, line.take (maxLineLen - 1) = init ++ [c] := by
      refine ⟨_, _, (List.dropLast_append_getLast (l := line.take (maxLineLen - 1)) ?_).symm⟩
      intro empty
      rw [empty, List.length_nil] at size
      exact absurd size (by decide)
    have own : c ∈ line := List.mem_of_mem_take (split ▸ List.mem_concat_self)
    have place : init.length = maxLineLen - 2 := by
      rw [split, List.length_append, List.length_singleton] at size
      omega
    rw [split, List.append_assoc, holds_append, Nat.zero_add, place] at cells
    rw [split, List.append_assoc, cells.2.1]
    rintro rfl
    exact noNewline own

theorem csvParse_wide (cb : Option (Callback σ)) (m : Buffer) (line rest : Text) (params : σ)
    (wide : ¬Fits line) (noNewline : '\n' ∉ line) :
    csvParse cb m (line ++ '\n' :: rest) params = .ok (eLineTooWide, params) := by
  obtain ⟨m', rest', read, filled, other⟩ :=
    fgets_of_wide (put m (maxLineLen - 1) '*') line rest wide noNewline
  rw [csvParse_turn cb params read, if_pos ⟨filled, other⟩]

/-- Every line of a file that is empty or ends in a newline is read as if it were alone, until
one of them stops the reading. -/
theorem csvParse_reads (cb : Callback σ) (m : Buffer) (file : Text) (params : σ)
    (noNul : nul ∉ file) (ended : file = [] ∨ file.getLast? = some '\n')
    (few : ∀ line ∈ linesOf file, (scan line).1.length ≤ maxColumnCount) :
    ∃ code last, csvParse (some cb) m file params = .ok (code, last) ∧
      Reads cb (linesOf file) params code last := by
  induction file using lines_induction generalizing m params with
  | last line noNewline =>
    have empty : line = [] := by
      rcases ended with empty | newline
      · exact empty
      · exact absurd (List.mem_of_getLast? newline) noNewline
    subst empty
    exact ⟨0, params, csvParse_end (some cb) m params, .done params⟩
  | line line rest noNewline ih =>
    rw [linesOf_line line rest noNewline] at few ⊢
    have noNul' : nul ∉ line := fun here => noNul (List.mem_append_left _ here)
    have fewHere : (scan line).1.length ≤ maxColumnCount := few line List.mem_cons_self
    by_cases fits : Fits line
    · have alone := lineAlone_eq fits noNul' noNewline fewHere
      obtain ⟨m', parsed⟩ := csvParse_line cb m line rest params fits noNul' noNewline fewHere
      rw [parsed]
      cases ok : (scan line).2 with
      | false =>
        rw [ok] at alone
        exact ⟨_, _, rfl, .illQuoted _ _ fits alone⟩
      | true =>
        rw [ok] at alone
        rw [if_pos rfl]
        by_cases zero : (cb params (scan line).1).2 = 0
        · have restEnded : rest = [] ∨ rest.getLast? = some '\n' := by
            cases rest with
            | nil => exact .inl rfl
            | cons c rest =>
              refine .inr ?_
              rcases ended with empty | newline
              · simp at empty
              · rwa [List.getLast?_append_of_ne_nil _ (by simp), List.getLast?_cons_cons]
                  at newline
          obtain ⟨code, last, result, reads⟩ := ih m' (cb params (scan line).1).1
            (fun here => noNul (by simp [here])) restEnded
            (fun l hl => few l (List.mem_cons_of_mem _ hl))
          refine ⟨code, last, ?_, .next fits alone (Prod.ext rfl zero) reads⟩
          rw [zero, if_neg (by decide), if_neg (by decide), result]
        · refine ⟨_, _, ?_, .stopped _ fits alone rfl zero⟩
          split_ifs with quoted
          · rfl
          · rfl
    · exact ⟨_, _, csvParse_wide (some cb) m line rest params fits noNewline, .tooWide _ _ fits⟩

theorem csvParse_reads_twoLines :
    ∃ code last, csvParse (some keep) (fun _ => '?') "a,b\n\"c\"d\n".toList [] = .ok (code, last) ∧
      Reads keep (linesOf "a,b\n\"c\"d\n".toList) [] code last :=
  csvParse_reads keep (fun _ => '?') "a,b\n\"c\"d\n".toList [] (by decide) (by decide) (by decide)

end ObjSearch.Csv.Lines
