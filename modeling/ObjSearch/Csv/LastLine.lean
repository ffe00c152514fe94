/- A last line without a newline, beside the same line with one.
   digest: The parser goes past the NUL of such a line whenever the line is well quoted, so that
   it is parsed like any other only where the reading stops before or in it. -/

import ObjSearch.Csv.Checked
import ObjSearch.Csv.Lines

set_option autoImplicit false
set_option relaxedAutoImplicit false

namespace ObjSearch.Csv.LastLine

open ObjSearch.Lib.Texts (Text)
open ObjSearch.Lib.Cells
open ObjSearch.Csv.Parser
open ObjSearch.Csv.Scanner
open ObjSearch.Csv.Reader
open ObjSearch.Csv.Table
open ObjSearch.Csv.Lines
open ObjSearch.Csv.Checked

/-- Two buffers with the same characters below cell `n`, none of them a newline: in `m` the NUL
follows them, in `m'` a newline and the NUL. -/
structure Twin (n : ℕ) (m m' : Buffer) : Prop where
  same : ∀ j, j < n → m j = m' j
  clean : ∀ j, j < n → m j ≠ '\n'
  ended : m n = nul
  newline : m' n = '\n'
  ended' : m' (n + 1) = nul

theorem Twin.put {n p : ℕ} {m m' : Buffer} {c : Char} (h : Twin n m m') (notNewline : c ≠ '\n')
    (below : p < n) : Twin n (put m p c) (put m' p c) where
  same := by
    intro j lt
    by_cases here : j = p
    · subst here
      rw [put_self, put_self]
    · rw [put_ne m c here, put_ne m' c here, h.same j lt]
  clean := by
    intro j lt
    by_cases here : j = p
    · subst here
      rwa [put_self]
    · rw [put_ne m c here]
      exact h.clean j lt
  ended := by rw [put_ne m c (by omega), h.ended]
  newline := by rw [put_ne m' c (by omega), h.newline]
  ended' := by rw [put_ne m' c (by omega), h.ended']

section lockstep

variable {n : ℕ} (inside : n + 1 < maxLineLen)
include inside

theorem copyQuoted_twin {turns : ℕ} {m m' : Buffer} {p q : ℕ} (twin : Twin n m m')
    (behind : p < q) (le : q ≤ n) (enough : n + 2 ≤ q + turns) :
    (∃ m1 p1 q1 m2 p2 q2, copyQuotedChecked n turns m p q = .ok (false, m1, p1, q1) ∧
      copyQuoted turns m' p q = .ok (false, m2, p2, q2)) ∨
    ∃ m1 m2 p1 q1, copyQuotedChecked n turns m p q = .ok (true, m1, p1, q1) ∧
      copyQuoted turns m' p q = .ok (true, m2, p1, q1) ∧ Twin n m1 m2 ∧ p1 < q1 ∧ q < q1 ∧
        q1 ≤ n := by
  induction turns generalizing m m' p q with
  | zero => omega
  | succ turns ih =>
    have front : n < maxLineLen := by omega
    rcases lt_or_eq_of_le le with lt | rfl
    · have same := twin.same q lt
      by_cases isNul : m q = nul
      · left
        exact ⟨m, p, q, m', p, q, copyChecked_nul front le isNul,
          copyQuoted_nul (by omega) (same ▸ isNul)⟩
      · by_cases quote : m q = '"'
        · have quote' : m' q = '"' := same ▸ quote
          by_cases doubled : m (q + 1) = '"'
          · have lt' : q + 1 < n := by
              have notLast : q + 1 ≠ n := by
                rintro rfl
                rw [twin.ended] at doubled
                exact absurd doubled (by decide)
              omega
            have doubled' : m' (q + 1) = '"' := twin.same (q + 1) lt' ▸ doubled
            rw [copyChecked_doubled front behind (by omega) quote doubled,
              copyQuoted_doubled (by omega) quote' doubled']
            have more := ih (twin.put (show '"' ≠ '\n' by decide) (show p < n by omega))
              (show p + 1 < q + 2 by omega) (by omega) (by omega)
            apply more.imp_right
            rintro ⟨m1, m2, p1, q1, ran, ran', twin1, lt1, low, high⟩
            exact ⟨m1, m2, p1, q1, ran, ran', twin1, lt1, by omega, high⟩
          · right
            have other : m' (q + 1) ≠ '"' := by
              by_cases atEnd : q + 1 = n
              · rw [atEnd, twin.newline]
                decide
              · rwa [← twin.same (q + 1) (by omega)]
            exact ⟨m, m', p, q + 1, copyChecked_closed front (by omega) quote doubled,
              copyQuoted_closed (by omega) quote' other, twin, by omega, by omega, by omega⟩
        · rw [copyChecked_other front behind le isNul quote,
            copyQuoted_other (by omega) same.symm isNul quote]
          have more := ih (twin.put (twin.clean q lt) (show p < n by omega)) (show p + 1 < q + 1 by omega)
            (by omega) (by omega)
          apply more.imp_right
          rintro ⟨m1, m2, p1, q1, ran, ran', twin1, lt1, low, high⟩
          exact ⟨m1, m2, p1, q1, ran, ran', twin1, lt1, by omega, high⟩
    · -- one buffer has come to its NUL, the other to the newline, which is copied as well
      left
      obtain ⟨turns, rfl⟩ : ∃ k, turns = k + 1 := ⟨turns - 1, by omega⟩
      have nulAfter : put m' p '\n' (q + 1) = nul := by
        rw [put_ne m' _ (by omega), twin.ended']
      refine ⟨m, p, q, put m' p '\n', p + 1, q + 1, copyChecked_nul front le_rfl twin.ended, ?_⟩
      · rw [copyQuoted_other (by omega) twin.newline (by decide) (by decide),
          copyQuoted_nul (by omega) nulAfter]

theorem skipBlanks_twin {turns : ℕ} {m m' : Buffer} {q : ℕ} (twin : Twin n m m') (le : q ≤ n)
    (enough : n + 2 ≤ q + turns) :
    ∃ q', skipBlanksChecked n turns m q = .ok q' ∧ skipBlanks turns m' q = .ok q' ∧ q ≤ q' ∧
      q' ≤ n := by
  induction turns generalizing q with
  | zero => omega
  | succ turns ih =>
    rw [skipBlanksChecked, readAt_ok m (show n < maxLineLen by omega) le, skipBlanks,
      if_neg (show ¬maxLineLen ≤ q by omega)]
    show ∃ q', (if isBlank (m q) then _ else _) = _ ∧ _
    rcases lt_or_eq_of_le le with lt | rfl
    · rw [← twin.same q lt]
      by_cases blank : isBlank (m q) = true
      · rw [if_pos blank, if_pos blank]
        obtain ⟨q', ran, ran', low, high⟩ := ih (show q + 1 ≤ n by omega) (by omega)
        exact ⟨q', ran, ran', by omega, high⟩
      · rw [if_neg blank, if_neg blank]
        exact ⟨q, rfl, rfl, le_rfl, le⟩
    · rw [twin.ended, twin.newline]
      exact ⟨q, rfl, rfl, le_rfl, le_rfl⟩

theorem csvProcessQuotedString_twin {m m' : Buffer} {buff : ℕ} (twin : Twin n m m')
    (lt : buff < n) :
    (∃ m1 m2, csvProcessQuotedStringChecked n m buff = .ok (eQuotedString, m1, buff) ∧
      csvProcessQuotedString m' buff = .ok (eQuotedString, m2, buff)) ∨
    ∃ m1 m2 at_, csvProcessQuotedStringChecked n m buff = .ok (0, m1, at_) ∧
      csvProcessQuotedString m' buff = .ok (0, m2, at_) ∧ Twin n m1 m2 ∧ buff ≤ at_ ∧
        at_ + 1 ≤ n := by
  have copied := copyQuoted_twin inside twin (Nat.lt_succ_self buff) lt
    (show n + 2 ≤ buff + 1 + maxLineLen by omega)
  rcases copied with ⟨m1, p1, q1, m2, p2, q2, ran, ran'⟩ | ⟨m1, m2, p, q, ran, ran', twin1, lt1,
    low, high⟩
  · rw [csvProcessQuotedStringChecked, csvProcessQuotedString, ran, ran']
    exact .inl ⟨m1, m2, rfl, rfl⟩
  · have twin2 : Twin n (put m1 p nul) (put m2 p nul) := twin1.put (by decide) (by omega)
    obtain ⟨q', skipped, skipped', low', high'⟩ := skipBlanks_twin inside twin2 high
      (show n + 2 ≤ q + maxLineLen by omega)
    rw [csvProcessQuotedStringChecked_of_loops (by omega) ran lt1 skipped high',
      csvProcessQuotedString_of_loops ran' skipped', verdict, verdict]
    -- at the end the one has a NUL and the other a newline, and both are accepted
    have accepted : (put m1 p nul q' ≠ ',' ∧ put m1 p nul q' ≠ '\n' ∧ put m1 p nul q' ≠ nul) ↔
        (put m2 p nul q' ≠ ',' ∧ put m2 p nul q' ≠ '\n' ∧ put m2 p nul q' ≠ nul) := by
      rcases lt_or_eq_of_le high' with lt' | rfl
      · rw [twin2.same q' lt']
      · simp [twin2.ended, twin2.newline]
    by_cases bad : put m1 p nul q' ≠ ',' ∧ put m1 p nul q' ≠ '\n' ∧ put m1 p nul q' ≠ nul
    · rw [if_pos bad, if_pos (accepted.mp bad)]
      exact .inl ⟨_, _, rfl, rfl⟩
    · rw [if_neg bad, if_neg (fun h => bad (accepted.mpr h))]
      exact .inr ⟨_, _, q' - 1, rfl, rfl, twin2, by omega, by omega⟩

def Overruns (code : ℤ) (columns : List ℕ) (run : Except Breach (ℤ × Buffer × List ℕ)) : Prop :=
  if code = eQuotedString then ∃ m1, run = .ok (eQuotedString, m1, columns)
  else run = .error .pastNul

/-- Where the line with the newline is parsed well, the loop over the line without one goes past
its NUL. -/
theorem parseFields_twin {turns : ℕ} {m m' m2 : Buffer} {buff : ℕ} {columns columns' : List ℕ}
    {code : ℤ} (twin : Twin n m m') (le : buff ≤ n) (enough : n + 2 ≤ buff + turns)
    (plain : parseFields turns m' buff columns = .ok (code, m2, columns')) :
    Overruns code columns' (parseFieldsChecked n turns m buff columns) := by
  induction turns generalizing m m' buff columns with
  | zero => omega
  | succ turns ih =>
    rw [parseFieldsChecked, readAt_ok m (show n < maxLineLen by omega) le]
    show Overruns code columns' (if m buff = '\n' then _ else _)
    rcases lt_or_eq_of_le le with lt | rfl
    · have same := twin.same buff lt
      rw [parseFields, if_neg (by omega), ← same, if_neg (twin.clean buff lt)] at plain
      rw [if_neg (twin.clean buff lt)]
      by_cases comma : m buff = ','
      · rw [if_pos comma] at plain ⊢
        split_ifs at plain ⊢ with full
        exact ih (twin.put (by decide) lt) (by omega) (by omega) plain
      · rw [if_neg comma] at plain ⊢
        by_cases quote : m buff = '"'
        · rw [if_pos quote] at plain ⊢
          rcases csvProcessQuotedString_twin inside twin lt with ⟨m1, m2', ran, ran'⟩ |
            ⟨m1, m2', at_, ran, ran', twin1, low, high⟩
          · rw [ran'] at plain
            rw [ran]
            have stopped : (if eQuotedString = eQuotedString then .ok (eQuotedString, m2', columns)
                else parseFields turns m2' (buff + 1) columns) = .ok (code, m2, columns') := plain
            rw [if_pos rfl] at stopped
            cases stopped
            exact (if_pos rfl).mpr ⟨m1, rfl⟩
          · rw [ran'] at plain
            rw [ran]
            have zero : (0 : ℤ) ≠ eQuotedString := by decide
            have rest : (if (0 : ℤ) = eQuotedString then .ok (eQuotedString, m2', columns)
                else parseFields turns m2' (at_ + 1) columns) = .ok (code, m2, columns') := plain
            rw [if_neg zero] at rest
            show Overruns code columns' (if (0 : ℤ) = eQuotedString then
              .ok (eQuotedString, m1, columns) else parseFieldsChecked n turns m1 (at_ + 1) columns)
            rw [if_neg zero]
            exact ih twin1 high (by omega) rest
        · rw [if_neg quote] at plain ⊢
          exact ih twin (by omega) (by omega) plain
    · -- the NUL is no end for the loop, which reads the next cell
      obtain ⟨turns, rfl⟩ : ∃ k, turns = k + 1 := ⟨turns - 1, by omega⟩
      rw [parseFields_newline (by omega) twin.newline] at plain
      cases plain
      rw [twin.ended, if_neg (by decide), if_neg (by decide), if_neg (by decide),
        parseFieldsChecked, readAt_pastNul m inside (by omega)]
      exact (if_neg (by decide)).mpr rfl

end lockstep

variable {σ : Type}

/-- A last line without a newline: an error where it is ill-quoted, else a read past its NUL. -/
theorem csvParseLineChecked_last (cb : Callback σ) (m : Buffer) (params : σ) (line : Text)
    (here : Holds m 0 (line ++ [nul])) (room : line.length + 2 ≤ maxLineLen) (noNul : nul ∉ line)
    (noNewline : '\n' ∉ line) (few : (scan line).1.length ≤ maxColumnCount) :
    (scan line).2 = false ∧ (∃ m', csvParseLineChecked line.length (some cb) m params =
      .ok (eQuotedString, m', params)) ∨
    (scan line).2 = true ∧
      csvParseLineChecked line.length (some cb) m params = .error .pastNul := by
  obtain ⟨cells, ended⟩ := holds_concat.mp here
  rw [Nat.zero_add] at ended
  have other : Holds (put (put m line.length '\n') (line.length + 1) nul) 0 (line ++ ending) := by
    refine holds_append.mpr ⟨(cells.put_after _ (by omega)).put_after _ (by omega), ?_⟩
    rw [Nat.zero_add]
    refine ⟨?_, put_self _ _ _, trivial⟩
    rw [put_ne _ _ (by omega), put_self]
  have twin : Twin line.length m (put (put m line.length '\n') (line.length + 1) nul) := by
    refine ⟨?_, ?_, ended, ?_, put_self _ _ _⟩
    · intro j lt
      rw [put_ne _ _ (by omega), put_ne _ _ (by omega)]
    · intro j lt newline
      have char := cells.getElem lt
      rw [Nat.zero_add, newline] at char
      exact noNewline (char ▸ List.getElem_mem lt)
    · rw [put_ne _ _ (by omega), put_self]
  have standing : Standing (put (put m line.length '\n') (line.length + 1) nul) 0 0 [] [] [] line :=
    ⟨other, trivial, rfl, by omega, noNul, noNewline, by simp, .nil, by simpa [scan] using few⟩
  obtain ⟨m', columns, parsed, -⟩ := finds line maxLineLen _ 0 0 [] [] [] (by omega) standing
  have overruns := parseFields_twin (show line.length + 1 < maxLineLen by omega) twin
    (Nat.zero_le _) (show line.length + 2 ≤ 0 + maxLineLen by omega) parsed
  change Overruns (if (scan line).2 = true then 0 else eQuotedString) columns
    (parseFieldsChecked line.length maxLineLen m 0 [0]) at overruns
  rw [csvParseLineChecked]
  cases ok : (scan line).2 with
  | false =>
    rw [ok] at overruns
    obtain ⟨m1, ran⟩ := (if_pos rfl).mp overruns
    rw [ran]
    exact .inl ⟨rfl, m1, rfl⟩
  | true =>
    rw [ok] at overruns
    have ran : parseFieldsChecked line.length maxLineLen m 0 [0] = .error .pastNul :=
      (if_neg (by decide)).mp overruns
    rw [ran]
    exact .inr ⟨rfl, rfl⟩

/-! Whole files. -/

def recorded (cb : Callback σ) : Callback (σ × List (List Text)) := fun s fields =>
  (((cb s.1 fields).1, s.2 ++ [fields]), (cb s.1 fields).2)

/-- The same calls and the same code as with a newline at the end, and no read behind the NUL of a
line; the buffers are uninitialised at first. -/
def ParsedAlike (cb : Callback σ) (m m' : Buffer) (file : Text) (s : σ × List (List Text)) : Prop :=
  ∃ out, csvParseChecked (some (recorded cb)) m file s = .ok out ∧
    csvParse (some (recorded cb)) m file s = .ok out ∧
    csvParse (some (recorded cb)) m' (file ++ ['\n']) s = .ok out

def stops (cb : Callback σ) : List Text → σ → Bool
  | [], _ => false
  | [line], _ => !(scan line).2
  | line :: next :: lines, params =>
    !(scan line).2 || decide ((cb params (scan line).1).2 ≠ 0) ||
      stops cb (next :: lines) (cb params (scan line).1).1

theorem takeLine_of_last (line : Text) (n : ℕ) (room : line.length ≤ n) (noNewline : '\n' ∉ line) :
    takeLine n line = (line, []) := by
  induction line generalizing n with
  | nil => cases n <;> rfl
  | cons c line ih =>
    rw [List.length_cons] at room
    rw [List.mem_cons, not_or] at noNewline
    obtain ⟨n, rfl⟩ : ∃ k, n = k + 1 := ⟨n - 1, by omega⟩
    rw [takeLine, if_neg (Ne.symm noNewline.1), ih n (by omega) noNewline.2]

theorem fgets_of_last (m : Buffer) {line : Text} (notEmpty : line ≠ []) (fits : Fits line)
    (noNewline : '\n' ∉ line) :
    ∃ m', fgets (put m (maxLineLen - 1) '*') line = some (m', []) ∧
      Holds m' 0 (line ++ [nul]) ∧
        ¬(m' (maxLineLen - 1) = nul ∧ m' (maxLineLen - 2) ≠ '\n') := by
  unfold Fits at fits
  refine ⟨putAll (put m (maxLineLen - 1) '*') 0 (line ++ [nul]), ?_, holds_putAll _ 0 _, ?_⟩
  · rw [fgets, if_neg notEmpty, takeLine_of_last line _ (by omega) noNewline]
  · rintro ⟨wide, -⟩
    have untouched : putAll (put m (maxLineLen - 1) '*') 0 (line ++ [nul]) (maxLineLen - 1) =
        '*' := by
      rw [putAll_of_after _ (by rw [List.length_append, List.length_singleton]; omega), put_self]
    rw [untouched] at wide
    cases wide

theorem csvParseChecked_line (cb : Callback σ) (m : Buffer) (line rest : Text) (params : σ)
    (fits : Fits line) (noNul : nul ∉ line) (noNewline : '\n' ∉ line)
    (few : (scan line).1.length ≤ maxColumnCount) :
    ∃ m', csvParseChecked (some cb) m (line ++ '\n' :: rest) params =
      if (scan line).2 then
        if (cb params (scan line).1).2 = eQuotedString then
          .ok (eQuotedString, (cb params (scan line).1).1)
        else if (cb params (scan line).1).2 ≠ 0 then .ok (0, (cb params (scan line).1).1)
        else csvParseChecked (some cb) m' rest (cb params (scan line).1).1
      else .ok (eQuotedString, params) := by
  unfold Fits at fits
  obtain ⟨m', read, here, notWide⟩ := fgets_of_line m line rest fits noNewline
  obtain ⟨m'', checked, -⟩ :=
    csvParseLineChecked_spec cb m' params line here (by omega) noNul noNewline few
  have size : (line ++ '\n' :: rest).length - rest.length = line.length + 1 := by
    rw [List.length_append, List.length_cons]
    omega
  refine ⟨m'', ?_⟩
  rw [csvParseChecked_turn (some cb) params read, if_neg notWide, size, checked]
  cases (scan line).2 <;> rfl

theorem csvParseChecked_last (cb : Callback σ) (m : Buffer) {line : Text} (params : σ)
    (notEmpty : line ≠ []) (fits : Fits line) (noNul : nul ∉ line) (noNewline : '\n' ∉ line)
    (few : (scan line).1.length ≤ maxColumnCount) :
    csvParseChecked (some cb) m line params =
      if (scan line).2 then .error .pastNul else .ok (eQuotedString, params) := by
  obtain ⟨m', read, here, notWide⟩ := fgets_of_last m notEmpty fits noNewline
  have size : line.length - ([] : Text).length = line.length := rfl
  rw [csvParseChecked_turn (some cb) params read, if_neg notWide, size]
  unfold Fits at fits
  rcases csvParseLineChecked_last cb m' params line here (by omega) noNul noNewline few with
    ⟨bad, m'', ran⟩ | ⟨good, ran⟩
  · rw [ran, bad]
    rfl
  · rw [ran, good]
    rfl

theorem linesOf_last {line : Text} (notEmpty : line ≠ []) (noNewline : '\n' ∉ line) :
    linesOf line = [line] := by
  induction line with
  | nil => exact absurd rfl notEmpty
  | cons c line ih =>
    rw [List.mem_cons, not_or] at noNewline
    rw [linesOf, if_neg (Ne.symm noNewline.1)]
    cases line with
    | nil => rfl
    | cons d line => rw [ih (List.cons_ne_nil d line) noNewline.2]

theorem exists_linesOf_eq_cons {file : Text} (notEmpty : file ≠ []) :
    ∃ line lines, linesOf file = line :: lines := by
  cases file with
  | nil => exact absurd rfl notEmpty
  | cons c cs =>
    rw [linesOf]
    split_ifs
    · exact ⟨_, _, rfl⟩
    · cases linesOf cs with
      | nil => exact ⟨_, _, rfl⟩
      | cons line lines => exact ⟨_, _, rfl⟩

theorem parsedAlike_of_checked {cb : Callback σ} {m m' : Buffer} {file : Text}
    {s : σ × List (List Text)} {out : ℤ × σ × List (List Text)}
    (checked : csvParseChecked (some (recorded cb)) m file s = .ok out)
    (longer : csvParse (some (recorded cb)) m' (file ++ ['\n']) s = .ok out) :
    ParsedAlike cb m m' file s :=
  ⟨out, checked, csvParse_of_checked checked, longer⟩

/-- The empty file has no line, but a newline alone is an empty line. -/
theorem not_parsedAlike_nil (cb : Callback σ) (m m' : Buffer) (s : σ × List (List Text)) :
    ¬ParsedAlike cb m m' [] s := by
  rintro ⟨out, checked, -, longer⟩
  rw [csvParseChecked_end] at checked
  obtain ⟨m'', line⟩ := csvParse_line (recorded cb) m' [] [] s (by decide) (by decide) (by decide)
    (by decide)
  have called : out.2.2 = s.2 ++ [[[]]] := by
    rw [List.nil_append] at longer line
    rw [longer, if_pos (by decide)] at line
    split_ifs at line
    · exact congrArg (fun o : ℤ × σ × List (List Text) => o.2.2) (Except.ok.inj line)
    · exact congrArg (fun o : ℤ × σ × List (List Text) => o.2.2) (Except.ok.inj line)
    · rw [csvParse_end] at line
      exact congrArg (fun o : ℤ × σ × List (List Text) => o.2.2) (Except.ok.inj line)
  have unchanged : s.2 = s.2 ++ [[[]]] := by rwa [← Except.ok.inj checked] at called
  have longerList := congrArg List.length unchanged
  rw [List.length_append, List.length_singleton] at longerList
  omega

theorem parsedAlike_last_iff (cb : Callback σ) (m m' : Buffer) {line : Text}
    (s : σ × List (List Text)) (notEmpty : line ≠ []) (fits : Fits line) (noNul : nul ∉ line)
    (noNewline : '\n' ∉ line) (few : (scan line).1.length ≤ maxColumnCount) :
    ParsedAlike cb m m' line s ↔ (scan line).2 = false := by
  have last := csvParseChecked_last (recorded cb) m s notEmpty fits noNul noNewline few
  obtain ⟨m'', longer⟩ := csvParse_line (recorded cb) m' line [] s fits noNul noNewline few
  cases ok : (scan line).2 with
  | true =>
    rw [ok] at last
    refine ⟨?_, fun h => Bool.noConfusion h⟩
    rintro ⟨out, checked, -⟩
    rw [last] at checked
    cases checked
  | false =>
    rw [ok] at last longer
    exact ⟨fun _ => rfl, fun _ => parsedAlike_of_checked last longer⟩

/-- A file that does not end in a newline is parsed like the same file with one if and only if
the reading stops in it: at an ill-quoted line, or at an earlier line by the callback. -/
theorem parsedAlike_iff (cb : Callback σ) (m m' : Buffer) (file : Text)
    (s : σ × List (List Text)) (noNul : nul ∉ file) (unended : file.getLast? ≠ some '\n')
    (fits : ∀ line ∈ linesOf file, Fits line)
    (few : ∀ line ∈ linesOf file, (scan line).1.length ≤ maxColumnCount) :
    ParsedAlike cb m m' file s ↔ stops cb (linesOf file) s.1 = true := by
  induction file using lines_induction generalizing m m' s with
  | last line noNewline =>
    by_cases empty : line = []
    · subst empty
      exact ⟨fun h => absurd h (not_parsedAlike_nil cb m m' s), fun h => Bool.noConfusion h⟩
    · rw [linesOf_last empty noNewline] at fits few ⊢
      rw [parsedAlike_last_iff cb m m' s empty (fits line List.mem_cons_self) noNul noNewline
        (few line List.mem_cons_self), stops, Bool.not_eq_true']
  | line line rest noNewline ih =>
    rw [linesOf_line line rest noNewline] at fits few ⊢
    have noNul' : nul ∉ line := fun here => noNul (List.mem_append_left _ here)
    have notEmpty : rest ≠ [] := by
      rintro rfl
      simp at unended
    have unended' : rest.getLast? ≠ some '\n' := by
      rwa [List.getLast?_append_of_ne_nil _ (by simp), List.getLast?_cons_of_ne_nil notEmpty]
        at unended
    obtain ⟨next, lines, split⟩ := exists_linesOf_eq_cons notEmpty
    have fitsHere : Fits line := fits line List.mem_cons_self
    have fewHere : (scan line).1.length ≤ maxColumnCount := few line List.mem_cons_self
    obtain ⟨m1, checked⟩ := csvParseChecked_line (recorded cb) m line rest s fitsHere noNul'
      noNewline fewHere
    obtain ⟨m2, longer⟩ := csvParse_line (recorded cb) m' line (rest ++ ['\n']) s fitsHere noNul'
      noNewline fewHere
    rw [← List.cons_append, ← List.append_assoc] at longer
    have code : (recorded cb s (scan line).1).2 = (cb s.1 (scan line).1).2 := rfl
    rw [code] at checked longer
    rw [split, stops, ← split]
    cases ok : (scan line).2 with
    | false =>
      rw [ok] at checked longer
      exact ⟨fun _ => rfl, fun _ => parsedAlike_of_checked checked longer⟩
    | true =>
      rw [ok] at checked longer
      rw [if_pos rfl] at checked longer
      by_cases zero : (cb s.1 (scan line).1).2 = 0
      · rw [zero, if_neg (by decide), if_neg (by decide)] at checked longer
        have tail := ih m1 m2 (recorded cb s (scan line).1).1
          (fun here => noNul (by simp [here])) unended'
          (fun l hl => fits l (List.mem_cons_of_mem _ hl))
          (fun l hl => few l (List.mem_cons_of_mem _ hl))
        have same : ParsedAlike cb m m' (line ++ '\n' :: rest) s ↔
            ParsedAlike cb m1 m2 rest (recorded cb s (scan line).1).1 := by
          constructor
          · rintro ⟨out, ran, -, ran'⟩
            rw [checked] at ran
            rw [longer] at ran'
            exact parsedAlike_of_checked ran ran'
          · rintro ⟨out, ran, -, ran'⟩
            exact parsedAlike_of_checked (checked.trans ran) (longer.trans ran')
        rw [same, tail]
        simp [zero, recorded]
      · have stopped : (!true || decide ((cb s.1 (scan line).1).2 ≠ 0) ||
            stops cb (linesOf rest) (cb s.1 (scan line).1).1) = true := by
          simp [zero]
        refine ⟨fun _ => stopped, fun _ => ?_⟩
        split_ifs at checked longer
        · exact parsedAlike_of_checked checked longer
        · exact parsedAlike_of_checked checked longer

theorem parsedAlike_iff_illQuoted :
    ParsedAlike keep (fun _ => '?') (fun _ => '*') "a\n\"b".toList ([], []) ↔
      stops keep (linesOf "a\n\"b".toList) [] = true :=
  parsedAlike_iff keep (fun _ => '?') (fun _ => '*') "a\n\"b".toList ([], []) (by decide)
    (by decide) (by decide) (by decide)

/-- One well-quoted line without a newline, here over a buffer that holds a comma behind it. -/
theorem oneLine_reads_past_its_nul :
    csvParseChecked (some (recorded keep)) (fun _ => ',') "a".toList ([], []) = .error .pastNul ∧
      ¬ParsedAlike keep (fun _ => ',') (fun _ => ',') "a".toList ([], []) := by
  have past : csvParseChecked (some (recorded keep)) (fun _ => ',') "a".toList ([], []) =
      .error .pastNul :=
    csvParseChecked_last (recorded keep) _ ([], []) (by decide) (by decide) (by decide) (by decide)
      (by decide)
  refine ⟨past, ?_⟩
  rintro ⟨out, checked, -⟩
  rw [past] at checked
  cases checked

end ObjSearch.Csv.LastLine
