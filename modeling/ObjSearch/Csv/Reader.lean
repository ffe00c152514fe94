/- The lines of a file, and what each of them does to the callback.
   digest: A line that fits is handled by its scan alone, whatever the buffer held before. -/

import ObjSearch.Csv.Scanner

set_option autoImplicit false
set_option relaxedAutoImplicit false

namespace ObjSearch.Csv.Reader

open List (Forall₂)
open ObjSearch.Lib.Texts (Text)
open ObjSearch.Lib.Cells
open ObjSearch.Csv.Parser
open ObjSearch.Csv.Scanner

variable {σ : Type}

theorem cStringUpTo_of_holds {m : Buffer} {i left : ℕ} {t : Text}
    (cells : Holds m i (t ++ [nul])) (inside : t.length < left) (clean : nul ∉ t) :
    cStringUpTo left m i = t := by
  induction t generalizing i left with
  | nil =>
    obtain ⟨left, rfl⟩ : ∃ k, left = k + 1 := ⟨left - 1, by rw [List.length_nil] at inside; omega⟩
    rw [cStringUpTo, if_pos cells.1]
  | cons c t ih =>
    rw [List.length_cons] at inside
    rw [List.mem_cons, not_or] at clean
    obtain ⟨left, rfl⟩ : ∃ k, left = k + 1 := ⟨left - 1, by omega⟩
    have here : m i = c := cells.1
    rw [cStringUpTo, here, if_neg (Ne.symm clean.1), ih cells.2 (by omega) clean.2]

theorem cString_of_column {m : Buffer} {s : ℕ} {t : Text} (h : Column m maxLineLen s t) :
    cString m s = t := by
  have inside := h.inside
  exact cStringUpTo_of_holds h.cells (by omega) h.clean

theorem map_cString_of_columns {m : Buffer} {starts : List ℕ} {texts : List Text}
    (h : Forall₂ (Column m maxLineLen) starts texts) : starts.map (cString m) = texts := by
  induction h with
  | nil => rfl
  | cons column _ ih => rw [List.map_cons, cString_of_column column, ih]

/-- A line that the scanner reads goes to the callback with the scanner's fields, and no other
line does. -/
theorem csvParseLine_spec (cb : Callback σ) (m : Buffer) (params : σ) (line : Text)
    (here : Holds m 0 (line ++ ending)) (room : line.length + 2 ≤ maxLineLen) (noNul : nul ∉ line)
    (noNewline : '\n' ∉ line) (few : (scan line).1.length ≤ maxColumnCount) :
    ∃ m', csvParseLine (some cb) m params =
      if (scan line).2 then
        .ok ((cb params (scan line).1).2, m', (cb params (scan line).1).1)
      else .ok (eQuotedString, m', params) := by
  have standing : Standing m 0 0 [] [] [] line :=
    ⟨here, trivial, rfl, by omega, noNul, noNewline, by simp, .nil, by simpa [scan] using few⟩
  obtain ⟨m', columns, parsed, all⟩ := finds line maxLineLen m 0 0 [] [] [] (by omega) standing
  have code : csvParseLine (some cb) m params =
      if (if (scan line).2 then 0 else eQuotedString) = eQuotedString then
        .ok (eQuotedString, m', params)
      else .ok ((cb params (columns.map (cString m'))).2, m',
        (cb params (columns.map (cString m'))).1) := by
    rw [csvParseLine, show parseFields maxLineLen m 0 [0] = _ from parsed]
    rfl
  refine ⟨m', ?_⟩
  rw [code]
  cases ok : (scan line).2 with
  | true =>
    rw [map_cString_of_columns (all ok), if_neg (by decide)]
    rfl
  | false => rw [if_pos (by decide), if_neg (by decide)]

theorem takeLine_of_line (line rest : Text) (n : ℕ) (room : line.length < n)
    (noNewline : '\n' ∉ line) :
    takeLine n (line ++ '\n' :: rest) = (line ++ ['\n'], rest) := by
  induction line generalizing n with
  | nil =>
    obtain ⟨n, rfl⟩ : ∃ k, n = k + 1 := ⟨n - 1, by rw [List.length_nil] at room; omega⟩
    simp [takeLine]
  | cons c line ih =>
    rw [List.length_cons] at room
    rw [List.mem_cons, not_or] at noNewline
    obtain ⟨n, rfl⟩ : ∃ k, n = k + 1 := ⟨n - 1, by omega⟩
    rw [List.cons_append, takeLine, if_neg (Ne.symm noNewline.1), ih n (by omega) noNewline.2]
    rfl

theorem putAll_of_before {m : Buffer} {i j : ℕ} (cs : Text) (before : j < i) :
    putAll m i cs j = m j := by
  induction cs generalizing m i with
  | nil => rfl
  | cons c cs ih => rw [putAll, ih (by omega), put_ne m c (by omega)]

theorem putAll_of_after {m : Buffer} {i j : ℕ} (cs : Text) (after : i + cs.length ≤ j) :
    putAll m i cs j = m j := by
  induction cs generalizing m i with
  | nil => rfl
  | cons c cs ih =>
    rw [List.length_cons] at after
    rw [putAll, ih (by omega), put_ne m c (by omega)]

theorem holds_putAll (m : Buffer) (i : ℕ) (cs : Text) : Holds (putAll m i cs) i cs := by
  induction cs generalizing m i with
  | nil => trivial
  | cons c cs ih =>
    refine ⟨?_, ih (put m i c) (i + 1)⟩
    rw [putAll, putAll_of_before cs (by omega), put_self]

/-- Reading a line that fits: the buffer holds it, and the two cells at the end do not report
a line too wide. -/
theorem fgets_of_line (m : Buffer) (line rest : Text) (room : line.length + 1 < maxLineLen)
    (noNewline : '\n' ∉ line) :
    ∃ m', fgets (put m (maxLineLen - 1) '*') (line ++ '\n' :: rest) = some (m', rest) ∧
      Holds m' 0 (line ++ ending) ∧
        ¬(m' (maxLineLen - 1) = nul ∧ m' (maxLineLen - 2) ≠ '\n') := by
  have holds := holds_putAll (put m (maxLineLen - 1) '*') 0 (line ++ ['\n'] ++ [nul])
  refine ⟨putAll (put m (maxLineLen - 1) '*') 0 (line ++ ['\n'] ++ [nul]), ?_, ?_, ?_⟩
  · rw [fgets, if_neg (by simp), takeLine_of_line line rest _ (by omega) noNewline]
  · have whole : line ++ ending = line ++ ['\n'] ++ [nul] := by simp [ending]
    rw [whole]
    exact holds
  · rintro ⟨wide, other⟩
    by_cases last : line.length + 2 = maxLineLen
    · -- the newline is in the last cell but one
      obtain ⟨newline, -⟩ := (holds_append.mp (holds_append.mp holds).1).2
      rw [show maxLineLen - 2 = 0 + line.length by omega] at other
      exact other newline
    · have untouched : putAll (put m (maxLineLen - 1) '*') 0 (line ++ ['\n'] ++ [nul])
          (maxLineLen - 1) = '*' := by
        rw [putAll_of_after _ (by simp only [List.length_append, List.length_singleton]; omega),
          put_self]
      rw [untouched] at wide
      cases wide

theorem csvParse_end (cb : Option (Callback σ)) (m : Buffer) (params : σ) :
    csvParse cb m [] params = .ok (0, params) := by
  rw [csvParse]
  rfl

theorem csvParse_turn (cb : Option (Callback σ)) {m m' : Buffer} {file rest : Text} (params : σ)
    (read : fgets (put m (maxLineLen - 1) '*') file = some (m', rest)) :
    csvParse cb m file params =
      if m' (maxLineLen - 1) = nul ∧ m' (maxLineLen - 2) ≠ '\n' then .ok (eLineTooWide, params)
      else match csvParseLine cb m' params with
        | .error fault => .error fault
        | .ok (r, m, params) =>
          if r = eQuotedString then .ok (eQuotedString, params)
          else if r ≠ 0 then .ok (0, params)
          else csvParse cb m rest params := by
  rw [csvParse]
  split
  · next nothing =>
    rw [read] at nothing
    cases nothing
  · next got rest' something =>
    rw [read] at something
    obtain ⟨rfl, rfl⟩ := Prod.mk.inj (Option.some.inj something)
    rfl

theorem csvParse_line (cb : Callback σ) (m : Buffer) (line rest : Text) (params : σ)
    (room : line.length + 1 < maxLineLen) (noNul : nul ∉ line) (noNewline : '\n' ∉ line)
    (few : (scan line).1.length ≤ maxColumnCount) :
    ∃ m', csvParse (some cb) m (line ++ '\n' :: rest) params =
      if (scan line).2 then
        if (cb params (scan line).1).2 = eQuotedString then
          .ok (eQuotedString, (cb params (scan line).1).1)
        else if (cb params (scan line).1).2 ≠ 0 then .ok (0, (cb params (scan line).1).1)
        else csvParse (some cb) m' rest (cb params (scan line).1).1
      else .ok (eQuotedString, params) := by
  obtain ⟨m', read, here, fits⟩ := fgets_of_line m line rest room noNewline
  obtain ⟨m'', parsed⟩ := csvParseLine_spec cb m' params line here (by omega) noNul noNewline few
  refine ⟨m'', ?_⟩
  rw [csvParse_turn (some cb) params read, if_neg fits, parsed]
  cases (scan line).2 <;> rfl

end ObjSearch.Csv.Reader
