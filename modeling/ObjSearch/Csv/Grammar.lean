/- The lines that the parser accepts, as a grammar.
   digest: A line is a list of fields between commas, each a bare text with at most one quoted
   section behind it; the parser accepts these lines and no others. -/

import ObjSearch.Csv.Checked
import ObjSearch.Csv.Table

set_option autoImplicit false
set_option relaxedAutoImplicit false

namespace ObjSearch.Csv.Grammar

open ObjSearch.Lib.Texts (Text)
open ObjSearch.Lib.Cells
open ObjSearch.Csv.Parser
open ObjSearch.Csv.Scanner
open ObjSearch.Csv.Reader
open ObjSearch.Csv.Table
open ObjSearch.Csv.Checked

inductive Field : Text → Text → Prop where
  | bare (t : Text) (noComma : ',' ∉ t) (noQuote : '"' ∉ t) : Field t t
  | quoted (t f blanks : Text) (noComma : ',' ∉ t) (noQuote : '"' ∉ t)
      (blank : ∀ c ∈ blanks, isBlank c) :
      Field (t ++ '"' :: (escaped f ++ '"' :: blanks)) (t ++ f)

inductive Line : Text → List Text → Prop where
  | last {t f : Text} (field : Field t f) : Line t [f]
  | next {t f rest : Text} {fields : List Text} (field : Field t f) (others : Line rest fields) :
      Line (t ++ ',' :: rest) (f :: fields)

/-- The part of a field that the scanner has read, by its mode, and what that part stands for. -/
inductive Begun : Mode → Text → Text → Prop where
  | plain (t : Text) (noComma : ',' ∉ t) (noQuote : '"' ∉ t) : Begun .plain t t
  | quoted (t f : Text) (noComma : ',' ∉ t) (noQuote : '"' ∉ t) :
      Begun .quoted (t ++ f) (t ++ '"' :: escaped f)
  | closing (t f : Text) (noComma : ',' ∉ t) (noQuote : '"' ∉ t) :
      Begun .closing (t ++ f) (t ++ '"' :: (escaped f ++ ['"']))
  | blanks (t f blanks : Text) (noComma : ',' ∉ t) (noQuote : '"' ∉ t)
      (blank : ∀ c ∈ blanks, isBlank c) :
      Begun .blanks (t ++ f) (t ++ '"' :: (escaped f ++ '"' :: blanks))

theorem scanFrom_section (f blanks rest : Text) (blank : ∀ c ∈ blanks, isBlank c)
    (stop : rest = [] ∨ ∃ r, rest = ',' :: r) :
    scanFrom .closing f (blanks ++ rest) = scanFrom .blanks f rest := by
  have skipped : scanFrom .blanks f (blanks ++ rest) = scanFrom .blanks f rest := by
    induction blanks with
    | nil => rfl
    | cons c blanks ih =>
      have here : isBlank c = true := blank c List.mem_cons_self
      have notComma : c ≠ ',' := by
        rintro rfl
        cases here
      rw [List.cons_append, scanFrom, if_neg notComma, if_pos here]
      exact ih fun d hd => blank d (List.mem_cons_of_mem c hd)
  cases blanks with
  | nil =>
    rcases stop with rfl | ⟨r, rfl⟩
    · rfl
    · rfl
  | cons c blanks =>
    have here : isBlank c = true := blank c List.mem_cons_self
    have notComma : c ≠ ',' := by
      rintro rfl
      cases here
    have notQuote : c ≠ '"' := by
      rintro rfl
      cases here
    rw [← skipped, List.cons_append, scanFrom, if_neg notQuote, if_neg notComma, if_pos here,
      scanFrom, if_neg notComma, if_pos here]

theorem scan_field {t f : Text} (h : Field t f) :
    scan t = ([f], true) ∧
      ∀ rest, scan (t ++ ',' :: rest) = (f :: (scan rest).1, (scan rest).2) := by
  cases h with
  | bare _ noComma noQuote =>
    constructor
    · have whole := scanFrom_bare [] t [] noComma noQuote
      rw [List.append_nil] at whole
      exact whole
    · intro rest
      rw [scan, scanFrom_bare [] t _ noComma noQuote]
      rfl
  | quoted t f blanks noComma noQuote blank =>
    have opened (rest : Text) : scan (t ++ '"' :: (escaped f ++ '"' :: (blanks ++ rest))) =
        scanFrom .closing (t ++ f) (blanks ++ rest) := by
      rw [scan, scanFrom_bare [] t _ noComma noQuote, List.nil_append, scanFrom,
        if_neg (by decide), if_pos rfl, scanFrom_escaped, scanFrom, if_pos rfl]
    constructor
    · have whole := opened []
      rw [scanFrom_section _ _ _ blank (.inl rfl), List.append_nil] at whole
      exact whole
    · intro rest
      have whole := opened (',' :: rest)
      rw [scanFrom_section _ _ _ blank (.inr ⟨rest, rfl⟩)] at whole
      simp only [List.append_assoc, List.cons_append]
      exact whole

theorem scan_of_line {line : Text} {fields : List Text} (h : Line line fields) :
    scan line = (fields, true) := by
  induction h with
  | last field => exact (scan_field field).1
  | next field _ ih => rw [(scan_field field).2, ih]

theorem line_of_comma {t f cs : Text} {fields : List Text} (field : Field t f)
    (others : ∀ fields, scan cs = (fields, true) → Line cs fields)
    (scanned : (f :: (scan cs).1, (scan cs).2) = (fields, true)) : Line (t ++ ',' :: cs) fields := by
  obtain ⟨rfl, ok⟩ := Prod.mk.inj scanned
  exact .next field (others _ (Prod.ext rfl ok))

theorem Begun.line {mode : Mode} {field begun cs : Text} {fields : List Text}
    (h : Begun mode field begun) (scanned : scanFrom mode field cs = (fields, true)) :
    Line (begun ++ cs) fields := by
  induction cs generalizing mode field begun fields with
  | nil =>
    rw [List.append_nil]
    cases h with
    | plain t noComma noQuote =>
      obtain ⟨rfl, -⟩ := Prod.mk.inj scanned
      exact .last (.bare field noComma noQuote)
    | quoted t f noComma noQuote => simp [scanFrom] at scanned
    | closing t f noComma noQuote =>
      obtain ⟨rfl, -⟩ := Prod.mk.inj scanned
      exact .last (.quoted t f [] noComma noQuote (by simp))
    | blanks t f blanks noComma noQuote blank =>
      obtain ⟨rfl, -⟩ := Prod.mk.inj scanned
      exact .last (.quoted t f blanks noComma noQuote blank)
  | cons c cs ih =>
    have others : ∀ fields, scan cs = (fields, true) → Line cs fields := by
      intro fields ok
      exact ih (.plain [] (by simp) (by simp)) ok
    -- each character takes what is begun to what is begun with it, or ends the field
    cases h with
    | plain t noComma noQuote =>
      rw [scanFrom] at scanned
      split_ifs at scanned with comma quote
      · subst comma
        exact line_of_comma (.bare field noComma noQuote) others scanned
      · subst quote
        have opened : Begun .quoted (field ++ []) (field ++ ['"']) :=
          .quoted field [] noComma noQuote
        rw [← List.append_nil field] at scanned
        have whole := ih opened scanned
        rwa [List.append_assoc] at whole
      · have longer : Begun .plain (field ++ [c]) (field ++ [c]) := by
          refine .plain _ ?_ ?_
          · simp [noComma, Ne.symm comma]
          · simp [noQuote, Ne.symm quote]
        have whole := ih longer scanned
        rwa [List.append_assoc] at whole
    | quoted t f noComma noQuote =>
      rw [scanFrom] at scanned
      split_ifs at scanned with quote
      · subst quote
        have whole := ih (.closing t f noComma noQuote) scanned
        simpa using whole
      · rw [List.append_assoc] at scanned
        have whole := ih (.quoted t (f ++ [c]) noComma noQuote) scanned
        simpa [escaped_append, escaped, quote] using whole
    | closing t f noComma noQuote =>
      rw [scanFrom] at scanned
      split_ifs at scanned with quote comma blank
      · subst quote
        rw [List.append_assoc] at scanned
        have whole := ih (.quoted t (f ++ ['"']) noComma noQuote) scanned
        simpa [escaped_append, escaped] using whole
      · subst comma
        exact line_of_comma (.quoted t f [] noComma noQuote (by simp)) others scanned
      · have whole := ih (.blanks t f [c] noComma noQuote (by simpa using blank)) scanned
        simpa using whole
      · simp at scanned
    | blanks t f blanks noComma noQuote blank =>
      rw [scanFrom] at scanned
      split_ifs at scanned with comma here
      · subst comma
        exact line_of_comma (.quoted t f blanks noComma noQuote blank) others scanned
      · have more : ∀ d ∈ blanks ++ [c], isBlank d := by
          intro d hd
          rcases List.mem_append.mp hd with old | new
          · exact blank d old
          · exact List.mem_singleton.mp new ▸ here
        have whole := ih (.blanks t f (blanks ++ [c]) noComma noQuote more) scanned
        simpa using whole
      · simp at scanned

/-- The scanner reads exactly the lines of the grammar. -/
theorem scan_iff_line (line : Text) (fields : List Text) :
    scan line = (fields, true) ↔ Line line fields :=
  ⟨fun scanned => (Begun.plain [] (by simp) (by simp)).line scanned, scan_of_line⟩

/-- A line of the grammar goes to the callback with its fields, any other line is an error
without a call; in either case every access to the buffer passes its check. -/
theorem csvParseLine_grammar {σ : Type} (cb : Callback σ) (m : Buffer) (params : σ) (line : Text)
    (here : Holds m 0 (line ++ ending)) (room : line.length + 2 ≤ maxLineLen) (noNul : nul ∉ line)
    (noNewline : '\n' ∉ line) (few : (scan line).1.length ≤ maxColumnCount) :
    ∃ code m' params', csvParseLineChecked (line.length + 1) (some cb) m params =
        .ok (code, m', params') ∧
      csvParseLine (some cb) m params = .ok (code, m', params') ∧
      (∀ fields, Line line fields → (params', code) = cb params fields) ∧
      ((∀ fields, ¬Line line fields) → (params', code) = (params, eQuotedString)) := by
  obtain ⟨m', checked, plain⟩ := csvParseLineChecked_spec cb m params line here room noNul
    noNewline few
  cases ok : (scan line).2 with
  | true =>
    rw [ok, if_pos rfl] at checked plain
    refine ⟨_, m', _, checked, plain, ?_, ?_⟩
    · intro fields isLine
      rw [scan_of_line isLine]
    · intro none
      exact absurd ((scan_iff_line line _).mp (Prod.ext rfl ok)) (none _)
  | false =>
    rw [ok, if_neg (by decide)] at checked plain
    refine ⟨_, m', _, checked, plain, ?_, fun _ => rfl⟩
    intro fields isLine
    rw [scan_of_line isLine] at ok
    cases ok

def bufferOf (line : Text) : Buffer := putAll (fun _ => '?') 0 (line ++ ending)

def quotedSection : Text := "a\"b\"\"c\" ,d".toList

theorem csvParseLine_grammar_quotedSection :
    ∃ code m' params', csvParseLineChecked (quotedSection.length + 1) (some keep)
        (bufferOf quotedSection) [] = .ok (code, m', params') ∧
      csvParseLine (some keep) (bufferOf quotedSection) [] = .ok (code, m', params') ∧
      (∀ fields, Line quotedSection fields → (params', code) = keep [] fields) ∧
      ((∀ fields, ¬Line quotedSection fields) → (params', code) = ([], eQuotedString)) :=
  csvParseLine_grammar keep (bufferOf quotedSection) [] quotedSection
    (holds_putAll _ 0 _) (by decide) (by decide) (by decide) (by decide)

/-- A callback may return the code of an ill-quoted line, and the line is a good one. -/
theorem csvParseLine_returns_the_callbacks_code :
    Line "a".toList ["a".toList] ∧ (scan "a".toList).2 = true ∧
      ∃ m', csvParseLine (some fun (calls : ℕ) _ => (calls + 1, eQuotedString))
        (bufferOf "a".toList) 0 = .ok (eQuotedString, m', 1) := by
  refine ⟨.last (.bare _ (by decide) (by decide)), by decide, ?_⟩
  obtain ⟨m', parsed⟩ := csvParseLine_spec (fun (calls : ℕ) _ => (calls + 1, eQuotedString))
    (bufferOf "a".toList) 0 "a".toList (holds_putAll _ 0 _) (by decide) (by decide)
    (by decide) (by decide)
  exact ⟨m', parsed⟩

end ObjSearch.Csv.Grammar
