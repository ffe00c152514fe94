/- Tables of records, written by the rules that the header of the reader states.
   digest: The reader gives back the table exactly when no field has a line break in it. -/

import ObjSearch.Csv.Reader

set_option autoImplicit false
set_option relaxedAutoImplicit false

namespace ObjSearch.Csv.Table

open List (Forall₂)
open ObjSearch.Lib.Texts
open ObjSearch.Csv.Parser
open ObjSearch.Csv.Scanner
open ObjSearch.Csv.Reader

/-- A quote within a field, escaped with an additional quote before it. -/
def escaped : Text → Text
  | [] => []
  | c :: f => if c = '"' then c :: c :: escaped f else c :: escaped f

/-- A field with a comma, a quote or a line break is written in quotes; any field may be. -/
inductive Writes : Text → Text → Prop where
  | bare (f : Text) (noComma : ',' ∉ f) (noQuote : '"' ∉ f) (noNewline : '\n' ∉ f) : Writes f f
  | quoted (f : Text) : Writes f ('"' :: (escaped f ++ ['"']))

def WritesRecord (r : List Text) (line : Text) : Prop :=
  ∃ texts, Forall₂ Writes r texts ∧ line = joined ',' texts ++ ['\n']

/-- One line after the other, each shorter than the buffer. -/
def WritesTable (records : List (List Text)) (file : Text) : Prop :=
  ∃ lines, Forall₂ (fun r line => WritesRecord r line ∧ line.length < maxLineLen) records lines ∧
    file = lines.flatten

def Regular (records : List (List Text)) : Prop :=
  ∀ r ∈ records, r ≠ [] ∧ r.length ≤ maxColumnCount ∧ ∀ f ∈ r, nul ∉ f

def keep : Callback (List (List Text)) := fun calls fields => (calls ++ [fields], 0)

/-- Whatever the buffer holds at first, the callback sees exactly these records, in this order,
and `csv_parse` returns 0. -/
def Delivers (file : Text) (records : List (List Text)) : Prop :=
  ∀ m, csvParse (some keep) m file [] = .ok (0, records)

theorem escaped_append (f g : Text) : escaped (f ++ g) = escaped f ++ escaped g := by
  induction f with
  | nil => rfl
  | cons c f ih =>
    by_cases quote : c = '"' <;> simp [escaped, quote, ih]

theorem mem_escaped {c : Char} {f : Text} : c ∈ escaped f ↔ c ∈ f := by
  induction f with
  | nil => rfl
  | cons d f ih =>
    by_cases quote : d = '"' <;> simp [escaped, quote, ih]

theorem Writes.mem {f t : Text} (h : Writes f t) {c : Char} (other : c ≠ '"') :
    c ∈ t ↔ c ∈ f := by
  cases h with
  | bare => rfl
  | quoted => simp [mem_escaped, other]

theorem scanFrom_escaped (field f rest : Text) :
    scanFrom .quoted field (escaped f ++ rest) = scanFrom .quoted (field ++ f) rest := by
  induction f generalizing field with
  | nil => simp [escaped]
  | cons c f ih =>
    by_cases quote : c = '"'
    · simp [escaped, quote, scanFrom, ih]
    · simp [escaped, quote, scanFrom, ih]

theorem scanFrom_bare (field f rest : Text) (noComma : ',' ∉ f) (noQuote : '"' ∉ f) :
    scanFrom .plain field (f ++ rest) = scanFrom .plain (field ++ f) rest := by
  induction f generalizing field with
  | nil => simp
  | cons c f ih =>
    rw [List.mem_cons, not_or] at noComma noQuote
    rw [List.cons_append, scanFrom, if_neg (Ne.symm noComma.1), if_neg (Ne.symm noQuote.1),
      ih _ noComma.2 noQuote.2]
    simp

theorem scan_written {f t : Text} (h : Writes f t) :
    scan t = ([f], true) ∧
      ∀ rest, scan (t ++ ',' :: rest) = (f :: (scan rest).1, (scan rest).2) := by
  cases h with
  | bare noComma noQuote =>
    refine ⟨?_, fun rest => ?_⟩
    · have whole := scanFrom_bare [] f [] noComma noQuote
      rw [List.append_nil] at whole
      exact whole
    · rw [scan, scanFrom_bare [] f _ noComma noQuote, scanFrom, if_pos rfl]
      rfl
  | quoted =>
    refine ⟨?_, fun rest => ?_⟩
    · rw [scan, scanFrom, if_neg (by decide), if_pos rfl, scanFrom_escaped]
      rfl
    · rw [scan, List.cons_append, scanFrom, if_neg (by decide), if_pos rfl, List.append_assoc,
        scanFrom_escaped]
      rfl

theorem scan_record {r texts : List Text} (written : Forall₂ Writes r texts) (notEmpty : r ≠ []) :
    scan (joined ',' texts) = (r, true) := by
  induction written with
  | nil => exact absurd rfl notEmpty
  | cons first rest ih =>
    cases rest with
    | nil => exact (scan_written first).1
    | cons second rest =>
      have tail := ih (List.cons_ne_nil _ _)
      rw [joined_cons, (scan_written first).2, tail]

theorem mem_joined {r texts : List Text} (written : Forall₂ Writes r texts) {c : Char}
    (notQuote : c ≠ '"') (notComma : c ≠ ',') (absent : ∀ f ∈ r, c ∉ f) :
    c ∉ joined ',' texts := by
  apply not_mem_joined notComma
  intro t ht here
  induction written with
  | nil => cases ht
  | cons first rest ih =>
    rcases List.mem_cons.mp ht with rfl | later
    · exact absent _ List.mem_cons_self ((first.mem notQuote).mp here)
    · exact ih (fun f hf => absent f (.tail _ hf)) later

/-- A field with a line break in it is cut at its first line break, inside its quotes. -/
theorem scan_cut {f t : Text} (h : Writes f t) (broken : '\n' ∈ f) :
    ∃ pre post, t = pre ++ '\n' :: post ∧ '\n' ∉ pre ∧ (scan pre).2 = false ∧
      (scan pre).1.length = 1 := by
  cases h with
  | bare _ _ noNewline => exact absurd broken noNewline
  | quoted =>
    obtain ⟨g, k, rfl, noNewline⟩ := List.eq_append_cons_of_mem broken
    have scanned : scan ('"' :: escaped g) = ([g], false) := by
      have quoted := scanFrom_escaped [] g []
      rw [List.append_nil] at quoted
      rw [scan, scanFrom, if_neg (by decide), if_pos rfl, quoted]
      rfl
    refine ⟨'"' :: escaped g, escaped k ++ ['"'], ?_, ?_, by rw [scanned], by rw [scanned]; rfl⟩
    · simp [escaped_append, escaped]
    · rw [List.mem_cons, mem_escaped, not_or]
      exact ⟨by decide, noNewline⟩

theorem scan_cut_record {r texts : List Text} (written : Forall₂ Writes r texts)
    (broken : ∃ f ∈ r, '\n' ∈ f) :
    ∃ pre post, joined ',' texts = pre ++ '\n' :: post ∧ '\n' ∉ pre ∧ (scan pre).2 = false ∧
      (scan pre).1.length ≤ r.length := by
  induction written with
  | nil =>
    obtain ⟨f, hf, -⟩ := broken
    cases hf
  | @cons f t r texts first rest ih =>
    by_cases here : '\n' ∈ f
    · obtain ⟨pre, post, rfl, noNewline, failed, one⟩ := scan_cut first here
      have tail : ∃ post', joined ',' ((pre ++ '\n' :: post) :: texts) = pre ++ '\n' :: post' := by
        cases rest with
        | nil => exact ⟨post, rfl⟩
        | @cons _ u _ us => exact ⟨post ++ ',' :: joined ',' (u :: us), by simp [joined_cons]⟩
      obtain ⟨post', split⟩ := tail
      exact ⟨pre, post', split, noNewline, failed, by rw [one, List.length_cons]; omega⟩
    · have later : ∃ g ∈ r, '\n' ∈ g := by
        obtain ⟨g, hg, inside⟩ := broken
        rcases List.mem_cons.mp hg with rfl | tail
        · exact absurd inside here
        · exact ⟨g, tail, inside⟩
      obtain ⟨pre, post, split, noNewline, failed, few⟩ := ih later
      have noNewline' : '\n' ∉ t := fun inside => here ((first.mem (by decide)).mp inside)
      have scanned := (scan_written first).2 pre
      cases rest with
      | nil =>
        obtain ⟨g, hg, -⟩ := later
        cases hg
      | @cons _ u _ us second rest =>
        refine ⟨t ++ ',' :: pre, post, ?_, ?_, by rw [scanned, failed], ?_⟩
        · rw [joined_cons, split]
          simp
        · simp [noNewline, noNewline']
        · rw [scanned, List.length_cons, List.length_cons]
          omega

theorem csvParse_intact {records : List (List Text)} {lines : List Text}
    (written : Forall₂ (fun r line => WritesRecord r line ∧ line.length < maxLineLen) records lines)
    (regular : Regular records) (intact : ∀ r ∈ records, ∀ f ∈ r, '\n' ∉ f) (m : Buffer)
    (calls : List (List Text)) :
    csvParse (some keep) m lines.flatten calls = .ok (0, calls ++ records) := by
  induction written generalizing m calls with
  | nil =>
    rw [csvParse, List.append_nil]
    rfl
  | @cons r line records lines first _ ih =>
    obtain ⟨⟨texts, fields, rfl⟩, short⟩ := first
    obtain ⟨notEmpty, few, noNul⟩ := regular r List.mem_cons_self
    rw [List.length_append, List.length_singleton] at short
    have scanned := scan_record fields notEmpty
    obtain ⟨m', turn⟩ := csvParse_line keep m (joined ',' texts) lines.flatten calls short
      (mem_joined fields (by decide) (by decide) noNul)
      (mem_joined fields (by decide) (by decide) (intact r List.mem_cons_self))
      (by rw [scanned]; exact few)
    have rest := ih (fun r hr => regular r (.tail _ hr)) (fun r hr => intact r (.tail _ hr)) m'
      (calls ++ [r])
    rw [List.flatten_cons, List.append_assoc, List.singleton_append, turn, scanned]
    rw [List.append_assoc] at rest
    exact rest

theorem csvParse_broken {records : List (List Text)} {lines : List Text}
    (written : Forall₂ (fun r line => WritesRecord r line ∧ line.length < maxLineLen) records lines)
    (regular : Regular records) (broken : ∃ r ∈ records, ∃ f ∈ r, '\n' ∈ f) (m : Buffer)
    (calls : List (List Text)) :
    ∃ calls', csvParse (some keep) m lines.flatten calls = .ok (eQuotedString, calls') := by
  induction written generalizing m calls with
  | nil =>
    obtain ⟨r, hr, -⟩ := broken
    cases hr
  | @cons r line records lines first _ ih =>
    obtain ⟨⟨texts, fields, rfl⟩, short⟩ := first
    obtain ⟨notEmpty, few, noNul⟩ := regular r List.mem_cons_self
    have clean := mem_joined fields (by decide) (by decide) noNul
    rw [List.length_append, List.length_singleton] at short
    rw [List.flatten_cons, List.append_assoc, List.singleton_append]
    by_cases here : ∃ f ∈ r, '\n' ∈ f
    · obtain ⟨pre, post, split, noNewline, failed, fewer⟩ := scan_cut_record fields here
      rw [split] at short clean ⊢
      rw [List.length_append, List.length_cons] at short
      obtain ⟨m', turn⟩ := csvParse_line keep m pre (post ++ '\n' :: lines.flatten) calls
        (by omega) (fun inside => clean (List.mem_append_left _ inside)) noNewline
        (le_trans fewer few)
      refine ⟨calls, ?_⟩
      rw [List.append_assoc, List.cons_append, turn, failed]
      rfl
    · have scanned := scan_record fields notEmpty
      have intact : ∀ f ∈ r, '\n' ∉ f := fun f hf inside => here ⟨f, hf, inside⟩
      obtain ⟨m', turn⟩ := csvParse_line keep m (joined ',' texts) lines.flatten calls short clean
        (mem_joined fields (by decide) (by decide) intact) (by rw [scanned]; exact few)
      have later : ∃ r ∈ records, ∃ f ∈ r, '\n' ∈ f := by
        obtain ⟨r', hr', f, hf, inside⟩ := broken
        rcases List.mem_cons.mp hr' with rfl | tail
        · exact absurd inside (intact f hf)
        · exact ⟨r', tail, f, hf, inside⟩
      obtain ⟨calls', rest⟩ := ih (fun r hr => regular r (.tail _ hr)) later m' (calls ++ [r])
      refine ⟨calls', ?_⟩
      rw [turn, scanned]
      exact rest

/-- The reader gives back a table written by the rules if and only if no field has a line break
in it. -/
theorem delivers_iff (records : List (List Text)) (file : Text)
    (written : WritesTable records file) (regular : Regular records) :
    Delivers file records ↔ ∀ r ∈ records, ∀ f ∈ r, '\n' ∉ f := by
  obtain ⟨lines, each, rfl⟩ := written
  constructor
  · intro delivers r hr f hf inside
    obtain ⟨calls, failed⟩ := csvParse_broken each regular ⟨r, hr, f, hf, inside⟩ (fun _ => nul) []
    rw [delivers] at failed
    cases failed
  · intro intact m
    exact csvParse_intact each regular intact m []

theorem writesTable_single {f t : Text} (h : Writes f t) (short : t.length + 1 < maxLineLen) :
    WritesTable [[f]] (t ++ ['\n']) :=
  ⟨[t ++ ['\n']], .cons ⟨⟨[t], .cons h .nil, rfl⟩, by simpa using short⟩ .nil, by simp⟩

theorem delivers_iff_oneQuotedComma :
    Delivers "\"a,b\"\n".toList [["a,b".toList]] ↔
      ∀ r ∈ [["a,b".toList]], ∀ f ∈ r, '\n' ∉ f :=
  delivers_iff _ _ (writesTable_single (.quoted "a,b".toList) (by decide)) (by
    unfold Regular
    decide)

/-- A single field with a line break: the line ends within its quotes, which is an error. -/
theorem oneLineBreak_is_not_delivered :
    WritesTable [["a\nb".toList]] "\"a\nb\"\n".toList ∧ Regular [["a\nb".toList]] ∧
      ¬Delivers "\"a\nb\"\n".toList [["a\nb".toList]] := by
  refine ⟨writesTable_single (.quoted "a\nb".toList) (by decide), by unfold Regular; decide, ?_⟩
  intro delivers
  obtain ⟨m', turn⟩ := csvParse_line keep (fun _ => nul) "\"a".toList "b\"\n".toList []
    (by decide) (by decide) (by decide) (by decide)
  have result := (delivers (fun _ => nul)).symm.trans turn
  cases result

end ObjSearch.Csv.Table
