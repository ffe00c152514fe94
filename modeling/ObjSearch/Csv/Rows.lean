/- A table that is imported: what the rows become, and what the progress dialog is told.
   digest: The accepted rows before the first line that cannot be read are sent, in order; and of a
   table whose sources are new and come one after the other, every row with a name is stored. -/

import ObjSearch.Csv.Import
import ObjSearch.Csv.Lines
import ObjSearch.Index.Blocks

set_option autoImplicit false
set_option relaxedAutoImplicit false

namespace ObjSearch.Csv.Rows

open List (Forall₂)
open ObjSearch.Lib.Texts
open ObjSearch.Lib.Doubles
open ObjSearch.Lib.Strtod
open ObjSearch.Csv.Parser
open ObjSearch.Csv.Scanner
open ObjSearch.Csv.Reader
open ObjSearch.Csv.Table
open ObjSearch.Csv.Lines
open ObjSearch.Csv.Import
open ObjSearch.Index.Storage
open ObjSearch.Index.Notify (Notification wrapped offMap)
open ObjSearch.Index.Effect
open ObjSearch.Index.Session
open ObjSearch.Index.Queueing (posixName)
open ObjSearch.Index.History
open ObjSearch.Index.OneSession (namesAt)
open ObjSearch.Index.Blocks

/-- `std::count` of the line feeds, the maximum of the progress dialog. -/
def linecount (file : Text) : ℕ := file.count '\n'

variable (fromUTF8 : Text → Text)

/-- The import of `OnOk`: the form after `csv_parse`, before `m_iProcessed` is reset. -/
def importFile (m : Buffer) (file : Text) : Except Fault (ℤ × Form) :=
  csvParse (some (processCsvLine fromUTF8)) m file ⟨0, [], []⟩

instance (cv : List Text) : Decidable (Accepted fromUTF8 cv) := by
  unfold Accepted
  infer_instance

def sentOf (cv : List Text) : Sent where
  chart := fromUTF8 (cv.getD 4 [])
  feature := fromUTF8 (cv.getD 3 [])
  objname := fromUTF8 (cv.getD 2 [])
  lat := (strtod (cv.getD 0 [])).1
  lon := (strtod (cv.getD 1 [])).1
  scale := if 7 ≤ cv.length then (strtod (cv.getD 6 [])).1 else .finite 0
  nativescale := (if 6 ≤ cv.length then strtol (cv.getD 5 []) else -1).bmod (2 ^ 32)

def sentBy (records : List (List Text)) : List Sent :=
  (records.filter (fun cv => Accepted fromUTF8 cv)).map (sentOf fromUTF8)

/-- The form after so many objects: the progress dialog gets every tenth number. -/
def formOf (sent : List Sent) : Form where
  processed := sent.length
  sent := sent
  progress := (List.range (sent.length / 10)).map (fun i => 10 * (i + 1))

variable {fromUTF8}

theorem formOf_concat (sent : List Sent) (x : Sent) :
    formOf (sent ++ [x]) = ⟨sent.length + 1, sent ++ [x],
      if (sent.length + 1) % 10 = 0 then (formOf sent).progress ++ [sent.length + 1]
      else (formOf sent).progress⟩ := by
  rw [formOf, formOf, List.length_append, List.length_singleton]
  by_cases tenth : (sent.length + 1) % 10 = 0
  · rw [if_pos tenth, show (sent.length + 1) / 10 = sent.length / 10 + 1 by omega, List.range_succ,
      List.map_append, List.map_singleton, show 10 * (sent.length / 10 + 1) = sent.length + 1 by omega]
  · rw [if_neg tenth, show (sent.length + 1) / 10 = sent.length / 10 by omega]

theorem processCsvLine_formOf (sent : List Sent) (cv : List Text) :
    processCsvLine fromUTF8 (formOf sent) cv =
      (formOf (sent ++ if Accepted fromUTF8 cv then [sentOf fromUTF8 cv] else []), 0) := by
  by_cases h : Accepted fromUTF8 cv
  · rw [if_pos h, formOf_concat]
    obtain ⟨columns, north, east, name, feature, source⟩ := h
    unfold processCsvLine
    simp only [if_neg (not_lt.mpr columns), if_pos columns, if_pos (show 1 ≤ cv.length by omega),
      if_pos (show 2 ≤ cv.length by omega), if_pos (show 3 ≤ cv.length by omega),
      if_pos (show 4 ≤ cv.length by omega)]
    rw [if_pos ⟨north, east, name, feature, source⟩]
    rfl
  · rw [if_neg h, List.append_nil, processCsvLine_rejected h]

theorem sentBy_cons (cv : List Text) (records : List (List Text)) :
    sentBy fromUTF8 (cv :: records) =
      (if Accepted fromUTF8 cv then [sentOf fromUTF8 cv] else []) ++ sentBy fromUTF8 records := by
  unfold sentBy
  rw [List.filter_cons]
  by_cases h : Accepted fromUTF8 cv <;> simp [h]

theorem length_sentBy_le (records : List (List Text)) :
    (sentBy fromUTF8 records).length ≤ records.length := by
  rw [sentBy, List.length_map]
  exact List.length_filter_le _ _

/-! Whole files. -/

def fieldsOf (line : Text) : Option (List Text) :=
  if Fits line then
    match lineAlone line with
    | .ok (_, [fields]) => some fields
    | _ => none
  else none

def rowsOf : List Text → List (List Text)
  | [] => []
  | line :: lines =>
    match fieldsOf line with
    | some fields => fields :: rowsOf lines
    | none => []

def codeOf : List Text → ℤ
  | [] => 0
  | line :: lines =>
    match fieldsOf line with
    | some _ => codeOf lines
    | none => if Fits line then eQuotedString else eLineTooWide

theorem fieldsOf_eq {line : Text} (noNul : nul ∉ line) (noNewline : '\n' ∉ line)
    (few : (scan line).1.length ≤ maxColumnCount) :
    fieldsOf line = if Fits line ∧ (scan line).2 then some (scan line).1 else none := by
  unfold fieldsOf
  by_cases fits : Fits line
  · rw [if_pos fits, lineAlone_eq fits noNul noNewline few]
    cases good : (scan line).2 with
    | true => rw [if_pos rfl, if_pos ⟨fits, rfl⟩]
    | false => rw [if_neg (by decide), if_neg (by simp)]
  · rw [if_neg fits, if_neg (fun both => fits both.1)]

theorem ended_rest {line rest : Text}
    (ended : line ++ '\n' :: rest = [] ∨ (line ++ '\n' :: rest).getLast? = some '\n') :
    rest = [] ∨ rest.getLast? = some '\n' := by
  by_cases empty : rest = []
  · exact .inl empty
  · refine .inr ?_
    rcases ended with none | newline
    · simp at none
    · rwa [List.getLast?_append_of_ne_nil _ (by simp), List.getLast?_cons_of_ne_nil empty]
        at newline

theorem csvParse_rowsOf (m : Buffer) (file : Text) (sent : List Sent) (noNul : nul ∉ file)
    (ended : file = [] ∨ file.getLast? = some '\n')
    (few : ∀ line ∈ linesOf file, (scan line).1.length ≤ maxColumnCount) :
    csvParse (some (processCsvLine fromUTF8)) m file (formOf sent) =
      .ok (codeOf (linesOf file), formOf (sent ++ sentBy fromUTF8 (rowsOf (linesOf file)))) := by
  induction file using lines_induction generalizing m sent with
  | last line noNewline =>
    have empty : line = [] :=
      ended.resolve_right fun newline => noNewline (List.mem_of_getLast? newline)
    subst empty
    rw [csvParse_end, linesOf, codeOf, rowsOf, sentBy, List.filter_nil, List.map_nil,
      List.append_nil]
  | line line rest noNewline ih =>
    rw [linesOf_line line rest noNewline] at few ⊢
    have noNul' : nul ∉ line := fun here => noNul (List.mem_append_left _ here)
    have fewHere := few line List.mem_cons_self
    have fields := fieldsOf_eq noNul' noNewline fewHere
    by_cases fits : Fits line
    · obtain ⟨m', parsed⟩ := csvParse_line (processCsvLine fromUTF8) m line rest (formOf sent) fits
        noNul' noNewline fewHere
      rw [parsed, processCsvLine_formOf, if_neg (show (0 : ℤ) ≠ eQuotedString by decide),
        if_neg (show ¬(0 : ℤ) ≠ 0 by decide)]
      cases good : (scan line).2 with
      | false =>
        rw [good, if_neg (by simp)] at fields
        rw [codeOf, rowsOf, fields, if_neg (by decide)]
        simp [fits, sentBy]
      | true =>
        rw [good, if_pos ⟨fits, rfl⟩] at fields
        rw [if_pos rfl, codeOf, rowsOf, fields, sentBy_cons, ← List.append_assoc]
        exact ih m' _ (fun here => noNul (by simp [here])) (ended_rest ended)
          fun l hl => few l (List.mem_cons_of_mem _ hl)
    · rw [if_neg (fun both => fits both.1)] at fields
      rw [csvParse_wide _ m line rest _ fits noNewline, codeOf, rowsOf, fields]
      simp [fits, sentBy]

theorem length_rowsOf_le (lines : List Text) : (rowsOf lines).length ≤ lines.length := by
  induction lines with
  | nil => exact le_rfl
  | cons line lines ih =>
    rw [rowsOf]
    cases fieldsOf line with
    | none => exact Nat.zero_le _
    | some fields => simpa using ih

theorem length_linesOf {file : Text} (ended : file = [] ∨ file.getLast? = some '\n') :
    (linesOf file).length = linecount file := by
  induction file using lines_induction with
  | last line noNewline =>
    have empty : line = [] :=
      ended.resolve_right fun newline => noNewline (List.mem_of_getLast? newline)
    subst empty
    rfl
  | line line rest noNewline ih =>
    rw [linesOf_line line rest noNewline, List.length_cons, ih (ended_rest ended), linecount,
      linecount, List.count_append, List.count_cons_self, List.count_eq_zero.mpr noNewline]
    omega

/-- Of any file that ends in a line feed, the accepted rows before the first line that is too wide
or ill-quoted are sent, in order; the progress dialog is told every tenth of them, and never a
number above its maximum. -/
theorem importFile_reads (m : Buffer) (file : Text) (noNul : nul ∉ file)
    (ended : file = [] ∨ file.getLast? = some '\n')
    (few : ∀ line ∈ linesOf file, (scan line).1.length ≤ maxColumnCount) :
    ∃ form, importFile fromUTF8 m file = .ok (codeOf (linesOf file), form) ∧
      form.sent = sentBy fromUTF8 (rowsOf (linesOf file)) ∧ form.processed = form.sent.length ∧
      form.progress = (List.range (form.processed / 10)).map (fun i => 10 * (i + 1)) ∧
      ∀ value ∈ form.progress, value ≤ linecount file := by
  have parsed := @csvParse_rowsOf fromUTF8 m file [] noNul ended few
  refine ⟨formOf (sentBy fromUTF8 (rowsOf (linesOf file))), parsed, rfl, rfl, rfl, ?_⟩
  intro value told
  have sent := @length_sentBy_le fromUTF8 (rowsOf (linesOf file))
  have rows := length_rowsOf_le (linesOf file)
  rw [length_linesOf ended] at rows
  obtain ⟨i, below, rfl⟩ := List.mem_map.mp told
  have below := List.mem_range.mp below
  show 10 * (i + 1) ≤ linecount file
  change i < (sentBy fromUTF8 (rowsOf (linesOf file))).length / 10 at below
  omega

def illQuotedEnd : Text :=
  "Lat,Lon,Object name,Feature name,Source\n10,20,First,LIGHTS,A\n11,21,\"Second\"x,LIGHTS,A\n".toList

theorem importFile_reads_illQuotedEnd :
    ∃ form, importFile id (fun _ => '?') illQuotedEnd = .ok (codeOf (linesOf illQuotedEnd), form) ∧
      form.sent = sentBy id (rowsOf (linesOf illQuotedEnd)) ∧
      form.processed = form.sent.length ∧
      form.progress = (List.range (form.processed / 10)).map (fun i => 10 * (i + 1)) ∧
      ∀ value ∈ form.progress, value ≤ linecount illQuotedEnd :=
  importFile_reads (fun _ => '?') illQuotedEnd (by decide) (by decide) (by decide)

/-! Tables. -/

structure Taken (r : List Text) (line : Text) : Prop where
  fits : Fits line
  noNul : nul ∉ line
  noNewline : '\n' ∉ line
  scanned : scan line = (r, true)
  few : r.length ≤ maxColumnCount

theorem taken_of_written {r : List Text} {line : Text} (written : WritesRecord r line)
    (short : line.length < maxLineLen)
    (regular : r ≠ [] ∧ r.length ≤ maxColumnCount ∧ ∀ f ∈ r, nul ∉ f)
    (intact : ∀ f ∈ r, '\n' ∉ f) : ∃ l, line = l ++ ['\n'] ∧ Taken r l := by
  obtain ⟨texts, fields, rfl⟩ := written
  obtain ⟨notEmpty, few, noNul⟩ := regular
  rw [List.length_append, List.length_singleton] at short
  exact ⟨joined ',' texts, rfl, short, mem_joined fields (by decide) (by decide) noNul,
    mem_joined fields (by decide) (by decide) intact, scan_record fields notEmpty, few⟩

/-- A table without line breaks in its fields has one line for each record. -/
theorem taken_table {records : List (List Text)} {lines : List Text}
    (written : Forall₂ (fun r line => WritesRecord r line ∧ line.length < maxLineLen) records lines)
    (regular : Regular records) (intact : ∀ r ∈ records, ∀ f ∈ r, '\n' ∉ f) :
    ∃ ls, linesOf lines.flatten = ls ∧ Forall₂ Taken records ls ∧ nul ∉ lines.flatten ∧
      (lines.flatten = [] ∨ lines.flatten.getLast? = some '\n') := by
  induction written with
  | nil => exact ⟨[], rfl, .nil, List.not_mem_nil, .inl rfl⟩
  | @cons r line records lines first _ ih =>
    obtain ⟨ls, split, taken, noNul, ended⟩ := ih (fun r hr => regular r (.tail _ hr))
      fun r hr => intact r (.tail _ hr)
    obtain ⟨l, rfl, here⟩ := taken_of_written first.1 first.2 (regular r List.mem_cons_self)
      (intact r List.mem_cons_self)
    rw [List.flatten_cons, List.append_assoc, List.singleton_append]
    refine ⟨l :: ls, ?_, .cons here taken, ?_, .inr ?_⟩
    · rw [linesOf_line l _ here.noNewline, split]
    · rw [List.mem_append, List.mem_cons, not_or, not_or]
      exact ⟨here.noNul, by decide, noNul⟩
    · rw [List.getLast?_append_of_ne_nil _ (by simp)]
      rcases ended with empty | newline
      · rw [empty]
        rfl
      · rw [List.getLast?_cons_of_ne_nil, newline]
        rintro empty
        rw [empty] at newline
        cases newline

theorem rowsOf_taken {records : List (List Text)} {ls : List Text}
    (taken : Forall₂ Taken records ls) : rowsOf ls = records ∧ codeOf ls = 0 := by
  induction taken with
  | nil => exact ⟨rfl, rfl⟩
  | @cons r l _ _ here _ ih =>
    have fields : fieldsOf l = some r := by
      rw [fieldsOf_eq here.noNul here.noNewline (by rw [here.scanned]; exact here.few),
        here.scanned, if_pos ⟨here.fits, rfl⟩]
    rw [rowsOf, codeOf, fields]
    exact ⟨congrArg (r :: ·) ih.1, ih.2⟩

theorem few_taken {records : List (List Text)} {ls : List Text}
    (taken : Forall₂ Taken records ls) : ∀ l ∈ ls, (scan l).1.length ≤ maxColumnCount := by
  induction taken with
  | nil => exact fun l mem => (by cases mem)
  | cons here _ ih =>
    refine List.forall_mem_cons.mpr ⟨?_, ih⟩
    rw [here.scanned]
    exact here.few

theorem importFile_table {records : List (List Text)} {file : Text}
    (written : WritesTable records file) (regular : Regular records)
    (intact : ∀ r ∈ records, ∀ f ∈ r, '\n' ∉ f) (m : Buffer) :
    importFile fromUTF8 m file = .ok (0, formOf (sentBy fromUTF8 records)) := by
  obtain ⟨lines, each, rfl⟩ := written
  obtain ⟨ls, split, taken, noNul, ended⟩ := taken_table each regular intact
  obtain ⟨rows, code⟩ := rowsOf_taken taken
  have few := few_taken taken
  rw [← split] at few
  have parsed := @csvParse_rowsOf fromUTF8 m lines.flatten [] noNul ended few
  rwa [split, rows, code] at parsed

/-! What is stored of a table. -/

def rational : Number → ℚ
  | .finite x => x
  | _ => 0

variable (fromUTF8) in
def notificationOf (cv : List Text) : Notification where
  chart := fromUTF8 (cv.getD 4 [])
  feature := fromUTF8 (cv.getD 3 [])
  objname := fromUTF8 (cv.getD 2 [])
  lat := rational (strtod (cv.getD 0 [])).1
  lon := rational (strtod (cv.getD 1 [])).1
  scale := rational (if 7 ≤ cv.length then (strtod (cv.getD 6 [])).1 else .finite 0)
  nativescale := (if 6 ≤ cv.length then strtol (cv.getD 5 []) else -1).bmod (2 ^ 32)

variable (fromUTF8) in
def notificationsBy (records : List (List Text)) : List Notification :=
  (records.filter (fun cv => Accepted fromUTF8 cv)).map (notificationOf fromUTF8)

def FiniteScales (records : List (List Text)) : Prop :=
  ∀ cv ∈ records, ∃ x, (if 7 ≤ cv.length then (strtod (cv.getD 6 [])).1 else .finite 0) = .finite x

theorem eq_rational_of_within {bound : ℚ} {x : Number} (h : within bound x) :
    x = .finite (rational x) ∧ -bound ≤ rational x ∧ rational x ≤ bound := by
  cases x with
  | finite x => exact ⟨rfl, within_finite.mp h⟩
  | infinite negative =>
    rw [within_infinite] at h
    cases h
  | nan => cases h

theorem sentBy_eq {records : List (List Text)} (scales : FiniteScales records) :
    sentBy fromUTF8 records = (notificationsBy fromUTF8 records).map Sent.of := by
  rw [sentBy, notificationsBy, List.map_map]
  apply List.map_congr_left
  intro cv mem
  obtain ⟨here, accepted⟩ := List.mem_filter.mp mem
  obtain ⟨-, north, east, -⟩ := of_decide_eq_true accepted
  obtain ⟨x, scale⟩ := scales cv here
  rw [sentOf, Function.comp_apply, Sent.of, notificationOf, scale,
    ← (eq_rational_of_within north).1, ← (eq_rational_of_within east).1]
  rfl

theorem offMap_wrapped {lat lon : ℚ} (south : -90 ≤ lat) (north : lat ≤ 90) (west : -180 ≤ lon)
    (east : lon ≤ 180) : offMap lat (wrapped lon) = false := by
  have same : wrapped lon = lon := by
    rw [wrapped, if_neg (not_lt.mpr west), if_neg (not_lt.mpr east)]
  rw [same]
  simp [offMap, west, east, south, north]

theorem storable_notificationsBy {records : List (List Text)} {n : Notification}
    (mem : n ∈ notificationsBy fromUTF8 records) : Storable n ↔ 1 < n.objname.length := by
  obtain ⟨cv, here, rfl⟩ := List.mem_map.mp mem
  obtain ⟨-, lat, lon, -⟩ := of_decide_eq_true (List.mem_filter.mp here).2
  obtain ⟨-, south, north⟩ := eq_rational_of_within lat
  obtain ⟨-, west, east⟩ := eq_rational_of_within lon
  exact and_iff_left (offMap_wrapped south north west east)

variable {getName : Text → Text}

/-- A table whose sources are new and whose rows come source by source is imported whole: once
the worker has emptied the queue, every accepted row with a name of two characters or more has its
object, in order. -/
theorem import_stores {records : List (List Text)} {file : Text} {ss : List (List Action)}
    {as : List Action} (written : WritesTable records file) (regular : Regular records)
    (intact : ∀ r ∈ records, ∀ f ∈ r, '\n' ∉ f) (scales : FiniteScales records)
    (earlier : ∀ bs ∈ ss, PlainRun getName bs)
    (plain : ∀ n ∈ notificationsBy fromUTF8 records, Plain getName n)
    (new : ∀ n ∈ notificationsBy fromUTF8 records,
      chartName getName n ∉ namesAt getName Database.created ss [])
    (blocks : InBlocks getName (notificationsBy fromUTF8 records))
    (order : notifications as = notificationsBy fromUTF8 records)
    (empty : (history getName Database.created ss as).plugin.queryQueue = []) (m : Buffer) :
    (∃ form, importFile fromUTF8 m file = .ok (0, form) ∧
      form.sent = (notifications as).map Sent.of) ∧
    (history getName Database.created ss as).stored =
      (history getName Database.created ss []).stored ++
        (notificationsBy fromUTF8 records).filter (fun n => 1 < n.objname.length) ∧
    Forall₂ (ObjectOf (history getName Database.created ss as).plugin.db.feature)
      (history getName Database.created ss as).stored
      ((history getName Database.created ss as).plugin.db.object.rows.map Prod.snd) := by
  have plain' : PlainRun getName as := by
    rw [PlainRun, order]
    exact plain
  refine ⟨⟨_, importFile_table written regular intact m, ?_⟩, ?_, ?_⟩
  · rw [order]
    exact sentBy_eq scales
  · have whole := stored_of_drained earlier plain' (by rwa [order]) (by rwa [order]) empty
    rw [whole, order]
    congr 1
    apply List.filter_congr
    intro n mem
    exact decide_eq_decide.mpr (storable_notificationsBy mem)
  · exact (sound_history earlier plain').stored

theorem writesTable_bare {records : List (List Text)}
    (bare : ∀ r ∈ records, (∀ f ∈ r, ',' ∉ f ∧ '"' ∉ f ∧ '\n' ∉ f) ∧
      (joined ',' r ++ ['\n']).length < maxLineLen) :
    WritesTable records (records.map (fun r => joined ',' r ++ ['\n'])).flatten := by
  refine ⟨_, ?_, rfl⟩
  rw [List.forall₂_map_right_iff, List.forall₂_same]
  intro r mem
  obtain ⟨fields, short⟩ := bare r mem
  refine ⟨⟨r, ?_, rfl⟩, short⟩
  rw [List.forall₂_same]
  intro f hf
  obtain ⟨noComma, noQuote, noNewline⟩ := fields f hf
  exact .bare f noComma noQuote noNewline

def twoSources : List (List Text) := [
  ["10".toList, "20".toList, "First".toList, "LIGHTS".toList, "A".toList],
  ["11".toList, "21".toList, "Second".toList, "BUOYS".toList, "A".toList],
  ["12".toList, "22".toList, "Third".toList, "LIGHTS".toList, "B".toList]]

/-- The worker begins when the last row is in the queue. -/
def importRun : List Action :=
  (notificationsBy id twoSources).map .notify ++ [.serve, .serve, .serve]

set_option maxRecDepth 4000 in
theorem import_stores_twoSources :
    (∃ form, importFile id (fun _ => '?')
        (twoSources.map (fun r => joined ',' r ++ ['\n'])).flatten = .ok (0, form) ∧
      form.sent = (notifications importRun).map Sent.of) ∧
    (history posixName Database.created [] importRun).stored =
      (history posixName Database.created [] []).stored ++
        (notificationsBy id twoSources).filter (fun n => 1 < n.objname.length) ∧
    Forall₂ (ObjectOf (history posixName Database.created [] importRun).plugin.db.feature)
      (history posixName Database.created [] importRun).stored
      ((history posixName Database.created [] importRun).plugin.db.object.rows.map Prod.snd) :=
  import_stores (writesTable_bare (by decide)) (by unfold Regular; decide) (by decide)
    (fun cv mem => ⟨0, by revert cv; decide⟩) (by simp) (by unfold Plain; decide +kernel)
    (by decide +kernel) (by decide +kernel) (by decide +kernel) (by decide +kernel) (fun _ => '?')

end ObjSearch.Csv.Rows
