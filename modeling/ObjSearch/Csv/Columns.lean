/- The table of columns, and the commas that fill it.
   digest: The parser stays in the table exactly where the cells that it reads have an end of the line
   and at most 1023 commas outside quoted sections before it. -/

import ObjSearch.Csv.Lines

set_option autoImplicit false
set_option relaxedAutoImplicit false

namespace ObjSearch.Csv.Columns

open ObjSearch.Lib.Texts (Text)
open ObjSearch.Lib.Cells
open ObjSearch.Csv.Parser
open ObjSearch.Csv.Scanner
open ObjSearch.Csv.Reader

/-- The commas outside quoted sections, up to the newline or to where the line is ill-quoted; none
where the text ends before. A NUL ends only a quoted section. -/
def separators : Mode → Text → Option ℕ
  | _, [] => none
  | .plain, c :: cs =>
    if c = '\n' then some 0
    else if c = ',' then (separators .plain cs).map Nat.succ
    else if c = '"' then separators .quoted cs
    else separators .plain cs
  | .quoted, c :: cs =>
    if c = nul then some 0
    else if c = '"' then separators .closing cs
    else separators .quoted cs
  | .closing, c :: cs =>
    if c = '"' then separators .quoted cs
    else if c = ',' then (separators .plain cs).map Nat.succ
    else if c = nul then separators .plain cs
    else if isBlank c then separators .blanks cs
    else some 0
  | .blanks, c :: cs =>
    if c = ',' then (separators .plain cs).map Nat.succ
    else if c = nul then separators .plain cs
    else if isBlank c then separators .blanks cs
    else some 0

def cells (m : Buffer) (i : ℕ) : Text := (List.range' i (maxLineLen - i)).map m

/-- `csv_parse_line` comes to an end without an access outside of `buff` or `column_values`, and the
`field_count` that it passes on is at most `MAX_COLUMN_COUNT`. -/
def InTable (m : Buffer) : Prop :=
  ∃ code m' columns, parseFields maxLineLen m 0 [0] = .ok (code, m', columns) ∧
    columns.length ≤ maxColumnCount

theorem cells_of_lt {m : Buffer} {i : ℕ} (inside : i < maxLineLen) :
    cells m i = m i :: cells m (i + 1) := by
  have split : maxLineLen - i = maxLineLen - (i + 1) + 1 := by omega
  rw [cells, split, List.range'_succ, List.map_cons]
  rfl

theorem cells_of_le {m : Buffer} {i : ℕ} (outside : maxLineLen ≤ i) : cells m i = [] := by
  rw [cells, Nat.sub_eq_zero_of_le outside]
  rfl

theorem cells_congr {m m' : Buffer} {i : ℕ} (same : ∀ j, i ≤ j → m' j = m j) :
    cells m' i = cells m i := by
  unfold cells
  apply List.map_congr_left
  intro j hj
  exact same j (List.mem_range'_1.mp hj).1

theorem cells_put {m : Buffer} {i j : ℕ} (x : Char) (before : j < i) :
    cells (put m j x) i = cells m i :=
  cells_congr fun k le => put_ne m x (by omega)

theorem copyQuoted_separators (turns : ℕ) (m : Buffer) {p q : ℕ} (behind : p < q)
    (enough : maxLineLen ≤ q + turns) :
    match copyQuoted turns m p q with
    | .error f => f = .outOfBuffer ∧ separators .quoted (cells m q) = none
    | .ok (false, _, _, _) => separators .quoted (cells m q) = some 0
    | .ok (true, m', p', q') => p' < q' ∧ q < q' ∧
        separators .quoted (cells m q) = separators .blanks (cells m' q') := by
  induction turns generalizing m p q with
  | zero => exact ⟨rfl, by rw [cells_of_le (by omega)]; rfl⟩
  | succ turns ih =>
    by_cases outside : maxLineLen ≤ q
    · rw [copyQuoted, if_pos outside]
      exact ⟨rfl, by rw [cells_of_le outside]; rfl⟩
    · have here := cells_of_lt (m := m) (show q < maxLineLen by omega)
      by_cases isNul : m q = nul
      · rw [copyQuoted_nul (by omega) isNul]
        show separators .quoted (cells m q) = some 0
        rw [here, separators, if_pos isNul]
      · by_cases quote : m q = '"'
        · have opened : separators .quoted (cells m q) = separators .closing (cells m (q + 1)) := by
            rw [here, separators, if_neg isNul, if_pos quote]
          by_cases last : maxLineLen ≤ q + 1
          · rw [copyQuoted, if_neg outside, if_neg isNul, if_pos quote, if_pos last]
            exact ⟨rfl, by rw [opened, cells_of_le last]; rfl⟩
          · have next := cells_of_lt (m := m) (show q + 1 < maxLineLen by omega)
            by_cases doubled : m (q + 1) = '"'
            · have after : separators .closing (cells m (q + 1)) =
                  separators .quoted (cells (put m p '"') (q + 2)) := by
                rw [next, separators, if_pos doubled, cells_put _ (by omega)]
              rw [copyQuoted_doubled (by omega) quote doubled, opened, after]
              have rest := ih (put m p '"') (p := p + 1) (q := q + 2) (by omega) (by omega)
              generalize copyQuoted turns (put m p '"') (p + 1) (q + 2) = result at rest ⊢
              rcases result with f | ⟨closed, m', p', q'⟩
              · exact rest
              · cases closed with
                | false => exact rest
                | true => exact ⟨rest.1, by have := rest.2.1; omega, rest.2.2⟩
            · rw [copyQuoted_closed (by omega) quote doubled]
              refine ⟨by omega, by omega, ?_⟩
              rw [opened, next, separators, if_neg doubled, separators]
        · have copied : separators .quoted (cells m q) =
              separators .quoted (cells (put m p (m q)) (q + 1)) := by
            rw [here, separators, if_neg isNul, if_neg quote, cells_put _ (by omega)]
          rw [copyQuoted_other (by omega) rfl isNul quote, copied]
          have rest := ih (put m p (m q)) (p := p + 1) (q := q + 1) (by omega) (by omega)
          generalize copyQuoted turns (put m p (m q)) (p + 1) (q + 1) = result at rest ⊢
          rcases result with f | ⟨closed, m', p', q'⟩
          · exact rest
          · cases closed with
            | false => exact rest
            | true => exact ⟨rest.1, by have := rest.2.1; omega, rest.2.2⟩

theorem skipBlanks_separators (turns : ℕ) (m : Buffer) (q : ℕ) (enough : maxLineLen ≤ q + turns) :
    match skipBlanks turns m q with
    | .error f => f = .outOfBuffer ∧ separators .blanks (cells m q) = none
    | .ok q' => q ≤ q' ∧ q' < maxLineLen ∧ isBlank (m q') = false ∧
        separators .blanks (cells m q) = separators .blanks (cells m q') := by
  induction turns generalizing q with
  | zero => exact ⟨rfl, by rw [cells_of_le (by omega)]; rfl⟩
  | succ turns ih =>
    by_cases outside : maxLineLen ≤ q
    · rw [skipBlanks, if_pos outside]
      exact ⟨rfl, by rw [cells_of_le outside]; rfl⟩
    · rw [skipBlanks, if_neg outside]
      by_cases blank : isBlank (m q) = true
      · have skipped : separators .blanks (cells m q) = separators .blanks (cells m (q + 1)) := by
          have notComma : m q ≠ ',' := fun same => by rw [same] at blank; cases blank
          have notNul : m q ≠ nul := fun same => by rw [same] at blank; cases blank
          rw [cells_of_lt (by omega), separators, if_neg notComma, if_neg notNul, if_pos blank]
        rw [if_pos blank, skipped]
        have rest := ih (q + 1) (by omega)
        generalize skipBlanks turns m (q + 1) = result at rest ⊢
        cases result with
        | error f => exact rest
        | ok q' => exact ⟨by have := rest.1; omega, rest.2⟩
      · rw [if_neg blank]
        exact ⟨le_rfl, by omega, Bool.eq_false_iff.mpr blank, rfl⟩

inductive Counts (n : Option ℕ) (buff : ℕ) : Except Fault (ℤ × Buffer × ℕ) → Prop where
  | unended (none_ : n = none) : Counts n buff (.error .outOfBuffer)
  | illQuoted (m' : Buffer) (zero : n = some 0) : Counts n buff (.ok (eQuotedString, m', buff))
  | ended (m' : Buffer) (buff' : ℕ) (further : buff ≤ buff')
      (rest : n = separators .plain (cells m' (buff' + 1))) : Counts n buff (.ok (0, m', buff'))

theorem csvProcessQuotedString_separators (m : Buffer) (buff : ℕ) :
    Counts (separators .quoted (cells m (buff + 1))) buff (csvProcessQuotedString m buff) := by
  have copied := copyQuoted_separators maxLineLen m (Nat.lt_succ_self buff)
    (by omega)
  rw [csvProcessQuotedString]
  generalize copyQuoted maxLineLen m buff (buff + 1) = result at copied ⊢
  rcases result with f | ⟨closed, m1, p, q⟩
  · obtain ⟨rfl, none_⟩ := copied
    exact .unended none_
  · cases closed with
    | false => exact .illQuoted m1 copied
    | true =>
      obtain ⟨behind, low, same⟩ := copied
      have skipped := skipBlanks_separators maxLineLen (put m1 p nul) q (by omega)
      rw [cells_put nul behind, ← same] at skipped
      show Counts _ buff (skipBlanks maxLineLen (put m1 p nul) q >>= _)
      generalize skipBlanks maxLineLen (put m1 p nul) q = blanks at skipped ⊢
      rcases blanks with f | q'
      · obtain ⟨rfl, none_⟩ := skipped
        exact .unended none_
      · obtain ⟨low', inside, solid, same'⟩ := skipped
        have here := cells_of_lt (m := put m1 p nul) inside
        have notBlank : ¬isBlank (put m1 p nul q') = true := by rw [solid]; decide
        have back : q' - 1 + 1 = q' := by omega
        show Counts _ buff (if put m1 p nul q' ≠ ',' ∧ put m1 p nul q' ≠ '\n' ∧
          put m1 p nul q' ≠ nul then .ok (eQuotedString, put m1 p nul, buff)
          else .ok (0, put m1 p nul, q' - 1))
        split_ifs with bad
        · refine .illQuoted _ ?_
          rw [same', here, separators, if_neg bad.1, if_neg bad.2.2, if_neg notBlank]
        · refine .ended _ _ (by omega) ?_
          rw [same', back, here, separators, separators]
          by_cases comma : put m1 p nul q' = ','
          · rw [if_pos comma, comma, if_neg (by decide), if_pos rfl]
          · by_cases isNul : put m1 p nul q' = nul
            · rw [if_neg comma, if_pos isNul, isNul, if_neg (by decide), if_neg (by decide),
                if_neg (by decide)]
            · have newline : put m1 p nul q' = '\n' := by
                by_contra other
                exact bad ⟨comma, other, isNul⟩
              rw [if_neg comma, if_neg isNul, if_neg notBlank, if_pos newline]

/-- How the loop ends with `k` columns entered and so many commas ahead. -/
inductive Ends (k : ℕ) (ahead : Option ℕ) : Except Fault (ℤ × Buffer × List ℕ) → Prop where
  | unended (f : Fault) (none_ : ahead = none) : Ends k ahead (.error f)
  | full (n : ℕ) (some_ : ahead = some n) (more : maxColumnCount < k + n) :
      Ends k ahead (.error .outOfColumns)
  | ended (n : ℕ) (some_ : ahead = some n) (fits : k + n ≤ maxColumnCount) (code : ℤ) (m' : Buffer)
      (columns : List ℕ) (count : columns.length = k + n) : Ends k ahead (.ok (code, m', columns))

theorem Ends.comma {k : ℕ} {ahead : Option ℕ} {result : Except Fault (ℤ × Buffer × List ℕ)}
    (h : Ends (k + 1) ahead result) : Ends k (ahead.map Nat.succ) result := by
  cases h with
  | unended f none_ => exact .unended f (by rw [none_]; rfl)
  | full n some_ more => exact .full (n + 1) (by rw [some_]; rfl) (by omega)
  | ended n some_ fits code m' columns count =>
    exact .ended (n + 1) (by rw [some_]; rfl) (by omega) code m' columns (by omega)

theorem parseFields_separators (turns : ℕ) (m : Buffer) (buff : ℕ) (columns : List ℕ)
    (enough : maxLineLen ≤ buff + turns) (few : columns.length ≤ maxColumnCount) :
    Ends columns.length (separators .plain (cells m buff)) (parseFields turns m buff columns) := by
  induction turns generalizing m buff columns with
  | zero =>
    rw [cells_of_le (by omega)]
    exact .unended _ rfl
  | succ turns ih =>
    by_cases outside : maxLineLen ≤ buff
    · rw [parseFields, if_pos outside, cells_of_le outside]
      exact .unended _ rfl
    · have here := cells_of_lt (m := m) (show buff < maxLineLen by omega)
      rw [here, separators]
      by_cases newline : m buff = '\n'
      · rw [parseFields_newline (by omega) newline, if_pos newline]
        exact .ended 0 rfl few 0 _ columns rfl
      · by_cases comma : m buff = ','
        · rw [if_neg newline, if_pos comma]
          by_cases full : maxColumnCount ≤ columns.length
          · rw [parseFields, if_neg outside, if_neg newline, if_pos comma, if_pos full]
            -- how many commas are ahead does not matter any more
            cases separators .plain (cells m (buff + 1)) with
            | none => exact .unended _ rfl
            | some n => exact .full (n + 1) rfl (by omega)
          · have longer : (columns ++ [buff + 1]).length = columns.length + 1 := by
              rw [List.length_append, List.length_singleton]
            have rest := ih (put m buff nul) (buff + 1) (columns ++ [buff + 1]) (by omega) (by omega)
            rw [longer, cells_put nul (Nat.lt_succ_self buff)] at rest
            rw [parseFields_comma (by omega) comma (by omega)]
            exact rest.comma
        · by_cases quote : m buff = '"'
          · have counted := csvProcessQuotedString_separators m buff
            rw [parseFields_quote (by omega) quote, if_neg newline, if_neg comma, if_pos quote]
            generalize separators .quoted (cells m (buff + 1)) = ahead at counted ⊢
            generalize csvProcessQuotedString m buff = result at counted ⊢
            cases counted with
            | unended none_ => exact .unended _ none_
            | illQuoted m' zero => exact .ended 0 zero few eQuotedString m' columns rfl
            | ended m' buff' further rest =>
              subst rest
              exact ih _ _ _ (by omega) few
          · rw [parseFields_other (by omega) rfl newline comma quote, if_neg newline, if_neg comma,
              if_neg quote]
            exact ih _ _ _ (by omega) few

theorem inTable_iff_separators (m : Buffer) :
    InTable m ↔ ∃ n, separators .plain (cells m 0) = some n ∧ n < maxColumnCount := by
  have ends := parseFields_separators maxLineLen m 0 [0] (by omega) (by decide)
  rw [List.length_singleton] at ends
  constructor
  · rintro ⟨code, m', columns, parsed, -⟩
    rw [parsed] at ends
    cases ends with
    | ended n some_ fits _ _ _ count => exact ⟨n, some_, by omega⟩
  · rintro ⟨n, some_, few⟩
    unfold InTable
    generalize parseFields maxLineLen m 0 [0] = result at ends ⊢
    cases ends with
    | unended f none_ => rw [none_] at some_; cases some_
    | full n' same more =>
      obtain rfl := Option.some.inj (some_.symm.trans same)
      omega
    | ended n' same fits code m' columns count => exact ⟨code, m', columns, rfl, by omega⟩

variable {σ : Type}

/-- The buffers that `csv_parse` hands to `csv_parse_line`: the line that `fgets` has read, unless
it is too wide, and after a line whose callback returns zero those of the rest of the file. -/
inductive Handed (cb : Option (Callback σ)) : Buffer → Text → σ → Buffer → Prop where
  | here {m m' : Buffer} {file rest : Text} (params : σ)
      (read : fgets (put m (maxLineLen - 1) '*') file = some (m', rest))
      (fits : ¬(m' (maxLineLen - 1) = nul ∧ m' (maxLineLen - 2) ≠ '\n')) :
      Handed cb m file params m'
  | later {m m' m'' line : Buffer} {file rest : Text} {params params' : σ}
      (read : fgets (put m (maxLineLen - 1) '*') file = some (m', rest))
      (fits : ¬(m' (maxLineLen - 1) = nul ∧ m' (maxLineLen - 2) ≠ '\n'))
      (parsed : csvParseLine cb m' params = .ok (0, m'', params'))
      (further : Handed cb m'' rest params' line) : Handed cb m file params line

/-- In every file the table is large enough if and only if every line handed on has an end among the
cells of the buffer and at most 1023 separators before it. -/
theorem inTable_iff (cb : Option (Callback σ)) (m : Buffer) (file : Text) (params : σ) :
    (∀ line, Handed cb m file params line → InTable line) ↔
      ∀ line, Handed cb m file params line →
        ∃ n, separators .plain (cells line 0) = some n ∧ n < maxColumnCount := by
  constructor
  · intro inTable line handed
    exact (inTable_iff_separators line).mp (inTable line handed)
  · intro few line handed
    exact (inTable_iff_separators line).mpr (few line handed)

theorem separators_ending (mode : Mode) {line : Text} (noNewline : '\n' ∉ line) (rest : Text) :
    separators mode (line ++ (ending ++ rest)) = separators mode (line ++ ending) := by
  induction line generalizing mode with
  | nil => cases mode <;> rfl
  | cons c line ih =>
    rw [List.mem_cons, not_or] at noNewline
    cases mode <;> simp only [List.cons_append, separators, ih _ noNewline.2]

theorem cells_of_holds {m : Buffer} {i : ℕ} {t : Text} (here : Holds m i t)
    (inside : i + t.length ≤ maxLineLen) : cells m i = t ++ cells m (i + t.length) := by
  induction t generalizing i with
  | nil => rfl
  | cons c t ih =>
    rw [List.length_cons] at inside ⊢
    rw [cells_of_lt (by omega), here.1, ih here.2 (by omega), List.cons_append, Nat.add_right_comm,
      Nat.add_assoc]

theorem separators_of_line {m : Buffer} {line : Text} (here : Holds m 0 (line ++ ending))
    (room : line.length + 2 ≤ maxLineLen) (noNewline : '\n' ∉ line) :
    separators .plain (cells m 0) = separators .plain (line ++ ending) := by
  have size : (line ++ ending).length = line.length + 2 := List.length_append
  rw [cells_of_holds here (by omega), List.append_assoc, separators_ending _ noNewline]

theorem separators_commas (n : ℕ) :
    separators .plain (List.replicate n ',' ++ ending) = some n := by
  induction n with
  | zero => rfl
  | succ n ih =>
    rw [List.replicate_succ, List.cons_append, separators, if_neg (by decide), if_pos rfl, ih]
    rfl

theorem commas_overflow_the_table :
    ¬ ∀ line, Handed (none : Option (Callback Unit)) (fun _ => '?')
      (List.replicate 1024 ',' ++ ['\n']) () line → InTable line := by
  intro inTable
  have noNewline : '\n' ∉ List.replicate 1024 ',' := by
    intro here
    exact absurd (List.eq_of_mem_replicate here) (by decide)
  have size : (List.replicate 1024 ',').length = 1024 := List.length_replicate
  obtain ⟨line, read, here, fits⟩ := fgets_of_line (fun _ => '?') (List.replicate 1024 ',') []
    (by rw [size]; decide) noNewline
  obtain ⟨n, counted, few⟩ := (inTable_iff_separators line).mp (inTable line (.here () read fits))
  rw [separators_of_line here (by rw [size]; decide) noNewline, separators_commas] at counted
  rw [← Option.some.inj counted] at few
  exact absurd few (by decide)

end ObjSearch.Csv.Columns
