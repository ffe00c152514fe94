/- The line parser with every access to its buffer checked.
   digest: On a line that ends in a newline and a NUL no read goes past the NUL and no write gets
   ahead of the reading. -/

import ObjSearch.Csv.Reader

set_option autoImplicit false
set_option relaxedAutoImplicit false

namespace ObjSearch.Csv.Checked

open ObjSearch.Lib.Texts (Text)
open ObjSearch.Lib.Cells
open ObjSearch.Csv.Parser
open ObjSearch.Csv.Scanner
open ObjSearch.Csv.Reader

/-- Why a checked run stops: a fault of the plain run, a read behind the NUL of the line, or a
write ahead of the cell read last. -/
inductive Breach where
  | fault (f : Fault)
  | pastNul
  | overtaken
deriving DecidableEq

def readAt (last : ℕ) (m : Buffer) (i : ℕ) : Except Breach Char :=
  if maxLineLen ≤ i then .error (.fault .outOfBuffer)
  else if last < i then .error .pastNul
  else .ok (m i)

def writeBehind (m : Buffer) (q p : ℕ) (c : Char) : Except Breach Buffer :=
  if q ≤ p then .error .overtaken else .ok (put m p c)

/-! The functions of the parser once more, reading and writing only so. -/

def copyQuotedChecked (last : ℕ) : ℕ → Buffer → ℕ → ℕ → Except Breach (Bool × Buffer × ℕ × ℕ)
  | 0, _, _, _ => .error (.fault .outOfBuffer)
  | turns + 1, m, p, q => do
    let c ← readAt last m q
    if c = nul then .ok (false, m, p, q)
    else if c = '"' then do
      let d ← readAt last m (q + 1)
      if d ≠ '"' then .ok (true, m, p, q + 1)
      else do
        let m ← writeBehind m (q + 1) p d
        copyQuotedChecked last turns m (p + 1) (q + 2)
    else do
      let m ← writeBehind m q p c
      copyQuotedChecked last turns m (p + 1) (q + 1)

def skipBlanksChecked (last : ℕ) : ℕ → Buffer → ℕ → Except Breach ℕ
  | 0, _, _ => .error (.fault .outOfBuffer)
  | turns + 1, m, q => do
    let c ← readAt last m q
    if isBlank c then skipBlanksChecked last turns m (q + 1) else .ok q

def csvProcessQuotedStringChecked (last : ℕ) (m : Buffer) (buff : ℕ) :
    Except Breach (ℤ × Buffer × ℕ) := do
  let (closed, m, p, q) ← copyQuotedChecked last maxLineLen m buff (buff + 1)
  if !closed then return (eQuotedString, m, buff)
  let m ← writeBehind m q p nul
  let q ← skipBlanksChecked last maxLineLen m q
  let c ← readAt last m q
  if c ≠ ',' ∧ c ≠ '\n' ∧ c ≠ nul then return (eQuotedString, m, buff)
  return (0, m, q - 1)

/-- A comma and the newline are overwritten where they were read. -/
def parseFieldsChecked (last : ℕ) : ℕ → Buffer → ℕ → List ℕ →
    Except Breach (ℤ × Buffer × List ℕ)
  | 0, _, _, _ => .error (.fault .outOfBuffer)
  | turns + 1, m, buff, columns => do
    let c ← readAt last m buff
    if c = '\n' then .ok (0, put m buff nul, columns)
    else if c = ',' then
      if maxColumnCount ≤ columns.length then .error (.fault .outOfColumns)
      else parseFieldsChecked last turns (put m buff nul) (buff + 1) (columns ++ [buff + 1])
    else if c = '"' then do
      let (code, m, buff) ← csvProcessQuotedStringChecked last m buff
      if code = eQuotedString then .ok (eQuotedString, m, columns)
      else parseFieldsChecked last turns m (buff + 1) columns
    else parseFieldsChecked last turns m (buff + 1) columns

variable {σ : Type}

def csvParseLineChecked (last : ℕ) (cb : Option (Callback σ)) (m : Buffer) (params : σ) :
    Except Breach (ℤ × Buffer × σ) := do
  let (code, m, columns) ← parseFieldsChecked last maxLineLen m 0 [0]
  if code = eQuotedString then return (eQuotedString, m, params)
  match cb with
  | none => return (0, m, params)
  | some cb =>
    let (params, r) := cb params (columns.map (cString m))
    return (r, m, params)

/-- The NUL of a line is behind the characters that `fgets` took from the file. -/
def csvParseChecked (cb : Option (Callback σ)) (m : Buffer) (file : Text) (params : σ) :
    Except Breach (ℤ × σ) :=
  match h : fgets (put m (maxLineLen - 1) '*') file with
  | none => .ok (0, params)
  | some (m, rest) =>
    if m (maxLineLen - 1) = nul ∧ m (maxLineLen - 2) ≠ '\n' then .ok (eLineTooWide, params)
    else match csvParseLineChecked (file.length - rest.length) cb m params with
      | .error breach => .error breach
      | .ok (r, m, params) =>
        if r = eQuotedString then .ok (eQuotedString, params)
        else if r ≠ 0 then .ok (0, params)
        else
          have := length_fgets_lt h
          csvParseChecked cb m rest params
termination_by file.length

theorem readAt_ok {last i : ℕ} (m : Buffer) (inside : last < maxLineLen) (le : i ≤ last) :
    readAt last m i = .ok (m i) := by
  rw [readAt, if_neg (by omega), if_neg (by omega)]

theorem readAt_pastNul {last i : ℕ} (m : Buffer) (inside : i < maxLineLen) (lt : last < i) :
    readAt last m i = .error .pastNul := by
  rw [readAt, if_neg (by omega), if_pos lt]

theorem writeBehind_ok {m : Buffer} {q p : ℕ} (c : Char) (lt : p < q) :
    writeBehind m q p c = .ok (put m p c) := by
  rw [writeBehind, if_neg (by omega)]

def verdict (m : Buffer) (buff q : ℕ) : ℤ × Buffer × ℕ :=
  if m q ≠ ',' ∧ m q ≠ '\n' ∧ m q ≠ nul then (eQuotedString, m, buff) else (0, m, q - 1)

theorem csvProcessQuotedString_of_loops {m m1 : Buffer} {buff p q q' : ℕ}
    (copied : copyQuoted maxLineLen m buff (buff + 1) = .ok (true, m1, p, q))
    (skipped : skipBlanks maxLineLen (put m1 p nul) q = .ok q') :
    csvProcessQuotedString m buff = .ok (verdict (put m1 p nul) buff q') := by
  rw [csvProcessQuotedString, copied]
  show (skipBlanks maxLineLen (put m1 p nul) q >>= _) = _
  rw [skipped, verdict, apply_ite Except.ok]
  rfl

section quoted

variable {last : ℕ} (inside : last < maxLineLen)
include inside

section turn

variable {turns : ℕ} {m : Buffer} {p q : ℕ}

theorem copyChecked_nul (le : q ≤ last) (here : m q = nul) :
    copyQuotedChecked last (turns + 1) m p q = .ok (false, m, p, q) := by
  rw [copyQuotedChecked, readAt_ok m inside le, here]
  rfl

theorem copyChecked_closed (le : q + 1 ≤ last) (here : m q = '"') (next : m (q + 1) ≠ '"') :
    copyQuotedChecked last (turns + 1) m p q = .ok (true, m, p, q + 1) := by
  rw [copyQuotedChecked, readAt_ok m inside (by omega), here]
  show (readAt last m (q + 1) >>= _) = _
  rw [readAt_ok m inside le]
  exact if_pos next

theorem copyChecked_doubled (behind : p < q) (le : q + 1 ≤ last) (here : m q = '"')
    (next : m (q + 1) = '"') :
    copyQuotedChecked last (turns + 1) m p q =
      copyQuotedChecked last turns (put m p '"') (p + 1) (q + 2) := by
  rw [copyQuotedChecked, readAt_ok m inside (by omega), here]
  show (readAt last m (q + 1) >>= _) = _
  rw [readAt_ok m inside le, next]
  show (writeBehind m (q + 1) p '"' >>= _) = _
  rw [writeBehind_ok '"' (by omega)]
  rfl

theorem copyChecked_other (behind : p < q) (le : q ≤ last) (notNul : m q ≠ nul)
    (notQuote : m q ≠ '"') :
    copyQuotedChecked last (turns + 1) m p q =
      copyQuotedChecked last turns (put m p (m q)) (p + 1) (q + 1) := by
  rw [copyQuotedChecked, readAt_ok m inside le]
  show (if m q = nul then _ else _) = _
  rw [if_neg notNul, if_neg notQuote]
  show (writeBehind m q p (m q) >>= _) = _
  rw [writeBehind_ok (m q) behind]
  rfl

end turn

theorem csvProcessQuotedStringChecked_of_loops {m m1 : Buffer} {buff p q q' : ℕ}
    (copied : copyQuotedChecked last maxLineLen m buff (buff + 1) = .ok (true, m1, p, q))
    (behind : p < q) (skipped : skipBlanksChecked last maxLineLen (put m1 p nul) q = .ok q')
    (le : q' ≤ last) :
    csvProcessQuotedStringChecked last m buff = .ok (verdict (put m1 p nul) buff q') := by
  rw [csvProcessQuotedStringChecked, copied]
  show (writeBehind m1 q p nul >>= _) = _
  rw [writeBehind_ok nul behind]
  show (skipBlanksChecked last maxLineLen (put m1 p nul) q >>= _) = _
  rw [skipped]
  show (readAt last (put m1 p nul) q' >>= _) = _
  rw [readAt_ok _ inside le, verdict, apply_ite Except.ok]
  rfl

theorem copyQuotedChecked_ok {turns : ℕ} {m m' : Buffer} {p q p' q' : ℕ} {closed : Bool}
    (behind : p < q) (le : q ≤ last) (ended : m last = nul)
    (plain : copyQuoted turns m p q = .ok (closed, m', p', q')) :
    copyQuotedChecked last turns m p q = .ok (closed, m', p', q') ∧ p' < q' ∧ q ≤ q' ∧
      q' ≤ last ∧ (∀ j, q' ≤ j → m' j = m j) ∧
        (closed = true → q < q' ∧ m (q' - 1) = '"') := by
  induction turns generalizing m p q with
  | zero => cases plain
  | succ turns ih =>
    by_cases isNul : m q = nul
    · rw [copyQuoted_nul (by omega) isNul] at plain
      cases plain
      exact ⟨copyChecked_nul inside le isNul, behind, le_rfl, le, fun _ _ => rfl, by simp⟩
    · have lt : q < last := lt_of_le_of_ne le (fun same => isNul (same ▸ ended))
      by_cases quote : m q = '"'
      · by_cases doubled : m (q + 1) = '"'
        · have more : q + 2 ≤ last := by
            have notLast : q + 1 ≠ last := by
              rintro rfl
              rw [ended] at doubled
              exact absurd doubled (by decide)
            omega
          rw [copyQuoted_doubled (by omega) quote doubled] at plain
          have endedAfter : put m p '"' last = nul := by rw [put_ne m _ (by omega), ended]
          obtain ⟨ran, lt', low, le', kept, close⟩ := ih (by omega) more endedAfter plain
          refine ⟨?_, lt', by omega, le', ?_, ?_⟩
          · rw [copyChecked_doubled inside behind (by omega) quote doubled]
            exact ran
          · intro j high
            rw [kept j high, put_ne m _ (by omega)]
          · intro isClosed
            obtain ⟨further, mark⟩ := close isClosed
            refine ⟨by omega, ?_⟩
            rwa [put_ne m _ (by omega)] at mark
        · rw [copyQuoted_closed (by omega) quote doubled] at plain
          cases plain
          exact ⟨copyChecked_closed inside (by omega) quote doubled, by omega, by omega, by omega,
            fun _ _ => rfl, fun _ => ⟨by omega, quote⟩⟩
      · rw [copyQuoted_other (by omega) rfl isNul quote] at plain
        have endedAfter : put m p (m q) last = nul := by rw [put_ne m _ (by omega), ended]
        obtain ⟨ran, lt', low, le', kept, close⟩ := ih (by omega) (by omega) endedAfter plain
        refine ⟨?_, lt', by omega, le', ?_, ?_⟩
        · rw [copyChecked_other inside behind le isNul quote]
          exact ran
        · intro j high
          rw [kept j high, put_ne m _ (by omega)]
        · intro isClosed
          obtain ⟨further, mark⟩ := close isClosed
          refine ⟨by omega, ?_⟩
          rwa [put_ne m _ (by omega)] at mark

theorem skipBlanksChecked_ok {turns : ℕ} {m : Buffer} {q q' stop : ℕ} (le : q ≤ stop)
    (before : stop ≤ last) (solid : isBlank (m stop) = false)
    (plain : skipBlanks turns m q = .ok q') :
    skipBlanksChecked last turns m q = .ok q' ∧ q ≤ q' ∧ q' ≤ stop := by
  induction turns generalizing q with
  | zero => cases plain
  | succ turns ih =>
    rw [skipBlanks, if_neg (by omega)] at plain
    rw [skipBlanksChecked, readAt_ok m inside (by omega)]
    show (if isBlank (m q) then _ else _) = _ ∧ _
    by_cases blank : isBlank (m q) = true
    · have notStop : q ≠ stop := by
        rintro rfl
        rw [blank] at solid
        cases solid
      rw [if_pos blank] at plain ⊢
      obtain ⟨ran, low, high⟩ := ih (by omega) plain
      exact ⟨ran, by omega, high⟩
    · rw [if_neg blank] at plain ⊢
      cases plain
      exact ⟨rfl, le_rfl, le⟩

/-- The newline in front of the NUL is never passed: a section that ends, ends in front of it. -/
theorem csvProcessQuotedStringChecked_ok {m m' : Buffer} {buff at_ : ℕ} {code : ℤ}
    (lt : buff + 1 < last) (newline : m (last - 1) = '\n') (ended : m last = nul)
    (plain : csvProcessQuotedString m buff = .ok (code, m', at_)) :
    csvProcessQuotedStringChecked last m buff = .ok (code, m', at_) ∧
      (code ≠ eQuotedString →
        buff ≤ at_ ∧ at_ + 1 < last ∧ ∀ j, at_ + 1 ≤ j → m' j = m j) := by
  have run := plain
  rw [csvProcessQuotedString] at run
  cases copied : copyQuoted maxLineLen m buff (buff + 1) with
  | error f =>
    rw [copied] at run
    cases run
  | ok r =>
    obtain ⟨closed, m1, p, q⟩ := r
    obtain ⟨ran, behind, -, le, kept, close⟩ :=
      copyQuotedChecked_ok inside (Nat.lt_succ_self buff) (by omega) ended copied
    rw [copied] at run
    cases closed with
    | false =>
      cases run
      rw [csvProcessQuotedStringChecked, ran]
      exact ⟨rfl, fun good => absurd rfl good⟩
    | true =>
      obtain ⟨further, mark⟩ := close rfl
      -- the closing quote is not the newline, so that the section ends in front of it
      have front : q ≤ last - 1 := by
        have notNewline : q - 1 ≠ last - 1 := by
          intro same
          rw [same, newline] at mark
          exact absurd mark (by decide)
        omega
      have solid : isBlank (put m1 p nul (last - 1)) = false := by
        rw [put_ne m1 nul (by omega), kept (last - 1) front, newline]
        rfl
      cases skipped : skipBlanks maxLineLen (put m1 p nul) q with
      | error f =>
        have failed : (skipBlanks maxLineLen (put m1 p nul) q >>= _) = _ := run
        rw [skipped] at failed
        cases failed
      | ok q' =>
        obtain ⟨ranBlanks, low, high⟩ :=
          skipBlanksChecked_ok inside front (by omega) solid skipped
        have result : verdict (put m1 p nul) buff q' = (code, m', at_) :=
          Except.ok.inj ((csvProcessQuotedString_of_loops copied skipped).symm.trans plain)
        refine ⟨?_, ?_⟩
        · rw [csvProcessQuotedStringChecked_of_loops inside ran behind ranBlanks (by omega), result]
        · intro good
          unfold verdict at result
          split_ifs at result with bad
          · cases result
            exact absurd rfl good
          · cases result
            refine ⟨by omega, by omega, ?_⟩
            intro j high'
            rw [put_ne m1 nul (by omega), kept j (by omega)]

theorem parseFieldsChecked_ok {turns : ℕ} {m m' : Buffer} {buff : ℕ} {columns columns' : List ℕ}
    {code : ℤ} (lt : buff < last) (newline : m (last - 1) = '\n') (ended : m last = nul)
    (plain : parseFields turns m buff columns = .ok (code, m', columns')) :
    parseFieldsChecked last turns m buff columns = .ok (code, m', columns') := by
  induction turns generalizing m buff columns with
  | zero => cases plain
  | succ turns ih =>
    rw [parseFieldsChecked, readAt_ok m inside (le_of_lt lt)]
    show (if m buff = '\n' then _ else _) = _
    by_cases atEnd : m buff = '\n'
    · rw [parseFields_newline (by omega) atEnd] at plain
      cases plain
      rw [if_pos atEnd]
    · have lt' : buff + 1 < last := by
        have notLast : buff ≠ last - 1 := by
          rintro rfl
          exact atEnd newline
        omega
      rw [if_neg atEnd]
      by_cases comma : m buff = ','
      · rw [if_pos comma]
        rw [parseFields, if_neg (by omega), if_neg atEnd, if_pos comma] at plain
        split_ifs at plain ⊢ with full
        apply ih lt' _ _ plain
        · rw [put_ne m nul (by omega), newline]
        · rw [put_ne m nul (by omega), ended]
      · rw [if_neg comma]
        by_cases quote : m buff = '"'
        · rw [if_pos quote]
          rw [parseFields_quote (by omega) quote] at plain
          cases section_ : csvProcessQuotedString m buff with
          | error f =>
            rw [section_] at plain
            cases plain
          | ok r =>
            obtain ⟨code1, m1, at_⟩ := r
            obtain ⟨ran, after⟩ :=
              csvProcessQuotedStringChecked_ok inside lt' newline ended section_
            rw [section_] at plain
            rw [ran]
            show (if code1 = eQuotedString then _ else _) = _
            have tail : (if code1 = eQuotedString then .ok (eQuotedString, m1, columns)
                else parseFields turns m1 (at_ + 1) columns) = .ok (code, m', columns') := plain
            by_cases bad : code1 = eQuotedString
            · rw [if_pos bad] at tail ⊢
              cases tail
              rfl
            · rw [if_neg bad] at tail ⊢
              obtain ⟨low, high, kept⟩ := after bad
              apply ih high _ _ tail
              · rw [kept (last - 1) (by omega), newline]
              · rw [kept last (by omega), ended]
        · rw [if_neg quote]
          rw [parseFields, if_neg (by omega), if_neg atEnd, if_neg comma, if_neg quote] at plain
          exact ih lt' newline ended plain

end quoted

theorem ok_congr {ε ε' α : Type} {a b : α} (h : (.ok a : Except ε α) = .ok b) :
    (.ok a : Except ε' α) = .ok b :=
  congrArg Except.ok (Except.ok.inj h)

/-- On a line as `fgets` leaves it, nothing goes wrong: the checked parser does what the plain
one does. -/
theorem csvParseLineChecked_spec (cb : Callback σ) (m : Buffer) (params : σ) (line : Text)
    (here : Holds m 0 (line ++ ending)) (room : line.length + 2 ≤ maxLineLen) (noNul : nul ∉ line)
    (noNewline : '\n' ∉ line) (few : (scan line).1.length ≤ maxColumnCount) :
    ∃ m', csvParseLineChecked (line.length + 1) (some cb) m params =
      (if (scan line).2 then
        .ok ((cb params (scan line).1).2, m', (cb params (scan line).1).1)
      else .ok (eQuotedString, m', params)) ∧
      csvParseLine (some cb) m params =
      (if (scan line).2 then
        .ok ((cb params (scan line).1).2, m', (cb params (scan line).1).1)
      else .ok (eQuotedString, m', params)) := by
  obtain ⟨m', plain⟩ := csvParseLine_spec cb m params line here room noNul noNewline few
  refine ⟨m', ?_, plain⟩
  have newline : m line.length = '\n' := by
    simpa using (holds_append.mp here).2.1
  have ended : m (line.length + 1) = nul := by
    simpa using (holds_append.mp here).2.2.1
  cases parsed : parseFields maxLineLen m 0 [0] with
  | error f =>
    rw [csvParseLine, parsed] at plain
    split_ifs at plain
    · cases plain
    · cases plain
  | ok r =>
    obtain ⟨code, m1, columns⟩ := r
    have checked := parseFieldsChecked_ok (show line.length + 1 < maxLineLen by omega)
      (Nat.succ_pos _) newline ended parsed
    rw [csvParseLine, parsed] at plain
    rw [csvParseLineChecked, checked]
    have result : (if code = eQuotedString then .ok (eQuotedString, m1, params) else
        .ok ((cb params (columns.map (cString m1))).2, m1,
          (cb params (columns.map (cString m1))).1) : Except Fault _) = _ := plain
    show (if code = eQuotedString then .ok (eQuotedString, m1, params) else
        .ok ((cb params (columns.map (cString m1))).2, m1,
          (cb params (columns.map (cString m1))).1) : Except Breach _) = _
    split_ifs at result ⊢
    all_goals exact ok_congr result

/-! The checks take nothing away: what a checked run ends with, the plain run ends with. -/

theorem of_readAt {last i : ℕ} {m : Buffer} {c : Char} (h : readAt last m i = .ok c) :
    i < maxLineLen ∧ i ≤ last ∧ m i = c := by
  unfold readAt at h
  split_ifs at h with outside past
  exact ⟨by omega, by omega, Except.ok.inj h⟩

theorem of_writeBehind {m m' : Buffer} {q p : ℕ} {c : Char} (h : writeBehind m q p c = .ok m') :
    m' = put m p c := by
  unfold writeBehind at h
  split_ifs at h
  exact (Except.ok.inj h).symm

theorem bind_eq_ok {ε α β : Type} {x : Except ε α} {f : α → Except ε β} {b : β}
    (h : x >>= f = .ok b) : ∃ a, x = .ok a ∧ f a = .ok b := by
  cases x with
  | error e => cases h
  | ok a => exact ⟨a, rfl, h⟩

theorem copyQuoted_of_checked {last turns : ℕ} {m : Buffer} {p q : ℕ}
    {r : Bool × Buffer × ℕ × ℕ} (checked : copyQuotedChecked last turns m p q = .ok r) :
    copyQuoted turns m p q = .ok r := by
  induction turns generalizing m p q with
  | zero => cases checked
  | succ turns ih =>
    obtain ⟨c, read, checked⟩ := bind_eq_ok checked
    obtain ⟨inside, -, here⟩ := of_readAt read
    by_cases isNul : c = nul
    · rw [if_pos isNul] at checked
      rw [copyQuoted_nul inside (here.trans isNul)]
      exact ok_congr checked
    · rw [if_neg isNul] at checked
      by_cases quote : c = '"'
      · rw [if_pos quote] at checked
        obtain ⟨d, read', checked⟩ := bind_eq_ok checked
        obtain ⟨inside', -, next⟩ := of_readAt read'
        by_cases doubled : d = '"'
        · rw [if_neg (not_not.mpr doubled)] at checked
          obtain ⟨m', written, checked⟩ := bind_eq_ok checked
          rw [of_writeBehind written, doubled] at checked
          rw [copyQuoted_doubled inside' (here.trans quote) (next.trans doubled)]
          exact ih checked
        · rw [if_pos doubled] at checked
          rw [copyQuoted_closed inside' (here.trans quote) (next ▸ doubled)]
          exact ok_congr checked
      · rw [if_neg quote] at checked
        obtain ⟨m', written, checked⟩ := bind_eq_ok checked
        rw [of_writeBehind written] at checked
        rw [copyQuoted_other inside here isNul quote]
        exact ih checked

theorem skipBlanks_of_checked {last turns : ℕ} {m : Buffer} {q q' : ℕ}
    (checked : skipBlanksChecked last turns m q = .ok q') : skipBlanks turns m q = .ok q' := by
  induction turns generalizing q with
  | zero => cases checked
  | succ turns ih =>
    obtain ⟨c, read, checked⟩ := bind_eq_ok checked
    obtain ⟨inside, -, here⟩ := of_readAt read
    rw [skipBlanks, if_neg (by omega), here]
    by_cases blank : isBlank c = true
    · rw [if_pos blank] at checked ⊢
      exact ih checked
    · rw [if_neg blank] at checked ⊢
      exact ok_congr checked

theorem csvProcessQuotedString_of_checked {last : ℕ} {m : Buffer} {buff : ℕ}
    {r : ℤ × Buffer × ℕ} (checked : csvProcessQuotedStringChecked last m buff = .ok r) :
    csvProcessQuotedString m buff = .ok r := by
  obtain ⟨⟨closed, m1, p, q⟩, copied, checked⟩ := bind_eq_ok checked
  have copied' := copyQuoted_of_checked copied
  cases closed with
  | false =>
    rw [csvProcessQuotedString, copied']
    exact ok_congr checked
  | true =>
    obtain ⟨m2, written, checked⟩ := bind_eq_ok checked
    obtain ⟨q', skipped, checked⟩ := bind_eq_ok checked
    obtain ⟨c, read, checked⟩ := bind_eq_ok checked
    obtain ⟨-, -, here⟩ := of_readAt read
    rw [of_writeBehind written] at skipped here checked
    rw [csvProcessQuotedString_of_loops copied' (skipBlanks_of_checked skipped), verdict, here,
      apply_ite Except.ok]
    split_ifs at checked ⊢
    · exact ok_congr checked
    · exact ok_congr checked

theorem parseFields_of_checked {last turns : ℕ} {m : Buffer} {buff : ℕ} {columns : List ℕ}
    {r : ℤ × Buffer × List ℕ} (checked : parseFieldsChecked last turns m buff columns = .ok r) :
    parseFields turns m buff columns = .ok r := by
  induction turns generalizing m buff columns with
  | zero => cases checked
  | succ turns ih =>
    obtain ⟨c, read, checked⟩ := bind_eq_ok checked
    obtain ⟨inside, -, here⟩ := of_readAt read
    rw [parseFields, if_neg (by omega), here]
    split_ifs at checked ⊢ with newline comma full quote
    · exact ok_congr checked
    · exact ih checked
    · obtain ⟨⟨code, m1, at_⟩, processed, checked⟩ := bind_eq_ok checked
      rw [csvProcessQuotedString_of_checked processed]
      show (if code = eQuotedString then .ok (eQuotedString, m1, columns)
        else parseFields turns m1 (at_ + 1) columns) = _
      have result : (if code = eQuotedString then .ok (eQuotedString, m1, columns)
        else parseFieldsChecked last turns m1 (at_ + 1) columns) = _ := checked
      by_cases bad : code = eQuotedString
      · rw [if_pos bad] at result ⊢
        exact ok_congr result
      · rw [if_neg bad] at result ⊢
        exact ih result
    · exact ih checked

theorem csvParseLine_of_checked {last : ℕ} {cb : Option (Callback σ)} {m : Buffer} {params : σ}
    {r : ℤ × Buffer × σ} (checked : csvParseLineChecked last cb m params = .ok r) :
    csvParseLine cb m params = .ok r := by
  obtain ⟨⟨code, m1, columns⟩, parsed, checked⟩ := bind_eq_ok checked
  rw [csvParseLine, parseFields_of_checked parsed]
  show (if code = eQuotedString then _ else _) = _
  by_cases bad : code = eQuotedString
  · rw [if_pos bad]
    have stopped : (if code = eQuotedString then _ else _) = _ := checked
    rw [if_pos bad] at stopped
    exact ok_congr stopped
  · rw [if_neg bad]
    have called : (if code = eQuotedString then _ else _) = _ := checked
    rw [if_neg bad] at called
    cases cb with
    | none => exact ok_congr called
    | some cb => exact ok_congr called

theorem csvParseChecked_turn (cb : Option (Callback σ)) {m m' : Buffer} {file rest : Text}
    (params : σ) (read : fgets (put m (maxLineLen - 1) '*') file = some (m', rest)) :
    csvParseChecked cb m file params =
      if m' (maxLineLen - 1) = nul ∧ m' (maxLineLen - 2) ≠ '\n' then .ok (eLineTooWide, params)
      else match csvParseLineChecked (file.length - rest.length) cb m' params with
        | .error breach => .error breach
        | .ok (r, m, params) =>
          if r = eQuotedString then .ok (eQuotedString, params)
          else if r ≠ 0 then .ok (0, params)
          else csvParseChecked cb m rest params := by
  rw [csvParseChecked]
  split
  · next nothing =>
    rw [read] at nothing
    cases nothing
  · next got rest' something =>
    rw [read] at something
    obtain ⟨rfl, rfl⟩ := Prod.mk.inj (Option.some.inj something)
    rfl

theorem csvParseChecked_end (cb : Option (Callback σ)) (m : Buffer) (params : σ) :
    csvParseChecked cb m [] params = .ok (0, params) := by
  rw [csvParseChecked]
  rfl

theorem csvParse_of_checked {cb : Option (Callback σ)} {m : Buffer} {file : Text} {params : σ}
    {r : ℤ × σ} (checked : csvParseChecked cb m file params = .ok r) :
    csvParse cb m file params = .ok r := by
  induction size : file.length using Nat.strong_induction_on generalizing m file params with
  | _ n ih =>
    subst size
    cases read : fgets (put m (maxLineLen - 1) '*') file with
    | none =>
      have empty : file = [] := by
        unfold fgets at read
        split_ifs at read with empty
        exact empty
      subst empty
      rw [csvParseChecked_end] at checked
      rw [csvParse_end]
      exact ok_congr checked
    | some got =>
      obtain ⟨m', rest⟩ := got
      rw [csvParseChecked_turn cb params read] at checked
      rw [csvParse_turn cb params read]
      split_ifs at checked ⊢ with wide
      · exact ok_congr checked
      · cases line : csvParseLineChecked (file.length - rest.length) cb m' params with
        | error breach =>
          rw [line] at checked
          cases checked
        | ok out =>
          obtain ⟨code, m'', params'⟩ := out
          rw [line] at checked
          rw [csvParseLine_of_checked line]
          simp only at checked ⊢
          split_ifs at checked ⊢ with quoted stop
          · exact ok_congr checked
          · exact ok_congr checked
          · exact ih rest.length (length_fgets_lt read) checked rfl

end ObjSearch.Csv.Checked
