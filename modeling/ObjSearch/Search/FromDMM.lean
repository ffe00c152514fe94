/- Reading positions back from the list: `fromDMM`, with its three arrays.
   digest: It reads cells that it has written exactly where the text is short and its last
   character belongs to no number. -/

import ObjSearch.Lib.Arrays
import ObjSearch.Lib.Decimals
import ObjSearch.Lib.Pieces

set_option autoImplicit false
set_option relaxedAutoImplicit false

namespace ObjSearch.Search.FromDMM

open ObjSearch.Lib.Arrays
open ObjSearch.Lib.Decimals (atof)
open ObjSearch.Lib.Pieces
open ObjSearch.Lib.Texts (Text)

/-- The replacement in the rest of a text, of which so many characters belong to an occurrence
    already replaced. -/
def replaceFrom (old new : Text) : ℕ → Text → Text
  | _, [] => []
  | found + 1, _ :: s => replaceFrom old new found s
  | 0, c :: s =>
      if old.isPrefixOf (c :: s) then new ++ replaceFrom old new (old.length - 1) s
      else c :: replaceFrom old new 0 s

/-- `wxString::Replace`, of all occurrences. -/
def replace (old new s : Text) : Text := replaceFrom old new 0 s

/-- What becomes of the text before its characters are taken one by one; `upper` is the upper case
    of a character. -/
def prepare (upper : Char → Char) (sdms : Text) : Text :=
  let sdms := replace "´·".toList ".".toList sdms
  let sdms := replace "\"·".toList ".".toList sdms
  let sdms := replace "·".toList ".".toList sdms
  let sdms := replace "s. š.".toList "N".toList sdms
  let sdms := replace "j. š.".toList "S".toList sdms
  let sdms := replace "v. d.".toList "E".toList sdms
  let sdms := replace "z. d.".toList "W".toList sdms
  let sdms := sdms.map upper
  if 'N' ∈ sdms ∨ 'S' ∈ sdms ∨ 'E' ∈ sdms ∨ 'W' ∈ sdms then
    replace "-".toList " ".toList sdms
  else sdms

def upToNul (s : Text) : Text := s.takeWhile (fun c => c ≠ nul)

/-- `wcsncpy` into an array of `n` cells: NULs fill up what the text leaves, if anything. -/
def wcsncpy (n : ℕ) (s : Text) : Written Char := ofList ((upToNul s ++ List.replicate n nul).take n)

def stays (c : Char) : Bool := ('0' ≤ c ∧ c ≤ '9') ∨ c = '-' ∨ c = '.' ∨ c = '+'

def negates (c : Char) : Bool := c.toNat ||| 32 = 'w'.toNat ∨ c.toNat ||| 32 = 's'.toNat

/-- The loop that fills `narrowbuf`, from cell `i` on. -/
def narrow (buf : Written Char) :
    ℕ → ℕ → Written Char → ℚ → Except Fault (Written Char × ℚ)
  | 0, _, narrowbuf, sign => .ok (narrowbuf, sign)
  | left + 1, i, narrowbuf, sign => do
    let c ← get 64 buf i
    if stays c then
      let narrowbuf ← set 64 narrowbuf i c
      narrow buf left (i + 1) narrowbuf sign
    else if c = ',' then
      let narrowbuf ← set 64 narrowbuf i '.'
      narrow buf left (i + 1) narrowbuf sign
    else
      let sign := if negates c then -1 else sign
      let narrowbuf ← set 64 narrowbuf i nul
      narrow buf left (i + 1) narrowbuf sign

/-- The inner loop: the first cell from `i` on that is no NUL. -/
def skip (narrowbuf : Written Char) : ℕ → ℕ → Except Fault ℕ
  | 0, i => .ok i
  | left + 1, i => do
    let c ← get 64 narrowbuf i
    if c = nul then skip narrowbuf left (i + 1) else return i

/-- The loop that fills `stk`, from cell `i` on and within so many rounds. -/
def stack (len : ℕ) (narrowbuf : Written Char) :
    ℕ → ℕ → Written ℚ → ℕ → Except Fault (Written ℚ × ℕ)
  | 0, _, _, _ => .error .endless
  | rounds + 1, i, stk, top =>
    if i < len then do
      let i ← skip narrowbuf (len - i) i
      if i ≠ len then
        let number ← cString 64 narrowbuf i
        let stk ← set 32 stk top (atof number)
        let passed ← strlen 64 narrowbuf i
        stack len narrowbuf rounds (i + passed + 1) stk (top + 1)
      else stack len narrowbuf rounds (i + 1) stk top
    else return (stk, top)

/-- The variables of `fromDMM` at its end, and what it returns. -/
structure Decoded where
  value : ℚ
  len : ℕ
  narrowbuf : Written Char
  top : ℕ

variable (upper : Char → Char)

def decode (sdms : Text) : Except Fault Decoded := do
  let buf := wcsncpy 64 (prepare upper sdms)
  let len ← strlen 64 buf 0
  let (narrowbuf, sign) ← narrow buf len 0 (fun _ => none) 1
  let (stk, top) ← stack len narrowbuf (len + 2) 0 (ofList [0, 0, 0]) 0
  let whole ← get 32 stk 0
  let minutes ← get 32 stk 1
  let seconds ← get 32 stk 2
  return ⟨sign * (whole + (minutes + seconds / 60) / 60), len, narrowbuf, top⟩

def fromDMM (sdms : Text) : Except Fault ℚ := do
  let d ← decode upper sdms
  return d.value

/-! What the loops make of a text. -/

def ends (c : Char) : Bool := ¬ stays c ∧ c ≠ ','

def decimal (c : Char) : Char := if c = ',' then '.' else c

def cell (c : Char) : Char := if ends c then nul else decimal c

/-- The NULs of `narrowbuf` separate what it holds. -/
abbrev separates (c : Char) : Bool := c = nul

theorem negates_iff (c : Char) : negates c ↔ c = 'w' ∨ c = 'W' ∨ c = 's' ∨ c = 'S' := by
  have codes : ∀ n < 120, n ||| 32 = 119 ∨ n ||| 32 = 115 →
      n = 119 ∨ n = 87 ∨ n = 115 ∨ n = 83 := by
    decide +kernel
  rw [negates, decide_eq_true_iff]
  constructor
  · intro h
    have small : c.toNat < 120 := by
      have below : c.toNat ≤ c.toNat ||| 32 := Nat.left_le_or
      rcases h with h | h
      · rw [h] at below
        exact Nat.lt_succ_of_le below
      · rw [h] at below
        exact Nat.lt_of_le_of_lt below (by decide)
    rcases codes c.toNat small h with h | h | h | h
    · exact .inl (Char.toNat_inj.mp h)
    · exact .inr (.inl (Char.toNat_inj.mp h))
    · exact .inr (.inr (.inl (Char.toNat_inj.mp h)))
    · exact .inr (.inr (.inr (Char.toNat_inj.mp h)))
  · rintro (rfl | rfl | rfl | rfl) <;> decide

theorem ends_of_negates {c : Char} (h : negates c) : ends c := by
  rcases (negates_iff c).mp h with rfl | rfl | rfl | rfl <;> decide

theorem cell_ne_nul {c : Char} (h : ends c = false) : cell c ≠ nul := by
  rw [cell, h, if_neg Bool.false_ne_true, decimal]
  split_ifs with comma
  · decide
  · rintro rfl
    cases h

theorem separates_cell (c : Char) : separates (cell c) = ends c := by
  cases h : ends c with
  | true =>
    rw [cell, if_pos h]
    rfl
  | false => exact decide_eq_false (cell_ne_nul h)

theorem narrow_cons {pre rest cells : Text} {c : Char} (sign : ℚ) (left : ℕ)
    (same : cells.length = pre.length) (inside : pre.length < 64) :
    narrow (ofList (pre ++ c :: rest)) (left + 1) pre.length (ofList cells) sign =
      narrow (ofList (pre ++ c :: rest)) left (pre.length + 1) (ofList (cells ++ [cell c]))
        (if negates c then -1 else sign) := by
  have write (x : Char) :
      set 64 (ofList cells) pre.length x = .ok (ofList (cells ++ [x])) := by
    rw [← same] at inside ⊢
    exact set_ofList x inside
  have kept (h : ends c = false) : negates c = false := by
    by_contra negative
    rw [ends_of_negates (Bool.eq_true_of_not_eq_false negative)] at h
    cases h
  rw [narrow, get_ofList inside]
  simp only [bind, Except.bind, write]
  by_cases number : stays c
  · have none_ : ends c = false := by simp [ends, number]
    have plain : c ≠ ',' := by
      rintro rfl
      cases number
    rw [if_pos number, cell, none_, if_neg Bool.false_ne_true, decimal, if_neg plain, kept none_,
      if_neg Bool.false_ne_true]
  · rw [if_neg number]
    by_cases comma : c = ','
    · rw [if_pos comma, comma]
      rfl
    · have ended : ends c := by simp [ends, number, comma]
      rw [if_neg comma, cell, if_pos ended]

theorem narrow_eq {pre t rest : Text} (sign : ℚ) (fits : (pre ++ t).length ≤ 64) :
    narrow (ofList (pre ++ (t ++ rest))) t.length pre.length (ofList (pre.map cell)) sign =
      .ok (ofList ((pre ++ t).map cell), if t.any negates then -1 else sign) := by
  induction t generalizing pre sign with
  | nil => rw [List.append_nil]; rfl
  | cons c t ih =>
    have moved : pre ++ (c :: t ++ rest) = (pre ++ [c]) ++ (t ++ rest) := by simp
    have later := @ih (pre ++ [c]) (if negates c then -1 else sign) (by simpa using fits)
    rw [List.length_append, List.length_singleton, ← moved, List.map_append] at later
    rw [List.length_append, List.length_cons] at fits
    rw [List.length_cons, List.cons_append,
      narrow_cons sign t.length (List.length_map ..) (by omega)]
    rw [List.cons_append] at later
    refine later.trans ?_
    rw [List.append_assoc, List.singleton_append, List.any_cons]
    cases negates c <;> simp

def readings (cells : Text) : List ℚ := (pieces separates cells).map atof

theorem skip_nul {narrowbuf : Written Char} {i : ℕ} (left : ℕ)
    (here : get 64 narrowbuf i = .ok nul) :
    skip narrowbuf (left + 1) i = skip narrowbuf left (i + 1) := by
  rw [skip, here]
  rfl

theorem skip_of_ne {narrowbuf : Written Char} {i : ℕ} {c : Char} (left : ℕ)
    (here : get 64 narrowbuf i = .ok c) (plain : c ≠ nul) : skip narrowbuf left i = .ok i := by
  cases left with
  | zero => rfl
  | succ left =>
    rw [skip, here]
    simp only [bind, Except.bind, if_neg plain]
    rfl

theorem stack_nul {len rounds i top : ℕ} {narrowbuf : Written Char} {stk : Written ℚ}
    (before : i < len) (here : get 64 narrowbuf i = .ok nul) :
    stack len narrowbuf (rounds + 2) i stk top =
      stack len narrowbuf (rounds + 2) (i + 1) stk top := by
  have left : len - i = len - (i + 1) + 1 := by omega
  rw [stack, if_pos before, left, skip_nul _ here]
  by_cases next : i + 1 < len
  · rw [stack, if_pos next]
  · -- the last cell: the round ends behind it, and the next one ends the loop
    have last : i + 1 = len := by omega
    rw [stack, if_neg next, last, Nat.sub_self]
    change (if len ≠ len then _ else stack len narrowbuf (rounds + 1) (len + 1) stk top) = _
    rw [if_neg (not_not_intro rfl), stack, if_neg (by omega)]

theorem stack_number {len rounds : ℕ} {pre r rest : Text} {initial : Written ℚ} {xs : List ℚ}
    (all : (pre ++ (r ++ nul :: rest)).length = len) (fits : len ≤ 64) (room : xs.length < 32)
    (some_ : r ≠ []) (plain : nul ∉ r) :
    stack len (ofList (pre ++ (r ++ nul :: rest))) (rounds + 1) pre.length (pushed initial xs)
        xs.length =
      stack len (ofList (pre ++ (r ++ nul :: rest))) rounds (pre.length + r.length + 1)
        (pushed initial (xs ++ [atof r])) (xs.length + 1) := by
  obtain ⟨c, w, rfl⟩ := List.exists_cons_of_ne_nil some_
  have before : pre.length < len := by
    rw [← all, List.length_append, List.length_append, List.length_cons]
    omega
  have first : c ≠ nul := fun same => plain (same ▸ List.mem_cons_self)
  have here : get 64 (ofList (pre ++ (c :: w ++ nul :: rest))) pre.length = .ok c := by
    rw [List.cons_append]
    exact get_ofList (by omega)
  have word := cString_ofList plain (all.trans_le fits)
  rw [stack, if_pos before, skip_of_ne _ here first]
  simp only [bind, Except.bind, if_pos before.ne, word, set_pushed (atof (c :: w)) room, strlen]
  rfl

theorem stack_terminated {u : Text} (terminated : Terminated separates u) {initial : Written ℚ}
    (rounds : ℕ) {pre rest : Text} {xs : List ℚ} {len : ℕ}
    (all : (pre ++ (u ++ rest)).length = len) (fits : len ≤ 64)
    (room : xs.length + (readings u).length ≤ 32) :
    stack len (ofList (pre ++ (u ++ rest))) (rounds + (readings u).length + 2) pre.length
        (pushed initial xs) xs.length =
      stack len (ofList (pre ++ (u ++ rest))) (rounds + 2) (pre ++ u).length
        (pushed initial (xs ++ readings u)) (xs ++ readings u).length := by
  induction terminated generalizing pre xs with
  | nil => simp only [readings, pieces_nil, List.map_nil, List.append_nil, List.length_nil]
  | @skip x u ends rest' ih =>
    obtain rfl := of_decide_eq_true ends
    have moved : pre ++ (nul :: u ++ rest) = (pre ++ [nul]) ++ (u ++ rest) := by simp
    have same : readings (nul :: u) = readings u := congrArg (List.map atof) (pieces_skip ends u)
    have later := @ih (pre ++ [nul]) xs (by rw [← moved, all]) (by rw [← same]; exact room)
    have before : pre.length < len := by
      rw [← all, List.length_append, List.length_append, List.length_cons]
      omega
    have here : get 64 (ofList (pre ++ (nul :: u ++ rest))) pre.length = .ok nul := by
      rw [List.cons_append]
      exact get_ofList (by omega)
    rw [← moved, List.length_append, List.length_singleton] at later
    rw [same, stack_nul before here, later]
    congr 1
    simp only [List.length_append, List.length_cons, List.length_nil]
    omega
  | @run r x u some_ plain ends rest' ih =>
    obtain rfl := of_decide_eq_true ends
    have moved : pre ++ (r ++ nul :: u ++ rest) = (pre ++ r ++ [nul]) ++ (u ++ rest) := by simp
    have apart : pre ++ (r ++ nul :: u ++ rest) = pre ++ (r ++ nul :: (u ++ rest)) := by simp
    have runs : readings (r ++ nul :: u) = atof r :: readings u :=
      congrArg (List.map atof) (pieces_run some_ plain ends u)
    have noNul : nul ∉ r := fun h => of_decide_eq_false (plain nul h) rfl
    rw [runs, List.length_cons] at room
    have later := @ih (pre ++ r ++ [nul]) (xs ++ [atof r]) (by rw [← moved, all])
      (by rw [List.length_append, List.length_singleton]; omega)
    have step := @stack_number len (rounds + (readings u).length + 2) pre r (u ++ rest) initial xs
      (by rw [← apart, all]) fits (by omega) some_ noNul
    rw [← apart] at step
    have ahead : (pre ++ r ++ [nul]).length = pre.length + r.length + 1 := by
      simp [Nat.add_assoc]
    have more : (xs ++ [atof r]).length = xs.length + 1 := List.length_append
    have place : pre ++ r ++ [nul] ++ u = pre ++ (r ++ nul :: u) := by simp
    rw [← moved, ahead, more, place, ← List.append_cons xs] at later
    rw [runs, List.length_cons, ← Nat.add_assoc, Nat.add_right_comm _ 1 2, step]
    exact later

theorem stack_unterminated {len rounds top : ℕ} {pre r : Text} {stk : Written ℚ}
    (all : (pre ++ r).length = len) (fits : len ≤ 64) (some_ : r ≠ []) (plain : nul ∉ r) :
    ∃ f, stack len (ofList (pre ++ r)) (rounds + 1) pre.length stk top = .error f ∧
      f ≠ .endless := by
  obtain ⟨c, w, rfl⟩ := List.exists_cons_of_ne_nil some_
  have before : pre.length < len := by
    rw [← all, List.length_append, List.length_cons]
    omega
  have first : c ≠ nul := fun same => plain (same ▸ List.mem_cons_self)
  have here : get 64 (ofList (pre ++ c :: w)) pre.length = .ok c := get_ofList (by omega)
  obtain ⟨f, fault, other⟩ := cString_unterminated plain (all.trans_le fits)
  refine ⟨f, ?_, other⟩
  rw [stack, if_pos before, skip_of_ne _ here first]
  simp only [bind, Except.bind, if_pos before.ne, fault]

/-! What `fromDMM` makes of a text. -/

abbrev text (sdms : Text) : Text := upToNul (prepare upper sdms)

/-- A text that is short, and that a character of no number ends if anything does. -/
def Readable (t : Text) : Prop := t.length < 64 ∧ ∀ c ∈ t.getLast?, ends c

def numbers (t : Text) : List ℚ := (pieces ends t).map (fun r => atof (r.map decimal))

/-- Degrees, minutes and seconds; numbers that are missing are zero. -/
def position (t : Text) : ℚ :=
  (if t.any negates then -1 else 1) *
    ((numbers t).getD 0 0 + ((numbers t).getD 1 0 + (numbers t).getD 2 0 / 60) / 60)

theorem readings_cells (t : Text) : readings (t.map cell) = numbers t := by
  rw [readings, pieces_map cell separates_cell, List.map_map, numbers]
  apply List.map_congr_left
  intro r hr
  have same : r.map cell = r.map decimal := by
    apply List.map_congr_left
    intro c hc
    rw [cell, plain_of_mem_pieces hr c hc, if_neg Bool.false_ne_true]
  rw [Function.comp_apply, same]

theorem nul_not_mem_upToNul (s : Text) : nul ∉ upToNul s := by
  intro h
  simpa using List.mem_takeWhile_imp h

theorem wcsncpy_of_short {n : ℕ} {s : Text} (short : (upToNul s).length < n) :
    ∃ rest, wcsncpy n s = ofList (upToNul s ++ nul :: rest) ∧
      (upToNul s ++ nul :: rest).length = n := by
  refine ⟨List.replicate (n - (upToNul s).length - 1) nul, ?_, ?_⟩
  · have left : n - (upToNul s).length = n - (upToNul s).length - 1 + 1 := by omega
    rw [wcsncpy, List.take_append, List.take_of_length_le short.le, List.take_replicate,
      min_eq_left (Nat.sub_le _ _), ← List.replicate_succ, ← left]
  · rw [List.length_append, List.length_cons, List.length_replicate]
    omega

theorem wcsncpy_of_long {n : ℕ} {s : Text} (long : n ≤ (upToNul s).length) :
    wcsncpy n s = ofList ((upToNul s).take n) := by
  rw [wcsncpy, List.take_append_of_le_length long]

theorem get_pushed {xs : List ℚ} {i : ℕ} (h : i < 3) :
    get 32 (pushed (ofList [0, 0, 0]) xs) i = .ok (xs.getD i 0) := by
  have zero : ofList [(0 : ℚ), 0, 0] i = some 0 := by
    match i, h with
    | 0, _ | 1, _ | 2, _ => rfl
  apply get_of_eq_some (by omega)
  rw [pushed, zero, List.getD_eq_getElem?_getD]
  cases xs[i]? <;> rfl

theorem decode_of_long {sdms : Text} (long : 64 ≤ (text upper sdms).length) :
    ∃ f, decode upper sdms = .error f ∧ f ≠ .endless := by
  have noNul : nul ∉ (text upper sdms).take 64 :=
    fun h => nul_not_mem_upToNul _ (List.mem_of_mem_take h)
  obtain ⟨f, fault, other⟩ := @cString_unterminated 64 [] _ noNul (by simp)
  refine ⟨f, ?_, other⟩
  rw [decode, wcsncpy_of_long long, strlen]
  rw [List.nil_append, List.length_nil] at fault
  simp only [bind, Except.bind, fault]

theorem decode_of_short {sdms t : Text} (same : text upper sdms = t)
    (short : t.length < 64) :
    decode upper sdms = (do
      let (stk, top) ← stack t.length (ofList (t.map cell)) (t.length + 2) 0 (ofList [0, 0, 0]) 0
      let whole ← get 32 stk 0
      let minutes ← get 32 stk 1
      let seconds ← get 32 stk 2
      return ⟨(if t.any negates then -1 else 1) * (whole + (minutes + seconds / 60) / 60),
        t.length, ofList (t.map cell), top⟩) := by
  have noNul : nul ∉ t := same ▸ nul_not_mem_upToNul (prepare upper sdms)
  obtain ⟨rest, copied, size⟩ : ∃ rest,
      wcsncpy 64 (prepare upper sdms) = ofList (t ++ nul :: rest) ∧
        (t ++ nul :: rest).length = 64 := by
    rw [← same] at short ⊢
    exact wcsncpy_of_short short
  have length := @cString_ofList 64 [] t rest noNul (by simpa using size.le)
  have loop := @narrow_eq [] t (nul :: rest) 1 (by simpa using short.le)
  rw [List.nil_append, List.length_nil] at length loop
  have blank : (fun _ => none : Written Char) = ofList (([] : Text).map cell) := rfl
  rw [decode, copied, strlen, blank]
  simp only [bind, Except.bind, length, loop, pure, Except.pure]
  rfl

theorem terminated_cells {t : Text} (ended : ∀ c ∈ t.getLast?, ends c) :
    Terminated separates (t.map cell) := by
  apply (terminated_iff _).mpr
  intro x hx
  rw [List.getLast?_map] at hx
  obtain ⟨c, last, rfl⟩ := Option.map_eq_some_iff.mp hx
  rw [separates_cell]
  exact ended c last

theorem length_numbers_le {t : Text} (ended : ∀ c ∈ t.getLast?, ends c) :
    2 * (numbers t).length ≤ t.length := by
  have half := length_pieces_le (terminated_cells ended)
  rw [← readings_cells, readings, List.length_map]
  rw [List.length_map] at half
  exact half

theorem stack_from_start {t u r : Text} (split : t.map cell = u ++ r)
    (terminated : Terminated separates u) (short : t.length < 64) :
    stack t.length (ofList (t.map cell)) (t.length + 2) 0 (ofList [0, 0, 0]) 0 =
      stack t.length (ofList (t.map cell)) (t.length - (readings u).length + 2) u.length
        (pushed (ofList [0, 0, 0]) (readings u)) (readings u).length := by
  have half := length_pieces_le terminated
  have total : u.length + r.length = t.length := by
    rw [← List.length_append, ← split, List.length_map]
  have count : (readings u).length = (pieces separates u).length := List.length_map ..
  have rounds : t.length - (readings u).length + (readings u).length + 2 = t.length + 2 := by omega
  have loop := @stack_terminated u terminated (ofList [0, 0, 0])
    (t.length - (readings u).length) [] r [] t.length
    (by rw [List.nil_append, ← split, List.length_map]) short.le
    (by rw [List.length_nil]; omega)
  simp only [List.nil_append, rounds, ← split] at loop
  exact loop

theorem decode_of_terminated {sdms t : Text} (same : text upper sdms = t)
    (short : t.length < 64) (ended : ∀ c ∈ t.getLast?, ends c) :
    decode upper sdms =
      .ok ⟨position t, t.length, ofList (t.map cell), (numbers t).length⟩ := by
  have loop := stack_from_start (List.append_nil _).symm (terminated_cells ended) short
  have end_ (rounds : ℕ) (stk : Written ℚ) (top : ℕ) :
      stack t.length (ofList (t.map cell)) (rounds + 1) t.length stk top = .ok (stk, top) := by
    rw [stack, if_neg (lt_irrefl _)]
    rfl
  rw [List.length_map, end_, readings_cells] at loop
  rw [decode_of_short upper same short, loop]
  simp only [bind, Except.bind, get_pushed (show 0 < 3 by decide),
    get_pushed (show 1 < 3 by decide), get_pushed (show 2 < 3 by decide)]
  rfl

theorem decode_of_unterminated {sdms t : Text} (same : text upper sdms = t)
    (short : t.length < 64) {c : Char} (last : c ∈ t.getLast?) (number : ends c = false) :
    ∃ f, decode upper sdms = .error f ∧ f ≠ .endless := by
  obtain ⟨u, r, split, terminated, plain⟩ := exists_terminated separates (t.map cell)
  have some_ : r ≠ [] := by
    rintro rfl
    rw [List.append_nil] at split
    have nulLast := (terminated_iff _).mp terminated (cell c)
      (by rw [← split, List.getLast?_map, last]; rfl)
    rw [separates_cell, number] at nulLast
    cases nulLast
  have noNul : nul ∉ r := fun h => of_decide_eq_false (plain nul h) rfl
  have total : (u ++ r).length = t.length := by rw [← split, List.length_map]
  have loop := stack_from_start split terminated short
  obtain ⟨f, fault, other⟩ := @stack_unterminated t.length (t.length - (readings u).length + 1)
    (readings u).length u r (pushed (ofList [0, 0, 0]) (readings u)) total short.le some_ noNul
  rw [← split] at fault
  refine ⟨f, ?_, other⟩
  rw [decode_of_short upper same short, loop, fault]
  rfl

theorem fromDMM_of_readable {sdms : Text} (h : Readable (text upper sdms)) :
    fromDMM upper sdms = .ok (position (text upper sdms)) := by
  rw [fromDMM, decode_of_terminated upper rfl h.1 h.2]
  rfl

theorem fromDMM_of_not_readable {sdms : Text} (h : ¬ Readable (text upper sdms)) :
    ∃ f, fromDMM upper sdms = .error f ∧ f ≠ .endless := by
  have failing : ∃ f, decode upper sdms = .error f ∧ f ≠ .endless := by
    rcases lt_or_ge (text upper sdms).length 64 with short | long
    · have last : ∃ c ∈ (text upper sdms).getLast?, ends c = false := by
        by_contra none_
        push Not at none_
        exact h ⟨short, fun c hc => Bool.not_eq_false _ ▸ none_ c hc⟩
      obtain ⟨c, last, number⟩ := last
      exact decode_of_unterminated upper rfl short last number
    · exact decode_of_long upper long
  obtain ⟨f, fault, other⟩ := failing
  refine ⟨f, ?_, other⟩
  rw [fromDMM, fault]
  rfl

/-- Every reading and writing is in order where the text is short and what ends it, if anything,
    belongs to no number. -/
theorem reads_written_iff (sdms : Text) :
    fromDMM upper sdms ≠ .error .endless ∧
      ((∃ v, fromDMM upper sdms = .ok v) ↔
        (text upper sdms).length < 64 ∧ ∀ c ∈ (text upper sdms).getLast?, ends c) := by
  by_cases h : Readable (text upper sdms)
  · have fine := fromDMM_of_readable upper h
    rw [fine]
    exact ⟨nofun, fun _ => h, fun _ => ⟨_, rfl⟩⟩
  · obtain ⟨f, fault, other⟩ := fromDMM_of_not_readable upper h
    rw [fault]
    exact ⟨fun same => other (Except.error.inj same), nofun, fun holds => absurd holds h⟩

/-- Decimal degrees end in a digit, and `strlen` reads on behind it. -/
theorem decimal_degrees_read_on :
    fromDMM Char.toUpper "12.500000".toList = .error .unwritten := by
  decide +kernel

end ObjSearch.Search.FromDMM
