/- Arrays of a fixed size whose cells hold nothing until they are written, and C strings in them.
   digest: A string that begins in the written cells is read exactly where one of them ends it. -/

import ObjSearch.Lib.Cells
import ObjSearch.Lib.Texts

set_option autoImplicit false
set_option relaxedAutoImplicit false

namespace ObjSearch.Lib.Arrays

open ObjSearch.Lib.Cells (put)
open ObjSearch.Lib.Texts (Text)

inductive Fault where
  /-- an index that the array does not have -/
  | outside
  /-- a cell that has not been written -/
  | unwritten
  /-- a loop that has not ended within the rounds it was given -/
  | endless
deriving DecidableEq, Repr

/-- The cells of an array, as far as they have been written. -/
abbrev Written (α : Type) := ℕ → Option α

variable {α : Type}

def get (size : ℕ) (m : Written α) (i : ℕ) : Except Fault α :=
  if size ≤ i then .error .outside
  else match m i with
    | some x => .ok x
    | none => .error .unwritten

def set (size : ℕ) (m : Written α) (i : ℕ) (x : α) : Except Fault (Written α) :=
  if size ≤ i then .error .outside else .ok (put m i (some x))

def ofList (xs : List α) : Written α := fun i => xs[i]?

def nul : Char := '\x00'

def cStringFrom (size : ℕ) (m : Written Char) : ℕ → ℕ → Except Fault Text
  | 0, _ => .error .outside
  | left + 1, i => do
    let c ← get size m i
    if c = nul then return []
    let t ← cStringFrom size m left (i + 1)
    return c :: t

def cString (size : ℕ) (m : Written Char) (i : ℕ) : Except Fault Text :=
  cStringFrom size m (size - i) i

/-- `strlen`, and `wcslen` where the characters are wide. -/
def strlen (size : ℕ) (m : Written Char) (i : ℕ) : Except Fault ℕ := do
  let t ← cString size m i
  return t.length

theorem get_of_eq_some {size i : ℕ} {m : Written α} {x : α} (inside : i < size)
    (cell : m i = some x) : get size m i = .ok x := by
  rw [get, if_neg (not_le.mpr inside), cell]

theorem get_ofList {size : ℕ} {pre : List α} {x : α} {xs : List α}
    (inside : pre.length < size) : get size (ofList (pre ++ x :: xs)) pre.length = .ok x := by
  have cell : ofList (pre ++ x :: xs) pre.length = some x := by
    rw [ofList, List.getElem?_append_right le_rfl, Nat.sub_self]
    rfl
  exact get_of_eq_some inside cell

/-- The array that holds `initial` and has then been written from its first cell on. -/
def pushed (initial : Written α) (xs : List α) : Written α := fun i => xs[i]?.or (initial i)

theorem pushed_none (xs : List α) : pushed (fun _ => none) xs = ofList xs := by
  funext i
  exact Option.or_none

theorem set_pushed {size : ℕ} {initial : Written α} {xs : List α} (x : α)
    (inside : xs.length < size) :
    set size (pushed initial xs) xs.length x = .ok (pushed initial (xs ++ [x])) := by
  rw [set, if_neg (not_le.mpr inside)]
  congr 1
  funext i
  by_cases here : i = xs.length
  · rw [here, ObjSearch.Lib.Cells.put_self, pushed, List.getElem?_concat_length]
    rfl
  · rw [ObjSearch.Lib.Cells.put_ne _ _ here, pushed, pushed]
    rcases lt_or_gt_of_ne here with before | behind
    · rw [List.getElem?_append_left before]
    · rw [List.getElem?_eq_none behind.le, List.getElem?_eq_none]
      rw [List.length_append, List.length_singleton]
      omega

theorem set_ofList {size : ℕ} {xs : List α} (x : α) (inside : xs.length < size) :
    set size (ofList xs) xs.length x = .ok (ofList (xs ++ [x])) := by
  rw [← pushed_none, ← pushed_none, set_pushed x inside]

theorem cString_ofList {size : ℕ} {pre run rest : Text} (plain : nul ∉ run)
    (fits : (pre ++ (run ++ nul :: rest)).length ≤ size) :
    cString size (ofList (pre ++ (run ++ nul :: rest))) pre.length = .ok run := by
  have from_ (left : ℕ) (enough : run.length < left) :
      cStringFrom size (ofList (pre ++ (run ++ nul :: rest))) left pre.length = .ok run := by
    induction run generalizing pre left with
    | nil =>
      obtain ⟨left, rfl⟩ := Nat.exists_eq_add_one_of_ne_zero (Nat.ne_of_gt enough)
      simp only [List.nil_append, List.length_append, List.length_cons] at fits ⊢
      rw [cStringFrom, get_ofList (by omega)]
      rfl
    | cons c run ih =>
      rw [List.mem_cons, not_or] at plain
      obtain ⟨left, rfl⟩ :=
        Nat.exists_eq_add_one_of_ne_zero (Nat.ne_of_gt (Nat.zero_lt_of_lt enough))
      have here : get size (ofList (pre ++ (c :: run ++ nul :: rest))) pre.length = .ok c := by
        rw [List.cons_append]
        apply get_ofList
        simp only [List.length_append, List.length_cons] at fits
        omega
      have moved : pre ++ (c :: run ++ nul :: rest) = (pre ++ [c]) ++ (run ++ nul :: rest) := by
        simp
      have later := @ih (pre ++ [c]) plain.2 (by rw [← moved]; exact fits) left
        (by rw [List.length_cons] at enough; omega)
      rw [List.length_append, List.length_singleton, ← moved] at later
      rw [cStringFrom, here]
      simp only [bind, Except.bind, if_neg (Ne.symm plain.1), later]
      rfl
  apply from_
  simp only [List.length_append, List.length_cons] at fits
  omega

theorem cString_unterminated {size : ℕ} {pre run : Text} (plain : nul ∉ run)
    (fits : (pre ++ run).length ≤ size) :
    ∃ f, cString size (ofList (pre ++ run)) pre.length = .error f ∧ f ≠ .endless := by
  have from_ (left : ℕ) (all : pre.length + left = size) :
      ∃ f, cStringFrom size (ofList (pre ++ run)) left pre.length = .error f ∧ f ≠ .endless := by
    induction run generalizing pre left with
    | nil =>
      cases left with
      | zero => exact ⟨.outside, rfl, by decide⟩
      | succ left =>
        have cell : ofList (pre ++ []) pre.length = none := by
          rw [ofList, List.append_nil, List.getElem?_eq_none le_rfl]
        refine ⟨.unwritten, ?_, by decide⟩
        rw [cStringFrom, get, if_neg (by omega), cell]
        rfl
    | cons c run ih =>
      rw [List.mem_cons, not_or] at plain
      cases left with
      | zero => exact ⟨.outside, rfl, by decide⟩
      | succ left =>
        have moved : pre ++ c :: run = (pre ++ [c]) ++ run := by simp
        obtain ⟨f, later, other⟩ := @ih (pre ++ [c]) plain.2 (by rw [← moved]; exact fits)
          left (by rw [List.length_append, List.length_singleton]; omega)
        refine ⟨f, ?_, other⟩
        rw [List.length_append, List.length_singleton, ← moved] at later
        rw [cStringFrom, get_ofList (by omega)]
        simp only [bind, Except.bind, if_neg (Ne.symm plain.1), later]
  apply from_
  rw [List.length_append] at fits
  omega

end ObjSearch.Lib.Arrays
