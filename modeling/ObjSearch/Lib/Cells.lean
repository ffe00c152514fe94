/- Memory as cells with an address each, and the lists found in consecutive cells.
   digest: A list stays where it is under writes outside its cells. -/

import Mathlib.Data.List.Basic
import Mathlib.Logic.Function.Basic

set_option autoImplicit false
set_option relaxedAutoImplicit false

namespace ObjSearch.Lib.Cells

variable {α : Type}

/-- From cell `i` on, the cells hold this list. -/
def Holds (m : ℕ → α) : ℕ → List α → Prop
  | _, [] => True
  | i, x :: xs => m i = x ∧ Holds m (i + 1) xs

def put (m : ℕ → α) (i : ℕ) (x : α) : ℕ → α := Function.update m i x

@[simp] theorem put_self (m : ℕ → α) (i : ℕ) (x : α) : put m i x i = x := Function.update_self ..

theorem put_ne (m : ℕ → α) {i j : ℕ} (x : α) (h : j ≠ i) : put m i x j = m j :=
  Function.update_of_ne h ..

@[simp] theorem holds_nil (m : ℕ → α) (i : ℕ) : Holds m i [] := trivial

@[simp] theorem holds_cons {m : ℕ → α} {i : ℕ} {x : α} {xs : List α} :
    Holds m i (x :: xs) ↔ m i = x ∧ Holds m (i + 1) xs := Iff.rfl

theorem holds_append {m : ℕ → α} {i : ℕ} {xs ys : List α} :
    Holds m i (xs ++ ys) ↔ Holds m i xs ∧ Holds m (i + xs.length) ys := by
  induction xs generalizing i with
  | nil => simp
  | cons x xs ih =>
    rw [List.cons_append, holds_cons, holds_cons, ih, and_assoc, List.length_cons]
    rw [show i + 1 + xs.length = i + (xs.length + 1) by omega]

theorem holds_concat {m : ℕ → α} {i : ℕ} {xs : List α} {x : α} :
    Holds m i (xs ++ [x]) ↔ Holds m i xs ∧ m (i + xs.length) = x := by
  rw [holds_append, holds_cons]
  simp

theorem Holds.getElem {m : ℕ → α} {i k : ℕ} {xs : List α} (h : Holds m i xs)
    (lt : k < xs.length) : m (i + k) = xs[k] := by
  induction xs generalizing i k with
  | nil => cases lt
  | cons x xs ih =>
    cases k with
    | zero => exact h.1
    | succ k =>
      rw [List.length_cons] at lt
      have later := ih h.2 (show k < xs.length by omega)
      rw [show i + 1 + k = i + (k + 1) by omega] at later
      exact later

theorem Holds.congr {m m' : ℕ → α} {i : ℕ} {xs : List α} (h : Holds m i xs)
    (same : ∀ j, i ≤ j → j < i + xs.length → m' j = m j) : Holds m' i xs := by
  induction xs generalizing i with
  | nil => trivial
  | cons x xs ih =>
    rw [List.length_cons] at same
    refine ⟨(same i (by omega) (by omega)).trans h.1, ih h.2 ?_⟩
    intro j low high
    exact same j (by omega) (by omega)

theorem Holds.put_before {m : ℕ → α} {i j : ℕ} {xs : List α} (h : Holds m i xs) (x : α)
    (before : j < i) : Holds (put m j x) i xs := by
  apply h.congr
  intro k low _
  exact put_ne m x (by omega)

theorem Holds.put_after {m : ℕ → α} {i j : ℕ} {xs : List α} (h : Holds m i xs) (x : α)
    (after : i + xs.length ≤ j) : Holds (put m j x) i xs := by
  apply h.congr
  intro k _ high
  exact put_ne m x (by omega)

/-- Every stretch of cells holds the list of its members, here up to the first occurrence of one
of them. -/
theorem exists_holds {m : ℕ → α} {i last : ℕ} (le : i ≤ last)
    (first : ∀ j, i ≤ j → j < last → m j ≠ m last) :
    ∃ xs, Holds m i (xs ++ [m last]) ∧ i + xs.length = last ∧ m last ∉ xs := by
  obtain ⟨n, rfl⟩ := Nat.exists_eq_add_of_le le
  induction n generalizing i with
  | zero => exact ⟨[], ⟨rfl, trivial⟩, rfl, List.not_mem_nil⟩
  | succ n ih =>
    rw [show i + (n + 1) = i + 1 + n by omega] at first ⊢
    obtain ⟨xs, here, ends, clean⟩ := ih (by omega) (fun j low high => first j (by omega) high)
    refine ⟨m i :: xs, ⟨rfl, here⟩, by rw [List.length_cons]; omega, ?_⟩
    rw [List.mem_cons, not_or]
    exact ⟨(first i (by omega) (by omega)).symm, clean⟩

theorem Holds.begins {m : ℕ → α} {i : ℕ} {xs ys : List α} {z : α} (here : Holds m i xs)
    (there : Holds m i (ys ++ [z])) (clean : z ∉ xs) : xs <+: ys := by
  induction xs generalizing i ys with
  | nil => exact List.nil_prefix
  | cons x xs ih =>
    rw [List.mem_cons, not_or] at clean
    cases ys with
    | nil => exact absurd (there.1.symm.trans here.1) clean.1
    | cons y ys =>
      rw [← here.1, ← there.1]
      exact (List.prefix_cons_inj _).mpr (ih here.2 there.2 clean.2)

end ObjSearch.Lib.Cells
