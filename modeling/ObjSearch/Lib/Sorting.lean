/- Lists sorted by a key, by any algorithm.
   digest: A second value of the elements comes out in order, whatever the order of elements with
   one key, exactly where it is a monotone function of the key. -/

import Mathlib.Data.List.Pairwise
import Mathlib.Order.Lattice

set_option autoImplicit false
set_option relaxedAutoImplicit false

namespace ObjSearch.Lib.Sorting

variable {α K V : Type} [LinearOrder K] [LinearOrder V] (key : α → K) (shown : α → V)

def against (a b : α) : Bool := key a < key b ∨ (key a = key b ∧ shown b ≤ shown a)

theorem pairwise_against (l : List α) :
    (l.mergeSort (against key shown)).Pairwise (fun a b => against key shown a b) := by
  apply List.pairwise_mergeSort
  · intro a b c hab hbc
    simp only [against, decide_eq_true_eq] at hab hbc ⊢
    rcases hab with less | ⟨same, order⟩
    · rcases hbc with less' | ⟨same', -⟩
      · exact .inl (less.trans less')
      · exact .inl (same' ▸ less)
    · rcases hbc with less' | ⟨same', order'⟩
      · exact .inl (same ▸ less')
      · exact .inr ⟨same.trans same', order'.trans order⟩
  · intro a b
    simp only [against, Bool.or_eq_true, decide_eq_true_eq]
    rcases lt_trichotomy (key a) (key b) with less | same | more
    · exact .inl (.inl less)
    · rcases le_total (shown b) (shown a) with down | up
      · exact .inl (.inr ⟨same, down⟩)
      · exact .inr (.inr ⟨same.symm, up⟩)
    · exact .inr (.inl more)

/-- Every list that is sorted by the key is sorted by the other value, where that is so for any two
elements in any order. -/
theorem forall_sorted_iff (l : List α) :
    (∀ sorted : List α, sorted.Perm l → sorted.Pairwise (fun a b => key a ≤ key b) →
      sorted.Pairwise (fun a b => shown a ≤ shown b)) ↔
    ∀ a ∈ l, ∀ b ∈ l, key a ≤ key b → shown a ≤ shown b := by
  constructor
  · intro all
    have perm := List.mergeSort_perm l (against key shown)
    have order := pairwise_against key shown l
    have ascending := all _ perm (order.imp (fun {a b} h => by
      simp only [against, decide_eq_true_eq] at h
      rcases h with less | ⟨same, -⟩
      · exact less.le
      · exact same.le))
    intro a ha b hb
    -- of two elements, the one that comes first shows the smaller value, and the greater one
    -- where the keys are the same
    apply List.Pairwise.forall_of_forall_of_flip
      (R := fun a b => key a ≤ key b → shown a ≤ shown b)
      (l := l.mergeSort (against key shown))
    · intro x _ _
      exact le_rfl
    · exact ascending.imp (fun {a b} h (_ : key a ≤ key b) => h)
    · apply order.imp
      intro x y h le
      simp only [against, decide_eq_true_eq] at h
      rcases h with less | ⟨-, down⟩
      · exact absurd less (not_lt.mpr le)
      · exact down
    · exact perm.mem_iff.mpr ha
    · exact perm.mem_iff.mpr hb
  · intro pairs sorted perm ascending
    apply List.Pairwise.imp_of_mem _ ascending
    intro a b ha hb le
    exact pairs a (perm.mem_iff.mp ha) b (perm.mem_iff.mp hb) le

end ObjSearch.Lib.Sorting
