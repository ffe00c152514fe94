/- The maximal runs of a list between its separators.
   digest: A list whose runs are all ended by separators is built up run by run, each of them at
   least two elements long with what ends it. -/

import Mathlib.Data.List.Basic
import Mathlib.Tactic.SplitIfs

set_option autoImplicit false
set_option relaxedAutoImplicit false

namespace ObjSearch.Lib.Pieces

variable {α β : Type} (sep : α → Bool)

/-- The maximal runs of elements that are no separators. -/
def pieces (l : List α) : List (List α) := (l.splitOnP sep).filter (fun r => !r.isEmpty)

inductive Terminated : List α → Prop where
  | nil : Terminated []
  | skip {x : α} {l : List α} (ends : sep x) (rest : Terminated l) : Terminated (x :: l)
  | run {r : List α} {x : α} {l : List α} (some_ : r ≠ []) (plain : ∀ y ∈ r, sep y = false)
      (ends : sep x) (rest : Terminated l) : Terminated (r ++ x :: l)

variable {sep}

theorem pieces_nil : pieces sep ([] : List α) = [] := rfl

theorem pieces_skip {x : α} (ends : sep x) (l : List α) : pieces sep (x :: l) = pieces sep l := by
  rw [pieces, List.splitOnP_cons_eq_if_modifyHead, if_pos ends]
  rfl

theorem pieces_run {r : List α} {x : α} (some_ : r ≠ []) (plain : ∀ y ∈ r, sep y = false)
    (ends : sep x) (l : List α) : pieces sep (r ++ x :: l) = r :: pieces sep l := by
  have split : (r ++ x :: l).splitOnP sep = r :: l.splitOnP sep := by
    induction r with
    | nil => exact absurd rfl some_
    | cons y r ih =>
      have here : ¬ sep y = true := by simp [plain y List.mem_cons_self]
      rw [List.cons_append, List.splitOnP_cons_eq_if_modifyHead, if_neg here]
      cases r with
      | nil =>
        rw [List.nil_append, List.splitOnP_cons_eq_if_modifyHead, if_pos ends]
        rfl
      | cons z r =>
        rw [ih (List.cons_ne_nil z r) (fun w hw => plain w (List.mem_cons_of_mem y hw))]
        rfl
  rw [pieces, split, List.filter_cons_of_pos (by simpa using some_)]
  rfl

theorem pieces_map {sep' : β → Bool} (f : α → β) (same : ∀ x, sep' (f x) = sep x)
    (l : List α) : pieces sep' (l.map f) = (pieces sep l).map (List.map f) := by
  have split : (l.map f).splitOnP sep' = (l.splitOnP sep).map (List.map f) := by
    induction l with
    | nil => rfl
    | cons x l ih =>
      rw [List.map_cons, List.splitOnP_cons_eq_if_modifyHead, List.splitOnP_cons_eq_if_modifyHead,
        same, ih]
      split_ifs
      · rfl
      · cases l.splitOnP sep <;> rfl
  rw [pieces, split, pieces, List.filter_map]
  congr 1
  apply List.filter_congr
  intro r _
  simp

theorem plain_of_mem_splitOnP {l r : List α} (h : r ∈ l.splitOnP sep) :
    ∀ y ∈ r, sep y = false := by
  induction l generalizing r with
  | nil =>
    rw [List.mem_singleton.mp h]
    intro y hy
    cases hy
  | cons x l ih =>
    rw [List.splitOnP_cons_eq_if_modifyHead] at h
    cases ends : sep x with
    | true =>
      rw [if_pos ends] at h
      rcases List.mem_cons.mp h with rfl | later
      · intro y hy
        cases hy
      · exact ih later
    | false =>
      rw [if_neg (Bool.eq_false_iff.mp ends)] at h
      cases split : l.splitOnP sep with
      | nil =>
        rw [split] at h
        cases h
      | cons first others =>
        rw [split] at h ih
        rcases List.mem_cons.mp h with rfl | later
        · intro y hy
          rcases List.mem_cons.mp hy with rfl | behind
          · exact ends
          · exact ih List.mem_cons_self y behind
        · exact ih (List.mem_cons_of_mem first later)

theorem plain_of_mem_pieces {l r : List α} (h : r ∈ pieces sep l) : ∀ y ∈ r, sep y = false :=
  plain_of_mem_splitOnP (List.mem_of_mem_filter h)

/-- A list is a terminated one and a last run, which may be empty. -/
theorem exists_terminated (sep : α → Bool) (l : List α) :
    ∃ u r, l = u ++ r ∧ Terminated sep u ∧ ∀ y ∈ r, sep y = false := by
  induction l with
  | nil => exact ⟨[], [], rfl, .nil, by simp⟩
  | cons x l ih =>
    obtain ⟨u, r, rfl, terminated, plain⟩ := ih
    cases ends : sep x with
    | true => exact ⟨x :: u, r, rfl, .skip ends terminated, plain⟩
    | false =>
      -- the element begins a run, or makes the first one longer
      cases terminated with
      | nil =>
        refine ⟨[], x :: r, rfl, .nil, ?_⟩
        intro y hy
        rcases List.mem_cons.mp hy with rfl | later
        · exact ends
        · exact plain y later
      | @skip z l ends' rest =>
        refine ⟨[x] ++ z :: l, r, rfl, .run (List.cons_ne_nil x []) ?_ ends' rest, plain⟩
        intro y hy
        rw [List.mem_singleton.mp hy]
        exact ends
      | @run r' z l some_ plain' ends' rest =>
        refine ⟨(x :: r') ++ z :: l, r, rfl, .run (List.cons_ne_nil x r') ?_ ends' rest, plain⟩
        intro y hy
        rcases List.mem_cons.mp hy with rfl | later
        · exact ends
        · exact plain' y later

theorem getLast?_of_terminated {l : List α} (terminated : Terminated sep l) :
    ∀ x ∈ l.getLast?, sep x := by
  induction terminated with
  | nil => simp
  | @skip x l ends rest ih =>
    intro y hy
    cases l with
    | nil =>
      obtain rfl := Option.some.inj hy
      exact ends
    | cons z l => exact ih y hy
  | @run r x l some_ plain ends rest ih =>
    intro y hy
    rw [List.getLast?_append] at hy
    cases l with
    | nil =>
      obtain rfl := Option.some.inj hy
      exact ends
    | cons z l =>
      have last : (x :: z :: l).getLast? = (z :: l).getLast? := List.getLast?_cons_cons
      rw [last] at hy
      obtain ⟨w, hw⟩ := Option.ne_none_iff_exists'.mp
        (show (z :: l).getLast? ≠ none by simp)
      rw [hw] at hy ih
      exact ih y hy

theorem terminated_iff (l : List α) : Terminated sep l ↔ ∀ x ∈ l.getLast?, sep x := by
  constructor
  · exact getLast?_of_terminated
  · intro last
    obtain ⟨u, r, rfl, terminated, plain⟩ := exists_terminated sep l
    cases h : r.getLast? with
    | none =>
      rw [List.getLast?_eq_none_iff.mp h, List.append_nil]
      exact terminated
    | some x =>
      have ends := last x (by rw [List.getLast?_append, h]; rfl)
      rw [plain x (List.mem_of_getLast? h)] at ends
      cases ends

theorem length_pieces_le {l : List α} (terminated : Terminated sep l) :
    2 * (pieces sep l).length ≤ l.length := by
  induction terminated with
  | nil => exact Nat.le_refl 0
  | skip ends rest ih =>
    rw [pieces_skip ends, List.length_cons]
    omega
  | run some_ plain ends rest ih =>
    have one := List.length_pos_iff.mpr some_
    rw [pieces_run some_ plain ends, List.length_cons, List.length_append, List.length_cons]
    omega

end ObjSearch.Lib.Pieces
