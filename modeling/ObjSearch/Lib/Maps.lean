/- Ordered maps filled in a loop, as `map[key(r)] = value(r)` over the rows of a result.
   digest: The keys are those of the rows; with distinct keys every row is found again. -/

import Std.Data.ExtTreeMap.Lemmas
import Mathlib.Data.List.Nodup

set_option autoImplicit false
set_option relaxedAutoImplicit false

namespace ObjSearch.Lib.Maps

open Std (ExtTreeMap TransOrd LawfulEqOrd)

variable {κ ν ρ : Type} [Ord κ] [TransOrd κ] [LawfulEqOrd κ]

def fill (key : ρ → κ) (value : ρ → ν) (m : ExtTreeMap κ ν) (rows : List ρ) : ExtTreeMap κ ν :=
  rows.foldl (fun m r => m.insert (key r) (value r)) m

variable {key : ρ → κ} {value : ρ → ν} {m : ExtTreeMap κ ν}

theorem getElem?_insert_ne {k k' : κ} (v : ν) (h : k ≠ k') : (m.insert k v)[k']? = m[k']? := by
  rw [ExtTreeMap.getElem?_insert, if_neg]
  intro same
  exact h (LawfulEqOrd.eq_of_compare same)

theorem mem_insert_iff {k k' : κ} {v : ν} : k' ∈ m.insert k v ↔ k' = k ∨ k' ∈ m := by
  rw [ExtTreeMap.mem_insert, LawfulEqOrd.compare_eq_iff_eq, eq_comm]

theorem mem_fill {rows : List ρ} {k : κ} :
    k ∈ fill key value m rows ↔ (∃ r ∈ rows, key r = k) ∨ k ∈ m := by
  induction rows generalizing m with
  | nil => simp [fill]
  | cons r rows ih =>
    have step : fill key value m (r :: rows) =
        fill key value (m.insert (key r) (value r)) rows := rfl
    rw [step, ih, mem_insert_iff]
    simp only [List.mem_cons, exists_eq_or_imp]
    constructor
    · rintro (later | here | old)
      · exact .inl (.inr later)
      · exact .inl (.inl here.symm)
      · exact .inr old
    · rintro ((here | later) | old)
      · exact .inr (.inl here.symm)
      · exact .inl later
      · exact .inr (.inr old)

/-- Whatever a filled map holds was in it before or comes from a row. -/
theorem exists_row_of_getElem?_fill {rows : List ρ} {k : κ} {v : ν}
    (h : (fill key value m rows)[k]? = some v) :
    (∃ r ∈ rows, key r = k ∧ value r = v) ∨ m[k]? = some v := by
  induction rows generalizing m with
  | nil => exact .inr h
  | cons r rows ih =>
    rcases ih (m := m.insert (key r) (value r)) h with ⟨q, hq, found⟩ | old
    · exact .inl ⟨q, List.mem_cons_of_mem r hq, found⟩
    · by_cases same : key r = k
      · subst same
        rw [ExtTreeMap.getElem?_insert_self, Option.some.injEq] at old
        exact .inl ⟨r, List.mem_cons_self, rfl, old⟩
      · exact .inr ((getElem?_insert_ne (value r) same).symm.trans old)

theorem getElem?_fill_of_notMem {rows : List ρ} {k : κ} (h : ∀ r ∈ rows, key r ≠ k) :
    (fill key value m rows)[k]? = m[k]? := by
  induction rows generalizing m with
  | nil => rfl
  | cons r rows ih =>
    have step : fill key value m (r :: rows) =
        fill key value (m.insert (key r) (value r)) rows := rfl
    rw [step, ih (fun q hq => h q (List.mem_cons_of_mem r hq)),
      getElem?_insert_ne (value r) (h r List.mem_cons_self)]

theorem getElem?_fill_of_mem {rows : List ρ} {r : ρ} (distinct : (rows.map key).Nodup)
    (h : r ∈ rows) : (fill key value m rows)[key r]? = some (value r) := by
  induction rows generalizing m with
  | nil => cases h
  | cons q rows ih =>
    obtain ⟨fresh, rest⟩ := List.nodup_cons.mp distinct
    have step : fill key value m (q :: rows) =
        fill key value (m.insert (key q) (value q)) rows := rfl
    rw [step]
    rcases List.mem_cons.mp h with rfl | later
    · have absent : ∀ p ∈ rows, key p ≠ key r :=
        fun p hp same => fresh (same ▸ List.mem_map_of_mem hp)
      rw [getElem?_fill_of_notMem absent, ExtTreeMap.getElem?_insert_self]
    · exact ih rest later

end ObjSearch.Lib.Maps
