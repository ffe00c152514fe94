/- A cache from names to ids beside the table it was loaded from.
   digest: The agreement of cache and table survives an insert and determines the cache. -/

import Mathlib.Data.Int.Order.Basic
import ObjSearch.Lib.Maps

set_option autoImplicit false
set_option relaxedAutoImplicit false

namespace ObjSearch.Lib.NameIndex

open Std (ExtTreeMap TransOrd LawfulEqOrd)
open ObjSearch.Lib.Maps

variable {κ : Type}

/-- Every row has a name of its own, and `find` knows exactly the names and ids of the rows. -/
structure Indexes (rows : List (ℤ × Option κ)) (find : κ → Option ℤ) : Prop where
  named : ∀ r ∈ rows, r.2 ≠ none
  distinct : (rows.map Prod.snd).Nodup
  found : ∀ name id, find name = some id ↔ (id, some name) ∈ rows

variable {rows : List (ℤ × Option κ)} {find : κ → Option ℤ}

theorem Indexes.empty : Indexes ([] : List (ℤ × Option κ)) (fun _ => none) :=
  ⟨by simp, by simp, by simp⟩

theorem Indexes.eq_none_iff (h : Indexes rows find) (name : κ) :
    find name = none ↔ ∀ r ∈ rows, r.2 ≠ some name := by
  constructor
  · rintro absent ⟨id, _⟩ hr rfl
    rw [(h.found name id).mpr hr] at absent
    cases absent
  · intro absent
    cases here : find name with
    | none => rfl
    | some id => exact absurd rfl (absent _ ((h.found name id).mp here))

theorem Indexes.unique {find' : κ → Option ℤ} (h : Indexes rows find) (h' : Indexes rows find') :
    find = find' := by
  funext name
  exact Option.ext fun id => (h.found name id).trans (h'.found name id).symm

theorem Indexes.insert [DecidableEq κ] (h : Indexes rows find) {name : κ} (id : ℤ)
    (new : find name = none) :
    Indexes (rows ++ [(id, some name)]) (Function.update find name (some id)) := by
  have absent := (h.eq_none_iff name).mp new
  refine ⟨?_, ?_, ?_⟩
  · intro r hr
    rcases List.mem_append.mp hr with old | last
    · exact h.named r old
    · simp [List.mem_singleton.mp last]
  · rw [List.map_append, List.nodup_append]
    refine ⟨h.distinct, List.nodup_singleton _, ?_⟩
    intro a ha b hb same
    obtain ⟨r, hr, rfl⟩ := List.mem_map.mp ha
    have : b = some name := by simpa using hb
    exact absent r hr (same.trans this)
  · intro other k
    by_cases same : other = name
    · subst same
      have none : (k, some other) ∉ rows := fun hk => absent _ hk rfl
      simp [none, eq_comm]
    · simp [same, h.found]

variable {ρ ν : Type} [Ord κ] [TransOrd κ] [LawfulEqOrd κ]

theorem map_getElem?_insert [DecidableEq κ] (m : ExtTreeMap κ ν) (k : κ) (v : ν) (idOf : ν → ℤ) :
    (fun name => (m.insert k v)[name]?.map idOf) =
      Function.update (fun name => m[name]?.map idOf) k (some (idOf v)) := by
  funext name
  by_cases same : k = name
  · subst same
    rw [ExtTreeMap.getElem?_insert_self, Option.map_some, Function.update_self]
  · rw [getElem?_insert_ne v same, Function.update_of_ne (Ne.symm same)]

/-- Loading a table with distinct names in a loop gives an index of it. -/
theorem Indexes.load (rs : List ρ) (idOf : ρ → ℤ) (nameOf : ρ → Option κ) (key : ρ → κ)
    (value : ρ → ν) (idOfValue : ν → ℤ) (keyed : ∀ r ∈ rs, nameOf r = some (key r))
    (ids : ∀ r ∈ rs, idOfValue (value r) = idOf r)
    (distinct : (rs.map nameOf).Nodup) :
    Indexes (rs.map (fun r => (idOf r, nameOf r)))
      (fun name => (fill key value ∅ rs)[name]?.map idOfValue) := by
  have keys : (rs.map key).Nodup := by
    have same : rs.map nameOf = (rs.map key).map some := by
      rw [List.map_map]
      exact List.map_congr_left keyed
    rw [same] at distinct
    exact List.Nodup.of_map _ distinct
  refine ⟨?_, ?_, ?_⟩
  · intro r hr
    obtain ⟨q, hq, rfl⟩ := List.mem_map.mp hr
    simp [keyed q hq]
  · rw [List.map_map]
    exact distinct
  · intro name id
    constructor
    · intro here
      obtain ⟨v, found, rfl⟩ := Option.map_eq_some_iff.mp here
      rcases exists_row_of_getElem?_fill found with ⟨r, hr, rfl, rfl⟩ | old
      · rw [ids r hr, ← keyed r hr]
        exact List.mem_map_of_mem (f := fun r => (idOf r, nameOf r)) hr
      · simp at old
    · intro here
      obtain ⟨r, hr, same⟩ := List.mem_map.mp here
      obtain ⟨rfl, named⟩ := Prod.mk.inj same
      have key_eq : key r = name := Option.some.inj ((keyed r hr).symm.trans named)
      rw [← key_eq, getElem?_fill_of_mem keys hr, Option.map_some, ids r hr]

end ObjSearch.Lib.NameIndex
