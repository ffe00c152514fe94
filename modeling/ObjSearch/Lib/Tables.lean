/- Tables whose rows have a unique integer id.
   digest: An AUTOINCREMENT id is positive and larger than every id given out before. -/

import Mathlib.Data.List.Nodup
import Mathlib.Data.Int.Order.Basic

set_option autoImplicit false
set_option relaxedAutoImplicit false

namespace ObjSearch.Lib.Tables

variable {ρ : Type}

@[ext] structure KeyedTable (ρ : Type) where
  rows : List (ℤ × ρ)
  nodup : (rows.map Prod.fst).Nodup

/-- A table with an `INTEGER PRIMARY KEY AUTOINCREMENT`: `seq` is the largest id ever given
to a row, whether that row still exists or not. -/
structure AutoTable (ρ : Type) extends KeyedTable ρ where
  seq : ℤ
  seq_nonneg : 0 ≤ seq
  within : ∀ r ∈ rows, 0 < r.1 ∧ r.1 ≤ seq

def KeyedTable.empty : KeyedTable ρ := ⟨[], List.nodup_nil⟩

def AutoTable.empty : AutoTable ρ := ⟨.empty, 0, le_refl 0, by simp [KeyedTable.empty]⟩

/-- The rowid of the next row: one more than the largest id present. -/
def KeyedTable.nextId (t : KeyedTable ρ) : ℤ := (t.rows.map Prod.fst).foldl max 0 + 1

private theorem le_foldl_max (ids : List ℤ) (m : ℤ) :
    m ≤ ids.foldl max m ∧ ∀ id ∈ ids, id ≤ ids.foldl max m := by
  induction ids generalizing m with
  | nil => simp
  | cons id ids ih =>
    obtain ⟨bound, all⟩ := ih (max m id)
    refine ⟨le_trans (le_max_left m id) bound, ?_⟩
    intro k hk
    rcases List.mem_cons.mp hk with rfl | later
    · exact le_trans (le_max_right m k) bound
    · exact all k later

theorem KeyedTable.nextId_notMem (t : KeyedTable ρ) : t.nextId ∉ t.rows.map Prod.fst := by
  intro h
  have bound := (le_foldl_max (t.rows.map Prod.fst) 0).2 _ h
  unfold KeyedTable.nextId at bound
  omega

private theorem nodup_append_id {rows : List (ℤ × ρ)} {id : ℤ} (r : ρ)
    (nodup : (rows.map Prod.fst).Nodup) (fresh : id ∉ rows.map Prod.fst) :
    ((rows ++ [(id, r)]).map Prod.fst).Nodup := by
  rw [List.map_append, List.nodup_append]
  refine ⟨nodup, List.nodup_singleton _, ?_⟩
  intro a ha b hb same
  have : b = id := by simpa using hb
  exact fresh (this ▸ same ▸ ha)

def KeyedTable.insert (t : KeyedTable ρ) (r : ρ) : KeyedTable ρ :=
  ⟨t.rows ++ [(t.nextId, r)], nodup_append_id r t.nodup t.nextId_notMem⟩

def AutoTable.newId (t : AutoTable ρ) : ℤ := t.seq + 1

theorem AutoTable.newId_pos (t : AutoTable ρ) : 0 < t.newId := by
  have := t.seq_nonneg
  unfold AutoTable.newId
  omega

theorem AutoTable.lt_newId (t : AutoTable ρ) {r : ℤ × ρ} (h : r ∈ t.rows) : r.1 < t.newId := by
  have := (t.within r h).2
  unfold AutoTable.newId
  omega

theorem AutoTable.newId_notMem (t : AutoTable ρ) : t.newId ∉ t.rows.map Prod.fst := by
  intro h
  obtain ⟨r, hr, same⟩ := List.mem_map.mp h
  exact absurd same (ne_of_lt (t.lt_newId hr))

def AutoTable.insert (t : AutoTable ρ) (r : ρ) : AutoTable ρ where
  rows := t.rows ++ [(t.newId, r)]
  nodup := nodup_append_id r t.nodup t.newId_notMem
  seq := t.newId
  seq_nonneg := le_of_lt t.newId_pos
  within := by
    intro q hq
    rcases List.mem_append.mp hq with old | new
    · exact ⟨(t.within q old).1, le_of_lt (t.lt_newId old)⟩
    · rw [List.mem_singleton.mp new]
      exact ⟨t.newId_pos, le_refl _⟩

@[simp] theorem AutoTable.rows_insert (t : AutoTable ρ) (r : ρ) :
    (t.insert r).rows = t.rows ++ [(t.newId, r)] := rfl

@[simp] theorem KeyedTable.rows_insert (t : KeyedTable ρ) (r : ρ) :
    (t.insert r).rows = t.rows ++ [(t.nextId, r)] := rfl

@[simp] theorem AutoTable.rows_empty : (AutoTable.empty : AutoTable ρ).rows = [] := rfl

@[simp] theorem KeyedTable.rows_empty : (KeyedTable.empty : KeyedTable ρ).rows = [] := rfl

/-- Keep some rows and change their contents; the ids stay. -/
def KeyedTable.filterMap (t : KeyedTable ρ) (f : ρ → Option ρ) : KeyedTable ρ where
  rows := t.rows.filterMap (fun r => (f r.2).map (fun s => (r.1, s)))
  nodup := by
    have part : (t.rows.filterMap (fun r => (f r.2).map (fun s => (r.1, s)))).map Prod.fst
        |>.Sublist (t.rows.map Prod.fst) := by
      induction t.rows with
      | nil => simp
      | cons r rows ih =>
        cases h : f r.2 with
        | none => simpa [h] using ih.cons r.1
        | some s => simpa [h] using ih.cons_cons r.1
    exact t.nodup.sublist part

theorem KeyedTable.filterMap_filterMap (t : KeyedTable ρ) (f g : ρ → Option ρ) :
    (t.filterMap f).filterMap g = t.filterMap (fun r => (f r).bind g) := by
  apply KeyedTable.ext
  refine List.filterMap_filterMap.trans (List.filterMap_congr ?_)
  intro r _
  cases h : f r.2 with
  | none => simp [h]
  | some s => simp [h]

theorem KeyedTable.filterMap_eq_self {t : KeyedTable ρ} {f : ρ → Option ρ}
    (same : ∀ r ∈ t.rows, f r.2 = some r.2) : t.filterMap f = t := by
  refine KeyedTable.ext ((List.filterMap_congr (fun r hr => ?_)).trans List.filterMap_some)
  rw [same r hr, Option.map_some]

end ObjSearch.Lib.Tables
