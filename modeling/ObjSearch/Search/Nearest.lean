/- `SortResults`: the lines of the list, sorted by their item data.
   digest: The data is the distance cut to tenths before it is converted and rounded, so lines
   with one key may come out in a wrong order. -/

import ObjSearch.Lib.Sorting
import ObjSearch.Search.Results

set_option autoImplicit false
set_option relaxedAutoImplicit false

namespace ObjSearch.Search.Nearest

open ObjSearch.Lib.Decimals
open ObjSearch.Lib.Sorting
open ObjSearch.Search.Catalog
open ObjSearch.Search.FindObjects
open ObjSearch.Search.Results
open ObjSearch.Search.Completeness (flatHost)

def objectDistanceCompareFunction (item1 item2 : ℤ) : ℤ :=
  if item1 < item2 then -1 else if item1 > item2 then 1 else 0

/-- `SortItems`, with whatever algorithm: the same lines, none before one that compares less. -/
structure SortResults (items sorted : List Item) : Prop where
  same : sorted.Perm items
  ordered : sorted.Pairwise (fun a b => ∀ i ∈ a.data, ∀ j ∈ b.data,
    objectDistanceCompareFunction i j ≤ 0)

def NearestFirst (sorted : List Item) : Prop :=
  sorted.Pairwise (fun a b => atof a.dist ≤ atof b.dist)

theorem objectDistanceCompareFunction_le_iff (i j : ℤ) :
    objectDistanceCompareFunction i j ≤ 0 ↔ i ≤ j := by
  unfold objectDistanceCompareFunction
  split_ifs <;> omega

theorem toInt_of_nonneg {x : ℚ} (nonneg : 0 ≤ x) (small : x < 2 ^ 31) : toInt x = some ⌊x⌋ := by
  have floor : 0 ≤ ⌊x⌋ := Int.floor_nonneg.mpr nonneg
  have fits : ⌊x⌋ < 2 ^ 31 := Int.floor_lt.mpr (by push_cast; exact small)
  rw [toInt, if_neg (not_lt.mpr nonneg)]
  exact if_pos ⟨by omega, fits⟩

variable {host : Host}

/-- The key of a line is its distance in whole tenths, short of an overflow. -/
theorem data_item (look : Look) {a : Added} (small : 0 ≤ a.dist ∧ a.dist * 10 < 2 ^ 31) :
    (item host look a).data = some ⌊a.dist * 10⌋ :=
  toInt_of_nonneg (mul_nonneg small.1 (by norm_num)) small.2

theorem atof_dist_item (look : Look) (a : Added) :
    atof (item host look a).dist = rounded 1 (host.toUsrDistance a.dist) :=
  atof_fixed Nat.one_pos _

theorem sortResults_iff {items sorted : List Item} (same : sorted.Perm items)
    (keys : ∀ i ∈ items, i.data.isSome) :
    SortResults items sorted ↔ sorted.Pairwise (fun a b => a.data.getD 0 ≤ b.data.getD 0) := by
  have by_data : sorted.Pairwise (fun a b => ∀ i ∈ a.data, ∀ j ∈ b.data,
      objectDistanceCompareFunction i j ≤ 0) ↔
      sorted.Pairwise (fun a b => a.data.getD 0 ≤ b.data.getD 0) := by
    apply List.Pairwise.iff_of_mem
    intro x y hx hy
    obtain ⟨i, hi⟩ := Option.isSome_iff_exists.mp (keys x (same.mem_iff.mp hx))
    obtain ⟨j, hj⟩ := Option.isSome_iff_exists.mp (keys y (same.mem_iff.mp hy))
    simp only [hi, hj, Option.mem_some_iff, forall_eq', Option.getD_some,
      objectDistanceCompareFunction_le_iff]
  exact ⟨fun h => by_data.mp h.ordered, fun h => ⟨same, by_data.mpr h⟩⟩

/-- The list is sorted nearest first, by every algorithm, exactly where distances with the same
whole number of tenths are shown as the same. -/
theorem nearestFirst_iff (monotone : Monotone host.toUsrDistance) (look : Look) (as : List Added)
    (small : ∀ a ∈ as, 0 ≤ a.dist ∧ a.dist * 10 < 2 ^ 31) :
    (∀ sorted, SortResults (as.foldl (addObject host look) []) sorted → NearestFirst sorted) ↔
      ∀ a ∈ as, ∀ b ∈ as, ⌊a.dist * 10⌋ = ⌊b.dist * 10⌋ →
        rounded 1 (host.toUsrDistance a.dist) = rounded 1 (host.toUsrDistance b.dist) := by
  have items : as.foldl (addObject host look) [] = as.map (item host look) :=
    foldl_addObject host look as []
  have data {a : Added} (ha : a ∈ as) : (item host look a).data = some ⌊a.dist * 10⌋ :=
    data_item look (small a ha)
  have keys : ∀ i ∈ as.map (item host look), i.data.isSome := by
    intro i hi
    obtain ⟨a, ha, rfl⟩ := List.mem_map.mp hi
    rw [data ha]
    rfl
  have pairs := forall_sorted_iff (fun i : Item => i.data.getD 0) (fun i => atof i.dist)
    (as.map (item host look))
  constructor
  · intro all a ha b hb tenths
    have order := pairs.mp (fun sorted same ascending =>
      all sorted (items ▸ (sortResults_iff same keys).mpr ascending))
    have both {a b : Added} (ha : a ∈ as) (hb : b ∈ as) (tenths : ⌊a.dist * 10⌋ = ⌊b.dist * 10⌋) :
        rounded 1 (host.toUsrDistance a.dist) ≤ rounded 1 (host.toUsrDistance b.dist) := by
      rw [← atof_dist_item look, ← atof_dist_item look]
      apply order _ (List.mem_map_of_mem ha) _ (List.mem_map_of_mem hb)
      rw [data ha, data hb, tenths]
    exact le_antisymm (both ha hb tenths) (both hb ha tenths.symm)
  · intro shows sorted sorting
    rw [items] at sorting
    refine pairs.mpr ?_ sorted sorting.same ((sortResults_iff sorting.same keys).mp sorting)
    intro x hx y hy le
    obtain ⟨a, ha, rfl⟩ := List.mem_map.mp hx
    obtain ⟨b, hb, rfl⟩ := List.mem_map.mp hy
    rw [data ha, data hb, Option.getD_some, Option.getD_some] at le
    rw [atof_dist_item, atof_dist_item]
    rcases lt_or_eq_of_le le with less | same
    · have nearer : a.dist * 10 < b.dist * 10 := by
        by_contra farther
        exact absurd (Int.floor_le_floor (not_lt.mp farther)) (not_le.mpr less)
      exact rounded_mono (monotone (by linarith))
    · exact (shows a ha b hb same).le

def rock (dist : ℚ) : Added := ⟨"UWTROC".toList, "Rock".toList, 43, 3, dist, 12500, 12500, []⟩

theorem nearestFirst_iff_twoRocks :
    (∀ sorted, SortResults ([rock (1 / 4), rock (1 / 8)].foldl
      (addObject flatHost ⟨id, fun _ _ => []⟩) []) sorted → NearestFirst sorted) ↔
      ∀ a ∈ [rock (1 / 4), rock (1 / 8)], ∀ b ∈ [rock (1 / 4), rock (1 / 8)],
        ⌊a.dist * 10⌋ = ⌊b.dist * 10⌋ →
        rounded 1 (flatHost.toUsrDistance a.dist) = rounded 1 (flatHost.toUsrDistance b.dist) :=
  nearestFirst_iff monotone_id ⟨id, fun _ _ => []⟩ [rock (1 / 4), rock (1 / 8)]
    (by decide +kernel)

/-- 0.16 and 0.11 miles have one key, and are shown as 0.2 and 0.1. -/
theorem rocks_stay_in_the_wrong_order :
    ¬ ∀ sorted, SortResults ([rock (16 / 100), rock (11 / 100)].foldl
      (addObject flatHost ⟨id, fun _ _ => []⟩) []) sorted → NearestFirst sorted := by
  intro sorts
  have first := sorts _ ⟨List.Perm.refl _, by
    rw [foldl_addObject]
    apply List.pairwise_pair.mpr
    decide +kernel⟩
  revert first
  rw [foldl_addObject]
  intro first
  exact absurd (List.pairwise_pair.mp first) (by decide +kernel)

end ObjSearch.Search.Nearest
