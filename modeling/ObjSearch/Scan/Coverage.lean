/- What a scan sees of its area, when each jump shows the same extent around its position.
   digest: The positions form a grid from the lower corner, so the area is seen as a whole exactly
   when the last step leaves at most half a viewport over, in both directions. -/

import Mathlib.Data.Rat.Floor
import Mathlib.Logic.Relation
import ObjSearch.Lib.Grid
import ObjSearch.Scan.ScanArea

set_option autoImplicit false
set_option relaxedAutoImplicit false

namespace ObjSearch.Scan.Coverage

open Relation (ReflTransGen)
open ObjSearch.Lib.Grid
open ObjSearch.Scan.Viewports
open ObjSearch.Scan.ScanArea

structure Centred (H W lat lon : ℚ) (vp : ViewPort) : Prop where
  clat : vp.clat = lat
  clon : vp.clon = lon
  lat_min : vp.lat_min = lat - H / 2
  lat_max : vp.lat_max = lat + H / 2
  lon_min : vp.lon_min = lon - W / 2
  lon_max : vp.lon_max = lon + W / 2

theorem Centred.height {H W lat lon : ℚ} {vp : ViewPort} (h : Centred H W lat lon vp) :
    vp.lat_max - vp.lat_min = H := by
  rw [h.lat_max, h.lat_min]
  ring

theorem Centred.width {H W lat lon : ℚ} {vp : ViewPort} (h : Centred H W lat lon vp) :
    vp.lon_max - vp.lon_min = W := by
  rw [h.lon_max, h.lon_min]
  ring

/-- After a jump the host reports such a viewport around the position; in `wxYield` it may report
any, and does not stop the scan. -/
def Answers (H W : ℚ) (s : State) (l : Label) : Prop :=
  if s.place = .yield then ∃ events, l = .yield events ∧ events.any Event.stops = false
  else ∃ vp, l = .refresh (some vp) ∧ Centred H W s.lat s.lon vp

def Next (host : State → Label) (a : Area) (scale : ℤ) (s t : State) : Prop :=
  step a scale s (host s) = some t

def Visited (host : State → Label) (a : Area) (scale : ℤ) (s : Scanner) (v : Visit) : Prop :=
  ∃ t, ReflTransGen (Next host a scale) (scanArea a (idle s)) t ∧ v ∈ t.visits

/-- Every point of the area is in the viewport of a visited position. -/
def Seen (H W : ℚ) (host : State → Label) (a : Area) (scale : ℤ) (s : Scanner) : Prop :=
  ∀ lat lon : ℚ, a.latmin ≤ lat → lat ≤ a.latmax → a.lonmin ≤ lon → lon ≤ a.lonmax →
    ∃ v, Visited host a scale s v ∧ |lat - v.lat| ≤ H / 2 ∧ |lon - v.lon| ≤ W / 2

/-- At the first jump of a row. -/
structure Begins (a : Area) (lat : ℚ) (s : State) : Prop where
  place : s.place = .measure
  unset : s.finishing = false
  at_lat : s.lat = lat
  at_lon : s.lon = a.lonmin

structure Standing (H W : ℚ) (scale : ℤ) (lat lon : ℚ) (s : State) : Prop where
  place : s.place = .visit
  unset : s.finishing = false
  at_lat : s.lat = lat
  at_lon : s.lon = lon
  lat_step : s.lat_step = H
  lon_step : s.lon_step = W
  visited : ⟨scale, lat, lon⟩ ∈ s.visits

section Host

variable {H W : ℚ} {host : State → Label} (answers : ∀ s, Answers H W s (host s)) {a : Area}
  {scale : ℤ}

include answers

theorem refresh_of_place {s : State} (h : s.place ≠ .yield) :
    ∃ vp, host s = .refresh (some vp) ∧ Centred H W s.lat s.lon vp := by
  have answer := answers s
  rw [Answers, if_neg h] at answer
  exact answer

theorem yield_of_place {s : State} (h : s.place = .yield) :
    ∃ events, host s = .yield events ∧ events.any Event.stops = false := by
  have answer := answers s
  rw [Answers, if_pos h] at answer
  exact answer

theorem standing_of_begins (cols : a.lonmin ≤ a.lonmax) {lat : ℚ} {s : State}
    (h : Begins a lat s) :
    ∃ t, ReflTransGen (Next host a scale) s t ∧ Standing H W scale lat a.lonmin t := by
  obtain ⟨vp, first, -⟩ := refresh_of_place answers (s := s) (by rw [h.place]; decide)
  obtain ⟨t, measured, rescales, kept, lat_eq, lon_eq, -⟩ :=
    measure_then a scale h.place (some vp)
  obtain ⟨vp', second, shown⟩ := refresh_of_place answers (s := t) (by rw [rescales]; decide)
  have inside : t.lon ≤ a.lonmax := by
    rw [lon_eq, h.at_lon]
    exact Int.cast_le.mpr cols
  obtain ⟨u, rescaled, place, unset, lat_eq', lon_eq', visits, lat_step, lon_step⟩ :=
    rescale_then scale rescales (kept.trans h.unset) inside (some vp')
  refine ⟨u, ?_, place, unset, ?_, ?_, ?_, ?_, ?_⟩
  · apply ReflTransGen.tail (ReflTransGen.single _)
    · rw [Next, second]
      exact rescaled
    · rw [Next, first]
      exact measured
  · rw [lat_eq', lat_eq, h.at_lat]
  · rw [lon_eq', lon_eq, h.at_lon]
  · exact lat_step.trans shown.height
  · exact lon_step.trans shown.width
  · rw [visits, lat_eq, lon_eq, h.at_lat, h.at_lon]
    exact List.mem_concat_self

theorem next_of_standing {lat lon : ℚ} {s : State} (h : Standing H W scale lat lon s) :
    ∃ u : State, ReflTransGen (Next host a scale) s (innerLoop a scale u) ∧ u.finishing = false ∧
      u.lat = lat ∧ u.lon = lon + W ∧ u.lat_step = H ∧ u.lon_step = W := by
  obtain ⟨vp, first, -⟩ := refresh_of_place answers (s := s) (by rw [h.place]; decide)
  have stays := step_visit a scale h.place (some vp)
  rw [if_pos h.unset] at stays
  let t : State := { s.report (some vp) with place := .yield }
  obtain ⟨events, second, quiet⟩ := yield_of_place answers (s := t) rfl
  have unset : (t.handleAll events).finishing = false := by
    show (events.foldl Scanner.handle t.toScanner).finishing = false
    rw [foldl_handle_finishing, quiet, Bool.or_false]
    exact h.unset
  refine ⟨{ t.handleAll events with lon := t.lon + t.lon_step }, ?_, unset, ?_, ?_, ?_, ?_⟩
  · apply ReflTransGen.tail (ReflTransGen.single (b := t) _)
    · rw [Next, second]
      exact step_yield a scale rfl events
    · rw [Next, first]
      exact stays
  · exact h.at_lat
  · show s.lon + s.lon_step = lon + W
    rw [h.at_lon, h.lon_step]
  · exact h.lat_step
  · exact h.lon_step

theorem standing_of_standing {lat lon : ℚ} {s : State} (h : Standing H W scale lat lon s)
    (inside : lon + W ≤ a.lonmax) :
    ∃ t, ReflTransGen (Next host a scale) s t ∧ Standing H W scale lat (lon + W) t := by
  obtain ⟨u, reached, unset, lat_eq, lon_eq, lat_step, lon_step⟩ := next_of_standing answers h
  rw [innerLoop_enters scale unset (lon_eq.le.trans inside)] at reached
  refine ⟨_, reached, rfl, unset, lat_eq, lon_eq, lat_step, lon_step, ?_⟩
  rw [lat_eq, lon_eq]
  exact List.mem_concat_self

theorem begins_of_standing {lat lon : ℚ} {s : State} (h : Standing H W scale lat lon s)
    (last : a.lonmax < lon + W) (inside : lat + H ≤ a.latmax) :
    ∃ t, ReflTransGen (Next host a scale) s t ∧ Begins a (lat + H) t := by
  obtain ⟨u, reached, unset, lat_eq, lon_eq, lat_step, -⟩ := next_of_standing answers h
  have out : ¬ (u.finishing = false ∧ u.lon ≤ a.lonmax) := by
    intro both
    exact absurd both.2 (not_le.mpr (lon_eq ▸ last))
  have next_row : u.lat + u.lat_step = lat + H := by rw [lat_eq, lat_step]
  rw [innerLoop, if_neg out, outerLoop, if_pos ⟨unset, next_row.le.trans inside⟩] at reached
  exact ⟨_, reached, rfl, unset, next_row, rfl⟩

theorem standing_of_row (cols : a.lonmin ≤ a.lonmax) (wide : 0 < W) {lat lon : ℚ} {s : State}
    (h : Begins a lat s) (column : lon ∈ grid (a.lonmin : ℚ) a.lonmax W) :
    ∃ t, ReflTransGen (Next host a scale) s t ∧ Standing H W scale lat lon t := by
  refine grid_induction (P := fun x => ∃ t, ReflTransGen (Next host a scale) s t ∧
    Standing H W scale lat x t) wide.le ?_ ?_ column
  · intro _
    exact standing_of_begins answers cols h
  · rintro x - inside ⟨t, reached, standing⟩
    obtain ⟨u, further, there⟩ := standing_of_standing answers standing inside
    exact ⟨u, reached.trans further, there⟩

theorem begins_of_grid (cols : a.lonmin ≤ a.lonmax) (high : 0 < H) (wide : 0 < W) {s : Scanner}
    (unset : s.finishing = false) {lat : ℚ} (row : lat ∈ grid (a.latmin : ℚ) a.latmax H) :
    ∃ t, ReflTransGen (Next host a scale) (scanArea a (idle s)) t ∧ Begins a lat t := by
  refine grid_induction (P := fun y => ∃ t, ReflTransGen (Next host a scale)
    (scanArea a (idle s)) t ∧ Begins a y t) high.le ?_ ?_ row
  · intro some_row
    rw [scanArea, outerLoop, if_pos ⟨unset, some_row⟩]
    exact ⟨_, ReflTransGen.refl, rfl, unset, rfl, rfl⟩
  · rintro y - inside ⟨t, reached, begins⟩
    obtain ⟨x, column, last⟩ := exists_last wide (Int.cast_le.mpr cols : (a.lonmin : ℚ) ≤ a.lonmax)
    obtain ⟨u, along, standing⟩ := standing_of_row answers cols wide begins column
    obtain ⟨v, further, there⟩ := begins_of_standing answers standing last inside
    exact ⟨v, (reached.trans along).trans further, there⟩

theorem visited_of_grid (cols : a.lonmin ≤ a.lonmax) (high : 0 < H) (wide : 0 < W) {s : Scanner}
    (unset : s.finishing = false) {lat lon : ℚ} (row : lat ∈ grid (a.latmin : ℚ) a.latmax H)
    (column : lon ∈ grid (a.lonmin : ℚ) a.lonmax W) :
    Visited host a scale s ⟨scale, lat, lon⟩ := by
  obtain ⟨t, reached, begins⟩ := begins_of_grid answers cols high wide unset row
  obtain ⟨u, along, standing⟩ := standing_of_row answers cols wide begins column
  exact ⟨u, reached.trans along, standing.visited⟩

end Host

def OnGrid (H W : ℚ) (a : Area) (s : State) : Prop :=
  ∀ v ∈ s.visits, v.lat ∈ grid (a.latmin : ℚ) a.latmax H ∧ v.lon ∈ grid (a.lonmin : ℚ) a.lonmax W

structure Placed (H W : ℚ) (a : Area) (s : State) : Prop where
  visits : OnGrid H W a s
  unset : s.finishing = false
  row : s.place ≠ .returned → s.lat ∈ grid (a.latmin : ℚ) a.latmax H
  begin : s.place = .measure ∨ s.place = .rescale → s.lon = a.lonmin
  column : s.place = .visit ∨ s.place = .yield →
    s.lon ∈ grid (a.lonmin : ℚ) a.lonmax W ∧ s.lat_step = H ∧ s.lon_step = W

theorem placed_outerLoop {H W : ℚ} {a : Area} {s : State} (visits : OnGrid H W a s)
    (row : s.lat ≤ a.latmax → s.lat ∈ grid (a.latmin : ℚ) a.latmax H) (begin : s.lon = a.lonmin) :
    Placed H W a (outerLoop a s) := by
  unfold outerLoop
  split_ifs with enters
  · exact ⟨visits, enters.1, fun _ => row enters.2, fun _ => begin, by simp⟩
  · exact ⟨visits, rfl, by simp, by simp, by simp⟩

theorem placed_innerLoop {H W : ℚ} {a : Area} (scale : ℤ) {s : State} (visits : OnGrid H W a s)
    (row : s.lat ∈ grid (a.latmin : ℚ) a.latmax H)
    (column : s.lon ≤ a.lonmax → s.lon ∈ grid (a.lonmin : ℚ) a.lonmax W)
    (lat_step : s.lat_step = H) (lon_step : s.lon_step = W) :
    Placed H W a (innerLoop a scale s) := by
  unfold innerLoop
  split_ifs with enters
  · refine ⟨?_, enters.1, fun _ => row, by simp, fun _ => ⟨column enters.2, lat_step, lon_step⟩⟩
    intro v visited
    obtain before | last := List.mem_append.mp visited
    · exact visits v before
    · rw [List.mem_singleton.mp last]
      exact ⟨row, column enters.2⟩
  · apply placed_outerLoop
    · exact visits
    · intro inside
      show s.lat + s.lat_step ∈ _
      rw [lat_step]
      exact next_mem row (lat_step ▸ inside)
    · rfl

theorem placed_step {H W : ℚ} {a : Area} (cols : a.lonmin ≤ a.lonmax) {scale : ℤ} {s t : State}
    {l : Label} (h : Placed H W a s) (answer : Answers H W s l)
    (taken : step a scale s l = some t) : Placed H W a t := by
  obtain ⟨vp, place, -, rfl⟩ | ⟨vp, place, rfl, rfl⟩ | ⟨vp, place, -, rfl⟩ |
    ⟨events, place, -, rfl⟩ := step_cases taken
  · refine ⟨?_, ?_, ?_, ?_, by simp⟩
    · simpa [OnGrid] using h.visits
    · simpa using h.unset
    · intro _
      simpa using h.row (by rw [place]; decide)
    · intro _
      simpa using h.begin (Or.inl place)
  · obtain ⟨p, rfl, shown⟩ : ∃ p, vp = some p ∧ Centred H W s.lat s.lon p := by
      rw [Answers, if_neg (by rw [place]; decide)] at answer
      obtain ⟨p, same, shown⟩ := answer
      exact ⟨p, Label.refresh.inj same, shown⟩
    apply placed_innerLoop
    · exact h.visits
    · exact h.row (by rw [place]; decide)
    · intro _
      show s.lon ∈ _
      rw [h.begin (Or.inr place)]
      exact first_mem (Int.cast_le.mpr cols)
    · exact shown.height
    · exact shown.width
  · rw [if_pos h.unset]
    refine ⟨?_, ?_, ?_, by simp, ?_⟩
    · simpa [OnGrid] using h.visits
    · simpa using h.unset
    · intro _
      simpa using h.row (by rw [place]; decide)
    · intro _
      simpa using h.column (Or.inl place)
  · obtain ⟨column, lat_step, lon_step⟩ := h.column (Or.inr place)
    apply placed_innerLoop
    · exact h.visits
    · exact h.row (by rw [place]; decide)
    · intro inside
      show s.lon + s.lon_step ∈ _
      rw [lon_step]
      exact next_mem column (lon_step ▸ inside)
    · exact lat_step
    · exact lon_step

theorem placed_of_reached {H W : ℚ} {host : State → Label} (answers : ∀ s, Answers H W s (host s))
    {a : Area} (cols : a.lonmin ≤ a.lonmax) {scale : ℤ} {s : Scanner} {t : State}
    (reached : ReflTransGen (Next host a scale) (scanArea a (idle s)) t) : Placed H W a t := by
  induction reached with
  | refl =>
    apply placed_outerLoop
    · intro v visited
      cases visited
    · exact first_mem
    · rfl
  | tail _ taken ih => exact placed_step cols ih (answers _) taken

theorem grid_of_visited {H W : ℚ} {host : State → Label} (answers : ∀ s, Answers H W s (host s))
    {a : Area} (cols : a.lonmin ≤ a.lonmax) {scale : ℤ} {s : Scanner} {v : Visit}
    (visited : Visited host a scale s v) :
    v.lat ∈ grid (a.latmin : ℚ) a.latmax H ∧ v.lon ∈ grid (a.lonmin : ℚ) a.lonmax W := by
  obtain ⟨t, reached, mem⟩ := visited
  exact (placed_of_reached answers cols reached).visits v mem

/-- The whole area is seen exactly when the grid covers it in both directions. -/
theorem seen_iff_covers {H W : ℚ} (high : 0 < H) (wide : 0 < W) {host : State → Label}
    (answers : ∀ s, Answers H W s (host s)) {a : Area} (rows : a.latmin ≤ a.latmax)
    (cols : a.lonmin ≤ a.lonmax) (scale : ℤ) {s : Scanner} (unset : s.finishing = false) :
    Seen H W host a scale s ↔
      Covers (a.latmin : ℚ) a.latmax H ∧ Covers (a.lonmin : ℚ) a.lonmax W := by
  have rows' : (a.latmin : ℚ) ≤ a.latmax := Int.cast_le.mpr rows
  have cols' : (a.lonmin : ℚ) ≤ a.lonmax := Int.cast_le.mpr cols
  constructor
  · intro seen
    constructor
    · intro lat above below
      obtain ⟨v, visited, near, -⟩ := seen lat a.lonmin above below le_rfl cols'
      exact ⟨v.lat, (grid_of_visited answers cols visited).1, near⟩
    · intro lon above below
      obtain ⟨v, visited, -, near⟩ := seen a.latmin lon le_rfl rows' above below
      exact ⟨v.lon, (grid_of_visited answers cols visited).2, near⟩
  · rintro ⟨covers_lat, covers_lon⟩ lat lon from_lat to_lat from_lon to_lon
    obtain ⟨y, row, near_lat⟩ := covers_lat lat from_lat to_lat
    obtain ⟨x, column, near_lon⟩ := covers_lon lon from_lon to_lon
    exact ⟨_, visited_of_grid answers cols high wide unset row column, near_lat, near_lon⟩

/-- The whole area is seen exactly when, in both directions, its size leaves at most half a
viewport over. -/
theorem seen_iff (a : Area) (rows : a.latmin ≤ a.latmax) (cols : a.lonmin ≤ a.lonmax) (scale : ℤ)
    (H W : ℚ) (high : 0 < H) (wide : 0 < W) (host : State → Label)
    (answers : ∀ s, Answers H W s (host s)) (s : Scanner) (unset : s.finishing = false) :
    Seen H W host a scale s ↔
      Int.fract (((a.latmax : ℚ) - a.latmin) / H) ≤ 1 / 2 ∧
        Int.fract (((a.lonmax : ℚ) - a.lonmin) / W) ≤ 1 / 2 := by
  rw [seen_iff_covers high wide answers rows cols scale unset,
    covers_iff high (Int.cast_le.mpr rows), covers_iff wide (Int.cast_le.mpr cols)]

def steady (H W : ℚ) (s : State) : Label :=
  if s.place = .yield then .yield []
  else .refresh (some ⟨s.lat, s.lon, 1, 1, s.lat - H / 2, s.lat + H / 2, s.lon - W / 2,
    s.lon + W / 2⟩)

theorem steady_answers (H W : ℚ) (s : State) : Answers H W s (steady H W s) := by
  rw [Answers, steady]
  split_ifs
  · exact ⟨[], rfl, rfl⟩
  · exact ⟨_, rfl, rfl, rfl, rfl, rfl, rfl, rfl⟩

theorem seen_iff_square :
    Seen 2 2 (steady 2 2) ⟨0, 0, 3, 3⟩ 20000 .init ↔
      Int.fract (((3 : ℤ) - (0 : ℤ)) / 2 : ℚ) ≤ 1 / 2 ∧
        Int.fract (((3 : ℤ) - (0 : ℤ)) / 2 : ℚ) ≤ 1 / 2 :=
  seen_iff ⟨0, 0, 3, 3⟩ (by decide) (by decide) 20000 2 2 (by decide) (by decide) (steady 2 2)
    (steady_answers 2 2) .init rfl

theorem corner_is_not_seen :
    ¬ ∀ (a : Area), a.latmin ≤ a.latmax → a.lonmin ≤ a.lonmax → ∀ (scale : ℤ) (H W : ℚ), 0 < H →
      0 < W → ∀ host : State → Label, (∀ s, Answers H W s (host s)) → ∀ s : Scanner,
        s.finishing = false → Seen H W host a scale s := by
  intro h
  have seen := h ⟨0, 0, 3, 3⟩ (by decide) (by decide) 20000 4 4 (by decide) (by decide)
    (steady 4 4) (steady_answers 4 4) .init rfl
  have covers := ((seen_iff_covers (by decide) (by decide) (steady_answers 4 4) (by decide)
    (by decide) 20000 rfl).mp seen).1
  have left_over := fract_of_covers (by decide) (by decide) covers
  revert left_over
  decide +kernel

end ObjSearch.Scan.Coverage
