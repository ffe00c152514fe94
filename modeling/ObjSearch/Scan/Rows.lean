/- What a scan sees of its area, when the size of a viewport depends on its latitude.
   digest: The area is seen as a whole exactly when no row is lower than the one before it, the last row
   reaches the northern bound, and in each row the last step leaves at most half a viewport over. -/

import ObjSearch.Lib.Strides
import ObjSearch.Scan.Coverage

set_option autoImplicit false
set_option relaxedAutoImplicit false

namespace ObjSearch.Scan.Rows

open ObjSearch.Lib.Grid
open ObjSearch.Lib.Runs
open ObjSearch.Lib.Strides
open ObjSearch.Scan.Viewports
open ObjSearch.Scan.ScanArea
open ObjSearch.Scan.Coverage (Centred Answers steady steady_answers)

/-- The latitudes of the rows: from each to the next it is as far as the viewport there is high. -/
abbrev row (H : ℚ → ℚ) (a : Area) : ℕ → ℚ := stride H a.latmin

variable {H W : ℚ → ℚ} {a : Area} {T T' : ℚ → ℚ → Prop} {s : State}

/-! The place of the scan, and what it has left behind. -/

/-- The scan is at a column of a row, or past the last row. -/
structure Placed (H W : ℚ → ℚ) (a : Area) (s : State) : Prop where
  unset : s.finishing = false
  row : s.place ≠ .returned → ∃ i, s.lat = row H a i ∧ row H a i ≤ a.latmax
  begin : s.place = .measure ∨ s.place = .rescale → s.lon = a.lonmin
  column : s.place = .visit ∨ s.place = .yield →
    s.lon ∈ grid (a.lonmin : ℚ) a.lonmax (W s.lat) ∧ s.lat_step = H s.lat ∧ s.lon_step = W s.lat
  past : s.place = .returned → ∃ i, a.latmax < Rows.row H a i

/-- Something holds at the positions that the scan has left, row by row. -/
structure Swept (H W : ℚ → ℚ) (a : Area) (T : ℚ → ℚ → Prop) (s : State) : Prop where
  rows : ∀ i, row H a i ≤ a.latmax → (s.place ≠ .returned → row H a i < s.lat) →
    ∀ x ∈ grid (a.lonmin : ℚ) a.lonmax (W (row H a i)), T (row H a i) x
  columns : s.place = .visit ∨ s.place = .yield →
    ∀ x ∈ grid (a.lonmin : ℚ) a.lonmax (W s.lat), x < s.lon → T s.lat x

theorem Swept.mono (h : Swept H W a T s) (more : ∀ y x, T y x → T' y x) : Swept H W a T' s :=
  ⟨fun i inside left x column => more _ x (h.rows i inside left x column),
    fun place x column left => more _ x (h.columns place x column left)⟩

theorem placed_outerLoop {i : ℕ} (unset : s.finishing = false) (here : s.lat = row H a i)
    (begin : s.lon = a.lonmin) : Placed H W a (outerLoop a s) := by
  unfold outerLoop
  split_ifs with enters
  · exact ⟨unset, fun _ => ⟨i, here, here ▸ enters.2⟩, fun _ => begin, by simp, by simp⟩
  · have past : (a.latmax : ℚ) < s.lat := not_le.mp fun inside => enters ⟨unset, inside⟩
    exact ⟨rfl, by simp, by simp, by simp, fun _ => ⟨i, here ▸ past⟩⟩

theorem swept_outerLoop (unset : s.finishing = false)
    (rows : ∀ i, row H a i < s.lat →
      ∀ x ∈ grid (a.lonmin : ℚ) a.lonmax (W (row H a i)), T (row H a i) x) :
    Swept H W a T (outerLoop a s) := by
  unfold outerLoop
  split_ifs with enters
  · exact ⟨fun i _ left => rows i (left (by simp)), by simp⟩
  · have past : (a.latmax : ℚ) < s.lat := not_le.mp fun inside => enters ⟨unset, inside⟩
    exact ⟨fun i inside _ => rows i (inside.trans_lt past), by simp⟩

theorem placed_innerLoop {i : ℕ} (scale : ℤ) (unset : s.finishing = false)
    (here : s.lat = row H a i) (inside : row H a i ≤ a.latmax)
    (column : s.lon ≤ a.lonmax → s.lon ∈ grid (a.lonmin : ℚ) a.lonmax (W s.lat))
    (lat_step : s.lat_step = H s.lat) (lon_step : s.lon_step = W s.lat) :
    Placed H W a (innerLoop a scale s) := by
  unfold innerLoop
  split_ifs with enters
  · exact ⟨unset, fun _ => ⟨i, here, inside⟩, by simp,
      fun _ => ⟨column enters.2, lat_step, lon_step⟩, by simp⟩
  · refine placed_outerLoop (i := i + 1) unset ?_ rfl
    show s.lat + s.lat_step = row H a i + H (row H a i)
    rw [lat_step, here]

theorem swept_innerLoop {i : ℕ} (scale : ℤ) (high : ∀ y, 0 < H y) (unset : s.finishing = false)
    (here : s.lat = row H a i) (lat_step : s.lat_step = H s.lat)
    (rows : ∀ j, row H a j < s.lat →
      ∀ x ∈ grid (a.lonmin : ℚ) a.lonmax (W (row H a j)), T (row H a j) x)
    (columns : ∀ x ∈ grid (a.lonmin : ℚ) a.lonmax (W s.lat), x < s.lon → T s.lat x) :
    Swept H W a T (innerLoop a scale s) := by
  unfold innerLoop
  split_ifs with enters
  · exact ⟨fun j _ left => rows j (left (by simp)), fun _ => columns⟩
  · have past : (a.lonmax : ℚ) < s.lon := not_le.mp fun inside => enters ⟨unset, inside⟩
    refine swept_outerLoop unset ?_
    intro j before x column
    have next : row H a j < row H a (i + 1) := by
      show row H a j < row H a i + H (row H a i)
      rwa [← here, ← lat_step]
    have upTo : j ≤ i := Nat.lt_succ_iff.mp ((stride_strictMono high).lt_iff_lt.mp next)
    rcases upTo.lt_or_eq with earlier | rfl
    · exact rows j (here ▸ stride_strictMono high earlier) x column
    · rw [← here] at column ⊢
      exact columns x column (column.1.trans_lt past)

theorem centred_of_refresh {l : Label} {vp : Option ViewPort} (place : s.place = .rescale)
    (refresh : l = .refresh vp) (answer : Answers (H s.lat) (W s.lat) s l) :
    ∃ p, vp = some p ∧ Centred (H s.lat) (W s.lat) s.lat s.lon p := by
  rw [Answers, if_neg (by rw [place]; decide)] at answer
  obtain ⟨p, same, shown⟩ := answer
  exact ⟨p, Label.refresh.inj (refresh.symm.trans same), shown⟩

theorem unset_of_yield {l : Label} {events : List Event} (place : s.place = .yield)
    (yields : l = .yield events) (answer : Answers (H s.lat) (W s.lat) s l)
    (unset : s.finishing = false) : (s.handleAll events).finishing = false := by
  rw [Answers, if_pos place] at answer
  obtain ⟨events', same, quiet⟩ := answer
  obtain rfl := Label.yield.inj (yields.symm.trans same)
  show (events.foldl Scanner.handle s.toScanner).finishing = false
  rw [foldl_handle_finishing, quiet, Bool.or_false]
  exact unset

theorem placed_step (cols : a.lonmin ≤ a.lonmax) {scale : ℤ} {t : State} {l : Label}
    (h : Placed H W a s) (answer : Answers (H s.lat) (W s.lat) s l)
    (taken : step a scale s l = some t) : Placed H W a t := by
  obtain ⟨vp, place, -, rfl⟩ | ⟨vp, place, refresh, rfl⟩ | ⟨vp, place, -, rfl⟩ |
    ⟨events, place, yields, rfl⟩ := step_cases taken
  · refine ⟨by simpa using h.unset, fun _ => ?_, fun _ => ?_, by simp, by simp⟩
    · simpa using h.row (by rw [place]; decide)
    · simpa using h.begin (Or.inl place)
  · obtain ⟨p, rfl, shown⟩ := centred_of_refresh place refresh answer
    obtain ⟨i, here, inside⟩ := h.row (by rw [place]; decide)
    refine placed_innerLoop scale h.unset here inside ?_ shown.height shown.width
    intro _
    show s.lon ∈ _
    rw [h.begin (Or.inr place)]
    exact first_mem (Int.cast_le.mpr cols)
  · rw [if_pos h.unset]
    refine ⟨by simpa using h.unset, fun _ => ?_, by simp, fun _ => ?_, by simp⟩
    · simpa using h.row (by rw [place]; decide)
    · simpa using h.column (Or.inl place)
  · obtain ⟨column, lat_step, lon_step⟩ := h.column (Or.inr place)
    obtain ⟨i, here, inside⟩ := h.row (by rw [place]; decide)
    refine placed_innerLoop scale (unset_of_yield place yields answer h.unset) here inside ?_
      lat_step lon_step
    intro inside
    show s.lon + s.lon_step ∈ _
    rw [lon_step]
    exact next_mem column (lon_step ▸ inside)

theorem swept_step (high : ∀ y, 0 < H y) (wide : ∀ y, 0 < W y) {scale : ℤ} {t : State} {l : Label}
    (placed : Placed H W a s) (swept : Swept H W a T s)
    (answer : Answers (H s.lat) (W s.lat) s l) (left : s.place = .yield → T s.lat s.lon)
    (taken : step a scale s l = some t) : Swept H W a T t := by
  have rows (going : s.place ≠ .returned) (j : ℕ) (before : row H a j < s.lat) :
      ∀ x ∈ grid (a.lonmin : ℚ) a.lonmax (W (row H a j)), T (row H a j) x := by
    obtain ⟨i, here, inside⟩ := placed.row going
    exact swept.rows j (before.le.trans (here.le.trans inside)) fun _ => before
  obtain ⟨vp, place, -, rfl⟩ | ⟨vp, place, refresh, rfl⟩ | ⟨vp, place, -, rfl⟩ |
    ⟨events, place, yields, rfl⟩ := step_cases taken
  · refine ⟨fun j _ before => rows (by rw [place]; decide) j ?_, by simp⟩
    simpa using before (by simp)
  · obtain ⟨p, rfl, shown⟩ := centred_of_refresh place refresh answer
    obtain ⟨i, here, -⟩ := placed.row (by rw [place]; decide)
    refine swept_innerLoop scale high placed.unset here shown.height
      (rows (by rw [place]; decide)) ?_
    intro x column before
    have atFirst : s.lon = a.lonmin := placed.begin (Or.inr place)
    exact absurd before (not_lt.mpr (atFirst.le.trans (first_le (wide _).le column)))
  · rw [if_pos placed.unset]
    refine ⟨fun j _ before => rows (by rw [place]; decide) j ?_, fun _ x column before => ?_⟩
    · simpa using before (by simp)
    · simpa using swept.columns (Or.inl place) x (by simpa using column) (by simpa using before)
  · obtain ⟨column, lat_step, lon_step⟩ := placed.column (Or.inr place)
    obtain ⟨i, here, -⟩ := placed.row (by rw [place]; decide)
    refine swept_innerLoop scale high (unset_of_yield place yields answer placed.unset) here lat_step
      (rows (by rw [place]; decide)) ?_
    intro x mem before
    have upTo : x ≤ s.lon := le_of_lt_next (wide _) mem column (lon_step ▸ before)
    rcases upTo.lt_or_eq with earlier | rfl
    · exact swept.columns (Or.inr place) x mem earlier
    · exact left place

theorem placed_scanArea {s : Scanner} (unset : s.finishing = false) :
    Placed H W a (scanArea a (idle s)) := placed_outerLoop (i := 0) unset rfl rfl

theorem swept_scanArea (high : ∀ y, 0 < H y) {s : Scanner} (unset : s.finishing = false) :
    Swept H W a T (scanArea a (idle s)) := by
  refine swept_outerLoop unset ?_
  intro i before
  exact absurd before (not_lt.mpr ((stride_strictMono high).monotone (Nat.zero_le i)))

/-! The positions that the scan has come to. -/

def At (visits : List Visit) (lat lon : ℚ) : Prop := ∃ v ∈ visits, v.lat = lat ∧ v.lon = lon

/-- Each is at a column of a row, and the one of the last jump is among them. -/
structure Visiting (H W : ℚ → ℚ) (a : Area) (s : State) : Prop where
  onRows : ∀ v ∈ s.visits, ∃ i, v.lat = row H a i ∧ row H a i ≤ a.latmax ∧
    v.lon ∈ grid (a.lonmin : ℚ) a.lonmax (W v.lat)
  here : s.place = .visit ∨ s.place = .yield → At s.visits s.lat s.lon

theorem visit_of_innerLoop (a : Area) (scale : ℤ) (s : State) :
    ((innerLoop a scale s).place = .visit ∧ (innerLoop a scale s).visits =
      s.visits ++ [⟨scale, (innerLoop a scale s).lat, (innerLoop a scale s).lon⟩]) ∨
    ((innerLoop a scale s).place ≠ .visit ∧ (innerLoop a scale s).place ≠ .yield ∧
      (innerLoop a scale s).visits = s.visits) := by
  unfold innerLoop
  split_ifs
  · exact Or.inl ⟨rfl, rfl⟩
  · refine Or.inr ⟨?_, ?_, visits_outerLoop a _⟩ <;> unfold outerLoop <;> split_ifs <;> simp

theorem visit_of_step {scale : ℤ} {t : State} {l : Label} (taken : step a scale s l = some t) :
    (t.place = .visit ∧ t.visits = s.visits ++ [⟨scale, t.lat, t.lon⟩]) ∨
    (t.place ≠ .visit ∧ t.visits = s.visits ∧
      (t.place = .yield → s.place = .visit ∧ t.lat = s.lat ∧ t.lon = s.lon)) := by
  have loop (u : State) (next : t = innerLoop a scale u) (same : u.visits = s.visits) :
      (t.place = .visit ∧ t.visits = s.visits ++ [⟨scale, t.lat, t.lon⟩]) ∨
      (t.place ≠ .visit ∧ t.visits = s.visits ∧
        (t.place = .yield → s.place = .visit ∧ t.lat = s.lat ∧ t.lon = s.lon)) := by
    rw [← same, next]
    obtain visits | ⟨left, quiet, visits⟩ := visit_of_innerLoop a scale u
    · exact Or.inl visits
    · exact Or.inr ⟨left, visits, fun yields => absurd yields quiet⟩
  obtain ⟨vp, -, -, rfl⟩ | ⟨vp, -, -, next⟩ | ⟨vp, place, -, next⟩ | ⟨events, -, -, next⟩ :=
    step_cases taken
  · exact Or.inr ⟨by simp, report_visits s vp, by simp⟩
  · exact loop _ next (report_visits s vp)
  · split_ifs at next
    · subst next
      exact Or.inr ⟨by simp, report_visits s vp, fun _ => ⟨place, report_lat s vp, report_lon s vp⟩⟩
    · exact loop _ next (report_visits s vp)
  · exact loop _ next rfl

theorem At.of_step {scale : ℤ} {t : State} {l : Label} (taken : step a scale s l = some t)
    {lat lon : ℚ} (h : At s.visits lat lon) : At t.visits lat lon := by
  obtain ⟨v, visited, place⟩ := h
  obtain ⟨-, visits⟩ | ⟨-, visits, -⟩ := visit_of_step taken
  · exact ⟨v, visits ▸ List.mem_append_left _ visited, place⟩
  · exact ⟨v, visits ▸ visited, place⟩

theorem visiting_step {scale : ℤ} {t : State} {l : Label} (h : Visiting H W a s)
    (placed : Placed H W a t) (taken : step a scale s l = some t) : Visiting H W a t := by
  obtain ⟨place, visits⟩ | ⟨left, visits, yields⟩ := visit_of_step taken
  · have last : (⟨scale, t.lat, t.lon⟩ : Visit) ∈ t.visits := by
      rw [visits]
      exact List.mem_concat_self
    refine ⟨?_, fun _ => ⟨_, last, rfl, rfl⟩⟩
    intro v visited
    rw [visits] at visited
    obtain before | new := List.mem_append.mp visited
    · exact h.onRows v before
    · obtain rfl := List.mem_singleton.mp new
      obtain ⟨i, here, inside⟩ := placed.row (by rw [place]; decide)
      exact ⟨i, here, inside, (placed.column (Or.inl place)).1⟩
  · refine ⟨visits ▸ h.onRows, ?_⟩
    rintro (place | place)
    · exact absurd place left
    · obtain ⟨before, sameLat, sameLon⟩ := yields place
      rw [visits, sameLat, sameLon]
      exact h.here (Or.inl before)

theorem visited_of_run (high : ∀ y, 0 < H y) (wide : ∀ y, 0 < W y) (cols : a.lonmin ≤ a.lonmax)
    {scale : ℤ} {s : Scanner} (unset : s.finishing = false) {ls : List Label} {t : State}
    (run : exec (step a scale) (scanArea a (idle s)) ls = some t)
    (answers : ∀ p l q m, ls = p ++ l :: q →
      exec (step a scale) (scanArea a (idle s)) p = some m → Answers (H m.lat) (W m.lat) m l) :
    Placed H W a t ∧ Swept H W a (At t.visits) t ∧ Visiting H W a t := by
  have begun : Visiting H W a (scanArea a (idle s)) := by
    have none : (scanArea a (idle s)).visits = [] := visits_outerLoop a _
    refine ⟨fun v visited => ?_, ?_⟩
    · rw [none] at visited
      cases visited
    · unfold scanArea outerLoop
      split_ifs <;> simp
  refine exec_guarded (I := fun s => Placed H W a s ∧ Swept H W a (At s.visits) s ∧
      Visiting H W a s) (G := fun s l => Answers (H s.lat) (W s.lat) s l) ?_
    ⟨placed_scanArea unset, swept_scanArea high unset, begun⟩ run answers
  rintro m l m' ⟨placed, swept, visiting⟩ answer taken
  have next := placed_step cols placed answer taken
  refine ⟨next, ?_, visiting_step visiting next taken⟩
  have left := swept_step high wide placed swept answer
    (fun place => visiting.here (Or.inr place)) taken
  exact left.mono fun _ _ => At.of_step taken

/-! What it sees of the area. -/

def Seen (H W : ℚ → ℚ) (a : Area) (visits : List Visit) : Prop :=
  ∀ lat lon : ℚ, a.latmin ≤ lat → lat ≤ a.latmax → a.lonmin ≤ lon → lon ≤ a.lonmax →
    ∃ v ∈ visits, |lat - v.lat| ≤ H v.lat / 2 ∧ |lon - v.lon| ≤ W v.lat / 2

/-- The rows leave no gap, and none of them leaves more than half a viewport over. -/
structure Seamless (H W : ℚ → ℚ) (a : Area) : Prop extends
    Gapless H (a.latmin : ℚ) a.latmax where
  columns : ∀ i, row H a i ≤ a.latmax →
    Int.fract (((a.lonmax : ℚ) - a.lonmin) / W (row H a i)) ≤ 1 / 2

theorem exists_position (wide : ∀ y, 0 < W y) (seamless : Seamless H W a)
    (past : ∃ k, a.latmax < row H a k) {lat lon : ℚ} (south : a.latmin ≤ lat)
    (north : lat ≤ a.latmax) (west : a.lonmin ≤ lon) (east : lon ≤ a.lonmax) :
    ∃ i, row H a i ≤ a.latmax ∧ |lat - row H a i| ≤ H (row H a i) / 2 ∧
      ∃ x ∈ grid (a.lonmin : ℚ) a.lonmax (W (row H a i)), |lon - x| ≤ W (row H a i) / 2 := by
  obtain ⟨i, inside, nearLat⟩ := exists_near_of_gapless seamless.toGapless past south north
  obtain ⟨x, column, nearLon⟩ := covers_of_fract (wide _) (seamless.columns i inside) lon west east
  exact ⟨i, inside, nearLat, x, column, nearLon⟩

theorem seen_of_seamless (wide : ∀ y, 0 < W y) (seamless : Seamless H W a) {t : State}
    (placed : Placed H W a t) (swept : Swept H W a (At t.visits) t)
    (returned : t.place = .returned) : Seen H W a t.visits := by
  intro lat lon south north west east
  obtain ⟨i, inside, nearLat, x, column, nearLon⟩ :=
    exists_position wide seamless (placed.past returned) south north west east
  obtain ⟨v, visited, atLat, atLon⟩ :=
    swept.rows i inside (fun going => absurd returned going) x column
  refine ⟨v, visited, ?_, ?_⟩
  · rw [atLat]
    exact nearLat
  · rw [atLat, atLon]
    exact nearLon

theorem seamless_of_seen (high : ∀ y, 0 < H y) (wide : ∀ y, 0 < W y) (cols : a.lonmin ≤ a.lonmax)
    (tame : ∀ i, row H a (i + 1) ≤ a.latmax → H (row H a (i + 1)) < 2 * H (row H a i)) {t : State}
    (visiting : Visiting H W a t) (seen : Seen H W a t.visits) : Seamless H W a := by
  have west : (a.lonmin : ℚ) ≤ a.lonmax := Int.cast_le.mpr cols
  constructor
  · apply gapless_of_near high tame
    intro y south north
    obtain ⟨v, visited, near, -⟩ := seen y a.lonmin south north le_rfl west
    obtain ⟨i, here, inside, -⟩ := visiting.onRows v visited
    rw [here] at near
    exact ⟨i, inside, near⟩
  · intro i inside
    apply fract_of_covers (wide _) west
    intro lon from_lon to_lon
    have south : (a.latmin : ℚ) ≤ row H a i := (stride_strictMono high).monotone (Nat.zero_le i)
    obtain ⟨v, visited, nearLat, nearLon⟩ := seen (row H a i) lon south inside from_lon to_lon
    obtain ⟨j, here, below, column⟩ := visiting.onRows v visited
    rw [here] at nearLat nearLon column
    obtain rfl : j = i := eq_of_near_stride high tame ⟨below, nearLat⟩
    exact ⟨v.lon, column, nearLon⟩

/-- The size of a viewport may depend on its latitude, as it does on the usual projections; no row
is twice as high as the one before it. -/
theorem seen_iff_seamless (high : ∀ y, 0 < H y) (wide : ∀ y, 0 < W y) (cols : a.lonmin ≤ a.lonmax)
    (tame : ∀ i, row H a (i + 1) ≤ a.latmax → H (row H a (i + 1)) < 2 * H (row H a i)) {scale : ℤ}
    {s : Scanner} (unset : s.finishing = false) {ls : List Label} {t : State}
    (run : exec (step a scale) (scanArea a (idle s)) ls = some t)
    (answers : ∀ p l q m, ls = p ++ l :: q →
      exec (step a scale) (scanArea a (idle s)) p = some m → Answers (H m.lat) (W m.lat) m l)
    (returned : t.place = .returned) : Seen H W a t.visits ↔ Seamless H W a := by
  obtain ⟨placed, swept, visiting⟩ := visited_of_run high wide cols unset run answers
  constructor
  · exact seamless_of_seen high wide cols tame visiting
  · intro seamless
    exact seen_of_seamless wide seamless placed swept returned

def lower (y : ℚ) : ℚ := if y < 1 then 2 else 1

theorem lower_pos (y : ℚ) : 0 < lower y := by
  unfold lower
  split_ifs <;> decide

theorem lower_tame (i : ℕ) :
    lower (row lower ⟨0, 0, 3, 3⟩ (i + 1)) < 2 * lower (row lower ⟨0, 0, 3, 3⟩ i) := by
  have second : row lower ⟨0, 0, 3, 3⟩ 1 = 2 := by decide +kernel
  have north : 2 ≤ row lower ⟨0, 0, 3, 3⟩ (i + 1) :=
    second.symm.le.trans ((stride_strictMono lower_pos).monotone (Nat.le_add_left 1 i))
  have low : lower (row lower ⟨0, 0, 3, 3⟩ (i + 1)) = 1 := if_neg (not_lt.mpr (by linarith))
  have least (y : ℚ) : 1 ≤ lower y := by
    unfold lower
    split_ifs <;> decide
  linarith [least (row lower ⟨0, 0, 3, 3⟩ i)]

def threeRows : List Label :=
  driven (step ⟨0, 0, 3, 3⟩ 20000) (fun s => steady (lower s.lat) 2 s) 20 (scanArea ⟨0, 0, 3, 3⟩
    (idle .init))

theorem seen_iff_seamless_threeRows :
    ∃ t, exec (step ⟨0, 0, 3, 3⟩ 20000) (scanArea ⟨0, 0, 3, 3⟩ (idle .init)) threeRows = some t ∧
      (Seen lower (fun _ => 2) ⟨0, 0, 3, 3⟩ t.visits ↔ Seamless lower (fun _ => 2) ⟨0, 0, 3, 3⟩) := by
  have outcome : (exec (step ⟨0, 0, 3, 3⟩ 20000) (scanArea ⟨0, 0, 3, 3⟩ (idle .init))
      threeRows).map (fun t => t.place) = some .returned := by
    decide +kernel
  obtain ⟨t, run, returned⟩ := Option.map_eq_some_iff.mp outcome
  refine ⟨t, run, seen_iff_seamless lower_pos (fun _ => by decide) (by decide)
    (fun i _ => lower_tame i) rfl run ?_ returned⟩
  rintro p l q m split reached
  obtain rfl := chosen_of_driven split reached
  exact steady_answers (lower m.lat) 2 m

end ObjSearch.Scan.Rows
