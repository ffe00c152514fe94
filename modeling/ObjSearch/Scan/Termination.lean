/- How far a scan goes when every viewport it measures has at least some extent.
   digest: It ends after a bounded number of steps, and has come to distinct positions inside the
   area, row by row. -/

import Mathlib.Data.Rat.Floor
import ObjSearch.Lib.Grid
import ObjSearch.Scan.ScanArea

set_option autoImplicit false
set_option relaxedAutoImplicit false

namespace ObjSearch.Scan.Termination

open ObjSearch.Lib.Grid
open ObjSearch.Lib.Runs
open ObjSearch.Scan.Viewports
open ObjSearch.Scan.ScanArea

def Before (u v : Visit) : Prop := u.lat < v.lat ∨ u.lat = v.lat ∧ u.lon < v.lon

structure Inside (a : Area) (v : Visit) : Prop where
  south : a.latmin ≤ v.lat
  north : v.lat ≤ a.latmax
  west : a.lonmin ≤ v.lon
  east : v.lon ≤ a.lonmax

/-- After the refresh that measures a row, the viewport last reported has these extents. -/
def Shows (e : ℚ) (s : State) (l : Label) : Prop :=
  ∀ vp, s.place = .rescale → l = .refresh vp →
    e ≤ (s.report vp).view.vplat_max - (s.report vp).view.vplat_min ∧
      e ≤ (s.report vp).view.vplon_max - (s.report vp).view.vplon_min

def Fits (s : State) : Label → Prop
  | .refresh _ => s.place = .measure ∨ s.place = .rescale ∨ s.place = .visit
  | .yield _ => s.place = .yield

/-- Whatever the host does, the call returns. -/
inductive Returns (a : Area) (scale : ℤ) (e : ℚ) : State → Prop where
  | here {s : State} (place : s.place = .returned) : Returns a scale e s
  | later {s : State} (going : s.place ≠ .returned)
      (goesOn : ∀ l, Fits s l → (step a scale s l).isSome)
      (next : ∀ l t, Shows e s l → step a scale s l = some t → Returns a scale e t) :
      Returns a scale e s

def rows (a : Area) (e : ℚ) : ℕ := room (a.latmin : ℚ) a.latmax e

def cols (a : Area) (e : ℚ) : ℕ := room (a.lonmin : ℚ) a.lonmax e

/-- The inner loop has come to distinct positions of the area, in this order. -/
structure Ordered (a : Area) (visits : List Visit) : Prop where
  pairwise : visits.Pairwise Before
  inside : ∀ v ∈ visits, Inside a v

/-- What holds whenever the outer loop makes its test. -/
structure Row (a : Area) (s : State) : Prop extends Ordered a s.visits where
  south : a.latmin ≤ s.lat
  west : s.lon = a.lonmin
  done : ∀ v ∈ s.visits, v.lat < s.lat

/-- What holds whenever the inner loop makes its test. -/
structure Column (a : Area) (e : ℚ) (s : State) : Prop extends Ordered a s.visits where
  south : a.latmin ≤ s.lat
  north : s.lat ≤ a.latmax
  west : a.lonmin ≤ s.lon
  high : e ≤ s.lat_step
  wide : e ≤ s.lon_step
  done : ∀ v ∈ s.visits, v.lat < s.lat ∨ v.lat = s.lat ∧ v.lon < s.lon

/-- The last statement of the inner loop. -/
def advanced (s : State) : State := { s with lon := s.lon + s.lon_step }

def Kept (a : Area) (e : ℚ) (s : State) : Prop :=
  match s.place with
  | .measure | .rescale => Row a s ∧ s.lat ≤ a.latmax
  | .visit | .yield => Column a e (advanced s)
  | .returned => Ordered a s.visits

/-! What is left to do: positions to come to, and points at which the host has control, from the
tests of the two loops and from each of the points. -/

def rowVisits (a : Area) (e : ℚ) (s : State) : ℕ := cols a e * room s.lat a.latmax e

def rowSteps (a : Area) (e : ℚ) (s : State) : ℕ := 2 * ((cols a e + 1) * room s.lat a.latmax e)

def columnVisits (a : Area) (e : ℚ) (s : State) : ℕ :=
  room s.lon a.lonmax e + cols a e * room (s.lat + s.lat_step) a.latmax e

def columnSteps (a : Area) (e : ℚ) (s : State) : ℕ :=
  2 * room s.lon a.lonmax e + 2 * ((cols a e + 1) * room (s.lat + s.lat_step) a.latmax e)

def visitsLeft (a : Area) (e : ℚ) (s : State) : ℕ :=
  match s.place with
  | .measure | .rescale => rowVisits a e s
  | .visit | .yield => columnVisits a e (advanced s)
  | .returned => 0

def stepsLeft (a : Area) (e : ℚ) (s : State) : ℕ :=
  match s.place with
  | .measure => rowSteps a e s
  | .rescale => rowSteps a e s - 1
  | .visit => columnSteps a e (advanced s) + 2
  | .yield => columnSteps a e (advanced s) + 1
  | .returned => 0

variable {a : Area} {e : ℚ} {s : State}

theorem outerLoop_kept (h : Row a s) : Kept a e (outerLoop a s) := by
  unfold outerLoop
  split_ifs with test
  · exact ⟨⟨h.toOrdered, h.south, h.west, h.done⟩, test.2⟩
  · exact h.toOrdered

theorem outerLoop_left (a : Area) (e : ℚ) (s : State) :
    visitsLeft a e (outerLoop a s) ≤ rowVisits a e s ∧
      stepsLeft a e (outerLoop a s) ≤ rowSteps a e s := by
  unfold outerLoop
  split_ifs with test
  · exact ⟨le_rfl, le_rfl⟩
  · exact ⟨Nat.zero_le _, Nat.zero_le _⟩

theorem Column.nextRow (pos : 0 < e) (h : Column a e s) :
    Row a { s with lon := a.lonmin, lat := s.lat + s.lat_step } := by
  have north : s.lat < s.lat + s.lat_step := lt_add_of_pos_right _ (pos.trans_le h.high)
  refine ⟨h.toOrdered, h.south.trans north.le, rfl, ?_⟩
  intro v mem
  rcases h.done v mem with south | ⟨same, -⟩
  · exact south.trans north
  · exact same.trans_lt north

theorem Column.nextColumn (pos : 0 < e) (h : Column a e s) (scale : ℤ) (inside : s.lon ≤ a.lonmax) :
    Column a e (advanced { s with
      jumps := s.jumps ++ [⟨s.lat, s.lon, s.ppm_scale⟩]
      visits := s.visits ++ [⟨scale, s.lat, s.lon⟩]
      place := .visit }) := by
  have east : s.lon < s.lon + s.lon_step := lt_add_of_pos_right _ (pos.trans_le h.wide)
  refine ⟨⟨?_, ?_⟩, h.south, h.north, h.west.trans east.le, h.high, h.wide, ?_⟩
  · refine List.pairwise_append.mpr ⟨h.pairwise, List.pairwise_singleton _ _, ?_⟩
    intro v mem w here
    rw [List.mem_singleton.mp here]
    exact h.done v mem
  · intro v mem
    rcases List.mem_append.mp mem with old | new
    · exact h.inside v old
    · rw [List.mem_singleton.mp new]
      exact ⟨h.south, h.north, h.west, inside⟩
  · intro v mem
    rcases List.mem_append.mp mem with old | new
    · exact (h.done v old).imp_right fun row => ⟨row.1, row.2.trans east⟩
    · rw [List.mem_singleton.mp new]
      exact .inr ⟨rfl, east⟩

theorem innerLoop_kept (pos : 0 < e) (scale : ℤ) (h : Column a e s) :
    Kept a e (innerLoop a scale s) := by
  unfold innerLoop
  split_ifs with test
  · exact h.nextColumn pos scale test.2
  · exact outerLoop_kept (h.nextRow pos)

theorem innerLoop_left (pos : 0 < e) (scale : ℤ) (h : Column a e s) :
    (innerLoop a scale s).visits.length + visitsLeft a e (innerLoop a scale s) ≤
        s.visits.length + columnVisits a e s ∧
      stepsLeft a e (innerLoop a scale s) ≤ columnSteps a e s := by
  unfold innerLoop
  split_ifs with test
  · have less : room (s.lon + s.lon_step) (a.lonmax : ℚ) e + 1 ≤ room s.lon (a.lonmax : ℚ) e :=
      room_step pos test.2 h.wide
    constructor
    · show (s.visits ++ [_]).length + (room (s.lon + s.lon_step) (a.lonmax : ℚ) e +
        cols a e * room (s.lat + s.lat_step) (a.latmax : ℚ) e) ≤ _
      rw [List.length_append, List.length_singleton, columnVisits]
      omega
    · show 2 * room (s.lon + s.lon_step) (a.lonmax : ℚ) e +
        2 * ((cols a e + 1) * room (s.lat + s.lat_step) (a.latmax : ℚ) e) + 2 ≤ _
      rw [columnSteps]
      omega
  · have left := outerLoop_left a e { s with lon := a.lonmin, lat := s.lat + s.lat_step }
    rw [visits_outerLoop]
    constructor
    · refine Nat.add_le_add_left (left.1.trans ?_) _
      exact Nat.le_add_left _ _
    · refine left.2.trans ?_
      exact Nat.le_add_left _ _

theorem Row.column (h : Row a s) (inside : s.lat ≤ a.latmax) {vp : Option ViewPort}
    (high : e ≤ (s.report vp).view.vplat_max - (s.report vp).view.vplat_min)
    (wide : e ≤ (s.report vp).view.vplon_max - (s.report vp).view.vplon_min) :
    Column a e { s.report vp with
      lat_step := (s.report vp).view.vplat_max - (s.report vp).view.vplat_min
      lon_step := (s.report vp).view.vplon_max - (s.report vp).view.vplon_min } := by
  cases vp <;> exact ⟨h.toOrdered, h.south, inside, h.west.ge, high, wide,
    fun v mem => .inl (h.done v mem)⟩

theorem Row.column_left (pos : 0 < e) (h : Row a s) (inside : s.lat ≤ a.latmax) {k : ℚ}
    (high : e ≤ k) :
    room s.lon a.lonmax e + cols a e * room (s.lat + k) a.latmax e ≤ rowVisits a e s ∧
      2 * room s.lon a.lonmax e + 2 * ((cols a e + 1) * room (s.lat + k) a.latmax e) + 2 ≤
        rowSteps a e s := by
  have less : room (s.lat + k) (a.latmax : ℚ) e + 1 ≤ room s.lat (a.latmax : ℚ) e :=
    room_step pos inside high
  have first : room s.lon (a.lonmax : ℚ) e = cols a e := by rw [h.west, cols]
  have visits := Nat.mul_le_mul_left (cols a e) less
  have steps := Nat.mul_le_mul_left (cols a e + 1) less
  rw [Nat.mul_add_one] at visits steps
  rw [first, rowVisits, rowSteps]
  constructor <;> omega

structure Progress (a : Area) (e : ℚ) (s t : State) : Prop where
  kept : Kept a e t
  visits : t.visits.length + visitsLeft a e t ≤ s.visits.length + visitsLeft a e s
  steps : stepsLeft a e t + 1 ≤ stepsLeft a e s

theorem Progress.innerLoop (pos : 0 < e) (scale : ℤ) {u : State} (h : Column a e u)
    (same : u.visits = s.visits) (visits : columnVisits a e u ≤ visitsLeft a e s)
    (steps : columnSteps a e u + 1 ≤ stepsLeft a e s) : Progress a e s (innerLoop a scale u) := by
  have left := innerLoop_left pos scale h
  rw [same] at left
  exact ⟨innerLoop_kept pos scale h, left.1.trans (Nat.add_le_add_left visits _),
    (Nat.add_le_add_right left.2 1).trans steps⟩

theorem exists_report (s : State) (vp : Option ViewPort) :
    ∃ v, s.report vp = { s with view := v } := by
  cases vp with
  | none => exact ⟨s.view, rfl⟩
  | some vp => exact ⟨setCurrentViewPort s.view vp, rfl⟩

theorem Column.congr {t : State} (h : Column a e s) (lat : t.lat = s.lat) (lon : t.lon = s.lon)
    (lat_step : t.lat_step = s.lat_step) (lon_step : t.lon_step = s.lon_step)
    (visits : t.visits = s.visits) : Column a e t := by
  refine ⟨?_, ?_, ?_, ?_, ?_, ?_, ?_⟩
  · rw [visits]
    exact h.toOrdered
  · rw [lat]
    exact h.south
  · rw [lat]
    exact h.north
  · rw [lon]
    exact h.west
  · rw [lat_step]
    exact h.high
  · rw [lon_step]
    exact h.wide
  · rw [visits, lat, lon]
    exact h.done

theorem progress_of_measure (place : s.place = .measure) (h : Kept a e s) (vp : Option ViewPort)
    (ppm : ℚ) (jumps : List Jump) :
    Progress a e s { s.report vp with ppm_scale := ppm, jumps := jumps, place := .rescale } := by
  simp only [Kept, place] at h
  obtain ⟨row, inside⟩ := h
  have more : 0 < (cols a e + 1) * room s.lat a.latmax e :=
    Nat.mul_pos (Nat.succ_pos _) (room_pos e inside)
  obtain ⟨v, report⟩ := exists_report s vp
  rw [report]
  refine ⟨⟨⟨row.toOrdered, row.south, row.west, row.done⟩, inside⟩, ?_, ?_⟩
  · simp only [visitsLeft, place]
    exact le_rfl
  · simp only [stepsLeft, place]
    show rowSteps a e s - 1 + 1 ≤ rowSteps a e s
    rw [rowSteps]
    omega

theorem progress_of_rescale (pos : 0 < e) (scale : ℤ) (place : s.place = .rescale)
    (h : Kept a e s) {vp : Option ViewPort}
    (high : e ≤ (s.report vp).view.vplat_max - (s.report vp).view.vplat_min)
    (wide : e ≤ (s.report vp).view.vplon_max - (s.report vp).view.vplon_min) :
    Progress a e s (innerLoop a scale { s.report vp with
      lat_step := (s.report vp).view.vplat_max - (s.report vp).view.vplat_min
      lon_step := (s.report vp).view.vplon_max - (s.report vp).view.vplon_min }) := by
  simp only [Kept, place] at h
  have left := h.1.column_left pos h.2 high
  apply Progress.innerLoop pos scale (h.1.column h.2 high wide) (report_visits s vp)
  · simp only [visitsLeft, place, columnVisits, report_lat, report_lon]
    exact left.1
  · simp only [stepsLeft, place, columnSteps, report_lat, report_lon]
    omega

theorem progress_of_visit (pos : 0 < e) (scale : ℤ) (place : s.place = .visit) (h : Kept a e s)
    (vp : Option ViewPort) :
    Progress a e s (if s.finishing = false then { s.report vp with place := .yield }
      else innerLoop a scale { s.report vp with lon := s.lon + s.lon_step }) := by
  simp only [Kept, place] at h
  obtain ⟨v, report⟩ := exists_report s vp
  rw [report]
  split_ifs
  · refine ⟨h.congr rfl rfl rfl rfl rfl, ?_, ?_⟩
    · simp only [visitsLeft, place]
      exact le_rfl
    · simp only [stepsLeft, place]
      exact le_rfl
  · apply Progress.innerLoop pos scale
    · exact h.congr rfl rfl rfl rfl rfl
    · rfl
    · simp only [visitsLeft, place]
      exact le_rfl
    · simp only [stepsLeft, place]
      exact Nat.le_succ _

theorem progress_of_yield (pos : 0 < e) (scale : ℤ) (place : s.place = .yield) (h : Kept a e s)
    (events : List Event) :
    Progress a e s (innerLoop a scale { s.handleAll events with lon := s.lon + s.lon_step }) := by
  simp only [Kept, place] at h
  apply Progress.innerLoop pos scale
  · exact h.congr rfl rfl rfl rfl rfl
  · rfl
  · simp only [visitsLeft, place]
    exact le_rfl
  · simp only [stepsLeft, place]
    exact le_rfl

theorem progress_of_step (pos : 0 < e) {scale : ℤ} {t : State} {l : Label} (h : Kept a e s)
    (shows_ : Shows e s l) (taken : step a scale s l = some t) : Progress a e s t := by
  obtain ⟨vp, place, -, rfl⟩ | ⟨vp, place, rfl, rfl⟩ | ⟨vp, place, -, rfl⟩ |
    ⟨events, place, -, rfl⟩ := step_cases taken
  · exact progress_of_measure place h vp _ _
  · obtain ⟨high, wide⟩ := shows_ vp place rfl
    exact progress_of_rescale pos scale place h high wide
  · exact progress_of_visit pos scale place h vp
  · exact progress_of_yield pos scale place h events

theorem Kept.ordered (h : Kept a e s) : Ordered a s.visits := by
  unfold Kept at h
  split at h
  · exact h.1.toOrdered
  · exact h.1.toOrdered
  · exact h.toOrdered
  · exact h.toOrdered
  · exact h

theorem isSome_of_fits (scale : ℤ) {l : Label} (fits : Fits s l) : (step a scale s l).isSome := by
  cases l with
  | refresh vp =>
    rcases fits with place | place | place
    · rw [step_measure a scale place]
      rfl
    · rw [step_rescale a scale place]
      rfl
    · rw [step_visit a scale place]
      rfl
  | yield events =>
    rw [step_yield a scale fits]
    rfl

theorem step_returned {scale : ℤ} (place : s.place = .returned) (l : Label) :
    step a scale s l = none := by
  cases l <;> simp only [step, place]

theorem stops_of_yield {scale : ℤ} {t : State} {events : List Event}
    (stop : events.any Event.stops) (taken : step a scale s (.yield events) = some t) :
    t.place = .returned ∧ t.visits = s.visits := by
  obtain ⟨_, _, other, _⟩ | ⟨_, _, other, _⟩ | ⟨_, _, other, _⟩ | ⟨_, -, same, rfl⟩ :=
    step_cases taken
  · cases other
  · cases other
  · cases other
  · cases same
    have told : (s.handleAll events).finishing = true := by
      show (events.foldl Scanner.handle s.toScanner).finishing = true
      rw [foldl_handle_finishing, stop, Bool.or_true]
    have ends := innerLoop_of_finishing a scale
      (s := { s.handleAll events with lon := s.lon + s.lon_step }) told
    rw [ends]
    exact ⟨rfl, rfl⟩

theorem Ordered.distinct {visits : List Visit} (h : Ordered a visits) :
    (visits.map fun v => (v.lat, v.lon)).Nodup := by
  refine List.pairwise_map.mpr (h.pairwise.imp ?_)
  rintro u v (south | ⟨-, west⟩) same
  · exact south.ne (congrArg Prod.fst same)
  · exact west.ne (congrArg Prod.snd same)

theorem returns_of_kept (pos : 0 < e) (scale : ℤ) (h : Kept a e s) : Returns a scale e s := by
  induction steps : stepsLeft a e s using Nat.strong_induction_on generalizing s with
  | _ n ih =>
    by_cases place : s.place = .returned
    · exact .here place
    · refine .later place (fun l fits => isSome_of_fits scale fits) ?_
      intro l t shows_ taken
      have progress := progress_of_step pos h shows_ taken
      refine ih (stepsLeft a e t) ?_ progress.kept rfl
      rw [← steps]
      exact progress.steps

/-- What is true of every run of a call, from its first point to any later one. -/
structure Contained (a : Area) (scale : ℤ) (e : ℚ) (s : Scanner) (ls : List Label) (t : State) :
    Prop where
  bounded : ls.length ≤ 2 * ((cols a e + 1) * rows a e)
  returns : Returns a scale e t
  ordered : t.visits.Pairwise Before
  distinct : (t.visits.map fun v => (v.lat, v.lon)).Nodup
  inside : ∀ v ∈ t.visits, Inside a v
  few : a.latmin ≤ a.latmax → a.lonmin ≤ a.lonmax →
    (t.visits.length : ℚ) ≤ ((a.latmax - a.latmin) / e + 1) * ((a.lonmax - a.lonmin) / e + 1)
  stops : ∀ p events q m, ls = p ++ .yield events :: q →
    exec (step a scale) (scanArea a (idle s)) p = some m → events.any Event.stops →
      q = [] ∧ t.place = .returned ∧ t.visits = m.visits

/-- It is enough that the refresh itself reports such a viewport. -/
theorem shows_of_reported {l : Label} (h : ∀ vp, l = .refresh vp → ∃ w, vp = some w ∧
    e ≤ w.lat_max - w.lat_min ∧ e ≤ w.lon_max - w.lon_min) : Shows e s l := by
  intro vp _ refresh
  obtain ⟨w, rfl, extents⟩ := h vp refresh
  exact extents

theorem row_of_start (a : Area) (s : Scanner) :
    Row a { idle s with lat := a.latmin, lon := a.lonmin } :=
  ⟨⟨.nil, fun _ mem => absurd mem List.not_mem_nil⟩, le_rfl, rfl,
    fun _ mem => absurd mem List.not_mem_nil⟩

theorem few_of_le (pos : 0 < e) {n : ℕ} (le : n ≤ cols a e * rows a e)
    (lat : a.latmin ≤ a.latmax) (lon : a.lonmin ≤ a.lonmax) :
    (n : ℚ) ≤ ((a.latmax - a.latmin) / e + 1) * ((a.lonmax - a.lonmin) / e + 1) := by
  have north : (rows a e : ℚ) ≤ (a.latmax - a.latmin) / e + 1 :=
    room_le pos (Int.cast_le.mpr lat)
  have east : (cols a e : ℚ) ≤ (a.lonmax - a.lonmin) / e + 1 := room_le pos (Int.cast_le.mpr lon)
  calc (n : ℚ) ≤ ((cols a e * rows a e : ℕ) : ℚ) := Nat.cast_le.mpr le
    _ = rows a e * cols a e := by rw [Nat.cast_mul, mul_comm]
    _ ≤ _ := mul_le_mul north east (Nat.cast_nonneg _) ((Nat.cast_nonneg _).trans north)

/-- A call whose measured viewports all have these extents ends after a bounded number of steps,
and on its way comes to distinct positions of the area, row by row, and not to too many. -/
theorem contained {a : Area} {scale : ℤ} {e : ℚ} {s : Scanner} {ls : List Label} {t : State}
    (pos : 0 < e) (run : exec (step a scale) (scanArea a (idle s)) ls = some t)
    (shown : ∀ p l q m, ls = p ++ l :: q →
      exec (step a scale) (scanArea a (idle s)) p = some m → Shows e m l) :
    Contained a scale e s ls t := by
  have start := row_of_start a s
  have left := outerLoop_left a e { idle s with lat := a.latmin, lon := a.lonmin }
  have first : (scanArea a (idle s)).visits.length + visitsLeft a e (scanArea a (idle s)) ≤
      cols a e * rows a e := by
    rw [scanArea, visits_outerLoop]
    exact (Nat.zero_add _).le.trans left.1
  obtain ⟨⟨kept, visits⟩, steps⟩ := exec_lowers
    (I := fun u => Kept a e u ∧ u.visits.length + visitsLeft a e u ≤ cols a e * rows a e)
    (stepsLeft a e) (by
      rintro u l u' ⟨kept, visits⟩ shows_ taken
      have progress := progress_of_step pos kept shows_ taken
      exact ⟨⟨progress.kept, progress.visits.trans visits⟩, progress.steps⟩)
    ⟨outerLoop_kept start, first⟩ run shown
  have ordered := kept.ordered
  refine ⟨?_, returns_of_kept pos scale kept, ordered.pairwise, ordered.distinct, ordered.inside,
    few_of_le pos ((Nat.le_add_right _ _).trans visits), ?_⟩
  · exact ((Nat.le_add_right _ _).trans steps).trans left.2
  · rintro p events q m rfl reached stop
    obtain ⟨m', reached', rest⟩ := exec_append_eq_some.mp run
    cases reached.symm.trans reached'
    obtain ⟨u, taken, after⟩ := Option.bind_eq_some_iff.mp rest
    obtain ⟨place, same⟩ := stops_of_yield stop taken
    cases q with
    | nil =>
      cases after
      exact ⟨rfl, place, same⟩
    | cons l q =>
      obtain ⟨_, taken', -⟩ := Option.bind_eq_some_iff.mp after
      rw [step_returned place] at taken'
      cases taken'

def square : ViewPort := ⟨0, 0, 1, 1, 0, 1, 0, 1⟩

def stopped : List Label :=
  [.refresh (some square), .refresh (some square), .refresh (some square), .yield [],
    .refresh (some square), .yield [.stopScan]]

theorem contained_stopped :
    ∃ t, exec (step ⟨0, 0, 3, 3⟩ 20000) (scanArea ⟨0, 0, 3, 3⟩ (idle .init)) stopped = some t ∧
      t.place = .returned ∧ t.visits = [⟨20000, 0, 0⟩, ⟨20000, 0, 1⟩] ∧
      Contained ⟨0, 0, 3, 3⟩ 20000 1 .init stopped t := by
  have goes : (exec (step ⟨0, 0, 3, 3⟩ 20000) (scanArea ⟨0, 0, 3, 3⟩ (idle .init)) stopped).map
      (fun t => (t.place, t.visits)) = some (.returned, [⟨20000, 0, 0⟩, ⟨20000, 0, 1⟩]) := by
    decide +kernel
  obtain ⟨t, run, ends⟩ := Option.map_eq_some_iff.mp goes
  obtain ⟨place, visits⟩ := Prod.mk.inj ends
  refine ⟨t, run, place, visits, contained one_pos run ?_⟩
  intro p l q m split _
  apply shows_of_reported
  rintro vp rfl
  have mem : Label.refresh vp ∈ stopped := by
    rw [split]
    exact List.mem_append_right p List.mem_cons_self
  have reported : vp = some square := by
    simpa [stopped] using mem
  exact ⟨square, reported, by norm_num [square], by norm_num [square]⟩

end ObjSearch.Scan.Termination
