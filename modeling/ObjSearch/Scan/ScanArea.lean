/- `ScanArea` from one point at which the host has control to the next.
   digest: A scan that is told to finish issues no further jump and clears the flag on its way
   out. -/

import Mathlib.Algebra.Order.Ring.Rat
import ObjSearch.Lib.Runs
import ObjSearch.Scan.Viewports

set_option autoImplicit false
set_option relaxedAutoImplicit false

namespace ObjSearch.Scan.ScanArea

open ObjSearch.Lib.Runs
open ObjSearch.Scan.Viewports

structure Area where
  latmin : ℤ
  lonmin : ℤ
  latmax : ℤ
  lonmax : ℤ

/-- A call of `JumpToPosition`. -/
structure Jump where
  lat : ℚ
  lon : ℚ
  ppm : ℚ
deriving DecidableEq

/-- A jump of the inner loop, by the scale of its scan. -/
structure Visit where
  scale : ℤ
  lat : ℚ
  lon : ℚ
deriving DecidableEq

/-- Where the host has control, or the end of the call. -/
inductive Place where
  /-- in the first jump of the outer loop, at the scale shown so far -/
  | measure
  /-- in its second jump, at the scale of the scan -/
  | rescale
  /-- in the jump of the inner loop -/
  | visit
  /-- in `wxYield` -/
  | yield
  | returned
deriving DecidableEq

/-- What outlives a scan. -/
structure Scanner where
  view : View
  finishing : Bool

def Scanner.init : Scanner := ⟨.init, false⟩

/-- The flag, the local variables, and a record of what was done. -/
structure State extends Scanner where
  lat : ℚ
  lon : ℚ
  lat_step : ℚ
  lon_step : ℚ
  ppm_scale : ℚ
  place : Place
  jumps : List Jump
  visits : List Visit

/-- What the host may do in `wxYield`: both `StopScan` and `DeInit` set `finishing`. -/
inductive Event where
  | viewport (vp : ViewPort)
  | stopScan
  | deInit

/-- What the host does while it has control: report a viewport in a jump and the refresh after it,
handle events in `wxYield`. -/
inductive Label where
  | refresh (vp : Option ViewPort)
  | yield (events : List Event)

def Scanner.handle (s : Scanner) : Event → Scanner
  | .viewport vp => { s with view := setCurrentViewPort s.view vp }
  | .stopScan => { s with finishing := true }
  | .deInit => { s with finishing := true }

def Event.stops : Event → Bool
  | .viewport _ => false
  | .stopScan => true
  | .deInit => true

def State.report (s : State) : Option ViewPort → State
  | none => s
  | some vp => { s with view := setCurrentViewPort s.view vp }

def State.handleAll (s : State) (events : List Event) : State :=
  { s with toScanner := events.foldl Scanner.handle s.toScanner }

/-- The test of the outer loop and the way to the next point. -/
def outerLoop (a : Area) (s : State) : State :=
  if s.finishing = false ∧ s.lat ≤ a.latmax then
    { s with jumps := s.jumps ++ [⟨s.lat, s.lon, s.view.vpppm⟩], place := .measure }
  else { s with finishing := false, place := .returned }

/-- The test of the inner loop and the way to the next point. -/
def innerLoop (a : Area) (scale : ℤ) (s : State) : State :=
  if s.finishing = false ∧ s.lon ≤ a.lonmax then
    { s with
      jumps := s.jumps ++ [⟨s.lat, s.lon, s.ppm_scale⟩]
      visits := s.visits ++ [⟨scale, s.lat, s.lon⟩]
      place := .visit }
  else outerLoop a { s with lon := a.lonmin, lat := s.lat + s.lat_step }

def idle (s : Scanner) : State := ⟨s, 0, 0, 0, 0, 0, .returned, [], []⟩

def scanArea (a : Area) (s : State) : State :=
  outerLoop a { s with lat := a.latmin, lon := a.lonmin }

def step (a : Area) (scale : ℤ) (s : State) (l : Label) : Option State :=
  match s.place, l with
  | .measure, .refresh vp =>
    let s := s.report vp
    let ppm_scale := calculatePPM s.view scale
    some { s with
      ppm_scale := ppm_scale
      jumps := s.jumps ++ [⟨s.lat, s.lon, ppm_scale⟩]
      place := .rescale }
  | .rescale, .refresh vp =>
    let s := s.report vp
    some (innerLoop a scale { s with
      lat_step := s.view.vplat_max - s.view.vplat_min
      lon_step := s.view.vplon_max - s.view.vplon_min })
  | .visit, .refresh vp =>
    let s := s.report vp
    if s.finishing = false then some { s with place := .yield }
    else some (innerLoop a scale { s with lon := s.lon + s.lon_step })
  | .yield, .yield events =>
    let s := s.handleAll events
    some (innerLoop a scale { s with lon := s.lon + s.lon_step })
  | _, _ => none

theorem foldl_handle_finishing (s : Scanner) (events : List Event) :
    (events.foldl Scanner.handle s).finishing = (s.finishing || events.any Event.stops) := by
  induction events generalizing s with
  | nil => simp
  | cons e events ih =>
    rw [List.foldl_cons, ih]
    cases e <;> simp [Scanner.handle, Event.stops]

@[simp] theorem report_finishing (s : State) (vp : Option ViewPort) :
    (s.report vp).finishing = s.finishing := by
  cases vp <;> rfl

@[simp] theorem report_jumps (s : State) (vp : Option ViewPort) :
    (s.report vp).jumps = s.jumps := by
  cases vp <;> rfl

@[simp] theorem report_visits (s : State) (vp : Option ViewPort) :
    (s.report vp).visits = s.visits := by
  cases vp <;> rfl

@[simp] theorem report_lat (s : State) (vp : Option ViewPort) : (s.report vp).lat = s.lat := by
  cases vp <;> rfl

@[simp] theorem report_lon (s : State) (vp : Option ViewPort) : (s.report vp).lon = s.lon := by
  cases vp <;> rfl

@[simp] theorem report_lat_step (s : State) (vp : Option ViewPort) :
    (s.report vp).lat_step = s.lat_step := by
  cases vp <;> rfl

@[simp] theorem report_lon_step (s : State) (vp : Option ViewPort) :
    (s.report vp).lon_step = s.lon_step := by
  cases vp <;> rfl

theorem step_measure (a : Area) (scale : ℤ) {s : State} (h : s.place = .measure)
    (vp : Option ViewPort) :
    step a scale s (.refresh vp) =
      some { s.report vp with
        ppm_scale := calculatePPM (s.report vp).view scale
        jumps := (s.report vp).jumps ++
          [⟨(s.report vp).lat, (s.report vp).lon, calculatePPM (s.report vp).view scale⟩]
        place := .rescale } := by
  unfold step
  simp only [h]

theorem step_rescale (a : Area) (scale : ℤ) {s : State} (h : s.place = .rescale)
    (vp : Option ViewPort) :
    step a scale s (.refresh vp) =
      some (innerLoop a scale { s.report vp with
        lat_step := (s.report vp).view.vplat_max - (s.report vp).view.vplat_min
        lon_step := (s.report vp).view.vplon_max - (s.report vp).view.vplon_min }) := by
  unfold step
  simp only [h]

theorem step_visit (a : Area) (scale : ℤ) {s : State} (h : s.place = .visit)
    (vp : Option ViewPort) :
    step a scale s (.refresh vp) =
      some (if s.finishing = false then { s.report vp with place := .yield }
        else innerLoop a scale { s.report vp with lon := s.lon + s.lon_step }) := by
  unfold step
  simp only [h, report_finishing, report_lon, report_lon_step]
  split_ifs <;> rfl

theorem innerLoop_of_finishing (a : Area) (scale : ℤ) {s : State} (h : s.finishing = true) :
    innerLoop a scale s =
      { s with lon := a.lonmin, lat := s.lat + s.lat_step, finishing := false,
               place := .returned } := by
  rw [innerLoop, if_neg (by simp [h]), outerLoop, if_neg (by simp [h])]

theorem step_yield (a : Area) (scale : ℤ) {s : State} (h : s.place = .yield)
    (events : List Event) :
    step a scale s (.yield events) =
      some (innerLoop a scale { s.handleAll events with lon := s.lon + s.lon_step }) := by
  unfold step
  simp only [h]
  rfl

theorem step_cases {a : Area} {scale : ℤ} {s s' : State} {l : Label}
    (taken : step a scale s l = some s') :
    (∃ vp, s.place = .measure ∧ l = .refresh vp ∧ s' = { s.report vp with
      ppm_scale := calculatePPM (s.report vp).view scale
      jumps := (s.report vp).jumps ++
        [⟨(s.report vp).lat, (s.report vp).lon, calculatePPM (s.report vp).view scale⟩]
      place := .rescale }) ∨
    (∃ vp, s.place = .rescale ∧ l = .refresh vp ∧ s' = innerLoop a scale { s.report vp with
      lat_step := (s.report vp).view.vplat_max - (s.report vp).view.vplat_min
      lon_step := (s.report vp).view.vplon_max - (s.report vp).view.vplon_min }) ∨
    (∃ vp, s.place = .visit ∧ l = .refresh vp ∧
      s' = if s.finishing = false then { s.report vp with place := .yield }
        else innerLoop a scale { s.report vp with lon := s.lon + s.lon_step }) ∨
    ∃ events, s.place = .yield ∧ l = .yield events ∧
      s' = innerLoop a scale { s.handleAll events with lon := s.lon + s.lon_step } := by
  cases l with
  | refresh vp =>
    cases place : s.place with
    | measure =>
      rw [step_measure a scale place] at taken
      exact Or.inl ⟨vp, rfl, rfl, (Option.some.inj taken).symm⟩
    | rescale =>
      rw [step_rescale a scale place] at taken
      exact Or.inr (Or.inl ⟨vp, rfl, rfl, (Option.some.inj taken).symm⟩)
    | visit =>
      rw [step_visit a scale place] at taken
      exact Or.inr (Or.inr (Or.inl ⟨vp, rfl, rfl, (Option.some.inj taken).symm⟩))
    | yield | returned =>
      simp only [step, place] at taken
      cases taken
  | yield events =>
    cases place : s.place with
    | yield =>
      rw [step_yield a scale place] at taken
      exact Or.inr (Or.inr (Or.inr ⟨events, rfl, rfl, (Option.some.inj taken).symm⟩))
    | measure | rescale | visit | returned =>
      simp only [step, place] at taken
      cases taken

theorem finishing_outerLoop (a : Area) (s : State) (h : (outerLoop a s).place = .returned) :
    (outerLoop a s).finishing = false := by
  unfold outerLoop at h ⊢
  split_ifs at h ⊢
  rfl

theorem finishing_innerLoop (a : Area) (scale : ℤ) (s : State)
    (h : (innerLoop a scale s).place = .returned) : (innerLoop a scale s).finishing = false := by
  unfold innerLoop at h ⊢
  split_ifs at h ⊢
  exact finishing_outerLoop a _ h

theorem finishing_step {a : Area} {scale : ℤ} {s s' : State} {l : Label}
    (taken : step a scale s l = some s') (h : s'.place = .returned) : s'.finishing = false := by
  obtain ⟨vp, -, -, rfl⟩ | ⟨vp, -, -, rfl⟩ | ⟨vp, -, -, rfl⟩ | ⟨events, -, -, rfl⟩ :=
    step_cases taken
  · cases h
  · exact finishing_innerLoop a scale _ h
  · split_ifs at h ⊢
    exact finishing_innerLoop a scale _ h
  · exact finishing_innerLoop a scale _ h

theorem visits_outerLoop (a : Area) (s : State) : (outerLoop a s).visits = s.visits := by
  unfold outerLoop
  split_ifs <;> rfl

theorem visits_innerLoop (a : Area) (scale : ℤ) (s : State) :
    (innerLoop a scale s).visits = s.visits ∨
      (innerLoop a scale s).visits = s.visits ++ [⟨scale, s.lat, s.lon⟩] := by
  unfold innerLoop
  split_ifs
  · exact Or.inr rfl
  · exact Or.inl (visits_outerLoop a _)

theorem visits_step {a : Area} {scale : ℤ} {s s' : State} {l : Label}
    (taken : step a scale s l = some s') :
    s'.visits = s.visits ∨ ∃ lat lon, s'.visits = s.visits ++ [⟨scale, lat, lon⟩] := by
  have loop : ∀ t : State, t.visits = s.visits → (innerLoop a scale t).visits = s.visits ∨
      ∃ lat lon, (innerLoop a scale t).visits = s.visits ++ [⟨scale, lat, lon⟩] := by
    intro t same
    rw [← same]
    exact (visits_innerLoop a scale t).imp_right fun h => ⟨_, _, h⟩
  obtain ⟨vp, -, -, rfl⟩ | ⟨vp, -, -, rfl⟩ | ⟨vp, -, -, rfl⟩ | ⟨events, -, -, rfl⟩ :=
    step_cases taken
  · exact Or.inl (report_visits s vp)
  · exact loop _ (report_visits s vp)
  · split_ifs
    · exact Or.inl (report_visits s vp)
    · exact loop _ (report_visits s vp)
  · exact loop _ rfl

theorem innerLoop_enters {a : Area} (scale : ℤ) {s : State} (unset : s.finishing = false)
    (inside : s.lon ≤ a.lonmax) :
    innerLoop a scale s =
      { s with
        jumps := s.jumps ++ [⟨s.lat, s.lon, s.ppm_scale⟩]
        visits := s.visits ++ [⟨scale, s.lat, s.lon⟩]
        place := .visit } := by
  rw [innerLoop, if_pos ⟨unset, inside⟩]

/-- The first two jumps of a row, which measure it. -/
theorem measure_then (a : Area) (scale : ℤ) {s : State} (h : s.place = .measure)
    (vp : Option ViewPort) :
    ∃ t, step a scale s (.refresh vp) = some t ∧ t.place = .rescale ∧
      t.finishing = s.finishing ∧ t.lat = s.lat ∧ t.lon = s.lon ∧ t.visits = s.visits := by
  refine ⟨_, step_measure a scale h vp, rfl, ?_, ?_, ?_, ?_⟩
  · exact report_finishing s vp
  · exact report_lat s vp
  · exact report_lon s vp
  · exact report_visits s vp

theorem rescale_then {a : Area} (scale : ℤ) {s : State} (h : s.place = .rescale)
    (unset : s.finishing = false) (inside : s.lon ≤ a.lonmax) (vp : Option ViewPort) :
    ∃ t, step a scale s (.refresh vp) = some t ∧ t.place = .visit ∧ t.finishing = false ∧
      t.lat = s.lat ∧ t.lon = s.lon ∧ t.visits = s.visits ++ [⟨scale, s.lat, s.lon⟩] ∧
      t.lat_step = (s.report vp).view.vplat_max - (s.report vp).view.vplat_min ∧
      t.lon_step = (s.report vp).view.vplon_max - (s.report vp).view.vplon_min := by
  have enters := (step_rescale a scale h vp).trans (congrArg some (innerLoop_enters scale
    ((report_finishing s vp).trans unset) ((report_lon s vp).le.trans inside)))
  refine ⟨_, enters, rfl, ?_, ?_, ?_, ?_, rfl, rfl⟩
  · exact (report_finishing s vp).trans unset
  · exact report_lat s vp
  · exact report_lon s vp
  · simp

end ObjSearch.Scan.ScanArea
