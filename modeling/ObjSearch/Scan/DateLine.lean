/- Whether OnOk refuses an area because of the date line.
   digest: It refuses areas around the prime meridian that reach further west than east, and lets
   wide ones pass that begin at 90° west or east of it. -/

import ObjSearch.Scan.OnOk

set_option autoImplicit false
set_option relaxedAutoImplicit false

namespace ObjSearch.Scan.DateLine

open ObjSearch.Scan.ScanArea
open ObjSearch.Scan.OnOk

/-- The message box instead of the scans. -/
def refuses (r : Request) : Bool := r.tPath = [] && crossesIDL r.area.lonmin r.area.lonmax

def ticked (r : Request) : List ℤ :=
  (if r.cb5000000 then [5000000] else []) ++ (if r.cb1000000 then [1000000] else []) ++
    (if r.cb200000 then [200000] else []) ++ (if r.cb20000 then [20000] else [])

def mirror (r : Request) : Request := { r with spFromLon := -r.spFromLon, spToLon := -r.spToLon }

/-! What the check is for. -/

/-- The shorter way round between the two longitudes crosses the 180th meridian. -/
def Crosses (r : Request) : Prop := 180 < |r.spToLon - r.spFromLon|

instance (r : Request) : Decidable (Crosses r) := inferInstanceAs (Decidable (180 < |_|))

def full (r : Request) : Area where
  latmin := min r.spFromLat r.spToLat
  lonmin := min r.spFromLon r.spToLon
  latmax := max r.spFromLat r.spToLat
  lonmax := max r.spFromLon r.spToLon

/-- An area is refused exactly where it crosses the date line, and else scanned as a whole at every
scale ticked. -/
structure Decides (r : Request) : Prop where
  refused : refuses r ↔ Crosses r
  scans : ∀ s, start r s = scanAll (full r) (if Crosses r then [] else ticked r) (idle s)

theorem crosses_iff (r : Request) : Crosses r ↔ 180 < r.area.lonmax - r.area.lonmin := by
  rw [Crosses, ← max_sub_min_eq_abs']
  show 180 < max r.spToLon r.spFromLon - min r.spToLon r.spFromLon ↔
    180 < max r.spFromLon r.spToLon - min r.spFromLon r.spToLon
  rw [max_comm, min_comm]

theorem crossesIDL_iff (lonmin lonmax : ℤ) :
    crossesIDL lonmin lonmax ↔ lonmin < -90 ∧ 90 < lonmax ∨
      lonmin < 0 ∧ 0 < lonmax ∧ lonmin + lonmax < 0 := by
  simp only [crossesIDL, Bool.or_eq_true, Bool.and_eq_true, decide_eq_true_eq]
  omega

theorem refuses_iff {r : Request} (noPath : r.tPath = []) :
    refuses r ↔ r.area.lonmin < -90 ∧ 90 < r.area.lonmax ∨
      r.area.lonmin < 0 ∧ 0 < r.area.lonmax ∧ r.area.lonmin + r.area.lonmax < 0 := by
  rw [refuses, noPath, decide_eq_true rfl, Bool.true_and, crossesIDL_iff]

theorem scans_eq {r : Request} (noPath : r.tPath = []) :
    r.scans = if refuses r then [] else ticked r := by
  cases h : crossesIDL r.area.lonmin r.area.lonmax with
  | true => simp [Request.scans, refuses, noPath, h]
  | false => simp [Request.scans, refuses, ticked, noPath, h]

theorem mirror_area (r : Request) :
    (mirror r).area.lonmin = -r.area.lonmax ∧ (mirror r).area.lonmax = -r.area.lonmin := by
  show min (-r.spFromLon) (-r.spToLon) = -max r.spFromLon r.spToLon ∧
    max (-r.spFromLon) (-r.spToLon) = -min r.spFromLon r.spToLon
  omega

theorem decides_of_refused {r : Request} (noPath : r.tPath = []) (right : refuses r ↔ Crosses r) :
    Decides r := by
  refine ⟨right, ?_⟩
  intro s
  have scales : r.scans = if Crosses r then [] else ticked r := by
    rw [scans_eq noPath]
    simp only [right]
  rw [start, scales]
  rfl

/-- The check is right exactly where no area of at most 180° around the prime meridian reaches
further west than east, and each wider one begins west of 90° west and ends in the east. It treats
an area as its mirror image exactly where that reaches as far west as east, or beyond 90° both
ways, or does not have the prime meridian inside. -/
theorem decides_iff (r : Request) (noPath : r.tPath = []) :
    (Decides r ↔
      (r.area.lonmin < 0 → 0 < r.area.lonmax → r.area.lonmin + r.area.lonmax < 0 →
        180 < r.area.lonmax - r.area.lonmin) ∧
      (180 < r.area.lonmax - r.area.lonmin → r.area.lonmin < -90 ∧ 0 < r.area.lonmax)) ∧
    ((refuses (mirror r) ↔ refuses r) ↔
      (r.area.lonmin < 0 → 0 < r.area.lonmax →
        r.area.lonmin + r.area.lonmax = 0 ∨ r.area.lonmin < -90 ∧ 90 < r.area.lonmax)) := by
  have here := refuses_iff noPath
  have there := refuses_iff (r := mirror r) noPath
  rw [(mirror_area r).1, (mirror_area r).2] at there
  have crosses := crosses_iff r
  have order := lon_le r
  constructor
  · constructor
    · intro h
      have right := h.refused
      rw [here, crosses] at right
      omega
    · intro condition
      apply decides_of_refused noPath
      rw [here, crosses]
      omega
  · rw [here, there]
    omega

def overGreenwich : Request := ⟨[], 0, 1, -10, 5, true, false, false, false⟩

theorem decides_iff_overGreenwich :
    (Decides overGreenwich ↔
      (overGreenwich.area.lonmin < 0 → 0 < overGreenwich.area.lonmax →
        overGreenwich.area.lonmin + overGreenwich.area.lonmax < 0 →
          180 < overGreenwich.area.lonmax - overGreenwich.area.lonmin) ∧
      (180 < overGreenwich.area.lonmax - overGreenwich.area.lonmin →
        overGreenwich.area.lonmin < -90 ∧ 0 < overGreenwich.area.lonmax)) ∧
    ((refuses (mirror overGreenwich) ↔ refuses overGreenwich) ↔
      (overGreenwich.area.lonmin < 0 → 0 < overGreenwich.area.lonmax →
        overGreenwich.area.lonmin + overGreenwich.area.lonmax = 0 ∨
          overGreenwich.area.lonmin < -90 ∧ 90 < overGreenwich.area.lonmax)) :=
  decides_iff overGreenwich rfl

/-- 15° around Greenwich are refused, though not from 5° west to 10° east; 200° from 50° west to
150° east are not. -/
theorem greenwich_is_refused :
    ¬ Decides overGreenwich ∧ ¬ (refuses (mirror overGreenwich) ↔ refuses overGreenwich) ∧
      ¬ Decides ⟨[], 0, 1, -50, 150, true, false, false, false⟩ := by
  refine ⟨?_, by decide, ?_⟩
  · intro h
    exact absurd (h.refused.mp (by decide)) (by decide)
  · intro h
    exact absurd (h.refused.mpr (by decide)) (by decide)

end ObjSearch.Scan.DateLine
