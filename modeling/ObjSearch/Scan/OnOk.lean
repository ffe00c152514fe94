/- OnOk of the settings dialog: one call of `ScanArea` for each ticked scale.
   digest: A cancel ends the call exactly in its last scan, and one that comes between two calls
   takes the first scan of the next. -/

import Mathlib.Algebra.Order.Ring.Cast
import Mathlib.Data.List.Infix
import ObjSearch.Lib.Texts
import ObjSearch.Scan.ScanArea

set_option autoImplicit false
set_option relaxedAutoImplicit false

namespace ObjSearch.Scan.OnOk

open ObjSearch.Lib.Texts (Text)
open ObjSearch.Lib.Runs
open ObjSearch.Scan.Viewports
open ObjSearch.Scan.ScanArea (Area Jump Visit Place Scanner State Event Label idle scanArea)

/-- What the settings dialog holds when OK is pressed. -/
structure Request where
  tPath : Text
  spFromLat : ℤ
  spToLat : ℤ
  spFromLon : ℤ
  spToLon : ℤ
  cb5000000 : Bool
  cb1000000 : Bool
  cb200000 : Bool
  cb20000 : Bool

def Request.area (r : Request) : Area where
  latmin := min r.spFromLat r.spToLat
  lonmin := min r.spFromLon r.spToLon
  latmax := max r.spFromLat r.spToLat
  lonmax := max r.spFromLon r.spToLon

/-- The check for the date line, on the smaller and the larger longitude. -/
def crossesIDL (lonmin lonmax : ℤ) : Bool :=
  (lonmin < -90 && lonmax > 90) || (lonmin < 0 && lonmax > 0 && 180 + lonmin + lonmax < 180)

/-- The scales of its calls of `ScanArea`, in their order; a request with a path imports a file. -/
def Request.scans (r : Request) : List ℤ :=
  if r.tPath = [] ∧ crossesIDL r.area.lonmin r.area.lonmax = false then
    (if r.cb5000000 then [5000000] else []) ++ (if r.cb1000000 then [1000000] else []) ++
      (if r.cb200000 then [200000] else []) ++ (if r.cb20000 then [20000] else [])
  else []

/-- A call of `OnOk`: the state of its running scan, and the scales that are still to be done, that
of the running scan first. -/
structure Call where
  scan : State
  scans : List ℤ

/-- One scan after the other, as long as they return at once. -/
def scanAll (a : Area) : List ℤ → State → Call
  | [], s => ⟨s, []⟩
  | scale :: rest, s =>
    if (scanArea a s).place = .returned then scanAll a rest (scanArea a s)
    else ⟨scanArea a s, scale :: rest⟩

def start (r : Request) (s : Scanner) : Call := scanAll r.area r.scans (idle s)

/-- From one point at which the host has control to the next. -/
def step (a : Area) (c : Call) (l : Label) : Option Call :=
  match c.scans with
  | [] => none
  | scale :: rest => (ScanArea.step a scale c.scan l).map fun s =>
    if s.place = .returned then scanAll a rest s else ⟨s, scale :: rest⟩

theorem lat_le (r : Request) : r.area.latmin ≤ r.area.latmax := min_le_max

theorem lon_le (r : Request) : r.area.lonmin ≤ r.area.lonmax := min_le_max

theorem scans_nodup (r : Request) : r.scans.Nodup := by
  unfold Request.scans
  split_ifs <;> decide

theorem scanAll_starts {a : Area} (some_row : a.latmin ≤ a.latmax) (scale : ℤ) (rest : List ℤ)
    {s : State} (h : s.finishing = false) :
    scanAll a (scale :: rest) s =
      ⟨{ s with
          lat := a.latmin, lon := a.lonmin, place := .measure
          jumps := s.jumps ++ [⟨a.latmin, a.lonmin, s.view.vpppm⟩] }, scale :: rest⟩ := by
  have row : (a.latmin : ℚ) ≤ a.latmax := Int.cast_le.mpr some_row
  have starts : scanArea a s =
      { s with
        lat := a.latmin, lon := a.lonmin, place := .measure
        jumps := s.jumps ++ [⟨a.latmin, a.lonmin, s.view.vpppm⟩] } := by
    rw [scanArea, ScanArea.outerLoop, if_pos ⟨h, row⟩]
  rw [scanAll, starts, if_neg]
  intro returned
  cases returned

/-- A scan that finds the flag set returns at once and clears it. -/
theorem scanAll_skips (a : Area) (scale : ℤ) (rest : List ℤ) {s : State}
    (h : s.finishing = true) :
    scanAll a (scale :: rest) s =
      scanAll a rest
        { s with lat := a.latmin, lon := a.lonmin, finishing := false, place := .returned } := by
  have returns : scanArea a s =
      { s with lat := a.latmin, lon := a.lonmin, finishing := false, place := .returned } := by
    rw [scanArea, ScanArea.outerLoop, if_neg]
    intro both
    exact Bool.false_ne_true (both.1.symm.trans h)
  rw [scanAll, returns, if_pos rfl]

theorem scanAll_scans (a : Area) (todo : List ℤ) (s : State) : (scanAll a todo s).scans <:+ todo := by
  induction todo generalizing s with
  | nil => exact List.suffix_refl []
  | cons scale rest ih =>
    rw [scanAll]
    split_ifs
    · exact (ih _).trans (List.suffix_cons scale rest)
    · exact List.suffix_refl _

def Settled (c : Call) : Prop := c.scans = [] → c.scan.place = .returned

theorem scanAll_settled (a : Area) (todo : List ℤ) {s : State} (h : s.place = .returned) :
    Settled (scanAll a todo s) := by
  induction todo generalizing s with
  | nil => exact fun _ => h
  | cons scale rest ih =>
    rw [scanAll]
    split_ifs with returned
    · exact ih returned
    · intro none_left
      cases none_left

theorem step_spec {a : Area} {c c' : Call} {l : Label} (taken : step a c l = some c') :
    ∃ scale rest s, c.scans = scale :: rest ∧ ScanArea.step a scale c.scan l = some s ∧
      ((s.place = .returned ∧ c' = scanAll a rest s) ∨
        (s.place ≠ .returned ∧ c' = ⟨s, scale :: rest⟩)) := by
  unfold step at taken
  split at taken
  · cases taken
  · rename_i scale rest left
    obtain ⟨s, first, rfl⟩ := Option.map_eq_some_iff.mp taken
    refine ⟨scale, rest, s, left, first, ?_⟩
    split_ifs with returned
    · exact Or.inl ⟨returned, rfl⟩
    · exact Or.inr ⟨returned, rfl⟩

theorem step_scans {a : Area} {c c' : Call} {l : Label} (taken : step a c l = some c') :
    c'.scans <:+ c.scans := by
  obtain ⟨scale, rest, s, left, -, ⟨-, rfl⟩ | ⟨-, rfl⟩⟩ := step_spec taken
  · rw [left]
    exact (scanAll_scans a rest s).trans (List.suffix_cons scale rest)
  · rw [left]

theorem step_settled {a : Area} {c c' : Call} {l : Label} (taken : step a c l = some c') :
    Settled c' := by
  obtain ⟨scale, rest, s, -, -, ⟨returned, rfl⟩ | ⟨-, rfl⟩⟩ := step_spec taken
  · exact scanAll_settled a rest returned
  · intro none_left
    cases none_left

theorem run_scans {r : Request} {s : Scanner} {ls : List Label} {c : Call}
    (run : exec (step r.area) (start r s) ls = some c) : c.scans <:+ r.scans ∧ Settled c := by
  refine exec_invariant (I := fun c => c.scans <:+ r.scans ∧ Settled c) ?_ ?_ run
  · intro c l c' h taken
    exact ⟨(step_scans taken).trans h.1, step_settled taken⟩
  · exact ⟨scanAll_scans _ _ _, scanAll_settled _ _ rfl⟩

/-- A stop in `wxYield` ends the running scan, clears the flag, and goes on to the next scale. -/
theorem step_stop (a : Area) {c : Call} {scale : ℤ} {rest : List ℤ} (left : c.scans = scale :: rest)
    (yields : c.scan.place = .yield) {events : List Event}
    (stop : events.any Event.stops = true) :
    ∃ s : State, s.place = .returned ∧ s.finishing = false ∧ s.jumps = c.scan.jumps ∧
      step a c (.yield events) = some (scanAll a rest s) := by
  let s : State := { c.scan.handleAll events with lon := c.scan.lon + c.scan.lon_step }
  have told : s.finishing = true := by
    show (events.foldl Scanner.handle c.scan.toScanner).finishing = true
    rw [ScanArea.foldl_handle_finishing, stop, Bool.or_true]
  have ends : ScanArea.step a scale c.scan (.yield events) = some (ScanArea.innerLoop a scale s) :=
    ScanArea.step_yield a scale yields events
  refine ⟨{ s with lon := a.lonmin, lat := s.lat + s.lat_step, finishing := false,
                   place := .returned }, rfl, rfl, rfl, ?_⟩
  unfold step
  rw [left]
  show (ScanArea.step a scale c.scan (.yield events)).map _ = _
  rw [ends, ScanArea.innerLoop_of_finishing a scale told, Option.map_some, if_pos rfl]

def NoFurtherJump (r : Request) (c : Call) (events : List Event) : Prop :=
  ∀ ls c', exec (step r.area) c (.yield events :: ls) = some c' → c'.scan.jumps = c.scan.jumps

theorem noFurtherJump_of_last {r : Request} {c : Call} {scale : ℤ} (left : c.scans = [scale])
    (yields : c.scan.place = .yield) {events : List Event}
    (stop : events.any Event.stops = true) : NoFurtherJump r c events := by
  obtain ⟨s, -, -, jumps, taken⟩ := step_stop r.area left yields stop
  intro ls c' run
  rw [exec_cons taken] at run
  cases ls with
  | nil =>
    obtain rfl := Option.some.inj run
    exact jumps
  | cons l ls => cases run

theorem not_noFurtherJump {r : Request} {c : Call} {scale next : ℤ} {rest : List ℤ}
    (left : c.scans = scale :: next :: rest) (yields : c.scan.place = .yield)
    {events : List Event} (stop : events.any Event.stops = true) : ¬ NoFurtherJump r c events := by
  obtain ⟨s, -, unset, jumps, taken⟩ := step_stop r.area left yields stop
  rw [scanAll_starts (lat_le r) next rest unset] at taken
  intro none
  have same := none [] _ (exec_cons taken [])
  rw [← jumps] at same
  exact List.cons_ne_nil _ _ (List.append_right_eq_self.mp same)

/-- A stop in `wxYield` ends the whole call exactly in the scan of the last ticked scale. -/
theorem noFurtherJump_iff (r : Request) (s : Scanner) (ls : List Label) (c : Call)
    (run : exec (step r.area) (start r s) ls = some c) (yields : c.scan.place = .yield)
    (events : List Event) (stop : events.any Event.stops = true) :
    NoFurtherJump r c events ↔ c.scans.head? = r.scans.getLast? := by
  obtain ⟨⟨done, split⟩, settled⟩ := run_scans run
  have nodup : (done ++ c.scans).Nodup := split ▸ scans_nodup r
  rw [← split]
  match left : c.scans with
  | [] =>
    rw [settled left] at yields
    cases yields
  | [scale] =>
    constructor
    · intro _
      rw [List.getLast?_concat, List.head?_cons]
    · intro _
      exact noFurtherJump_of_last left yields stop
  | scale :: next :: rest =>
    constructor
    · intro h
      exact absurd h (not_noFurtherJump left yields stop)
    · intro same
      rw [left] at nodup
      have last : scale ∈ next :: rest := by
        rw [List.getLast?_append_of_ne_nil _ (List.cons_ne_nil _ _), List.getLast?_cons_cons,
          List.head?_cons] at same
        exact List.mem_of_getLast? same.symm
      exact absurd last (List.nodup_cons.mp (List.nodup_append.mp nodup).2.1).1

def twoScales : Request := ⟨[], 0, 0, 0, 0, true, true, false, false⟩

theorem twoScales_yields :
    ∃ c, exec (step twoScales.area) (start twoScales .init)
        [.refresh none, .refresh none, .refresh none] = some c ∧
      c.scan.place = .yield ∧ c.scans = [5000000, 1000000] := by
  have run : (exec (step twoScales.area) (start twoScales .init)
      [.refresh none, .refresh none, .refresh none]).map (fun c => (c.scan.place, c.scans)) =
        some (.yield, [5000000, 1000000]) := by decide +kernel
  obtain ⟨c, run, both⟩ := Option.map_eq_some_iff.mp run
  exact ⟨c, run, (Prod.mk.inj both).1, (Prod.mk.inj both).2⟩

theorem noFurtherJump_iff_twoScales :
    ∃ c, exec (step twoScales.area) (start twoScales .init)
        [.refresh none, .refresh none, .refresh none] = some c ∧
      (NoFurtherJump twoScales c [.stopScan] ↔ c.scans.head? = twoScales.scans.getLast?) := by
  obtain ⟨c, run, yields, -⟩ := twoScales_yields
  exact ⟨c, run, noFurtherJump_iff twoScales .init _ c run yields [.stopScan] rfl⟩

theorem cancel_leaves_the_next_scan :
    ¬ ∀ (r : Request) (s : Scanner) (ls : List Label) (c : Call) (events : List Event),
      exec (step r.area) (start r s) ls = some c → c.scan.place = .yield →
        events.any Event.stops = true → NoFurtherJump r c events := by
  intro h
  obtain ⟨c, run, yields, left⟩ := twoScales_yields
  exact not_noFurtherJump left yields rfl (h _ _ _ c [.stopScan] run yields rfl)

inductive Action where
  | viewport (vp : ViewPort)
  /-- `OnCancel` with no scan running -/
  | onCancel
  | onOk (r : Request) (ls : List Label)

def act (s : Scanner) : Action → Option Scanner
  | .viewport vp => some (s.handle (.viewport vp))
  | .onCancel => some (s.handle .stopScan)
  | .onOk r ls => (exec (step r.area) (start r s) ls).bind fun c =>
    if c.scans = [] then some c.scan.toScanner else none

/-- Whether a cancel between two calls, pending before the action, is pending after it. -/
def Action.leaves (before : Bool) : Action → Bool
  | .viewport _ => before
  | .onCancel => true
  | .onOk r _ => if r.scans = [] then before else false

/-- Whether such a cancel came after the last call that started a scan. -/
def pending (history : List Action) : Bool := history.foldl Action.leaves false

/-- The host's part of a call without a stop, by the jumps it has been told to do so far. -/
structure Host where
  refreshed : List Jump → Option ViewPort
  yielded : List Jump → List ViewPort

def Host.label (host : Host) (c : Call) : Label :=
  if c.scan.place = .yield then .yield ((host.yielded c.scan.jumps).map .viewport)
  else .refresh (host.refreshed c.scan.jumps)

def Host.advance (host : Host) (r : Request) (c : Call) : Call :=
  (step r.area c (host.label c)).getD c

def Visited (host : Host) (r : Request) (s : Scanner) (v : Visit) : Prop :=
  ∃ n, v ∈ ((host.advance r)^[n] (start r s)).scan.visits

def fresh (s : Scanner) : Scanner := { Scanner.init with view := s.view }

theorem scanAll_finishing (a : Area) (todo : List ℤ) {s : State}
    (h : s.finishing = false ∨ todo ≠ []) (done : (scanAll a todo s).scans = []) :
    (scanAll a todo s).scan.finishing = false := by
  induction todo generalizing s with
  | nil => exact h.resolve_right fun none_left => none_left rfl
  | cons scale rest ih =>
    rw [scanAll] at done ⊢
    split_ifs at done ⊢ with returned
    exact ih (Or.inl (ScanArea.finishing_outerLoop a _ returned)) done

theorem run_finishing {r : Request} (some_scale : r.scans ≠ []) {s : Scanner} {ls : List Label}
    {c : Call} (run : exec (step r.area) (start r s) ls = some c) (done : c.scans = []) :
    c.scan.finishing = false := by
  refine exec_invariant (I := fun c => c.scans = [] → c.scan.finishing = false) ?_ ?_ run done
  · intro c l c' _ taken
    obtain ⟨scale, rest, s, -, first, ⟨returned, rfl⟩ | ⟨-, rfl⟩⟩ := step_spec taken
    · exact scanAll_finishing r.area rest (Or.inl (ScanArea.finishing_step first returned))
    · intro none_left
      cases none_left
  · exact scanAll_finishing r.area r.scans (Or.inr some_scale)

theorem act_onOk_nil {r : Request} (no_scale : r.scans = []) {s s' : Scanner} {ls : List Label}
    (taken : act s (.onOk r ls) = some s') : s' = s := by
  obtain ⟨c, run, ends⟩ := Option.bind_eq_some_iff.mp taken
  rw [start, no_scale] at run
  cases ls with
  | nil =>
    obtain rfl := Option.some.inj run
    exact (Option.some.inj ends).symm
  | cons l ls => cases run

theorem act_finishing {s s' : Scanner} {action : Action} (taken : act s action = some s') :
    s'.finishing = action.leaves s.finishing := by
  cases action with
  | viewport vp =>
    obtain rfl := Option.some.inj taken
    rfl
  | onCancel =>
    obtain rfl := Option.some.inj taken
    rfl
  | onOk r ls =>
    rw [Action.leaves]
    split_ifs with no_scale
    · rw [act_onOk_nil no_scale taken]
    · obtain ⟨c, run, ends⟩ := Option.bind_eq_some_iff.mp taken
      split_ifs at ends with done
      obtain rfl := Option.some.inj ends
      exact run_finishing no_scale run done

theorem exec_act_finishing {t s : Scanner} {history : List Action}
    (run : exec act t history = some s) :
    s.finishing = history.foldl Action.leaves t.finishing := by
  induction history generalizing t with
  | nil =>
    obtain rfl := Option.some.inj run
    rfl
  | cons action history ih =>
    obtain ⟨t', first, rest⟩ := Option.bind_eq_some_iff.mp run
    rw [List.foldl_cons, ← act_finishing first]
    exact ih rest

/-- Between two calls, the flag says whether a cancel is pending. -/
theorem finishing_eq_pending {history : List Action} {s : Scanner}
    (run : exec act .init history = some s) : s.finishing = pending history :=
  exec_act_finishing run

theorem scanAll_visits (a : Area) (todo : List ℤ) (s : State) :
    (scanAll a todo s).scan.visits = s.visits := by
  induction todo generalizing s with
  | nil => rfl
  | cons scale rest ih =>
    have kept : (scanArea a s).visits = s.visits := ScanArea.visits_outerLoop a _
    rw [scanAll]
    split_ifs
    · exact (ih _).trans kept
    · exact kept

def Confined (todo : List ℤ) (c : Call) : Prop :=
  c.scans <:+ todo ∧ ∀ v ∈ c.scan.visits, v.scale ∈ todo

theorem confined_step {a : Area} {todo : List ℤ} {c c' : Call} {l : Label} (h : Confined todo c)
    (taken : step a c l = some c') : Confined todo c' := by
  refine ⟨(step_scans taken).trans h.1, ?_⟩
  obtain ⟨scale, rest, s, left, first, ends⟩ := step_spec taken
  have same : c'.scan.visits = s.visits := by
    obtain ⟨-, rfl⟩ | ⟨-, rfl⟩ := ends
    · exact scanAll_visits a rest s
    · rfl
  have due : scale ∈ todo := by
    apply h.1.subset
    rw [left]
    exact List.mem_cons_self
  intro v visited
  rw [same] at visited
  obtain kept | ⟨lat, lon, more⟩ := ScanArea.visits_step first
  · exact h.2 v (kept ▸ visited)
  · rw [more] at visited
    obtain before | last := List.mem_append.mp visited
    · exact h.2 v before
    · rw [List.mem_singleton.mp last]
      exact due

theorem confined_advance {host : Host} {r : Request} {todo : List ℤ} {c : Call}
    (h : Confined todo c) (n : ℕ) : Confined todo ((host.advance r)^[n] c) := by
  induction n with
  | zero => exact h
  | succ n ih =>
    rw [Function.iterate_succ_apply', Host.advance]
    cases taken : step r.area _ _ with
    | none => exact ih
    | some c' => exact confined_step ih taken

theorem not_visited_of_finishing (host : Host) {r : Request} {s : Scanner} {scale : ℤ}
    {rest : List ℤ} (ticked : r.scans = scale :: rest) (set : s.finishing = true) (lat lon : ℚ) :
    ¬ Visited host r s ⟨scale, lat, lon⟩ := by
  have nodup : (scale :: rest).Nodup := ticked ▸ scans_nodup r
  have begins : Confined rest (start r s) := by
    rw [start, ticked, scanAll_skips r.area scale rest (s := idle s) set]
    refine ⟨scanAll_scans _ _ _, ?_⟩
    intro v visited
    rw [scanAll_visits] at visited
    cases visited
  rintro ⟨n, visited⟩
  exact (List.nodup_cons.mp nodup).1 ((confined_advance begins n).2 _ visited)

theorem advance_of_step (host : Host) (r : Request) {c : Call} {scale : ℤ} {rest : List ℤ} {s : State}
    (left : c.scans = scale :: rest)
    (taken : ScanArea.step r.area scale c.scan (host.label c) = some s) (stays : s.place ≠ .returned) :
    host.advance r c = ⟨s, scale :: rest⟩ := by
  rw [Host.advance, step, left]
  show ((ScanArea.step r.area scale c.scan (host.label c)).map _).getD c = _
  rw [taken, Option.map_some, if_neg stays, Option.getD_some]

theorem advance_row (host : Host) (r : Request) {c : Call} {scale : ℤ} {rest : List ℤ}
    (left : c.scans = scale :: rest) (measures : c.scan.place = .measure)
    (unset : c.scan.finishing = false) (inside : c.scan.lon ≤ r.area.lonmax) :
    ⟨scale, c.scan.lat, c.scan.lon⟩ ∈ (host.advance r (host.advance r c)).scan.visits := by
  have label : ∀ s : State, s.place ≠ .yield →
      host.label ⟨s, scale :: rest⟩ = .refresh (host.refreshed s.jumps) := by
    intro s elsewhere
    rw [Host.label, if_neg elsewhere]
  obtain ⟨scan, scans⟩ := c
  obtain rfl := left
  obtain ⟨s, measured, rescales, kept, lat, lon, visits⟩ :=
    ScanArea.measure_then r.area scale measures (host.refreshed scan.jumps)
  rw [← label scan (by rw [measures]; decide)] at measured
  rw [advance_of_step host r rfl measured (by rw [rescales]; decide)]
  obtain ⟨t, rescaled, visiting, -, -, -, visited, -, -⟩ :=
    ScanArea.rescale_then scale rescales (kept.trans unset) (lon.le.trans inside)
      (host.refreshed s.jumps)
  rw [← label s (by rw [rescales]; decide)] at rescaled
  rw [advance_of_step host r rfl rescaled (by rw [visiting]; decide), visited, lat, lon]
  exact List.mem_concat_self

theorem visited_of_not_finishing (host : Host) {r : Request} {s : Scanner} {scale : ℤ}
    {rest : List ℤ} (ticked : r.scans = scale :: rest) (unset : s.finishing = false) :
    Visited host r s ⟨scale, r.area.latmin, r.area.lonmin⟩ := by
  have inside : (r.area.lonmin : ℚ) ≤ r.area.lonmax := Int.cast_le.mpr (lon_le r)
  refine ⟨2, ?_⟩
  show _ ∈ (host.advance r (host.advance r (start r s))).scan.visits
  rw [start, ticked, scanAll_starts (lat_le r) scale rest (s := idle s) unset]
  exact advance_row host r rfl rfl unset inside

def SameGrid (host : Host) (r : Request) (s t : Scanner) : Prop :=
  ∀ v, Visited host r s v ↔ Visited host r t v

/-- A call without a stop scans what it would scan in a fresh plugin, exactly when no cancel is
pending. -/
theorem sameGrid_iff (history : List Action) (s : Scanner) (run : exec act .init history = some s)
    (r : Request) (starts : r.scans ≠ []) (host : Host) :
    SameGrid host r s (fresh s) ↔ pending history = false := by
  obtain ⟨scale, rest, ticked⟩ := List.exists_cons_of_ne_nil starts
  rw [← finishing_eq_pending run]
  constructor
  · intro same
    by_contra set
    have visited := visited_of_not_finishing host ticked (s := fresh s) rfl
    exact not_visited_of_finishing host ticked (Bool.eq_true_of_not_eq_false set) _ _
      ((same _).mpr visited)
  · intro unset v
    have as_fresh : fresh s = s := by
      obtain ⟨view, finishing⟩ := s
      cases unset
      rfl
    rw [as_fresh]

def oneScale : Request := ⟨[], 0, 0, 0, 0, true, false, false, false⟩

def silent : Host := ⟨fun _ => none, fun _ => []⟩

theorem sameGrid_iff_oneScale :
    SameGrid silent oneScale .init (fresh .init) ↔ pending [] = false :=
  sameGrid_iff [] .init rfl oneScale (by decide) silent

theorem cancel_takes_the_next_scan :
    ¬ ∀ (history : List Action) (s : Scanner), exec act .init history = some s →
      ∀ r : Request, r.scans ≠ [] → ∀ host : Host, SameGrid host r s (fresh s) := by
  intro h
  have same := h [.onCancel] ⟨.init, true⟩ rfl oneScale (by decide) silent
  have ticked : oneScale.scans = [5000000] := by decide
  exact not_visited_of_finishing silent ticked rfl _ _
    ((same _).mpr (visited_of_not_finishing silent ticked rfl))

end ObjSearch.Scan.OnOk
