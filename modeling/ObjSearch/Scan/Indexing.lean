/- What a scan puts into the database.
   digest: A scan that goes through leaves no object of the area out, where the host tells the objects
   it shows, chart by chart, and neither the rows nor the columns leave a gap. -/

import ObjSearch.Index.Blocks
import ObjSearch.Scan.Rows
import ObjSearch.Search.Answers

set_option autoImplicit false
set_option relaxedAutoImplicit false

namespace ObjSearch.Scan.Indexing

open ObjSearch.Lib.Printf (written)
open ObjSearch.Lib.Relational (exists_of_forall₂)
open ObjSearch.Lib.Runs
open ObjSearch.Lib.Strides (stride stride_strictMono)
open ObjSearch.Lib.Texts
open ObjSearch.Index.Storage
open ObjSearch.Index.Notify
open ObjSearch.Index.Effect
open ObjSearch.Index.Session (Action notifications notifications_append PlainRun)
open ObjSearch.Index.Queueing (posixName)
open ObjSearch.Index.History
open ObjSearch.Index.OneSession (namesAt)
open ObjSearch.Index.Origins (delivered Continues stored_history_of_continues)
open ObjSearch.Index.Blocks
open ObjSearch.Scan.ScanArea (Area Scanner idle scanArea outerLoop innerLoop step_cases
  foldl_handle_finishing)
open ObjSearch.Scan.Coverage (Answers steady steady_answers)
open ObjSearch.Scan.Rows
open ObjSearch.Search.CheckList
open ObjSearch.Search.Statements (limitOf)
open ObjSearch.Search.Catalog (Host)
open ObjSearch.Search.Condition (Fits)
open ObjSearch.Search.FindObjects (OnMap findObjects onSearch showList)
open ObjSearch.Search.Completeness (clicked flatHost)
open ObjSearch.Search.Answers

/-- The scan, and what has happened on the indexing side in this session. -/
structure State where
  scan : ScanArea.State
  actions : List Action

inductive Label where
  | scan (l : ScanArea.Label)
  | index (a : Action)

/-- The host draws charts and notifies their objects while the scan waits for it, and the worker
stores objects all along. -/
def step (a : Area) (scale : ℤ) (s : State) : Label → Option State
  | .scan l => (ScanArea.step a scale s.scan l).map fun t => { s with scan := t }
  | .index act => some { s with actions := s.actions ++ [act] }

def start (a : Area) (s : Scanner) (as : List Action) : State := ⟨scanArea a (idle s), as⟩

/-! The scan and the indexing side. -/

section Told

variable (H W : ℚ → ℚ) (world : List Notification)

def Told (as : List Action) (lat lon : ℚ) : Prop :=
  ∀ n ∈ world, |n.lat - lat| ≤ H lat / 2 → |n.lon - lon| ≤ W lat / 2 → n ∈ notifications as

/-- The host shows this extent around each position, and does not return from the `wxYield` there
before it has notified the objects that it shows. -/
def Complies (s : State) : Label → Prop
  | .scan l => Answers (H s.scan.lat) (W s.scan.lat) s.scan l ∧
      (s.scan.place = .yield → Told H W world s.actions s.scan.lat s.scan.lon)
  | .index _ => True

def AllTold (a : Area) (as : List Action) : Prop :=
  ∀ n ∈ world, a.latmin ≤ n.lat → n.lat ≤ a.latmax → a.lonmin ≤ n.lon → n.lon ≤ a.lonmax →
    n ∈ notifications as

variable {H W world} {a : Area} {scale : ℤ}

theorem Told.mono {as bs : List Action} {lat lon : ℚ} (h : Told H W world as lat lon) :
    Told H W world (as ++ bs) lat lon := by
  intro n hn nearLat nearLon
  rw [notifications_append]
  exact List.mem_append_left _ (h n hn nearLat nearLon)

theorem told_step (high : ∀ y, 0 < H y) (wide : ∀ y, 0 < W y) (cols : a.lonmin ≤ a.lonmax)
    {s t : State} {l : Label} (placed : Placed H W a s.scan)
    (swept : Swept H W a (Told H W world s.actions) s.scan)
    (complies : Complies H W world s l) (taken : step a scale s l = some t) :
    Placed H W a t.scan ∧ Swept H W a (Told H W world t.actions) t.scan := by
  cases l with
  | scan l =>
    obtain ⟨u, stepped, rfl⟩ := Option.map_eq_some_iff.mp taken
    exact ⟨placed_step cols placed complies.1 stepped,
      swept_step high wide placed swept complies.1 complies.2 stepped⟩
  | index act =>
    obtain rfl := Option.some.inj taken
    exact ⟨placed, swept.mono fun _ _ => Told.mono⟩

theorem allTold_of_swept (wide : ∀ y, 0 < W y) (seamless : Seamless H W a) {s : ScanArea.State}
    {as : List Action} (placed : Placed H W a s) (swept : Swept H W a (Told H W world as) s)
    (returned : s.place = .returned) : AllTold world a as := by
  intro n hn south north west east
  obtain ⟨i, inside, nearLat, x, column, nearLon⟩ :=
    exists_position wide seamless (placed.past returned) south north west east
  exact swept.rows i inside (fun going => absurd returned going) x column n hn nearLat nearLon

theorem allTold_of_returned (high : ∀ y, 0 < H y) (wide : ∀ y, 0 < W y) (cols : a.lonmin ≤ a.lonmax)
    (seamless : Seamless H W a) {s : Scanner}
    (unset : s.finishing = false) {as : List Action} {ls : List Label} {t : State}
    (taken : exec (step a scale) (start a s as) ls = some t)
    (complies : ∀ p l q m, ls = p ++ l :: q → exec (step a scale) (start a s as) p = some m →
      Complies H W world m l) (returned : t.scan.place = .returned) :
    AllTold world a t.actions := by
  have kept : Placed H W a t.scan ∧ Swept H W a (Told H W world t.actions) t.scan :=
    exec_guarded (I := fun s : State => Placed H W a s.scan ∧
        Swept H W a (Told H W world s.actions) s.scan) (G := Complies H W world)
      (fun s l s' both complies taken => told_step high wide cols both.1 both.2 complies taken)
      ⟨placed_scanArea unset, swept_scanArea high unset⟩ taken complies
  exact allTold_of_swept wide seamless kept.1 kept.2 returned

end Told

variable (getName : Text → Text)

/-- Any search for a text that is not too long shows the object where it passes, unless the user
declines to see the list. -/
def Findable (host : Host) (ns : List Notification) (p : Plugin) (n : Notification) : Prop :=
  ∀ (before : Popup) (clicks : List ℕ) (text : Text) (clat clon : ℚ) (limitRange : ℤ)
    (showAll : ℤ → Bool), text ≠ [] → Fits text →
    OnMap (written clat) (written clon) →
    passes host (joined ',' (clicked before p.featuresInDb clicks).chosen) text clat clon
      (limitOf limitRange) n = true →
    ∃ c, onSearch (clicked before p.featuresInDb clicks) text (.finite clat) (.finite clon)
        limitRange = some c ∧
      (showList showAll (findObjects host p.db p.dbUsable showAll c).objects_found →
        ∃ x ∈ (findObjects host p.db p.dbUsable showAll c).added,
          Shows getName host ns clat clon n x)

variable {getName}

theorem findable_of_stored {ss : List (List Action)} {as : List Action}
    (earlier : ∀ bs ∈ ss, PlainRun getName bs) (plain : PlainRun getName as) (host : Host)
    {n : Notification} (stored : n ∈ (history getName Database.created ss as).stored) :
    Findable getName host (delivered ss as) (history getName Database.created ss as).plugin n := by
  intro before clicks text clat clon limitRange showAll notEmpty fits centre passing
  obtain ⟨c, call, lists⟩ := lists_onSearch earlier plain host before clicks notEmpty fits centre
    limitRange showAll
  refine ⟨c, call, fun showing => ?_⟩
  have hit := List.mem_filter.mpr ⟨stored, passing⟩
  exact exists_of_forall₂ (lists.listed showing) hit

/-- A scan that nothing stops, of an area none of whose charts is in the database yet: once the
worker has emptied the queue, every object of the area that can be stored is, and from then on it can
be found, whatever is notified and stored and however many sessions come after. -/
theorem scanned_objects_found {H W : ℚ → ℚ} {world : List Notification} {a : Area} {scale : ℤ}
    (high : ∀ y, 0 < H y) (wide : ∀ y, 0 < W y) (cols : a.lonmin ≤ a.lonmax)
    (seamless : Seamless H W a) {s : Scanner}
    (unset : s.finishing = false) {ss : List (List Action)} {as : List Action} {ls : List Label}
    {t : State} (taken : exec (step a scale) (start a s as) ls = some t)
    (complies : ∀ p l q m, ls = p ++ l :: q → exec (step a scale) (start a s as) p = some m →
      Complies H W world m l) (returned : t.scan.place = .returned)
    (earlier : ∀ bs ∈ ss, PlainRun getName bs) (plain : PlainRun getName t.actions)
    (new : ∀ n ∈ world, chartName getName n ∉ namesAt getName Database.created ss [])
    (blocks : InBlocks getName (ofNewCharts getName (namesAt getName Database.created ss [])
      (notifications t.actions)))
    (empty : (history getName Database.created ss t.actions).plugin.queryQueue = []) (host : Host) :
    ∀ n ∈ world, Storable n → a.latmin ≤ n.lat → n.lat ≤ a.latmax → a.lonmin ≤ n.lon →
      n.lon ≤ a.lonmax → n ∈ (history getName Database.created ss t.actions).stored ∧
        ∀ ss' as', Continues ss t.actions ss' as' → (∀ bs ∈ ss', PlainRun getName bs) →
          PlainRun getName as' → Findable getName host (delivered ss' as')
            (history getName Database.created ss' as').plugin n := by
  intro n hn storable south north west east
  have told : n ∈ notifications t.actions := allTold_of_returned high wide cols seamless
    unset taken complies returned n hn south north west east
  have held := held_of_inBlocks rfl earlier plain blocks told (new n hn) storable
  rw [pending_of_drained earlier plain empty, List.append_nil] at held
  refine ⟨held, fun ss' as' later earlier' plain' => ?_⟩
  exact findable_of_stored earlier' plain' host (stored_history_of_continues later held)

/-- A host that notifies its objects one after the other before the scan goes on, and a worker that
stores the next object whenever the scan is over. -/
def telling (H W : ℚ → ℚ) (world : List Notification) (s : State) : Label :=
  match world.find? fun n => !(notifications s.actions).contains n with
  | some n => .index (.notify n)
  | none =>
      if s.scan.place = .returned then .index .serve
      else .scan (steady (H s.scan.lat) (W s.scan.lat) s.scan)

theorem telling_complies (H W : ℚ → ℚ) (world : List Notification) (s : State) :
    Complies H W world s (telling H W world s) := by
  unfold telling
  cases next : world.find? fun n => !(notifications s.actions).contains n with
  | some n => exact trivial
  | none =>
    dsimp only
    split_ifs
    · exact trivial
    · refine ⟨steady_answers _ _ s.scan, fun _ n hn _ _ => ?_⟩
      have told := List.find?_eq_none.mp next n hn
      simpa using told

def twoLights : List Notification := [
  createObject 1 1 "First".toList "LIGHTS".toList "A".toList 0 0,
  createObject 0 1 "Second".toList "LIGHTS".toList "A".toList 0 0]

def oneView : List Label :=
  driven (step ⟨0, 0, 1, 1⟩ 20000) (telling (fun _ => 2) (fun _ => 2) twoLights) 8
    (start ⟨0, 0, 1, 1⟩ .init [])

theorem seamless_oneView : Seamless (fun _ => 2) (fun _ => 2) ⟨0, 0, 1, 1⟩ where
  steps _ _ := le_rfl
  last i inside _ := by
    cases i with
    | zero => decide +kernel
    | succ i =>
      have first : (0 : ℚ) ≤ stride (fun _ => 2) 0 i :=
        (stride_strictMono (fun _ => by decide)).monotone (Nat.zero_le i)
      have second : stride (fun _ => 2) (0 : ℚ) i + 2 ≤ 1 := by exact_mod_cast inside
      linarith
  columns _ _ := by decide +kernel

theorem exec_oneView :
    ∃ t, exec (step ⟨0, 0, 1, 1⟩ 20000) (start ⟨0, 0, 1, 1⟩ .init []) oneView = some t ∧
      t.scan.place = .returned ∧ t.actions = twoLights.map .notify ++ [.serve, .serve] := by
  have outcome : (exec (step ⟨0, 0, 1, 1⟩ 20000) (start ⟨0, 0, 1, 1⟩ .init []) oneView).map
      (fun t => (t.scan.place, t.actions)) =
        some (.returned, twoLights.map .notify ++ [.serve, .serve]) := by
    decide +kernel
  obtain ⟨t, taken, both⟩ := Option.map_eq_some_iff.mp outcome
  exact ⟨t, taken, (Prod.mk.inj both).1, (Prod.mk.inj both).2⟩

theorem scanned_objects_found_oneView :
    ∃ t, exec (step ⟨0, 0, 1, 1⟩ 20000) (start ⟨0, 0, 1, 1⟩ .init []) oneView = some t ∧
      ∀ n ∈ twoLights, Storable n → (0 : ℤ) ≤ n.lat → n.lat ≤ (1 : ℤ) → (0 : ℤ) ≤ n.lon →
        n.lon ≤ (1 : ℤ) → n ∈ (history posixName Database.created [] t.actions).stored ∧
          ∀ ss as, Continues [] t.actions ss as → (∀ bs ∈ ss, PlainRun posixName bs) →
            PlainRun posixName as → Findable posixName flatHost (delivered ss as)
              (history posixName Database.created ss as).plugin n := by
  obtain ⟨t, taken, returned, actions⟩ := exec_oneView
  refine ⟨t, taken, scanned_objects_found (fun _ => by decide) (fun _ => by decide) (by decide)
    seamless_oneView rfl taken ?_ returned (fun _ none => (by cases none)) ?_ (by decide) ?_ ?_
    flatHost⟩
  · rintro p l q m split reached
    obtain rfl := chosen_of_driven split reached
    exact telling_complies _ _ twoLights m
  · rw [actions]
    unfold PlainRun Plain
    decide
  · rw [actions]
    decide
  · rw [actions]
    decide +kernel

end ObjSearch.Scan.Indexing
