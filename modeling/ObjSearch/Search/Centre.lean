/- The centre of a search: the boat, or the chart on the screen.
   digest: The mark for a boat that is not known yet compares unequal to itself, so until the first
   fix the mark itself is the centre. -/

import ObjSearch.Scan.Viewports
import ObjSearch.Search.Completeness

set_option autoImplicit false
set_option relaxedAutoImplicit false

namespace ObjSearch.Search.Centre

open ObjSearch.Lib.Texts (Text)
open ObjSearch.Sql.Read
open ObjSearch.Sql.Query
open ObjSearch.Index.Storage
open ObjSearch.Scan.Viewports
open ObjSearch.Search.CheckList
open ObjSearch.Search.Statements
open ObjSearch.Search.Catalog
open ObjSearch.Search.FindObjects
open ObjSearch.Search.Completeness (flatHost capAgdeDatabase)

def equal : Double → Double → Bool
  | .nan, _ => false
  | _, .nan => false
  | x, y => x = y

/-- What the plugin knows of positions, and whether its database may be used. -/
structure Plugin where
  view : View
  boatlat : Double
  boatlon : Double
  dbUsable : Bool

def Plugin.init (dbUsable : Bool) : Plugin := ⟨.init, .nan, .nan, dbUsable⟩

def Plugin.getLat (p : Plugin) : Double :=
  if equal p.boatlat .nan || equal p.boatlon .nan then .finite p.view.vplat else p.boatlat

def Plugin.getLon (p : Plugin) : Double :=
  if equal p.boatlat .nan || equal p.boatlon .nan then .finite p.view.vplon else p.boatlon

/-- What the user has entered when `OnSearch` comes, the database, and how questions are answered. -/
structure Request where
  popup : Popup
  term : Text
  limitRange : ℤ
  host : Host
  db : Database
  showAll : ℤ → Bool

inductive Action where
  | setCurrentViewPort (vp : ViewPort)
  | setPositionFix (lat lon : ℚ)
  | search (s : Request)

def Plugin.call (p : Plugin) (s : Request) : Option Call :=
  onSearch s.popup s.term p.getLat p.getLon s.limitRange

def Plugin.act (p : Plugin) : Action → Plugin
  | .setCurrentViewPort vp => { p with view := ObjSearch.Scan.Viewports.setCurrentViewPort p.view vp }
  | .setPositionFix lat lon => { p with boatlat := .finite lat, boatlon := .finite lon }
  | .search s =>
    match p.call s with
    | none => p
    | some c => { p with dbUsable := (findObjects s.host s.db p.dbUsable s.showAll c).dbUsable }

def run (dbUsable : Bool) (actions : List Action) : Plugin :=
  actions.foldl Plugin.act (.init dbUsable)

/-! What the centre should be. -/

def latestFix (actions : List Action) : Option (ℚ × ℚ) :=
  actions.reverse.findSome? fun
    | .setPositionFix lat lon => some (lat, lon)
    | _ => none

def latestCentre (actions : List Action) : Option (ℚ × ℚ) :=
  actions.reverse.findSome? fun
    | .setCurrentViewPort vp => some (vp.clat, vp.clon)
    | _ => none

/-- The boat, else the middle of the screen, else the point where the view starts. -/
def centre (actions : List Action) : ℚ × ℚ :=
  ((latestFix actions).or (latestCentre actions)).getD (View.init.vplat, View.init.vplon)

def Valid (s : Request) (sql : Text) : Prop :=
  ∃ query, readSql sql = some (.select query) ∧ prepare (tables s.host s.db) query = .ok ()

/-- What is asked of the call of a search after these actions. -/
structure Centred (dbUsable : Bool) (actions : List Action) (s : Request) (c : Call) : Prop where
  lat : c.lat = .finite (centre actions).1
  lon : c.lon = .finite (centre actions).2
  valid : latestFix actions = none → Valid s (countSql c) ∧ Valid s (listSql c)
  usable : latestFix actions = none → (run dbUsable actions).dbUsable = true →
    (findObjects s.host s.db true s.showAll c).dbUsable = true

theorem equal_nan (x : Double) : equal x .nan = false := by
  cases x <;> rfl

/-- The mark is never recognised. -/
theorem getLat_eq (p : Plugin) : p.getLat = p.boatlat := by
  simp [Plugin.getLat, equal_nan]

theorem getLon_eq (p : Plugin) : p.getLon = p.boatlon := by
  simp [Plugin.getLon, equal_nan]

theorem act_search_boat (p : Plugin) (s : Request) :
    (p.act (.search s)).boatlat = p.boatlat ∧ (p.act (.search s)).boatlon = p.boatlon := by
  rw [Plugin.act]
  split
  · exact ⟨rfl, rfl⟩
  · exact ⟨rfl, rfl⟩

theorem run_boat (dbUsable : Bool) (actions : List Action) :
    (run dbUsable actions).boatlat = ((latestFix actions).elim .nan fun fix => .finite fix.1) ∧
      (run dbUsable actions).boatlon =
        ((latestFix actions).elim .nan fun fix => .finite fix.2) := by
  induction actions using List.reverseRecOn with
  | nil => exact ⟨rfl, rfl⟩
  | append_singleton actions action ih =>
    rw [run, List.foldl_concat, latestFix, List.reverse_concat, List.findSome?_cons]
    cases action with
    | setCurrentViewPort vp => exact ih
    | setPositionFix lat lon => exact ⟨rfl, rfl⟩
    | search s =>
      obtain ⟨lat, lon⟩ := act_search_boat (run dbUsable actions) s
      exact ⟨lat.trans ih.1, lon.trans ih.2⟩

theorem latestFix_ne_none_iff (actions : List Action) :
    latestFix actions ≠ none ↔ ∃ lat lon, .setPositionFix lat lon ∈ actions := by
  rw [latestFix, Ne, List.findSome?_eq_none_iff]
  constructor
  · intro found
    by_contra missing
    apply found
    intro action mem
    cases action with
    | setPositionFix lat lon => exact absurd ⟨lat, lon, List.mem_reverse.mp mem⟩ missing
    | _ => rfl
  · rintro ⟨lat, lon, mem⟩ missing
    exact Option.some_ne_none _ (missing _ (List.mem_reverse.mpr mem))

theorem call_centre {p : Plugin} {s : Request} {c : Call} (call : p.call s = some c) :
    c.lat = p.boatlat ∧ c.lon = p.boatlon := by
  rw [Plugin.call, onSearch] at call
  split_ifs at call
  obtain ⟨filter, -, rfl⟩ := Option.map_eq_some_iff.mp call
  exact ⟨getLat_eq p, getLon_eq p⟩

/-- In every run, a search has the centre it should have exactly when a fix has come before it. -/
theorem centred_iff (dbUsable : Bool) (actions : List Action) (s : Request) (c : Call)
    (call : (run dbUsable actions).call s = some c) :
    Centred dbUsable actions s c ↔ ∃ lat lon, .setPositionFix lat lon ∈ actions := by
  obtain ⟨lat_eq, lon_eq⟩ := call_centre call
  obtain ⟨boatlat, boatlon⟩ := run_boat dbUsable actions
  rw [← latestFix_ne_none_iff]
  constructor
  · intro centred unknown
    have marked : c.lat = .nan := by rw [lat_eq, boatlat, unknown, Option.elim_none]
    exact absurd (marked.symm.trans centred.lat) (by simp)
  · intro known
    obtain ⟨fix, latest⟩ := Option.ne_none_iff_exists'.mp known
    rw [latest, Option.elim_some] at boatlat boatlon
    have at_boat : centre actions = fix := by rw [centre, latest, Option.some_or, Option.getD_some]
    refine ⟨?_, ?_, ?_, ?_⟩
    · rw [lat_eq, boatlat, at_boat]
    · rw [lon_eq, boatlon, at_boat]
    · intro unknown
      exact absurd unknown known
    · intro unknown
      exact absurd unknown known

def capSearch : Request :=
  ⟨⟨[true, true], ["LIGHTS".toList]⟩, "Cap".toList, 0, flatHost, capAgdeDatabase, fun _ => true⟩

def capView : ViewPort := ⟨4328 / 100, 345 / 100, 1, 1, 43, 44, 3, 4⟩

theorem centred_iff_capView :
    ∃ c, (run true [.setCurrentViewPort capView, .setPositionFix 43 3]).call capSearch = some c ∧
      (Centred true [.setCurrentViewPort capView, .setPositionFix 43 3] capSearch c ↔
        ∃ lat lon, Action.setPositionFix lat lon ∈
          [.setCurrentViewPort capView, .setPositionFix 43 3]) :=
  ⟨_, rfl, centred_iff true [.setCurrentViewPort capView, .setPositionFix 43 3] capSearch _ rfl⟩

/-- Before the first fix the centre is the mark, and the failing statement switches the database
off. -/
theorem no_centre_before_the_first_fix :
    ∃ c, (run true [.setCurrentViewPort capView]).call capSearch = some c ∧ c.lat = .nan ∧
      (findObjects capSearch.host capSearch.db true capSearch.showAll c).dbUsable = false ∧
      ¬ Centred true [.setCurrentViewPort capView] capSearch c := by
  refine ⟨⟨"LIGHTS".toList, "Cap".toList, .nan, .nan, .finite 0⟩, rfl, rfl, ?_, ?_⟩
  · decide +kernel
  · intro centred
    cases centred.lat

end ObjSearch.Search.Centre
