/- The list of results: what `AddObject` writes into a line of it.
   digest: The distance is converted to the user's unit twice, so it is right in nautical miles
   only. -/

import ObjSearch.Lib.Decimals
import ObjSearch.Search.Agreement

set_option autoImplicit false
set_option relaxedAutoImplicit false

namespace ObjSearch.Search.Results

open ObjSearch.Lib.Texts (Text)
open ObjSearch.Lib.Printf
open ObjSearch.Lib.Decimals
open ObjSearch.Sql.Eval
open ObjSearch.Sql.Query
open ObjSearch.Index.Storage
open ObjSearch.Search.Statements
open ObjSearch.Search.Catalog
open ObjSearch.Search.Condition
open ObjSearch.Search.FindObjects
open ObjSearch.Search.Agreement
open ObjSearch.Search.Completeness (flatHost)

/-- Texts that the list shows in place of values. -/
structure Look where
  /-- `HumanizeFeatureName` -/
  humanizeFeatureName : Text → Text
  /-- `toSDMM_PlugIn`, for latitudes with 1 and for longitudes with 2 -/
  toSDMM : ℤ → ℚ → Text

/-- A line of the list control: its columns 0 to 7, and the item data. -/
structure Item where
  feature : Text
  objectname : Text
  lat : Text
  lon : Text
  dist : Text
  scale : Text
  nativescale : Text
  chart : Text
  data : Option ℤ
deriving DecidableEq

/-- `(int)`; a number outside the range of `int` has no defined result. -/
def toInt (x : ℚ) : Option ℤ :=
  let n := if x < 0 then ⌈x⌉ else ⌊x⌋
  if -2 ^ 31 ≤ n ∧ n < 2 ^ 31 then some n else none

variable (host : Host) (look : Look)

def item (a : Added) : Item where
  feature := look.humanizeFeatureName a.feature
  objectname := a.objectname
  lat := look.toSDMM 1 a.lat
  lon := look.toSDMM 2 a.lon
  dist := fixed 1 (host.toUsrDistance a.dist)
  scale := fixed 4 a.scale
  nativescale := formatI a.nativescale
  chart := a.chart
  data := toInt (a.dist * 10)

def addObject (items : List Item) (a : Added) : List Item := items ++ [item host look a]

/-- The list after a search, which begins with `ClearObjects`. -/
def results (o : Outcome) : List Item := o.added.foldl (addObject host look) []

theorem foldl_addObject (as : List Added) (items : List Item) :
    as.foldl (addObject host look) items = items ++ as.map (item host look) := by
  induction as generalizing items with
  | nil => exact (List.append_nil items).symm
  | cons a as ih =>
    rw [List.foldl_cons, ih, addObject, List.append_assoc]
    rfl

theorem results_eq (o : Outcome) : results host look o = o.added.map (item host look) :=
  foldl_addObject host look o.added []

def listed (db : Database) (c : Call) : List (List Value) :=
  match executeQuery (tables host db) (listSql c) with
  | .ok set => set.rows
  | .error _ => []

def nauticalMiles (row : List Value) : ℚ := getDouble (row.getD 7 .null)

variable {host look}

theorem rows_selectFromDB (db : Database) (dbUsable : Bool) (c : Call) (row : List Value)
    (h : row ∈ (selectFromDB host db dbUsable (listSql c)).2.rows) : row ∈ listed host db c := by
  unfold selectFromDB at h
  unfold listed
  split_ifs at h
  · cases h
  · cases ran : executeQuery (tables host db) (listSql c) with
    | error e =>
      rw [ran] at h
      cases h
    | ok set =>
      rw [ran] at h
      exact h

theorem exists_added (db : Database) (dbUsable : Bool) (showAll : ℤ → Bool) (c : Call) :
    ∃ rows : List (List Value),
      (findObjects host db dbUsable showAll c).added = rows.map (added host) ∧
      ∀ row ∈ rows, row ∈ listed host db c := by
  have none_ : ∃ rows : List (List Value), ([] : List Added) = rows.map (added host) ∧
      ∀ row ∈ rows, row ∈ listed host db c := ⟨[], rfl, by simp⟩
  unfold findObjects
  dsimp only
  -- whatever the count, a list is shown in full or not at all
  split_ifs <;> first | exact none_ | exact ⟨_, rfl, rows_selectFromDB db _ c⟩

/-- A row that the limit lets through is a number of miles, and no more of them than the limit. -/
theorem nauticalMiles_le {db : Database} {filter : Text} (plain : '\'' ∉ filter) (text : Text)
    (lat lon : Double) {limitRange : ℤ} (limited : tenth < limitRange) {row : List Value}
    (h : row ∈ listed host db ⟨filter, text, lat, lon, .finite limitRange⟩) :
    nauticalMiles row ≤ limitRange := by
  unfold listed at h
  split at h
  · next set ran =>
    have limit : (Double.finite limitRange).limit = some (number limitRange) := by
      rw [limit_finite, limitOf, if_pos limited]
      rfl
    have read := readSql_listSql_double plain text lat lon (.finite limitRange)
    obtain ⟨from_, selected, values⟩ := exists_of_mem_rows read rfl ran h
    obtain ⟨v, value, holds⟩ := exists_of_holds selected
    rw [limit] at value
    obtain ⟨v, value, holds⟩ := exists_of_and value holds
    obtain ⟨v, value, holds⟩ := exists_of_and value holds
    obtain ⟨x, y, p, q, measured, written_, hp, hq, near⟩ := exists_of_le value holds
    obtain ⟨x', column, measured'⟩ := exists_of_evalAll values (i := 7) rfl
    obtain rfl := Except.ok.inj (measured.symm.trans measured')
    rw [eval_number, written_intCast] at written_
    obtain rfl := Except.ok.inj written_
    obtain rfl := Option.some.inj hq
    rw [nauticalMiles, List.getD_eq_getElem?_getD, column, Option.getD_some, getDouble, hp]
    exact near
  · cases h

/-! What the distance column should show. -/

structure RightDistance (c : ℚ) (limitRange : ℤ) (row : List Value) (i : Item) : Prop where
  dist : i.dist = fixed 1 (c * nauticalMiles row)
  limit : atof i.dist ≤ atof (fixed 1 (c * limitRange))

def RightDistances (c : ℚ) (limitRange : ℤ) (host : Host) (look : Look) (db : Database)
    (dbUsable : Bool) (showAll : ℤ → Bool) (call : Call) : Prop :=
  ∃ rows : List (List Value),
    (findObjects host db dbUsable showAll call).added = rows.map (added host) ∧
    (∀ row ∈ rows, row ∈ listed host db call) ∧
    List.Forall₂ (RightDistance c limitRange) rows
      (results host look (findObjects host db dbUsable showAll call))

theorem exists_of_rightDistances {c : ℚ} {limitRange : ℤ} {db : Database} {dbUsable : Bool}
    {showAll : ℤ → Bool} {call : Call}
    (right : RightDistances c limitRange host look db dbUsable showAll call)
    (some_ : (findObjects host db dbUsable showAll call).added ≠ []) :
    ∃ row ∈ listed host db call,
      RightDistance c limitRange row (item host look (added host row)) := by
  obtain ⟨rows, handed, from_, all⟩ := right
  rw [results_eq, handed, List.map_map, List.forall₂_map_right_iff, List.forall₂_same] at all
  cases rows with
  | nil => exact absurd handed some_
  | cons row rows => exact ⟨row, from_ row List.mem_cons_self, all row List.mem_cons_self⟩

theorem rightDistances_of_forall {c : ℚ} {limitRange : ℤ} {db : Database} {dbUsable : Bool}
    {showAll : ℤ → Bool} {call : Call}
    (right : ∀ row ∈ listed host db call,
      RightDistance c limitRange row (item host look (added host row))) :
    RightDistances c limitRange host look db dbUsable showAll call := by
  obtain ⟨rows, handed, from_⟩ := @exists_added host db dbUsable showAll call
  refine ⟨rows, handed, from_, ?_⟩
  rw [results_eq, handed, List.map_map, List.forall₂_map_right_iff, List.forall₂_same]
  exact fun row h => right row (from_ row h)

/-- One conversion is made by `FindObjects` and one by `AddObject`. -/
theorem dist_item {c : ℚ} (unit : ∀ miles, host.toUsrDistance miles = c * miles)
    (row : List Value) :
    (item host look (added host row)).dist = fixed 1 (c * (c * nauticalMiles row)) := by
  have once : (added host row).dist = c * nauticalMiles row := unit _
  rw [item, unit, once]

theorem rightDistance_iff {c : ℚ} (pos : 0 < c)
    (unit : ∀ miles, host.toUsrDistance miles = c * miles) {row : List Value} {limitRange : ℤ}
    (near : nauticalMiles row ≤ limitRange) :
    RightDistance c limitRange row (item host look (added host row)) ↔
      units 1 (c * (c * nauticalMiles row)) = units 1 (c * nauticalMiles row) := by
  have signs : c * (c * nauticalMiles row) < 0 ↔ c * nauticalMiles row < 0 :=
    ⟨fun h => neg_of_mul_neg_right h pos.le, mul_neg_of_pos_of_neg pos⟩
  have shown := @dist_item host look c unit row
  rw [← fixed_eq_iff Nat.one_pos signs, ← shown]
  constructor
  · intro right
    exact right.dist
  · intro same
    refine ⟨same, ?_⟩
    rw [same, atof_fixed Nat.one_pos, atof_fixed Nat.one_pos]
    exact rounded_mono (mul_le_mul_of_nonneg_left near pos.le)

/-- In any other unit some distance is shown wrong: half a tenth lies between its two values. -/
theorem exists_units_ne {c : ℚ} (pos : 0 < c) (other : c ≠ 1) :
    ∃ d, units 1 (c * (c * d)) ≠ units 1 (c * d) := by
  have tenths {x : ℚ} (nonneg : 0 ≤ x) : units 1 (x / 10) = (roundHalfEven x).toNat := by
    rw [units, abs_of_nonneg (by positivity)]
    congr 2
    ring
  refine ⟨(c + 1) / (4 * c) / 10 / c, ?_⟩
  have once : c * ((c + 1) / (4 * c) / 10 / c) = (c + 1) / (4 * c) / 10 := by field_simp
  have twice : c * ((c + 1) / (4 * c) / 10) = (c + 1) / 4 / 10 := by field_simp
  rw [once, twice, tenths (by positivity), tenths (by positivity)]
  rcases lt_or_gt_of_ne other with small | large
  · have less : roundHalfEven ((c + 1) / 4) = 0 :=
      roundHalfEven_of_lt (by positivity) (by linarith)
    have more : 1 ≤ roundHalfEven ((c + 1) / (4 * c)) :=
      one_le_roundHalfEven (by rw [div_lt_div_iff₀ (by norm_num) (by positivity)]; linarith)
    omega
  · have less : roundHalfEven ((c + 1) / (4 * c)) = 0 :=
      roundHalfEven_of_lt (by positivity)
        (by rw [div_lt_div_iff₀ (by positivity) (by norm_num)]; linarith)
    have more : 1 ≤ roundHalfEven ((c + 1) / 4) := one_le_roundHalfEven (by linarith)
    omega

def constantHost (c d : ℚ) : Host := ⟨fun _ _ _ _ => some d, fun miles => c * miles⟩

theorem searched_constantHost (c d : ℚ) {limitRange : ℤ} (limited : tenth < limitRange)
    (near : d ≤ limitRange) (showAll : ℤ → Bool) :
    (∀ row ∈ listed (constantHost c d) (crowd ambrose 1)
        ⟨"LIGHTS".toList, "Ambrose".toList, .finite 40, .finite (-73), .finite limitRange⟩,
      nauticalMiles row = d) ∧
    (findObjects (constantHost c d) (crowd ambrose 1) true showAll
      ⟨"LIGHTS".toList, "Ambrose".toList, .finite 40, .finite (-73),
        .finite limitRange⟩).added ≠ [] := by
  have plain : '\'' ∉ "LIGHTS".toList := by decide
  have positions : ∀ r ∈ (crowd ambrose 1).object.rows,
      OnMap (r.2.lat.getD 0) (r.2.lon.getD 0) := by
    intro r hr
    rw [eq_of_mem_crowd hr]
    decide +kernel
  have centre : OnMap (written 40) (written (-73)) := by decide +kernel
  have all : matching (constantHost c d) (crowd ambrose 1) "LIGHTS".toList "Ambrose".toList 40 (-73)
      (limitOf limitRange) = (crowd ambrose 1).object.rows := by
    apply List.filter_eq_self.mpr
    intro r hr
    have named_ : named (crowd ambrose 1) "LIGHTS".toList ambrose = some true := by decide +kernel
    have like_ : nameLike "Ambrose".toList ambrose = some true := by decide +kernel
    have within_ : within limitRange (mercator (constantHost c d) 40 (-73) ambrose) = some true := by
      rw [within, mercator, constantHost, Option.map_some, written_intCast, decide_eq_true near]
    rw [eq_of_mem_crowd hr, limitOf, if_pos limited, clause, named_, like_, within_]
    exact decide_eq_true ⟨fits_ambrose, rfl⟩
  constructor
  · intro row h
    have ran := executeQuery_listSql (constantHost c d) "Ambrose".toList plain limitRange
      fits_ambrose positions centre
    rw [listed, ran, all] at h
    obtain ⟨r, -, rfl⟩ := List.mem_map.mp h
    rfl
  · have eq := findObjects_eq (constantHost c d) fits_ambrose plain positions centre showAll
      limitRange
    have showing : showList showAll (found (crowd ambrose 1).object.rows) = true := by
      rw [found_crowd]
      rfl
    simp only [all, showing, if_true] at eq
    rw [eq]
    exact List.cons_ne_nil _ _

/-- A line is right where the second conversion does not show, and all are in nautical miles only.
Filters with an apostrophe are left out: they can take the limit out of the statement. -/
theorem rightDistances_iff {c : ℚ} (pos : 0 < c) :
    (∀ (host : Host) (look : Look) (row : List Value) (limitRange : ℤ),
      (∀ miles, host.toUsrDistance miles = c * miles) → nauticalMiles row ≤ limitRange →
      (RightDistance c limitRange row (item host look (added host row)) ↔
        units 1 (c * (c * nauticalMiles row)) = units 1 (c * nauticalMiles row))) ∧
    ((∀ (host : Host) (look : Look) (db : Database) (dbUsable : Bool) (showAll : ℤ → Bool)
        (filter text : Text) (lat lon : Double) (limitRange : ℤ),
        (∀ miles, host.toUsrDistance miles = c * miles) → '\'' ∉ filter → tenth < limitRange →
        RightDistances c limitRange host look db dbUsable showAll
          ⟨filter, text, lat, lon, .finite limitRange⟩) ↔ c = 1) := by
  refine ⟨fun host look row limitRange unit near => rightDistance_iff pos unit near, ?_⟩
  constructor
  · intro always
    by_contra other
    obtain ⟨d, apart⟩ := exists_units_ne pos other
    have limited : tenth < ((max 1 ⌈d⌉ : ℤ) : ℚ) :=
      lt_of_lt_of_le (b := ((1 : ℤ) : ℚ)) (by norm_num [tenth])
        (Int.cast_le.mpr (le_max_left 1 ⌈d⌉))
    have near : d ≤ ((max 1 ⌈d⌉ : ℤ) : ℚ) :=
      (Int.le_ceil d).trans (Int.cast_le.mpr (le_max_right 1 ⌈d⌉))
    have unit : ∀ miles, (constantHost c d).toUsrDistance miles = c * miles := fun _ => rfl
    have right := always (constantHost c d) ⟨id, fun _ _ => []⟩ (crowd ambrose 1) true
      (fun _ => true) "LIGHTS".toList "Ambrose".toList (.finite 40) (.finite (-73)) (max 1 ⌈d⌉) unit
      (by decide) limited
    obtain ⟨miles, some_⟩ := searched_constantHost c d limited near (fun _ => true)
    obtain ⟨row, from_, right⟩ := exists_of_rightDistances right some_
    have same := miles row from_
    rw [rightDistance_iff pos unit (same.trans_le near), same] at right
    exact apart right
  · rintro rfl host look db dbUsable showAll filter text lat lon limitRange unit plain limited
    apply rightDistances_of_forall
    intro row h
    rw [rightDistance_iff pos unit (nauticalMiles_le plain text lat lon limited h)]
    rw [one_mul]

theorem rightDistances_iff_kilometres :
    (∀ (host : Host) (look : Look) (row : List Value) (limitRange : ℤ),
      (∀ miles, host.toUsrDistance miles = 1852 / 1000 * miles) → nauticalMiles row ≤ limitRange →
      (RightDistance (1852 / 1000) limitRange row (item host look (added host row)) ↔
        units 1 (1852 / 1000 * (1852 / 1000 * nauticalMiles row)) =
          units 1 (1852 / 1000 * nauticalMiles row))) ∧
    ((∀ (host : Host) (look : Look) (db : Database) (dbUsable : Bool) (showAll : ℤ → Bool)
        (filter text : Text) (lat lon : Double) (limitRange : ℤ),
        (∀ miles, host.toUsrDistance miles = 1852 / 1000 * miles) → '\'' ∉ filter →
        tenth < limitRange →
        RightDistances (1852 / 1000) limitRange host look db dbUsable showAll
          ⟨filter, text, lat, lon, .finite limitRange⟩) ↔ (1852 / 1000 : ℚ) = 1) :=
  rightDistances_iff (by decide +kernel)

/-- Of an object 3 miles away, within a limit of 5 miles, 10.3 kilometres are shown in place of
5.6, and more than the 9.3 of the limit. -/
theorem kilometres_are_converted_twice :
    (fixed 1 (1852 / 1000 * (1852 / 1000 * 3)) = "10.3".toList ∧
      fixed 1 (1852 / 1000 * 3) = "5.6".toList ∧ fixed 1 (1852 / 1000 * 5) = "9.3".toList) ∧
    ¬ RightDistances (1852 / 1000) 5 (constantHost (1852 / 1000) 3) ⟨id, fun _ _ => []⟩
      (crowd ambrose 1) true (fun _ => true)
      ⟨"LIGHTS".toList, "Ambrose".toList, .finite 40, .finite (-73), .finite (5 : ℤ)⟩ := by
  refine ⟨by decide +kernel, ?_⟩
  intro right
  obtain ⟨miles, some_⟩ := @searched_constantHost (1852 / 1000) 3 5
    (by decide +kernel) (by decide +kernel) (fun _ => true)
  obtain ⟨row, from_, right⟩ := exists_of_rightDistances right some_
  have shown := @dist_item (constantHost (1852 / 1000) 3) ⟨id, fun _ _ => []⟩ (1852 / 1000)
    (fun miles => (rfl : (constantHost (1852 / 1000) 3).toUsrDistance miles = _)) row
  rw [right.dist, miles row from_] at shown
  exact absurd shown (by decide +kernel)

end ObjSearch.Search.Results
