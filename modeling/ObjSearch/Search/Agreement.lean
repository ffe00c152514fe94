/- The count and the list of one search, and of the same search with and without a limit.
   digest: On the map both statements select the same objects, each once; a range limit only
   leaves some of them out. -/

import ObjSearch.Search.Completeness

set_option autoImplicit false
set_option relaxedAutoImplicit false

namespace ObjSearch.Search.Agreement

open ObjSearch.Lib.Texts (Text)
open ObjSearch.Lib.Printf
open ObjSearch.Lib.Relational
open ObjSearch.Lib.Tables
open ObjSearch.Sql.Eval
open ObjSearch.Sql.Query
open ObjSearch.Index.Storage
open ObjSearch.Search.Statements
open ObjSearch.Search.Catalog
open ObjSearch.Search.Condition
open ObjSearch.Search.FindObjects
open ObjSearch.Search.Completeness (flatHost)

variable {host : Host} {db : Database} {filter text : Text} {lat lon : ℚ}

def atMost (host : Host) (lat lon dist : ℚ) (o : ObjectRow) : Bool :=
  match distance host lat lon o with
  | .ok (.real d) => d ≤ written dist
  | _ => false

/-- The number the count statement hands to `GetInt`. -/
def found (rows : List (ℤ × ObjectRow)) : ℤ := (rows.length : ℤ).bmod (2 ^ 32)

theorem findObjects_eq (host : Host) {text : Text} (fits : Fits text) (plain : '\'' ∉ filter)
    (positions : ∀ r ∈ db.object.rows, OnMap (r.2.lat.getD 0) (r.2.lon.getD 0))
    (centre : OnMap (written lat) (written lon)) (showAll : ℤ → Bool) (dist : ℚ) :
    findObjects host db true showAll ⟨filter, text, .finite lat, .finite lon, .finite dist⟩ =
      let rows := matching host db filter text lat lon (limitOf dist)
      ⟨true, found rows,
        if showList showAll (found rows) then rows.map (fun r => shown host db lat lon r.2) else [],
        none⟩ := by
  have counted := executeQuery_countSql host text plain dist fits positions centre
  have list := executeQuery_listSql host text plain dist fits positions centre
  have rows : added host ∘ (fun r : ℤ × ObjectRow => listValues host db lat lon r.2) =
      fun r => shown host db lat lon r.2 := by
    funext r
    exact added_listValues r.2
  have number (rows : List (ℤ × ObjectRow)) : getInt (.int rows.length) = found rows := rfl
  simp only [findObjects, selectFromDB, counted, list, Bool.not_true, Bool.false_eq_true,
    if_false, if_true, List.headD_cons, number, List.map_map, Bool.and_true, rows]
  cases showList showAll (found (matching host db filter text lat lon (limitOf dist))) with
  | false => simp only [Bool.false_eq_true, if_false]
  | true => simp only [if_true]

theorem found_eq {rows : List (ℤ × ObjectRow)} (few : rows.length < 2 ^ 31) :
    found rows = rows.length := by
  apply Int.bmod_eq_of_le <;> omega

theorem length_matching_le (host : Host) (db : Database) (filter text : Text) (lat lon : ℚ)
    (limit : Option ℚ) :
    (matching host db filter text lat lon limit).length ≤ db.object.rows.length :=
  List.length_filter_le _ _

theorem matching_of_long (long : ¬ Fits text) (limit : Option ℚ) :
    matching host db filter text lat lon limit = [] :=
  List.filter_eq_nil_iff.mpr fun _ _ passes => long (of_decide_eq_true passes).1

theorem matching_some
    (positions : ∀ r ∈ db.object.rows, OnMap (r.2.lat.getD 0) (r.2.lon.getD 0))
    (centre : OnMap (written lat) (written lon)) (dist : ℚ) :
    matching host db filter text lat lon (some dist) =
      (matching host db filter text lat lon none).filter
        (fun r => atMost host lat lon dist r.2) := by
  rw [matching, matching, List.filter_filter]
  apply List.filter_congr
  intro r hr
  have near : atMost host lat lon dist r.2 =
      decide (within dist (mercator host lat lon r.2) = some true) := by
    rw [atMost, distance_eq (positions r hr) centre]
    cases mercator host lat lon r.2 with
    | none => rfl
    | some d => simp [within, Value.ofOption]
  rw [near]
  simp only [clause, conj_eq_true, Bool.decide_and]
  cases decide (Fits text) <;> cases decide (named db filter r.2 = some true) <;>
    cases decide (nameLike text r.2 = some true) <;> simp

/-- On the map, and unless the user declines a long list: the count is the number of rows
listed, these are the matching object rows in the order of the table, and a limit only filters
them. -/
theorem searches_agree (host : Host) (db : Database)
    (positions : ∀ r ∈ db.object.rows, OnMap (r.2.lat.getD 0) (r.2.lon.getD 0))
    (few : db.object.rows.length < 2 ^ 31) (showAll : ℤ → Bool)
    (agrees : ∀ n, 1000 < n → showAll n = true) (filter : Text) (plain : '\'' ∉ filter)
    (text : Text) (lat lon : ℚ) (centre : OnMap (written lat) (written lon)) :
    let search (dist : ℚ) := findObjects host db true showAll
      ⟨filter, text, .finite lat, .finite lon, .finite dist⟩
    let rows (dist : ℚ) := matching host db filter text lat lon (limitOf dist)
    (∀ dist, (search dist).objects_found = (search dist).added.length ∧
      (rows dist).Sublist db.object.rows ∧
      (search dist).added = (rows dist).map (fun r => shown host db lat lon r.2)) ∧
    ∀ dist unlimited, tenth < dist → unlimited ≤ tenth →
      (search dist).added = ((rows unlimited).filter (fun r => atMost host lat lon dist r.2)).map
        (fun r => shown host db lat lon r.2) := by
  intro search rows
  have all (n : ℤ) : showList showAll n = true := by
    unfold showList
    split_ifs with many
    · exact agrees n many
    · rfl
  have searched (dist : ℚ) : (search dist).objects_found = found (rows dist) ∧
      (search dist).added = (rows dist).map (fun r => shown host db lat lon r.2) := by
    by_cases fits : Fits text
    · have eq : search dist = ⟨true, found (rows dist),
          (rows dist).map (fun r => shown host db lat lon r.2), none⟩ := by
        have eq := findObjects_eq host fits plain positions centre showAll dist
        simp only [all, if_true] at eq
        exact eq
      simp only [eq, and_self]
    · -- no row passes, and both statements find none or fail
      obtain ⟨usable, eq⟩ := findObjects_of_long host text plain dist fits showAll
      have none_ : rows dist = [] := matching_of_long fits (limitOf dist)
      rw [show search dist = ⟨usable, 0, [], none⟩ from eq, none_]
      exact ⟨rfl, rfl⟩
  constructor
  · intro dist
    have within_ := lt_of_le_of_lt (length_matching_le host db filter text lat lon (limitOf dist)) few
    obtain ⟨counted, added⟩ := searched dist
    refine ⟨?_, List.filter_sublist, added⟩
    rw [counted, added, found_eq within_, List.length_map]
  · intro dist unlimited above below
    have limited : rows dist = matching host db filter text lat lon (some dist) := by
      show matching host db filter text lat lon (limitOf dist) = _
      rw [limitOf, if_pos above]
    have free : rows unlimited = matching host db filter text lat lon none := by
      show matching host db filter text lat lon (limitOf unlimited) = _
      rw [limitOf, if_neg (not_lt.mpr below)]
    rw [(searched dist).2, limited, free, matching_some positions centre dist]

def ambrose : ObjectRow := ⟨none, some 1, some "Ambrose".toList, some 40, some (-73)⟩

theorem fits_ambrose : Fits "Ambrose".toList := by decide

def crowd (o : ObjectRow) (n : ℕ) : Database where
  chart := .empty
  feature := AutoTable.empty.insert ⟨some "LIGHTS".toList⟩
  object := ⟨(List.range n).map (fun i : ℕ => ((i : ℤ) + 1, o)), by
    rw [List.map_map]
    apply List.Nodup.map _ List.nodup_range
    intro i j same
    have : (i : ℤ) + 1 = (j : ℤ) + 1 := same
    omega⟩
  lastRowId := n

theorem eq_of_mem_crowd {o : ObjectRow} {n : ℕ} {r : ℤ × ObjectRow}
    (hr : r ∈ (crowd o n).object.rows) : r.2 = o := by
  obtain ⟨i, -, rfl⟩ := List.mem_map.mp hr
  rfl

theorem length_crowd (o : ObjectRow) (n : ℕ) : (crowd o n).object.rows.length = n := by
  rw [crowd, List.length_map, List.length_range]

def ambroseSearch (db : Database) (showAll : ℤ → Bool) (lon dist : ℚ) : Outcome :=
  findObjects flatHost db true showAll
    ⟨"LIGHTS".toList, "Ambrose".toList, .finite 40, .finite lon, .finite dist⟩

theorem searches_agree_crowd :
    (ambroseSearch (crowd ambrose 2) (fun _ => true) (-73) 5).objects_found =
      (ambroseSearch (crowd ambrose 2) (fun _ => true) (-73) 5).added.length := by
  have agree := searches_agree flatHost (crowd ambrose 2)
    (by intro r hr; rw [eq_of_mem_crowd hr]; decide +kernel) (by rw [length_crowd]; decide)
    (fun _ => true) (fun _ _ => rfl) "LIGHTS".toList (by decide) "Ambrose".toList 40 (-73)
    (by decide +kernel)
  have counts (dist : ℚ) : (ambroseSearch (crowd ambrose 2) (fun _ => true) (-73) dist).objects_found =
      (ambroseSearch (crowd ambrose 2) (fun _ => true) (-73) dist).added.length := (agree.1 dist).1
  exact counts 5

theorem matching_crowd (n : ℕ) :
    matching flatHost (crowd ambrose n) "LIGHTS".toList "Ambrose".toList 40 (-73) none =
      (crowd ambrose n).object.rows := by
  apply List.filter_eq_self.mpr
  intro r hr
  rw [eq_of_mem_crowd hr]
  rfl

theorem ambroseSearch_crowd (n : ℕ) (showAll : ℤ → Bool) :
    ambroseSearch (crowd ambrose n) showAll (-73) 0 = ⟨true, found (crowd ambrose n).object.rows,
      if showList showAll (found (crowd ambrose n).object.rows) then (crowd ambrose n).object.rows.map
        (fun r => shown flatHost (crowd ambrose n) 40 (-73) r.2) else [], none⟩ := by
  have unlimited : limitOf 0 = none := by decide +kernel
  have positions : ∀ r ∈ (crowd ambrose n).object.rows,
      OnMap (r.2.lat.getD 0) (r.2.lon.getD 0) := by
    intro r hr
    rw [eq_of_mem_crowd hr]
    decide +kernel
  have plain : '\'' ∉ "LIGHTS".toList := by decide
  have centre : OnMap (written 40) (written (-73)) := by decide +kernel
  have eq := findObjects_eq flatHost fits_ambrose plain positions centre showAll 0
  simp only [unlimited, matching_crowd] at eq
  exact eq

theorem found_crowd (n : ℕ) : found (crowd ambrose n).object.rows = (n : ℤ).bmod (2 ^ 32) :=
  congrArg (fun k : ℕ => (k : ℤ).bmod (2 ^ 32)) (length_crowd ambrose n)

/-- An object 5.0000002 miles from the position the search is about. -/
def farAmbrose : ObjectRow := { ambrose with lat := some (40 + 50000002 / 600000000) }

def offMap : ObjectRow := { ambrose with lat := some 91 }

/-- Count and list differ when the user declines, when a position is off the map, and when the
count does not fit an `int`; and a limit is compared as the query writes it. -/
theorem searches_disagree :
    ((ambroseSearch (crowd ambrose 1001) (fun _ => false) (-73) 0).objects_found = 1001 ∧
      (ambroseSearch (crowd ambrose 1001) (fun _ => false) (-73) 0).added = []) ∧
    ((ambroseSearch (crowd ambrose 1) (fun _ => true) 200 0).objects_found = 1 ∧
      (ambroseSearch (crowd ambrose 1) (fun _ => true) 200 0).added = []) ∧
    ((ambroseSearch (crowd offMap 1) (fun _ => true) (-73) 0).objects_found = 1 ∧
      (ambroseSearch (crowd offMap 1) (fun _ => true) (-73) 0).added = []) ∧
    ((ambroseSearch (crowd ambrose (2 ^ 31)) (fun _ => true) (-73) 0).objects_found = -2 ^ 31 ∧
      (ambroseSearch (crowd ambrose (2 ^ 31)) (fun _ => true) (-73) 0).added.length = 2 ^ 31) ∧
    (distance flatHost 40 (-73) farAmbrose = .ok (.real (50000002 / 10000000)) ∧
      (ambroseSearch (crowd farAmbrose 1) (fun _ => true) (-73) 0).added.length = 1 ∧
      (ambroseSearch (crowd farAmbrose 1) (fun _ => true) (-73) (50000004 / 10000000)).added =
        []) := by
  have lights : '\'' ∉ "LIGHTS".toList := by decide
  have offCentre : ambroseSearch (crowd ambrose 1) (fun _ => true) 200 0 =
      ⟨false, 1, [], none⟩ := by
    apply findObjects_of_error (n := 1)
      (e := .raised "Longitude must be between -180 and 180.".toList)
    · rw [executeQuery_countSql_eq _ lights]
      decide +kernel
    · rw [executeQuery_listSql_eq _ lights]
      decide +kernel
    · rfl
  have offRow : ambroseSearch (crowd offMap 1) (fun _ => true) (-73) 0 =
      ⟨false, 1, [], none⟩ := by
    apply findObjects_of_error (n := 1)
      (e := .raised "Latitude must be between -90 and 90.".toList)
    · rw [executeQuery_countSql_eq _ lights]
      decide +kernel
    · rw [executeQuery_listSql_eq _ lights]
      decide +kernel
    · rfl
  have farSearch (dist : ℚ) : ambroseSearch (crowd farAmbrose 1) (fun _ => true) (-73) dist = _ :=
    findObjects_eq flatHost fits_ambrose lights (by decide +kernel)
      (by decide +kernel) (fun _ => true) dist
  refine ⟨?_, ?_, ?_, ?_, ?_⟩
  · rw [ambroseSearch_crowd, found_crowd]
    exact ⟨by decide, by rw [if_neg (by decide)]⟩
  · rw [offCentre]
    exact ⟨rfl, rfl⟩
  · rw [offRow]
    exact ⟨rfl, rfl⟩
  · rw [ambroseSearch_crowd, found_crowd]
    refine ⟨by decide, ?_⟩
    rw [if_pos (by decide), List.length_map, length_crowd]
  · rw [farSearch, farSearch]
    decide +kernel

end ObjSearch.Search.Agreement
