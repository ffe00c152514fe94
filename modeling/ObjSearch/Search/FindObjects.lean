/- `OnSearch` and `FindObjects`: a count, the user's consent to a long list, and the list.
   digest: With a plain filter and all positions on the map both statements select the same
   objects, in the order of the table, and none for a text that is too long. -/

import ObjSearch.Search.CheckList
import ObjSearch.Search.Condition

set_option autoImplicit false
set_option relaxedAutoImplicit false

namespace ObjSearch.Search.FindObjects

open ObjSearch.Lib.Texts (Text)
open ObjSearch.Lib.Printf
open ObjSearch.Lib.Relational
open ObjSearch.Sql.Eval
open ObjSearch.Sql.Read
open ObjSearch.Sql.Query
open ObjSearch.Index.Storage
open ObjSearch.Search.CheckList
open ObjSearch.Search.Statements
open ObjSearch.Search.Catalog
open ObjSearch.Search.Condition

/-- `OnSearch`: the call of `FindObjects`, unless the search term is empty; the range limit is
a whole number of miles. -/
def onSearch (p : Popup) (term : Text) (lat lon : Double) (limitRange : ℤ) : Option Call :=
  if term.length = 0 then none
  else p.getStringValue.map (fun feature_filter =>
    ⟨feature_filter, term, lat, lon, .finite limitRange⟩)

structure Added where
  feature : Text
  objectname : Text
  lat : ℚ
  lon : ℚ
  dist : ℚ
  scale : ℚ
  nativescale : ℤ
  chart : Text
deriving DecidableEq

/-- `GetInt`: NULL counts as 0, and of a larger number the low 32 bits are kept. -/
def getInt : Value → ℤ
  | .int n => n.bmod (2 ^ 32)
  | _ => 0

/-- `GetAsString`; the columns read so hold text or NULL. -/
def getAsString : Value → Text
  | .text s => s
  | _ => []

def added (host : Host) (row : List Value) : Added :=
  let set (i : ℕ) : Value := row.getD i .null
  ⟨getAsString (set 0), getAsString (set 1), getDouble (set 2), getDouble (set 3),
    host.toUsrDistance (getDouble (set 7)), getDouble (set 4), getInt (set 5),
    getAsString (set 6)⟩

/-- `SelectFromDB`: a failing statement switches the database off and gives an empty result. -/
def selectFromDB (host : Host) (db : Database) (dbUsable : Bool) (sql : Text) :
    Bool × Cursor Error (List Value) :=
  if !dbUsable then (dbUsable, ⟨[], none⟩)
  else match executeQuery (tables host db) sql with
    | .ok set => (dbUsable, set)
    | .error _ => (false, ⟨[], none⟩)

structure Outcome where
  dbUsable : Bool
  objects_found : ℤ
  /-- the calls of `AddObject`, in order -/
  added : List Added
  /-- an exception that left `NextRow` and with it the call -/
  thrown : Option Error
deriving DecidableEq

/-- `show == wxYES`: of more than a thousand objects the user is asked first. -/
def showList (showAll : ℤ → Bool) (objects_found : ℤ) : Bool :=
  if objects_found > 1000 then showAll objects_found else true

/-- `showAll` is the answer the user gives when asked. -/
def findObjects (host : Host) (db : Database) (dbUsable : Bool) (showAll : ℤ → Bool) (c : Call) :
    Outcome :=
  if !dbUsable then ⟨dbUsable, 0, [], none⟩
  else
    let (dbUsable, set) := selectFromDB host db dbUsable (countSql c)
    let objects_found := if dbUsable then getInt ((set.rows.headD []).headD .null) else 0
    if showList showAll objects_found && dbUsable then
      let (dbUsable, set) := selectFromDB host db dbUsable (listSql c)
      if dbUsable then ⟨dbUsable, objects_found, set.rows.map (FindObjects.added host), set.stopped⟩
      else ⟨dbUsable, objects_found, [], none⟩
    else ⟨dbUsable, objects_found, [], none⟩

theorem findObjects_of_error {host : Host} {db : Database} {showAll : ℤ → Bool} {c : Call} {n : ℤ}
    {e : Error} (count : executeQuery (tables host db) (countSql c) = .ok ⟨[[.int n]], none⟩)
    (list : executeQuery (tables host db) (listSql c) = .error e)
    (showing : showList showAll (getInt (.int n)) = true) :
    findObjects host db true showAll c = ⟨false, getInt (.int n), [], none⟩ := by
  simp only [findObjects, selectFromDB, count, list, Bool.not_true, Bool.false_eq_true, if_false,
    if_true, List.headD_cons, showing, Bool.and_true]

theorem executeQuery_countSql_eq (cat : Catalog) {filter : Text} (plain : '\'' ∉ filter)
    (text : Text) (lat lon dist : ℚ) :
    executeQuery cat (countSql ⟨filter, text, .finite lat, .finite lon, .finite dist⟩) =
      (do firstStep (← select cat (countSelect filter text lat lon (limitOf dist)))) := by
  rw [executeQuery, readSql_countSql plain]

theorem executeQuery_listSql_eq (cat : Catalog) {filter : Text} (plain : '\'' ∉ filter)
    (text : Text) (lat lon dist : ℚ) :
    executeQuery cat (listSql ⟨filter, text, .finite lat, .finite lon, .finite dist⟩) =
      (do firstStep (← select cat (listSelect filter text lat lon (limitOf dist)))) := by
  rw [executeQuery, readSql_listSql plain]

/-! What the search is about, in terms of the tables. -/

def OnMap (lat lon : ℚ) : Prop := |lat| ≤ 90 ∧ |lon| ≤ 180

instance (lat lon : ℚ) : Decidable (OnMap lat lon) := inferInstanceAs (Decidable (_ ∧ _))

def mercator (host : Host) (lat lon : ℚ) (o : ObjectRow) : Option ℚ :=
  host.distanceBearingMercator (o.lat.getD 0) (o.lon.getD 0) (written lat) (written lon)

/-- The object rows of which the WHERE clause is true, in the order of the table: none for a text
that is too long. -/
def matching (host : Host) (db : Database) (filter text : Text) (lat lon : ℚ) (limit : Option ℚ) :
    List (ℤ × ObjectRow) :=
  db.object.rows.filter (fun r =>
    Fits text ∧ clause db filter text limit (mercator host lat lon r.2) r.2 = some true)

def shown (host : Host) (db : Database) (lat lon : ℚ) (o : ObjectRow) : Added where
  feature := (featureName db o).getD []
  objectname := o.objname.getD []
  lat := o.lat.getD 0
  lon := o.lon.getD 0
  dist := host.toUsrDistance ((mercator host lat lon o).getD 0)
  scale := ((chartOf db o).bind (fun ch => ch.2.scale)).getD 0
  nativescale := (((chartOf db o).bind (fun ch => ch.2.nativescale)).getD 0).bmod (2 ^ 32)
  chart := ((chartOf db o).bind (fun ch => ch.2.chartname)).getD []

theorem getDouble_ofOption (x : Option ℚ) : getDouble (.ofOption .real x) = x.getD 0 := by
  cases x <;> rfl

theorem getInt_ofOption (x : Option ℤ) :
    getInt (.ofOption .int x) = (x.getD 0).bmod (2 ^ 32) := by
  cases x <;> rfl

theorem getAsString_ofOption (x : Option Text) : getAsString (.ofOption .text x) = x.getD [] := by
  cases x <;> rfl

theorem distance_eq {host : Host} {lat lon : ℚ} {o : ObjectRow}
    (position : OnMap (o.lat.getD 0) (o.lon.getD 0)) (centre : OnMap (written lat) (written lon)) :
    distance host lat lon o = .ok (.ofOption .real (mercator host lat lon o)) := by
  obtain ⟨lat0, lon0⟩ := position
  obtain ⟨lat1, lon1⟩ := centre
  rw [abs_le] at lat0 lon0 lat1 lon1
  have lats : ¬(o.lat.getD 0 > 90 ∨ o.lat.getD 0 < -90 ∨ written lat > 90 ∨ written lat < -90) := by
    rintro (h | h | h | h) <;> linarith
  have lons : ¬(o.lon.getD 0 > 180 ∨ o.lon.getD 0 < -180 ∨ written lon > 180 ∨
      written lon < -180) := by
    rintro (h | h | h | h) <;> linarith
  have real (x : ℚ) : getDouble (.real x) = x := rfl
  simp only [distance, distanceMercator, getDouble_ofOption, real, if_neg lats, if_neg lons,
    mercator]

variable {host : Host} {db : Database} {filter text : Text} {lat lon : ℚ}

theorem resolve_number (sc : Scope) (x : ℚ) : resolve sc (number x) = .ok () := by
  unfold number signed
  split_ifs <;> rfl

theorem prepare_count (limit : Option ℚ) :
    prepare (tables host db) (countSelect filter text lat lon limit) = .ok () := by
  cases limit with
  | none => rfl
  | some dist =>
    simp only [prepare, countSelect, whereCond, featureCond, nameCond, nearCond, distanceExpr,
      resolve, resolveAll, resolve_number]
    rfl

theorem prepare_list (limit : Option ℚ) :
    prepare (tables host db) (listSelect filter text lat lon limit) = .ok () := by
  cases limit with
  | none =>
    simp only [prepare, listSelect, resultColumns, whereCond, featureCond, nameCond, distanceExpr,
      resolve, resolveAll, resolve_number]
    rfl
  | some dist =>
    simp only [prepare, listSelect, resultColumns, whereCond, featureCond, nameCond, nearCond,
      distanceExpr, resolve, resolveAll, resolve_number]
    rfl

def listValues (host : Host) (db : Database) (lat lon : ℚ) (o : ObjectRow) : List Value :=
  let chart := chartOf db o
  [.ofOption .text (featureName db o), .ofOption .text o.objname, .ofOption .real o.lat,
    .ofOption .real o.lon, .ofOption .real (chart.bind (fun ch => ch.2.scale)),
    .ofOption .int (chart.bind (fun ch => ch.2.nativescale)),
    .ofOption .text (chart.bind (fun ch => ch.2.chartname))] ++
  [.ofOption .real (mercator host lat lon o)]

theorem evalAll_resultColumns {o : ObjectRow} (position : OnMap (o.lat.getD 0) (o.lon.getD 0))
    (centre : OnMap (written lat) (written lon)) :
    evalAll ((tables host db).context (listRow db o))
      (resultColumns (number lat) (number lon)) = .ok (listValues host db lat lon o) := by
  have stored : evalAll ((tables host db).context (listRow db o))
      [column "f" "featurename", column "o" "objname", column "o" "lat", column "o" "lon",
        column "ch" "scale", column "ch" "nativescale", column "ch" "chartname"] = .ok
      [.ofOption .text (featureName db o), .ofOption .text o.objname, .ofOption .real o.lat,
        .ofOption .real o.lon, .ofOption .real ((chartOf db o).bind (fun ch => ch.2.scale)),
        .ofOption .int ((chartOf db o).bind (fun ch => ch.2.nativescale)),
        .ofOption .text ((chartOf db o).bind (fun ch => ch.2.chartname))] := by
    unfold listRow countRow featureName
    cases featureOf db o <;> cases chartOf db o <;> rfl
  have measured : evalAll ((tables host db).context (listRow db o))
      [distanceExpr (number lat) (number lon)] =
      .ok [.ofOption .real (mercator host lat lon o)] := by
    rw [evalAll, eval_distanceExpr (sees_listRow db o), distance_eq position centre]
    rfl
  exact evalAll_append stored measured

theorem added_listValues (o : ObjectRow) :
    FindObjects.added host (listValues host db lat lon o) = shown host db lat lon o := by
  simp [FindObjects.added, listValues, shown, getDouble_ofOption, getInt_ofOption,
    getAsString_ofOption]

theorem joinAll_count : joinAll (tables host db) [featureJoin]
    ((objectTable db).rows.map (sourceRow "o".toList (objectTable db).columns)) =
      .ok (db.object.rows.map (fun r => countRow db r.2)) := by
  rw [objectTable, List.map_map]
  exact joinAll_feature host db [] db.object.rows

theorem joinAll_list : joinAll (tables host db) [featureJoin, chartJoin]
    ((objectTable db).rows.map (sourceRow "o".toList (objectTable db).columns)) =
      .ok (db.object.rows.map (fun r => listRow db r.2)) := by
  rw [objectTable, List.map_map]
  exact (joinAll_feature host db [chartJoin] db.object.rows).trans
    (joinAll_chart host db [] db.object.rows)

theorem holds_whereCond (fits : Fits text) {o : ObjectRow} {row : Row} (sees : Sees db o row)
    (position : OnMap (o.lat.getD 0) (o.lon.getD 0)) (centre : OnMap (written lat) (written lon))
    (limit : Option ℚ) :
    holds (tables host db) (whereCond filter text lat lon limit) row =
      .ok (decide (Fits text ∧
        clause db filter text limit (mercator host lat lon o) o = some true)) := by
  simp only [fits, true_and]
  exact holds_of_eval (eval_whereCond sees filter fits limit (fun _ => distance_eq position centre))

theorem holds_whereCond_of_long (long : ¬ Fits text) {o : ObjectRow} {row : Row}
    (sees : Sees db o row) (limit : Option ℚ) :
    holds (tables host db) (whereCond filter text lat lon limit) row ≠ .ok true := by
  rw [holds, eval_whereCond_of_long sees filter long]
  split_ifs <;>
    (intro same; cases same)

variable (host) (text) (plain : '\'' ∉ filter) (dist : ℚ)

include plain

/-- For a text that is too long nothing is counted and nothing is listed; where a row is looked at
for its name, the database is switched off. -/
theorem findObjects_of_long (long : ¬ Fits text) (showAll : ℤ → Bool) :
    ∃ usable, findObjects host db true showAll
      ⟨filter, text, .finite lat, .finite lon, .finite dist⟩ = ⟨usable, 0, [], none⟩ := by
  have counted := executeQuery_countAll_of_none (fun r : ℤ × ObjectRow => countRow db r.2)
    (readSql_countSql plain text lat lon dist) (prepare_count (limitOf dist))
    (find_object host db) joinAll_count rfl
    (fun r _ => holds_whereCond_of_long long (sees_countRow db r.2) (limitOf dist))
  have listed := executeQuery_list_of_none (fun r : ℤ × ObjectRow => listRow db r.2)
    (readSql_listSql plain text lat lon dist) (prepare_list (limitOf dist))
    (find_object host db) joinAll_list rfl
    (fun r _ => holds_whereCond_of_long long (sees_listRow db r.2) (limitOf dist))
  have few : showList showAll 0 = true := rfl
  have zero : getInt (.int 0) = 0 := rfl
  unfold findObjects selectFromDB
  rcases counted with counted | ⟨e, counted⟩
  · rcases listed with listed | ⟨e, listed⟩
    · refine ⟨true, ?_⟩
      simp only [counted, listed, List.headD_cons, zero, few, Bool.not_true, Bool.false_eq_true,
        if_false, if_true, Bool.and_true, List.map_nil]
    · refine ⟨false, ?_⟩
      simp only [counted, listed, List.headD_cons, zero, few, Bool.not_true, Bool.false_eq_true,
        if_false, if_true, Bool.and_true]
  · refine ⟨false, ?_⟩
    simp only [counted, Bool.not_true, Bool.false_eq_true, if_false, Bool.and_false]

variable (fits : Fits text)
  (positions : ∀ r ∈ db.object.rows, OnMap (r.2.lat.getD 0) (r.2.lon.getD 0))
  (centre : OnMap (written lat) (written lon))

include fits positions centre

theorem executeQuery_countSql :
    executeQuery (tables host db)
      (countSql ⟨filter, text, .finite lat, .finite lon, .finite dist⟩) =
    .ok ⟨[[.int (matching host db filter text lat lon (limitOf dist)).length]], none⟩ := by
  apply executeQuery_countAll (fun r : ℤ × ObjectRow => countRow db r.2)
    (readSql_countSql plain text lat lon dist) (prepare_count (limitOf dist))
    (find_object host db) joinAll_count
  · intro r hr
    exact holds_whereCond fits (sees_countRow db r.2) (positions r hr) centre (limitOf dist)
  · rfl

theorem executeQuery_listSql :
    executeQuery (tables host db)
      (listSql ⟨filter, text, .finite lat, .finite lon, .finite dist⟩) =
    .ok ⟨(matching host db filter text lat lon (limitOf dist)).map
      (fun r => listValues host db lat lon r.2), none⟩ := by
  apply executeQuery_list (fun r : ℤ × ObjectRow => listRow db r.2)
    (readSql_listSql plain text lat lon dist) (prepare_list (limitOf dist))
    (find_object host db) joinAll_list
  · intro r hr
    exact holds_whereCond fits (sees_listRow db r.2) (positions r hr) centre (limitOf dist)
  · rfl
  · intro r hr
    exact evalAll_resultColumns (positions r hr) centre

end ObjSearch.Search.FindObjects
