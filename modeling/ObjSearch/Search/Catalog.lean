/- The three tables and the two functions as the statements of a search see them.
   digest: The joins of both statements give each object one row, with the feature and the
   chart it refers to where they exist. -/

import ObjSearch.Index.Storage
import ObjSearch.Search.Statements
import ObjSearch.Sql.Query

set_option autoImplicit false
set_option relaxedAutoImplicit false

namespace ObjSearch.Search.Catalog

open ObjSearch.Lib.Texts (Text)
open ObjSearch.Lib.Printf
open ObjSearch.Lib.Relational
open ObjSearch.Lib.Tables
open ObjSearch.Sql.Eval
open ObjSearch.Sql.Match (instr like)
open ObjSearch.Sql.Read
open ObjSearch.Sql.Query
open ObjSearch.Index.Storage
open ObjSearch.Search.Statements

/-- What the search takes from its host, on numbers. -/
structure Host where
  /-- `DistanceBearingMercator_Plugin`; `none` where its result is not a number -/
  distanceBearingMercator : ℚ → ℚ → ℚ → ℚ → Option ℚ
  /-- `toUsrDistance_Plugin` -/
  toUsrDistance : ℚ → ℚ

/-- `GetDouble`: NULL counts as 0, and so would a text, which no numeric column holds. -/
def getDouble (v : Value) : ℚ := v.number.getD 0

/-- `DistanceMercatorFunc::Execute` -/
def distanceMercator (host : Host) : List Value → Except Error Value
  | [a, b, c, d] =>
      let lat0 := getDouble a
      let lon0 := getDouble b
      let lat1 := getDouble c
      let lon1 := getDouble d
      if lat0 > 90 ∨ lat0 < -90 ∨ lat1 > 90 ∨ lat1 < -90 then
        .error (.raised "Latitude must be between -90 and 90.".toList)
      else if lon0 > 180 ∨ lon0 < -180 ∨ lon1 > 180 ∨ lon1 < -180 then
        .error (.raised "Longitude must be between -180 and 180.".toList)
      else .ok (.ofOption .real (host.distanceBearingMercator lat0 lon0 lat1 lon1))
  | _ => .error (.raised "Function takes exactly 4 arguments.".toList)

/-- `instr`, which is NULL where an argument is. -/
def instrValue : List Value → Except Error Value
  | [.text x, .text y] => .ok (.int (instr x y))
  | [.null, _] | [_, .null] => .ok .null
  | _ => .error .mismatch

def objectColumns : List Text :=
  ["chart_id", "feature_id", "objname", "lat", "lon"].map String.toList

def objectValues (o : ObjectRow) : List Value :=
  [.ofOption .int o.chart_id, .ofOption .int o.feature_id, .ofOption .text o.objname,
    .ofOption .real o.lat, .ofOption .real o.lon]

def featureColumns : List Text := ["id", "featurename"].map String.toList

def featureValues (f : ℤ × FeatureRow) : List Value := [.int f.1, .ofOption .text f.2.featurename]

def chartColumns : List Text := ["id", "chartname", "scale", "nativescale"].map String.toList

def chartValues (ch : ℤ × ChartRow) : List Value :=
  [.int ch.1, .ofOption .text ch.2.chartname, .ofOption .real ch.2.scale,
    .ofOption .int ch.2.nativescale]

def objectTable (db : Database) : Table :=
  ⟨objectColumns, db.object.rows.map (fun r => objectValues r.2)⟩

def featureTable (db : Database) : Table := ⟨featureColumns, db.feature.rows.map featureValues⟩

def chartTable (db : Database) : Table := ⟨chartColumns, db.chart.rows.map chartValues⟩

def tables (host : Host) (db : Database) : Catalog where
  table name :=
    if name = "object".toList then some (objectTable db)
    else if name = "feature".toList then some (featureTable db)
    else if name = "chart".toList then some (chartTable db)
    else none
  argCount f :=
    if f = "instr".toList then some 2 else if f = "distanceMercator".toList then some 4 else none
  call f vs :=
    if f = "instr".toList then instrValue vs
    else if f = "distanceMercator".toList then distanceMercator host vs
    else .error (.noSuchFunction f)

def featureOf (db : Database) (o : ObjectRow) : Option (ℤ × FeatureRow) :=
  match_ Prod.fst db.feature.rows o.feature_id

def chartOf (db : Database) (o : ObjectRow) : Option (ℤ × ChartRow) :=
  match_ Prod.fst db.chart.rows o.chart_id

def objectSource (o : ObjectRow) : Row := sourceRow "o".toList objectColumns (objectValues o)

def featureSource (f : Option (ℤ × FeatureRow)) : Row :=
  sourceRow "f".toList featureColumns ((f.map featureValues).getD (nulls featureColumns))

def chartSource (ch : Option (ℤ × ChartRow)) : Row :=
  sourceRow "ch".toList chartColumns ((ch.map chartValues).getD (nulls chartColumns))

def countRow (db : Database) (o : ObjectRow) : Row :=
  objectSource o ++ featureSource (featureOf db o)

def listRow (db : Database) (o : ObjectRow) : Row := countRow db o ++ chartSource (chartOf db o)

def featureName (db : Database) (o : ObjectRow) : Option Text :=
  (featureOf db o).bind (fun f => f.2.featurename)

variable (host : Host) (db : Database)

theorem holds_featureJoin (o : ObjectRow) (f : ℤ × FeatureRow) :
    holds (tables host db) featureJoin.on
      (objectSource o ++ sourceRow "f".toList featureColumns (featureValues f)) =
      .ok (decide (o.feature_id = some f.1)) := by
  have compared : eval ((tables host db).context
      (objectSource o ++ sourceRow "f".toList featureColumns (featureValues f))) featureJoin.on =
      .ok (.ofTruth (o.feature_id.map (fun k : ℤ => decide ((k : ℚ) = (f.1 : ℚ))))) :=
    compare_ofOption (fun x y => x = y) number_int o.feature_id (number_int f.1)
  rw [holds_of_eval compared]
  cases o.feature_id <;> simp

theorem holds_chartJoin (o : ObjectRow) (fo : Option (ℤ × FeatureRow)) (ch : ℤ × ChartRow) :
    holds (tables host db) chartJoin.on
      (objectSource o ++ featureSource fo ++
        sourceRow "ch".toList chartColumns (chartValues ch)) =
      .ok (decide (o.chart_id = some ch.1)) := by
  have compared : eval ((tables host db).context
      (objectSource o ++ featureSource fo ++
        sourceRow "ch".toList chartColumns (chartValues ch))) chartJoin.on =
      .ok (.ofTruth (o.chart_id.map (fun k : ℤ => decide ((k : ℚ) = (ch.1 : ℚ))))) := by
    cases fo <;>
      exact compare_ofOption (fun x y => x = y) number_int o.chart_id (number_int ch.1)
  rw [holds_of_eval compared]
  cases o.chart_id <;> simp

theorem find_object : (tables host db).find "object".toList = .ok (objectTable db) := rfl

theorem find_feature : (tables host db).find featureJoin.table = .ok (featureTable db) := rfl

theorem find_chart : (tables host db).find chartJoin.table = .ok (chartTable db) := rfl

theorem rows_feature : (featureTable db).rows = db.feature.rows.map featureValues := rfl

theorem rows_chart : (chartTable db).rows = db.chart.rows.map chartValues := rfl

theorem joinAll_feature (js : List Join) (rows : List (ℤ × ObjectRow)) :
    joinAll (tables host db) (featureJoin :: js) (rows.map (fun r => objectSource r.2)) =
      joinAll (tables host db) js (rows.map (fun r => countRow db r.2)) :=
  joinAll_cons js (find_feature host db) (fun r : ℤ × ObjectRow => objectSource r.2) featureValues
    (fun r => r.2.feature_id) Prod.fst rows (rows_feature db) db.feature.nodup
    (fun r _ f _ => holds_featureJoin host db r.2 f)

theorem joinAll_chart (js : List Join) (rows : List (ℤ × ObjectRow)) :
    joinAll (tables host db) (chartJoin :: js) (rows.map (fun r => countRow db r.2)) =
      joinAll (tables host db) js (rows.map (fun r => listRow db r.2)) :=
  joinAll_cons js (find_chart host db) (fun r : ℤ × ObjectRow => countRow db r.2) chartValues
    (fun r => r.2.chart_id) Prod.fst rows (rows_chart db) db.chart.nodup
    (fun r _ ch _ => holds_chartJoin host db r.2 (featureOf db r.2) ch)

end ObjSearch.Search.Catalog
