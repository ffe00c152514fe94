/- The indexing side of the plugin: caches, insert queue, and what a notification does.
   digest: One notification records its chart and its feature where they are new and queues
   its object where the chart is the one being loaded. -/

import ObjSearch.Index.Storage
import ObjSearch.Lib.Maps

set_option autoImplicit false
set_option relaxedAutoImplicit false

namespace ObjSearch.Index.Notify

open Std (ExtTreeMap)
open ObjSearch.Lib.Texts (Text)
open ObjSearch.Lib.Tables
open ObjSearch.Lib.Maps (fill)
open ObjSearch.Index.Storage

structure Chart where
  id : ℤ
  name : Text
  scale : ℚ
  nativescale : ℤ
deriving DecidableEq

def Chart.unset : Chart := ⟨-1, [], 0, -1⟩

/-- The members of `objsearch_pi` that indexing reads or writes. -/
structure Plugin where
  dbUsable : Bool
  dbThreadRunning : Bool
  waitForDB : Bool
  chartLoading : Text
  chartsInDb : ExtTreeMap Text Chart
  featuresInDb : ExtTreeMap Text ℤ
  queryQueue : List Text
  db : Database

/-- The arguments of `SendVectorChartObjectInfo`; coordinates and scales are exact. -/
structure Notification where
  chart : Text
  feature : Text
  objname : Text
  lat : ℚ
  lon : ℚ
  scale : ℚ
  nativescale : ℤ
deriving DecidableEq

def queryDB (s : Plugin) (sql : Text) : Plugin :=
  match s.db.executeUpdate sql with
  | .ok db => { s with db := db }
  | .error (_, db) => { s with db := db, dbUsable := false }

/-! `getName` stands for `wxFileName::GetName`, the name of a path without directory and
extension. -/

variable (getName : Text → Text)

def getChartId (s : Plugin) (chart : Text) : ℤ :=
  if !s.dbUsable then -1
  else match s.chartsInDb[getName chart]? with
    | none => 0
    | some ch => ch.id

def getFeatureId (s : Plugin) (feature : Text) : ℤ :=
  if !s.dbUsable then -1
  else match s.featuresInDb[feature]? with
    | none => 0
    | some id => id

def storeNewChart (s : Plugin) (chart : Text) (scale : ℚ) (nativescale : ℤ) : Plugin × Chart :=
  if !s.dbUsable then (s, .unset)
  else
    let ch : Chart := ⟨-1, getName chart, scale, nativescale⟩
    let s := { s with chartLoading := chart }
    let s := queryDB s (insertChartSql ch.name ch.scale ch.nativescale)
    (s, { ch with id := s.db.lastRowId })

def storeNewFeature (s : Plugin) (feature : Text) : Plugin × ℤ :=
  if !s.dbUsable then (s, -1)
  else
    let s := queryDB s (insertFeatureSql feature)
    (s, s.db.lastRowId)

def wrapped (lon : ℚ) : ℚ :=
  if lon < -180 then lon + 360 else if lon > 180 then lon - 360 else lon

def offMap (lat lon : ℚ) : Bool := lon > 180 || lon < -180 || lat > 90 || lat < -90

/-- The wait for `m_bWaitForDB` is over at once: the only caller clears the flag before. -/
def storeNewObject (s : Plugin) (chart_id feature_id : ℤ) (objname : Text) (lat lon : ℚ) :
    Plugin :=
  if !s.dbUsable then s
  else
    let lon := wrapped lon
    if offMap lat lon then s
    else if objname.length > 1 then
      { s with queryQueue := s.queryQueue ++ [insertObjectSql chart_id feature_id objname lat lon] }
    else s

def recordChart (s : Plugin) (n : Notification) : Plugin :=
  let s := { s with waitForDB := true }
  let (s, ch) := storeNewChart getName s n.chart n.scale n.nativescale
  { s with chartsInDb := s.chartsInDb.insert ch.name ch, waitForDB := false }

def recordFeature (s : Plugin) (feature : Text) : Plugin × ℤ :=
  let s := { s with waitForDB := true }
  let (s, feature_id) := storeNewFeature s feature
  ({ s with featuresInDb := s.featuresInDb.insert feature feature_id, waitForDB := false },
    feature_id)

def sendVectorChartObjectInfo (s : Plugin) (n : Notification) : Plugin :=
  if !s.dbUsable || !s.dbThreadRunning then s
  else
    let chart_id := getChartId getName s n.chart
    let feature_id := getFeatureId s n.feature
    let s := if chart_id = 0 then recordChart getName s n else s
    let (s, feature_id) := if feature_id = 0 then recordFeature s n.feature else (s, feature_id)
    -- chart_id is still 0 here when the chart was new
    if n.chart = s.chartLoading then storeNewObject s chart_id feature_id n.objname n.lat n.lon
    else s

/-- `SettingsDialogImpl::CreateObject`: a CSV row as a notification; the source column stands
for the chart and the scale is cast from long to int. -/
def createObject (lat lon : ℚ) (name feature source : Text) (scale : ℤ) (truescale : ℚ) :
    Notification :=
  ⟨source, feature, name, lat, lon, truescale, scale.bmod (2 ^ 32)⟩

/-! Start-up. -/

/-- The first UPDATE of `initDB`: `SET lon = lon - 360 WHERE lon > 180`. -/
def wrapEast (r : ObjectRow) : ObjectRow :=
  if r.lon.any (fun lon => lon > 180) then { r with lon := r.lon.map (fun lon => lon - 360) } else r

/-- The second UPDATE: `SET lon = lon + 360 WHERE lon < - 180`. -/
def wrapWest (r : ObjectRow) : ObjectRow :=
  if r.lon.any (fun lon => lon < -180) then { r with lon := r.lon.map (fun lon => lon + 360) } else r

/-- The WHERE clause of the DELETE; a comparison with NULL is not true. -/
def brokenObject (r : ObjectRow) : Bool :=
  r.lon.any (fun lon => lon < -180) || r.lon.any (fun lon => lon > 180) ||
    r.lat.any (fun lat => lat < -90) || r.lat.any (fun lat => lat > 90)

/-- What `initDB` does to the object table of an existing database. -/
def initDB (db : Database) : Database :=
  let object := db.object.filterMap (fun r => some (wrapEast r))
  let object := object.filterMap (fun r => some (wrapWest r))
  let object := object.filterMap (fun r => if brokenObject r then none else some r)
  { db with object := object }

/-- The loop over `SELECT id, chartname, scale, nativescale FROM chart`. -/
def loadCharts (rows : List (ℤ × ChartRow)) : ExtTreeMap Text Chart :=
  fill (fun r => r.2.chartname.getD [])
    (fun r => ⟨r.1, r.2.chartname.getD [], r.2.scale.getD 0, r.2.nativescale.getD 0⟩) ∅ rows

/-- The loop over `SELECT id, featurename FROM feature`. -/
def loadFeatures (rows : List (ℤ × FeatureRow)) : ExtTreeMap Text ℤ :=
  fill (fun r => r.2.featurename.getD []) Prod.fst ∅ rows

def init (db : Database) : Plugin where
  dbUsable := true
  dbThreadRunning := false
  waitForDB := false
  chartLoading := []
  chartsInDb := loadCharts (initDB db).chart.rows
  featuresInDb := loadFeatures (initDB db).feature.rows
  queryQueue := []
  db := initDB db

/-- The first statement of `DbThread::Entry`. -/
def threadStarted (s : Plugin) : Plugin := { s with dbThreadRunning := true }

/-- One turn of the thread's inner loop: `QueryDB(GetQuery())` while `HasQueries()`. -/
def serve (s : Plugin) : Plugin :=
  match s.queryQueue with
  | [] => s
  | sql :: rest => queryDB { s with queryQueue := rest } sql

end ObjSearch.Index.Notify
