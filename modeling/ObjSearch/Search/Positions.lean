/- The positions in table object, from Init over any run.
   digest: Repairing a row keeps, moves or drops it as storing its position would, so whatever is
   stored is on the map, until a name takes a statement of its own along. -/

import ObjSearch.Index.History
import ObjSearch.Search.FindObjects

set_option autoImplicit false
set_option relaxedAutoImplicit false

namespace ObjSearch.Search.Positions

open ObjSearch.Lib.Texts (Text)
open ObjSearch.Lib.Printf
open ObjSearch.Lib.Tables
open ObjSearch.Sql.Read
open ObjSearch.Index.Storage
open ObjSearch.Index.Notify
open ObjSearch.Index.Effect
open ObjSearch.Index.Session
open ObjSearch.Index.Queueing (posixName)
open ObjSearch.Index.History (offMap_eq_false_iff)
open ObjSearch.Search.Catalog
open ObjSearch.Search.Condition
open ObjSearch.Search.FindObjects

/-- The two UPDATEs and the DELETE of `initDB` on one row; `none` where the row goes. -/
def repair (r : ObjectRow) : Option ObjectRow :=
  let r := wrapWest (wrapEast r)
  if brokenObject r then none else some r

theorem initDB_object (db : Database) : (initDB db).object = db.object.filterMap repair := by
  have passes : (initDB db).object =
      ((db.object.filterMap fun r => some (wrapEast r)).filterMap fun r =>
        some (wrapWest r)).filterMap fun r => if brokenObject r then none else some r := rfl
  rw [passes, KeyedTable.filterMap_filterMap, KeyedTable.filterMap_filterMap]
  rfl

theorem repair_of_not_broken {r : ObjectRow} (h : brokenObject r = false) : repair r = some r := by
  have inside := h
  simp only [brokenObject, Bool.or_eq_false_iff] at inside
  have east : wrapEast r = r := by
    rw [wrapEast, inside.1.1.2]
    rfl
  have west : wrapWest r = r := by
    rw [wrapWest, inside.1.1.1]
    rfl
  rw [repair, east, west, h]
  rfl

theorem repair_repair (r : ObjectRow) : (repair r).bind repair = repair r := by
  unfold repair
  by_cases broken : brokenObject (wrapWest (wrapEast r)) = true
  · rw [if_pos broken]
    rfl
  · rw [if_neg broken]
    exact repair_of_not_broken (Bool.eq_false_of_not_eq_true broken)

/-- The repair of a row with a position does to it what StoreNewObject does to the position. -/
theorem repair_eq {r : ObjectRow} {lat lon : ℚ} (hlat : r.lat = some lat) (hlon : r.lon = some lon) :
    repair r = if offMap lat (wrapped lon) then none else some { r with lon := some (wrapped lon) } := by
  obtain ⟨chart_id, feature_id, objname, lat', lon'⟩ := r
  obtain rfl : lat' = some lat := hlat
  obtain rfl : lon' = some lon := hlon
  have moved : wrapWest (wrapEast ⟨chart_id, feature_id, objname, some lat, some lon⟩) =
      ⟨chart_id, feature_id, objname, some lat, some (wrapped lon)⟩ := by
    unfold wrapped
    split_ifs with west east
    · have first : ¬ lon > 180 := by linarith
      simp [wrapEast, wrapWest, first, west]
    · have second : ¬ lon - 360 < -180 := by linarith
      simp [wrapEast, wrapWest, east, second]
    · simp [wrapEast, wrapWest, east, west]
  have same : brokenObject ⟨chart_id, feature_id, objname, some lat, some (wrapped lon)⟩ =
      offMap lat (wrapped lon) := by
    simp only [brokenObject, offMap, Option.any_some]
    cases decide (wrapped lon < -180) <;> cases decide (wrapped lon > 180) <;>
      cases decide (lat < -90) <;> cases decide (lat > 90) <;> rfl
  rw [repair, moved, same]

def queuedFor (chart_id feature_id : ℤ) (objname : Text) : Option ObjectRow → List Text
  | none => []
  | some r =>
    if objname.length > 1 then
      [insertObjectSql chart_id feature_id objname (r.lat.getD 0) (r.lon.getD 0)]
    else []

theorem storeNewObject_eq_repair {s : Plugin} (usable : s.dbUsable = true) (chart_id feature_id : ℤ)
    (objname : Text) {r : ObjectRow} {lat lon : ℚ} (hlat : r.lat = some lat)
    (hlon : r.lon = some lon) :
    storeNewObject s chart_id feature_id objname lat lon =
      { s with queryQueue := s.queryQueue ++
          queuedFor chart_id feature_id objname (repair r) } := by
  have guard : (!s.dbUsable) = false := by rw [usable]; rfl
  rw [repair_eq hlat hlon, storeNewObject, guard]
  simp only [Bool.false_eq_true, if_false]
  split_ifs with off long
  · rw [queuedFor, List.append_nil]
  · rw [queuedFor, if_pos long, hlat]
    rfl
  · rw [queuedFor, if_neg long, List.append_nil]

/-- On the map, also as written with six decimals. -/
def Located (r : ObjectRow) : Prop :=
  ∃ lat lon, r.lat = some lat ∧ r.lon = some lon ∧ OnMap lat lon ∧ OnMap (written lat) (written lon)

theorem onMap_written {lat lon : ℚ} (h : OnMap lat lon) : OnMap (written lat) (written lon) :=
  ⟨abs_written_le h.1, abs_written_le h.2⟩

theorem distance_of_located {r : ObjectRow} (h : Located r) (host : Host) {lat lon : ℚ}
    (centre : OnMap (written lat) (written lon)) : ∃ v, distance host lat lon r = .ok v := by
  obtain ⟨lat', lon', hlat, hlon, onMap, -⟩ := h
  refine ⟨_, distance_eq ?_ centre⟩
  rw [hlat, hlon]
  exact onMap

/-- The rows are located, and so are those that the queue will add. -/
structure Kept (s : Plugin) : Prop where
  rows : ∀ r ∈ s.db.object.rows, Located r.2
  queue : ∀ sql ∈ s.queryQueue, ∃ chart_id feature_id objname lat lon,
    OnMap lat lon ∧ sql = insertObjectSql chart_id feature_id objname lat lon

structure Same (s t : Plugin) : Prop where
  object : t.db.object = s.db.object
  queue : t.queryQueue = s.queryQueue

theorem Same.trans {s t u : Plugin} (first : Same s t) (second : Same t u) : Same s u :=
  ⟨second.object.trans first.object, second.queue.trans first.queue⟩

theorem Kept.of_same {s t : Plugin} (h : Kept s) (same : Same s t) : Kept t := by
  refine ⟨?_, ?_⟩
  · rw [same.object]
    exact h.rows
  · rw [same.queue]
    exact h.queue

variable {getName : Text → Text}

theorem same_storeNewChart (s : Plugin) {chart : Text} (plain : '\'' ∉ getName chart) (scale : ℚ)
    (nativescale : ℤ) : Same s (storeNewChart getName s chart scale nativescale).1 := by
  unfold storeNewChart
  split_ifs
  · exact ⟨rfl, rfl⟩
  · show Same s (queryDB { s with chartLoading := chart }
      (insertChartSql (getName chart) scale nativescale))
    rw [queryDB_insertChartSql _ _ _ _ plain]
    exact ⟨rfl, rfl⟩

theorem same_storeNewFeature (s : Plugin) {feature : Text} (plain : '\'' ∉ feature) :
    Same s (storeNewFeature s feature).1 := by
  unfold storeNewFeature
  split_ifs
  · exact ⟨rfl, rfl⟩
  · show Same s (queryDB s (insertFeatureSql feature))
    rw [queryDB_insertFeatureSql _ _ plain]
    exact ⟨rfl, rfl⟩

theorem same_recordChart (s : Plugin) {n : Notification} (plain : '\'' ∉ chartName getName n) :
    Same s (recordChart getName s n) := by
  obtain ⟨object, queue⟩ := same_storeNewChart { s with waitForDB := true } plain n.scale
    n.nativescale
  exact ⟨object, queue⟩

theorem same_recordFeature (s : Plugin) {n : Notification} (plain : '\'' ∉ n.feature) :
    Same s (recordFeature s n.feature).1 := by
  obtain ⟨object, queue⟩ := same_storeNewFeature { s with waitForDB := true } plain
  exact ⟨object, queue⟩

theorem kept_storeNewObject {s : Plugin} (h : Kept s) (chart_id feature_id : ℤ) (objname : Text)
    (lat lon : ℚ) : Kept (storeNewObject s chart_id feature_id objname lat lon) := by
  unfold storeNewObject
  simp only
  split_ifs with unusable off long
  · exact h
  · exact h
  · refine ⟨h.rows, ?_⟩
    intro sql queued
    obtain old | new := List.mem_append.mp queued
    · exact h.queue sql old
    · have onMap := (offMap_eq_false_iff _ _).mp (Bool.eq_false_of_not_eq_true off)
      exact ⟨_, _, _, _, _, onMap, List.mem_singleton.mp new⟩
  · exact h

theorem kept_send {s : Plugin} {n : Notification} (h : Kept s)
    (plain : PlainInserts getName s n) : Kept (sendVectorChartObjectInfo getName s n) := by
  have charted (plain : getChartId getName s n.chart = 0 → '\'' ∉ chartName getName n) :
      Same s (if getChartId getName s n.chart = 0 then recordChart getName s n else s) := by
    split_ifs with zero
    · exact same_recordChart s (plain zero)
    · exact ⟨rfl, rfl⟩
  have featured (plain : getFeatureId s n.feature = 0 → '\'' ∉ n.feature) (t : Plugin) :
      Same t (if getFeatureId s n.feature = 0 then recordFeature t n.feature
        else (t, getFeatureId s n.feature)).1 := by
    split_ifs with zero
    · exact same_recordFeature t (plain zero)
    · exact ⟨rfl, rfl⟩
  have stored (t : Plugin × ℤ) (named : Kept t.1) : Kept (if n.chart = t.1.chartLoading then
      storeNewObject t.1 (getChartId getName s n.chart) t.2 n.objname n.lat n.lon else t.1) := by
    split_ifs
    · exact kept_storeNewObject named _ _ _ _ _
    · exact named
  unfold sendVectorChartObjectInfo
  split_ifs with ignored
  · exact h
  · simp only [Bool.or_eq_true, not_or, Bool.not_eq_true, Bool.not_eq_false'] at ignored
    obtain ⟨chart, feature⟩ := plain ignored.1 ignored.2
    exact stored _ (h.of_same ((charted chart).trans (featured feature _)))

theorem kept_serve {s : Plugin} (h : Kept s) : Kept (serve s) := by
  unfold serve
  cases queue : s.queryQueue with
  | nil => exact h
  | cons sql rest =>
    obtain ⟨chart_id, feature_id, objname, lat, lon, onMap, rfl⟩ :=
      h.queue sql (by rw [queue]; exact List.mem_cons_self)
    show Kept (queryDB { s with queryQueue := rest } _)
    rw [queryDB_insertObjectSql]
    refine ⟨?_, ?_⟩
    · intro r mem
      obtain old | new := List.mem_append.mp mem
      · exact h.rows r old
      · rw [List.mem_singleton.mp new]
        have written_onMap := onMap_written onMap
        exact ⟨_, _, rfl, rfl, written_onMap, onMap_written written_onMap⟩
    · intro sql later
      exact h.queue sql (by rw [queue]; exact List.mem_cons_of_mem _ later)

def Numeric (db : Database) : Prop :=
  ∀ r ∈ db.object.rows, r.2.lat.isSome = true ∧ r.2.lon.isSome = true

theorem kept_session {db : Database} (numeric : Numeric db) : Kept (session db) := by
  refine ⟨?_, ?_⟩
  · intro r mem
    have repaired : r ∈ (db.object.filterMap repair).rows := by
      rw [← initDB_object]
      exact mem
    obtain ⟨q, old, made⟩ := List.mem_filterMap.mp repaired
    obtain ⟨r', repairs, rfl⟩ := Option.map_eq_some_iff.mp made
    obtain ⟨some_lat, some_lon⟩ := numeric q old
    obtain ⟨lat, hlat⟩ := Option.isSome_iff_exists.mp some_lat
    obtain ⟨lon, hlon⟩ := Option.isSome_iff_exists.mp some_lon
    rw [repair_eq hlat hlon] at repairs
    split_ifs at repairs with off
    obtain rfl := Option.some.inj repairs
    have onMap : OnMap lat (wrapped lon) :=
      (offMap_eq_false_iff _ _).mp (Bool.eq_false_of_not_eq_true off)
    exact ⟨lat, wrapped lon, hlat, rfl, onMap, onMap_written onMap⟩
  · intro sql mem
    cases mem

theorem kept_run {s : Plugin} {as : List Action} (h : Kept s)
    (plain : PlainInsertsRun getName s as) : Kept (run getName s as) := by
  induction as generalizing s with
  | nil => exact h
  | cons a as ih =>
    cases a with
    | notify n => exact ih (kept_send h plain.1) plain.2
    | serve => exact ih (kept_serve h) plain

/-- The repair of a row is what StoreNewObject makes of its position, and a second repair changes
nothing; in every run whose names are free of apostrophes where they are inserted, every row is on
the map, and the distance function does not fail because of it. -/
theorem positions_onMap (getName : Text → Text) :
    (∀ (s : Plugin) (r : ObjectRow) (lat lon : ℚ) (chart_id feature_id : ℤ) (objname : Text),
      s.dbUsable = true → r.lat = some lat → r.lon = some lon →
        storeNewObject s chart_id feature_id objname lat lon =
          { s with queryQueue := s.queryQueue ++
              queuedFor chart_id feature_id objname (repair r) }) ∧
    (∀ db : Database, (initDB db).object = db.object.filterMap repair) ∧
    (∀ r : ObjectRow, (repair r).bind repair = repair r) ∧
    ∀ (db : Database) (as : List Action), Numeric db →
      PlainInsertsRun getName (session db) as →
        ∀ r ∈ (run getName (session db) as).db.object.rows, Located r.2 ∧
          ∀ (host : Host) (lat lon : ℚ), OnMap (written lat) (written lon) →
            ∃ v, distance host lat lon r.2 = .ok v := by
  refine ⟨?_, initDB_object, repair_repair, ?_⟩
  · intro s r lat lon chart_id feature_id objname usable hlat hlon
    exact storeNewObject_eq_repair usable chart_id feature_id objname hlat hlon
  · intro db as numeric plain r mem
    have located := (kept_run (kept_session numeric) plain).rows r mem
    exact ⟨located, fun host _ _ centre => distance_of_located located host centre⟩

def eastward : ObjectRow := ⟨none, none, none, some 10, some 190⟩

def oldDatabase : Database :=
  { Database.created with object := Database.created.object.insert eastward }

theorem positions_onMap_eastward :
    storeNewObject (session oldDatabase) 1 1 "Rock".toList 10 190 =
      { session oldDatabase with
        queryQueue := (session oldDatabase).queryQueue ++
          queuedFor 1 1 "Rock".toList (repair eastward) } ∧
    ∀ r ∈ (run posixName (session oldDatabase)
        [.notify ⟨"survey".toList, "ROCK".toList, "Rock".toList, 10, 20, 1, 1⟩,
          .serve]).db.object.rows, Located r.2 := by
  obtain ⟨stores, -, -, kept⟩ := positions_onMap posixName
  refine ⟨stores _ eastward 10 190 1 1 _ rfl rfl rfl, ?_⟩
  intro r mem
  refine (kept _ _ ?_ ?_ r mem).1
  · intro q old
    rw [List.mem_singleton.mp old]
    exact ⟨rfl, rfl⟩
  · exact PlainRun.inserts (by unfold PlainRun Plain; decide) _

/-- A feature name that closes its literal and goes on with a statement of its own. -/
def smuggling : Notification :=
  ⟨"survey".toList, "x'); INSERT INTO object(lat, lon) VALUES (91, 0); --".toList, "Rock".toList,
    10, 20, 1, 1⟩

/-- One notification is enough to put an object off the map. -/
theorem smuggled_row_is_off_the_map :
    ¬ ∀ (db : Database) (as : List Action), Numeric db →
      ∀ r ∈ (run posixName (session db) as).db.object.rows, Located r.2 := by
  intro h
  have row : (1, ⟨none, none, none, some 91, some 0⟩) ∈
      (run posixName (session .created) [.notify smuggling]).db.object.rows := by
    decide +kernel
  obtain ⟨lat, lon, hlat, -, onMap, -⟩ := h .created [.notify smuggling] (by intro r mem; cases mem)
    _ row
  obtain rfl := Option.some.inj hlat
  exact absurd onMap.1 (by decide +kernel)

end ObjSearch.Search.Positions
