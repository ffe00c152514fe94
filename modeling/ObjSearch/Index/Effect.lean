/- What one notification changes, field by field.
   digest: With the database usable and plain names, a notification is one explicit update. -/

import ObjSearch.Index.Notify

set_option autoImplicit false
set_option relaxedAutoImplicit false

namespace ObjSearch.Index.Effect

open Std (ExtTreeMap)
open ObjSearch.Lib.Texts (Text)
open ObjSearch.Lib.Tables
open ObjSearch.Index.Storage
open ObjSearch.Index.Notify

def IsObjectInsert (sql : Text) : Prop :=
  ∃ chart_id feature_id objname lat lon,
    sql = insertObjectSql chart_id feature_id objname lat lon

/-- Notifications are answered, the queue holds object INSERTs only, and no cached id is
mistaken for "absent". -/
structure Ready (s : Plugin) : Prop where
  usable : s.dbUsable = true
  running : s.dbThreadRunning = true
  queue : ∀ sql ∈ s.queryQueue, IsObjectInsert sql
  chartIds : ∀ (name : Text) (ch : Chart), s.chartsInDb[name]? = some ch → 0 < ch.id
  featureIds : ∀ (name : Text) (id : ℤ), s.featuresInDb[name]? = some id → 0 < id

def Storable (n : Notification) : Prop :=
  1 < n.objname.length ∧ offMap n.lat (wrapped n.lon) = false

instance (n : Notification) : Decidable (Storable n) := by
  unfold Storable
  infer_instance

variable (getName : Text → Text)

def chartName (n : Notification) : Text := getName n.chart

/-- The names that reach an INSERT unescaped are free of apostrophes. -/
def Plain (n : Notification) : Prop := '\'' ∉ chartName getName n ∧ '\'' ∉ n.feature

/-- So are those that this notification, in this state, really sends in one. -/
def PlainInserts (s : Plugin) (n : Notification) : Prop :=
  s.dbUsable = true → s.dbThreadRunning = true →
    (getChartId getName s n.chart = 0 → '\'' ∉ chartName getName n) ∧
      (getFeatureId s n.feature = 0 → '\'' ∉ n.feature)

instance (s : Plugin) (n : Notification) : Decidable (PlainInserts getName s n) := by
  unfold PlainInserts
  infer_instance

def NewChart (s : Plugin) (n : Notification) : Prop := chartName getName n ∉ s.chartsInDb

def NewFeature (s : Plugin) (n : Notification) : Prop := n.feature ∉ s.featuresInDb

instance (s : Plugin) (n : Notification) : Decidable (NewChart getName s n) := by
  unfold NewChart
  infer_instance

instance (s : Plugin) (n : Notification) : Decidable (NewFeature s n) := by
  unfold NewFeature
  infer_instance

def loadingAfter (s : Plugin) (n : Notification) : Text :=
  if NewChart getName s n then n.chart else s.chartLoading

def chartsAfter (s : Plugin) (n : Notification) : ExtTreeMap Text Chart :=
  if NewChart getName s n then
    s.chartsInDb.insert (chartName getName n)
      ⟨s.db.chart.newId, chartName getName n, n.scale, n.nativescale⟩
  else s.chartsInDb

def featureIdAfter (s : Plugin) (n : Notification) : ℤ :=
  if NewFeature s n then s.db.feature.newId else getFeatureId s n.feature

def featuresAfter (s : Plugin) (n : Notification) : ExtTreeMap Text ℤ :=
  if NewFeature s n then s.featuresInDb.insert n.feature s.db.feature.newId else s.featuresInDb

def chartTableAfter (s : Plugin) (n : Notification) : AutoTable ChartRow :=
  if NewChart getName s n then
    s.db.chart.insert (chartRow (chartName getName n) n.scale n.nativescale)
  else s.db.chart

def featureTableAfter (s : Plugin) (n : Notification) : AutoTable FeatureRow :=
  if NewFeature s n then s.db.feature.insert ⟨some n.feature⟩ else s.db.feature

def lastRowIdAfter (s : Plugin) (n : Notification) : ℤ :=
  if NewFeature s n then s.db.feature.newId
  else if NewChart getName s n then s.db.chart.newId else s.db.lastRowId

/-- The text queued for the object, if any. -/
def queued (s : Plugin) (n : Notification) : List Text :=
  if n.chart = loadingAfter getName s n ∧ Storable n then
    [insertObjectSql (getChartId getName s n.chart) (featureIdAfter s n) n.objname n.lat
      (wrapped n.lon)]
  else []

variable {getName}

theorem Plain.inserts {s : Plugin} {n : Notification} (plain : Plain getName n) :
    PlainInserts getName s n :=
  fun _ _ => ⟨fun _ => plain.1, fun _ => plain.2⟩

theorem queryDB_insertChartSql (s : Plugin) (name : Text) (scale : ℚ) (nativescale : ℤ)
    (plain : '\'' ∉ name) :
    queryDB s (insertChartSql name scale nativescale) =
      { s with db := { s.db with
        chart := s.db.chart.insert (chartRow name scale nativescale)
        lastRowId := s.db.chart.newId } } := by
  rw [queryDB, executeUpdate_insertChartSql s.db name scale nativescale plain]

theorem queryDB_insertFeatureSql (s : Plugin) (name : Text) (plain : '\'' ∉ name) :
    queryDB s (insertFeatureSql name) =
      { s with db := { s.db with
        feature := s.db.feature.insert ⟨some name⟩
        lastRowId := s.db.feature.newId } } := by
  rw [queryDB, executeUpdate_insertFeatureSql s.db name plain]

theorem queryDB_insertObjectSql (s : Plugin) (chart_id feature_id : ℤ) (objname : Text)
    (lat lon : ℚ) :
    queryDB s (insertObjectSql chart_id feature_id objname lat lon) =
      { s with db := { s.db with
        object := s.db.object.insert (objectRow chart_id feature_id objname lat lon)
        lastRowId := s.db.object.nextId } } := by
  rw [queryDB, executeUpdate_insertObjectSql]

theorem recordChart_eq (s : Plugin) (n : Notification) (usable : s.dbUsable = true)
    (plain : '\'' ∉ getName n.chart) :
    recordChart getName s n =
      { s with
        waitForDB := false
        chartLoading := n.chart
        chartsInDb := s.chartsInDb.insert (getName n.chart)
          ⟨s.db.chart.newId, getName n.chart, n.scale, n.nativescale⟩
        db := { s.db with
          chart := s.db.chart.insert (chartRow (getName n.chart) n.scale n.nativescale)
          lastRowId := s.db.chart.newId } } := by
  simp only [recordChart, storeNewChart, usable, Bool.not_true, Bool.false_eq_true, if_false,
    queryDB_insertChartSql _ _ _ _ plain]

theorem recordFeature_eq (s : Plugin) (feature : Text) (usable : s.dbUsable = true)
    (plain : '\'' ∉ feature) :
    recordFeature s feature =
      ({ s with
        waitForDB := false
        featuresInDb := s.featuresInDb.insert feature s.db.feature.newId
        db := { s.db with
          feature := s.db.feature.insert ⟨some feature⟩
          lastRowId := s.db.feature.newId } }, s.db.feature.newId) := by
  simp only [recordFeature, storeNewFeature, usable, Bool.not_true, Bool.false_eq_true, if_false,
    queryDB_insertFeatureSql _ _ plain]

theorem storeNewObject_eq (s : Plugin) (chart_id feature_id : ℤ) (n : Notification)
    (usable : s.dbUsable = true) :
    storeNewObject s chart_id feature_id n.objname n.lat n.lon =
      { s with queryQueue := s.queryQueue ++
          if Storable n then
            [insertObjectSql chart_id feature_id n.objname n.lat (wrapped n.lon)]
          else [] } := by
  have guard : (!s.dbUsable) = false := by simp [usable]
  simp only [storeNewObject, guard, Bool.false_eq_true, if_false]
  by_cases off : offMap n.lat (wrapped n.lon) = true
  · have not_stored : ¬Storable n := fun h => by simp [h.2] at off
    rw [if_pos off, if_neg not_stored, List.append_nil]
  · by_cases long : 1 < n.objname.length
    · have stored : Storable n := ⟨long, by simpa using off⟩
      rw [if_neg off, if_pos long, if_pos stored]
    · have not_stored : ¬Storable n := fun h => long h.1
      rw [if_neg off, if_neg long, if_neg not_stored, List.append_nil]

theorem getChartId_eq_zero_iff {s : Plugin} (ready : Ready s) (chart : Text) :
    getChartId getName s chart = 0 ↔ getName chart ∉ s.chartsInDb := by
  rw [ExtTreeMap.mem_iff_isSome_getElem?]
  simp only [getChartId, ready.usable, Bool.not_true, Bool.false_eq_true, if_false]
  cases found : s.chartsInDb[getName chart]? with
  | none => simp
  | some ch =>
    have := ready.chartIds _ ch found
    simp
    omega

theorem getFeatureId_eq_zero_iff {s : Plugin} (ready : Ready s) (feature : Text) :
    getFeatureId s feature = 0 ↔ feature ∉ s.featuresInDb := by
  rw [ExtTreeMap.mem_iff_isSome_getElem?]
  simp only [getFeatureId, ready.usable, Bool.not_true, Bool.false_eq_true, if_false]
  cases found : s.featuresInDb[feature]? with
  | none => simp
  | some id =>
    have := ready.featureIds _ id found
    simp
    omega

private def withChart (getName : Text → Text) (s : Plugin) (n : Notification) : Plugin :=
  { s with
    waitForDB := if NewChart getName s n then false else s.waitForDB
    chartLoading := loadingAfter getName s n
    chartsInDb := chartsAfter getName s n
    db := { s.db with
      chart := chartTableAfter getName s n
      lastRowId := if NewChart getName s n then s.db.chart.newId else s.db.lastRowId } }

private theorem chart_stage {s : Plugin} {n : Notification} (ready : Ready s)
    (plain : getChartId getName s n.chart = 0 → '\'' ∉ chartName getName n) :
    (if getChartId getName s n.chart = 0 then recordChart getName s n else s) =
      withChart getName s n := by
  unfold withChart loadingAfter chartsAfter chartTableAfter
  by_cases new : NewChart getName s n
  · have zero := (getChartId_eq_zero_iff ready n.chart).mpr new
    rw [if_pos zero, recordChart_eq s n ready.usable (plain zero)]
    simp only [new, if_true]
    rfl
  · rw [if_neg (fun zero => new ((getChartId_eq_zero_iff ready n.chart).mp zero))]
    simp only [new, if_false]

private theorem feature_stage {s : Plugin} (t : Plugin) {n : Notification} (ready : Ready s)
    (plain : getFeatureId s n.feature = 0 → '\'' ∉ n.feature) (usable : t.dbUsable = true)
    (features : t.featuresInDb = s.featuresInDb) (table : t.db.feature = s.db.feature) :
    (if getFeatureId s n.feature = 0 then recordFeature t n.feature
      else (t, getFeatureId s n.feature)) =
      ({ t with
        waitForDB := if NewFeature s n then false else t.waitForDB
        featuresInDb := featuresAfter s n
        db := { t.db with
          feature := featureTableAfter s n
          lastRowId := if NewFeature s n then s.db.feature.newId else t.db.lastRowId } },
        featureIdAfter s n) := by
  unfold featuresAfter featureTableAfter featureIdAfter
  by_cases new : NewFeature s n
  · have zero := (getFeatureId_eq_zero_iff ready n.feature).mpr new
    rw [if_pos zero, recordFeature_eq t n.feature usable (plain zero), features, table]
    simp only [new, if_true]
  · rw [if_neg (fun zero => new ((getFeatureId_eq_zero_iff ready n.feature).mp zero))]
    simp only [new, if_false, ← features, ← table]

theorem send_eq {s : Plugin} {n : Notification} (ready : Ready s)
    (plain : PlainInserts getName s n) :
    sendVectorChartObjectInfo getName s n =
      { s with
        waitForDB := if NewFeature s n then false
          else if NewChart getName s n then false else s.waitForDB
        chartLoading := loadingAfter getName s n
        chartsInDb := chartsAfter getName s n
        featuresInDb := featuresAfter s n
        queryQueue := s.queryQueue ++ queued getName s n
        db := { s.db with
          chart := chartTableAfter getName s n
          feature := featureTableAfter s n
          lastRowId := lastRowIdAfter getName s n } } := by
  have guard : (!s.dbUsable || !s.dbThreadRunning) = false := by simp [ready.usable, ready.running]
  unfold sendVectorChartObjectInfo
  simp only [guard, Bool.false_eq_true, if_false]
  obtain ⟨plainChart, plainFeature⟩ := plain ready.usable ready.running
  rw [chart_stage ready plainChart,
    feature_stage (withChart getName s n) ready plainFeature ready.usable rfl rfl]
  by_cases loading : n.chart = loadingAfter getName s n
  · have text : queued getName s n = if Storable n then
        [insertObjectSql (getChartId getName s n.chart) (featureIdAfter s n) n.objname n.lat
          (wrapped n.lon)] else [] := by
      simp only [queued, ← loading, true_and]
    rw [if_pos (show n.chart = (withChart getName s n).chartLoading from loading), text]
    exact storeNewObject_eq _ _ _ _ ready.usable
  · have text : queued getName s n = [] := by simp only [queued, loading, false_and, if_false]
    rw [if_neg (show n.chart ≠ (withChart getName s n).chartLoading from loading), text,
      List.append_nil]
    rfl

end ObjSearch.Index.Effect
