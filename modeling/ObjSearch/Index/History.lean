/- Sessions over one database, each starting from what the one before left in the tables.
   digest: Caches and tables agree in every reachable state, and the objects of a chart are
   queued in the one session that recorded the chart. -/

import ObjSearch.Index.Queueing
import ObjSearch.Lib.NameIndex

set_option autoImplicit false
set_option relaxedAutoImplicit false

namespace ObjSearch.Index.History

open Std (ExtTreeMap)
open List (Forall₂)
open ObjSearch.Lib.Texts (Text)
open ObjSearch.Lib.Printf
open ObjSearch.Lib.Tables
open ObjSearch.Lib.Maps
open ObjSearch.Lib.FirstSeen
open ObjSearch.Lib.NameIndex
open ObjSearch.Index.Storage
open ObjSearch.Index.Notify
open ObjSearch.Index.Effect
open ObjSearch.Index.Session
open ObjSearch.Index.Queueing

/-- What a restart keeps: the tables. A new connection has inserted nothing yet. -/
def close (s : Plugin) : Database := { s.db with lastRowId := 0 }

/-- The plugin, and a record of which notifications its objects come from: those whose object
is in the table, and those whose object is in the queue. -/
structure Traced where
  plugin : Plugin
  stored : List Notification
  pending : List Notification

def start (db : Database) : Traced := ⟨session db, [], []⟩

variable (getName : Text → Text)

def Queues (s : Plugin) (n : Notification) : Prop :=
  (sendVectorChartObjectInfo getName s n).queryQueue ≠ s.queryQueue

instance (s : Plugin) (n : Notification) : Decidable (Queues getName s n) := by
  unfold Queues
  infer_instance

def tracedAct (t : Traced) : Action → Traced
  | .notify n => {
      plugin := act getName t.plugin (.notify n)
      stored := t.stored
      pending := if Queues getName t.plugin n then t.pending ++ [n] else t.pending }
  | .serve => {
      plugin := act getName t.plugin .serve
      stored := t.stored ++ t.pending.take 1
      pending := t.pending.tail }

/-- The statements still in the queue are lost. -/
def restart (t : Traced) : Traced := ⟨session (close t.plugin), t.stored, []⟩

def tracedRun (t : Traced) (as : List Action) : Traced := as.foldl (tracedAct getName) t

/-- Whole sessions, one after the other, and then the first actions of another one. -/
def history (db : Database) (ss : List (List Action)) (as : List Action) : Traced :=
  tracedRun getName (ss.foldl (fun t as => restart (tracedRun getName t as)) (start db)) as

structure ObjectOf (feature : AutoTable FeatureRow) (n : Notification) (row : ObjectRow) :
    Prop where
  storable : Storable n
  objname : row.objname = some n.objname
  lat : row.lat = some (written n.lat)
  lon : row.lon = some (written (wrapped n.lon))
  named : ∃ id, row.feature_id = some id ∧ (id, ⟨some n.feature⟩) ∈ feature.rows

structure Agree (t : Traced) : Prop where
  chartNames : (t.plugin.db.chart.rows.map (fun r => r.2.chartname)).Nodup
  featureNames : (t.plugin.db.feature.rows.map (fun r => r.2.featurename)).Nodup
  charts : ∀ (name : Text) (id : ℤ), (t.plugin.chartsInDb[name]?.map Chart.id = some id ↔
    ∃ r ∈ t.plugin.db.chart.rows, r.1 = id ∧ r.2.chartname = some name)
  features : ∀ (name : Text) (id : ℤ), (t.plugin.featuresInDb[name]? = some id ↔
    ∃ r ∈ t.plugin.db.feature.rows, r.1 = id ∧ r.2.featurename = some name)
  rebuiltCharts : ∀ name : Text, (restart t).plugin.chartsInDb[name]?.map Chart.id =
    t.plugin.chartsInDb[name]?.map Chart.id
  rebuiltFeatures : ∀ name : Text, (restart t).plugin.featuresInDb[name]? =
    t.plugin.featuresInDb[name]?
  chartId : ∀ chart, getChartId getName t.plugin chart = 0 ↔
    ∀ r ∈ t.plugin.db.chart.rows, r.2.chartname ≠ some (getName chart)
  featureId : ∀ feature, getFeatureId t.plugin feature = 0 ↔
    ∀ r ∈ t.plugin.db.feature.rows, r.2.featurename ≠ some feature
  stored : Forall₂ (ObjectOf t.plugin.db.feature) t.stored (t.plugin.db.object.rows.map Prod.snd)
  queued : Forall₂ (fun n sql => ∃ row, insertedObject sql = some row ∧
    ObjectOf t.plugin.db.feature n row) t.pending t.plugin.queryQueue

variable {getName}

def chartView (chart : AutoTable ChartRow) : List (ℤ × Option Text) :=
  chart.rows.map (fun r => (r.1, r.2.chartname))

def featureView (feature : AutoTable FeatureRow) : List (ℤ × Option Text) :=
  feature.rows.map (fun r => (r.1, r.2.featurename))

def chartIds (charts : ExtTreeMap Text Chart) : Text → Option ℤ :=
  fun name => charts[name]?.map Chart.id

def featureIds (features : ExtTreeMap Text ℤ) : Text → Option ℤ :=
  fun name => features[name]?.map id

/-- The invariant behind the agreement. -/
structure Sound (t : Traced) : Prop where
  ready : Ready t.plugin
  charts : Indexes (chartView t.plugin.db.chart) (chartIds t.plugin.chartsInDb)
  features : Indexes (featureView t.plugin.db.feature) (featureIds t.plugin.featuresInDb)
  stored : Forall₂ (ObjectOf t.plugin.db.feature) t.stored (t.plugin.db.object.rows.map Prod.snd)
  queued : Forall₂ (fun n sql => ∃ row, insertedObject sql = some row ∧
    ObjectOf t.plugin.db.feature n row) t.pending t.plugin.queryQueue

theorem ObjectOf.mono {feature feature' : AutoTable FeatureRow} {n : Notification}
    {row : ObjectRow} (h : ObjectOf feature n row) (kept : ∀ r ∈ feature.rows, r ∈ feature'.rows) :
    ObjectOf feature' n row := by
  obtain ⟨id, same, here⟩ := h.named
  exact ⟨h.storable, h.objname, h.lat, h.lon, id, same, kept _ here⟩

theorem indexes_chartsAfter {s : Plugin} {n : Notification}
    (h : Indexes (chartView s.db.chart) (chartIds s.chartsInDb)) :
    Indexes (chartView (chartTableAfter getName s n)) (chartIds (chartsAfter getName s n)) := by
  unfold chartTableAfter chartsAfter
  by_cases new : NewChart getName s n
  · have absent : chartIds s.chartsInDb (chartName getName n) = none := by
      rw [chartIds, ExtTreeMap.getElem?_eq_none new, Option.map_none]
    have recorded := h.insert s.db.chart.newId absent
    have cached : chartIds (s.chartsInDb.insert (chartName getName n) ⟨s.db.chart.newId,
        chartName getName n, n.scale, n.nativescale⟩) = Function.update (chartIds s.chartsInDb)
          (chartName getName n) (some s.db.chart.newId) :=
      map_getElem?_insert _ _ _ Chart.id
    rw [if_pos new, if_pos new, cached, chartView, AutoTable.rows_insert, List.map_append]
    exact recorded
  · rw [if_neg new, if_neg new]
    exact h

theorem indexes_featuresAfter {s : Plugin} {n : Notification}
    (h : Indexes (featureView s.db.feature) (featureIds s.featuresInDb)) :
    Indexes (featureView (featureTableAfter s n)) (featureIds (featuresAfter s n)) := by
  unfold featureTableAfter featuresAfter
  by_cases new : NewFeature s n
  · have absent : featureIds s.featuresInDb n.feature = none := by
      rw [featureIds, ExtTreeMap.getElem?_eq_none new, Option.map_none]
    have recorded := h.insert s.db.feature.newId absent
    have cached : featureIds (s.featuresInDb.insert n.feature s.db.feature.newId) =
        Function.update (featureIds s.featuresInDb) n.feature (some s.db.feature.newId) :=
      map_getElem?_insert _ _ _ id
    rw [if_pos new, if_pos new, cached, featureView, AutoTable.rows_insert, List.map_append]
    exact recorded
  · rw [if_neg new, if_neg new]
    exact h

theorem mem_featureTableAfter {s : Plugin} {n : Notification} {r : ℤ × FeatureRow}
    (h : r ∈ s.db.feature.rows) : r ∈ (featureTableAfter s n).rows := by
  unfold featureTableAfter
  split_ifs
  · exact List.mem_append_left _ h
  · exact h

theorem mem_featureIdAfter {s : Plugin} {n : Notification} (usable : s.dbUsable = true)
    (h : Indexes (featureView s.db.feature) (featureIds s.featuresInDb)) :
    (featureIdAfter s n, (⟨some n.feature⟩ : FeatureRow)) ∈ (featureTableAfter s n).rows := by
  unfold featureIdAfter featureTableAfter
  by_cases new : NewFeature s n
  · simp [new]
  · have known : n.feature ∈ s.featuresInDb := not_not.mp new
    obtain ⟨id, found⟩ := Option.isSome_iff_exists.mp
      (ExtTreeMap.mem_iff_isSome_getElem?.mp known)
    have cached : getFeatureId s n.feature = id := by
      simp only [getFeatureId, usable, found, Bool.not_true, Bool.false_eq_true, if_false]
    have indexed : featureIds s.featuresInDb n.feature = some id := by
      rw [featureIds, found]
      rfl
    obtain ⟨⟨rowid, ⟨name⟩⟩, hr, same⟩ := List.mem_map.mp ((h.found _ _).mp indexed)
    obtain ⟨rfl, rfl⟩ := Prod.mk.inj same
    rw [if_neg new, if_neg new, cached]
    exact hr

theorem objectOf_queued {s : Plugin} {n : Notification} {sql : Text} (usable : s.dbUsable = true)
    (h : Indexes (featureView s.db.feature) (featureIds s.featuresInDb))
    (here : sql ∈ queued getName s n) :
    ∃ row, insertedObject sql = some row ∧ ObjectOf (featureTableAfter s n) n row := by
  unfold queued at here
  split_ifs at here with loading
  · rw [List.mem_singleton.mp here]
    exact ⟨_, insertedObject_insertObjectSql _ _ _ _ _, loading.2, rfl, rfl, rfl, _, rfl,
      mem_featureIdAfter usable h⟩
  · cases here

theorem queues_iff {s : Plugin} {n : Notification} (ready : Ready s)
    (plain : PlainInserts getName s n) :
    Queues getName s n ↔ queued getName s n ≠ [] := by
  rw [Queues, send_queryQueue ready plain]
  simp

theorem sound_notify {t : Traced} {n : Notification} (sound : Sound t)
    (plain : PlainInserts getName t.plugin n) :
    Sound (tracedAct getName t (.notify n)) := by
  obtain ⟨s, stored, pending⟩ := t
  have ready := ready_send sound.ready plain
  have kept : ∀ r ∈ s.db.feature.rows, r ∈ (featureTableAfter s n).rows :=
    fun _ hr => mem_featureTableAfter hr
  have waiting : Forall₂ (fun n' sql => ∃ row, insertedObject sql = some row ∧
      ObjectOf (featureTableAfter s n) n' row) pending s.queryQueue :=
    sound.queued.imp fun _ _ ⟨row, inserted, object⟩ => ⟨row, inserted, object.mono kept⟩
  have queues := queues_iff sound.ready plain
  show Sound ⟨sendVectorChartObjectInfo getName s n, stored,
    if Queues getName s n then pending ++ [n] else pending⟩
  rw [send_eq sound.ready plain] at ready ⊢
  refine ⟨ready, indexes_chartsAfter sound.charts, indexes_featuresAfter sound.features,
    sound.stored.imp fun _ _ object => object.mono kept, ?_⟩
  by_cases none : queued getName s n = []
  · rw [none, List.append_nil, if_neg (fun grown => queues.mp grown none)]
    exact waiting
  · obtain ⟨sql, only⟩ : ∃ sql, queued getName s n = [sql] := by
      unfold queued at none ⊢
      split_ifs at none ⊢
      · exact ⟨_, rfl⟩
      · exact absurd rfl none
    have last := objectOf_queued sound.ready.usable sound.features
      (show sql ∈ queued getName s n by simp [only])
    rw [only, if_pos (queues.mpr none)]
    exact List.rel_append waiting (.cons last .nil)

theorem sound_serve {t : Traced} (sound : Sound t) : Sound (tracedAct getName t .serve) := by
  have ready := ready_serve sound.ready
  obtain ⟨s, stored, pending⟩ := t
  have waiting := sound.queued
  show Sound ⟨serve s, stored ++ pending.take 1, pending.tail⟩
  cases queue : s.queryQueue with
  | nil =>
    have idle : serve s = s := by simp [serve, queue]
    obtain rfl : pending = [] := by simpa [queue] using waiting
    rw [idle, List.take_nil, List.append_nil, List.tail_nil]
    exact sound
  | cons sql rest =>
    obtain ⟨c, f, name, lat, lon, rfl⟩ := sound.ready.queue sql (by simp [queue])
    rw [queue] at waiting
    obtain ⟨n, later, ⟨row, inserted, object⟩, others, rfl⟩ := List.forall₂_cons_right_iff.mp waiting
    rw [insertedObject_insertObjectSql, Option.some.injEq] at inserted
    have served : serve s = { s with
        queryQueue := rest
        db := { s.db with
          object := s.db.object.insert (objectRow c f name lat lon)
          lastRowId := s.db.object.nextId } } := by
      simp only [serve, queue]
      exact queryDB_insertObjectSql _ _ _ _ _ _
    rw [served] at ready ⊢
    refine ⟨ready, sound.charts, sound.features, ?_, others⟩
    rw [List.take_succ_cons, List.take_zero]
    show Forall₂ _ (stored ++ [n]) ((s.db.object.insert _).rows.map Prod.snd)
    rw [KeyedTable.rows_insert, List.map_append]
    exact List.rel_append sound.stored (.cons (inserted ▸ object) .nil)

theorem sound_tracedRun_inserts {t : Traced} {as : List Action} (sound : Sound t)
    (plain : PlainInsertsRun getName t.plugin as) : Sound (tracedRun getName t as) := by
  induction as generalizing t with
  | nil => exact sound
  | cons a as ih =>
    cases a with
    | notify n => exact ih (sound_notify sound plain.1) plain.2
    | serve => exact ih (sound_serve sound) plain

theorem sound_tracedRun {t : Traced} {as : List Action} (sound : Sound t)
    (plain : PlainRun getName as) : Sound (tracedRun getName t as) :=
  sound_tracedRun_inserts sound (plain.inserts _)

theorem offMap_eq_false_iff (lat lon : ℚ) :
    offMap lat lon = false ↔ |lat| ≤ 90 ∧ |lon| ≤ 180 := by
  simp only [offMap, Bool.or_eq_false_iff, decide_eq_false_iff_not, not_lt, abs_le]
  tauto

/-- The repairs at start-up leave an object on the map as it is. -/
theorem repairs_of_onMap {row : ObjectRow} {lat lon : ℚ} (hlat : row.lat = some lat)
    (hlon : row.lon = some lon) (onMap : |lat| ≤ 90 ∧ |lon| ≤ 180) :
    wrapEast row = row ∧ wrapWest row = row ∧ brokenObject row = false := by
  obtain ⟨⟨south, north⟩, west, east⟩ := And.imp abs_le.mp abs_le.mp onMap
  refine ⟨?_, ?_, ?_⟩
  · rw [wrapEast, if_neg (by simpa [hlon] using east)]
  · rw [wrapWest, if_neg (by simpa [hlon] using west)]
  · simp [brokenObject, hlat, hlon, south, north, west, east]

theorem ObjectOf.repairs {feature : AutoTable FeatureRow} {n : Notification} {row : ObjectRow}
    (h : ObjectOf feature n row) :
    wrapEast row = row ∧ wrapWest row = row ∧ brokenObject row = false := by
  obtain ⟨lat, lon⟩ := (offMap_eq_false_iff _ _).mp h.storable.2
  exact repairs_of_onMap h.lat h.lon ⟨abs_written_le lat, abs_written_le lon⟩

theorem initDB_eq_self {db : Database}
    (stored : ∀ r ∈ db.object.rows, wrapEast r.2 = r.2 ∧ wrapWest r.2 = r.2 ∧
      brokenObject r.2 = false) : initDB db = db := by
  have east : db.object.filterMap (fun r => some (wrapEast r)) = db.object :=
    KeyedTable.filterMap_eq_self fun r hr => by rw [(stored r hr).1]
  have west : db.object.filterMap (fun r => some (wrapWest r)) = db.object :=
    KeyedTable.filterMap_eq_self fun r hr => by rw [(stored r hr).2.1]
  have kept : db.object.filterMap (fun r => if brokenObject r then none else some r) = db.object :=
    KeyedTable.filterMap_eq_self fun r hr => by rw [(stored r hr).2.2]; rfl
  simp only [initDB, east, west, kept]

theorem sound_start : Sound (start Database.created) where
  ready := ready_session _
  charts := .empty
  features := .empty
  stored := .nil
  queued := .nil

theorem Sound.initDB_close {t : Traced} (sound : Sound t) :
    initDB (close t.plugin) = close t.plugin := by
  have repairs := (sound.stored.imp fun _ _ object => And.intro object.repairs trivial).flip
  have each := ((List.forall₂_and_left (R := fun _ _ => True) _ _).mp repairs).1
  exact initDB_eq_self fun r hr => each r.2 (List.mem_map_of_mem hr)

theorem indexes_loadCharts {chart : AutoTable ChartRow} {find : Text → Option ℤ}
    (h : Indexes (chartView chart) find) :
    Indexes (chartView chart) (chartIds (loadCharts chart.rows)) := by
  refine Indexes.load chart.rows Prod.fst (fun r => r.2.chartname)
    (fun r => r.2.chartname.getD []) _ Chart.id ?_ (fun _ _ => rfl) ?_
  · intro r hr
    have named := h.named _ (List.mem_map_of_mem (f := fun r => (r.1, r.2.chartname)) hr)
    obtain ⟨name, same⟩ := Option.ne_none_iff_exists'.mp named
    rw [show r.2.chartname = some name from same, Option.getD_some]
  · simpa only [chartView, List.map_map, Function.comp_def] using h.distinct

theorem indexes_loadFeatures {feature : AutoTable FeatureRow} {find : Text → Option ℤ}
    (h : Indexes (featureView feature) find) :
    Indexes (featureView feature) (featureIds (loadFeatures feature.rows)) := by
  refine Indexes.load feature.rows Prod.fst (fun r => r.2.featurename)
    (fun r => r.2.featurename.getD []) _ id ?_ (fun _ _ => rfl) ?_
  · intro r hr
    have named := h.named _ (List.mem_map_of_mem (f := fun r => (r.1, r.2.featurename)) hr)
    obtain ⟨name, same⟩ := Option.ne_none_iff_exists'.mp named
    rw [show r.2.featurename = some name from same, Option.getD_some]
  · simpa only [featureView, List.map_map, Function.comp_def] using h.distinct

theorem restart_eq {t : Traced} (sound : Sound t) :
    (restart t).plugin.db = close t.plugin ∧
      (restart t).plugin.chartsInDb = loadCharts t.plugin.db.chart.rows ∧
      (restart t).plugin.featuresInDb = loadFeatures t.plugin.db.feature.rows :=
  ⟨sound.initDB_close, rfl, rfl⟩

theorem sound_restart {t : Traced} (sound : Sound t) : Sound (restart t) := by
  obtain ⟨db, charts, features⟩ := restart_eq sound
  refine ⟨ready_session _, ?_, ?_, ?_, .nil⟩
  · rw [db, charts]
    exact indexes_loadCharts sound.charts
  · rw [db, features]
    exact indexes_loadFeatures sound.features
  · rw [db]
    exact sound.stored

theorem sound_history {ss : List (List Action)} {as : List Action}
    (earlier : ∀ bs ∈ ss, PlainRun getName bs) (plain : PlainRun getName as) :
    Sound (history getName Database.created ss as) := by
  refine sound_tracedRun ?_ plain
  induction ss using List.reverseRecOn with
  | nil => exact sound_start
  | append_singleton ss bs ih =>
    rw [List.foldl_append]
    have before := ih fun cs hcs => earlier cs (List.mem_append_left _ hcs)
    exact sound_restart (sound_tracedRun before (earlier bs (by simp)))

/-- In every reachable state of every sequence of sessions, caches, tables and queue agree. -/
theorem agree_history (ss : List (List Action)) (as : List Action)
    (earlier : ∀ bs ∈ ss, PlainRun getName bs) (plain : PlainRun getName as) :
    Agree getName (history getName Database.created ss as) := by
  have sound := sound_history earlier plain
  obtain ⟨db, charts, features⟩ := restart_eq sound
  generalize history getName Database.created ss as = t at sound db charts features
  refine ⟨?_, ?_, ?_, ?_, ?_, ?_, ?_, ?_, sound.stored, sound.queued⟩
  · simpa only [chartView, List.map_map, Function.comp_def] using sound.charts.distinct
  · simpa only [featureView, List.map_map, Function.comp_def] using sound.features.distinct
  · intro name id
    rw [show t.plugin.chartsInDb[name]?.map Chart.id = chartIds t.plugin.chartsInDb name from rfl,
      sound.charts.found]
    simp [chartView]
  · intro name id
    have := sound.features.found name id
    simpa [featureView, featureIds] using this
  · intro name
    rw [charts]
    exact congrFun (Indexes.unique (indexes_loadCharts sound.charts) sound.charts) name
  · intro name
    rw [features]
    have same := congrFun (Indexes.unique (indexes_loadFeatures sound.features) sound.features) name
    simpa only [featureIds, Option.map_id, id] using same
  · intro chart
    have absent := sound.charts.eq_none_iff (getName chart)
    rw [chartIds, Option.map_eq_none_iff, getElem?_eq_none_iff, chartView,
      List.forall_mem_map] at absent
    exact (getChartId_eq_zero_iff sound.ready chart).trans absent
  · intro feature
    have absent := sound.features.eq_none_iff feature
    rw [featureIds, Option.map_eq_none_iff, getElem?_eq_none_iff, featureView,
      List.forall_mem_map] at absent
    exact (getFeatureId_eq_zero_iff sound.ready feature).trans absent

theorem agree_history_alternatingRows :
    Agree posixName (history posixName Database.created [alternatingRows]
      (.serve :: alternatingRows)) :=
  agree_history _ _ (by unfold PlainRun Plain; decide) (by unfold PlainRun Plain; decide)

end ObjSearch.Index.History
