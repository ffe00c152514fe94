/- The two clients of the connection as one.
   digest: Where no rowid is disturbed, every interleaving leaves what its notifications and its
   executed statements leave one after the other, each taken as a whole. -/

import ObjSearch.Index.Origins
import ObjSearch.Thread.Connection

set_option autoImplicit false
set_option relaxedAutoImplicit false

namespace ObjSearch.Thread.Sequential

open List (Forall₂)
open ObjSearch.Lib.Texts (Text)
open ObjSearch.Lib.NameIndex
open ObjSearch.Lib.Runs
open ObjSearch.Index.Storage
open ObjSearch.Index.Notify
open ObjSearch.Index.Effect
open ObjSearch.Index.Session
open ObjSearch.Index.Queueing (posixName insertedObject)
open ObjSearch.Index.History
open ObjSearch.Index.OneSession (plugin_tracedRun)
open ObjSearch.Index.Origins (sublist_tracedRun)
open ObjSearch.Thread.DbThread (ThreadAt)
open ObjSearch.Thread.Connection (State UiAt Label step uiStep threadStep notifyStep afterChart
  objectWaits restOfNotification Phase HoldsInsert Inv Undisturbed inv_step inv_start
  undisturbed_of_calmRun objectBeforeInsert exec_objectBeforeInsert calmRun_objectBeforeInsert)

variable (getName : Text → Text)

def storeIfLoading (s : Plugin) (n : Notification) (chart_id feature_id : ℤ) : Plugin :=
  if n.chart = s.chartLoading then storeNewObject s chart_id feature_id n.objname n.lat n.lon
  else s

def afterInsertChart (s : Plugin) (n : Notification) (chart_id feature_id : ℤ) (ch : Chart) :
    Plugin :=
  restOfNotification { s with chartsInDb := s.chartsInDb.insert ch.name ch, waitForDB := false } n
    chart_id feature_id

def afterInsertFeature (s : Plugin) (n : Notification) (chart_id feature_id : ℤ) : Plugin :=
  storeIfLoading { s with
    featuresInDb := s.featuresInDb.insert n.feature feature_id, waitForDB := false } n chart_id
    feature_id

def finish (s : Plugin) : UiAt → Plugin
  | .idle => s
  | .insertChart n chart_id feature_id =>
    let (s, ch) := storeNewChart getName s n.chart n.scale n.nativescale
    afterInsertChart s n chart_id feature_id ch
  | .lastRowOfChart n chart_id feature_id => afterInsertChart s n chart_id feature_id
      ⟨s.db.lastRowId, getName n.chart, n.scale, n.nativescale⟩
  | .recordChart n chart_id feature_id ch => afterInsertChart s n chart_id feature_id ch
  | .insertFeature n chart_id =>
    let (s, feature_id) := storeNewFeature s n.feature
    afterInsertFeature s n chart_id feature_id
  | .lastRowOfFeature n chart_id => afterInsertFeature s n chart_id s.db.lastRowId
  | .recordFeature n chart_id feature_id => afterInsertFeature s n chart_id feature_id
  | .storeObject n chart_id feature_id => storeIfLoading s n chart_id feature_id

/-- The statement in the thread's hand is still the first of the queue. -/
def putBack (thread : ThreadAt) (s : Plugin) : Plugin :=
  { s with queryQueue := thread.inHand ++ s.queryQueue }

def settled (s : State) : Plugin := finish getName (putBack s.thread s.plugin) s.ui

/-- A notification takes effect where the host delivers it, unless it is ignored, and a queued
statement where the thread executes it. -/
def actionsOf (s : State) : Label → List Action
  | .notify n => if s.plugin.dbThreadRunning then [.notify n] else []
  | .ui => []
  | .dbThread => match s.thread with
    | .queryDB _ => [.serve]
    | _ => []

def sequential (s : State) : List Label → List Action
  | [] => []
  | l :: ls => actionsOf s l ++ match step getName s l with
    | some s' => sequential s' ls
    | none => []

/-- The same but for the object table, the flags and registers, and some statements more at the head
of the second queue. -/
structure Apart (more : List Text) (p q : Plugin) : Prop where
  usable : q.dbUsable = p.dbUsable
  loading : q.chartLoading = p.chartLoading
  charts : q.chartsInDb = p.chartsInDb
  features : q.featuresInDb = p.featuresInDb
  queue : q.queryQueue = more ++ p.queryQueue
  chart : q.db.chart = p.db.chart
  feature : q.db.feature = p.db.feature

structure Like (p q : Plugin) : Prop where
  apart : Apart [] p q
  object : q.db.object = p.db.object

variable {getName}

/-! The steps of a notification add up to the whole. -/

theorem finish_afterChart (s : Plugin) (n : Notification) (chart_id feature_id : ℤ) :
    finish getName (afterChart s n chart_id feature_id).1 (afterChart s n chart_id feature_id).2 =
      restOfNotification s n chart_id feature_id := by
  unfold afterChart restOfNotification
  by_cases zero : feature_id = 0
  · rw [if_pos zero, if_pos zero]
    rfl
  · rw [if_neg zero, if_neg zero]
    rfl

theorem finish_notifyStep (s : Plugin) (n : Notification) :
    finish getName (notifyStep getName s n).1 (notifyStep getName s n).2 =
      sendVectorChartObjectInfo getName s n := by
  simp only [notifyStep, sendVectorChartObjectInfo]
  by_cases ignored : (!s.dbUsable || !s.dbThreadRunning) = true
  · rw [if_pos ignored, if_pos ignored]
    rfl
  rw [if_neg ignored, if_neg ignored]
  by_cases zero : getChartId getName s n.chart = 0
  · rw [if_pos zero, if_pos zero]
    rfl
  · rw [if_neg zero, if_neg zero, finish_afterChart]
    rfl

theorem finish_uiStep {s s' : Plugin} {ui ui' : UiAt}
    (taken : uiStep getName s ui = some (s', ui')) :
    finish getName s' ui' = finish getName s ui := by
  cases ui with
  | idle => cases taken
  | insertChart n chart_id feature_id =>
    simp only [uiStep] at taken
    simp only [finish, storeNewChart]
    split_ifs at taken ⊢ <;> obtain ⟨rfl, rfl⟩ := Prod.mk.inj (Option.some.inj taken) <;> rfl
  | lastRowOfChart n chart_id feature_id =>
    obtain ⟨rfl, rfl⟩ := Prod.mk.inj (Option.some.inj taken)
    rfl
  | recordChart n chart_id feature_id ch =>
    have whole := @finish_afterChart getName
      { s with chartsInDb := s.chartsInDb.insert ch.name ch, waitForDB := false } n chart_id
      feature_id
    obtain ⟨rfl, rfl⟩ := Prod.mk.inj (Option.some.inj taken)
    exact whole
  | insertFeature n chart_id =>
    simp only [uiStep] at taken
    simp only [finish, storeNewFeature]
    split_ifs at taken ⊢ <;> obtain ⟨rfl, rfl⟩ := Prod.mk.inj (Option.some.inj taken) <;> rfl
  | lastRowOfFeature n chart_id =>
    obtain ⟨rfl, rfl⟩ := Prod.mk.inj (Option.some.inj taken)
    rfl
  | recordFeature n chart_id feature_id =>
    obtain ⟨rfl, rfl⟩ := Prod.mk.inj (Option.some.inj taken)
    rfl
  | storeObject n chart_id feature_id =>
    simp only [uiStep] at taken
    simp only [finish, storeIfLoading]
    split_ifs at taken with other waits
    · obtain ⟨rfl, rfl⟩ := Prod.mk.inj (Option.some.inj taken)
      rw [if_neg other]
    · obtain ⟨rfl, rfl⟩ := Prod.mk.inj (Option.some.inj taken)
      rfl
    · obtain ⟨rfl, rfl⟩ := Prod.mk.inj (Option.some.inj taken)
      rw [if_pos (not_not.mp other)]

/-! The UI thread never looks at the queue. -/

theorem queryDB_queue (s : Plugin) (queue : List Text) (sql : Text) :
    queryDB { s with queryQueue := queue } sql = { queryDB s sql with queryQueue := queue } := by
  unfold queryDB
  cases s.db.executeUpdate sql <;> rfl

theorem putBack_queryDB (thread : ThreadAt) (s : Plugin) (sql : Text) :
    queryDB (putBack thread s) sql = putBack thread (queryDB s sql) := by
  have kept : (queryDB s sql).queryQueue = s.queryQueue := by
    unfold queryDB
    cases s.db.executeUpdate sql <;> rfl
  rw [putBack, putBack, queryDB_queue, kept]

theorem afterChart_putBack (thread : ThreadAt) (s : Plugin) (n : Notification)
    (chart_id feature_id : ℤ) :
    afterChart (putBack thread s) n chart_id feature_id =
      (putBack thread (afterChart s n chart_id feature_id).1,
        (afterChart s n chart_id feature_id).2) := by
  unfold afterChart
  split_ifs <;> rfl

theorem notifyStep_putBack (thread : ThreadAt) (s : Plugin) (n : Notification) :
    notifyStep getName (putBack thread s) n =
      (putBack thread (notifyStep getName s n).1, (notifyStep getName s n).2) := by
  have charts : getChartId getName (putBack thread s) n.chart = getChartId getName s n.chart := rfl
  have features : getFeatureId (putBack thread s) n.feature = getFeatureId s n.feature := rfl
  simp only [notifyStep, charts, features]
  rw [show (putBack thread s).dbUsable = s.dbUsable from rfl,
    show (putBack thread s).dbThreadRunning = s.dbThreadRunning from rfl]
  split_ifs
  · rfl
  · rfl
  · exact afterChart_putBack thread s n _ _

theorem storeNewObject_putBack (thread : ThreadAt) (s : Plugin) (chart_id feature_id : ℤ)
    (objname : Text) (lat lon : ℚ) :
    storeNewObject (putBack thread s) chart_id feature_id objname lat lon =
      putBack thread (storeNewObject s chart_id feature_id objname lat lon) := by
  simp only [storeNewObject]
  rw [show (putBack thread s).dbUsable = s.dbUsable from rfl]
  split_ifs
  · rfl
  · rfl
  · simp only [putBack, List.append_assoc]
  · rfl

theorem uiStep_putBack {thread : ThreadAt} {s s' : Plugin} {ui ui' : UiAt}
    (taken : uiStep getName s ui = some (s', ui')) :
    uiStep getName (putBack thread s) ui = some (putBack thread s', ui') := by
  have usable : (putBack thread s).dbUsable = s.dbUsable := rfl
  cases ui with
  | idle => cases taken
  | insertChart n chart_id feature_id =>
    simp only [uiStep] at taken ⊢
    rw [usable]
    split_ifs at taken ⊢
    · obtain ⟨rfl, rfl⟩ := Prod.mk.inj (Option.some.inj taken)
      rfl
    · obtain ⟨rfl, rfl⟩ := Prod.mk.inj (Option.some.inj taken)
      rw [← putBack_queryDB]
      rfl
  | recordChart n chart_id feature_id ch =>
    have moved := afterChart_putBack thread
      { s with chartsInDb := s.chartsInDb.insert ch.name ch, waitForDB := false } n chart_id
      feature_id
    obtain ⟨rfl, rfl⟩ := Prod.mk.inj (Option.some.inj taken)
    exact congrArg some moved
  | insertFeature n chart_id =>
    simp only [uiStep] at taken ⊢
    rw [usable]
    split_ifs at taken ⊢
    · obtain ⟨rfl, rfl⟩ := Prod.mk.inj (Option.some.inj taken)
      rfl
    · obtain ⟨rfl, rfl⟩ := Prod.mk.inj (Option.some.inj taken)
      rw [← putBack_queryDB]
  | storeObject n chart_id feature_id =>
    have waits : objectWaits (putBack thread s) n = objectWaits s n := rfl
    have loading : (putBack thread s).chartLoading = s.chartLoading := rfl
    simp only [uiStep, waits, loading] at taken ⊢
    split_ifs at taken ⊢
    · obtain ⟨rfl, rfl⟩ := Prod.mk.inj (Option.some.inj taken)
      rfl
    · obtain ⟨rfl, rfl⟩ := Prod.mk.inj (Option.some.inj taken)
      rfl
    · obtain ⟨rfl, rfl⟩ := Prod.mk.inj (Option.some.inj taken)
      rw [storeNewObject_putBack]
  | lastRowOfChart | lastRowOfFeature | recordFeature =>
    obtain ⟨rfl, rfl⟩ := Prod.mk.inj (Option.some.inj taken)
    rfl

/-! What is done to the object table and to the queue meanwhile makes no difference to what is left
of a notification, unless a rowid is awaited. -/

theorem Apart.refl (p : Plugin) : Apart [] p p := ⟨rfl, rfl, rfl, rfl, rfl, rfl, rfl⟩

theorem apart_storeIfLoading {more : List Text} {p q : Plugin} (h : Apart more p q)
    (usable : p.dbUsable = true) (n : Notification) (chart_id feature_id : ℤ) :
    Apart more (storeIfLoading p n chart_id feature_id)
        (storeIfLoading q n chart_id feature_id) ∧
      (storeIfLoading p n chart_id feature_id).db.object = p.db.object ∧
      (storeIfLoading q n chart_id feature_id).db.object = q.db.object := by
  unfold storeIfLoading
  rw [h.loading]
  by_cases same : n.chart = p.chartLoading
  · rw [if_pos same, if_pos same, storeNewObject_eq p _ _ _ usable,
      storeNewObject_eq q _ _ _ (h.usable.trans usable)]
    refine ⟨⟨h.usable, h.loading, h.charts, h.features, ?_, h.chart, h.feature⟩, rfl, rfl⟩
    simp only [h.queue, List.append_assoc]
  · rw [if_neg same, if_neg same]
    exact ⟨h, rfl, rfl⟩

theorem apart_afterInsertFeature {more : List Text} {p q : Plugin} (h : Apart more p q)
    (usable : p.dbUsable = true) (n : Notification) (chart_id feature_id : ℤ) :
    Apart more (afterInsertFeature p n chart_id feature_id)
        (afterInsertFeature q n chart_id feature_id) ∧
      (afterInsertFeature p n chart_id feature_id).db.object = p.db.object ∧
      (afterInsertFeature q n chart_id feature_id).db.object = q.db.object := by
  have recorded : Apart more
      { p with featuresInDb := p.featuresInDb.insert n.feature feature_id, waitForDB := false }
      { q with featuresInDb := q.featuresInDb.insert n.feature feature_id, waitForDB := false } :=
    ⟨h.usable, h.loading, h.charts, congrArg (fun m => m.insert n.feature feature_id) h.features,
      h.queue, h.chart, h.feature⟩
  exact apart_storeIfLoading recorded usable n chart_id feature_id

theorem storeNewFeature_eq (s : Plugin) (feature : Text) (usable : s.dbUsable = true)
    (plain : '\'' ∉ feature) :
    storeNewFeature s feature =
      ({ s with db := { s.db with
        feature := s.db.feature.insert ⟨some feature⟩
        lastRowId := s.db.feature.newId } }, s.db.feature.newId) := by
  simp only [storeNewFeature, usable, Bool.not_true, Bool.false_eq_true, if_false,
    queryDB_insertFeatureSql _ _ plain]

theorem storeNewChart_eq (s : Plugin) (n : Notification) (usable : s.dbUsable = true)
    (plain : '\'' ∉ getName n.chart) :
    storeNewChart getName s n.chart n.scale n.nativescale =
      ({ s with
        chartLoading := n.chart
        db := { s.db with
          chart := s.db.chart.insert (chartRow (getName n.chart) n.scale n.nativescale)
          lastRowId := s.db.chart.newId } },
        ⟨s.db.chart.newId, getName n.chart, n.scale, n.nativescale⟩) := by
  simp only [storeNewChart, usable, Bool.not_true, Bool.false_eq_true, if_false,
    queryDB_insertChartSql _ _ _ _ plain]

theorem apart_insertFeature {more : List Text} {p q : Plugin} (h : Apart more p q)
    (usable : p.dbUsable = true) {n : Notification} (plain : '\'' ∉ n.feature) (chart_id : ℤ) :
    Apart more (finish getName p (.insertFeature n chart_id))
        (finish getName q (.insertFeature n chart_id)) ∧
      (finish getName p (.insertFeature n chart_id)).db.object = p.db.object ∧
      (finish getName q (.insertFeature n chart_id)).db.object = q.db.object := by
  simp only [finish, storeNewFeature_eq p _ usable plain,
    storeNewFeature_eq q _ (h.usable.trans usable) plain, h.feature]
  have inserted : Apart more
      { p with db := { p.db with
        feature := p.db.feature.insert ⟨some n.feature⟩, lastRowId := p.db.feature.newId } }
      { q with db := { q.db with
        feature := p.db.feature.insert ⟨some n.feature⟩, lastRowId := p.db.feature.newId } } :=
    ⟨h.usable, h.loading, h.charts, h.features, h.queue, h.chart, rfl⟩
  exact apart_afterInsertFeature inserted usable n chart_id _

theorem apart_restOfNotification {more : List Text} {p q : Plugin} (h : Apart more p q)
    (usable : p.dbUsable = true) {n : Notification} {feature_id : ℤ}
    (plain : feature_id = 0 → '\'' ∉ n.feature) (chart_id : ℤ) :
    Apart more (restOfNotification p n chart_id feature_id)
        (restOfNotification q n chart_id feature_id) ∧
      (restOfNotification p n chart_id feature_id).db.object = p.db.object ∧
      (restOfNotification q n chart_id feature_id).db.object = q.db.object := by
  have p_eq := (@finish_afterChart id p n chart_id feature_id).symm
  have q_eq := (@finish_afterChart id q n chart_id feature_id).symm
  rw [p_eq, q_eq]
  unfold afterChart
  by_cases zero : feature_id = 0
  · simp only [if_pos zero]
    have flagged : Apart more { p with waitForDB := true } { q with waitForDB := true } :=
      ⟨h.usable, h.loading, h.charts, h.features, h.queue, h.chart, h.feature⟩
    exact apart_insertFeature flagged usable (plain zero) chart_id
  · simp only [if_neg zero]
    exact apart_storeIfLoading h usable n chart_id feature_id

theorem apart_afterInsertChart {more : List Text} {p q : Plugin} (h : Apart more p q)
    (usable : p.dbUsable = true) {n : Notification} {feature_id : ℤ}
    (plain : feature_id = 0 → '\'' ∉ n.feature) (chart_id : ℤ) (ch : Chart) :
    Apart more (afterInsertChart p n chart_id feature_id ch)
        (afterInsertChart q n chart_id feature_id ch) ∧
      (afterInsertChart p n chart_id feature_id ch).db.object = p.db.object ∧
      (afterInsertChart q n chart_id feature_id ch).db.object = q.db.object := by
  have recorded : Apart more
      { p with chartsInDb := p.chartsInDb.insert ch.name ch, waitForDB := false }
      { q with chartsInDb := q.chartsInDb.insert ch.name ch, waitForDB := false } :=
    ⟨h.usable, h.loading, congrArg (fun m => m.insert ch.name ch) h.charts, h.features,
      h.queue, h.chart, h.feature⟩
  exact apart_restOfNotification recorded usable plain chart_id

theorem apart_finish {more : List Text} {p q : Plugin} {ui : UiAt} (h : Apart more p q)
    (usable : p.dbUsable = true) (phase : Phase getName p.db ui) (calm : ui.awaitsRowId = false) :
    Apart more (finish getName p ui) (finish getName q ui) ∧
      (finish getName p ui).db.object = p.db.object ∧
      (finish getName q ui).db.object = q.db.object := by
  cases ui with
  | idle => exact ⟨h, rfl, rfl⟩
  | insertChart n chart_id feature_id =>
    have plain : '\'' ∉ getName n.chart := phase.1
    simp only [finish, storeNewChart_eq p n usable plain,
      storeNewChart_eq q n (h.usable.trans usable) plain, h.chart]
    have inserted : Apart more
        { p with
          chartLoading := n.chart
          db := { p.db with
            chart := p.db.chart.insert (chartRow (getName n.chart) n.scale n.nativescale)
            lastRowId := p.db.chart.newId } }
        { q with
          chartLoading := n.chart
          db := { q.db with
            chart := p.db.chart.insert (chartRow (getName n.chart) n.scale n.nativescale)
            lastRowId := p.db.chart.newId } } :=
      ⟨h.usable, rfl, h.charts, h.features, h.queue, rfl, h.feature⟩
    exact apart_afterInsertChart inserted usable phase.2 chart_id _
  | lastRowOfChart | lastRowOfFeature => cases calm
  | recordChart n chart_id feature_id ch =>
    exact apart_afterInsertChart h usable phase.1 chart_id ch
  | insertFeature n chart_id => exact apart_insertFeature h usable phase chart_id
  | recordFeature n chart_id feature_id =>
    exact apart_afterInsertFeature h usable n chart_id feature_id
  | storeObject n chart_id feature_id => exact apart_storeIfLoading h usable n chart_id feature_id

/-! Each action takes like states to like states. -/

theorem Like.refl (p : Plugin) : Like p p := ⟨.refl p, rfl⟩

theorem Like.ready {p q : Plugin} (h : Like p q) (ready : Ready q)
    (running : p.dbThreadRunning = true) : Ready p where
  usable := h.apart.usable.symm.trans ready.usable
  running := running
  queue sql here := ready.queue sql (by rwa [h.apart.queue])
  chartIds name ch found := ready.chartIds name ch (by rwa [h.apart.charts])
  featureIds name id found := ready.featureIds name id (by rwa [h.apart.features])

theorem Like.plainInserts {p q : Plugin} {n : Notification} (h : Like p q)
    (running : p.dbThreadRunning = true) (plain : PlainInserts getName p n) :
    PlainInserts getName q n := by
  intro usable _
  have chartIds : getChartId getName q n.chart = getChartId getName p n.chart := by
    simp only [getChartId, h.apart.charts, h.apart.usable]
  have featureIds : getFeatureId q n.feature = getFeatureId p n.feature := by
    simp only [getFeatureId, h.apart.features, h.apart.usable]
  rw [chartIds, featureIds]
  exact plain (h.apart.usable.symm.trans usable) running

theorem like_send {p q : Plugin} {n : Notification} (h : Like p q) (ready : Ready q)
    (running : p.dbThreadRunning = true) (plain : PlainInserts getName p n) :
    Like (sendVectorChartObjectInfo getName p n) (sendVectorChartObjectInfo getName q n) := by
  have plain' := h.plainInserts running plain
  have ready' := h.ready ready running
  obtain ⟨⟨usable, loading, charts, features, queue, chart, feature⟩, object⟩ := h
  have loadings : loadingAfter getName q n = loadingAfter getName p n := by
    simp only [loadingAfter, NewChart, charts, loading]
  have featureIds : featureIdAfter q n = featureIdAfter p n := by
    simp only [featureIdAfter, NewFeature, getFeatureId, features, feature, usable]
  have chartIds : getChartId getName q n.chart = getChartId getName p n.chart := by
    simp only [getChartId, charts, usable]
  rw [send_eq ready plain', send_eq ready' plain]
  refine ⟨⟨usable, loadings, ?_, ?_, ?_, ?_, ?_⟩, object⟩
  · simp only [chartsAfter, NewChart, charts, chart]
  · simp only [featuresAfter, NewFeature, features, feature]
  · simp only [queued, loadings, chartIds, featureIds, queue, List.nil_append]
  · simp only [chartTableAfter, NewChart, charts, chart]
  · simp only [featureTableAfter, NewFeature, features, feature]

theorem like_serve {p q : Plugin} (h : Like p q) (ready : Ready q) : Like (serve p) (serve q) := by
  have same : q.queryQueue = p.queryQueue := h.apart.queue
  cases queue : q.queryQueue with
  | nil =>
    have p_idle : serve p = p := by simp [serve, ← same, queue]
    have q_idle : serve q = q := by simp [serve, queue]
    rw [p_idle, q_idle]
    exact h
  | cons sql rest =>
    obtain ⟨chart_id, feature_id, objname, lat, lon, rfl⟩ := ready.queue sql (by simp [queue])
    rw [serve_insert queue, serve_insert (same ▸ queue)]
    exact ⟨⟨h.apart.usable, h.apart.loading, h.apart.charts, h.apart.features, rfl, h.apart.chart,
      h.apart.feature⟩, by rw [h.object]⟩

theorem Like.trans {p q r : Plugin} (h : Like p q) (h' : Like q r) : Like p r :=
  ⟨⟨h'.apart.usable.trans h.apart.usable, h'.apart.loading.trans h.apart.loading,
    h'.apart.charts.trans h.apart.charts, h'.apart.features.trans h.apart.features,
    h'.apart.queue.trans h.apart.queue, h'.apart.chart.trans h.apart.chart,
    h'.apart.feature.trans h.apart.feature⟩, h'.object.trans h.object⟩

/-- The thread executes the statement in its hand, perhaps in the middle of a notification: between
whole actions, that is to serve the queue. -/
theorem like_queryDB {s : State} {sql : Text} (inv : Inv getName s)
    (here : s.thread = .queryDB sql) (calm : s.ui.awaitsRowId = false) :
    Like (finish getName (queryDB s.plugin sql) s.ui) (serve (settled getName s)) := by
  obtain ⟨plugin, ui, thread⟩ := s
  obtain rfl : thread = .queryDB sql := here
  obtain ⟨chart_id, feature_id, objname, lat, lon, rfl⟩ := inv.inHand
  have usable : plugin.dbUsable = true := inv.usable
  have phase : Phase getName plugin.db ui := inv.phase
  let row := objectRow chart_id feature_id objname lat lon
  let executed : Plugin := { plugin with db := { plugin.db with
    object := plugin.db.object.insert row, lastRowId := plugin.db.object.nextId } }
  let sql := insertObjectSql chart_id feature_id objname lat lon
  -- what is left of the notification is compared with what would be left without the statement
  have waiting := @apart_finish getName [sql] plugin (putBack (.queryDB sql) plugin) ui
    ⟨rfl, rfl, rfl, rfl, rfl, rfl, rfl⟩ usable phase calm
  have after := @apart_finish getName [] plugin executed ui
    ⟨rfl, rfl, rfl, rfl, rfl, rfl, rfl⟩ usable phase calm
  have queue : (settled getName ⟨plugin, ui, .queryDB sql⟩).queryQueue =
      sql :: (finish getName plugin ui).queryQueue := waiting.1.queue
  have served : queryDB plugin sql = executed := queryDB_insertObjectSql _ _ _ _ _ _
  show Like (finish getName (queryDB plugin sql) ui) _
  rw [served, serve_insert queue]
  refine ⟨⟨waiting.1.usable.trans after.1.usable.symm, waiting.1.loading.trans
    after.1.loading.symm, waiting.1.charts.trans after.1.charts.symm, waiting.1.features.trans
    after.1.features.symm, after.1.queue.symm, waiting.1.chart.trans after.1.chart.symm,
    waiting.1.feature.trans after.1.feature.symm⟩, ?_⟩
  show (settled getName ⟨plugin, ui, .queryDB sql⟩).db.object.insert row = _
  rw [after.2.2, show (settled getName ⟨plugin, ui, .queryDB sql⟩).db.object = plugin.db.object
    from waiting.2.2]

def Early (s : State) : Prop :=
  s.thread = .setRunning → s.ui = .idle ∧ s.plugin.dbThreadRunning = false

theorem like_threadStep {s s' : State} (taken : step getName s .dbThread = some s')
    (early : Early s) (other : ∀ sql, s.thread ≠ .queryDB sql) :
    Like (settled getName s') (settled getName s) := by
  obtain ⟨plugin, ui, thread⟩ := s
  obtain ⟨⟨plugin', thread'⟩, result, rfl⟩ := Option.map_eq_some_iff.mp taken
  cases thread with
  | setRunning =>
    obtain ⟨rfl, -⟩ := early rfl
    obtain ⟨rfl, rfl⟩ := Prod.mk.inj (Option.some.inj result)
    exact ⟨⟨rfl, rfl, rfl, rfl, rfl, rfl, rfl⟩, rfl⟩
  | hasQueries =>
    obtain ⟨rfl, rfl⟩ := Prod.mk.inj (Option.some.inj result)
    simp only [settled]
    split_ifs <;> exact .refl _
  | getQuery =>
    obtain ⟨usable, running, waits, loading, charts, features, pending, db⟩ := plugin
    cases pending with
    | nil => cases result
    | cons sql rest =>
      obtain ⟨rfl, rfl⟩ := Prod.mk.inj (Option.some.inj result)
      exact .refl _
  | queryDB sql => exact absurd rfl (other sql)
  | testDestroy | beginTransaction | setWriting | commitTransaction | clearWriting | sleep =>
    obtain ⟨rfl, rfl⟩ := Prod.mk.inj (Option.some.inj result)
    exact .refl _
  | _ => cases result

theorem notifyStep_ignored {s : Plugin} (stopped : s.dbThreadRunning = false) (n : Notification) :
    notifyStep getName s n = (s, .idle) := by
  have ignored : (!s.dbUsable || !s.dbThreadRunning) = true := by
    rw [stopped, Bool.not_false, Bool.or_true]
  simp only [notifyStep, ignored, if_true]

theorem early_step {s s' : State} {l : Label} (early : Early s)
    (taken : step getName s l = some s') : Early s' := by
  obtain ⟨plugin, ui, thread⟩ := s
  cases l with
  | notify n =>
    cases ui with
    | idle =>
      obtain rfl := Option.some.inj taken
      intro starting
      have stopped := (early starting).2
      have kept := @notifyStep_ignored getName plugin stopped n
      exact ⟨congrArg Prod.snd kept, (congrArg (fun r => r.1.dbThreadRunning) kept).trans stopped⟩
    | _ => cases taken
  | ui =>
    intro starting
    obtain ⟨⟨plugin', ui'⟩, result, rfl⟩ := Option.map_eq_some_iff.mp taken
    rw [(early starting).1] at result
    cases result
  | dbThread =>
    intro starting
    obtain ⟨⟨plugin', thread'⟩, result, rfl⟩ := Option.map_eq_some_iff.mp taken
    obtain rfl : thread' = .setRunning := starting
    cases thread with
    | hasQueries =>
      have next := (Prod.mk.inj (Option.some.inj result)).2
      split_ifs at next
    | getQuery =>
      simp only [threadStep] at result
      split at result
      · cases result
      · cases (Prod.mk.inj (Option.some.inj result)).2
    | _ => cases result

theorem like_step_notify {plugin q : Plugin} {thread : ThreadAt} {n : Notification}
    (ready : Ready q) (like : Like (settled getName ⟨plugin, .idle, thread⟩) q)
    (calm : Undisturbed getName ⟨plugin, .idle, thread⟩ (.notify n)) :
    Like (settled getName ⟨(notifyStep getName plugin n).1, (notifyStep getName plugin n).2, thread⟩)
        (run getName q (actionsOf ⟨plugin, .idle, thread⟩ (.notify n))) ∧
      Ready (run getName q (actionsOf ⟨plugin, .idle, thread⟩ (.notify n))) ∧
      PlainInsertsRun getName q (actionsOf ⟨plugin, .idle, thread⟩ (.notify n)) := by
  have whole : settled getName ⟨(notifyStep getName plugin n).1, (notifyStep getName plugin n).2,
      thread⟩ = sendVectorChartObjectInfo getName (putBack thread plugin) n := by
    rw [← finish_notifyStep, notifyStep_putBack]
    rfl
  rw [whole]
  by_cases running : plugin.dbThreadRunning = true
  · have actions : actionsOf ⟨plugin, .idle, thread⟩ (.notify n) = [.notify n] := if_pos running
    have plain := like.plainInserts running calm
    rw [actions]
    exact ⟨like_send like ready running calm, ready_send ready plain, plain, trivial⟩
  · have actions : actionsOf ⟨plugin, .idle, thread⟩ (.notify n) = [] := if_neg running
    have stopped : (putBack thread plugin).dbThreadRunning = false :=
      Bool.eq_false_iff.mpr running
    have ignored : sendVectorChartObjectInfo getName (putBack thread plugin) n =
        putBack thread plugin := by
      rw [← finish_notifyStep, notifyStep_ignored stopped]
      rfl
    rw [actions, ignored]
    exact ⟨like, ready, trivial⟩

theorem like_step_dbThread {s s' : State} {q : Plugin} (inv : Inv getName s) (early : Early s)
    (ready : Ready q) (like : Like (settled getName s) q) (calm : Undisturbed getName s .dbThread)
    (taken : step getName s .dbThread = some s') :
    Like (settled getName s') (run getName q (actionsOf s .dbThread)) ∧
      Ready (run getName q (actionsOf s .dbThread)) ∧
      PlainInsertsRun getName q (actionsOf s .dbThread) := by
  by_cases executes : ∃ sql, s.thread = .queryDB sql
  · obtain ⟨sql, here⟩ := executes
    have actions : actionsOf s .dbThread = [.serve] := by simp only [actionsOf, here]
    have next : s' = { s with plugin := queryDB s.plugin sql, thread := .hasQueries } := by
      simp only [step, here, threadStep, Option.map_some] at taken
      exact (Option.some.inj taken).symm
    rw [actions, next]
    have served := like_queryDB inv here (calm sql here)
    exact ⟨served.trans (like_serve like ready), ready_serve ready, trivial⟩
  · have actions : actionsOf s .dbThread = [] := by
      simp only [actionsOf]
      split
      · next sql here => exact absurd ⟨sql, here⟩ executes
      · rfl
    rw [actions]
    exact ⟨(like_threadStep taken early (not_exists.mp executes)).trans like, ready, trivial⟩

/-- One step of the run is as many actions as it counts for, one or none. -/
theorem like_step {s s' : State} {l : Label} {q : Plugin} (inv : Inv getName s) (early : Early s)
    (ready : Ready q) (like : Like (settled getName s) q) (calm : Undisturbed getName s l)
    (taken : step getName s l = some s') :
    Like (settled getName s') (run getName q (actionsOf s l)) ∧
      Ready (run getName q (actionsOf s l)) ∧ PlainInsertsRun getName q (actionsOf s l) := by
  cases l with
  | notify n =>
    obtain ⟨plugin, ui, thread⟩ := s
    cases ui with
    | idle =>
      obtain rfl := Option.some.inj taken
      exact like_step_notify ready like calm
    | _ => cases taken
  | ui =>
    obtain ⟨⟨plugin', ui'⟩, result, rfl⟩ := Option.map_eq_some_iff.mp taken
    have same : settled getName { s with plugin := plugin', ui := ui' } = settled getName s :=
      finish_uiStep (uiStep_putBack result)
    rw [same]
    exact ⟨like, ready, trivial⟩
  | dbThread => exact like_step_dbThread inv early ready like calm taken

theorem like_exec {s s' : State} {ls : List Label} {q : Plugin} (inv : Inv getName s)
    (early : Early s) (ready : Ready q) (like : Like (settled getName s) q)
    (taken : exec (step getName) s ls = some s')
    (calm : ∀ p l r t, ls = p ++ l :: r → exec (step getName) s p = some t →
      Undisturbed getName t l) :
    Like (settled getName s') (run getName q (sequential getName s ls)) ∧
      PlainInsertsRun getName q (sequential getName s ls) := by
  induction ls generalizing s q with
  | nil =>
    obtain rfl := Option.some.inj taken
    exact ⟨like, trivial⟩
  | cons l ls ih =>
    obtain ⟨t, first, rest⟩ := Option.bind_eq_some_iff.mp taken
    have quiet := calm [] l ls s rfl rfl
    obtain ⟨like', ready', plain⟩ := like_step inv early ready like quiet first
    have split : sequential getName s (l :: ls) = actionsOf s l ++ sequential getName t ls := by
      rw [sequential, first]
    rw [split, run_append]
    have later (p : List Label) (k : Label) (r : List Label) (u : State) (parts : ls = p ++ k :: r)
        (reached : exec (step getName) t p = some u) : Undisturbed getName u k :=
      calm (l :: p) k r u (by rw [parts]; rfl) ((exec_cons first p).trans reached)
    obtain ⟨like'', plain'⟩ :=
      ih (inv_step inv quiet first) (early_step early first) ready' like' rest later
    exact ⟨like'', plain.append plain'⟩

/-- From whatever database the plugin starts. -/
theorem like_start {db : Database} {ls : List Label} {s : State}
    (taken : exec (step getName) (.start db) ls = some s)
    (calm : ∀ p l q t, ls = p ++ l :: q → exec (step getName) (.start db) p = some t →
      Undisturbed getName t l) :
    Like (settled getName s) (run getName (session db) (sequential getName (.start db) ls)) ∧
      PlainInsertsRun getName (session db) (sequential getName (.start db) ls) := by
  have early : Early (.start db) := fun _ => ⟨rfl, rfl⟩
  have like : Like (settled getName (.start db)) (session db) :=
    ⟨⟨rfl, rfl, rfl, rfl, rfl, rfl, rfl⟩, rfl⟩
  exact like_exec (inv_start db) early (ready_session db) like taken calm

theorem settled_of_idle {s : State} (idle : s.ui = .idle) :
    settled getName s = putBack s.thread s.plugin := by
  rw [settled, idle]
  rfl

/-- Whatever database the plugin starts from: an interleaving in which no rowid is disturbed leaves
caches, tables and queue as its notifications and executed statements do, each taken as a whole in
the order in which they take effect; a notification on the way is completed and a statement in the
thread's hand put back. -/
theorem like_sequential (db : Database) (ls : List Label) (s : State)
    (taken : exec (step getName) (.start db) ls = some s)
    (calm : ∀ p l q t, ls = p ++ l :: q → exec (step getName) (.start db) p = some t →
      Undisturbed getName t l) :
    Like (settled getName s) (run getName (session db) (sequential getName (.start db) ls)) :=
  (like_start taken calm).1

/-! From the created database, what is known of one party holds of the two. -/

/-- What caches, tables and the statements on their way have to do with the notifications. -/
structure Kept (s : State) (ns : List Notification) : Prop where
  charts : Indexes (chartView s.plugin.db.chart) (chartIds s.plugin.chartsInDb)
  features : Indexes (featureView s.plugin.db.feature) (featureIds s.plugin.featuresInDb)
  objects : ∃ stored pending, (stored ++ pending).Sublist ns ∧
    Forall₂ (ObjectOf s.plugin.db.feature) stored (s.plugin.db.object.rows.map Prod.snd) ∧
    Forall₂ (fun n sql => ∃ row, insertedObject sql = some row ∧
      ObjectOf s.plugin.db.feature n row) pending (s.thread.inHand ++ s.plugin.queryQueue)

/-- Whenever no notification is on its way: the caches hold the ids of the tables, each name once,
and the objects in the table, in the thread's hand and in the queue are those of notifications of
the run, in order and each at most once. -/
theorem kept_of_undisturbed (ls : List Label) (s : State)
    (taken : exec (step getName) (.start .created) ls = some s)
    (calm : ∀ p l q t, ls = p ++ l :: q → exec (step getName) (.start .created) p = some t →
      Undisturbed getName t l) (idle : s.ui = .idle) :
    Kept s (notifications (sequential getName (.start .created) ls)) := by
  obtain ⟨like, plain⟩ := like_start taken calm
  have sound := sound_tracedRun_inserts sound_start plain
  have sublist := @sublist_tracedRun getName (start .created)
    (sequential getName (.start .created) ls)
  have plugin := @plugin_tracedRun getName (start .created)
    (sequential getName (.start .created) ls)
  rw [settled_of_idle idle, show session .created = (start .created).plugin from rfl, ← plugin]
    at like
  generalize tracedRun getName (start .created) _ = t at like sound sublist
  obtain ⟨⟨-, -, charts, features, queue, chart, feature⟩, object⟩ := like
  have stored := sound.stored
  have queued := sound.queued
  rw [feature, object] at stored
  rw [feature, queue] at queued
  refine ⟨?_, ?_, t.stored, t.pending, sublist, stored, queued⟩
  · have indexed := sound.charts
    rw [chart, charts] at indexed
    exact indexed
  · have indexed := sound.features
    rw [feature, features] at indexed
    exact indexed

theorem like_sequential_objectBeforeInsert :
    ∃ s, exec (step posixName) (.start .created) objectBeforeInsert = some s ∧
      Like (settled posixName s) (run posixName (session .created)
        (sequential posixName (.start .created) objectBeforeInsert)) := by
  obtain ⟨s, taken, -⟩ := exec_objectBeforeInsert
  exact ⟨s, taken, like_sequential .created objectBeforeInsert s taken
    (undisturbed_of_calmRun calmRun_objectBeforeInsert)⟩

theorem kept_of_undisturbed_objectBeforeInsert :
    ∃ s, exec (step posixName) (.start .created) objectBeforeInsert = some s ∧
      Kept s (notifications (sequential posixName (.start .created) objectBeforeInsert)) := by
  obtain ⟨s, taken, idle⟩ := exec_objectBeforeInsert
  exact ⟨s, taken, kept_of_undisturbed objectBeforeInsert s taken
    (undisturbed_of_calmRun calmRun_objectBeforeInsert) idle⟩

end ObjSearch.Thread.Sequential
