/- Two clients of one connection: the UI thread records charts and features while the DB thread
   executes the queue.
   digest: The recorded ids are those of the rows just inserted, as long as no queued INSERT is
   executed between an INSERT of the UI thread and its `GetLastRowId`. -/

import ObjSearch.Index.Queueing
import ObjSearch.Thread.DbThread

set_option autoImplicit false
set_option relaxedAutoImplicit false

namespace ObjSearch.Thread.Connection

open Std (ExtTreeMap)
open ObjSearch.Lib.Texts (Text)
open ObjSearch.Lib.Tables
open ObjSearch.Lib.Maps
open ObjSearch.Lib.Runs
open ObjSearch.Index.Storage
open ObjSearch.Index.Notify
open ObjSearch.Index.Effect
open ObjSearch.Index.Session (session)
open ObjSearch.Index.Queueing (posixName)
open ObjSearch.Thread.DbThread (ThreadAt)

/-- Where the UI thread is in SendVectorChartObjectInfo, with the locals it still needs. -/
inductive UiAt where
  | idle
  | insertChart (n : Notification) (chart_id feature_id : ℤ)
  | lastRowOfChart (n : Notification) (chart_id feature_id : ℤ)
  | recordChart (n : Notification) (chart_id feature_id : ℤ) (ch : Chart)
  | insertFeature (n : Notification) (chart_id : ℤ)
  | lastRowOfFeature (n : Notification) (chart_id : ℤ)
  | recordFeature (n : Notification) (chart_id feature_id : ℤ)
  | storeObject (n : Notification) (chart_id feature_id : ℤ)
deriving DecidableEq

structure State where
  plugin : Plugin
  ui : UiAt
  thread : ThreadAt

def State.start (db : Database) : State := ⟨init db, .idle, .setRunning⟩

inductive Label where
  /-- the host calls SendVectorChartObjectInfo -/
  | notify (n : Notification)
  | ui
  | dbThread
deriving DecidableEq

variable (getName : Text → Text)

/-- The test of `feature_id`, once the chart is settled. -/
def afterChart (s : Plugin) (n : Notification) (chart_id feature_id : ℤ) : Plugin × UiAt :=
  if feature_id = 0 then ({ s with waitForDB := true }, .insertFeature n chart_id)
  else (s, .storeObject n chart_id feature_id)

/-- The guard, the two lookups and the test of `chart_id`. -/
def notifyStep (s : Plugin) (n : Notification) : Plugin × UiAt :=
  if !s.dbUsable || !s.dbThreadRunning then (s, .idle)
  else
    let chart_id := getChartId getName s n.chart
    let feature_id := getFeatureId s n.feature
    if chart_id = 0 then ({ s with waitForDB := true }, .insertChart n chart_id feature_id)
    else afterChart s n chart_id feature_id

/-- StoreNewObject waits here, after its early returns. -/
def objectWaits (s : Plugin) (n : Notification) : Bool :=
  s.dbUsable && !offMap n.lat (wrapped n.lon) && s.waitForDB

/-- Each request to the connection is a step of its own. -/
def uiStep (s : Plugin) : UiAt → Option (Plugin × UiAt)
  | .idle => none
  | .insertChart n chart_id feature_id =>
    if !s.dbUsable then some (s, .recordChart n chart_id feature_id .unset)
    else
      let s := { s with chartLoading := n.chart }
      some (queryDB s (insertChartSql (getName n.chart) n.scale n.nativescale),
        .lastRowOfChart n chart_id feature_id)
  | .lastRowOfChart n chart_id feature_id =>
    some (s, .recordChart n chart_id feature_id
      ⟨s.db.lastRowId, getName n.chart, n.scale, n.nativescale⟩)
  | .recordChart n chart_id feature_id ch =>
    some (afterChart { s with chartsInDb := s.chartsInDb.insert ch.name ch, waitForDB := false } n
      chart_id feature_id)
  | .insertFeature n chart_id =>
    if !s.dbUsable then some (s, .recordFeature n chart_id (-1))
    else some (queryDB s (insertFeatureSql n.feature), .lastRowOfFeature n chart_id)
  | .lastRowOfFeature n chart_id => some (s, .recordFeature n chart_id s.db.lastRowId)
  | .recordFeature n chart_id feature_id =>
    some ({ s with featuresInDb := s.featuresInDb.insert n.feature feature_id, waitForDB := false },
      .storeObject n chart_id feature_id)
  | .storeObject n chart_id feature_id =>
    if n.chart ≠ s.chartLoading then some (s, .idle)
    else if objectWaits s n then some (s, .storeObject n chart_id feature_id)
    else some (storeNewObject s chart_id feature_id n.objname n.lat n.lon, .idle)

/-- The loop of `DbThread::Entry`; nobody asks the thread to end here. -/
def threadStep (s : Plugin) : ThreadAt → Option (Plugin × ThreadAt)
  | .setRunning => some (threadStarted s, .testDestroy)
  | .testDestroy => some (s, .beginTransaction)
  | .beginTransaction => some (queryDB s "BEGIN TRANSACTION".toList, .setWriting)
  | .setWriting => some (s, .hasQueries)
  | .hasQueries => some (s, if s.queryQueue = [] then .commitTransaction else .getQuery)
  | .getQuery => match s.queryQueue with
    | [] => none
    | sql :: rest => some ({ s with queryQueue := rest }, .queryDB sql)
  | .queryDB sql => some (queryDB s sql, .hasQueries)
  | .commitTransaction => some (queryDB s "COMMIT TRANSACTION".toList, .clearWriting)
  | .clearWriting => some (s, .sleep)
  | .sleep => some (s, .testDestroy)
  | _ => none

def step (s : State) : Label → Option State
  | .notify n =>
    match s.ui with
    | .idle =>
      let (plugin, ui) := notifyStep getName s.plugin n
      some { s with plugin := plugin, ui := ui }
    | _ => none
  | .ui => (uiStep getName s.plugin s.ui).map fun (plugin, ui) =>
      { s with plugin := plugin, ui := ui }
  | .dbThread => (threadStep s.plugin s.thread).map fun (plugin, thread) =>
      { s with plugin := plugin, thread := thread }

def NewestChart (db : Database) (id : ℤ) (name : Text) : Prop :=
  ∃ row, db.chart.rows.getLast? = some (id, row) ∧ row.chartname = some name

def NewestFeature (db : Database) (id : ℤ) (name : Text) : Prop :=
  ∃ row, db.feature.rows.getLast? = some (id, row) ∧ row.featurename = some name

structure CachesRight (s : Plugin) : Prop where
  charts : ∀ (name : Text) (ch : Chart), s.chartsInDb[name]? = some ch →
    ∃ r ∈ s.db.chart.rows, r.1 = ch.id ∧ r.2.chartname.getD [] = name
  features : ∀ (name : Text) (id : ℤ), s.featuresInDb[name]? = some id →
    ∃ r ∈ s.db.feature.rows, r.1 = id ∧ r.2.featurename.getD [] = name

/-- What is about to be recorded is the row just inserted. -/
def RecordsNewest (db : Database) : UiAt → Prop
  | .recordChart n _ _ ch => ch.name = chartName getName n ∧ NewestChart db ch.id ch.name
  | .recordFeature n _ feature_id => NewestFeature db feature_id n.feature
  | _ => True

def IdsRight (s : State) : Prop :=
  CachesRight s.plugin ∧ RecordsNewest getName s.plugin.db s.ui

def UiAt.awaitsRowId : UiAt → Bool
  | .lastRowOfChart .. | .lastRowOfFeature .. => true
  | _ => false

/-- The step does not execute a queued INSERT while a rowid is awaited, and does not bring a
name with an apostrophe that is to be inserted. -/
def Undisturbed (s : State) : Label → Prop
  | .notify n => PlainInserts getName s.plugin n
  | .ui => True
  | .dbThread => ∀ sql, s.thread = .queryDB sql → s.ui.awaitsRowId = false

/-- What the UI thread relies on where it is. -/
def Phase (db : Database) : UiAt → Prop
  | .idle => True
  | .insertChart n _ feature_id =>
    '\'' ∉ chartName getName n ∧ (feature_id = 0 → '\'' ∉ n.feature)
  | .lastRowOfChart n _ feature_id =>
    (feature_id = 0 → '\'' ∉ n.feature) ∧ NewestChart db db.lastRowId (chartName getName n)
  | .recordChart n _ feature_id ch => (feature_id = 0 → '\'' ∉ n.feature) ∧
      ch.name = chartName getName n ∧ NewestChart db ch.id ch.name
  | .insertFeature n _ => '\'' ∉ n.feature
  | .lastRowOfFeature n _ => NewestFeature db db.lastRowId n.feature
  | .recordFeature n _ feature_id => NewestFeature db feature_id n.feature
  | .storeObject .. => True

def HoldsInsert : ThreadAt → Prop
  | .queryDB sql => IsObjectInsert sql
  | _ => True

structure Inv (s : State) : Prop where
  usable : s.plugin.dbUsable = true
  queue : ∀ sql ∈ s.plugin.queryQueue, IsObjectInsert sql
  inHand : HoldsInsert s.thread
  caches : CachesRight s.plugin
  phase : Phase getName s.plugin.db s.ui

variable {getName}

theorem Inv.idsRight {s : State} (h : Inv getName s) : IdsRight getName s := by
  obtain ⟨plugin, ui, thread⟩ := s
  refine ⟨h.caches, ?_⟩
  cases ui with
  | recordChart n chart_id feature_id ch => exact h.phase.2
  | recordFeature n chart_id feature_id => exact h.phase
  | _ => trivial

theorem CachesRight.grow {s s' : Plugin} (h : CachesRight s)
    (charts : s'.chartsInDb = s.chartsInDb) (features : s'.featuresInDb = s.featuresInDb)
    (chart : ∀ r ∈ s.db.chart.rows, r ∈ s'.db.chart.rows)
    (feature : ∀ r ∈ s.db.feature.rows, r ∈ s'.db.feature.rows) : CachesRight s' := by
  refine ⟨?_, ?_⟩
  · intro name ch found
    rw [charts] at found
    obtain ⟨r, hr, same⟩ := h.charts name ch found
    exact ⟨r, chart r hr, same⟩
  · intro name id found
    rw [features] at found
    obtain ⟨r, hr, same⟩ := h.features name id found
    exact ⟨r, feature r hr, same⟩

theorem cachesRight_recordChart {s : Plugin} {name : Text} {ch : Chart} {b : Bool}
    (h : CachesRight s) (newest : NewestChart s.db ch.id name) :
    CachesRight { s with chartsInDb := s.chartsInDb.insert name ch, waitForDB := b } := by
  refine ⟨?_, h.features⟩
  intro other found here
  by_cases same : name = other
  · subst same
    rw [ExtTreeMap.getElem?_insert_self, Option.some.injEq] at here
    obtain ⟨row, last, named⟩ := newest
    exact ⟨_, List.mem_of_getLast? last, by rw [here], by rw [named, Option.getD_some]⟩
  · rw [getElem?_insert_ne ch same] at here
    exact h.charts other found here

theorem cachesRight_recordFeature {s : Plugin} {name : Text} {id : ℤ} {b : Bool}
    (h : CachesRight s) (newest : NewestFeature s.db id name) :
    CachesRight { s with featuresInDb := s.featuresInDb.insert name id, waitForDB := b } := by
  refine ⟨h.charts, ?_⟩
  intro other found here
  by_cases same : name = other
  · subst same
    rw [ExtTreeMap.getElem?_insert_self, Option.some.injEq] at here
    obtain ⟨row, last, named⟩ := newest
    exact ⟨_, List.mem_of_getLast? last, by rw [here], by rw [named, Option.getD_some]⟩
  · rw [getElem?_insert_ne id same] at here
    exact h.features other found here

theorem inv_start (db : Database) : Inv getName (.start db) := by
  refine ⟨rfl, ?_, trivial, ⟨?_, ?_⟩, trivial⟩
  · intro sql h
    cases h
  · intro name ch found
    rcases exists_row_of_getElem?_fill found with ⟨r, hr, named, rfl⟩ | old
    · exact ⟨r, hr, rfl, named⟩
    · simp at old
  · intro name id found
    rcases exists_row_of_getElem?_fill found with ⟨r, hr, named, rfl⟩ | old
    · exact ⟨r, hr, rfl, named⟩
    · simp at old

theorem inv_afterChart {s : Plugin} {thread : ThreadAt} {n : Notification} {feature_id : ℤ}
    (h : Inv getName ⟨s, .idle, thread⟩) (plain : feature_id = 0 → '\'' ∉ n.feature)
    (chart_id : ℤ) :
    Inv getName ⟨(afterChart s n chart_id feature_id).1, (afterChart s n chart_id feature_id).2,
      thread⟩ := by
  unfold afterChart
  split_ifs with zero
  · exact ⟨h.usable, h.queue, h.inHand, ⟨h.caches.charts, h.caches.features⟩, plain zero⟩
  · exact ⟨h.usable, h.queue, h.inHand, h.caches, trivial⟩

theorem plain_of_not_ignored {s : Plugin} {n : Notification} (plain : PlainInserts getName s n)
    (heard : ¬(!s.dbUsable || !s.dbThreadRunning) = true) :
    (getChartId getName s n.chart = 0 → '\'' ∉ chartName getName n) ∧
      (getFeatureId s n.feature = 0 → '\'' ∉ n.feature) := by
  simp only [Bool.or_eq_true, not_or, Bool.not_eq_true, Bool.not_eq_false'] at heard
  exact plain heard.1 heard.2

theorem inv_notify {s s' : State} {n : Notification} (h : Inv getName s)
    (plain : PlainInserts getName s.plugin n) (taken : step getName s (.notify n) = some s') :
    Inv getName s' := by
  obtain ⟨plugin, ui, thread⟩ := s
  cases ui with
  | idle =>
    obtain rfl := Option.some.inj taken
    show Inv getName ⟨(notifyStep getName plugin n).1, (notifyStep getName plugin n).2, thread⟩
    dsimp only [notifyStep]
    split_ifs with ignored zero
    · exact h
    · obtain ⟨chart, feature⟩ := plain_of_not_ignored plain ignored
      exact ⟨h.usable, h.queue, h.inHand, ⟨h.caches.charts, h.caches.features⟩, chart zero, feature⟩
    · exact inv_afterChart h (plain_of_not_ignored plain ignored).2 _
  | _ => cases taken

theorem inv_uiStep {s s' : State} (h : Inv getName s) (taken : step getName s .ui = some s') :
    Inv getName s' := by
  obtain ⟨plugin, ui, thread⟩ := s
  obtain ⟨usable, queue, inHand, caches, phase⟩ := h
  obtain ⟨⟨plugin', ui'⟩, result, rfl⟩ := Option.map_eq_some_iff.mp taken
  have guard : (!plugin.dbUsable) = false := by
    rw [show plugin.dbUsable = true from usable]
    rfl
  cases ui with
  | idle => cases result
  | insertChart n chart_id feature_id =>
    simp only [uiStep, guard, Bool.false_eq_true, if_false, Option.some.injEq, Prod.mk.injEq,
      queryDB_insertChartSql _ _ _ _ (show '\'' ∉ getName n.chart from phase.1)] at result
    obtain ⟨rfl, rfl⟩ := result
    exact ⟨usable, queue, inHand, caches.grow rfl rfl (fun _ => List.mem_append_left _)
      (fun _ hr => hr), phase.2, _, List.getLast?_concat, rfl⟩
  | lastRowOfChart n chart_id feature_id =>
    obtain ⟨rfl, rfl⟩ := Prod.mk.inj (Option.some.inj result)
    exact ⟨usable, queue, inHand, caches, phase.1, rfl, phase.2⟩
  | recordChart n chart_id feature_id ch =>
    have recorded := cachesRight_recordChart (b := false) caches phase.2.2
    have before : Inv getName ⟨{ plugin with
        chartsInDb := plugin.chartsInDb.insert ch.name ch, waitForDB := false }, .idle, thread⟩ :=
      ⟨usable, queue, inHand, recorded, trivial⟩
    have next := inv_afterChart before phase.1 chart_id
    obtain ⟨rfl, rfl⟩ := Prod.mk.inj (Option.some.inj result)
    exact next
  | insertFeature n chart_id =>
    simp only [uiStep, guard, Bool.false_eq_true, if_false, Option.some.injEq, Prod.mk.injEq,
      queryDB_insertFeatureSql _ _ (show '\'' ∉ n.feature from phase)] at result
    obtain ⟨rfl, rfl⟩ := result
    exact ⟨usable, queue, inHand, caches.grow rfl rfl (fun _ hr => hr)
      (fun _ => List.mem_append_left _), _, List.getLast?_concat, rfl⟩
  | lastRowOfFeature n chart_id =>
    obtain ⟨rfl, rfl⟩ := Prod.mk.inj (Option.some.inj result)
    exact ⟨usable, queue, inHand, caches, phase⟩
  | recordFeature n chart_id feature_id =>
    have recorded := cachesRight_recordFeature (b := false) caches phase
    obtain ⟨rfl, rfl⟩ := Prod.mk.inj (Option.some.inj result)
    exact ⟨usable, queue, inHand, recorded, trivial⟩
  | storeObject n chart_id feature_id =>
    simp only [uiStep] at result
    split_ifs at result with loading waits
    · obtain ⟨rfl, rfl⟩ := Prod.mk.inj (Option.some.inj result)
      exact ⟨usable, queue, inHand, caches, trivial⟩
    · obtain ⟨rfl, rfl⟩ := Prod.mk.inj (Option.some.inj result)
      exact ⟨usable, queue, inHand, caches, trivial⟩
    · obtain ⟨rfl, rfl⟩ := Prod.mk.inj (Option.some.inj result)
      rw [storeNewObject_eq plugin chart_id feature_id n usable]
      refine ⟨usable, ?_, inHand, ⟨caches.charts, caches.features⟩, trivial⟩
      intro sql here
      rcases List.mem_append.mp here with old | new
      · exact queue sql old
      · split_ifs at new
        · exact ⟨_, _, _, _, _, List.mem_singleton.mp new⟩
        · cases new

theorem Phase.frame {db db' : Database} {ui : UiAt} (h : Phase getName db ui)
    (calm : ui.awaitsRowId = false) (chart : db'.chart = db.chart)
    (feature : db'.feature = db.feature) : Phase getName db' ui := by
  cases ui with
  | lastRowOfChart n chart_id feature_id => cases calm
  | lastRowOfFeature n chart_id => cases calm
  | recordChart n chart_id feature_id ch =>
    rw [Phase, NewestChart, chart]
    exact h
  | recordFeature n chart_id feature_id =>
    rw [Phase, NewestFeature, feature]
    exact h
  | _ => exact h

theorem inv_dbThread {s s' : State} (h : Inv getName s) (calm : Undisturbed getName s .dbThread)
    (taken : step getName s .dbThread = some s') : Inv getName s' := by
  obtain ⟨plugin, ui, thread⟩ := s
  obtain ⟨usable, queue, inHand, caches, phase⟩ := h
  obtain ⟨⟨plugin', thread'⟩, result, rfl⟩ := Option.map_eq_some_iff.mp taken
  cases thread with
  | setRunning =>
    obtain ⟨rfl, rfl⟩ := Prod.mk.inj (Option.some.inj result)
    exact ⟨usable, queue, trivial, ⟨caches.charts, caches.features⟩, phase⟩
  | hasQueries =>
    obtain ⟨rfl, rfl⟩ := Prod.mk.inj (Option.some.inj result)
    refine ⟨usable, queue, ?_, caches, phase⟩
    show HoldsInsert (if _ then _ else _)
    split_ifs <;> trivial
  | getQuery =>
    obtain ⟨usable', running, waits, loading, charts, features, pending, db⟩ := plugin
    cases pending with
    | nil => cases result
    | cons sql rest =>
      obtain ⟨rfl, rfl⟩ := Prod.mk.inj (Option.some.inj result)
      exact ⟨usable, fun other here => queue other (List.mem_cons_of_mem sql here),
        queue sql List.mem_cons_self, ⟨caches.charts, caches.features⟩, phase⟩
  | queryDB sql =>
    obtain ⟨c, f, name, lat, lon, rfl⟩ := inHand
    obtain ⟨rfl, rfl⟩ := Prod.mk.inj (Option.some.inj result)
    have quiet := calm _ rfl
    rw [queryDB_insertObjectSql]
    exact ⟨usable, queue, trivial, ⟨caches.charts, caches.features⟩, phase.frame quiet rfl rfl⟩
  | testDestroy | beginTransaction | setWriting | commitTransaction | clearWriting | sleep =>
    obtain ⟨rfl, rfl⟩ := Prod.mk.inj (Option.some.inj result)
    exact ⟨usable, queue, trivial, caches, phase⟩
  | _ => cases result

theorem inv_step {s s' : State} {l : Label} (h : Inv getName s) (calm : Undisturbed getName s l)
    (taken : step getName s l = some s') : Inv getName s' := by
  cases l with
  | notify n => exact inv_notify h calm taken
  | ui => exact inv_uiStep h taken
  | dbThread => exact inv_dbThread h calm taken

/-! With nothing in between, the steps add up to SendVectorChartObjectInfo. -/

/-- What is left of a notification once the chart is settled. -/
def restOfNotification (s : Plugin) (n : Notification) (chart_id feature_id : ℤ) : Plugin :=
  let (s, feature_id) := if feature_id = 0 then recordFeature s n.feature else (s, feature_id)
  if n.chart = s.chartLoading then storeNewObject s chart_id feature_id n.objname n.lat n.lon
  else s

theorem step_storeObject (s : Plugin) (n : Notification) (chart_id feature_id : ℤ)
    (thread : ThreadAt) (free : s.waitForDB = false) :
    step getName ⟨s, .storeObject n chart_id feature_id, thread⟩ .ui =
      some ⟨if n.chart = s.chartLoading then
        storeNewObject s chart_id feature_id n.objname n.lat n.lon else s, .idle, thread⟩ := by
  have passes : objectWaits s n = false := by simp [objectWaits, free]
  by_cases loading : n.chart = s.chartLoading <;> simp [step, uiStep, passes, loading]

theorem exec_insertFeature (s : Plugin) (n : Notification) (chart_id : ℤ) (thread : ThreadAt) :
    ∃ k, exec (step getName) ⟨{ s with waitForDB := true }, .insertFeature n chart_id, thread⟩
        (List.replicate k .ui) =
      some ⟨(recordFeature s n.feature).1, .storeObject n chart_id (recordFeature s n.feature).2,
        thread⟩ := by
  rcases Bool.eq_false_or_eq_true s.dbUsable with usable | usable
  · have first : step getName ⟨{ s with waitForDB := true }, .insertFeature n chart_id, thread⟩ .ui =
        some ⟨queryDB { s with waitForDB := true } (insertFeatureSql n.feature),
          .lastRowOfFeature n chart_id, thread⟩ := by
      simp [step, uiStep, usable]
    refine ⟨3, (exec_cons first _).trans ?_⟩
    simp only [recordFeature, storeNewFeature, usable]
    rfl
  · have first : step getName ⟨{ s with waitForDB := true }, .insertFeature n chart_id, thread⟩ .ui =
        some ⟨{ s with waitForDB := true }, .recordFeature n chart_id (-1), thread⟩ := by
      simp [step, uiStep, usable]
    refine ⟨2, (exec_cons first _).trans ?_⟩
    simp only [recordFeature, storeNewFeature, usable]
    rfl

theorem exec_insertChart (s : Plugin) (n : Notification) (chart_id feature_id : ℤ)
    (thread : ThreadAt) (usable : s.dbUsable = true) :
    exec (step getName) ⟨{ s with waitForDB := true }, .insertChart n chart_id feature_id, thread⟩
        (List.replicate 3 .ui) =
      some ⟨(afterChart (recordChart getName s n) n chart_id feature_id).1,
        (afterChart (recordChart getName s n) n chart_id feature_id).2, thread⟩ := by
  have first : step getName ⟨{ s with waitForDB := true }, .insertChart n chart_id feature_id,
      thread⟩ .ui = some ⟨queryDB { s with waitForDB := true, chartLoading := n.chart }
        (insertChartSql (getName n.chart) n.scale n.nativescale),
          .lastRowOfChart n chart_id feature_id, thread⟩ := by
    simp [step, uiStep, usable]
  refine (exec_cons first _).trans ?_
  simp only [recordChart, storeNewChart, usable]
  rfl

theorem exec_afterChart (s : Plugin) (n : Notification) (chart_id feature_id : ℤ)
    (thread : ThreadAt) (free : s.waitForDB = false) :
    ∃ k, exec (step getName) ⟨(afterChart s n chart_id feature_id).1,
        (afterChart s n chart_id feature_id).2, thread⟩ (List.replicate k .ui) =
      some ⟨restOfNotification s n chart_id feature_id, .idle, thread⟩ := by
  unfold afterChart restOfNotification
  by_cases zero : feature_id = 0
  · obtain ⟨k, recorded⟩ := @exec_insertFeature getName s n chart_id thread
    refine ⟨k + 1, ?_⟩
    rw [if_pos zero, if_pos zero, List.replicate_succ', exec_concat_eq_some]
    exact ⟨_, recorded, step_storeObject _ n chart_id _ thread rfl⟩
  · rw [if_neg zero, if_neg zero]
    exact ⟨1, exec_cons (step_storeObject s n chart_id feature_id thread free) []⟩

/-- A notification whose steps are taken without the thread in between does what
SendVectorChartObjectInfo does at once. -/
theorem exec_alone (s : Plugin) (n : Notification) (thread : ThreadAt)
    (free : s.waitForDB = false) :
    ∃ k, exec (step getName) ⟨s, .idle, thread⟩ (.notify n :: List.replicate k .ui) =
      some ⟨sendVectorChartObjectInfo getName s n, .idle, thread⟩ := by
  have first : step getName ⟨s, .idle, thread⟩ (.notify n) =
      some ⟨(notifyStep getName s n).1, (notifyStep getName s n).2, thread⟩ := rfl
  by_cases ignored : (!s.dbUsable || !s.dbThreadRunning) = true
  · refine ⟨0, (exec_cons first _).trans ?_⟩
    simp only [notifyStep, sendVectorChartObjectInfo, ignored, if_true]
    rfl
  · by_cases zero : getChartId getName s n.chart = 0
    · have usable : s.dbUsable = true := by
        simp only [Bool.or_eq_true, not_or, Bool.not_eq_true, Bool.not_eq_false'] at ignored
        exact ignored.1
      obtain ⟨k, rest⟩ := @exec_afterChart getName (recordChart getName s n) n
        (getChartId getName s n.chart) (getFeatureId s n.feature) thread rfl
      have recorded := @exec_insertChart getName s n (getChartId getName s n.chart)
        (getFeatureId s n.feature) thread usable
      have whole : sendVectorChartObjectInfo getName s n = restOfNotification
          (recordChart getName s n) n (getChartId getName s n.chart) (getFeatureId s n.feature) := by
        simp only [sendVectorChartObjectInfo, restOfNotification, ignored, zero, if_true,
          Bool.false_eq_true, if_false]
      refine ⟨3 + k, (exec_cons first _).trans ?_⟩
      rw [whole, ← List.replicate_append_replicate, exec_append_eq_some]
      refine ⟨_, ?_, rest⟩
      rw [← recorded]
      simp only [notifyStep, ignored, zero, if_true, Bool.false_eq_true, if_false]
    · obtain ⟨k, rest⟩ := @exec_afterChart getName s n
        (getChartId getName s n.chart) (getFeatureId s n.feature) thread free
      have whole : sendVectorChartObjectInfo getName s n = restOfNotification s n
          (getChartId getName s n.chart) (getFeatureId s n.feature) := by
        simp only [sendVectorChartObjectInfo, restOfNotification, ignored, zero,
          Bool.false_eq_true, if_false]
      refine ⟨k, (exec_cons first _).trans ?_⟩
      rw [whole, ← rest]
      simp only [notifyStep, ignored, zero, Bool.false_eq_true, if_false]

/-- If no queued INSERT is ever executed between an INSERT of the UI thread and its
`GetLastRowId`, every id that reaches a cache is that of the row just inserted. -/
theorem idsRight_of_undisturbed (db : Database) (ls : List Label) (s : State)
    (run : exec (step getName) (.start db) ls = some s)
    (calm : ∀ p l q t, ls = p ++ l :: q → exec (step getName) (.start db) p = some t →
      Undisturbed getName t l) : IdsRight getName s :=
  (exec_guarded (fun _ _ _ => inv_step) (inv_start db) run calm).idsRight

def lightOf (chart : String) : Notification :=
  ⟨chart.toList, "LIGHTS".toList, "Ambrose".toList, 40, -73, 1, 25000⟩

def recordedAlone : List Label :=
  .dbThread :: .notify (lightOf "A") :: List.replicate 7 .ui

instance : (s : State) → (l : Label) → Decidable (Undisturbed getName s l)
  | s, .notify n => inferInstanceAs (Decidable (PlainInserts getName s.plugin n))
  | _, .ui => inferInstanceAs (Decidable True)
  | s, .dbThread => decidable_of_iff (s.thread.inHand ≠ [] → s.ui.awaitsRowId = false) (by
      cases place : s.thread <;> simp [Undisturbed, place, ThreadAt.inHand])

def calmRun (getName : Text → Text) (s : State) : List Label → Bool
  | [] => true
  | l :: ls => decide (Undisturbed getName s l) && match step getName s l with
    | some s' => calmRun getName s' ls
    | none => true

theorem undisturbed_of_calmRun {s : State} {ls : List Label}
    (calm : calmRun getName s ls = true) (p : List Label) (l : Label) (q : List Label) (t : State)
    (split : ls = p ++ l :: q) (reached : exec (step getName) s p = some t) :
    Undisturbed getName t l := by
  induction p generalizing s ls with
  | nil =>
    subst split
    obtain rfl := Option.some.inj reached
    exact of_decide_eq_true (Bool.and_eq_true_iff.mp calm).1
  | cons k p ih =>
    subst split
    obtain ⟨u, first, rest⟩ := Option.bind_eq_some_iff.mp reached
    have later := (Bool.and_eq_true_iff.mp calm).2
    rw [first] at later
    exact ih later rfl rest

/-- The thread executes the object of chart A after chart B has been looked up and before it is
inserted. -/
def objectBeforeInsert : List Label :=
  recordedAlone ++ List.replicate 5 .dbThread ++ [.notify (lightOf "B"), .dbThread] ++
    List.replicate 4 .ui

set_option maxRecDepth 4000 in
theorem exec_objectBeforeInsert :
    ∃ s, exec (step posixName) (.start .created) objectBeforeInsert = some s ∧ s.ui = .idle := by
  have outcome : (exec (step posixName) (.start .created) objectBeforeInsert).map State.ui =
      some .idle := by decide +kernel
  exact Option.map_eq_some_iff.mp outcome

set_option maxRecDepth 4000 in
theorem calmRun_objectBeforeInsert :
    calmRun posixName (.start .created) objectBeforeInsert = true := by
  decide +kernel

theorem idsRight_of_undisturbed_objectBeforeInsert :
    ∃ s, exec (step posixName) (.start .created) objectBeforeInsert = some s ∧
      IdsRight posixName s := by
  obtain ⟨s, taken, -⟩ := exec_objectBeforeInsert
  exact ⟨s, taken, idsRight_of_undisturbed .created objectBeforeInsert s taken
    (undisturbed_of_calmRun calmRun_objectBeforeInsert)⟩

/-- The thread takes the first object from the queue, chart B is inserted with id 2, the object
is inserted with rowid 1, and 1 is recorded for chart B. -/
def objectInBetween : List Label :=
  recordedAlone ++ List.replicate 5 .dbThread ++
    [.notify (lightOf "B"), .ui, .dbThread, .ui, .ui]

set_option maxRecDepth 4000 in
theorem objectInBetween_records_a_wrong_id :
    ∃ s, exec (step posixName) (.start .created) objectInBetween = some s ∧
      ¬IdsRight posixName s := by
  have outcome : (exec (step posixName) (.start .created) objectInBetween).map (fun s =>
      (s.plugin.chartsInDb["B".toList]?.map Chart.id,
        s.plugin.db.chart.rows.map (fun r => (r.1, r.2.chartname)))) =
      some (some 1, [(1, some "A".toList), (2, some "B".toList)]) := by decide +kernel
  obtain ⟨s, run, values⟩ := Option.map_eq_some_iff.mp outcome
  refine ⟨s, run, ?_⟩
  intro right
  obtain ⟨cached, rows⟩ := Prod.mk.inj values
  obtain ⟨ch, found, id⟩ := Option.map_eq_some_iff.mp cached
  obtain ⟨r, hr, same, name⟩ := right.1.charts _ ch found
  have listed := List.mem_map_of_mem (f := fun r => (r.1, r.2.chartname)) hr
  rw [rows] at listed
  rcases List.mem_cons.mp listed with first | second
  · obtain ⟨-, named⟩ := Prod.mk.inj first
    rw [named] at name
    exact absurd name (by decide)
  · obtain ⟨two, -⟩ := Prod.mk.inj (List.mem_singleton.mp second)
    omega

end ObjSearch.Thread.Connection
