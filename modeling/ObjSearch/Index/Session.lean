/- One session: notifications, and the DB thread executing queued statements between them.
   digest: Which charts and features are known and which chart is loading, after any run. -/

import ObjSearch.Index.Effect
import ObjSearch.Lib.FirstSeen

set_option autoImplicit false
set_option relaxedAutoImplicit false

namespace ObjSearch.Index.Session

open Std (ExtTreeMap)
open ObjSearch.Lib.Texts (Text)
open ObjSearch.Lib.Tables
open ObjSearch.Lib.Maps
open ObjSearch.Lib.FirstSeen
open ObjSearch.Index.Storage
open ObjSearch.Index.Notify
open ObjSearch.Index.Effect

def session (db : Database) : Plugin := threadStarted (init db)

inductive Action where
  | notify (n : Notification)
  /-- the thread executes the statement at the head of the queue -/
  | serve
deriving DecidableEq

def notifications : List Action → List Notification
  | [] => []
  | .notify n :: as => n :: notifications as
  | .serve :: as => notifications as

variable (getName : Text → Text)

def act (s : Plugin) : Action → Plugin
  | .notify n => sendVectorChartObjectInfo getName s n
  | .serve => serve s

def run (s : Plugin) (as : List Action) : Plugin := as.foldl (act getName) s

/-- The names that `Init` loads from table chart, NULL read as the empty text. -/
def chartNames (db : Database) : List Text := db.chart.rows.map (fun r => r.2.chartname.getD [])

/-- After these notifications, `path` is the path under which a chart was last seen for the
first time; `known` are the names already known before. -/
def MostRecentlyNew (known : Text → Prop) (ns : List Notification) (path : Text) : Prop :=
  ∃ f, LatestNew known (chartName getName) ns f ∧ f.chart = path

def NothingNew (known : Text → Prop) (ns : List Notification) : Prop :=
  ∀ d ∈ ns, known (chartName getName d)

def PlainRun (as : List Action) : Prop := ∀ n ∈ notifications as, Plain getName n

/-- Every notification of the run has plain names in the INSERTs it sends where it arrives. -/
def PlainInsertsRun : Plugin → List Action → Prop
  | _, [] => True
  | s, .notify n :: as => PlainInserts getName s n ∧ PlainInsertsRun (act getName s (.notify n)) as
  | s, .serve :: as => PlainInsertsRun (serve s) as

variable {getName}

theorem notifications_append (as bs : List Action) :
    notifications (as ++ bs) = notifications as ++ notifications bs := by
  induction as with
  | nil => rfl
  | cons a as ih => cases a <;> simp [notifications, ih]

theorem mem_notifications {n : Notification} {as : List Action} :
    n ∈ notifications as ↔ .notify n ∈ as := by
  induction as with
  | nil => simp [notifications]
  | cons a as ih => cases a <;> simp [notifications, ih]

theorem run_append (s : Plugin) (as bs : List Action) :
    run getName s (as ++ bs) = run getName (run getName s as) bs :=
  List.foldl_append

theorem run_concat (s : Plugin) (as : List Action) (a : Action) :
    run getName s (as ++ [a]) = act getName (run getName s as) a := by
  rw [run_append]
  rfl

theorem PlainRun.left {as bs : List Action} (plain : PlainRun getName (as ++ bs)) :
    PlainRun getName as := by
  intro n hn
  exact plain n (by rw [notifications_append]; exact List.mem_append_left _ hn)

theorem PlainRun.right {as bs : List Action} (plain : PlainRun getName (as ++ bs)) :
    PlainRun getName bs := by
  intro n hn
  exact plain n (by rw [notifications_append]; exact List.mem_append_right _ hn)

theorem PlainRun.last {as : List Action} {n : Notification}
    (plain : PlainRun getName (as ++ [.notify n])) : Plain getName n :=
  plain.right n (by simp [notifications])

theorem PlainRun.inserts {as : List Action} (plain : PlainRun getName as) (s : Plugin) :
    PlainInsertsRun getName s as := by
  induction as generalizing s with
  | nil => trivial
  | cons a as ih =>
    have later : PlainRun getName as := @PlainRun.right getName [a] as plain
    cases a with
    | notify n => exact ⟨(plain n List.mem_cons_self).inserts, ih later _⟩
    | serve => exact ih later _

theorem PlainInsertsRun.append {s : Plugin} {as bs : List Action}
    (plain : PlainInsertsRun getName s as) (later : PlainInsertsRun getName (run getName s as) bs) :
    PlainInsertsRun getName s (as ++ bs) := by
  induction as generalizing s with
  | nil => exact later
  | cons a as ih =>
    cases a with
    | notify n => exact ⟨plain.1, ih plain.2 later⟩
    | serve => exact ih plain later

theorem ready_session (db : Database) : Ready (session db) where
  usable := rfl
  running := rfl
  queue := by intro sql h; cases h
  chartIds := by
    intro name ch found
    rcases exists_row_of_getElem?_fill found with ⟨r, hr, -, rfl⟩ | old
    · exact ((initDB db).chart.within r hr).1
    · simp at old
  featureIds := by
    intro name id found
    rcases exists_row_of_getElem?_fill found with ⟨r, hr, -, rfl⟩ | old
    · exact ((initDB db).feature.within r hr).1
    · simp at old

theorem mem_charts_session (db : Database) (name : Text) :
    name ∈ (session db).chartsInDb ↔ name ∈ chartNames db := by
  have filled : name ∈ (session db).chartsInDb ↔
      (∃ r ∈ db.chart.rows, r.2.chartname.getD [] = name) ∨
        name ∈ (∅ : ExtTreeMap Text Chart) := mem_fill
  rw [filled, chartNames, List.mem_map]
  simp

theorem mem_queued {s : Plugin} {n : Notification} {sql : Text}
    (h : sql ∈ queued getName s n) : IsObjectInsert sql := by
  unfold queued at h
  split_ifs at h
  · exact ⟨_, _, _, _, _, List.mem_singleton.mp h⟩
  · cases h

theorem ready_send {s : Plugin} {n : Notification} (ready : Ready s)
    (plain : PlainInserts getName s n) :
    Ready (sendVectorChartObjectInfo getName s n) := by
  rw [send_eq ready plain]
  refine ⟨ready.usable, ready.running, ?_, ?_, ?_⟩
  · intro sql h
    rcases List.mem_append.mp h with old | new
    · exact ready.queue sql old
    · exact mem_queued new
  · intro name ch found
    simp only [chartsAfter] at found
    split_ifs at found with new
    · by_cases same : chartName getName n = name
      · rw [same, ExtTreeMap.getElem?_insert_self, Option.some.injEq] at found
        rw [← found]
        exact s.db.chart.newId_pos
      · rw [getElem?_insert_ne _ same] at found
        exact ready.chartIds name ch found
    · exact ready.chartIds name ch found
  · intro name id found
    simp only [featuresAfter] at found
    split_ifs at found with new
    · by_cases same : n.feature = name
      · rw [same, ExtTreeMap.getElem?_insert_self, Option.some.injEq] at found
        rw [← found]
        exact s.db.feature.newId_pos
      · rw [getElem?_insert_ne _ same] at found
        exact ready.featureIds name id found
    · exact ready.featureIds name id found

/-- The thread changes the queue, the object table and the last rowid, and nothing else. -/
theorem serve_eq {s : Plugin} (ready : Ready s) :
    ∃ object lastRowId, serve s =
      { s with
        queryQueue := s.queryQueue.tail
        db := { s.db with object := object, lastRowId := lastRowId } } := by
  unfold serve
  cases queue : s.queryQueue with
  | nil => exact ⟨s.db.object, s.db.lastRowId, by cases s; cases queue; rfl⟩
  | cons sql rest =>
    obtain ⟨c, f, name, lat, lon, rfl⟩ := ready.queue sql (by simp [queue])
    exact ⟨_, _, queryDB_insertObjectSql _ _ _ _ _ _⟩

theorem serve_insert {s : Plugin} {rest : List Text} {chart_id feature_id : ℤ} {objname : Text}
    {lat lon : ℚ}
    (queue : s.queryQueue = insertObjectSql chart_id feature_id objname lat lon :: rest) :
    serve s = { s with
      queryQueue := rest
      db := { s.db with
        object := s.db.object.insert (objectRow chart_id feature_id objname lat lon)
        lastRowId := s.db.object.nextId } } := by
  simp only [serve, queue]
  exact queryDB_insertObjectSql _ _ _ _ _ _

theorem ready_serve {s : Plugin} (ready : Ready s) : Ready (serve s) := by
  obtain ⟨object, lastRowId, eq⟩ := serve_eq ready
  rw [eq]
  exact ⟨ready.usable, ready.running, fun sql h => ready.queue sql (List.mem_of_mem_tail h),
    ready.chartIds, ready.featureIds⟩

theorem ready_run {s : Plugin} {as : List Action} (ready : Ready s)
    (plain : PlainRun getName as) : Ready (run getName s as) := by
  induction as using List.reverseRecOn with
  | nil => exact ready
  | append_singleton as a ih =>
    rw [run_concat]
    cases a with
    | notify n => exact ready_send (ih plain.left) plain.last.inserts
    | serve => exact ready_serve (ih plain.left)

theorem mem_charts_send {s : Plugin} {n : Notification} (ready : Ready s)
    (plain : Plain getName n) (name : Text) :
    name ∈ (sendVectorChartObjectInfo getName s n).chartsInDb ↔
      name ∈ s.chartsInDb ∨ name = chartName getName n := by
  rw [send_eq ready plain.inserts]
  simp only [chartsAfter]
  split_ifs with new
  · rw [mem_insert_iff, or_comm]
  · have known : chartName getName n ∈ s.chartsInDb := not_not.mp new
    constructor
    · exact .inl
    · rintro (old | rfl)
      · exact old
      · exact known

theorem mem_features_send {s : Plugin} {n : Notification} (ready : Ready s)
    (plain : Plain getName n) (name : Text) :
    name ∈ (sendVectorChartObjectInfo getName s n).featuresInDb ↔
      name ∈ s.featuresInDb ∨ name = n.feature := by
  rw [send_eq ready plain.inserts]
  simp only [featuresAfter]
  split_ifs with new
  · rw [mem_insert_iff, or_comm]
  · have known : n.feature ∈ s.featuresInDb := not_not.mp new
    constructor
    · exact .inl
    · rintro (old | rfl)
      · exact old
      · exact known

theorem mem_charts_run {s : Plugin} {as : List Action} (ready : Ready s)
    (plain : PlainRun getName as) (name : Text) :
    name ∈ (run getName s as).chartsInDb ↔
      name ∈ s.chartsInDb ∨ name ∈ (notifications as).map (chartName getName) := by
  induction as using List.reverseRecOn with
  | nil => simp [run, notifications]
  | append_singleton as a ih =>
    have before := ready_run ready plain.left
    rw [run_concat, notifications_append, List.map_append, List.mem_append]
    cases a with
    | notify n =>
      rw [act, mem_charts_send before plain.last, ih plain.left, or_assoc]
      simp [notifications]
    | serve =>
      obtain ⟨object, lastRowId, eq⟩ := serve_eq before
      rw [act, eq, ih plain.left]
      simp [notifications]

theorem mem_features_run {s : Plugin} {as : List Action} (ready : Ready s)
    (plain : PlainRun getName as) (name : Text) :
    name ∈ (run getName s as).featuresInDb ↔
      name ∈ s.featuresInDb ∨ name ∈ (notifications as).map Notification.feature := by
  induction as using List.reverseRecOn with
  | nil => simp [run, notifications]
  | append_singleton as a ih =>
    have before := ready_run ready plain.left
    rw [run_concat, notifications_append, List.map_append, List.mem_append]
    cases a with
    | notify n =>
      rw [act, mem_features_send before plain.last, ih plain.left, or_assoc]
      simp [notifications]
    | serve =>
      obtain ⟨object, lastRowId, eq⟩ := serve_eq before
      rw [act, eq, ih plain.left]
      simp [notifications]

theorem newChart_run {s : Plugin} {as : List Action} (ready : Ready s)
    (plain : PlainRun getName as) (n : Notification) :
    NewChart getName (run getName s as) n ↔
      ¬(chartName getName n ∈ s.chartsInDb ∨
        chartName getName n ∈ (notifications as).map (chartName getName)) :=
  not_congr (mem_charts_run ready plain (chartName getName n))

private theorem nothingNew_append_old {known : Text → Prop} {ns : List Notification}
    {n : Notification}
    (old : known (chartName getName n) ∨
      chartName getName n ∈ ns.map (chartName getName)) :
    NothingNew getName known (ns ++ [n]) ↔ NothingNew getName known ns := by
  constructor
  · intro h d hd
    exact h d (List.mem_append_left [n] hd)
  · intro h d hd
    rcases List.mem_append.mp hd with earlier | here
    · exact h d earlier
    · rw [List.mem_singleton.mp here]
      rcases old with known | seen
      · exact known
      · obtain ⟨e, he, same⟩ := List.mem_map.mp seen
        exact same ▸ h e he

/-- The chart being loaded is the one most recently seen for the first time, if any. -/
theorem loading_run {s : Plugin} {as : List Action} (ready : Ready s)
    (plain : PlainRun getName as) (path : Text) :
    (run getName s as).chartLoading = path ↔
      MostRecentlyNew getName (· ∈ s.chartsInDb) (notifications as) path ∨
        NothingNew getName (· ∈ s.chartsInDb) (notifications as) ∧ s.chartLoading = path := by
  induction as using List.reverseRecOn with
  | nil =>
    have none : ¬MostRecentlyNew getName (· ∈ s.chartsInDb) [] path :=
      fun ⟨f, latest, _⟩ => not_latestNew_nil f latest
    simp [run, none, NothingNew, notifications]
  | append_singleton as a ih =>
    have before := ready_run ready plain.left
    rw [run_concat, notifications_append]
    cases a with
    | serve =>
      obtain ⟨object, lastRowId, eq⟩ := serve_eq before
      rw [act, eq, notifications, notifications, List.append_nil]
      exact ih plain.left
    | notify n =>
      have fresh := newChart_run ready plain.left n
      rw [act, send_eq before plain.last.inserts]
      simp only [loadingAfter, notifications]
      by_cases new : NewChart getName (run getName s as) n
      · obtain ⟨unknown, unseen⟩ := not_or.mp (fresh.mp new)
        rw [if_pos new]
        constructor
        · intro same
          exact .inl ⟨n, (latestNew_append_new unknown unseen).mpr rfl, same⟩
        · rintro (⟨f, latest, same⟩ | ⟨nothing, -⟩)
          · rwa [(latestNew_append_new unknown unseen).mp latest] at same
          · exact absurd (nothing n (by simp)) unknown
      · have old := not_not.mp (fun h => new (fresh.mpr h))
        have latest (f : Notification) := latestNew_append_old (f := f) old
        rw [if_neg new, ih plain.left, nothingNew_append_old old]
        simp only [MostRecentlyNew, latest]

end ObjSearch.Index.Session
