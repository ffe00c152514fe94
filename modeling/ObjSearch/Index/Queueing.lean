/- Which notifications queue their object.
   digest: Exactly those under the path most recently seen as new, so interleaved charts lose
   objects and a repeated delivery may store them twice. -/

import ObjSearch.Index.Session

set_option autoImplicit false
set_option relaxedAutoImplicit false

namespace ObjSearch.Index.Queueing

open ObjSearch.Lib.Texts (Text)
open ObjSearch.Lib.Printf (written)
open ObjSearch.Lib.FirstSeen
open ObjSearch.Index.Storage
open ObjSearch.Index.Notify
open ObjSearch.Index.Effect
open ObjSearch.Index.Session

/-- `wxFileName::GetName` on a path with forward slashes. -/
def posixName (path : Text) : Text :=
  let file := (path.reverse.takeWhile (· ≠ '/')).reverse
  match file.reverse.dropWhile (· ≠ '.') with
  | [] | [_] => file
  | _ :: stem => stem.reverse

def insertedObject (sql : Text) : Option ObjectRow :=
  match Database.created.executeUpdate sql with
  | .ok db => db.object.rows.head?.map Prod.snd
  | .error _ => none

variable (getName : Text → Text)

def QueuesOne (s : Plugin) (n : Notification) : Prop :=
  ∃ sql row, (sendVectorChartObjectInfo getName s n).queryQueue = s.queryQueue ++ [sql] ∧
    insertedObject sql = some row ∧ row.objname = some n.objname ∧
    row.lat = some (written n.lat) ∧ row.lon = some (written (wrapped n.lon))

/-- In this run every notification whose object can be stored queues it exactly once. -/
def EveryObjectQueued (s : Plugin) (as : List Action) : Prop :=
  ∀ p n q, as = p ++ .notify n :: q → Storable n → QueuesOne getName (run getName s p) n

variable {getName}

theorem insertedObject_insertObjectSql (chart_id feature_id : ℤ) (objname : Text) (lat lon : ℚ) :
    insertedObject (insertObjectSql chart_id feature_id objname lat lon) =
      some (objectRow chart_id feature_id objname lat lon) := by
  unfold insertedObject
  rw [executeUpdate_insertObjectSql]
  rfl

theorem send_queryQueue {s : Plugin} {n : Notification} (ready : Ready s)
    (plain : PlainInserts getName s n) :
    (sendVectorChartObjectInfo getName s n).queryQueue = s.queryQueue ++ queued getName s n := by
  rw [send_eq ready plain]

theorem queued_of_not_loading {s : Plugin} {n : Notification}
    (other : n.chart ≠ loadingAfter getName s n) : queued getName s n = [] := by
  rw [queued, if_neg (fun h => other h.1)]

theorem queued_of_not_storable {s : Plugin} {n : Notification} (off : ¬Storable n) :
    queued getName s n = [] := by
  rw [queued, if_neg (fun h => off h.2)]

theorem queued_of_loading {s : Plugin} {n : Notification} (storable : Storable n)
    (loading : n.chart = loadingAfter getName s n) :
    queued getName s n = [insertObjectSql (getChartId getName s n.chart) (featureIdAfter s n)
      n.objname n.lat (wrapped n.lon)] := by
  rw [queued, if_pos ⟨loading, storable⟩]

theorem queuesOne_iff {s : Plugin} {n : Notification} (ready : Ready s) (plain : Plain getName n)
    (storable : Storable n) :
    QueuesOne getName s n ↔ (sendVectorChartObjectInfo getName s n).chartLoading = n.chart := by
  have loading : (sendVectorChartObjectInfo getName s n).chartLoading =
      loadingAfter getName s n := by
    rw [send_eq ready plain.inserts]
  rw [loading, eq_comm]
  constructor
  · rintro ⟨sql, row, queue, -⟩
    by_contra other
    rw [send_queryQueue ready plain.inserts, queued_of_not_loading other] at queue
    simp at queue
  · intro here
    have queue := send_queryQueue ready plain.inserts
    rw [queued_of_loading storable here] at queue
    exact ⟨_, _, queue, insertedObject_insertObjectSql _ _ _ _ _, rfl, rfl, rfl⟩

/-- Every storable object of charts new in this session is queued if and only if each comes
under the path most recently seen as new: no other chart was first seen after that path was. -/
theorem everyObjectQueued_iff (db : Database) (as : List Action) (plain : PlainRun getName as)
    (new : ∀ n ∈ notifications as, chartName getName n ∉ chartNames db) :
    EveryObjectQueued getName (session db) as ↔
      ∀ p n q, as = p ++ .notify n :: q → Storable n →
        MostRecentlyNew getName (· ∈ chartNames db) (notifications p ++ [n]) n.chart := by
  have start := ready_session db
  have known : (· ∈ (session db).chartsInDb) = (· ∈ chartNames db) :=
    funext (fun name => propext (mem_charts_session db name))
  have here (p : List Action) (n : Notification) (q : List Action)
      (split : as = p ++ .notify n :: q) (storable : Storable n) :
      QueuesOne getName (run getName (session db) p) n ↔
        MostRecentlyNew getName (· ∈ chartNames db) (notifications p ++ [n]) n.chart := by
    have upTo : as = (p ++ [.notify n]) ++ q := by simp [split]
    have plain' : PlainRun getName (p ++ [.notify n]) := (upTo ▸ plain).left
    have unknown : chartName getName n ∉ chartNames db :=
      new n (mem_notifications.mpr (by simp [split]))
    rw [queuesOne_iff (ready_run start plain'.left) plain'.last storable]
    have loading := loading_run start plain' n.chart
    rw [run_concat, known, notifications_append] at loading
    refine loading.trans (or_iff_left ?_)
    rintro ⟨nothing, -⟩
    exact unknown (nothing n (by simp [notifications]))
  constructor
  · intro h p n q split storable
    exact (here p n q split storable).mp (h p n q split storable)
  · intro h p n q split storable
    exact (here p n q split storable).mpr (h p n q split storable)

/-- Three CSV rows of two sources that take turns. -/
def alternatingRows : List Action := [
  .notify (createObject 10 20 "First".toList "LIGHTS".toList "A".toList 0 0),
  .notify (createObject 11 21 "Second".toList "LIGHTS".toList "B".toList 0 0),
  .notify (createObject 12 22 "Third".toList "LIGHTS".toList "A".toList 0 0)]

theorem everyObjectQueued_iff_alternatingRows :
    EveryObjectQueued posixName (session Database.created) alternatingRows ↔
      ∀ p n q, alternatingRows = p ++ .notify n :: q → Storable n →
        MostRecentlyNew posixName (· ∈ chartNames Database.created) (notifications p ++ [n])
          n.chart :=
  everyObjectQueued_iff Database.created alternatingRows (by unfold PlainRun Plain; decide)
    (by decide)

set_option maxRecDepth 4000 in
/-- The third row is dropped: the second one made source B the chart being loaded. -/
theorem alternatingRows_lose_an_object :
    PlainRun posixName alternatingRows ∧
      (∀ n ∈ notifications alternatingRows,
        chartName posixName n ∉ chartNames Database.created) ∧
      (notifications alternatingRows).Nodup ∧
      ¬EveryObjectQueued posixName (session Database.created) alternatingRows := by
  refine ⟨by unfold PlainRun Plain; decide, by decide, by decide +kernel, ?_⟩
  intro every
  obtain ⟨sql, row, queue, -⟩ := every (alternatingRows.take 2) _ [] rfl (by decide +kernel)
  have lengths := congrArg List.length queue
  rw [List.length_append, List.length_singleton] at lengths
  revert lengths
  decide +kernel

/-! Delivering a chart's notifications again. -/

def drained (s : Plugin) : Plugin := serve^[s.queryQueue.length] s

/-- No notification of these actions queues anything, and the object table ends up as it
would without them. -/
def AddsNothing (getName : Text → Text) (s : Plugin) (as : List Action) : Prop :=
  (∀ p n q, as = p ++ .notify n :: q →
    (sendVectorChartObjectInfo getName (run getName s p) n).queryQueue =
      (run getName s p).queryQueue) ∧
  (drained (run getName s as)).db.object = (drained s).db.object

theorem send_known {s : Plugin} {n : Notification} (ready : Ready s) (plain : Plain getName n)
    (chart : chartName getName n ∈ s.chartsInDb) (feature : n.feature ∈ s.featuresInDb) :
    sendVectorChartObjectInfo getName s n =
      { s with queryQueue := s.queryQueue ++ queued getName s n } := by
  have oldChart : ¬NewChart getName s n := not_not.mpr chart
  have oldFeature : ¬NewFeature s n := not_not.mpr feature
  rw [send_eq ready plain.inserts]
  simp only [loadingAfter, chartsAfter, featuresAfter, chartTableAfter, featureTableAfter,
    lastRowIdAfter, oldChart, oldFeature, if_false]

theorem serve_queryQueue (s : Plugin) : (serve s).queryQueue = s.queryQueue.tail := by
  unfold serve
  cases h : s.queryQueue with
  | nil => simp [h]
  | cons sql rest =>
    simp only [queryDB]
    split <;> rfl

theorem drained_serve (s : Plugin) : drained (serve s) = drained s := by
  unfold drained
  rw [serve_queryQueue]
  cases h : s.queryQueue with
  | nil => simp [serve, h]
  | cons sql rest => rw [List.tail_cons, List.length_cons, Function.iterate_succ_apply]

theorem drained_run_of_idle {s : Plugin} {as : List Action}
    (idle : ∀ p n q, as = p ++ .notify n :: q →
      sendVectorChartObjectInfo getName (run getName s p) n = run getName s p) :
    drained (run getName s as) = drained s := by
  induction as using List.reverseRecOn with
  | nil => rfl
  | append_singleton as a ih =>
    have before := ih (fun p n q split => idle p n (q ++ [a]) (by simp [split]))
    rw [run_concat]
    cases a with
    | notify n => rw [act, idle as n [] rfl, before]
    | serve => rw [act, drained_serve, before]

theorem send_of_seen {s : Plugin} {as : List Action} (ready : Ready s)
    (plain : PlainRun getName as)
    (seen : ∀ n ∈ notifications as, chartName getName n ∈ s.chartsInDb ∧
      n.feature ∈ s.featuresInDb)
    {p q : List Action} {n : Notification} (split : as = p ++ .notify n :: q) :
    sendVectorChartObjectInfo getName (run getName s p) n =
        { run getName s p with
          queryQueue := (run getName s p).queryQueue ++ queued getName (run getName s p) n } ∧
      loadingAfter getName (run getName s p) n = s.chartLoading := by
  have upTo : as = (p ++ [.notify n]) ++ q := by simp [split]
  have plain' : PlainRun getName (p ++ [.notify n]) := (upTo ▸ plain).left
  have here : n ∈ notifications as := mem_notifications.mpr (by simp [split])
  have earlier : ∀ d ∈ notifications p, chartName getName d ∈ s.chartsInDb := by
    intro d hd
    refine (seen d ?_).1
    rw [split, notifications_append]
    exact List.mem_append_left _ hd
  have chart := (mem_charts_run ready plain'.left _).mpr (.inl (seen n here).1)
  have feature := (mem_features_run ready plain'.left _).mpr (.inl (seen n here).2)
  have old : ¬NewChart getName (run getName s p) n := not_not.mpr chart
  refine ⟨send_known (ready_run ready plain'.left) plain'.last chart feature, ?_⟩
  rw [loadingAfter, if_neg old]
  exact (loading_run ready plain'.left s.chartLoading).mpr (.inr ⟨earlier, rfl⟩)

/-- A second delivery of a chart's notifications adds nothing if and only if none of its
objects can be stored or its path is not the one most recently seen as new. -/
theorem redelivery_addsNothing_iff (db : Database) (before first between second : List Action)
    (path : Text) (plain : PlainRun getName (before ++ first ++ between ++ second))
    (again : notifications second = notifications first)
    (own : ∀ n ∈ notifications first, n.chart = path) :
    AddsNothing getName (run getName (session db) (before ++ first ++ between)) second ↔
      (∀ n ∈ notifications first, ¬Storable n) ∨
        ¬(MostRecentlyNew getName (· ∈ chartNames db)
            (notifications (before ++ first ++ between)) path ∨
          NothingNew getName (· ∈ chartNames db)
            (notifications (before ++ first ++ between)) ∧ path = []) := by
  have start := ready_session db
  have known : (· ∈ (session db).chartsInDb) = (· ∈ chartNames db) :=
    funext (fun name => propext (mem_charts_session db name))
  have initial : (session db).chartLoading = path ↔ path = [] := eq_comm
  have ready := ready_run start plain.left
  have loading := loading_run start plain.left path
  rw [known, initial] at loading
  -- both the chart and the features of the second delivery are known since the first
  have seen : ∀ n ∈ notifications second,
      chartName getName n ∈ (run getName (session db) (before ++ first ++ between)).chartsInDb ∧
        n.feature ∈ (run getName (session db) (before ++ first ++ between)).featuresInDb := by
    intro n hn
    have inside : n ∈ notifications (before ++ first ++ between) := by
      simp only [notifications_append, List.mem_append]
      exact .inl (.inr (again ▸ hn))
    exact ⟨(mem_charts_run start plain.left _).mpr (.inr (List.mem_map_of_mem inside)),
      (mem_features_run start plain.left _).mpr (.inr (List.mem_map_of_mem inside))⟩
  rw [← loading]
  generalize run getName (session db) (before ++ first ++ between) = s at ready seen
  constructor
  · rintro ⟨nothing, -⟩
    by_contra bad
    obtain ⟨stored, isLoading⟩ := not_or.mp bad
    simp only [not_forall, not_not] at stored
    obtain ⟨n, hn, storable⟩ := stored
    obtain ⟨p, q, split⟩ := List.append_of_mem (mem_notifications.mp (again ▸ hn))
    obtain ⟨sent, same⟩ := send_of_seen ready plain.right seen split
    have here : n.chart = loadingAfter getName (run getName s p) n := by
      rw [same, own n hn, not_not.mp isLoading]
    have queue := nothing p n q split
    rw [sent, queued_of_loading storable here] at queue
    simp at queue
  · intro quiet
    have idle : ∀ p n q, second = p ++ .notify n :: q →
        sendVectorChartObjectInfo getName (run getName s p) n = run getName s p := by
      intro p n q split
      obtain ⟨sent, same⟩ := send_of_seen ready plain.right seen split
      have hn : n ∈ notifications first := again ▸ mem_notifications.mpr (by simp [split])
      have none : queued getName (run getName s p) n = [] := by
        rcases quiet with off | other
        · exact queued_of_not_storable (off n hn)
        · refine queued_of_not_loading (fun here => other ?_)
          rw [← same, ← here, own n hn]
      rw [sent, none, List.append_nil]
    exact ⟨fun p n q split => by rw [idle p n q split], by rw [drained_run_of_idle idle]⟩

def oneObject : List Action :=
  [.notify ⟨"ENC/US5NY1CM.000".toList, "LIGHTS".toList, "Ambrose".toList, 40, -73, 1, 25000⟩]

theorem redelivery_addsNothing_iff_oneObject :
    AddsNothing posixName (run posixName (session Database.created) ([] ++ oneObject ++ []))
        oneObject ↔
      (∀ n ∈ notifications oneObject, ¬Storable n) ∨
        ¬(MostRecentlyNew posixName (· ∈ chartNames Database.created)
            (notifications ([] ++ oneObject ++ [])) "ENC/US5NY1CM.000".toList ∨
          NothingNew posixName (· ∈ chartNames Database.created)
            (notifications ([] ++ oneObject ++ [])) ∧ "ENC/US5NY1CM.000".toList = []) :=
  redelivery_addsNothing_iff Database.created [] oneObject [] oneObject _
    (by unfold PlainRun Plain; decide) rfl (by decide)

set_option maxRecDepth 4000 in
theorem oneObject_is_stored_twice :
    PlainRun posixName (oneObject ++ oneObject) ∧
      ¬AddsNothing posixName (run posixName (session Database.created) oneObject) oneObject := by
  refine ⟨by unfold PlainRun Plain; decide, ?_⟩
  rintro ⟨nothing, -⟩
  have lengths := congrArg List.length (nothing [] _ [] rfl)
  revert lengths
  decide +kernel

end ObjSearch.Index.Queueing
