/- Which chart row a queued object points at.
   digest: Its own chart's, except for the first notification of a chart, which still carries
   the id read before the chart was recorded. -/

import ObjSearch.Index.OneSession

set_option autoImplicit false
set_option relaxedAutoImplicit false

namespace ObjSearch.Index.Pointing

open Std (ExtTreeMap)
open ObjSearch.Lib.Texts (Text)
open ObjSearch.Lib.Tables
open ObjSearch.Lib.NameIndex
open ObjSearch.Index.Storage
open ObjSearch.Index.Notify
open ObjSearch.Index.Effect
open ObjSearch.Index.Session
open ObjSearch.Index.Queueing
open ObjSearch.Index.History
open ObjSearch.Index.OneSession

variable (getName : Text → Text)

/-- In this run, whatever a notification adds to the queue inserts an object whose `chart_id`
is the id of a chart row with the base name of the notification's path. -/
def PointsAtOwnChart (s : Plugin) (as : List Action) : Prop :=
  ∀ p n q added, as = p ++ .notify n :: q →
    (sendVectorChartObjectInfo getName (run getName s p) n).queryQueue =
      (run getName s p).queryQueue ++ added →
    ∀ sql ∈ added, ∃ row, insertedObject sql = some row ∧
      ∃ r ∈ (sendVectorChartObjectInfo getName (run getName s p) n).db.chart.rows,
        row.chart_id = some r.1 ∧ r.2.chartname = some (chartName getName n)

variable {getName}

theorem mem_getChartId {s : Plugin} {n : Notification} (usable : s.dbUsable = true)
    (h : Indexes (chartView s.db.chart) (chartIds s.chartsInDb)) (old : ¬NewChart getName s n) :
    ∃ r ∈ s.db.chart.rows, getChartId getName s n.chart = r.1 ∧
      r.2.chartname = some (chartName getName n) := by
  have known : chartName getName n ∈ s.chartsInDb := not_not.mp old
  obtain ⟨ch, found⟩ := Option.isSome_iff_exists.mp
    (ExtTreeMap.mem_iff_isSome_getElem?.mp known)
  have cached : getChartId getName s n.chart = ch.id := by
    rw [chartName] at found
    simp only [getChartId, usable, found, Bool.not_true, Bool.false_eq_true, if_false]
  have indexed : chartIds s.chartsInDb (chartName getName n) = some ch.id := by
    rw [chartIds, found]
    rfl
  obtain ⟨r, hr, same⟩ := List.mem_map.mp ((h.found _ _).mp indexed)
  obtain ⟨id, name⟩ := Prod.mk.inj same
  exact ⟨r, hr, cached.trans id.symm, name⟩

/-- The first notification of a chart is looked up before the chart is recorded. -/
theorem getChartId_of_new {s : Plugin} {n : Notification} (ready : Ready s)
    (new : NewChart getName s n) : getChartId getName s n.chart = 0 :=
  (getChartId_eq_zero_iff ready n.chart).mpr new

theorem queued_of_new {s : Plugin} {n : Notification} (ready : Ready s)
    (new : NewChart getName s n) (storable : Storable n) :
    queued getName s n =
      [insertObjectSql 0 (featureIdAfter s n) n.objname n.lat (wrapped n.lon)] := by
  have loading : n.chart = loadingAfter getName s n := by
    rw [loadingAfter, if_pos new]
  rw [queued_of_loading storable loading, getChartId_of_new ready new]

theorem queued_pointsAt_iff {s : Plugin} {n : Notification} (ready : Ready s)
    (plain : Plain getName n)
    (indexes : Indexes (chartView s.db.chart) (chartIds s.chartsInDb)) :
    (∀ sql ∈ queued getName s n, ∃ row, insertedObject sql = some row ∧
      ∃ r ∈ (sendVectorChartObjectInfo getName s n).db.chart.rows,
        row.chart_id = some r.1 ∧ r.2.chartname = some (chartName getName n)) ↔
      (Storable n → ¬NewChart getName s n) := by
  constructor
  · intro points storable new
    obtain ⟨row, inserted, r, hr, same, -⟩ := points _
      (by rw [queued_of_new ready new storable]; exact List.mem_singleton_self _)
    rw [insertedObject_insertObjectSql, Option.some.injEq] at inserted
    have zero : r.1 = 0 := by
      rw [← inserted] at same
      exact (Option.some.inj same).symm
    have positive := ((sendVectorChartObjectInfo getName s n).db.chart.within r hr).1
    omega
  · intro notFirst sql here
    unfold queued at here
    split_ifs at here with stored
    · have old := notFirst stored.2
      obtain ⟨r, hr, id, name⟩ := mem_getChartId ready.usable indexes old
      rw [List.mem_singleton.mp here, insertedObject_insertObjectSql]
      refine ⟨_, rfl, r, ?_, congrArg some id, name⟩
      rw [send_eq ready plain.inserts]
      show r ∈ (chartTableAfter getName s n).rows
      rw [chartTableAfter, if_neg old]
      exact hr
    · cases here

/-- Every queued object points at its own chart if and only if no storable notification is the
first one of its chart. -/
theorem pointsAtOwnChart_iff (ss : List (List Action)) (as : List Action)
    (earlier : ∀ bs ∈ ss, PlainRun getName bs) (plain : PlainRun getName as) :
    PointsAtOwnChart getName (history getName Database.created ss []).plugin as ↔
      ∀ p n q, as = p ++ .notify n :: q → Storable n →
        chartName getName n ∈ namesAt getName Database.created ss [] ∨
          chartName getName n ∈ (notifications p).map (chartName getName) := by
  have here (p : List Action) (n : Notification) (q : List Action)
      (split : as = p ++ .notify n :: q) :
      (∀ added, (sendVectorChartObjectInfo getName
          (run getName (history getName Database.created ss []).plugin p) n).queryQueue =
            (run getName (history getName Database.created ss []).plugin p).queryQueue ++ added →
        ∀ sql ∈ added, ∃ row, insertedObject sql = some row ∧
          ∃ r ∈ (sendVectorChartObjectInfo getName
            (run getName (history getName Database.created ss []).plugin p) n).db.chart.rows,
            row.chart_id = some r.1 ∧ r.2.chartname = some (chartName getName n)) ↔
        (Storable n → chartName getName n ∈ namesAt getName Database.created ss [] ∨
          chartName getName n ∈ (notifications p).map (chartName getName)) := by
    have upTo : as = (p ++ [.notify n]) ++ q := by simp [split]
    have plain' : PlainRun getName (p ++ [.notify n]) := (upTo ▸ plain).left
    have sound := sound_history earlier plain'.left
    have start : (history getName Database.created ss p).plugin =
        run getName (history getName Database.created ss []).plugin p := plugin_tracedRun _ _
    obtain ⟨db', eq⟩ := @history_eq_run getName Database.created ss
    have known : ¬NewChart getName (history getName Database.created ss p).plugin n ↔
        (chartName getName n ∈ namesAt getName Database.created ss [] ∨
          chartName getName n ∈ (notifications p).map (chartName getName)) := by
      rw [eq, newChart_run (ready_session db') plain'.left, not_not, namesAt, eq,
        known_session db']
      rfl
    rw [← start, ← known, ← queued_pointsAt_iff sound.ready plain'.last sound.charts,
      send_queryQueue sound.ready plain'.last.inserts]
    constructor
    · intro h sql queued
      exact h _ rfl sql queued
    · intro h added same
      rw [← List.append_cancel_left same]
      exact h
  constructor
  · intro h p n q split
    exact (here p n q split).mp (fun added => h p n q added split)
  · intro h p n q added split
    exact (here p n q split).mpr (h p n q split) added

theorem pointsAtOwnChart_iff_oneObject :
    PointsAtOwnChart posixName (history posixName Database.created [oneObject] []).plugin
        oneObject ↔
      ∀ p n q, oneObject = p ++ .notify n :: q → Storable n →
        chartName posixName n ∈ namesAt posixName Database.created [oneObject] [] ∨
          chartName posixName n ∈ (notifications p).map (chartName posixName) :=
  pointsAtOwnChart_iff [oneObject] oneObject (by unfold PlainRun Plain; decide)
    (by unfold PlainRun Plain; decide)

set_option maxRecDepth 4000 in
theorem oneObject_points_at_no_chart :
    PlainRun posixName oneObject ∧
      ¬PointsAtOwnChart posixName (history posixName Database.created [] []).plugin
        oneObject := by
  refine ⟨by unfold PlainRun Plain; decide, ?_⟩
  intro points
  obtain ⟨row, inserted, r, hr, same, -⟩ := points [] _ []
    [insertObjectSql 0 1 "Ambrose".toList 40 (-73)] rfl (by decide +kernel) _
    (List.mem_singleton_self _)
  rw [insertedObject_insertObjectSql, Option.some.injEq] at inserted
  rw [← inserted] at same
  have positive : 0 < r.1 := AutoTable.within _ r hr |>.1
  have zero : r.1 = 0 := (Option.some.inj same).symm
  omega

end ObjSearch.Index.Pointing
