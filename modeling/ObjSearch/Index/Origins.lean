/- Where the rows of the tables come from, over all sessions.
   digest: Every row was written for a notification of some session, every object names its own
   chart or none, and no notification is stored twice or out of turn. -/

import ObjSearch.Index.Pointing

set_option autoImplicit false
set_option relaxedAutoImplicit false

namespace ObjSearch.Index.Origins

open List (Forall₂)
open ObjSearch.Lib.Texts (Text)
open ObjSearch.Lib.Tables
open ObjSearch.Lib.NameIndex
open ObjSearch.Index.Storage
open ObjSearch.Index.Notify
open ObjSearch.Index.Effect
open ObjSearch.Index.Session
open ObjSearch.Index.Queueing (insertedObject insertedObject_insertObjectSql)
open ObjSearch.Index.History
open ObjSearch.Index.Pointing (mem_getChartId getChartId_of_new)

variable (getName : Text → Text)

def delivered (ss : List (List Action)) (as : List Action) : List Notification :=
  ss.flatMap notifications ++ notifications as

/-- The row refers to the row of its notification's chart, or to none: ids start at 1. -/
def OnChart (chart : AutoTable ChartRow) (n : Notification) (row : ObjectRow) : Prop :=
  row.chart_id = some 0 ∨
    ∃ r ∈ chart.rows, row.chart_id = some r.1 ∧ r.2.chartname = some (chartName getName n)

/-- The second pair of sessions and actions goes on from where the first one is. -/
def Continues (ss : List (List Action)) (as : List Action) (ss' : List (List Action))
    (as' : List Action) : Prop :=
  ss' = ss ∧ as <+: as' ∨ ∃ bs rest, as <+: bs ∧ ss' = ss ++ bs :: rest

structure WrittenFor (ns : List Notification) (t : Traced) : Prop where
  charts : ∀ r ∈ t.plugin.db.chart.rows, ∃ m ∈ ns,
    r.2 = chartRow (chartName getName m) m.scale m.nativescale
  features : ∀ r ∈ t.plugin.db.feature.rows, ∃ m ∈ ns, r.2 = ⟨some m.feature⟩
  stored : Forall₂ (OnChart getName t.plugin.db.chart) t.stored
    (t.plugin.db.object.rows.map Prod.snd)
  queued : Forall₂ (fun n sql => ∃ row, insertedObject sql = some row ∧
    OnChart getName t.plugin.db.chart n row) t.pending t.plugin.queryQueue

variable {getName}

theorem OnChart.mono {chart chart' : AutoTable ChartRow} {n : Notification} {row : ObjectRow}
    (h : OnChart getName chart n row) (kept : ∀ r ∈ chart.rows, r ∈ chart'.rows) :
    OnChart getName chart' n row :=
  h.imp_right fun ⟨r, hr, id, name⟩ => ⟨r, kept r hr, id, name⟩

theorem mem_chartTableAfter {s : Plugin} {n : Notification} {r : ℤ × ChartRow}
    (h : r ∈ s.db.chart.rows) : r ∈ (chartTableAfter getName s n).rows := by
  unfold chartTableAfter
  split_ifs
  · exact List.mem_append_left _ h
  · exact h

theorem exists_of_mem_chartTableAfter {s : Plugin} {n : Notification} {r : ℤ × ChartRow}
    (h : r ∈ (chartTableAfter getName s n).rows) :
    r ∈ s.db.chart.rows ∨ r.2 = chartRow (chartName getName n) n.scale n.nativescale := by
  unfold chartTableAfter at h
  split_ifs at h
  · rcases List.mem_append.mp h with old | new
    · exact .inl old
    · exact .inr (by rw [List.mem_singleton.mp new])
  · exact .inl h

theorem exists_of_mem_featureTableAfter {s : Plugin} {n : Notification} {r : ℤ × FeatureRow}
    (h : r ∈ (featureTableAfter s n).rows) : r ∈ s.db.feature.rows ∨ r.2 = ⟨some n.feature⟩ := by
  unfold featureTableAfter at h
  split_ifs at h
  · rcases List.mem_append.mp h with old | new
    · exact .inl old
    · exact .inr (by rw [List.mem_singleton.mp new])
  · exact .inl h

theorem onChart_queued {s : Plugin} {n : Notification} {sql : Text} (ready : Ready s)
    (h : Indexes (chartView s.db.chart) (chartIds s.chartsInDb))
    (here : sql ∈ queued getName s n) :
    ∃ row, insertedObject sql = some row ∧
      OnChart getName (chartTableAfter getName s n) n row := by
  unfold queued at here
  split_ifs at here
  · rw [List.mem_singleton.mp here]
    refine ⟨_, insertedObject_insertObjectSql _ _ _ _ _, ?_⟩
    by_cases new : NewChart getName s n
    · exact .inl (congrArg some (getChartId_of_new ready new))
    · obtain ⟨r, hr, id, name⟩ := mem_getChartId ready.usable h new
      exact .inr ⟨r, mem_chartTableAfter hr, congrArg some id, name⟩
  · cases here

theorem writtenFor_notify {ns : List Notification} {t : Traced} {n : Notification}
    (h : WrittenFor getName ns t) (sound : Sound t) (plain : PlainInserts getName t.plugin n) :
    WrittenFor getName (ns ++ [n]) (tracedAct getName t (.notify n)) := by
  obtain ⟨s, stored, pending⟩ := t
  have kept : ∀ r ∈ s.db.chart.rows, r ∈ (chartTableAfter getName s n).rows :=
    fun _ hr => mem_chartTableAfter hr
  have waiting : Forall₂ (fun n' sql => ∃ row, insertedObject sql = some row ∧
      OnChart getName (chartTableAfter getName s n) n' row) pending s.queryQueue :=
    h.queued.imp fun _ _ ⟨row, inserted, on⟩ => ⟨row, inserted, on.mono kept⟩
  have queues := queues_iff sound.ready plain
  show WrittenFor getName (ns ++ [n]) ⟨sendVectorChartObjectInfo getName s n, stored,
    if Queues getName s n then pending ++ [n] else pending⟩
  rw [send_eq sound.ready plain]
  refine ⟨?_, ?_, h.stored.imp fun _ _ on => on.mono kept, ?_⟩
  · intro r hr
    rcases exists_of_mem_chartTableAfter hr with old | new
    · obtain ⟨m, hm, same⟩ := h.charts r old
      exact ⟨m, List.mem_append_left _ hm, same⟩
    · exact ⟨n, by simp, new⟩
  · intro r hr
    rcases exists_of_mem_featureTableAfter hr with old | new
    · obtain ⟨m, hm, same⟩ := h.features r old
      exact ⟨m, List.mem_append_left _ hm, same⟩
    · exact ⟨n, by simp, new⟩
  · by_cases none : queued getName s n = []
    · rw [none, List.append_nil, if_neg (fun grown => queues.mp grown none)]
      exact waiting
    · obtain ⟨sql, only⟩ : ∃ sql, queued getName s n = [sql] := by
        unfold queued at none ⊢
        split_ifs at none ⊢
        · exact ⟨_, rfl⟩
        · exact absurd rfl none
      have last := onChart_queued sound.ready sound.charts
        (show sql ∈ queued getName s n by simp [only])
      rw [only, if_pos (queues.mpr none)]
      exact List.rel_append waiting (.cons last .nil)

theorem writtenFor_serve {ns : List Notification} {t : Traced} (h : WrittenFor getName ns t)
    (sound : Sound t) : WrittenFor getName ns (tracedAct getName t .serve) := by
  obtain ⟨s, stored, pending⟩ := t
  have waiting := h.queued
  show WrittenFor getName ns ⟨serve s, stored ++ pending.take 1, pending.tail⟩
  cases queue : s.queryQueue with
  | nil =>
    have idle : serve s = s := by simp [serve, queue]
    obtain rfl : pending = [] := by simpa [queue] using waiting
    rw [idle, List.take_nil, List.append_nil, List.tail_nil]
    exact h
  | cons sql rest =>
    obtain ⟨c, f, name, lat, lon, rfl⟩ := sound.ready.queue sql (by simp [queue])
    rw [queue] at waiting
    obtain ⟨n, later, ⟨row, inserted, on⟩, others, rfl⟩ := List.forall₂_cons_right_iff.mp waiting
    rw [insertedObject_insertObjectSql, Option.some.injEq] at inserted
    rw [serve_insert queue]
    refine ⟨h.charts, h.features, ?_, others⟩
    rw [List.take_succ_cons, List.take_zero]
    show Forall₂ _ (stored ++ [n]) ((s.db.object.insert _).rows.map Prod.snd)
    rw [KeyedTable.rows_insert, List.map_append]
    exact List.rel_append h.stored (.cons (inserted ▸ on) .nil)

theorem writtenFor_tracedRun {ns : List Notification} {t : Traced} {as : List Action}
    (h : WrittenFor getName ns t) (sound : Sound t) (plain : PlainRun getName as) :
    WrittenFor getName (ns ++ notifications as) (tracedRun getName t as) := by
  induction as using List.reverseRecOn with
  | nil =>
    rw [notifications, List.append_nil]
    exact h
  | append_singleton as a ih =>
    have before := sound_tracedRun sound plain.left
    rw [tracedRun, List.foldl_append, notifications_append, ← List.append_assoc]
    cases a with
    | notify n => exact writtenFor_notify (ih plain.left) before plain.last.inserts
    | serve =>
      rw [notifications, notifications, List.append_nil]
      exact writtenFor_serve (ih plain.left) before

theorem writtenFor_restart {ns : List Notification} {t : Traced} (h : WrittenFor getName ns t)
    (sound : Sound t) : WrittenFor getName ns (restart t) := by
  have db := (restart_eq sound).1
  refine ⟨?_, ?_, ?_, .nil⟩
  · rw [db]
    exact h.charts
  · rw [db]
    exact h.features
  · rw [db]
    exact h.stored

theorem writtenFor_history (ss : List (List Action)) (as : List Action)
    (earlier : ∀ bs ∈ ss, PlainRun getName bs) (plain : PlainRun getName as) :
    WrittenFor getName (delivered ss as) (history getName Database.created ss as) := by
  have before : Sound (ss.foldl (fun t as => restart (tracedRun getName t as))
      (start Database.created)) ∧ WrittenFor getName (ss.flatMap notifications)
        (ss.foldl (fun t as => restart (tracedRun getName t as)) (start Database.created)) := by
    induction ss using List.reverseRecOn with
    | nil => exact ⟨sound_start, by simp [start, session, threadStarted, init, initDB,
        Database.created], by simp [start, session, threadStarted, init, initDB,
        Database.created], .nil, .nil⟩
    | append_singleton ss bs ih =>
      obtain ⟨sound, written⟩ := ih fun cs hcs => earlier cs (List.mem_append_left _ hcs)
      have here := earlier bs (by simp)
      have sound' := sound_tracedRun sound here
      rw [List.foldl_append, List.flatMap_append]
      refine ⟨sound_restart sound', writtenFor_restart ?_ sound'⟩
      simpa using writtenFor_tracedRun written sound here
  exact writtenFor_tracedRun before.2 before.1 plain

/-! The record of stored and pending notifications keeps their order. -/

theorem sublist_tracedAct (t : Traced) (a : Action) :
    ((tracedAct getName t a).stored ++ (tracedAct getName t a).pending).Sublist
      ((t.stored ++ t.pending) ++ notifications [a]) := by
  cases a with
  | notify n =>
    show (t.stored ++ if _ then _ else _).Sublist _
    split_ifs
    · rw [← List.append_assoc]
      exact List.Sublist.refl _
    · exact List.sublist_append_left _ _
  | serve =>
    show ((t.stored ++ t.pending.take 1) ++ t.pending.tail).Sublist _
    rw [← List.drop_one, List.append_assoc, List.take_append_drop]
    exact List.sublist_append_left _ _

theorem sublist_tracedRun (t : Traced) (as : List Action) :
    ((tracedRun getName t as).stored ++ (tracedRun getName t as).pending).Sublist
      ((t.stored ++ t.pending) ++ notifications as) := by
  induction as generalizing t with
  | nil => exact List.sublist_append_left _ _
  | cons a as ih =>
    refine (ih (tracedAct getName t a)).trans ?_
    rw [show a :: as = [a] ++ as from rfl, notifications_append, ← List.append_assoc]
    exact (sublist_tracedAct t a).append_right _

/-- The objects in the table and in the queue are those of notifications delivered, in order and
each at most once. -/
theorem sublist_history (db : Database) (ss : List (List Action)) (as : List Action) :
    ((history getName db ss as).stored ++ (history getName db ss as).pending).Sublist
      (delivered ss as) := by
  have before : ((ss.foldl (fun t as => restart (tracedRun getName t as)) (start db)).stored ++
      (ss.foldl (fun t as => restart (tracedRun getName t as)) (start db)).pending).Sublist
        (ss.flatMap notifications) := by
    induction ss using List.reverseRecOn with
    | nil => exact .slnil
    | append_singleton ss bs ih =>
      rw [List.foldl_append, List.flatMap_append, List.flatMap_singleton]
      -- a restart drops the pending ones
      have dropped (t : Traced) : ((restart t).stored ++ (restart t).pending).Sublist
          (t.stored ++ t.pending) := by
        rw [restart, List.append_nil]
        exact List.sublist_append_left _ _
      exact (dropped _).trans ((sublist_tracedRun _ bs).trans (ih.append_right _))
  exact (sublist_tracedRun _ as).trans (before.append_right _)

/-! What is stored stays stored. -/

theorem stored_tracedAct (t : Traced) (a : Action) : t.stored ⊆ (tracedAct getName t a).stored := by
  cases a with
  | notify n => exact List.Subset.refl _
  | serve => exact List.subset_append_left _ _

theorem stored_tracedRun (t : Traced) (as : List Action) :
    t.stored ⊆ (tracedRun getName t as).stored := by
  induction as generalizing t with
  | nil => exact List.Subset.refl _
  | cons a as ih => exact List.Subset.trans (stored_tracedAct t a) (ih _)

theorem stored_history_of_continues {db : Database} {ss ss' : List (List Action)}
    {as as' : List Action} (h : Continues ss as ss' as') :
    (history getName db ss as).stored ⊆ (history getName db ss' as').stored := by
  have longer {bs cs : List Action} (more : bs <+: cs) (t : Traced) :
      (tracedRun getName t bs).stored ⊆ (tracedRun getName t cs).stored := by
    obtain ⟨ds, rfl⟩ := more
    rw [tracedRun, tracedRun, List.foldl_append]
    exact stored_tracedRun _ ds
  rcases h with ⟨rfl, more⟩ | ⟨bs, rest, more, rfl⟩
  · exact longer more _
  · have sessions (t : Traced) :
        t.stored ⊆ (rest.foldl (fun t as => restart (tracedRun getName t as)) t).stored := by
      induction rest generalizing t with
      | nil => exact List.Subset.refl _
      | cons cs rest ih =>
        exact List.Subset.trans (stored_tracedRun t cs) (ih (restart (tracedRun getName t cs)))
    refine List.Subset.trans (longer more _) ?_
    rw [history, List.foldl_append, List.foldl_cons]
    exact List.Subset.trans (sessions (restart _)) (stored_tracedRun _ as')

end ObjSearch.Index.Origins
