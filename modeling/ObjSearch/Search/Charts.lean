/- The chart columns that the list statement joins to the objects.
   digest: Where every chart becomes known by a notification without an object of its own, no object
   is left without the row of its chart, and no chart column of the join is NULL. -/

import ObjSearch.Index.Blocks
import ObjSearch.Search.Answers

set_option autoImplicit false
set_option relaxedAutoImplicit false

namespace ObjSearch.Search.Charts

open List (Forall₂)
open ObjSearch.Lib.Texts (Text)
open ObjSearch.Lib.Printf (written)
open ObjSearch.Sql.Eval
open ObjSearch.Index.Storage
open ObjSearch.Index.Notify
open ObjSearch.Index.Effect
open ObjSearch.Index.Session
open ObjSearch.Index.Queueing
open ObjSearch.Index.History
open ObjSearch.Index.OneSession (namesAt)
open ObjSearch.Index.Pointing (mem_getChartId)
open ObjSearch.Index.Blocks (newChart_history history_concat)
open ObjSearch.Index.Origins
open ObjSearch.Search.Statements
open ObjSearch.Search.Catalog
open ObjSearch.Search.Completeness (flatHost)
open ObjSearch.Search.Answers (chart_of_refers)

variable (getName : Text → Text)

/-- In the session after `ss`, no notification whose object can be stored is the first one of its
chart. -/
def ChartsFirst (ss : List (List Action)) (as : List Action) : Prop :=
  ∀ p n q, as = p ++ .notify n :: q → Storable n →
    chartName getName n ∈ namesAt getName Database.created ss [] ∨
      chartName getName n ∈ (notifications p).map (chartName getName)

structure Numbered (s : Plugin) : Prop where
  rows : ∀ r ∈ s.db.object.rows, r.2.chart_id ≠ some 0
  queue : ∀ sql ∈ s.queryQueue, ∃ row, insertedObject sql = some row ∧ row.chart_id ≠ some 0

variable {getName}

theorem numbered_notify {t : Traced} {n : Notification} (h : Numbered t.plugin) (sound : Sound t)
    (plain : Plain getName n) (old : Storable n → ¬NewChart getName t.plugin n) :
    Numbered (tracedAct getName t (.notify n)).plugin := by
  show Numbered (sendVectorChartObjectInfo getName t.plugin n)
  rw [send_eq sound.ready plain.inserts]
  refine ⟨h.rows, ?_⟩
  intro sql here
  rcases List.mem_append.mp here with before | now
  · exact h.queue sql before
  · unfold queued at now
    split_ifs at now with stored
    · obtain ⟨r, hr, id, -⟩ := mem_getChartId sound.ready.usable sound.charts (old stored.2)
      have positive := (t.plugin.db.chart.within r hr).1
      rw [List.mem_singleton.mp now, insertedObject_insertObjectSql]
      refine ⟨_, rfl, ?_⟩
      show some (getChartId getName t.plugin n.chart) ≠ some 0
      rw [id]
      exact fun zero => absurd (Option.some.inj zero) positive.ne'
    · cases now

theorem numbered_serve {t : Traced} (h : Numbered t.plugin) (sound : Sound t) :
    Numbered (tracedAct getName t .serve).plugin := by
  show Numbered (serve t.plugin)
  cases queue : t.plugin.queryQueue with
  | nil =>
    have idle : serve t.plugin = t.plugin := by simp [serve, queue]
    rw [idle]
    exact h
  | cons sql rest =>
    obtain ⟨c, f, name, lat, lon, rfl⟩ := sound.ready.queue sql (by simp [queue])
    obtain ⟨row, inserted, other⟩ := h.queue _ (by rw [queue]; exact List.mem_cons_self)
    rw [insertedObject_insertObjectSql, Option.some.injEq] at inserted
    rw [serve_insert queue]
    refine ⟨?_, fun sql later => h.queue sql (by rw [queue]; exact List.mem_cons_of_mem _ later)⟩
    intro r hr
    rcases List.mem_append.mp hr with before | now
    · exact h.rows r before
    · rw [List.mem_singleton.mp now, inserted]
      exact other

theorem numbered_history {ss : List (List Action)} {as : List Action}
    (start : Numbered (history getName Database.created ss []).plugin)
    (earlier : ∀ bs ∈ ss, PlainRun getName bs) (plain : PlainRun getName as)
    (first : ChartsFirst getName ss as) :
    Numbered (history getName Database.created ss as).plugin := by
  induction as using List.reverseRecOn with
  | nil => exact start
  | append_singleton as a ih =>
    have sound := sound_history earlier plain.left
    have before := ih plain.left fun p n q split =>
      first p n (q ++ [a]) (by rw [split, List.append_assoc]; rfl)
    rw [history_concat]
    cases a with
    | notify n =>
      refine numbered_notify before sound plain.last fun storable => ?_
      rw [newChart_history plain.left, not_not]
      exact first as n [] rfl storable
    | serve => exact numbered_serve before sound

/-- A restart leaves the objects as they are and begins with an empty queue. -/
theorem numbered_sessions {ss : List (List Action)} (earlier : ∀ bs ∈ ss, PlainRun getName bs)
    (first : ∀ pre bs post, ss = pre ++ bs :: post → ChartsFirst getName pre bs) :
    Numbered (history getName Database.created ss []).plugin := by
  induction ss using List.reverseRecOn with
  | nil => exact ⟨fun r hr => (by cases hr), fun sql here => (by cases here)⟩
  | append_singleton ss bs ih =>
    have earlier' : ∀ cs ∈ ss, PlainRun getName cs := fun cs hcs =>
      earlier cs (List.mem_append_left _ hcs)
    have here := earlier bs (by simp)
    have start := ih earlier' fun pre cs post split =>
      first pre cs (post ++ [bs]) (by rw [split, List.append_assoc]; rfl)
    have ended := numbered_history start earlier' here (first ss bs [] rfl)
    have again : history getName Database.created (ss ++ [bs]) [] =
        restart (history getName Database.created ss bs) := by
      rw [history, List.foldl_append]
      rfl
    rw [again]
    refine ⟨?_, fun sql queued => (by cases queued)⟩
    rw [(restart_eq (sound_history earlier' here)).1]
    exact ended.rows

theorem evalAll_chart (host : Host) {db : Database} {o : ObjectRow} {id : ℤ} {name : Text}
    {scale : ℚ} {nativescale : ℤ}
    (found : chartOf db o = some (id, chartRow name scale nativescale)) :
    evalAll ((tables host db).context (listRow db o))
        [column "ch" "scale", column "ch" "nativescale", column "ch" "chartname"] =
      .ok [.real (written scale), .int nativescale, .text name] := by
  rw [listRow, countRow, found]
  cases featureOf db o <;> rfl

/-- Where in no session a notification whose object can be stored is the first one of its chart, the
LEFT JOIN finds the chart of every object: its columns are the name of that chart and the scales of
a notification of it. -/
theorem charts_joined (host : Host) (ss : List (List Action)) (as : List Action)
    (earlier : ∀ bs ∈ ss, PlainRun getName bs) (plain : PlainRun getName as)
    (first : ∀ pre bs post, ss ++ [as] = pre ++ bs :: post → ChartsFirst getName pre bs) :
    let t := history getName Database.created ss as
    Forall₂ (fun n o => ∃ m ∈ delivered ss as, chartName getName m = chartName getName n ∧
        evalAll ((tables host t.plugin.db).context (listRow t.plugin.db o))
            [column "ch" "scale", column "ch" "nativescale", column "ch" "chartname"] =
          .ok [.real (written m.scale), .int m.nativescale, .text (chartName getName n)])
      t.stored (t.plugin.db.object.rows.map Prod.snd) := by
  intro t
  have written_ : WrittenFor getName (delivered ss as) t := writtenFor_history ss as earlier plain
  have start := numbered_sessions earlier fun pre bs post split =>
    first pre bs (post ++ [as]) (by rw [split, List.append_assoc]; rfl)
  have numbered := numbered_history start earlier plain (first ss as [] rfl)
  have both : Forall₂ (fun n o => o ∈ t.plugin.db.object.rows.map Prod.snd ∧
      OnChart getName t.plugin.db.chart n o) t.stored (t.plugin.db.object.rows.map Prod.snd) := by
    have charts := written_.stored
    rw [List.forall₂_iff_get] at charts ⊢
    exact ⟨charts.1, fun i h h' => ⟨List.get_mem _ _, charts.2 i h h'⟩⟩
  refine both.imp fun n o ⟨mem, on⟩ => ?_
  obtain ⟨r, hr, rfl⟩ := List.mem_map.mp mem
  rcases on with zero | ⟨ch, hch, refers, name⟩
  · exact absurd zero (numbered.rows r hr)
  · obtain ⟨m, hm, same, id, found⟩ := chart_of_refers written_ hch refers name
    exact ⟨m, hm, same, evalAll_chart host found⟩

def namelessFirst : List Action :=
  [.notify ⟨"A.000".toList, "DEPARE".toList, [], 40, -73, 1, 25000⟩,
    .notify ⟨"A.000".toList, "LIGHTS".toList, "Ambrose".toList, 40, -73, 1, 25000⟩, .serve]

theorem charts_joined_namelessFirst :
    let t := history posixName Database.created [] namelessFirst
    Forall₂ (fun n o => ∃ m ∈ delivered [] namelessFirst,
        chartName posixName m = chartName posixName n ∧
        evalAll ((tables flatHost t.plugin.db).context (listRow t.plugin.db o))
            [column "ch" "scale", column "ch" "nativescale", column "ch" "chartname"] =
          .ok [.real (written m.scale), .int m.nativescale, .text (chartName posixName n)])
      t.stored (t.plugin.db.object.rows.map Prod.snd) := by
  refine charts_joined flatHost [] namelessFirst (by simp) (by unfold PlainRun Plain; decide) ?_
  intro pre bs post split p n q here storable
  obtain ⟨rfl, rfl⟩ : pre = [] ∧ bs = namelessFirst := by
    rcases pre with _ | ⟨cs, pre⟩
    · exact ⟨rfl, (List.cons.inj split).1.symm⟩
    · simp at split
  right
  rcases p with _ | ⟨a, _ | ⟨b, _ | ⟨c, p⟩⟩⟩
  · obtain ⟨first, -⟩ := List.cons.inj here
    obtain rfl := Action.notify.inj first
    exact absurd storable.1 (by decide)
  · obtain ⟨rfl, rest⟩ := List.cons.inj here
    obtain rfl := Action.notify.inj (List.cons.inj rest).1
    decide
  · cases (List.cons.inj (List.cons.inj (List.cons.inj here).2).2).1
  · simp [namelessFirst] at here

end ObjSearch.Search.Charts
