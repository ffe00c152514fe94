/- In which session the objects of a chart are queued.
   digest: Only in the one that recorded the chart; a chart known at start-up stays as it is. -/

import ObjSearch.Index.History

set_option autoImplicit false
set_option relaxedAutoImplicit false

namespace ObjSearch.Index.OneSession

open ObjSearch.Lib.Texts (Text)
open ObjSearch.Lib.Tables
open ObjSearch.Lib.FirstSeen
open ObjSearch.Index.Storage
open ObjSearch.Index.Notify
open ObjSearch.Index.Effect
open ObjSearch.Index.Session
open ObjSearch.Index.Queueing
open ObjSearch.Index.History

variable (getName : Text → Text)

def QueuesAt (db : Database) (ss : List (List Action)) (i : ℕ) (p : List Action)
    (n : Notification) : Prop :=
  (∃ q, ss[i]? = some (p ++ .notify n :: q)) ∧
    Queues getName (history getName db (ss.take i) p).plugin n

def namesAt (db : Database) (ss : List (List Action)) (as : List Action) : List Text :=
  chartNames (history getName db ss as).plugin.db

variable {getName}

theorem plugin_tracedRun (t : Traced) (as : List Action) :
    (tracedRun getName t as).plugin = run getName t.plugin as := by
  induction as generalizing t with
  | nil => rfl
  | cons a as ih =>
    have step : (tracedAct getName t a).plugin = act getName t.plugin a := by
      cases a <;> rfl
    exact (ih _).trans (congrArg (fun s => run getName s as) step)

theorem history_eq_run (db : Database) (ss : List (List Action)) :
    ∃ db', ∀ as, (history getName db ss as).plugin = run getName (session db') as := by
  induction ss using List.reverseRecOn with
  | nil => exact ⟨db, plugin_tracedRun (start db)⟩
  | append_singleton ss bs ih =>
    refine ⟨close (history getName db ss bs).plugin, ?_⟩
    intro as
    rw [history, List.foldl_append, plugin_tracedRun]
    rfl

def Known (s : Plugin) : Prop := ∀ name, name ∈ s.chartsInDb ↔ name ∈ chartNames s.db

theorem chartNames_send {s : Plugin} {n : Notification} (ready : Ready s)
    (plain : Plain getName n) :
    chartNames (sendVectorChartObjectInfo getName s n).db =
      chartNames s.db ++ if NewChart getName s n then [chartName getName n] else [] := by
  rw [send_eq ready plain.inserts]
  unfold chartNames
  simp only [chartTableAfter]
  split_ifs
  · rw [AutoTable.rows_insert, List.map_append]
    rfl
  · rw [List.append_nil]

theorem known_send {s : Plugin} {n : Notification} (ready : Ready s) (plain : Plain getName n)
    (known : Known s) : Known (sendVectorChartObjectInfo getName s n) := by
  intro name
  rw [mem_charts_send ready plain, chartNames_send ready plain, List.mem_append, ← known name]
  split_ifs with new
  · rw [List.mem_singleton]
  · have old : chartName getName n ∈ s.chartsInDb := not_not.mp new
    constructor
    · rintro (here | rfl)
      · exact .inl here
      · exact .inl old
    · rintro (here | none)
      · exact .inl here
      · cases none

theorem known_run {s : Plugin} {as : List Action} (ready : Ready s) (plain : PlainRun getName as)
    (known : Known s) : Known (run getName s as) := by
  induction as using List.reverseRecOn with
  | nil => exact known
  | append_singleton as a ih =>
    have before := ready_run ready plain.left
    rw [run_concat]
    cases a with
    | notify n => exact known_send before plain.last (ih plain.left)
    | serve =>
      obtain ⟨object, lastRowId, eq⟩ := serve_eq before
      rw [act, eq]
      exact ih plain.left

theorem known_session (db : Database) : Known (session db) := mem_charts_session db

/-- The names in the table after some actions: those at the start of the session and those
notified since. -/
theorem mem_namesAt {db : Database} {ss : List (List Action)} {as : List Action}
    (plain : PlainRun getName as) (name : Text) :
    name ∈ namesAt getName db ss as ↔ name ∈ namesAt getName db ss [] ∨
      name ∈ (notifications as).map (chartName getName) := by
  obtain ⟨db', eq⟩ := @history_eq_run getName db ss
  have ready := ready_session db'
  have known := known_session db'
  unfold namesAt
  rw [eq, eq, ← known_run ready plain known name, mem_charts_run ready plain, known name]
  rfl

theorem namesAt_next {db : Database} {ss : List (List Action)} {as : List Action} :
    namesAt getName db (ss ++ [as]) [] = namesAt getName db ss as := by
  unfold namesAt history
  rw [List.foldl_append]
  rfl

theorem namesAt_mono {db : Database} {ss : List (List Action)} {name : Text} {i j : ℕ}
    (plain : ∀ as ∈ ss, PlainRun getName as) (le : i ≤ j)
    (here : name ∈ namesAt getName db (ss.take i) []) :
    name ∈ namesAt getName db (ss.take j) [] := by
  induction le with
  | refl => exact here
  | @step j _ ih =>
    rw [List.take_add_one]
    cases next : ss[j]? with
    | none => simpa using ih
    | some as =>
      have mem : as ∈ ss := List.mem_of_getElem? next
      rw [Option.toList_some, namesAt_next, mem_namesAt (plain as mem)]
      exact .inl ih

theorem loading_of_queues {s : Plugin} {n : Notification} (ready : Ready s)
    (plain : Plain getName n) (queues : Queues getName s n) :
    n.chart = loadingAfter getName s n := by
  by_contra other
  exact (queues_iff ready plain.inserts).mp queues (queued_of_not_loading other)

theorem unknown_of_queues {db : Database} {p : List Action} {n : Notification}
    (plain : PlainRun getName (p ++ [.notify n])) (path : n.chart ≠ [])
    (queues : Queues getName (run getName (session db) p) n) :
    chartName getName n ∉ (session db).chartsInDb := by
  have start := ready_session db
  have loading := loading_of_queues (ready_run start plain.left) plain.last queues
  unfold loadingAfter at loading
  split_ifs at loading with new
  · exact (not_or.mp ((newChart_run start plain.left n).mp new)).1
  · rcases (loading_run start plain.left n.chart).mp loading.symm with latest | ⟨-, none⟩
    · obtain ⟨f, ⟨_, _, _, unknown, _⟩, same⟩ := latest
      rwa [chartName, same] at unknown
    · exact absurd none.symm path

/-- The objects of charts of one name are all queued in one session, the one that recorded
the name. -/
theorem queued_in_one_session (db : Database) (ss : List (List Action))
    (plain : ∀ as ∈ ss, PlainRun getName as)
    (paths : ∀ as ∈ ss, ∀ n ∈ notifications as, n.chart ≠ []) :
    (∀ i p n, QueuesAt getName db ss i p n →
      chartName getName n ∉ namesAt getName db (ss.take i) [] ∧
        chartName getName n ∈ namesAt getName db (ss.take i) (p ++ [.notify n])) ∧
      ∀ i j p r n m, QueuesAt getName db ss i p n → QueuesAt getName db ss j r m →
        chartName getName n = chartName getName m → i = j := by
  have upTo (i : ℕ) (p : List Action) (n : Notification) (h : QueuesAt getName db ss i p n) :
      ∃ q, ss[i]? = some (p ++ [.notify n] ++ q) ∧ PlainRun getName (p ++ [.notify n]) := by
    obtain ⟨⟨q, here⟩, -⟩ := h
    have split : p ++ .notify n :: q = p ++ [.notify n] ++ q := by simp
    have whole := plain _ (List.mem_of_getElem? here)
    exact ⟨q, by rw [here, split], (split ▸ whole).left⟩
  have unknown (i : ℕ) (p : List Action) (n : Notification) (h : QueuesAt getName db ss i p n) :
      chartName getName n ∉ namesAt getName db (ss.take i) [] := by
    obtain ⟨q, here, plain'⟩ := upTo i p n h
    have mem := List.mem_of_getElem? here
    have path := paths _ mem n (mem_notifications.mpr (by simp))
    obtain ⟨db', eq⟩ := @history_eq_run getName db (ss.take i)
    have queues := h.2
    rw [eq] at queues
    unfold namesAt
    rw [eq]
    exact fun named => unknown_of_queues plain' path queues ((known_session db' _).mpr named)
  have recorded (i : ℕ) (p : List Action) (n : Notification) (h : QueuesAt getName db ss i p n) :
      chartName getName n ∈ namesAt getName db (ss.take i) (p ++ [.notify n]) := by
    obtain ⟨q, -, plain'⟩ := upTo i p n h
    exact (mem_namesAt plain' _).mpr (.inr (by simp [notifications_append, notifications]))
  -- a name recorded in one session is known at the start of every later one
  have later (i j : ℕ) (p r : List Action) (n m : Notification)
      (hn : QueuesAt getName db ss i p n) (hm : QueuesAt getName db ss j r m)
      (same : chartName getName n = chartName getName m) : ¬i < j := by
    intro lt
    obtain ⟨q, here, -⟩ := upTo i p n hn
    have whole := plain _ (List.mem_of_getElem? here)
    have next : chartName getName n ∈ namesAt getName db (ss.take (i + 1)) [] := by
      rw [List.take_add_one, here, Option.toList_some, namesAt_next, mem_namesAt whole]
      exact .inr (by simp [notifications_append, notifications])
    exact unknown j r m hm (same ▸ namesAt_mono plain lt next)
  refine ⟨fun i p n h => ⟨unknown i p n h, recorded i p n h⟩, ?_⟩
  intro i j p r n m hn hm same
  have := later i j p r n m hn hm same
  have := later j i r p m n hm hn same.symm
  omega

theorem queued_in_one_session_alternatingRows :
    (∀ i p n, QueuesAt posixName Database.created [alternatingRows, alternatingRows] i p n →
      chartName posixName n ∉
          namesAt posixName Database.created ([alternatingRows, alternatingRows].take i) [] ∧
        chartName posixName n ∈ namesAt posixName Database.created
          ([alternatingRows, alternatingRows].take i) (p ++ [.notify n])) ∧
      ∀ i j p r n m,
        QueuesAt posixName Database.created [alternatingRows, alternatingRows] i p n →
        QueuesAt posixName Database.created [alternatingRows, alternatingRows] j r m →
        chartName posixName n = chartName posixName m → i = j :=
  queued_in_one_session Database.created [alternatingRows, alternatingRows]
    (by unfold PlainRun Plain; decide) (by decide)

end ObjSearch.Index.OneSession
