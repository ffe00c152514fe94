/- Charts that come one after the other.
   digest: Where the notifications of each new chart come in one block, every object of theirs that
   can be stored is stored, and in order where no other chart comes in between. -/

import ObjSearch.Index.OneSession

set_option autoImplicit false
set_option relaxedAutoImplicit false

namespace ObjSearch.Index.Blocks

open ObjSearch.Lib.Texts (Text)
open ObjSearch.Index.Storage
open ObjSearch.Index.Notify
open ObjSearch.Index.Effect
open ObjSearch.Index.Session
open ObjSearch.Index.Queueing
open ObjSearch.Index.History
open ObjSearch.Index.OneSession

variable (getName : Text → Text)

/-- A notification of a chart that was seen before comes right after another one of its path. -/
def InBlocks (ns : List Notification) : Prop :=
  ∀ p n q, ns = p ++ n :: q → chartName getName n ∈ p.map (chartName getName) →
    p.getLast?.map Notification.chart = some n.chart

variable {getName}

theorem inBlocks_iff {ns : List Notification} :
    InBlocks getName ns ↔ ∀ i (lt : i < ns.length),
      ((ns.take i).map (chartName getName)).contains (chartName getName ns[i]) →
        (ns.take i).getLast?.map Notification.chart = some ns[i].chart := by
  constructor
  · intro h i lt seen
    exact h (ns.take i) ns[i] (ns.drop (i + 1)) (by simp) (List.contains_iff_mem.mp seen)
  · rintro h p n q rfl seen
    have here := h p.length (by simp)
    rw [List.take_left, List.getElem_of_append rfl rfl] at here
    exact here (List.contains_iff_mem.mpr seen)

instance (ns : List Notification) : Decidable (InBlocks getName ns) :=
  decidable_of_iff _ inBlocks_iff.symm

theorem InBlocks.left {ns ms : List Notification} (h : InBlocks getName (ns ++ ms)) :
    InBlocks getName ns := by
  intro p n q split seen
  exact h p n (q ++ ms) (by rw [split, List.append_assoc]; rfl) seen

theorem newChart_history {db : Database} {ss : List (List Action)} {as : List Action}
    (plain : PlainRun getName as) (n : Notification) :
    NewChart getName (history getName db ss as).plugin n ↔
      ¬(chartName getName n ∈ namesAt getName db ss [] ∨
        chartName getName n ∈ (notifications as).map (chartName getName)) := by
  obtain ⟨db', eq⟩ := @history_eq_run getName db ss
  rw [eq, newChart_run (ready_session db') plain, namesAt, eq, known_session db']
  rfl

theorem history_concat (db : Database) (ss : List (List Action)) (as : List Action) (a : Action) :
    history getName db ss (as ++ [a]) = tracedAct getName (history getName db ss as) a := by
  rw [history, tracedRun, List.foldl_append]
  rfl

theorem chartLoading_serve {s : Plugin} (ready : Ready s) :
    (serve s).chartLoading = s.chartLoading := by
  obtain ⟨object, lastRowId, eq⟩ := serve_eq ready
  rw [eq]

def ofNewCharts (getName : Text → Text) (names : List Text) (ns : List Notification) :
    List Notification :=
  ns.filter fun n => !names.contains (chartName getName n)

theorem mem_ofNewCharts {names : List Text} {ns : List Notification} {n : Notification} :
    n ∈ ofNewCharts getName names ns ↔ n ∈ ns ∧ chartName getName n ∉ names := by
  simp [ofNewCharts]

theorem ofNewCharts_eq_self {names : List Text} {ns : List Notification}
    (new : ∀ n ∈ ns, chartName getName n ∉ names) : ofNewCharts getName names ns = ns :=
  List.filter_eq_self.mpr fun n hn => by simpa using new n hn

theorem ofNewCharts_append (names : List Text) (ns ms : List Notification) :
    ofNewCharts getName names (ns ++ ms) =
      ofNewCharts getName names ns ++ ofNewCharts getName names ms := List.filter_append ..

theorem ofNewCharts_new {names : List Text} {n : Notification} (new : chartName getName n ∉ names) :
    ofNewCharts getName names [n] = [n] :=
  ofNewCharts_eq_self fun _ hm => List.mem_singleton.mp hm ▸ new

theorem ofNewCharts_old {names : List Text} {n : Notification} (old : chartName getName n ∈ names) :
    ofNewCharts getName names [n] = [] := by
  simp [ofNewCharts, old]

def LoadsLatest (s : Plugin) (ns : List Notification) : Prop :=
  ∀ l, ns.getLast? = some l → s.chartLoading = l.chart

section InSession

variable {ss : List (List Action)} {as : List Action} {names : List Text}
  (known : names = namesAt getName Database.created ss [])

include known

theorem loadingAfter_of_inBlocks {n : Notification} (plain : PlainRun getName as)
    (new : chartName getName n ∉ names)
    (blocks : InBlocks getName (ofNewCharts getName names (notifications as) ++ [n]))
    (latest : LoadsLatest (history getName Database.created ss as).plugin
      (ofNewCharts getName names (notifications as))) :
    n.chart = loadingAfter getName (history getName Database.created ss as).plugin n := by
  rw [loadingAfter]
  split_ifs with first
  · rfl
  · have seen := (not_not.mp ((newChart_history plain n).not.mp first)).resolve_left (known ▸ new)
    obtain ⟨m, hm, name⟩ := List.mem_map.mp seen
    have before : chartName getName n ∈
        (ofNewCharts getName names (notifications as)).map (chartName getName) :=
      List.mem_map.mpr ⟨m, mem_ofNewCharts.mpr ⟨hm, name ▸ new⟩, name⟩
    obtain ⟨l, last, same⟩ := Option.map_eq_some_iff.mp (blocks _ n [] rfl before)
    rw [latest l last, same]

/-- Charts that were known at the start come in between and change nothing. -/
theorem loadsLatest_of_inBlocks (earlier : ∀ bs ∈ ss, PlainRun getName bs)
    (plain : PlainRun getName as)
    (blocks : InBlocks getName (ofNewCharts getName names (notifications as))) :
    LoadsLatest (history getName Database.created ss as).plugin
      (ofNewCharts getName names (notifications as)) := by
  induction as using List.reverseRecOn with
  | nil => exact fun _ none => (by cases none)
  | append_singleton as a ih =>
    have sound := sound_history earlier plain.left
    rw [notifications_append, ofNewCharts_append] at blocks ⊢
    have latest := ih plain.left blocks.left
    rw [history_concat]
    cases a with
    | serve =>
      simp only [notifications, ofNewCharts, List.filter_nil, List.append_nil]
      exact fun l last => (chartLoading_serve sound.ready).trans (latest l last)
    | notify n =>
      have sent : (tracedAct getName (history getName Database.created ss as)
          (.notify n)).plugin.chartLoading =
          loadingAfter getName (history getName Database.created ss as).plugin n := by
        show (sendVectorChartObjectInfo getName _ n).chartLoading = _
        rw [send_eq sound.ready plain.last.inserts]
      by_cases old : chartName getName n ∈ names
      · have unseen : ¬NewChart getName (history getName Database.created ss as).plugin n := by
          rw [newChart_history plain.left, not_not]
          exact .inl (known ▸ old)
        have none_ : ofNewCharts getName names (notifications [.notify n]) = [] :=
          ofNewCharts_old old
        rw [none_, List.append_nil]
        intro l last
        rw [sent, loadingAfter, if_neg unseen]
        exact latest l last
      · have one : ofNewCharts getName names (notifications [.notify n]) = [n] :=
          ofNewCharts_new old
        rw [one] at blocks ⊢
        intro l last
        obtain rfl : n = l := by simpa using last
        rw [sent]
        exact (loadingAfter_of_inBlocks known plain.left old blocks latest).symm

/-- The next notification of a new chart queues its object, if it can be stored. -/
theorem queues_of_inBlocks {n : Notification} (earlier : ∀ bs ∈ ss, PlainRun getName bs)
    (plain : PlainRun getName (as ++ [.notify n])) (new : chartName getName n ∉ names)
    (blocks : InBlocks getName (ofNewCharts getName names (notifications as) ++ [n]))
    (storable : Storable n) :
    Queues getName (history getName Database.created ss as).plugin n := by
  have loading := loadingAfter_of_inBlocks known plain.left new blocks
    (loadsLatest_of_inBlocks known earlier plain.left blocks.left)
  have ready := (sound_history earlier plain.left).ready
  rw [queues_iff ready plain.last.inserts, queued_of_loading storable loading]
  exact List.cons_ne_nil _ _

theorem held_of_inBlocks (earlier : ∀ bs ∈ ss, PlainRun getName bs) (plain : PlainRun getName as)
    (blocks : InBlocks getName (ofNewCharts getName names (notifications as))) {n : Notification}
    (told : n ∈ notifications as) (new : chartName getName n ∉ names) (storable : Storable n) :
    n ∈ (history getName Database.created ss as).stored ++
      (history getName Database.created ss as).pending := by
  induction as using List.reverseRecOn with
  | nil => cases told
  | append_singleton as a ih =>
    rw [notifications_append] at told
    rw [notifications_append, ofNewCharts_append] at blocks
    have before (here : n ∈ notifications as) := ih plain.left blocks.left here
    rw [history_concat]
    cases a with
    | serve =>
      have account : (history getName Database.created ss as).stored ++
            (history getName Database.created ss as).pending.take 1 ++
            (history getName Database.created ss as).pending.tail =
          (history getName Database.created ss as).stored ++
            (history getName Database.created ss as).pending := by
        rw [← List.drop_one, List.append_assoc, List.take_append_drop]
      exact account ▸ before (by simpa [notifications] using told)
    | notify m =>
      show n ∈ _ ++ if Queues getName _ m then _ ++ [m] else _
      rcases List.mem_append.mp told with here | now
      · rcases List.mem_append.mp (before here) with stored | pending
        · exact List.mem_append_left _ stored
        · apply List.mem_append_right
          split_ifs
          · exact List.mem_append_left _ pending
          · exact pending
      · obtain rfl : n = m := by simpa [notifications] using now
        have one : ofNewCharts getName names (notifications [.notify n]) = [n] :=
          ofNewCharts_new new
        rw [one] at blocks
        rw [if_pos (queues_of_inBlocks known earlier plain new blocks storable)]
        exact List.mem_append_right _ (List.mem_append_right _ List.mem_cons_self)

end InSession

theorem stored_of_inBlocks {ss : List (List Action)} {as : List Action}
    (earlier : ∀ bs ∈ ss, PlainRun getName bs) (plain : PlainRun getName as)
    (new : ∀ n ∈ notifications as, chartName getName n ∉ namesAt getName Database.created ss [])
    (blocks : InBlocks getName (notifications as)) :
    (history getName Database.created ss as).stored ++
        (history getName Database.created ss as).pending =
      ((history getName Database.created ss []).stored ++
        (history getName Database.created ss []).pending) ++
        (notifications as).filter (fun n => Storable n) := by
  induction as using List.reverseRecOn with
  | nil => simp [notifications]
  | append_singleton as a ih =>
    have sound := sound_history earlier plain.left
    rw [notifications_append] at blocks new ⊢
    have new' : ∀ n ∈ notifications as, chartName getName n ∉ _ :=
      fun n hn => new n (List.mem_append_left _ hn)
    have account := ih plain.left new' blocks.left
    rw [history_concat]
    cases a with
    | serve =>
      simp only [notifications, List.append_nil]
      rw [← account]
      show (_ ++ List.take 1 _) ++ List.tail _ = _
      rw [← List.drop_one, List.append_assoc, List.take_append_drop]
    | notify n =>
      have storing (storable : Storable n) := queues_of_inBlocks rfl earlier plain
        (new n (by simp [notifications])) (by rwa [ofNewCharts_eq_self new']) storable
      have queues := queues_iff sound.ready plain.last.inserts
      rw [notifications, List.filter_append, ← List.append_assoc, ← account]
      generalize history getName Database.created ss as = t at queues storing
      show t.stored ++ (if Queues getName t.plugin n then t.pending ++ [n] else t.pending) = _
      by_cases storable : Storable n
      · rw [if_pos (storing storable)]
        simp [notifications, storable]
      · rw [if_neg (fun grown => queues.mp grown (queued_of_not_storable storable))]
        simp [notifications, storable]

theorem pending_of_drained {ss : List (List Action)} {as : List Action}
    (earlier : ∀ bs ∈ ss, PlainRun getName bs) (plain : PlainRun getName as)
    (empty : (history getName Database.created ss as).plugin.queryQueue = []) :
    (history getName Database.created ss as).pending = [] := by
  have queued := (sound_history earlier plain).queued
  rw [empty] at queued
  exact List.forall₂_nil_right_iff.mp queued

theorem stored_of_drained {ss : List (List Action)} {as : List Action}
    (earlier : ∀ bs ∈ ss, PlainRun getName bs) (plain : PlainRun getName as)
    (new : ∀ n ∈ notifications as, chartName getName n ∉ namesAt getName Database.created ss [])
    (blocks : InBlocks getName (notifications as))
    (empty : (history getName Database.created ss as).plugin.queryQueue = []) :
    (history getName Database.created ss as).stored =
      (history getName Database.created ss []).stored ++
        (notifications as).filter (fun n => Storable n) := by
  have account := stored_of_inBlocks earlier plain new blocks
  have start : (history getName Database.created ss []).pending = [] := by
    rcases List.eq_nil_or_concat ss with rfl | ⟨ss, bs, rfl⟩
    · rfl
    · rw [history, List.concat_eq_append, List.foldl_append]
      rfl
  rwa [pending_of_drained earlier plain empty, start, List.append_nil, List.append_nil] at account

end ObjSearch.Index.Blocks
