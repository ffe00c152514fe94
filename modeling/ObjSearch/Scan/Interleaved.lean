/- A scan while the database thread works: the scan and the statements of each notification on the UI
   thread, and between any two of them the database thread.
   digest: What an undisturbed scan has shown is stored once the queue is empty, and is found from
   then on. -/

import ObjSearch.Scan.Indexing
import ObjSearch.Search.Interleaved

set_option autoImplicit false
set_option relaxedAutoImplicit false

namespace ObjSearch.Scan.Interleaved

open ObjSearch.Lib.Runs
open ObjSearch.Lib.Texts (Text)
open ObjSearch.Lib.Relational (exists_of_forall₂)
open ObjSearch.Index.Storage
open ObjSearch.Index.Notify
open ObjSearch.Index.Effect
open ObjSearch.Index.Session
open ObjSearch.Index.Queueing (posixName)
open ObjSearch.Index.History
open ObjSearch.Index.OneSession (namesAt)
open ObjSearch.Index.Origins (delivered Continues stored_history_of_continues)
open ObjSearch.Index.Blocks
open ObjSearch.Scan.ScanArea (Area Scanner idle scanArea)
open ObjSearch.Scan.Coverage (steady steady_answers)
open ObjSearch.Scan.Rows
open ObjSearch.Scan.Indexing (Told AllTold Findable allTold_of_swept findable_of_stored twoLights
  seamless_oneView)
open ObjSearch.Search.Catalog (Host)
open ObjSearch.Search.Completeness (flatHost)
open ObjSearch.Search.Interleaved
open ObjSearch.Thread.Sequential

/-- The scan, the two threads, and what these have done in the session so far. -/
structure State where
  scan : ScanArea.State
  threads : Thread.Connection.State
  taken : List Thread.Connection.Label

inductive Label where
  | scan (l : ScanArea.Label)
  | threads (l : Thread.Connection.Label)

variable (getName : Text → Text)

/-- The scan goes on only when the notification on its way is over: both are the UI thread's. -/
def step (a : Area) (scale : ℤ) (s : State) : Label → Option State
  | .scan l =>
    if s.threads.ui = .idle then
      (ScanArea.step a scale s.scan l).map fun t => { s with scan := t }
    else none
  | .threads l => (Thread.Connection.step getName s.threads l).map fun t =>
      { s with threads := t, taken := s.taken ++ [l] }

def start (a : Area) (s : Scanner) (threads : Thread.Connection.State)
    (taken : List Thread.Connection.Label) : State :=
  ⟨scanArea a (idle s), threads, taken⟩

/-- What the two threads have done, as actions of one party. -/
def actions (db : Database) (s : State) : List Action := sequential getName (.start db) s.taken

/-- The host shows this extent around each position, and does not return from the `wxYield` there
before it has notified the objects that it shows. -/
def Complies (H W : ℚ → ℚ) (world : List Notification) (db : Database) (s : State) : Label → Prop
  | .scan l => Indexing.Complies H W world ⟨s.scan, actions getName db s⟩ (.scan l)
  | .threads _ => True

variable {getName}

theorem sequential_begins (s : Thread.Connection.State) (ls ms : List Thread.Connection.Label) :
    sequential getName s ls <+: sequential getName s (ls ++ ms) := by
  induction ls generalizing s with
  | nil => exact List.nil_prefix
  | cons l ls ih =>
    rw [List.cons_append, sequential, sequential]
    cases Thread.Connection.step getName s l with
    | none => exact List.prefix_rfl
    | some s' => exact (List.prefix_append_right_inj _).mpr (ih s')

section Told

variable {H W : ℚ → ℚ} {world : List Notification} {a : Area} {scale : ℤ} {db : Database}

theorem told_step (high : ∀ y, 0 < H y) (wide : ∀ y, 0 < W y) (cols : a.lonmin ≤ a.lonmax)
    {s t : State} {l : Label} (placed : Placed H W a s.scan)
    (swept : Swept H W a (Told H W world (actions getName db s)) s.scan)
    (complies : Complies getName H W world db s l) (taken : step getName a scale s l = some t) :
    Placed H W a t.scan ∧ Swept H W a (Told H W world (actions getName db t)) t.scan := by
  cases l with
  | scan l =>
    rw [step] at taken
    split_ifs at taken
    obtain ⟨u, stepped, rfl⟩ := Option.map_eq_some_iff.mp taken
    exact ⟨placed_step cols placed complies.1 stepped,
      swept_step high wide placed swept complies.1 complies.2 stepped⟩
  | threads l =>
    obtain ⟨u, -, rfl⟩ := Option.map_eq_some_iff.mp taken
    obtain ⟨more, longer⟩ := @sequential_begins getName (.start db) s.taken [l]
    refine ⟨placed, swept.mono fun lat lon told => ?_⟩
    rw [actions, ← longer]
    exact told.mono

theorem allTold_of_returned (high : ∀ y, 0 < H y) (wide : ∀ y, 0 < W y) (cols : a.lonmin ≤ a.lonmax)
    (seamless : Seamless H W a) {s : Scanner} (unset : s.finishing = false)
    {threads : Thread.Connection.State} {before : List Thread.Connection.Label} {ls : List Label}
    {t : State} (taken : exec (step getName a scale) (start a s threads before) ls = some t)
    (complies : ∀ p l q m, ls = p ++ l :: q →
      exec (step getName a scale) (start a s threads before) p = some m →
        Complies getName H W world db m l)
    (returned : t.scan.place = .returned) : AllTold world a (actions getName db t) := by
  have kept : Placed H W a t.scan ∧ Swept H W a (Told H W world (actions getName db t)) t.scan :=
    exec_guarded (I := fun s : State => Placed H W a s.scan ∧
        Swept H W a (Told H W world (actions getName db s)) s.scan)
      (G := Complies getName H W world db)
      (fun s l s' both complies taken => told_step high wide cols both.1 both.2 complies taken)
      ⟨placed_scanArea unset, swept_scanArea high unset⟩ taken complies
  exact allTold_of_swept wide seamless kept.1 kept.2 returned

end Told

theorem ran_of_exec {a : Area} {scale : ℤ} {db : Database} {sc : Scanner}
    {threads : Thread.Connection.State} {before : List Thread.Connection.Label} {ls : List Label}
    {t : State} (began : exec (Thread.Connection.step getName) (.start db) before = some threads)
    (taken : exec (step getName a scale) (start a sc threads before) ls = some t) :
    exec (Thread.Connection.step getName) (.start db) t.taken = some t.threads := by
  refine exec_invariant (I := fun s : State =>
    exec (Thread.Connection.step getName) (.start db) s.taken = some s.threads) ?_ began taken
  intro s l s' ran here
  cases l with
  | scan l =>
    rw [step] at here
    split_ifs at here
    obtain ⟨u, -, rfl⟩ := Option.map_eq_some_iff.mp here
    exact ran
  | threads l =>
    obtain ⟨u, first, rfl⟩ := Option.map_eq_some_iff.mp here
    exact exec_concat_eq_some.mpr ⟨s.threads, ran, first⟩

variable {ss : List (List Action)} {db : Database} {ls : List Thread.Connection.Label}
  {s : Thread.Connection.State}

/-- The host notifies its objects one after the other before the scan goes on; the database thread
takes every other step of the session, but for those where a rowid is awaited. -/
def telling (H W : ℚ → ℚ) (world : List Notification) (s : State) : Label :=
  if s.taken.length % 2 = 0 ∧ s.threads.ui.awaitsRowId = false then .threads .dbThread
  else if s.threads.ui ≠ .idle then .threads .ui
  else match world.find? fun n => !(notifications (actions posixName .created s)).contains n with
    | some n => .threads (.notify n)
    | none =>
      if s.scan.place = .returned then .threads .dbThread
      else .scan (steady (H s.scan.lat) (W s.scan.lat) s.scan)

theorem telling_complies (H W : ℚ → ℚ) (world : List Notification) (s : State) :
    Complies posixName H W world .created s (telling H W world s) := by
  unfold telling
  cases next : world.find? fun n => !(notifications (actions posixName .created s)).contains n with
  | some n =>
    dsimp only
    split_ifs <;> exact trivial
  | none =>
    dsimp only
    split_ifs
    · exact trivial
    · exact trivial
    · exact trivial
    · refine ⟨steady_answers _ _ s.scan, fun _ n hn _ _ => ?_⟩
      have told := List.find?_eq_none.mp next n hn
      simpa using told

def oneView : List Label :=
  driven (step posixName ⟨0, 0, 1, 1⟩ 20000) (telling (fun _ => 2) (fun _ => 2) twoLights) 24
    (start ⟨0, 0, 1, 1⟩ .init (.start .created) [])

set_option maxRecDepth 4000 in
theorem exec_oneView :
    ∃ t, exec (step posixName ⟨0, 0, 1, 1⟩ 20000)
        (start ⟨0, 0, 1, 1⟩ .init (.start .created) []) oneView = some t ∧
      t.scan.place = .returned ∧ Calm posixName .created t.taken t.threads ∧
      t.threads.thread.inHand ++ t.threads.plugin.queryQueue = [] ∧
      notifications (actions posixName .created t) = twoLights := by
  have outcome : (exec (step posixName ⟨0, 0, 1, 1⟩ 20000)
      (start ⟨0, 0, 1, 1⟩ .init (.start .created) []) oneView).map (fun t =>
        (decide (t.scan.place = .returned ∧ t.threads.ui = .idle ∧
            notifications (actions posixName .created t) = twoLights) &&
          Thread.Connection.calmRun posixName (.start .created) t.taken,
          t.threads.thread.inHand ++ t.threads.plugin.queryQueue)) =
      some (true, []) := by
    decide +kernel
  obtain ⟨t, taken, both⟩ := Option.map_eq_some_iff.mp outcome
  obtain ⟨ended, empty⟩ := Prod.mk.inj both
  obtain ⟨scanned, calm⟩ := Bool.and_eq_true_iff.mp ended
  obtain ⟨returned, idle, told⟩ := of_decide_eq_true scanned
  exact ⟨t, taken, returned, ⟨ran_of_exec rfl taken,
    Thread.Connection.undisturbed_of_calmRun calm, idle⟩, empty, told⟩

end ObjSearch.Scan.Interleaved
