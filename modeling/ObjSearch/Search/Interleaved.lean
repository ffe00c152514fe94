/- Searches while the database thread works: whole sessions of the two threads, statement by
   statement.
   digest: Between two notifications of an undisturbed session a search lists the stored
   notifications that pass, whatever the database thread is doing. -/

import ObjSearch.Search.Answers
import ObjSearch.Thread.Sequential

set_option autoImplicit false
set_option relaxedAutoImplicit false

namespace ObjSearch.Search.Interleaved

open List (Forall₂)
open ObjSearch.Lib.Texts
open ObjSearch.Lib.Printf (written)
open ObjSearch.Lib.Runs
open ObjSearch.Index.Storage
open ObjSearch.Index.Notify
open ObjSearch.Index.Effect
open ObjSearch.Index.Session
open ObjSearch.Index.Queueing (posixName)
open ObjSearch.Index.History
open ObjSearch.Index.OneSession (plugin_tracedRun)
open ObjSearch.Index.Pointing (mem_getChartId getChartId_of_new)
open ObjSearch.Index.Origins
open ObjSearch.Search.CheckList
open ObjSearch.Search.Statements
open ObjSearch.Search.Catalog
open ObjSearch.Search.Condition (Fits)
open ObjSearch.Search.FindObjects
open ObjSearch.Search.Completeness (clicked flatHost)
open ObjSearch.Search.Answers
open ObjSearch.Thread.Connection
open ObjSearch.Thread.Sequential

variable (getName : Text → Text)

/-- A session of the two threads over a database, up to a point between two notifications. -/
structure Calm (db : Database) (ls : List Label) (s : State) : Prop where
  taken : exec (step getName) (.start db) ls = some s
  undisturbed : ∀ p l q t, ls = p ++ l :: q → exec (step getName) (.start db) p = some t →
    Undisturbed getName t l
  idle : s.ui = .idle

/-- Whole sessions from the created database on, as the actions that they amount to, and the
database that they leave: `TestDestroy` ends the thread between two passes. -/
inductive Sessions : List (List Action) → Database → Prop where
  | none : Sessions [] Database.created
  | more {ss : List (List Action)} {db : Database} {ls : List Label} {s : State}
      (earlier : Sessions ss db) (calm : Calm getName db ls s) (ended : s.thread = .testDestroy) :
      Sessions (ss ++ [sequential getName (.start db) ls]) (close s.plugin)

variable {getName}

/-- A name that is not inserted is in the tables, where it came from an earlier notification. -/
theorem plain_of_inserts {ns : List Notification} {t : Traced} {n : Notification} (sound : Sound t)
    (written_ : WrittenFor getName ns t) (plain : ∀ m ∈ ns, Plain getName m)
    (inserts : PlainInserts getName t.plugin n) : Plain getName n := by
  obtain ⟨chart, feature⟩ := inserts sound.ready.usable sound.ready.running
  constructor
  · by_cases new : NewChart getName t.plugin n
    · exact chart (getChartId_of_new sound.ready new)
    · obtain ⟨r, hr, -, name⟩ := mem_getChartId sound.ready.usable sound.charts new
      obtain ⟨m, hm, row⟩ := written_.charts r hr
      rw [row] at name
      rw [← Option.some.inj name]
      exact (plain m hm).1
  · by_cases new : getFeatureId t.plugin n.feature = 0
    · exact feature new
    · have known := (getFeatureId_eq_zero_iff sound.ready n.feature).not.mp new
      exact plain_features sound written_ plain _ (not_not.mp known)

theorem plainRun_of_inserts {ns : List Notification} {t : Traced} {as : List Action}
    (sound : Sound t) (written_ : WrittenFor getName ns t) (plain : ∀ m ∈ ns, Plain getName m)
    (inserts : PlainInsertsRun getName t.plugin as) : PlainRun getName as := by
  induction as generalizing t ns with
  | nil => exact fun n here => (by cases here)
  | cons a as ih =>
    cases a with
    | notify n =>
      have here := plain_of_inserts sound written_ plain inserts.1
      have later := ih (sound_notify sound inserts.1) (writtenFor_notify written_ sound inserts.1)
        (List.forall_mem_append.mpr ⟨plain, List.forall_mem_singleton.mpr here⟩) inserts.2
      exact List.forall_mem_cons.mpr ⟨here, later⟩
    | serve => exact ih (sound_serve sound) (writtenFor_serve written_ sound) plain inserts

/-! Session by session, the tables are those of the actions. -/

theorem close_congr {p q : Plugin} (like : Like p q) : close q = close p := by
  obtain ⟨⟨-, -, -, -, -, chart, feature⟩, object⟩ := like
  rw [close, close, Database.mk.injEq]
  exact ⟨chart, feature, object, rfl⟩

variable {ss : List (List Action)} {db : Database} {ls : List Label} {s : State}

theorem Calm.like (calm : Calm getName db ls s) :
    Like (putBack s.thread s.plugin)
        (run getName (session db) (sequential getName (.start db) ls)) ∧
      PlainInsertsRun getName (session db) (sequential getName (.start db) ls) := by
  have like := like_start calm.taken calm.undisturbed
  rwa [settled_of_idle calm.idle] at like

theorem plugin_history (start : (history getName Database.created ss []).plugin = session db)
    (as : List Action) :
    (history getName Database.created ss as).plugin = run getName (session db) as := by
  rw [← start]
  exact plugin_tracedRun _ as

theorem Calm.plain (calm : Calm getName db ls s) (earlier : ∀ bs ∈ ss, PlainRun getName bs)
    (start : (history getName Database.created ss []).plugin = session db) :
    PlainRun getName (sequential getName (.start db) ls) := by
  have none : PlainRun getName [] := fun n here => (by cases here)
  have inserts := calm.like.2
  rw [← start] at inserts
  exact plainRun_of_inserts (sound_history earlier none) (writtenFor_history ss [] earlier none)
    (plain_delivered earlier none) inserts

theorem Sessions.plain (sessions : Sessions getName ss db) :
    (∀ bs ∈ ss, PlainRun getName bs) ∧
      (history getName Database.created ss []).plugin = session db := by
  induction sessions with
  | none => exact ⟨fun bs here => (by cases here), rfl⟩
  | @more ss db ls s _ calm ended ih =>
    obtain ⟨earlier, start⟩ := ih
    refine ⟨List.forall_mem_append.mpr
      ⟨earlier, List.forall_mem_singleton.mpr (calm.plain earlier start)⟩, ?_⟩
    have put : putBack s.thread s.plugin = s.plugin := by
      rw [putBack, ended]
      rfl
    have closed := close_congr calm.like.1
    rw [put, ← plugin_history start] at closed
    rw [history, List.foldl_append]
    show session (close (history getName Database.created ss _).plugin) = _
    rw [closed]

/-- A search reads the tables only. -/
theorem findObjects_close (host : Host) (p : Plugin) :
    findObjects host (close p) = findObjects host p.db := rfl

/-- After any sessions of the two threads, and whatever the database thread is doing now: a search
between two notifications lists the stored notifications that pass, in the order in which they were
delivered and each once. -/
theorem search_lists_interleaved (earlier : Sessions getName ss db) (calm : Calm getName db ls s)
    (host : Host) (before : Popup) (clicks : List ℕ) (text : Text) (notEmpty : text ≠ [])
    (fits : Fits text) (clat clon : ℚ) (centre : OnMap (written clat) (written clon))
    (limitRange : ℤ) (showAll : ℤ → Bool) :
    let told := delivered ss (sequential getName (.start db) ls)
    let p := clicked before s.plugin.featuresInDb clicks
    ∃ stored, stored.Sublist told ∧
      Forall₂ (ObjectOf s.plugin.db.feature) stored (s.plugin.db.object.rows.map Prod.snd) ∧
      ∃ c, onSearch p text (.finite clat) (.finite clon) limitRange = some c ∧
        Lists getName host told stored (joined ',' p.chosen) text clat clon (limitOf limitRange)
          showAll (findObjects host s.plugin.db s.plugin.dbUsable showAll c) := by
  intro told p
  obtain ⟨plainBefore, start⟩ := earlier.plain
  have plain := calm.plain plainBefore start
  obtain ⟨like, -⟩ := calm.like
  rw [← plugin_history start] at like
  have order : (history getName Database.created ss _).stored.Sublist told :=
    (List.sublist_append_left _ _).trans (sublist_history Database.created ss _)
  have stored := (sound_history plainBefore plain).stored
  obtain ⟨c, call, lists⟩ := lists_onSearch plainBefore plain host before clicks notEmpty fits
    centre limitRange showAll
  rw [like.apart.features, like.apart.usable, ← findObjects_close, close_congr like] at lists
  rw [like.apart.features] at call
  rw [like.apart.feature, like.object] at stored
  exact ⟨_, order, stored, c, call, lists⟩

/-- The thread has stored the object of one chart while another chart was being recorded, and goes
on to the end of its pass. -/
def firstSession : List Label := objectBeforeInsert ++ List.replicate 7 .dbThread

/-- The thread starts. -/
def nextSession : List Label := [.dbThread]

set_option maxRecDepth 4000 in
theorem sessions_firstSession : ∃ db,
    Sessions posixName [sequential posixName (.start .created) firstSession] db ∧
      ∃ s, Calm posixName db nextSession s := by
  have outcome : (exec (step posixName) (.start .created) firstSession).map
      (fun s => (s.ui, s.thread)) = some (.idle, .testDestroy) := by decide +kernel
  have calmRun : calmRun posixName (.start .created) firstSession = true := by decide +kernel
  obtain ⟨s, taken, same⟩ := Option.map_eq_some_iff.mp outcome
  obtain ⟨idle, ended⟩ := Prod.mk.inj same
  have calm : Calm posixName .created firstSession s :=
    ⟨taken, undisturbed_of_calmRun calmRun, idle⟩
  exact ⟨close s.plugin, .more .none calm ended, _, rfl, undisturbed_of_calmRun rfl, rfl⟩

theorem search_lists_interleaved_nextSession :
    ∃ db s, Sessions posixName [sequential posixName (.start .created) firstSession] db ∧
      Calm posixName db nextSession s ∧
      let told := delivered [sequential posixName (.start .created) firstSession]
        (sequential posixName (.start db) nextSession)
      let p := clicked ⟨[], []⟩ s.plugin.featuresInDb []
      ∃ stored, stored.Sublist told ∧
        Forall₂ (ObjectOf s.plugin.db.feature) stored (s.plugin.db.object.rows.map Prod.snd) ∧
        ∃ c, onSearch p "A".toList (.finite 40) (.finite (-73)) 5 = some c ∧
          Lists posixName flatHost told stored (joined ',' p.chosen) "A".toList 40 (-73)
            (limitOf (5 : ℤ)) (fun _ => true)
            (findObjects flatHost s.plugin.db s.plugin.dbUsable (fun _ => true) c) := by
  obtain ⟨db, sessions, s, calm⟩ := sessions_firstSession
  exact ⟨db, s, sessions, calm, search_lists_interleaved sessions calm flatHost ⟨[], []⟩ []
    "A".toList (by decide) (by decide) 40 (-73) (by decide +kernel) 5 (fun _ => true)⟩

end ObjSearch.Search.Interleaved
