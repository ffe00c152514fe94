/- The DB thread beside the UI thread, from its start to `clearDB`.
   digest: What each atomic step of the two does, and which phases can go together. -/

import ObjSearch.Lib.Runs
import ObjSearch.Lib.Texts

set_option autoImplicit false
set_option relaxedAutoImplicit false

namespace ObjSearch.Thread.DbThread

open ObjSearch.Lib.Texts (Text)
open ObjSearch.Lib.Runs

inductive Statement where
  | beginTransaction
  | insert (sql : Text)
  | commitTransaction
deriving DecidableEq

inductive Party where
  | ui
  | dbThread
deriving DecidableEq

/-- Where `DbThread::Entry` is, and after it `DbThread::~DbThread`. -/
inductive ThreadAt where
  | setRunning
  | testDestroy
  | beginTransaction
  | setWriting
  | hasQueries
  | getQuery
  | queryDB (sql : Text)
  | commitTransaction
  | clearWriting
  | sleep
  | enterDestructor
  | setNull
  | clearRunning
  | gone
deriving DecidableEq

/-- Where the UI thread is: before `DeInit`, or where in it. -/
inductive UiAt where
  | running
  | testThread
  | waitWriting
  | delete
  | leave
  | waitNull
  | testNull
  /-- `break` out of the loop, unless the pointer was set -/
  | leaveNull (alive : Bool)
  | waitRunning
  | clearDB
  | done
deriving DecidableEq

/-- `lock` is the owner of `m_pThreadCS`. `pushed` and `issued` record what was pushed and what
the thread handed to `QueryDB`. -/
structure State where
  ui : UiAt
  thread : ThreadAt
  lock : Option Party
  pThread : Bool
  isWriting : Bool
  deleteRequested : Bool
  dbThreadRunning : Bool
  queryQueue : List Text
  pushed : List Text
  issued : List Statement
deriving DecidableEq

def State.start : State where
  ui := .running
  thread := .setRunning
  lock := none
  pThread := true
  isWriting := false
  deleteRequested := false
  dbThreadRunning := false
  queryQueue := []
  pushed := []
  issued := []

inductive Label where
  /-- StoreNewObject pushes a statement -/
  | push (sql : Text)
  /-- the next step of DeInit -/
  | deInit
  /-- the five seconds of the last wait are over -/
  | timeout
  | dbThread
deriving DecidableEq

def threadStep (s : State) : Option State :=
  match s.thread with
  | .setRunning => some { s with dbThreadRunning := true, thread := .testDestroy }
  | .testDestroy =>
    some { s with thread := if s.deleteRequested then .enterDestructor else .beginTransaction }
  | .beginTransaction =>
    some { s with issued := s.issued ++ [.beginTransaction], thread := .setWriting }
  | .setWriting => some { s with isWriting := true, thread := .hasQueries }
  | .hasQueries =>
    some { s with thread := if s.queryQueue = [] then .commitTransaction else .getQuery }
  | .getQuery => match s.queryQueue with
    | [] => none
    | sql :: rest => some { s with queryQueue := rest, thread := .queryDB sql }
  | .queryDB sql => some { s with issued := s.issued ++ [.insert sql], thread := .hasQueries }
  | .commitTransaction =>
    some { s with issued := s.issued ++ [.commitTransaction], thread := .clearWriting }
  | .clearWriting => some { s with isWriting := false, thread := .sleep }
  | .sleep => some { s with thread := .testDestroy }
  | .enterDestructor =>
    if s.lock = none then some { s with lock := some .dbThread, thread := .setNull } else none
  | .setNull => some { s with pThread := false, thread := .clearRunning }
  | .clearRunning => some { s with dbThreadRunning := false, lock := none, thread := .gone }
  | .gone => none

def deInitStep (s : State) : Option State :=
  match s.ui with
  | .running => if s.lock = none then some { s with lock := some .ui, ui := .testThread } else none
  | .testThread => some { s with ui := if s.pThread then .waitWriting else .leave }
  | .waitWriting => some { s with ui := if s.isWriting then .waitWriting else .delete }
  | .delete => some { s with deleteRequested := true, ui := .leave }
  | .leave => some { s with lock := none, ui := .waitNull }
  | .waitNull =>
    if s.lock = none then some { s with lock := some .ui, ui := .testNull } else none
  | .testNull => some { s with ui := .leaveNull s.pThread }
  | .leaveNull alive =>
    some { s with lock := none, ui := if alive then .waitNull else .waitRunning }
  | .waitRunning => some { s with ui := if s.dbThreadRunning then .waitRunning else .clearDB }
  | .clearDB => some { s with ui := .done }
  | .done => none

/-- A push comes from a notification, which the host may also deliver in the `wxYield` of the
last wait, and which is ignored unless the thread is running. -/
def step (s : State) : Label → Option State
  | .push sql =>
    if (s.ui = .running ∨ s.ui = .waitRunning) ∧ s.dbThreadRunning then
      some { s with queryQueue := s.queryQueue ++ [sql], pushed := s.pushed ++ [sql] }
    else none
  | .deInit => deInitStep s
  | .timeout => if s.ui = .waitRunning then some { s with ui := .clearDB } else none
  | .dbThread => threadStep s

def Reachable (s : State) : Prop := ∃ ls, exec step .start ls = some s

def inserts : List Statement → List Text
  | [] => []
  | .insert sql :: rest => sql :: inserts rest
  | _ :: rest => inserts rest

def ThreadAt.inHand : ThreadAt → List Text
  | .queryDB sql => [sql]
  | _ => []

def ThreadAt.ended : ThreadAt → Bool
  | .enterDestructor | .setNull | .clearRunning | .gone => true
  | _ => false

def UiAt.deleted : UiAt → Bool
  | .leave | .waitNull | .testNull | .leaveNull _ | .waitRunning | .clearDB | .done => true
  | _ => false

def UiAt.holdsLock : UiAt → Bool
  | .testThread | .waitWriting | .delete | .leave | .testNull | .leaveNull _ => true
  | _ => false

def ThreadAt.holdsLock : ThreadAt → Bool
  | .setNull | .clearRunning => true
  | _ => false

def UiAt.waited : UiAt → Bool
  | .waitRunning | .clearDB | .done => true
  | _ => false

theorem inserts_append (as bs : List Statement) : inserts (as ++ bs) = inserts as ++ inserts bs := by
  induction as with
  | nil => rfl
  | cons a as ih => cases a <;> simp [inserts, ih]

/-- How the phases of the two threads and the shared flags go together. -/
structure Phases (s : State) : Prop where
  requested : s.deleteRequested = s.ui.deleted
  ended : s.thread.ended = true → s.deleteRequested = true
  pointer : s.pThread = true ↔ s.thread ≠ .clearRunning ∧ s.thread ≠ .gone
  uiLock : s.lock = some .ui ↔ s.ui.holdsLock = true
  threadLock : s.lock = some .dbThread ↔ s.thread.holdsLock = true
  running : s.dbThreadRunning = true ↔ s.thread ≠ .setRunning ∧ s.thread ≠ .gone
  waited : s.ui.waited = true → s.thread = .gone
  early : s.thread = .setRunning → s.queryQueue = []
  popping : s.thread = .getQuery → s.queryQueue ≠ []
  found : s.ui ≠ .leaveNull (!s.pThread)

theorem phases_start : Phases .start := by
  constructor <;> simp [State.start, ThreadAt.ended, UiAt.deleted, UiAt.holdsLock,
    ThreadAt.holdsLock, UiAt.waited]

theorem phases_threadStep {s s' : State} (h : Phases s) (taken : threadStep s = some s') :
    Phases s' := by
  obtain ⟨ui, thread, lock, pThread, isWriting, deleteRequested, dbThreadRunning, queue, pushed,
    issued⟩ := s
  obtain ⟨requested, ended, pointer, uiLock, threadLock, running, waited, early, popping, found⟩ := h
  simp only at requested ended pointer uiLock threadLock running waited early popping found
  cases thread with
  | testDestroy =>
    obtain rfl := Option.some.inj taken
    constructor <;> cases deleteRequested <;>
      simp_all [ThreadAt.ended, ThreadAt.holdsLock]
  | hasQueries =>
    obtain rfl := Option.some.inj taken
    by_cases empty : queue = [] <;>
      constructor <;> simp_all [ThreadAt.ended, ThreadAt.holdsLock]
  | getQuery =>
    cases queue with
    | nil => cases taken
    | cons sql rest =>
      obtain rfl := Option.some.inj taken
      constructor <;> simp_all [ThreadAt.ended, ThreadAt.holdsLock]
  | enterDestructor =>
    simp only [threadStep] at taken
    split_ifs at taken with free
    obtain rfl := Option.some.inj taken
    constructor <;> simp_all [ThreadAt.ended, ThreadAt.holdsLock]
  | setNull =>
    obtain rfl := Option.some.inj taken
    -- the lock is the thread's, so the UI thread is not about to leave it
    have outside : ∀ alive, ui ≠ .leaveNull alive := by
      rintro alive rfl
      simp_all [ThreadAt.holdsLock, UiAt.holdsLock]
    constructor <;> simp_all [ThreadAt.ended, ThreadAt.holdsLock]
  | gone => cases taken
  | _ =>
    obtain rfl := Option.some.inj taken
    constructor <;> simp_all [ThreadAt.ended, ThreadAt.holdsLock]

theorem phases_deInitStep {s s' : State} (h : Phases s) (taken : deInitStep s = some s') :
    Phases s' := by
  obtain ⟨ui, thread, lock, pThread, isWriting, deleteRequested, dbThreadRunning, queue, pushed,
    issued⟩ := s
  obtain ⟨requested, ended, pointer, uiLock, threadLock, running, waited, early, popping, found⟩ := h
  simp only at requested ended pointer uiLock threadLock running waited early popping found
  cases ui with
  | running =>
    simp only [deInitStep] at taken
    split_ifs at taken with free
    obtain rfl := Option.some.inj taken
    constructor <;> simp_all [UiAt.deleted, UiAt.holdsLock, UiAt.waited]
  | testThread =>
    obtain rfl := Option.some.inj taken
    -- the pointer is still set: the thread cannot have left its loop before `Delete`
    have alive : pThread = true := by
      refine pointer.mpr ⟨?_, ?_⟩ <;> rintro rfl <;> simp [ThreadAt.ended, requested,
        UiAt.deleted] at ended
    constructor <;> simp_all [UiAt.deleted, UiAt.holdsLock, UiAt.waited]
  | waitWriting =>
    obtain rfl := Option.some.inj taken
    constructor <;> cases isWriting <;>
      simp_all [UiAt.deleted, UiAt.holdsLock, UiAt.waited]
  | waitNull =>
    simp only [deInitStep] at taken
    split_ifs at taken with free
    obtain rfl := Option.some.inj taken
    constructor <;> simp_all [UiAt.deleted, UiAt.holdsLock, UiAt.waited]
  | leaveNull alive =>
    obtain rfl := Option.some.inj taken
    cases alive with
    | true => constructor <;> simp_all [UiAt.deleted, UiAt.holdsLock, UiAt.waited]
    | false =>
      -- the lock is ours and the pointer null: the destructor has run to its end
      have isGone : thread = .gone := by
        by_contra other
        have alive := pointer.mpr ⟨?_, other⟩
        · rw [alive] at found
          exact found rfl
        · rintro rfl
          simp_all [ThreadAt.holdsLock, UiAt.holdsLock]
      constructor <;> simp_all [UiAt.deleted, UiAt.holdsLock, UiAt.waited]
  | waitRunning =>
    obtain rfl := Option.some.inj taken
    constructor <;> cases dbThreadRunning <;>
      simp_all [UiAt.deleted, UiAt.holdsLock, UiAt.waited]
  | done => cases taken
  | _ =>
    obtain rfl := Option.some.inj taken
    constructor <;> simp_all [UiAt.deleted, UiAt.holdsLock, UiAt.waited]

theorem phases_push {s s' : State} {sql : Text} (h : Phases s)
    (taken : step s (.push sql) = some s') : Phases s' := by
  simp only [step] at taken
  split_ifs at taken with allowed
  obtain rfl := Option.some.inj taken
  -- the thread is running, so it has not just been started
  have started := (h.running.mp allowed.2).1
  exact ⟨h.requested, h.ended, h.pointer, h.uiLock, h.threadLock, h.running, h.waited,
    fun early => absurd early started, fun _ => by simp, h.found⟩

theorem phases_timeout {s s' : State} (h : Phases s) (taken : step s .timeout = some s') :
    Phases s' := by
  simp only [step] at taken
  split_ifs at taken with waiting
  obtain rfl := Option.some.inj taken
  obtain ⟨requested, ended, pointer, uiLock, threadLock, running, waited, early, popping, found⟩ := h
  rw [waiting] at requested uiLock waited
  exact ⟨requested, ended, pointer, uiLock, threadLock, running, fun _ => waited rfl, early,
    popping, fun other => by cases other⟩

theorem phases_step {s s' : State} {l : Label} (h : Phases s) (taken : step s l = some s') :
    Phases s' := by
  cases l with
  | push sql => exact phases_push h taken
  | deInit => exact phases_deInitStep h taken
  | timeout => exact phases_timeout h taken
  | dbThread => exact phases_threadStep h taken

theorem Reachable.phases {s : State} (h : Reachable s) : Phases s := by
  obtain ⟨ls, run⟩ := h
  exact exec_invariant (fun _ _ _ => phases_step) phases_start run

/-- Every pushed statement is issued, in the thread's hand or still queued, in this order. -/
def Accounted (s : State) : Prop :=
  s.pushed = inserts s.issued ++ s.thread.inHand ++ s.queryQueue

theorem accounted_threadStep {s s' : State} (h : Accounted s) (taken : threadStep s = some s') :
    Accounted s' := by
  obtain ⟨ui, thread, lock, pThread, isWriting, deleteRequested, dbThreadRunning, queue, pushed,
    issued⟩ := s
  unfold Accounted at h ⊢
  cases thread with
  | testDestroy =>
    obtain rfl := Option.some.inj taken
    cases deleteRequested <;> exact h
  | hasQueries =>
    obtain rfl := Option.some.inj taken
    by_cases empty : queue = [] <;> simpa [empty, ThreadAt.inHand] using h
  | getQuery =>
    cases queue with
    | nil => cases taken
    | cons sql rest =>
      obtain rfl := Option.some.inj taken
      simpa [ThreadAt.inHand] using h
  | queryDB sql =>
    obtain rfl := Option.some.inj taken
    simpa [ThreadAt.inHand, inserts_append, inserts] using h
  | enterDestructor =>
    simp only [threadStep] at taken
    split_ifs at taken with free
    obtain rfl := Option.some.inj taken
    exact h
  | gone => cases taken
  | _ =>
    obtain rfl := Option.some.inj taken
    simpa [ThreadAt.inHand, inserts_append, inserts] using h

theorem deInitStep_frame {s s' : State} (taken : deInitStep s = some s') :
    s'.thread = s.thread ∧ s'.queryQueue = s.queryQueue ∧ s'.pushed = s.pushed ∧
      s'.issued = s.issued := by
  unfold deInitStep at taken
  split at taken
  all_goals first
    | (obtain rfl := Option.some.inj taken; exact ⟨rfl, rfl, rfl, rfl⟩)
    | (split_ifs at taken <;> obtain rfl := Option.some.inj taken <;> exact ⟨rfl, rfl, rfl, rfl⟩)
    | cases taken

theorem accounted_step {s s' : State} {l : Label} (h : Accounted s)
    (taken : step s l = some s') : Accounted s' := by
  cases l with
  | push sql =>
    simp only [step] at taken
    split_ifs at taken with allowed
    obtain rfl := Option.some.inj taken
    unfold Accounted at h ⊢
    rw [h, List.append_assoc _ s.queryQueue]
  | deInit =>
    obtain ⟨thread, queue, pushed, issued⟩ := deInitStep_frame taken
    unfold Accounted at h ⊢
    rw [thread, queue, pushed, issued]
    exact h
  | timeout =>
    simp only [step] at taken
    split_ifs at taken with waiting
    obtain rfl := Option.some.inj taken
    exact h
  | dbThread => exact accounted_threadStep h taken

theorem Reachable.accounted {s : State} (h : Reachable s) : Accounted s := by
  obtain ⟨ls, run⟩ := h
  exact exec_invariant (fun _ _ _ => accounted_step) (show Accounted .start from rfl) run

end ObjSearch.Thread.DbThread
