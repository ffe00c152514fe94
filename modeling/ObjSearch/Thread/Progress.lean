/- What the two threads get to, however they are interleaved.
   digest: Every pushed statement is issued or `Delete` is called; after `Delete` the plugin gets
   to its end; and from every state some interleaving gets there. -/

import ObjSearch.Lib.Schedules
import ObjSearch.Thread.Shutdown
import ObjSearch.Thread.Transactions

set_option autoImplicit false
set_option relaxedAutoImplicit false

namespace ObjSearch.Thread.Progress

open ObjSearch.Lib.Texts (Text)
open ObjSearch.Lib.Runs
open ObjSearch.Lib.Schedules
open ObjSearch.Thread.DbThread
open ObjSearch.Thread.Shutdown (no_push_of_requested)
open ObjSearch.Thread.Transactions (frame_of_ne)

theorem isWriting_of_ne {s s' : State} {l : Label} (other : l ≠ .dbThread)
    (taken : step s l = some s') : s'.isWriting = s.isWriting := by
  cases l with
  | push sql =>
    simp only [step] at taken
    split_ifs at taken with allowed
    obtain rfl := Option.some.inj taken
    rfl
  | deInit =>
    simp only [step, deInitStep] at taken
    split at taken
    all_goals first
      | (obtain rfl := Option.some.inj taken; rfl)
      | (split_ifs at taken <;> obtain rfl := Option.some.inj taken <;> rfl)
      | cases taken
  | timeout =>
    simp only [step] at taken
    split_ifs at taken with waiting
    obtain rfl := Option.some.inj taken
    rfl
  | dbThread => exact absurd rfl other

section Issuing

/-- The steps to the end of the pass and to the next statement of the next one. -/
def toNextInsert : ThreadAt → ℕ
  | .queryDB _ => 1
  | .getQuery => 2
  | .hasQueries => 3
  | .setWriting => 4
  | .beginTransaction => 5
  | .testDestroy => 6
  | .sleep | .setRunning => 7
  | .clearWriting => 8
  | .commitTransaction => 9
  | _ => 0

/-- A pass over an empty queue takes nine steps and is worth less than one statement issued. -/
def toIssue (k : ℕ) (s : State) : ℕ := 10 * (k - (inserts s.issued).length) + toNextInsert s.thread

/-- The statements were pushed before, and nothing was lost since. -/
structure Waiting (sqls : List Text) (s : State) : Prop where
  phases : Phases s
  accounted : Accounted s
  pushed : sqls <+: s.pushed

def Issued (sqls : List Text) (s : State) : Prop :=
  s.deleteRequested = true ∨ sqls <+: inserts s.issued

theorem pushed_grows {s s' : State} {l : Label} (taken : step s l = some s') :
    s.pushed <+: s'.pushed := by
  cases l with
  | push sql =>
    simp only [step] at taken
    split_ifs at taken with allowed
    obtain rfl := Option.some.inj taken
    exact List.prefix_append _ _
  | deInit =>
    obtain ⟨-, -, pushed, -⟩ := deInitStep_frame taken
    rw [pushed]
  | timeout =>
    simp only [step] at taken
    split_ifs at taken with waiting
    obtain rfl := Option.some.inj taken
    exact List.prefix_rfl
  | dbThread =>
    have kept : s'.pushed = s.pushed := by
      simp only [step, threadStep] at taken
      split at taken
      all_goals first
        | (obtain rfl := Option.some.inj taken; rfl)
        | (split at taken <;> first | (obtain rfl := Option.some.inj taken; rfl) | cases taken)
        | cases taken
    rw [kept]

theorem waiting_step {sqls : List Text} {s s' : State} {l : Label} (h : Waiting sqls s)
    (taken : step s l = some s') : Waiting sqls s' where
  phases := phases_step h.phases taken
  accounted := accounted_step h.accounted taken
  pushed := h.pushed.trans (pushed_grows taken)

theorem exists_left {sqls : List Text} {s : State} (h : Waiting sqls s) (left : ¬Issued sqls s) :
    s.deleteRequested = false ∧ (inserts s.issued).length < sqls.length ∧
      s.thread.inHand ++ s.queryQueue ≠ [] := by
  obtain ⟨alive, short⟩ := not_or.mp left
  have account : s.pushed = inserts s.issued ++ s.thread.inHand ++ s.queryQueue := h.accounted
  rw [List.append_assoc] at account
  have issued : inserts s.issued <+: s.pushed := account ▸ List.prefix_append _ _
  refine ⟨Bool.eq_false_iff.mpr alive, ?_, ?_⟩
  · by_contra enough
    exact short (List.prefix_of_prefix_length_le h.pushed issued (Nat.le_of_not_lt enough))
  · intro none
    rw [none, List.append_nil] at account
    exact short (account ▸ h.pushed)

/-- Before `Delete` the thread is always able to step, and each step brings it nearer. -/
theorem threadStep_nearer {sqls : List Text} {s : State} (h : Waiting sqls s)
    (left : ¬Issued sqls s) :
    ∃ s', threadStep s = some s' ∧ toIssue sqls.length s' < toIssue sqls.length s := by
  obtain ⟨alive, short, some⟩ := exists_left h left
  have inLoop : s.thread.ended = false := by
    cases ended : s.thread.ended with
    | false => rfl
    | true => rw [h.phases.ended ended] at alive; cases alive
  have popping := h.phases.popping
  obtain ⟨ui, thread, lock, pThread, isWriting, deleteRequested, dbThreadRunning, queue, pushed,
    issued⟩ := s
  obtain rfl : deleteRequested = false := alive
  simp only at short some popping inLoop
  cases thread with
  | hasQueries =>
    -- nothing is in the thread's hand, so something is queued
    have queued : queue ≠ [] := some
    refine ⟨_, rfl, ?_⟩
    simp only [toIssue, if_neg queued, toNextInsert]
    omega
  | getQuery =>
    cases queue with
    | nil => exact absurd rfl (popping rfl)
    | cons sql rest =>
      refine ⟨_, rfl, ?_⟩
      simp only [toIssue, toNextInsert]
      omega
  | queryDB sql =>
    refine ⟨_, rfl, ?_⟩
    simp only [toIssue, toNextInsert, inserts_append, List.length_append, inserts,
      List.length_singleton]
    omega
  | beginTransaction | commitTransaction =>
    refine ⟨_, rfl, ?_⟩
    simp only [toIssue, toNextInsert, inserts_append, List.length_append, inserts,
      List.length_nil]
    omega
  | setRunning | testDestroy | setWriting | clearWriting | sleep =>
    refine ⟨_, rfl, ?_⟩
    simp only [toIssue, toNextInsert, Bool.false_eq_true, if_false]
    omega
  | enterDestructor | setNull | clearRunning | gone => cases inLoop

theorem progress_issuing (sqls : List Text) :
    Progress step (Waiting sqls) (Issued sqls) (toIssue sqls.length) fun _ => .dbThread where
  keep s l s' h left taken := by
    refine .inr ⟨waiting_step h taken, ?_⟩
    by_cases own : l = .dbThread
    · subst own
      obtain ⟨t, stepped, nearer⟩ := threadStep_nearer h left
      obtain rfl := Option.some.inj (stepped.symm.trans taken)
      exact .inl nearer
    · obtain ⟨thread, issued⟩ := frame_of_ne own taken
      exact .inr ⟨by rw [toIssue, toIssue, thread, issued], rfl⟩
  lower s h left := by
    obtain ⟨t, stepped, nearer⟩ := threadStep_nearer h left
    exact ⟨t, stepped, .inr nearer⟩

theorem waiting_stateAt (schedule : ℕ → Label) (n : ℕ) :
    Waiting (stateAt step .start schedule n).pushed (stateAt step .start schedule n) := by
  have reachable : Reachable (stateAt step .start schedule n) := exists_exec_stateAt _ _ _
  exact ⟨reachable.phases, reachable.accounted, List.prefix_rfl⟩

/-- Under every schedule that lets the DB thread step again and again, what has been pushed at one
moment has all been issued, in its order, at some later one, unless `Delete` was called. -/
theorem pushed_is_issued {schedule : ℕ → Label} (again : Again schedule .dbThread) (n : ℕ) :
    ∃ m, n ≤ m ∧ ((stateAt step .start schedule m).deleteRequested = true ∨
      (stateAt step .start schedule n).pushed <+:
        inserts (stateAt step .start schedule m).issued) :=
  (progress_issuing _).eventually (fun _ _ => again) (waiting_stateAt schedule n)

def pushOnce (n : ℕ) : Label := if n = 7 then .push "INSERT".toList else .dbThread

theorem pushed_is_issued_pushOnce :
    ∃ m, 8 ≤ m ∧ ((stateAt step .start pushOnce m).deleteRequested = true ∨
      (stateAt step .start pushOnce 8).pushed <+:
        inserts (stateAt step .start pushOnce m).issued) := by
  refine pushed_is_issued ?_ 8
  intro n
  exact ⟨n + 8, by omega, if_neg (by omega)⟩

end Issuing

section Ending

/-- The thread's steps to the end of its destructor, with `n` statements queued and no more to
come. -/
def threadToEnd (n : ℕ) : ThreadAt → ℕ
  | .beginTransaction => 10 + 3 * n
  | .setWriting | .queryDB _ => 9 + 3 * n
  | .hasQueries => 8 + 3 * n
  | .getQuery => 7 + 3 * n
  | .commitTransaction => 7
  | .clearWriting => 6
  | .sleep | .setRunning => 5
  | .testDestroy => 4
  | .enterDestructor => 3
  | .setNull => 2
  | .clearRunning => 1
  | .gone => 0

/-- The wait for `m_pThread` goes round as long as the pointer is set. -/
def uiToEnd (pThread : Bool) : UiAt → ℕ
  | .running => 10
  | .testThread => 9
  | .waitWriting => 8
  | .delete => 7
  | .leave => 6
  | .testNull => if pThread then 7 else 4
  | .leaveNull alive => if alive then 6 else 3
  | .waitNull => 5
  | .waitRunning => 2
  | .clearDB => 1
  | .done => 0

def toEnd (s : State) : ℕ :=
  threadToEnd s.queryQueue.length s.thread + uiToEnd s.pThread s.ui

def Requested (s : State) : Prop := Phases s ∧ s.deleteRequested = true

def Done (s : State) : Prop := s.ui = .done

theorem uiToEnd_false_le (pThread : Bool) (ui : UiAt) : uiToEnd false ui ≤ uiToEnd pThread ui := by
  cases pThread with
  | false => exact le_rfl
  | true => cases ui <;> simp [uiToEnd]

theorem threadStep_toEnd {s s' : State} (early : s.thread = .setRunning → s.queryQueue = [])
    (ends : s.thread = .testDestroy → s.deleteRequested = true)
    (taken : threadStep s = some s') : s'.ui = s.ui ∧
      threadToEnd s'.queryQueue.length s'.thread < threadToEnd s.queryQueue.length s.thread ∧
      toEnd s' < toEnd s := by
  have lower : s'.ui = s.ui ∧ (s'.pThread = s.pThread ∨ s'.pThread = false) ∧
      threadToEnd s'.queryQueue.length s'.thread < threadToEnd s.queryQueue.length s.thread := by
    obtain ⟨ui, thread, lock, pThread, isWriting, deleteRequested, dbThreadRunning, queue, pushed,
      issued⟩ := s
    simp only at early ends
    cases thread with
    | testDestroy =>
      obtain rfl := ends rfl
      obtain rfl := Option.some.inj taken
      exact ⟨rfl, .inl rfl, by simp only [threadToEnd, if_true]; omega⟩
    | hasQueries =>
      obtain rfl := Option.some.inj taken
      refine ⟨rfl, .inl rfl, ?_⟩
      by_cases empty : queue = []
      · simp only [if_pos empty, threadToEnd]
        omega
      · simp only [if_neg empty, threadToEnd]
        omega
    | getQuery =>
      cases queue with
      | nil => cases taken
      | cons sql rest =>
        obtain rfl := Option.some.inj taken
        refine ⟨rfl, .inl rfl, ?_⟩
        simp only [threadToEnd, List.length_cons]
        omega
    | enterDestructor =>
      simp only [threadStep] at taken
      split_ifs at taken with free
      obtain rfl := Option.some.inj taken
      exact ⟨rfl, .inl rfl, by simp only [threadToEnd]; omega⟩
    | setNull =>
      obtain rfl := Option.some.inj taken
      exact ⟨rfl, .inr rfl, by simp only [threadToEnd]; omega⟩
    | gone => cases taken
    | _ =>
      obtain rfl := Option.some.inj taken
      refine ⟨rfl, .inl rfl, ?_⟩
      simp only [threadToEnd]
      omega
  obtain ⟨ui, pointer, nearer⟩ := lower
  refine ⟨ui, nearer, ?_⟩
  have same : uiToEnd s'.pThread s'.ui ≤ uiToEnd s.pThread s.ui := by
    rcases pointer with kept | null
    · rw [ui, kept]
    · rw [ui, null]
      exact uiToEnd_false_le _ _
  unfold toEnd
  omega

theorem timeout_toEnd {s s' : State} (taken : step s .timeout = some s') : toEnd s' < toEnd s := by
  simp only [step] at taken
  split_ifs at taken with waiting
  obtain rfl := Option.some.inj taken
  simp [toEnd, waiting, uiToEnd]

theorem requested_step {s s' : State} {l : Label} (h : Requested s)
    (taken : step s l = some s') : Requested s' :=
  ⟨phases_step h.1 taken, (Shutdown.saved_step h.1 h.2 taken).1⟩

/-- After `Delete` the UI thread is at its `leave` or past it. -/
theorem deleted_of_requested {s : State} (h : Requested s) : s.ui.deleted = true :=
  h.1.requested.symm.trans h.2

theorem deInitStep_of_holdsLock {s : State} (h : Requested s) (holds : s.ui.holdsLock = true) :
    ∃ s', deInitStep s = some s' ∧ toEnd s' < toEnd s := by
  have deleted := deleted_of_requested h
  cases ui : s.ui with
  | leave =>
    refine ⟨{ s with lock := none, ui := .waitNull }, by simp [deInitStep, ui], ?_⟩
    simp [toEnd, ui, uiToEnd]
  | testNull =>
    refine ⟨{ s with ui := .leaveNull s.pThread }, by simp [deInitStep, ui], ?_⟩
    cases pThread : s.pThread <;> simp [toEnd, ui, uiToEnd, pThread]
  | leaveNull alive =>
    refine ⟨{ s with lock := none, ui := if alive then .waitNull else .waitRunning },
      by simp [deInitStep, ui], ?_⟩
    cases alive <;> simp [toEnd, ui, uiToEnd]
  | running | testThread | waitWriting | delete =>
    rw [ui] at deleted
    cases deleted
  | waitNull | waitRunning | clearDB | done =>
    rw [ui] at holds
    cases holds

theorem ui_ne_leave {s s' : State} (h : Requested s) (taken : deInitStep s = some s') :
    s'.ui ≠ .leave := by
  have deleted := deleted_of_requested h
  obtain ⟨ui, thread, lock, pThread, isWriting, deleteRequested, dbThreadRunning, queue, pushed,
    issued⟩ := s
  cases ui with
  | running | testThread | waitWriting | delete => cases deleted
  | waitNull =>
    simp only [deInitStep] at taken
    split_ifs at taken with free
    obtain rfl := Option.some.inj taken
    exact UiAt.noConfusion
  | leaveNull alive =>
    obtain rfl := Option.some.inj taken
    cases alive <;> exact UiAt.noConfusion
  | waitRunning =>
    obtain rfl := Option.some.inj taken
    cases dbThreadRunning <;> exact UiAt.noConfusion
  | done => cases taken
  | leave | testNull | clearDB =>
    obtain rfl := Option.some.inj taken
    exact UiAt.noConfusion

theorem unlocked {s : State} (phases : Phases s) (ui : s.ui.holdsLock = false)
    (thread : s.thread.holdsLock = false) : s.lock = none := by
  have ours := phases.uiLock
  have theirs := phases.threadLock
  rw [ui] at ours
  rw [thread] at theirs
  rcases lock : s.lock with _ | _ | _
  · rfl
  · exact absurd (ours.mp lock) Bool.false_ne_true
  · exact absurd (theirs.mp lock) Bool.false_ne_true

/-- The thread waits for nothing but the lock. -/
theorem exists_threadStep {s : State} (phases : Phases s) (alive : s.thread ≠ .gone)
    (free : s.thread = .enterDestructor → s.lock = none) : ∃ s', threadStep s = some s' := by
  have queued := phases.popping
  unfold threadStep
  cases place : s.thread with
  | gone => exact absurd place alive
  | getQuery =>
    cases queue : s.queryQueue with
    | nil => exact absurd queue (queued place)
    | cons sql rest => exact ⟨_, rfl⟩
  | enterDestructor => exact ⟨_, if_pos (free place)⟩
  | _ => exact ⟨_, rfl⟩

theorem deInitStep_of_gone {s : State} (phases : Phases s) (gone : s.thread = .gone)
    (left : ¬Done s) : ∃ s', deInitStep s = some s' ∧ toEnd s' < toEnd s := by
  have requested : Requested s := ⟨phases, phases.ended (by rw [gone]; rfl)⟩
  have null : s.pThread = false := by
    rw [← Bool.not_eq_true, phases.pointer]
    exact fun h => h.2 gone
  have stopped : s.dbThreadRunning = false := by
    rw [← Bool.not_eq_true, phases.running]
    exact fun h => h.2 gone
  cases holds : s.ui.holdsLock with
  | true => exact deInitStep_of_holdsLock requested holds
  | false =>
    have free := unlocked phases holds (by rw [gone]; rfl)
    have deleted := deleted_of_requested requested
    cases ui : s.ui with
    | waitNull =>
      refine ⟨{ s with lock := some .ui, ui := .testNull }, by simp [deInitStep, ui, free], ?_⟩
      simp [toEnd, ui, uiToEnd, null]
    | waitRunning =>
      refine ⟨{ s with ui := .clearDB }, by simp [deInitStep, ui, stopped], ?_⟩
      simp [toEnd, ui, uiToEnd]
    | clearDB =>
      refine ⟨{ s with ui := .done }, by simp [deInitStep, ui], ?_⟩
      simp [toEnd, ui, uiToEnd]
    | done => exact absurd ui left
    | running | testThread | waitWriting | delete =>
      rw [ui] at deleted
      cases deleted
    | leave | testNull | leaveNull =>
      rw [ui] at holds
      cases holds

/-! Under a schedule: out of the loop, into the lock, and to the end. -/

/-- The thread is out of its loop, and the UI thread out of the lock in which it called `Delete`. -/
structure AtDestructor (s : State) : Prop where
  requested : Requested s
  ended : s.thread.ended = true
  left : s.ui ≠ .leave

def toDestructor (s : State) : ℕ :=
  threadToEnd s.queryQueue.length s.thread + if s.ui = .leave then 1 else 0

theorem progress_toDestructor : Progress step Requested AtDestructor toDestructor
    fun s => if s.ui = .leave then .deInit else .dbThread where
  keep s l s' h _ taken := by
    refine .inr ⟨requested_step h taken, ?_⟩
    cases l with
    | push sql =>
      rw [no_push_of_requested h.1 h.2] at taken
      cases taken
    | deInit =>
      -- a turn of the wait for `m_pThread` changes nothing here
      obtain ⟨thread, queue, -, -⟩ := deInitStep_frame taken
      have outside := ui_ne_leave h taken
      rw [toDestructor, toDestructor, thread, queue, if_neg outside, if_neg outside]
      by_cases leaving : s.ui = .leave
      · rw [if_pos leaving]
        exact .inl (by omega)
      · rw [if_neg leaving, if_neg leaving]
        exact .inr ⟨rfl, rfl⟩
    | timeout =>
      simp only [step] at taken
      split_ifs at taken with waiting
      obtain rfl := Option.some.inj taken
      exact .inr (by simp [toDestructor, waiting])
    | dbThread =>
      obtain ⟨ui, nearer, -⟩ := threadStep_toEnd h.1.early (fun _ => h.2) taken
      rw [toDestructor, toDestructor, ui]
      exact .inl (by omega)
  lower s h before := by
    by_cases leaving : s.ui = .leave
    · rw [if_pos leaving]
      obtain ⟨s', taken, -⟩ := deInitStep_of_holdsLock h (by rw [leaving]; rfl)
      obtain ⟨thread, queue, -, -⟩ := deInitStep_frame taken
      refine ⟨s', taken, .inr ?_⟩
      rw [toDestructor, toDestructor, thread, queue, if_pos leaving, if_neg (ui_ne_leave h taken)]
      omega
    · rw [if_neg leaving]
      have inLoop : s.thread.ended = false := by
        by_contra ended
        exact before ⟨h, eq_true_of_ne_false ended, leaving⟩
      obtain ⟨s', taken⟩ := exists_threadStep h.1
        (by rintro place; rw [place] at inLoop; cases inLoop)
        (by rintro place; rw [place] at inLoop; cases inLoop)
      obtain ⟨ui, nearer, -⟩ := threadStep_toEnd h.1.early (fun _ => h.2) taken
      refine ⟨s', taken, .inr ?_⟩
      rw [toDestructor, toDestructor, ui]
      omega

def Entering (s : State) : Prop := s.thread = .enterDestructor ∧ s.lock = none

/-- The lock is fair: where it is free for `~DbThread` again and again, `~DbThread` gets it, however
often `DeInit` comes back for it. -/
def FairLock (schedule : ℕ → Label) : Prop := Fair step .start schedule Entering .dbThread

structure Waits (s : State) : Prop where
  requested : Requested s
  thread : s.thread = .enterDestructor
  left : s.ui ≠ .leave

structure Entered (s : State) : Prop where
  requested : Requested s
  thread : s.thread = .setNull ∨ s.thread = .clearRunning ∨ s.thread = .gone

theorem waits_step {s s' : State} {l : Label} (h : Waits s) (taken : step s l = some s') :
    Entered s' ∨ Waits s' := by
  obtain ⟨requested, thread, left⟩ := h
  have requested' := requested_step requested taken
  cases l with
  | push sql =>
    rw [no_push_of_requested requested.1 requested.2] at taken
    cases taken
  | deInit =>
    obtain ⟨same, -, -, -⟩ := deInitStep_frame taken
    exact .inr ⟨requested', same.trans thread, ui_ne_leave requested taken⟩
  | timeout =>
    simp only [step] at taken
    split_ifs at taken with waiting
    obtain rfl := Option.some.inj taken
    exact .inr ⟨requested', thread, UiAt.noConfusion⟩
  | dbThread =>
    simp only [step, threadStep, thread] at taken
    split_ifs at taken with free
    obtain rfl := Option.some.inj taken
    exact .inl ⟨requested', .inl rfl⟩

theorem Waits.holdsLock {s : State} (h : Waits s) (locked : ¬Entering s) :
    s.ui.holdsLock = true := by
  by_contra outside
  exact locked ⟨h.thread, unlocked h.requested.1 (eq_false_of_ne_true outside)
    (by rw [h.thread]; rfl)⟩

/-- While the thread waits, only the UI thread can have the lock, and gives it up. -/
theorem progress_toUnlock : Progress step Waits (fun s => Entered s ∨ Entering s) toEnd
    fun _ => .deInit where
  keep s l s' h before taken := by
    have holds := h.holdsLock (not_or.mp before).2
    rcases waits_step h taken with entered | waits
    · exact .inl (.inl entered)
    · refine .inr ⟨waits, .inl ?_⟩
      cases l with
      | push sql =>
        rw [no_push_of_requested h.requested.1 h.requested.2] at taken
        cases taken
      | deInit =>
        obtain ⟨t, stepped, lower⟩ := deInitStep_of_holdsLock h.requested holds
        obtain rfl := Option.some.inj (stepped.symm.trans taken)
        exact lower
      | timeout => exact timeout_toEnd taken
      | dbThread => exact (threadStep_toEnd h.requested.1.early (fun _ => h.requested.2) taken).2.2
  lower s h before := by
    have holds := h.holdsLock (not_or.mp before).2
    obtain ⟨s', taken, lower⟩ := deInitStep_of_holdsLock h.requested holds
    exact ⟨s', taken, .inr lower⟩

theorem entered_threadStep {s s' : State} (h : Entered s) (taken : threadStep s = some s') :
    Entered s' := by
  obtain ⟨requested, thread⟩ := h
  refine ⟨requested_step (l := .dbThread) requested taken, ?_⟩
  rcases thread with place | place | place <;> simp only [threadStep, place] at taken
  · obtain rfl := Option.some.inj taken
    exact .inr (.inl rfl)
  · obtain rfl := Option.some.inj taken
    exact .inr (.inr rfl)
  · cases taken

theorem no_deInit_of_holdsLock {s : State} (h : Requested s) (holds : s.thread.holdsLock = true) :
    deInitStep s = none := by
  obtain ⟨phases, requested⟩ := h
  have lock : s.lock = some .dbThread := phases.threadLock.mpr holds
  have outside : s.ui.holdsLock = false := by
    rw [← Bool.not_eq_true, ← phases.uiLock, lock]
    exact fun same => by cases same
  have waiting : s.ui.waited = false := by
    by_contra waited
    rw [phases.waited (eq_true_of_ne_false waited)] at holds
    cases holds
  rw [phases.requested] at requested
  cases ui : s.ui <;> simp_all [UiAt.deleted, UiAt.holdsLock, UiAt.waited, deInitStep]

theorem progress_ending : Progress step Entered Done toEnd
    fun s => if s.thread = .gone then .deInit else .dbThread where
  keep s l s' h left taken := by
    obtain ⟨requested, thread⟩ := h
    cases l with
    | push sql =>
      rw [no_push_of_requested requested.1 requested.2] at taken
      cases taken
    | deInit =>
      obtain ⟨same, -, -, -⟩ := deInitStep_frame taken
      refine .inr ⟨⟨requested_step (l := .deInit) requested taken, same ▸ thread⟩, .inl ?_⟩
      have gone : s.thread = .gone := by
        rcases thread with place | place | gone
        · rw [step, no_deInit_of_holdsLock requested (by rw [place]; rfl)] at taken
          cases taken
        · rw [step, no_deInit_of_holdsLock requested (by rw [place]; rfl)] at taken
          cases taken
        · exact gone
      obtain ⟨t, stepped, lower⟩ := deInitStep_of_gone requested.1 gone left
      obtain rfl := Option.some.inj (stepped.symm.trans taken)
      exact lower
    | timeout =>
      have lower := timeout_toEnd taken
      have requested' := requested_step requested taken
      simp only [step] at taken
      split_ifs at taken with waiting
      obtain rfl := Option.some.inj taken
      exact .inr ⟨⟨requested', thread⟩, .inl lower⟩
    | dbThread =>
      exact .inr ⟨entered_threadStep ⟨requested, thread⟩ taken,
        .inl (threadStep_toEnd requested.1.early (fun _ => requested.2) taken).2.2⟩
  lower s h left := by
    by_cases gone : s.thread = .gone
    · rw [if_pos gone]
      obtain ⟨s', taken, lower⟩ := deInitStep_of_gone h.requested.1 gone left
      exact ⟨s', taken, .inr lower⟩
    · rw [if_neg gone]
      have inside : s.thread ≠ .enterDestructor := by
        intro place
        rcases h.thread with other | other | other <;> cases place.symm.trans other
      obtain ⟨s', taken⟩ := exists_threadStep h.requested.1 gone (fun place => absurd place inside)
      have lower := threadStep_toEnd h.requested.1.early (fun _ => h.requested.2) taken
      exact ⟨s', taken, .inr lower.2.2⟩

/-- `~DbThread` gets the lock, from wherever the two threads are after `Delete`. -/
theorem enters {schedule : ℕ → Label} (ui : Again schedule .deInit)
    (thread : Again schedule .dbThread) (lock : FairLock schedule) {n : ℕ}
    (requested : Requested (stateAt step .start schedule n)) :
    ∃ m, n ≤ m ∧ Entered (stateAt step .start schedule m) := by
  obtain ⟨m, later, requested, ended, left⟩ := progress_toDestructor.eventually
    (fun s _ => by split_ifs; exacts [ui, thread]) requested
  cases place : (stateAt step .start schedule m).thread with
  | enterDestructor =>
    have recurs (k : ℕ) (waits : Waits (stateAt step .start schedule k)) :=
      progress_toUnlock.eventually (fun _ _ => ui) waits
    have leads (s : State) (waits : Waits s) (entering : Entering s) :
        ∃ s', step s .dbThread = some s' ∧ Entered s' := by
      obtain ⟨place, free⟩ := entering
      have taken : step s .dbThread = some { s with lock := some .dbThread, thread := .setNull } := by
        simp [step, threadStep, place, free]
      exact ⟨_, taken, requested_step waits.requested taken, .inl rfl⟩
    obtain ⟨k, after, entered⟩ := lock.eventually (fun _ _ _ => waits_step) recurs leads
      ⟨requested, place, left⟩
    exact ⟨k, later.trans after, entered⟩
  | setNull => exact ⟨m, later, requested, .inl place⟩
  | clearRunning => exact ⟨m, later, requested, .inr (.inl place)⟩
  | gone => exact ⟨m, later, requested, .inr (.inr place)⟩
  | _ =>
    rw [place] at ended
    cases ended

/-- Under every schedule that lets both threads step again and again and is fair about the lock,
`DeInit` gets to its end once it has called `Delete`. -/
theorem deInit_ends {schedule : ℕ → Label} (ui : Again schedule .deInit)
    (thread : Again schedule .dbThread) (lock : FairLock schedule) {n : ℕ}
    (requested : (stateAt step .start schedule n).deleteRequested = true) :
    ∃ m, n ≤ m ∧ (stateAt step .start schedule m).ui = .done := by
  have reachable : Reachable (stateAt step .start schedule n) := exists_exec_stateAt _ _ _
  obtain ⟨m, later, entered⟩ := enters ui thread lock ⟨reachable.phases, requested⟩
  obtain ⟨k, after, done⟩ := progress_ending.eventually
    (fun s _ => by split_ifs; exacts [ui, thread]) entered
  exact ⟨k, later.trans after, done⟩

def turns (n : ℕ) : Label := if n % 2 = 0 then .deInit else .dbThread

theorem deInit_ends_turns : ∃ m, 7 ≤ m ∧ (stateAt step .start turns m).ui = .done := by
  refine deInit_ends ?_ ?_ ?_ (by decide)
  · intro n
    exact ⟨2 * n, by omega, if_pos (by omega)⟩
  · intro n
    exact ⟨2 * n + 1, by omega, if_neg (by omega)⟩
  · -- after forty steps both threads are at their end, and nobody waits for the lock any more
    intro again n
    exfalso
    have stuck : ∀ l, l = .deInit ∨ l = .dbThread →
        step (stateAt step .start turns 40) l = none := by
      rintro l (rfl | rfl) <;> decide
    obtain ⟨m, later, waiting, -⟩ := again 40
    rw [stateAt_of_stuck later fun k _ => stuck _ (by unfold turns; split_ifs <;> simp)] at waiting
    exact absurd waiting (by decide)

def writing : ThreadAt → Bool
  | .hasQueries | .getQuery | .queryDB _ | .commitTransaction | .clearWriting => true
  | _ => false

structure Honest (s : State) : Prop where
  phases : Phases s
  honest : s.isWriting = true → writing s.thread = true

theorem writing_threadStep {s s' : State} (h : s.isWriting = true → writing s.thread = true)
    (taken : threadStep s = some s') : s'.isWriting = true → writing s'.thread = true := by
  obtain ⟨ui, thread, lock, pThread, isWriting, deleteRequested, dbThreadRunning, queue, pushed,
    issued⟩ := s
  simp only at h
  cases thread with
  | hasQueries =>
    obtain rfl := Option.some.inj taken
    intro _
    by_cases empty : queue = [] <;> simp [empty, writing]
  | getQuery =>
    cases queue with
    | nil => cases taken
    | cons sql rest =>
      obtain rfl := Option.some.inj taken
      exact fun _ => rfl
  | setWriting | queryDB sql | commitTransaction =>
    obtain rfl := Option.some.inj taken
    exact fun _ => rfl
  | clearWriting =>
    obtain rfl := Option.some.inj taken
    intro still
    cases still
  | enterDestructor =>
    simp only [threadStep] at taken
    split_ifs at taken with free
    obtain rfl := Option.some.inj taken
    intro still
    cases h still
  | gone => cases taken
  | _ =>
    obtain rfl := Option.some.inj taken
    intro still
    cases h still

theorem honest_step {s s' : State} {l : Label} (h : Honest s) (taken : step s l = some s') :
    Honest s' := by
  refine ⟨phases_step h.phases taken, ?_⟩
  by_cases own : l = .dbThread
  · subst own
    exact writing_threadStep h.honest taken
  · rw [(frame_of_ne own taken).1, isWriting_of_ne own taken]
    exact h.honest

theorem exists_threadStep_of_writing {s : State} (phases : Phases s)
    (inLoop : writing s.thread = true) :
    ∃ s', threadStep s = some s' ∧ toEnd s' < toEnd s := by
  have place (t : ThreadAt) (other : writing t = false) : s.thread ≠ t := by
    rintro rfl
    rw [inLoop] at other
    cases other
  obtain ⟨s', taken⟩ := exists_threadStep phases (place .gone rfl)
    (fun destructor => absurd destructor (place .enterDestructor rfl))
  exact ⟨s', taken, (threadStep_toEnd phases.early
    (fun test => absurd test (place .testDestroy rfl)) taken).2.2⟩

theorem unlocked_of_running {s : State} (phases : Phases s) (running : s.ui = .running) :
    s.lock = none := by
  apply unlocked phases (by rw [running]; rfl)
  by_contra holds
  have ended : s.thread.ended = true := by
    cases place : s.thread <;> rw [place] at holds <;> first | rfl | exact absurd rfl holds
  have requested := phases.requested
  rw [phases.ended ended, running] at requested
  cases requested

def Own (l : Label) : Prop := l = .deInit ∨ l = .dbThread

theorem exists_step_toEnd {s : State} (h : Honest s) (left : ¬Done s) :
    ∃ l s', Own l ∧ step s l = some s' ∧ toEnd s' < toEnd s := by
  cases requested : s.deleteRequested with
  | true =>
    -- out of the lock first, then the thread to its end, then `DeInit`
    cases holds : s.ui.holdsLock with
    | true =>
      obtain ⟨s', taken, lower⟩ := deInitStep_of_holdsLock ⟨h.phases, requested⟩ holds
      exact ⟨.deInit, s', .inl rfl, taken, lower⟩
    | false =>
      by_cases gone : s.thread = .gone
      · obtain ⟨s', taken, lower⟩ := deInitStep_of_gone h.phases gone left
        exact ⟨.deInit, s', .inl rfl, taken, lower⟩
      · obtain ⟨s', taken⟩ := exists_threadStep h.phases gone
          (fun place => unlocked h.phases holds (by rw [place]; rfl))
        have lower := threadStep_toEnd h.phases.early (fun _ => requested) taken
        exact ⟨.dbThread, s', .inr rfl, taken, lower.2.2⟩
  | false =>
    have before := h.phases.requested
    rw [requested] at before
    cases ui : s.ui with
    | running =>
      refine ⟨.deInit, { s with lock := some .ui, ui := .testThread }, .inl rfl, ?_, ?_⟩
      · simp [step, deInitStep, ui, unlocked_of_running h.phases ui]
      · simp [toEnd, ui, uiToEnd]
    | testThread =>
      refine ⟨.deInit, { s with ui := if s.pThread then .waitWriting else .leave }, .inl rfl, ?_, ?_⟩
      · simp [step, deInitStep, ui]
      · cases s.pThread <;> simp [toEnd, ui, uiToEnd]
    | waitWriting =>
      cases isWriting : s.isWriting with
      | true =>
        obtain ⟨s', taken, lower⟩ := exists_threadStep_of_writing h.phases (h.honest isWriting)
        exact ⟨.dbThread, s', .inr rfl, taken, lower⟩
      | false =>
        refine ⟨.deInit, { s with ui := .delete }, .inl rfl, ?_, ?_⟩
        · simp [step, deInitStep, ui, isWriting]
        · simp [toEnd, ui, uiToEnd]
    | delete =>
      refine ⟨.deInit, { s with deleteRequested := true, ui := .leave }, .inl rfl, ?_, ?_⟩
      · simp [step, deInitStep, ui]
      · simp [toEnd, ui, uiToEnd]
    | _ =>
      rw [ui] at before
      cases before

/-- No reachable state is a deadlock: from each of them the steps of the two threads can get to the
end of `DeInit`, with nothing more pushed and no help from the timeout. -/
theorem deInit_can_end {s : State} (h : Reachable s) :
    ∃ ls t, (∀ l ∈ ls, l = .deInit ∨ l = .dbThread) ∧ exec step s ls = some t ∧ t.ui = .done := by
  have honest : Honest s := by
    obtain ⟨ls, run⟩ := h
    refine exec_invariant (fun _ _ _ => honest_step) ⟨phases_start, ?_⟩ run
    intro writing
    cases writing
  have nearer (u : State) (hu : Honest u) (left : ¬Done u) :
      ∃ l u', Own l ∧ step u l = some u' ∧ Honest u' ∧ toEnd u' < toEnd u := by
    obtain ⟨l, u', own, taken, lower⟩ := exists_step_toEnd hu left
    exact ⟨l, u', own, taken, honest_step hu taken, lower⟩
  exact exists_exec_of_lower nearer honest

def asleep : State :=
  { State.start with
    thread := .sleep
    dbThreadRunning := true
    issued := [.beginTransaction, .commitTransaction] }

theorem deInit_can_end_asleep :
    ∃ ls t, (∀ l ∈ ls, l = .deInit ∨ l = .dbThread) ∧ exec step asleep ls = some t ∧
      t.ui = .done :=
  deInit_can_end ⟨List.replicate 7 .dbThread, by decide⟩

end Ending

end ObjSearch.Thread.Progress
