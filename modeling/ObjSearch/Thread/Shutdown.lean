/- What is left in the queue when the plugin closes its database.
   digest: Nothing, exactly when `Delete` finds the queue empty or the thread with a test of the
   queue still ahead. -/

import ObjSearch.Thread.DbThread

set_option autoImplicit false
set_option relaxedAutoImplicit false

namespace ObjSearch.Thread.Shutdown

open ObjSearch.Lib.Texts (Text)
open ObjSearch.Lib.Runs
open ObjSearch.Thread.DbThread

def Drained (s : State) : Prop := s.queryQueue = [] ∧ inserts s.issued = s.pushed

instance (s : State) : Decidable (Drained s) := by
  unfold Drained
  infer_instance

/-- The thread tests the queue once more before it tests for destruction. -/
def testsAgain : ThreadAt → Bool
  | .beginTransaction | .setWriting | .hasQueries | .getQuery | .queryDB _ => true
  | _ => false

/-- The queue is empty or will be before the thread leaves its loop. -/
def Saved (s : State) : Prop := s.queryQueue = [] ∨ testsAgain s.thread = true

theorem saved_threadStep {s s' : State} (requested : s.deleteRequested = true)
    (taken : threadStep s = some s') :
    s'.deleteRequested = true ∧ (Saved s' ↔ Saved s) := by
  obtain ⟨ui, thread, lock, pThread, isWriting, deleteRequested, dbThreadRunning, queue, pushed,
    issued⟩ := s
  obtain rfl : deleteRequested = true := requested
  unfold Saved
  cases thread with
  | hasQueries =>
    obtain rfl := Option.some.inj taken
    by_cases empty : queue = [] <;> simp [empty, testsAgain]
  | getQuery =>
    cases queue with
    | nil => cases taken
    | cons sql rest =>
      obtain rfl := Option.some.inj taken
      simp [testsAgain]
  | enterDestructor =>
    simp only [threadStep] at taken
    split_ifs at taken with free
    obtain rfl := Option.some.inj taken
    simp [testsAgain]
  | gone => cases taken
  | _ =>
    obtain rfl := Option.some.inj taken
    simp [testsAgain]

theorem deInitStep_requested {s s' : State} (taken : deInitStep s = some s') :
    s'.deleteRequested = (s.deleteRequested || decide (s.ui = .delete)) := by
  unfold deInitStep at taken
  split at taken
  all_goals first
    | (obtain rfl := Option.some.inj taken; simp [*])
    | (split_ifs at taken <;> obtain rfl := Option.some.inj taken <;> simp [*])
    | cases taken

theorem no_push_of_requested {s : State} {sql : Text} (phases : Phases s)
    (requested : s.deleteRequested = true) : step s (.push sql) = none := by
  refine if_neg ?_
  rintro ⟨running | waiting, threadRunning⟩
  · rw [phases.requested, running] at requested
    cases requested
  · have gone := phases.waited (by rw [waiting]; rfl)
    exact (phases.running.mp threadRunning).2 gone

/-- Once `Delete` was called, no step changes whether the queue will be empty at the end. -/
theorem saved_step {s s' : State} {l : Label} (phases : Phases s)
    (requested : s.deleteRequested = true) (taken : step s l = some s') :
    s'.deleteRequested = true ∧ (Saved s' ↔ Saved s) := by
  cases l with
  | push sql =>
    rw [no_push_of_requested phases requested] at taken
    cases taken
  | deInit =>
    obtain ⟨thread, queue, -, -⟩ := deInitStep_frame taken
    refine ⟨by rw [deInitStep_requested taken, requested]; rfl, ?_⟩
    rw [Saved, Saved, thread, queue]
  | timeout =>
    simp only [step] at taken
    split_ifs at taken with waiting
    obtain rfl := Option.some.inj taken
    exact ⟨requested, Iff.rfl⟩
  | dbThread => exact saved_threadStep requested taken

theorem saved_exec {s t : State} {ls : List Label} (phases : Phases s)
    (requested : s.deleteRequested = true) (run : exec step s ls = some t) :
    Saved t ↔ Saved s := by
  have kept : Phases t ∧ t.deleteRequested = true ∧ (Saved t ↔ Saved s) := by
    refine exec_invariant (I := fun u => Phases u ∧ u.deleteRequested = true ∧
      (Saved u ↔ Saved s)) ?_ ⟨phases, requested, Iff.rfl⟩ run
    rintro u l u' ⟨phasesU, requestedU, same⟩ taken
    obtain ⟨requestedU', same'⟩ := saved_step phasesU requestedU taken
    exact ⟨phases_step phasesU taken, requestedU', same'.trans same⟩
  exact kept.2.2

theorem delete_of_requested {s s' : State} {l : Label} (taken : step s l = some s')
    (before : s.deleteRequested = false) (after : s'.deleteRequested = true) :
    l = .deInit ∧ s.ui = .delete := by
  cases l with
  | push sql =>
    simp only [step] at taken
    split_ifs at taken with allowed
    obtain rfl := Option.some.inj taken
    simp [before] at after
  | deInit =>
    rw [deInitStep_requested taken, before, Bool.false_or] at after
    exact ⟨rfl, of_decide_eq_true after⟩
  | timeout =>
    simp only [step] at taken
    split_ifs at taken with waiting
    obtain rfl := Option.some.inj taken
    simp [before] at after
  | dbThread =>
    exfalso
    have kept : s'.deleteRequested = s.deleteRequested := by
      simp only [step, threadStep] at taken
      split at taken
      all_goals first
        | (obtain rfl := Option.some.inj taken; rfl)
        | (split at taken <;> first | (obtain rfl := Option.some.inj taken; rfl) | cases taken)
        | cases taken
    rw [kept, before] at after
    cases after

theorem exists_delete {ls : List Label} {s : State} (run : exec step .start ls = some s)
    (requested : s.deleteRequested = true) :
    ∃ p q t, ls = p ++ .deInit :: q ∧ exec step .start p = some t ∧ t.ui = .delete := by
  induction ls using List.reverseRecOn generalizing s with
  | nil =>
    obtain rfl := Option.some.inj run
    cases requested
  | append_singleton ls l ih =>
    obtain ⟨m, before, taken⟩ := exec_concat_eq_some.mp run
    cases already : m.deleteRequested with
    | true =>
      obtain ⟨p, q, t, rfl, reached, here⟩ := ih before already
      exact ⟨p, q ++ [l], t, by simp, reached, here⟩
    | false =>
      obtain ⟨rfl, here⟩ := delete_of_requested taken already requested
      exact ⟨ls, [], m, rfl, before, here⟩

theorem saved_iff_at_delete {p q : List Label} {t s : State}
    (reached : exec step .start p = some t) (here : t.ui = .delete)
    (run : exec step .start (p ++ .deInit :: q) = some s) : Saved s ↔ Saved t := by
  obtain ⟨t', before, rest⟩ := exec_append_eq_some.mp run
  obtain rfl := Option.some.inj (reached.symm.trans before)
  obtain ⟨u, taken, after⟩ := Option.bind_eq_some_iff.mp rest
  have phases : Phases u := phases_step (Reachable.phases ⟨p, reached⟩) taken
  have requested : u.deleteRequested = true := by
    rw [deInitStep_requested taken, here]
    simp
  obtain ⟨thread, queue, -, -⟩ := deInitStep_frame taken
  rw [saved_exec phases requested after, Saved, Saved, thread, queue]

theorem drained_iff_saved {s : State} (reachable : Reachable s) (reached : s.ui = .clearDB) :
    Drained s ↔ Saved s := by
  have gone : s.thread = .gone := reachable.phases.waited (by rw [reached]; rfl)
  have account : s.pushed = inserts s.issued ++ s.thread.inHand ++ s.queryQueue :=
    reachable.accounted
  rw [Saved, gone]
  constructor
  · intro drained
    exact .inl drained.1
  · rintro (empty | tests)
    · rw [gone, empty, List.append_nil] at account
      exact ⟨empty, (account.trans (List.append_nil _)).symm⟩
    · cases tests

/-- A run that reaches `clearDB` has drained the queue if and only if `Delete` found it empty
or found the thread with a test of the queue still ahead. -/
theorem drained_iff {ls : List Label} {s : State} (run : exec step .start ls = some s)
    (reached : s.ui = .clearDB) :
    Drained s ↔ ∀ p q t, ls = p ++ .deInit :: q → exec step .start p = some t →
      t.ui = .delete → t.queryQueue = [] ∨ testsAgain t.thread = true := by
  have reachable : Reachable s := ⟨ls, run⟩
  have requested : s.deleteRequested = true := by
    rw [reachable.phases.requested, reached]
    rfl
  rw [drained_iff_saved reachable reached]
  constructor
  · rintro saved p q t rfl before here
    exact (saved_iff_at_delete before here run).mp saved
  · intro condition
    obtain ⟨p, q, t, rfl, before, here⟩ := exists_delete run requested
    exact (saved_iff_at_delete before here run).mpr (condition p q t rfl before here)

/-- The thread makes an empty pass and falls asleep; an object is pushed; `DeInit` finds the
thread not writing and deletes it; the thread wakes up, sees the request and ends. -/
def pushWhileAsleep : List Label :=
  List.replicate 7 .dbThread ++ [.push "INSERT".toList] ++ List.replicate 5 .deInit ++
    List.replicate 5 .dbThread ++ List.replicate 4 .deInit

def afterPushWhileAsleep : State where
  ui := .clearDB
  thread := .gone
  lock := none
  pThread := false
  isWriting := false
  deleteRequested := true
  dbThreadRunning := false
  queryQueue := ["INSERT".toList]
  pushed := ["INSERT".toList]
  issued := [.beginTransaction, .commitTransaction]

theorem drained_iff_pushWhileAsleep :
    Drained afterPushWhileAsleep ↔ ∀ p q t, pushWhileAsleep = p ++ .deInit :: q →
      exec step .start p = some t → t.ui = .delete →
        t.queryQueue = [] ∨ testsAgain t.thread = true :=
  drained_iff (by decide) rfl

theorem pushWhileAsleep_loses_the_object :
    exec step .start pushWhileAsleep = some afterPushWhileAsleep ∧
      afterPushWhileAsleep.ui = .clearDB ∧ ¬Drained afterPushWhileAsleep := by
  decide

end ObjSearch.Thread.Shutdown
