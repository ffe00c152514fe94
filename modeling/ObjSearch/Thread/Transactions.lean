/- What the DB thread hands to the database, at every moment of every run.
   digest: The pushed statements in order, each once, inside transactions, and nothing any more
   once `DeInit` has reached `clearDB`. -/

import ObjSearch.Thread.DbThread

set_option autoImplicit false
set_option relaxedAutoImplicit false

namespace ObjSearch.Thread.Transactions

open ObjSearch.Lib.Texts (Text)
open ObjSearch.Lib.Runs
open ObjSearch.Thread.DbThread

def opened (sqls : List Text) : List Statement := .beginTransaction :: sqls.map .insert

/-- The words of `(BEGIN INSERT* COMMIT)*`. -/
inductive Whole : List Statement → Prop where
  | nil : Whole []
  | next {w : List Statement} (whole : Whole w) (sqls : List Text) :
      Whole (w ++ (opened sqls ++ [.commitTransaction]))

def inside : ThreadAt → Bool
  | .setWriting | .hasQueries | .getQuery | .queryDB _ | .commitTransaction => true
  | _ => false

/-- What has been issued is whole outside a transaction, and whole up to the open one inside. -/
def Bracketed (s : State) : Prop :=
  if inside s.thread then ∃ w sqls, Whole w ∧ s.issued = w ++ opened sqls else Whole s.issued

theorem bracketed_threadStep {s s' : State} (h : Bracketed s) (taken : threadStep s = some s') :
    Bracketed s' := by
  obtain ⟨ui, thread, lock, pThread, isWriting, deleteRequested, dbThreadRunning, queue, pushed,
    issued⟩ := s
  unfold Bracketed at h ⊢
  cases thread with
  | testDestroy =>
    obtain rfl := Option.some.inj taken
    cases deleteRequested <;> exact h
  | beginTransaction =>
    obtain rfl := Option.some.inj taken
    exact ⟨issued, [], h, rfl⟩
  | hasQueries =>
    obtain rfl := Option.some.inj taken
    by_cases empty : queue = []
    · simpa [empty, inside] using h
    · simpa [empty, inside] using h
  | getQuery =>
    cases queue with
    | nil => cases taken
    | cons sql rest =>
      obtain rfl := Option.some.inj taken
      exact h
  | queryDB sql =>
    obtain rfl := Option.some.inj taken
    obtain ⟨w, sqls, whole, rfl⟩ := h
    refine ⟨w, sqls ++ [sql], whole, ?_⟩
    simp [opened]
  | commitTransaction =>
    obtain rfl := Option.some.inj taken
    obtain ⟨w, sqls, whole, rfl⟩ := h
    have closed := whole.next sqls
    rw [← List.append_assoc] at closed
    exact closed
  | enterDestructor =>
    simp only [threadStep] at taken
    split_ifs at taken with free
    obtain rfl := Option.some.inj taken
    exact h
  | gone => cases taken
  | _ =>
    obtain rfl := Option.some.inj taken
    exact h

theorem frame_of_ne {s s' : State} {l : Label} (other : l ≠ .dbThread)
    (taken : step s l = some s') : s'.thread = s.thread ∧ s'.issued = s.issued := by
  cases l with
  | push sql =>
    simp only [step] at taken
    split_ifs at taken with allowed
    obtain rfl := Option.some.inj taken
    exact ⟨rfl, rfl⟩
  | deInit =>
    obtain ⟨thread, -, -, issued⟩ := deInitStep_frame taken
    exact ⟨thread, issued⟩
  | timeout =>
    simp only [step] at taken
    split_ifs at taken with waiting
    obtain rfl := Option.some.inj taken
    exact ⟨rfl, rfl⟩
  | dbThread => exact absurd rfl other

theorem bracketed_step {s s' : State} {l : Label} (h : Bracketed s)
    (taken : step s l = some s') : Bracketed s' := by
  by_cases own : l = .dbThread
  · subst own
    exact bracketed_threadStep h taken
  · obtain ⟨thread, issued⟩ := frame_of_ne own taken
    unfold Bracketed at h ⊢
    rw [thread, issued]
    exact h

theorem silent_step {issued : List Statement} {s s' : State} {l : Label}
    (h : s.thread = .gone ∧ s.issued = issued) (taken : step s l = some s') :
    s'.thread = .gone ∧ s'.issued = issued := by
  obtain ⟨gone, same⟩ := h
  by_cases own : l = .dbThread
  · subst own
    have none : threadStep s = none := by rw [threadStep, gone]
    rw [step, none] at taken
    cases taken
  · obtain ⟨thread, issued'⟩ := frame_of_ne own taken
    exact ⟨thread.trans gone, issued'.trans same⟩

theorem length_inHand_le (t : ThreadAt) : t.inHand.length ≤ 1 := by
  cases t <;> simp [ThreadAt.inHand]

theorem inside_of_ended {t : ThreadAt} (h : t.ended = true) : inside t = false := by
  cases t <;> simp_all [ThreadAt.ended, inside]

/-- How the two threads stand at one moment. -/
structure Orderly (s : State) : Prop where
  issuedFirst : inserts s.issued <+: s.pushed
  /-- none is skipped and none repeated -/
  account : s.pushed = inserts s.issued ++ s.thread.inHand ++ s.queryQueue
  oneInHand : s.thread.inHand.length ≤ 1
  /-- no transaction is begun inside another -/
  bracketed : ∃ rest, Whole (s.issued ++ rest)
  committed : s.thread.ended = true → Whole s.issued
  /-- `GetQuery` finds a query -/
  popping : s.thread = .getQuery → s.queryQueue ≠ []
  /-- at `clearDB` and after it the thread issues nothing more -/
  silent : s.ui = .clearDB ∨ s.ui = .done → ∀ ms t, exec step s ms = some t → t.issued = s.issued

/-- The thread executes what is pushed once, in order and inside transactions, and never after
the database is closed. -/
theorem orderly_run (ls : List Label) (s : State) (run : exec step .start ls = some s) :
    Orderly s := by
  have phases : Phases s := Reachable.phases ⟨ls, run⟩
  have account : Accounted s := Reachable.accounted ⟨ls, run⟩
  have bracketed : Bracketed s :=
    exec_invariant (fun _ _ _ => bracketed_step) (show Bracketed .start from .nil) run
  refine ⟨?_, account, length_inHand_le s.thread, ?_, ?_, phases.popping, ?_⟩
  · rw [account, List.append_assoc]
    exact List.prefix_append _ _
  · unfold Bracketed at bracketed
    split_ifs at bracketed with isInside
    · obtain ⟨w, sqls, whole, same⟩ := bracketed
      refine ⟨[.commitTransaction], ?_⟩
      rw [same, List.append_assoc]
      exact whole.next sqls
    · exact ⟨[], by rwa [List.append_nil]⟩
  · intro ended
    unfold Bracketed at bracketed
    rwa [inside_of_ended ended] at bracketed
  · intro late ms t more
    have waited : s.ui.waited = true := by
      rcases late with at_ | at_ <;> rw [at_] <;> rfl
    have gone : s.thread = .gone := phases.waited waited
    exact (exec_invariant (fun _ _ _ => silent_step) ⟨gone, rfl⟩ more).2

def oneInsert : List Label :=
  List.replicate 4 .dbThread ++ .push "INSERT".toList :: List.replicate 6 .dbThread ++
    List.replicate 5 .deInit ++ List.replicate 5 .dbThread ++ List.replicate 4 .deInit

def afterOneInsert : State where
  ui := .clearDB
  thread := .gone
  lock := none
  pThread := false
  isWriting := false
  deleteRequested := true
  dbThreadRunning := false
  queryQueue := []
  pushed := ["INSERT".toList]
  issued := [.beginTransaction, .insert "INSERT".toList, .commitTransaction]

theorem orderly_run_oneInsert : Orderly afterOneInsert :=
  orderly_run oneInsert afterOneInsert (by decide)

end ObjSearch.Thread.Transactions
