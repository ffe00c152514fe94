/- The flag `m_bWaitForDB` and the wait of StoreNewObject.
   digest: The flag is up exactly while a chart or a feature is being recorded, so the wait is
   never entered, and a notification is over after seven steps of its own thread. -/

import ObjSearch.Thread.Connection

set_option autoImplicit false
set_option relaxedAutoImplicit false

namespace ObjSearch.Thread.Waiting

open ObjSearch.Lib.Texts (Text)
open ObjSearch.Lib.Runs
open ObjSearch.Index.Notify
open ObjSearch.Index.Queueing (posixName)
open ObjSearch.Thread.DbThread (ThreadAt)
open ObjSearch.Thread.Connection

variable (getName : Text → Text)

def Reachable (s : State) : Prop := ∃ db ls, exec (step getName) (.start db) ls = some s

def recording : UiAt → Bool
  | .idle | .storeObject .. => false
  | _ => true

def Flagged (s : Plugin) (ui : UiAt) : Prop := s.waitForDB = recording ui

/-- The steps the UI thread still has to take in this notification. -/
def toReturn : UiAt → ℕ
  | .insertChart .. => 7
  | .lastRowOfChart .. => 6
  | .recordChart .. => 5
  | .insertFeature .. => 4
  | .lastRowOfFeature .. => 3
  | .recordFeature .. => 2
  | .storeObject .. => 1
  | .idle => 0

/-- StoreNewObject does not wait here, a notification can go on, and is over after seven steps. -/
structure WaitFree (s : State) : Prop where
  passes : ∀ n chart_id feature_id, s.ui = .storeObject n chart_id feature_id →
    objectWaits s.plugin n = false
  continues : s.ui ≠ .idle → ∃ s', step getName s .ui = some s'
  bounded : ∀ ls t, exec (step getName) s ls = some t → (∀ n, .notify n ∉ ls) →
    ls.count .ui ≤ 7 ∧ (ls.count .ui = 7 → t.ui = .idle)

variable {getName}

@[simp] theorem queryDB_waitForDB (s : Plugin) (sql : Text) :
    (queryDB s sql).waitForDB = s.waitForDB := by
  unfold queryDB
  split <;> rfl

theorem storeNewObject_waitForDB (s : Plugin) (chart_id feature_id : ℤ) (objname : Text)
    (lat lon : ℚ) : (storeNewObject s chart_id feature_id objname lat lon).waitForDB =
      s.waitForDB := by
  simp only [storeNewObject]
  split_ifs <;> rfl

theorem flagged_afterChart {s : Plugin} (free : s.waitForDB = false) (n : Notification)
    (chart_id feature_id : ℤ) : Flagged (afterChart s n chart_id feature_id).1
      (afterChart s n chart_id feature_id).2 := by
  unfold afterChart
  split_ifs
  · rfl
  · exact free

theorem toReturn_afterChart (s : Plugin) (n : Notification) (chart_id feature_id : ℤ) :
    toReturn (afterChart s n chart_id feature_id).2 ≤ 4 := by
  unfold afterChart
  split_ifs <;> simp [toReturn]

theorem flagged_notifyStep {s : Plugin} (free : s.waitForDB = false) (n : Notification) :
    Flagged (notifyStep getName s n).1 (notifyStep getName s n).2 := by
  simp only [notifyStep]
  split_ifs
  · exact free
  · rfl
  · exact flagged_afterChart free n _ _

theorem not_objectWaits {s : Plugin} (free : s.waitForDB = false) (n : Notification) :
    objectWaits s n = false := by
  rw [objectWaits, free, Bool.and_false]

theorem flagged_uiStep {s s' : Plugin} {ui ui' : UiAt} (h : Flagged s ui)
    (taken : uiStep getName s ui = some (s', ui')) :
    Flagged s' ui' ∧ toReturn ui' < toReturn ui := by
  cases ui with
  | idle => cases taken
  | insertChart n chart_id feature_id =>
    simp only [uiStep] at taken
    split_ifs at taken
    · obtain ⟨rfl, rfl⟩ := Prod.mk.inj (Option.some.inj taken)
      exact ⟨h, by simp [toReturn]⟩
    · obtain ⟨rfl, rfl⟩ := Prod.mk.inj (Option.some.inj taken)
      exact ⟨(queryDB_waitForDB _ _).trans h, by simp [toReturn]⟩
  | lastRowOfChart n chart_id feature_id =>
    obtain ⟨rfl, rfl⟩ := Prod.mk.inj (Option.some.inj taken)
    exact ⟨h, by simp [toReturn]⟩
  | recordChart n chart_id feature_id ch =>
    have near := toReturn_afterChart
      { s with chartsInDb := s.chartsInDb.insert ch.name ch, waitForDB := false } n chart_id
      feature_id
    obtain ⟨rfl, rfl⟩ := Prod.mk.inj (Option.some.inj taken)
    exact ⟨flagged_afterChart rfl n chart_id feature_id, Nat.lt_succ_of_le near⟩
  | insertFeature n chart_id =>
    simp only [uiStep] at taken
    split_ifs at taken
    · obtain ⟨rfl, rfl⟩ := Prod.mk.inj (Option.some.inj taken)
      exact ⟨h, by simp [toReturn]⟩
    · obtain ⟨rfl, rfl⟩ := Prod.mk.inj (Option.some.inj taken)
      exact ⟨(queryDB_waitForDB _ _).trans h, by simp [toReturn]⟩
  | lastRowOfFeature n chart_id =>
    obtain ⟨rfl, rfl⟩ := Prod.mk.inj (Option.some.inj taken)
    exact ⟨h, by simp [toReturn]⟩
  | recordFeature n chart_id feature_id =>
    obtain ⟨rfl, rfl⟩ := Prod.mk.inj (Option.some.inj taken)
    exact ⟨rfl, by simp [toReturn]⟩
  | storeObject n chart_id feature_id =>
    -- the flag is down, so the step is not a turn of the wait
    have free : s.waitForDB = false := h
    simp only [uiStep, not_objectWaits free, Bool.false_eq_true, if_false] at taken
    split_ifs at taken
    · obtain ⟨rfl, rfl⟩ := Prod.mk.inj (Option.some.inj taken)
      exact ⟨free, by simp [toReturn]⟩
    · obtain ⟨rfl, rfl⟩ := Prod.mk.inj (Option.some.inj taken)
      exact ⟨(storeNewObject_waitForDB _ _ _ _ _ _).trans free, by simp [toReturn]⟩

theorem threadStep_waitForDB {s s' : Plugin} {thread thread' : ThreadAt}
    (taken : threadStep s thread = some (s', thread')) : s'.waitForDB = s.waitForDB := by
  cases thread with
  | getQuery =>
    simp only [threadStep] at taken
    split at taken
    · cases taken
    · obtain ⟨rfl, rfl⟩ := Prod.mk.inj (Option.some.inj taken)
      rfl
  | beginTransaction | queryDB | commitTransaction =>
    obtain ⟨rfl, rfl⟩ := Prod.mk.inj (Option.some.inj taken)
    exact queryDB_waitForDB _ _
  | setRunning | testDestroy | setWriting | hasQueries | clearWriting | sleep =>
    obtain ⟨rfl, rfl⟩ := Prod.mk.inj (Option.some.inj taken)
    rfl
  | _ => cases taken

theorem flagged_step {s s' : State} {l : Label} (h : Flagged s.plugin s.ui)
    (taken : step getName s l = some s') :
    Flagged s'.plugin s'.ui ∧ (l = .ui → toReturn s'.ui < toReturn s.ui) ∧
      (l = .dbThread → s'.ui = s.ui) := by
  obtain ⟨plugin, ui, thread⟩ := s
  cases l with
  | notify n =>
    cases ui with
    | idle =>
      obtain rfl := Option.some.inj taken
      exact ⟨flagged_notifyStep h n, by simp⟩
    | _ => cases taken
  | ui =>
    obtain ⟨⟨plugin', ui'⟩, result, rfl⟩ := Option.map_eq_some_iff.mp taken
    obtain ⟨flag, lower⟩ := flagged_uiStep h result
    exact ⟨flag, fun _ => lower, by simp⟩
  | dbThread =>
    obtain ⟨⟨plugin', thread'⟩, result, rfl⟩ := Option.map_eq_some_iff.mp taken
    exact ⟨(threadStep_waitForDB result).trans h, by simp, fun _ => rfl⟩

theorem Reachable.flagged {s : State} (h : Reachable getName s) : Flagged s.plugin s.ui := by
  obtain ⟨db, ls, run⟩ := h
  exact exec_invariant (I := fun s => Flagged s.plugin s.ui)
    (fun _ _ _ flag taken => (flagged_step flag taken).1) (show Flagged (init db) .idle from rfl) run

theorem exists_uiStep (s : Plugin) {ui : UiAt} (busy : ui ≠ .idle) :
    ∃ s' ui', uiStep getName s ui = some (s', ui') := by
  cases ui with
  | idle => exact absurd rfl busy
  | insertChart | insertFeature =>
    simp only [uiStep]
    split_ifs <;> exact ⟨_, _, rfl⟩
  | storeObject n chart_id feature_id =>
    simp only [uiStep]
    split_ifs <;> exact ⟨_, _, rfl⟩
  | _ => exact ⟨_, _, rfl⟩

theorem count_ui_le {s t : State} {ls : List Label} (h : Flagged s.plugin s.ui)
    (run : exec (step getName) s ls = some t) (same : ∀ n, .notify n ∉ ls) :
    ls.count .ui + toReturn t.ui ≤ toReturn s.ui := by
  induction ls generalizing s with
  | nil =>
    obtain rfl := Option.some.inj run
    exact Nat.le_of_eq (Nat.zero_add _)
  | cons l ls ih =>
    obtain ⟨s', first, rest⟩ := Option.bind_eq_some_iff.mp run
    obtain ⟨flag, lower, still⟩ := flagged_step h first
    have later := ih flag rest fun n here => same n (List.mem_cons_of_mem l here)
    cases l with
    | notify n => exact absurd List.mem_cons_self (same n)
    | ui =>
      have := lower rfl
      rw [List.count_cons_self]
      omega
    | dbThread =>
      rw [still rfl] at later
      rw [List.count_cons_of_ne (by simp)]
      exact later

/-- SendVectorChartObjectInfo is wait-free: in every reachable state, whatever names came before and
whatever failed, StoreNewObject does not wait and the UI thread can take its next step; and however
the DB thread steps in between, seven steps of its own end the notification. -/
theorem notification_returns {s : State} (h : Reachable getName s) : WaitFree getName s := by
  refine ⟨?_, ?_, ?_⟩
  · intro n chart_id feature_id here
    have free : s.plugin.waitForDB = recording s.ui := h.flagged
    rw [here] at free
    exact not_objectWaits free n
  · intro busy
    obtain ⟨plugin', ui', taken⟩ := @exists_uiStep getName s.plugin _ busy
    exact ⟨{ s with plugin := plugin', ui := ui' }, by rw [step, taken]; rfl⟩
  · intro ls t run same
    have paid := count_ui_le h.flagged run same
    have most : toReturn s.ui ≤ 7 := by cases s.ui <;> simp [toReturn]
    refine ⟨by omega, fun all => ?_⟩
    have none : toReturn t.ui = 0 := by omega
    cases ui : t.ui <;> rw [ui] at none <;> first | rfl | cases none

theorem notification_returns_recording :
    ∃ s, exec (step posixName) (.start .created) (recordedAlone.take 4) = some s ∧
      WaitFree posixName s := by
  cases run : exec (step posixName) (.start .created) (recordedAlone.take 4) with
  | none =>
    have completes : (exec (step posixName) (.start .created) (recordedAlone.take 4)).isSome := by
      decide +kernel
    rw [run] at completes
    cases completes
  | some s => exact ⟨s, rfl, notification_returns ⟨_, _, run⟩⟩

end ObjSearch.Thread.Waiting
