/- Infinite schedules of a step function, in which some labels come again and again.
   digest: Where the helpful label lowers a rank and no other raises it, every schedule that keeps
   offering that label gets to the goal, and so does a fair one where what the label waits for comes
   again and again; where some label always lowers the rank, some run gets there. -/

import Mathlib.Data.Nat.Init
import ObjSearch.Lib.Runs

set_option autoImplicit false
set_option relaxedAutoImplicit false

namespace ObjSearch.Lib.Schedules

open ObjSearch.Lib.Runs

variable {σ ι : Type}

/-- The states of a schedule; a label that its state does not allow changes nothing. -/
def stateAt (step : σ → ι → Option σ) (s : σ) (schedule : ℕ → ι) : ℕ → σ
  | 0 => s
  | n + 1 => (step (stateAt step s schedule n) (schedule n)).getD (stateAt step s schedule n)

def Again (schedule : ℕ → ι) (l : ι) : Prop := ∀ n, ∃ m, n ≤ m ∧ schedule m = l

/-- Strong fairness: where `C` holds again and again, the label comes again and again while it
does. -/
def Fair (step : σ → ι → Option σ) (s : σ) (schedule : ℕ → ι) (C : σ → Prop) (l : ι) : Prop :=
  (∀ n, ∃ m, n ≤ m ∧ C (stateAt step s schedule m)) →
    ∀ n, ∃ m, n ≤ m ∧ C (stateAt step s schedule m) ∧ schedule m = l

/-- On the way from `P` to `Q` no step raises the rank or, at the same rank, makes another label the
helpful one; and the helpful label is allowed and lowers the rank. -/
structure Progress (step : σ → ι → Option σ) (P Q : σ → Prop) (rank : σ → ℕ) (helpful : σ → ι) :
    Prop where
  keep : ∀ s l s', P s → ¬Q s → step s l = some s' →
    Q s' ∨ P s' ∧ (rank s' < rank s ∨ rank s' = rank s ∧ helpful s' = helpful s)
  lower : ∀ s, P s → ¬Q s → ∃ s', step s (helpful s) = some s' ∧ (Q s' ∨ rank s' < rank s)

variable {step : σ → ι → Option σ} {s : σ} {schedule : ℕ → ι}

theorem stateAt_succ_of_some {n : ℕ} {t : σ}
    (taken : step (stateAt step s schedule n) (schedule n) = some t) :
    stateAt step s schedule (n + 1) = t := by
  rw [stateAt, taken, Option.getD_some]

theorem stateAt_until {P Q : σ → Prop}
    (keep : ∀ s l s', P s → step s l = some s' → Q s' ∨ P s') {n m : ℕ} (later : n ≤ m)
    (start : P (stateAt step s schedule n))
    (never : ∀ k, n ≤ k → ¬Q (stateAt step s schedule k)) : P (stateAt step s schedule m) := by
  induction m, later using Nat.le_induction with
  | base => exact start
  | succ m later ih =>
    cases taken : step (stateAt step s schedule m) (schedule m) with
    | none =>
      rw [stateAt, taken, Option.getD_none]
      exact ih
    | some t =>
      have next : stateAt step s schedule (m + 1) = t := stateAt_succ_of_some taken
      rcases keep _ _ t ih taken with reached | kept
      · exact absurd (next ▸ reached) (never (m + 1) (by omega))
      · exact next ▸ kept

theorem stateAt_of_stuck {n m : ℕ} (later : n ≤ m)
    (stuck : ∀ k, n ≤ k → step (stateAt step s schedule n) (schedule k) = none) :
    stateAt step s schedule m = stateAt step s schedule n := by
  induction m, later using Nat.le_induction with
  | base => rfl
  | succ m later ih => rw [stateAt, ih, stuck m later, Option.getD_none]

theorem exists_exec_stateAt (s : σ) (schedule : ℕ → ι) (n : ℕ) :
    ∃ ls, exec step s ls = some (stateAt step s schedule n) := by
  induction n with
  | zero => exact ⟨[], rfl⟩
  | succ n ih =>
    obtain ⟨ls, run⟩ := ih
    cases taken : step (stateAt step s schedule n) (schedule n) with
    | none =>
      refine ⟨ls, ?_⟩
      rw [stateAt, taken, Option.getD_none]
      exact run
    | some t => exact ⟨ls ++ [schedule n],
        exec_concat_eq_some.mpr ⟨_, run, by rw [taken, stateAt_succ_of_some taken]⟩⟩

variable {P Q : σ → Prop} {rank : σ → ℕ} {helpful : σ → ι}

private theorem Progress.until (h : Progress step P Q rank helpful) {n : ℕ}
    (start : P (stateAt step s schedule n)) (m : ℕ) :
    (∃ k, n ≤ k ∧ Q (stateAt step s schedule k)) ∨
      (∃ k, n ≤ k ∧ P (stateAt step s schedule k) ∧
        rank (stateAt step s schedule k) < rank (stateAt step s schedule n)) ∨
      P (stateAt step s schedule (n + m)) ∧
        rank (stateAt step s schedule (n + m)) = rank (stateAt step s schedule n) ∧
        helpful (stateAt step s schedule (n + m)) = helpful (stateAt step s schedule n) := by
  induction m with
  | zero => exact .inr (.inr ⟨start, rfl, rfl⟩)
  | succ m ih =>
    rcases ih with reached | fallen | ⟨here, same, help⟩
    · exact .inl reached
    · exact .inr (.inl fallen)
    by_cases goal : Q (stateAt step s schedule (n + m))
    · exact .inl ⟨n + m, Nat.le_add_right n m, goal⟩
    cases taken : step (stateAt step s schedule (n + m)) (schedule (n + m)) with
    | none =>
      have still : stateAt step s schedule (n + (m + 1)) = stateAt step s schedule (n + m) := by
        rw [← Nat.add_assoc, stateAt, taken, Option.getD_none]
      rw [still]
      exact .inr (.inr ⟨here, same, help⟩)
    | some t =>
      have next : stateAt step s schedule (n + (m + 1)) = t := stateAt_succ_of_some taken
      rcases h.keep _ _ t here goal taken with reached | ⟨kept, lower | ⟨same', help'⟩⟩
      · exact .inl ⟨n + (m + 1), Nat.le_add_right n _, next ▸ reached⟩
      · exact .inr (.inl ⟨n + (m + 1), Nat.le_add_right n _, next ▸ kept, by rw [next]; omega⟩)
      · rw [next]
        exact .inr (.inr ⟨kept, same'.trans same, help'.trans help⟩)

/-- A schedule that offers each helpful label again and again reaches the goal. -/
theorem Progress.eventually (h : Progress step P Q rank helpful)
    (again : ∀ s, P s → Again schedule (helpful s)) {n : ℕ}
    (start : P (stateAt step s schedule n)) : ∃ m, n ≤ m ∧ Q (stateAt step s schedule m) := by
  induction size : rank (stateAt step s schedule n) using Nat.strong_induction_on
    generalizing n with
  | _ r ih =>
    subst size
    -- a lower rank at a later moment is as good
    have fallen (k : ℕ) (later : n ≤ k) (kept : P (stateAt step s schedule k))
        (lower : rank (stateAt step s schedule k) < rank (stateAt step s schedule n)) :
        ∃ m, n ≤ m ∧ Q (stateAt step s schedule m) := by
      obtain ⟨m, after, goal⟩ := ih _ lower kept rfl
      exact ⟨m, Nat.le_trans later after, goal⟩
    obtain ⟨m, after, offered⟩ := again _ start n
    obtain ⟨d, rfl⟩ := Nat.exists_eq_add_of_le after
    rcases h.until start d with reached | ⟨k, later, kept, lower⟩ | ⟨here, same, help⟩
    · exact reached
    · exact fallen k later kept lower
    by_cases goal : Q (stateAt step s schedule (n + d))
    · exact ⟨n + d, after, goal⟩
    obtain ⟨t, taken, better⟩ := h.lower _ here goal
    rw [help, ← offered] at taken
    have next : stateAt step s schedule (n + d + 1) = t := stateAt_succ_of_some taken
    rcases better with reached | lower
    · exact ⟨n + d + 1, by omega, next ▸ reached⟩
    rcases h.keep _ _ t here goal taken with reached | ⟨kept, -⟩
    · exact ⟨n + d + 1, by omega, next ▸ reached⟩
    · exact fallen (n + d + 1) (by omega) (next ▸ kept) (by rw [next]; omega)

/-- A fair schedule reaches the goal where `C` comes again and again before it and the label, taken
while `C` holds, leads to it. -/
theorem Fair.eventually {C : σ → Prop} {l : ι} (h : Fair step s schedule C l)
    (keep : ∀ s l s', P s → step s l = some s' → Q s' ∨ P s')
    (recurs : ∀ n, P (stateAt step s schedule n) →
      ∃ m, n ≤ m ∧ (Q (stateAt step s schedule m) ∨ C (stateAt step s schedule m)))
    (leads : ∀ s, P s → C s → ∃ s', step s l = some s' ∧ Q s') {n : ℕ}
    (start : P (stateAt step s schedule n)) : ∃ m, n ≤ m ∧ Q (stateAt step s schedule m) := by
  by_contra! never
  have here (m : ℕ) (later : n ≤ m) : P (stateAt step s schedule m) :=
    stateAt_until keep later start never
  have again (k : ℕ) : ∃ m, k ≤ m ∧ C (stateAt step s schedule m) := by
    obtain ⟨m, later, reached | holds⟩ := recurs (max n k) (here _ (Nat.le_max_left n k))
    · exact absurd reached (never m (by omega))
    · exact ⟨m, by omega, holds⟩
  obtain ⟨m, later, holds, offered⟩ := h again n
  obtain ⟨t, taken, reached⟩ := leads _ (here m later) holds
  rw [← offered] at taken
  exact never (m + 1) (by omega) (stateAt_succ_of_some taken ▸ reached)

/-- Where each state allows some label, of those that serve, that lowers the rank, some run of such
labels reaches the goal. -/
theorem exists_exec_of_lower {serves : ι → Prop}
    (lower : ∀ s, P s → ¬Q s → ∃ l s', serves l ∧ step s l = some s' ∧ P s' ∧ rank s' < rank s)
    (start : P s) : ∃ ls t, (∀ l ∈ ls, serves l) ∧ exec step s ls = some t ∧ Q t := by
  induction size : rank s using Nat.strong_induction_on generalizing s with
  | _ r ih =>
    subst size
    by_cases goal : Q s
    · exact ⟨[], s, by simp, rfl, goal⟩
    obtain ⟨l, s', serving, taken, kept, less⟩ := lower s start goal
    obtain ⟨ls, t, all, run, reached⟩ := ih _ less kept rfl
    refine ⟨l :: ls, t, ?_, (exec_cons taken ls).trans run, reached⟩
    rintro k (_ | ⟨_, later⟩)
    · exact serving
    · exact all k later

end ObjSearch.Lib.Schedules
