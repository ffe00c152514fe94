/- Runs of a step function, one label after the other.
   digest: A run splits where its labels split; what each step keeps, a run keeps, and what each
   step takes away bounds the run. -/

import Mathlib.Data.List.Basic

set_option autoImplicit false
set_option relaxedAutoImplicit false

namespace ObjSearch.Lib.Runs

variable {σ ι : Type}

/-- `none` where a label comes in a state that does not allow it. -/
def exec (step : σ → ι → Option σ) (s : σ) : List ι → Option σ
  | [] => some s
  | l :: ls => (step s l).bind fun s' => exec step s' ls

variable {step : σ → ι → Option σ}

theorem exec_cons {s s' : σ} {l : ι} (taken : step s l = some s') (ls : List ι) :
    exec step s (l :: ls) = exec step s' ls := by
  show (step s l).bind _ = _
  rw [taken, Option.bind_some]

theorem exec_append (s : σ) (ls ms : List ι) :
    exec step s (ls ++ ms) = (exec step s ls).bind fun t => exec step t ms := by
  induction ls generalizing s with
  | nil => rfl
  | cons l ls ih =>
    show (step s l).bind _ = ((step s l).bind _).bind _
    cases step s l with
    | none => rfl
    | some s' => exact ih s'

theorem exec_append_eq_some {s t : σ} {ls ms : List ι} :
    exec step s (ls ++ ms) = some t ↔
      ∃ m, exec step s ls = some m ∧ exec step m ms = some t := by
  rw [exec_append, Option.bind_eq_some_iff]

theorem exec_concat_eq_some {s t : σ} {ls : List ι} {l : ι} :
    exec step s (ls ++ [l]) = some t ↔ ∃ m, exec step s ls = some m ∧ step m l = some t := by
  rw [exec_append_eq_some]
  refine exists_congr fun m => and_congr_right fun _ => ?_
  show (step m l).bind some = some t ↔ _
  rw [Option.bind_fun_some]

/-- What every step taken under its guard keeps, every run of such steps keeps. -/
theorem exec_guarded {I : σ → Prop} {G : σ → ι → Prop} {s t : σ} {ls : List ι}
    (keep : ∀ s l s', I s → G s l → step s l = some s' → I s') (start : I s)
    (run : exec step s ls = some t)
    (guarded : ∀ p l q m, ls = p ++ l :: q → exec step s p = some m → G m l) : I t := by
  induction ls generalizing s with
  | nil => exact Option.some.inj run ▸ start
  | cons l ls ih =>
    obtain ⟨s', first, rest⟩ := Option.bind_eq_some_iff.mp run
    refine ih (keep s l s' start (guarded [] l ls s rfl rfl) first) rest ?_
    intro p k q m split reached
    exact guarded (l :: p) k q m (by rw [split]; rfl) ((exec_cons first p).trans reached)

theorem exec_invariant {I : σ → Prop} {s t : σ} {ls : List ι}
    (keep : ∀ s l s', I s → step s l = some s' → I s') (start : I s)
    (run : exec step s ls = some t) : I t :=
  exec_guarded (fun s l s' h (_ : True) => keep s l s' h) start run fun _ _ _ _ _ _ => trivial

/-- Where every step taken under its guard lowers a measure as well, the run is no longer than
what it takes away from it. -/
theorem exec_lowers {I : σ → Prop} {G : σ → ι → Prop} {s t : σ} {ls : List ι} (μ : σ → ℕ)
    (keep : ∀ s l s', I s → G s l → step s l = some s' → I s' ∧ μ s' + 1 ≤ μ s) (start : I s)
    (run : exec step s ls = some t)
    (guarded : ∀ p l q m, ls = p ++ l :: q → exec step s p = some m → G m l) :
    I t ∧ ls.length + μ t ≤ μ s := by
  induction ls generalizing s with
  | nil =>
    cases run
    exact ⟨start, Nat.le_of_eq (Nat.zero_add _)⟩
  | cons l ls ih =>
    obtain ⟨s', first, rest⟩ := Option.bind_eq_some_iff.mp run
    obtain ⟨kept, lower⟩ := keep s l s' start (guarded [] l ls s rfl rfl) first
    have after := ih kept rest (by
      intro p k q m split reached
      exact guarded (l :: p) k q m (by rw [split]; rfl) ((exec_cons first p).trans reached))
    refine ⟨after.1, ?_⟩
    have := after.2
    rw [List.length_cons]
    omega

/-- At most so many labels, chosen by the state that the run is in, as long as they can be taken. -/
def driven (step : σ → ι → Option σ) (choose : σ → ι) : ℕ → σ → List ι
  | 0, _ => []
  | k + 1, s =>
    match step s (choose s) with
    | none => []
    | some t => choose s :: driven step choose k t

theorem chosen_of_driven {choose : σ → ι} {k : ℕ} {s m : σ} {p q : List ι} {l : ι}
    (split : driven step choose k s = p ++ l :: q) (reached : exec step s p = some m) :
    l = choose m := by
  induction k generalizing s p with
  | zero =>
    rw [driven] at split
    cases p <;> cases split
  | succ k ih =>
    rw [driven] at split
    cases first : step s (choose s) with
    | none =>
      simp only [first] at split
      cases p <;> cases split
    | some t =>
      simp only [first] at split
      cases p with
      | nil =>
        obtain rfl := Option.some.inj reached
        exact (List.cons.inj split).1.symm
      | cons l' p =>
        obtain ⟨rfl, rest⟩ := List.cons.inj split
        rw [exec_cons first] at reached
        exact ih rest reached

end ObjSearch.Lib.Runs
