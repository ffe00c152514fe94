/- Points whose steps depend on where they start, from a first point on.
   digest: Intervals around them as wide as the step that they start leave no gap up to a bound
   exactly when no step is shorter than the one before it and at most half of the last is left. -/

import Mathlib.Algebra.Order.Floor.Ring
import Mathlib.Tactic.Linarith

set_option autoImplicit false
set_option relaxedAutoImplicit false

namespace ObjSearch.Lib.Strides

variable {K : Type} [Field K] [LinearOrder K] [IsStrictOrderedRing K]

/-- From each to the next by the step of its place. -/
def stride (h : K → K) (a : K) : ℕ → K
  | 0 => a
  | i + 1 => stride h a i + h (stride h a i)

structure Near (h : K → K) (a b y : K) (i : ℕ) : Prop where
  inside : stride h a i ≤ b
  close : |y - stride h a i| ≤ h (stride h a i) / 2

/-- The steps do not get shorter, and the last leaves at most its half over. -/
structure Gapless (h : K → K) (a b : K) : Prop where
  steps : ∀ i, stride h a (i + 1) ≤ b → h (stride h a i) ≤ h (stride h a (i + 1))
  last : ∀ i, stride h a i ≤ b → b < stride h a (i + 1) → b - stride h a i ≤ h (stride h a i) / 2

variable {h : K → K} {a b y : K}

omit [LinearOrder K] [IsStrictOrderedRing K] in
theorem stride_succ (i : ℕ) : stride h a (i + 1) = stride h a i + h (stride h a i) := rfl

omit [IsStrictOrderedRing K] in
theorem exists_below (past : ∃ k, y < stride h a k) (from_a : a ≤ y) :
    ∃ i, stride h a i ≤ y ∧ y < stride h a (i + 1) := by
  obtain ⟨k, beyond⟩ := past
  induction k with
  | zero => exact absurd beyond (not_lt.mpr from_a)
  | succ k ih =>
    rcases le_or_gt (stride h a k) y with below | above
    · exact ⟨k, below, beyond⟩
    · exact ih above

theorem exists_near_of_gapless (gapless : Gapless h a b) (past : ∃ k, b < stride h a k)
    (from_a : a ≤ y) (to_b : y ≤ b) : ∃ i, Near h a b y i := by
  obtain ⟨i, below, above⟩ := exists_below (past.imp fun k => to_b.trans_lt) from_a
  by_cases near : y - stride h a i ≤ h (stride h a i) / 2
  · refine ⟨i, below.trans to_b, ?_⟩
    rwa [abs_of_nonneg (sub_nonneg.mpr below)]
  · -- the next point is nearer
    have inside : stride h a (i + 1) ≤ b := by
      by_contra beyond
      have := gapless.last i (below.trans to_b) (not_le.mp beyond)
      linarith
    have longer := gapless.steps i inside
    refine ⟨i + 1, inside, ?_⟩
    rw [abs_of_nonpos (sub_nonpos.mpr above.le)]
    linarith [stride_succ (h := h) (a := a) i]

variable (pos : ∀ x, 0 < h x)
include pos

theorem stride_lt_next (i : ℕ) : stride h a i < stride h a (i + 1) :=
  lt_add_of_pos_right _ (pos _)

theorem stride_strictMono : StrictMono (stride h a) :=
  strictMono_nat_of_lt_succ (stride_lt_next pos)

theorem le_next_of_near {i j : ℕ} (near : |y - stride h a j| ≤ h (stride h a j) / 2)
    (less : j < i) : y < stride h a i := by
  have next : stride h a j + h (stride h a j) ≤ stride h a i :=
    (stride_strictMono pos).monotone (Nat.succ_le_of_lt less)
  have := (abs_le.mp near).2
  linarith [pos (stride h a j)]

section Tame

variable (tame : ∀ i, stride h a (i + 1) ≤ b → h (stride h a (i + 1)) < 2 * h (stride h a i))
include tame

/-- Where no step is twice the one before, an interval does not reach back to the last point. -/
theorem lt_of_near {i j : ℕ} (near : Near h a b y j) (less : i < j) : stride h a i < y := by
  obtain ⟨k, rfl⟩ : ∃ k, j = k + 1 := ⟨j - 1, by omega⟩
  have before : stride h a i ≤ stride h a k :=
    (stride_strictMono pos).monotone (Nat.lt_succ_iff.mp less)
  have short := tame k near.inside
  have := (abs_le.mp near.close).1
  linarith [stride_succ (h := h) (a := a) k]

theorem eq_of_near_stride {i j : ℕ} (near : Near h a b (stride h a i) j) : j = i := by
  rcases lt_trichotomy j i with less | same | more
  · exact absurd (le_next_of_near pos near.close less) (lt_irrefl _)
  · exact same
  · exact absurd (lt_of_near pos tame near more) (lt_irrefl _)

theorem eq_or_eq_of_near {i j : ℕ} (near : Near h a b y j) (low : stride h a i ≤ y)
    (high : y ≤ stride h a (i + 1)) : j = i ∨ j = i + 1 := by
  rcases lt_or_ge j i with less | upTo
  · exact absurd (le_next_of_near pos near.close less) (not_lt.mpr low)
  · rcases lt_or_ge (i + 1) j with more | notMore
    · exact absurd (lt_of_near pos tame near more) (not_lt.mpr high)
    · omega

theorem gapless_of_near (covered : ∀ y, a ≤ y → y ≤ b → ∃ i, Near h a b y i) :
    Gapless h a b := by
  have from_a (i : ℕ) : a ≤ stride h a i := (stride_strictMono pos).monotone (Nat.zero_le i)
  constructor
  · intro i inside
    by_contra shorter
    -- a point between the two intervals
    obtain ⟨y, place⟩ :
        ∃ y, y = stride h a i + (3 * h (stride h a i) - h (stride h a (i + 1))) / 4 := ⟨_, rfl⟩
    have same := stride_succ (h := h) (a := a) i
    have next := pos (stride h a (i + 1))
    have low : stride h a i ≤ y := by linarith
    have high : y ≤ stride h a (i + 1) := by linarith
    obtain ⟨j, near⟩ := covered y ((from_a i).trans low) (high.trans inside)
    rcases eq_or_eq_of_near pos tame near low high with rfl | rfl
    · have := (abs_le.mp near.close).2
      linarith
    · have := (abs_le.mp near.close).1
      linarith
  · intro i below beyond
    obtain ⟨j, near⟩ := covered b ((from_a i).trans below) le_rfl
    rcases eq_or_eq_of_near pos tame near below beyond.le with rfl | rfl
    · exact (le_abs_self _).trans near.close
    · exact absurd near.inside (not_le.mpr beyond)

end Tame

end ObjSearch.Lib.Strides
