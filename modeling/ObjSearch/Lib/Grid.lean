/- Points at equal steps between two bounds.
   digest: Intervals of one step's width around them cover what is between the bounds exactly when
   the last step leaves at most half a step over; there is room for only so many of them. -/

import Mathlib.Algebra.Order.Floor.Ring
import Mathlib.Tactic.FieldSimp
import Mathlib.Tactic.Linarith
import Mathlib.Tactic.Ring

set_option autoImplicit false
set_option relaxedAutoImplicit false

namespace ObjSearch.Lib.Grid

variable {K : Type} [Field K] [LinearOrder K] {a b h x : K}

/-- The points from `a` in steps of `h`, up to `b`. -/
def grid (a b h : K) : Set K := {x | x ≤ b ∧ ∃ i : ℕ, x = a + i * h}

theorem first_mem (le : a ≤ b) : a ∈ grid a b h := by
  refine ⟨le, 0, ?_⟩
  simp

theorem next_mem (mem : x ∈ grid a b h) (le : x + h ≤ b) : x + h ∈ grid a b h := by
  obtain ⟨-, i, rfl⟩ := mem
  refine ⟨le, i + 1, ?_⟩
  push_cast
  ring

variable [IsStrictOrderedRing K]

/-- What holds at the first point and goes over from each to the next holds at all of them. -/
theorem grid_induction {P : K → Prop} (step : 0 ≤ h) (first : a ≤ b → P a)
    (next : ∀ x ∈ grid a b h, x + h ≤ b → P x → P (x + h)) (mem : x ∈ grid a b h) : P x := by
  obtain ⟨le, i, rfl⟩ := mem
  induction i with
  | zero =>
    rw [Nat.cast_zero, zero_mul, add_zero] at le ⊢
    exact first le
  | succ i ih =>
    have split : a + ((i + 1 : ℕ) : K) * h = a + i * h + h := by
      push_cast
      ring
    rw [split] at le ⊢
    have before : a + i * h ≤ b := (le_add_of_nonneg_right step).trans le
    exact next _ ⟨before, i, rfl⟩ le (ih before)

theorem first_le (step : 0 ≤ h) (mem : x ∈ grid a b h) : a ≤ x := by
  obtain ⟨-, i, rfl⟩ := mem
  exact le_add_of_nonneg_right (mul_nonneg (Nat.cast_nonneg i) step)

theorem le_of_lt_next {z : K} (pos : 0 < h) (mem : x ∈ grid a b h) (here : z ∈ grid a b h)
    (before : x < z + h) : x ≤ z := by
  obtain ⟨-, i, rfl⟩ := mem
  obtain ⟨-, j, rfl⟩ := here
  have less : (i : K) * h < (j + 1 : ℕ) * h := by
    push_cast
    linarith
  have index : i < j + 1 := Nat.cast_lt.mp (lt_of_mul_lt_mul_right less pos.le)
  have le : (i : K) ≤ j := Nat.cast_le.mpr (Nat.lt_succ_iff.mp index)
  linarith [mul_le_mul_of_nonneg_right le pos.le]

/-- Every point between the bounds is within half a step of one of them. -/
def Covers (a b h : K) : Prop := ∀ y, a ≤ y → y ≤ b → ∃ x ∈ grid a b h, |y - x| ≤ h / 2

variable [FloorRing K]

theorem fract_of_covers (pos : 0 < h) (le : a ≤ b) (covers : Covers a b h) :
    Int.fract ((b - a) / h) ≤ 1 / 2 := by
  obtain ⟨x, ⟨below, i, rfl⟩, near⟩ := covers b le le_rfl
  have left_over : b - (a + i * h) ≤ h / 2 := (le_abs_self _).trans near
  have split : (b - a) / h = (b - (a + i * h)) / h + (i : ℤ) := by
    rw [Int.cast_natCast]
    field_simp
    ring
  have most : (b - (a + i * h)) / h ≤ 1 / 2 := by
    rw [div_le_iff₀ pos]
    linarith
  rw [split, Int.fract_add_intCast, Int.fract_eq_self.mpr]
  · exact most
  · refine ⟨div_nonneg (by linarith) pos.le, ?_⟩
    linarith

theorem exists_below {y : K} (pos : 0 < h) (from_a : a ≤ y) :
    ∃ i : ℕ, ⌊(y - a) / h⌋ = i ∧ a + i * h ≤ y ∧ y < a + i * h + h := by
  obtain ⟨i, floor⟩ : ∃ i : ℕ, ⌊(y - a) / h⌋ = i :=
    Int.eq_ofNat_of_zero_le (Int.floor_nonneg.mpr (div_nonneg (sub_nonneg.mpr from_a) pos.le))
  have both := Int.floor_eq_iff.mp floor
  rw [Int.cast_natCast, le_div_iff₀ pos, div_lt_iff₀ pos] at both
  refine ⟨i, floor, ?_, ?_⟩ <;> linarith

theorem covers_of_fract (pos : 0 < h) (left_over : Int.fract ((b - a) / h) ≤ 1 / 2) :
    Covers a b h := by
  intro y from_a to_b
  obtain ⟨i, -, low, high⟩ := exists_below pos from_a
  by_cases near : y - (a + i * h) ≤ h / 2
  · refine ⟨a + i * h, ⟨by linarith, i, rfl⟩, ?_⟩
    rw [abs_of_nonneg (by linarith)]
    exact near
  · -- the next point is nearer; beyond `b` it would leave more than half a step over
    have inside : a + ((i + 1 : ℕ) : K) * h ≤ b := by
      by_contra beyond
      push_cast at beyond
      have floor : ⌊(b - a) / h⌋ = i := by
        rw [Int.floor_eq_iff, Int.cast_natCast, le_div_iff₀ pos, div_lt_iff₀ pos]
        constructor <;> linarith
      rw [Int.fract, floor, Int.cast_natCast, sub_le_iff_le_add, div_le_iff₀ pos] at left_over
      linarith
    refine ⟨_, ⟨inside, i + 1, rfl⟩, ?_⟩
    push_cast
    rw [abs_of_nonpos (by linarith)]
    linarith

theorem covers_iff (pos : 0 < h) (le : a ≤ b) :
    Covers a b h ↔ Int.fract ((b - a) / h) ≤ 1 / 2 :=
  ⟨fract_of_covers pos le, covers_of_fract pos⟩

theorem exists_last (pos : 0 < h) (le : a ≤ b) : ∃ x ∈ grid a b h, b < x + h := by
  obtain ⟨i, -, low, high⟩ := exists_below pos le
  exact ⟨a + i * h, ⟨low, i, rfl⟩, high⟩

/-- How many points there can be from `a` up to `b` when each is at least `h` from the last. -/
def room (a b h : K) : ℕ := if a ≤ b then ⌊(b - a) / h⌋.toNat + 1 else 0

omit [IsStrictOrderedRing K] in
theorem room_pos (h : K) (le : a ≤ b) : 0 < room a b h := by
  rw [room, if_pos le]
  exact Nat.succ_pos _

theorem room_step {k : K} (pos : 0 < h) (le : a ≤ b) (wide : h ≤ k) :
    room (a + k) b h + 1 ≤ room a b h := by
  rw [room, room, if_pos le]
  split_ifs with inside
  · have less : (b - (a + k)) / h + 1 ≤ (b - a) / h := by
      rw [div_add_one pos.ne', div_le_div_iff_of_pos_right pos]
      linarith
    have floors := Int.floor_le_floor less
    rw [Int.floor_add_one] at floors
    have nonneg : 0 ≤ ⌊(b - (a + k)) / h⌋ :=
      Int.floor_nonneg.mpr (div_nonneg (sub_nonneg.mpr inside) pos.le)
    omega
  · omega

theorem room_le (pos : 0 < h) (le : a ≤ b) : (room a b h : K) ≤ (b - a) / h + 1 := by
  have nonneg : 0 ≤ ⌊(b - a) / h⌋ := Int.floor_nonneg.mpr (div_nonneg (sub_nonneg.mpr le) pos.le)
  have cast : ((⌊(b - a) / h⌋.toNat : ℕ) : K) = (⌊(b - a) / h⌋ : ℤ) := by
    rw [← Int.cast_natCast, Int.toNat_of_nonneg nonneg]
  rw [room, if_pos le, Nat.cast_add, Nat.cast_one, cast]
  linarith [Int.floor_le ((b - a) / h)]

end ObjSearch.Lib.Grid
