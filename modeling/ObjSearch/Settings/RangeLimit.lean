/- The range limit, from the spin control to the configuration and back.
   digest: The control takes user units and shows nautical miles, so only a value that this leaves
   alone survives the next session. -/

import Mathlib.Algebra.Order.Floor.Ring
import Mathlib.Data.Rat.Floor
import Mathlib.Tactic.Linarith
import Mathlib.Tactic.NormNum

set_option autoImplicit false
set_option relaxedAutoImplicit false

namespace ObjSearch.Settings.RangeLimit

/-- The spin control of the dialog, created with the range from 0 to 10000: it holds a value inside
the range as it is, and the nearest end for one outside. -/
structure SpinCtrl where
  setValue : ℤ → ℤ
  inside : ∀ v, 0 ≤ v → v ≤ 10000 → setValue v = v
  above : ∀ v, 10000 ≤ v → setValue v = 10000

/-- The entries of the configuration, where they have been written. -/
structure Config where
  closeOnShow : Option Bool
  limitRange : Option ℤ

structure Plugin where
  m_bCloseOnShow : Bool
  m_iLimitRange : ℤ

def Plugin.new : Plugin := ⟨false, 0⟩

structure Dialog where
  cAutoClose : Bool
  scRange : ℤ

def loadConfig (pConf : Option Config) (p : Plugin) : Plugin × Bool :=
  match pConf with
  | none => (p, false)
  | some conf => (⟨conf.closeOnShow.getD true, conf.limitRange.getD 0⟩, true)

def saveConfig (pConf : Option Config) (p : Plugin) : Option Config × Bool :=
  match pConf with
  | none => (none, false)
  | some _ => (some ⟨some p.m_bCloseOnShow, some p.m_iLimitRange⟩, true)

def Plugin.getRangeLimit (p : Plugin) : ℤ := p.m_iLimitRange

def Plugin.setAutoClose (p : Plugin) (val : Bool) : Plugin := { p with m_bCloseOnShow := val }

variable {K : Type} [Field K] [LinearOrder K] [FloorRing K]

/-- With `c` user units in a nautical mile. -/
def fromUsrDistance (c : K) (val : ℤ) : K := val / c

def rounded (c : K) (val : ℤ) : ℤ := ⌊fromUsrDistance c val + 0.5⌋

/-- `none` where the result does not fit the `int`: the conversion of such a `double` is not
defined. -/
def Plugin.setRangeLimit (c : K) (p : Plugin) (val : ℤ) : Option Plugin :=
  if -2 ^ 31 ≤ rounded c val ∧ rounded c val < 2 ^ 31 then
    some { p with m_iLimitRange := rounded c val }
  else none

def Dialog.new (ctrl : SpinCtrl) (p : Plugin) : Dialog :=
  ⟨p.m_bCloseOnShow, ctrl.setValue p.getRangeLimit⟩

/-- `SaveSettings`, which the destructor of the dialog calls. -/
def Dialog.saveSettings (c : K) (d : Dialog) (p : Plugin) : Option Plugin :=
  (p.setAutoClose d.cAutoClose).setRangeLimit c d.scRange

structure End where
  dialog : Dialog
  plugin : Plugin
  config : Config

/-- What `DeInit` does: the dialog goes, and `SaveConfig` writes the settings. -/
def deInit (c : K) (d : Dialog) (p : Plugin) (conf : Config) : Option End :=
  (d.saveSettings c p).map fun p => ⟨d, p, ((saveConfig (some conf) p).1).getD conf⟩

def session (ctrl : SpinCtrl) (c : K) (conf : Config) : Option End :=
  let p := (loadConfig (some conf) .new).1
  deInit c (.new ctrl p) p conf

def later (ctrl : SpinCtrl) (c : K) (first : Option End) : ℕ → Option End
  | 0 => first
  | k + 1 => (later ctrl c first k).bind fun e => session ctrl c e.config

/-- Each session ends with the limit and the value of the one before it, and with neither of them 0
unless the user has set 0. -/
def Survives (ctrl : SpinCtrl) (c : K) (n : ℤ) (first : Option End) : Prop :=
  ∀ k, ∃ e e', later ctrl c first k = some e ∧ later ctrl c first (k + 1) = some e' ∧
    e'.plugin.m_iLimitRange = e.plugin.m_iLimitRange ∧ e'.dialog.scRange = e.dialog.scRange ∧
    (n ≠ 0 → e'.plugin.m_iLimitRange ≠ 0 ∧ e'.dialog.scRange ≠ 0)

def ended (c : K) (auto : Bool) (n : ℤ) : End :=
  ⟨⟨auto, n⟩, ⟨auto, rounded c n⟩, ⟨some auto, some (rounded c n)⟩⟩

theorem deInit_of_fits {c : K} {n : ℤ} (low : -2 ^ 31 ≤ rounded c n) (high : rounded c n < 2 ^ 31)
    (auto : Bool) (p : Plugin) (conf : Config) :
    deInit c ⟨auto, n⟩ p conf = some (ended c auto n) := by
  rw [deInit, Dialog.saveSettings, Plugin.setRangeLimit, if_pos ⟨low, high⟩]
  rfl

theorem fits_of_deInit {c : K} {n : ℤ} {auto : Bool} {p : Plugin} {conf : Config} {e : End}
    (h : deInit c ⟨auto, n⟩ p conf = some e) : -2 ^ 31 ≤ rounded c n ∧ rounded c n < 2 ^ 31 := by
  by_contra misfit
  rw [deInit, Dialog.saveSettings, Plugin.setRangeLimit, if_neg misfit] at h
  cases h

theorem session_ended (ctrl : SpinCtrl) (c : K) (auto : Bool) (n : ℤ) :
    session ctrl c (ended c auto n).config =
      deInit c ⟨auto, ctrl.setValue (rounded c n)⟩ ⟨auto, rounded c n⟩
        (ended c auto n).config := rfl

theorem survives_iff_setValue (ctrl : SpinCtrl) {c : K} {n : ℤ} {auto : Bool} {p : Plugin}
    {conf : Config} :
    Survives ctrl c n (deInit c ⟨auto, n⟩ p conf) ↔
      (-2 ^ 31 ≤ rounded c n ∧ rounded c n < 2 ^ 31) ∧ ctrl.setValue (rounded c n) = n := by
  constructor
  · intro survives
    obtain ⟨e, e', now, next, -, same, -⟩ := survives 0
    obtain ⟨low, high⟩ := fits_of_deInit now
    refine ⟨⟨low, high⟩, ?_⟩
    obtain rfl := Option.some.inj ((deInit_of_fits low high auto p conf).symm.trans now)
    have shown : session ctrl c (ended c auto n).config = some e' := by
      rw [later, now, Option.bind_some] at next
      exact next
    rw [session_ended] at shown
    obtain ⟨low', high'⟩ := fits_of_deInit shown
    rw [deInit_of_fits low' high'] at shown
    obtain rfl := Option.some.inj shown
    exact same
  · rintro ⟨⟨low, high⟩, same⟩
    have all : ∀ k, later ctrl c (deInit c ⟨auto, n⟩ p conf) k = some (ended c auto n) := by
      intro k
      induction k with
      | zero => exact deInit_of_fits low high auto p conf
      | succ k ih =>
        rw [later, ih, Option.bind_some, session_ended, same]
        exact deInit_of_fits low high auto _ _
    intro k
    refine ⟨_, _, all k, all (k + 1), rfl, rfl, ?_⟩
    intro set
    refine ⟨?_, set⟩
    intro unlimited
    have zero : rounded c n = 0 := unlimited
    rw [zero, ctrl.inside 0 le_rfl (by decide)] at same
    exact set same.symm

/-- The literal `0.5` is a half. -/
theorem rounded_eq (c : K) (n : ℤ) : rounded c n = ⌊(n : K) / c + 1 / 2⌋ := by
  rw [rounded, fromUsrDistance]
  norm_num

variable [IsStrictOrderedRing K]

theorem le_rounded_iff (c : K) (n m : ℤ) : m ≤ rounded c n ↔ (m : K) - 1 / 2 ≤ n / c := by
  rw [rounded_eq, Int.le_floor, sub_le_iff_le_add]

theorem rounded_lt_iff (c : K) (n m : ℤ) : rounded c n < m ↔ (n : K) / c < m - 1 / 2 := by
  rw [rounded_eq, Int.floor_lt, lt_sub_iff_add_lt]

theorem rounded_eq_iff (c : K) (n m : ℤ) :
    rounded c n = m ↔ (m : K) - 1 / 2 ≤ n / c ∧ (n : K) / c < m + 1 / 2 := by
  have next : ((m + 1 : ℤ) : K) - 1 / 2 = m + 1 / 2 := by
    push_cast
    linarith
  rw [← le_rounded_iff, ← next, ← rounded_lt_iff]
  omega

/-- What was set survives all later sessions exactly when the conversion to nautical miles rounds
back to it, or when it is the largest value and the conversion does not make it smaller. -/
theorem survives_iff (ctrl : SpinCtrl) (c : K) (pos : 0 < c) (n : ℤ) (low : 0 ≤ n)
    (high : n ≤ 10000) (auto : Bool) (p : Plugin) (conf : Config) :
    Survives ctrl c n (deInit c ⟨auto, n⟩ p conf) ↔
      ((n : K) - 1 / 2 ≤ n / c ∧ (n : K) / c < n + 1 / 2) ∨
        (n = 10000 ∧ (10000 : ℤ) - 1 / 2 ≤ (n : K) / c ∧ (n : K) / c < (2 ^ 31 : ℤ) - 1 / 2) := by
  have quotient : (0 : K) ≤ n / c := div_nonneg (Int.cast_nonneg low) pos.le
  have some_miles : 0 ≤ rounded c n := by
    rw [le_rounded_iff, Int.cast_zero]
    linarith
  rw [survives_iff_setValue, ← rounded_eq_iff, ← le_rounded_iff, ← rounded_lt_iff]
  constructor
  · rintro ⟨⟨-, fits⟩, shown⟩
    obtain inside | above := le_total (rounded c n) 10000
    · left
      exact (ctrl.inside _ some_miles inside).symm.trans shown
    · right
      exact ⟨shown.symm.trans (ctrl.above _ above), above, fits⟩
  · rintro (same | ⟨largest, above, fits⟩)
    · refine ⟨by omega, ?_⟩
      rw [same, ctrl.inside n low high]
    · refine ⟨by omega, ?_⟩
      rw [ctrl.above _ above, largest]

/-- A control that moves a value outside its range to the nearest end. -/
def clamping : SpinCtrl where
  setValue v := max 0 (min v 10000)
  inside := by
    intro v low high
    omega
  above := by
    intro v high
    omega

theorem survives_iff_nauticalMiles :
    Survives clamping (1 : ℚ) 5 (deInit (1 : ℚ) ⟨true, 5⟩ .new ⟨none, none⟩) ↔
      ((5 : ℤ) - 1 / 2 ≤ ((5 : ℤ) : ℚ) / 1 ∧ ((5 : ℤ) : ℚ) / 1 < (5 : ℤ) + 1 / 2) ∨
        ((5 : ℤ) = 10000 ∧ (10000 : ℤ) - 1 / 2 ≤ ((5 : ℤ) : ℚ) / 1 ∧
          ((5 : ℤ) : ℚ) / 1 < (2 ^ 31 : ℤ) - 1 / 2) :=
  survives_iff clamping (1 : ℚ) (by decide) 5 (by decide) (by decide) true .new ⟨none, none⟩

/-- With kilometres, a limit of 10 is 5 in the next session. -/
theorem kilometres_do_not_survive :
    ¬ ∀ (ctrl : SpinCtrl) (c : ℚ), 0 < c → ∀ n : ℤ, 0 ≤ n → n ≤ 10000 →
      ∀ (auto : Bool) (p : Plugin) (conf : Config),
        Survives ctrl c n (deInit c ⟨auto, n⟩ p conf) := by
  intro h
  have survives := h clamping (1852 / 1000) (by decide +kernel) 10 (by decide) (by decide) true .new
    ⟨none, none⟩
  have shown := (survives_iff_setValue clamping).mp survives
  revert shown
  decide +kernel

end ObjSearch.Settings.RangeLimit
