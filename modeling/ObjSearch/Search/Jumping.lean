/- `OnShowOnChart` and `OnLeftDClick`: from a line of the list back to a position.
   digest: Where the host writes degrees and minutes, or seconds as well, the jump goes to the
   position of the object as far as the text tells it, and to its scale or the least scale. -/

import ObjSearch.Lib.Readback
import ObjSearch.Search.Hemispheres
import ObjSearch.Search.Results

set_option autoImplicit false
set_option relaxedAutoImplicit false

namespace ObjSearch.Search.Jumping

open ObjSearch.Lib.Arrays (Fault)
open ObjSearch.Lib.Printf
open ObjSearch.Lib.Texts (Text)
open ObjSearch.Lib.Decimals
open ObjSearch.Lib.Strtod (strtodWith)
open ObjSearch.Lib.Readback
open ObjSearch.Search.Catalog
open ObjSearch.Search.FindObjects
open ObjSearch.Search.FromDMM
open ObjSearch.Search.Hemispheres
open ObjSearch.Search.Results

structure Jump where
  lat : ℚ
  lon : ℚ
  scale : ℚ
deriving DecidableEq

/-- The list control with the line that is selected in it, and whether its button is enabled. -/
structure ResultList where
  items : List Item
  selected : Option ℕ
  showOnChart : Bool

def clearObjects : ResultList := ⟨[], none, false⟩

/-- `wxString::ToDouble`, which needs a number as the whole text; it leaves the variable alone where
it fails. The number is taken exactly. -/
def toDouble (t : Text) : Option ℚ :=
  if t = [] then none
  else match strtodWith .finite t with
    | (.finite x, []) => some x
    | _ => none

variable (upper : Char → Char)

def positionOf (row : Item) : Except Fault Jump := do
  let lat ← fromDMM upper row.lat
  let lon ← fromDMM upper row.lon
  match toDouble row.scale with
  | some scale => return ⟨lat, lon, if scale < 1 / 1000 then 1 / 1000 else scale⟩
  -- `scale` has no value yet
  | none => .error .unwritten

/-- What a click on the button or a double click makes of the selected line. -/
def onShowOnChart (l : ResultList) : Except Fault (Option (Item × Jump)) :=
  match l.selected.bind (fun itemIndex => l.items[itemIndex]?) with
  | none => .ok none
  | some row => do
    let jump ← positionOf upper row
    return some (row, jump)

/-! What the host writes into the list. -/

/-- The text is a position in one of the two formats, not further than `ε` from `x`. -/
def Cell (ε x : ℚ) (t : Text) : Prop :=
  t.length < 64 ∧ ∃ (f : Format) (h : Hemisphere),
    (∃ d m : ℕ, t = f.degreesMinutes d m h ∧ |h.sign * (d + m / 10 ^ f.decimals / 60) - x| ≤ ε) ∨
    ∃ d m s : ℕ, t = f.degreesMinutesSeconds d m s h ∧
      |h.sign * (d + (m + s / 10 ^ f.decimals / 60) / 60) - x| ≤ ε

def WritesCells (ε : ℚ) (look : Look) : Prop :=
  ∀ flag x, |x| ≤ 180 → Cell ε x (look.toSDMM flag x)

variable {upper} {ε : ℚ} {look : Look} {host : Host}

theorem fromDMM_of_cell (case_ : IsUpperCase upper) {x : ℚ} {t : Text} (cell : Cell ε x t) :
    ∃ v, fromDMM upper t = .ok v ∧ |v - x| ≤ ε := by
  obtain ⟨short, f, h, ⟨d, m, rfl, near⟩ | ⟨d, m, s, rfl, near⟩⟩ := cell
  · exact ⟨_, fromDMM_degreesMinutes h case_ f d m short, near⟩
  · exact ⟨_, fromDMM_degreesMinutesSeconds h case_ f d m s short, near⟩

theorem toDouble_fixed {k : ℕ} (positive : 0 < k) (x : ℚ) :
    toDouble (fixed k x) = some (rounded k x) := by
  have some_ : fixed k x ≠ [] := by
    intro empty
    have read := decimal_fixed positive x
    rw [empty] at read
    cases read
  rw [toDouble, if_neg some_, strtodWith_fixed _ positive]

/-- No line that `AddObject` has written makes the handlers read what was never written. -/
theorem positionOf_item (case_ : IsUpperCase upper) (writes : WritesCells ε look) {a : Added}
    (lat : |a.lat| ≤ 180) (lon : |a.lon| ≤ 180) :
    ∃ j, positionOf upper (item host look a) = .ok j ∧ |j.lat - a.lat| ≤ ε ∧
      |j.lon - a.lon| ≤ ε ∧ j.scale = max (1 / 1000) (rounded 4 a.scale) := by
  obtain ⟨y, readLat, nearLat⟩ := fromDMM_of_cell case_ (writes 1 a.lat lat)
  obtain ⟨z, readLon, nearLon⟩ := fromDMM_of_cell case_ (writes 2 a.lon lon)
  refine ⟨⟨y, z, max (1 / 1000) (rounded 4 a.scale)⟩, ?_, nearLat, nearLon, rfl⟩
  have least : (if rounded 4 a.scale < 1 / 1000 then 1 / 1000 else rounded 4 a.scale) =
      max (1 / 1000) (rounded 4 a.scale) := by
    split_ifs with below
    · exact (max_eq_left below.le).symm
    · exact (max_eq_right (not_lt.mp below)).symm
  simp only [positionOf, item, readLat, readLon, toDouble_fixed (show 0 < 4 by decide), bind,
    Except.bind, pure, Except.pure, least]

theorem abs_le_of_onMap {lat lon : ℚ} (h : OnMap lat lon) : |lat| ≤ 180 ∧ |lon| ≤ 180 :=
  ⟨h.1.trans (by norm_num), h.2⟩

/-! A host that writes degrees and minutes. -/

/-- `toSDMM_PlugIn` with minutes to so many decimals. -/
def sdmm (f : Format) (flag : ℤ) (x : ℚ) : Text :=
  let d := ⌊|x|⌋.toNat
  let m := ⌊(|x| - d) * 60 * 10 ^ f.decimals + 1 / 2⌋.toNat
  f.degreesMinutes d m
    (if flag = 1 then if x < 0 then .south else .north else if x < 0 then .west else .east)

theorem length_padded_le {width k n : ℕ} (positive : 0 < k) (wide : width ≤ k) (h : n < 10 ^ k) :
    (padded width n).length ≤ k := by
  have bound : (digits n).length ≤ k := (Nat.length_toDigits_le_iff (by decide) positive).mpr h
  simp only [padded, List.length_append, List.length_replicate]
  omega

theorem length_degreesMinutes_le (f : Format) {d m : ℕ} (h : Hemisphere)
    (degrees : f.degreesWidth ≤ 3) (minutes : f.minutesWidth ≤ 2) (few : f.decimals ≤ 10)
    (hd : d < 10 ^ 3) (hm : m / 10 ^ f.decimals < 10 ^ 2) :
    (f.degreesMinutes d m h).length < 64 := by
  have whole := length_padded_le (by decide) degrees hd
  have before := length_padded_le (by decide) minutes hm
  have behind := length_padded f.some_ (Nat.mod_lt m (show 0 < 10 ^ f.decimals by positivity))
  simp only [Format.degreesMinutes, Format.decimal, List.length_append, List.length_cons,
    List.length_nil, String.toList, behind]
  have signs : "° ".toList.length = 2 ∧ "' ".toList.length = 2 := by decide
  simp only [String.toList] at signs
  omega

theorem minutes_near (k : ℕ) {y : ℚ} {d m : ℕ} (hd : ⌊y⌋ = d)
    (hm : ⌊(y - d) * 60 * 10 ^ k + 1 / 2⌋ = m) :
    (m : ℚ) < 100 * 10 ^ k ∧ |(d + m / 10 ^ k / 60 : ℚ) - y| ≤ 1 / (120 * 10 ^ k) := by
  have scale : (1 : ℚ) ≤ 10 ^ k := one_le_pow₀ (by norm_num)
  have high := Int.lt_floor_add_one y
  have below := Int.floor_le ((y - d) * 60 * 10 ^ k + 1 / 2)
  have above := Int.lt_floor_add_one ((y - d) * 60 * 10 ^ k + 1 / 2)
  rw [hd] at high
  rw [hm] at below above
  push_cast at high below above
  have most : (y - d) * 60 * 10 ^ k ≤ 60 * 10 ^ k := by
    apply mul_le_mul_of_nonneg_right _ (by positivity)
    linarith
  refine ⟨by linarith, ?_⟩
  have split : (d + m / 10 ^ k / 60 : ℚ) - y = (m - (y - d) * 60 * 10 ^ k) / (60 * 10 ^ k) := by
    field_simp
    ring
  have half : |(m : ℚ) - (y - d) * 60 * 10 ^ k| ≤ 1 / 2 := by
    rw [abs_le]
    constructor <;> linarith
  rw [split, abs_div, abs_of_pos (show (0 : ℚ) < 60 * 10 ^ k by positivity),
    div_le_div_iff₀ (by positivity) (by positivity)]
  nlinarith

theorem signed_near {ε v x : ℚ} (h : Hemisphere) (sign : h.sign = if x < 0 then -1 else 1)
    (near : |v - (|x|)| ≤ ε) : |h.sign * v - x| ≤ ε := by
  rw [sign]
  split_ifs with negative
  · rw [abs_of_neg negative] at near
    rwa [show -1 * v - x = -(v - -x) by ring, abs_neg]
  · rw [abs_of_nonneg (not_lt.mp negative)] at near
    rwa [one_mul]

theorem cell_sdmm (f : Format) (degrees : f.degreesWidth ≤ 3) (minutes : f.minutesWidth ≤ 2)
    (few : f.decimals ≤ 10) (flag : ℤ) {x : ℚ} (onMap : |x| ≤ 180) :
    Cell (1 / (120 * 10 ^ f.decimals)) x (sdmm f flag x) := by
  have floor : (0 : ℤ) ≤ ⌊|x|⌋ := Int.floor_nonneg.mpr (abs_nonneg x)
  obtain ⟨d, hd⟩ := Int.eq_ofNat_of_zero_le floor
  have low : (d : ℚ) ≤ |x| := by
    have := Int.floor_le |x|
    rwa [hd] at this
  have nonneg : (0 : ℚ) ≤ (|x| - d) * 60 * 10 ^ f.decimals + 1 / 2 := by
    have : 0 ≤ |x| - d := by linarith
    positivity
  obtain ⟨m, hm⟩ := Int.eq_ofNat_of_zero_le (Int.floor_nonneg.mpr nonneg)
  obtain ⟨most, near⟩ := minutes_near f.decimals hd hm
  have text : sdmm f flag x = f.degreesMinutes d m (if flag = 1 then
      if x < 0 then .south else .north else if x < 0 then .west else .east) := by
    have cast : ((⌊|x|⌋.toNat : ℕ) : ℚ) = d := by rw [hd]; rfl
    simp only [sdmm, cast, hm]
    rw [hd]
    rfl
  refine ⟨?_, f, _, .inl ⟨d, m, text, signed_near _ ?_ near⟩⟩
  · rw [text]
    refine length_degreesMinutes_le f _ degrees minutes few ?_ ?_
    · have : (d : ℚ) ≤ 180 := low.trans onMap
      have : d ≤ 180 := by exact_mod_cast this
      omega
    · rw [Nat.div_lt_iff_lt_mul (by positivity)]
      exact_mod_cast most
  · by_cases negative : x < 0 <;> by_cases latitude : flag = 1 <;> simp [negative, latitude,
      Hemisphere.sign]

def minutesLook : Look := ⟨id, sdmm ⟨2, 2, 2, 4, by decide⟩⟩

theorem writesCells_minutesLook : WritesCells (1 / (120 * 10 ^ 4)) minutesLook :=
  fun flag _ onMap => cell_sdmm ⟨2, 2, 2, 4, by decide⟩ (by decide) (by decide) (by decide) flag onMap

end ObjSearch.Search.Jumping
