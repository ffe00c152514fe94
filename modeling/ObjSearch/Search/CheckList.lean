/- The feature popup: a check list whose first entry is "All", and the features' values.
   digest: After any clicks entry `i + 1` carries value `i`, and the filter text is the
   comma-joined list of the checked entries' values. -/

import ObjSearch.Lib.Texts
import Std.Data.ExtTreeMap.Lemmas

set_option autoImplicit false
set_option relaxedAutoImplicit false

namespace ObjSearch.Search.CheckList

open Std (ExtTreeMap)
open ObjSearch.Lib.Texts

/-- `CheckListComboPopup`: whether each entry is checked, and the array of values. -/
structure Popup where
  checks : List Bool
  values : List Text
deriving DecidableEq

namespace Popup

def getCount (p : Popup) : ℕ := p.checks.length

def isChecked (p : Popup) (i : ℕ) : Bool := p.checks[i]?.getD false

def check (p : Popup) (i : ℕ) (b : Bool) : Popup := { p with checks := p.checks.set i b }

/-- The indices of `for (unsigned int i = 1; i < GetCount(); i++)`. -/
def indices (p : Popup) : List ℕ := List.range' 1 (p.getCount - 1)

def addValue (p : Popup) (st : Bool × Text) (i : ℕ) : Option (Bool × Text) :=
  if p.isChecked i then (p.values[i - 1]?).map (separate ',' st) else some st

def getStringValue (p : Popup) : Option Text :=
  (p.indices.foldlM p.addValue (false, [])).map (fun st => st.2)

def checkAll (p : Popup) (b : Bool) : Popup := p.indices.foldl (fun p i => p.check i b) p

def onListBox (p : Popup) (item_id : ℕ) : Popup :=
  if item_id = 0 then
    if p.isChecked item_id then p.checkAll true else p.checkAll false
  else p.check 0 false

/-- `wxCheckListBox::Append` -/
def appendEntry (p : Popup) : Popup := { p with checks := p.checks ++ [false] }

/-- `CheckListComboPopup::Append` -/
def append (p : Popup) (value : Text) : Popup :=
  { p.appendEntry with values := p.values ++ [value] }

/-- `ObjSearchDialogImpl::ClearFeatures`: only "All" is left, checked and without a value. -/
def clearFeatures (_ : Popup) : Popup := (appendEntry ⟨[], []⟩).check 0 true

/-- `ObjSearchDialogImpl::AddFeature` -/
def addFeature (p : Popup) (feature : Text) : Popup :=
  let p := p.append feature
  p.check (p.getCount - 1) true

/-- The user toggles an entry, and the list box reports it. -/
def click (p : Popup) (i : ℕ) : Popup :=
  if i < p.getCount then (p.check i (!p.isChecked i)).onListBox i else p

/-- The popup after `OnToolbarToolCallback`. -/
def offer (p : Popup) (featuresInDb : ExtTreeMap Text ℤ) : Popup :=
  featuresInDb.keys.foldl addFeature p.clearFeatures

def chosen (p : Popup) : List Text :=
  (p.checks.tail.zip p.values).filterMap (fun cv => if cv.1 then some cv.2 else none)

/-- "All" and one entry for each value. -/
def Consistent (p : Popup) : Prop := p.getCount = p.values.length + 1

variable {p : Popup}

@[simp] theorem getCount_check (i : ℕ) (b : Bool) : (p.check i b).getCount = p.getCount :=
  List.length_set

private theorem foldl_check (b : Bool) (pre bs : List Bool) (vs : List Text) :
    (List.range' pre.length bs.length).foldl (fun (p : Popup) i => p.check i b) ⟨pre ++ bs, vs⟩ =
      ⟨pre ++ bs.map (fun _ => b), vs⟩ := by
  induction bs generalizing pre with
  | nil => rfl
  | cons c bs ih =>
    have here : check ⟨pre ++ c :: bs, vs⟩ pre.length b = ⟨(pre ++ [b]) ++ bs, vs⟩ := by
      simp [check]
    have rest := ih (pre ++ [b])
    rw [List.length_append, List.length_singleton] at rest
    rw [List.length_cons, List.range'_succ, List.foldl_cons, here, rest]
    simp

theorem checkAll_cons (all : Bool) (bs : List Bool) (vs : List Text) (b : Bool) :
    checkAll ⟨all :: bs, vs⟩ b = ⟨all :: bs.map (fun _ => b), vs⟩ :=
  foldl_check b [all] bs vs

theorem checkAll_same (b : Bool) :
    (p.checkAll b).values = p.values ∧ (p.checkAll b).getCount = p.getCount := by
  unfold checkAll
  generalize p.indices = is
  induction is generalizing p with
  | nil => exact ⟨rfl, rfl⟩
  | cons i is ih =>
    obtain ⟨values, count⟩ := ih (p := p.check i b)
    exact ⟨values, count.trans (getCount_check i b)⟩

theorem onListBox_same (i : ℕ) :
    (p.onListBox i).values = p.values ∧ (p.onListBox i).getCount = p.getCount := by
  unfold onListBox
  split_ifs
  · exact checkAll_same true
  · exact checkAll_same false
  · exact ⟨rfl, getCount_check 0 false⟩

theorem click_same (i : ℕ) :
    (p.click i).values = p.values ∧ (p.click i).getCount = p.getCount := by
  unfold click
  split_ifs
  · obtain ⟨values, count⟩ := onListBox_same (p := p.check i (!p.isChecked i)) i
    exact ⟨values, count.trans (getCount_check i _)⟩
  · exact ⟨rfl, rfl⟩

theorem clicks_same (is : List ℕ) :
    (is.foldl click p).values = p.values ∧ (is.foldl click p).getCount = p.getCount := by
  induction is generalizing p with
  | nil => exact ⟨rfl, rfl⟩
  | cons i is ih =>
    obtain ⟨values, count⟩ := ih (p := p.click i)
    obtain ⟨values', count'⟩ := click_same (p := p) i
    exact ⟨values.trans values', count.trans count'⟩

theorem addFeature_values (feature : Text) :
    (p.addFeature feature).values = p.values ++ [feature] := rfl

theorem addFeature_consistent (feature : Text) (consistent : p.Consistent) :
    (p.addFeature feature).Consistent := by
  have count : (p.addFeature feature).getCount = p.getCount + 1 := by
    simp [addFeature, append, appendEntry, getCount, check]
  unfold Consistent at consistent ⊢
  rw [count, addFeature_values, consistent, List.length_append, List.length_singleton]

private theorem addFeatures (features : List Text) (consistent : p.Consistent) :
    (features.foldl addFeature p).values = p.values ++ features ∧
      (features.foldl addFeature p).Consistent := by
  induction features generalizing p with
  | nil => exact ⟨(List.append_nil _).symm, consistent⟩
  | cons f fs ih =>
    obtain ⟨values, kept⟩ := ih (addFeature_consistent f consistent)
    refine ⟨?_, kept⟩
    rw [List.foldl_cons, values, addFeature_values, List.append_assoc]
    rfl

/-- The toolbar offers the features of the database and nothing else. -/
theorem offer_values (featuresInDb : ExtTreeMap Text ℤ) :
    (p.offer featuresInDb).values = featuresInDb.keys :=
  (addFeatures featuresInDb.keys (p := p.clearFeatures) rfl).1

theorem offer_consistent (featuresInDb : ExtTreeMap Text ℤ) :
    (p.offer featuresInDb).Consistent :=
  (addFeatures featuresInDb.keys (p := p.clearFeatures) rfl).2

private theorem foldlM_addValue (bs : List Bool) (vs : List Text) (k : ℕ) (st : Bool × Text)
    (checks : p.checks.drop (k + 1) = bs) (values : p.values.drop k = vs)
    (length : bs.length = vs.length) :
    (List.range' (k + 1) bs.length).foldlM p.addValue st = some
      (((bs.zip vs).filterMap (fun cv => if cv.1 then some cv.2 else none)).foldl
        (separate ',') st) := by
  induction bs generalizing vs k st with
  | nil => rfl
  | cons b bs ih =>
    cases vs with
    | nil => cases length
    | cons v vs =>
      have here : p.isChecked (k + 1) = b := by
        have at_ : p.checks[k + 1]? = some b := by
          rw [← List.head?_drop, checks]
          rfl
        rw [isChecked, at_]
        rfl
      have value : p.values[k]? = some v := by
        rw [← List.head?_drop, values]
        rfl
      have rest (st : Bool × Text) := ih vs (k + 1) st
        (by rw [← List.tail_drop, checks]; rfl) (by rw [← List.tail_drop, values]; rfl)
        (Nat.succ.inj length)
      rw [List.length_cons, List.range'_succ, List.foldlM_cons, addValue, here,
        Nat.add_sub_cancel, value, List.zip_cons_cons, List.filterMap_cons]
      cases b with
      | false => exact rest st
      | true => exact rest (separate ',' st v)

/-- `GetStringValue` never leaves the array of values and joins those of the checked entries. -/
theorem getStringValue_eq (consistent : p.Consistent) :
    p.getStringValue = some (joined ',' p.chosen) := by
  have tail : p.checks.drop 1 = p.checks.tail := List.drop_one
  have length : p.checks.tail.length = p.values.length := by
    rw [List.length_tail]
    unfold Consistent getCount at consistent
    omega
  have looped := foldlM_addValue p.checks.tail p.values 0 (false, []) tail List.drop_zero length
  have count : p.getCount - 1 = p.checks.tail.length := List.length_tail.symm
  rw [getStringValue, indices, count, looped, Option.map_some, foldl_separate_eq_joined]
  rfl

theorem mem_values_of_mem_chosen {name : Text} (h : name ∈ p.chosen) : name ∈ p.values := by
  obtain ⟨⟨b, v⟩, here, value⟩ := List.mem_filterMap.mp h
  split_ifs at value
  rw [← Option.some.inj value]
  exact (List.of_mem_zip here).2

theorem mem_chosen {name : Text} {i : ℕ} (checked : p.isChecked (i + 1))
    (value : p.values[i]? = some name) : name ∈ p.chosen := by
  have here : (p.checks.tail.zip p.values)[i]? = some (true, name) := by
    have at_ : p.checks[i + 1]? = some true := by
      unfold isChecked at checked
      cases h : p.checks[i + 1]? with
      | none => rw [h] at checked; cases checked
      | some b => rw [h] at checked; exact congrArg some checked
    rw [List.getElem?_zip_eq_some]
    exact ⟨by rw [List.getElem?_tail, at_], value⟩
  exact List.mem_filterMap.mpr ⟨(true, name), List.mem_of_getElem? here, rfl⟩

theorem mem_chosen_iff {name : Text} :
    name ∈ p.chosen ↔ ∃ i, p.isChecked (i + 1) ∧ p.values[i]? = some name := by
  constructor
  · intro h
    obtain ⟨⟨b, v⟩, here, value⟩ := List.mem_filterMap.mp h
    split_ifs at value with checked
    obtain ⟨i, at_⟩ := List.mem_iff_getElem?.mp here
    rw [List.getElem?_zip_eq_some, List.getElem?_tail] at at_
    refine ⟨i, ?_, at_.2.trans value⟩
    rw [isChecked, at_.1]
    exact checked
  · rintro ⟨i, checked, value⟩
    exact mem_chosen checked value

end Popup

end ObjSearch.Search.CheckList
