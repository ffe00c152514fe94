/- The entries of the feature popup through rebuilding and clicking.
   digest: After any such actions the popup is one of features that are each checked or not, with
   "All" checked only where all of them are. -/

import ObjSearch.Search.Completeness

set_option autoImplicit false
set_option relaxedAutoImplicit false

namespace ObjSearch.Search.Entries

open Std (ExtTreeMap)
open ObjSearch.Lib.Texts
open ObjSearch.Search.CheckList
open ObjSearch.Search.Completeness (clicked)

structure Box where
  popup : Popup
  texts : List Text
deriving DecidableEq

structure Names where
  all : Text
  humanizeFeatureName : Text → Text

inductive Action where
  | clearFeatures
  | addFeature (feature : Text)
  | click (i : ℕ)

variable (names : Names)

def Box.act (b : Box) : Action → Box
  | .clearFeatures => ⟨b.popup.clearFeatures, [names.all]⟩
  | .addFeature feature =>
      ⟨b.popup.addFeature feature, b.texts ++ [names.humanizeFeatureName feature]⟩
  | .click i => ⟨b.popup.click i, b.texts⟩

def Box.run (b : Box) (as : List Action) : Box := as.foldl (Box.act names) b

/-! What the popup is for. -/

/-- Features on offer, each checked or not; "All" is checked only where each of them is. -/
structure Offer where
  all : Bool
  features : List (Text × Bool)
  whole : all = true → ∀ f ∈ features, f.2 = true

namespace Offer

def nothing : Offer := ⟨true, [], by simp⟩

def add (o : Offer) (feature : Text) : Offer where
  all := o.all
  features := o.features ++ [(feature, true)]
  whole := by
    intro checked f hf
    rcases List.mem_append.mp hf with old | new
    · exact o.whole checked f old
    · rw [List.mem_singleton.mp new]

/-- Entry 0 takes all features with it; any other entry takes the check mark from it. -/
def toggle (o : Offer) : ℕ → Offer
  | 0 => ⟨!o.all, o.features.map (fun f => (f.1, !o.all)), by
      intro checked f hf
      obtain ⟨g, -, rfl⟩ := List.mem_map.mp hf
      exact checked⟩
  | i + 1 =>
      if h : i < o.features.length then
        ⟨false, o.features.set i (o.features[i].1, !o.features[i].2), by simp⟩
      else o

def act (o : Offer) : Action → Offer
  | .clearFeatures => nothing
  | .addFeature feature => o.add feature
  | .click i => o.toggle i

def run (o : Offer) (as : List Action) : Offer := as.foldl act o

def box (o : Offer) : Box where
  popup := ⟨o.all :: o.features.map Prod.snd, o.features.map Prod.fst⟩
  texts := names.all :: o.features.map (fun f => names.humanizeFeatureName f.1)

def chosen (o : Offer) : List Text := (o.features.filter Prod.snd).map Prod.fst

variable {names} (o : Offer)

theorem box_addFeature (feature : Text) :
    (o.box names).act names (.addFeature feature) = (o.add feature).box names := by
  simp [Box.act, box, add, Popup.addFeature, Popup.append, Popup.appendEntry, Popup.check,
    Popup.getCount]

theorem box_click (i : ℕ) : (o.box names).act names (.click i) = (o.toggle i).box names := by
  have count : (o.box names).popup.getCount = o.features.length + 1 := by
    simp [box, Popup.getCount]
  cases i with
  | zero =>
    have checked : (o.box names).popup.check 0 (!(o.box names).popup.isChecked 0) =
        ⟨(!o.all) :: o.features.map Prod.snd, o.features.map Prod.fst⟩ := rfl
    have first (b : Bool) (bs : List Bool) (vs : List Text) :
        Popup.onListBox ⟨b :: bs, vs⟩ 0 = Popup.checkAll ⟨b :: bs, vs⟩ b := by
      cases b <;> rfl
    rw [Box.act, Popup.click, if_pos (by omega), checked, first, Popup.checkAll_cons]
    simp [box, toggle]
  | succ i =>
    by_cases inside : i < o.features.length
    · have here : (o.box names).popup.isChecked (i + 1) = o.features[i].2 := by
        simp [box, Popup.isChecked, inside]
      have kept (g : Text × Bool → Text)
          (same : g (o.features[i].1, !o.features[i].2) = g o.features[i]) :
          (o.features.set i (o.features[i].1, !o.features[i].2)).map g = o.features.map g := by
        rw [List.map_set, same, ← List.map_set, List.set_getElem_self]
      rw [Box.act, Popup.click, if_pos (by omega), here, toggle, dif_pos inside]
      simp only [box, kept Prod.fst rfl, kept (fun f => names.humanizeFeatureName f.1) rfl,
        List.map_set]
      rfl
    · rw [Box.act, Popup.click, if_neg (by omega), toggle, dif_neg inside]

theorem box_act (a : Action) : (o.box names).act names a = (o.act a).box names := by
  cases a with
  | clearFeatures => rfl
  | addFeature feature => exact box_addFeature o feature
  | click i => exact box_click o i

theorem box_run (as : List Action) : (o.box names).run names as = (o.run as).box names := by
  induction as generalizing o with
  | nil => rfl
  | cons a as ih =>
    rw [Box.run, List.foldl_cons, box_act]
    exact ih (o.act a)

theorem chosen_box : (o.box names).popup.chosen = o.chosen := by
  have zipped : (o.box names).popup.checks.tail.zip (o.box names).popup.values =
      o.features.map (fun f => (f.2, f.1)) := by
    rw [box, List.tail_cons, List.zip_map']
  rw [Popup.chosen, zipped, List.filterMap_map, chosen, ← List.filterMap_eq_filter,
    List.map_filterMap]
  congr 1
  funext f
  cases h : f.2 <;> simp [h, Option.guard]

end Offer

/-- After a `ClearFeatures` the popup is always that of an offer. -/
theorem exists_offer (names : Names) (b : Box) (as : List Action) :
    ∃ o : Offer, (b.act names .clearFeatures).run names as = o.box names :=
  ⟨Offer.nothing.run as, Offer.box_run Offer.nothing as⟩

/-- In every run of `ClearFeatures`, `AddFeature` and clicks after a `ClearFeatures`, the list has
one entry more than there are values, and entry `i + 1` is that of value `i`; "All" is checked only
where all of these are; and the filter is the values of the checked ones, joined by commas. -/
theorem entries_consistent (names : Names) (b : Box) (as : List Action) :
    let now := (b.act names .clearFeatures).run names as
    (now.popup.getCount = now.popup.values.length + 1 ∧ now.texts.length = now.popup.getCount) ∧
    (now.texts[0]? = some names.all ∧
      ∀ i, now.texts[i + 1]? = (now.popup.values[i]?).map names.humanizeFeatureName) ∧
    (now.popup.isChecked 0 → ∀ i < now.popup.values.length, now.popup.isChecked (i + 1)) ∧
    now.popup.getStringValue = some (joined ','
      (((now.popup.values.zip now.popup.checks.tail).filter Prod.snd).map Prod.fst)) := by
  intro now
  obtain ⟨o, offered⟩ := exists_offer names b as
  have now_eq : now = o.box names := offered
  rw [now_eq]
  have consistent : (o.box names).popup.Consistent := by
    simp [Popup.Consistent, Popup.getCount, Offer.box]
  refine ⟨⟨consistent, by simp [Offer.box, Popup.getCount]⟩, ⟨rfl, ?_⟩, ?_, ?_⟩
  · intro i
    simp [Offer.box, Function.comp_def]
  · intro all i inside
    have length : (o.box names).popup.values.length = o.features.length := List.length_map _
    rw [length] at inside
    have checked := o.whole all _ (List.getElem_mem inside)
    simp [Offer.box, Popup.isChecked, inside, checked]
  · have paired : (o.box names).popup.values.zip (o.box names).popup.checks.tail = o.features := by
      rw [Offer.box, List.tail_cons, List.zip_map']
      exact List.map_id _
    rw [Popup.getStringValue_eq consistent, Offer.chosen_box, paired, Offer.chosen]

theorem clicked_eq (names : Names) (b : Box) (featuresInDb : ExtTreeMap Text ℤ) (clicks : List ℕ) :
    clicked b.popup featuresInDb clicks = ((b.act names .clearFeatures).run names
      (featuresInDb.keys.map .addFeature ++ clicks.map .click)).popup := by
  have added (b : Box) (features : List Text) : (b.run names (features.map .addFeature)).popup =
      features.foldl Popup.addFeature b.popup := by
    induction features generalizing b with
    | nil => rfl
    | cons f fs ih => exact ih _
  have toggled (b : Box) (is : List ℕ) : (b.run names (is.map .click)).popup =
      is.foldl Popup.click b.popup := by
    induction is generalizing b with
    | nil => rfl
    | cons i is ih => exact ih _
  rw [Box.run, List.foldl_append]
  have rebuilt := added (b.act names .clearFeatures) featuresInDb.keys
  have clicked_ := toggled ((b.act names .clearFeatures).run names
    (featuresInDb.keys.map .addFeature)) clicks
  rw [rebuilt] at clicked_
  exact clicked_.symm

end ObjSearch.Search.Entries
