/- What passes the WHERE clause of a search besides the objects that it asks for.
   digest: A feature that is not checked passes where its name is empty, part of a checked name, or
   runs across the comma between two checked names; a name without the search text passes where
   the text has a wildcard in it and is not too long. -/

import ObjSearch.Search.Completeness

set_option autoImplicit false
set_option relaxedAutoImplicit false

namespace ObjSearch.Search.Soundness

open ObjSearch.Lib.Texts
open ObjSearch.Sql.Eval (Value)
open ObjSearch.Sql.Match
open ObjSearch.Index.Storage
open ObjSearch.Search.CheckList
open ObjSearch.Search.Catalog
open ObjSearch.Search.Condition
open ObjSearch.Search.Completeness

/-- An object that the filter lets through has a feature whose entry is checked. -/
def OnlyChecked (db : Database) (p : Popup) (o : ObjectRow) : Prop :=
  ∃ filter, p.getStringValue = some filter ∧
    (named db filter o = some true →
      ∃ i name, p.isChecked (i + 1) ∧ p.values[i]? = some name ∧ featureName db o = some name)

variable {db : Database} {p : Popup}

/-- The filter is a text to search in, not a set of names. -/
theorem named_iff (names : List Text) (o : ObjectRow) :
    named db (joined ',' names) o = some true ↔
      ∃ f, featureName db o = some f ∧
        (f = [] ∨ (∃ name ∈ names, f <:+: name) ∨ Spans ',' f names) := by
  rw [named, Option.map_eq_some_iff]
  simp only [decide_eq_true_eq, instr_pos_iff, infix_joined_iff]

theorem onlyChecked_iff (consistent : p.Consistent) (o : ObjectRow) :
    OnlyChecked db p o ↔
      ∀ f, featureName db o = some f → f ∉ p.chosen →
        f ≠ [] ∧ (∀ name ∈ p.chosen, ¬ f <:+: name) ∧ ¬ Spans ',' f p.chosen := by
  have filter := Popup.getStringValue_eq consistent
  constructor
  · rintro ⟨filter', same, only⟩ f feature unchecked
    obtain rfl := Option.some.inj (filter.symm.trans same)
    have passes : ¬ (f = [] ∨ (∃ name ∈ p.chosen, f <:+: name) ∨ Spans ',' f p.chosen) := by
      intro h
      obtain ⟨i, name, checked, value, has⟩ := only ((named_iff p.chosen o).mpr ⟨f, feature, h⟩)
      obtain rfl := Option.some.inj (feature.symm.trans has)
      exact unchecked (Popup.mem_chosen checked value)
    simp only [not_or, not_exists, not_and] at passes
    exact passes
  · intro apart
    refine ⟨_, filter, fun passed => ?_⟩
    obtain ⟨f, feature, h⟩ := (named_iff p.chosen o).mp passed
    have checked : f ∈ p.chosen := by
      by_contra unchecked
      obtain ⟨notEmpty, notPart, notAcross⟩ := apart f feature unchecked
      rcases h with empty | ⟨name, here, part⟩ | across
      · exact notEmpty empty
      · exact notPart name here part
      · exact notAcross across
    obtain ⟨i, entry, value⟩ := Popup.mem_chosen_iff.mp checked
    exact ⟨i, f, entry, value, feature⟩

def lightsOnly : Popup := ⟨[false, false, true], ["LIGHT".toList, "LIGHTS".toList]⟩

def buoy : ObjectRow := ⟨none, some 1, some "Buoy".toList, some 43, some 3⟩

def buoyDatabase : Database :=
  { Database.created with
    feature := (Database.created.feature.insert ⟨some "LIGHT".toList⟩).insert
      ⟨some "LIGHTS".toList⟩
    object := Database.created.object.insert buoy }

theorem onlyChecked_iff_buoy :
    OnlyChecked buoyDatabase lightsOnly buoy ↔
      ∀ f, featureName buoyDatabase buoy = some f → f ∉ lightsOnly.chosen →
        f ≠ [] ∧ (∀ name ∈ lightsOnly.chosen, ¬ f <:+: name) ∧ ¬ Spans ',' f lightsOnly.chosen :=
  onlyChecked_iff (p := lightsOnly) rfl buoy

/-- LIGHT is found inside of LIGHTS. -/
theorem lightsOnly_lets_a_light_through : ¬ OnlyChecked buoyDatabase lightsOnly buoy := by
  have filter : lightsOnly.getStringValue = some "LIGHTS".toList := by decide +kernel
  have passed : named buoyDatabase "LIGHTS".toList buoy = some true := by decide +kernel
  have feature : featureName buoyDatabase buoy = some "LIGHT".toList := by decide +kernel
  rintro ⟨filter', same, only⟩
  obtain rfl := Option.some.inj (filter.symm.trans same)
  obtain ⟨i, name, checked, value, has⟩ := only passed
  obtain rfl := Option.some.inj (feature.symm.trans has)
  rcases i with _ | _ | i
  · exact absurd checked (by decide)
  · exact absurd value (by decide)
  · cases value

def Finds (text : Text) : Prop :=
  ∀ o : ObjectRow, nameMatches text o = .ok (.ofBool true) →
    ∃ name, o.objname = some name ∧ folded text <:+: folded name

theorem nameMatches_eq_true {text : Text} (fits : Fits text) (o : ObjectRow) :
    nameMatches text o = .ok (.ofBool true) ↔
      ∃ name, o.objname = some name ∧ like ('%' :: (text ++ ['%'])) name = true := by
  rw [nameMatches_of_fits fits, nameLike]
  cases o.objname with
  | none => simp [Value.ofTruth, Value.ofOption, Value.ofBool]
  | some name =>
    cases here : like ('%' :: (text ++ ['%'])) name <;>
      simp [Value.ofTruth, Value.ofOption, Value.ofBool, here]

/-- The search text is a pattern, not only a text; one that is too long is refused. -/
theorem finds_iff (text : Text) :
    Finds text ↔ '%' ∉ text ∧ '_' ∉ text ∨ 49998 < String.utf8Len text := by
  have limit : 49998 < String.utf8Len text ↔ ¬ Fits text := by
    unfold Fits maxLikePatternLength
    omega
  rw [limit]
  by_cases fits : Fits text
  · simp only [fits, not_true_eq_false, or_false]
    constructor
    · intro finds
      have matched : like ('%' :: (text ++ ['%'])) (filled text ++ []) :=
        like_percent_of_suffix (List.suffix_refl _) (like_filled text (like_single_percent []))
      rw [List.append_nil] at matched
      obtain ⟨name, objname, inside⟩ := finds ⟨none, none, some (filled text), none, none⟩
        ((nameMatches_eq_true fits _).mpr ⟨_, rfl, matched⟩)
      obtain rfl := Option.some.inj objname
      exact plain_of_infix_filled inside
    · intro plain o matched
      obtain ⟨name, objname, matched⟩ := (nameMatches_eq_true fits o).mp matched
      exact ⟨name, objname, (like_iff_of_plain plain name).mp matched⟩
  · -- no row matches: the condition is an error
    simp only [fits, not_false_eq_true, or_true, iff_true]
    intro o matched
    rw [nameMatches_of_long fits] at matched
    cases matched

theorem percent_finds_a_rock : ¬ Finds "%".toList := by
  intro finds
  obtain ⟨name, objname, inside⟩ := finds ⟨none, none, some "Rock".toList, none, none⟩
    (by decide +kernel)
  obtain rfl := Option.some.inj objname
  exact absurd inside (by decide)

end ObjSearch.Search.Soundness
