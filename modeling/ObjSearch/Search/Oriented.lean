/- Sessions in which the position is known before the first search.
   digest: Nothing that the user does disturbs the indexing, the database stays usable, and every
   search lists all stored objects that pass, around the latest fix. -/

import ObjSearch.Index.Blocks
import ObjSearch.Search.Dialog

set_option autoImplicit false
set_option relaxedAutoImplicit false

namespace ObjSearch.Search.Oriented

open List (Forall₂)
open ObjSearch.Lib.Printf
open ObjSearch.Lib.Texts
open ObjSearch.Index.Storage
open ObjSearch.Index.Notify
open ObjSearch.Index.Effect
open ObjSearch.Index.Session
open ObjSearch.Index.Queueing (posixName alternatingRows)
open ObjSearch.Index.History
open ObjSearch.Index.Blocks (history_concat)
open ObjSearch.Search.CheckList
open ObjSearch.Search.Statements
open ObjSearch.Search.Catalog
open ObjSearch.Search.Condition (Fits)
open ObjSearch.Search.FindObjects
open ObjSearch.Search.Completeness (flatHost)
open ObjSearch.Search.Results (Look Item item results_eq)
open ObjSearch.Search.Answers
open ObjSearch.Search.Hemispheres (IsUpperCase isUpperCase_toUpper)
open ObjSearch.Search.Jumping
open ObjSearch.Search.Dialog

def fixAfter (fix : Option (ℚ × ℚ)) : Event → Option (ℚ × ℚ)
  | .setPositionFix lat lon => some (lat, lon)
  | .restart => none
  | _ => fix

/-- Positions are on the map, and a search comes after a fix and is for a text that is not too
long. -/
def Allowed (fix : Option (ℚ × ℚ)) : Event → Prop
  | .setPositionFix lat lon => OnMap lat lon
  | .search term _ _ => fix.isSome ∧ Fits term
  | _ => True

def FixFirst : Option (ℚ × ℚ) → List Event → Prop
  | _, [] => True
  | fix, e :: es => Allowed fix e ∧ FixFirst (fixAfter fix e) es

/-- The actions of the indexing side, session by session, and those of the session that goes on. -/
def indexed (h : List (List Action) × List Action) : Event → List (List Action) × List Action
  | .index a => (h.1, h.2 ++ [a])
  | .restart => (h.1 ++ [h.2], [])
  | _ => h

variable (getName : Text → Text)

/-- With this fix, and as if there had been nothing but these actions. -/
structure Steady (fix : Option (ℚ × ℚ)) (h : List (List Action) × List Action) (s : App) :
    Prop where
  usable : s.traced.plugin.dbUsable = true
  traced : s.traced = history getName Database.created h.1 h.2
  boatlat : s.boatlat = fix.elim .nan fun f => .finite f.1
  boatlon : s.boatlon = fix.elim .nan fun f => .finite f.2
  onMap : ∀ f ∈ fix, OnMap f.1 f.2

def hits (host : Host) (s : App) (lat lon : ℚ) (term : Text) (limitRange : ℤ) : List Notification :=
  s.traced.stored.filter
    (passes host (joined ',' s.popup.chosen) term lat lon (limitOf limitRange))

/-- These are the lines of a search: one for each hit, or none where the user is asked and
declines. -/
structure Found (host : Host) (ns : List Notification) (s : App) (lat lon : ℚ) (term : Text)
    (limitRange : ℤ) (showAll : ℤ → Bool) (added : List Added) : Prop where
  listed : showList showAll (getInt (.int (hits host s lat lon term limitRange).length)) = true →
    Forall₂ (Shows getName host ns lat lon) (hits host s lat lon term limitRange) added
  declined : showList showAll (getInt (.int (hits host s lat lon term limitRange).length)) = false →
    added = []

variable {getName} {host : Host} {look : Look} {upper : Char → Char}
  {sortItems : List Item → List Item} {ε : ℚ} {ns : List Notification} {s s' : App}
  {fix : Option (ℚ × ℚ)} {h : List (List Action) × List Action}

theorem history_restart (db : Database) (ss : List (List Action)) (as : List Action) :
    history getName db (ss ++ [as]) [] = restart (history getName db ss as) := by
  rw [history, List.foldl_append]
  rfl

theorem getStringValue_of_inv (inv : Inv getName host look ε ns s) :
    s.popup.getStringValue = some (joined ',' s.popup.chosen) := by
  rcases inv.popup with none | consistent
  · rw [none]
    rfl
  · exact Popup.getStringValue_eq consistent

theorem lists_of_steady (inv : Inv getName host look ε ns s) (steady : Steady getName fix h s)
    {lat lon : ℚ} (known : fix = some (lat, lon)) {term : Text} (fits : Fits term) (limitRange : ℤ)
    (showAll : ℤ → Bool) :
    Lists getName host ns s.traced.stored (joined ',' s.popup.chosen) term lat lon
      (limitOf limitRange) showAll
      (FindObjects.findObjects host s.traced.plugin.db s.traced.plugin.dbUsable showAll
        ⟨joined ',' s.popup.chosen, term, .finite lat, .finite lon, .finite limitRange⟩) := by
  have sound := inv.sound
  have written_ := inv.written
  rw [switched_of_usable steady.usable] at sound written_
  obtain ⟨filter, value, plain⟩ := exists_filter inv
  obtain rfl := Option.some.inj (value.symm.trans (getStringValue_of_inv inv))
  have centre := steady.onMap (lat, lon) known
  exact lists_findObjects sound written_ plain fits ⟨abs_written_le centre.1,
    abs_written_le centre.2⟩ limitRange showAll

variable (sortItems) in
theorem onSearch_of_steady (inv : Inv getName host look ε ns s) (steady : Steady getName fix h s)
    {lat lon : ℚ} (known : fix = some (lat, lon)) (term : Text) (limitRange : ℤ)
    (showAll : ℤ → Bool) :
    s.onSearch host look sortItems term limitRange showAll =
      if term.length = 0 then s
      else s.findObjects host look sortItems
        ⟨joined ',' s.popup.chosen, term, .finite lat, .finite lon, .finite limitRange⟩ showAll := by
  have atLat : s.positions.getLat = .finite lat := by
    rw [Centre.getLat_eq]
    exact steady.boatlat.trans (by rw [known]; rfl)
  have atLon : s.positions.getLon = .finite lon := by
    rw [Centre.getLon_eq]
    exact steady.boatlon.trans (by rw [known]; rfl)
  rw [App.onSearch, FindObjects.onSearch, atLat, atLon, getStringValue_of_inv inv]
  split_ifs
  · rfl
  · rfl

variable (sortItems) in
theorem findObjects_of_steady (inv : Inv getName host look ε ns s)
    (steady : Steady getName fix h s) {lat lon : ℚ} (known : fix = some (lat, lon)) {term : Text}
    (fits : Fits term) (limitRange : ℤ) (showAll : ℤ → Bool) :
    ∃ added, s.findObjects host look sortItems
        ⟨joined ',' s.popup.chosen, term, .finite lat, .finite lon, .finite limitRange⟩ showAll =
        { s with list := { clearObjects with items := sortItems (added.map (item host look)) } } ∧
      Found getName host ns s lat lon term limitRange showAll added := by
  have lists := lists_of_steady inv steady known fits limitRange showAll
  unfold App.findObjects
  rw [steady.usable] at lists ⊢
  generalize FindObjects.findObjects host s.traced.plugin.db true showAll
    ⟨joined ',' s.popup.chosen, term, .finite lat, .finite lon, .finite limitRange⟩ = o at lists ⊢
  obtain ⟨dbUsable, objects_found, added, thrown⟩ := o
  obtain ⟨rfl, rfl, counted, listed, declined⟩ := lists
  dsimp only at counted listed declined
  rw [counted] at listed declined
  refine ⟨added, ?_, listed, declined⟩
  simp only [Bool.not_true, Bool.false_eq_true, if_false, if_true, results_eq,
    switched_of_usable steady.usable]

theorem steady_onSearch (inv : Inv getName host look ε ns s) (steady : Steady getName fix h s)
    (known : fix.isSome) {term : Text} (fits : Fits term) (limitRange : ℤ) (showAll : ℤ → Bool) :
    Steady getName fix h (s.onSearch host look sortItems term limitRange showAll) := by
  obtain ⟨⟨lat, lon⟩, here⟩ := Option.isSome_iff_exists.mp known
  rw [onSearch_of_steady sortItems inv steady here]
  split_ifs
  · exact steady
  · obtain ⟨added, eq, -⟩ := findObjects_of_steady sortItems inv steady here fits limitRange showAll
    rw [eq]
    exact ⟨steady.usable, steady.traced, steady.boatlat, steady.boatlon, steady.onMap⟩

theorem steady_index (inv : Inv getName host look ε ns s) (steady : Steady getName fix h s)
    {a : Action} (plain : PlainRun getName [a]) :
    Steady getName fix (h.1, h.2 ++ [a]) { s with traced := tracedAct getName s.traced a } := by
  have sound := inv.sound
  rw [switched_of_usable steady.usable] at sound
  refine ⟨?_, ?_, steady.boatlat, steady.boatlon, steady.onMap⟩
  · exact (@sound_tracedRun getName _ [a] sound plain).ready.usable
  · rw [history_concat, ← steady.traced]

theorem onShowOnChart_same (shown : s.onShowOnChart upper = .ok s') :
    s'.traced = s.traced ∧ s'.boatlat = s.boatlat ∧ s'.boatlon = s.boatlon := by
  unfold App.onShowOnChart at shown
  split at shown
  · cases shown
  · obtain rfl := Except.ok.inj shown
    exact ⟨rfl, rfl, rfl⟩
  · obtain rfl := Except.ok.inj shown
    exact ⟨rfl, rfl, rfl⟩

theorem steady_step (inv : Inv getName host look ε ns s) (steady : Steady getName fix h s)
    {e : Event} (allowed : Allowed fix e) (plain : ∀ n ∈ notified [e], Plain getName n)
    (stepped : s.step getName host look upper sortItems e = .ok s') :
    Steady getName (fixAfter fix e) (indexed h e) s' := by
  obtain ⟨usable, traced, boatlat, boatlon, onMap⟩ := steady
  cases e with
  | showOnChart =>
    obtain ⟨same, sameLat, sameLon⟩ := onShowOnChart_same stepped
    exact ⟨by rw [same]; exact usable, same.trans traced, sameLat.trans boatlat,
      sameLon.trans boatlon, onMap⟩
  | index a =>
    obtain rfl := Except.ok.inj stepped
    exact steady_index inv ⟨usable, traced, boatlat, boatlon, onMap⟩ fun n hn =>
      plain n (by simpa [notified] using hn)
  | search term limitRange showAll =>
    obtain rfl := Except.ok.inj stepped
    exact steady_onSearch inv ⟨usable, traced, boatlat, boatlon, onMap⟩ allowed.1 allowed.2
      limitRange showAll
  | setPositionFix lat lon =>
    obtain rfl := Except.ok.inj stepped
    refine ⟨usable, traced, rfl, rfl, ?_⟩
    intro f here
    obtain rfl := Option.some.inj here
    exact allowed
  | restart =>
    obtain rfl := Except.ok.inj stepped
    refine ⟨rfl, ?_, rfl, rfl, fun _ none => (by cases none)⟩
    exact (congrArg restart traced).trans (history_restart _ _ _).symm
  | select itemIndex =>
    rw [App.step] at stepped
    split_ifs at stepped <;> obtain rfl := Except.ok.inj stepped
    · exact ⟨usable, traced, boatlat, boatlon, onMap⟩
    · exact ⟨usable, traced, boatlat, boatlon, onMap⟩
  | setCurrentViewPort _ | toolbar | feature _ | deselect | autoClose _ | close =>
    obtain rfl := Except.ok.inj stepped
    exact ⟨usable, traced, boatlat, boatlon, onMap⟩

theorem steady_run (case_ : IsUpperCase upper) (writes : WritesCells ε look)
    (sorts : ∀ items, (sortItems items).Perm items) {es : List Event}
    (inv : Inv getName host look ε ns s) (steady : Steady getName fix h s)
    (plain : ∀ n ∈ ns ++ notified es, Plain getName n) (known : FixFirst fix es) :
    ∃ s', run getName host look upper sortItems s es = .ok s' ∧
      Inv getName host look ε (ns ++ notified es) s' ∧
      Steady getName (es.foldl fixAfter fix) (es.foldl indexed h) s' := by
  induction es generalizing s ns fix h with
  | nil => exact ⟨s, rfl, by simpa [notified] using inv, steady⟩
  | cons e es ih =>
    have split : ns ++ notified (e :: es) = ns ++ notified [e] ++ notified es := by
      simp [notified]
    rw [split] at plain ⊢
    have plain' : ∀ n ∈ ns ++ notified [e], Plain getName n :=
      fun n hn => plain n (List.mem_append_left _ hn)
    obtain ⟨s', stepped, inv'⟩ := @inv_step getName host look upper sortItems ε ns s case_ writes
      sorts inv e plain'
    have steady' := steady_step inv steady known.1
      (fun n hn => plain' n (List.mem_append_right _ hn)) stepped
    rw [Dialog.run, stepped]
    exact ih inv' steady' plain known.2

/-- Where each session has a fix before its first search and no text is too long: whatever else
happens, the indexing is what it would be without the dialog, and the next search lists the stored
objects that pass, around the latest fix. -/
theorem searches_undisturbed (case_ : IsUpperCase upper) (writes : WritesCells ε look)
    (sorts : ∀ items, (sortItems items).Perm items) (es : List Event)
    (plain : ∀ n ∈ notified es, Plain getName n) (known : FixFirst none es) (autoClose : Bool) :
    ∃ s, run getName host look upper sortItems (.opened (start Database.created) autoClose []) es =
        .ok s ∧
      s.traced = history getName Database.created (es.foldl indexed ([], [])).1
        (es.foldl indexed ([], [])).2 ∧
      s.traced.plugin.dbUsable = true ∧
      ∀ lat lon, es.foldl fixAfter none = some (lat, lon) → ∀ term, term ≠ [] →
        Fits term → ∀ limitRange showAll, ∃ s' added,
          s.step getName host look upper sortItems (.search term limitRange showAll) = .ok s' ∧
          s'.traced = s.traced ∧ s'.list.items.Perm (added.map (item host look)) ∧
          Found getName host (notified es) s lat lon term limitRange showAll added := by
  have opened : Steady getName none ([], []) (.opened (start Database.created) autoClose []) :=
    ⟨rfl, rfl, rfl, rfl, fun _ none => (by cases none)⟩
  obtain ⟨s, ran, inv, steady⟩ := @steady_run getName host look upper sortItems ε [] _ none
    ([], []) case_ writes sorts es (inv_opened autoClose) opened plain known
  refine ⟨s, ran, steady.traced, steady.usable, ?_⟩
  intro lat lon latest term notEmpty fits limitRange showAll
  obtain ⟨added, eq, found⟩ := findObjects_of_steady sortItems inv steady latest fits limitRange
    showAll
  have stepped := onSearch_of_steady sortItems inv steady latest term limitRange
    showAll
  rw [if_neg (by simpa using notEmpty), eq] at stepped
  exact ⟨_, added, congrArg Except.ok stepped, rfl, sorts _, found⟩

def secondSession : List Event :=
  firstLight ++ [.restart, .toolbar, .setPositionFix 10 21, .feature 1]

theorem searches_undisturbed_secondSession :
    ∃ s, run posixName flatHost minutesLook Char.toUpper id
        (.opened (start Database.created) true []) secondSession = .ok s ∧
      s.traced = history posixName Database.created (secondSession.foldl indexed ([], [])).1
        (secondSession.foldl indexed ([], [])).2 ∧
      s.traced.plugin.dbUsable = true ∧
      ∀ lat lon, secondSession.foldl fixAfter none = some (lat, lon) → ∀ term, term ≠ [] →
        Fits term → ∀ limitRange showAll, ∃ s' added,
          s.step posixName flatHost minutesLook Char.toUpper id (.search term limitRange showAll) =
            .ok s' ∧
          s'.traced = s.traced ∧ s'.list.items.Perm (added.map (item flatHost minutesLook)) ∧
          Found posixName flatHost (notified secondSession) s lat lon term limitRange showAll added :=
  searches_undisturbed isUpperCase_toUpper writesCells_minutesLook (fun _ => List.Perm.refl _)
    secondSession (by unfold Plain; decide) (by
      simp [secondSession, firstLight, alternatingRows, FixFirst, Allowed, fixAfter, OnMap]
      norm_num
      decide) true

end ObjSearch.Search.Oriented
