/- What a search answers, told in the notifications of all sessions.
   digest: The lines are those of the stored notifications that pass, in the order in which they were
   delivered, each with its own feature and position and with its own chart or none. -/

import ObjSearch.Index.Origins
import ObjSearch.Search.Agreement

set_option autoImplicit false
set_option relaxedAutoImplicit false

namespace ObjSearch.Search.Answers

open List (Forall₂)
open ObjSearch.Lib.Texts
open ObjSearch.Lib.Printf
open ObjSearch.Lib.Relational
open ObjSearch.Sql.Eval
open ObjSearch.Sql.Match
open ObjSearch.Index.Storage
open ObjSearch.Index.Notify
open ObjSearch.Index.Effect
open ObjSearch.Index.Session
open ObjSearch.Index.Queueing (posixName alternatingRows)
open ObjSearch.Index.History
open ObjSearch.Index.Origins
open ObjSearch.Search.CheckList
open ObjSearch.Search.Statements
open ObjSearch.Search.Catalog
open ObjSearch.Search.Condition
open ObjSearch.Search.FindObjects
open ObjSearch.Search.Completeness (clicked not_mem_filter onSearch_clicked featureName_eq flatHost)
open ObjSearch.Search.Agreement (found findObjects_eq)

variable (getName : Text → Text) (host : Host)

def miles (lat lon : ℚ) (n : Notification) : Option ℚ :=
  host.distanceBearingMercator (written n.lat) (written (wrapped n.lon)) (written lat) (written lon)

def passes (filter text : Text) (lat lon : ℚ) (limit : Option ℚ) (n : Notification) : Bool :=
  0 < instr filter n.feature && like ('%' :: (text ++ ['%'])) n.objname && match limit with
    | none => true
    | some dist => (miles host lat lon n).any (fun d => d ≤ written dist)

/-- Feature, name, position and chart of a line are those of a notification. The chart is described
as a notification of that chart did, if at all. -/
structure Describes (ns : List Notification) (n : Notification) (a : Added) : Prop where
  feature : a.feature = n.feature
  objectname : a.objectname = n.objname
  lat : a.lat = written n.lat
  lon : a.lon = written (wrapped n.lon)
  chart : a.chart = [] ∧ a.scale = 0 ∧ a.nativescale = 0 ∨
    ∃ m ∈ ns, chartName getName m = chartName getName n ∧ a.chart = chartName getName n ∧
      a.scale = written m.scale ∧ a.nativescale = getInt (.int m.nativescale)

structure Shows (ns : List Notification) (clat clon : ℚ) (n : Notification) (a : Added) : Prop
    extends Describes getName ns n a where
  dist : a.dist = host.toUsrDistance ((miles host clat clon n).getD 0)

variable {getName host} {lat lon : ℚ}

theorem feature_of_objectOf {db : Database} {n : Notification} {o : ObjectRow}
    (h : ObjectOf db.feature n o) : featureName db o = some n.feature := by
  obtain ⟨id, refers, here⟩ := h.named
  exact featureName_eq here refers

theorem mercator_of_objectOf {db : Database} {n : Notification} {o : ObjectRow}
    (h : ObjectOf db.feature n o) : mercator host lat lon o = miles host lat lon n := by
  rw [mercator, h.lat, h.lon]
  rfl

theorem clause_iff_passes {db : Database} {n : Notification} {o : ObjectRow}
    (h : ObjectOf db.feature n o) (filter text : Text) (limit : Option ℚ) :
    clause db filter text limit (mercator host lat lon o) o = some true ↔
      passes host filter text lat lon limit n = true := by
  have feature : named db filter o = some (decide (0 < instr filter n.feature)) := by
    rw [named, feature_of_objectOf h]
    rfl
  have name : nameLike text o = some (like ('%' :: (text ++ ['%'])) n.objname) := by
    rw [nameLike, h.objname]
    rfl
  rw [mercator_of_objectOf h]
  cases limit with
  | none => simp [clause, passes, feature, name, conj_eq_true]
  | some dist =>
    cases measured : miles host lat lon n <;>
      simp [clause, passes, feature, name, conj_eq_true, within, measured, and_assoc]

theorem onMap_of_objectOf {db : Database} {n : Notification} {o : ObjectRow}
    (h : ObjectOf db.feature n o) : OnMap (o.lat.getD 0) (o.lon.getD 0) := by
  obtain ⟨lat, lon⟩ := (offMap_eq_false_iff _ _).mp h.storable.2
  rw [h.lat, h.lon]
  exact ⟨abs_written_le lat, abs_written_le lon⟩

theorem chart_of_refers {ns : List Notification} {t : Traced} {n : Notification} {o : ObjectRow}
    (written_ : WrittenFor getName ns t) {r : ℤ × ChartRow} (hr : r ∈ t.plugin.db.chart.rows)
    (refers : o.chart_id = some r.1) (name : r.2.chartname = some (chartName getName n)) :
    ∃ m ∈ ns, chartName getName m = chartName getName n ∧ ∃ id, chartOf t.plugin.db o =
      some (id, chartRow (chartName getName n) m.scale m.nativescale) := by
  obtain ⟨m, hm, row⟩ := written_.charts r hr
  have same : chartName getName m = chartName getName n := by
    rw [row] at name
    exact Option.some.inj name
  refine ⟨m, hm, same, r.1, ?_⟩
  rw [chartOf, refers, match_mem t.plugin.db.chart.nodup hr, ← same, ← row]

/-- The chart that the list statement finds for an object: its own, or none. -/
theorem chart_of_onChart {ns : List Notification} {t : Traced} {n : Notification} {o : ObjectRow}
    (written_ : WrittenFor getName ns t) (h : OnChart getName t.plugin.db.chart n o) :
    chartOf t.plugin.db o = none ∨
      ∃ m ∈ ns, chartName getName m = chartName getName n ∧ ∃ id, chartOf t.plugin.db o =
        some (id, chartRow (chartName getName n) m.scale m.nativescale) := by
  rcases h with none | ⟨r, hr, refers, name⟩
  · left
    rw [chartOf, none]
    -- no row has the id 0
    refine List.find?_eq_none.mpr fun r hr same => ?_
    have positive := (t.plugin.db.chart.within r hr).1
    rw [of_decide_eq_true same] at positive
    exact absurd positive (lt_irrefl 0)
  · exact .inr (chart_of_refers written_ hr refers name)

theorem describes_shown {ns : List Notification} {t : Traced} {n : Notification} {o : ObjectRow}
    (written_ : WrittenFor getName ns t) (object : ObjectOf t.plugin.db.feature n o)
    (on : OnChart getName t.plugin.db.chart n o) :
    Describes getName ns n (shown host t.plugin.db lat lon o) := by
  refine ⟨?_, ?_, ?_, ?_, ?_⟩
  · simp only [shown, feature_of_objectOf object, Option.getD_some]
  · simp only [shown, object.objname, Option.getD_some]
  · simp only [shown, object.lat, Option.getD_some]
  · simp only [shown, object.lon, Option.getD_some]
  · rcases chart_of_onChart written_ on with none | ⟨m, hm, same, id, row⟩
    · left
      simp only [shown, none, Option.bind_none, Option.getD_none]
      exact ⟨trivial, trivial, by decide⟩
    · right
      refine ⟨m, hm, same, ?_, ?_, ?_⟩ <;>
        simp only [shown, row, chartRow, Option.bind_some, Option.getD_some, getInt]

theorem shows_shown {ns : List Notification} {t : Traced} {n : Notification} {o : ObjectRow}
    (written_ : WrittenFor getName ns t) (object : ObjectOf t.plugin.db.feature n o)
    (on : OnChart getName t.plugin.db.chart n o) :
    Shows getName host ns lat lon n (shown host t.plugin.db lat lon o) := by
  refine ⟨describes_shown written_ object on, ?_⟩
  simp only [shown, mercator_of_objectOf object]

theorem plain_features {ns : List Notification} {t : Traced} (sound : Sound t)
    (written_ : WrittenFor getName ns t) (plain : ∀ m ∈ ns, Plain getName m) :
    ∀ feature ∈ t.plugin.featuresInDb, '\'' ∉ feature := by
  intro feature here
  obtain ⟨id, cached⟩ := Option.isSome_iff_exists.mp
    (Std.ExtTreeMap.mem_iff_isSome_getElem?.mp here)
  have indexed : featureIds t.plugin.featuresInDb feature = some id := by
    rw [featureIds, cached]
    rfl
  obtain ⟨r, hr, same⟩ := List.mem_map.mp ((sound.features.found _ _).mp indexed)
  obtain ⟨m, hm, row⟩ := written_.features r hr
  have name : r.2.featurename = some feature := (Prod.mk.inj same).2
  rw [row] at name
  rw [← Option.some.inj name]
  exact (plain m hm).2

theorem plain_delivered {ss : List (List Action)} {as : List Action}
    (earlier : ∀ bs ∈ ss, PlainRun getName bs) (plain : PlainRun getName as) :
    ∀ m ∈ delivered ss as, Plain getName m := by
  intro m hm
  rcases List.mem_append.mp hm with before | now
  · obtain ⟨bs, hbs, here⟩ := List.mem_flatMap.mp before
    exact earlier bs hbs m here
  · exact plain m now

variable (getName host)

/-- The outcome of a search over objects stored for these notifications. -/
structure Lists (ns stored : List Notification) (filter text : Text) (clat clon : ℚ)
    (limit : Option ℚ) (showAll : ℤ → Bool) (o : Outcome) : Prop where
  dbUsable : o.dbUsable = true
  thrown : o.thrown = none
  counted : o.objects_found =
    getInt (.int (stored.filter (passes host filter text clat clon limit)).length)
  listed : showList showAll o.objects_found = true →
    Forall₂ (Shows getName host ns clat clon)
      (stored.filter (passes host filter text clat clon limit)) o.added
  declined : showList showAll o.objects_found = false → o.added = []

variable {getName host}

theorem forall₂_matching {ns : List Notification} {t : Traced} (sound : Sound t)
    (written_ : WrittenFor getName ns t) (filter : Text) {text : Text} (fits : Fits text)
    (limit : Option ℚ) :
    Forall₂ (fun n r => Shows getName host ns lat lon n (shown host t.plugin.db lat lon r.2))
      (t.stored.filter (passes host filter text lat lon limit))
      (matching host t.plugin.db filter text lat lon limit) := by
  have objects := List.forall₂_map_right_iff.mp sound.stored
  have charts := List.forall₂_map_right_iff.mp written_.stored
  have both : Forall₂ (fun n (r : ℤ × ObjectRow) => ObjectOf t.plugin.db.feature n r.2 ∧
      OnChart getName t.plugin.db.chart n r.2) t.stored t.plugin.db.object.rows := by
    rw [List.forall₂_iff_get] at objects charts ⊢
    exact ⟨objects.1, fun i h h' => ⟨objects.2 i h h', charts.2 i h h'⟩⟩
  refine (List.rel_filter ?_ both).imp fun n r h => shows_shown written_ h.1 h.2
  intro n r h
  exact (clause_iff_passes h.1 filter text limit).symm.trans
    ((and_iff_right fits).symm.trans decide_eq_true_iff.symm)

theorem found_of_length {rows : List (ℤ × ObjectRow)} {k : ℕ} (length : rows.length = k) :
    found rows = getInt (.int k) := by
  subst length
  rfl

theorem onMap_of_mem_object {t : Traced} (sound : Sound t) :
    ∀ r ∈ t.plugin.db.object.rows, OnMap (r.2.lat.getD 0) (r.2.lon.getD 0) := by
  intro r hr
  have each := ((List.forall₂_and_left (R := fun _ _ => True) _ _).mp
    (sound.stored.imp fun _ _ object => And.intro (onMap_of_objectOf object) trivial).flip).1
  exact each r.2 (List.mem_map_of_mem hr)

theorem lists_findObjects {ns : List Notification} {t : Traced} (sound : Sound t)
    (written_ : WrittenFor getName ns t) {filter : Text} (plain : '\'' ∉ filter) {text : Text}
    (fits : Fits text) (centre : OnMap (written lat) (written lon)) (limitRange : ℤ)
    (showAll : ℤ → Bool) :
    Lists getName host ns t.stored filter text lat lon (limitOf limitRange) showAll
      (findObjects host t.plugin.db t.plugin.dbUsable showAll
        ⟨filter, text, .finite lat, .finite lon, .finite limitRange⟩) := by
  have rows := @forall₂_matching getName host lat lon _ t sound written_ filter text fits
    (limitOf limitRange)
  have eq := findObjects_eq host fits plain (onMap_of_mem_object sound) centre showAll limitRange
  generalize matching host t.plugin.db filter text lat lon (limitOf limitRange) = matched at rows eq
  dsimp only at eq
  let c : Call := ⟨filter, text, .finite lat, .finite lon, .finite limitRange⟩
  have objects_found : (findObjects host t.plugin.db true showAll c).objects_found =
      found matched := by rw [eq]
  have added : (findObjects host t.plugin.db true showAll c).added =
      if showList showAll (found matched) then
        matched.map (fun r => shown host t.plugin.db lat lon r.2) else [] := by rw [eq]
  rw [sound.ready.usable]
  refine ⟨by rw [eq], by rw [eq], ?_, ?_, ?_⟩
  · rw [objects_found, found_of_length rows.length_eq.symm]
  · intro showing
    rw [objects_found] at showing
    rw [added, if_pos showing]
    exact List.forall₂_map_right_iff.mpr rows
  · intro declined
    rw [objects_found] at declined
    rw [added, declined, if_neg Bool.false_ne_true]

theorem lists_onSearch {ss : List (List Action)} {as : List Action}
    (earlier : ∀ bs ∈ ss, PlainRun getName bs) (plain : PlainRun getName as) (host : Host)
    (before : Popup) (clicks : List ℕ) {text : Text} (notEmpty : text ≠ []) (fits : Fits text)
    {clat clon : ℚ} (centre : OnMap (written clat) (written clon)) (limitRange : ℤ)
    (showAll : ℤ → Bool) :
    let t := history getName Database.created ss as
    let p := clicked before t.plugin.featuresInDb clicks
    ∃ c, onSearch p text (.finite clat) (.finite clon) limitRange = some c ∧
      Lists getName host (delivered ss as) t.stored (joined ',' p.chosen) text clat clon
        (limitOf limitRange) showAll (findObjects host t.plugin.db t.plugin.dbUsable showAll c) := by
  intro t p
  have sound : Sound t := sound_history earlier plain
  have written_ : WrittenFor getName (delivered ss as) t := writtenFor_history ss as earlier plain
  have plainFilter : '\'' ∉ joined ',' p.chosen := not_mem_filter before clicks
    (plain_features sound written_ (plain_delivered earlier plain))
  exact ⟨_, onSearch_clicked before t.plugin.featuresInDb clicks notEmpty _ _ limitRange,
    lists_findObjects sound written_ plainFilter fits centre limitRange showAll⟩

/-- Over any sessions with plain names, from the created database on: a search by whatever is left
checked among the offered features, about whatever point on the map, lists the stored notifications
that pass, in the order in which they were delivered and each once. -/
theorem search_lists_stored (ss : List (List Action)) (as : List Action)
    (earlier : ∀ bs ∈ ss, PlainRun getName bs) (plain : PlainRun getName as) (host : Host)
    (before : Popup) (clicks : List ℕ) (text : Text) (notEmpty : text ≠ []) (fits : Fits text)
    (clat clon : ℚ) (centre : OnMap (written clat) (written clon)) (limitRange : ℤ)
    (showAll : ℤ → Bool) :
    let t := history getName Database.created ss as
    let p := clicked before t.plugin.featuresInDb clicks
    t.stored.Sublist (delivered ss as) ∧
    ∃ c, onSearch p text (.finite clat) (.finite clon) limitRange = some c ∧
      Lists getName host (delivered ss as) t.stored (joined ',' p.chosen) text clat clon
        (limitOf limitRange) showAll (findObjects host t.plugin.db t.plugin.dbUsable showAll c) := by
  intro t p
  have order : t.stored.Sublist (delivered ss as) :=
    (List.sublist_append_left _ _).trans (sublist_history Database.created ss as)
  exact ⟨order, lists_onSearch earlier plain host before clicks notEmpty fits centre limitRange showAll⟩

theorem search_lists_stored_alternatingRows :
    let t := history posixName Database.created [alternatingRows] (.serve :: alternatingRows)
    let p := clicked ⟨[], []⟩ t.plugin.featuresInDb []
    t.stored.Sublist (delivered [alternatingRows] (.serve :: alternatingRows)) ∧
    ∃ c, onSearch p "A".toList (.finite 40) (.finite (-73)) 5 = some c ∧
      Lists posixName flatHost (delivered [alternatingRows] (.serve :: alternatingRows)) t.stored
        (joined ',' p.chosen) "A".toList 40 (-73) (limitOf (5 : ℤ)) (fun _ => true)
        (findObjects flatHost t.plugin.db t.plugin.dbUsable (fun _ => true) c) :=
  search_lists_stored [alternatingRows] (.serve :: alternatingRows)
    (by unfold PlainRun Plain; decide) (by unfold PlainRun Plain; decide) flatHost ⟨[], []⟩ []
    "A".toList (by decide) (by decide) 40 (-73) (by decide +kernel) 5 (fun _ => true)

end ObjSearch.Search.Answers
