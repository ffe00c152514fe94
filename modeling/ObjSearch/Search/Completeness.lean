/- Every object that a search asks for passes its WHERE clause.
   digest: The filter text contains each checked feature, the pattern matches whatever contains
   the search text, and quoting keeps both as they are. -/

import ObjSearch.Search.FindObjects

set_option autoImplicit false
set_option relaxedAutoImplicit false

namespace ObjSearch.Search.Completeness

open Std (ExtTreeMap)
open ObjSearch.Lib.Texts
open ObjSearch.Lib.Printf
open ObjSearch.Lib.Relational
open ObjSearch.Sql.Eval
open ObjSearch.Sql.Match
open ObjSearch.Sql.Query
open ObjSearch.Sql.Read
open ObjSearch.Index.Storage
open ObjSearch.Search.CheckList
open ObjSearch.Search.Statements
open ObjSearch.Search.Catalog
open ObjSearch.Search.Condition
open ObjSearch.Search.FindObjects

variable {host : Host} {db : Database}

def clicked (before : Popup) (featuresInDb : ExtTreeMap Text ℤ) (clicks : List ℕ) : Popup :=
  clicks.foldl Popup.click (before.offer featuresInDb)

/-- What a search asks of an object: a checked feature, a name with the text in it and, under a
range limit, a distance to the centre as written of at most the limit. -/
structure AskedFor (host : Host) (db : Database) (p : Popup) (text : Text) (lat lon : ℚ)
    (limitRange : ℤ) (o : ObjectRow) : Prop where
  feature : ∃ f ∈ db.feature.rows, o.feature_id = some f.1 ∧
    ∃ i name, p.isChecked (i + 1) ∧ p.values[i]? = some name ∧ f.2.featurename = some name
  contains : ∃ name, o.objname = some name ∧ text <:+: name
  near : (1 / 10 : ℚ) < limitRange →
    ∃ d, distance host lat lon o = .ok (.real d) ∧ d ≤ limitRange

theorem clicked_consistent (before : Popup) (featuresInDb : ExtTreeMap Text ℤ)
    (clicks : List ℕ) : (clicked before featuresInDb clicks).Consistent := by
  obtain ⟨values, count⟩ := Popup.clicks_same (p := before.offer featuresInDb) clicks
  have offered := Popup.offer_consistent (p := before) featuresInDb
  unfold Popup.Consistent at offered ⊢
  rw [clicked, values, count, offered]

theorem not_mem_filter (before : Popup) {featuresInDb : ExtTreeMap Text ℤ} (clicks : List ℕ)
    (plain : ∀ feature ∈ featuresInDb, '\'' ∉ feature) :
    '\'' ∉ joined ',' (clicked before featuresInDb clicks).chosen := by
  apply not_mem_joined (by decide)
  intro name chosen
  apply plain
  have value := Popup.mem_values_of_mem_chosen chosen
  rw [clicked, (Popup.clicks_same clicks).1, Popup.offer_values] at value
  exact ExtTreeMap.mem_keys.mp value

theorem featureName_eq {o : ObjectRow} {f : ℤ × FeatureRow} (hf : f ∈ db.feature.rows)
    (refers : o.feature_id = some f.1) : featureName db o = f.2.featurename := by
  have found : featureOf db o = some f := by
    rw [featureOf, refers]
    exact match_mem db.feature.nodup hf
  rw [featureName, found]
  rfl

theorem named_of_mem {o : ObjectRow} {name : Text} {names : List Text}
    (feature : featureName db o = some name) (listed : name ∈ names) :
    named db (joined ',' names) o = some true := by
  have inside := (instr_pos_iff _ _).mpr (infix_joined_of_mem ',' listed)
  rw [named, feature, Option.map_some, decide_eq_true inside]

theorem nameLike_of_infix {o : ObjectRow} {name text : Text} (objname : o.objname = some name)
    (contains : text <:+: name) : nameLike text o = some true := by
  rw [nameLike, objname, Option.map_some, like_of_infix contains]

/-- A limit in whole miles is compared exactly as 0.1 would be. -/
theorem eq_of_limitOf {limitRange : ℤ} {dist : ℚ} (limit : limitOf limitRange = some dist) :
    dist = limitRange ∧ (1 / 10 : ℚ) < limitRange := by
  unfold limitOf at limit
  split_ifs at limit with above
  have positive : (0 : ℚ) < limitRange := lt_trans (by norm_num [tenth]) above
  have mile : (1 : ℚ) ≤ limitRange := by exact_mod_cast positive
  exact ⟨(Option.some.inj limit).symm, by linarith⟩

theorem clause_of_askedFor {p : Popup} {text : Text} {lat lon : ℚ} {limitRange : ℤ}
    {o : ObjectRow} (asked : AskedFor host db p text lat lon limitRange o) :
    ∃ x, ((limitOf limitRange).isSome → distance host lat lon o = .ok (.ofOption .real x)) ∧
      clause db (joined ',' p.chosen) text (limitOf limitRange) x o = some true := by
  obtain ⟨f, hf, refers, i, name, checked, value, featurename⟩ := asked.feature
  obtain ⟨objname, hasName, contains⟩ := asked.contains
  have feature := named_of_mem ((featureName_eq hf refers).trans featurename)
    (Popup.mem_chosen checked value)
  have like_ := nameLike_of_infix hasName contains
  cases limit : limitOf limitRange with
  | none => exact ⟨none, by simp, conj_eq_true.mpr ⟨feature, like_⟩⟩
  | some dist =>
    obtain ⟨rfl, above⟩ := eq_of_limitOf limit
    obtain ⟨d, measured, near⟩ := asked.near above
    have within_ : within limitRange (some d) = some true := by
      rw [within, Option.map_some, written_intCast, decide_eq_true near]
    exact ⟨some d, fun _ => measured,
      conj_eq_true.mpr ⟨feature, conj_eq_true.mpr ⟨like_, within_⟩⟩⟩

theorem satisfies_of_clause {sql filter text : Text} (fits : Fits text) {lat lon : ℚ}
    {limit x : Option ℚ} {r : ℤ × ObjectRow} {s : Select} {row : Row}
    (read : readSql sql = some (.select s))
    (table : (tables host db).find s.table = .ok (objectTable db))
    (joined : joinAll (tables host db) s.joins
      [sourceRow s.name (objectTable db).columns (objectValues r.2)] = .ok [row])
    (cond : s.cond = whereCond filter text lat lon limit) (sees : Sees db r.2 row)
    (defined : limit.isSome → distance host lat lon r.2 = .ok (.ofOption .real x))
    (selected : clause db filter text limit x r.2 = some true) :
    Satisfies (tables host db) sql (objectValues r.2) := by
  refine ⟨s, objectTable db, row, read, table, joined, ?_⟩
  have evaluated := eval_whereCond sees filter fits limit defined
  rw [cond, holds_of_eval evaluated, selected]
  rfl

theorem not_satisfies_of_long {sql filter text : Text} (long : ¬ Fits text) {lat lon : ℚ}
    {limit : Option ℚ} {r : ℤ × ObjectRow} {s : Select} {row : Row}
    (read : readSql sql = some (.select s))
    (table : (tables host db).find s.table = .ok (objectTable db))
    (joined : joinAll (tables host db) s.joins
      [sourceRow s.name (objectTable db).columns (objectValues r.2)] = .ok [row])
    (cond : s.cond = whereCond filter text lat lon limit) (sees : Sees db r.2 row) :
    ¬ Satisfies (tables host db) sql (objectValues r.2) := by
  rintro ⟨s', t, row', read', table', joined', held⟩
  obtain rfl := Stmt.select.inj (Option.some.inj (read.symm.trans read'))
  obtain rfl := Except.ok.inj (table.symm.trans table')
  obtain rfl := List.singleton_inj.mp (Except.ok.inj (joined.symm.trans joined'))
  rw [cond] at held
  exact holds_whereCond_of_long long sees limit held

theorem joinAll_listRow (r : ℤ × ObjectRow) : joinAll (tables host db) [featureJoin, chartJoin]
    [objectSource r.2] = .ok [listRow db r.2] :=
  (joinAll_feature host db [chartJoin] [r]).trans (joinAll_chart host db [] [r])

theorem onSearch_clicked (before : Popup) (featuresInDb : ExtTreeMap Text ℤ) (clicks : List ℕ)
    {text : Text} (notEmpty : text ≠ []) (lat lon : Double) (limitRange : ℤ) :
    onSearch (clicked before featuresInDb clicks) text lat lon limitRange =
      some ⟨joined ',' (clicked before featuresInDb clicks).chosen, text, lat, lon,
        .finite limitRange⟩ := by
  rw [onSearch, if_neg (by simpa using notEmpty),
    Popup.getStringValue_eq (clicked_consistent before featuresInDb clicks)]
  rfl

/-- A search for a text that is not too long never omits an object it is asked for: the row of the
object satisfies the WHERE clause of both statements. -/
theorem askedFor_satisfies (host : Host) (db : Database) (before : Popup)
    (featuresInDb : ExtTreeMap Text ℤ) (plain : ∀ feature ∈ featuresInDb, '\'' ∉ feature)
    (clicks : List ℕ) (text : Text) (notEmpty : text ≠ []) (fits : Fits text) (lat lon : ℚ)
    (limitRange : ℤ) :
    ∃ c, onSearch (clicked before featuresInDb clicks) text (.finite lat) (.finite lon)
        limitRange = some c ∧
      ∀ r ∈ db.object.rows,
        AskedFor host db (clicked before featuresInDb clicks) text lat lon limitRange r.2 →
        Satisfies (tables host db) (countSql c) (objectValues r.2) ∧
          Satisfies (tables host db) (listSql c) (objectValues r.2) := by
  have plain' := not_mem_filter before clicks plain
  refine ⟨_, onSearch_clicked before featuresInDb clicks notEmpty _ _ limitRange, ?_⟩
  intro r _ asked
  obtain ⟨x, defined, selected⟩ := clause_of_askedFor asked
  have counted := readSql_countSql plain' text lat lon limitRange
  have listed := readSql_listSql plain' text lat lon limitRange
  constructor
  · apply satisfies_of_clause fits counted (find_object host db) (joinAll_feature host db [] [r]) rfl
      (sees_countRow db r.2) defined selected
  · apply satisfies_of_clause fits listed (find_object host db) (joinAll_listRow r) rfl
      (sees_listRow db r.2) defined selected

def flatHost : Host := ⟨fun lat0 lon0 lat1 lon1 => some (60 * (|lat1 - lat0| + |lon1 - lon0|)), id⟩

def capAgde : ObjectRow :=
  ⟨none, some 1, some "Cap d'A%_gde".toList, some (4328 / 100), some (345 / 100)⟩

def capAgdeDatabase : Database :=
  { Database.created with
    feature := Database.created.feature.insert ⟨some "LIGHTS".toList⟩
    object := Database.created.object.insert capAgde }

def twoFeatures : ExtTreeMap Text ℤ :=
  ((∅ : ExtTreeMap Text ℤ).insert "LIGHTS".toList 1).insert "BOYLAT".toList 2

theorem askedFor_satisfies_capAgde :
    ∃ c, onSearch (clicked ⟨[], []⟩ twoFeatures [1]) "d'A%_".toList (.finite (4328 / 100))
        (.finite (345 / 100)) 5 = some c ∧
      Satisfies (tables flatHost capAgdeDatabase) (countSql c) (objectValues capAgde) ∧
        Satisfies (tables flatHost capAgdeDatabase) (listSql c) (objectValues capAgde) := by
  have plain : ∀ feature ∈ twoFeatures.keys, '\'' ∉ feature := by decide +kernel
  obtain ⟨c, call, all⟩ := askedFor_satisfies flatHost capAgdeDatabase ⟨[], []⟩ twoFeatures
    (fun f hf => plain f (ExtTreeMap.mem_keys.mpr hf)) [1] "d'A%_".toList (by decide) (by decide)
    (4328 / 100) (345 / 100) 5
  refine ⟨c, call, all (1, capAgde) (by decide +kernel) ⟨?_, ?_, ?_⟩⟩
  · exact ⟨(1, ⟨some "LIGHTS".toList⟩), by decide +kernel, rfl, 1, "LIGHTS".toList,
      by decide +kernel, by decide +kernel, rfl⟩
  · exact ⟨_, rfl, "Cap ".toList, "gde".toList, by decide +kernel⟩
  · intro _
    exact ⟨0, by decide +kernel, by norm_num⟩

/-- A name whose pattern has one byte more than SQLite accepts. -/
def longName : Text := List.replicate 49999 'A'

theorem not_fits_longName : ¬ Fits longName := by
  have bytes (n : ℕ) : String.utf8Len (List.replicate n 'A') = n := by
    induction n with
    | zero => rfl
    | succ n ih => rw [List.replicate_succ, String.utf8Len_cons, ih]; rfl
  rw [Fits, longName, bytes]
  decide

def longDatabase : Database :=
  { Database.created with
    feature := Database.created.feature.insert ⟨some "LIGHTS".toList⟩
    object := Database.created.object.insert ⟨none, some 1, some longName, some 40, some 3⟩ }

theorem longName_is_not_found :
    ∃ c, onSearch (clicked ⟨[], []⟩ twoFeatures [1]) longName (.finite 40) (.finite 3) 0 = some c ∧
      ∃ r ∈ longDatabase.object.rows,
        AskedFor flatHost longDatabase (clicked ⟨[], []⟩ twoFeatures [1]) longName 40 3 0 r.2 ∧
          ¬ Satisfies (tables flatHost longDatabase) (countSql c) (objectValues r.2) ∧
            ¬ Satisfies (tables flatHost longDatabase) (listSql c) (objectValues r.2) := by
  have plain : '\'' ∉ joined ',' (clicked ⟨[], []⟩ twoFeatures [1]).chosen := by decide +kernel
  have notEmpty : longName ≠ [] := by rw [longName, Ne, List.replicate_eq_nil_iff]; decide
  refine ⟨_, onSearch_clicked ⟨[], []⟩ twoFeatures [1] notEmpty _ _ 0,
    (1, ⟨none, some 1, some longName, some 40, some 3⟩), List.mem_singleton.mpr rfl,
    ⟨?_, ?_, ?_⟩, ?_, ?_⟩
  · exact ⟨(1, ⟨some "LIGHTS".toList⟩), List.mem_singleton.mpr rfl, rfl, 1, "LIGHTS".toList,
      by decide +kernel, by decide +kernel, rfl⟩
  · exact ⟨_, rfl, List.infix_refl _⟩
  · intro limited
    norm_num at limited
  · exact not_satisfies_of_long not_fits_longName (readSql_countSql plain longName 40 3 _)
      (find_object flatHost longDatabase) (joinAll_feature flatHost longDatabase [] [_]) rfl
      (sees_countRow longDatabase _)
  · exact not_satisfies_of_long not_fits_longName (readSql_listSql plain longName 40 3 _)
      (find_object flatHost longDatabase) (joinAll_listRow (1, _)) rfl
      (sees_listRow longDatabase _)

end ObjSearch.Search.Completeness
