/- The WHERE clause of both statements, on the row of one object.
   digest: The clause is the conjunction of three truths about the object, and raises no error
   where the text is not too long and the distance is defined. -/

import ObjSearch.Search.Catalog

set_option autoImplicit false
set_option relaxedAutoImplicit false

namespace ObjSearch.Search.Condition

open ObjSearch.Lib.Texts (Text)
open ObjSearch.Lib.Printf
open ObjSearch.Sql.Eval
open ObjSearch.Sql.Match (instr like maxLikePatternLength)
open ObjSearch.Sql.Query
open ObjSearch.Index.Storage
open ObjSearch.Search.Statements
open ObjSearch.Search.Catalog

/-- `instr(filter, featurename) > 0` -/
def named (db : Database) (filter : Text) (o : ObjectRow) : Option Bool :=
  (featureName db o).map (fun name => 0 < instr filter name)

def nameLike (text : Text) (o : ObjectRow) : Option Bool :=
  o.objname.map (like ('%' :: (text ++ ['%'])))

/-- What `objname LIKE '%text%'` makes of an object's name. -/
def nameMatches (text : Text) (o : ObjectRow) : Except Error Value :=
  matches_ (.ofOption .text o.objname) (.text ('%' :: (text ++ ['%'])))

/-- The texts whose pattern SQLite accepts. -/
def Fits (text : Text) : Prop := String.utf8Len text + 2 ≤ maxLikePatternLength

instance (text : Text) : Decidable (Fits text) := inferInstanceAs (Decidable (_ ≤ _))

/-- What `distanceMercator(lat, lon, %f, %f)` makes of an object's position and the centre. -/
def distance (host : Host) (lat lon : ℚ) (o : ObjectRow) : Except Error Value :=
  distanceMercator host [.ofOption .real o.lat, .ofOption .real o.lon, .real (written lat),
    .real (written lon)]

/-- `distance <= %f` -/
def within (dist : ℚ) (x : Option ℚ) : Option Bool := x.map (fun d => d ≤ written dist)

def clause (db : Database) (filter text : Text) (limit x : Option ℚ) (o : ObjectRow) :
    Option Bool :=
  conj (named db filter o)
    (match limit with
      | none => nameLike text o
      | some dist => conj (nameLike text o) (within dist x))

structure Sees (db : Database) (o : ObjectRow) (row : Row) : Prop where
  featurename : columnValue row none "featurename".toList =
    .ok (.ofOption .text (featureName db o))
  objname : columnValue row none "objname".toList = .ok (.ofOption .text o.objname)
  lat : columnValue row none "lat".toList = .ok (.ofOption .real o.lat)
  lon : columnValue row none "lon".toList = .ok (.ofOption .real o.lon)

theorem sees_countRow (db : Database) (o : ObjectRow) : Sees db o (countRow db o) := by
  unfold countRow
  cases h : featureOf db o with
  | none => exact ⟨by rw [featureName, h]; rfl, rfl, rfl, rfl⟩
  | some f => exact ⟨by rw [featureName, h]; rfl, rfl, rfl, rfl⟩

theorem sees_listRow (db : Database) (o : ObjectRow) : Sees db o (listRow db o) := by
  unfold listRow countRow
  cases h : featureOf db o with
  | none =>
    cases chartOf db o <;> exact ⟨by rw [featureName, h]; rfl, rfl, rfl, rfl⟩
  | some f =>
    cases chartOf db o <;> exact ⟨by rw [featureName, h]; rfl, rfl, rfl, rfl⟩

variable {host : Host} {db : Database} {o : ObjectRow} {row : Row}

theorem eval_number (cx : Context) (x : ℚ) : eval cx (number x) = .ok (.real (written x)) :=
  eval_formatF cx x

theorem eval_featureCond (sees : Sees db o row) (filter : Text) :
    eval ((tables host db).context row) (featureCond filter) =
      .ok (.ofTruth (named db filter o)) := by
  have found : eval ((tables host db).context row)
      (.call "instr".toList [.str filter, plainColumn "featurename"]) =
      .ok (.ofOption (fun name => .int (instr filter name)) (featureName db o)) := by
    have read : evalAll ((tables host db).context row) [.str filter, plainColumn "featurename"] =
        .ok [.text filter, .ofOption .text (featureName db o)] := by
      simp only [evalAll, eval, plainColumn, Catalog.context, sees.featurename, bind, Except.bind]
      rfl
    simp only [eval, read, bind, Except.bind]
    cases featureName db o <;> rfl
  have compared := compare_ofOption (fun x y => y < x)
    (fun name => number_int (instr filter name)) (featureName db o) (number_int 0)
  rw [featureCond, eval_gt found (w := .int 0) rfl, compared, named]
  simp only [Int.cast_natCast, Int.cast_zero, Nat.cast_pos]

theorem utf8Len_pattern (text : Text) :
    String.utf8Len ('%' :: (text ++ ['%'])) = String.utf8Len text + 2 := by
  have percent : Char.utf8Size '%' = 1 := rfl
  rw [String.utf8Len_cons, String.utf8Len_append, String.utf8Len_cons, String.utf8Len_nil, percent]

theorem nameMatches_of_fits {text : Text} (fits : Fits text) (o : ObjectRow) :
    nameMatches text o = .ok (.ofTruth (nameLike text o)) :=
  matches_ofOption ((utf8Len_pattern text).trans_le fits) o.objname

theorem nameMatches_of_long {text : Text} (long : ¬ Fits text) (o : ObjectRow) :
    nameMatches text o = .error tooComplex :=
  matches_of_long ((not_le.mp long).trans_eq (utf8Len_pattern text).symm) _

theorem eval_nameCond (sees : Sees db o row) (text : Text) :
    eval ((tables host db).context row) (nameCond text) = nameMatches text o := by
  simp only [nameCond, eval, plainColumn, Catalog.context, sees.objname, bind, Except.bind]
  rfl

theorem eval_distanceExpr (sees : Sees db o row) (lat lon : ℚ) :
    eval ((tables host db).context row) (distanceExpr (number lat) (number lon)) =
      distance host lat lon o := by
  have read : evalAll ((tables host db).context row)
      [plainColumn "lat", plainColumn "lon", number lat, number lon] =
      .ok [.ofOption .real o.lat, .ofOption .real o.lon, .real (written lat),
        .real (written lon)] := by
    simp only [evalAll, eval, plainColumn, eval_number, Catalog.context, sees.lat,
      sees.lon, bind, Except.bind]
    rfl
  simp only [distanceExpr, eval, read, bind, Except.bind]
  rfl

theorem eval_nearCond (sees : Sees db o row) {lat lon : ℚ} (dist : ℚ) {x : Option ℚ}
    (defined : distance host lat lon o = .ok (.ofOption .real x)) :
    eval ((tables host db).context row) (nearCond lat lon dist) = .ok (.ofTruth (within dist x)) := by
  have measured : eval ((tables host db).context row)
      (distanceExpr (number lat) (number lon)) = .ok (.ofOption .real x) := by
    rw [eval_distanceExpr sees, defined]
  have compared := compare_ofOption (fun x y => x ≤ y) number_real x (number_real (written dist))
  rw [nearCond, eval_le measured (eval_number _ dist), compared]
  rfl

/-- The distance is needed only where there is a limit. -/
theorem eval_whereCond (sees : Sees db o row) (filter : Text) {text : Text} (fits : Fits text)
    {lat lon : ℚ} (limit : Option ℚ) {x : Option ℚ}
    (defined : limit.isSome → distance host lat lon o = .ok (.ofOption .real x)) :
    eval ((tables host db).context row) (whereCond filter text lat lon limit) =
      .ok (.ofTruth (clause db filter text limit x o)) := by
  have name : eval ((tables host db).context row) (nameCond text) =
      .ok (.ofTruth (nameLike text o)) := by
    rw [eval_nameCond sees, nameMatches_of_fits fits]
  cases limit with
  | none => exact eval_and (eval_featureCond sees filter) name
  | some dist =>
    exact eval_and (eval_featureCond sees filter)
      (eval_and name (eval_nearCond sees dist (defined rfl)))

/-- Of a text that is too long the clause is not true: it is false where the feature does not pass,
and raises an error elsewhere. -/
theorem eval_whereCond_of_long (sees : Sees db o row) (filter : Text) {text : Text}
    (long : ¬ Fits text) (lat lon : ℚ) (limit : Option ℚ) :
    eval ((tables host db).context row) (whereCond filter text lat lon limit) =
      if named db filter o = some false then .ok (.ofBool false) else .error tooComplex := by
  have name : eval ((tables host db).context row) (nameCond text) = .error tooComplex := by
    rw [eval_nameCond sees, nameMatches_of_long long]
  have both : ∃ e, whereCond filter text lat lon limit = .binary .and (featureCond filter) e ∧
      eval ((tables host db).context row) e = .error tooComplex := by
    cases limit with
    | none => exact ⟨_, rfl, name⟩
    | some dist =>
      refine ⟨.binary .and (nameCond text) (nearCond lat lon dist), rfl, ?_⟩
      rw [eval_binary_and, name]
      rfl
  obtain ⟨e, same, failing⟩ := both
  rw [same, eval_binary_and, eval_featureCond sees, failing]
  simp only [bind, Except.bind, truth_ofTruth]
  split_ifs <;> rfl

end ObjSearch.Search.Condition
