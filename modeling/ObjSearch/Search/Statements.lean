/- The SELECT texts of a search, as `FindObjects` formats them and as SQLite reads them.
   digest: With a plain feature filter each text is one SELECT whatever the search text is. -/

import ObjSearch.Sql.Read

set_option autoImplicit false
set_option relaxedAutoImplicit false

namespace ObjSearch.Search.Statements

open ObjSearch.Lib.Texts (Text)
open ObjSearch.Lib.Printf
open ObjSearch.Sql.Lexer
open ObjSearch.Sql.Eval
open ObjSearch.Sql.Read

/-- A `double`, numbers exact. -/
inductive Double where
  | nan
  | infinite (negative : Bool)
  | finite (x : ℚ)
deriving DecidableEq

/-- `%f` -/
def Double.format : Double → Text
  | .nan => "nan".toList
  | .infinite negative => sign negative ++ "inf".toList
  | .finite x => formatF x

/-- The literal `0.1`, which no double equals exactly. -/
def tenth : ℚ := 3602879701896397 / 36028797018963968

/-- `dist > 0.1` -/
def Double.aboveTenth : Double → Bool
  | .nan => false
  | .infinite negative => !negative
  | .finite x => tenth < x

structure Call where
  feature_filter : Text
  search_string : Text
  lat : Double
  lon : Double
  dist : Double
deriving DecidableEq

def centreSql (c : Call) (rest : Text) : Text :=
  c.lat.format ++ (", ".toList ++ (c.lon.format ++ rest))

/-- The WHERE clause from the filter on; `safe_value` is the text with its apostrophes doubled. -/
def whereSql (c : Call) : Text :=
  let safe_value := doubled c.search_string
  c.feature_filter ++ ("', featurename) > 0 AND objname LIKE '%".toList ++ (safe_value ++
    (if c.dist.aboveTenth then
      "%' AND distanceMercator(lat, lon, ".toList ++
        centreSql c (") <= ".toList ++ c.dist.format)
    else "%'".toList)))

def countHead : Text :=
  "SELECT COUNT(*) FROM object o LEFT JOIN feature f ON (o.feature_id = f.id) WHERE ".toList
    ++ "instr('".toList

def countSql (c : Call) : Text := countHead ++ whereSql c

def listHead : Text :=
  "SELECT f.featurename, o.objname, o.lat, o.lon, ch.scale, ch.nativescale, ch.chartname, ".toList
    ++ "distanceMercator(lat, lon, ".toList

def listFrom : Text :=
  ") FROM object o LEFT JOIN feature f ON (o.feature_id = f.id) LEFT JOIN chart ch ".toList
    ++ "ON (o.chart_id = ch.id) WHERE instr('".toList

def listSql (c : Call) : Text := listHead ++ centreSql c (listFrom ++ whereSql c)

/-! What the texts are read as. -/

def column (source name : String) : Expr := .column (some source.toList) name.toList

def plainColumn (name : String) : Expr := .column none name.toList

def featureJoin : Join := ⟨"feature".toList, "f".toList,
  .binary .eq (column "o" "feature_id") (column "f" "id")⟩

def chartJoin : Join := ⟨"chart".toList, "ch".toList,
  .binary .eq (column "o" "chart_id") (column "ch" "id")⟩

def number (x : ℚ) : Expr := signed (x < 0) (decimals (micros x))

/-- What `%f` is read as: `nan` and `inf` as names of columns. -/
def Double.expr : Double → Expr
  | .nan => plainColumn "nan"
  | .infinite true => .neg (plainColumn "inf")
  | .infinite false => plainColumn "inf"
  | .finite x => number x

def distanceExpr (lat lon : Expr) : Expr :=
  .call "distanceMercator".toList [plainColumn "lat", plainColumn "lon", lat, lon]

def featureCond (filter : Text) : Expr :=
  .binary .gt (.call "instr".toList [.str filter, plainColumn "featurename"]) (.num "0".toList)

def nameCond (text : Text) : Expr :=
  .binary .like (plainColumn "objname") (.str ('%' :: (text ++ ['%'])))

def nearCond (lat lon dist : ℚ) : Expr := .binary .le (distanceExpr (number lat) (number lon)) (number dist)

def nearExpr (lat lon dist : Expr) : Expr := .binary .le (distanceExpr lat lon) dist

def whereCond (filter text : Text) (lat lon : ℚ) (limit : Option ℚ) : Expr :=
  .binary .and (featureCond filter)
    (match limit with
      | none => nameCond text
      | some dist => .binary .and (nameCond text) (nearCond lat lon dist))

def whereExpr (filter text : Text) (lat lon : Expr) (limit : Option Expr) : Expr :=
  .binary .and (featureCond filter)
    (match limit with
      | none => nameCond text
      | some dist => .binary .and (nameCond text) (nearExpr lat lon dist))

def countSelect (filter text : Text) (lat lon : ℚ) (limit : Option ℚ) : Select :=
  ⟨.countAll, "object".toList, "o".toList, [featureJoin], whereCond filter text lat lon limit⟩

def resultColumns (lat lon : Expr) : List Expr :=
  [column "f" "featurename", column "o" "objname", column "o" "lat", column "o" "lon",
    column "ch" "scale", column "ch" "nativescale", column "ch" "chartname",
    distanceExpr lat lon]

def listSelect (filter text : Text) (lat lon : ℚ) (limit : Option ℚ) : Select :=
  ⟨.list (resultColumns (number lat) (number lon)), "object".toList, "o".toList,
    [featureJoin, chartJoin], whereCond filter text lat lon limit⟩

/-- The range limit as the statements have it. -/
def limitOf (dist : ℚ) : Option ℚ := if tenth < dist then some dist else none

def Double.limit (dist : Double) : Option Expr := if dist.aboveTenth then some dist.expr else none

theorem limit_finite (dist : ℚ) : (Double.finite dist).limit = (limitOf dist).map number := by
  unfold Double.limit limitOf Double.aboveTenth
  by_cases above : tenth < dist
  · simp only [above, decide_true, if_true, Option.map_some]
    rfl
  · simp only [above, decide_false, Bool.false_eq_true, if_false, Option.map_none]

theorem whereExpr_number (filter text : Text) (lat lon : ℚ) (limit : Option ℚ) :
    whereExpr filter text (number lat) (number lon) (limit.map number) =
      whereCond filter text lat lon limit := by
  cases limit <;> rfl

theorem doubled_pattern (text : Text) :
    doubled ('%' :: (text ++ ['%'])) = '%' :: (doubled text ++ ['%']) := by
  simp [doubled]

theorem lexFrom_pattern (c c' : Text) (opens : (scan c).mode = .quote [])
    (closes : ∀ s, ('\'' :: c').foldl step ⟨[], .quote s⟩ =
      ⟨(scan c').done ++ [.str s.reverse], .idle⟩) (done : List Token) (text rest : Text) :
    lexFrom done (c ++ ('%' :: (doubled text ++ ('%' :: '\'' :: c' ++ rest)))) =
      lexFrom ((scan c').done ++ .str ('%' :: (text ++ ['%'])) :: ((scan c).done ++ done)) rest := by
  have quoted := lexFrom_quoted c c' opens closes done ('%' :: (text ++ ['%'])) rest
  rw [doubled_pattern] at quoted
  simpa using quoted

theorem lexFrom_pattern_end (c : Text) (opens : (scan c).mode = .quote []) (done : List Token)
    (text : Text) : lexFrom done (c ++ ('%' :: (doubled text ++ ['%', '\'']))) =
      some (.str ('%' :: (text ++ ['%'])) :: ((scan c).done ++ done)).reverse := by
  have quoted := lexFrom_quoted_end c opens done ('%' :: (text ++ ['%']))
  rw [doubled_pattern] at quoted
  simpa using quoted

/-! The tokens of the parts, the last one first. -/

def numberDone (x : ℚ) : List Token := numberTokens (x < 0) (decimals (micros x))

def Double.done : Double → List Token
  | .nan => [.word "nan".toList]
  | .infinite true => [.word "inf".toList, .op '-']
  | .infinite false => [.word "inf".toList]
  | .finite x => numberDone x

def centreDone (lat lon : Double) : List Token :=
  lon.done ++ ((scan ", ".toList).done ++ lat.done)

def nearDone (lat lon dist : Double) : List Token :=
  dist.done ++ ((scan ") <= ".toList).done ++ (centreDone lat lon ++
    (scan "distanceMercator(lat, lon, ".toList).done))

def matchDone (filter text : Text) : List Token :=
  .str ('%' :: (text ++ ['%'])) ::
    ((scan ", featurename) > 0 AND objname LIKE ".toList).done ++ [.str filter])

def limitDone (lat lon dist : Double) : List Token :=
  if dist.aboveTenth then nearDone lat lon dist ++ [.word "AND".toList] else []

def whereDone (filter text : Text) (lat lon dist : Double) : List Token :=
  limitDone lat lon dist ++ matchDone filter text

theorem lexFrom_format (done : List Token) (d : Double) (rest : Text)
    (h : rest.head?.any isNumChar = false) :
    lexFrom done (d.format ++ rest) = lexFrom (d.done ++ done) rest := by
  have plain : rest.head?.any isIdChar = false := by
    cases rest with
    | nil => rfl
    | cons c rest =>
      have other : isNumChar c = false := h
      rw [isNumChar, decide_eq_false_iff_not, not_or, Bool.not_eq_true] at other
      exact other.1
  rcases d with _ | negative | x
  · exact lexFrom_word "nan".toList _ rfl done rest plain
  · cases negative with
    | true => exact lexFrom_word "-inf".toList _ rfl done rest plain
    | false => exact lexFrom_word "inf".toList _ rfl done rest plain
  · exact lexFrom_formatF done x rest h

theorem lexFrom_where (head : Text) (opens : (scan head).mode = .quote []) {filter : Text}
    (plain : '\'' ∉ filter) (done : List Token) (text : Text) (lat lon dist : Double) :
    lexFrom done (head ++ whereSql ⟨filter, text, lat, lon, dist⟩) =
      some (whereDone filter text lat lon dist ++ ((scan head).done ++ done)).reverse := by
  have filtered (rest : Text) := lexFrom_quoted head ", featurename) > 0 AND objname LIKE ".toList
    opens (fun _ => rfl) done filter rest
  rw [doubled_of_not_mem filter plain] at filtered
  have near (done : List Token) (rest : Text) := lexFrom_pattern "'".toList
    " AND distanceMercator(lat, lon, ".toList rfl (fun _ => rfl) done text rest
  have last (done : List Token) := lexFrom_pattern_end "'".toList rfl done text
  unfold whereSql whereDone limitDone
  cases above : dist.aboveTenth with
  | true =>
    simp only [if_true]
    refine (filtered _).trans ((near _ _).trans ?_)
    rw [← List.append_nil dist.format]
    simp only [centreSql]
    rw [lexFrom_format _ _ _ rfl, lexFrom_fixed _ rfl, lexFrom_format _ _ _ rfl,
      lexFrom_fixed _ rfl, lexFrom_format _ _ _ rfl]
    show some _ = some _
    simp only [nearDone, centreDone, matchDone, List.append_assoc, List.cons_append]
    rfl
  | false =>
    simp only [Bool.false_eq_true, if_false]
    refine (filtered _).trans ((last _).trans ?_)
    simp only [matchDone, List.append_assoc, List.cons_append, List.nil_append]
    rfl

theorem readOperand_done (n : ℕ) (d : Double) (ts : List Token) (call : ts.head? ≠ some (.op '('))
    (source : ts.head? ≠ some (.op '.')) :
    readOperand (n + 2) (d.done.reverse ++ ts) = some (d.expr, ts) := by
  have word (n : ℕ) (name : String) :
      readOperand (n + 1) (.word name.toList :: ts) = some (plainColumn name, ts) := by
    rw [readOperand]
    · rfl
    · rintro rest rfl
      exact call rfl
    · rintro name rest rfl
      exact source rfl
  have negated {e : Expr} {us : List Token} (h : readOperand (n + 1) us = some (e, ts)) :
      readOperand (n + 2) (.op '-' :: us) = some (.neg e, ts) := by
    rw [readOperand, h]
    rfl
  rcases d with _ | negative | x
  · exact word (n + 1) "nan"
  · cases negative with
    | true => exact negated (word n "inf")
    | false => exact word (n + 1) "inf"
  · simp only [Double.done, Double.expr, numberDone, number]
    cases decide (x < 0) with
    | true => exact negated rfl
    | false => rfl

theorem centre_split (lat lon : Double) (ts : List Token) :
    (centreDone lat lon).reverse ++ .op ')' :: ts =
      lat.done.reverse ++ .op ',' :: (lon.done.reverse ++ .op ')' :: ts) := by
  simp only [centreDone, List.reverse_append, List.append_assoc]
  rfl

theorem readArgs_centre (n : ℕ) (lat lon : Double) (ts : List Token) :
    readArgs (n + 4) ((centreDone lat lon).reverse ++ .op ')' :: ts) =
      some ([lat.expr, lon.expr], ts) := by
  have last : readArgs (n + 3) (lon.done.reverse ++ .op ')' :: ts) = some ([lon.expr], ts) := by
    rw [readArgs, readOperand_done n lon _ (by simp) (by simp)]
    rfl
  have both : readArgs (n + 4) (lat.done.reverse ++ .op ',' :: (lon.done.reverse ++ .op ')' :: ts)) =
      (readArgs (n + 3) (lon.done.reverse ++ .op ')' :: ts)).map
        (fun er => (lat.expr :: er.1, er.2)) := by
    rw [readArgs, readOperand_done (n + 1) lat _ (by simp) (by simp)]
    rfl
  rw [centre_split, both, last]
  rfl

theorem readOperand_distance (n : ℕ) (lat lon : Double) (ts : List Token) :
    readOperand (n + 7) (.word "distanceMercator".toList :: .op '(' :: .word "lat".toList ::
      .op ',' :: .word "lon".toList :: .op ',' :: ((centreDone lat lon).reverse ++ .op ')' :: ts)) =
      some (distanceExpr lat.expr lon.expr, ts) := by
  have centre := readArgs_centre n lat lon ts
  generalize (centreDone lat lon).reverse ++ .op ')' :: ts = us at centre ⊢
  have args : readArgs (n + 6) (.word "lat".toList :: .op ',' :: .word "lon".toList :: .op ',' :: us) =
      ((readArgs (n + 4) us).map (fun er => (plainColumn "lon" :: er.1, er.2))).map
        (fun er => (plainColumn "lat" :: er.1, er.2)) := rfl
  rw [readOperand, args, centre]
  rfl

theorem readCond_near (n : ℕ) (lat lon dist : Double) :
    readCond (n + 8) (nearDone lat lon dist).reverse =
      some (nearExpr lat.expr lon.expr dist.expr, []) := by
  have head : (scan "distanceMercator(lat, lon, ".toList).done.reverse =
      [.word "distanceMercator".toList, .op '(', .word "lat".toList, .op ',', .word "lon".toList,
        .op ','] := rfl
  have split : (nearDone lat lon dist).reverse = .word "distanceMercator".toList :: .op '(' ::
      .word "lat".toList :: .op ',' :: .word "lon".toList :: .op ',' ::
        ((centreDone lat lon).reverse ++ .op ')' :: .op '<' :: .op '=' ::
          (dist.done.reverse ++ [])) := by
    simp only [nearDone, List.reverse_append, List.append_assoc, List.append_nil, head]
    rfl
  have limit := readOperand_done (n + 5) dist [] (by simp) (by simp)
  have term : readTerm (n + 7) (nearDone lat lon dist).reverse =
      (readOperand (n + 7) (dist.done.reverse ++ [])).map
        (fun er => (nearExpr lat.expr lon.expr er.1, er.2)) := by
    rw [split, readTerm, readOperand_distance]
    rfl
  rw [readCond, term, limit]
  rfl

theorem readCond_match {n : ℕ} (filter text : Text) {ts : List Token} {e : Expr}
    (h : readCond (n + 8) ts = some (e, [])) :
    readCond (n + 10) (.word "instr".toList :: .op '(' ::
      ((matchDone filter text).reverse ++ .word "AND".toList :: ts)) =
        some (.binary .and (featureCond filter) (.binary .and (nameCond text) e), []) := by
  show ((readCond (n + 8) ts).map (fun er => (Expr.binary .and (nameCond text) er.1, er.2))).map
    (fun er => (Expr.binary .and (featureCond filter) er.1, er.2)) = _
  rw [h]
  rfl

theorem readCond_where (n : ℕ) (filter text : Text) (lat lon dist : Double) :
    readCond (n + 10) (.word "instr".toList :: .op '(' ::
      (whereDone filter text lat lon dist).reverse) =
        some (whereExpr filter text lat.expr lon.expr dist.limit, []) := by
  unfold whereDone limitDone Double.limit
  cases dist.aboveTenth with
  | false => rfl
  | true =>
    rw [if_pos rfl, List.append_assoc, List.reverse_append, List.reverse_append, List.append_assoc]
    exact readCond_match filter text (readCond_near n lat lon dist)

/-- `LEFT JOIN table name ON (o.key = name.id)` -/
def joinTokens (table name key : String) : List Token :=
  [.word "LEFT".toList, .word "JOIN".toList, .word table.toList, .word name.toList,
    .word "ON".toList, .op '(', .word "o".toList, .op '.', .word key.toList, .op '=',
    .word name.toList, .op '.', .word "id".toList, .op ')']

theorem readJoins_cons (n : ℕ) (table name key : String) (ts : List Token) :
    readJoins (n + 3) (joinTokens table name key ++ ts) = (readJoins (n + 2) ts).map (fun jr =>
      (⟨table.toList, name.toList, .binary .eq (column "o" key) (column name "id")⟩ :: jr.1,
        jr.2)) := rfl

theorem readJoins_where (n : ℕ) (ts : List Token) :
    readJoins (n + 1) (.word "WHERE".toList :: .word "instr".toList :: .op '(' :: ts) =
      some ([], .word "WHERE".toList :: .word "instr".toList :: .op '(' :: ts) := rfl

theorem readTokens_select {n : ℕ} {ts : List Token} {s : Select} (long : 2 ≤ ts.length)
    (fuel : ts.length + 1 = n) (read : readSelect n ts = some s) :
    readTokens (.word "SELECT".toList :: ts) = some (.select s) := by
  rw [readTokens.eq_2]
  · rw [if_neg (by decide), if_pos rfl, fuel, read]
    rfl
  · rintro t rfl
    rw [List.length_singleton] at long
    omega

/-! The fixed parts of the two statements. -/

theorem opens_countHead : (scan countHead).mode = .quote [] := by decide +kernel

theorem whole_listHead : (scan listHead).mode = .idle := by decide +kernel

theorem opens_listFrom : (scan listFrom).mode = .quote [] := by decide +kernel

theorem tokens_countHead :
    (scan countHead).done.reverse = .word "SELECT".toList :: .word "COUNT".toList ::
      .op '(' :: .op '*' :: .op ')' :: .word "FROM".toList :: .word "object".toList ::
      .word "o".toList :: (joinTokens "feature" "f" "feature_id" ++
        [.word "WHERE".toList, .word "instr".toList, .op '(']) := by
  decide +kernel

theorem tokens_listHead :
    (scan listHead).done.reverse = .word "SELECT".toList ::
      .word "f".toList :: .op '.' :: .word "featurename".toList :: .op ',' ::
      .word "o".toList :: .op '.' :: .word "objname".toList :: .op ',' ::
      .word "o".toList :: .op '.' :: .word "lat".toList :: .op ',' ::
      .word "o".toList :: .op '.' :: .word "lon".toList :: .op ',' ::
      .word "ch".toList :: .op '.' :: .word "scale".toList :: .op ',' ::
      .word "ch".toList :: .op '.' :: .word "nativescale".toList :: .op ',' ::
      .word "ch".toList :: .op '.' :: .word "chartname".toList :: .op ',' ::
      [.word "distanceMercator".toList, .op '(', .word "lat".toList, .op ',', .word "lon".toList,
        .op ','] := by
  decide +kernel

theorem tokens_listFrom :
    (scan listFrom).done.reverse = .op ')' :: .word "FROM".toList ::
      .word "object".toList :: .word "o".toList :: (joinTokens "feature" "f" "feature_id" ++
        (joinTokens "chart" "ch" "chart_id" ++
          [.word "WHERE".toList, .word "instr".toList, .op '('])) := by
  decide +kernel

theorem readTokens_count {ts : List Token} {e : Expr}
    (h : ∀ n, readCond (n + 10) (.word "instr".toList :: .op '(' :: ts) = some (e, [])) :
    readTokens ((scan countHead).done.reverse ++ ts) =
    some (.select ⟨.countAll, "object".toList, "o".toList, [featureJoin], e⟩) := by
  have joined (n : ℕ) : readJoins (n + 10) (joinTokens "feature" "f" "feature_id" ++
      .word "WHERE".toList :: .word "instr".toList :: .op '(' :: ts) =
      some ([featureJoin], .word "WHERE".toList :: .word "instr".toList :: .op '(' :: ts) := by
    rw [readJoins_cons, readJoins_where]
    rfl
  simp only [tokens_countHead, List.cons_append, List.append_assoc, List.nil_append]
  refine readTokens_select (n := ts.length + 15 + 10) (by simp [joinTokens]) (by simp [joinTokens]) ?_
  exact readSelect_of rfl (joined _) (h _)

theorem readList_column (n : ℕ) (source name : String) (ts : List Token) :
    readList (n + 2) (.word source.toList :: .op '.' :: .word name.toList :: .op ',' :: ts) =
      (readList (n + 1) ts).map (fun er => (column source name :: er.1, er.2)) := rfl

theorem readTokens_list {ts : List Token} {e : Expr}
    (h : ∀ n, readCond (n + 10) (.word "instr".toList :: .op '(' :: ts) = some (e, []))
    (lat lon : Double) :
    readTokens ((scan listHead).done.reverse ++ ((centreDone lat lon).reverse ++
      ((scan listFrom).done.reverse ++ ts))) =
    some (.select ⟨.list (resultColumns lat.expr lon.expr), "object".toList, "o".toList,
      [featureJoin, chartJoin], e⟩) := by
  have joined (n : ℕ) : readJoins (n + 10) (joinTokens "feature" "f" "feature_id" ++
      (joinTokens "chart" "ch" "chart_id" ++
        .word "WHERE".toList :: .word "instr".toList :: .op '(' :: ts)) =
      some ([featureJoin, chartJoin],
        .word "WHERE".toList :: .word "instr".toList :: .op '(' :: ts) := by
    rw [readJoins_cons, readJoins_cons, readJoins_where]
    rfl
  have measured (n : ℕ) (us : List Token) :
      readList (n + 8) (.word "distanceMercator".toList :: .op '(' :: .word "lat".toList ::
        .op ',' :: .word "lon".toList :: .op ',' :: ((centreDone lat lon).reverse ++
          .op ')' :: .word "FROM".toList :: us)) =
      some ([distanceExpr lat.expr lon.expr], .word "FROM".toList :: us) := by
    rw [readList, readOperand_distance]
  have columns (n : ℕ) (us : List Token) :
      readProjection (n + 20) (.word "f".toList :: .op '.' :: .word "featurename".toList ::
        .op ',' :: .word "o".toList :: .op '.' :: .word "objname".toList :: .op ',' ::
        .word "o".toList :: .op '.' :: .word "lat".toList :: .op ',' ::
        .word "o".toList :: .op '.' :: .word "lon".toList :: .op ',' ::
        .word "ch".toList :: .op '.' :: .word "scale".toList :: .op ',' ::
        .word "ch".toList :: .op '.' :: .word "nativescale".toList :: .op ',' ::
        .word "ch".toList :: .op '.' :: .word "chartname".toList :: .op ',' ::
        .word "distanceMercator".toList :: .op '(' :: .word "lat".toList :: .op ',' ::
        .word "lon".toList :: .op ',' :: ((centreDone lat lon).reverse ++ .op ')' ::
          .word "FROM".toList :: us)) =
      some (.list (resultColumns lat.expr lon.expr), .word "FROM".toList :: us) := by
    rw [readProjection.eq_2]
    · rw [readList_column, readList_column, readList_column, readList_column, readList_column,
        readList_column, readList_column, measured]
      rfl
    · simp
  simp only [tokens_listHead, tokens_listFrom, List.cons_append, List.append_assoc, List.nil_append]
  refine readTokens_select (n := (centreDone lat lon).length + ts.length + 50 + 20)
    (by simp) (by simp [joinTokens]; omega) ?_
  exact readSelect_of (columns _ _) (joined _) (h _)

theorem readSql_countSql_double {filter : Text} (plain : '\'' ∉ filter) (text : Text)
    (lat lon dist : Double) :
    readSql (countSql ⟨filter, text, lat, lon, dist⟩) =
      some (.select ⟨.countAll, "object".toList, "o".toList, [featureJoin],
        whereExpr filter text lat.expr lon.expr dist.limit⟩) := by
  have read := readTokens_count (fun n => readCond_where n filter text lat lon dist)
  rw [readSql, lex, countSql, lexFrom_where countHead opens_countHead plain, List.reverse_append,
    List.append_nil, Option.bind_some, read]

theorem readSql_listSql_double {filter : Text} (plain : '\'' ∉ filter) (text : Text)
    (lat lon dist : Double) :
    readSql (listSql ⟨filter, text, lat, lon, dist⟩) =
      some (.select ⟨.list (resultColumns lat.expr lon.expr), "object".toList, "o".toList,
        [featureJoin, chartJoin], whereExpr filter text lat.expr lon.expr dist.limit⟩) := by
  have read := readTokens_list (fun n => readCond_where n filter text lat lon dist) lat lon
  rw [readSql, lex, listSql]
  simp only [centreSql]
  rw [lexFrom_fixed listHead whole_listHead, lexFrom_format _ _ _ rfl, lexFrom_fixed _ rfl,
    lexFrom_format _ _ _ rfl, lexFrom_where listFrom opens_listFrom plain]
  simp only [centreDone, List.reverse_append, List.append_assoc, List.append_nil] at read ⊢
  rw [Option.bind_some, read]

theorem readSql_countSql {filter : Text} (plain : '\'' ∉ filter) (text : Text)
    (lat lon dist : ℚ) :
    readSql (countSql ⟨filter, text, .finite lat, .finite lon, .finite dist⟩) =
      some (.select (countSelect filter text lat lon (limitOf dist))) := by
  rw [readSql_countSql_double plain, limit_finite, Double.expr, Double.expr, whereExpr_number]
  rfl

theorem readSql_listSql {filter : Text} (plain : '\'' ∉ filter) (text : Text)
    (lat lon dist : ℚ) :
    readSql (listSql ⟨filter, text, .finite lat, .finite lon, .finite dist⟩) =
      some (.select (listSelect filter text lat lon (limitOf dist))) := by
  rw [readSql_listSql_double plain, limit_finite, Double.expr, Double.expr, whereExpr_number]
  rfl

end ObjSearch.Search.Statements
