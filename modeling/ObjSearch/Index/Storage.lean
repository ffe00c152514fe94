/- The plugin's database: three tables, and the INSERT statements it receives as text.
   digest: Each INSERT text the plugin builds adds exactly the row it was built for, where the names
   that it does not escape are free of apostrophes. -/

import ObjSearch.Lib.Tables
import ObjSearch.Sql.Read

set_option autoImplicit false
set_option relaxedAutoImplicit false

namespace ObjSearch.Index.Storage

open ObjSearch.Lib.Texts (Text)
open ObjSearch.Lib.Printf
open ObjSearch.Lib.Tables
open ObjSearch.Sql.Lexer
open ObjSearch.Sql.Eval
open ObjSearch.Sql.Read

/-- `chart (id INTEGER PRIMARY KEY AUTOINCREMENT, chartname TEXT, scale REAL,
nativescale INTEGER)`; `none` is NULL. -/
structure ChartRow where
  chartname : Option Text
  scale : Option ℚ
  nativescale : Option ℤ
deriving DecidableEq

/-- `feature (id INTEGER PRIMARY KEY AUTOINCREMENT, featurename TEXT)` -/
structure FeatureRow where
  featurename : Option Text
deriving DecidableEq

/-- `object (chart_id INTEGER, feature_id INTEGER, objname TEXT, lat REAL, lon REAL)` -/
structure ObjectRow where
  chart_id : Option ℤ
  feature_id : Option ℤ
  objname : Option Text
  lat : Option ℚ
  lon : Option ℚ
deriving DecidableEq

/-- One connection: its tables and the register `sqlite3_last_insert_rowid` reads. -/
structure Database where
  chart : AutoTable ChartRow
  feature : AutoTable FeatureRow
  object : KeyedTable ObjectRow
  lastRowId : ℤ

/-- The database right after the CREATE TABLE statements of `initDB`. -/
def Database.created : Database := ⟨.empty, .empty, .empty, 0⟩

def constants : Context where
  column _ name := .error (.noSuchColumn name)
  call f _ := .error (.noSuchFunction f)

def given (i : Insert) (vs : List Value) (name : String) : Value :=
  ((i.columns.zip vs).lookup name.toList).getD .null

def asText : Value → Except Error (Option Text)
  | .null => .ok none
  | .text s => .ok (some s)
  | _ => .error .mismatch

def asInt : Value → Except Error (Option ℤ)
  | .null => .ok none
  | .int n => .ok (some n)
  | _ => .error .mismatch

def asReal : Value → Except Error (Option ℚ)
  | .null => .ok none
  | .int n => .ok (some n)
  | .real q => .ok (some q)
  | .text _ => .error .mismatch

def checkColumns (i : Insert) (vs : List Value) (names : List String) : Except Error Unit :=
  if i.columns.length ≠ vs.length then .error .unreadable
  else match i.columns.find? (fun c => c ∉ names.map String.toList) with
    | some c => .error (.noSuchColumn c)
    | none => .ok ()

def insertRow (db : Database) (i : Insert) (vs : List Value) : Except Error Database :=
  if i.table = "chart".toList then do
    checkColumns i vs ["id", "chartname", "scale", "nativescale"]
    let row : ChartRow := ⟨← asText (given i vs "chartname"), ← asReal (given i vs "scale"),
      ← asInt (given i vs "nativescale")⟩
    return { db with chart := db.chart.insert row, lastRowId := db.chart.newId }
  else if i.table = "feature".toList then do
    checkColumns i vs ["id", "featurename"]
    let row : FeatureRow := ⟨← asText (given i vs "featurename")⟩
    return { db with feature := db.feature.insert row, lastRowId := db.feature.newId }
  else if i.table = "object".toList then do
    checkColumns i vs ["chart_id", "feature_id", "objname", "lat", "lon"]
    let row : ObjectRow := ⟨← asInt (given i vs "chart_id"), ← asInt (given i vs "feature_id"),
      ← asText (given i vs "objname"), ← asReal (given i vs "lat"), ← asReal (given i vs "lon")⟩
    return { db with object := db.object.insert row, lastRowId := db.object.nextId }
  else .error (.noSuchTable i.table)

def Database.execute (db : Database) (ts : List Token) : Except Error Database :=
  match readTokens ts with
  | none => .error .unreadable
  | some (.insert i) => do insertRow db i (← evalAll constants i.values)
  | some _ => .ok db

/-- `sqlite3_exec`: one statement after the other, empty ones left out. The first error ends the
script; what the statements before it have done stays. -/
def Database.executeAll (db : Database) :
    List (Option (List Token)) → Except (Error × Database) Database
  | [] => .ok db
  | none :: _ => .error (.unreadable, db)
  | some [] :: rest => db.executeAll rest
  | some ts :: rest =>
    match db.execute ts with
    | .ok db => db.executeAll rest
    | .error e => .error (e, db)

/-- `Database::ExecuteUpdate`, or what it throws and the database that it leaves. -/
def Database.executeUpdate (db : Database) (sql : Text) : Except (Error × Database) Database :=
  db.executeAll (statements sql)

/-! The texts that `wxString::Format` builds. -/

def insertChartSql (chartname : Text) (scale : ℚ) (nativescale : ℤ) : Text :=
  "INSERT INTO chart(chartname, scale, nativescale) VALUES ('".toList ++
    (chartname ++ ("', ".toList ++ (formatF scale ++ (", ".toList ++
      (formatI nativescale ++ ")".toList)))))

def insertFeatureSql (featurename : Text) : Text :=
  "INSERT INTO feature(featurename) VALUES ('".toList ++ (featurename ++ "')".toList)

/-- `safe_value` is the object's name with its apostrophes doubled. -/
def insertObjectSql (chart_id feature_id : ℤ) (objname : Text) (lat lon : ℚ) : Text :=
  "INSERT INTO object(chart_id, feature_id, objname, lat, lon) VALUES (".toList ++
    (formatI chart_id ++ (", ".toList ++ (formatI feature_id ++ (", '".toList ++
      (doubled objname ++ ("', ".toList ++ (formatF lat ++ (", ".toList ++
        (formatF lon ++ ")".toList)))))))))

def objectRow (chart_id feature_id : ℤ) (objname : Text) (lat lon : ℚ) : ObjectRow :=
  ⟨some chart_id, some feature_id, some objname, some (written lat), some (written lon)⟩

def chartRow (chartname : Text) (scale : ℚ) (nativescale : ℤ) : ChartRow :=
  ⟨some chartname, some (written scale), some nativescale⟩

/-! The tokens of the three texts, the last one first. -/

def chartDone (chartname : Text) (scale : ℚ) (nativescale : ℤ) : List Token :=
  .op ')' :: (numberTokens (nativescale < 0) (digits nativescale.natAbs) ++
    ((scan ", ".toList).done ++ (numberTokens (scale < 0) (decimals (micros scale)) ++
      ((scan ", ".toList).done ++ .str chartname ::
        (scan "INSERT INTO chart(chartname, scale, nativescale) VALUES ('".toList).done))))

def featureDone (featurename : Text) : List Token :=
  .op ')' :: .str featurename :: (scan "INSERT INTO feature(featurename) VALUES ('".toList).done

def objectDone (chart_id feature_id : ℤ) (objname : Text) (lat lon : ℚ) : List Token :=
  .op ')' :: (numberTokens (lon < 0) (decimals (micros lon)) ++ ((scan ", ".toList).done ++
    (numberTokens (lat < 0) (decimals (micros lat)) ++ ((scan ", ".toList).done ++ .str objname ::
      ((scan ", '".toList).done ++ (numberTokens (feature_id < 0) (digits feature_id.natAbs) ++
        ((scan ", ".toList).done ++ (numberTokens (chart_id < 0) (digits chart_id.natAbs) ++
          (scan "INSERT INTO object(chart_id, feature_id, objname, lat, lon) VALUES (".toList).done
            ))))))))

theorem lex_insertChartSql (chartname : Text) (scale : ℚ) (nativescale : ℤ)
    (plain : '\'' ∉ chartname) :
    lex (insertChartSql chartname scale nativescale) =
      some (chartDone chartname scale nativescale).reverse := by
  have lexed := lexFrom_quoted "INSERT INTO chart(chartname, scale, nativescale) VALUES ('".toList
    ", ".toList rfl (fun _ => rfl) [] chartname
    (formatF scale ++ (", ".toList ++ (formatI nativescale ++ ")".toList)))
  rw [doubled_of_not_mem chartname plain, List.append_nil] at lexed
  unfold lex insertChartSql
  refine lexed.trans ?_
  rw [lexFrom_formatF _ _ _ rfl, lexFrom_fixed _ rfl, lexFrom_formatI _ _ _ rfl]
  rfl

theorem lex_insertFeatureSql (featurename : Text) (plain : '\'' ∉ featurename) :
    lex (insertFeatureSql featurename) = some (featureDone featurename).reverse := by
  have lexed := lexFrom_quoted "INSERT INTO feature(featurename) VALUES ('".toList
    ")".toList rfl (fun _ => rfl) [] featurename []
  rw [doubled_of_not_mem featurename plain, List.append_nil] at lexed
  exact lexed

theorem lex_insertObjectSql (chart_id feature_id : ℤ) (objname : Text) (lat lon : ℚ) :
    lex (insertObjectSql chart_id feature_id objname lat lon) =
      some (objectDone chart_id feature_id objname lat lon).reverse := by
  have quoted (done : List Token) (rest : Text) := lexFrom_quoted ", '".toList ", ".toList rfl
    (fun _ => rfl) done objname rest
  unfold lex insertObjectSql
  rw [lexFrom_fixed _ rfl, lexFrom_formatI _ _ _ rfl, lexFrom_fixed _ rfl,
    lexFrom_formatI _ _ _ rfl]
  refine (quoted _ _).trans ?_
  rw [lexFrom_formatF _ _ _ rfl, lexFrom_fixed _ rfl, lexFrom_formatF _ _ _ rfl, List.append_nil]
  rfl

theorem semicolon_notMem_chartDone (chartname : Text) (scale : ℚ) (nativescale : ℤ) :
    .op ';' ∉ (chartDone chartname scale nativescale).reverse := by
  have comma : .op ';' ∉ (scan ", ".toList).done := by decide
  have head :
      .op ';' ∉ (scan "INSERT INTO chart(chartname, scale, nativescale) VALUES ('".toList).done := by
    decide +kernel
  simp only [chartDone, List.mem_reverse, List.mem_cons, List.mem_append,
    semicolon_notMem_numberTokens, comma, head, Token.op.injEq, reduceCtorEq, Char.reduceEq,
    or_self, not_false_eq_true]

theorem semicolon_notMem_featureDone (featurename : Text) :
    .op ';' ∉ (featureDone featurename).reverse := by
  have head : .op ';' ∉ (scan "INSERT INTO feature(featurename) VALUES ('".toList).done := by
    decide +kernel
  simp only [featureDone, List.mem_reverse, List.mem_cons, head, Token.op.injEq, reduceCtorEq,
    Char.reduceEq, or_self, not_false_eq_true]

theorem semicolon_notMem_objectDone (chart_id feature_id : ℤ) (objname : Text) (lat lon : ℚ) :
    .op ';' ∉ (objectDone chart_id feature_id objname lat lon).reverse := by
  have comma : .op ';' ∉ (scan ", ".toList).done := by decide
  have quote : .op ';' ∉ (scan ", '".toList).done := by decide
  have head : .op ';' ∉ (scan
      "INSERT INTO object(chart_id, feature_id, objname, lat, lon) VALUES (".toList).done := by
    decide +kernel
  simp only [objectDone, List.mem_reverse, List.mem_cons, List.mem_append,
    semicolon_notMem_numberTokens, comma, quote, head, Token.op.injEq, reduceCtorEq, Char.reduceEq,
    or_self, not_false_eq_true]

theorem readTokens_chartDone (chartname : Text) (scale : ℚ) (nativescale : ℤ) :
    readTokens (chartDone chartname scale nativescale).reverse = some (.insert
      ⟨"chart".toList, ["chartname".toList, "scale".toList, "nativescale".toList],
        [.str chartname, signed (scale < 0) (decimals (micros scale)),
          signed (nativescale < 0) (digits nativescale.natAbs)]⟩) := by
  unfold chartDone
  generalize decimals (micros scale) = w
  generalize digits nativescale.natAbs = w'
  cases decide (scale < 0) <;> cases decide (nativescale < 0) <;> rfl

theorem readTokens_featureDone (featurename : Text) :
    readTokens (featureDone featurename).reverse = some (.insert
      ⟨"feature".toList, ["featurename".toList], [.str featurename]⟩) := rfl

set_option maxRecDepth 2000 in
theorem readTokens_objectDone (chart_id feature_id : ℤ) (objname : Text) (lat lon : ℚ) :
    readTokens (objectDone chart_id feature_id objname lat lon).reverse = some (.insert
      ⟨"object".toList, ["chart_id".toList, "feature_id".toList, "objname".toList, "lat".toList,
          "lon".toList],
        [signed (chart_id < 0) (digits chart_id.natAbs),
          signed (feature_id < 0) (digits feature_id.natAbs), .str objname,
          signed (lat < 0) (decimals (micros lat)), signed (lon < 0) (decimals (micros lon))]⟩) := by
  unfold objectDone
  generalize decimals (micros lat) = w
  generalize decimals (micros lon) = w'
  generalize digits chart_id.natAbs = w''
  generalize digits feature_id.natAbs = w'''
  cases decide (chart_id < 0) <;> cases decide (feature_id < 0) <;> cases decide (lat < 0) <;>
    cases decide (lon < 0) <;> rfl

theorem executeUpdate_insert {db db' : Database} {sql : Text} {done : List Token} {i : Insert}
    {vs : List Value} (lexed : lex sql = some done.reverse) (one : .op ';' ∉ done.reverse)
    (read : readTokens done.reverse = some (.insert i))
    (values : evalAll constants i.values = .ok vs) (inserted : insertRow db i vs = .ok db') :
    db.executeUpdate sql = .ok db' := by
  rw [Database.executeUpdate, statements_of_lex lexed one]
  generalize done.reverse = ts at read
  have executed : db.execute ts = .ok db' := by
    rw [Database.execute, read]
    show (evalAll constants i.values).bind (insertRow db i) = _
    rw [values]
    exact inserted
  cases ts with
  | nil => cases read
  | cons t ts => simp only [Database.executeAll, executed]

theorem executeUpdate_insertChartSql (db : Database) (chartname : Text) (scale : ℚ)
    (nativescale : ℤ) (plain : '\'' ∉ chartname) :
    db.executeUpdate (insertChartSql chartname scale nativescale) =
      .ok { db with
        chart := db.chart.insert (chartRow chartname scale nativescale)
        lastRowId := db.chart.newId } := by
  have values : evalAll constants [.str chartname,
      signed (scale < 0) (decimals (micros scale)),
      signed (nativescale < 0) (digits nativescale.natAbs)] =
      .ok [.text chartname, .real (written scale), .int nativescale] := by
    simp only [evalAll, eval_formatF, eval_formatI]
    rfl
  exact executeUpdate_insert (lex_insertChartSql chartname scale nativescale plain)
    (semicolon_notMem_chartDone chartname scale nativescale)
    (readTokens_chartDone chartname scale nativescale) values rfl

theorem executeUpdate_insertFeatureSql (db : Database) (featurename : Text)
    (plain : '\'' ∉ featurename) :
    db.executeUpdate (insertFeatureSql featurename) =
      .ok { db with
        feature := db.feature.insert ⟨some featurename⟩
        lastRowId := db.feature.newId } :=
  executeUpdate_insert (lex_insertFeatureSql featurename plain)
    (semicolon_notMem_featureDone featurename) (readTokens_featureDone featurename) rfl rfl

theorem executeUpdate_insertObjectSql (db : Database) (chart_id feature_id : ℤ)
    (objname : Text) (lat lon : ℚ) :
    db.executeUpdate (insertObjectSql chart_id feature_id objname lat lon) =
      .ok { db with
        object := db.object.insert (objectRow chart_id feature_id objname lat lon)
        lastRowId := db.object.nextId } := by
  have values : evalAll constants [signed (chart_id < 0) (digits chart_id.natAbs),
      signed (feature_id < 0) (digits feature_id.natAbs), .str objname,
      signed (lat < 0) (decimals (micros lat)), signed (lon < 0) (decimals (micros lon))] =
      .ok [.int chart_id, .int feature_id, .text objname, .real (written lat),
        .real (written lon)] := by
    simp only [evalAll, eval_formatF, eval_formatI]
    rfl
  exact executeUpdate_insert (lex_insertObjectSql chart_id feature_id objname lat lon)
    (semicolon_notMem_objectDone chart_id feature_id objname lat lon)
    (readTokens_objectDone chart_id feature_id objname lat lon) values rfl

end ObjSearch.Index.Storage
