/- Chart names, feature names and the feature filter, which are put between apostrophes as they are.
   digest: Each reaches the database as it is, in a statement of its own, exactly where it has no
   apostrophe. -/

import ObjSearch.Index.Effect
import ObjSearch.Search.Completeness
import ObjSearch.Search.Quoting

set_option autoImplicit false
set_option relaxedAutoImplicit false

namespace ObjSearch.Search.Verbatim

open Std (ExtTreeMap)
open ObjSearch.Lib.Texts
open ObjSearch.Sql.Lexer
open ObjSearch.Sql.Eval
open ObjSearch.Sql.Read
open ObjSearch.Index.Storage
open ObjSearch.Index.Notify
open ObjSearch.Index.Effect
open ObjSearch.Search.CheckList
open ObjSearch.Search.Statements
open ObjSearch.Search.Completeness
open ObjSearch.Search.Quoting

/-- The text is one INSERT of one row into the table, with this literal in the column. -/
def Stores (sql : Text) (table column : String) (name : Text) : Prop :=
  ∃ ts i, statements sql = [some ts] ∧ readTokens ts = some (.insert i) ∧ i.table = table.toList ∧
    i.columns.length = i.values.length ∧
      (i.columns.zip i.values).lookup column.toList = some (.str name)

/-- The statement of `StoreNewChart` stores the name of the chart, and cannot fail. -/
def ChartVerbatim (chartname : Text) : Prop :=
  ∀ scale nativescale,
    Stores (insertChartSql chartname scale nativescale) "chart" "chartname" chartname ∧
      ∀ s : Plugin,
        (queryDB s (insertChartSql chartname scale nativescale)).dbUsable = s.dbUsable

def FeatureVerbatim (feature : Text) : Prop :=
  Stores (insertFeatureSql feature) "feature" "featurename" feature ∧
    ∀ s : Plugin, (queryDB s (insertFeatureSql feature)).dbUsable = s.dbUsable

def firstLiteral (ts : List Token) : Option Text :=
  ts.findSome? fun t => match t with
    | .str s => some s
    | _ => none

/-- The text is one SELECT, the one intended, whose first literal is the filter. -/
def Selects (sql filter : Text) (s : Select) : Prop :=
  ∃ ts, statements sql = [some ts] ∧ firstLiteral ts = some filter ∧
    readTokens ts = some (.select s)

def FilterVerbatim (filter : Text) : Prop :=
  ∀ search_string lat lon dist,
    Selects (countSql ⟨filter, search_string, lat, lon, dist⟩) filter
      ⟨.countAll, "object".toList, "o".toList, [featureJoin],
        whereExpr filter search_string lat.expr lon.expr dist.limit⟩ ∧
    Selects (listSql ⟨filter, search_string, lat, lon, dist⟩) filter
      ⟨.list (resultColumns lat.expr lon.expr), "object".toList, "o".toList,
        [featureJoin, chartJoin], whereExpr filter search_string lat.expr lon.expr dist.limit⟩

/-- What is stored in the first column as it is has no apostrophe: `head` opens its literal. -/
theorem notMem_of_stores {head name tail table : Text} {table_ column : String}
    {ns : List Token} (opens : (scan head).mode = .quote [])
    (begins : (scan head).done.reverse =
      .word "INSERT".toList :: .word "INTO".toList :: .word table :: .op '(' :: ns)
    (names : ∀ v rest, ∃ columns, readNames (ns ++ .str v :: rest) =
      some (column.toList :: columns, .word "VALUES".toList :: .op '(' :: .str v :: rest))
    (other : tail.head? ≠ some '\'')
    (stores : Stores (head ++ (name ++ '\'' :: tail)) table_ column name) : '\'' ∉ name := by
  obtain ⟨ts, i, one, read, -, -, stored⟩ := stores
  obtain ⟨v, rest, later, text, tokens⟩ := literal_of_lexFrom head opens (lex_of_statements one)
  rw [List.append_nil, begins] at tokens
  subst tokens
  obtain ⟨columns, first⟩ := names v later
  obtain ⟨es, named_, values⟩ := readInsert_str first read
  rw [named_, values, List.zip_cons_cons, List.lookup_cons_self] at stored
  obtain rfl := Expr.str.inj (Option.some.inj stored)
  exact notMem_of_doubled other text.symm

theorem chartVerbatim_iff (chartname : Text) : ChartVerbatim chartname ↔ '\'' ∉ chartname := by
  have opens : (scan "INSERT INTO chart(chartname, scale, nativescale) VALUES ('".toList).mode =
      .quote [] := by
    decide +kernel
  have begins : (scan
      "INSERT INTO chart(chartname, scale, nativescale) VALUES ('".toList).done.reverse =
      [.word "INSERT".toList, .word "INTO".toList, .word "chart".toList, .op '(',
        .word "chartname".toList, .op ',', .word "scale".toList, .op ',',
        .word "nativescale".toList, .op ')', .word "VALUES".toList, .op '('] := by
    decide +kernel
  constructor
  · intro verbatim
    exact notMem_of_stores opens begins (fun _ _ => ⟨_, rfl⟩) (by decide) (verbatim 0 0).1
  · intro plain scale nativescale
    refine ⟨⟨_, _, statements_of_lex (lex_insertChartSql chartname scale nativescale plain)
      (semicolon_notMem_chartDone chartname scale nativescale),
      readTokens_chartDone chartname scale nativescale, rfl, rfl, rfl⟩, ?_⟩
    intro s
    rw [queryDB, executeUpdate_insertChartSql s.db chartname scale nativescale plain]

theorem featureVerbatim_iff (feature : Text) : FeatureVerbatim feature ↔ '\'' ∉ feature := by
  have opens : (scan "INSERT INTO feature(featurename) VALUES ('".toList).mode = .quote [] := by
    decide +kernel
  have begins : (scan "INSERT INTO feature(featurename) VALUES ('".toList).done.reverse =
      [.word "INSERT".toList, .word "INTO".toList, .word "feature".toList, .op '(',
        .word "featurename".toList, .op ')', .word "VALUES".toList, .op '('] := by
    decide +kernel
  constructor
  · rintro ⟨stores, -⟩
    exact notMem_of_stores opens begins (fun _ _ => ⟨_, rfl⟩) (by decide) stores
  · intro plain
    refine ⟨⟨_, _, statements_of_lex (lex_insertFeatureSql feature plain)
      (semicolon_notMem_featureDone feature), readTokens_featureDone feature, rfl, rfl, rfl⟩, ?_⟩
    intro s
    rw [queryDB, executeUpdate_insertFeatureSql s.db feature plain]

theorem firstLiteral_append (ts us : List Token) :
    firstLiteral (ts ++ us) = (firstLiteral ts).or (firstLiteral us) :=
  List.findSome?_append

theorem firstLiteral_done (d : Double) : firstLiteral d.done.reverse = none := by
  rcases d with _ | negative | x
  · rfl
  · cases negative <;> rfl
  · rw [Double.done, numberDone, numberTokens]
    split_ifs <;> rfl

theorem firstLiteral_filterDone (filter : Text) :
    firstLiteral (filterDone filter).reverse = some filter := by
  rw [filterDone, List.reverse_append]
  rfl

theorem selects_countSql {filter : Text} (plain : '\'' ∉ filter) (search_string : Text)
    (lat lon dist : Double) :
    Selects (countSql ⟨filter, search_string, lat, lon, dist⟩) filter
      ⟨.countAll, "object".toList, "o".toList, [featureJoin],
        whereExpr filter search_string lat.expr lon.expr dist.limit⟩ := by
  have head : firstLiteral (scan countHead).done.reverse = none := by
    rw [tokens_countHead]
    rfl
  have read := readSql_countSql_double plain search_string lat lon dist
  obtain ⟨before, after, whole⟩ := embeds_countSql plain lat lon dist
  obtain ⟨lexed, one, -⟩ := whole search_string
  rw [readSql, lexed] at read
  refine ⟨_, one, ?_, read⟩
  change lex (countSql ⟨filter, search_string, lat, lon, dist⟩) = some _ at lexed
  rw [lex, countSql, lexFrom_where countHead opens_countHead plain, whereDone_eq] at lexed
  rw [← Option.some.inj lexed]
  simp only [List.reverse_append, List.reverse_cons, List.append_assoc, firstLiteral_append,
    firstLiteral_filterDone, head, List.append_nil, Option.none_or, Option.some_or]

theorem selects_listSql {filter : Text} (plain : '\'' ∉ filter) (search_string : Text)
    (lat lon dist : Double) :
    Selects (listSql ⟨filter, search_string, lat, lon, dist⟩) filter
      ⟨.list (resultColumns lat.expr lon.expr), "object".toList, "o".toList,
        [featureJoin, chartJoin],
        whereExpr filter search_string lat.expr lon.expr dist.limit⟩ := by
  have head : firstLiteral (scan listHead).done.reverse = none := by
    rw [tokens_listHead]
    rfl
  have comma : firstLiteral (scan ", ".toList).done.reverse = none := by decide
  have from_ : firstLiteral (scan listFrom).done.reverse = none := by
    rw [tokens_listFrom]
    rfl
  have read := readSql_listSql_double plain search_string lat lon dist
  obtain ⟨before, after, whole⟩ := embeds_listSql plain lat lon dist
  obtain ⟨lexed, one, -⟩ := whole search_string
  rw [readSql, lexed] at read
  refine ⟨_, one, ?_, read⟩
  change lex (listSql ⟨filter, search_string, lat, lon, dist⟩) = some _ at lexed
  rw [lex, listSql, lexFrom_fixed listHead whole_listHead, centreSql, lexFrom_format _ _ _ rfl,
    lexFrom_fixed _ rfl, lexFrom_format _ _ _ rfl, lexFrom_where listFrom opens_listFrom plain,
    whereDone_eq] at lexed
  rw [← Option.some.inj lexed]
  simp only [List.reverse_append, List.reverse_cons, List.append_assoc, firstLiteral_append,
    firstLiteral_filterDone, firstLiteral_done, head, comma, from_, List.append_nil,
    Option.none_or, Option.some_or]

theorem whereSql_split (c : Call) :
    ∃ rest, whereSql c = c.feature_filter ++ '\'' :: ',' :: rest := by
  have closing : "', featurename) > 0 AND objname LIKE '%".toList =
      '\'' :: ',' :: " featurename) > 0 AND objname LIKE '%".toList := by
    decide +kernel
  rw [whereSql, closing, List.cons_append, List.cons_append]
  exact ⟨_, rfl⟩

theorem filterVerbatim_iff (filter : Text) : FilterVerbatim filter ↔ '\'' ∉ filter := by
  have head : firstLiteral (scan countHead).done.reverse = none := by
    rw [tokens_countHead]
    rfl
  constructor
  · intro verbatim
    obtain ⟨⟨ts, one, first, -⟩, -⟩ := verbatim [] .nan .nan .nan
    obtain ⟨v, rest, later, text, tokens⟩ :=
      literal_of_lexFrom _ opens_countHead (lex_of_statements one)
    rw [tokens, List.append_nil, firstLiteral_append, head] at first
    obtain rfl := Option.some.inj first
    obtain ⟨rest', split⟩ := whereSql_split ⟨v, [], .nan, .nan, .nan⟩
    have other : (',' :: rest').head? ≠ some '\'' := by simp
    exact notMem_of_doubled other (text.symm.trans split)
  · intro plain search_string lat lon dist
    exact ⟨selects_countSql plain search_string lat lon dist,
      selects_listSql plain search_string lat lon dist⟩

/-- A name reaches the database as it is exactly where it has no apostrophe; the filter exactly
where none of the checked features has one. -/
theorem verbatim_iff (getName : Text → Text) :
    (∀ chart, ChartVerbatim (getName chart) ↔ '\'' ∉ getName chart) ∧
      (∀ feature, FeatureVerbatim feature ↔ '\'' ∉ feature) ∧
      ∀ (before : Popup) (featuresInDb : ExtTreeMap Text ℤ) (clicks : List ℕ),
        (clicked before featuresInDb clicks).getStringValue =
            some (joined ',' (clicked before featuresInDb clicks).chosen) ∧
          (FilterVerbatim (joined ',' (clicked before featuresInDb clicks).chosen) ↔
            ∀ name ∈ (clicked before featuresInDb clicks).chosen, '\'' ∉ name) := by
  refine ⟨fun chart => chartVerbatim_iff _, featureVerbatim_iff, ?_⟩
  intro before featuresInDb clicks
  refine ⟨Popup.getStringValue_eq (clicked_consistent before featuresInDb clicks), ?_⟩
  rw [filterVerbatim_iff, not_mem_joined_iff (by decide)]

theorem capAgde_is_not_verbatim :
    ¬ ChartVerbatim "Cap d'Agde".toList ∧ ¬ FeatureVerbatim "Cap d'Agde".toList ∧
      ¬ FilterVerbatim "Cap d'Agde".toList ∧
      ∀ s : Plugin, (queryDB s (insertFeatureSql "Cap d'Agde".toList)).dbUsable = false := by
  have quote : '\'' ∈ "Cap d'Agde".toList := by decide
  refine ⟨fun h => (chartVerbatim_iff _).mp h quote, fun h => (featureVerbatim_iff _).mp h quote,
    fun h => (filterVerbatim_iff _).mp h quote, ?_⟩
  intro s
  -- the literal ends at the apostrophe, and the one behind the name opens another
  have open_ : statements (insertFeatureSql "Cap d'Agde".toList) = [none] := by decide +kernel
  rw [queryDB, Database.executeUpdate, open_]
  rfl

end ObjSearch.Search.Verbatim
