/- Object names and search texts inside the statements that are built around them.
   digest: Whatever they are, each is the value of one string literal, and the rest of the
   statement is the same as around the empty text. -/

import ObjSearch.Index.Storage
import ObjSearch.Search.Statements
import ObjSearch.Sql.Shape

set_option autoImplicit false
set_option relaxedAutoImplicit false

namespace ObjSearch.Search.Quoting

open ObjSearch.Lib.Texts (Text)
open ObjSearch.Lib.Printf
open ObjSearch.Sql.Lexer
open ObjSearch.Sql.Read
open ObjSearch.Sql.Shape
open ObjSearch.Index.Storage
open ObjSearch.Search.Statements

def shape (s : Stmt) : Stmt := onStmt (fun _ => []) s

/-- Around every `s` the text is one statement in which one string literal has this value; the
tokens before and behind it, and the shape of the statement, are those of the empty text. -/
def Embeds (sql value : Text → Text) : Prop :=
  ∃ before after, ∀ s,
    lex (sql s) = some (before ++ .str (value s) :: after) ∧
    statements (sql s) = [some (before ++ .str (value s) :: after)] ∧
    ∃ stmt, readSql (sql s) = some stmt ∧ (readSql (sql [])).map shape = some (shape stmt)

/-- The tokens are given the last one first. -/
theorem embeds_of_lex {sql value : Text → Text} (after before : List Token)
    (done : ∀ s, lex (sql s) = some (after ++ .str (value s) :: before).reverse)
    (oneBefore : .op ';' ∉ before) (oneAfter : .op ';' ∉ after)
    (readable : ∀ s, (readSql (sql s)).isSome) : Embeds sql value := by
  have lexed (s : Text) :
      lex (sql s) = some (before.reverse ++ .str (value s) :: after.reverse) := by
    rw [done, List.reverse_append, List.reverse_cons, List.append_assoc]
    rfl
  refine ⟨before.reverse, after.reverse, fun s => ⟨lexed s, statements_of_lex (lexed s) ?_, ?_⟩⟩
  · simp [oneBefore, oneAfter]
  · obtain ⟨stmt, read⟩ := Option.isSome_iff_exists.mp (readable s)
    refine ⟨stmt, read, ?_⟩
    -- with its values erased, the list of tokens is the same for all texts
    have erased (t : Text) : (readSql (sql t)).map shape =
        readTokens ((before.reverse ++ .str [] :: after.reverse).map (onToken fun _ => [])) := by
      have same : (before.reverse ++ .str [] :: after.reverse).map (onToken fun _ => []) =
          (before.reverse ++ .str (value t) :: after.reverse).map (onToken fun _ => []) := by
        rw [List.map_append, List.map_append]
        rfl
      rw [same, readTokens_onToken, readSql, lexed t]
      rfl
    rw [erased, ← erased s, read, Option.map_some]

theorem semicolon_notMem_done (d : Double) : .op ';' ∉ d.done := by
  rcases d with _ | negative | x
  · decide
  · cases negative <;> decide
  · exact semicolon_notMem_numberTokens _ _

theorem semicolon_notMem_centreDone (lat lon : Double) : .op ';' ∉ centreDone lat lon := by
  have comma : .op ';' ∉ (scan ", ".toList).done := by decide
  simp only [centreDone, List.mem_append, semicolon_notMem_done, comma, or_self, not_false_eq_true]

theorem semicolon_notMem_limitDone (lat lon dist : Double) :
    .op ';' ∉ limitDone lat lon dist := by
  have compare : .op ';' ∉ (scan ") <= ".toList).done := by decide
  have head : .op ';' ∉ (scan "distanceMercator(lat, lon, ".toList).done := by decide +kernel
  unfold limitDone
  split_ifs
  · simp only [nearDone, List.mem_append, List.mem_singleton, semicolon_notMem_done,
      semicolon_notMem_centreDone, compare, head, reduceCtorEq, or_self, not_false_eq_true]
  · exact List.not_mem_nil

def filterDone (filter : Text) : List Token :=
  (scan ", featurename) > 0 AND objname LIKE ".toList).done ++ [.str filter]

theorem semicolon_notMem_filterDone (filter : Text) : .op ';' ∉ filterDone filter := by
  have fixed : .op ';' ∉ (scan ", featurename) > 0 AND objname LIKE ".toList).done := by
    decide +kernel
  simp only [filterDone, List.mem_append, List.mem_singleton, fixed, reduceCtorEq, or_self,
    not_false_eq_true]

theorem embeds_insertObjectSql (chart_id feature_id : ℤ) (lat lon : ℚ) :
    Embeds (fun s => insertObjectSql chart_id feature_id s lat lon) id := by
  have whole := semicolon_notMem_objectDone chart_id feature_id [] lat lon
  simp only [objectDone, List.mem_reverse, List.mem_cons, List.mem_append, not_or] at whole
  obtain ⟨bracket, lonOne, comma, latOne, -, -, quote, featureOne, -, chartOne, head⟩ := whole
  apply embeds_of_lex
    (.op ')' :: (numberTokens (lon < 0) (decimals (micros lon)) ++
      ((scan ", ".toList).done ++ (numberTokens (lat < 0) (decimals (micros lat)) ++
        (scan ", ".toList).done))))
    ((scan ", '".toList).done ++
      (numberTokens (feature_id < 0) (digits feature_id.natAbs) ++ ((scan ", ".toList).done ++
        (numberTokens (chart_id < 0) (digits chart_id.natAbs) ++ (scan
          "INSERT INTO object(chart_id, feature_id, objname, lat, lon) VALUES (".toList).done))))
  · intro s
    rw [lex_insertObjectSql]
    simp only [objectDone, List.append_assoc, List.cons_append, id]
  · simp only [List.mem_append, quote, featureOne, comma, chartOne, head, or_self,
      not_false_eq_true]
  · simp only [List.mem_cons, List.mem_append, bracket, lonOne, comma, latOne, or_self,
      not_false_eq_true]
  · intro s
    rw [readSql, lex_insertObjectSql, Option.bind_some, readTokens_objectDone]
    rfl

theorem whereDone_eq (filter text : Text) (lat lon dist : Double) (done : List Token) :
    whereDone filter text lat lon dist ++ done =
      limitDone lat lon dist ++ .str ('%' :: (text ++ ['%'])) :: (filterDone filter ++ done) := by
  rw [whereDone, List.append_assoc]
  rfl

theorem embeds_countSql {filter : Text} (plain : '\'' ∉ filter) (lat lon dist : Double) :
    Embeds (fun s => countSql ⟨filter, s, lat, lon, dist⟩) (fun s => '%' :: (s ++ ['%'])) := by
  have head : .op ';' ∉ (scan countHead).done := by
    rw [← List.mem_reverse, tokens_countHead]
    simp [joinTokens]
  apply embeds_of_lex (limitDone lat lon dist)
    (filterDone filter ++ ((scan countHead).done ++ []))
  · intro s
    rw [lex, countSql, lexFrom_where countHead opens_countHead plain, whereDone_eq]
  · simp only [List.mem_append, semicolon_notMem_filterDone, head, List.not_mem_nil, or_self,
      not_false_eq_true]
  · exact semicolon_notMem_limitDone lat lon dist
  · intro s
    rw [readSql_countSql_double plain]
    rfl

theorem embeds_listSql {filter : Text} (plain : '\'' ∉ filter) (lat lon dist : Double) :
    Embeds (fun s => listSql ⟨filter, s, lat, lon, dist⟩) (fun s => '%' :: (s ++ ['%'])) := by
  have head : .op ';' ∉ (scan listHead).done := by
    rw [← List.mem_reverse, tokens_listHead]
    simp
  have from_ : .op ';' ∉ (scan listFrom).done := by
    rw [← List.mem_reverse, tokens_listFrom]
    simp [joinTokens]
  have comma : .op ';' ∉ (scan ", ".toList).done := by decide
  apply embeds_of_lex (limitDone lat lon dist)
    (filterDone filter ++ ((scan listFrom).done ++ (lon.done ++ ((scan ", ".toList).done ++
      (lat.done ++ ((scan listHead).done ++ []))))))
  · intro s
    rw [lex, listSql, lexFrom_fixed listHead whole_listHead, centreSql, lexFrom_format _ _ _ rfl,
      lexFrom_fixed _ rfl, lexFrom_format _ _ _ rfl, lexFrom_where listFrom opens_listFrom plain,
      whereDone_eq]
  · simp only [List.mem_append, semicolon_notMem_filterDone, semicolon_notMem_done, head, from_,
      comma, List.not_mem_nil, or_self, not_false_eq_true]
  · exact semicolon_notMem_limitDone lat lon dist
  · intro s
    rw [readSql_listSql_double plain]
    rfl

/-- An object's name in its INSERT and a search text in both SELECTs are no more than a value,
whatever is in them. -/
theorem embeds_everywhere (chart_id feature_id : ℤ) (objlat objlon : ℚ) {filter : Text}
    (plain : '\'' ∉ filter) (lat lon dist : Double) :
    Embeds (fun objname => insertObjectSql chart_id feature_id objname objlat objlon) id ∧
      Embeds (fun search_string => countSql ⟨filter, search_string, lat, lon, dist⟩)
        (fun search_string => '%' :: (search_string ++ ['%'])) ∧
      Embeds (fun search_string => listSql ⟨filter, search_string, lat, lon, dist⟩)
        (fun search_string => '%' :: (search_string ++ ['%'])) :=
  ⟨embeds_insertObjectSql chart_id feature_id objlat objlon, embeds_countSql plain lat lon dist,
    embeds_listSql plain lat lon dist⟩

theorem embeds_everywhere_noFixYet :
    Embeds (fun objname => insertObjectSql 1 2 objname 10 20) id ∧
      Embeds (fun search_string => countSql ⟨"LIGHTS".toList, search_string, .nan, .nan, .finite 5⟩)
        (fun search_string => '%' :: (search_string ++ ['%'])) ∧
      Embeds (fun search_string => listSql ⟨"LIGHTS".toList, search_string, .nan, .nan, .finite 5⟩)
        (fun search_string => '%' :: (search_string ++ ['%'])) :=
  embeds_everywhere 1 2 10 20 (by decide) .nan .nan (.finite 5)

end ObjSearch.Search.Quoting
