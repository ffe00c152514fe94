/- The statements of the program, read from their tokens.
   digest: INSERT of one row, SELECT over left joins, BEGIN and COMMIT; other SQL is unreadable. A
   script is split at its semicolons. -/

import ObjSearch.Sql.Lexer
import ObjSearch.Sql.Eval

set_option autoImplicit false
set_option relaxedAutoImplicit false

namespace ObjSearch.Sql.Read

open ObjSearch.Lib.Texts (Text)
open ObjSearch.Lib.Printf
open ObjSearch.Sql.Lexer
open ObjSearch.Sql.Eval

inductive Projection where
  | countAll
  | list (es : List Expr)

structure Join where
  table : Text
  name : Text
  on : Expr

/-- `SELECT projection FROM table name LEFT JOIN ... WHERE cond` -/
structure Select where
  projection : Projection
  table : Text
  name : Text
  joins : List Join
  cond : Expr

/-- `INSERT INTO table(columns) VALUES (values)` -/
structure Insert where
  table : Text
  columns : List Text
  values : List Expr

inductive Stmt where
  | insert (i : Insert)
  | select (s : Select)
  | begin
  | commit

mutual

/-- An operand: a literal, a column, a call or a negated operand. -/
def readOperand : ℕ → List Token → Option (Expr × List Token)
  | n + 1, .op '-' :: ts => (readOperand n ts).map (fun er => (.neg er.1, er.2))
  | _ + 1, .num w :: ts => some (.num w, ts)
  | _ + 1, .str s :: ts => some (.str s, ts)
  | n + 1, .word f :: .op '(' :: ts => (readArgs n ts).map (fun er => (.call f er.1, er.2))
  | _ + 1, .word source :: .op '.' :: .word name :: ts => some (.column (some source) name, ts)
  | _ + 1, .word name :: ts => some (.column none name, ts)
  | _, _ => none

def readArgs : ℕ → List Token → Option (List Expr × List Token)
  | n + 1, ts => match readOperand n ts with
    | some (e, .op ',' :: rest) => (readArgs n rest).map (fun er => (e :: er.1, er.2))
    | some (e, .op ')' :: rest) => some ([e], rest)
    | _ => none
  | 0, _ => none

end

def readTerm (n : ℕ) (ts : List Token) : Option (Expr × List Token) :=
  let with_ (op : Op) (a : Expr) (rest : List Token) :=
    (readOperand n rest).map (fun er => (Expr.binary op a er.1, er.2))
  match readOperand n ts with
  | some (a, .op '=' :: rest) => with_ .eq a rest
  | some (a, .op '>' :: rest) => with_ .gt a rest
  | some (a, .op '<' :: .op '=' :: rest) => with_ .le a rest
  | some (a, .word w :: rest) =>
      if w = "LIKE".toList then with_ .like a rest else some (a, .word w :: rest)
  | other => other

/-- Terms joined by AND. -/
def readCond : ℕ → List Token → Option (Expr × List Token)
  | 0, _ => none
  | n + 1, ts => match readTerm n ts with
    | some (a, .word w :: rest) =>
        if w = "AND".toList then
          (readCond n rest).map (fun er => (Expr.binary .and a er.1, er.2))
        else some (a, .word w :: rest)
    | other => other

def readList : ℕ → List Token → Option (List Expr × List Token)
  | 0, _ => none
  | n + 1, ts => match readOperand n ts with
    | some (e, .op ',' :: rest) => (readList n rest).map (fun er => (e :: er.1, er.2))
    | some (e, rest) => some ([e], rest)
    | none => none

def readNames : List Token → Option (List Text × List Token)
  | .word w :: .op ',' :: ts => (readNames ts).map (fun wr => (w :: wr.1, wr.2))
  | .word w :: .op ')' :: ts => some ([w], ts)
  | _ => none

def readJoins : ℕ → List Token → Option (List Join × List Token)
  | n + 1, .word l :: .word j :: .word table :: .word name :: .word o :: .op '(' :: ts =>
      if l = "LEFT".toList ∧ j = "JOIN".toList ∧ o = "ON".toList then
        match readCond n ts with
        | some (on, .op ')' :: rest) =>
            (readJoins n rest).map (fun jr => (⟨table, name, on⟩ :: jr.1, jr.2))
        | _ => none
      else none
  | _ + 1, ts => some ([], ts)
  | 0, _ => none

def readProjection (n : ℕ) : List Token → Option (Projection × List Token)
  | .word f :: .op '(' :: .op '*' :: .op ')' :: ts =>
      if f = "COUNT".toList then some (.countAll, ts) else none
  | ts => (readList n ts).map (fun er => (.list er.1, er.2))

def readSelect (n : ℕ) (ts : List Token) : Option Select :=
  match readProjection n ts with
  | some (projection, .word f :: .word table :: .word name :: rest) =>
      if f = "FROM".toList then
        match readJoins n rest with
        | some (joins, .word w :: rest) =>
            if w = "WHERE".toList then
              match readCond n rest with
              | some (cond, []) => some ⟨projection, table, name, joins, cond⟩
              | _ => none
            else none
        | _ => none
      else none
  | _ => none

def readInsert (n : ℕ) : List Token → Option Insert
  | .word i :: .word table :: .op '(' :: ts =>
      if i = "INTO".toList then
        match readNames ts with
        | some (columns, .word v :: .op '(' :: rest) =>
            if v = "VALUES".toList then
              match readArgs n rest with
              | some (values, []) => some ⟨table, columns, values⟩
              | _ => none
            else none
        | _ => none
      else none
  | _ => none

def readTokens (ts : List Token) : Option Stmt :=
  match ts with
  | [.word w, .word t] =>
      if w = "BEGIN".toList ∧ t = "TRANSACTION".toList then some .begin
      else if w = "COMMIT".toList ∧ t = "TRANSACTION".toList then some .commit
      else none
  | .word w :: rest =>
      if w = "INSERT".toList then (readInsert (rest.length + 1) rest).map .insert
      else if w = "SELECT".toList then (readSelect (rest.length + 1) rest).map .select
      else none
  | _ => none

def readSql (t : Text) : Option Stmt := (lex t).bind readTokens

/-- The statements of a script, by their tokens; `none` where one ends inside a literal. -/
def statements (t : Text) : List (Option (List Token)) :=
  match lex t with
  | some ts => (ts.splitOn (.op ';')).map some
  | none => ((scan t).done.reverse.splitOn (.op ';')).dropLast.map some ++ [none]

theorem statements_of_lex {t : Text} {ts : List Token} (lexed : lex t = some ts)
    (one : .op ';' ∉ ts) : statements t = [some ts] := by
  rw [statements, lexed]
  show (ts.splitOn _).map some = _
  rw [List.splitOn_eq_singleton one]
  rfl

theorem lex_of_statements {t : Text} {ts : List Token} (one : statements t = [some ts]) :
    lex t = some ts := by
  unfold statements at one
  cases lexed : lex t with
  | none =>
    rw [lexed] at one
    have last := congrArg List.getLast? one
    rw [List.getLast?_concat] at last
    cases last
  | some us =>
    rw [lexed] at one
    obtain ⟨piece, split, same⟩ := List.map_eq_singleton_iff.mp one
    have whole : [Token.op ';'].intercalate (us.splitOn (.op ';')) = us :=
      List.intercalate_splitOn _
    rw [split] at whole
    rw [← whole, ← Option.some.inj same]
    exact congrArg some (List.append_nil piece)

theorem readArgs_str {n : ℕ} {v : Text} {ts rest : List Token} {es : List Expr}
    (read : readArgs n (.str v :: ts) = some (es, rest)) : ∃ es', es = .str v :: es' := by
  rcases n with _ | _ | n
  · cases read
  · cases read
  · have operand : readOperand (n + 1) (.str v :: ts) = some (.str v, ts) := rfl
    rw [readArgs, operand] at read
    split at read
    · next e us same =>
      obtain ⟨more, -, read⟩ := Option.map_eq_some_iff.mp read
      obtain ⟨rfl, -⟩ := Prod.mk.inj (Option.some.inj same)
      exact ⟨more.1, (Prod.mk.inj read).1.symm⟩
    · next e us same =>
      obtain ⟨rfl, -⟩ := Prod.mk.inj (Option.some.inj same)
      exact ⟨[], (Prod.mk.inj (Option.some.inj read)).1.symm⟩
    · cases read

theorem readInsert_str {table v : Text} {columns : List Text} {ts rest : List Token} {i : Insert}
    (names : readNames ts = some (columns, .word "VALUES".toList :: .op '(' :: .str v :: rest))
    (read : readTokens (.word "INSERT".toList :: .word "INTO".toList :: .word table :: .op '(' :: ts) =
      some (.insert i)) : ∃ es, i.columns = columns ∧ i.values = .str v :: es := by
  rw [readTokens.eq_2 _ _ (by simp), if_pos rfl] at read
  obtain ⟨i', inserted, same⟩ := Option.map_eq_some_iff.mp read
  obtain rfl := Stmt.insert.inj same
  rw [readInsert.eq_1, if_pos rfl, names] at inserted
  change (match readArgs _ (.str v :: rest) with
    | some (values, []) => some ⟨table, columns, values⟩
    | _ => none) = some i' at inserted
  split at inserted
  · next values args =>
    obtain ⟨es, rfl⟩ := readArgs_str args
    rw [← Option.some.inj inserted]
    exact ⟨es, rfl, rfl⟩
  · cases inserted

theorem readSelect_of {n : ℕ} {projection : Projection} {table name : Text} {joins : List Join}
    {cond : Expr} {ts us vs : List Token}
    (columns : readProjection n ts =
      some (projection, .word "FROM".toList :: .word table :: .word name :: us))
    (joined : readJoins n us = some (joins, .word "WHERE".toList :: vs))
    (condition : readCond n vs = some (cond, [])) :
    readSelect n ts = some ⟨projection, table, name, joins, cond⟩ := by
  rw [readSelect, columns]
  show (match readJoins n us with | some (joins, .word w :: rest) => _ | _ => none) = _
  rw [joined]
  show (match readCond n vs with | some (cond, []) => _ | _ => none) = _
  rw [condition]

end ObjSearch.Sql.Read
