/- SELECT over named tables: names resolved first, then left joins, WHERE and result columns.
   digest: A count and a list with one WHERE clause agree where no row raises an error. -/

import ObjSearch.Lib.Relational
import ObjSearch.Sql.Read

set_option autoImplicit false
set_option relaxedAutoImplicit false

namespace ObjSearch.Sql.Query

open ObjSearch.Lib.Texts (Text)
open ObjSearch.Lib.Relational
open ObjSearch.Sql.Eval
open ObjSearch.Sql.Read

structure Table where
  columns : List Text
  rows : List (List Value)

structure Catalog where
  table : Text → Option Table
  argCount : Text → Option ℕ
  call : Text → List Value → Except Error Value

/-- A row of a FROM clause: source, name and value of each column. -/
abbrev Row := List (Text × Text × Value)

def sourceRow (source : Text) (columns : List Text) (vs : List Value) : Row :=
  (columns.zip vs).map (fun cv => (source, cv.1, cv.2))

def nulls (columns : List Text) : List Value := columns.map (fun _ => .null)

/-- The column a name stands for; without a source it must be the only one of its name. -/
def columnValue (row : Row) (source : Option Text) (name : Text) : Except Error Value :=
  match row.filter (fun c => c.2.1 = name ∧ source.all (fun s => s = c.1)) with
  | [c] => .ok c.2.2
  | [] => .error (.noSuchColumn name)
  | _ => .error (.ambiguousColumn name)

def Catalog.context (cat : Catalog) (row : Row) : Context := ⟨columnValue row, cat.call⟩

def Catalog.scope (cat : Catalog) (row : Row) : Scope where
  column source name := (columnValue row source name).map (fun _ => ())
  call f n := match cat.argCount f with
    | none => .error (.noSuchFunction f)
    | some k => if k = n then .ok () else .error (.wrongArgumentCount f)

def Catalog.find (cat : Catalog) (name : Text) : Except Error Table :=
  match cat.table name with
  | some t => .ok t
  | none => .error (.noSuchTable name)

/-- Whether a condition is true of a row; unknown is not true. -/
def holds (cat : Catalog) (e : Expr) (row : Row) : Except Error Bool := do
  let v ← eval (cat.context row) e
  let b ← truth v
  return b = some true

def form (cat : Catalog) : List Join → Row → Except Error Row
  | [], row => .ok row
  | j :: js, row => do
      let t ← cat.find j.table
      let wider := row ++ sourceRow j.name t.columns (nulls t.columns)
      resolve (cat.scope wider) j.on
      form cat js wider

def prepare (cat : Catalog) (s : Select) : Except Error Unit := do
  let t ← cat.find s.table
  let row ← form cat s.joins (sourceRow s.name t.columns (nulls t.columns))
  match s.projection with
  | .countAll => resolve (cat.scope row) s.cond
  | .list es => do
      resolveAll (cat.scope row) es
      resolve (cat.scope row) s.cond

/-- The rows after the joins, in the order of nested loops; a left row without a match is
joined with NULLs. -/
def joinAll (cat : Catalog) : List Join → List Row → Except Error (List Row)
  | [], rows => .ok rows
  | j :: js, rows => do
      let t ← cat.find j.table
      let on (row : Row) (vs : List Value) :=
        holds cat j.on (row ++ sourceRow j.name t.columns vs)
      let joined ← leftJoin on t.rows rows
      joinAll cat js
        (joined.map (fun rv => rv.1 ++ sourceRow j.name t.columns (rv.2.getD (nulls t.columns))))

def result (cat : Catalog) (cond : Expr) (es : List Expr) (row : Row) :
    Except Error (Option (List Value)) := do
  let selected ← holds cat cond row
  if selected then return some (← evalAll (cat.context row) es) else return none

def counted (c : Cursor Error (List Value)) : Cursor Error (List Value) :=
  match c.stopped with
  | some e => ⟨[], some e⟩
  | none => ⟨[[.int c.rows.length]], none⟩

def select (cat : Catalog) (s : Select) : Except Error (Cursor Error (List Value)) := do
  prepare cat s
  let t ← cat.find s.table
  let rows ← joinAll cat s.joins (t.rows.map (sourceRow s.name t.columns))
  match s.projection with
  | .countAll => return counted (scan (result cat s.cond []) rows)
  | .list es => return scan (result cat s.cond es) rows

def firstStep (c : Cursor Error (List Value)) : Except Error (Cursor Error (List Value)) :=
  match c.stopped, c.rows with
  | some e, [] => .error e
  | _, _ => .ok c

/-- `Database::ExecuteQuery`: prepare the statement and step to its first row, or throw. -/
def executeQuery (cat : Catalog) (sql : Text) : Except Error (Cursor Error (List Value)) :=
  match readSql sql with
  | some (.select s) => do firstStep (← select cat s)
  | _ => .error .unreadable

/-- The row that the FROM clause makes of one row of its first table, where WHERE is true. -/
def Satisfies (cat : Catalog) (sql : Text) (vs : List Value) : Prop :=
  ∃ s t row, readSql sql = some (.select s) ∧ cat.find s.table = .ok t ∧
    joinAll cat s.joins [sourceRow s.name t.columns vs] = .ok [row] ∧
    holds cat s.cond row = .ok true

theorem holds_of_eval {cat : Catalog} {e : Expr} {row : Row} {b : Option Bool}
    (h : eval (cat.context row) e = .ok (.ofTruth b)) :
    holds cat e row = .ok (decide (b = some true)) := by
  simp only [holds, h, truth_ofTruth, bind, Except.bind]
  rfl

/-- A left join on a unique key of its table adds to each row the columns of the row its
reference names, or NULLs; `f` and `g` are the rows of both sides. -/
theorem joinAll_cons {γ δ κ : Type} [DecidableEq κ] {cat : Catalog} {j : Join} (js : List Join)
    {t : Table} (found : cat.find j.table = .ok t) (f : γ → Row) (g : δ → List Value)
    (ref : γ → Option κ) (key : δ → κ) (as : List γ) {bs : List δ} (rows : t.rows = bs.map g)
    (unique : (bs.map key).Nodup)
    (on : ∀ a ∈ as, ∀ b ∈ bs, holds cat j.on (f a ++ sourceRow j.name t.columns (g b)) =
      .ok (decide (ref a = some (key b)))) :
    joinAll cat (j :: js) (as.map f) = joinAll cat js (as.map (fun a =>
      f a ++ sourceRow j.name t.columns (((match_ key bs (ref a)).map g).getD (nulls t.columns)))) := by
  have joined := leftJoin_unique
    (p := fun row vs => holds cat j.on (row ++ sourceRow j.name t.columns vs))
    f g ref key as unique on
  simp only [joinAll, found, bind, Except.bind, rows, joined, List.map_map]
  rfl

theorem exists_of_holds {cat : Catalog} {e : Expr} {row : Row} (h : holds cat e row = .ok true) :
    ∃ v, eval (cat.context row) e = .ok v ∧ truth v = .ok (some true) := by
  obtain ⟨v, value, h⟩ := bind_eq_ok.mp h
  obtain ⟨b, known, h⟩ := bind_eq_ok.mp h
  have true_ := of_decide_eq_true (Except.ok.inj h)
  exact ⟨v, value, by rw [known, true_]⟩

theorem exists_joined_of_mem_rows {cat : Catalog} {sql : Text} {s : Select} {es : List Expr}
    {set : Cursor Error (List Value)} {vs : List Value} (read : readSql sql = some (.select s))
    (list : s.projection = .list es) (ran : executeQuery cat sql = .ok set) (h : vs ∈ set.rows) :
    ∃ t rows, cat.find s.table = .ok t ∧
      joinAll cat s.joins (t.rows.map (sourceRow s.name t.columns)) = .ok rows ∧
      ∃ row ∈ rows, holds cat s.cond row = .ok true ∧ evalAll (cat.context row) es = .ok vs := by
  rw [executeQuery, read] at ran
  obtain ⟨c, selected, stepped⟩ := bind_eq_ok.mp ran
  have same : c = set := by
    unfold firstStep at stepped
    split at stepped
    · cases stepped
    · exact Except.ok.inj stepped
  subst same
  rw [select] at selected
  obtain ⟨_, -, selected⟩ := bind_eq_ok.mp selected
  obtain ⟨t, table, selected⟩ := bind_eq_ok.mp selected
  obtain ⟨rows, joined, selected⟩ := bind_eq_ok.mp selected
  rw [list] at selected
  rw [← Except.ok.inj selected] at h
  obtain ⟨row, here, made⟩ := exists_of_mem_scan h
  obtain ⟨b, cond, made⟩ := bind_eq_ok.mp made
  cases b with
  | false => cases made
  | true =>
    obtain ⟨us, values, made⟩ := bind_eq_ok.mp made
    obtain rfl := Option.some.inj (Except.ok.inj made)
    exact ⟨t, rows, table, joined, row, here, cond, values⟩

theorem exists_of_mem_rows {cat : Catalog} {sql : Text} {s : Select} {es : List Expr}
    {set : Cursor Error (List Value)} {vs : List Value} (read : readSql sql = some (.select s))
    (list : s.projection = .list es) (ran : executeQuery cat sql = .ok set) (h : vs ∈ set.rows) :
    ∃ row, holds cat s.cond row = .ok true ∧ evalAll (cat.context row) es = .ok vs := by
  obtain ⟨_, _, -, -, row, -, cond, values⟩ := exists_joined_of_mem_rows read list ran h
  exact ⟨row, cond, values⟩

variable {cat : Catalog} {s : Select} {t : Table} {α : Type} {xs : List α} (row : α → Row)
  {selected : α → Bool}

theorem result_eq_ok {e : Expr} {es : List Expr} {r : Row} {b : Bool} {vs : List Value}
    (cond : holds cat e r = .ok b) (list : evalAll (cat.context r) es = .ok vs) :
    result cat e es r = .ok (if b then some vs else none) := by
  rw [result, cond]
  cases b with
  | false => rfl
  | true => simp only [bind, Except.bind, list]; rfl

theorem scan_result_eq {e : Expr} {es : List Expr}
    (none_ : ∀ x ∈ xs, holds cat e (row x) ≠ .ok true) :
    ∃ stopped, scan (result cat e es) (xs.map row) = ⟨[], stopped⟩ := by
  have empty : (scan (result cat e es) (xs.map row)).rows = [] := by
    apply rows_scan_eq_nil
    rintro _ here vs made
    obtain ⟨x, hx, rfl⟩ := List.mem_map.mp here
    obtain ⟨b, held, made⟩ := bind_eq_ok.mp made
    cases b with
    | false => cases made
    | true => exact none_ x hx held
  exact ⟨(scan (result cat e es) (xs.map row)).stopped, by rw [← empty]⟩

variable {sql : Text} (read : readSql sql = some (.select s))
  (prepared : prepare cat s = .ok ()) (found : cat.find s.table = .ok t)
  (joined : joinAll cat s.joins (t.rows.map (sourceRow s.name t.columns)) = .ok (xs.map row))

include read prepared found joined

/-- Where WHERE is true of no joined row, a list is empty or fails. -/
theorem executeQuery_list_of_none {es : List Expr} (list : s.projection = .list es)
    (none_ : ∀ x ∈ xs, holds cat s.cond (row x) ≠ .ok true) :
    executeQuery cat sql = .ok ⟨[], none⟩ ∨ ∃ e, executeQuery cat sql = .error e := by
  obtain ⟨stopped, empty⟩ := @scan_result_eq cat _ xs row s.cond es none_
  have ran : select cat s = .ok ⟨[], stopped⟩ := by
    simp only [select, prepared, found, joined, list, bind, Except.bind, pure, Except.pure, empty]
  simp only [executeQuery, read, ran, bind, Except.bind]
  cases stopped with
  | none => exact .inl rfl
  | some e => exact .inr ⟨e, rfl⟩

theorem executeQuery_countAll_of_none (count : s.projection = .countAll)
    (none_ : ∀ x ∈ xs, holds cat s.cond (row x) ≠ .ok true) :
    executeQuery cat sql = .ok ⟨[[.int 0]], none⟩ ∨ ∃ e, executeQuery cat sql = .error e := by
  obtain ⟨stopped, empty⟩ := @scan_result_eq cat _ xs row s.cond [] none_
  have ran : select cat s = .ok (counted ⟨[], stopped⟩) := by
    simp only [select, prepared, found, joined, count, bind, Except.bind, pure, Except.pure, empty]
  simp only [executeQuery, read, ran, bind, Except.bind]
  cases stopped with
  | none => exact .inl rfl
  | some e => exact .inr ⟨e, rfl⟩

variable (cond : ∀ x ∈ xs, holds cat s.cond (row x) = .ok (selected x))

include cond

theorem executeQuery_list {es : List Expr} {out : α → List Value}
    (list : s.projection = .list es)
    (outs : ∀ x ∈ xs, evalAll (cat.context (row x)) es = .ok (out x)) :
    executeQuery cat sql = .ok ⟨(xs.filter selected).map out, none⟩ := by
  have scanned := scan_map row (fun x hx => result_eq_ok (cond x hx) (outs x hx))
  have ran : select cat s = .ok ⟨(xs.filter selected).map out, none⟩ := by
    simp only [select, prepared, found, joined, list, bind, Except.bind, pure, Except.pure, scanned]
  simp only [executeQuery, read, ran, bind, Except.bind]
  rfl

theorem executeQuery_countAll (count : s.projection = .countAll) :
    executeQuery cat sql = .ok ⟨[[.int (xs.filter selected).length]], none⟩ := by
  have each : ∀ x ∈ xs,
      result cat s.cond [] (row x) = .ok (if selected x then some [] else none) :=
    fun x hx => result_eq_ok (cond x hx) rfl
  have scanned := scan_map row each
  have ran : select cat s = .ok ⟨[[.int (xs.filter selected).length]], none⟩ := by
    simp only [select, prepared, found, joined, count, bind, Except.bind, pure, Except.pure,
      scanned, counted, List.length_map]
  simp only [executeQuery, read, ran, bind, Except.bind]
  rfl

end ObjSearch.Sql.Query
