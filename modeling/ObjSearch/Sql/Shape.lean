/- Statements up to the values of their string literals.
   digest: Reading a statement from its tokens commutes with any change of these values. -/

import ObjSearch.Sql.Read

set_option autoImplicit false
set_option relaxedAutoImplicit false

namespace ObjSearch.Sql.Shape

open ObjSearch.Lib.Texts (Text)
open ObjSearch.Sql.Lexer
open ObjSearch.Sql.Eval
open ObjSearch.Sql.Read

variable (f : Text → Text)

def onToken : Token → Token
  | .str s => .str (f s)
  | t => t

mutual

def onExpr : Expr → Expr
  | .num w => .num w
  | .str s => .str (f s)
  | .column source name => .column source name
  | .neg e => .neg (onExpr e)
  | .call g args => .call g (onExprs args)
  | .binary op a b => .binary op (onExpr a) (onExpr b)

def onExprs : List Expr → List Expr
  | [] => []
  | e :: es => onExpr e :: onExprs es

end

def onProjection : Projection → Projection
  | .countAll => .countAll
  | .list es => .list (onExprs f es)

def onJoin (j : Join) : Join := { j with on := onExpr f j.on }

def onSelect (s : Select) : Select :=
  { s with
    projection := onProjection f s.projection
    joins := s.joins.map (onJoin f)
    cond := onExpr f s.cond }

def onInsert (i : Insert) : Insert := { i with values := onExprs f i.values }

def onStmt : Stmt → Stmt
  | .insert i => .insert (onInsert f i)
  | .select s => .select (onSelect f s)
  | .begin => .begin
  | .commit => .commit

def onRead {α : Type} (g : α → α) (r : α × List Token) : α × List Token :=
  (g r.1, r.2.map (onToken f))

variable {f} in
theorem word_of_map {ts us : List Token} {w : Text} (h : ts.map (onToken f) = .word w :: us) :
    ∃ vs, ts = .word w :: vs ∧ vs.map (onToken f) = us := by
  obtain ⟨t, vs, rfl, word, rfl⟩ := List.map_eq_cons_iff.mp h
  cases t with
  | word w' => exact ⟨vs, congrArg (· :: vs) word, rfl⟩
  | num w => cases word
  | str s => cases word
  | op c => cases word

variable {f} in
theorem op_of_map {ts us : List Token} {c : Char} (h : ts.map (onToken f) = .op c :: us) :
    ∃ vs, ts = .op c :: vs ∧ vs.map (onToken f) = us := by
  obtain ⟨t, vs, rfl, op, rfl⟩ := List.map_eq_cons_iff.mp h
  cases t with
  | op c' => exact ⟨vs, congrArg (· :: vs) op, rfl⟩
  | word w => cases op
  | num w => cases op
  | str s => cases op

/-- What is made of a result may be renamed before or after it is made. -/
theorem map_map_of_eq {α β γ δ : Type} {x : Option α} {y : Option β} {p : α → β} {g : β → δ}
    {h : α → γ} {q : γ → δ} (read : y = x.map p) (same : ∀ a, g (p a) = q (h a)) :
    y.map g = (x.map h).map q := by
  rw [read, Option.map_map, Option.map_map]
  exact congrArg (fun k => x.map k) (funext same)

theorem readOperand_readArgs (n : ℕ) (ts : List Token) :
    readOperand n (ts.map (onToken f)) = (readOperand n ts).map (onRead f (onExpr f)) ∧
      readArgs n (ts.map (onToken f)) = (readArgs n ts).map (onRead f (onExprs f)) := by
  induction n generalizing ts with
  | zero => exact ⟨rfl, rfl⟩
  | succ n ih =>
    constructor
    · rcases ts with _ | ⟨t, ts⟩
      · rfl
      · cases t with
        | num w => rfl
        | str s => rfl
        | op c =>
          by_cases minus : c = '-'
          · subst minus
            show (readOperand n (ts.map (onToken f))).map _ = ((readOperand n ts).map _).map _
            exact map_map_of_eq (ih ts).1 (fun _ => rfl)
          · simp [readOperand, onToken, minus]
        | word g =>
          rcases ts with _ | ⟨u, ts⟩
          · rfl
          · cases u with
            | num w => rfl
            | str s => rfl
            | word w => rfl
            | op c =>
              by_cases bracket : c = '('
              · subst bracket
                show (readArgs n (ts.map (onToken f))).map _ = ((readArgs n ts).map _).map _
                exact map_map_of_eq (ih ts).2 (fun _ => rfl)
              · by_cases point : c = '.'
                · subst point
                  rcases ts with _ | ⟨v, ts⟩
                  · rfl
                  · cases v <;> rfl
                · simp [readOperand, onToken, onRead, onExpr, bracket, point]
    · rw [readArgs, readArgs, (ih ts).1]
      cases readOperand n ts with
      | none => rfl
      | some r =>
        obtain ⟨e, rest⟩ := r
        rcases rest with _ | ⟨t, rest⟩
        · rfl
        · cases t with
          | num w => rfl
          | str s => rfl
          | word w => rfl
          | op c =>
            by_cases comma : c = ','
            · subst comma
              show (readArgs n (rest.map (onToken f))).map _ = ((readArgs n rest).map _).map _
              exact map_map_of_eq (ih rest).2 (fun _ => rfl)
            · by_cases bracket : c = ')'
              · subst bracket
                rfl
              · simp [onRead, onToken, comma, bracket]

theorem readTerm_onToken (n : ℕ) (ts : List Token) :
    readTerm n (ts.map (onToken f)) = (readTerm n ts).map (onRead f (onExpr f)) := by
  have operand (ts : List Token) := (readOperand_readArgs f n ts).1
  have compared (op : Op) (a : Expr) (rest : List Token) :
      (readOperand n (rest.map (onToken f))).map
          (fun er => (Expr.binary op (onExpr f a) er.1, er.2)) =
        ((readOperand n rest).map (fun er => (Expr.binary op a er.1, er.2))).map
          (onRead f (onExpr f)) :=
    map_map_of_eq (operand rest) (fun _ => rfl)
  rw [readTerm, readTerm, operand]
  cases readOperand n ts with
  | none => rfl
  | some r =>
    obtain ⟨a, rest⟩ := r
    rcases rest with _ | ⟨t, rest⟩
    · rfl
    · cases t with
      | num w => rfl
      | str s => rfl
      | word w =>
        by_cases like : w = "LIKE".toList
        · subst like
          exact compared .like a rest
        · show (if w = "LIKE".toList then _ else _) =
            Option.map _ (if w = "LIKE".toList then _ else _)
          rw [if_neg like, if_neg like]
          rfl
      | op c =>
        by_cases eq : c = '='
        · subst eq
          exact compared .eq a rest
        · by_cases gt : c = '>'
          · subst gt
            exact compared .gt a rest
          · by_cases lt : c = '<'
            · subst lt
              rcases rest with _ | ⟨u, rest⟩
              · rfl
              · cases u with
                | num w => rfl
                | str s => rfl
                | word w => rfl
                | op d =>
                  by_cases eq : d = '='
                  · subst eq
                    exact compared .le a rest
                  · simp [onRead, onToken, eq]
            · simp [onRead, onToken, eq, gt, lt]

theorem readCond_onToken (n : ℕ) (ts : List Token) :
    readCond n (ts.map (onToken f)) = (readCond n ts).map (onRead f (onExpr f)) := by
  induction n generalizing ts with
  | zero => rfl
  | succ n ih =>
    rw [readCond, readCond, readTerm_onToken]
    cases readTerm n ts with
    | none => rfl
    | some r =>
      obtain ⟨a, rest⟩ := r
      rcases rest with _ | ⟨t, rest⟩
      · rfl
      · cases t with
        | num w => rfl
        | str s => rfl
        | op c => rfl
        | word w =>
          by_cases and : w = "AND".toList
          · subst and
            show (readCond n (rest.map (onToken f))).map _ = ((readCond n rest).map _).map _
            exact map_map_of_eq (ih rest) (fun _ => rfl)
          · show (if w = "AND".toList then _ else _) =
              Option.map _ (if w = "AND".toList then _ else _)
            rw [if_neg and, if_neg and]
            rfl

theorem readList_onToken (n : ℕ) (ts : List Token) :
    readList n (ts.map (onToken f)) = (readList n ts).map (onRead f (onExprs f)) := by
  induction n generalizing ts with
  | zero => rfl
  | succ n ih =>
    rw [readList, readList, (readOperand_readArgs f n ts).1]
    cases readOperand n ts with
    | none => rfl
    | some r =>
      obtain ⟨e, rest⟩ := r
      rcases rest with _ | ⟨t, rest⟩
      · rfl
      · cases t with
        | num w => rfl
        | str s => rfl
        | word w => rfl
        | op c =>
          by_cases comma : c = ','
          · subst comma
            show (readList n (rest.map (onToken f))).map _ = ((readList n rest).map _).map _
            exact map_map_of_eq (ih rest) (fun _ => rfl)
          · simp [onRead, onToken, onExprs, comma]

theorem readNames_onToken (ts : List Token) :
    readNames (ts.map (onToken f)) = (readNames ts).map (onRead f id) := by
  induction ts using readNames.induct with
  | case1 w ts ih =>
    show (readNames (ts.map (onToken f))).map _ = ((readNames ts).map _).map _
    exact map_map_of_eq ih (fun _ => rfl)
  | case2 w ts => rfl
  | case3 ts notComma notBracket =>
    rw [readNames.eq_3 ts notComma notBracket, readNames.eq_3]
    · rfl
    · intro w us same
      obtain ⟨vs, rfl, rest⟩ := word_of_map same
      obtain ⟨vs', rfl, -⟩ := op_of_map rest
      exact notComma w vs' rfl
    · intro w us same
      obtain ⟨vs, rfl, rest⟩ := word_of_map same
      obtain ⟨vs', rfl, -⟩ := op_of_map rest
      exact notBracket w vs' rfl

theorem readJoins_onToken (n : ℕ) (ts : List Token) :
    readJoins n (ts.map (onToken f)) =
      (readJoins n ts).map (onRead f (List.map (onJoin f))) := by
  induction n generalizing ts with
  | zero => rfl
  | succ n ih =>
    by_cases isJoin : ∃ l j table name o us,
        ts = .word l :: .word j :: .word table :: .word name :: .word o :: .op '(' :: us
    · obtain ⟨l, j, table, name, o, us, rfl⟩ := isJoin
      show readJoins (n + 1) (.word l :: .word j :: .word table :: .word name :: .word o ::
        .op '(' :: us.map (onToken f)) = _
      rw [readJoins.eq_1, readJoins.eq_1, readCond_onToken]
      split_ifs
      · cases readCond n us with
        | none => rfl
        | some r =>
          obtain ⟨on, rest⟩ := r
          rcases rest with _ | ⟨t, rest⟩
          · rfl
          · cases t with
            | num w => rfl
            | str s => rfl
            | word w => rfl
            | op c =>
              by_cases bracket : c = ')'
              · subst bracket
                show (readJoins n (rest.map (onToken f))).map _ = ((readJoins n rest).map _).map _
                exact map_map_of_eq (ih rest) (fun _ => rfl)
              · simp [onRead, onToken, bracket]
      · rfl
    · have other : ∀ l j table name o us, ts.map (onToken f) =
          .word l :: .word j :: .word table :: .word name :: .word o :: .op '(' :: us → False := by
        intro l j table name o us same
        obtain ⟨ts1, rfl, same1⟩ := word_of_map same
        obtain ⟨ts2, rfl, same2⟩ := word_of_map same1
        obtain ⟨ts3, rfl, same3⟩ := word_of_map same2
        obtain ⟨ts4, rfl, same4⟩ := word_of_map same3
        obtain ⟨ts5, rfl, same5⟩ := word_of_map same4
        obtain ⟨ts6, rfl, -⟩ := op_of_map same5
        exact isJoin ⟨l, j, table, name, o, ts6, rfl⟩
      rw [readJoins.eq_2 _ _ other, readJoins.eq_2]
      · rfl
      · intro l j table name o us same
        exact isJoin ⟨l, j, table, name, o, us, same⟩

theorem readProjection_onToken (n : ℕ) (ts : List Token) :
    readProjection n (ts.map (onToken f)) =
      (readProjection n ts).map (onRead f (onProjection f)) := by
  by_cases isCount : ∃ w us, ts = .word w :: .op '(' :: .op '*' :: .op ')' :: us
  · obtain ⟨w, us, rfl⟩ := isCount
    show readProjection n (.word w :: .op '(' :: .op '*' :: .op ')' :: us.map (onToken f)) = _
    rw [readProjection.eq_1, readProjection.eq_1]
    split_ifs <;> rfl
  · have other : ∀ w us,
        ts.map (onToken f) = .word w :: .op '(' :: .op '*' :: .op ')' :: us → False := by
      intro w us same
      obtain ⟨ts1, rfl, same1⟩ := word_of_map same
      obtain ⟨ts2, rfl, same2⟩ := op_of_map same1
      obtain ⟨ts3, rfl, same3⟩ := op_of_map same2
      obtain ⟨ts4, rfl, -⟩ := op_of_map same3
      exact isCount ⟨w, ts4, rfl⟩
    rw [readProjection.eq_2 _ _ other, readProjection.eq_2, readList_onToken, Option.map_map,
      Option.map_map]
    · rfl
    · intro w us same
      exact isCount ⟨w, us, same⟩

theorem readSelect_onToken (n : ℕ) (ts : List Token) :
    readSelect n (ts.map (onToken f)) = (readSelect n ts).map (onSelect f) := by
  rw [readSelect, readSelect, readProjection_onToken]
  cases readProjection n ts with
  | none => rfl
  | some r =>
    obtain ⟨projection, rest⟩ := r
    rw [Option.map_some, onRead]
    split
    · next projection' w table name us read =>
      obtain ⟨rfl, same⟩ := Prod.mk.inj (Option.some.inj read)
      obtain ⟨ts1, rfl, same1⟩ := word_of_map same
      obtain ⟨ts2, rfl, same2⟩ := word_of_map same1
      obtain ⟨ts3, rfl, rfl⟩ := word_of_map same2
      show (if w = "FROM".toList then _ else _) = Option.map _ (if w = "FROM".toList then _ else _)
      split_ifs
      · rw [readJoins_onToken]
        cases readJoins n ts3 with
        | none => rfl
        | some r =>
          obtain ⟨joins, left⟩ := r
          rcases left with _ | ⟨t, left⟩
          · rfl
          · cases t with
            | num w => rfl
            | str s => rfl
            | op c => rfl
            | word v =>
              show (if v = "WHERE".toList then _ else _) =
                Option.map _ (if v = "WHERE".toList then _ else _)
              split_ifs
              · rw [readCond_onToken]
                cases readCond n left with
                | none => rfl
                | some r =>
                  obtain ⟨cond, more⟩ := r
                  cases more <;> rfl
              · rfl
      · rfl
    · next other =>
      split
      · next projection' w table name us same =>
        obtain ⟨rfl, rfl⟩ := Prod.mk.inj (Option.some.inj same)
        exact absurd rfl (other _ w table name (us.map (onToken f)))
      · rfl

theorem readInsert_onToken (n : ℕ) (ts : List Token) :
    readInsert n (ts.map (onToken f)) = (readInsert n ts).map (onInsert f) := by
  by_cases isInsert : ∃ i table us, ts = .word i :: .word table :: .op '(' :: us
  · obtain ⟨i, table, us, rfl⟩ := isInsert
    show readInsert n (.word i :: .word table :: .op '(' :: us.map (onToken f)) = _
    rw [readInsert.eq_1, readInsert.eq_1, readNames_onToken]
    split_ifs
    · cases readNames us with
      | none => rfl
      | some r =>
        obtain ⟨columns, rest⟩ := r
        rw [Option.map_some, onRead]
        split
        · next columns' v left read =>
          obtain ⟨rfl, same⟩ := Prod.mk.inj (Option.some.inj read)
          obtain ⟨ts1, rfl, same1⟩ := word_of_map same
          obtain ⟨ts2, rfl, rfl⟩ := op_of_map same1
          show (if v = "VALUES".toList then _ else _) =
            Option.map _ (if v = "VALUES".toList then _ else _)
          split_ifs
          · rw [(readOperand_readArgs f n ts2).2]
            cases readArgs n ts2 with
            | none => rfl
            | some r =>
              obtain ⟨values, more⟩ := r
              cases more <;> rfl
          · rfl
        · next other =>
          split
          · next columns' v left same =>
            obtain ⟨rfl, rfl⟩ := Prod.mk.inj (Option.some.inj same)
            exact absurd rfl (other _ v (left.map (onToken f)))
          · rfl
    · rfl
  · rw [readInsert.eq_2, readInsert.eq_2]
    · rfl
    · intro i table us same
      exact isInsert ⟨i, table, us, same⟩
    · intro i table us same
      obtain ⟨ts1, rfl, same1⟩ := word_of_map same
      obtain ⟨ts2, rfl, same2⟩ := word_of_map same1
      obtain ⟨ts3, rfl, -⟩ := op_of_map same2
      exact isInsert ⟨i, table, ts3, rfl⟩

/-- Where a statement has its string literals, and nothing else of it, depends on where they are
among the tokens. -/
theorem readTokens_onToken (ts : List Token) :
    readTokens (ts.map (onToken f)) = (readTokens ts).map (onStmt f) := by
  by_cases two : ∃ w t, ts = [.word w, .word t]
  · obtain ⟨w, t, rfl⟩ := two
    show readTokens [.word w, .word t] = _
    rw [readTokens.eq_1]
    split_ifs <;> rfl
  · by_cases isWord : ∃ w rest, ts = .word w :: rest
    · obtain ⟨w, rest, rfl⟩ := isWord
      have other : ∀ t, rest = [.word t] → False := by
        intro t same
        exact two ⟨w, t, congrArg _ same⟩
      show readTokens (.word w :: rest.map (onToken f)) = _
      rw [readTokens.eq_2 w rest other, readTokens.eq_2 w _, List.length_map, readInsert_onToken,
        readSelect_onToken]
      · split_ifs
        · rw [Option.map_map, Option.map_map]
          rfl
        · rw [Option.map_map, Option.map_map]
          rfl
        · rfl
      · intro t same
        obtain ⟨ts1, rfl, nothing⟩ := word_of_map same
        rw [List.map_eq_nil_iff] at nothing
        exact other t (congrArg _ nothing)
    · rw [readTokens.eq_3 ts, readTokens.eq_3]
      · rfl
      · intro w t same
        obtain ⟨ts1, rfl, -⟩ := word_of_map same
        exact isWord ⟨w, ts1, rfl⟩
      · intro w rest same
        obtain ⟨ts1, rfl, -⟩ := word_of_map same
        exact isWord ⟨w, ts1, rfl⟩
      · intro w t same
        exact two ⟨w, t, same⟩
      · intro w rest same
        exact isWord ⟨w, rest, same⟩

end ObjSearch.Sql.Shape
