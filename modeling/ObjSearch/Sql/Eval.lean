/- SQL values and expressions.
   digest: NULL is unknown in comparisons, `AND` is three-valued, and the digits that
   printf writes are read back as the number written. -/

import ObjSearch.Lib.Printf
import ObjSearch.Sql.Match
import Mathlib.Data.List.TakeWhile
import Mathlib.Data.String.Basic

set_option autoImplicit false
set_option relaxedAutoImplicit false

namespace ObjSearch.Sql.Eval

open ObjSearch.Lib.Texts (Text)
open ObjSearch.Lib.Printf
open ObjSearch.Sql.Match (instr like maxLikePatternLength)

inductive Value where
  | null
  | int (n : ℤ)
  | real (q : ℚ)
  | text (s : Text)
deriving DecidableEq

inductive Op where
  | eq
  | gt
  | le
  | like
  | and
deriving DecidableEq, Repr

inductive Expr where
  | num (w : Text)
  | str (s : Text)
  | column (source : Option Text) (name : Text)
  | neg (e : Expr)
  | call (f : Text) (args : List Expr)
  | binary (op : Op) (a b : Expr)

inductive Error where
  | unreadable
  | noSuchTable (name : Text)
  | noSuchColumn (name : Text)
  | ambiguousColumn (name : Text)
  | noSuchFunction (name : Text)
  | wrongArgumentCount (name : Text)
  | badNumeral (w : Text)
  /-- an operand of a kind that no statement of the program gives this operator -/
  | mismatch
  /-- an error a user function sets as its result -/
  | raised (message : Text)
deriving DecidableEq

def Value.ofBool (b : Bool) : Value := .int (if b then 1 else 0)

def Value.ofOption {α : Type} (f : α → Value) : Option α → Value
  | some a => f a
  | none => .null

def Value.ofTruth (b : Option Bool) : Value := .ofOption .ofBool b

def Value.number : Value → Option ℚ
  | .int n => some n
  | .real q => some q
  | _ => none

theorem number_int (n : ℤ) : (Value.int n).number = some (n : ℚ) := rfl

theorem number_real (q : ℚ) : (Value.real q).number = some q := rfl

def numeral (w : Text) : Option Value :=
  let whole := w.takeWhile Char.isDigit
  match w.dropWhile Char.isDigit with
  | [] => some (.int (Nat.ofDigitChars 10 whole 0))
  | c :: fraction =>
      if c = '.' ∧ fraction.all Char.isDigit then
        some (.real (Nat.ofDigitChars 10 whole 0 +
          Nat.ofDigitChars 10 fraction 0 / 10 ^ fraction.length))
      else none

/-- A comparison is unknown when a side is NULL. -/
def compare (holds : ℚ → ℚ → Bool) (x y : Value) : Except Error Value :=
  match x, y with
  | .null, _ | _, .null => .ok .null
  | _, _ => match x.number, y.number with
    | some a, some b => .ok (.ofBool (holds a b))
    | _, _ => .error .mismatch

/-- The error that `likeFunc` sets for a long pattern. -/
def tooComplex : Error := .raised "LIKE or GLOB pattern too complex".toList

/-- `likeFunc` looks at the length of the pattern before it looks for NULL. -/
def matches_ (x : Value) : Value → Except Error Value
  | .text p =>
      if String.utf8Len p > maxLikePatternLength then .error tooComplex
      else match x with
        | .text s => .ok (.ofBool (like p s))
        | .null => .ok .null
        | _ => .error .mismatch
  | .null => .ok .null
  | _ => .error .mismatch

def truth : Value → Except Error (Option Bool)
  | .null => .ok none
  | .int n => .ok (some (n ≠ 0))
  | .real q => .ok (some (q ≠ 0))
  | .text _ => .error .mismatch

def negate : Value → Except Error Value
  | .null => .ok .null
  | .int n => .ok (.int (-n))
  | .real q => .ok (.real (-q))
  | .text _ => .error .mismatch

def conj : Option Bool → Option Bool → Option Bool
  | some false, _ | _, some false => some false
  | some true, some true => some true
  | _, _ => none

/-- What column names and function names stand for in one row. -/
structure Context where
  column : Option Text → Text → Except Error Value
  call : Text → List Value → Except Error Value

mutual

def eval (cx : Context) : Expr → Except Error Value
  | .num w => match numeral w with
    | some v => .ok v
    | none => .error (.badNumeral w)
  | .str s => .ok (.text s)
  | .column source name => cx.column source name
  | .neg e => do negate (← eval cx e)
  | .call f args => do cx.call f (← evalAll cx args)
  | .binary .and a b => do
      let x ← truth (← eval cx a)
      -- the right side of a false conjunction is not evaluated
      if x = some false then return Value.ofBool false
      let y ← truth (← eval cx b)
      return Value.ofTruth (conj x y)
  | .binary .eq a b => do compare (fun x y => x = y) (← eval cx a) (← eval cx b)
  | .binary .gt a b => do compare (fun x y => y < x) (← eval cx a) (← eval cx b)
  | .binary .le a b => do compare (fun x y => x ≤ y) (← eval cx a) (← eval cx b)
  | .binary .like a b => do matches_ (← eval cx a) (← eval cx b)

def evalAll (cx : Context) : List Expr → Except Error (List Value)
  | [] => .ok []
  | e :: es => do
      let v ← eval cx e
      let vs ← evalAll cx es
      return v :: vs

end

/-- What the names of an expression may stand for, known before any row is read. -/
structure Scope where
  column : Option Text → Text → Except Error Unit
  call : Text → ℕ → Except Error Unit

mutual

/-- Resolve the names of an expression, as preparing a statement does. -/
def resolve (sc : Scope) : Expr → Except Error Unit
  | .num _ | .str _ => .ok ()
  | .column source name => sc.column source name
  | .neg e => resolve sc e
  | .call f args => do
      sc.call f args.length
      resolveAll sc args
  | .binary _ a b => do
      resolve sc a
      resolve sc b

def resolveAll (sc : Scope) : List Expr → Except Error Unit
  | [] => .ok ()
  | e :: es => do
      resolve sc e
      resolveAll sc es

end

/-- The expression a number is read as: a minus sign is an operator, not part of the numeral. -/
def signed (negative : Bool) (w : Text) : Expr := if negative then .neg (.num w) else .num w

theorem bind_eq_ok {α β : Type} {x : Except Error α} {f : α → Except Error β} {b : β} :
    (x >>= f) = .ok b ↔ ∃ a, x = .ok a ∧ f a = .ok b := by
  cases x with
  | error e => simp [bind, Except.bind]
  | ok a => simp [bind, Except.bind]

theorem truth_ofTruth (b : Option Bool) : truth (.ofTruth b) = .ok b := by
  cases b with
  | none => rfl
  | some b => cases b <;> rfl

theorem conj_eq_true {x y : Option Bool} :
    conj x y = some true ↔ x = some true ∧ y = some true := by
  rcases x with _ | _ | _ <;> rcases y with _ | _ | _ <;> simp [conj]

/-! What the two functions do, one case each. -/

theorem eval_num (cx : Context) (w : Text) :
    eval cx (.num w) = match numeral w with
      | some v => .ok v
      | none => .error (.badNumeral w) := rfl

theorem eval_neg (cx : Context) (e : Expr) : eval cx (.neg e) = (do negate (← eval cx e)) := rfl

theorem eval_binary_and (cx : Context) (a b : Expr) :
    eval cx (.binary .and a b) = (do
      let x ← truth (← eval cx a)
      if x = some false then return Value.ofBool false
      let y ← truth (← eval cx b)
      return Value.ofTruth (conj x y)) := rfl

theorem eval_binary_le (cx : Context) (a b : Expr) :
    eval cx (.binary .le a b) =
      (do compare (fun x y => x ≤ y) (← eval cx a) (← eval cx b)) := rfl

theorem eval_binary_gt (cx : Context) (a b : Expr) :
    eval cx (.binary .gt a b) =
      (do compare (fun x y => y < x) (← eval cx a) (← eval cx b)) := rfl

theorem evalAll_cons (cx : Context) (e : Expr) (es : List Expr) :
    evalAll cx (e :: es) = (do
      let v ← eval cx e
      let vs ← evalAll cx es
      return v :: vs) := rfl

theorem eval_and {cx : Context} {a b : Expr} {x y : Option Bool}
    (left : eval cx a = .ok (.ofTruth x)) (right : eval cx b = .ok (.ofTruth y)) :
    eval cx (.binary .and a b) = .ok (.ofTruth (conj x y)) := by
  rw [eval_binary_and, left, right]
  simp only [bind, Except.bind, truth_ofTruth]
  by_cases no : x = some false
  · rw [if_pos no, no]
    rfl
  · rw [if_neg no]
    rfl

theorem exists_of_and {cx : Context} {a b : Expr} {v : Value}
    (value : eval cx (.binary .and a b) = .ok v) (holds : truth v = .ok (some true)) :
    ∃ w, eval cx b = .ok w ∧ truth w = .ok (some true) := by
  rw [eval_binary_and] at value
  obtain ⟨u, -, value⟩ := bind_eq_ok.mp value
  obtain ⟨x, -, value⟩ := bind_eq_ok.mp value
  split_ifs at value
  · rw [← Except.ok.inj value] at holds
    cases holds
  · obtain ⟨w, right, value⟩ := bind_eq_ok.mp value
    obtain ⟨y, known, value⟩ := bind_eq_ok.mp value
    rw [← Except.ok.inj value, truth_ofTruth] at holds
    obtain ⟨-, rfl⟩ := conj_eq_true.mp (Except.ok.inj holds)
    exact ⟨w, right, known⟩

theorem exists_of_le {cx : Context} {a b : Expr} {v : Value}
    (value : eval cx (.binary .le a b) = .ok v) (holds : truth v = .ok (some true)) :
    ∃ x y p q, eval cx a = .ok x ∧ eval cx b = .ok y ∧ x.number = some p ∧ y.number = some q ∧
      p ≤ q := by
  rw [eval_binary_le] at value
  obtain ⟨x, left, value⟩ := bind_eq_ok.mp value
  obtain ⟨y, right, value⟩ := bind_eq_ok.mp value
  unfold compare at value
  split at value
  · rw [← Except.ok.inj value] at holds
    cases holds
  · rw [← Except.ok.inj value] at holds
    cases holds
  · split at value
    · next p q hp hq =>
      refine ⟨x, y, p, q, left, right, hp, hq, ?_⟩
      by_contra above
      have false_ : v = .ofBool false :=
        (Except.ok.inj value).symm.trans (congrArg Value.ofBool (decide_eq_false above))
      rw [false_] at holds
      cases holds
    · cases value

theorem exists_of_evalAll {cx : Context} {es : List Expr} {vs : List Value}
    (values : evalAll cx es = .ok vs) {i : ℕ} {e : Expr} (here : es[i]? = some e) :
    ∃ v, vs[i]? = some v ∧ eval cx e = .ok v := by
  induction es generalizing vs i with
  | nil => cases here
  | cons e' es ih =>
    rw [evalAll_cons] at values
    obtain ⟨v, first, values⟩ := bind_eq_ok.mp values
    obtain ⟨us, others, values⟩ := bind_eq_ok.mp values
    obtain rfl := Except.ok.inj values
    cases i with
    | zero =>
      obtain rfl := Option.some.inj here
      exact ⟨v, rfl, first⟩
    | succ i => exact ih others here

theorem evalAll_append {cx : Context} {es fs : List Expr} {vs ws : List Value}
    (left : evalAll cx es = .ok vs) (right : evalAll cx fs = .ok ws) :
    evalAll cx (es ++ fs) = .ok (vs ++ ws) := by
  induction es generalizing vs with
  | nil =>
    obtain rfl := Except.ok.inj left
    exact right
  | cons e es ih =>
    rw [evalAll_cons] at left
    rw [List.cons_append, evalAll_cons]
    cases first : eval cx e with
    | error err => rw [first] at left; cases left
    | ok v =>
      cases others : evalAll cx es with
      | error err => rw [first, others] at left; cases left
      | ok us =>
        rw [first, others] at left
        obtain rfl := Except.ok.inj left
        simp only [bind, Except.bind, ih others]
        rfl

theorem eval_le {cx : Context} {a b : Expr} {v w : Value} (left : eval cx a = .ok v)
    (right : eval cx b = .ok w) :
    eval cx (.binary .le a b) = compare (fun x y => x ≤ y) v w := by
  rw [eval_binary_le, left, right]
  rfl

theorem eval_gt {cx : Context} {a b : Expr} {v w : Value} (left : eval cx a = .ok v)
    (right : eval cx b = .ok w) :
    eval cx (.binary .gt a b) = compare (fun x y => y < x) v w := by
  rw [eval_binary_gt, left, right]
  rfl

theorem compare_ofOption {α : Type} (p : ℚ → ℚ → Bool) {f : α → Value} {number : α → ℚ}
    (numbers : ∀ a, (f a).number = some (number a)) (x : Option α) {y : Value} {b : ℚ}
    (hy : y.number = some b) :
    compare p (.ofOption f x) y = .ok (.ofTruth (x.map (fun a => p (number a) b))) := by
  cases x with
  | none => rfl
  | some a =>
    have ha : (Value.ofOption f (some a)).number = some (number a) := numbers a
    generalize Value.ofOption f (some a) = v at ha
    cases v <;> cases y <;> simp_all [compare, Value.number, Value.ofTruth, Value.ofOption]

theorem matches_ofOption {p : Text} (fits : String.utf8Len p ≤ maxLikePatternLength)
    (x : Option Text) :
    matches_ (.ofOption .text x) (.text p) = .ok (.ofTruth (x.map (like p))) := by
  cases x <;> exact if_neg (not_lt.mpr fits)

/-- A pattern that is too long is an error, also where there is nothing to match. -/
theorem matches_of_long {p : Text} (long : maxLikePatternLength < String.utf8Len p) (x : Value) :
    matches_ x (.text p) = .error tooComplex :=
  if_pos long

theorem numeral_digits (n : ℕ) : numeral (digits n) = some (.int n) := by
  have all : ∀ c ∈ digits n, c.isDigit = true := fun c hc => isDigit_of_mem_digits hc
  have taken : (digits n).takeWhile Char.isDigit = digits n :=
    List.takeWhile_eq_self_iff.mpr all
  have dropped : (digits n).dropWhile Char.isDigit = [] :=
    List.dropWhile_eq_nil_iff.mpr all
  simp only [numeral, taken, dropped, ofDigitChars_digits]

theorem numeral_decimals (n : ℕ) : numeral (decimals n) = some (.real (n / 1000000)) := by
  have all : ∀ c ∈ digits (n / 1000000), c.isDigit = true := fun c hc => isDigit_of_mem_digits hc
  have fraction : (sixDigits (n % 1000000)).all Char.isDigit = true :=
    List.all_eq_true.mpr (fun c hc => isDigit_of_mem_sixDigits hc)
  have taken : (decimals n).takeWhile Char.isDigit = digits (n / 1000000) := by
    rw [decimals, List.takeWhile_append_of_pos all]
    simp
  have dropped : (decimals n).dropWhile Char.isDigit = '.' :: sixDigits (n % 1000000) := by
    rw [decimals, List.dropWhile_append_of_pos all]
    rfl
  have length : (sixDigits (n % 1000000)).length = 6 := length_sixDigits (Nat.mod_lt n (by decide))
  have split : (n : ℚ) = 1000000 * (n / 1000000 : ℕ) + (n % 1000000 : ℕ) := by
    exact_mod_cast (Nat.div_add_mod n 1000000).symm
  unfold numeral
  simp only [taken, dropped, fraction, and_self, if_true, ofDigitChars_digits,
    ofDigitChars_sixDigits, length, Option.some.injEq, Value.real.injEq]
  conv_rhs => rw [split]
  ring

theorem eval_formatI (cx : Context) (n : ℤ) :
    eval cx (signed (n < 0) (digits n.natAbs)) = .ok (.int n) := by
  unfold signed
  split_ifs with neg
  · have value : -((n.natAbs : ℕ) : ℤ) = n := by simp only [decide_eq_true_eq] at neg; omega
    simp only [eval_neg, eval_num, numeral_digits, negate, bind, Except.bind, value]
  · have value : ((n.natAbs : ℕ) : ℤ) = n := by simp only [decide_eq_true_eq] at neg; omega
    simp only [eval_num, numeral_digits, value]

theorem eval_formatF (cx : Context) (x : ℚ) :
    eval cx (signed (x < 0) (decimals (micros x))) = .ok (.real (written x)) := by
  unfold signed written
  split_ifs with neg neg' neg'
  · simp [eval_neg, eval_num, numeral_decimals, negate, bind, Except.bind]
  · simp_all
  · simp_all
  · simp [eval_num, numeral_decimals]

end ObjSearch.Sql.Eval
