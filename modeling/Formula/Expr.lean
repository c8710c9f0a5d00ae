import Std.Data.TreeSet
import Formula.Registry

/-! Formulas as trees, their text, their variables and their value. A term keeps the text it was written with, and the
empty text stands for zero. Operands are evaluated from left to right, the operation is looked up after them, and the
first failure is the failure of the whole. -/
namespace Formula

inductive Expr where
  | term (payload : String)
  | binary (symbol : String) (left right : Expr)
  | unary (symbol : String) (operand : Expr)
  | call (name : String) (arguments : List Expr)
  deriving Repr, Inhabited

namespace Expr

mutual
def decEq : (a b : Expr) → Decidable (a = b)
  | .term p, .term q => decidable_of_iff (p = q) (by simp)
  | .binary s l r, .binary s' l' r' =>
    have := decEq l l'
    have := decEq r r'
    decidable_of_iff (s = s' ∧ l = l' ∧ r = r') (by simp)
  | .unary s x, .unary s' x' =>
    have := decEq x x'
    decidable_of_iff (s = s' ∧ x = x') (by simp)
  | .call n xs, .call n' xs' =>
    have := decEqList xs xs'
    decidable_of_iff (n = n' ∧ xs = xs') (by simp)
  | .term _, .binary .. | .term _, .unary .. | .term _, .call .. => .isFalse (by simp)
  | .binary .., .term _ | .binary .., .unary .. | .binary .., .call .. => .isFalse (by simp)
  | .unary .., .term _ | .unary .., .binary .. | .unary .., .call .. => .isFalse (by simp)
  | .call .., .term _ | .call .., .binary .. | .call .., .unary .. => .isFalse (by simp)

def decEqList : (xs ys : List Expr) → Decidable (xs = ys)
  | [], [] => .isTrue rfl
  | [], _ :: _ => .isFalse (by simp)
  | _ :: _, [] => .isFalse (by simp)
  | x :: xs, y :: ys =>
    have := decEq x y
    have := decEqList xs ys
    decidable_of_iff (x = y ∧ xs = ys) (by simp)
end

instance : DecidableEq Expr := decEq

def zero : Expr := .term ""

mutual
def render : Expr → String
  | .term payload => if payload = "" then "0" else payload
  | .binary symbol left right => "( " ++ symbol ++ " " ++ left.render ++ " " ++ right.render ++ " )"
  | .unary symbol operand => "( " ++ symbol ++ " " ++ operand.render ++ " )"
  | .call name arguments => "( " ++ name ++ " ( " ++ ",".intercalate (renderAll arguments) ++ " ) )"

def renderAll : List Expr → List String
  | [] => []
  | x :: xs => x.render :: renderAll xs
end

theorem renderAllMap (xs : List Expr) : renderAll xs = xs.map render := by
  induction xs with
  | nil => rfl
  | cons x xs ih => simp [renderAll, ih]

end Expr

inductive Meaning where
  | zero
  | literal (value : Float)
  | named (name : String)

def Meaning.ofPayload (payload : String) : Meaning :=
  if payload = "" then .zero
  else match literalValue? payload with
    | some value => .literal value
    | none => .named payload

namespace Expr

mutual
def occurrences : Expr → List String
  | .term payload => match Meaning.ofPayload payload with
    | .named name => [name]
    | _ => []
  | .binary _ left right => left.occurrences ++ right.occurrences
  | .unary _ operand => operand.occurrences
  | .call _ arguments => occurrencesAll arguments

def occurrencesAll : List Expr → List String
  | [] => []
  | x :: xs => x.occurrences ++ occurrencesAll xs
end

def variableNames (e : Expr) : List String := (Std.TreeSet.ofList e.occurrences).toList

theorem memVariableNames (e : Expr) (name : String) : name ∈ e.variableNames ↔ name ∈ e.occurrences := by
  simp [variableNames]

end Expr

inductive OperatorKind where
  | unary
  | binary
  | function
  deriving DecidableEq, Repr

def OperatorKind.title : OperatorKind → String
  | .unary => "unary operation"
  | .binary => "binary operation"
  | .function => "function"

inductive EvalError where
  | unbound (name : String)
  | unsupported (kind : OperatorKind) (name : String)
  | failed (name : String) (cause : OperatorError)
  | noFormula

namespace EvalError

def message : EvalError → String
  | unbound name => "value '" ++ name ++ "' not found in bindings"
  | unsupported kind name => "not supported " ++ kind.title ++ ": '" ++ name ++ "'"
  | failed name cause => "'" ++ name ++ "' failed: " ++ cause.message
  | noFormula => "no expression has been parsed"

def cause? : EvalError → Option OperatorError
  | failed _ cause => some cause
  | _ => none

end EvalError

abbrev Bindings := String → Option Float

def Tier.kind : Tier → OperatorKind
  | .leading => .function
  | .between _ => .binary

/- What running an entry comes to when its tier does not hold the name. -/
abbrev Absence := Tier → String → List Float → Except EvalError Float

def unknownName : Absence := fun tier name _ => .error (.unsupported tier.kind name)

def Registry.applyOr (absent : Absence) (R : Registry) (tier : Tier) (name : String) (args : List Float) :
    Except EvalError Float :=
  match R.operation? tier name with
  | some f => (f args).mapError (.failed name)
  | none => absent tier name args

def Registry.apply (R : Registry) (tier : Tier) (name : String) (args : List Float) : Except EvalError Float :=
  R.applyOr unknownName tier name args

def Registry.applyFoundOr (absent : Absence) (R : Registry) (kind : OperatorKind) (found : Option Tier) (name : String)
    (args : List Float) : Except EvalError Float :=
  match found with
  | some tier => R.applyOr absent tier name args
  | none => .error (.unsupported kind name)

def Registry.applyFound (R : Registry) (kind : OperatorKind) (found : Option Tier) (name : String)
    (args : List Float) : Except EvalError Float :=
  R.applyFoundOr unknownName kind found name args

theorem Registry.applyFoundSome (R : Registry) (kind : OperatorKind) (tier : Tier) (name : String) (args : List Float) :
    R.applyFound kind (some tier) name args = R.apply tier name args := rfl

def Meaning.evaluate (bindings : Bindings) : Meaning → Except EvalError Float
  | .zero => .ok 0.0
  | .literal value => .ok value
  | .named name => match bindings name with
    | some value => .ok value
    | none => .error (.unbound name)

namespace Expr

mutual
def evaluateOr (absent : Absence) (R : Registry) (bindings : Bindings) : Expr → Except EvalError Float
  | .term payload => (Meaning.ofPayload payload).evaluate bindings
  | .binary symbol left right => do
    let x ← left.evaluateOr absent R bindings
    let y ← right.evaluateOr absent R bindings
    R.applyFoundOr absent .binary (R.betweenTier? symbol) symbol [x, y]
  | .unary symbol operand => do
    let x ← operand.evaluateOr absent R bindings
    R.applyFoundOr absent .unary (R.leadingTier? symbol) symbol [x]
  | .call name arguments => do
    let xs ← evaluateAllOr absent R bindings arguments
    R.applyFoundOr absent .function (R.leadingTier? name) name xs

def evaluateAllOr (absent : Absence) (R : Registry) (bindings : Bindings) : List Expr → Except EvalError (List Float)
  | [] => .ok []
  | e :: es => do
    let x ← e.evaluateOr absent R bindings
    let xs ← evaluateAllOr absent R bindings es
    return x :: xs
end

def evaluate (R : Registry) (bindings : Bindings) (e : Expr) : Except EvalError Float :=
  e.evaluateOr unknownName R bindings

def evaluateAll (R : Registry) (bindings : Bindings) (es : List Expr) : Except EvalError (List Float) :=
  evaluateAllOr unknownName R bindings es

section
variable (R : Registry) (bindings : Bindings)

theorem evaluateTerm (payload : String) :
    (term payload).evaluate R bindings = (Meaning.ofPayload payload).evaluate bindings := rfl

theorem evaluateBinary (symbol : String) (left right : Expr) : (binary symbol left right).evaluate R bindings = (do
    let x ← left.evaluate R bindings
    let y ← right.evaluate R bindings
    R.applyFound .binary (R.betweenTier? symbol) symbol [x, y]) := rfl

theorem evaluateUnary (symbol : String) (operand : Expr) : (unary symbol operand).evaluate R bindings = (do
    let x ← operand.evaluate R bindings
    R.applyFound .unary (R.leadingTier? symbol) symbol [x]) := rfl

theorem evaluateCall (name : String) (arguments : List Expr) : (call name arguments).evaluate R bindings = (do
    let xs ← evaluateAll R bindings arguments
    R.applyFound .function (R.leadingTier? name) name xs) := rfl

theorem evaluateAllCons (e : Expr) (es : List Expr) : evaluateAll R bindings (e :: es) = (do
    let x ← e.evaluate R bindings
    let xs ← evaluateAll R bindings es
    return x :: xs) := rfl

end

def evaluateEach (R : Registry) (e : Expr) (contexts : List Bindings) : List (Except EvalError Float) :=
  contexts.map fun bindings => e.evaluate R bindings

end Expr

end Formula
