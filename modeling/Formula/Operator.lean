import Formula.Decimal

/-! Numeric operations: from the values of the operands to a value or to the cause of a failure. An operation receives
any number of values and checks the count itself. -/
namespace Formula

inductive OperatorError where
  | argumentCount (label : String) (expected actual : Nat)
  | zeroDivisor (label : String)
  | outOfDomain (label : String) (value : Float)
  | custom (text : String)

namespace OperatorError

def message : OperatorError → String
  | argumentCount label expected actual =>
    "incorrect count of args for " ++ label ++ ": need " ++ toString expected ++ ", but got " ++ toString actual
  | zeroDivisor label => "incorrect divisor for " ++ label
  | outOfDomain label value => label ++ " argument is out of domain: " ++ numberText value
  | custom text => text

end OperatorError

abbrev Operation := List Float → Except OperatorError Float

abbrev Curried : Nat → Type
  | 0 => Except OperatorError Float
  | n + 1 => Float → Curried n

namespace Operation

def feed? : (n : Nat) → Curried n → List Float → Option (Except OperatorError Float)
  | 0, result, [] => some result
  | n + 1, f, x :: xs => feed? n (f x) xs
  | _, _, _ => none

def ofArity (label : String) (n : Nat) (f : Curried n) : Operation := fun args =>
  (feed? n f args).getD (.error (.argumentCount label n args.length))

theorem feedNone {n : Nat} (f : Curried n) (args : List Float) :
    feed? n f args = none ↔ args.length ≠ n := by
  induction n generalizing args with
  | zero => cases args <;> simp [feed?]
  | succ n ih => cases args with
    | nil => simp [feed?]
    | cons x xs => simpa [feed?] using ih (f x) xs

theorem ofArityMismatch (label : String) {n : Nat} (f : Curried n) (args : List Float) (h : args.length ≠ n) :
    ofArity label n f args = .error (.argumentCount label n args.length) := by
  simp [ofArity, (feedNone f args).mpr h]

def nonEmpty (name : String) (f : List Float → Float) : Operation
  | [] => .error (.custom ("'" ++ name ++ "' needs 1 or more args"))
  | x :: xs => .ok (f (x :: xs))

def plusSign : Operation := ofArity "unary sum operator" 1 fun x => .ok x

def minusSign : Operation := ofArity "unary subtract operator" 1 fun x => .ok (-x)

def squareRoot : Operation := ofArity "'sqrt' function" 1 fun x =>
  if x < 0 then .error (.outOfDomain "'sqrt' function" x) else .ok x.sqrt

def absolute : Operation := ofArity "'abs' function" 1 fun x => .ok x.abs

def product : Operation := ofArity "multiplication operator" 2 fun x y => .ok (x * y)

def quotient : Operation := ofArity "division operator" 2 fun x y =>
  if y == 0 then .error (.zeroDivisor "division operator") else .ok (x / y)

/- A divisor between -1 and 1 counts as zero. -/
def remainder : Operation := ofArity "% operator" 2 fun x y =>
  if wholeIsZero y then .error (.zeroDivisor "% operator") else .ok (wholeRemainder x y)

def power : Operation := ofArity "power operator" 2 fun x y => .ok (x.pow y)

def sum : Operation := ofArity "sum operator" 2 fun x y => .ok (x + y)

def difference : Operation := ofArity "subtract operator" 2 fun x y => .ok (x - y)

end Operation

def lesser (x y : Float) : Float :=
  if x.isNaN then y else if y.isNaN then x else if y < x then y else x

def greater (x y : Float) : Float :=
  if x.isNaN then y else if y.isNaN then x else if x < y then y else x

/- A list of negative zeros keeps its sign. -/
def total (xs : List Float) : Float := xs.foldl (· + ·) (-0.0)

namespace Operation

def sine : Operation := ofArity "sin" 1 fun x => .ok x.sin

def cosine : Operation := ofArity "cos" 1 fun x => .ok x.cos

def tangent : Operation := ofArity "tan" 1 fun x => .ok x.tan

def exponential : Operation := ofArity "exp" 1 fun x => .ok x.exp

def naturalLogarithm : Operation := ofArity "ln" 1 fun x =>
  if x ≤ 0 then .error (.outOfDomain "ln" x) else .ok x.log

def decimalLogarithm : Operation := ofArity "log10" 1 fun x =>
  if x ≤ 0 then .error (.outOfDomain "log10" x) else .ok x.log10

def floor : Operation := ofArity "floor" 1 fun x => .ok x.floor

def ceiling : Operation := ofArity "ceil" 1 fun x => .ok x.ceil

def nearest : Operation := ofArity "round" 1 fun x => .ok x.round

def least : Operation := nonEmpty "min" fun xs => xs.foldl lesser (1.0 / 0.0)

def greatest : Operation := nonEmpty "max" fun xs => xs.foldl greater (-1.0 / 0.0)

def average : Operation := nonEmpty "avg" fun xs => total xs / Float.ofNat xs.length

end Operation

end Formula
