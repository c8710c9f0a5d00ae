/-! Decimal numbers and binary64 values. A literal has ASCII digits, at most one point and at least one digit, and a
numeral as it is entered may also have a sign and an exponent, or be a word in letters of either case. A value is written
with the fewest digits that identify it, always positionally: no exponent, no point in a whole number, and a sign also on
a zero that has one. To find them, every finite value and both ends of the interval of reals that round to it are whole
numbers of some `10 ^ -places`, so that all choices are made between naturals and nothing is rounded on the way. -/
namespace Formula

def digitsValue (digits : List Char) : Nat :=
  digits.foldl (fun n c => 10 * n + (c.toNat - '0'.toNat)) 0

def splitLiteral? (cs : List Char) : Option (List Char × List Char) :=
  match cs.span Char.isDigit with
  | ([], []) => none
  | (whole, []) => some (whole, [])
  | (whole, c :: fraction) =>
    if c == '.' && fraction.all Char.isDigit && !(whole ++ fraction).isEmpty then some (whole, fraction)
    else none

def literalValue? (text : String) : Option Float :=
  (splitLiteral? text.toList).map fun (whole, fraction) =>
    Float.ofScientific (digitsValue (whole ++ fraction)) true fraction.length

/- Beyond either end of the range the power is not computed. -/
def scaledValue (mantissa : Nat) (exponent : Int) : Float :=
  let magnitude := exponent + (Nat.toDigits 10 mantissa).length
  if mantissa = 0 ∨ magnitude < -400 then 0.0
  else if 400 < magnitude then 1.0 / 0.0
  else Float.ofScientific mantissa (decide (exponent < 0)) exponent.natAbs

def splitSign (cs : List Char) : Bool × List Char :=
  match cs with
  | '-' :: cs => (true, cs)
  | '+' :: cs => (false, cs)
  | cs => (false, cs)

def exponentValue? : List Char → Option Int
  | [] => some 0
  | c :: cs =>
    let (negative, digits) := splitSign cs
    if c.toLower = 'e' ∧ digits ≠ [] ∧ digits.all Char.isDigit then
      some (if negative then -digitsValue digits else digitsValue digits)
    else none

def decimalSize? (cs : List Char) : Option Float :=
  let mantissa := cs.takeWhile fun c => c.isDigit || c == '.'
  match splitLiteral? mantissa, exponentValue? (cs.drop mantissa.length) with
  | some (whole, fraction), some exponent =>
    some (scaledValue (digitsValue (whole ++ fraction)) (exponent - fraction.length))
  | _, _ => none

def wordSize? (cs : List Char) : Option Float :=
  let word := String.ofList (cs.map Char.toLower)
  if word = "inf" ∨ word = "infinity" then some (1.0 / 0.0)
  else if word = "nan" then some (0.0 / 0.0)
  else none

def numeralValue? (cs : List Char) : Option Float :=
  let (negative, size) := splitSign cs
  (decimalSize? size <|> wordSize? size).map fun x => if negative then -x else x

structure Magnitude where
  mantissa : Nat
  exponent : Int
  deriving DecidableEq, Repr

namespace Magnitude

def ofBits (bits : UInt64) : Magnitude :=
  let field := ((bits >>> 52) &&& 0x7FF).toNat
  let fraction := (bits &&& 0xFFFFFFFFFFFFF).toNat
  if field = 0 then ⟨fraction, -1074⟩ else ⟨Nat.pow 2 52 + fraction, (field : Int) - 1075⟩

def narrowBelow (x : Magnitude) : Bool :=
  x.mantissa == Nat.pow 2 52 && decide (-1074 < x.exponent)

/- The interval of reals that round to the value goes down this many quarters of the last place, and up two. -/
def reach (x : Magnitude) : Nat := if x.narrowBelow then 1 else 2

/- A quarter of the last place, counted in the last decimal place that the value needs. -/
def quarter (x : Magnitude) : Nat := Nat.pow 2 (x.exponent - 2).toNat * Nat.pow 5 (2 - x.exponent).toNat

def whole (x : Magnitude) : Nat :=
  x.mantissa * Nat.pow 2 x.exponent.toNat / Nat.pow 2 (-x.exponent).toNat

end Magnitude

def signBit (x : Float) : Bool := (x.toBits >>> 63) == 1

def magnitude (x : Float) : Magnitude := .ofBits x.toBits

def withSign (negative : Bool) (x : Float) : Float := if negative then -x else x

/- The whole part of the divisor is not zero. -/
def wholeRemainder (dividend divisor : Float) : Float :=
  if dividend.isNaN || dividend.isInf || divisor.isNaN then 0.0 / 0.0
  else
    let size := (magnitude dividend).whole
    withSign (signBit dividend) <| Float.ofNat <|
      if divisor.isInf then size else size % (magnitude divisor).whole

def wholeIsZero (x : Float) : Bool :=
  !x.isNaN && !x.isInf && (magnitude x).whole == 0

structure RoundingRange where
  low : Nat
  value : Nat
  high : Nat
  closed : Bool
  places : Nat
  deriving DecidableEq, Repr

namespace RoundingRange

def ofMagnitude (x : Magnitude) : RoundingRange where
  low := (4 * x.mantissa - x.reach) * x.quarter
  value := 4 * x.mantissa * x.quarter
  high := (4 * x.mantissa + 2) * x.quarter
  closed := x.mantissa % 2 == 0
  places := (2 - x.exponent).toNat

def contains (r : RoundingRange) (n : Nat) : Bool :=
  if r.closed then decide (r.low ≤ n ∧ n ≤ r.high) else decide (r.low < n ∧ n < r.high)

/- Of two equally near multiples it is the larger. -/
def nearest? (r : RoundingRange) (zeros : Nat) : Option Nat :=
  let step := Nat.pow 10 zeros
  let below := r.value / step * step
  let above := below + step
  if r.contains below && (!r.contains above || decide (2 * (r.value - below) < step)) then some below
  else if r.contains above then some above
  else none

def coarsest (r : RoundingRange) : Nat → Nat
  | 0 => r.value
  | zeros + 1 => (r.nearest? (zeros + 1)).getD (r.coarsest zeros)

def shortest (r : RoundingRange) : Nat := r.coarsest (Nat.toDigits 10 r.high).length

end RoundingRange

def paddedDigits : (width n : Nat) → List Char
  | 0, _ => []
  | width + 1, n => paddedDigits width (n / 10) ++ [Nat.digitChar (n % 10)]

def dropTrailingZeros (digits : List Char) : List Char :=
  (digits.reverse.dropWhile (· == '0')).reverse

def positional (units places : Nat) : List Char :=
  let fraction := dropTrailingZeros (paddedDigits places (units % Nat.pow 10 places))
  Nat.toDigits 10 (units / Nat.pow 10 places) ++ if fraction.isEmpty then [] else '.' :: fraction

def numberText (x : Float) : String :=
  if x.isNaN then "NaN"
  else
    let sign := if signBit x then ['-'] else []
    let size :=
      if x.isInf then ['i', 'n', 'f']
      else
        let range := RoundingRange.ofMagnitude (magnitude x)
        positional range.shortest range.places
    String.ofList (sign ++ size)

end Formula
