import Std.Data.TreeMap
import Formula.Operator
import Formula.Text

/-! The operations a formula may name, in one table for each tier. Entries written before their operands, signs and
functions alike, share one space of names; symbols written between two operands share another, where each has one
precedence. In both the last registration of a name replaces the one before. -/
namespace Formula

inductive Precedence where
  | multiplicative
  | additive
  deriving DecidableEq, Repr

inductive Tier where
  | leading
  | between (precedence : Precedence)
  deriving DecidableEq, Repr

def Tier.all : List Tier := [.leading, .between .multiplicative, .between .additive]

theorem insertApart {entered left : Std.TreeMap String Operation}
    (apart : ∀ name, ¬(name ∈ entered ∧ name ∈ left)) (name : String) (f : Operation) (other : String) :
    ¬(other ∈ entered.insert name f ∧ other ∈ left.erase name) := by
  rintro ⟨inEntered, inLeft⟩
  rw [Std.TreeMap.mem_insert] at inEntered
  rw [Std.TreeMap.mem_erase] at inLeft
  exact apart other ⟨inEntered.resolve_left inLeft.1, inLeft.2⟩

structure Registry where
  leading : Std.TreeMap String Operation
  multiplicative : Std.TreeMap String Operation
  additive : Std.TreeMap String Operation
  apart : ∀ name, ¬(name ∈ multiplicative ∧ name ∈ additive)

namespace Registry

def empty : Registry := ⟨∅, ∅, ∅, by simp⟩

def table (R : Registry) : Tier → Std.TreeMap String Operation
  | .leading => R.leading
  | .between .multiplicative => R.multiplicative
  | .between .additive => R.additive

def insert (R : Registry) (tier : Tier) (name : String) (f : Operation) : Registry :=
  match tier with
  | .leading => { R with leading := R.leading.insert name f }
  | .between .multiplicative =>
    { R with
      multiplicative := R.multiplicative.insert name f
      additive := R.additive.erase name
      apart := insertApart R.apart name f }
  | .between .additive =>
    { R with
      multiplicative := R.multiplicative.erase name
      additive := R.additive.insert name f
      apart := fun other both => insertApart (fun name both => R.apart name both.symm) name f other both.symm }

def register (R : Registry) (name : String) (f : Operation) : Registry := R.insert .leading name f

def registerSymbol (R : Registry) (tier : Tier) (symbol : Char) (f : Operation) : Registry :=
  R.insert tier symbol.toString f

def operation? (R : Registry) (tier : Tier) (name : String) : Option Operation := (R.table tier)[name]?

def leading? (R : Registry) (name : String) : Option Operation := R.operation? .leading name

def between? (R : Registry) (name : String) : Option (Precedence × Operation) :=
  (R.operation? (.between .multiplicative) name).map (.multiplicative, ·) <|>
    (R.operation? (.between .additive) name).map (.additive, ·)

def leadingTier? (R : Registry) (name : String) : Option Tier := (R.leading? name).map fun _ => .leading

def betweenTier? (R : Registry) (name : String) : Option Tier := (R.between? name).map fun entry => .between entry.1

def isFunction (R : Registry) (name : String) : Bool := (R.leading? name).isSome

def isSymbolIn (R : Registry) (tier : Tier) (symbol : Char) : Bool := (R.table tier).contains symbol.toString

def isSymbol (R : Registry) (symbol : Char) : Bool :=
  R.isSymbolIn (.between .multiplicative) symbol || R.isSymbolIn (.between .additive) symbol

def names (R : Registry) (tier : Tier) : List String := (R.table tier).keys

theorem operationSome (R : Registry) (tier : Tier) (name : String) :
    (R.operation? tier name).isSome = (R.table tier).contains name :=
  Std.TreeMap.isSome_getElem?_eq_contains

theorem operationInsert (R : Registry) (tier other : Tier) (name key : String) (f : Operation) :
    (R.insert tier name f).operation? other key =
      if name = key ∧ (tier = .leading ↔ other = .leading) then if tier = other then some f else none
      else R.operation? other key := by
  rcases tier with _ | (_ | _) <;> rcases other with _ | (_ | _) <;>
    simp [insert, operation?, table, Std.TreeMap.getElem?_insert, Std.TreeMap.getElem?_erase]

theorem symbolIffTier (R : Registry) (symbol : Char) :
    R.isSymbol symbol = true ↔ ∃ p, R.isSymbolIn (.between p) symbol = true := by
  rw [isSymbol, Bool.or_eq_true]
  constructor
  · rintro (multiplicative | additive)
    · exact ⟨.multiplicative, multiplicative⟩
    · exact ⟨.additive, additive⟩
  · rintro ⟨p, tier⟩
    cases p with
    | multiplicative => exact .inl tier
    | additive => exact .inr tier

end Registry

inductive Registration where
  | named (name : String) (f : Operation)
  | symbol (tier : Tier) (symbol : Char) (f : Operation)
  | elementary

namespace Registry

def standard : Registry :=
  empty
    |>.registerSymbol .leading '+' .plusSign
    |>.registerSymbol .leading '-' .minusSign
    |>.register "sqrt" .squareRoot
    |>.register "abs" .absolute
    |>.registerSymbol (.between .multiplicative) '*' .product
    |>.registerSymbol (.between .multiplicative) '/' .quotient
    |>.registerSymbol (.between .multiplicative) '%' .remainder
    |>.registerSymbol (.between .multiplicative) '^' .power
    |>.registerSymbol (.between .additive) '+' .sum
    |>.registerSymbol (.between .additive) '-' .difference

def withElementary (R : Registry) : Registry :=
  R
    |>.register "sin" .sine
    |>.register "cos" .cosine
    |>.register "tan" .tangent
    |>.register "exp" .exponential
    |>.register "ln" .naturalLogarithm
    |>.register "log10" .decimalLogarithm
    |>.register "floor" .floor
    |>.register "ceil" .ceiling
    |>.register "round" .nearest
    |>.register "min" .least
    |>.register "max" .greatest
    |>.register "avg" .average

def enroll (R : Registry) : Registration → Registry
  | .named name f => R.register name f
  | .symbol tier symbol f => R.registerSymbol tier symbol f
  | .elementary => R.withElementary

def enrollAll (R : Registry) (registrations : List Registration) : Registry := registrations.foldl enroll R

end Registry

def Tier.title : Tier → String
  | .leading => "Prefix"
  | .between .multiplicative => "Multiplicative"
  | .between .additive => "Additive"

def Registry.listing (R : Registry) : String :=
  let row (tier : Tier) := tier.title ++ ": [" ++ ", ".intercalate ((R.names tier).map quoted) ++ "]"
  "Registry \x7b " ++ ", ".intercalate (Tier.all.map row) ++ " \x7d"

end Formula
