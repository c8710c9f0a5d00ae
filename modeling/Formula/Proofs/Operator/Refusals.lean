import Mathlib.Data.List.Basic
import Formula.Proofs.Registry.Latest

/-! What the operations that are ready for use refuse. A function of one number refuses any other count, roots and
logarithms refuse some numbers, quotients some divisors, and functions of several numbers an empty list. -/
namespace Formula

def singleNames : List String :=
  ["sqrt", "abs", "sin", "cos", "tan", "exp", "ln", "log10", "floor", "ceil", "round"]

def signNames : List String := ["+", "-"]

def partialNames : List String := ["sqrt", "ln", "log10"]

def severalNames : List String := ["min", "max", "avg"]

def divisionSymbols : List Char := ['/', '%']

inductive Refuses : Entry → List Float → OperatorError → Prop where
  | divisor {p : Precedence} {c : Char} {f : Operation} {label : String} {x y : Float} (divides : c ∈ divisionSymbols) :
      Refuses (.between p c f) [x, y] (.zeroDivisor label)
  | notTwo {p : Precedence} {c : Char} {f : Operation} {label : String} {args : List Float} (other : args.length ≠ 2) :
      Refuses (.between p c f) args (.argumentCount label 2 args.length)
  | domain {name : String} {f : Operation} {label : String} {x value : Float} (fussy : name ∈ partialNames) :
      Refuses (.leading name f) [x] (.outOfDomain label value)
  | notOne {name : String} {f : Operation} {label : String} {args : List Float} (single : name ∈ signNames ++ singleNames)
      (other : args.length ≠ 1) : Refuses (.leading name f) args (.argumentCount label 1 args.length)
  | nothing {name : String} {f : Operation} {text : String} (several : name ∈ severalNames) :
      Refuses (.leading name f) [] (.custom text)

def Entry.Sure (entry : Entry) : Prop :=
  match entry with
  | .leading _ f | .between _ _ f => ∀ args cause, f args = .error cause → Refuses entry args cause

namespace Entry
variable {name label : String} {p : Precedence} {c : Char}

theorem ofOne {f : Float → Except OperatorError Float} (single : name ∈ signNames ++ singleNames)
    (fails : ∀ x cause, f x = .error cause → Refuses (.leading name (.ofArity label 1 f)) [x] cause) :
    Sure (.leading name (.ofArity label 1 f)) := by
  intro args cause failed
  by_cases count : args.length = 1
  · obtain ⟨x, rfl⟩ := List.length_eq_one_iff.mp count
    exact fails x cause failed
  · rw [Operation.ofArityMismatch label f args count] at failed
    cases failed
    exact .notOne single count

theorem ofTotal {f : Float → Float} (single : name ∈ signNames ++ singleNames) :
    Sure (.leading name (.ofArity label 1 fun x => .ok (f x))) := ofOne single nofun

theorem ofPartial {f : Float → Float} {outside : Float → Prop} [DecidablePred outside]
    (single : name ∈ signNames ++ singleNames) (fussy : name ∈ partialNames) :
    Sure (.leading name (.ofArity label 1 fun x => if outside x then .error (.outOfDomain label x) else .ok (f x))) := by
  refine ofOne single fun x cause failed => ?_
  split at failed
  · cases failed
    exact .domain fussy
  · contradiction

theorem ofTwo {f : Float → Float → Except OperatorError Float}
    (fails : ∀ x y cause, f x y = .error cause → Refuses (.between p c (.ofArity label 2 f)) [x, y] cause) :
    Sure (.between p c (.ofArity label 2 f)) := by
  intro args cause failed
  by_cases count : args.length = 2
  · obtain ⟨x, y, rfl⟩ := List.length_eq_two.mp count
    exact fails x y cause failed
  · rw [Operation.ofArityMismatch label f args count] at failed
    cases failed
    exact .notTwo count

theorem ofWhole {f : Float → Float → Float} : Sure (.between p c (.ofArity label 2 fun x y => .ok (f x y))) :=
  ofTwo nofun

theorem ofDivision {f : Float → Float → Float} {zero : Float → Bool} (divides : c ∈ divisionSymbols) :
    Sure (.between p c (.ofArity label 2 fun x y =>
      if zero y then .error (.zeroDivisor label) else .ok (f x y))) := by
  refine ofTwo fun x y cause failed => ?_
  split at failed
  · cases failed
    exact .divisor divides
  · contradiction

theorem ofSeveral {f : List Float → Float} (several : name ∈ severalNames) :
    Sure (.leading name (.nonEmpty label f)) := by
  intro args cause failed
  cases args with
  | nil =>
    cases failed
    exact .nothing several
  | cons x xs => contradiction

theorem standardSure : ∀ entry ∈ standardEntries, entry.Sure := by
  simp only [standardEntries, List.forall_mem_cons, List.not_mem_nil, false_implies, implies_true, and_true]
  exact ⟨ofTotal (by decide), ofTotal (by decide), ofPartial (by decide) (by decide), ofTotal (by decide),
    ofWhole, ofDivision (by decide), ofDivision (by decide), ofWhole, ofWhole, ofWhole⟩

theorem elementarySure : ∀ entry ∈ elementaryEntries, entry.Sure := by
  simp only [elementaryEntries, List.forall_mem_cons, List.not_mem_nil, false_implies, implies_true, and_true]
  exact ⟨ofTotal (by decide), ofTotal (by decide), ofTotal (by decide), ofTotal (by decide),
    ofPartial (by decide) (by decide), ofPartial (by decide) (by decide), ofTotal (by decide), ofTotal (by decide),
    ofTotal (by decide), ofSeveral (by decide), ofSeveral (by decide), ofSeveral (by decide)⟩

end Entry

end Formula
