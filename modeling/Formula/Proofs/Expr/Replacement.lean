import Mathlib.Logic.Function.Basic
import Formula.Expr

/-! A formula put in the place of a variable. It counts for what it is worth: the whole has the value, or the failure,
that it has with the variable bound to the value of the part. -/
namespace Formula.Expr

mutual
def replaced (name : String) (part : Expr) : Expr → Expr
  | .term payload => if payload = name then part else .term payload
  | .binary symbol left right => .binary symbol (replaced name part left) (replaced name part right)
  | .unary symbol operand => .unary symbol (replaced name part operand)
  | .call function arguments => .call function (replacedAll name part arguments)

def replacedAll (name : String) (part : Expr) : List Expr → List Expr
  | [] => []
  | e :: es => replaced name part e :: replacedAll name part es
end

section
variable {R : Registry} {bindings : Bindings} {name payload : String} {part : Expr} {value : Float}

theorem evaluateNamed (named : Meaning.ofPayload payload = .named payload) :
    (term payload).evaluate R bindings = match bindings payload with
      | some value => .ok value
      | none => .error (.unbound payload) := by
  cases bound : bindings payload with
  | none => simp only [evaluateTerm, Meaning.evaluate, named, bound]
  | some value => simp only [evaluateTerm, Meaning.evaluate, named, bound]

theorem meaningCases (payload : String) :
    Meaning.ofPayload payload = .named payload ∨ ∀ word, Meaning.ofPayload payload ≠ .named word := by
  unfold Meaning.ofPayload
  split
  · simp
  · split <;> simp

theorem evaluateConstant (constant : ∀ word, Meaning.ofPayload payload ≠ .named word) :
    ∃ value, ∀ bindings, (term payload).evaluate R bindings = .ok value := by
  cases meaning : Meaning.ofPayload payload with
  | zero => exact ⟨0.0, fun bindings => by simp only [evaluateTerm, Meaning.evaluate, meaning]⟩
  | literal value => exact ⟨value, fun bindings => by simp only [evaluateTerm, Meaning.evaluate, meaning]⟩
  | named word => exact absurd meaning (constant word)

theorem termUpdate (other : payload ≠ name) :
    (term payload).evaluate R (Function.update bindings name (some value)) = (term payload).evaluate R bindings := by
  rcases meaningCases payload with named | constant
  · rw [evaluateNamed named, evaluateNamed named, Function.update_of_ne other]
  · obtain ⟨constantValue, worth⟩ := evaluateConstant constant
    rw [worth, worth]

theorem nameUpdate (nonempty : name ≠ "") (word : literalValue? name = none) :
    (term name).evaluate R (Function.update bindings name (some value)) = .ok value := by
  have named : Meaning.ofPayload name = .named name := by rw [Meaning.ofPayload, if_neg nonempty, word]
  rw [evaluateNamed named, Function.update_self]

mutual
theorem evaluateReplaced (nonempty : name ≠ "") (word : literalValue? name = none)
    (worth : part.evaluate R bindings = .ok value) : (e : Expr) →
    (replaced name part e).evaluate R bindings = e.evaluate R (Function.update bindings name (some value))
  | .term payload => by
    rw [replaced]
    split
    · rename_i same
      subst same
      rw [worth, nameUpdate nonempty word]
    · rename_i other
      exact (termUpdate other).symm
  | .binary symbol left right => by
    rw [replaced, evaluateBinary, evaluateBinary, evaluateReplaced nonempty word worth left,
      evaluateReplaced nonempty word worth right]
  | .unary symbol operand => by
    rw [replaced, evaluateUnary, evaluateUnary, evaluateReplaced nonempty word worth operand]
  | .call function arguments => by
    rw [replaced, evaluateCall, evaluateCall, evaluateAllReplaced nonempty word worth arguments]

theorem evaluateAllReplaced (nonempty : name ≠ "") (word : literalValue? name = none)
    (worth : part.evaluate R bindings = .ok value) : (es : List Expr) →
    evaluateAll R bindings (replacedAll name part es) =
      evaluateAll R (Function.update bindings name (some value)) es
  | [] => rfl
  | e :: es => by
    rw [replacedAll, evaluateAllCons, evaluateAllCons, evaluateReplaced nonempty word worth e,
      evaluateAllReplaced nonempty word worth es]
end

end

end Formula.Expr
