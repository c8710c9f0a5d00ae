import Formula.Proofs.Expr.Replacement
import Formula.Registry

/-! The variables of a formula are the values that its evaluation needs. Bindings that agree on them give the same
outcome. A value needs all of them, and what is reported as missing is the first one without a value. -/
namespace Formula.Expr

/- What an outcome tells of the variables met on the way to it, in reading order. -/
structure Needs {α : Type} (bindings : Bindings) (names : List String) (outcome : Except EvalError α) : Prop where
  bound : ∀ a, outcome = .ok a → ∀ name ∈ names, (bindings name).isSome = true
  missing : ∀ name, outcome = .error (.unbound name) → names.find? (fun other => (bindings other).isNone) = some name

namespace Needs
variable {α β : Type} {bindings : Bindings} {first second : List String}

theorem ofOk (a : α) : Needs bindings [] (.ok a) := ⟨by simp, by simp⟩

theorem bind {outcome : Except EvalError α} {f : α → Except EvalError β} (needs : Needs bindings first outcome)
    (next : ∀ a, Needs bindings second (f a)) : Needs bindings (first ++ second) (outcome >>= f) := by
  cases outcome with
  | ok a =>
    have all : ∀ name ∈ first, (bindings name).isSome = true := needs.bound a rfl
    have none : first.find? (fun name => (bindings name).isNone) = none := by
      rw [List.find?_eq_none]
      intro name member
      simpa using Option.isSome_iff_ne_none.mp (all name member)
    refine ⟨fun b worth => ?_, fun name fails => ?_⟩
    · exact List.forall_mem_append.mpr ⟨all, (next a).bound b worth⟩
    · rw [List.find?_append, none, Option.none_or]
      exact (next a).missing name fails
  | error failure =>
    refine ⟨fun b worth => ?_, fun name fails => ?_⟩
    · cases worth
    · cases fails
      rw [List.find?_append, needs.missing name rfl, Option.some_or]

theorem ofApplied (R : Registry) (kind : OperatorKind) (found : Option Tier) (name : String) (args : List Float) :
    Needs bindings [] (R.applyFound kind found name args) := by
  refine ⟨by simp, fun missing fails => ?_⟩
  unfold Registry.applyFound Registry.applyFoundOr Registry.applyOr at fails
  split at fails
  · split at fails
    · rename_i f _
      cases outcome : f args with
      | ok value | error cause =>
        rw [outcome] at fails
        cases fails
    · cases fails
  · cases fails

end Needs

section
variable {R : Registry} {bindings other : Bindings}

theorem occurrencesNamed {payload : String} (named : Meaning.ofPayload payload = .named payload) :
    (term payload).occurrences = [payload] := by
  simp only [occurrences, named]

theorem occurrencesConstant {payload : String} (constant : ∀ word, Meaning.ofPayload payload ≠ .named word) :
    (term payload).occurrences = [] := by
  unfold occurrences
  split
  · rename_i word named
    exact absurd named (constant word)
  · rfl

theorem termNeeds (payload : String) :
    Needs bindings (term payload).occurrences ((term payload).evaluate R bindings) := by
  rcases meaningCases payload with named | constant
  · rw [occurrencesNamed named, evaluateNamed named]
    cases bound : bindings payload with
    | none => exact ⟨by simp, by simp [bound]⟩
    | some value => exact ⟨by simp [bound], by simp⟩
  · obtain ⟨value, worth⟩ := evaluateConstant constant
    rw [occurrencesConstant constant, worth]
    exact .ofOk value

mutual
theorem evaluateNeeds : (e : Expr) → Needs bindings e.occurrences (e.evaluate R bindings)
  | .term payload => termNeeds payload
  | .binary symbol left right => by
    have both := (evaluateNeeds left).bind fun x => (evaluateNeeds right).bind fun y =>
      .ofApplied R .binary (R.betweenTier? symbol) symbol [x, y]
    rwa [List.append_nil] at both
  | .unary symbol operand => by
    have whole := (evaluateNeeds operand).bind fun x => .ofApplied R .unary (R.leadingTier? symbol) symbol [x]
    rwa [List.append_nil] at whole
  | .call name arguments => by
    have whole := (evaluateAllNeeds arguments).bind fun xs =>
      .ofApplied R .function (R.leadingTier? name) name xs
    rwa [List.append_nil] at whole

theorem evaluateAllNeeds : (es : List Expr) → Needs bindings (occurrencesAll es) (evaluateAll R bindings es)
  | [] => .ofOk []
  | e :: es => by
    have both := (evaluateNeeds e).bind fun x => (evaluateAllNeeds es).bind fun xs => .ofOk (x :: xs)
    rwa [List.append_nil] at both
end

mutual
theorem evaluateAgree : (e : Expr) → (∀ name ∈ e.occurrences, bindings name = other name) →
    e.evaluate R bindings = e.evaluate R other
  | .term payload, agree => by
    rcases meaningCases payload with named | constant
    · rw [occurrencesNamed named, List.forall_mem_singleton] at agree
      rw [evaluateNamed named, evaluateNamed named, agree]
    · obtain ⟨value, worth⟩ := evaluateConstant constant
      rw [worth, worth]
  | .binary symbol left right, agree => by
    obtain ⟨first, second⟩ := List.forall_mem_append.mp agree
    rw [evaluateBinary, evaluateBinary, evaluateAgree left first, evaluateAgree right second]
  | .unary symbol operand, agree => by
    rw [evaluateUnary, evaluateUnary, evaluateAgree operand agree]
  | .call name arguments, agree => by
    rw [evaluateCall, evaluateCall, evaluateAllAgree arguments agree]

theorem evaluateAllAgree : (es : List Expr) → (∀ name ∈ occurrencesAll es, bindings name = other name) →
    evaluateAll R bindings es = evaluateAll R other es
  | [], _ => rfl
  | e :: es, agree => by
    obtain ⟨first, later⟩ := List.forall_mem_append.mp agree
    rw [evaluateAllCons, evaluateAllCons, evaluateAgree e first, evaluateAllAgree es later]
end

end

theorem variablesSorted (e : Expr) : e.variableNames.Pairwise (· < ·) := by
  have ordered := Std.TreeSet.ordered_toList (t := Std.TreeSet.ofList e.occurrences)
  exact ordered.imp fun before => compareOfLessAndEq_eq_lt.mp before

theorem variablesNeeded (R : Registry) (e : Expr) :
    e.variableNames.Pairwise (· < ·) ∧
    (∀ bindings other : Bindings, (∀ name ∈ e.variableNames, bindings name = other name) →
      e.evaluate R bindings = e.evaluate R other) ∧
    (∀ bindings value, e.evaluate R bindings = .ok value →
      ∀ name ∈ e.variableNames, (bindings name).isSome = true) ∧
    ∀ bindings name, e.evaluate R bindings = .error (.unbound name) → name ∈ e.variableNames ∧ bindings name = none ∧
      e.occurrences.find? (fun other => (bindings other).isNone) = some name := by
  simp only [memVariableNames]
  refine ⟨variablesSorted e, fun _ _ agree => evaluateAgree e agree, fun _ => (evaluateNeeds e).bound, ?_⟩
  intro bindings name fails
  have first := (evaluateNeeds e).missing name fails
  exact ⟨List.mem_of_find?_eq_some first, by simpa using List.find?_some first, first⟩

/- The exponent form names a variable here, and the value that is missing is the first of two. -/
theorem variablesNeededExponent : ∃ (e : Expr) (bindings other full : Bindings) (value : Float),
    e.variableNames = ["2e3", "a", "b"] ∧ e.occurrences = ["b", "2e3", "b", "a"] ∧
    (∀ name ∈ e.variableNames, bindings name = other name) ∧ bindings "1.5" ≠ other "1.5" ∧
    e.evaluate .standard bindings = e.evaluate .standard other ∧
    e.evaluate .standard bindings = .error (.unbound "2e3") ∧ "2e3" ∈ e.variableNames ∧ bindings "2e3" = none ∧
    e.occurrences.find? (fun other => (bindings other).isNone) = some "2e3" ∧
    e.evaluate .standard full = .ok value ∧ ∀ name ∈ e.variableNames, (full name).isSome = true := by
  let e : Expr := .binary "+" (.binary "*" (.term "b") (.term "2e3")) (.call "abs" [.binary "-" (.term "b")
    (.binary "*" (.term "1.5") (.term "a"))])
  let bindings : Bindings := fun name => if name = "b" then some 2 else none
  let other : Bindings := fun name => if name = "b" then some 2 else if name = "1.5" then some 3 else none
  let full : Bindings := fun _ => some 2
  have needed := variablesNeeded .standard e
  have names : e.variableNames = ["2e3", "a", "b"] := by decide +kernel
  have agree : ∀ name ∈ e.variableNames, bindings name = other name := by
    rw [names]
    simp [bindings, other]
  have fails : e.evaluate .standard bindings = .error (.unbound "2e3") := rfl
  obtain ⟨inNames, unbound, first⟩ := needed.2.2.2 bindings "2e3" fails
  have worth : ∃ value, e.evaluate .standard full = .ok value := ⟨_, rfl⟩
  obtain ⟨value, worth⟩ := worth
  exact ⟨e, bindings, other, full, value, names, by decide +kernel, agree, by simp [bindings, other],
    needed.2.1 bindings other agree, fails, inNames, unbound, first, worth, needed.2.2.1 full value worth⟩

end Formula.Expr
