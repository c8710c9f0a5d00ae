import Formula.Proofs.Decimal.Literals
import Formula.Proofs.Expr.PostOrder
import Formula.Proofs.Expr.Variables

/-! The text of a term is empty, a literal or a variable, and only one of them. The value of a formula depends on
what is bound to its variables and on no other binding, and its variables are those texts of its terms that are neither
empty nor a literal. -/
namespace Formula

def Variable (payload : String) : Prop := payload ≠ "" ∧ ¬ Literal payload.toList

inductive PayloadKind where
  | zero
  | literal
  | named

def PayloadKind.Holds (payload : String) : PayloadKind → Prop
  | .zero => payload = ""
  | .literal => Literal payload.toList
  | .named => Variable payload

section
variable {payload : String}

theorem literalFilled (literal : Literal payload.toList) : payload ≠ "" := by
  rintro rfl
  obtain ⟨-, digit, -⟩ := literalCounts.mp literal
  contradiction

theorem payloadKind (payload : String) : ∃! kind : PayloadKind, kind.Holds payload := by
  by_cases empty : payload = ""
  · refine ⟨.zero, empty, fun kind holds => ?_⟩
    cases kind with
    | zero => rfl
    | literal => exact absurd empty (literalFilled holds)
    | named => exact absurd empty holds.1
  · by_cases literal : Literal payload.toList
    · refine ⟨.literal, literal, fun kind holds => ?_⟩
      cases kind with
      | zero => exact absurd holds empty
      | literal => rfl
      | named => exact absurd literal holds.2
    · refine ⟨.named, ⟨empty, literal⟩, fun kind holds => ?_⟩
      cases kind with
      | zero => exact absurd holds empty
      | literal => exact absurd holds literal
      | named => rfl

theorem meaningLiteral (literal : Literal payload.toList) :
    ∃ value, literalValue? payload = some value ∧ Meaning.ofPayload payload = .literal value := by
  obtain ⟨value, found⟩ := Option.isSome_iff_exists.mp (literalGrammar.mpr literal)
  refine ⟨value, found, ?_⟩
  rw [Meaning.ofPayload, if_neg (literalFilled literal), found]

theorem meaningVariable : Meaning.ofPayload payload = .named payload ↔ Variable payload := by
  constructor
  · intro named
    refine ⟨?_, fun literal => ?_⟩
    · rintro rfl
      contradiction
    · obtain ⟨value, -, other⟩ := meaningLiteral literal
      cases named.symm.trans other
  · intro ⟨filled, word⟩
    have none : literalValue? payload = none := by
      rw [← Option.not_isSome_iff_eq_none, literalGrammar]
      exact word
    rw [Meaning.ofPayload, if_neg filled, none]

end

namespace Expr
variable {R : Registry} {bindings : Bindings} {payload name : String}

theorem emptyValue (empty : payload = "") : (term payload).evaluate R bindings = .ok 0.0 := by
  subst empty
  rfl

theorem literalTerm (literal : Literal payload.toList) :
    ∃ value, literalValue? payload = some value ∧ ∀ R bindings, (term payload).evaluate R bindings = .ok value := by
  obtain ⟨value, found, meaning⟩ := meaningLiteral literal
  exact ⟨value, found, fun R bindings => by simp only [evaluateTerm, Meaning.evaluate, meaning]⟩

theorem variableBound (named : Variable payload) {value : Float} (bound : bindings payload = some value) :
    (term payload).evaluate R bindings = .ok value := by
  rw [evaluateNamed (meaningVariable.mpr named), bound]

theorem variableUnbound (named : Variable payload) (free : bindings payload = none) :
    (term payload).evaluate R bindings = .error (.unbound payload) := by
  rw [evaluateNamed (meaningVariable.mpr named), free]

theorem constantPayload (constant : ¬ Variable payload) (word : String) : Meaning.ofPayload payload ≠ .named word := by
  rcases meaningCases payload with named | other
  · exact absurd (meaningVariable.mp named) constant
  · exact other word

theorem termDepends (R : Registry) (payload : String) :
    (∃ bindings other, (term payload).evaluate R bindings ≠ (term payload).evaluate R other) ↔ Variable payload := by
  constructor
  · intro ⟨bindings, other, differ⟩
    by_contra constant
    obtain ⟨value, worth⟩ := evaluateConstant (constantPayload constant) (R := R)
    exact differ ((worth bindings).trans (worth other).symm)
  · intro named
    refine ⟨fun _ => none, fun _ => some 0.0, ?_⟩
    rw [variableUnbound named rfl, variableBound named rfl]
    exact nofun

mutual
theorem occurrencesNodes : (e : Expr) → (name ∈ e.occurrences ↔ .term name ∈ e.nodes ∧ Variable name)
  | .term payload => by
    rw [nodes, List.mem_singleton, term.injEq]
    by_cases named : Variable payload
    · rw [occurrencesNamed (meaningVariable.mpr named), List.mem_singleton]
      exact ⟨fun same => ⟨same, same ▸ named⟩, And.left⟩
    · rw [occurrencesConstant (constantPayload named)]
      exact ⟨nofun, fun ⟨same, holds⟩ => absurd (same ▸ holds) named⟩
  | .binary symbol left right => by
    simp [occurrences, nodes, occurrencesNodes left, occurrencesNodes right, or_and_right]
  | .unary symbol operand => by
    simp [occurrences, nodes, occurrencesNodes operand]
  | .call function arguments => by
    simp [occurrences, nodes, occurrencesNodesAll arguments]

theorem occurrencesNodesAll : (es : List Expr) →
    (name ∈ occurrencesAll es ↔ .term name ∈ nodesAll es ∧ Variable name)
  | [] => by simp [occurrencesAll, nodesAll]
  | e :: es => by
    simp [occurrencesAll, nodesAll, occurrencesNodes e, occurrencesNodesAll es, or_and_right]
end

end Expr

structure Classified (payload : String) : Prop where
  accepted : (literalValue? payload).isSome = true ↔ Literal payload.toList
  counted : Literal payload.toList ↔
    ∃ digits points, tally 0 0 payload.toList = some (digits, points) ∧ 0 < digits ∧ points ≤ 1
  fits : ∀ digits points, tally 0 0 payload.toList = some (digits, points) → digits + points = payload.length
  kind : ∃! kind : PayloadKind, kind.Holds payload
  zero : payload = "" → ∀ R bindings, (Expr.term payload).evaluate R bindings = .ok 0.0
  literal : Literal payload.toList →
    ∃ value, literalValue? payload = some value ∧ ∀ R bindings, (Expr.term payload).evaluate R bindings = .ok value
  bound : Variable payload → ∀ R bindings value, bindings payload = some value →
    (Expr.term payload).evaluate R bindings = .ok value
  unbound : Variable payload → ∀ R bindings, bindings payload = none →
    (Expr.term payload).evaluate R bindings = .error (.unbound payload)
  depends : ∀ R, (∃ bindings other,
    (Expr.term payload).evaluate R bindings ≠ (Expr.term payload).evaluate R other) ↔ Variable payload

structure Consulted (e : Expr) : Prop where
  collected : ∀ name, name ∈ e.variableNames ↔ .term name ∈ e.nodes ∧ Variable name
  decides : ∀ (R : Registry) (bindings other : Bindings),
    (∀ name, .term name ∈ e.nodes → Variable name → bindings name = other name) →
      e.evaluate R bindings = e.evaluate R other
  needed : ∀ R bindings value, e.evaluate R bindings = .ok value →
    ∀ name, .term name ∈ e.nodes → Variable name → (bindings name).isSome = true
  missing : ∀ R bindings name, e.evaluate R bindings = .error (.unbound name) →
    .term name ∈ e.nodes ∧ Variable name ∧ bindings name = none

theorem termClassified (payload : String) : Classified payload where
  accepted := literalGrammar
  counted := literalTally
  fits digits points counted := by
    rw [← String.length_toList, tallyLength counted, Nat.zero_add]
  kind := payloadKind payload
  zero empty _ _ := Expr.emptyValue empty
  literal := Expr.literalTerm
  bound named _ _ _ := Expr.variableBound named
  unbound named _ _ := Expr.variableUnbound named
  depends R := Expr.termDepends R payload

theorem variablesConsulted (e : Expr) : Consulted e where
  collected name := by rw [Expr.memVariableNames, Expr.occurrencesNodes]
  decides R bindings other agree := by
    apply Expr.evaluateAgree
    intro name member
    obtain ⟨node, named⟩ := (Expr.occurrencesNodes e).mp member
    exact agree name node named
  needed R bindings value worth name node named :=
    (Expr.evaluateNeeds e).bound value worth name ((Expr.occurrencesNodes e).mpr ⟨node, named⟩)
  missing R bindings name fails := by
    have first := (Expr.evaluateNeeds e).missing name fails
    obtain ⟨node, named⟩ := (Expr.occurrencesNodes e).mp (List.mem_of_find?_eq_some first)
    exact ⟨node, named, by simpa using List.find?_some first⟩

theorem payloadsClassified : (∀ payload, Classified payload) ∧ ∀ e, Consulted e :=
  ⟨termClassified, variablesConsulted⟩

/- Signs, exponents, words, gaps, a second point and the Arabic three make variables. -/
theorem payloadsClassifiedMixed : let e : Expr := .binary "+" (.term "2e3") (.call "abs" [.term "3."])
    (∀ payload ∈ ["42", ".5", "3."], Literal payload.toList) ∧
    (∀ payload ∈ ["+1", "2e3", "inf", "NaN", "1_0", "1.2.3", ".", "٣"], Variable payload) ∧
    (Expr.term "2e3").evaluate .standard (fun _ => none) = .error (.unbound "2e3") ∧
    "2e3" ∈ e.variableNames ∧ "3." ∉ e.variableNames ∧
    e.evaluate .standard (fun _ => none) = .error (.unbound "2e3") ∧
    e.evaluate .standard (fun name => if name = "2e3" then some 1 else none) =
      e.evaluate .standard (fun _ => some 1) := by
  intro e
  obtain ⟨classified, consulted⟩ := payloadsClassified
  have words : ∀ payload ∈ ["+1", "2e3", "inf", "NaN", "1_0", "1.2.3", ".", "٣"],
      payload ≠ "" ∧ ¬ (literalValue? payload).isSome = true := by decide +kernel
  have named : ∀ payload ∈ ["+1", "2e3", "inf", "NaN", "1_0", "1.2.3", ".", "٣"], Variable payload := by
    intro payload member
    obtain ⟨filled, word⟩ := words payload member
    exact ⟨filled, fun literal => word ((classified payload).accepted.mpr literal)⟩
  have literals : ∀ payload ∈ ["42", ".5", "3."], (literalValue? payload).isSome = true := by decide +kernel
  have literal (payload : String) (member : payload ∈ ["42", ".5", "3."]) : Literal payload.toList :=
    (classified payload).accepted.mp (literals payload member)
  have exponent : Variable "2e3" := named "2e3" (by simp)
  refine ⟨literal, named, (classified "2e3").unbound exponent .standard _ rfl, ?_, ?_, rfl, ?_⟩
  · exact ((consulted e).collected "2e3").mpr ⟨by simp [e, Expr.nodes], exponent⟩
  · intro member
    exact (((consulted e).collected "3.").mp member).2.2 (literal "3." (by simp))
  · refine (consulted e).decides .standard _ _ fun name node found => ?_
    simp only [e, Expr.nodes, Expr.nodesAll, List.append_nil, List.cons_append, List.nil_append, List.mem_cons,
      Expr.term.injEq, reduceCtorEq, List.not_mem_nil, or_false] at node
    rcases node with rfl | rfl
    · rfl
    · exact absurd (literal "3." (by simp)) found.2

end Formula
