import Mathlib.Data.List.Basic
import Formula.Proofs.Expr.PostOrder
import Formula.Proofs.Expr.Variables
import Formula.Proofs.Operator.Refusals
import Formula.Proofs.Reading.Written

/-! Where the failure of a formula comes from under a registry that is ready for use: a variable without a value, a
division, a call that left its domain, or a call with the wrong number of arguments. -/
namespace Formula

inductive Ready : Registry → Prop where
  | standard : Ready .standard
  | elementary : Ready Registry.standard.withElementary

inductive Origin : Expr → EvalError → Prop where
  | unbound {name : String} (named : Meaning.ofPayload name = .named name) : Origin (.term name) (.unbound name)
  | divisor {c : Char} {label : String} {left right : Expr} (divides : c ∈ divisionSymbols) :
      Origin (.binary c.toString left right) (.failed c.toString (.zeroDivisor label))
  | domain {name label : String} {argument : Expr} {value : Float} (fussy : name ∈ partialNames) :
      Origin (.call name [argument]) (.failed name (.outOfDomain label value))
  | count {name label : String} {arguments : List Expr} (single : name ∈ singleNames) (other : arguments.length ≠ 1) :
      Origin (.call name arguments) (.failed name (.argumentCount label 1 arguments.length))
  | nothing {name text : String} (several : name ∈ severalNames) : Origin (.call name []) (.failed name (.custom text))

namespace Ready
variable {R : Registry} {name : String} {f : Operation} {c : Char}

theorem holds (ready : Ready R) : ∃ entries, R.Holds entries ∧ ∀ entry ∈ entries, entry.Sure := by
  cases ready with
  | standard =>
    refine ⟨history .standard [], Registry.historyHolds .standard [], ?_⟩
    have entries : history .standard [] = standardEntries := rfl
    rw [entries]
    exact Entry.standardSure
  | elementary =>
    refine ⟨history .standard [.elementary], Registry.historyHolds .standard [.elementary], ?_⟩
    have entries : history .standard [.elementary] = standardEntries ++ elementaryEntries := rfl
    rw [entries]
    exact List.forall_mem_append.mpr ⟨Entry.standardSure, Entry.elementarySure⟩

theorem leading (ready : Ready R) (found : R.operation? .leading name = some f) : (Entry.leading name f).Sure := by
  obtain ⟨entries, holds, sure⟩ := ready.holds
  rw [holds.leading] at found
  obtain ⟨entry, member, answered⟩ := latestFrom found
  cases entry with
  | leading other g =>
    simp only [Entry.leading?, Option.ite_none_right_eq_some, Option.some.injEq] at answered
    obtain ⟨rfl, rfl⟩ := answered
    exact sure _ member
  | between p c g => contradiction

theorem between (ready : Ready R) {p : Precedence} (found : R.operation? (.between p) c.toString = some f) :
    (Entry.between p c f).Sure := by
  obtain ⟨entries, holds, sure⟩ := ready.holds
  obtain ⟨d, shown, recorded⟩ := (holds.between p c.toString f).mp found
  obtain rfl : d = c := by simpa using shown
  obtain ⟨entry, member, answered⟩ := latestFrom recorded
  cases entry with
  | leading other g => contradiction
  | between q other g =>
    simp only [Entry.between?, Option.ite_none_right_eq_some, Option.some.injEq, Prod.mk.injEq] at answered
    obtain ⟨rfl, rfl, rfl⟩ := answered
    exact sure _ member

theorem symbols (ready : Ready R) (c : Char) : R.isSymbol c = Registry.standard.isSymbol c := by
  cases ready with
  | standard => rfl
  | elementary => exact Registry.isSymbolElementary

theorem delimited (ready : Ready R) : R.Delimited where
  opening := (ready.symbols '(').trans Registry.standardDelimited.opening
  closing := (ready.symbols ')').trans Registry.standardDelimited.closing
  comma := (ready.symbols ',').trans Registry.standardDelimited.comma

theorem commaFree (ready : Ready R) : R.CommaFree := by
  cases ready with
  | standard => exact Registry.standardCommaFree
  | elementary => exact Registry.elementaryCommaFree Registry.standardCommaFree

theorem noSign (ready : Ready R) (letters : ∀ c ∈ name.toList, R.isLetter c = true) : name ∉ signNames := by
  have signs : ∀ name ∈ signNames, name.toList.any Registry.standard.isSymbol = true := by decide
  intro sign
  obtain ⟨c, member, symbol⟩ := List.any_eq_true.mp (signs name sign)
  have mute := lettersMute letters c member
  rw [ready.symbols, symbol] at mute
  cases mute

end Ready

theorem symbolNotPartial (c : Char) : c.toString ∉ partialNames := by
  have long : ∀ name ∈ partialNames, name.length ≠ 1 := by decide
  exact fun fussy => long c.toString fussy (by simp)

section
variable {R : Registry} {bindings : Bindings} {args : List Float} {e node : Expr} {error : EvalError}

theorem wellFormedNodes (wellFormed : WellFormed R e) : ∀ node ∈ e.nodes, WellFormed R node := by
  induction wellFormed with
  | term letters =>
    rw [Expr.nodes, List.forall_mem_singleton]
    exact .term letters
  | binary symbol shown left right inLeft inRight =>
    simp only [Expr.nodes, List.forall_mem_append, List.forall_mem_singleton]
    exact ⟨inLeft, inRight, .binary symbol shown left right⟩
  | unary symbol shown leading operand inOperand =>
    simp only [Expr.nodes, List.forall_mem_append, List.forall_mem_singleton]
    exact ⟨inOperand, .unary symbol shown leading operand⟩
  | call nonempty letters known arguments inArguments =>
    simp only [Expr.nodes, Expr.nodesAllFlatMap, List.forall_mem_append, List.forall_mem_singleton, List.mem_flatMap]
    refine ⟨?_, .call nonempty letters known arguments⟩
    rintro node ⟨argument, member, inside⟩
    exact inArguments argument member node inside

theorem wellFormedSupported (wellFormed : WellFormed R node) {kind : OperatorKind} {name : String}
    (operator : node.instruction.operator? = some (kind, name)) : node.instruction.operation? R ≠ none := by
  rw [Option.ne_none_iff_exists']
  cases wellFormed with
  | term letters => contradiction
  | binary symbol =>
    obtain ⟨p, tier⟩ := (R.symbolIffTier _).mp symbol
    rw [Registry.isSymbolInSome, Option.isSome_iff_exists] at tier
    obtain ⟨f, found⟩ := tier
    exact ⟨f, Registry.betweenRecorded.mpr ⟨p, found⟩⟩
  | unary symbol shown leading operand => exact Option.isSome_iff_exists.mp leading
  | call nonempty letters known arguments => exact Option.isSome_iff_exists.mp known

theorem raisedOrigin (ready : Ready R) (wellFormed : WellFormed R node)
    (enough : args.length = node.instruction.operands) {kind : OperatorKind} {name : String} {f : Operation}
    {cause : OperatorError} (operator : node.instruction.operator? = some (kind, name))
    (found : node.instruction.operation? R = some f) (raised : f args = .error cause) :
    Origin node (.failed name cause) := by
  cases wellFormed with
  | term letters => contradiction
  | binary symbol shown left right =>
    cases operator
    obtain ⟨p, found⟩ := Registry.betweenRecorded.mp found
    cases ready.between found args cause raised with
    | divisor divides => exact .divisor divides
    | notTwo other => exact absurd enough other
  | unary symbol shown leading operand =>
    cases operator
    cases ready.leading found args cause raised with
    -- A sign is one character, and every name with a domain is longer.
    | domain fussy => exact absurd fussy (symbolNotPartial _)
    | notOne single other => exact absurd enough other
    | nothing several => contradiction
  | call nonempty letters known arguments =>
    cases operator
    change args.length = List.length _ at enough
    cases ready.leading found args cause raised with
    | domain fussy =>
      obtain ⟨argument, rfl⟩ := List.length_eq_one_iff.mp enough.symm
      exact .domain fussy
    | notOne single other =>
      rw [enough] at other ⊢
      exact .count ((List.mem_append.mp single).resolve_left (ready.noSign letters)) other
    | nothing several =>
      obtain rfl := List.eq_nil_of_length_eq_zero enough.symm
      exact .nothing several

theorem nodeOrigin (ready : Ready R) (wellFormed : WellFormed R node)
    (enough : args.length = node.instruction.operands) (fails : Fails R bindings args node.instruction error) :
    Origin node error := by
  generalize instruction : node.instruction = i at fails
  cases fails with
  | unbound named free =>
    cases wellFormed with
    | term letters =>
      cases instruction
      exact .unbound named
    | binary | unary | call => contradiction
  | unsupported operator missing =>
    subst instruction
    exact absurd missing (wellFormedSupported wellFormed operator)
  | failed operator found raised =>
    subst instruction
    exact raisedOrigin ready wellFormed enough operator found raised

theorem evaluateOrigin (ready : Ready R) (wellFormed : WellFormed R e) (failed : e.evaluate R bindings = .error error) :
    ∃ node ∈ e.nodes, Origin node error := by
  obtain ⟨former, node, later, stack, parts, -, enough, fails⟩ := programFails.mp failed
  have member : node ∈ e.nodes := by simp [parts]
  -- Every node takes as many values off the stack as it has operands, and so fails on a list of that length.
  have taken : (stack.take node.instruction.operands).reverse.length = node.instruction.operands := by
    rw [List.length_reverse, List.length_take_of_le enough]
  exact ⟨node, member, nodeOrigin ready (wellFormedNodes wellFormed node member) taken fails⟩

theorem failuresKnown (ready : Ready R) {text : String} (read : R.read text = .ok e) (bindings : Bindings) :
    (∀ error, e.evaluate R bindings = .error error →
      (∃ node ∈ e.nodes, Origin node error) ∧ ∀ name, error = .unbound name → name ∈ e.variableNames) ∧
    (∀ node ∈ e.nodes, (∀ name arguments, node ≠ .call name arguments) →
      ∀ args, args.length = node.instruction.operands → ∀ name label expected actual,
        node.instruction.outcome R bindings args ≠ .error (.failed name (.argumentCount label expected actual))) ∧
    ((∀ name arguments, .call name arguments ∈ e.nodes → name ∈ singleNames → arguments.length = 1) →
      ∀ name label expected actual,
        e.evaluate R bindings ≠ .error (.failed name (.argumentCount label expected actual))) := by
  have wellFormed := Grammar.readWellFormed ready.delimited ready.commaFree read
  refine ⟨fun error failed => ⟨evaluateOrigin ready wellFormed failed, ?_⟩, ?_, ?_⟩
  · rintro name rfl
    have missing := (Expr.evaluateNeeds e).missing name failed
    exact (e.memVariableNames name).mpr (List.mem_of_find?_eq_some missing)
  · intro node member noCall args enough name label expected actual outcome
    have here := wellFormedNodes wellFormed node member
    cases nodeOrigin ready here enough (outcomeFails.mp outcome) with
    | count => exact noCall _ _ rfl
  · intro counts name label expected actual failed
    obtain ⟨node, member, origin⟩ := evaluateOrigin ready wellFormed failed
    cases origin with
    | count single other => exact other (counts name _ member single)

/- The sign has its one operand, and the root has one number too many. In the second text every count is right. -/
theorem failuresKnownRoot :
    let R := Registry.standard.withElementary
    let root := .unary "-" (.call "sqrt" [.term "x", .term "y"])
    let least := .call "min" [.unary "-" (.call "ln" [.term "x"]), .term "y"]
    Ready R ∧ R.read "-sqrt(x, y)" = .ok root ∧ R.read "min(-ln(x), y)" = .ok least ∧
    root.evaluate R (fun _ => some 2) = .error (.failed "sqrt" (.argumentCount "'sqrt' function" 1 2)) ∧
    least.evaluate R (fun _ => none) = .error (.unbound "x") ∧
    (∃ node ∈ root.nodes, Origin node (.failed "sqrt" (.argumentCount "'sqrt' function" 1 2))) ∧
    root ∈ root.nodes ∧ [(2 : Float)].length = root.instruction.operands ∧
    root.instruction.outcome R (fun _ => none) [2] ≠ .error (.failed "-" (.argumentCount "unary subtract operator" 1 2)) ∧
    "x" ∈ least.variableNames ∧
    (∀ name arguments, .call name arguments ∈ least.nodes → name ∈ singleNames → arguments.length = 1) ∧
    ∀ bindings name label expected actual,
      least.evaluate R bindings ≠ .error (.failed name (.argumentCount label expected actual)) := by
  intro R root least
  have readRoot : R.read "-sqrt(x, y)" = .ok root := by decide +kernel
  have readLeast : R.read "min(-ln(x), y)" = .ok least := by decide +kernel
  have rootFails : root.evaluate R (fun _ => some 2) =
    .error (.failed "sqrt" (.argumentCount "'sqrt' function" 1 2)) := rfl
  have leastFails : least.evaluate R (fun _ => none) = .error (.unbound "x") := rfl
  have inRoot : root ∈ root.nodes := by simp [root, Expr.nodes]
  have counts : ∀ name arguments, .call name arguments ∈ least.nodes → name ∈ singleNames → arguments.length = 1 := by
    intro name arguments node single
    simp only [least, Expr.nodes, Expr.nodesAll, List.append_nil, List.cons_append, List.nil_append, List.mem_cons,
      List.not_mem_nil, or_false, reduceCtorEq, false_or, Expr.call.injEq] at node
    rcases node with ⟨rfl, rfl⟩ | ⟨rfl, rfl⟩
    · rfl
    · exact absurd single (by decide)
  obtain ⟨origin, -, -⟩ := failuresKnown .elementary readRoot fun _ => some 2
  obtain ⟨-, sign, -⟩ := failuresKnown .elementary readRoot fun _ => none
  obtain ⟨missing, -, -⟩ := failuresKnown .elementary readLeast fun _ => none
  exact ⟨.elementary, readRoot, readLeast, rootFails, leastFails, (origin _ rootFails).1, inRoot, rfl,
    sign root inRoot (by simp [root]) [2] rfl _ _ _ _, (missing _ leastFails).2 "x" rfl, counts,
    fun bindings => (failuresKnown .elementary readLeast bindings).2.2 counts⟩

end

end Formula
