import Formula.Proofs.Expr.Replacement
import Formula.Proofs.Registry.Names

/-! Evaluation as the run of a stack machine over the nodes of a formula, each behind its operands. The machine looks
every operator up once, in its own space of names, and stops at the first node that fails. Evaluation has the value that
the machine leaves, or the failure that stopped it. -/
namespace Formula

namespace Expr

mutual
def nodes : Expr → List Expr
  | .term payload => [.term payload]
  | .binary symbol left right => left.nodes ++ (right.nodes ++ [.binary symbol left right])
  | .unary symbol operand => operand.nodes ++ [.unary symbol operand]
  | .call name arguments => nodesAll arguments ++ [.call name arguments]

def nodesAll : List Expr → List Expr
  | [] => []
  | e :: es => e.nodes ++ nodesAll es
end

theorem nodesAllFlatMap (es : List Expr) : nodesAll es = es.flatMap nodes := by
  induction es with
  | nil => rfl
  | cons e es ih => rw [nodesAll, ih, List.flatMap_cons]

end Expr

inductive Instruction where
  | push (payload : String)
  | binary (symbol : String)
  | unary (symbol : String)
  | call (name : String) (count : Nat)
  deriving DecidableEq, Repr

def Expr.instruction : Expr → Instruction
  | .term payload => .push payload
  | .binary symbol _ _ => .binary symbol
  | .unary symbol _ => .unary symbol
  | .call name arguments => .call name arguments.length

def Expr.program (e : Expr) : List Instruction := e.nodes.map Expr.instruction

def Meaning.value? (bindings : Bindings) : Meaning → Option Float
  | .zero => some 0.0
  | .literal value => some value
  | .named name => bindings name

def operate (kind : OperatorKind) (name : String) (found : Option Operation) (args : List Float) :
    Except EvalError Float :=
  match found with
  | some f => (f args).mapError (.failed name)
  | none => .error (.unsupported kind name)

namespace Instruction

def operands : Instruction → Nat
  | .push _ => 0
  | .binary _ => 2
  | .unary _ => 1
  | .call _ count => count

def operator? : Instruction → Option (OperatorKind × String)
  | .push _ => none
  | .binary symbol => some (.binary, symbol)
  | .unary symbol => some (.unary, symbol)
  | .call name _ => some (.function, name)

/- Symbols between operands have a space of names of their own. -/
def operation? (R : Registry) : Instruction → Option Operation
  | .push _ => none
  | .binary symbol => (R.between? symbol).map Prod.snd
  | .unary symbol => R.leading? symbol
  | .call name _ => R.leading? name

def outcome (R : Registry) (bindings : Bindings) (args : List Float) : Instruction → Except EvalError Float
  | .push payload => match (Meaning.ofPayload payload).value? bindings with
    | some value => .ok value
    | none => .error (.unbound payload)
  | .binary symbol => operate .binary symbol ((R.between? symbol).map Prod.snd) args
  | .unary symbol => operate .unary symbol (R.leading? symbol) args
  | .call name _ => operate .function name (R.leading? name) args

end Instruction

inductive Halt where
  | failure (error : EvalError)
  | underflow

/- The last operand lies on top, so the operands are taken off in reverse. -/
def Instruction.step (R : Registry) (bindings : Bindings) (stack : List Float) (i : Instruction) :
    Except Halt (List Float) :=
  if i.operands ≤ stack.length then
    match i.outcome R bindings (stack.take i.operands).reverse with
    | .ok value => .ok (value :: stack.drop i.operands)
    | .error error => .error (.failure error)
  else .error .underflow

def execute (R : Registry) (bindings : Bindings) (program : List Instruction) (stack : List Float) :
    Except Halt (List Float) :=
  program.foldlM (Instruction.step R bindings) stack

section
variable {R : Registry} {bindings : Bindings} {name : String} {args stack : List Float}

theorem leadingHeld (absent : Absence) (kind : OperatorKind) :
    R.applyFoundOr absent kind (R.leadingTier? name) name args = operate kind name (R.leading? name) args := by
  unfold Registry.leadingTier?
  cases known : R.leading? name with
  | none => rfl
  | some f =>
    have held : R.operation? .leading name = some f := known
    simp only [Option.map_some, Registry.applyFoundOr, Registry.applyOr, held, operate]

theorem betweenHeld (absent : Absence) (kind : OperatorKind) :
    R.applyFoundOr absent kind (R.betweenTier? name) name args =
      operate kind name ((R.between? name).map Prod.snd) args := by
  unfold Registry.betweenTier?
  cases known : R.between? name with
  | none => rfl
  | some entry =>
    obtain ⟨p, f⟩ := entry
    have held := Registry.betweenFound.mp known
    simp only [Option.map_some, Registry.applyFoundOr, Registry.applyOr, held, operate]

theorem leadingOnce (kind : OperatorKind) :
    R.applyFound kind (R.leadingTier? name) name args = operate kind name (R.leading? name) args :=
  leadingHeld unknownName kind

theorem betweenOnce (kind : OperatorKind) : R.applyFound kind (R.betweenTier? name) name args =
    operate kind name ((R.between? name).map Prod.snd) args :=
  betweenHeld unknownName kind

def laid (stack : List Float) : Except EvalError (List Float) → Except Halt (List Float)
  | .ok values => .ok (values.reverse ++ stack)
  | .error error => .error (.failure error)

def pushed (stack : List Float) (outcome : Except EvalError Float) : Except Halt (List Float) :=
  laid stack (outcome.map ([·]))

theorem executeAppend (first second : List Instruction) :
    execute R bindings (first ++ second) stack = execute R bindings first stack >>= execute R bindings second :=
  List.foldlM_append

theorem executeSingle (i : Instruction) : execute R bindings [i] stack = i.step R bindings stack := by
  rw [execute, List.foldlM_cons]
  exact bind_pure _

theorem stepLaid {i : Instruction} (args : List Float) (enough : args.length = i.operands) :
    i.step R bindings (args.reverse ++ stack) = pushed stack (i.outcome R bindings args) := by
  have taken : ((args.reverse ++ stack).take i.operands).reverse = args := by
    rw [← enough, List.take_left' (by simp), List.reverse_reverse]
  have rest : (args.reverse ++ stack).drop i.operands = stack := by
    rw [← enough, List.drop_left' (by simp)]
  have filled : i.operands ≤ (args.reverse ++ stack).length := by simp [enough]
  rw [Instruction.step, if_pos filled, taken, rest]
  cases i.outcome R bindings args <;> rfl

theorem pushTerm (payload : String) :
    (Instruction.push payload).outcome R bindings [] = (Expr.term payload).evaluate R bindings := by
  rcases Expr.meaningCases payload with named | constant
  · cases bound : bindings payload <;>
      simp [Instruction.outcome, Expr.evaluateNamed named, named, Meaning.value?, bound]
  · cases meaning : Meaning.ofPayload payload with
    | zero => simp only [Instruction.outcome, Expr.evaluateTerm, Meaning.evaluate, meaning, Meaning.value?]
    | literal value => simp only [Instruction.outcome, Expr.evaluateTerm, Meaning.evaluate, meaning, Meaning.value?]
    | named word => exact absurd meaning (constant word)

theorem evaluateAllLength {es : List Expr} {values : List Float}
    (worth : Expr.evaluateAll R bindings es = .ok values) : values.length = es.length := by
  induction es generalizing values with
  | nil =>
    cases worth
    rfl
  | cons e es ih =>
    rw [Expr.evaluateAllCons] at worth
    cases first : e.evaluate R bindings with
    | error failure =>
      rw [first] at worth
      contradiction
    | ok x =>
      rw [first] at worth
      cases later : Expr.evaluateAll R bindings es with
      | error failure =>
        rw [later] at worth
        contradiction
      | ok xs =>
        rw [later] at worth
        cases worth
        simp [ih later]

mutual
theorem executeProgram : (e : Expr) → (stack : List Float) →
    execute R bindings e.program stack = pushed stack (e.evaluate R bindings)
  | .term payload, stack => by
    have single : (Expr.term payload).program = [.push payload] := by simp [Expr.program, Expr.nodes, Expr.instruction]
    rw [single, executeSingle, ← pushTerm]
    exact stepLaid [] rfl
  | .binary symbol left right, stack => by
    have parts : (Expr.binary symbol left right).program = left.program ++ (right.program ++ [.binary symbol]) := by
      simp [Expr.program, Expr.nodes, Expr.instruction]
    rw [parts, executeAppend, executeProgram left, Expr.evaluateBinary]
    cases left.evaluate R bindings with
    | error failure => rfl
    | ok x =>
      change execute R bindings (right.program ++ [.binary symbol]) (x :: stack) = _
      rw [executeAppend, executeProgram right]
      cases right.evaluate R bindings with
      | error failure => rfl
      | ok y =>
        change execute R bindings [.binary symbol] (y :: x :: stack) = pushed stack (R.applyFound _ _ _ [x, y])
        rw [executeSingle, betweenOnce]
        exact stepLaid [x, y] rfl
  | .unary symbol operand, stack => by
    have parts : (Expr.unary symbol operand).program = operand.program ++ [.unary symbol] := by
      simp [Expr.program, Expr.nodes, Expr.instruction]
    rw [parts, executeAppend, executeProgram operand, Expr.evaluateUnary]
    cases operand.evaluate R bindings with
    | error failure => rfl
    | ok x =>
      change execute R bindings [.unary symbol] (x :: stack) = pushed stack (R.applyFound _ _ _ [x])
      rw [executeSingle, leadingOnce]
      exact stepLaid [x] rfl
  | .call name arguments, stack => by
    have parts : (Expr.call name arguments).program =
        (Expr.nodesAll arguments).map Expr.instruction ++ [.call name arguments.length] := by
      simp [Expr.program, Expr.nodes, Expr.instruction]
    rw [parts, executeAppend, executePrograms arguments, Expr.evaluateCall]
    cases worth : Expr.evaluateAll R bindings arguments with
    | error failure => rfl
    | ok xs =>
      change execute R bindings [.call name arguments.length] (xs.reverse ++ stack) =
        pushed stack (R.applyFound _ _ _ xs)
      rw [executeSingle, leadingOnce]
      exact stepLaid xs (evaluateAllLength worth)

theorem executePrograms : (es : List Expr) → (stack : List Float) →
    execute R bindings ((Expr.nodesAll es).map Expr.instruction) stack = laid stack (Expr.evaluateAll R bindings es)
  | [], stack => rfl
  | e :: es, stack => by
    rw [Expr.nodesAll, List.map_append, executeAppend, ← Expr.program, executeProgram e, Expr.evaluateAllCons]
    cases e.evaluate R bindings with
    | error failure => rfl
    | ok x =>
      change execute R bindings _ (x :: stack) = _
      rw [executePrograms es]
      cases Expr.evaluateAll R bindings es with
      | error failure => rfl
      | ok xs =>
        change Except.ok (xs.reverse ++ x :: stack) = Except.ok ((x :: xs).reverse ++ stack)
        simp
end

theorem executeFails {program : List Instruction} {halt : Halt} : execute R bindings program stack = .error halt ↔
    ∃ former i later mid, program = former ++ i :: later ∧ execute R bindings former stack = .ok mid ∧
      i.step R bindings mid = .error halt := by
  constructor
  · intro fails
    induction program generalizing stack with
    | nil => contradiction
    | cons i program ih =>
      cases first : i.step R bindings stack with
      | error other =>
        rw [execute, List.foldlM_cons, first] at fails
        cases fails
        exact ⟨[], i, program, stack, rfl, rfl, first⟩
      | ok next =>
        rw [execute, List.foldlM_cons, first] at fails
        obtain ⟨former, j, later, mid, rfl, before, here⟩ := ih fails
        refine ⟨i :: former, j, later, mid, rfl, ?_, here⟩
        rw [execute, List.foldlM_cons, first]
        exact before
  · rintro ⟨former, i, later, mid, rfl, before, here⟩
    rw [executeAppend, before]
    change execute R bindings (i :: later) mid = .error halt
    rw [execute, List.foldlM_cons, here]
    rfl

inductive Fails (R : Registry) (bindings : Bindings) (args : List Float) : Instruction → EvalError → Prop where
  | unbound {payload : String} (named : Meaning.ofPayload payload = .named payload) (free : bindings payload = none) :
      Fails R bindings args (.push payload) (.unbound payload)
  | unsupported {i : Instruction} {kind : OperatorKind} {name : String} (operator : i.operator? = some (kind, name))
      (missing : i.operation? R = none) : Fails R bindings args i (.unsupported kind name)
  | failed {i : Instruction} {kind : OperatorKind} {name : String} {f : Operation} {cause : OperatorError}
      (operator : i.operator? = some (kind, name)) (found : i.operation? R = some f) (raised : f args = .error cause) :
      Fails R bindings args i (.failed name cause)

theorem operateFails {kind : OperatorKind} {found : Option Operation} {error : EvalError} :
    operate kind name found args = .error error ↔ (found = none ∧ error = .unsupported kind name) ∨
      ∃ f cause, found = some f ∧ f args = .error cause ∧ error = .failed name cause := by
  cases found with
  | none => simp [operate, eq_comm]
  | some f =>
    rw [operate]
    cases raised : f args with
    | ok value =>
      refine ⟨nofun, ?_⟩
      rintro (⟨⟨⟩, -⟩ | ⟨g, cause, ⟨⟩, failed, -⟩)
      cases raised.symm.trans failed
    | error cause =>
      constructor
      · rintro ⟨⟩
        exact .inr ⟨f, cause, rfl, raised, rfl⟩
      · rintro (⟨⟨⟩, -⟩ | ⟨g, other, ⟨⟩, failed, rfl⟩)
        cases raised.symm.trans failed
        rfl

theorem outcomeOperate {i : Instruction} {kind : OperatorKind} (operator : i.operator? = some (kind, name)) :
    i.outcome R bindings args = operate kind name (i.operation? R) args := by
  cases i with
  | push payload => contradiction
  | binary symbol | unary symbol | call name count =>
    cases operator
    rfl

theorem outcomeFails {i : Instruction} {error : EvalError} :
    i.outcome R bindings args = .error error ↔ Fails R bindings args i error := by
  constructor
  · intro fails
    cases operator : i.operator? with
    | some operator =>
      rw [outcomeOperate operator, operateFails] at fails
      rcases fails with ⟨missing, rfl⟩ | ⟨f, cause, found, raised, rfl⟩
      · exact .unsupported operator missing
      · exact .failed operator found raised
    | none =>
      cases i with
      | push payload =>
        rw [Instruction.outcome] at fails
        split at fails
        · contradiction
        · rename_i free
          cases fails
          rcases Expr.meaningCases payload with named | constant
          · rw [named] at free
            exact .unbound named free
          · cases meaning : Meaning.ofPayload payload with
            | named word => exact absurd meaning (constant word)
            | zero | literal value =>
              rw [meaning] at free
              contradiction
      | binary symbol | unary symbol | call name count => contradiction
  · intro fails
    cases fails with
    | unbound named free => simp only [Instruction.outcome, named, Meaning.value?, free]
    | unsupported operator missing =>
      rw [outcomeOperate operator, operateFails]
      exact .inl ⟨missing, rfl⟩
    | failed operator found raised =>
      rw [outcomeOperate operator, operateFails]
      exact .inr ⟨_, _, found, raised, rfl⟩

theorem stepFails {i : Instruction} {error : EvalError} : i.step R bindings stack = .error (.failure error) ↔
    i.operands ≤ stack.length ∧ Fails R bindings (stack.take i.operands).reverse i error := by
  rw [← outcomeFails, Instruction.step]
  split
  · rename_i enough
    cases outcome : i.outcome R bindings (stack.take i.operands).reverse <;> simp [enough]
  · rename_i few
    simp [few]

theorem programFails {e : Expr} {error : EvalError} : e.evaluate R bindings = .error error ↔
    ∃ former node later stack, e.nodes = former ++ node :: later ∧
      execute R bindings (former.map Expr.instruction) [] = .ok stack ∧
      node.instruction.operands ≤ stack.length ∧
      Fails R bindings (stack.take node.instruction.operands).reverse node.instruction error := by
  have halts : e.evaluate R bindings = .error error ↔ execute R bindings e.program [] = .error (.failure error) := by
    rw [executeProgram]
    cases e.evaluate R bindings <;> simp [pushed, laid, Except.map]
  rw [halts, executeFails]
  constructor
  · rintro ⟨former, i, later, stack, parts, before, here⟩
    obtain ⟨nodes, others, whole, rfl, rest⟩ := List.map_eq_append_iff.mp parts
    obtain ⟨node, behind, rfl, rfl, rfl⟩ := List.map_eq_cons_iff.mp rest
    exact ⟨nodes, node, behind, stack, whole, before, stepFails.mp here⟩
  · rintro ⟨former, node, later, stack, whole, before, here⟩
    refine ⟨former.map Expr.instruction, node.instruction, later.map Expr.instruction, stack, ?_, before, stepFails.mpr here⟩
    rw [Expr.program, whole, List.map_append, List.map_cons]

mutual
theorem evaluateHeld (absent : Absence) : (e : Expr) → e.evaluateOr absent R bindings = e.evaluate R bindings
  | .term payload => rfl
  | .binary symbol left right => by
    simp only [Expr.evaluateOr, Expr.evaluateBinary, evaluateHeld absent left, evaluateHeld absent right, betweenHeld,
      betweenOnce]
  | .unary symbol operand => by
    simp only [Expr.evaluateOr, Expr.evaluateUnary, evaluateHeld absent operand, leadingHeld, leadingOnce]
  | .call name arguments => by
    simp only [Expr.evaluateOr, Expr.evaluateCall, evaluateAllHeld absent arguments, leadingHeld, leadingOnce]

theorem evaluateAllHeld (absent : Absence) : (es : List Expr) →
    Expr.evaluateAllOr absent R bindings es = Expr.evaluateAll R bindings es
  | [] => rfl
  | e :: es => by
    simp only [Expr.evaluateAllOr, Expr.evaluateAllCons, evaluateHeld absent e, evaluateAllHeld absent es]
end

theorem evaluatesPostOrder (R : Registry) (bindings : Bindings) (e : Expr) :
    (execute R bindings e.program [] = match e.evaluate R bindings with
      | .ok value => .ok [value]
      | .error error => .error (.failure error)) ∧
    (∀ error, e.evaluate R bindings = .error error ↔
      ∃ former node later stack, e.nodes = former ++ node :: later ∧
        execute R bindings (former.map Expr.instruction) [] = .ok stack ∧
        node.instruction.operands ≤ stack.length ∧
        Fails R bindings (stack.take node.instruction.operands).reverse node.instruction error) ∧
    ∀ absent, e.evaluateOr absent R bindings = e.evaluate R bindings := by
  refine ⟨?_, fun error => programFails, fun absent => evaluateHeld absent e⟩
  rw [executeProgram]
  cases e.evaluate R bindings <;> rfl

example : (Expr.binary "*" (.binary "/" (.term "1") .zero) (.term "x")).evaluate .standard (fun _ => none) =
    .error (.failed "/" (.zeroDivisor "division operator")) := rfl

end

end Formula
