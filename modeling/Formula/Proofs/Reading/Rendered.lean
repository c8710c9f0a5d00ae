import Formula.Expr
import Formula.Proofs.Reading.Written

/-! The rendered form read back. Its fields between spaces and commas tell the tree, up to the text of empty terms,
so formulas that are rendered alike have the same value. -/
namespace Formula

def isSeparator (c : Char) : Bool := c = ' ' || c = ','

def cutFields (cs : List Char) : List String := ((cs.splitOnP isSeparator).filter (· ≠ [])).map String.ofList

def fields (text : String) : List String := cutFields text.toList

/- What was read from the front of some fields. Something was, so the rest is shorter. -/
structure Taken (α : Type) (fields : List String) where
  value : α
  rest : List String
  shorter : rest.length < fields.length

def takeField? (expected : String) : (fields : List String) → Option (Taken Unit fields)
  | [] => none
  | field :: rest => if field = expected then some ⟨(), rest, Nat.lt_succ_self _⟩ else none

def Registry.isOperator (R : Registry) (head : String) : Bool :=
  match head.toList with
  | [c] => R.isSymbol c
  | _ => false

def operation? (symbol : String) : List Expr → Option Expr
  | [x] => some (.unary symbol x)
  | [x, y] => some (.binary symbol x y)
  | _ => none

mutual
def readForm (R : Registry) (fields : List String) : Option (Taken Expr fields) :=
  match fields with
  | [] => none
  | field :: fields =>
    if field = ")" then none
    else if field = "(" then do
      let form ← readOpened R fields
      some ⟨form.value, form.rest, Nat.lt_succ_of_lt form.shorter⟩
    else some ⟨.term field, fields, Nat.lt_succ_self _⟩
termination_by (fields.length, 0)

/- Behind an opening parenthesis the head decides. An operator has one operand or two, and a function has its arguments
in parentheses of their own. -/
def readOpened (R : Registry) (fields : List String) : Option (Taken Expr fields) :=
  match fields with
  | [] => none
  | head :: fields =>
    if R.isOperator head then do
      let operands ← readForms R fields
      let e ← operation? head operands.value
      some ⟨e, operands.rest, Nat.lt_succ_of_lt operands.shorter⟩
    else do
      let opened ← takeField? "(" fields
      let arguments ← readForms R opened.rest
      let closed ← takeField? ")" arguments.rest
      have shorter := Nat.lt_trans closed.shorter (Nat.lt_trans arguments.shorter opened.shorter)
      some ⟨.call head arguments.value, closed.rest, Nat.lt_succ_of_lt shorter⟩
termination_by (fields.length, 0)
decreasing_by
  · exact .left _ _ (Nat.lt_succ_self _)
  · exact .left _ _ (Nat.lt_succ_of_lt opened.shorter)

def readForms (R : Registry) (fields : List String) : Option (Taken (List Expr) fields) :=
  match fields with
  | [] => none
  | field :: rest =>
    if field = ")" then some ⟨[], rest, Nat.lt_succ_self _⟩
    else do
      let first ← readForm R (field :: rest)
      let others ← readForms R first.rest
      some ⟨first.value :: others.value, others.rest, Nat.lt_trans others.shorter first.shorter⟩
termination_by (fields.length, 1)
decreasing_by
  · exact .right _ (by decide)
  · exact .left _ _ first.shorter
end

def Registry.readRendered (R : Registry) (text : String) : Option Expr :=
  match readForm R (fields text) with
  | some ⟨e, [], _⟩ => some e
  | _ => none

def FormRead (R : Registry) (fields : List String) (e : Expr) (rest : List String) : Prop :=
  ∃ shorter, readForm R fields = some ⟨e, rest, shorter⟩

def FormsRead (R : Registry) (fields : List String) (es : List Expr) (rest : List String) : Prop :=
  ∃ shorter, readForms R fields = some ⟨es, rest, shorter⟩

section
variable {R : Registry} {field head : String} {fields rest rest' : List String} {e : Expr} {es : List Expr}

theorem termRead (opening : field ≠ "(") (closing : field ≠ ")") (rest : List String) :
    FormRead R (field :: rest) (.term field) rest :=
  ⟨Nat.lt_succ_self _, by rw [readForm, if_neg closing, if_neg opening]⟩

theorem operationRead (operator : R.isOperator head = true) (operands : FormsRead R fields es rest)
    (tree : operation? head es = some e) : FormRead R ("(" :: head :: fields) e rest := by
  obtain ⟨shorter, read⟩ := operands
  refine ⟨Nat.lt_succ_of_lt (Nat.lt_succ_of_lt shorter), ?_⟩
  rw [readForm, readOpened, operator, read]
  simp [tree]

theorem callRead (function : R.isOperator head = false) (arguments : FormsRead R fields es (")" :: rest)) :
    FormRead R ("(" :: head :: "(" :: fields) (.call head es) rest := by
  obtain ⟨shorter, read⟩ := arguments
  have within : rest.length < fields.length := Nat.lt_of_succ_lt shorter
  refine ⟨Nat.lt_succ_of_lt (Nat.lt_succ_of_lt (Nat.lt_succ_of_lt within)), ?_⟩
  rw [readForm, readOpened, function]
  simp [takeField?, read]

theorem closeRead (rest : List String) : FormsRead R (")" :: rest) [] rest :=
  ⟨Nat.lt_succ_self _, by rw [readForms, if_pos rfl]⟩

theorem moreRead (first : FormRead R fields e rest) (others : FormsRead R rest es rest') :
    FormsRead R fields (e :: es) rest' := by
  obtain ⟨shorter, read⟩ := first
  obtain ⟨shorter', read'⟩ := others
  refine ⟨Nat.lt_trans shorter' shorter, ?_⟩
  cases fields with
  | nil => cases shorter
  | cons field fields =>
    by_cases closing : field = ")"
    · rw [readForm, if_pos closing] at read
      contradiction
    · rw [readForms, if_neg closing, read]
      simp [read']

end

section
variable {R : Registry} {cs l r : List Char} {c : Char}

theorem cutFieldsNil : cutFields [] = [] := by simp [cutFields]

theorem cutFieldsOpen : cutFields ['('] = ["("] := by decide +kernel

theorem cutFieldsClose : cutFields [')'] = [")"] := by decide +kernel

theorem cutFieldsAt (separator : isSeparator c = true) : cutFields (l ++ c :: r) = cutFields l ++ cutFields r := by
  simp [cutFields, List.splitOnP_append_cons l r separator]

theorem cutFieldsSpace (l r : List Char) : cutFields (l ++ ' ' :: r) = cutFields l ++ cutFields r :=
  cutFieldsAt (by decide)

theorem cutFieldsRun (nonempty : cs ≠ []) (inside : ∀ c ∈ cs, isSeparator c = false) :
    cutFields cs = [String.ofList cs] := by
  simp [cutFields, List.splitOnP_eq_singleton inside, nonempty]

theorem cutFieldsCommas (pieces : List (List Char)) : cutFields (joinCommas pieces) = pieces.flatMap cutFields := by
  cases pieces with
  | nil => exact cutFieldsNil
  | cons piece pieces =>
    induction pieces generalizing piece with
    | nil => simp [joinCommasSingle]
    | cons next pieces ih => rw [joinCommasCons, cutFieldsAt (by decide), ih, ← List.flatMap_cons]

theorem letterField (letter : R.isLetter c = true) : isSeparator c = false := by
  obtain ⟨shown, -, comma, -⟩ := Registry.isLetterIff.mp letter
  have space : c ≠ ' ' := by
    rintro rfl
    contradiction
  simp [isSeparator, space, comma]

theorem fieldsWord {text : String} (nonempty : text ≠ "") (letters : ∀ c ∈ text.toList, R.isLetter c = true) :
    fields text = [text] := by
  have run := cutFieldsRun (by simpa using nonempty) fun c member => letterField (letters c member)
  rwa [String.ofList_toList] at run

theorem fieldsSymbol (delimited : R.Delimited) (symbol : R.isSymbol c = true) (shown : isBlank c = false) :
    fields c.toString = [c.toString] := by
  have comma : c ≠ ',' := by
    rintro rfl
    rw [delimited.comma] at symbol
    contradiction
  have space : c ≠ ' ' := by
    rintro rfl
    contradiction
  have run : cutFields [c] = [String.ofList [c]] := cutFieldsRun (by simp) (by simp [isSeparator, comma, space])
  simpa [fields] using run

end

namespace Expr

theorem fieldsBinary (symbol : String) (left right : Expr) : fields (binary symbol left right).render =
    "(" :: (fields symbol ++ fields left.render ++ fields right.render ++ [")"]) := by
  have text : (binary symbol left right).render.toList = ['('] ++ ' ' :: (symbol.toList ++ ' ' ::
      (left.render.toList ++ ' ' :: (right.render.toList ++ ' ' :: [')']))) := by
    simp [render]
  rw [fields, text]
  simp only [cutFieldsSpace, cutFieldsOpen, cutFieldsClose]
  simp [fields]

theorem fieldsUnary (symbol : String) (operand : Expr) : fields (unary symbol operand).render =
    "(" :: (fields symbol ++ fields operand.render ++ [")"]) := by
  have text : (unary symbol operand).render.toList = ['('] ++ ' ' :: (symbol.toList ++ ' ' ::
      (operand.render.toList ++ ' ' :: [')'])) := by
    simp [render]
  rw [fields, text]
  simp only [cutFieldsSpace, cutFieldsOpen, cutFieldsClose]
  simp [fields]

theorem fieldsCall (name : String) (arguments : List Expr) : fields (call name arguments).render =
    "(" :: (fields name ++ "(" :: (arguments.flatMap (fields ·.render) ++ [")", ")"])) := by
  have text : (call name arguments).render.toList = ['('] ++ ' ' :: (name.toList ++ ' ' :: (['('] ++ ' ' ::
      (joinCommas (arguments.map (·.render.toList)) ++ ' ' :: ([')'] ++ ' ' :: [')'])))) := by
    simp [render, renderAllMap, joinCommas, Function.comp_def]
  rw [fields, text]
  simp only [cutFieldsSpace, cutFieldsCommas, cutFieldsOpen, cutFieldsClose]
  simp [fields, List.flatMap_map]

mutual
def zeroed : Expr → Expr
  | .term payload => .term (if payload = "" then "0" else payload)
  | .binary symbol left right => .binary symbol left.zeroed right.zeroed
  | .unary symbol operand => .unary symbol operand.zeroed
  | .call name arguments => .call name (zeroedAll arguments)

def zeroedAll : List Expr → List Expr
  | [] => []
  | e :: es => e.zeroed :: zeroedAll es
end

mutual
theorem renderZeroed : (e : Expr) → e.zeroed.render = e.render
  | .term payload => by
    rw [zeroed, render, render]
    split <;> simp_all
  | .binary symbol left right => by rw [zeroed, render, render, renderZeroed left, renderZeroed right]
  | .unary symbol operand => by rw [zeroed, render, render, renderZeroed operand]
  | .call name arguments => by rw [zeroed, render, render, renderAllZeroed arguments]

theorem renderAllZeroed : (es : List Expr) → renderAll (zeroedAll es) = renderAll es
  | [] => rfl
  | e :: es => by rw [zeroedAll, renderAll, renderAll, renderZeroed e, renderAllZeroed es]
end

theorem literalZero : literalValue? "0" = some 0.0 := rfl

section
variable (R : Registry) (bindings : Bindings)

theorem evaluateZero : (term "0").evaluate R bindings = (term "").evaluate R bindings := by
  simp [evaluateTerm, Meaning.evaluate, Meaning.ofPayload, literalZero]

mutual
theorem evaluateZeroed : (e : Expr) → e.zeroed.evaluate R bindings = e.evaluate R bindings
  | .term payload => by
    rw [zeroed]
    split
    · rename_i empty
      rw [empty, evaluateZero]
    · rfl
  | .binary symbol left right => by
    rw [zeroed, evaluateBinary, evaluateBinary, evaluateZeroed left, evaluateZeroed right]
  | .unary symbol operand => by rw [zeroed, evaluateUnary, evaluateUnary, evaluateZeroed operand]
  | .call name arguments => by rw [zeroed, evaluateCall, evaluateCall, evaluateAllZeroed arguments]

theorem evaluateAllZeroed : (es : List Expr) → evaluateAll R bindings (zeroedAll es) = evaluateAll R bindings es
  | [] => rfl
  | e :: es => by rw [zeroedAll, evaluateAllCons, evaluateAllCons, evaluateZeroed e, evaluateAllZeroed es]
end

end

end Expr

section
variable {R : Registry}

theorem symbolOperator {c : Char} (symbol : R.isSymbol c = true) : R.isOperator c.toString = true := by
  simpa [Registry.isOperator] using symbol

theorem wordFunction {name : String} (letters : ∀ c ∈ name.toList, R.isLetter c = true) :
    R.isOperator name = false := by
  unfold Registry.isOperator
  split
  · rename_i c single
    exact lettersMute letters c (by simp [single])
  · rfl

theorem operandsRead {es : List Expr} (each : ∀ e ∈ es, ∀ rest, FormRead R (fields e.render ++ rest) e.zeroed rest)
    (rest : List String) : FormsRead R (es.flatMap (fields ·.render) ++ ")" :: rest) (Expr.zeroedAll es) rest := by
  induction es with
  | nil => exact closeRead rest
  | cons e es ih =>
    rw [List.flatMap_cons, List.append_assoc, Expr.zeroedAll]
    exact moreRead (each e List.mem_cons_self _) (ih fun e' member => each e' (List.mem_cons_of_mem e member))

theorem formRead (delimited : R.Delimited) {e : Expr} (wellFormed : WellFormed R e) (rest : List String) :
    FormRead R (fields e.render ++ rest) e.zeroed rest := by
  induction wellFormed generalizing rest with
  | @term payload letters =>
    rw [Expr.render, Expr.zeroed]
    by_cases empty : payload = ""
    · have zero : fields "0" = ["0"] := by decide +kernel
      rw [if_pos empty, zero]
      exact termRead (by decide) (by decide) rest
    · rw [if_neg empty, fieldsWord empty letters]
      refine termRead ?_ ?_ rest
      · rintro rfl
        exact absurd (lettersPlain letters '(' (by simp)) (by decide)
      · rintro rfl
        exact absurd (lettersPlain letters ')' (by simp)) (by decide)
  | @binary c x y symbol shown _ _ left right =>
    rw [Expr.fieldsBinary, fieldsSymbol delimited symbol shown, Expr.zeroed]
    have operands := moreRead (left _) (moreRead (right _) (closeRead rest))
    simpa using operationRead (symbolOperator symbol) operands rfl
  | @unary c x symbol shown _ _ operand =>
    rw [Expr.fieldsUnary, fieldsSymbol delimited symbol shown, Expr.zeroed]
    simpa using operationRead (symbolOperator symbol) (moreRead (operand _) (closeRead rest)) rfl
  | @call name es nonempty letters _ _ arguments =>
    rw [Expr.fieldsCall, fieldsWord nonempty letters, Expr.zeroed]
    simpa using callRead (wordFunction letters) (operandsRead arguments (")" :: rest))

theorem renderedRead (delimited : R.Delimited) {e : Expr} (wellFormed : WellFormed R e) :
    R.readRendered e.render = some e.zeroed := by
  have form := formRead delimited wellFormed []
  rw [List.append_nil] at form
  obtain ⟨shorter, read⟩ := form
  simp only [Registry.readRendered, read]

theorem readsRendered (delimited : R.Delimited) (commaFree : R.CommaFree) :
    (∀ text e, R.read text = .ok e → R.readRendered e.render = some e.zeroed ∧ e.zeroed.render = e.render ∧
      ∀ S bindings, e.zeroed.evaluate S bindings = e.evaluate S bindings) ∧
    ∀ text other e e', R.read text = .ok e → R.read other = .ok e' → e.render = e'.render →
      e.zeroed = e'.zeroed ∧ ∀ S bindings, e.evaluate S bindings = e'.evaluate S bindings := by
  have rendered (text e) (read : R.read text = .ok e) : R.readRendered e.render = some e.zeroed :=
    renderedRead delimited (Grammar.readWellFormed delimited commaFree read)
  refine ⟨fun text e read => ⟨rendered text e read, e.renderZeroed, fun S bindings => e.evaluateZeroed S bindings⟩, ?_⟩
  intro text other e e' read read' same
  have trees : e.zeroed = e'.zeroed := by
    have back := rendered text e read
    rw [same, rendered other e' read'] at back
    exact (Option.some.inj back).symm
  refine ⟨trees, fun S bindings => ?_⟩
  rw [← e.evaluateZeroed, trees, e'.evaluateZeroed]

theorem readsRenderedStandard : Registry.standard.Delimited ∧ Registry.standard.CommaFree ∧
    ∃ e e', Registry.standard.read "abs( , -x) + sqrt() * ()" = .ok e ∧
      Registry.standard.read "abs(0,-x)+(sqrt()*0)" = .ok e' ∧ e ≠ e' ∧ e.render = e'.render ∧
      e.render = "( + ( abs ( 0,( - x ) ) ) ( * ( sqrt (  ) ) 0 ) )" ∧
      Registry.standard.readRendered e.render = some e.zeroed ∧ e.zeroed = e'.zeroed ∧
      ∀ S bindings, e.evaluate S bindings = e'.evaluate S bindings := by
  let e : Expr := .binary "+" (.call "abs" [.zero, .unary "-" (.term "x")]) (.binary "*" (.call "sqrt" []) .zero)
  let e' : Expr := .binary "+" (.call "abs" [.term "0", .unary "-" (.term "x")])
    (.binary "*" (.call "sqrt" []) (.term "0"))
  have read : Registry.standard.read "abs( , -x) + sqrt() * ()" = .ok e := by decide +kernel
  have read' : Registry.standard.read "abs(0,-x)+(sqrt()*0)" = .ok e' := by decide +kernel
  have same : e.render = e'.render := by decide +kernel
  obtain ⟨back, alike⟩ := readsRendered Registry.standardDelimited Registry.standardCommaFree
  obtain ⟨trees, values⟩ := alike _ _ e e' read read' same
  exact ⟨Registry.standardDelimited, Registry.standardCommaFree, e, e', read, read', by decide, same,
    by decide +kernel, (back _ e read).1, trees, values⟩

end

end Formula
