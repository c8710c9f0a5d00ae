import Mathlib.Data.List.SplitBy
import Formula.Proofs.Expr.Variables
import Formula.Proofs.Reading.Replacement

/-! The tokens of a text and of its tree. Reading drops the parentheses and keeps all else in its order. A word in front
of a parenthesis is the name of a function, and every other word is a term. -/
namespace Formula

def Registry.cutTokens (R : Registry) (cs : List Char) : List String :=
  (cs.splitBy fun c d => !R.isDelimiter c && !R.isDelimiter d).map String.ofList

def Registry.tokens (R : Registry) (text : String) : List String := R.cutTokens (dropBlanks text.toList)

def Registry.isWord (R : Registry) (token : String) : Bool := token.toList.all fun c => !R.isDelimiter c

def Registry.words (R : Registry) (called : Bool) : List String → List String
  | [] => []
  | token :: rest =>
    if R.isWord token ∧ (rest.head? == some "(") = called then token :: R.words called rest
    else R.words called rest

def bare (tokens : List String) : List String := tokens.filter fun token => token ≠ "(" ∧ token ≠ ")"

inductive Part where
  | payload (text : String)
  | symbol (text : String)
  | name (text : String)
  | comma
  deriving DecidableEq, Repr

namespace Part

def text : Part → String
  | payload text => text
  | symbol text => text
  | name text => text
  | comma => ","

def payload? : Part → Option String
  | payload text => some text
  | _ => none

def name? : Part → Option String
  | name text => some text
  | _ => none

end Part

namespace Expr

mutual
def parts : Expr → List Part
  | .term payload => if payload = "" then [] else [.payload payload]
  | .binary symbol left right => left.parts ++ .symbol symbol :: right.parts
  | .unary symbol operand => .symbol symbol :: operand.parts
  | .call name arguments => .name name :: [Part.comma].intercalate (partsEach arguments)

def partsEach : List Expr → List (List Part)
  | [] => []
  | e :: es => e.parts :: partsEach es
end

def tokens (e : Expr) : List String := e.parts.map Part.text

def payloads (e : Expr) : List String := e.parts.filterMap Part.payload?

def functionNames (e : Expr) : List String := e.parts.filterMap Part.name?

mutual
theorem occurrencesPayloads : (e : Expr) →
    e.occurrences = e.payloads.filter fun name => (literalValue? name).isNone
  | .term payload => by
    unfold payloads occurrences parts Meaning.ofPayload
    by_cases empty : payload = ""
    · simp [empty]
    · cases worth : literalValue? payload <;> simp [empty, worth, Part.payload?]
  | .binary symbol left right => by
    rw [occurrences, occurrencesPayloads left, occurrencesPayloads right]
    simp [payloads, parts, Part.payload?, List.filterMap_cons]
  | .unary symbol operand => by
    rw [occurrences, occurrencesPayloads operand]
    simp [payloads, parts, Part.payload?, List.filterMap_cons]
  | .call name arguments => by
    rw [occurrences, occurrencesEach arguments]
    simp [payloads, parts, Part.payload?, List.filterMap_cons]

theorem occurrencesEach : (es : List Expr) → occurrencesAll es =
    (([Part.comma].intercalate (partsEach es)).filterMap Part.payload?).filter fun name => (literalValue? name).isNone
  | [] => rfl
  | [e] => by
    rw [occurrencesAll, occurrencesAll, occurrencesPayloads e]
    simp [payloads, partsEach, List.intercalate]
  | e :: next :: es => by
    rw [occurrencesAll, occurrencesPayloads e, occurrencesEach (next :: es)]
    simp [payloads, partsEach, List.intercalate, Part.payload?, List.filterMap_cons]
end

theorem memVariables (e : Expr) (name : String) :
    name ∈ e.variableNames ↔ name ∈ e.payloads ∧ literalValue? name = none := by
  rw [memVariableNames, occurrencesPayloads, List.mem_filter, Option.isNone_iff_eq_none]

end Expr

section
variable {R : Registry} {cs l r name : List Char} {c : Char}

theorem openDelimits : R.isDelimiter '(' = true := by simp [Registry.isDelimiter, isParenthesis]

theorem closeDelimits : R.isDelimiter ')' = true := by simp [Registry.isDelimiter, isParenthesis]

theorem commaDelimits : R.isDelimiter ',' = true := by simp [Registry.isDelimiter]

theorem cutTokensAt (delimiter : R.isDelimiter c = true) :
    R.cutTokens (l ++ c :: r) = R.cutTokens l ++ c.toString :: R.cutTokens r := by
  unfold Registry.cutTokens
  rw [List.splitBy_append_cons r (by simp [delimiter]), ← List.singleton_append,
    List.splitBy_append (by simp [delimiter]), List.splitBy_of_isChain (by simp) (.singleton c)]
  simp

theorem cutTokensRun (nonempty : cs ≠ []) (inside : ∀ c ∈ cs, R.isDelimiter c = false) :
    R.cutTokens cs = [String.ofList cs] := by
  have chain : cs.IsChain fun c d => (!R.isDelimiter c && !R.isDelimiter d) = true := by
    refine (List.pairwise_of_forall_mem_list fun c member d other => ?_).isChain
    simp [inside c member, inside d other]
  rw [Registry.cutTokens, List.splitBy_of_isChain nonempty chain]
  rfl

theorem cutTokensBracket (name inner : List Char) : R.cutTokens (name ++ '(' :: (inner ++ [')'])) =
    R.cutTokens name ++ "(" :: (R.cutTokens inner ++ [")"]) := by
  rw [cutTokensAt openDelimits, cutTokensAt closeDelimits]
  rfl

theorem bareAppend (front back : List String) : bare (front ++ back) = bare front ++ bare back :=
  List.filter_append front back

theorem bareKept {token : String} (opening : token ≠ "(") (closing : token ≠ ")") (rest : List String) :
    bare (token :: rest) = token :: bare rest := by
  simp [bare, opening, closing]

theorem bareBracket (inner : List String) : bare ("(" :: (inner ++ [")"])) = bare inner := by
  simp [bare]

theorem markOther {d : Char} (other : c ≠ d) : c.toString ≠ d.toString := by
  simpa using other

theorem notWord (delimiter : R.isDelimiter c = true) : R.isWord c.toString = false := by
  simp [Registry.isWord, delimiter]

theorem wordOther {token : String} (word : R.isWord token = true) (delimiter : R.isDelimiter c = true) :
    token ≠ c.toString := by
  rintro rfl
  rw [notWord delimiter] at word
  contradiction

theorem wordsMark (delimiter : R.isDelimiter c = true) (called : Bool) (tokens : List String) :
    R.words called (c.toString :: tokens) = R.words called tokens := by
  rw [Registry.words, notWord delimiter]
  simp

/- A delimiter other than an opening parenthesis tells no more of the word in front of it than the end of the text. -/
theorem wordsAt (delimiter : R.isDelimiter c = true) (shut : c ≠ '(') (called : Bool) (front back : List String) :
    R.words called (front ++ c.toString :: back) = R.words called front ++ R.words called back := by
  induction front with
  | nil => exact wordsMark delimiter called back
  | cons token front ih =>
    have next : ((front ++ c.toString :: back).head? == some "(") = (front.head? == some "(") := by
      cases front with
      | nil => simpa using markOther shut
      | cons => rfl
    rw [List.cons_append, Registry.words, Registry.words, next, ih]
    split <;> simp

theorem wordsBracket (called : Bool) (inner : List String) :
    R.words called ("(" :: (inner ++ [")"])) = R.words called inner := by
  have opened : R.words called ("(" :: (inner ++ [")"])) = R.words called (inner ++ [")"]) :=
    wordsMark openDelimits called _
  have closed : R.words called (inner ++ [")"]) = R.words called inner ++ R.words called [] :=
    wordsAt closeDelimits (by decide) called inner []
  rw [opened, closed]
  simp [Registry.words]

theorem Grammar.Word.single (word : Word R cs) : R.cutTokens cs = [String.ofList cs] :=
  cutTokensRun word.nonempty fun c member => letterInside (word.letters c member)

theorem Grammar.Word.isWord (word : Word R cs) : R.isWord (String.ofList cs) = true := by
  simpa [Registry.isWord] using fun c member => letterInside (word.letters c member)

end

/- The parts of a tree lie in the text as its tokens, parentheses apart, and the next token tells words apart. -/
structure Told (R : Registry) (cs : List Char) (parts : List Part) : Prop where
  whole : parts.map Part.text = bare (R.cutTokens cs)
  payloads : parts.filterMap Part.payload? = R.words false (R.cutTokens cs)
  names : parts.filterMap Part.name? = R.words true (R.cutTokens cs)

namespace Told
variable {R : Registry} {cs l r name : List Char} {parts left right : List Part} {c : Char}

theorem nothing : Told R [] [] := ⟨rfl, rfl, rfl⟩

theorem between (first : Told R l left) (second : Told R r right) (delimiter : R.isDelimiter c = true)
    (plain : isParenthesis c = false) (part : Part) (text : part.text = c.toString) (payload : part.payload? = none)
    (name : part.name? = none) : Told R (l ++ c :: r) (left ++ part :: right) := by
  have shut := plainNotOpen plain
  refine ⟨?_, ?_, ?_⟩
  · rw [cutTokensAt delimiter, bareAppend, bareKept (markOther shut) (markOther (plainNotClose plain))]
    simp [first.whole, second.whole, text]
  · rw [cutTokensAt delimiter, wordsAt delimiter shut, ← first.payloads, ← second.payloads]
    simp [payload]
  · rw [cutTokensAt delimiter, wordsAt delimiter shut, ← first.names, ← second.names]
    simp [name]

theorem term (word : Grammar.Word R cs) : Told R cs [.payload (String.ofList cs)] := by
  have opening := wordOther word.isWord openDelimits
  have closing := wordOther word.isWord closeDelimits
  refine ⟨?_, ?_, ?_⟩
  · rw [word.single, bareKept opening closing]
    rfl
  · simp [word.single, Registry.words, word.isWord, Part.payload?]
  · simp [word.single, Registry.words, Part.name?]

theorem group (inner : Told R cs parts) : Told R ('(' :: (cs ++ [')'])) parts := by
  have cut : R.cutTokens ('(' :: (cs ++ [')'])) = "(" :: (R.cutTokens cs ++ [")"]) := cutTokensBracket [] cs
  refine ⟨?_, ?_, ?_⟩
  · rw [cut, bareBracket, inner.whole]
  · rw [cut, wordsBracket, inner.payloads]
  · rw [cut, wordsBracket, inner.names]

theorem call (word : Grammar.Word R name) (inner : Told R cs parts) :
    Told R (name ++ '(' :: (cs ++ [')'])) (.name (String.ofList name) :: parts) := by
  have opening := wordOther word.isWord openDelimits
  have closing := wordOther word.isWord closeDelimits
  have cut := cutTokensBracket (R := R) name cs
  rw [word.single, List.singleton_append] at cut
  refine ⟨?_, ?_, ?_⟩
  · rw [cut, bareKept opening closing, bareBracket, ← inner.whole]
    rfl
  · rw [cut, Registry.words, wordsBracket, ← inner.payloads]
    simp [Part.payload?, List.filterMap_cons]
  · rw [cut, Registry.words, wordsBracket, ← inner.names]
    simp [Part.name?, word.isWord]

end Told

namespace Grammar
variable {R : Registry}

theorem toldKept (delimited : R.Delimited) : Kept R (fun cs e => Told R cs e.parts)
    (fun cs es => Told R cs ([Part.comma].intercalate (Expr.partsEach es))) where
  empty := .nothing
  word word := by
    rw [Expr.parts, if_neg (by simpa using word.nonempty)]
    exact .term word
  group inner := inner.group
  unary symbol _ operand := by
    rw [Expr.parts]
    exact Told.nothing.between operand (symbolDelimits symbol) (delimited.plain symbol) _ rfl rfl rfl
  binary symbol left right := by
    rw [Expr.parts]
    exact left.between right (symbolDelimits symbol) (delimited.plain symbol) _ rfl rfl rfl
  call word _ arguments := by
    rw [Expr.parts]
    exact arguments.call word
  none := .nothing
  last group := by simpa [Expr.partsEach, List.intercalate] using group
  more first nonempty rest := by
    obtain ⟨next, es, rfl⟩ := List.exists_cons_of_ne_nil nonempty
    have both := first.between rest commaDelimits commaPlain .comma rfl rfl rfl
    simpa [Expr.partsEach, List.intercalate] using both

theorem readsTokens (delimited : R.Delimited) (commaFree : R.CommaFree) {text : String} {e : Expr}
    (read : R.read text = .ok e) :
    e.tokens = bare (R.tokens text) ∧ e.payloads = R.words false (R.tokens text) ∧
    e.functionNames = R.words true (R.tokens text) ∧ e.variableNames.Pairwise (· < ·) ∧
    ∀ name, name ∈ e.variableNames ↔ name ∈ R.words false (R.tokens text) ∧ literalValue? name = none := by
  obtain ⟨whole, slice⟩ := readOk.mp read
  have group := readGroupDerived delimited commaFree whole (dropBlanksShown _) slice
  have told := groupKept (toldKept delimited) group
  have payloads : e.payloads = R.words false (R.tokens text) := told.payloads
  refine ⟨told.whole, payloads, told.names, e.variablesSorted, fun name => ?_⟩
  rw [Expr.memVariables, payloads]

theorem readsTokensStandard : Registry.standard.Delimited ∧ Registry.standard.CommaFree ∧
    ∃ e, Registry.standard.read "y*-sqrt(, (x - 2.5)) + abs( )" = .ok e ∧
      Registry.standard.tokens "y*-sqrt(, (x - 2.5)) + abs( )" =
        ["y", "*", "-", "sqrt", "(", ",", "(", "x", "-", "2.5", ")", ")", "+", "abs", "(", ")"] ∧
      e.tokens = ["y", "*", "-", "sqrt", ",", "x", "-", "2.5", "+", "abs"] ∧ e.payloads = ["y", "x", "2.5"] ∧
      e.functionNames = ["sqrt", "abs"] ∧ "x" ∈ e.variableNames ∧ "2.5" ∉ e.variableNames := by
  have read : Registry.standard.read "y*-sqrt(, (x - 2.5)) + abs( )" = .ok (.binary "+" (.binary "*" (.term "y")
    (.unary "-" (.call "sqrt" [.zero, .binary "-" (.term "x") (.term "2.5")]))) (.call "abs" [])) := by decide +kernel
  have tokens : Registry.standard.tokens "y*-sqrt(, (x - 2.5)) + abs( )" =
    ["y", "*", "-", "sqrt", "(", ",", "(", "x", "-", "2.5", ")", ")", "+", "abs", "(", ")"] := by decide +kernel
  obtain ⟨whole, payloads, names, -, shown⟩ :=
    readsTokens Registry.standardDelimited Registry.standardCommaFree read
  rw [tokens] at whole payloads names shown
  refine ⟨Registry.standardDelimited, Registry.standardCommaFree, _, read, tokens, whole.trans ?_, payloads.trans ?_,
    names.trans ?_, (shown "x").mpr ?_, fun member => ?_⟩
  · decide +kernel
  · decide +kernel
  · decide +kernel
  · decide +kernel
  · have literal : literalValue? "2.5" ≠ none := by decide +kernel
    exact literal ((shown "2.5").mp member).2

end Grammar

end Formula
