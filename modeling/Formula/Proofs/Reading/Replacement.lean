import Formula.Proofs.Expr.Replacement
import Formula.Proofs.Reading.Exact

/-! A text put in parentheses in the place of a word. Whatever stands around the word, the text is read there as it is
read alone, so the tree of the whole is the old one with the tree of the text in the place of the word. -/
namespace Formula

def Registry.isDelimiter (R : Registry) (c : Char) : Bool := isParenthesis c || c = ',' || R.isSymbol c

def enclose (inner : List Char) : List Char := '(' :: (inner ++ [')'])

def standIn (word inner run : List Char) : List Char := if run = word then enclose inner else run

/- Replaces each whole run between delimiters that is the word, unless it is the name of a call. -/
def replaceFrom (R : Registry) (word inner run : List Char) : List Char → List Char
  | [] => standIn word inner run
  | c :: cs =>
    if R.isDelimiter c then
      (if c = '(' then run else standIn word inner run) ++ c :: replaceFrom R word inner [] cs
    else replaceFrom R word inner (run ++ [c]) cs

def replaceRuns (R : Registry) (word inner cs : List Char) : List Char := replaceFrom R word inner [] cs

def Registry.replaceRuns (R : Registry) (name part text : String) : String :=
  .ofList (Formula.replaceRuns R name.toList part.toList text.toList)

section
variable {R : Registry} {word inner run l r cs name : List Char} {c : Char}

theorem letterInside (letter : R.isLetter c = true) : R.isDelimiter c = false := by
  obtain ⟨-, plain, comma, mute⟩ := Registry.isLetterIff.mp letter
  simp [Registry.isDelimiter, plain, comma, mute]

theorem symbolDelimits (symbol : R.isSymbol c = true) : R.isDelimiter c = true := by
  simp [Registry.isDelimiter, symbol]

theorem replaceLetters (letters : ∀ c ∈ name, R.isLetter c = true) (rest : List Char) :
    replaceFrom R word inner run (name ++ rest) = replaceFrom R word inner (run ++ name) rest := by
  induction name generalizing run with
  | nil => simp
  | cons c name ih =>
    have inside := letterInside (letters c List.mem_cons_self)
    have further : replaceFrom R word inner (run ++ [c]) (name ++ rest) =
        replaceFrom R word inner (run ++ [c] ++ name) rest :=
      ih fun d member => letters d (List.mem_cons_of_mem c member)
    rw [List.cons_append, replaceFrom, inside]
    simpa using further

theorem replaceFromAt (delimiter : R.isDelimiter c = true) (shut : c ≠ '(') :
    replaceFrom R word inner run (l ++ c :: r) =
      replaceFrom R word inner run l ++ c :: replaceFrom R word inner [] r := by
  induction l generalizing run with
  | nil => simp [replaceFrom, delimiter, shut]
  | cons d l ih =>
    rw [List.cons_append, replaceFrom, replaceFrom, ih, ih]
    split <;> simp

theorem replaceAt (delimiter : R.isDelimiter c = true) (shut : c ≠ '(') :
    replaceRuns R word inner (l ++ c :: r) = replaceRuns R word inner l ++ c :: replaceRuns R word inner r :=
  replaceFromAt delimiter shut

theorem replaceNothing (nonempty : word ≠ []) : replaceRuns R word inner [] = [] := by
  simp [replaceRuns, replaceFrom, standIn, nonempty.symm]

theorem replaceBracket (nonempty : word ≠ []) (letters : ∀ c ∈ name, R.isLetter c = true) (cs : List Char) :
    replaceRuns R word inner (name ++ '(' :: (cs ++ [')'])) =
      name ++ '(' :: (replaceRuns R word inner cs ++ [')']) := by
  have opening : R.isDelimiter '(' = true := by simp [Registry.isDelimiter, isParenthesis]
  have closing : R.isDelimiter ')' = true := by simp [Registry.isDelimiter, isParenthesis]
  rw [replaceRuns, replaceLetters letters, List.nil_append, replaceFrom, if_pos opening, if_pos rfl, ← replaceRuns,
    replaceAt closing (by decide), replaceNothing nonempty]

theorem replaceWord (letters : ∀ c ∈ name, R.isLetter c = true) :
    replaceRuns R word inner name = standIn word inner name := by
  have whole : replaceFrom R word inner [] (name ++ []) = replaceFrom R word inner ([] ++ name) [] :=
    replaceLetters letters []
  rwa [List.append_nil, List.nil_append] at whole

theorem replaceNonempty (filled : run ++ cs ≠ []) : replaceFrom R word inner run cs ≠ [] := by
  induction cs generalizing run with
  | nil =>
    rw [replaceFrom, standIn]
    split
    · simp [enclose]
    · simpa using filled
  | cons c cs ih =>
    rw [replaceFrom]
    split
    · simp
    · exact ih (by simp)

theorem standInShown (inside : ∀ c ∈ inner, isBlank c = false) (before : ∀ c ∈ run, isBlank c = false) :
    ∀ c ∈ standIn word inner run, isBlank c = false := by
  unfold standIn
  split
  · simpa [enclose, or_imp, forall_and, openShown, closeShown] using inside
  · exact before

theorem replaceShown (inside : ∀ c ∈ inner, isBlank c = false) (before : ∀ c ∈ run, isBlank c = false)
    (shown : ∀ c ∈ cs, isBlank c = false) : ∀ c ∈ replaceFrom R word inner run cs, isBlank c = false := by
  induction cs generalizing run with
  | nil => exact standInShown inside before
  | cons c cs ih =>
    obtain ⟨here, later⟩ := List.forall_mem_cons.mp shown
    rw [replaceFrom]
    split
    · rw [List.forall_mem_append, List.forall_mem_cons]
      refine ⟨?_, here, ih (by simp) later⟩
      split
      · exact before
      · exact standInShown inside before
    · refine ih ?_ later
      rw [List.forall_mem_append, List.forall_mem_singleton]
      exact ⟨before, here⟩

end

namespace Grammar

structure Inserted (R : Registry) (word inner : List Char) (d : Expr) : Prop where
  delimited : R.Delimited
  nonempty : word ≠ []
  part : Group R inner d

variable {R : Registry} {word inner : List Char} {d : Expr}

theorem replaceSymbol (inserted : Inserted R word inner d) {c : Char} (symbol : R.isSymbol c = true)
    (l r : List Char) : replaceRuns R word inner (l ++ c :: r) =
      replaceRuns R word inner l ++ c :: replaceRuns R word inner r :=
  replaceAt (symbolDelimits symbol) (plainNotOpen (inserted.delimited.plain symbol))

theorem replaceSign (inserted : Inserted R word inner d) {c : Char} (symbol : R.isSymbol c = true)
    (cs : List Char) : replaceRuns R word inner (c :: cs) = c :: replaceRuns R word inner cs := by
  have whole := replaceSymbol inserted symbol [] cs
  rwa [replaceNothing inserted.nonempty] at whole

/- One case for each production. The text that is put in is an atom of its own, so each production takes the replaced
parts as it took the old ones. -/
mutual
theorem groupReplaced (inserted : Inserted R word inner d) {cs e} :
    Group R cs e → Group R (replaceRuns R word inner cs) (Expr.replaced (String.ofList word) d e)
  | .empty => by
    have other : "" ≠ String.ofList word := by simpa using inserted.nonempty.symm
    rw [replaceNothing inserted.nonempty, Expr.zero, Expr.replaced, if_neg other]
    exact .empty
  | .sum sum => .sum (sumReplaced inserted sum)

theorem sumReplaced (inserted : Inserted R word inner d) {cs e} :
    Sum R cs e → Sum R (replaceRuns R word inner cs) (Expr.replaced (String.ofList word) d e)
  | .more additive left right => by
    rw [replaceSymbol inserted (Registry.symbolOfTier additive), Expr.replaced]
    exact .more additive (sumReplaced inserted left) (productReplaced inserted right)
  | .product product => .product (productReplaced inserted product)

theorem productReplaced (inserted : Inserted R word inner d) {cs e} :
    Product R cs e → Product R (replaceRuns R word inner cs) (Expr.replaced (String.ofList word) d e)
  | .sign additive leading operand => by
    rw [replaceSign inserted (Registry.symbolOfTier additive), Expr.replaced]
    exact .sign additive leading (productReplaced inserted operand)
  | .factors factors => .factors (factorsReplaced inserted factors)

theorem factorsReplaced (inserted : Inserted R word inner d) {cs e} :
    Factors R cs e → Factors R (replaceRuns R word inner cs) (Expr.replaced (String.ofList word) d e)
  | .more multiplicative left right => by
    rw [replaceSymbol inserted (Registry.symbolOfTier multiplicative), Expr.replaced]
    exact .more multiplicative (factorsReplaced inserted left) (signedReplaced inserted right)
  | .head head => .head (headReplaced inserted head)

theorem headReplaced (inserted : Inserted R word inner d) {cs e} :
    Head R cs e → Head R (replaceRuns R word inner cs) (Expr.replaced (String.ofList word) d e)
  | .sign multiplicative leading operand => by
    rw [replaceSign inserted (Registry.symbolOfTier multiplicative), Expr.replaced]
    exact .sign multiplicative leading (signedReplaced inserted operand)
  | .atom atom => .atom (atomReplaced inserted atom)

theorem signedReplaced (inserted : Inserted R word inner d) {cs e} :
    Signed R cs e → Signed R (replaceRuns R word inner cs) (Expr.replaced (String.ofList word) d e)
  | .sign symbol leading operand => by
    rw [replaceSign inserted symbol, Expr.replaced]
    exact .sign symbol leading (signedReplaced inserted operand)
  | .atom atom => .atom (atomReplaced inserted atom)

theorem atomReplaced (inserted : Inserted R word inner d) {cs e} :
    Atom R cs e → Atom R (replaceRuns R word inner cs) (Expr.replaced (String.ofList word) d e)
  | .word found => by
    rw [replaceWord found.letters, standIn, Expr.replaced]
    simp only [String.ofList_inj]
    split
    · exact .group inserted.part
    · exact .word found
  | .group group => by
    have none : ∀ c ∈ ([] : List Char), R.isLetter c = true := by simp
    rw [← List.nil_append ('(' :: _), replaceBracket inserted.nonempty none]
    exact .group (groupReplaced inserted group)
  | .call named known arguments => by
    rw [replaceBracket inserted.nonempty named.letters, Expr.replaced]
    exact .call named known (argumentsReplaced inserted arguments)

theorem argumentsReplaced (inserted : Inserted R word inner d) {cs es} :
    Arguments R cs es → Arguments R (replaceRuns R word inner cs) (Expr.replacedAll (String.ofList word) d es)
  | .none => by
    rw [replaceNothing inserted.nonempty]
    exact .none
  | .some filled pieces => .some (replaceNonempty filled) (piecesReplaced inserted pieces)

theorem piecesReplaced (inserted : Inserted R word inner d) {cs es} :
    Pieces R cs es → Pieces R (replaceRuns R word inner cs) (Expr.replacedAll (String.ofList word) d es)
  | .last group => .last (groupReplaced inserted group)
  | .more first rest => by
    rw [replaceAt (by simp [Registry.isDelimiter]) (by decide), Expr.replacedAll]
    exact .more (groupReplaced inserted first) (piecesReplaced inserted rest)
end

theorem readReplaced (delimited : R.Delimited) (commaFree : R.CommaFree) {text part name : String} {e : Expr}
    (shown : ∀ c ∈ text.toList, isBlank c = false) (shownPart : ∀ c ∈ part.toList, isBlank c = false)
    (read : R.read text = .ok e) (readPart : R.read part = .ok d) (nonempty : name ≠ "") :
    R.read (R.replaceRuns name part text) = .ok (.replaced name d e) := by
  obtain ⟨whole, slice⟩ := (readShown shown).mp read
  obtain ⟨wholePart, slicePart⟩ := (readShown shownPart).mp readPart
  have inserted : Inserted R name.toList part.toList d :=
    ⟨delimited, by simpa using nonempty, readGroupDerived delimited commaFree wholePart shownPart slicePart⟩
  have group := groupReplaced inserted (readGroupDerived delimited commaFree whole shown slice)
  rw [String.ofList_toList] at group
  obtain ⟨enclosed, found⟩ := groupRead delimited group
  exact (readOfList (replaceShown shownPart (by simp) shown)).mpr ⟨enclosed.whole, found⟩

theorem readsReplaced (delimited : R.Delimited) (commaFree : R.CommaFree) {text part name : String} {e : Expr}
    (shown : ∀ c ∈ text.toList, isBlank c = false) (shownPart : ∀ c ∈ part.toList, isBlank c = false)
    (read : R.read text = .ok e) (readPart : R.read part = .ok d) (nonempty : name ≠ "") :
    R.read (R.replaceRuns name part text) = .ok (.replaced name d e) ∧
      ∀ bindings value, literalValue? name = none → d.evaluate R bindings = .ok value →
        (Expr.replaced name d e).evaluate R bindings = e.evaluate R (Function.update bindings name (some value)) :=
  ⟨readReplaced delimited commaFree shown shownPart read readPart nonempty,
    fun _ _ word worth => Expr.evaluateReplaced nonempty word worth e⟩

theorem readsReplacedStandard : ∃ e d : Expr, ∃ bindings value,
    Registry.standard.read "x*-sqrt(x)+xy" = .ok e ∧ Registry.standard.read "-y+y" = .ok d ∧
    literalValue? "x" = none ∧ d.evaluate Registry.standard bindings = .ok value ∧
    Registry.standard.replaceRuns "x" "-y+y" "x*-sqrt(x)+xy" = "(-y+y)*-sqrt((-y+y))+xy" ∧
    Registry.standard.read (Registry.standard.replaceRuns "x" "-y+y" "x*-sqrt(x)+xy") = .ok (.replaced "x" d e) ∧
    (Expr.replaced "x" d e).evaluate Registry.standard bindings =
      e.evaluate Registry.standard (Function.update bindings "x" (some value)) := by
  let e : Expr := .binary "+" (.binary "*" (.term "x") (.unary "-" (.call "sqrt" [.term "x"]))) (.term "xy")
  let d : Expr := .binary "+" (.unary "-" (.term "y")) (.term "y")
  let bindings : Bindings := fun name => if name = "y" then some 2.5 else none
  have read : Registry.standard.read "x*-sqrt(x)+xy" = .ok e := by decide +kernel
  have readPart : Registry.standard.read "-y+y" = .ok d := by decide +kernel
  have word : literalValue? "x" = none := by decide +kernel
  have text : Registry.standard.replaceRuns "x" "-y+y" "x*-sqrt(x)+xy" = "(-y+y)*-sqrt((-y+y))+xy" := by
    decide +kernel
  have worth : d.evaluate Registry.standard bindings = .ok (-2.5 + 2.5) := rfl
  have nonempty : "x" ≠ "" := by decide
  obtain ⟨readWhole, same⟩ := readsReplaced Registry.standardDelimited Registry.standardCommaFree
    (allShown (by decide +kernel)) (allShown (by decide +kernel)) read readPart nonempty
  exact ⟨e, d, bindings, _, read, readPart, word, worth, text, readWhole, same bindings _ word worth⟩

end Grammar

end Formula
