import Formula.Proofs.Reading.Complete

/-! Reading accepts exactly the texts of the grammar and builds the tree that the grammar derives. A text that is
read derives its tree in every category that the symbols outside its parentheses allow. -/
namespace Formula

namespace Grammar
variable {R : Registry}

structure Derived (R : Registry) (cs : List Char) (e : Expr) : Prop where
  sum : Sum R cs e
  product : Unsplit R .additive cs → Product R cs e
  factors : Uncut R .additive cs → Factors R cs e
  signed : (∀ p, Unsplit R p cs) → Signed R cs e

theorem Derived.ofAtom {cs : List Char} {e : Expr} (atom : Atom R cs e) : Derived R cs e where
  sum := .product (.factors (.head (.atom atom)))
  product _ := .factors (.head (.atom atom))
  factors _ := .head (.atom atom)
  signed _ := .atom atom

theorem unsplitRight {p : Precedence} {cs left right : List Char} {c : Char} (place : Outside cs left c right)
    (unsplit : Unsplit R p cs) : Unsplit R p right := by
  intro u d v inner tier
  rcases unsplit _ _ _ (place.inRight inner) tier with empty | sign
  · simp at empty
  · rw [endsInSymbolAppend (by simp), endsInSymbolCons] at sign
    exact sign.imp And.left id

theorem lastUnsplitRight {p : Precedence} {cs left right : List Char} {c : Char}
    (last : LastOf R p cs left c right) : Unsplit R p right := by
  intro u d v inner tier
  have sign := (last.signs u d v inner tier).2
  rw [endsInSymbolAppend (by simp), endsInSymbolCons] at sign
  exact sign.imp And.left id

theorem lastUncutLeft {p q : Precedence} {cs left right : List Char} {c : Char} (last : LastOf R p cs left c right)
    (nonempty : right ≠ []) (uncut : Uncut R q cs) : Uncut R q left := by
  intro u d v inner tier
  refine ⟨?_, (uncut u d _ (last.place.inLeft inner) tier).2⟩
  rintro rfl
  refine last.cuts.resolve_left nonempty ?_
  rw [inner.text, endsInSymbolSnoc]
  exact Registry.symbolOfTier tier

theorem decidedRead {left right : List Char} {c : Char} {e : Expr}
    (read : decided R left c right >>= Shape.tree R = .ok e) : right ≠ [] ∧
      ((left = [] ∧ R.isFunction c.toString = true ∧ ∃ x, readSlice R right = .ok x ∧ .unary c.toString x = e) ∨
      (left ≠ [] ∧ ∃ x, readSlice R left = .ok x ∧ ∃ y, readSlice R right = .ok y ∧ .binary c.toString x y = e)) := by
  obtain ⟨s, found, tree⟩ := bindOk.mp read
  unfold decided at found
  split at found
  · contradiction
  · rename_i nonempty
    split at found
    · rename_i empty
      split at found
      · rename_i leading
        cases found
        exact ⟨nonempty, .inl ⟨empty, leading, unaryTree.mp tree⟩⟩
      · contradiction
    · rename_i front
      cases found
      exact ⟨nonempty, .inr ⟨front, binaryTree.mp tree⟩⟩

theorem derivedPieces {piece : List Char} {pieces : List (List Char)} {es : List Expr}
    (groups : ∀ p ∈ piece :: pieces, ∀ e, readSlice R p = .ok e → Group R p e)
    (read : readArguments R (piece :: pieces) = .ok es) : Pieces R (joinCommas (piece :: pieces)) es := by
  induction pieces generalizing piece es with
  | nil =>
    obtain ⟨x, first, xs, rest, rfl⟩ := argumentsTree.mp read
    rw [readArgumentsNil] at rest
    cases rest
    rw [joinCommasSingle]
    exact .last (groups piece List.mem_cons_self x first)
  | cons next pieces ih =>
    obtain ⟨x, first, xs, rest, rfl⟩ := argumentsTree.mp read
    rw [joinCommasCons]
    refine .more (groups piece List.mem_cons_self x first) (ih ?_ rest)
    intro p member
    exact groups p (List.mem_cons_of_mem _ member)

theorem derivedArguments {inner : List Char} {es : List Expr}
    (groups : ∀ p ∈ splitArguments inner, ∀ e, readSlice R p = .ok e → Group R p e)
    (read : readArguments R (splitArguments inner) = .ok es) : Arguments R inner es := by
  have text := splitArgumentsText inner
  cases split : splitArguments inner with
  | nil =>
    rw [split] at text read
    rw [readArgumentsNil] at read
    cases read
    rw [← text]
    exact .none
  | cons piece pieces =>
    rw [split] at text read groups
    have nonempty : inner ≠ [] := by
      rintro rfl
      simp [splitArguments] at split
    rw [← text] at nonempty ⊢
    exact .some nonempty (derivedPieces groups read)

/- What the recursion over shorter texts gives for the parts of a text. -/
def PartsDerived (R : Registry) (cs : List Char) : Prop := ∀ front mid back x, cs = front ++ mid ++ back →
  mid.length < cs.length → balanced mid = true → mid ≠ [] → readSlice R mid = .ok x → Derived R mid x

theorem PartsDerived.group {cs front mid back : List Char} {x : Expr} (parts : PartsDerived R cs)
    (text : cs = front ++ mid ++ back) (shorter : mid.length < cs.length) (level : balanced mid = true)
    (read : readSlice R mid = .ok x) : Group R mid x := by
  by_cases empty : mid = []
  · subst empty
    rw [readNothing] at read
    cases read
    exact .empty
  · exact .sum (parts front mid back x text shorter level empty read).sum

theorem derivedSign {p : Precedence} {cs right : List Char} {c : Char} {x : Expr}
    (decides : Decides R p cs [] c right) (leading : R.isFunction c.toString = true) (operand : Derived R right x) :
    Derived R cs (.unary c.toString x) := by
  have text : cs = c :: right := decides.place.text
  have symbol := Registry.symbolOfTier decides.tier
  have signed (unsplit : ∀ q, Unsplit R q cs) : Signed R cs (.unary c.toString x) := by
    rw [text]
    exact .sign symbol leading (operand.signed fun q => unsplitRight decides.place (unsplit q))
  cases p with
  | additive =>
    have product : Product R cs (.unary c.toString x) := by
      rw [text]
      exact .sign decides.tier leading (operand.product (lastUnsplitRight decides.toLastOf))
    refine ⟨.product product, fun _ => product, fun uncut => ?_, signed⟩
    exact absurd (uncut _ _ _ decides.place decides.tier).2 endsInSymbolNil
  | multiplicative =>
    have both (q : Precedence) : Unsplit R q right := by
      cases q with
      | additive => exact unsplitRight decides.place (decides.looser rfl).unsplit
      | multiplicative => exact lastUnsplitRight decides.toLastOf
    have factors : Factors R cs (.unary c.toString x) := by
      rw [text]
      exact .head (.sign decides.tier leading (operand.signed both))
    exact ⟨.product (.factors factors), fun _ => .factors factors, fun _ => factors, signed⟩

theorem derivedCut {p : Precedence} {cs left right : List Char} {c : Char} {x y : Expr}
    (decides : Decides R p cs left c right) (hl : left ≠ []) (hr : right ≠ []) (first : Derived R left x)
    (second : Derived R right y) : Derived R cs (.binary c.toString x y) := by
  have split (unsplit : Unsplit R p cs) : False := by
    rcases unsplit _ _ _ decides.place decides.tier with empty | sign
    · exact hl empty
    · exact decides.cuts.elim hr fun cut => cut sign
  cases p with
  | additive =>
    have sum : Sum R cs (.binary c.toString x y) := by
      rw [decides.place.text]
      exact .more decides.tier first.sum (second.product (lastUnsplitRight decides.toLastOf))
    exact ⟨sum, fun unsplit => (split unsplit).elim, fun uncut => (split uncut.unsplit).elim,
      fun unsplit => (split (unsplit _)).elim⟩
  | multiplicative =>
    have looser := decides.looser rfl
    have both (q : Precedence) : Unsplit R q right := by
      cases q with
      | additive => exact unsplitRight decides.place looser.unsplit
      | multiplicative => exact lastUnsplitRight decides.toLastOf
    have factors : Factors R cs (.binary c.toString x y) := by
      rw [decides.place.text]
      exact .more decides.tier (first.factors (lastUncutLeft decides.toLastOf hr looser)) (second.signed both)
    exact ⟨.product (.factors factors), fun _ => .factors factors, fun _ => factors,
      fun unsplit => (split (unsplit _)).elim⟩

theorem derivedSymbol {p : Precedence} {cs left right : List Char} {c : Char} {e : Expr} (parts : PartsDerived R cs)
    (decides : Decides R p cs left c right) (read : decided R left c right >>= Shape.tree R = .ok e) :
    Derived R cs e := by
  have place := decides.place
  have length := congrArg List.length place.text
  simp only [List.length_append, List.length_cons] at length
  obtain ⟨hr, ⟨rfl, leading, x, operand, rfl⟩ | ⟨hl, x, first, y, second, rfl⟩⟩ := decidedRead read
  · refine derivedSign decides leading ?_
    exact parts [c] right [] x (by simp [place.text]) (by omega) place.after hr operand
  · refine derivedCut decides hl hr ?_ ?_
    · exact parts [] left (c :: right) x (by simp [place.text]) (by omega) place.before hl first
    · exact parts (left ++ [c]) right [] y (by simp [place.text]) (by omega) place.after hr second

theorem derivedWord {cs : List Char} {e : Expr} (mute : ∀ x c y, Outside cs x c y → R.isSymbol c = false)
    (shown : ∀ c ∈ cs, isBlank c = false) (nonempty : cs ≠ []) (plain : ∀ c ∈ cs, isParenthesis c = false)
    (read : wordShape cs >>= Shape.tree R = .ok e) : Derived R cs e := by
  obtain ⟨s, found, tree⟩ := bindOk.mp read
  unfold wordShape at found
  split at found
  · contradiction
  · rename_i comma
    cases found
    cases tree
    refine .ofAtom (.word ⟨nonempty, fun c member => ?_⟩)
    refine Registry.isLetterIff.mpr ⟨shown c member, plain c member, ?_, ?_⟩
    · rintro rfl
      exact List.idxOf?_eq_none_iff.mp comma member
    · obtain ⟨x, y, text⟩ := List.append_of_mem member
      exact mute x c y (outsidePlain plain text)

theorem nameLetters {cs name inner rest : List Char} (mute : ∀ x c y, Outside cs x c y → R.isSymbol c = false)
    (shown : ∀ c ∈ cs, isBlank c = false) (whole : balanced cs = true) (parts : Bracketed cs name inner rest)
    (comma : ',' ∉ name) : ∀ c ∈ name, R.isLetter c = true := by
  intro c member
  have inText : c ∈ cs := by
    rw [parts.text]
    simp [member]
  refine Registry.isLetterIff.mpr ⟨shown c inText, parts.plain c member, ?_, ?_⟩
  · rintro rfl
    exact comma member
  · obtain ⟨x, y, place⟩ := parts.outside whole member
    exact mute x c y place

theorem derivedBracket {cs name inner rest : List Char} {e : Expr} (commaFree : R.CommaFree)
    (derived : PartsDerived R cs) (mute : ∀ x c y, Outside cs x c y → R.isSymbol c = false)
    (shown : ∀ c ∈ cs, isBlank c = false)
    (whole : balanced cs = true) (parts : Bracketed cs name inner rest)
    (read : bracketed R name inner rest >>= Shape.tree R = .ok e) : Derived R cs e := by
  obtain ⟨s, found, tree⟩ := bindOk.mp read
  unfold bracketed at found
  split at found
  · contradiction
  · rename_i known
    split at found
    · rename_i empty
      subst empty
      cases found
      have text : cs = name ++ '(' :: (inner ++ [')']) := parts.text
      have length := congrArg List.length text
      simp only [List.length_append, List.length_cons] at length
      split at tree
      · rename_i nameless
        subst nameless
        have shown : cs = ['('] ++ inner ++ [')'] := by simp [text]
        have group := derived.group shown (by omega) parts.enclosed (groupTree.mp tree)
        rw [text]
        exact .ofAtom (.group group)
      · rename_i named
        have function : R.isFunction (String.ofList name) = true := by simpa [named] using known
        obtain ⟨es, arguments, rfl⟩ := callTree.mp tree
        have letters := nameLetters mute shown whole parts (by simpa using commaFree _ function)
        rw [text]
        refine .ofAtom (.call ⟨named, letters⟩ function (derivedArguments ?_ arguments))
        intro piece member x found
        have joined := splitArgumentsText inner
        obtain ⟨former, others, split⟩ := List.append_of_mem member
        obtain ⟨front, back, shown', -, -, -⟩ := joinCommasAt former piece others
        rw [← split, joined] at shown'
        have shorter : piece.length ≤ inner.length := by
          rw [shown', List.length_append, List.length_append]
          omega
        have place : cs = (name ++ '(' :: front) ++ piece ++ (back ++ [')']) := by
          rw [text, shown']
          simp
        exact derived.group place (by omega) (splitArgumentsPieces parts.enclosed piece member).1 found
    · contradiction

theorem readDerived (delimited : R.Delimited) (commaFree : R.CommaFree) {cs : List Char} {e : Expr}
    (whole : balanced cs = true) (shown : ∀ c ∈ cs, isBlank c = false) (nonempty : cs ≠ [])
    (read : readSlice R cs = .ok e) : Derived R cs e := by
  induction size : cs.length using Nat.strongRecOn generalizing cs e with
  | ind n ih =>
    have parts : PartsDerived R cs := by
      intro front mid back x text shorter level filled found
      refine ih mid.length (by omega) level ?_ filled found rfl
      intro c member
      exact shown c (by simp [text, member])
    rw [readSliceShape] at read
    have form := shapeForm (R := R) whole
    generalize shape R cs = outcome at form read
    cases form with
    | blank => exact absurd rfl nonempty
    | symbol decides => exact derivedSymbol parts decides read
    | word _ additive multiplicative plain =>
      exact derivedWord (fun _ _ _ => delimited.noSymbol additive multiplicative) shown nonempty plain read
    | bracket additive multiplicative bracket =>
      exact derivedBracket commaFree parts (fun _ _ _ => delimited.noSymbol additive multiplicative) shown whole
        bracket read

theorem readGroupDerived (delimited : R.Delimited) (commaFree : R.CommaFree) {cs : List Char} {e : Expr}
    (whole : balanced cs = true) (shown : ∀ c ∈ cs, isBlank c = false) (read : readSlice R cs = .ok e) :
    Group R cs e := by
  by_cases empty : cs = []
  · subst empty
    rw [readNothing] at read
    cases read
    exact .empty
  · exact .sum (readDerived delimited commaFree whole shown empty read).sum

theorem readOk {text : String} {e : Expr} : R.read text = .ok e ↔
    balanced (dropBlanks text.toList) = true ∧ readSlice R (dropBlanks text.toList) = .ok e := by
  have level : balanced (dropBlanks text.toList) = balanced text.toList := balancedDropBlanks 0 _
  rw [level, ← imbalanceBalanced, Registry.read]
  cases imbalance? text.toList <;> simp

theorem allShown {cs : List Char} (all : cs.all (!isBlank ·) = true) : ∀ c ∈ cs, isBlank c = false := by
  simpa using all

theorem readShown {text : String} {e : Expr} (shown : ∀ c ∈ text.toList, isBlank c = false) :
    R.read text = .ok e ↔ balanced text.toList = true ∧ readSlice R text.toList = .ok e := by
  have same : dropBlanks text.toList = text.toList := by
    rw [dropBlanks, List.filter_eq_self]
    intro c member
    simp [shown c member]
  rw [readOk, same]

theorem readOfList {cs : List Char} {e : Expr} (shown : ∀ c ∈ cs, isBlank c = false) :
    R.read (String.ofList cs) = .ok e ↔ balanced cs = true ∧ readSlice R cs = .ok e := by
  have read : R.read (String.ofList cs) = .ok e ↔ _ := readShown (by simpa using shown)
  rwa [String.toList_ofList] at read

theorem dropBlanksShown (cs : List Char) : ∀ c ∈ dropBlanks cs, isBlank c = false := by
  intro c member
  simpa using (List.mem_filter.mp member).2

theorem readsGrammar (delimited : R.Delimited) (commaFree : R.CommaFree) (text : String) (e : Expr) :
    R.read text = .ok e ↔ Group R (dropBlanks text.toList) e := by
  rw [readOk]
  constructor
  · rintro ⟨whole, read⟩
    exact readGroupDerived delimited commaFree whole (dropBlanksShown _) read
  · intro group
    obtain ⟨enclosed, read⟩ := groupRead delimited group
    exact ⟨enclosed.whole, read⟩

theorem readsGrammarStandard : Registry.standard.Delimited ∧ Registry.standard.CommaFree ∧
    Group Registry.standard (dropBlanks "a - -2 * sqrt( x , ) ^ +()".toList)
      (.binary "-" (.term "a") (.unary "-" (.binary "^" (.binary "*" (.term "2")
        (.call "sqrt" [.term "x", .zero])) (.unary "+" .zero)))) :=
  ⟨Registry.standardDelimited, Registry.standardCommaFree,
    (readsGrammar Registry.standardDelimited Registry.standardCommaFree "a - -2 * sqrt( x , ) ^ +()" _).mp
      (by decide +kernel)⟩

end Grammar

end Formula
