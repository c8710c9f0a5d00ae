import Formula.Proofs.Reading.Grammar
import Formula.Proofs.Reading.Parts

/-! What the grammar derives is read to the tree it derives. Each category leaves its own kind of symbol outside the
parentheses, and the decisive symbol of a text is then the one its production names. -/
namespace Formula

def Unsplit (R : Registry) (p : Precedence) (cs : List Char) : Prop := ∀ x c y, Outside cs x c y →
  R.isSymbolIn (.between p) c = true → x = [] ∨ EndsInSymbol R x

theorem Uncut.unsplit {R : Registry} {p : Precedence} {cs : List Char} (h : Uncut R p cs) : Unsplit R p cs :=
  fun x c y place tier => .inr (h x c y place tier).2

namespace Grammar

structure Closed (R : Registry) (cs : List Char) : Prop where
  nonempty : cs ≠ []
  whole : balanced cs = true
  ended : ¬ EndsInSymbol R cs

structure Operand (R : Registry) (cs : List Char) : Prop extends Closed R cs where
  unbroken : Unbroken 0 cs

def Enclosed (R : Registry) (cs : List Char) : Prop := cs = [] ∨ Operand R cs

section
variable {R : Registry} {p : Precedence} {l r cs name inner : List Char} {c : Char}

theorem Closed.endedAppend (h : Closed R cs) (front : List Char) : ¬ EndsInSymbol R (front ++ cs) := by
  rw [endsInSymbolAppend h.nonempty]
  exact h.ended

theorem Enclosed.whole (h : Enclosed R cs) : balanced cs = true := by
  rcases h with rfl | operand
  · rfl
  · exact operand.whole

theorem Enclosed.unbroken (h : Enclosed R cs) : Unbroken 0 cs := by
  rcases h with rfl | operand
  · intro x y text
    simp at text
  · exact operand.unbroken

theorem placeBinary (delimited : R.Delimited) (hl : Closed R l) (hr : Closed R r) (symbol : R.isSymbol c = true) :
    Outside (l ++ c :: r) l c r := ⟨rfl, hl.whole, hr.whole, delimited.plain symbol⟩

theorem placeUnary (delimited : R.Delimited) (hr : Closed R r) (symbol : R.isSymbol c = true) :
    Outside (c :: r) [] c r := ⟨rfl, rfl, hr.whole, delimited.plain symbol⟩

theorem closedBinary (delimited : R.Delimited) (hl : Closed R l) (hr : Closed R r) (symbol : R.isSymbol c = true) :
    Closed R (l ++ c :: r) := by
  refine ⟨by simp, (placeBinary delimited hl hr symbol).whole, ?_⟩
  simpa using hr.endedAppend (l ++ [c])

theorem operandBinary (delimited : R.Delimited) (hl : Operand R l) (hr : Operand R r) (symbol : R.isSymbol c = true) :
    Operand R (l ++ c :: r) := by
  have place := placeBinary delimited hl.toClosed hr.toClosed symbol
  refine ⟨closedBinary delimited hl.toClosed hr.toClosed symbol, ?_⟩
  rw [unbrokenOutside place.whole]
  intro x y comma
  rcases place.compare comma with ⟨w, -, inside⟩ | ⟨-, rfl, -⟩ | ⟨w, -, inside⟩
  · exact (unbrokenOutside hl.whole).mp hl.unbroken x w inside
  · rw [delimited.comma] at symbol
    contradiction
  · exact (unbrokenOutside hr.whole).mp hr.unbroken w y inside

theorem closedUnary (delimited : R.Delimited) (hr : Closed R r) (symbol : R.isSymbol c = true) : Closed R (c :: r) :=
  ⟨by simp, (placeUnary delimited hr symbol).whole, hr.endedAppend [c]⟩

theorem operandUnary (delimited : R.Delimited) (hr : Operand R r) (symbol : R.isSymbol c = true) :
    Operand R (c :: r) := by
  have place := placeUnary delimited hr.toClosed symbol
  refine ⟨closedUnary delimited hr.toClosed symbol, ?_⟩
  rw [unbrokenOutside place.whole]
  intro x y comma
  rcases comma.ofCons place.plain with ⟨-, rfl, -⟩ | ⟨w, -, inside⟩
  · rw [delimited.comma] at symbol
    contradiction
  · exact (unbrokenOutside hr.whole).mp hr.unbroken w y inside

theorem closedWord (word : Word R cs) : Closed R cs := by
  refine ⟨word.nonempty, balancedOfPlain (lettersPlain word.letters), ?_⟩
  rcases List.eq_nil_or_concat cs with empty | ⟨w, d, rfl⟩
  · exact absurd empty word.nonempty
  · rw [List.concat_eq_append, endsInSymbolSnoc, lettersMute word.letters d (by simp)]
    simp

theorem operandWord (word : Word R cs) : Operand R cs := by
  have closed := closedWord word
  refine ⟨closed, ?_⟩
  rw [unbrokenOutside closed.whole]
  intro x y comma
  exact lettersNoComma word.letters comma.member

theorem outsideBracket (plain : ∀ d ∈ name, isParenthesis d = false) (h : balanced inner = true) {x y : List Char}
    (place : Outside (name ++ '(' :: (inner ++ [')'])) x c y) : c ∈ name := by
  rcases outsidePlainAppend plain place with member | ⟨w, -, behindName⟩
  · exact member
  · obtain ⟨w', -, nothing⟩ := outsideGroup h behindName
    exact absurd nothing outsideNil

theorem balancedBracket (plain : ∀ d ∈ name, isParenthesis d = false) (h : balanced inner = true) :
    balanced (name ++ '(' :: (inner ++ [')'])) = true := by
  rw [balanced, balancedAppend (balancedOfPlain plain), ← balanced]
  exact (balancedGroup h []).trans rfl

theorem closedBracket (delimited : R.Delimited) (plain : ∀ d ∈ name, isParenthesis d = false)
    (h : balanced inner = true) : Closed R (name ++ '(' :: (inner ++ [')'])) := by
  refine ⟨by simp, balancedBracket plain h, ?_⟩
  rw [show name ++ '(' :: (inner ++ [')']) = name ++ '(' :: inner ++ [')'] by simp, endsInSymbolSnoc]
  simp [delimited.closing]

theorem operandBracket (delimited : R.Delimited) (word : ∀ d ∈ name, R.isLetter d = true)
    (h : balanced inner = true) : Operand R (name ++ '(' :: (inner ++ [')'])) := by
  have closed := closedBracket delimited (lettersPlain word) h
  refine ⟨closed, ?_⟩
  rw [unbrokenOutside closed.whole]
  intro x y comma
  exact lettersNoComma word (outsideBracket (lettersPlain word) h comma)

theorem signsBehind (hr : Closed R r) (symbol : R.isSymbol c = true) (unsplit : Unsplit R p r) (front : List Char)
    {u v : List Char} {d : Char} (place : Outside r u d v) (tier : R.isSymbolIn (.between p) d = true) :
    v ≠ [] ∧ EndsInSymbol R (front ++ c :: u) := by
  constructor
  · rintro rfl
    refine hr.ended ?_
    rw [place.text, endsInSymbolSnoc]
    exact Registry.symbolOfTier tier
  · rw [endsInSymbolAppend (by simp), endsInSymbolCons]
    rcases unsplit u d v place tier with rfl | sign
    · exact .inl ⟨rfl, symbol⟩
    · exact .inr sign

theorem unsplitUnary (plain : isParenthesis c = false) (symbol : R.isSymbol c = true) (hr : Closed R r)
    (unsplit : Unsplit R p r) : Unsplit R p (c :: r) := by
  intro x d y place tier
  rcases place.ofCons plain with ⟨rfl, -, -⟩ | ⟨u, rfl, inside⟩
  · exact .inl rfl
  · exact .inr (signsBehind hr symbol unsplit [] inside tier).2

theorem uncutUnary (plain : isParenthesis c = false) (symbol : R.isSymbol c = true)
    (other : R.isSymbolIn (.between p) c = false) (hr : Closed R r) (unsplit : Unsplit R p r) :
    Uncut R p (c :: r) := by
  intro x d y place tier
  rcases place.ofCons plain with ⟨-, rfl, -⟩ | ⟨u, rfl, inside⟩
  · rw [other] at tier
    contradiction
  · exact signsBehind hr symbol unsplit [] inside tier

theorem uncutBinary (delimited : R.Delimited) (symbol : R.isSymbol c = true)
    (other : R.isSymbolIn (.between p) c = false) (hl : Closed R l) (hr : Closed R r) (uncut : Uncut R p l)
    (unsplit : Unsplit R p r) : Uncut R p (l ++ c :: r) := by
  intro x d y place tier
  rcases (placeBinary delimited hl hr symbol).compare place with ⟨w, rfl, inside⟩ | ⟨-, rfl, -⟩ | ⟨u, rfl, inside⟩
  · exact ⟨by simp, (uncut x d w inside tier).2⟩
  · rw [other] at tier
    contradiction
  · exact signsBehind hr symbol unsplit l inside tier

theorem shapeBinary (delimited : R.Delimited) (tier : R.isSymbolIn (.between p) c = true) (hl : Closed R l)
    (hr : Closed R r) (unsplit : Unsplit R p r) (looser : p = .multiplicative → Uncut R .additive (l ++ c :: r)) :
    shape R (l ++ c :: r) = .ok (.binary c l r) := by
  have symbol := Registry.symbolOfTier tier
  have decides : Decides R p (l ++ c :: r) l c r := by
    refine ⟨⟨placeBinary delimited hl hr symbol, tier, .inr hl.ended, ?_⟩, looser⟩
    intro u d v place tier'
    exact signsBehind hr symbol unsplit l place tier'
  rw [shapeDecides decides, decided, if_neg hr.nonempty, if_neg hl.nonempty]

theorem shapeUnary (delimited : R.Delimited) (tier : R.isSymbolIn (.between p) c = true)
    (leading : R.isFunction c.toString = true) (hr : Closed R r) (unsplit : Unsplit R p r)
    (looser : p = .multiplicative → Uncut R .additive (c :: r)) : shape R (c :: r) = .ok (.unary c r) := by
  have symbol := Registry.symbolOfTier tier
  have decides : Decides R p (c :: r) [] c r := by
    refine ⟨⟨placeUnary delimited hr symbol, tier, .inr endsInSymbolNil, ?_⟩, looser⟩
    intro u d v place tier'
    exact signsBehind hr symbol unsplit [] place tier'
  rw [shapeDecides decides, decided, if_neg hr.nonempty, if_pos rfl, leading]
  rfl

theorem uncutOfMute (mute : ∀ x c y, Outside cs x c y → R.isSymbol c = false) (p : Precedence) : Uncut R p cs := by
  intro x c y place tier
  have symbol := Registry.symbolOfTier tier
  rw [mute x c y place] at symbol
  contradiction

theorem muteWord (word : Word R cs) : ∀ x c y, Outside cs x c y → R.isSymbol c = false :=
  fun _ c _ place => lettersMute word.letters c place.member

theorem muteBracket (plain : ∀ d ∈ name, isParenthesis d = false) (mute : ∀ d ∈ name, R.isSymbol d = false)
    (h : balanced inner = true) : ∀ x c y, Outside (name ++ '(' :: (inner ++ [')'])) x c y → R.isSymbol c = false :=
  fun _ c _ place => mute c (outsideBracket plain h place)

end

section
variable {R : Registry}

theorem readWord {cs : List Char} (word : Word R cs) : readSlice R cs = .ok (.term (String.ofList cs)) := by
  have closed := closedWord word
  have comma : cs.idxOf? ',' = none := List.idxOf?_eq_none_iff.mpr (lettersNoComma word.letters)
  have found : shape R cs = .ok (.word cs) := by
    rw [shapeUncut closed.whole closed.nonempty (uncutOfMute (muteWord word) _) (uncutOfMute (muteWord word) _),
      atomShapeWord (lettersPlain word.letters), wordShape, comma]
  exact readOfShape found

theorem shapeBracket {name inner : List Char} (plain : ∀ d ∈ name, isParenthesis d = false)
    (mute : ∀ d ∈ name, R.isSymbol d = false) (h : balanced inner = true) :
    shape R (name ++ '(' :: (inner ++ [')'])) = bracketed R name inner [] := by
  have uncut (p : Precedence) := uncutOfMute (muteBracket plain mute h) p
  rw [shapeUncut (balancedBracket plain h) (by simp) (uncut _) (uncut _)]
  exact atomShapeBracketed ⟨rfl, plain, h, rfl⟩

theorem shapeGroup {inner : List Char} (h : balanced inner = true) :
    shape R ('(' :: (inner ++ [')'])) = .ok (.group inner) :=
  shapeBracket (List.forall_mem_nil _) (List.forall_mem_nil _) h

theorem readGroup {inner : List Char} {e : Expr} (h : balanced inner = true)
    (read : readSlice R inner = .ok e) : readSlice R ('(' :: (inner ++ [')'])) = .ok e := by
  rw [readOfShape (shapeGroup h)]
  exact groupTree.mpr read

theorem readCall {name inner : List Char} {es : List Expr} (word : Word R name)
    (known : R.isFunction (String.ofList name) = true) (h : balanced inner = true)
    (read : readArguments R (splitArguments inner) = .ok es) :
    readSlice R (name ++ '(' :: (inner ++ [')'])) = .ok (.call (String.ofList name) es) := by
  have found : shape R (name ++ '(' :: (inner ++ [')'])) = .ok (.call name (splitArguments inner)) := by
    rw [shapeBracket (lettersPlain word.letters) (lettersMute word.letters) h, bracketed, known]
    simp [word.nonempty]
  rw [readOfShape found]
  exact callTree.mpr ⟨es, read, rfl⟩

theorem readUnary (delimited : R.Delimited) {p : Precedence} {c : Char} {r : List Char} {e : Expr}
    (tier : R.isSymbolIn (.between p) c = true) (leading : R.isFunction c.toString = true) (hr : Closed R r)
    (unsplit : Unsplit R p r) (looser : p = .multiplicative → Uncut R .additive (c :: r))
    (read : readSlice R r = .ok e) : readSlice R (c :: r) = .ok (.unary c.toString e) := by
  rw [readOfShape (shapeUnary delimited tier leading hr unsplit looser)]
  exact unaryTree.mpr ⟨e, read, rfl⟩

theorem readBinary (delimited : R.Delimited) {p : Precedence} {c : Char} {l r : List Char} {x y : Expr}
    (tier : R.isSymbolIn (.between p) c = true) (hl : Closed R l) (hr : Closed R r) (unsplit : Unsplit R p r)
    (looser : p = .multiplicative → Uncut R .additive (l ++ c :: r)) (left : readSlice R l = .ok x)
    (right : readSlice R r = .ok y) : readSlice R (l ++ c :: r) = .ok (.binary c.toString x y) := by
  rw [readOfShape (shapeBinary delimited tier hl hr unsplit looser)]
  exact binaryTree.mpr ⟨x, left, y, right, rfl⟩

theorem notAdditive {c : Char} (multiplicative : R.isSymbolIn (.between .multiplicative) c = true) :
    R.isSymbolIn (.between .additive) c = false := by
  rw [Bool.eq_false_iff]
  intro additive
  cases Registry.tierUnique multiplicative additive

/- One derivation step at a time. What a text of each category leaves outside its parentheses is what the next
production needs to know of it. -/
mutual
theorem groupRead (delimited : R.Delimited) {cs e} : Group R cs e → Enclosed R cs ∧ readSlice R cs = .ok e
  | .empty => ⟨.inl rfl, readNothing R⟩
  | .sum sum => by
    obtain ⟨operand, read⟩ := sumRead delimited sum
    exact ⟨.inr operand, read⟩

theorem sumRead (delimited : R.Delimited) {cs e} : Sum R cs e → Operand R cs ∧ readSlice R cs = .ok e
  | .more additive left right => by
    obtain ⟨hl, readLeft⟩ := sumRead delimited left
    obtain ⟨hr, unsplit, readRight⟩ := productRead delimited right
    refine ⟨operandBinary delimited hl hr (Registry.symbolOfTier additive), ?_⟩
    exact readBinary delimited additive hl.toClosed hr.toClosed unsplit (fun other => by cases other) readLeft readRight
  | .product product => by
    obtain ⟨operand, -, read⟩ := productRead delimited product
    exact ⟨operand, read⟩

theorem productRead (delimited : R.Delimited) {cs e} : Product R cs e →
    Operand R cs ∧ Unsplit R .additive cs ∧ readSlice R cs = .ok e
  | .sign additive leading operand => by
    obtain ⟨hr, unsplit, read⟩ := productRead delimited operand
    have symbol := Registry.symbolOfTier additive
    refine ⟨operandUnary delimited hr symbol, unsplitUnary (delimited.plain symbol) symbol hr.toClosed unsplit, ?_⟩
    exact readUnary delimited additive leading hr.toClosed unsplit (fun other => by cases other) read
  | .factors factors => by
    obtain ⟨operand, uncut, read⟩ := factorsRead delimited factors
    exact ⟨operand, uncut.unsplit, read⟩

theorem factorsRead (delimited : R.Delimited) {cs e} : Factors R cs e →
    Operand R cs ∧ Uncut R .additive cs ∧ readSlice R cs = .ok e
  | .more multiplicative left right => by
    obtain ⟨hl, uncut, readLeft⟩ := factorsRead delimited left
    obtain ⟨hr, unsplit, readRight⟩ := signedRead delimited right
    have symbol := Registry.symbolOfTier multiplicative
    have looser := uncutBinary delimited symbol (notAdditive multiplicative) hl.toClosed hr.toClosed uncut
      (unsplit .additive)
    refine ⟨operandBinary delimited hl hr symbol, looser, ?_⟩
    exact readBinary delimited multiplicative hl.toClosed hr.toClosed (unsplit _) (fun _ => looser) readLeft readRight
  | .head head => by
    obtain ⟨operand, uncut, read⟩ := headRead delimited head
    exact ⟨operand, uncut, read⟩

theorem headRead (delimited : R.Delimited) {cs e} : Head R cs e →
    Operand R cs ∧ Uncut R .additive cs ∧ readSlice R cs = .ok e
  | .sign multiplicative leading operand => by
    obtain ⟨hr, unsplit, read⟩ := signedRead delimited operand
    have symbol := Registry.symbolOfTier multiplicative
    have looser := uncutUnary (delimited.plain symbol) symbol (notAdditive multiplicative) hr.toClosed
      (unsplit .additive)
    refine ⟨operandUnary delimited hr symbol, looser, ?_⟩
    exact readUnary delimited multiplicative leading hr.toClosed (unsplit _) (fun _ => looser) read
  | .atom atom => by
    obtain ⟨operand, mute, read⟩ := atomRead delimited atom
    exact ⟨operand, uncutOfMute mute _, read⟩

theorem signedRead (delimited : R.Delimited) {cs e} : Signed R cs e →
    Operand R cs ∧ (∀ p, Unsplit R p cs) ∧ readSlice R cs = .ok e
  | .sign symbol leading operand => by
    obtain ⟨hr, unsplit, read⟩ := signedRead delimited operand
    have plain := delimited.plain symbol
    refine ⟨operandUnary delimited hr symbol, fun p => unsplitUnary plain symbol hr.toClosed (unsplit p), ?_⟩
    obtain ⟨p, tier⟩ := (R.symbolIffTier _).mp symbol
    refine readUnary delimited tier leading hr.toClosed (unsplit p) ?_ read
    rintro rfl
    exact uncutUnary plain symbol (notAdditive tier) hr.toClosed (unsplit .additive)
  | .atom atom => by
    obtain ⟨operand, mute, read⟩ := atomRead delimited atom
    exact ⟨operand, fun p => (uncutOfMute mute p).unsplit, read⟩

theorem atomRead (delimited : R.Delimited) {cs e} : Atom R cs e →
    Operand R cs ∧ (∀ x c y, Outside cs x c y → R.isSymbol c = false) ∧ readSlice R cs = .ok e
  | .word word => ⟨operandWord word, muteWord word, readWord word⟩
  | .group inner => by
    obtain ⟨enclosed, read⟩ := groupRead delimited inner
    have none : ∀ d ∈ ([] : List Char), R.isLetter d = true := by simp
    have mute := muteBracket (lettersPlain none) (lettersMute none) enclosed.whole
    exact ⟨operandBracket delimited none enclosed.whole, mute, readGroup enclosed.whole read⟩
  | .call word known arguments => by
    obtain ⟨whole, read⟩ := argumentsRead delimited arguments
    have mute := muteBracket (lettersPlain word.letters) (lettersMute word.letters) whole
    exact ⟨operandBracket delimited word.letters whole, mute, readCall word known whole read⟩

theorem argumentsRead (delimited : R.Delimited) {cs es} : Arguments R cs es →
    balanced cs = true ∧ readArguments R (splitArguments cs) = .ok es
  | .none => ⟨rfl, readArgumentsNil R⟩
  | .some nonempty pieces => by
    obtain ⟨whole, read⟩ := piecesRead delimited pieces
    rw [splitArguments, if_neg nonempty]
    exact ⟨whole, read⟩

theorem piecesRead (delimited : R.Delimited) {cs es} : Pieces R cs es →
    balanced cs = true ∧ readArguments R ((splitCommas 0 cs).1 :: (splitCommas 0 cs).2) = .ok es
  | .last group => by
    obtain ⟨enclosed, read⟩ := groupRead delimited group
    refine ⟨enclosed.whole, ?_⟩
    rw [splitCommasWhole enclosed.whole enclosed.unbroken]
    exact argumentsTree.mpr ⟨_, read, _, readArgumentsNil R, rfl⟩
  | .more first rest => by
    obtain ⟨enclosed, read⟩ := groupRead delimited first
    obtain ⟨whole, readRest⟩ := piecesRead delimited rest
    refine ⟨(balancedPlainAppend commaPlain enclosed.whole _).trans whole, ?_⟩
    rw [splitCommasFirst enclosed.whole enclosed.unbroken]
    exact argumentsTree.mpr ⟨_, read, _, readRest, rfl⟩
end

end

end Grammar

end Formula
