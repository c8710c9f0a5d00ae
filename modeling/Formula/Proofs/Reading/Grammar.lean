import Formula.Proofs.Reading.Form

/-! The grammar of formulas over text without blanks. An additive sign takes a whole product, a sign behind another
symbol only the atom next to it, and what a group encloses may be empty. -/
namespace Formula

def Registry.isLetter (R : Registry) (c : Char) : Bool :=
  !isBlank c && !isParenthesis c && c != ',' && !R.isSymbol c

theorem Registry.isLetterIff {R : Registry} {c : Char} : R.isLetter c = true ↔
    isBlank c = false ∧ isParenthesis c = false ∧ c ≠ ',' ∧ R.isSymbol c = false := by
  simp [isLetter, and_assoc]

theorem lettersShown {R : Registry} {cs : List Char} (letters : ∀ c ∈ cs, R.isLetter c = true) :
    ∀ c ∈ cs, isBlank c = false :=
  fun c member => (Registry.isLetterIff.mp (letters c member)).1

theorem lettersPlain {R : Registry} {cs : List Char} (letters : ∀ c ∈ cs, R.isLetter c = true) :
    ∀ c ∈ cs, isParenthesis c = false :=
  fun c member => (Registry.isLetterIff.mp (letters c member)).2.1

theorem lettersNoComma {R : Registry} {cs : List Char} (letters : ∀ c ∈ cs, R.isLetter c = true) : ',' ∉ cs :=
  fun member => (Registry.isLetterIff.mp (letters ',' member)).2.2.1 rfl

theorem lettersMute {R : Registry} {cs : List Char} (letters : ∀ c ∈ cs, R.isLetter c = true) :
    ∀ c ∈ cs, R.isSymbol c = false :=
  fun c member => (Registry.isLetterIff.mp (letters c member)).2.2.2

namespace Grammar

structure Word (R : Registry) (cs : List Char) : Prop where
  nonempty : cs ≠ []
  letters : ∀ c ∈ cs, R.isLetter c = true

mutual
inductive Group (R : Registry) : List Char → Expr → Prop where
  | empty : Group R [] .zero
  | sum {cs e} (sum : Sum R cs e) : Group R cs e

inductive Sum (R : Registry) : List Char → Expr → Prop where
  | more {l a r x y} (additive : R.isSymbolIn (.between .additive) a = true)
      (left : Sum R l x) (right : Product R r y) : Sum R (l ++ a :: r) (.binary a.toString x y)
  | product {cs e} (product : Product R cs e) : Sum R cs e

inductive Product (R : Registry) : List Char → Expr → Prop where
  | sign {a cs e} (additive : R.isSymbolIn (.between .additive) a = true) (leading : R.isFunction a.toString = true)
      (operand : Product R cs e) : Product R (a :: cs) (.unary a.toString e)
  | factors {cs e} (factors : Factors R cs e) : Product R cs e

inductive Factors (R : Registry) : List Char → Expr → Prop where
  | more {l m r x y} (multiplicative : R.isSymbolIn (.between .multiplicative) m = true)
      (left : Factors R l x) (right : Signed R r y) : Factors R (l ++ m :: r) (.binary m.toString x y)
  | head {cs e} (head : Head R cs e) : Factors R cs e

inductive Head (R : Registry) : List Char → Expr → Prop where
  | sign {m cs e} (multiplicative : R.isSymbolIn (.between .multiplicative) m = true)
      (leading : R.isFunction m.toString = true) (operand : Signed R cs e) : Head R (m :: cs) (.unary m.toString e)
  | atom {cs e} (atom : Atom R cs e) : Head R cs e

inductive Signed (R : Registry) : List Char → Expr → Prop where
  | sign {s cs e} (symbol : R.isSymbol s = true) (leading : R.isFunction s.toString = true)
      (operand : Signed R cs e) : Signed R (s :: cs) (.unary s.toString e)
  | atom {cs e} (atom : Atom R cs e) : Signed R cs e

inductive Atom (R : Registry) : List Char → Expr → Prop where
  | word {cs} (word : Word R cs) : Atom R cs (.term (String.ofList cs))
  | group {cs e} (inner : Group R cs e) : Atom R ('(' :: (cs ++ [')'])) e
  | call {name cs es} (word : Word R name) (known : R.isFunction (String.ofList name) = true)
      (arguments : Arguments R cs es) : Atom R (name ++ '(' :: (cs ++ [')'])) (.call (String.ofList name) es)

inductive Arguments (R : Registry) : List Char → List Expr → Prop where
  | none : Arguments R [] []
  | some {cs es} (nonempty : cs ≠ []) (pieces : Pieces R cs es) : Arguments R cs es

inductive Pieces (R : Registry) : List Char → List Expr → Prop where
  | last {cs e} (group : Group R cs e) : Pieces R cs [e]
  | more {cs ds e es} (first : Group R cs e) (rest : Pieces R ds es) : Pieces R (cs ++ ',' :: ds) (e :: es)
end

/- A relation between texts and trees that every production keeps. Precedence plays no part in it. -/
structure Kept (R : Registry) (P : List Char → Expr → Prop) (Q : List Char → List Expr → Prop) : Prop where
  empty : P [] .zero
  word : ∀ {cs}, Word R cs → P cs (.term (String.ofList cs))
  group : ∀ {cs e}, P cs e → P ('(' :: (cs ++ [')'])) e
  unary : ∀ {c cs e}, R.isSymbol c = true → R.isFunction c.toString = true → P cs e →
    P (c :: cs) (.unary c.toString e)
  binary : ∀ {l c r x y}, R.isSymbol c = true → P l x → P r y → P (l ++ c :: r) (.binary c.toString x y)
  call : ∀ {name cs es}, Word R name → R.isFunction (String.ofList name) = true → Q cs es →
    P (name ++ '(' :: (cs ++ [')'])) (.call (String.ofList name) es)
  none : Q [] []
  last : ∀ {cs e}, P cs e → Q cs [e]
  more : ∀ {cs ds e es}, P cs e → es ≠ [] → Q ds es → Q (cs ++ ',' :: ds) (e :: es)

section
variable {R : Registry} {P : List Char → Expr → Prop} {Q : List Char → List Expr → Prop}

theorem Pieces.nonempty {cs es} (pieces : Pieces R cs es) : es ≠ [] := by
  cases pieces with
  | last group => simp
  | more first rest => simp

mutual
theorem groupKept (kept : Kept R P Q) {cs e} : Group R cs e → P cs e
  | .empty => kept.empty
  | .sum sum => sumKept kept sum

theorem sumKept (kept : Kept R P Q) {cs e} : Sum R cs e → P cs e
  | .more additive left right =>
    kept.binary (Registry.symbolOfTier additive) (sumKept kept left) (productKept kept right)
  | .product product => productKept kept product

theorem productKept (kept : Kept R P Q) {cs e} : Product R cs e → P cs e
  | .sign additive leading operand => kept.unary (Registry.symbolOfTier additive) leading (productKept kept operand)
  | .factors factors => factorsKept kept factors

theorem factorsKept (kept : Kept R P Q) {cs e} : Factors R cs e → P cs e
  | .more multiplicative left right =>
    kept.binary (Registry.symbolOfTier multiplicative) (factorsKept kept left) (signedKept kept right)
  | .head head => headKept kept head

theorem headKept (kept : Kept R P Q) {cs e} : Head R cs e → P cs e
  | .sign multiplicative leading operand =>
    kept.unary (Registry.symbolOfTier multiplicative) leading (signedKept kept operand)
  | .atom atom => atomKept kept atom

theorem signedKept (kept : Kept R P Q) {cs e} : Signed R cs e → P cs e
  | .sign symbol leading operand => kept.unary symbol leading (signedKept kept operand)
  | .atom atom => atomKept kept atom

theorem atomKept (kept : Kept R P Q) {cs e} : Atom R cs e → P cs e
  | .word word => kept.word word
  | .group inner => kept.group (groupKept kept inner)
  | .call word known arguments => kept.call word known (argumentsKept kept arguments)

theorem argumentsKept (kept : Kept R P Q) {cs es} : Arguments R cs es → Q cs es
  | .none => kept.none
  | .some _ pieces => piecesKept kept pieces

theorem piecesKept (kept : Kept R P Q) {cs es} : Pieces R cs es → Q cs es
  | .last group => kept.last (groupKept kept group)
  | .more first rest => kept.more (groupKept kept first) rest.nonempty (piecesKept kept rest)
end

end

end Grammar

end Formula
