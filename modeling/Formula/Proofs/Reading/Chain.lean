import Formula.Proofs.Reading.Exact

/-! Operands in a row, with a symbol between each two. The tree grows with each operand taken from the left: behind a
multiplicative symbol it joins the product in front of it, behind an additive one it begins a product of its own. -/
namespace Formula

structure Link where
  symbol : Char
  operand : String

def Link.text (link : Link) : List Char := link.symbol :: link.operand.toList

def chain (first : String) (links : List Link) : String := .ofList (first.toList ++ links.flatMap Link.text)

/- A text that no symbol cuts: a word, or a group or call with nothing behind its closing parenthesis. -/
inductive Solid (R : Registry) : List Char → Prop where
  | word {cs} (word : Grammar.Word R cs) : Solid R cs
  | bracket {name inner} (plain : ∀ c ∈ name, isParenthesis c = false) (mute : ∀ c ∈ name, R.isSymbol c = false)
      (whole : balanced inner = true) : Solid R (name ++ '(' :: (inner ++ [')']))

structure Usable (R : Registry) (text : String) : Prop where
  shown : ∀ c ∈ text.toList, isBlank c = false
  solid : Solid R text.toList
  readable : ∃ e, R.read text = .ok e

structure Link.Fits (R : Registry) (link : Link) : Prop where
  symbol : R.isSymbol link.symbol = true
  shown : isBlank link.symbol = false
  operand : Usable R link.operand

/- What has grown of a tree: the product taken last and, if there is one, the sum in front of it with the symbol that
waits for the product. -/
structure Sprout where
  sum : Option (Expr × Char)
  product : Expr

def Sprout.tree : Sprout → Expr
  | ⟨none, product⟩ => product
  | ⟨some (sum, symbol), product⟩ => .binary symbol.toString sum product

def Sprout.grow (R : Registry) (sprout : Sprout) (symbol : Char) (operand : Expr) : Sprout :=
  if R.isSymbolIn (.between .multiplicative) symbol then
    { sprout with product := .binary symbol.toString sprout.product operand }
  else ⟨some (sprout.tree, symbol), operand⟩

namespace Grammar

structure Reads (R : Registry) (cs : List Char) (e : Expr) : Prop where
  closed : Closed R cs
  read : readSlice R cs = .ok e

structure ReadsProduct (R : Registry) (cs : List Char) (e : Expr) : Prop extends Reads R cs e where
  uncut : Uncut R .additive cs

inductive Grown (R : Registry) : List Char → Sprout → Prop where
  | product {cs e} (product : ReadsProduct R cs e) : Grown R cs ⟨none, e⟩
  | sum {l c r x y} (additive : R.isSymbolIn (.between .additive) c = true) (left : Reads R l x)
      (right : ReadsProduct R r y) : Grown R (l ++ c :: r) ⟨some (x, c), y⟩

section
variable {R : Registry} {cs l r : List Char} {c : Char} {e x y : Expr}

theorem readsBinary (delimited : R.Delimited) {p : Precedence} (tier : R.isSymbolIn (.between p) c = true)
    (left : Reads R l x) (right : Reads R r y) (unsplit : Unsplit R p r)
    (looser : p = .multiplicative → Uncut R .additive (l ++ c :: r)) :
    Reads R (l ++ c :: r) (.binary c.toString x y) where
  closed := closedBinary delimited left.closed right.closed (Registry.symbolOfTier tier)
  read := readBinary delimited tier left.closed right.closed unsplit looser left.read right.read

theorem Grown.reads (delimited : R.Delimited) {sprout : Sprout} (grown : Grown R cs sprout) :
    Reads R cs sprout.tree := by
  cases grown with
  | product product => exact product.toReads
  | sum additive left right =>
    exact readsBinary delimited additive left right.toReads right.uncut.unsplit (fun other => by cases other)

theorem solidClosed (delimited : R.Delimited) (solid : Solid R cs) : Closed R cs := by
  cases solid with
  | word word => exact closedWord word
  | bracket plain mute whole => exact closedBracket delimited plain whole

theorem solidUncut (solid : Solid R cs) (p : Precedence) : Uncut R p cs := by
  cases solid with
  | word word => exact uncutOfMute (muteWord word) p
  | bracket plain mute whole => exact uncutOfMute (muteBracket plain mute whole) p

theorem usableReads (delimited : R.Delimited) {text : String} (usable : Usable R text) (read : R.read text = .ok e) :
    ReadsProduct R text.toList e :=
  ⟨⟨solidClosed delimited usable.solid, ((readShown usable.shown).mp read).2⟩, solidUncut usable.solid .additive⟩

theorem productLonger (delimited : R.Delimited) (multiplicative : R.isSymbolIn (.between .multiplicative) c = true)
    (left : ReadsProduct R l x) (solid : Solid R r) (right : Reads R r y) :
    ReadsProduct R (l ++ c :: r) (.binary c.toString x y) := by
  have unsplit (p : Precedence) : Unsplit R p r := (solidUncut solid p).unsplit
  have uncut : Uncut R .additive (l ++ c :: r) :=
    uncutBinary delimited (Registry.symbolOfTier multiplicative) (notAdditive multiplicative) left.closed right.closed
      left.uncut (unsplit .additive)
  exact ⟨readsBinary delimited multiplicative left.toReads right (unsplit _) fun _ => uncut, uncut⟩

theorem additiveOtherwise (symbol : R.isSymbol c = true) (other : ¬ R.isSymbolIn (.between .multiplicative) c = true) :
    R.isSymbolIn (.between .additive) c = true := by
  simpa [Registry.isSymbol, other] using symbol

theorem Grown.grow (delimited : R.Delimited) {sprout : Sprout} {link : Link} (grown : Grown R cs sprout)
    (fits : link.Fits R) (read : R.read link.operand = .ok e) :
    Grown R (cs ++ link.text) (sprout.grow R link.symbol e) := by
  have operand := usableReads delimited fits.operand read
  unfold Sprout.grow Link.text
  split
  · rename_i multiplicative
    cases grown with
    | product product =>
      exact .product (productLonger delimited multiplicative product fits.operand.solid operand.toReads)
    | @sum l a r x y additive left right =>
      have longer := productLonger delimited multiplicative right fits.operand.solid operand.toReads
      simpa using Grown.sum additive left longer
  · rename_i other
    exact .sum (additiveOtherwise fits.symbol other) (grown.reads delimited) operand

end

end Grammar

end Formula
