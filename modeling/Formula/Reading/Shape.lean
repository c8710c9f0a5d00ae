import Formula.Reading.Parenthesis
import Formula.Registry

/-! The outermost form of a text without blanks, with the parts still to be read, or the error that is found there. The
loosest symbol outside all parentheses decides, of equally loose ones the last. Without any, a name in front of a
parenthesis makes a call, a parenthesis in front a group, and the rest is a word. Positions of errors count characters,
blanks left out, except that unbalanced parentheses are placed in the text as it was given. -/
namespace Formula

inductive SyntaxError where
  | unbalanced (position : Nat)
  | unknownFunction (name : String) (position : Nat)
  | missingOperand (symbol : Char) (position : Nat)
  | trailing (position : Nat)
  | unexpected (character : Char) (position : Nat)
  | malformed (reason : String)
  deriving DecidableEq, Repr

namespace SyntaxError

def message : SyntaxError → String
  | unbalanced position => "incorrect parenthesis at " ++ toString position ++ " position"
  | unknownFunction name position => "function '" ++ name ++ "' is not supported (at " ++ toString position ++ ")"
  | missingOperand symbol position =>
    "operator '" ++ symbol.toString ++ "' at " ++ toString position ++ " is missing an operand"
  | trailing position => "unexpected characters after closing parenthesis at " ++ toString position
  | unexpected character position =>
    "unexpected '" ++ character.toString ++ "' at " ++ toString position
  | malformed reason => "malformed expression: " ++ reason

def shift (k : Nat) : SyntaxError → SyntaxError
  | unbalanced position => .unbalanced (k + position)
  | unknownFunction name position => .unknownFunction name (k + position)
  | missingOperand symbol position => .missingOperand symbol (k + position)
  | trailing position => .trailing (k + position)
  | unexpected character position => .unexpected character (k + position)
  | malformed reason => .malformed reason

theorem shiftZero (e : SyntaxError) : e.shift 0 = e := by
  cases e <;> simp [shift]

theorem shiftShift (j k : Nat) (e : SyntaxError) : (e.shift k).shift j = e.shift (j + k) := by
  cases e <;> simp [shift, Nat.add_assoc]

end SyntaxError

def behind {α : Type} (k : Nat) (outcome : Except SyntaxError α) : Except SyntaxError α :=
  outcome.mapError (·.shift k)

theorem behindOk {α : Type} (k : Nat) (a : α) : behind k (.ok a) = .ok a := rfl

theorem behindError {α : Type} (k : Nat) (e : SyntaxError) :
    behind k (.error e : Except SyntaxError α) = .error (e.shift k) := rfl

theorem behindBehind {α : Type} (j k : Nat) (outcome : Except SyntaxError α) :
    behind j (behind k outcome) = behind (j + k) outcome := by
  cases outcome <;> simp [behindOk, behindError, SyntaxError.shiftShift]

inductive Shape where
  | blank
  | word (text : List Char)
  | group (inner : List Char)
  | call (name : List Char) (arguments : List (List Char))
  | unary (symbol : Char) (operand : List Char)
  | binary (symbol : Char) (left right : List Char)
  deriving DecidableEq, Repr

def Shape.text : Shape → List Char
  | .blank => []
  | .word text => text
  | .group inner => '(' :: inner ++ [')']
  | .call name arguments => name ++ '(' :: joinCommas arguments ++ [')']
  | .unary symbol operand => symbol :: operand
  | .binary symbol left right => left ++ symbol :: right

/- What a symbol means at its place. One that ends the text lacks an operand, and one that begins it is a sign.
A symbol right behind another is a sign of the operand that follows, and the text is not cut there. -/
def Cut.shape? (R : Registry) (cut : Cut) : Option (Except SyntaxError Shape) :=
  let missing := .error (.missingOperand cut.symbol cut.position)
  match cut.before, cut.after with
  | _, [] => some missing
  | [], operand => some (if R.isFunction cut.symbol.toString then .ok (.unary cut.symbol operand) else missing)
  | previous :: before, right =>
    if R.isSymbol previous then none else some (.ok (.binary cut.symbol (previous :: before).reverse right))

def shapeAt? (R : Registry) (precedence : Precedence) (cs : List Char) : Option (Except SyntaxError Shape) :=
  (topCuts cs).findSome? fun cut =>
    if R.isSymbolIn (.between precedence) cut.symbol then cut.shape? R else none

def wordShape (cs : List Char) : Except SyntaxError Shape :=
  match cs.idxOf? ',' with
  | some position => .error (.unexpected ',' position)
  | none => .ok (.word cs)

def bracketShape (R : Registry) (name behindOpen : List Char) : Except SyntaxError Shape :=
  if name ≠ [] ∧ R.isFunction (String.ofList name) = false then .error (.unknownFunction (String.ofList name) 0)
  else match splitClose? 0 behindOpen with
    | none => .error (.malformed ("no closing parenthesis for '(' at " ++ toString name.length))
    | some (inner, []) => .ok (if name = [] then .group inner else .call name (splitArguments inner))
    | some (inner, _ :: _) => .error (.trailing (name.length + inner.length + 2))

def atomShape (R : Registry) (cs : List Char) : Except SyntaxError Shape :=
  match cs.dropWhile (· != '(') with
  | [] => wordShape cs
  | _ :: behindOpen => bracketShape R (cs.takeWhile (· != '(')) behindOpen

def shape (R : Registry) (cs : List Char) : Except SyntaxError Shape :=
  if cs = [] then .ok .blank
  else (shapeAt? R .additive cs <|> shapeAt? R .multiplicative cs).getD (atomShape R cs)

theorem cutShapeText {R : Registry} {cut : Cut} {s : Shape} (h : cut.shape? R = some (.ok s)) :
    s.text = cut.text := by
  obtain ⟨before, symbol, after⟩ := cut
  cases before with
  | nil =>
    cases after with
    | nil => simp [Cut.shape?] at h
    | cons c after =>
      simp only [Cut.shape?, Option.some.injEq] at h
      split at h
      · cases h; rfl
      · cases h
  | cons previous before =>
    cases after with
    | nil => simp [Cut.shape?] at h
    | cons c after =>
      simp only [Cut.shape?] at h
      split at h
      · cases h
      · cases h; rfl

theorem shapeAtText {R : Registry} {p : Precedence} {cs : List Char} {s : Shape}
    (h : shapeAt? R p cs = some (.ok s)) : s.text = cs := by
  obtain ⟨cut, member, found⟩ := List.exists_of_findSome?_eq_some h
  split at found
  · rw [cutShapeText found, topCutsText member]
  · cases found

theorem bracketShapeText {R : Registry} {name behindOpen : List Char} {s : Shape}
    (h : bracketShape R name behindOpen = .ok s) : s.text = name ++ '(' :: behindOpen := by
  unfold bracketShape at h
  split at h
  · cases h
  · split at h
    · cases h
    · rename_i inner found
      have whole := splitCloseText found
      cases h
      split
      · rename_i empty
        simpa [Shape.text, empty] using whole
      · simpa [Shape.text, splitArgumentsText] using whole
    · cases h

theorem atomShapeText {R : Registry} {cs : List Char} {s : Shape} (h : atomShape R cs = .ok s) : s.text = cs := by
  have parts := List.takeWhile_append_dropWhile (p := (· != '(')) (l := cs)
  unfold atomShape at h
  split at h
  · unfold wordShape at h
    split at h
    · cases h
    · cases h; rfl
  · rename_i c behindOpen rest
    have first := List.head?_dropWhile_not (· != '(') cs
    rw [rest] at first parts
    have isOpen : c = '(' := by simpa using first
    subst isOpen
    rw [bracketShapeText h, parts]

theorem shapeCases {R : Registry} {cs : List Char} {outcome : Except SyntaxError Shape} (h : shape R cs = outcome) :
    (cs = [] ∧ outcome = .ok .blank) ∨ (∃ p, shapeAt? R p cs = some outcome) ∨ atomShape R cs = outcome := by
  unfold shape at h
  split at h
  · exact .inl ⟨‹_›, h.symm⟩
  · cases additive : shapeAt? R .additive cs with
    | some found =>
      rw [additive] at h
      exact .inr (.inl ⟨.additive, additive.trans (congrArg some h)⟩)
    | none =>
      cases multiplicative : shapeAt? R .multiplicative cs with
      | some found =>
        rw [additive, multiplicative] at h
        exact .inr (.inl ⟨.multiplicative, multiplicative.trans (congrArg some h)⟩)
      | none =>
        rw [additive, multiplicative] at h
        exact .inr (.inr h)

theorem shapeText {R : Registry} {cs : List Char} {s : Shape} (h : shape R cs = .ok s) : s.text = cs := by
  rcases shapeCases h with ⟨rfl, blank⟩ | ⟨p, found⟩ | found
  · cases blank
    rfl
  · exact shapeAtText found
  · exact atomShapeText found

end Formula
