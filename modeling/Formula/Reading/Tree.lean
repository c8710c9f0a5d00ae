import Formula.Expr
import Formula.Reading.Shape

/-! Reading a text into a tree. Parts are read from left to right, and the first error is the error of the whole,
moved by the number of characters in front of the part. -/
namespace Formula

theorem shapeGroupShorter {R : Registry} {cs inner : List Char} (h : shape R cs = .ok (.group inner)) :
    inner.length < cs.length := by
  have whole := congrArg List.length (shapeText h)
  simp [Shape.text] at whole
  omega

theorem shapeUnaryShorter {R : Registry} {cs operand : List Char} {symbol : Char}
    (h : shape R cs = .ok (.unary symbol operand)) : operand.length < cs.length := by
  have whole := congrArg List.length (shapeText h)
  simp [Shape.text] at whole
  omega

theorem shapeBinaryShorter {R : Registry} {cs left right : List Char} {symbol : Char}
    (h : shape R cs = .ok (.binary symbol left right)) : left.length < cs.length ∧ right.length < cs.length := by
  have whole := congrArg List.length (shapeText h)
  simp [Shape.text] at whole
  omega

theorem shapeCallShorter {R : Registry} {cs name : List Char} {arguments : List (List Char)}
    (h : shape R cs = .ok (.call name arguments)) : commaEnded arguments < cs.length := by
  have whole := congrArg List.length (shapeText h)
  cases arguments with
  | nil =>
    simp [Shape.text] at whole
    simp only [commaEnded]
    omega
  | cons piece pieces =>
    have joined := joinCommasLength piece pieces
    simp [Shape.text] at whole joined ⊢
    omega

mutual
def readSlice (R : Registry) (cs : List Char) : Except SyntaxError Expr :=
  match h : shape R cs with
  | .error e => .error e
  | .ok .blank => .ok .zero
  | .ok (.word text) => .ok (.term (String.ofList text))
  | .ok (.group inner) => behind 1 (readSlice R inner)
  | .ok (.call name arguments) =>
    (behind (name.length + 1) (readArguments R arguments)).map (.call (String.ofList name))
  | .ok (.unary symbol operand) => (behind 1 (readSlice R operand)).map (.unary symbol.toString)
  | .ok (.binary symbol left right) => do
    let l ← readSlice R left
    let r ← behind (left.length + 1) (readSlice R right)
    return .binary symbol.toString l r
termination_by cs.length
decreasing_by
  · exact shapeGroupShorter h
  · exact shapeCallShorter h
  · exact shapeUnaryShorter h
  · exact (shapeBinaryShorter h).1
  · exact (shapeBinaryShorter h).2

def readArguments (R : Registry) (pieces : List (List Char)) : Except SyntaxError (List Expr) :=
  match pieces with
  | [] => .ok []
  | piece :: pieces => do
    let e ← readSlice R piece
    let es ← behind (piece.length + 1) (readArguments R pieces)
    return e :: es
termination_by commaEnded pieces
decreasing_by all_goals (simp only [commaEnded]; omega)
end

def Shape.tree (R : Registry) : Shape → Except SyntaxError Expr
  | .blank => .ok .zero
  | .word text => .ok (.term (String.ofList text))
  | .group inner => behind 1 (readSlice R inner)
  | .call name arguments =>
    (behind (name.length + 1) (readArguments R arguments)).map (.call (String.ofList name))
  | .unary symbol operand => (behind 1 (readSlice R operand)).map (.unary symbol.toString)
  | .binary symbol left right => do
    let l ← readSlice R left
    let r ← behind (left.length + 1) (readSlice R right)
    return .binary symbol.toString l r

theorem readSliceShape (R : Registry) (cs : List Char) : readSlice R cs = shape R cs >>= Shape.tree R := by
  rw [readSlice]
  split <;> rename_i h <;> rw [h] <;> rfl

theorem readArgumentsNil (R : Registry) : readArguments R [] = .ok [] := by
  rw [readArguments]

theorem readArgumentsCons (R : Registry) (piece : List Char) (pieces : List (List Char)) :
    readArguments R (piece :: pieces) = (do
      let e ← readSlice R piece
      let es ← behind (piece.length + 1) (readArguments R pieces)
      return e :: es) := by
  rw [readArguments]

def dropBlanks (cs : List Char) : List Char := cs.filter (!isBlank ·)

def Registry.read (R : Registry) (text : String) : Except SyntaxError Expr :=
  match imbalance? text.toList with
  | some position => .error (.unbalanced position)
  | none => readSlice R (dropBlanks text.toList)

end Formula
