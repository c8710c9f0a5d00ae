import Formula.Reading.Tree

/-! How the outcome for a text follows from the outcomes for its parts. A tree needs a tree of each part, and an
error is the first error of a part, moved behind the characters in front of that part. -/
namespace Formula

theorem bindOk {α β : Type} {outcome : Except SyntaxError α} {f : α → Except SyntaxError β} {b : β} :
    outcome >>= f = .ok b ↔ ∃ a, outcome = .ok a ∧ f a = .ok b := by
  cases outcome with
  | error err => simp [bind, Except.bind]
  | ok a => simp [bind, Except.bind]

theorem bindError {α β : Type} {outcome : Except SyntaxError α} {f : α → Except SyntaxError β} {err : SyntaxError} :
    outcome >>= f = .error err ↔ outcome = .error err ∨ ∃ a, outcome = .ok a ∧ f a = .error err := by
  cases outcome with
  | error err' => simp [bind, Except.bind]
  | ok a => simp [bind, Except.bind]

theorem mapOk {α β : Type} {outcome : Except SyntaxError α} {f : α → β} {b : β} :
    outcome.map f = .ok b ↔ ∃ a, outcome = .ok a ∧ f a = b := by
  cases outcome <;> simp [Except.map]

theorem mapError {α β : Type} {outcome : Except SyntaxError α} {f : α → β} {err : SyntaxError} :
    outcome.map f = .error err ↔ outcome = .error err := by
  cases outcome <;> simp [Except.map]

theorem behindOkIff {α : Type} {k : Nat} {outcome : Except SyntaxError α} {a : α} :
    behind k outcome = .ok a ↔ outcome = .ok a := by
  cases outcome <;> simp [behindOk, behindError]

theorem behindErrorIff {α : Type} {k : Nat} {outcome : Except SyntaxError α} {err : SyntaxError} :
    behind k outcome = .error err ↔ ∃ cause, outcome = .error cause ∧ err = cause.shift k := by
  cases outcome <;> simp [behindOk, behindError, eq_comm]

theorem pieceShorter {piece : List Char} {pieces : List (List Char)} (member : piece ∈ pieces) :
    piece.length < commaEnded pieces := by
  induction pieces with
  | nil => simp at member
  | cons first pieces ih =>
    rw [commaEnded]
    rcases List.mem_cons.mp member with rfl | later
    · omega
    · exact Nat.lt_of_lt_of_le (ih later) (by omega)

section
variable {R : Registry} {err : SyntaxError}

theorem readOfShape {cs : List Char} {s : Shape} (h : shape R cs = .ok s) : readSlice R cs = s.tree R := by
  rw [readSliceShape, h]
  rfl

theorem readNothing (R : Registry) : readSlice R [] = .ok .zero := readOfShape (s := .blank) (by simp [shape])

theorem groupTree {inner : List Char} {e : Expr} :
    (Shape.group inner).tree R = .ok e ↔ readSlice R inner = .ok e := behindOkIff

theorem groupError {inner : List Char} : (Shape.group inner).tree R = .error err ↔
    ∃ cause, readSlice R inner = .error cause ∧ err = cause.shift 1 := behindErrorIff

theorem unaryTree {c : Char} {operand : List Char} {e : Expr} : (Shape.unary c operand).tree R = .ok e ↔
    ∃ x, readSlice R operand = .ok x ∧ .unary c.toString x = e := by
  simp only [Shape.tree, mapOk, behindOkIff]

theorem unaryError {c : Char} {operand : List Char} : (Shape.unary c operand).tree R = .error err ↔
    ∃ cause, readSlice R operand = .error cause ∧ err = cause.shift 1 := by
  simp only [Shape.tree, mapError, behindErrorIff]

theorem binaryTree {c : Char} {left right : List Char} {e : Expr} : (Shape.binary c left right).tree R = .ok e ↔
    ∃ x, readSlice R left = .ok x ∧ ∃ y, readSlice R right = .ok y ∧ .binary c.toString x y = e := by
  simp only [Shape.tree, bindOk, behindOkIff, pure, Except.pure, Except.ok.injEq]

theorem binaryError {c : Char} {left right : List Char} : (Shape.binary c left right).tree R = .error err ↔
    readSlice R left = .error err ∨ ∃ x, readSlice R left = .ok x ∧
      ∃ cause, readSlice R right = .error cause ∧ err = cause.shift (left.length + 1) := by
  simp only [Shape.tree, bindError, behindErrorIff, pure, Except.pure, reduceCtorEq, and_false, exists_false, or_false]

theorem callTree {name : List Char} {pieces : List (List Char)} {e : Expr} :
    (Shape.call name pieces).tree R = .ok e ↔
      ∃ es, readArguments R pieces = .ok es ∧ .call (String.ofList name) es = e := by
  simp only [Shape.tree, mapOk, behindOkIff]

theorem callError {name : List Char} {pieces : List (List Char)} : (Shape.call name pieces).tree R = .error err ↔
    ∃ cause, readArguments R pieces = .error cause ∧ err = cause.shift (name.length + 1) := by
  simp only [Shape.tree, mapError, behindErrorIff]

theorem argumentsTree {piece : List Char} {pieces : List (List Char)} {es : List Expr} :
    readArguments R (piece :: pieces) = .ok es ↔
      ∃ x, readSlice R piece = .ok x ∧ ∃ xs, readArguments R pieces = .ok xs ∧ x :: xs = es := by
  simp only [readArgumentsCons, bindOk, behindOkIff, pure, Except.pure, Except.ok.injEq]

theorem argumentsError {pieces : List (List Char)} (h : readArguments R pieces = .error err) :
    ∃ former piece others cause, pieces = former ++ piece :: others ∧ readSlice R piece = .error cause ∧
      err = cause.shift (commaEnded former) := by
  induction pieces generalizing err with
  | nil => simp [readArgumentsNil] at h
  | cons piece pieces ih =>
    rw [readArgumentsCons, bindError] at h
    rcases h with here | ⟨x, -, later⟩
    · exact ⟨[], piece, pieces, err, rfl, here, (SyntaxError.shiftZero err).symm⟩
    · simp only [bindError, behindErrorIff, pure, Except.pure, reduceCtorEq, and_false, exists_false, or_false] at later
      obtain ⟨tail, found, rfl⟩ := later
      obtain ⟨former, piece', others, cause, rfl, inner, rfl⟩ := ih found
      exact ⟨piece :: former, piece', others, cause, rfl, inner, SyntaxError.shiftShift _ _ _⟩

end

end Formula
