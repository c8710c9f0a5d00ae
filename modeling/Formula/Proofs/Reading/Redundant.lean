import Formula.Proofs.Reading.Complete
import Formula.Proofs.Reading.Level

/-! Redundant parentheses. A text in any number of further pairs of them is read to the same tree, or to the same error
behind as many more characters, whatever is registered. -/
namespace Formula

def parenthesised (count : Nat) (cs : List Char) : List Char :=
  List.replicate count '(' ++ cs ++ List.replicate count ')'

inductive Moved (count : Nat) : SyntaxError → SyntaxError → Prop where
  | unknownFunction (name : String) (position : Nat) :
      Moved count (.unknownFunction name position) (.unknownFunction name (position + count))
  | missingOperand (symbol : Char) (position : Nat) :
      Moved count (.missingOperand symbol position) (.missingOperand symbol (position + count))
  | trailing (position : Nat) : Moved count (.trailing position) (.trailing (position + count))
  | unexpected (character : Char) (position : Nat) :
      Moved count (.unexpected character position) (.unexpected character (position + count))

theorem movedShift {count : Nat} {cause err : SyntaxError} (placed : cause.Placed) :
    Moved count cause err ↔ err = cause.shift count := by
  constructor
  · intro moved
    cases moved <;> simp [SyntaxError.shift, Nat.add_comm]
  · rintro rfl
    cases cause with
    | unbalanced position => exact placed.elim
    | malformed reason => exact placed.elim
    | unknownFunction name position =>
      rw [SyntaxError.shift, Nat.add_comm]
      exact .unknownFunction name position
    | missingOperand symbol position =>
      rw [SyntaxError.shift, Nat.add_comm]
      exact .missingOperand symbol position
    | trailing position =>
      rw [SyntaxError.shift, Nat.add_comm]
      exact .trailing position
    | unexpected character position =>
      rw [SyntaxError.shift, Nat.add_comm]
      exact .unexpected character position

section
variable {R : Registry} {cs : List Char}

theorem parenthesisedSucc (count : Nat) (cs : List Char) :
    parenthesised (count + 1) cs = '(' :: (parenthesised count cs ++ [')']) := by
  rw [parenthesised, List.replicate_succ, List.replicate_succ']
  simp [parenthesised]

theorem parenthesisedBalanced (count : Nat) (whole : balanced cs = true) :
    balanced (parenthesised count cs) = true := by
  induction count with
  | zero => simpa [parenthesised] using whole
  | succ count ih =>
    rw [parenthesisedSucc]
    exact Grammar.balancedBracket (List.forall_mem_nil _) ih

theorem dropBlanksParenthesised (count : Nat) (cs : List Char) :
    dropBlanks (parenthesised count cs) = parenthesised count (dropBlanks cs) := by
  simp [dropBlanks, parenthesised, openShown, closeShown]

theorem readParenthesised (count : Nat) (whole : balanced cs = true) :
    readSlice R (parenthesised count cs) = behind count (readSlice R cs) := by
  induction count with
  | zero => cases read : readSlice R cs <;> simp [parenthesised, read, behindOk, behindError, SyntaxError.shiftZero]
  | succ count ih =>
    -- each pair is a group of its own, and what is in it stands one character further on
    have group : readSlice R ('(' :: (parenthesised count cs ++ [')'])) =
        behind 1 (readSlice R (parenthesised count cs)) :=
      readOfShape (Grammar.shapeGroup (parenthesisedBalanced count whole))
    rw [parenthesisedSucc, group, ih, behindBehind, Nat.add_comm]

end

namespace Registry

theorem readBehind (R : Registry) (count : Nat) {text : String} (whole : balanced text.toList = true) :
    R.read (String.ofList (parenthesised count text.toList)) = behind count (R.read text) := by
  have enclosed := parenthesisedBalanced count whole
  rw [readBalanced whole, readBalanced (by rwa [String.toList_ofList]), String.toList_ofList, dropBlanksParenthesised]
  exact readParenthesised count ((balancedDropBlanks 0 _).trans whole)

theorem readRedundant (R : Registry) (count : Nat) (text : String) (level : Level text.toList) :
    let enclosed := String.ofList (parenthesised count text.toList)
    (∀ e, R.read enclosed = .ok e ↔ R.read text = .ok e) ∧
    ∀ err, R.read enclosed = .error err ↔ ∃ cause, R.read text = .error cause ∧ Moved count cause err := by
  have whole := levelBalanced.mp level
  simp only [R.readBehind count whole]
  refine ⟨fun e => behindOkIff, fun err => ?_⟩
  rw [behindErrorIff]
  exact exists_congr fun cause => and_congr_right fun failed => (movedShift (readPlaced whole failed)).symm

/- The parentheses and the comma are symbols here, and the blanks count for nothing. -/
theorem readRedundantCrowded : Level " ( x 7 ) y".toList ∧ crowded.read " ( x 7 ) y" = .error (.trailing 4) ∧
    Moved 2 (.trailing 4) (.trailing 6) ∧ crowded.read "(( ( x 7 ) y))" = .error (.trailing 6) :=
  have level : Level " ( x 7 ) y".toList := levelBalanced.mpr (by decide +kernel)
  have failed : crowded.read " ( x 7 ) y" = .error (.trailing 4) := by decide +kernel
  have moved : Moved 2 (.trailing 4) (.trailing 6) := .trailing 4
  ⟨level, failed, moved, ((readRedundant crowded 2 " ( x 7 ) y" level).2 _).mpr ⟨_, failed, moved⟩⟩

end Registry

end Formula
