import Formula.Proofs.Reading.Form
import Formula.Proofs.Reading.Parts

/-! Balance in numbers, and what it means for reading. A text is refused as unbalanced exactly where its numbers of
opening and closing parentheses say so. Every part of a balanced text is balanced, so that no other text is refused for
its parentheses, and blanks are of no account in it. -/
namespace Formula

structure Level (cs : List Char) : Prop where
  fronts : ∀ n, (cs.take n).count ')' ≤ (cs.take n).count '('
  even : cs.count ')' = cs.count '('

def Surplus (cs : List Char) (p : Nat) : Prop :=
  cs[p]? = some ')' ∧ (cs.take (p + 1)).count '(' < (cs.take (p + 1)).count ')'

inductive Fault (cs : List Char) : Nat → Prop where
  | surplus {p} (here : Surplus cs p) (first : ∀ q < p, ¬ Surplus cs q) : Fault cs p
  | unclosed {p} (none : ∀ q, ¬ Surplus cs q) (uneven : cs.count ')' ≠ cs.count '(') (last : p + 1 = cs.length) :
      Fault cs p

structure LevelFrom (depth : Nat) (cs : List Char) : Prop where
  fronts : ∀ n, (cs.take n).count ')' ≤ depth + (cs.take n).count '('
  even : cs.count ')' = depth + cs.count '('

def SurplusFrom (depth : Nat) (cs : List Char) (p : Nat) : Prop :=
  cs[p]? = some ')' ∧ depth + (cs.take (p + 1)).count '(' < (cs.take (p + 1)).count ')'

def FaultFrom (depth position : Nat) (cs : List Char) (p : Nat) : Prop :=
  (∃ q, p = position + q ∧ SurplusFrom depth cs q ∧ ∀ r < q, ¬ SurplusFrom depth cs r) ∨
  ((∀ q, ¬ SurplusFrom depth cs q) ∧ cs.count ')' ≠ depth + cs.count '(' ∧ p = position + cs.length - 1)

theorem countBehind {depth : Nat} {c : Char} (inside : ¬(c = ')' ∧ depth = 0)) (cs : List Char) :
    (c :: cs).count ')' + (depthAfter depth c + cs.count '(') = depth + (c :: cs).count '(' + cs.count ')' := by
  rcases parenthesisCases c with rfl | rfl | plain
  · simp [depthAfter]
    omega
  · simp only [true_and] at inside
    simp [depthAfter]
    omega
  · simp [depthAfterPlain plain, plainNotOpen plain, plainNotClose plain]
    omega

theorem levelCons {depth : Nat} {c : Char} {cs : List Char} : LevelFrom depth (c :: cs) ↔
    ¬(c = ')' ∧ depth = 0) ∧ LevelFrom (depthAfter depth c) cs := by
  constructor
  · intro level
    have inside : ¬(c = ')' ∧ depth = 0) := by
      rintro ⟨rfl, rfl⟩
      simpa using level.fronts 1
    refine ⟨inside, fun n => ?_, ?_⟩
    · have front := level.fronts (n + 1)
      have behind := countBehind inside (cs.take n)
      rw [List.take_succ_cons] at front
      omega
    · have even := level.even
      have behind := countBehind inside cs
      omega
  · rintro ⟨inside, level⟩
    refine ⟨fun n => ?_, ?_⟩
    · cases n with
      | zero => simp
      | succ n =>
        have front := level.fronts n
        have behind := countBehind inside (cs.take n)
        rw [List.take_succ_cons]
        omega
    · have even := level.even
      have behind := countBehind inside cs
      omega

theorem levelFromBalanced {depth : Nat} {cs : List Char} : LevelFrom depth cs ↔ balancedFrom depth cs = true := by
  induction cs generalizing depth with
  | nil =>
    rw [balancedNil]
    exact ⟨fun level => by simpa using level.even.symm, fun zero => ⟨by simp, by simp [zero]⟩⟩
  | cons c cs ih => rw [levelCons, balancedCons, ih]

theorem levelBalanced {cs : List Char} : Level cs ↔ balanced cs = true := by
  rw [balanced, ← levelFromBalanced]
  exact ⟨fun level => ⟨by simpa using level.fronts, by simpa using level.even⟩,
    fun level => ⟨by simpa using level.fronts, by simpa using level.even⟩⟩

theorem surplusFirst {depth : Nat} {c : Char} {cs : List Char} :
    SurplusFrom depth (c :: cs) 0 ↔ c = ')' ∧ depth = 0 := by
  simp only [SurplusFrom, List.getElem?_cons_zero, Option.some.injEq, List.take_succ_cons, List.take_zero]
  constructor
  · rintro ⟨rfl, more⟩
    simpa using more
  · rintro ⟨rfl, rfl⟩
    simp

theorem surplusLater {depth p : Nat} {c : Char} {cs : List Char} (inside : ¬(c = ')' ∧ depth = 0)) :
    SurplusFrom depth (c :: cs) (p + 1) ↔ SurplusFrom (depthAfter depth c) cs p := by
  have behind := countBehind inside (cs.take (p + 1))
  simp only [SurplusFrom, List.getElem?_cons_succ, List.take_succ_cons]
  exact and_congr_right fun _ => by omega

theorem surplusNowhere {depth : Nat} {c : Char} {cs : List Char} (inside : ¬(c = ')' ∧ depth = 0)) (q : Nat) :
    (∀ r < q + 1, ¬ SurplusFrom depth (c :: cs) r) ↔ ∀ r < q, ¬ SurplusFrom (depthAfter depth c) cs r := by
  constructor
  · intro none r before
    rw [← surplusLater inside]
    exact none (r + 1) (by omega)
  · intro none r before
    cases r with
    | zero => exact fun here => inside (surplusFirst.mp here)
    | succ r =>
      rw [surplusLater inside]
      exact none r (by omega)

theorem faultNil {depth position p : Nat} : FaultFrom depth position [] p ↔ depth ≠ 0 ∧ p = position - 1 := by
  simp [FaultFrom, SurplusFrom, eq_comm]

theorem faultHere {position p : Nat} {cs : List Char} : FaultFrom 0 position (')' :: cs) p ↔ p = position := by
  have here : SurplusFrom 0 (')' :: cs) 0 := surplusFirst.mpr ⟨rfl, rfl⟩
  constructor
  · rintro (⟨q, rfl, -, first⟩ | ⟨none, -⟩)
    · cases q with
      | zero => rfl
      | succ q => exact absurd here (first 0 (by omega))
    · exact absurd here (none 0)
  · rintro rfl
    exact .inl ⟨0, rfl, here, by simp⟩

theorem faultLater {depth position p : Nat} {c : Char} {cs : List Char} (inside : ¬(c = ')' ∧ depth = 0)) :
    FaultFrom depth position (c :: cs) p ↔ FaultFrom (depthAfter depth c) (position + 1) cs p := by
  have behind := countBehind inside cs
  have nowhere : (∀ q, ¬ SurplusFrom depth (c :: cs) q) ↔ ∀ q, ¬ SurplusFrom (depthAfter depth c) cs q := by
    constructor
    · exact fun none q => (surplusNowhere inside (q + 1)).mp (fun r _ => none r) q (by omega)
    · exact fun none q => (surplusNowhere inside q).mpr (fun r _ => none r) q (by omega)
  refine or_congr ?_ ?_
  · constructor
    · rintro ⟨q, rfl, here, first⟩
      cases q with
      | zero => exact absurd (surplusFirst.mp here) inside
      | succ q =>
        exact ⟨q, by omega, (surplusLater inside).mp here, (surplusNowhere inside q).mp first⟩
    · rintro ⟨q, rfl, here, first⟩
      exact ⟨q + 1, by omega, (surplusLater inside).mpr here, (surplusNowhere inside q).mpr first⟩
  · rw [nowhere, List.length_cons]
    refine and_congr_right fun _ => and_congr ?_ ?_ <;> omega

theorem imbalanceFault {depth position p : Nat} {cs : List Char} :
    imbalanceFrom depth position cs = some p ↔ FaultFrom depth position cs p := by
  induction cs generalizing depth position with
  | nil =>
    rw [faultNil, imbalanceFrom]
    split <;> simp_all [eq_comm]
  | cons c cs ih =>
    rw [imbalanceFrom]
    split
    · rename_i close
      obtain ⟨rfl, rfl⟩ := close
      rw [faultHere, Option.some.injEq, eq_comm]
    · rename_i inside
      rw [faultLater inside, ih]

theorem imbalanceSome {cs : List Char} {p : Nat} : imbalance? cs = some p ↔ Fault cs p := by
  have same (q : Nat) : SurplusFrom 0 cs q ↔ Surplus cs q := by simp [SurplusFrom, Surplus]
  rw [imbalance?, imbalanceFault]
  simp only [FaultFrom, same, Nat.zero_add]
  constructor
  · rintro (⟨q, rfl, here, first⟩ | ⟨none, uneven, last⟩)
    · exact .surplus here first
    · refine .unclosed none uneven ?_
      cases cs with
      | nil => simp at uneven
      | cons c cs =>
        rw [List.length_cons] at last ⊢
        omega
  · rintro (⟨here, first⟩ | ⟨none, uneven, last⟩)
    · exact .inl ⟨p, rfl, here, first⟩
    · exact .inr ⟨none, uneven, by omega⟩

def Shape.Level : Shape → Prop
  | .blank => True
  | .word _ => True
  | .group inner => balanced inner = true
  | .call _ arguments => ∀ piece ∈ arguments, balanced piece = true
  | .unary _ operand => balanced operand = true
  | .binary _ left right => balanced left = true ∧ balanced right = true

def SyntaxError.Placed : SyntaxError → Prop
  | .unbalanced _ => False
  | .malformed _ => False
  | _ => True

theorem placedShift {k : Nat} {err : SyntaxError} : (err.shift k).Placed ↔ err.Placed := by
  cases err <;> rfl

section
variable {R : Registry} {cs : List Char}

def Sound : Except SyntaxError Shape → Prop
  | .ok s => s.Level
  | .error err => err.Placed

theorem soundDecided {p : Precedence} {left right : List Char} {c : Char} (decides : Decides R p cs left c right) :
    Sound (decided R left c right) := by
  unfold decided
  split
  · trivial
  · split
    · split
      · exact decides.place.after
      · trivial
    · exact ⟨decides.place.before, decides.place.after⟩

theorem soundWord : Sound (wordShape cs) := by
  unfold wordShape
  split <;> trivial

theorem soundBracketed {name inner rest : List Char} (parts : Bracketed cs name inner rest) :
    Sound (bracketed R name inner rest) := by
  unfold bracketed
  split
  · trivial
  · split
    · split
      · exact parts.enclosed
      · exact fun piece member => (splitArgumentsPieces parts.enclosed piece member).1
    · trivial

theorem soundShape (whole : balanced cs = true) : Sound (shape R cs) := by
  have form := shapeForm (R := R) whole
  generalize shape R cs = outcome at form
  cases form with
  | blank => trivial
  | symbol decides => exact soundDecided decides
  | word => exact soundWord
  | bracket _ _ parts => exact soundBracketed parts

theorem readSlicePlaced {err : SyntaxError} (whole : balanced cs = true) (read : readSlice R cs = .error err) :
    err.Placed := by
  induction size : cs.length using Nat.strongRecOn generalizing cs err with
  | ind n ih =>
    subst size
    have sound := soundShape (R := R) whole
    rw [readSliceShape] at read
    rcases bindError.mp read with found | ⟨s, found, tree⟩
    · rwa [found] at sound
    · rw [found] at sound
      cases s with
      | blank => contradiction
      | word text => contradiction
      | group inner =>
        obtain ⟨cause, inside, rfl⟩ := groupError.mp tree
        exact placedShift.mpr (ih _ (shapeGroupShorter found) sound inside rfl)
      | unary c operand =>
        obtain ⟨cause, inside, rfl⟩ := unaryError.mp tree
        exact placedShift.mpr (ih _ (shapeUnaryShorter found) sound inside rfl)
      | binary c left right =>
        have shorter := shapeBinaryShorter found
        rcases binaryError.mp tree with first | ⟨x, -, cause, second, rfl⟩
        · exact ih _ shorter.1 sound.1 first rfl
        · exact placedShift.mpr (ih _ shorter.2 sound.2 second rfl)
      | call name pieces =>
        obtain ⟨failure, listed, rfl⟩ := callError.mp tree
        obtain ⟨former, piece, others, cause, split, inside, rfl⟩ := argumentsError listed
        have member : piece ∈ pieces := by simp [split]
        have shorter := Nat.lt_trans (pieceShorter member) (shapeCallShorter found)
        exact placedShift.mpr (placedShift.mpr (ih _ shorter (sound piece member) inside rfl))

end

namespace Registry
variable {R : Registry}

theorem readBalanced {text : String} (whole : balanced text.toList = true) :
    R.read text = readSlice R (dropBlanks text.toList) := by
  rw [read, (imbalanceBalanced _).mpr whole]

theorem readUnbalanced {text : String} {p : Nat} (fault : imbalance? text.toList = some p) :
    R.read text = .error (.unbalanced p) := by
  rw [read, fault]

theorem readPlaced {text : String} {err : SyntaxError} (whole : balanced text.toList = true)
    (failed : R.read text = .error err) : err.Placed := by
  rw [readBalanced whole] at failed
  exact readSlicePlaced ((balancedDropBlanks 0 _).trans whole) failed

theorem readFault {text : String} {p : Nat} :
    R.read text = .error (.unbalanced p) ↔ Fault text.toList p := by
  rw [← imbalanceSome]
  constructor
  · intro failed
    cases found : imbalance? text.toList with
    | none => exact (readPlaced ((imbalanceBalanced _).mp found) failed).elim
    | some q =>
      rw [readUnbalanced found] at failed
      cases failed
      rfl
  · exact readUnbalanced

theorem readNotMalformed (text : String) (reason : String) : R.read text ≠ .error (.malformed reason) := by
  intro failed
  cases found : imbalance? text.toList with
  | none => exact readPlaced ((imbalanceBalanced _).mp found) failed
  | some p =>
    rw [readUnbalanced found] at failed
    cases failed

theorem readUneven {text : String} : (∃ p, R.read text = .error (.unbalanced p)) ↔ ¬ Level text.toList := by
  simp only [readFault, ← imbalanceSome]
  rw [levelBalanced, ← imbalanceBalanced, ← Option.isSome_iff_exists, Option.isSome_iff_ne_none]

theorem readAlikeBlanks {text other : String} (level : Level text.toList) (level' : Level other.toList)
    (same : dropBlanks other.toList = dropBlanks text.toList) : R.read other = R.read text := by
  rw [readBalanced (levelBalanced.mp level), readBalanced (levelBalanced.mp level'), same]

theorem dropBlanksAgain (cs : List Char) : dropBlanks (dropBlanks cs) = dropBlanks cs := by
  simp [dropBlanks]

theorem levelDropBlanks {cs : List Char} (level : Level cs) : Level (dropBlanks cs) := by
  rw [levelBalanced, balanced, balancedDropBlanks]
  exact levelBalanced.mp level

theorem readBalance (R : Registry) (text : String) :
    ((∃ p, R.read text = .error (.unbalanced p)) ↔ ¬ Level text.toList) ∧
    (∀ p, R.read text = .error (.unbalanced p) ↔ Fault text.toList p) ∧
    (∀ reason, R.read text ≠ .error (.malformed reason)) ∧
    (Level text.toList → R.read (String.ofList (dropBlanks text.toList)) = R.read text ∧
      ∀ other : String, Level other.toList → dropBlanks other.toList = dropBlanks text.toList →
        R.read other = R.read text) := by
  refine ⟨readUneven, fun p => readFault, readNotMalformed text, fun level => ⟨?_, ?_⟩⟩
  · refine readAlikeBlanks level ?_ ?_
    · rw [String.toList_ofList]
      exact levelDropBlanks level
    · rw [String.toList_ofList]
      exact dropBlanksAgain _
  · exact fun other level' same => readAlikeBlanks level level' same

/- Also where parentheses and commas are registered as symbols. -/
def crowded : Registry :=
  standard |>.registerSymbol (.between .additive) '(' .sum |>.registerSymbol (.between .multiplicative) ',' .product

theorem readBalanceCrowded : Level "abs ( 2,\tx ) ".toList ∧ Level "abs(2,x)".toList ∧
    dropBlanks "abs(2,x)".toList = dropBlanks "abs ( 2,\tx ) ".toList ∧
    crowded.read "abs(2,x)" = crowded.read "abs ( 2,\tx ) " :=
  have level : Level "abs ( 2,\tx ) ".toList := levelBalanced.mpr (by decide +kernel)
  have level' : Level "abs(2,x)".toList := levelBalanced.mpr (by decide +kernel)
  have same : dropBlanks "abs(2,x)".toList = dropBlanks "abs ( 2,\tx ) ".toList := by decide +kernel
  ⟨level, level', same, ((readBalance crowded "abs ( 2,\tx ) ").2.2.2 level).2 _ level' same⟩

end Registry

end Formula
