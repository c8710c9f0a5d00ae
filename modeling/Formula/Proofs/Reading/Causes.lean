import Formula.Proofs.Reading.Form
import Formula.Proofs.Reading.Parts

/-! Where and why a text is no formula. Every part that reading descends into begins where an operand may begin and
ends where one may end, so what is wrong with the part at a place is wrong with the text at that place. -/
namespace Formula
variable {R : Registry}

def StartsOperand (R : Registry) (front : List Char) : Prop :=
  ∀ w c, front = w ++ [c] → c = '(' ∨ c = ',' ∨ R.isSymbol c = true

/- The innermost parenthesis that this text leaves open, if there is one, is no parenthesis of a call. -/
def InGroup (R : Registry) (front : List Char) : Prop :=
  ∀ former later, front = former ++ '(' :: later → balanced later = true → StartsOperand R former

inductive Cause (R : Registry) (text : List Char) : SyntaxError → Prop where
  | dangling {front back : List Char} {c : Char} (place : text = front ++ c :: back) (symbol : R.isSymbol c = true)
      (ends : back = [] ∨ ∃ w, back = ')' :: w ∨ back = ',' :: w) : Cause R text (.missingOperand c front.length)
  | sign {front back : List Char} {c : Char} (place : text = front ++ c :: back) (symbol : R.isSymbol c = true)
      (leading : R.isFunction c.toString = false) (starts : StartsOperand R front) :
      Cause R text (.missingOperand c front.length)
  | function {front name back : List Char} (place : text = front ++ (name ++ '(' :: back)) (nonempty : name ≠ [])
      (letters : ∀ c ∈ name, isParenthesis c = false ∧ R.isSymbol c = false)
      (unknown : R.isFunction (String.ofList name) = false) (starts : StartsOperand R front) :
      Cause R text (.unknownFunction (String.ofList name) front.length)
  | trailing {front back : List Char} {c : Char} (place : text = front ++ ')' :: c :: back) (closing : c ≠ ')')
      (symbol : R.isSymbol c = false) : Cause R text (.trailing (front.length + 1))
  | comma {front back : List Char} (place : text = front ++ ',' :: back) (group : InGroup R front) :
      Cause R text (.unexpected ',' front.length)

def SyntaxError.position? : SyntaxError → Option Nat
  | .unbalanced position => some position
  | .unknownFunction _ position => some position
  | .missingOperand _ position => some position
  | .trailing position => some position
  | .unexpected _ position => some position
  | .malformed _ => none

theorem Cause.inside {text : List Char} {err : SyntaxError} (cause : Cause R text err) :
    ∃ p, err.position? = some p ∧ p < text.length := by
  cases cause with
  | dangling place | sign place | function place | trailing place | comma place =>
    refine ⟨_, rfl, ?_⟩
    simp only [place, List.length_append, List.length_cons]
    omega

theorem startsSnoc {w : List Char} {c : Char} (h : c = '(' ∨ c = ',' ∨ R.isSymbol c = true) :
    StartsOperand R (w ++ [c]) := by
  intro w' c' same
  obtain ⟨-, last⟩ := List.append_inj' same rfl
  cases last
  exact h

theorem openUnbalanced {w later : List Char} (whole : balanced (w ++ '(' :: later) = true) :
    balanced later = false := by
  rw [Bool.eq_false_iff]
  intro level
  obtain ⟨depth, tail⟩ := balancedSome whole
  rw [balancedOpen] at tail
  exact absurd (balancedDepthUnique tail level) (by omega)

theorem inGroupAppend {front w : List Char} (group : InGroup R front) (level : balanced w = true) :
    InGroup R (front ++ w) := by
  intro former later split closed
  rcases List.append_eq_append_iff.mp split with ⟨v, rfl, inside⟩ | ⟨v, rfl, across⟩
  · rw [inside] at level
    rw [openUnbalanced level] at closed
    contradiction
  · cases v with
    | nil =>
      have inside : w = [] ++ '(' :: later := by simpa using across.symm
      rw [inside] at level
      rw [openUnbalanced level] at closed
      contradiction
    | cons c v =>
      simp only [List.cons_append, List.cons.injEq] at across
      obtain ⟨rfl, rfl⟩ := across
      exact group former v rfl (balancedLeft closed level)

theorem inGroupOpen {front : List Char} (starts : StartsOperand R front) : InGroup R (front ++ ['(']) := by
  intro former later split closed
  rcases List.eq_nil_or_concat later with rfl | ⟨w, d, rfl⟩
  · obtain ⟨rfl, -⟩ := List.append_inj' split rfl
    exact starts
  · have ends : front ++ ['('] = (former ++ '(' :: w) ++ [d] := by simp [split]
    obtain ⟨-, same⟩ := List.append_inj' ends rfl
    cases same
    have whole : balanced (w ++ '(' :: []) = true := by simpa using closed
    exact absurd (openUnbalanced whole) (by decide)

structure Slice (R : Registry) (text front cs back : List Char) : Prop where
  split : text = front ++ cs ++ back
  level : balanced cs = true
  starts : StartsOperand R front
  ends : ∀ c w, back = c :: w → c = ')' ∨ c = ',' ∨ (R.isSymbol c = true ∧ ¬ EndsInSymbol R cs)
  commas : Unbroken 0 cs ∨ InGroup R front

namespace Slice
variable {text front cs back left right : List Char} {c : Char}

theorem all {text : List Char} (level : balanced text = true) : Slice R text [] text [] where
  split := by simp
  level := level
  starts := by simp [StartsOperand]
  ends := by simp
  commas := .inr (by simp [InGroup])

theorem place (slice : Slice R text front cs back) (place : Outside cs left c right) :
    text = (front ++ left) ++ c :: (right ++ back) := by
  simp [slice.split, place.text]

theorem inLeft (slice : Slice R text front cs back) (place : Outside cs left c right) (symbol : R.isSymbol c = true)
    (cuts : ¬ EndsInSymbol R left) : Slice R text front left (c :: right ++ back) where
  split := by simp [slice.split, place.text]
  level := place.before
  starts := slice.starts
  ends d w same := by
    cases same
    exact .inr (.inr ⟨symbol, cuts⟩)
  commas := by
    refine slice.commas.imp_left fun free => ?_
    rw [unbrokenOutside slice.level] at free
    rw [unbrokenOutside place.before]
    exact fun x y inner => free x _ (place.inLeft inner)

theorem inRight (slice : Slice R text front cs back) (place : Outside cs left c right) (symbol : R.isSymbol c = true)
    (filled : right ≠ []) : Slice R text (front ++ (left ++ [c])) right back where
  split := by simp [slice.split, place.text]
  level := place.after
  starts := by
    rw [← List.append_assoc]
    exact startsSnoc (.inr (.inr symbol))
  ends d w same := by
    have last : EndsInSymbol R cs ↔ EndsInSymbol R right := by
      have text : cs = (left ++ [c]) ++ right := by simp [place.text]
      rw [text, endsInSymbolAppend filled]
    rw [← last]
    exact slice.ends d w same
  commas := by
    refine slice.commas.imp (fun free => ?_) fun group => inGroupAppend group ?_
    · rw [unbrokenOutside slice.level] at free
      rw [unbrokenOutside place.after]
      exact fun x y inner => free _ y (place.inRight inner)
    · rw [balancedPlainAppend place.plain place.before]
      rfl

theorem inBrackets {inner : List Char} (slice : Slice R text front cs back) (parts : Bracketed cs [] inner []) :
    Slice R text (front ++ ['(']) inner (')' :: back) where
  split := by simp [slice.split, parts.text]
  level := parts.enclosed
  starts := startsSnoc (.inl rfl)
  ends d w same := by
    cases same
    exact .inl rfl
  commas := .inr (inGroupOpen slice.starts)

theorem inArguments {name inner : List Char} {former others : List (List Char)} {piece : List Char}
    (slice : Slice R text front cs back) (parts : Bracketed cs name inner [])
    (member : splitArguments inner = former ++ piece :: others) :
    ∃ before behind, Slice R text before piece behind ∧
      before.length = front.length + (name.length + 1 + commaEnded former) := by
  obtain ⟨w, v, joined, length, first, last⟩ := joinCommasAt former piece others
  rw [← member, splitArgumentsText] at joined
  obtain ⟨level, free⟩ := splitArgumentsPieces parts.enclosed piece (by simp [member])
  refine ⟨front ++ name ++ ['('] ++ w, v ++ ')' :: back, ⟨?_, level, ?_, ?_, .inl free⟩, ?_⟩
  · simp [slice.split, parts.text, joined]
  · rcases first with rfl | ⟨w, rfl⟩
    · rw [List.append_nil]
      exact startsSnoc (.inl rfl)
    · rw [← List.append_assoc]
      exact startsSnoc (.inr (.inl rfl))
  · intro d u same
    rcases last with rfl | ⟨v, rfl⟩
    · cases same
      exact .inl rfl
    · cases same
      exact .inr (.inl rfl)
  · simp [length]
    omega

theorem argumentShorter {name inner rest : List Char} {former others : List (List Char)} {piece : List Char}
    (parts : Bracketed cs name inner rest) (member : splitArguments inner = former ++ piece :: others) :
    piece.length < cs.length := by
  obtain ⟨w, v, joined, -, -, -⟩ := joinCommasAt former piece others
  rw [← member, splitArgumentsText] at joined
  simp only [parts.text, joined, List.length_append, List.length_cons]
  omega

theorem symbolCause {p : Precedence} {err : SyntaxError} (slice : Slice R text front cs back)
    (decides : Decides R p cs left c right) (h : decided R left c right = .error err) :
    Cause R text (err.shift front.length) := by
  have symbol := Registry.symbolOfTier decides.tier
  unfold decided at h
  split at h
  · rename_i last
    subst last
    cases h
    have cause : Cause R text (.missingOperand c (front ++ left).length) := by
      refine .dangling (slice.place decides.place) symbol ?_
      cases back with
      | nil => exact .inl rfl
      | cons d w =>
        rcases slice.ends d w rfl with rfl | rfl | ⟨-, cuts⟩
        · exact .inr ⟨w, .inl rfl⟩
        · exact .inr ⟨w, .inr rfl⟩
        · rw [decides.place.text, endsInSymbolSnoc] at cuts
          contradiction
    simpa [SyntaxError.shift] using cause
  · split at h
    · rename_i first
      subst first
      split at h
      · contradiction
      · rename_i leading
        cases h
        have place := slice.place decides.place
        rw [List.append_nil] at place
        exact .sign place symbol (by simpa using leading) slice.starts
    · contradiction

theorem wordCause {err : SyntaxError} (slice : Slice R text front cs back) (plain : ∀ c ∈ cs, isParenthesis c = false)
    (h : wordShape cs = .error err) : Cause R text (err.shift front.length) := by
  unfold wordShape at h
  split at h
  · rename_i p found
    cases h
    obtain ⟨bound, comma, -⟩ := List.idxOf?_eq_some_iff.mp found
    have parts : cs = cs.take p ++ ',' :: cs.drop (p + 1) := by
      rw [← comma, List.getElem_cons_drop, List.take_append_drop]
    have place := outsidePlain plain parts
    have group : InGroup R front := by
      refine slice.commas.resolve_left fun free => ?_
      exact (unbrokenOutside slice.level).mp free _ _ place
    have cause := Cause.comma (slice.place place) (inGroupAppend group place.before)
    rw [List.length_append, List.length_take_of_le (by omega)] at cause
    exact cause
  · contradiction

theorem bracketCause {name inner rest : List Char} {err : SyntaxError} (delimited : R.Delimited)
    (mute : ∀ x c y, Outside cs x c y → R.isSymbol c = false) (slice : Slice R text front cs back)
    (parts : Bracketed cs name inner rest) (h : bracketed R name inner rest = .error err) :
    Cause R text (err.shift front.length) := by
  unfold bracketed at h
  split at h
  · rename_i unknown
    cases h
    have place : text = front ++ (name ++ '(' :: (inner ++ ')' :: rest ++ back)) := by
      simp [slice.split, parts.text]
    refine .function place unknown.1 (fun c member => ?_) unknown.2 slice.starts
    obtain ⟨x, y, outside⟩ := parts.outside slice.level member
    exact ⟨parts.plain c member, mute x c y outside⟩
  · split at h
    · contradiction
    · rename_i more
      cases h
      obtain ⟨c, w, rfl⟩ := List.exists_cons_of_ne_nil more
      have shown : text = (front ++ (name ++ '(' :: inner)) ++ ')' :: c :: (w ++ back) := by
        simp [slice.split, parts.text]
      have cause : Cause R text (.trailing ((front ++ (name ++ '(' :: inner)).length + 1)) := by
        rcases parenthesisCases c with rfl | rfl | plain
        · exact .trailing shown (by decide) delimited.opening
        · exact absurd parts.after (by simp [balanced, balancedFrom])
        · refine .trailing shown (plainNotClose plain) (mute (name ++ '(' :: inner ++ [')']) c w ⟨?_, ?_, ?_, plain⟩)
          · simp [parts.text]
          · rw [balanced, List.append_assoc, balancedAppend (balancedOfPlain parts.plain)]
            exact balancedGroup parts.enclosed []
          · have after := parts.after
            rwa [balanced, balancedPlain plain] at after
      simpa [SyntaxError.shift, Nat.add_assoc] using cause

def PartsCaused (R : Registry) (text cs : List Char) : Prop := ∀ before mid behind err,
  Slice R text before mid behind → mid.length < cs.length → readSlice R mid = .error err →
    Cause R text (err.shift before.length)

theorem symbolPartCause {p : Precedence} {err : SyntaxError} {s : Shape} (parts : PartsCaused R text cs)
    (slice : Slice R text front cs back) (decides : Decides R p cs left c right)
    (found : decided R left c right = .ok s) (tree : s.tree R = .error err) : Cause R text (err.shift front.length) := by
  have symbol := Registry.symbolOfTier decides.tier
  have length := congrArg List.length decides.place.text
  simp only [List.length_append, List.length_cons] at length
  unfold decided at found
  split at found
  · contradiction
  · rename_i filled
    have operand := slice.inRight decides.place symbol filled
    split at found
    · rename_i first
      subst first
      split at found
      · cases found
        obtain ⟨cause, read, rfl⟩ := unaryError.mp tree
        have inner := parts _ _ _ cause operand (by omega) read
        rw [SyntaxError.shiftShift]
        simpa using inner
      · contradiction
    · cases found
      rcases binaryError.mp tree with read | ⟨x, -, cause, read, rfl⟩
      · exact parts _ _ _ err (slice.inLeft decides.place symbol (decides.cuts.resolve_left filled)) (by omega) read
      · have inner := parts _ _ _ cause operand (by omega) read
        rw [SyntaxError.shiftShift]
        simpa using inner

theorem bracketPartCause {name inner rest : List Char} {err : SyntaxError} {s : Shape} (parts : PartsCaused R text cs)
    (slice : Slice R text front cs back) (brackets : Bracketed cs name inner rest)
    (found : bracketed R name inner rest = .ok s) (tree : s.tree R = .error err) :
    Cause R text (err.shift front.length) := by
  unfold bracketed at found
  split at found
  · contradiction
  · split at found
    · rename_i last
      subst last
      have length := congrArg List.length brackets.text
      simp only [List.length_append, List.length_cons] at length
      cases found
      split at tree
      · rename_i nameless
        subst nameless
        obtain ⟨cause, read, rfl⟩ := groupError.mp tree
        have inside := parts _ _ _ cause (slice.inBrackets brackets) (by omega) read
        rw [SyntaxError.shiftShift]
        simpa using inside
      · obtain ⟨failure, listed, rfl⟩ := callError.mp tree
        obtain ⟨former, piece, others, cause, member, read, rfl⟩ := argumentsError listed
        obtain ⟨before, behind, part, place⟩ := slice.inArguments brackets member
        have inside := parts _ _ _ cause part (argumentShorter brackets member) read
        rw [SyntaxError.shiftShift, SyntaxError.shiftShift, Nat.add_assoc, ← place]
        exact inside
    · contradiction

theorem cause {err : SyntaxError} (delimited : R.Delimited) (slice : Slice R text front cs back)
    (read : readSlice R cs = .error err) : Cause R text (err.shift front.length) := by
  induction size : cs.length using Nat.strongRecOn generalizing front cs back err with
  | ind n ih =>
    have parts : PartsCaused R text cs := fun before mid behind err part shorter found =>
      ih mid.length (by omega) part found rfl
    rw [readSliceShape] at read
    have form := shapeForm (R := R) slice.level
    generalize shape R cs = outcome at form read
    rcases bindError.mp read with rfl | ⟨s, rfl, tree⟩
    · generalize failed : Except.error err = outcome at form
      cases form with
      | blank => contradiction
      | symbol decides => exact slice.symbolCause decides failed.symm
      | word _ _ _ plain => exact slice.wordCause plain failed.symm
      | bracket additive multiplicative brackets =>
        have mute := fun x c y => delimited.noSymbol (x := x) (c := c) (y := y) additive multiplicative
        exact slice.bracketCause delimited mute brackets failed.symm
    · generalize found : Except.ok s = outcome at form
      cases form with
      | blank =>
        cases found
        contradiction
      | symbol decides => exact symbolPartCause parts slice decides found.symm tree
      | word _ _ _ plain =>
        unfold wordShape at found
        split at found
        · contradiction
        · cases found
          contradiction
      | bracket _ _ brackets => exact bracketPartCause parts slice brackets found.symm tree

end Slice

theorem readCause (delimited : R.Delimited) (text : String) (err : SyntaxError) (failed : R.read text = .error err)
    (level : ∀ p, err ≠ .unbalanced p) : Cause R (dropBlanks text.toList) err ∧
      ∃ p, err.position? = some p ∧ p < (dropBlanks text.toList).length := by
  unfold Registry.read at failed
  split at failed
  · rename_i p _
    cases failed
    exact absurd rfl (level p)
  · rename_i none
    have whole : balanced (dropBlanks text.toList) = true :=
      (balancedDropBlanks 0 _).trans ((imbalanceBalanced _).mp none)
    have cause := (Slice.all whole).cause delimited failed
    rw [List.length_nil, SyntaxError.shiftZero] at cause
    exact ⟨cause, cause.inside⟩

theorem readCauseStandard : Registry.standard.Delimited ∧
    Registry.standard.read "2 * ( 3 + , 4 )" = .error (.unexpected ',' 5) ∧
    Cause Registry.standard (dropBlanks "2 * ( 3 + , 4 )".toList) (.unexpected ',' 5) :=
  have failed : Registry.standard.read "2 * ( 3 + , 4 )" = .error (.unexpected ',' 5) := by decide +kernel
  ⟨Registry.standardDelimited, failed,
    (readCause Registry.standardDelimited "2 * ( 3 + , 4 )" _ failed (by simp)).1⟩

end Formula
