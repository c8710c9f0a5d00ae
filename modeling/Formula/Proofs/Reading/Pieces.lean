import Formula.Proofs.Reading.Outside

/-! The end of a group and the pieces between commas, for balanced text. The end is found and what it encloses is
balanced. Each piece is balanced, has no comma outside, and text made of such pieces is cut into them again. -/
namespace Formula

theorem splitCloseBalanced {depth : Nat} {cs inner rest : List Char} (h : splitClose? depth cs = some (inner, rest)) :
    balancedFrom depth inner = true := by
  induction cs generalizing depth inner with
  | nil => simp [splitClose?] at h
  | cons c cs ih =>
    rw [splitClose?] at h
    split at h
    · rename_i close
      cases h
      exact balancedNil.mpr close.2
    · rename_i close
      simp only [Option.map_eq_some_iff, Prod.mk.injEq] at h
      obtain ⟨⟨inner', rest'⟩, found, rfl, rfl⟩ := h
      exact balancedCons.mpr ⟨close, ih found⟩

theorem splitCloseAt {depth : Nat} {inner : List Char} (h : balancedFrom depth inner = true) (rest : List Char) :
    splitClose? depth (inner ++ ')' :: rest) = some (inner, rest) := by
  induction inner generalizing depth with
  | nil => simp [splitClose?, balancedNil.mp h]
  | cons c inner ih =>
    obtain ⟨close, tail⟩ := balancedCons.mp h
    rw [List.cons_append, splitClose?, if_neg close, ih tail]
    rfl

theorem splitCloseSome {depth opened : Nat} {cs : List Char} (inside : depth < opened)
    (h : balancedFrom opened cs = true) : ∃ inner rest, splitClose? depth cs = some (inner, rest) := by
  induction cs generalizing depth opened with
  | nil =>
    have none := balancedNil.mp h
    omega
  | cons c cs ih =>
    by_cases close : c = ')' ∧ depth = 0
    · exact ⟨[], cs, by rw [splitClose?, if_pos close]⟩
    · have deeper : depthAfter depth c < depthAfter opened c := by
        simp only [depthAfter]
        split
        · omega
        · split
          · rename_i closing
            have closed : depth ≠ 0 := fun zero => close ⟨closing, zero⟩
            omega
          · exact inside
      obtain ⟨inner, rest, found⟩ := ih deeper (balancedCons.mp h).2
      exact ⟨c :: inner, rest, by rw [splitClose?, if_neg close, found]; rfl⟩

def Unbroken (depth : Nat) (cs : List Char) : Prop :=
  ∀ x y, cs = x ++ ',' :: y → balancedFrom depth x = false

theorem commaPlain : isParenthesis ',' = false := by decide

theorem unbrokenOutside {cs : List Char} (whole : balanced cs = true) :
    Unbroken 0 cs ↔ ∀ x y, ¬ Outside cs x ',' y := by
  constructor
  · intro free x y place
    have level := free x y place.text
    rw [← balanced, place.before] at level
    contradiction
  · rintro free x y rfl
    rw [Bool.eq_false_iff]
    intro level
    exact free x y (.ofBalanced whole level commaPlain)

theorem unbrokenCons {depth : Nat} {c : Char} {cs : List Char}
    (comma : ¬(c = ',' ∧ depth = 0)) (tail : Unbroken (depthAfter depth c) cs) : Unbroken depth (c :: cs) := by
  rintro x y text
  rw [Bool.eq_false_iff]
  intro level
  cases x with
  | nil =>
    simp only [List.nil_append, List.cons.injEq] at text
    exact comma ⟨text.1, balancedNil.mp level⟩
  | cons d x =>
    simp only [List.cons_append, List.cons.injEq] at text
    obtain ⟨rfl, rfl⟩ := text
    have rest := tail x y rfl
    rw [(balancedCons.mp level).2] at rest
    contradiction

theorem unbrokenTail {depth : Nat} {c : Char} {cs : List Char} (close : ¬(c = ')' ∧ depth = 0))
    (h : Unbroken depth (c :: cs)) : Unbroken (depthAfter depth c) cs := by
  rintro x y rfl
  rw [Bool.eq_false_iff]
  intro level
  have whole := h (c :: x) y rfl
  rw [balancedCons.mpr ⟨close, level⟩] at whole
  contradiction

theorem unbrokenComma {depth : Nat} {c : Char} {cs : List Char} (h : Unbroken depth (c :: cs)) :
    ¬(c = ',' ∧ depth = 0) := by
  rintro ⟨rfl, rfl⟩
  have level := h [] cs rfl
  contradiction

theorem splitCommasPieces {depth : Nat} {cs : List Char} (h : balancedFrom depth cs = true) :
    (balancedFrom depth (splitCommas depth cs).1 = true ∧ Unbroken depth (splitCommas depth cs).1) ∧
    ∀ piece ∈ (splitCommas depth cs).2, balanced piece = true ∧ Unbroken 0 piece := by
  induction cs generalizing depth with
  | nil =>
    refine ⟨⟨h, ?_⟩, by simp [splitCommas]⟩
    intro x y text
    simp [splitCommas] at text
  | cons c cs ih =>
    obtain ⟨close, tail⟩ := balancedCons.mp h
    obtain ⟨⟨level, free⟩, others⟩ := ih tail
    rw [splitCommas]
    by_cases comma : c = ',' ∧ depth = 0
    · obtain ⟨rfl, rfl⟩ := comma
      refine ⟨⟨rfl, ?_⟩, ?_⟩
      · intro x y text
        simp at text
      · intro piece member
        rcases List.mem_cons.mp member with rfl | inside
        · exact ⟨level, free⟩
        · exact others piece inside
    · simp only [comma, if_false]
      exact ⟨⟨balancedCons.mpr ⟨close, level⟩, unbrokenCons comma free⟩, others⟩

theorem splitArgumentsPieces {inner : List Char} (h : balanced inner = true) :
    ∀ piece ∈ splitArguments inner, balanced piece = true ∧ Unbroken 0 piece := by
  intro piece member
  unfold splitArguments at member
  split at member
  · simp at member
  · obtain ⟨first, others⟩ := splitCommasPieces h
    rcases List.mem_cons.mp member with rfl | inside
    · exact first
    · exact others piece inside

theorem splitCommasAppend {depth : Nat} {left : List Char} (h : balancedFrom depth left = true)
    (free : Unbroken depth left) (right : List Char) :
    splitCommas depth (left ++ right) = (left ++ (splitCommas 0 right).1, (splitCommas 0 right).2) := by
  induction left generalizing depth with
  | nil =>
    obtain rfl := balancedNil.mp h
    rfl
  | cons c left ih =>
    obtain ⟨close, tail⟩ := balancedCons.mp h
    rw [List.cons_append, splitCommas, ih tail (unbrokenTail close free)]
    simp only [unbrokenComma free, if_false, List.cons_append]

theorem splitCommasWhole {piece : List Char} (h : balanced piece = true) (free : Unbroken 0 piece) :
    splitCommas 0 piece = (piece, []) := by
  simpa [splitCommas] using splitCommasAppend h free []

theorem splitCommasFirst {piece : List Char} (h : balanced piece = true) (free : Unbroken 0 piece)
    (rest : List Char) :
    splitCommas 0 (piece ++ ',' :: rest) = (piece, (splitCommas 0 rest).1 :: (splitCommas 0 rest).2) := by
  rw [splitCommasAppend h free, splitCommas]
  simp [depthAfter]

theorem joinCommasSingle (piece : List Char) : joinCommas [piece] = piece := by
  simp [joinCommas]

theorem joinCommasCons (piece next : List Char) (pieces : List (List Char)) :
    joinCommas (piece :: next :: pieces) = piece ++ ',' :: joinCommas (next :: pieces) := by
  simp [joinCommas, List.intercalate]

theorem joinCommasAt (former : List (List Char)) (piece : List Char) (others : List (List Char)) :
    ∃ front back, joinCommas (former ++ piece :: others) = front ++ piece ++ back ∧
      front.length = commaEnded former ∧ (front = [] ∨ ∃ w, front = w ++ [',']) ∧
      (back = [] ∨ ∃ w, back = ',' :: w) := by
  induction former with
  | nil =>
    cases others with
    | nil => exact ⟨[], [], by simp [joinCommasSingle], rfl, .inl rfl, .inl rfl⟩
    | cons next others =>
      exact ⟨[], ',' :: joinCommas (next :: others), by simp [joinCommasCons], rfl, .inl rfl, .inr ⟨_, rfl⟩⟩
  | cons first former ih =>
    obtain ⟨front, back, text, length, before, after⟩ := ih
    obtain ⟨next, pieces, shown⟩ : ∃ next pieces, former ++ piece :: others = next :: pieces := by
      cases former <;> simp
    refine ⟨first ++ ',' :: front, back, ?_, ?_, ?_, after⟩
    · rw [List.cons_append, shown, joinCommasCons, ← shown, text]
      simp
    · simp only [List.length_append, List.length_cons, length, commaEnded]
      omega
    · rcases before with rfl | ⟨w, rfl⟩
      · exact .inr ⟨first, rfl⟩
      · exact .inr ⟨first ++ ',' :: w, by simp⟩

end Formula
