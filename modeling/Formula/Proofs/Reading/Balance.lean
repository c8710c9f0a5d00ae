import Formula.Reading.Tree

/-! Balanced text. A balanced part may be put into a text or taken out of it, the depth counted from the right is the
depth counted from the left, and blanks do not matter. -/
namespace Formula

theorem parenthesisCases (c : Char) : c = '(' ∨ c = ')' ∨ isParenthesis c = false := by
  by_cases opening : c = '('
  · exact .inl opening
  · by_cases closing : c = ')'
    · exact .inr (.inl closing)
    · exact .inr (.inr (by simp [isParenthesis, opening, closing]))

theorem plainNotOpen {c : Char} (plain : isParenthesis c = false) : c ≠ '(' := by
  rintro rfl
  contradiction

theorem plainNotClose {c : Char} (plain : isParenthesis c = false) : c ≠ ')' := by
  rintro rfl
  contradiction

theorem depthAfterPlain {c : Char} (plain : isParenthesis c = false) (depth : Nat) : depthAfter depth c = depth := by
  simp [depthAfter, plainNotOpen plain, plainNotClose plain]

theorem balancedNil {depth : Nat} : balancedFrom depth [] = true ↔ depth = 0 := by
  simp [balancedFrom]

theorem balancedCons {depth : Nat} {c : Char} {cs : List Char} : balancedFrom depth (c :: cs) = true ↔
    ¬(c = ')' ∧ depth = 0) ∧ balancedFrom (depthAfter depth c) cs = true := by
  cases depth with
  | zero =>
    by_cases close : c = ')'
    · subst close; simp [balancedFrom]
    · simp [balancedFrom, close]
  | succ depth => simp [balancedFrom]

theorem balancedOpen (depth : Nat) (cs : List Char) :
    balancedFrom depth ('(' :: cs) = balancedFrom (depth + 1) cs := by
  rw [Bool.eq_iff_iff, balancedCons]
  simp [depthAfter]

theorem balancedClose (depth : Nat) (cs : List Char) :
    balancedFrom (depth + 1) (')' :: cs) = balancedFrom depth cs := by
  rw [Bool.eq_iff_iff, balancedCons]
  simp [depthAfter]

theorem balancedPlain {c : Char} (plain : isParenthesis c = false) (depth : Nat) (cs : List Char) :
    balancedFrom depth (c :: cs) = balancedFrom depth cs := by
  rw [Bool.eq_iff_iff, balancedCons, depthAfterPlain plain]
  simp [plainNotClose plain]

theorem balancedFromAppend {opened : Nat} {left : List Char} (h : balancedFrom opened left = true) (depth : Nat)
    (right : List Char) : balancedFrom (depth + opened) (left ++ right) = balancedFrom depth right := by
  induction left generalizing opened with
  | nil =>
    obtain rfl := balancedNil.mp h
    rfl
  | cons c left ih =>
    rw [List.cons_append]
    rcases parenthesisCases c with rfl | rfl | plain
    · rw [balancedOpen] at h ⊢
      exact ih h
    · cases opened with
      | zero => simp [balancedFrom] at h
      | succ opened =>
        rw [balancedClose] at h
        rw [← Nat.add_assoc, balancedClose]
        exact ih h
    · rw [balancedPlain plain] at h ⊢
      exact ih h

theorem balancedAppend {left : List Char} (h : balanced left = true) (depth : Nat) (right : List Char) :
    balancedFrom depth (left ++ right) = balancedFrom depth right :=
  balancedFromAppend h depth right

theorem balancedDepthUnique {cs : List Char} {m n : Nat} (hm : balancedFrom m cs = true)
    (hn : balancedFrom n cs = true) : m = n := by
  induction cs generalizing m n with
  | nil => rw [balancedNil.mp hm, balancedNil.mp hn]
  | cons c cs ih =>
    obtain ⟨closeM, restM⟩ := balancedCons.mp hm
    obtain ⟨closeN, restN⟩ := balancedCons.mp hn
    have same := ih restM restN
    rcases parenthesisCases c with rfl | rfl | plain
    · simpa [depthAfter] using same
    · simp only [depthAfter, Char.reduceEq, if_true, if_false, true_and] at same closeM closeN
      omega
    · simpa only [depthAfterPlain plain] using same

theorem balancedLeft {left right : List Char} {depth : Nat} (whole : balancedFrom depth (left ++ right) = true)
    (h : balanced right = true) : balancedFrom depth left = true := by
  induction left generalizing depth with
  | nil => exact balancedNil.mpr (balancedDepthUnique whole h)
  | cons c left ih =>
    obtain ⟨close, rest⟩ := balancedCons.mp whole
    exact balancedCons.mpr ⟨close, ih rest⟩

theorem balancedRight {left right : List Char} (whole : balanced (left ++ right) = true)
    (h : balanced left = true) : balanced right = true := by
  rwa [balanced, balancedAppend h] at whole

theorem balancedSome {left right : List Char} {depth : Nat} (whole : balancedFrom depth (left ++ right) = true) :
    ∃ d, balancedFrom d right = true := by
  induction left generalizing depth with
  | nil => exact ⟨depth, whole⟩
  | cons c left ih => exact ih (balancedCons.mp whole).2

theorem balancedGroup {inner : List Char} (h : balanced inner = true) (right : List Char) :
    balanced ('(' :: inner ++ ')' :: right) = balanced right := by
  rw [balanced, List.cons_append, balancedOpen, balancedAppend h, balancedClose, ← balanced]

theorem balancedPlainAppend {c : Char} (plain : isParenthesis c = false) {left : List Char}
    (h : balanced left = true) (right : List Char) : balanced (left ++ c :: right) = balanced right := by
  rw [balanced, balancedAppend h, balancedPlain plain, ← balanced]

theorem balancedOfPlain {cs : List Char} (plain : ∀ c ∈ cs, isParenthesis c = false) : balanced cs = true := by
  induction cs with
  | nil => rfl
  | cons c cs ih =>
    rw [balanced, balancedPlain (plain c List.mem_cons_self)]
    exact ih fun d member => plain d (List.mem_cons_of_mem _ member)

theorem plainBeforeOpen {name rest : List Char} (whole : balanced (name ++ rest) = true) (opening : '(' ∉ name) :
    ∀ c ∈ name, isParenthesis c = false := by
  induction name with
  | nil => simp
  | cons c name ih =>
    obtain ⟨noOpen, further⟩ := List.ne_and_not_mem_of_not_mem_cons opening
    rcases parenthesisCases c with rfl | rfl | plain
    · contradiction
    · simp [balanced, balancedFrom] at whole
    · rw [List.cons_append, balanced, balancedPlain plain] at whole
      intro d member
      rcases List.mem_cons.mp member with rfl | inside
      · exact plain
      · exact ih whole further d inside

theorem depthFromRight {cs : List Char} {depth : Nat} (h : balancedFrom depth cs = true) :
    cs.reverse.foldl depthBefore 0 = depth := by
  induction cs generalizing depth with
  | nil => exact (balancedNil.mp h).symm
  | cons c cs ih =>
    obtain ⟨close, rest⟩ := balancedCons.mp h
    rw [List.reverse_cons, List.foldl_append, ih rest]
    rcases parenthesisCases c with rfl | rfl | plain
    · simp [depthBefore, depthAfter]
    · simp only [true_and] at close
      simp only [List.foldl_cons, List.foldl_nil, depthBefore, depthAfter, Char.reduceEq, if_true, if_false]
      omega
    · simp [depthBefore, depthAfterPlain plain, plainNotOpen plain, plainNotClose plain]

theorem openShown : isBlank '(' = false := by decide

theorem closeShown : isBlank ')' = false := by decide

theorem balancedDropBlanks (depth : Nat) (cs : List Char) :
    balancedFrom depth (dropBlanks cs) = balancedFrom depth cs := by
  unfold dropBlanks
  induction cs generalizing depth with
  | nil => rfl
  | cons c cs ih =>
    rcases parenthesisCases c with rfl | rfl | plain
    · rw [List.filter_cons_of_pos (by simp [openShown]), balancedOpen, balancedOpen, ih]
    · rw [List.filter_cons_of_pos (by simp [closeShown])]
      cases depth with
      | zero => rfl
      | succ depth => rw [balancedClose, balancedClose, ih]
    · rw [balancedPlain plain]
      by_cases blank : isBlank c = true
      · rw [List.filter_cons_of_neg (by simp [blank]), ih]
      · rw [List.filter_cons_of_pos (by simp [blank]), balancedPlain plain, ih]

end Formula
