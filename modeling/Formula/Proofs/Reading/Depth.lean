import Formula.Proofs.Reading.Level

/-! Depth at every place of a balanced text. The scan from the left and the scan from the right both count the
parentheses that are open there, and neither takes one from a count of none. The parenthesis that closes another is the
only one with balanced text between the two, and a place at depth zero has balanced text on either side. -/
namespace Formula

def nesting (cs : List Char) (i : Nat) : Int := (cs.take i).count '(' - (cs.take i).count ')'

def depthBehind (cs : List Char) : Nat := cs.reverse.foldl depthBefore 0

structure Closes (cs : List Char) (i j : Nat) : Prop where
  order : i < j
  closing : cs[j]? = some ')'
  inner : Level (cs.extract (i + 1) j)

structure DepthsAgree (cs : List Char) : Prop where
  fromLeft : ∀ i, depthOf 0 (cs.take i) = nesting cs i
  fromRight : ∀ i, depthBehind (cs.drop i) = nesting cs i
  closeFromOpen : ∀ i, cs[i]? = some ')' → 0 < depthOf 0 (cs.take i)
  openFromClose : ∀ i, cs[i]? = some '(' → 0 < depthBehind (cs.drop (i + 1))
  inspected : ∀ i c, cs[i]? = some c → isParenthesis c = false →
    (depthBehind (cs.drop (i + 1)) = 0 ↔ nesting cs i = 0) ∧
    ((∃ cut ∈ topCuts cs, cut.position = i) ↔ nesting cs i = 0)
  sides : ∀ i c, cs[i]? = some c → isParenthesis c = false → nesting cs i = 0 →
    Level (cs.take i) ∧ Level (cs.drop (i + 1))
  /- The search for the end of a group counts from the parenthesis that opens the group. -/
  closes : ∀ i, cs[i]? = some '(' → ∃ j, Closes cs i j ∧ (∀ k, Closes cs i k → k = j) ∧
    splitClose? 0 (cs.drop (i + 1)) = some (cs.extract (i + 1) j, cs.drop (j + 1)) ∧
    ∀ k, i < k → k ≤ j → 0 < depthOf 0 (cs.extract i k)

section
variable {cs left right : List Char} {c : Char} {i : Nat}

theorem balancedBehind {depth : Nat} (whole : balancedFrom depth (left ++ right) = true) :
    balancedFrom (depthOf depth left) right = true := by
  induction left generalizing depth with
  | nil => exact whole
  | cons c left ih => exact ih (balancedCons.mp whole).2

theorem depthsMeet (whole : balanced (left ++ right) = true) : depthBehind right = depthOf 0 left :=
  depthFromRight (balancedBehind whole)

theorem depthCounted (whole : balanced (left ++ right) = true) :
    depthOf 0 left + left.count ')' = left.count '(' := by
  have even := (levelBalanced.mpr whole).even
  have rest := (levelFromBalanced.mpr (balancedBehind whole)).even
  rw [List.count_append, List.count_append] at even
  omega

theorem depthNesting (whole : balanced cs = true) (i : Nat) : depthOf 0 (cs.take i) = nesting cs i := by
  rw [← List.take_append_drop i cs] at whole
  have counted := depthCounted whole
  rw [nesting]
  omega

theorem closeFromOpen (whole : balanced (left ++ ')' :: right) = true) : 0 < depthOf 0 left := by
  have inside := (balancedCons.mp (balancedBehind whole)).1
  simp only [true_and] at inside
  exact Nat.pos_of_ne_zero inside

theorem openFromClose (whole : balanced (left ++ '(' :: right) = true) : 0 < depthBehind right := by
  have rest := balancedBehind whole
  rw [balancedOpen] at rest
  rw [depthBehind, depthFromRight rest]
  exact Nat.succ_pos _

theorem depthBehindPlain (plain : isParenthesis c = false) (right : List Char) :
    depthBehind (c :: right) = depthBehind right := by
  simp [depthBehind, depthBefore, plainNotOpen plain, plainNotClose plain]

theorem depthAround (whole : balanced (left ++ c :: right) = true) (plain : isParenthesis c = false) :
    depthBehind right = depthOf 0 left := by
  rw [← depthBehindPlain plain, depthsMeet whole]

theorem levelSides (whole : balanced (left ++ c :: right) = true) (plain : isParenthesis c = false)
    (top : depthOf 0 left = 0) : Level left ∧ Level right := by
  have rest := balancedBehind whole
  rw [top] at rest
  have after : balanced right = true := by rwa [balancedPlain plain] at rest
  exact ⟨levelBalanced.mpr (balancedLeft whole rest), levelBalanced.mpr after⟩

theorem cutsFromPosition {depth : Nat} {before after : List Char} {cut : Cut}
    (member : cut ∈ cutsFrom depth before after) : cut.position < before.length := by
  obtain ⟨nearer, order, -⟩ := cutsFromPlace member
  simp only [order, Cut.position, List.length_append, List.length_cons]
  omega

theorem cutInspected (left right : List Char) (c : Char) :
    (∃ cut ∈ topCuts (left ++ c :: right), cut.position = left.length) ↔
      isParenthesis c = false ∧ depthBehind right = 0 := by
  have order : (left ++ c :: right).reverse = right.reverse ++ c :: left.reverse := by simp
  rw [topCuts, order, cutsFromAppend, ← depthBehind, cutsFrom]
  constructor
  · intro inspected
    obtain ⟨cut, member, place⟩ := inspected
    rcases List.mem_append.mp member with later | here
    · obtain ⟨inner, -, rfl⟩ := List.mem_map.mp later
      simp only [Cut.position, Cut.behind, List.length_append, List.length_cons, List.length_reverse] at place
      omega
    · split at here
      · have former := cutsFromPosition here
        rw [List.length_reverse] at former
        omega
      · rename_i stops
        simpa using stops
  · intro stops
    obtain ⟨plain, counted⟩ := stops
    refine ⟨⟨left.reverse, c, right⟩, ?_, by simp [Cut.position]⟩
    simp [plain, counted]

theorem closeFound (whole : balanced (left ++ '(' :: right) = true) :
    ∃ inner rest, splitClose? 0 right = some (inner, rest) ∧ balanced inner = true ∧ right = inner ++ ')' :: rest := by
  have behind := balancedBehind whole
  rw [balancedOpen] at behind
  obtain ⟨inner, rest, found⟩ := splitCloseSome (Nat.succ_pos _) behind
  exact ⟨inner, rest, found, splitCloseBalanced found, (splitCloseText found).symm⟩

theorem depthInside {inner later : List Char} (whole : balanced (inner ++ later) = true) :
    0 < depthOf 0 ('(' :: inner) := by
  have group : balanced (('(' :: inner) ++ (later ++ [')'])) = true := by
    simpa [balanced, balancedFrom] using balancedGroup whole []
  have counted := depthCounted group
  have front := (levelBalanced.mpr whole).fronts inner.length
  rw [List.take_left] at front
  simp only [List.count_cons_self, List.count_cons_of_ne (by decide : '(' ≠ ')')] at counted
  omega

theorem placeSplit (found : cs[i]? = some c) : cs.take i ++ c :: cs.drop (i + 1) = cs ∧ (cs.take i).length = i := by
  obtain ⟨inside, here⟩ := List.getElem?_eq_some_iff.mp found
  rw [← here, List.getElem_cons_drop, List.take_append_drop, List.length_take_of_le inside.le]
  exact ⟨rfl, rfl⟩

theorem Closes.behind {j : Nat} (closes : Closes cs i j) :
    cs.drop (i + 1) = cs.extract (i + 1) j ++ ')' :: cs.drop (j + 1) := by
  obtain ⟨text, length⟩ := placeSplit closes.closing
  have order := closes.order
  have front : (cs.take j).drop (i + 1) = cs.extract (i + 1) j := List.drop_take
  rw [← front, ← List.drop_append_of_le_length (by omega), text]

theorem closesFound {inner rest : List Char} (level : balanced inner = true)
    (behind : cs.drop (i + 1) = inner ++ ')' :: rest) : Closes cs i (i + 1 + inner.length) ∧
      cs.extract (i + 1) (i + 1 + inner.length) = inner ∧ cs.drop (i + 1 + inner.length + 1) = rest := by
  have inside : cs.extract (i + 1) (i + 1 + inner.length) = inner := by
    simp [behind]
  refine ⟨⟨by omega, ?_, ?_⟩, inside, ?_⟩
  · rw [← List.getElem?_drop, behind]
    simp
  · rw [inside]
    exact levelBalanced.mpr level
  · rw [Nat.add_assoc, ← List.drop_drop, behind]
    simp

theorem closesExists (whole : balanced cs = true) (opening : cs[i]? = some '(') :
    ∃ j, Closes cs i j ∧ (∀ k, Closes cs i k → k = j) ∧
      splitClose? 0 (cs.drop (i + 1)) = some (cs.extract (i + 1) j, cs.drop (j + 1)) ∧
      ∀ k, i < k → k ≤ j → 0 < depthOf 0 (cs.extract i k) := by
  obtain ⟨text, length⟩ := placeSplit opening
  rw [← text] at whole
  obtain ⟨inner, rest, found, enclosed, behind⟩ := closeFound whole
  obtain ⟨closes, between, after⟩ := closesFound enclosed behind
  refine ⟨i + 1 + inner.length, closes, ?_, by rw [found, between, after], ?_⟩
  · intro k other
    have again := splitCloseAt (levelBalanced.mp other.inner) (cs.drop (k + 1))
    rw [← other.behind, found] at again
    have lengths := congrArg List.length (Prod.mk.inj (Option.some.inj again)).1
    obtain ⟨inside, -⟩ := List.getElem?_eq_some_iff.mp other.closing
    have order := other.order
    simp only [List.length_take, List.length_drop] at lengths
    omega
  · intro k later before
    have here : cs.drop i = '(' :: (inner ++ ')' :: rest) := by
      obtain ⟨inside, character⟩ := List.getElem?_eq_some_iff.mp opening
      rw [← behind, ← List.getElem_cons_drop inside, character]
    obtain ⟨n, rfl⟩ : ∃ n, k = i + (n + 1) := ⟨k - i - 1, by omega⟩
    have group : cs.extract i (i + (n + 1)) = '(' :: inner.take n := by
      rw [List.extract, Nat.add_sub_cancel_left, here, List.take_succ_cons, List.take_append_of_le_length (by omega)]
    have whole : balanced (inner.take n ++ inner.drop n) = true := by rwa [List.take_append_drop]
    rw [group]
    exact depthInside whole

theorem depthsAgree (level : Level cs) : DepthsAgree cs where
  fromLeft i := depthNesting (levelBalanced.mp level) i
  fromRight i := by
    have whole := levelBalanced.mp level
    have counted := depthNesting whole i
    rw [← List.take_append_drop i cs] at whole
    rw [depthsMeet whole, counted]
  closeFromOpen i closing := by
    have whole := levelBalanced.mp level
    rw [← (placeSplit closing).1] at whole
    exact closeFromOpen whole
  openFromClose i opening := by
    have whole := levelBalanced.mp level
    rw [← (placeSplit opening).1] at whole
    exact openFromClose whole
  inspected i c found plain := by
    obtain ⟨text, length⟩ := placeSplit found
    have whole := levelBalanced.mp level
    have counted := depthNesting whole i
    rw [← text] at whole
    have top : depthBehind (cs.drop (i + 1)) = 0 ↔ nesting cs i = 0 := by
      rw [depthAround whole plain]
      omega
    have stops := cutInspected (cs.take i) (cs.drop (i + 1)) c
    rw [text, length] at stops
    refine ⟨top, ?_⟩
    rw [stops, ← top]
    exact and_iff_right plain
  sides i c found plain top := by
    have whole := levelBalanced.mp level
    have counted := depthNesting whole i
    rw [← (placeSplit found).1] at whole
    exact levelSides whole plain (by omega)
  closes i opening := closesExists (levelBalanced.mp level) opening

theorem depthsAgreeNested : let cs := "-((a,f(b)))*g()".toList
    Level cs ∧ nesting cs 4 = 2 ∧ nesting cs 11 = 0 ∧ DepthsAgree cs ∧
    depthOf 0 (cs.take 4) = (2 : Int) ∧ depthBehind (cs.drop 4) = (2 : Int) ∧
    (¬ ∃ cut ∈ topCuts cs, cut.position = 4) ∧ (∃ cut ∈ topCuts cs, cut.position = 11) ∧
    (Level (cs.take 11) ∧ Level (cs.drop 12)) ∧ ∀ j, Closes cs 1 j → j = 10 := by
  intro cs
  have level : Level cs := levelBalanced.mpr (by decide)
  have agree := depthsAgree level
  have deep : nesting cs 4 = 2 := by decide
  have top : nesting cs 11 = 0 := by decide
  have comma := (agree.inspected 4 ',' (by decide) (by decide)).2
  have star := (agree.inspected 11 '*' (by decide) (by decide)).2
  have closes : Closes cs 1 10 := ⟨by decide, by decide, levelBalanced.mpr (by decide)⟩
  obtain ⟨j, -, unique, -⟩ := agree.closes 1 (by decide)
  refine ⟨level, deep, top, agree, (agree.fromLeft 4).trans deep, (agree.fromRight 4).trans deep, ?_, star.mpr top,
    agree.sides 11 '*' (by decide) (by decide) top, ?_⟩
  · rw [comma, deep]
    decide
  · intro k other
    rw [unique k other, unique 10 closes]

end

end Formula
