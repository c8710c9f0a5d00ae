import Mathlib.Data.List.TakeWhile
import Mathlib.Tactic.Push
import Formula.Proofs.Reading.Pieces
import Formula.Proofs.Registry.Names

/-! What one step of reading can find in a balanced text. Either a symbol outside all parentheses decides, which is
the last of its precedence that is no sign, or no symbol is there and the text is a word, a group or a call. -/
namespace Formula

def EndsInSymbol (R : Registry) (cs : List Char) : Prop := cs.getLast?.any R.isSymbol = true

theorem endsInSymbolNil {R : Registry} : ¬ EndsInSymbol R [] := by
  simp [EndsInSymbol]

theorem endsInSymbolSnoc {R : Registry} {w : List Char} {d : Char} :
    EndsInSymbol R (w ++ [d]) ↔ R.isSymbol d = true := by
  simp [EndsInSymbol]

theorem endsInSymbolAppend {R : Registry} {front cs : List Char} (nonempty : cs ≠ []) :
    EndsInSymbol R (front ++ cs) ↔ EndsInSymbol R cs := by
  rw [EndsInSymbol, List.getLast?_append, List.getLast?_eq_some_getLast nonempty, Option.some_or, EndsInSymbol,
    List.getLast?_eq_some_getLast nonempty]

theorem endsInSymbolCons {R : Registry} {c : Char} {cs : List Char} :
    EndsInSymbol R (c :: cs) ↔ (cs = [] ∧ R.isSymbol c = true) ∨ EndsInSymbol R cs := by
  by_cases empty : cs = []
  · subst empty
    simp [EndsInSymbol]
  · have last : EndsInSymbol R ([c] ++ cs) ↔ EndsInSymbol R cs := endsInSymbolAppend empty
    simpa [empty] using last

def Uncut (R : Registry) (p : Precedence) (cs : List Char) : Prop := ∀ x c y, Outside cs x c y →
  R.isSymbolIn (.between p) c = true → y ≠ [] ∧ EndsInSymbol R x

structure LastOf (R : Registry) (p : Precedence) (cs left : List Char) (c : Char) (right : List Char) : Prop where
  place : Outside cs left c right
  tier : R.isSymbolIn (.between p) c = true
  cuts : right = [] ∨ ¬ EndsInSymbol R left
  signs : ∀ u d v, Outside right u d v → R.isSymbolIn (.between p) d = true →
    v ≠ [] ∧ EndsInSymbol R (left ++ c :: u)

def decided (R : Registry) (left : List Char) (c : Char) (right : List Char) : Except SyntaxError Shape :=
  if right = [] then .error (.missingOperand c left.length)
  else if left = [] then
    if R.isFunction c.toString then .ok (.unary c right) else .error (.missingOperand c 0)
  else .ok (.binary c left right)

theorem cutShapeSign {R : Registry} {left right : List Char} {c : Char} :
    Cut.shape? R ⟨left.reverse, c, right⟩ = none ↔ right ≠ [] ∧ EndsInSymbol R left := by
  rcases List.eq_nil_or_concat left with rfl | ⟨w, d, rfl⟩
  · cases right <;> simp [Cut.shape?, endsInSymbolNil]
  · cases right <;> simp [Cut.shape?, endsInSymbolSnoc]

theorem cutShapeDecided {R : Registry} {left right : List Char} {c : Char}
    (cuts : right = [] ∨ ¬ EndsInSymbol R left) :
    Cut.shape? R ⟨left.reverse, c, right⟩ = some (decided R left c right) := by
  rcases List.eq_nil_or_concat left with rfl | ⟨w, d, rfl⟩
  · cases right <;> simp [Cut.shape?, decided, Cut.position]
  · cases right with
    | nil => simp [Cut.shape?, decided, Cut.position]
    | cons e right => simp_all [Cut.shape?, decided, endsInSymbolSnoc]

theorem shapeAtNone {R : Registry} {p : Precedence} {cs : List Char} (whole : balanced cs = true) :
    shapeAt? R p cs = none ↔ Uncut R p cs := by
  rw [shapeAt?, List.findSome?_eq_none_iff]
  constructor
  · intro none x c y place tier
    have quiet := none ⟨x.reverse, c, y⟩ ((memTopCuts whole).mpr (by simpa using place))
    simp only [tier, if_true] at quiet
    exact cutShapeSign.mp quiet
  · rintro uncut ⟨before, c, y⟩ member
    have place := (memTopCuts whole).mp member
    split
    · rename_i tier
      simpa using cutShapeSign.mpr (uncut before.reverse c y place tier)
    · rfl

theorem shapeAtLast {R : Registry} {p : Precedence} {cs left right : List Char} {c : Char}
    (h : LastOf R p cs left c right) : shapeAt? R p cs = some (decided R left c right) := by
  have later : ((topCuts right).map (·.behind (c :: left.reverse))).findSome?
      (fun cut => if R.isSymbolIn (.between p) cut.symbol then cut.shape? R else none) = none := by
    rw [List.findSome?_eq_none_iff]
    intro cut member
    obtain ⟨⟨before, d, v⟩, inner, rfl⟩ := List.mem_map.mp member
    have place := (memTopCuts h.place.after).mp inner
    split
    · rename_i tier
      have sign := cutShapeSign (c := d).mpr (h.signs before.reverse d v place tier)
      simpa [Cut.behind] using sign
    · rfl
  rw [shapeAt?, topCutsAt h.place, List.findSome?_append, later, Option.none_or, List.findSome?_cons]
  simp only [h.tier, if_true, cutShapeDecided h.cuts]

theorem lastExists {R : Registry} {p : Precedence} {cs x y : List Char} {c : Char} (place : Outside cs x c y)
    (tier : R.isSymbolIn (.between p) c = true) (cuts : y = [] ∨ ¬ EndsInSymbol R x) :
    ∃ left c right, LastOf R p cs left c right := by
  -- as long as a later symbol cuts too, it leaves a shorter rest
  induction size : y.length using Nat.strongRecOn generalizing x c y with
  | ind n ih =>
    by_cases signs : ∀ u d v, Outside y u d v → R.isSymbolIn (.between p) d = true →
        v ≠ [] ∧ EndsInSymbol R (x ++ c :: u)
    · exact ⟨x, c, y, place, tier, cuts, signs⟩
    · push Not at signs
      obtain ⟨u, d, v, inner, tier', later⟩ := signs
      have shorter : v.length < n := by
        rw [← size, inner.text]
        simp
        omega
      refine ih v.length shorter (place.inRight inner) tier' ?_ rfl
      by_cases empty : v = []
      · exact .inl empty
      · exact .inr (later empty)

theorem lastOrUncut {R : Registry} (p : Precedence) (cs : List Char) :
    Uncut R p cs ∨ ∃ left c right, LastOf R p cs left c right := by
  by_cases uncut : Uncut R p cs
  · exact .inl uncut
  · unfold Uncut at uncut
    push Not at uncut
    obtain ⟨x, c, y, place, tier, later⟩ := uncut
    refine .inr (lastExists place tier ?_)
    by_cases empty : y = []
    · exact .inl empty
    · exact .inr (later empty)

/- Additive symbols are looser, so a multiplicative one decides only where none of them cuts. -/
structure Decides (R : Registry) (p : Precedence) (cs left : List Char) (c : Char) (right : List Char) : Prop
    extends LastOf R p cs left c right where
  looser : p = .multiplicative → Uncut R .additive cs

structure Bracketed (cs name inner rest : List Char) : Prop where
  text : cs = name ++ '(' :: (inner ++ ')' :: rest)
  plain : ∀ c ∈ name, isParenthesis c = false
  enclosed : balanced inner = true
  after : balanced rest = true

def bracketed (R : Registry) (name inner rest : List Char) : Except SyntaxError Shape :=
  if name ≠ [] ∧ R.isFunction (String.ofList name) = false then .error (.unknownFunction (String.ofList name) 0)
  else if rest = [] then .ok (if name = [] then .group inner else .call name (splitArguments inner))
  else .error (.trailing (name.length + inner.length + 2))

inductive Form (R : Registry) : List Char → Except SyntaxError Shape → Prop where
  | blank : Form R [] (.ok .blank)
  | symbol {p cs left c right} (decides : Decides R p cs left c right) : Form R cs (decided R left c right)
  | word {cs} (nonempty : cs ≠ []) (additive : Uncut R .additive cs) (multiplicative : Uncut R .multiplicative cs)
      (plain : ∀ c ∈ cs, isParenthesis c = false) : Form R cs (wordShape cs)
  | bracket {cs name inner rest} (additive : Uncut R .additive cs) (multiplicative : Uncut R .multiplicative cs)
      (parts : Bracketed cs name inner rest) : Form R cs (bracketed R name inner rest)

theorem Bracketed.place {cs name inner rest x y : List Char} {c : Char} (parts : Bracketed cs name inner rest)
    (whole : balanced cs = true) (split : name = x ++ c :: y) :
    Outside cs x c (y ++ '(' :: (inner ++ ')' :: rest)) := by
  have before := (outsidePlain parts.plain split).before
  have text : cs = x ++ c :: (y ++ '(' :: (inner ++ ')' :: rest)) := by simp [parts.text, split]
  rw [text] at whole ⊢
  exact .ofBalanced whole before (parts.plain c (by simp [split]))

theorem Bracketed.outside {cs name inner rest : List Char} (parts : Bracketed cs name inner rest)
    (whole : balanced cs = true) {c : Char} (member : c ∈ name) : ∃ x y, Outside cs x c y := by
  obtain ⟨x, y, split⟩ := List.append_of_mem member
  exact ⟨x, _, parts.place whole split⟩

theorem bracketedExists {cs : List Char} (whole : balanced cs = true) (opening : '(' ∈ cs) :
    ∃ name inner rest, Bracketed cs name inner rest := by
  obtain ⟨name, behindOpen, rfl, absent⟩ := List.eq_append_cons_of_mem opening
  have plain := plainBeforeOpen whole absent
  have tail := balancedRight whole (balancedOfPlain plain)
  rw [balanced, balancedOpen] at tail
  obtain ⟨inner, rest, found⟩ := splitCloseSome Nat.one_pos tail
  have enclosed := splitCloseBalanced found
  obtain rfl := splitCloseText found
  rw [balancedAppend enclosed, balancedClose] at tail
  exact ⟨name, inner, rest, rfl, plain, enclosed, tail⟩

theorem takeWhileName {name : List Char} (plain : ∀ c ∈ name, isParenthesis c = false) (tail : List Char) :
    (name ++ '(' :: tail).takeWhile (· != '(') = name ∧ (name ++ '(' :: tail).dropWhile (· != '(') = '(' :: tail := by
  have all : ∀ c ∈ name, (c != '(') = true := by
    intro c member
    simpa using plainNotOpen (plain c member)
  rw [List.takeWhile_append_of_pos all, List.dropWhile_append_of_pos all]
  simp

theorem atomShapeBracketed {R : Registry} {cs name inner rest : List Char} (parts : Bracketed cs name inner rest) :
    atomShape R cs = bracketed R name inner rest := by
  obtain ⟨first, behindOpen⟩ := takeWhileName parts.plain (inner ++ ')' :: rest)
  rw [← parts.text] at first behindOpen
  rw [atomShape, behindOpen]
  simp only [first, bracketShape, bracketed, splitCloseAt parts.enclosed]
  cases rest <;> simp

theorem atomShapeWord {R : Registry} {cs : List Char} (plain : ∀ c ∈ cs, isParenthesis c = false) :
    atomShape R cs = wordShape cs := by
  have none : cs.dropWhile (· != '(') = [] := by
    rw [List.dropWhile_eq_nil_iff]
    intro c member
    simpa using plainNotOpen (plain c member)
  rw [atomShape, none]

theorem shapeUncut {R : Registry} {cs : List Char} (whole : balanced cs = true) (nonempty : cs ≠ [])
    (additive : Uncut R .additive cs) (multiplicative : Uncut R .multiplicative cs) :
    shape R cs = atomShape R cs := by
  rw [shape, if_neg nonempty, (shapeAtNone whole).mpr additive, (shapeAtNone whole).mpr multiplicative]
  rfl

theorem shapeDecides {R : Registry} {p : Precedence} {cs left right : List Char} {c : Char}
    (h : Decides R p cs left c right) : shape R cs = decided R left c right := by
  have nonempty : cs ≠ [] := by
    rw [h.place.text]
    simp
  rw [shape, if_neg nonempty]
  cases p with
  | additive =>
    rw [shapeAtLast h.toLastOf]
    rfl
  | multiplicative =>
    rw [(shapeAtNone h.place.whole).mpr (h.looser rfl), shapeAtLast h.toLastOf]
    rfl

theorem shapeForm {R : Registry} {cs : List Char} (whole : balanced cs = true) : Form R cs (shape R cs) := by
  by_cases nonempty : cs = []
  · subst nonempty
    exact .blank
  · rcases lastOrUncut (R := R) .additive cs with additive | ⟨left, c, right, last⟩
    · rcases lastOrUncut (R := R) .multiplicative cs with multiplicative | ⟨left, c, right, last⟩
      · rw [shapeUncut whole nonempty additive multiplicative]
        by_cases opening : '(' ∈ cs
        · obtain ⟨name, inner, rest, parts⟩ := bracketedExists whole opening
          rw [atomShapeBracketed parts]
          exact .bracket additive multiplicative parts
        · have padded : balanced (cs ++ []) = true := by rwa [List.append_nil]
          have plain := plainBeforeOpen padded opening
          rw [atomShapeWord plain]
          exact .word nonempty additive multiplicative plain
      · have decides : Decides R .multiplicative cs left c right := ⟨last, fun _ => additive⟩
        rw [shapeDecides decides]
        exact .symbol decides
    · have decides : Decides R .additive cs left c right := ⟨last, fun other => by cases other⟩
      rw [shapeDecides decides]
      exact .symbol decides

/- Where parentheses are no symbols, a symbol outside is a sign only behind another one, so the first of a text cuts. -/
namespace Registry.Delimited
variable {R : Registry}

theorem plain (delimited : R.Delimited) {c : Char} (symbol : R.isSymbol c = true) : isParenthesis c = false := by
  rcases parenthesisCases c with rfl | rfl | plain
  · simp [delimited.opening] at symbol
  · simp [delimited.closing] at symbol
  · exact plain

theorem noSymbol (delimited : R.Delimited) {cs x y : List Char} {c : Char} (additive : Uncut R .additive cs)
    (multiplicative : Uncut R .multiplicative cs) (place : Outside cs x c y) : R.isSymbol c = false := by
  induction size : x.length using Nat.strongRecOn generalizing x c y with
  | ind n ih =>
    rw [Bool.eq_false_iff]
    intro symbol
    have sign : EndsInSymbol R x := by
      obtain ⟨p, tier⟩ := (R.symbolIffTier c).mp symbol
      cases p with
      | additive => exact (additive x c y place tier).2
      | multiplicative => exact (multiplicative x c y place tier).2
    rcases List.eq_nil_or_concat x with rfl | ⟨w, d, rfl⟩
    · exact endsInSymbolNil sign
    · rw [List.concat_eq_append] at place sign
      rw [endsInSymbolSnoc] at sign
      have former : Outside (w ++ [d]) w d [] := by
        refine ⟨rfl, balancedLeft place.before ?_, rfl, delimited.plain sign⟩
        rw [balanced, balancedPlain (delimited.plain sign)]
        rfl
      rw [ih w.length (by simp [← size]) (place.inLeft former) rfl] at sign
      contradiction

end Registry.Delimited

end Formula
