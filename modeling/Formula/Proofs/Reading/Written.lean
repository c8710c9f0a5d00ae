import Formula.Proofs.Reading.Exact

/-! Formulas written with all their parentheses. Reading gives back every well-formed tree that was written, and it
builds no other trees. -/
namespace Formula

mutual
def Expr.written : Expr → String
  | .term payload => if payload = "" then "()" else payload
  | .binary symbol left right => "(" ++ left.written ++ ")" ++ symbol ++ "(" ++ right.written ++ ")"
  | .unary symbol operand => symbol ++ "(" ++ operand.written ++ ")"
  | .call name arguments => name ++ "(" ++ ",".intercalate (Expr.writtenAll arguments) ++ ")"

def Expr.writtenAll : List Expr → List String
  | [] => []
  | x :: xs => x.written :: Expr.writtenAll xs
end

theorem writtenAllMap (xs : List Expr) : Expr.writtenAll xs = xs.map Expr.written := by
  induction xs with
  | nil => rfl
  | cons x xs ih => rw [Expr.writtenAll, ih, List.map_cons]

inductive WellFormed (R : Registry) : Expr → Prop where
  | term {payload} (letters : ∀ c ∈ payload.toList, R.isLetter c = true) : WellFormed R (.term payload)
  | binary {c x y} (symbol : R.isSymbol c = true) (shown : isBlank c = false) (left : WellFormed R x)
      (right : WellFormed R y) : WellFormed R (.binary c.toString x y)
  | unary {c x} (symbol : R.isSymbol c = true) (shown : isBlank c = false)
      (leading : R.isFunction c.toString = true) (operand : WellFormed R x) : WellFormed R (.unary c.toString x)
  | call {name es} (nonempty : name ≠ "") (letters : ∀ c ∈ name.toList, R.isLetter c = true)
      (known : R.isFunction name = true) (arguments : ∀ e ∈ es, WellFormed R e) : WellFormed R (.call name es)

namespace Grammar
variable {R : Registry}

theorem wordOf {text : String} (nonempty : text ≠ "") (letters : ∀ c ∈ text.toList, R.isLetter c = true) :
    Word R text.toList := ⟨by simpa using nonempty, letters⟩

theorem sumUnary {c : Char} {cs : List Char} {e : Expr} (symbol : R.isSymbol c = true)
    (leading : R.isFunction c.toString = true) (operand : Atom R cs e) : Sum R (c :: cs) (.unary c.toString e) := by
  obtain ⟨p, tier⟩ := (R.symbolIffTier c).mp symbol
  cases p with
  | additive => exact .product (.sign tier leading (.factors (.head (.atom operand))))
  | multiplicative => exact .product (.factors (.head (.sign tier leading (.atom operand))))

theorem sumBinary {c : Char} {l r : List Char} {x y : Expr} (symbol : R.isSymbol c = true) (left : Atom R l x)
    (right : Atom R r y) : Sum R (l ++ c :: r) (.binary c.toString x y) := by
  obtain ⟨p, tier⟩ := (R.symbolIffTier c).mp symbol
  cases p with
  | additive =>
    exact .more tier (.product (.factors (.head (.atom left)))) (.factors (.head (.atom right)))
  | multiplicative => exact .product (.factors (.more tier (.head (.atom left)) (.atom right)))

theorem writtenNonempty (e : Expr) : e.written.toList ≠ [] := by
  cases e with
  | term payload =>
    rw [Expr.written]
    split
    · decide
    · simpa
  | binary symbol left right => simp [Expr.written]
  | unary symbol operand => simp [Expr.written]
  | call name arguments => simp [Expr.written]

theorem writtenArguments {es : List Expr} (groups : ∀ e ∈ es, Group R e.written.toList e) :
    Arguments R (joinCommas (es.map (·.written.toList))) es := by
  cases es with
  | nil => exact .none
  | cons e es =>
    have nonempty : joinCommas ((e :: es).map (·.written.toList)) ≠ [] := by
      cases es with
      | nil => simpa [joinCommasSingle] using writtenNonempty e
      | cons => simp [joinCommasCons]
    refine .some nonempty ?_
    clear nonempty
    induction es generalizing e with
    | nil =>
      rw [List.map_cons, List.map_nil, joinCommasSingle]
      exact .last (groups e List.mem_cons_self)
    | cons next es ih =>
      rw [List.map_cons, List.map_cons, joinCommasCons]
      refine .more (groups e List.mem_cons_self) (ih next ?_)
      intro x member
      exact groups x (List.mem_cons_of_mem _ member)

theorem writtenCall (name : String) (es : List Expr) : (Expr.call name es).written.toList =
    name.toList ++ '(' :: (joinCommas (es.map (·.written.toList)) ++ [')']) := by
  simp [Expr.written, writtenAllMap, joinCommas, Function.comp_def]

theorem writtenGroup {e : Expr} (wellFormed : WellFormed R e) : Group R e.written.toList e := by
  induction wellFormed with
  | @term payload letters =>
    rw [Expr.written]
    split
    · rename_i empty
      subst empty
      exact .sum (Derived.ofAtom (.group .empty)).sum
    · rename_i nonempty
      have atom := Atom.word (wordOf nonempty letters)
      rw [String.ofList_toList] at atom
      exact .sum (Derived.ofAtom atom).sum
  | binary symbol _ _ _ left right =>
    have sum := sumBinary symbol (.group left) (.group right)
    simpa [Expr.written] using Group.sum sum
  | unary symbol _ leading _ operand =>
    have sum := sumUnary symbol leading (.group operand)
    simpa [Expr.written] using Group.sum sum
  | @call name es nonempty letters known _ arguments =>
    have atom := Atom.call (wordOf nonempty letters) (by simpa using known) (writtenArguments arguments)
    rw [String.ofList_toList, ← writtenCall] at atom
    exact .sum (Derived.ofAtom atom).sum

theorem memJoinCommas {c : Char} {pieces : List (List Char)} (member : c ∈ joinCommas pieces) :
    c = ',' ∨ ∃ piece ∈ pieces, c ∈ piece := by
  cases pieces with
  | nil => simp [joinCommas] at member
  | cons piece pieces =>
    induction pieces generalizing piece with
    | nil =>
      rw [joinCommasSingle] at member
      exact .inr ⟨piece, List.mem_cons_self, member⟩
    | cons next pieces ih =>
      rw [joinCommasCons, List.mem_append, List.mem_cons] at member
      rcases member with here | comma | later
      · exact .inr ⟨piece, List.mem_cons_self, here⟩
      · exact .inl comma
      · rcases ih next later with comma | ⟨found, inside, here⟩
        · exact .inl comma
        · exact .inr ⟨found, List.mem_cons_of_mem _ inside, here⟩

theorem writtenShown {e : Expr} (wellFormed : WellFormed R e) : ∀ c ∈ e.written.toList, isBlank c = false := by
  induction wellFormed with
  | term letters =>
    rw [Expr.written]
    split
    · simp [openShown, closeShown]
    · exact lettersShown letters
  | binary _ shown _ _ left right =>
    simpa [Expr.written, or_imp, forall_and, openShown, closeShown, shown] using ⟨left, right⟩
  | unary _ shown _ _ operand =>
    simpa [Expr.written, or_imp, forall_and, openShown, closeShown, shown] using operand
  | @call name es _ letters _ _ arguments =>
    rw [writtenCall]
    intro c member
    simp only [List.mem_append, List.mem_cons, List.not_mem_nil, or_false] at member
    rcases member with inName | rfl | inside | rfl
    · exact lettersShown letters c inName
    · exact openShown
    · rcases memJoinCommas inside with rfl | ⟨piece, found, here⟩
      · decide
      · obtain ⟨e, argument, rfl⟩ := List.mem_map.mp found
        exact arguments e argument c here
    · exact closeShown

theorem writtenRead (delimited : R.Delimited) {e : Expr} (wellFormed : WellFormed R e) : R.read e.written = .ok e := by
  obtain ⟨enclosed, read⟩ := groupRead delimited (writtenGroup wellFormed)
  exact (readShown (writtenShown wellFormed)).mpr ⟨enclosed.whole, read⟩

/- A tree takes its operators and names from the text, which holds no blanks. -/
theorem wellFormedKept : Kept R (fun cs e => (∀ c ∈ cs, isBlank c = false) → WellFormed R e)
    (fun cs es => (∀ c ∈ cs, isBlank c = false) → ∀ e ∈ es, WellFormed R e) where
  empty _ := .term (by simp)
  word word _ := .term (by simpa using word.letters)
  group inner shown := inner fun c member => shown c (by simp [member])
  unary symbol leading operand shown := by
    refine .unary symbol (shown _ List.mem_cons_self) leading (operand fun c member => shown c ?_)
    exact List.mem_cons_of_mem _ member
  binary symbol left right shown := by
    refine .binary symbol (shown _ (by simp)) (left fun c member => shown c ?_) (right fun c member => shown c ?_)
    · simp [member]
    · simp [member]
  call word known arguments shown := by
    have inner := arguments fun c member => shown c (by simp [member])
    exact .call (by simpa using word.nonempty) (by simpa using word.letters) known inner
  none _ := by simp
  last group shown := by simpa using group shown
  more first _ rest shown := by
    intro e member
    rcases List.mem_cons.mp member with rfl | later
    · exact first fun c inside => shown c (by simp [inside])
    · exact rest (fun c inside => shown c (by simp [inside])) e later

theorem readWellFormed (delimited : R.Delimited) (commaFree : R.CommaFree) {text : String} {e : Expr}
    (read : R.read text = .ok e) : WellFormed R e := by
  obtain ⟨whole, slice⟩ := readOk.mp read
  have group := readGroupDerived delimited commaFree whole (dropBlanksShown _) slice
  exact groupKept wellFormedKept group (dropBlanksShown _)

theorem writtenRoundTrip (delimited : R.Delimited) (commaFree : R.CommaFree) :
    (∀ e, WellFormed R e → R.read e.written = .ok e) ∧
    ∀ text e, R.read text = .ok e → WellFormed R e ∧ R.read e.written = .ok e := by
  refine ⟨fun e wellFormed => writtenRead delimited wellFormed, fun text e read => ?_⟩
  have wellFormed := readWellFormed delimited commaFree read
  exact ⟨wellFormed, writtenRead delimited wellFormed⟩

theorem writtenRoundTripStandard : Registry.standard.Delimited ∧ Registry.standard.CommaFree ∧
    ∃ e, Registry.standard.read "x - -abs( , y*2)" = .ok e ∧ e.written = "(x)-(-(abs((),(y)*(2))))" ∧
      WellFormed Registry.standard e ∧ Registry.standard.read e.written = .ok e := by
  have read : Registry.standard.read "x - -abs( , y*2)" = .ok (.binary "-" (.term "x")
    (.unary "-" (.call "abs" [.zero, .binary "*" (.term "y") (.term "2")]))) := by decide +kernel
  refine ⟨Registry.standardDelimited, Registry.standardCommaFree, _, read, by decide +kernel, ?_⟩
  exact (writtenRoundTrip Registry.standardDelimited Registry.standardCommaFree).2 _ _ read

end Grammar

end Formula
