import Formula.Proofs.Expr.PostOrder
import Formula.Proofs.Reading.Causes
import Formula.Proofs.Reading.Exact
import Formula.Proofs.Registry.Latest

/-! What reading takes for the name of a function: all that stands between the beginning of an operand and the
parenthesis behind it. No symbol, parenthesis or blank is in it. A comma is in it only where the comma separates no
arguments, so that inside an argument list every name is a word. -/
namespace Formula

/- The name begins an operand and ends at a parenthesis. Between the arguments of a call there is no comma in it. -/
structure Called (R : Registry) (text front name : List Char) : Prop where
  place : ∃ back, text = front ++ (name ++ '(' :: back)
  starts : StartsOperand R front
  nonempty : name ≠ []
  plain : ∀ c ∈ name, isParenthesis c = false
  mute : ∀ c ∈ name, R.isSymbol c = false
  commas : ',' ∈ name → InGroup R front

namespace Called
variable {R : Registry} {text front name : List Char}

theorem shown (called : Called R text front name) (visible : ∀ c ∈ text, isBlank c = false) :
    ∀ c ∈ name, isBlank c = false := by
  obtain ⟨back, place⟩ := called.place
  intro c member
  exact visible c (by simp [place, member])

theorem word (called : Called R text front name) (visible : ∀ c ∈ text, isBlank c = false) (free : ',' ∉ name) :
    Grammar.Word R name := by
  refine ⟨called.nonempty, fun c member => ?_⟩
  have other : c ≠ ',' := by
    intro comma
    rw [comma] at member
    exact free member
  exact Registry.isLetterIff.mpr ⟨called.shown visible c member, called.plain c member, other, called.mute c member⟩

theorem stray (called : Called R text front name) (comma : ',' ∈ name) :
    ∃ before back, text = before ++ ',' :: back ∧ InGroup R before := by
  obtain ⟨back, place⟩ := called.place
  obtain ⟨w, v, split⟩ := List.append_of_mem comma
  have plain : ∀ c ∈ w, isParenthesis c = false := fun c member => called.plain c (by simp [split, member])
  refine ⟨front ++ w, v ++ '(' :: back, by simp [place, split], ?_⟩
  exact inGroupAppend (called.commas comma) (balancedOfPlain plain)

end Called

namespace Expr

def Calls (e : Expr) (name : String) : Prop := ∃ arguments, .call name arguments ∈ e.nodes

variable {name other : String}

theorem callsTerm (payload : String) : ¬ (term payload).Calls name := by
  simp [Calls, nodes]

theorem callsUnary {operand : Expr} : (unary other operand).Calls name ↔ operand.Calls name := by
  simp [Calls, nodes]

theorem callsBinary {left right : Expr} :
    (binary other left right).Calls name ↔ left.Calls name ∨ right.Calls name := by
  simp [Calls, nodes, exists_or]

theorem callsCall {arguments : List Expr} :
    (call other arguments).Calls name ↔ name = other ∨ ∃ e ∈ arguments, e.Calls name := by
  simp only [Calls, nodes, nodesAllFlatMap, List.mem_append, List.mem_flatMap, List.mem_singleton, call.injEq]
  constructor
  · intro ⟨found, member⟩
    cases member with
    | inl inside =>
      obtain ⟨e, listed, inner⟩ := inside
      exact .inr ⟨e, listed, found, inner⟩
    | inr here => exact .inl here.1
  · intro member
    cases member with
    | inl here => exact ⟨arguments, .inr ⟨here, rfl⟩⟩
    | inr inside =>
      obtain ⟨e, listed, found, inner⟩ := inside
      exact ⟨found, .inl ⟨e, listed, inner⟩⟩

end Expr

structure Tells (R : Registry) (text : List Char) (k : Nat) {α : Type} (calls : α → String → Prop)
    (outcome : Except SyntaxError α) : Prop where
  known : ∀ a, outcome = .ok a → ∀ name, calls a name →
    R.isFunction name = true ∧ ∃ front, Called R text front name.toList
  unknown : ∀ name p, outcome = .error (.unknownFunction name p) →
    R.isFunction name = false ∧ ∃ front, front.length = k + p ∧ Called R text front name.toList

namespace Tells
variable {R : Registry} {text : List Char} {k : Nat} {α β : Type} {calls : α → String → Prop}
  {later : β → String → Prop}

theorem ofOk {a : α} (silent : ∀ name, ¬ calls a name) : Tells R text k calls (.ok a) where
  known b same name called := by
    cases same
    exact absurd called (silent name)
  unknown name p same := by cases same

theorem ofError {err : SyntaxError} (other : ∀ name p, err ≠ .unknownFunction name p) :
    Tells R text k calls (.error err) where
  known a same := by cases same
  unknown name p same := by
    cases same
    exact absurd rfl (other name p)

theorem behind {n : Nat} {outcome : Except SyntaxError α} (tells : Tells R text (k + n) calls outcome) :
    Tells R text k calls (Formula.behind n outcome) where
  known a read := tells.known a (behindOkIff.mp read)
  unknown name p failed := by
    obtain ⟨cause, here, moved⟩ := behindErrorIff.mp failed
    cases cause with
    | unknownFunction other q =>
      simp only [SyntaxError.shift, SyntaxError.unknownFunction.injEq] at moved
      obtain ⟨rfl, rfl⟩ := moved
      rw [← Nat.add_assoc]
      exact tells.unknown _ q here
    | unbalanced | missingOperand | trailing | unexpected | malformed => cases moved

theorem bind {outcome : Except SyntaxError α} {f : α → Except SyntaxError β} (tells : Tells R text k calls outcome)
    (next : ∀ a, (∀ name, calls a name → R.isFunction name = true ∧ ∃ front, Called R text front name.toList) →
      Tells R text k later (f a)) : Tells R text k later (outcome >>= f) := by
  cases outcome with
  | ok a => exact next a (tells.known a rfl)
  | error err =>
    constructor
    · intro b read
      cases read
    · intro name p failed
      cases failed
      exact tells.unknown name p rfl

theorem map {outcome : Except SyntaxError α} {f : α → β} (tells : Tells R text k calls outcome)
    (next : ∀ a name, later (f a) name → calls a name ∨
      (R.isFunction name = true ∧ ∃ front, Called R text front name.toList)) :
    Tells R text k later (outcome.map f) := by
  have bound : outcome.map f = outcome >>= fun a => .ok (f a) := by cases outcome <;> rfl
  rw [bound]
  refine tells.bind fun a former => ⟨?_, ?_⟩
  · intro b same name called
    cases same
    exact (next a name called).elim (former name) id
  · intro name p failed
    cases failed

end Tells

namespace Slice
variable {R : Registry} {text front cs back left right name inner rest : List Char} {c : Char}

theorem muteName (slice : Slice R text front cs back) (parts : Bracketed cs name inner rest)
    (additive : Uncut R .additive cs) (multiplicative : Uncut R .multiplicative cs) {x y : List Char} {d : Char}
    (split : name = x ++ d :: y) : R.isSymbol d = false := by
  induction size : x.length using Nat.strongRecOn generalizing x d y with
  | ind n ih =>
    rw [Bool.eq_false_iff]
    intro symbol
    have place := parts.place slice.level split
    have sign : EndsInSymbol R x := by
      obtain ⟨p, tier⟩ := (R.symbolIffTier d).mp symbol
      cases p with
      | additive => exact (additive _ _ _ place tier).2
      | multiplicative => exact (multiplicative _ _ _ place tier).2
    rcases List.eq_nil_or_concat x with rfl | ⟨w, e, rfl⟩
    · exact endsInSymbolNil sign
    · rw [List.concat_eq_append] at split sign size
      rw [endsInSymbolSnoc] at sign
      have former : name = w ++ e :: d :: y := by simp [split]
      have quiet := ih w.length (by simp [← size]) former rfl
      rw [sign] at quiet
      contradiction

theorem called (slice : Slice R text front cs back) (parts : Bracketed cs name inner rest) (nonempty : name ≠ [])
    (additive : Uncut R .additive cs) (multiplicative : Uncut R .multiplicative cs) : Called R text front name where
  place := ⟨inner ++ ')' :: rest ++ back, by simp [slice.split, parts.text]⟩
  starts := slice.starts
  nonempty := nonempty
  plain := parts.plain
  mute d member := by
    obtain ⟨x, y, split⟩ := List.append_of_mem member
    exact muteName slice parts additive multiplicative split
  commas member := by
    obtain ⟨x, y, split⟩ := List.append_of_mem member
    have place := parts.place slice.level split
    exact slice.commas.resolve_left fun free => (unbrokenOutside slice.level).mp free _ _ place

def PartsTell (R : Registry) (text cs : List Char) : Prop := ∀ before mid behind,
  Slice R text before mid behind → mid.length < cs.length → Tells R text before.length Expr.Calls (readSlice R mid)

theorem symbolTells {p : Precedence} (parts : PartsTell R text cs) (slice : Slice R text front cs back)
    (decides : Decides R p cs left c right) :
    Tells R text front.length Expr.Calls (decided R left c right >>= Shape.tree R) := by
  have symbol := Registry.symbolOfTier decides.tier
  have length := congrArg List.length decides.place.text
  simp only [List.length_append, List.length_cons] at length
  unfold decided
  split
  · exact .ofError (by simp)
  · rename_i filled
    have operand := slice.inRight decides.place symbol filled
    have tells := parts _ _ _ operand (by omega)
    split
    · rename_i first
      subst first
      split
      · rw [List.length_append] at tells
        exact tells.behind.map fun x name called => .inl (Expr.callsUnary.mp called)
      · exact .ofError (by simp)
    · have former := parts _ _ _ (slice.inLeft decides.place symbol (decides.cuts.resolve_left filled)) (by omega)
      rw [List.length_append, List.length_append] at tells
      refine former.bind fun x first => tells.behind.map fun y name called => ?_
      exact (Expr.callsBinary.mp called).symm.imp_right (first name)

theorem commaEndedSnoc (former : List (List Char)) (piece : List Char) :
    commaEnded (former ++ [piece]) = commaEnded former + (piece.length + 1) := by
  induction former with
  | nil => simp [commaEnded]
  | cons first former ih =>
    rw [List.cons_append, commaEnded, commaEnded, ih]
    omega

theorem argumentsTell (parts : PartsTell R text cs) (slice : Slice R text front cs back)
    (brackets : Bracketed cs name inner []) {former others : List (List Char)}
    (split : splitArguments inner = former ++ others) :
    Tells R text (front.length + (name.length + 1 + commaEnded former))
      (fun es name => ∃ e ∈ es, e.Calls name) (readArguments R others) := by
  induction others generalizing former with
  | nil =>
    rw [readArgumentsNil]
    exact .ofOk (by simp)
  | cons piece others ih =>
    obtain ⟨before, behind, part, place⟩ := slice.inArguments brackets split
    have first := parts _ _ _ part (argumentShorter brackets split)
    have later : splitArguments inner = (former ++ [piece]) ++ others := by simp [split]
    have next := ih later
    rw [commaEndedSnoc, ← Nat.add_assoc (name.length + 1), ← Nat.add_assoc front.length] at next
    rw [place] at first
    rw [readArgumentsCons]
    refine first.bind fun e known => next.behind.map fun es name called => ?_
    obtain ⟨e', member, inner⟩ := called
    cases List.mem_cons.mp member with
    | inl here =>
      rw [here] at inner
      exact .inr (known name inner)
    | inr listed => exact .inl ⟨e', listed, inner⟩

theorem bracketTells (parts : PartsTell R text cs) (slice : Slice R text front cs back)
    (brackets : Bracketed cs name inner rest) (additive : Uncut R .additive cs)
    (multiplicative : Uncut R .multiplicative cs) :
    Tells R text front.length Expr.Calls (bracketed R name inner rest >>= Shape.tree R) := by
  unfold bracketed
  split
  · rename_i unknown
    have called := slice.called brackets unknown.1 additive multiplicative
    constructor
    · intro e read
      cases read
    · intro other p failed
      cases failed
      exact ⟨unknown.2, front, rfl, by rwa [String.toList_ofList]⟩
  · rename_i known
    split
    · rename_i last
      subst last
      split
      · rename_i nameless
        subst nameless
        have shorter : inner.length < cs.length := by
          simp only [brackets.text, List.length_append, List.length_cons]
          omega
        have tells := parts _ _ _ (slice.inBrackets brackets) shorter
        rw [List.length_append] at tells
        exact tells.behind
      · rename_i nonempty
        have called := slice.called brackets nonempty additive multiplicative
        have tells := argumentsTell parts slice brackets (List.nil_append _).symm
        refine tells.behind.map fun es other calls => ?_
        cases Expr.callsCall.mp calls with
        | inl here =>
          subst here
          refine .inr ⟨?_, front, by rwa [String.toList_ofList]⟩
          by_contra unknown
          exact known ⟨nonempty, by simpa using unknown⟩
        | inr inside => exact .inl inside
    · exact .ofError (by simp)

theorem tells (slice : Slice R text front cs back) : Tells R text front.length Expr.Calls (readSlice R cs) := by
  induction size : cs.length using Nat.strongRecOn generalizing front cs back with
  | ind n ih =>
    have parts : PartsTell R text cs := fun before mid behind part shorter => ih mid.length (by omega) part rfl
    have form := shapeForm (R := R) slice.level
    rw [readSliceShape]
    generalize shape R cs = outcome at form
    cases form with
    | blank => exact .ofOk fun _ => Expr.callsTerm _
    | symbol decides => exact symbolTells parts slice decides
    | word =>
      unfold wordShape
      split
      · exact .ofError (by simp)
      · exact .ofOk fun _ => Expr.callsTerm _
    | bracket additive multiplicative brackets => exact bracketTells parts slice brackets additive multiplicative

end Slice

inductive NamesFunction (R : Registry) (text name : String) : Prop where
  | tree {e : Expr} {arguments : List Expr} (read : R.read text = .ok e) (node : .call name arguments ∈ e.nodes)
  | unknown {p : Nat} (failed : R.read text = .error (.unknownFunction name p))

section
variable {R : Registry} {text name : String}

theorem readTells (R : Registry) (text : String) : Tells R (dropBlanks text.toList) 0 Expr.Calls (R.read text) := by
  unfold Registry.read
  split
  · exact .ofError (by simp)
  · rename_i none
    have whole : balanced (dropBlanks text.toList) = true :=
      (balancedDropBlanks 0 _).trans ((imbalanceBalanced _).mp none)
    exact (Slice.all whole).tells

theorem namesCalled (names : NamesFunction R text name) :
    ∃ front, Called R (dropBlanks text.toList) front name.toList := by
  cases names with
  | tree read node => exact ((readTells R text).known _ read name ⟨_, node⟩).2
  | unknown failed =>
    obtain ⟨-, front, -, called⟩ := (readTells R text).unknown _ _ failed
    exact ⟨front, called⟩

theorem functionsNamed (R : Registry) (text : String) :
    let shown := dropBlanks text.toList
    (∀ name, NamesFunction R text name → name ≠ "" ∧
      (∀ c ∈ name.toList, isBlank c = false ∧ isParenthesis c = false ∧ R.isSymbol c = false) ∧
      ∃ front, Called R shown front name.toList ∧ (¬ InGroup R front → Grammar.Word R name.toList)) ∧
    (∀ name p, R.read text = .error (.unknownFunction name p) →
      R.isFunction name = false ∧ ∃ front, front.length = p ∧ Called R shown front name.toList) ∧
    (∀ e, R.read text = .ok e → ∀ name arguments, .call name arguments ∈ e.nodes →
      R.isFunction name = true ∧ (R.CommaFree → Grammar.Word R name.toList)) ∧
    ((∀ front back, shown = front ++ ',' :: back → ¬ InGroup R front) →
      ∀ name, NamesFunction R text name → Grammar.Word R name.toList) := by
  intro shown
  have visible : ∀ c ∈ shown, isBlank c = false := Grammar.dropBlanksShown _
  have tells := readTells R text
  refine ⟨?_, ?_, ?_, ?_⟩
  · intro name names
    obtain ⟨front, called⟩ := namesCalled names
    have nonempty : name ≠ "" := by simpa using called.nonempty
    have letters (c : Char) (member : c ∈ name.toList) :
        isBlank c = false ∧ isParenthesis c = false ∧ R.isSymbol c = false :=
      ⟨called.shown visible c member, called.plain c member, called.mute c member⟩
    exact ⟨nonempty, letters, front, called, fun arguments => called.word visible (mt called.commas arguments)⟩
  · intro name p failed
    obtain ⟨unknown, front, place, called⟩ := tells.unknown name p failed
    exact ⟨unknown, front, by omega, called⟩
  · intro e read name arguments node
    obtain ⟨known, front, called⟩ := tells.known e read name ⟨arguments, node⟩
    exact ⟨known, fun free => called.word visible (free name known)⟩
  · intro separate name names
    obtain ⟨front, called⟩ := namesCalled names
    refine called.word visible fun comma => ?_
    obtain ⟨before, back, place, group⟩ := called.stray comma
    exact separate before back place group

/- The only comma separates the arguments of a call, so it cannot get into the name behind it. -/
theorem functionsNamedArguments : let R := Registry.standard
    let text := "abs(1, 2*foo(x))"
    R.read text = .error (.unknownFunction "foo" 8) ∧ NamesFunction R text "foo" ∧ R.isFunction "foo" = false ∧
    (∀ front back, dropBlanks text.toList = front ++ ',' :: back → ¬ InGroup R front) ∧
    Grammar.Word R "foo".toList ∧
    R.CommaFree ∧ R.read "-(sqrt(x))" = .ok (.unary "-" (.call "sqrt" [.term "x"])) ∧
    Grammar.Word R "sqrt".toList := by
  intro R text
  have failed : R.read text = .error (.unknownFunction "foo" 8) := by decide +kernel
  have read : R.read "-(sqrt(x))" = .ok (.unary "-" (.call "sqrt" [.term "x"])) := by decide +kernel
  have shown : dropBlanks text.toList = "abs(1,2*foo(x))".toList := by decide +kernel
  have separate : ∀ front back, dropBlanks text.toList = front ++ ',' :: back → ¬ InGroup R front := by
    rw [shown]
    intro front back split group
    have only : ∀ n < "abs(1,2*foo(x))".toList.length, "abs(1,2*foo(x))".toList[n]? = some ',' → n = 5 := by decide
    have place : front.length = 5 := by
      refine only front.length ?_ ?_
      · simp [split]
      · simp [split]
    have first : front = "abs(1".toList := by
      have taken := congrArg (List.take 5) split
      rw [← place, List.take_left, place] at taken
      exact taken.symm
    have starts := group "abs".toList ['1'] first (by decide)
    exact absurd (starts "ab".toList 's' rfl) (by decide)
  obtain ⟨-, unknown, -, words⟩ := functionsNamed R text
  obtain ⟨-, -, known, -⟩ := functionsNamed R "-(sqrt(x))"
  have names : NamesFunction R text "foo" := .unknown failed
  exact ⟨failed, names, (unknown _ _ failed).1, separate, words separate "foo" names, Registry.standardCommaFree, read,
    (known _ read "sqrt" [.term "x"] (by simp [Expr.nodes, Expr.nodesAll])).2 Registry.standardCommaFree⟩

/- In front of a call that is no argument a comma is taken into the name of the function, for an error or for a tree,
where the same text names another function inside an argument list. -/
theorem strayCommaNamed : ∃ R, Start.standard.registry.enrollAll [.named "1,sqrt" .absolute] = R ∧
    Start.standard.registry.enrollAll [] = .standard ∧ Registry.standard.isSymbol ',' = false ∧
    R.isSymbol ',' = false ∧ ¬ Grammar.Word .standard "1,sqrt".toList ∧ ¬ Grammar.Word R "1,sqrt".toList ∧
    Registry.standard.read "1,sqrt(4)" = .error (.unknownFunction "1,sqrt" 0) ∧
    R.read "1,sqrt(4)" = .ok (.call "1,sqrt" [.term "4"]) ∧
    Registry.standard.read "abs(1,sqrt(4))" = .ok (.call "abs" [.term "1", .call "sqrt" [.term "4"]]) ∧
    R.read "abs(1,sqrt(4))" = .ok (.call "abs" [.term "1", .call "sqrt" [.term "4"]]) := by
  refine ⟨_, rfl, rfl, by decide, by decide, ?_, ?_, by decide +kernel, by decide +kernel, by decide +kernel,
    by decide +kernel⟩
  · intro word
    exact lettersNoComma word.letters (by decide)
  · intro word
    exact lettersNoComma word.letters (by decide)

end

end Formula
