import Formula.Proofs.Reading.Exact
import Formula.Proofs.Registry.Latest

/-! Signs in front of an operand. A character that is registered in front of operands is read as a sign where it is
registered between operands too. Otherwise it is a letter of the word or the name behind it, and no sign is read. -/
namespace Formula

def signed (c : Char) (operand : String) : String := .ofList (c :: operand.toList)

structure Signable (R : Registry) (operand : String) : Prop where
  shown : ∀ d ∈ operand.toList, isBlank d = false
  nonempty : operand ≠ ""
  mute : ∀ x d y, Outside operand.toList x d y → R.isSymbol d = false

section
variable {R : Registry} {c : Char} {cs : List Char}

theorem signableCuts {operand : String} (whole : balanced operand.toList = true)
    (shown : operand.toList.all (!isBlank ·) = true) (nonempty : operand ≠ "")
    (mute : (topCuts operand.toList).all (!R.isSymbol ·.symbol) = true) : Signable R operand where
  shown := Grammar.allShown shown
  nonempty := nonempty
  mute x d y place := by
    have cut : ⟨x.reverse, d, y⟩ ∈ topCuts operand.toList := (memTopCuts whole).mpr (by simpa using place)
    simpa using List.all_eq_true.mp mute _ cut

/- The only symbol that a signed text can have outside its parentheses is the sign. -/
theorem symbolSigned (plain : isParenthesis c = false) (mute : ∀ x d y, Outside cs x d y → R.isSymbol d = false)
    {x y : List Char} {d : Char} (place : Outside (c :: cs) x d y) {p : Precedence}
    (tier : R.isSymbolIn (.between p) d = true) : d = c := by
  rcases place.ofCons plain with ⟨-, same, -⟩ | ⟨w, -, inside⟩
  · exact same
  · have silent := mute w d y inside
    rw [Registry.symbolOfTier tier] at silent
    contradiction

theorem decidesSigned (plain : isParenthesis c = false) (whole : balanced cs = true)
    (mute : ∀ x d y, Outside cs x d y → R.isSymbol d = false) {p : Precedence}
    (tier : R.isSymbolIn (.between p) c = true) : Decides R p (c :: cs) [] c cs := by
  refine ⟨⟨⟨rfl, rfl, whole, plain⟩, tier, .inr endsInSymbolNil, ?_⟩, ?_⟩
  · intro u d v place later
    have silent := mute u d v place
    rw [Registry.symbolOfTier later] at silent
    contradiction
  · rintro rfl x d y place additive
    obtain rfl := symbolSigned plain mute place additive
    rw [Grammar.notAdditive tier] at additive
    contradiction

theorem shapeSigned (plain : isParenthesis c = false) (whole : balanced cs = true) (nonempty : cs ≠ [])
    (mute : ∀ x d y, Outside cs x d y → R.isSymbol d = false) (symbol : R.isSymbol c = true)
    (leading : R.isFunction c.toString = true) : shape R (c :: cs) = .ok (.unary c cs) := by
  obtain ⟨p, tier⟩ := (R.symbolIffTier c).mp symbol
  rw [shapeDecides (decidesSigned plain whole mute tier), decided, if_neg nonempty, if_pos rfl, if_pos leading]

theorem shapeLetters (plain : isParenthesis c = false) (whole : balanced cs = true)
    (mute : ∀ x d y, Outside cs x d y → R.isSymbol d = false) (letter : R.isSymbol c = false) {s : Shape}
    (found : shape R (c :: cs) = .ok s) : (∃ text, s = .word text) ∨ ∃ name pieces, s = .call name pieces := by
  have level : balanced (c :: cs) = true := by rwa [balanced, balancedPlain plain]
  have form := shapeForm (R := R) level
  rw [found] at form
  generalize outcome : (Except.ok s : Except SyntaxError Shape) = o at form
  cases form with
  | symbol decides =>
    obtain rfl := symbolSigned plain mute decides.place decides.tier
    rw [Registry.symbolOfTier decides.tier] at letter
    contradiction
  | word =>
    unfold wordShape at outcome
    split at outcome <;> cases outcome
    exact .inl ⟨_, rfl⟩
  | @bracket _ name inner rest _ _ parts =>
    have named : name ≠ [] := by
      rintro rfl
      have first := parts.text
      simp only [List.nil_append, List.cons.injEq] at first
      exact plainNotOpen plain first.1
    unfold bracketed at outcome
    split at outcome
    · cases outcome
    · split at outcome
      · simp only [Except.ok.injEq] at outcome
        exact .inr ⟨name, _, outcome⟩
      · cases outcome

theorem readLetters (plain : isParenthesis c = false) (whole : balanced cs = true)
    (mute : ∀ x d y, Outside cs x d y → R.isSymbol d = false) (letter : R.isSymbol c = false) (name : String)
    (operand : Expr) : readSlice R (c :: cs) ≠ .ok (.unary name operand) := by
  intro read
  rw [readSliceShape] at read
  obtain ⟨s, found, tree⟩ := bindOk.mp read
  rcases shapeLetters plain whole mute letter found with ⟨text, rfl⟩ | ⟨called, pieces, rfl⟩
  · cases tree
  · obtain ⟨es, -, other⟩ := callTree.mp tree
    cases other

theorem readSigned {operand : String} {e : Expr} (shown : isBlank c = false) (plain : isParenthesis c = false)
    (leading : R.isFunction c.toString = true) (signable : Signable R operand) (read : R.read operand = .ok e) :
    R.read (signed c operand) = .ok (.unary c.toString e) ↔ R.isSymbol c = true := by
  obtain ⟨whole, inner⟩ := (Grammar.readShown signable.shown).mp read
  have filled : operand.toList ≠ [] := by simpa using signable.nonempty
  have level : balanced (c :: operand.toList) = true := by rwa [balanced, balancedPlain plain]
  have visible : ∀ d ∈ c :: operand.toList, isBlank d = false := by
    simpa [shown] using signable.shown
  rw [signed, Grammar.readOfList visible]
  constructor
  · rintro ⟨-, sign⟩
    by_contra letter
    exact readLetters plain whole signable.mute (by simpa using letter) _ _ sign
  · intro symbol
    refine ⟨level, ?_⟩
    rw [readOfShape (shapeSigned plain whole filled signable.mute symbol leading)]
    exact unaryTree.mpr ⟨e, inner, rfl⟩

end

namespace Registry
variable {R : Registry} {start : Start} {registrations : List Registration} {c : Char} {f : Operation}

theorem latestRegistered (start : Start) (registered : .symbol .leading c f ∈ registrations) :
    ∃ g, latest (Entry.leading? c.toString) (history start registrations) = some g := by
  rw [← Option.isSome_iff_exists, latest, List.findSome?_isSome_iff]
  refine ⟨.leading c.toString f, ?_, by simp [Entry.leading?]⟩
  rw [List.mem_reverse, history, List.mem_append, List.mem_flatMap]
  exact .inr ⟨_, registered, by simp [Registration.entries]⟩

/- Any registrations may have followed, so that another operation may stand behind the sign by now. -/
theorem signRead (reached : start.registry.enrollAll registrations = R)
    (registered : .symbol .leading c f ∈ registrations) (shown : isBlank c = false) (plain : isParenthesis c = false)
    {operand : String} {e : Expr} (signable : Signable R operand) (read : R.read operand = .ok e) :
    (R.read (signed c operand) = .ok (.unary c.toString e) ↔ R.isSymbol c = true) ∧
    ∃ g, latest (Entry.leading? c.toString) (history start registrations) = some g ∧
      ∀ bindings, (Expr.unary c.toString e).evaluate R bindings =
        e.evaluate R bindings >>= fun x => (g [x]).mapError (.failed c.toString) := by
  subst reached
  have answers := (historyHolds start registrations).answers
  obtain ⟨g, last⟩ := latestRegistered start registered
  have leading := answers.isFunction c.toString
  refine ⟨readSigned shown plain (by rw [leading, last]; rfl) signable read, g, last, fun bindings => ?_⟩
  have found := answers.leadingTier c.toString
  have applied (x : Float) := answers.applyLeading c.toString [x]
  simp only [last] at found applied
  simp only [Expr.evaluateUnary, found, Option.map_some, applyFoundSome, applied]

theorem signReadStar : ∃ R e, Start.standard.registry.enrollAll
      [.symbol .leading '*' .absolute, .named "*" .squareRoot, .elementary] = R ∧
    isBlank '*' = false ∧ isParenthesis '*' = false ∧ Signable R "max(x-1,2)" ∧ R.read "max(x-1,2)" = .ok e ∧
    R.isSymbol '*' = true ∧ R.read "*max(x-1,2)" = .ok (.unary "*" e) ∧
    ∀ bindings, (Expr.unary "*" e).evaluate R bindings =
      e.evaluate R bindings >>= fun x => (Operation.squareRoot [x]).mapError (.failed "*") := by
  obtain ⟨R, reached⟩ : ∃ R, Start.standard.registry.enrollAll
      [.symbol .leading '*' .absolute, .named "*" .squareRoot, .elementary] = R := ⟨_, rfl⟩
  have signable : Signable R "max(x-1,2)" := by
    subst reached
    exact signableCuts (by decide) (by decide) (by decide) (by decide +kernel)
  have read : R.read "max(x-1,2)" = .ok (.call "max" [.binary "-" (.term "x") (.term "1"), .term "2"]) := by
    subst reached
    decide +kernel
  have symbol : R.isSymbol '*' = true := by
    subst reached
    decide +kernel
  obtain ⟨sign, g, last, value⟩ := signRead (c := '*') (f := .absolute) reached (by simp) (by decide) (by decide)
    signable read
  have root : g = .squareRoot := (Option.some.inj last).symm
  subst root
  exact ⟨R, _, reached, by decide, by decide, signable, read, symbol, sign.mpr symbol, value⟩

/- An exclamation mark is registered in front of operands only. It becomes a letter of the name behind it. -/
theorem signLost : ∃ R, Start.standard.registry.enrollAll [.symbol .leading '!' .minusSign] = R ∧
    isBlank '!' = false ∧ isParenthesis '!' = false ∧ '!' ≠ ',' ∧ Signable R "x" ∧ "x".toList.head? ≠ some '!' ∧
    R.read "x" = .ok (.term "x") ∧ R.read "!x" = .ok (.term "!x") ∧
    R.read "!x" ≠ .ok (.unary "!" (.term "x")) := by
  refine ⟨_, rfl, by decide, by decide, by decide, ?_, by decide, by decide +kernel, by decide +kernel,
    by decide +kernel⟩
  exact signableCuts (by decide) (by decide) (by decide) (by decide +kernel)

end Registry

end Formula
