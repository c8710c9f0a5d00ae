import Formula.Registry

/-! Which names a registry knows. No registration forgets a name or a symbol, a symbol has one precedence at a time,
and the registries that are ready for use keep parentheses and commas out of their names. -/
namespace Formula.Registry
variable {R : Registry} {name other : String} {c symbol : Char} {f : Operation}

structure Delimited (R : Registry) : Prop where
  opening : R.isSymbol '(' = false
  closing : R.isSymbol ')' = false
  comma : R.isSymbol ',' = false

def CommaFree (R : Registry) : Prop := ∀ name, R.isFunction name = true → ',' ∉ name.toList

theorem isFunctionSome : R.isFunction name = (R.operation? .leading name).isSome := rfl

theorem isSymbolInSome {tier : Tier} : R.isSymbolIn tier c = (R.operation? tier c.toString).isSome :=
  (R.operationSome tier c.toString).symm

theorem operationUnique {p q : Precedence} (hp : (R.operation? (.between p) name).isSome = true)
    (hq : (R.operation? (.between q) name).isSome = true) : p = q := by
  have apart := R.apart name
  rw [operationSome, Std.TreeMap.contains_iff_mem] at hp hq
  cases p <;> cases q
  · rfl
  · exact absurd ⟨hp, hq⟩ apart
  · exact absurd ⟨hq, hp⟩ apart
  · rfl

theorem tierUnique {p q : Precedence} (hp : R.isSymbolIn (.between p) c = true)
    (hq : R.isSymbolIn (.between q) c = true) : p = q := by
  rw [isSymbolInSome] at hp hq
  exact operationUnique hp hq

theorem symbolOfTier {p : Precedence} (tier : R.isSymbolIn (.between p) c = true) : R.isSymbol c = true :=
  (R.symbolIffTier c).mpr ⟨p, tier⟩

theorem betweenFound {p : Precedence} : R.between? name = some (p, f) ↔ R.operation? (.between p) name = some f := by
  have unique : (R.operation? (.between .multiplicative) name).isSome = true →
      R.operation? (.between .additive) name = none := by
    intro multiplicative
    rw [← Option.not_isSome_iff_eq_none]
    exact fun additive => nomatch operationUnique multiplicative additive
  unfold between?
  cases multiplicative : R.operation? (.between .multiplicative) name with
  | some g => cases p <;> simp [multiplicative, unique]
  | none => cases p <;> simp [multiplicative]

theorem betweenRecorded :
    (R.between? name).map Prod.snd = some f ↔ ∃ p, R.operation? (.between p) name = some f := by
  simp only [Option.map_eq_some_iff, Prod.exists, betweenFound, exists_eq_right]

theorem leadingTierFound {tier : Tier} :
    R.leadingTier? name = some tier ↔ .leading = tier ∧ R.isFunction name = true := by
  cases known : R.leading? name <;> simp [leadingTier?, isFunction, known]

theorem betweenTierFound {tier : Tier} :
    R.betweenTier? name = some tier ↔ ∃ p, .between p = tier ∧ (R.operation? (.between p) name).isSome = true := by
  simp only [betweenTier?, Option.map_eq_some_iff, Prod.exists, betweenFound, Option.isSome_iff_exists]
  grind

theorem isFunctionRegister :
    (R.register name f).isFunction other = true ↔ name = other ∨ R.isFunction other = true := by
  rw [isFunctionSome, register, operationInsert, isFunctionSome]
  split <;> simp_all

theorem isSymbolRegister : (R.register name f).isSymbol c = R.isSymbol c := rfl

theorem isFunctionBetween {p : Precedence} :
    (R.registerSymbol (.between p) symbol f).isFunction name = R.isFunction name := by
  cases p <;> rfl

theorem operationLeading {p : Precedence} :
    (R.insert .leading name f).operation? (.between p) other = R.operation? (.between p) other := by
  simp [operationInsert]

theorem knownBetween {p : Precedence} :
    (∃ q, ((R.registerSymbol (.between p) symbol f).operation? (.between q) other).isSome = true) ↔
      symbol.toString = other ∨ ∃ q, (R.operation? (.between q) other).isSome = true := by
  simp only [registerSymbol, operationInsert]
  generalize symbol.toString = name
  by_cases same : name = other
  · simp [same]
  · simp [same]

def elementaryNames : List String :=
  ["avg", "max", "min", "round", "ceil", "floor", "log10", "ln", "exp", "tan", "cos", "sin"]

theorem isFunctionElementary :
    R.withElementary.isFunction name = true ↔ name ∈ elementaryNames ∨ R.isFunction name = true := by
  simp only [withElementary, isFunctionRegister, elementaryNames, List.mem_cons, List.not_mem_nil, or_false,
    eq_comm (a := name), or_assoc]

theorem isSymbolElementary : R.withElementary.isSymbol c = R.isSymbol c := by
  simp only [withElementary, isSymbolRegister]

theorem operationElementary {p : Precedence} :
    R.withElementary.operation? (.between p) name = R.operation? (.between p) name := by
  simp only [withElementary, register, operationLeading]

theorem enrollFunction (registration : Registration) (h : R.isFunction name = true) :
    (R.enroll registration).isFunction name = true := by
  cases registration with
  | named other f => exact isFunctionRegister.mpr (.inr h)
  | symbol tier symbol f =>
    cases tier with
    | leading => exact isFunctionRegister.mpr (.inr h)
    | between p => exact isFunctionBetween.trans h
  | elementary => exact isFunctionElementary.mpr (.inr h)

theorem standardFunction : standard.isFunction name = true ↔ name ∈ ["abs", "sqrt", "-", "+"] := by
  have bare : empty.isFunction name = false := by simp [empty, isFunction, leading?, operation?, table]
  have chain : standard.isFunction name = ((((empty.register "+" .plusSign).register "-" .minusSign).register "sqrt"
    .squareRoot).register "abs" .absolute).isFunction name := rfl
  simp [chain, isFunctionRegister, bare, eq_comm (a := name)]

theorem standardDelimited : standard.Delimited := ⟨by decide, by decide, by decide⟩

theorem standardCommaFree : standard.CommaFree := by
  intro name known
  have all : ∀ name ∈ ["abs", "sqrt", "-", "+"], ',' ∉ name.toList := by decide
  exact all name (standardFunction.mp known)

theorem elementaryCommaFree (h : R.CommaFree) : R.withElementary.CommaFree := by
  intro name known
  have all : ∀ name ∈ elementaryNames, ',' ∉ name.toList := by decide
  exact (isFunctionElementary.mp known).elim (all name) (h name)

end Formula.Registry
