import Formula.Proofs.Reading.Parts
import Formula.Proofs.Registry.Names
import Formula.Expr

/-! Formulas that can be executed: the registry has an entry for every operation they name. Reading makes no others,
registrations keep them so, and their evaluation fails only for a missing value or inside an operation. -/
namespace Formula
variable {R : Registry}

namespace Registry
variable {name : String}

def InOneTier (R : Registry) (symbol : String) : Prop :=
  ∃ p, (R.operation? (.between p) symbol).isSome ∧ ∀ q, (R.operation? (.between q) symbol).isSome → q = p

theorem inOneTierSome : R.InOneTier name ↔ ∃ p, (R.operation? (.between p) name).isSome = true := by
  constructor
  · rintro ⟨p, known, -⟩
    exact ⟨p, known⟩
  · rintro ⟨p, known⟩
    exact ⟨p, known, fun q other => operationUnique other known⟩

theorem enrollBetween (registration : Registration) (h : R.InOneTier name) :
    (R.enroll registration).InOneTier name := by
  rw [inOneTierSome] at h ⊢
  cases registration with
  | named other f => simpa only [enroll, register, operationLeading] using h
  | symbol tier symbol f =>
    cases tier with
    | leading => simpa only [enroll, registerSymbol, operationLeading] using h
    | between p => exact knownBetween.mpr (.inr h)
  | elementary => simpa only [enroll, operationElementary] using h

theorem symbolInOneTier {c : Char} (symbol : R.isSymbol c = true) : R.InOneTier c.toString := by
  obtain ⟨p, tier⟩ := (R.symbolIffTier c).mp symbol
  rw [isSymbolInSome] at tier
  exact inOneTierSome.mpr ⟨p, tier⟩

end Registry

inductive Executable (R : Registry) : Expr → Prop where
  | term (payload : String) : Executable R (.term payload)
  | binary {symbol : String} {left right : Expr} (tier : R.InOneTier symbol) (first : Executable R left)
      (second : Executable R right) : Executable R (.binary symbol left right)
  | unary {symbol : String} {operand : Expr} (leading : R.isFunction symbol = true) (inner : Executable R operand) :
      Executable R (.unary symbol operand)
  | call {name : String} {arguments : List Expr} (leading : R.isFunction name = true)
      (each : ∀ e ∈ arguments, Executable R e) : Executable R (.call name arguments)

theorem executableEnroll {e : Expr} (registration : Registration) (known : Executable R e) :
    Executable (R.enroll registration) e := by
  induction known with
  | term payload => exact .term payload
  | binary tier _ _ first second => exact .binary (Registry.enrollBetween registration tier) first second
  | unary leading _ inner => exact .unary (Registry.enrollFunction registration leading) inner
  | call leading _ each => exact .call (Registry.enrollFunction registration leading) each

/- What is left to go wrong: a missing value, or a failure of an operation itself. -/
def Supported {α : Type} (outcome : Except EvalError α) : Prop :=
  outcome ≠ .error .noFormula ∧ ∀ kind name, outcome ≠ .error (.unsupported kind name)

namespace Supported
variable {α β : Type}

theorem ofOk (a : α) : Supported (.ok a) := ⟨by simp, by simp⟩

theorem bind {outcome : Except EvalError α} {f : α → Except EvalError β} (first : Supported outcome)
    (next : ∀ a, Supported (f a)) : Supported (outcome >>= f) := by
  cases outcome with
  | ok a => exact next a
  | error failure =>
    refine ⟨fun same => ?_, fun kind name same => ?_⟩
    · cases same
      exact first.1 rfl
    · cases same
      exact first.2 kind name rfl

theorem ofApply {tier : Tier} {name : String} (known : (R.operation? tier name).isSome = true) (args : List Float) :
    Supported (R.apply tier name args) := by
  obtain ⟨f, found⟩ := Option.isSome_iff_exists.mp known
  simp only [Registry.apply, Registry.applyOr, found]
  cases f args with
  | ok value => exact ofOk value
  | error cause => exact ⟨nofun, nofun⟩

theorem ofLeading {name : String} (kind : OperatorKind) (known : R.isFunction name = true) (args : List Float) :
    Supported (R.applyFound kind (R.leadingTier? name) name args) := by
  rw [Registry.leadingTierFound.mpr ⟨rfl, known⟩]
  exact ofApply (by rwa [← Registry.isFunctionSome]) args

theorem ofBetween {name : String} (kind : OperatorKind) (tier : R.InOneTier name) (args : List Float) :
    Supported (R.applyFound kind (R.betweenTier? name) name args) := by
  obtain ⟨p, known⟩ := Registry.inOneTierSome.mp tier
  rw [Registry.betweenTierFound.mpr ⟨p, rfl, known⟩]
  exact ofApply known args

theorem ofAll {bindings : Bindings} {es : List Expr} (each : ∀ e ∈ es, Supported (e.evaluate R bindings)) :
    Supported (Expr.evaluateAll R bindings es) := by
  induction es with
  | nil => exact ofOk []
  | cons e es ih =>
    have rest := ih fun e' member => each e' (List.mem_cons_of_mem e member)
    exact (each e List.mem_cons_self).bind fun x => rest.bind fun xs => ofOk (x :: xs)

end Supported

theorem evaluateSupported {e : Expr} (bindings : Bindings) (known : Executable R e) :
    Supported (e.evaluate R bindings) := by
  induction known with
  | term payload =>
    rw [Expr.evaluateTerm]
    unfold Meaning.evaluate
    split
    · exact .ofOk _
    · exact .ofOk _
    · split
      · exact .ofOk _
      · exact ⟨by simp, by simp⟩
  | binary tier _ _ first second =>
    rw [Expr.evaluateBinary]
    exact first.bind fun x => second.bind fun y => .ofBetween _ tier _
  | unary leading _ inner =>
    rw [Expr.evaluateUnary]
    exact inner.bind fun x => .ofLeading _ leading _
  | call leading _ each =>
    rw [Expr.evaluateCall]
    exact (Supported.ofAll each).bind fun xs => .ofLeading _ leading _

def Shape.Named (R : Registry) : Shape → Prop
  | .binary symbol _ _ => R.isSymbol symbol = true
  | .unary symbol _ => R.isFunction symbol.toString = true
  | .call name _ => R.isFunction (String.ofList name) = true
  | _ => True

theorem cutShapeNamed {cut : Cut} {s : Shape} (symbol : R.isSymbol cut.symbol = true)
    (h : cut.shape? R = some (.ok s)) : s.Named R := by
  obtain ⟨before, c, after⟩ := cut
  cases after with
  | nil => simp [Cut.shape?] at h
  | cons d after =>
    cases before with
    | nil =>
      simp only [Cut.shape?, Option.some.injEq] at h
      split at h
      · rename_i leading
        cases h
        exact leading
      · contradiction
    | cons previous before =>
      simp only [Cut.shape?] at h
      split at h
      · contradiction
      · cases h
        exact symbol

theorem shapeAtNamed {p : Precedence} {cs : List Char} {s : Shape} (h : shapeAt? R p cs = some (.ok s)) :
    s.Named R := by
  obtain ⟨cut, -, found⟩ := List.exists_of_findSome?_eq_some h
  split at found
  · rename_i tier
    exact cutShapeNamed (Registry.symbolOfTier tier) found
  · contradiction

theorem atomShapeNamed {cs : List Char} {s : Shape} (h : atomShape R cs = .ok s) : s.Named R := by
  unfold atomShape wordShape bracketShape at h
  split at h
  · split at h
    · contradiction
    · cases h
      trivial
  · split at h
    · contradiction
    · rename_i known
      split at h
      · contradiction
      · cases h
        split
        · trivial
        · rename_i nonempty
          simpa only [Shape.Named, nonempty, ne_eq, not_false_eq_true, true_and, Bool.not_eq_false] using known
      · contradiction

theorem shapeNamed {cs : List Char} {s : Shape} (h : shape R cs = .ok s) : s.Named R := by
  rcases shapeCases h with ⟨-, blank⟩ | ⟨p, found⟩ | found
  · cases blank
    trivial
  · exact shapeAtNamed found
  · exact atomShapeNamed found

theorem argumentsExecutable {pieces : List (List Char)} {es : List Expr}
    (each : ∀ piece ∈ pieces, ∀ e, readSlice R piece = .ok e → Executable R e)
    (h : readArguments R pieces = .ok es) : ∀ e ∈ es, Executable R e := by
  induction pieces generalizing es with
  | nil =>
    rw [readArgumentsNil] at h
    cases h
    simp
  | cons piece pieces ih =>
    obtain ⟨x, first, xs, rest, rfl⟩ := argumentsTree.mp h
    intro e member
    rcases List.mem_cons.mp member with rfl | later
    · exact each piece List.mem_cons_self _ first
    · exact ih (fun piece' inner => each piece' (List.mem_cons_of_mem piece inner)) rest e later

theorem readSliceExecutable {cs : List Char} {e : Expr} (h : readSlice R cs = .ok e) : Executable R e := by
  induction size : cs.length using Nat.strongRecOn generalizing cs e with
  | _ n ih =>
    subst size
    obtain ⟨s, found, tree⟩ := bindOk.mp ((readSliceShape R cs).symm.trans h)
    have named := shapeNamed found
    cases s with
    | blank =>
      cases tree
      exact .term _
    | word text =>
      cases tree
      exact .term _
    | group inner => exact ih _ (shapeGroupShorter found) (groupTree.mp tree) rfl
    | unary c operand =>
      obtain ⟨x, read, rfl⟩ := unaryTree.mp tree
      exact .unary named (ih _ (shapeUnaryShorter found) read rfl)
    | binary c left right =>
      obtain ⟨x, first, y, second, rfl⟩ := binaryTree.mp tree
      have shorter := shapeBinaryShorter found
      exact .binary (Registry.symbolInOneTier named) (ih _ shorter.1 first rfl) (ih _ shorter.2 second rfl)
    | call name pieces =>
      obtain ⟨es, read, rfl⟩ := callTree.mp tree
      refine .call named (argumentsExecutable (fun piece member e inner => ?_) read)
      exact ih piece.length (Nat.lt_trans (pieceShorter member) (shapeCallShorter found)) inner rfl

theorem readExecutable {text : String} {e : Expr} (h : R.read text = .ok e) : Executable R e := by
  unfold Registry.read at h
  split at h
  · contradiction
  · exact readSliceExecutable h

end Formula
