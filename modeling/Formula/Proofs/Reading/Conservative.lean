import Mathlib.Data.List.Infix
import Formula.Proofs.Reading.Parts
import Formula.Proofs.Reading.Pieces
import Formula.Proofs.Registry.Names

/-! What reading asks a registry. It asks for the precedence of characters of the text, and whether parts of the text are
names in front of operands. More such names turn errors into trees and leave every tree as it was. -/
namespace Formula

/- An outcome that stays as it is. Only where `more` holds may something else take the place of an error. -/
inductive Keeps (more : Prop) {α : Type} : Except SyntaxError α → Except SyntaxError α → Prop where
  | same (outcome : Except SyntaxError α) : Keeps more outcome outcome
  | freed (allowed : more) (err : SyntaxError) (outcome : Except SyntaxError α) : Keeps more (.error err) outcome

namespace Keeps
variable {more : Prop} {α β : Type} {first second : Except SyntaxError α}

theorem bind {f g : α → Except SyntaxError β} (keeps : Keeps more first second)
    (next : ∀ a, first = .ok a → Keeps more (f a) (g a)) : Keeps more (first >>= f) (second >>= g) := by
  cases keeps with
  | same =>
    cases first with
    | ok a => exact next a rfl
    | error err => exact .same _
  | freed allowed err => exact .freed allowed err _

theorem map (f : α → β) (keeps : Keeps more first second) : Keeps more (first.map f) (second.map f) := by
  cases keeps with
  | same => exact .same _
  | freed allowed err => exact .freed allowed err _

theorem behind (k : Nat) (keeps : Keeps more first second) :
    Keeps more (Formula.behind k first) (Formula.behind k second) := by
  cases keeps with
  | same => exact .same _
  | freed allowed err => exact .freed allowed _ _

theorem ok {a : α} (keeps : Keeps more first second) (read : first = .ok a) : second = .ok a := by
  subst read
  cases keeps
  rfl

theorem equal (keeps : Keeps more first second) (strict : ¬ more) : first = second := by
  cases keeps with
  | same => rfl
  | freed allowed => exact absurd allowed strict

end Keeps

theorem findSomeKept {more : Prop} {f g : Cut → Option (Except SyntaxError Shape)} {cuts : List Cut}
    (each : ∀ cut ∈ cuts, Option.Rel (Keeps more) (f cut) (g cut)) :
    Option.Rel (Keeps more) (cuts.findSome? f) (cuts.findSome? g) := by
  induction cuts with
  | nil => exact .none
  | cons cut cuts ih =>
    obtain ⟨here, later⟩ := List.forall_mem_cons.mp each
    rw [List.findSome?_cons, List.findSome?_cons]
    generalize f cut = first, g cut = second at here
    cases here with
    | none => exact ih later
    | some kept => exact .some kept

structure Grows (more : Prop) (R R' : Registry) (cs : List Char) : Prop where
  tiers : ∀ c ∈ cs, ∀ p, R.isSymbolIn (.between p) c = R'.isSymbolIn (.between p) c
  names : ∀ name, name <:+: cs → R.isFunction (String.ofList name) = R'.isFunction (String.ofList name) ∨
    (more ∧ R'.isFunction (String.ofList name) = true)

namespace Grows
variable {more : Prop} {R R' : Registry} {cs part : List Char}

theorem inside (grows : Grows more R R' cs) (within : part <:+: cs) : Grows more R R' part where
  tiers c member := grows.tiers c (within.subset member)
  names name inner := grows.names name (inner.trans within)

theorem symbol (grows : Grows more R R' cs) {c : Char} (member : c ∈ cs) : R.isSymbol c = R'.isSymbol c := by
  simp only [Registry.isSymbol, grows.tiers c member]

theorem refusal {α : Type} {name : List Char} (grows : Grows more R R' cs) (part : name <:+: cs)
    (err : SyntaxError) (outcome : Except SyntaxError α) :
    Keeps more (if R.isFunction (String.ofList name) then outcome else .error err)
      (if R'.isFunction (String.ofList name) then outcome else .error err) := by
  rcases grows.names name part with equal | ⟨allowed, known⟩
  · rw [equal]
    exact .same _
  · rw [if_pos known]
    split
    · exact .same _
    · exact .freed allowed _ _

theorem cutShape {cut : Cut} (grows : Grows more R R' cut.text) :
    Option.Rel (Keeps more) (cut.shape? R) (cut.shape? R') := by
  obtain ⟨before, c, after⟩ := cut
  have here : [c] <:+: before.reverse ++ c :: after := ⟨before.reverse, after, by simp⟩
  cases after with
  | nil => simpa [Cut.shape?] using Option.Rel.some (Keeps.same _)
  | cons d after =>
    cases before with
    | nil => exact .some (grows.refusal here _ _)
    | cons previous before =>
      have same : R.isSymbol previous = R'.isSymbol previous := grows.symbol (by simp [Cut.text])
      simp only [Cut.shape?, same]
      split
      · exact .none
      · exact .some (.same _)

theorem shapeAt (grows : Grows more R R' cs) (p : Precedence) :
    Option.Rel (Keeps more) (shapeAt? R p cs) (shapeAt? R' p cs) := by
  refine findSomeKept fun cut member => ?_
  have text := topCutsText member
  rw [grows.tiers cut.symbol (by simp [← text, Cut.text]) p]
  split
  · exact cutShape (by rwa [text])
  · exact .none

theorem bracketShape {name behindOpen : List Char} (grows : Grows more R R' cs) (part : name <:+: cs) :
    Keeps more (bracketShape R name behindOpen) (bracketShape R' name behindOpen) := by
  unfold Formula.bracketShape
  by_cases nameless : name = []
  · simp only [nameless, ne_eq, not_true_eq_false, false_and, if_false]
    exact .same _
  · simp only [ne_eq, nameless, not_false_eq_true, true_and, ← Bool.not_eq_true, ite_not]
    exact grows.refusal part _ _

theorem atomShape (grows : Grows more R R' cs) : Keeps more (atomShape R cs) (atomShape R' cs) := by
  unfold Formula.atomShape
  split
  · exact .same _
  · exact grows.bracketShape (List.takeWhile_prefix _).isInfix

theorem shape (grows : Grows more R R' cs) : Keeps more (shape R cs) (shape R' cs) := by
  unfold Formula.shape
  split
  · exact .same _
  · have additive := grows.shapeAt .additive
    have multiplicative := grows.shapeAt .multiplicative
    generalize shapeAt? R .additive cs = first, shapeAt? R' .additive cs = second at additive
    generalize shapeAt? R .multiplicative cs = third, shapeAt? R' .multiplicative cs = fourth at multiplicative
    cases additive with
    | some kept => exact kept
    | none =>
      cases multiplicative with
      | some kept => exact kept
      | none => exact grows.atomShape

theorem arguments {pieces : List (List Char)}
    (each : ∀ piece ∈ pieces, Keeps more (readSlice R piece) (readSlice R' piece)) :
    Keeps more (readArguments R pieces) (readArguments R' pieces) := by
  induction pieces with
  | nil =>
    rw [readArgumentsNil, readArgumentsNil]
    exact .same _
  | cons piece pieces ih =>
    obtain ⟨here, later⟩ := List.forall_mem_cons.mp each
    rw [readArgumentsCons, readArgumentsCons]
    exact here.bind fun e _ => ((ih later).behind _).bind fun es _ => .same _

theorem pieceInside {name piece : List Char} {pieces : List (List Char)} (member : piece ∈ pieces) :
    piece <:+: (Shape.call name pieces).text := by
  obtain ⟨former, others, rfl⟩ := List.append_of_mem member
  obtain ⟨front, back, joined, -⟩ := joinCommasAt former piece others
  exact ⟨name ++ '(' :: front, back ++ [')'], by simp [Shape.text, joined]⟩

/- Both registries are asked about the parts that the first one cuts a text into. -/
theorem readSlice (grows : Grows more R R' cs) : Keeps more (readSlice R cs) (readSlice R' cs) := by
  induction size : cs.length using Nat.strongRecOn generalizing cs with
  | ind n ih =>
    subst size
    rw [readSliceShape, readSliceShape]
    refine grows.shape.bind fun s found => ?_
    have text := shapeText found
    have part (front mid back : List Char) (whole : s.text = front ++ mid ++ back) (shorter : mid.length < cs.length) :
        Keeps more (Formula.readSlice R mid) (Formula.readSlice R' mid) :=
      ih mid.length shorter (grows.inside ⟨front, back, whole.symm.trans text⟩) rfl
    cases s with
    | blank => exact .same _
    | word word => exact .same _
    | group inner => exact (part ['('] inner [')'] rfl (shapeGroupShorter found)).behind 1
    | unary c operand =>
      exact ((part [c] operand [] (by simp [Shape.text]) (shapeUnaryShorter found)).behind 1).map _
    | binary c left right =>
      have shorter := shapeBinaryShorter found
      have first := part [] left (c :: right) rfl shorter.1
      have second := part (left ++ [c]) right [] (by simp [Shape.text]) shorter.2
      exact first.bind fun x _ => (second.behind _).bind fun y _ => .same _
    | call name pieces =>
      refine ((arguments fun piece member => ?_).behind _).map _
      have shorter := Nat.lt_trans (pieceShorter member) (shapeCallShorter found)
      exact ih piece.length shorter (grows.inside (text ▸ pieceInside member)) rfl

theorem read {text : String} (grows : Grows more R R' (dropBlanks text.toList)) :
    Keeps more (R.read text) (R'.read text) := by
  unfold Registry.read
  split
  · exact .same _
  · exact grows.readSlice

end Grows

namespace Registry
variable {R : Registry}

theorem enrollFunctions {registrations : List Registration} {name : String} (known : R.isFunction name = true) :
    (R.enrollAll registrations).isFunction name = true := by
  induction registrations generalizing R with
  | nil => exact known
  | cons registration registrations ih => exact ih (enrollFunction registration known)

end Registry

def Registration.Spares (text : String) : Registration → Prop
  | .symbol (.between _) c _ => c ∉ text.toList
  | _ => True

theorem spareTier {R : Registry} {text : String} {registration : Registration} (spares : registration.Spares text)
    {c : Char} (member : c ∈ text.toList) (p : Precedence) :
    (R.enroll registration).isSymbolIn (.between p) c = R.isSymbolIn (.between p) c := by
  rw [Registry.isSymbolInSome, Registry.isSymbolInSome]
  cases registration with
  | named name f => rw [Registry.enroll, Registry.register, Registry.operationLeading]
  | symbol tier symbol f =>
    cases tier with
    | leading => rw [Registry.enroll, Registry.registerSymbol, Registry.operationLeading]
    | between q =>
      have other : symbol ≠ c := by
        rintro rfl
        exact spares member
      simp [Registry.enroll, Registry.registerSymbol, Registry.operationInsert, other]
  | elementary => rw [Registry.enroll, Registry.operationElementary]

theorem spareTiers {R : Registry} {text : String} {registrations : List Registration}
    (spare : ∀ registration ∈ registrations, registration.Spares text) {c : Char} (member : c ∈ text.toList)
    (p : Precedence) : (R.enrollAll registrations).isSymbolIn (.between p) c = R.isSymbolIn (.between p) c := by
  induction registrations generalizing R with
  | nil => rfl
  | cons registration registrations ih =>
    obtain ⟨here, later⟩ := List.forall_mem_cons.mp spare
    exact (ih later).trans (spareTier here member p)

def SameTiers (R R' : Registry) (text : String) : Prop :=
  ∀ c ∈ text.toList, ∀ p, R.isSymbolIn (.between p) c = R'.isSymbolIn (.between p) c

theorem readGrown {R R' : Registry} {text : String} (tiers : SameTiers R R' text)
    (names : ∀ name, R.isFunction name = true → R'.isFunction name = true) {e : Expr} (read : R.read text = .ok e) :
    R'.read text = .ok e := by
  have grows : Grows True R R' (dropBlanks text.toList) := by
    refine ⟨fun c member => tiers c (List.mem_filter.mp member).1, fun name _ => ?_⟩
    cases known : R'.isFunction (String.ofList name) with
    | true => exact .inr ⟨trivial, rfl⟩
    | false =>
      refine .inl (Bool.eq_false_iff.mpr fun held => ?_)
      rw [names _ held] at known
      contradiction
  exact grows.read.ok read

theorem readsConservative (R : Registry) (text : String) :
    (∀ R', SameTiers R R' text →
      ((∀ name, R.isFunction name = true → R'.isFunction name = true) →
        ∀ e, R.read text = .ok e → R'.read text = .ok e) ∧
      ((∀ part, part <:+: dropBlanks text.toList →
        R.isFunction (String.ofList part) = R'.isFunction (String.ofList part)) → R.read text = R'.read text)) ∧
    ∀ registrations, (∀ registration ∈ registrations, Registration.Spares text registration) →
      ∀ e, R.read text = .ok e → (R.enrollAll registrations).read text = .ok e := by
  refine ⟨fun R' tiers => ⟨fun names e read => readGrown tiers names read, fun names => ?_⟩,
    fun registrations spare e read => ?_⟩
  · have grows : Grows False R R' (dropBlanks text.toList) :=
      ⟨fun c member => tiers c (List.mem_filter.mp member).1, fun name inside => .inl (names name inside)⟩
    exact grows.read.equal not_false
  · have tiers : SameTiers R (R.enrollAll registrations) text := fun c member p => (spareTiers spare member p).symm
    exact readGrown tiers (fun name known => Registry.enrollFunctions known) read

/- A name that becomes known matters to no text without it, and where it stands for a variable it stays one. -/
theorem readsConservativeStandard :
    let R' := Registry.standard.register "f" .sum
    let registrations := [.elementary, .named "abs" .greatest, .symbol (.between .multiplicative) '#' .sum]
    let e := .binary "-" (.term "f") (.unary "-" (.call "abs" [.term "b"]))
    SameTiers .standard R' "f--abs(b)" ∧ (∀ name, Registry.standard.isFunction name = true → R'.isFunction name = true) ∧
    Registry.standard.read "f--abs(b)" = .ok e ∧ R'.read "f--abs(b)" = .ok e ∧
    (∀ registration ∈ registrations, Registration.Spares "f--abs(b)" registration) ∧
    (Registry.standard.enrollAll registrations).read "f--abs(b)" = .ok e ∧
    SameTiers .standard R' "g(2)+1" ∧
    (∀ part, part <:+: dropBlanks "g(2)+1".toList →
      Registry.standard.isFunction (String.ofList part) = R'.isFunction (String.ofList part)) ∧
    Registry.standard.read "g(2)+1" = R'.read "g(2)+1" ∧
    Registry.standard.read "g(2)+1" = .error (.unknownFunction "g" 0) := by
  intro R' registrations e
  have tiers (text : String) : SameTiers .standard R' text := fun c _ p => by cases p <;> rfl
  have names : ∀ name, Registry.standard.isFunction name = true → R'.isFunction name = true :=
    fun name known => Registry.isFunctionRegister.mpr (.inr known)
  have read : Registry.standard.read "f--abs(b)" = .ok e := by decide +kernel
  have spare : ∀ registration ∈ registrations, Registration.Spares "f--abs(b)" registration := by
    simp [registrations, Registration.Spares]
  have parts : ∀ part, part <:+: dropBlanks "g(2)+1".toList →
      Registry.standard.isFunction (String.ofList part) = R'.isFunction (String.ofList part) := by
    intro part inside
    have other : "f" ≠ String.ofList part := by
      intro same
      have letters : part = ['f'] := by simpa using (congrArg String.toList same).symm
      have member : 'f' ∈ dropBlanks "g(2)+1".toList := inside.subset (by simp [letters])
      exact absurd member (by decide)
    rw [Bool.eq_iff_iff, Registry.isFunctionRegister]
    simp [other]
  have kept := readsConservative .standard "f--abs(b)"
  have same := ((readsConservative .standard "g(2)+1").1 R' (tiers _)).2 parts
  exact ⟨tiers _, names, read, (kept.1 R' (tiers _)).1 names e read, spare, kept.2 registrations spare e read, tiers _,
    parts, same, by decide +kernel⟩

end Formula
