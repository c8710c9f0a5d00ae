import Formula.Proofs.Reading.Chain
import Formula.Session

/-! The value of a chain of operands, computed in one pass from the left. Symbols between operands are applied in the
order in which the pass meets what they need, and the first failure ends the pass. -/
namespace Formula

def Session.value (s : Session) (bindings : Bindings) (text : String) : Except EvalError Float :=
  (s.parse text).evaluate bindings

/- A running product, and a total whose additive symbol waits for it. -/
structure Tally where
  total : Option (Float × Char)
  product : Float

def Tally.settle (R : Registry) : Tally → Except EvalError Float
  | ⟨none, product⟩ => .ok product
  | ⟨some (total, symbol), product⟩ => R.apply (.between .additive) symbol.toString [total, product]

def Tally.take (s : Session) (bindings : Bindings) (tally : Tally) (link : Link) : Except EvalError Tally :=
  if s.registry.isSymbolIn (.between .multiplicative) link.symbol then do
    let operand ← s.value bindings link.operand
    let product ← s.registry.apply (.between .multiplicative) link.symbol.toString [tally.product, operand]
    return { tally with product := product }
  else do
    let total ← tally.settle s.registry
    let operand ← s.value bindings link.operand
    return ⟨some (total, link.symbol), operand⟩

def Session.onePass (s : Session) (bindings : Bindings) (first : String) (links : List Link) :
    Except EvalError Float := do
  let product ← s.value bindings first
  let tally ← links.foldlM (Tally.take s bindings) ⟨none, product⟩
  tally.settle s.registry

def Sprout.tally (R : Registry) (bindings : Bindings) : Sprout → Except EvalError Tally
  | ⟨none, product⟩ => do
    let y ← product.evaluate R bindings
    return ⟨none, y⟩
  | ⟨some (sum, symbol), product⟩ => do
    let x ← sum.evaluate R bindings
    let y ← product.evaluate R bindings
    return ⟨some (x, symbol), y⟩

namespace Session
open Grammar
variable {R : Registry} {bindings : Bindings} {cs : List Char} {sprout : Sprout} {s : Session} {e : Expr}

theorem evaluateBetween {p : Precedence} {c : Char} (tier : R.isSymbolIn (.between p) c = true) (x y : Expr) :
    (Expr.binary c.toString x y).evaluate R bindings = (do
      let u ← x.evaluate R bindings
      let v ← y.evaluate R bindings
      R.apply (.between p) c.toString [u, v]) := by
  rw [Registry.isSymbolInSome] at tier
  rw [Expr.evaluateBinary, Registry.betweenTierFound.mpr ⟨p, rfl, tier⟩]
  rfl

theorem valueRead {text : String} (read : s.registry.read text = .ok e) :
    s.value bindings text = e.evaluate s.registry bindings := by
  simp [value, parse, evaluate, evaluateWith, read, Except.toOption]

theorem settleTally (grown : Grown R cs sprout) :
    (sprout.tally R bindings >>= fun tally => tally.settle R) = sprout.tree.evaluate R bindings := by
  cases grown with
  | product product =>
    simp only [Sprout.tally, Tally.settle, Sprout.tree, bind_assoc, pure_bind]
    exact bind_pure _
  | sum additive left right =>
    simp only [Sprout.tally, Tally.settle, Sprout.tree, bind_assoc, pure_bind, evaluateBetween additive]

theorem takeTally (grown : Grown s.registry cs sprout) {link : Link} (read : s.registry.read link.operand = .ok e) :
    (sprout.tally s.registry bindings >>= fun tally => tally.take s bindings link) =
      (sprout.grow s.registry link.symbol e).tally s.registry bindings := by
  unfold Tally.take Sprout.grow
  split
  · rename_i multiplicative
    -- A total in front stays as it is, so both cases differ only in what is evaluated before the product.
    cases grown with
    | product product =>
      simp only [Sprout.tally, evaluateBetween multiplicative, valueRead read, bind_assoc, pure_bind]
    | sum additive left right =>
      simp only [Sprout.tally, evaluateBetween multiplicative, valueRead read, bind_assoc, pure_bind]
  · -- The sum that closes here is worth what the pass settles.
    simp only [Sprout.tally, valueRead read, ← settleTally grown, bind_assoc]

theorem foldTally (delimited : s.registry.Delimited) (bindings : Bindings) {links : List Link}
    (fits : ∀ link ∈ links, link.Fits s.registry) (grown : Grown s.registry cs sprout) :
    ∃ last, Grown s.registry (cs ++ links.flatMap Link.text) last ∧
      (sprout.tally s.registry bindings >>= fun tally => links.foldlM (Tally.take s bindings) tally) =
        last.tally s.registry bindings := by
  induction links generalizing cs sprout with
  | nil => exact ⟨sprout, by simpa using grown, bind_pure _⟩
  | cons link links ih =>
    obtain ⟨here, later⟩ := List.forall_mem_cons.mp fits
    obtain ⟨e, read⟩ := here.operand.readable
    obtain ⟨last, whole, rest⟩ := ih later (grown.grow delimited here read)
    refine ⟨last, by simpa using whole, ?_⟩
    rw [← rest, ← takeTally grown read, bind_assoc]
    rfl

theorem linksShown {links : List Link} (fits : ∀ link ∈ links, link.Fits R) :
    ∀ c ∈ links.flatMap Link.text, isBlank c = false := by
  intro c member
  obtain ⟨link, found, inside⟩ := List.mem_flatMap.mp member
  rcases List.mem_cons.mp inside with rfl | inOperand
  · exact (fits link found).shown
  · exact (fits link found).operand.shown c inOperand

theorem evaluatesChain (s : Session) (delimited : s.registry.Delimited) {first : String} {links : List Link}
    (usable : Usable s.registry first) (fits : ∀ link ∈ links, link.Fits s.registry) (bindings : Bindings) :
    (∃ e, s.registry.read (chain first links) = .ok e) ∧
      s.value bindings (chain first links) = s.onePass bindings first links := by
  obtain ⟨e, read⟩ := usable.readable
  have product : Grown s.registry first.toList ⟨none, e⟩ := .product (usableReads delimited usable read)
  obtain ⟨last, grown, tallied⟩ := foldTally delimited bindings fits product
  have reads := grown.reads delimited
  have shown := List.forall_mem_append.mpr ⟨usable.shown, linksShown fits⟩
  have readChain : s.registry.read (chain first links) = .ok last.tree :=
    (readOfList shown).mpr ⟨reads.closed.whole, reads.read⟩
  refine ⟨⟨last.tree, readChain⟩, ?_⟩
  rw [valueRead readChain, ← settleTally grown, ← tallied, onePass, valueRead read]
  simp only [Sprout.tally, bind_assoc, pure_bind]

theorem evaluatesChainStandard : Registry.standard.Delimited ∧ Usable .standard "x" ∧
    ∃ links bindings, (∀ link ∈ links, Link.Fits .standard link) ∧ chain "x" links = "x*abs(y)-sqrt()+z" ∧
      (ofRegistry .standard).value bindings (chain "x" links) = (ofRegistry .standard).onePass bindings "x" links ∧
      (ofRegistry .standard).onePass bindings "x" links =
        .error (.failed "sqrt" (.argumentCount "'sqrt' function" 1 0)) := by
  let links : List Link := [⟨'*', "abs(y)"⟩, ⟨'-', "sqrt()"⟩, ⟨'+', "z"⟩]
  let bindings : Bindings := fun name => if name = "z" then none else some 2
  have word (name : String) (nonempty : name.toList ≠ []) (letters : name.toList.all Registry.standard.isLetter = true)
      (read : Registry.standard.read name = .ok (.term name)) : Usable .standard name :=
    ⟨lettersShown (List.all_eq_true.mp letters), .word ⟨nonempty, List.all_eq_true.mp letters⟩, _, read⟩
  have x := word "x" (by decide +kernel) (by decide +kernel) (by decide +kernel)
  have z := word "z" (by decide +kernel) (by decide +kernel) (by decide +kernel)
  have call (name inner : List Char) (letters : name.all Registry.standard.isLetter = true)
      (whole : balanced inner = true) : Solid .standard (name ++ '(' :: (inner ++ [')'])) :=
    .bracket (lettersPlain (List.all_eq_true.mp letters)) (lettersMute (List.all_eq_true.mp letters)) whole
  have absolute : Usable .standard "abs(y)" := ⟨allShown (by decide +kernel),
    call "abs".toList "y".toList (by decide +kernel) (by decide +kernel), .call "abs" [.term "y"], by decide +kernel⟩
  have root : Usable .standard "sqrt()" := ⟨allShown (by decide +kernel),
    call "sqrt".toList [] (by decide +kernel) (by decide +kernel), .call "sqrt" [], by decide +kernel⟩
  have fits : ∀ link ∈ links, link.Fits .standard := by
    simp only [links, List.forall_mem_cons, List.not_mem_nil, false_implies, implies_true, and_true]
    exact ⟨⟨by decide, by decide, absolute⟩, ⟨by decide, by decide, root⟩, by decide, by decide, z⟩
  have same := (evaluatesChain (ofRegistry .standard) Registry.standardDelimited x fits bindings).2
  have read : Registry.standard.read (chain "x" links) = .ok (.binary "+" (.binary "-" (.binary "*" (.term "x")
    (.call "abs" [.term "y"])) (.call "sqrt" [])) (.term "z")) := by decide +kernel
  have fails : (ofRegistry .standard).value bindings (chain "x" links) =
    .error (.failed "sqrt" (.argumentCount "'sqrt' function" 1 0)) := (valueRead read).trans rfl
  exact ⟨Registry.standardDelimited, x, links, bindings, fits, by decide +kernel, same, same.symm.trans fails⟩

end Session

end Formula
