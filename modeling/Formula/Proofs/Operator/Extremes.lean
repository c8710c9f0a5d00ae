import Mathlib.Data.Prod.Lex
import Mathlib.Order.Compare
import Formula.Proofs.Decimal.Binary
import Formula.Operator

/-! The least and the greatest of some values. Numbers and infinities stand in one line, in which only the two zeros share
a place, and NaN stands nowhere. Among values that are not all NaN the two operations find two of these values, and no
number is less or greater. NaN never comes out, and the order of the values counts for no more than the sign of zero. -/
namespace Formula

open Float.Model (Format UnpackedFloat)
open Float.Model.UnpackedFloat (Sign)

/- The side of zero and whether the value is infinite come first, then the exponent, then the mantissa. -/
def rank : UnpackedFloat → Int ×ₗ Int ×ₗ Int
  | .infinity s => toLex (s.apply 2, toLex (0, 0))
  | .finite s mantissa exponent _ => toLex (s.apply 1, toLex (s.apply exponent, s.apply mantissa))
  | .zero _ => toLex (0, toLex (0, 0))
  | .notANumber => toLex (0, toLex (0, 0))

theorem compareCast (m n : Nat) : compare (m : Int) n = compare m n := by
  simp [Int.compare_eq_ite_lt, Nat.compare_eq_ite_lt]

theorem compareNegated (m n : Int) : compare (-m) (-n) = (compare m n).swap := by
  rw [Std.OrientedOrd.eq_swap]
  simp only [Int.compare_eq_ite_lt, Int.neg_lt_neg_iff]

theorem compareRanked (side e f m n : Int) :
    compare (toLex (side, toLex (e, m))) (toLex (side, toLex (f, n))) = (compare e f).then (compare m n) := by
  simp [Prod.Lex.compare_def, compareLex, compareOn]

/- Only two finite values on one side of zero need a look at their exponents. -/
theorem compareRank {a b : UnpackedFloat} (ha : a.isNaN = false) (hb : b.isNaN = false) :
    a.compare b = some (compare (rank a) (rank b)) := by
  rcases a with (_ | _) | _ | _ | ⟨_ | _, m, e, _⟩ <;> rcases b with (_ | _) | _ | _ | ⟨_ | _, n, f, _⟩ <;>
    first | rfl | contradiction | skip
  · change some ((compare e f).then (compare m n)).swap =
      some (compare (toLex (-1, toLex (-e, -(m : Int)))) (toLex (-1, toLex (-f, -(n : Int)))))
    rw [compareRanked, compareNegated, compareNegated, compareCast, Ordering.swap_then]
  · change some ((compare e f).then (compare m n)) =
      some (compare (toLex (1, toLex (e, (m : Int)))) (toLex (1, toLex (f, (n : Int)))))
    rw [compareRanked, compareCast]

def standing (x : Float) : Int ×ₗ Int ×ₗ Int := rank x.toModel.unpack

section
variable {x y : Float}

theorem lessCompare : x < y ↔ x.toModel.unpack.compare y.toModel.unpack = some .lt := by
  have unfolded : x < y ↔ (x.toModel.unpack.compare y.toModel.unpack == some .lt) = true := decide_eq_true_iff
  rw [unfolded, beq_iff_eq]

theorem leCompare : x ≤ y ↔ (x.toModel.unpack.compare y.toModel.unpack).any (·.isLE) = true := decide_eq_true_iff

theorem sameCompare : (x == y) = true ↔ x.toModel.unpack.compare y.toModel.unpack = some .eq := by
  have unfolded : (x == y) = (x.toModel.unpack.compare y.toModel.unpack == some .eq) := rfl
  rw [unfolded, beq_iff_eq]

theorem lessStanding (hx : x.isNaN = false) (hy : y.isNaN = false) : x < y ↔ standing x < standing y := by
  rw [lessCompare, compareRank hx hy, Option.some.injEq, compare_lt_iff_lt]
  rfl

theorem leStanding (hx : x.isNaN = false) (hy : y.isNaN = false) : x ≤ y ↔ standing x ≤ standing y := by
  rw [leCompare, compareRank hx hy, Option.any_some, Ordering.isLE_iff_ne_gt]
  exact compare_le_iff_le

theorem sameStanding (hx : x.isNaN = false) (hy : y.isNaN = false) : (x == y) = true ↔ standing x = standing y := by
  rw [sameCompare, compareRank hx hy, Option.some.injEq, compare_eq_iff_eq]
  rfl

end

theorem rankBetween (a : UnpackedFloat) :
    rank (.infinity .negative) ≤ rank a ∧ rank a ≤ rank (.infinity .positive) := by
  rcases a with (_ | _) | _ | _ | ⟨_ | _, m, e, _⟩ <;> dsimp only [rank, Sign.apply] <;>
    simp [Prod.Lex.toLex_le_toLex]

theorem rankInfinite {a : UnpackedFloat} {s : Sign} (number : a.isNaN = false)
    (same : rank a = rank (.infinity s)) : a = .infinity s := by
  rcases a with (_ | _) | _ | _ | ⟨_ | _, m, e, _⟩ <;> cases s <;> dsimp only [rank, Sign.apply] at same <;>
    first | rfl | contradiction | simp at same

def positiveInfinity : Float := 1.0 / 0.0

def negativeInfinity : Float := -1.0 / 0.0

theorem standingInfinite {x : Float} {s : Sign} {infinity : Float} (number : x.isNaN = false)
    (infinite : infinity.toModel.unpack = .infinity s) (same : standing x = standing infinity) : x = infinity := by
  have unpacked : x.toModel.unpack = .infinity s := by
    refine rankInfinite number ?_
    rw [← infinite]
    exact same
  exact unpackInjective (unpacked.trans infinite.symm)

section
variable {K : Type} [LinearOrder K] {key : Float → K} {start x m m' : Float} {xs ys : List Float}

/- Of two values the one whose key is less. NaN gives way to the other one, and of equals the left one stays. -/
def firstBy (key : Float → K) (x y : Float) : Float :=
  if x.isNaN then y else if y.isNaN then x else if key y < key x then y else x

structure Chosen (key : Float → K) (start : Float) (xs : List Float) (m : Float) : Prop where
  number : m.isNaN = false
  source : m = start ∨ m ∈ xs
  begun : key m ≤ key start
  bound : ∀ x ∈ xs, x.isNaN = false → key m ≤ key x

theorem firstByChosen (key : Float → K) (number : start.isNaN = false) (x : Float) :
    Chosen key start [x] (firstBy key start x) := by
  have notNan : ¬start.isNaN = true := by
    rw [number]
    exact Bool.false_ne_true
  rw [firstBy, if_neg notNan]
  split
  · rename_i nan
    refine ⟨number, .inl rfl, le_refl _, fun y member other => ?_⟩
    obtain rfl := List.mem_singleton.mp member
    rw [nan] at other
    contradiction
  · rename_i other
    split
    · rename_i less
      exact ⟨by simpa using other, .inr (by simp), less.le, by simp⟩
    · rename_i before
      exact ⟨number, .inl rfl, le_refl _, by simpa using fun _ => not_lt.mp before⟩

theorem foldChosen (number : start.isNaN = false) (xs : List Float) :
    Chosen key start xs (xs.foldl (firstBy key) start) := by
  induction xs generalizing start with
  | nil => exact ⟨number, .inl rfl, le_refl _, by simp⟩
  | cons x xs ih =>
    have first := firstByChosen key number x
    have further := ih first.number
    refine ⟨further.number, ?_, further.begun.trans first.begun, fun y member other => ?_⟩
    · rcases further.source with same | later
      · rw [List.foldl_cons, same, List.mem_cons, ← or_assoc]
        exact .inl (by simpa using first.source)
      · exact .inr (List.mem_cons_of_mem x later)
    · rcases List.mem_cons.mp member with rfl | later
      · exact further.begun.trans (first.bound y (by simp) other)
      · exact further.bound y later other

theorem Chosen.member (chosen : Chosen key start xs m) (last : ∀ x, key x ≤ key start)
    (alone : ∀ x, x.isNaN = false → key x = key start → x = start) :
    m ∈ xs ↔ ∃ x ∈ xs, x.isNaN = false := by
  constructor
  · exact fun member => ⟨m, member, chosen.number⟩
  · rintro ⟨x, member, number⟩
    rcases chosen.source with rfl | inside
    · have same : key x = key m := le_antisymm (last x) (chosen.bound x member number)
      rwa [← alone x number same]
    · exact inside

theorem Chosen.none (chosen : Chosen key start xs m) (nan : ∀ x ∈ xs, x.isNaN = true) : m = start := by
  rcases chosen.source with same | inside
  · exact same
  · have number := chosen.number
    rw [nan m inside] at number
    contradiction

theorem Chosen.before (chosen : Chosen key start xs m) (other : Chosen key start ys m') (part : ∀ x ∈ ys, x ∈ xs) :
    key m ≤ key m' := by
  rcases other.source with rfl | inside
  · exact chosen.begun
  · exact chosen.bound m' (part m' inside) other.number

theorem Chosen.permuted (chosen : Chosen key start xs m) (other : Chosen key start ys m') (same : ys.Perm xs) :
    key m' = key m :=
  le_antisymm (other.before chosen fun _ member => same.mem_iff.mpr member)
    (chosen.before other fun _ member => same.mem_iff.mp member)

end

def standingDown (x : Float) : (Int ×ₗ Int ×ₗ Int)ᵒᵈ := .toDual (standing x)

theorem lesserFirst : lesser = firstBy standing := by
  funext x y
  unfold lesser firstBy
  split
  · rfl
  · split
    · rfl
    · rename_i hx hy
      simp only [lessStanding (by simpa using hy) (by simpa using hx)]

theorem greaterFirst : greater = firstBy standingDown := by
  funext x y
  unfold greater firstBy
  split
  · rfl
  · split
    · rfl
    · rename_i hx hy
      simp only [lessStanding (by simpa using hx) (by simpa using hy), standingDown, OrderDual.toDual_lt_toDual]

/- What the two operations return. They begin with an infinity each, and keep it where they meet no number. -/
structure Extremes (xs : List Float) (low high : Float) : Prop where
  least : Operation.least xs = .ok low
  greatest : Operation.greatest xs = .ok high
  numbers : low.isNaN = false ∧ high.isNaN = false
  lowMember : low ∈ xs ↔ ∃ x ∈ xs, x.isNaN = false
  highMember : high ∈ xs ↔ ∃ x ∈ xs, x.isNaN = false
  bounds : ∀ x ∈ xs, x.isNaN = false → low ≤ x ∧ x ≤ high
  numberless : (∀ x ∈ xs, x.isNaN = true) → low = positiveInfinity ∧ high = negativeInfinity

section
variable {xs ys : List Float}

def lowest (xs : List Float) : Float := xs.foldl lesser positiveInfinity

def highest (xs : List Float) : Float := xs.foldl greater negativeInfinity

theorem lowestChosen (xs : List Float) : Chosen standing positiveInfinity xs (lowest xs) := by
  rw [lowest, lesserFirst]
  exact foldChosen (by decide) xs

theorem highestChosen (xs : List Float) : Chosen standingDown negativeInfinity xs (highest xs) := by
  rw [highest, greaterFirst]
  exact foldChosen (by decide) xs

theorem extremesOperations (nonempty : xs ≠ []) :
    Operation.least xs = .ok (lowest xs) ∧ Operation.greatest xs = .ok (highest xs) := by
  cases xs with
  | nil => contradiction
  | cons x xs => exact ⟨rfl, rfl⟩

theorem extremesChosen (nonempty : xs ≠ []) : Extremes xs (lowest xs) (highest xs) := by
  obtain ⟨least, greatest⟩ := extremesOperations nonempty
  have low := lowestChosen xs
  have high := highestChosen xs
  refine ⟨least, greatest, ⟨low.number, high.number⟩, ?_, ?_, fun x member number => ⟨?_, ?_⟩, fun nan => ?_⟩
  · refine low.member (fun x => (rankBetween x.toModel.unpack).2) fun x number same => ?_
    exact standingInfinite (s := .positive) number rfl same
  · refine high.member (fun x => (rankBetween x.toModel.unpack).1) fun x number same => ?_
    exact standingInfinite (s := .negative) number rfl (congrArg OrderDual.ofDual same)
  · exact (leStanding low.number number).mpr (low.bound x member number)
  · exact (leStanding number high.number).mpr (high.bound x member number)
  · exact ⟨low.none nan, high.none nan⟩

theorem extremesFound (xs : List Float) (nonempty : xs ≠ []) : ∃ low high, Extremes xs low high ∧
    ∀ ys, ys.Perm xs → ∃ low' high', Extremes ys low' high' ∧ (low' == low) = true ∧ (high' == high) = true := by
  refine ⟨lowest xs, highest xs, extremesChosen nonempty, fun ys same => ?_⟩
  have filled : ys ≠ [] := by
    rintro rfl
    exact nonempty same.nil_eq.symm
  refine ⟨lowest ys, highest ys, extremesChosen filled, ?_, ?_⟩
  · have low := lowestChosen xs
    have low' := lowestChosen ys
    exact (sameStanding low'.number low.number).mpr (low.permuted low' same)
  · have high := highestChosen xs
    have high' := highestChosen ys
    exact (sameStanding high'.number high.number).mpr (congrArg OrderDual.ofDual (high.permuted high' same))

theorem extremesFoundZeros : ([0.0, 0.0 / 0.0, -0.0] : List Float) ≠ [] ∧
    ([-0.0, 0.0, 0.0 / 0.0] : List Float).Perm [0.0, 0.0 / 0.0, -0.0] ∧
    ∃ low low', Operation.least [0.0, 0.0 / 0.0, -0.0] = .ok low ∧ low ∈ ([0.0, 0.0 / 0.0, -0.0] : List Float) ∧
      Operation.least [-0.0, 0.0, 0.0 / 0.0] = .ok low' ∧ (low' == low) = true := by
  have nonempty : ([0.0, 0.0 / 0.0, -0.0] : List Float) ≠ [] := by simp
  have permuted : ([-0.0, 0.0, 0.0 / 0.0] : List Float).Perm [0.0, 0.0 / 0.0, -0.0] :=
    (List.perm_append_singleton (-0.0) [0.0, 0.0 / 0.0]).symm
  obtain ⟨low, high, found, others⟩ := extremesFound [0.0, 0.0 / 0.0, -0.0] nonempty
  obtain ⟨low', high', found', same, -⟩ := others _ permuted
  have number : ∃ x ∈ ([0.0, 0.0 / 0.0, -0.0] : List Float), x.isNaN = false := ⟨0.0, by simp, by decide⟩
  exact ⟨nonempty, permuted, low, low', found.least, found.lowMember.mpr number, found'.least, same⟩

/- A single NaN: what is returned is none of the values. -/
theorem extremesNumberless : Operation.least [0.0 / 0.0] = .ok positiveInfinity ∧
    Operation.greatest [0.0 / 0.0] = .ok negativeInfinity ∧
    positiveInfinity ∉ ([0.0 / 0.0] : List Float) ∧ negativeInfinity ∉ ([0.0 / 0.0] : List Float) := by
  have nan : ∀ x ∈ ([0.0 / 0.0] : List Float), x.isNaN = true := by
    intro x member
    rw [List.mem_singleton.mp member]
    decide
  refine ⟨rfl, rfl, fun member => ?_, fun member => ?_⟩
  · have number : positiveInfinity.isNaN = false := by decide
    rw [nan _ member] at number
    contradiction
  · have number : negativeInfinity.isNaN = false := by decide
    rw [nan _ member] at number
    contradiction

end

end Formula
