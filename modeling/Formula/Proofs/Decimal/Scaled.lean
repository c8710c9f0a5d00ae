import Mathlib.Algebra.Order.Field.Basic
import Formula.Proofs.Decimal.Rounding

/-! A decimal numeral is read as the value whose rounding interval it lies in. Short numerals are one exact number times
or over one exact power of ten, longer ones are products and quotients of mantissas of any size, and each of these is
rounded only once. What is too small or too large for any power to be computed is zero or in no interval. -/
namespace Formula

open Float.Model (Format UnpackedFloat totalExponent)
open Float.Model.UnpackedFloat

section
variable {x : Magnitude} {s s' : Sign} {m n d k : Nat} {e f : Int} {q : ℚ}

theorem fractionRepresents {r : Nat} (m : Nat) (less : r < d) :
    Represents (.ofMantissaAndAccuracy m (accuracyOfFraction r d)) (m + r / d) := by
  have divisor : (0 : ℚ) < d := by exact_mod_cast Nat.zero_lt_of_lt less
  have below : (r : ℚ) / d < 1 := by
    rw [div_lt_one divisor]
    exact_mod_cast less
  rw [accuracyOfFraction]
  split
  · rename_i exact
    simp [Represents, ExtendedMantissa.ofMantissaAndAccuracy, exact]
  · rename_i inexact
    have some : (0 : ℚ) < r / d := div_pos (by exact_mod_cast Nat.pos_of_ne_zero inexact) divisor
    have twice : (r : ℚ) / d = (2 * r : Nat) / d / 2 := by
      push_cast
      ring
    cases order : compare (2 * r) d with
    | lt =>
      have half : ((2 * r : Nat) : ℚ) / d < 1 :=
        (div_lt_one divisor).mpr (by exact_mod_cast Nat.compare_eq_lt.mp order)
      exact ⟨by linarith, by linarith⟩
    | eq =>
      have half : ((2 * r : Nat) : ℚ) / d = 1 :=
        (div_eq_one_iff_eq divisor.ne').mpr (by exact_mod_cast Nat.compare_eq_eq.mp order)
      exact congrArg _ (twice.trans (congrArg (· / 2) half))
    | gt =>
      have half : 1 < ((2 * r : Nat) : ℚ) / d :=
        (one_lt_div divisor).mpr (by exact_mod_cast Nat.compare_eq_gt.mp order)
      exact ⟨by linarith, by linarith⟩

theorem quotientExact (n : Nat) (positive : 0 < d) :
    Represents (.ofMantissaAndAccuracy (n / d) (accuracyOfFraction (n % d) d)) (n / d) := by
  have parts : (n : ℚ) / d = (n / d : Nat) + (n % d : Nat) / d := by
    have divisor : (0 : ℚ) < d := by exact_mod_cast positive
    have whole : (n : ℚ) = d * (n / d : Nat) + (n % d : Nat) := by exact_mod_cast (Nat.div_add_mod n d).symm
    nth_rewrite 1 [whole]
    field_simp
  rw [parts]
  exact fractionRepresents _ (Nat.mod_lt n positive)

theorem fineMultiple (full : 2 ^ 52 ≤ m) : e ≤ Format.binary64.targetExponent (totalExponent m e) := by
  have log := (Nat.le_log2 (by omega)).mpr full
  rw [targetPlace, totalPlace]
  omega

theorem mulHeld (canonical : x.Canonical) (hm : 0 < m) (hn : 0 < n) (full : 2 ^ 52 ≤ m * n)
    (held : x.Holds (m * 2 ^ e * (n * 2 ^ f))) :
    mul .binary64 (.finite s m e hm) (.finite s' n f hn) = x.unpacked (s * s') := by
  refine roundsHeld canonical held ?_ (fineMultiple full)
  have product : (m * 2 ^ e * (n * 2 ^ f) : ℚ) / 2 ^ (e + f) = (m * n : Nat) := by
    rw [zpow_add₀ (by norm_num)]
    push_cast
    field_simp
  rw [product]
  rfl

theorem divFine {u : Int} (hm : 0 < m) (hn : 0 < n)
    (least : u = min (e - f) (Format.binary64.targetExponent (totalExponent m e - totalExponent n f))) :
    u ≤ Format.binary64.targetExponent (totalExponent ((m <<< (e - f - u).toNat) / n) u) := by
  by_cases small : u ≤ -1074
  · exact small.trans (le_max_right _ _)
  apply fineMultiple
  rw [targetPlace, totalPlace, totalPlace] at least
  have enough : n.log2 + 53 ≤ m.log2 + (e - f - u).toNat := by omega
  rw [Nat.shiftLeft_eq, Nat.le_div_iff_mul_le hn]
  calc
    2 ^ 52 * n ≤ 2 ^ 52 * 2 ^ (n.log2 + 1) := Nat.mul_le_mul_left _ Nat.lt_log2_self.le
    _ = 2 ^ (n.log2 + 53) := by rw [← pow_add]; congr 1; omega
    _ ≤ 2 ^ (m.log2 + (e - f - u).toNat) := Nat.pow_le_pow_right (by omega) enough
    _ = 2 ^ m.log2 * 2 ^ (e - f - u).toNat := pow_add _ _ _
    _ ≤ m * 2 ^ (e - f - u).toNat := Nat.mul_le_mul_right _ (Nat.log2_self_le hm.ne')

theorem divHeld (canonical : x.Canonical) (hm : 0 < m) (hn : 0 < n)
    (held : x.Holds (m * 2 ^ e / (n * 2 ^ f))) :
    div .binary64 (.finite s m e hm) (.finite s' n f hn) = x.unpacked (s / s') := by
  obtain ⟨u, least⟩ : ∃ u, u = min (e - f)
    (Format.binary64.targetExponent (totalExponent m e - totalExponent n f)) := ⟨_, rfl⟩
  unfold div
  dsimp only [divCore]
  rw [← least]
  refine roundsHeld canonical held ?_ (divFine hm hn least)
  have up : u ≤ e - f := least ▸ min_le_left _ _
  have quotient : (m * 2 ^ e / (n * 2 ^ f) : ℚ) / 2 ^ u = (m <<< (e - f - u).toNat : Nat) / n := by
    have place : e = (e - f - u).toNat + f + u := by omega
    rw [Nat.shiftLeft_eq]
    nth_rewrite 1 [place]
    rw [zpow_add₀ (by norm_num), zpow_add₀ (by norm_num), zpow_natCast]
    push_cast
    field_simp
  rw [quotient]
  exact quotientExact _ hn

end

/- A positive whole number without rounding, its mantissa filled. -/
def Exactly (n : Nat) (a : UnpackedFloat) : Prop :=
  ∃ (m : Nat) (e : Int) (filled : 0 < m), a = .finite .positive m e filled ∧ 2 ^ 52 ≤ m ∧
    m * 2 ^ e.toNat = n * 2 ^ (-e).toNat

section
variable {x : Magnitude} {m n k : Nat} {e : Int}

theorem exactValue (exact : m * 2 ^ e.toNat = n * 2 ^ (-e).toNat) : (m * 2 ^ e : ℚ) = n := by
  have cast : (m * 2 ^ e.toNat : ℚ) = n * 2 ^ (-e).toNat := by exact_mod_cast exact
  have place : e = e.toNat - (-e).toNat := by omega
  nth_rewrite 1 [place]
  rw [zpow_sub₀ (by norm_num), zpow_natCast, zpow_natCast, ← mul_div_assoc, cast]
  field_simp

def Magnitude.natural (n : Nat) : Magnitude := ⟨n * 2 ^ (52 - n.log2), n.log2 - 52⟩

theorem naturalCanonical (positive : 0 < n) (small : n < 2 ^ 53) :
    (Magnitude.natural n).Canonical ∧ 2 ^ 52 ≤ n * 2 ^ (52 - n.log2) := by
  have log : n.log2 < 53 := (Nat.log2_lt positive.ne').mpr small
  have full : 2 ^ 52 ≤ n * 2 ^ (52 - n.log2) := by
    calc
      2 ^ 52 = 2 ^ n.log2 * 2 ^ (52 - n.log2) := by rw [← pow_add]; congr 1; omega
      _ ≤ n * 2 ^ (52 - n.log2) := Nat.mul_le_mul_right _ (Nat.log2_self_le positive.ne')
  have bounded : n * 2 ^ (52 - n.log2) < 2 ^ 53 := by
    calc
      n * 2 ^ (52 - n.log2) < 2 ^ (n.log2 + 1) * 2 ^ (52 - n.log2) :=
        Nat.mul_lt_mul_of_pos_right Nat.lt_log2_self (by positivity)
      _ = 2 ^ 53 := by rw [← pow_add]; congr 1; omega
  refine ⟨⟨bounded, ?_, ?_, fun _ => full⟩, full⟩ <;> simp only [Magnitude.natural] <;> omega

theorem naturalRounds (positive : 0 < n) (small : n < 2 ^ 53) :
    UnpackedFloat.ofNat .binary64 n = (Magnitude.natural n).unpacked .positive := by
  obtain ⟨canonical, -⟩ := naturalCanonical positive small
  have sign : compare (n : Int) 0 = .gt := Int.compare_eq_gt.mpr (by omega)
  have log : n.log2 < 53 := (Nat.log2_lt positive.ne').mpr small
  have shift : (0 - Format.binary64.targetExponent (totalExponent n 0)).toNat = 52 - n.log2 := by
    rw [targetPlace, totalPlace]
    omega
  have kept := keepsExact canonical.small canonical.lower
  rw [UnpackedFloat.ofNat, UnpackedFloat.ofInt, UnpackedFloat.normalize, sign]
  simp only [UnpackedFloat.round, decreaseExponent, Int.toNat_natCast, shift, Nat.shiftLeft_eq]
  have place : (0 : Int) - (52 - n.log2 : Nat) = (Magnitude.natural n).exponent := by
    simp only [Magnitude.natural]
    omega
  rw [place]
  exact roundsShifted kept kept rfl

theorem naturalExactly (positive : 0 < n) (small : n < 2 ^ 53) : Exactly n n.toUInt64.toFloat.toModel.unpack := by
  obtain ⟨canonical, full⟩ := naturalCanonical positive small
  have size : UInt64.size = 2 ^ 64 := rfl
  have same : n.toUInt64.toNat = n := UInt64.toNat_ofNat_of_lt (by omega)
  have unfolded : n.toUInt64.toFloat.toModel.unpack =
      unpack .binary64 (pack .binary64 (UnpackedFloat.ofNat .binary64 n.toUInt64.toNat)) := rfl
  have filled : 0 < (Magnitude.natural n).mantissa := by
    simp only [Magnitude.natural]
    omega
  have log : n.log2 < 53 := (Nat.log2_lt positive.ne').mpr small
  rw [unfolded, same, naturalRounds positive small, unpackMagnitude canonical, Magnitude.unpackedFilled _ filled]
  refine ⟨_, _, filled, rfl, full, ?_⟩
  have up : (n.log2 - 52 : Int).toNat = 0 := by omega
  have down : (-(n.log2 - 52 : Int)).toNat = 52 - n.log2 := by omega
  simp only [Magnitude.natural, up, down, pow_zero, mul_one]

theorem powerTable : ∀ k : Fin Float.exactlyRepresentablePowersOfTen.size,
    let p := Float.exactlyRepresentablePowersOfTen[k]
    p.isNaN = false ∧ p.isInf = false ∧ signBit p = false ∧ 2 ^ 52 ≤ (magnitude p).mantissa ∧
      (magnitude p).mantissa * 2 ^ (magnitude p).exponent.toNat =
        10 ^ k.val * 2 ^ (-(magnitude p).exponent).toNat := by decide +kernel

theorem powerExactly (small : k < Float.exactlyRepresentablePowersOfTen.size) :
    Exactly (10 ^ k) Float.exactlyRepresentablePowersOfTen[k].toModel.unpack := by
  obtain ⟨number, bounded, sign, full, value⟩ := powerTable ⟨k, small⟩
  have filled := (by omega : 0 < 2 ^ 52).trans_le full
  obtain ⟨unpacked, -⟩ := finiteCanonical number bounded
  rw [sign, Magnitude.unpackedFilled _ filled] at unpacked
  exact ⟨_, _, filled, unpacked, full, value⟩

end

def Magnitude.float (x : Magnitude) : Float := .ofModel (.pack (x.unpacked .positive))

section
variable {x : Magnitude} {a b : Float} {n d k : Nat}

theorem exactQuotient (canonical : x.Canonical) (ha : Exactly n a.toModel.unpack) (hb : Exactly d b.toModel.unpack)
    (held : x.Holds (n / d)) : a / b = x.float := by
  obtain ⟨m, e, hm, first, -, value⟩ := ha
  obtain ⟨m', f, hm', second, -, value'⟩ := hb
  have unfolded : a / b = .ofModel (.pack (div .binary64 a.toModel.unpack b.toModel.unpack)) := rfl
  rw [← exactValue value, ← exactValue value'] at held
  rw [unfolded, first, second, divHeld canonical hm hm' held]
  rfl

theorem exactProduct (canonical : x.Canonical) (ha : Exactly n a.toModel.unpack) (hb : Exactly d b.toModel.unpack)
    (held : x.Holds (n * d)) : a * b = x.float := by
  obtain ⟨m, e, hm, first, full, value⟩ := ha
  obtain ⟨m', f, hm', second, -, value'⟩ := hb
  have unfolded : a * b = .ofModel (.pack (mul .binary64 a.toModel.unpack b.toModel.unpack)) := rfl
  rw [← exactValue value, ← exactValue value'] at held
  rw [unfolded, first, second, mulHeld canonical hm hm' (full.trans (Nat.le_mul_of_pos_right m hm')) held]
  rfl

theorem scientificHeld {e : Int} (canonical : x.Canonical) (positive : 0 < n) (held : x.Holds (n * 10 ^ e))
    (least : -(2048 + n.log2) ≤ e) (most : e ≤ 2048) :
    UnpackedFloat.ofScientific .binary64 n e = x.unpacked .positive := by
  have large : ¬e > 2 ^ Format.binary64.exponentBits := not_lt.mpr most
  have small : ¬e < -(2 ^ Format.binary64.exponentBits + n.log2 : Int) := not_lt.mpr least
  rw [UnpackedFloat.ofScientific, dif_neg positive.ne', if_neg large, if_neg small]
  by_cases whole : 0 ≤ e
  · rw [if_pos whole]
    have power : (10 : ℚ) ^ e = (10 ^ e.toNat : Nat) * 2 ^ (0 : Int) := by
      rw [zpow_zero, mul_one, Nat.cast_pow, ← zpow_natCast, Int.toNat_of_nonneg whole]
      rfl
    have shifted : (n : ℚ) =
        (n <<< Format.binary64.mantissaBits : Nat) * 2 ^ (-Format.binary64.mantissaBits : Int) := by
      rw [Nat.shiftLeft_eq, zpow_neg, zpow_natCast]
      push_cast
      field_simp
    rw [power, shifted] at held
    refine mulHeld canonical _ _ ?_ held
    have full : 2 ^ 53 ≤ n <<< 53 := by
      rw [Nat.shiftLeft_eq]
      exact Nat.le_mul_of_pos_left _ positive
    calc
      2 ^ 52 ≤ n <<< 53 := by omega
      _ ≤ n <<< 53 * 10 ^ e.toNat := Nat.le_mul_of_pos_right _ (by positivity)
  · rw [if_neg whole]
    have power : (n : ℚ) * 10 ^ e = n * 2 ^ (0 : Int) / ((10 ^ (-e).toNat : Nat) * 2 ^ (0 : Int)) := by
      have place : e = -((-e).toNat : Int) := by omega
      nth_rewrite 1 [place]
      rw [zpow_neg, zpow_natCast, zpow_zero, mul_one, mul_one, Nat.cast_pow, div_eq_mul_inv]
      rfl
    rw [power] at held
    exact divHeld canonical _ _ held

theorem fractionHeld (canonical : x.Canonical) (positive : 0 < n) (held : x.Holds (n / 10 ^ k))
    (bounded : k ≤ 2048 + n.log2) : Float.ofScientific n true k = x.float := by
  rw [Float.ofScientific]
  split
  · rename_i small
    refine exactQuotient canonical (naturalExactly positive small.1) (powerExactly (Nat.lt_succ_of_le small.2)) ?_
    exact_mod_cast held
  · have power : (n / 10 ^ k : ℚ) = n * 10 ^ (-k : Int) := by
      rw [zpow_neg, zpow_natCast, div_eq_mul_inv]
    rw [power] at held
    have read := scientificHeld canonical positive held (by omega) (by omega)
    rw [if_pos rfl, Int.negOfNat_eq]
    exact congrArg (Float.ofModel <| .pack ·) read

theorem multipleHeld (canonical : x.Canonical) (positive : 0 < n) (held : x.Holds (n * 10 ^ k))
    (bounded : k ≤ 2048) : Float.ofScientific n false k = x.float := by
  rw [Float.ofScientific]
  split
  · rename_i small
    refine exactProduct canonical (naturalExactly positive small.1) (powerExactly (Nat.lt_succ_of_le small.2)) ?_
    exact_mod_cast held
  · rw [← zpow_natCast] at held
    have read := scientificHeld canonical positive held (by omega) (by omega)
    exact congrArg (Float.ofModel <| .pack ·) read

theorem tinyFloat (canonical : x.Canonical) {q : ℚ} (held : x.Holds q) (tiny : q < 2 ^ (-1075 : Int)) :
    x.float = 0.0 := by
  have empty : ¬0 < x.mantissa := by
    intro filled
    have least : ((1 : Nat) : ℚ) ≤ x.mantissa := by exact_mod_cast filled
    have reach : (2 : ℚ) ^ (-1 + x.exponent) ≤ q := by
      rw [zpow_add₀ (by norm_num), ← le_div_iff₀ (by positivity)]
      have nearest := held.nearest.below
      push_cast at least
      norm_num
      linarith
    have := placeLess reach tiny
    have := canonical.lower
    omega
  rw [Magnitude.float, Magnitude.unpackedEmpty _ empty]
  rfl

theorem digitsBelow (n : Nat) : n < 10 ^ (Nat.toDigits 10 n).length :=
  (Nat.length_toDigits_le_iff (by decide) (List.length_pos_iff.mpr Nat.toDigits_ne_nil)).mp (Nat.le_refl _)

theorem digitsAbove (positive : 0 < n) : 10 ^ ((Nat.toDigits 10 n).length - 1) ≤ n := by
  by_contra less
  by_cases single : (Nat.toDigits 10 n).length - 1 = 0
  · rw [single, pow_zero] at less
    omega
  · have shorter := (Nat.length_toDigits_le_iff (by decide) (Nat.pos_of_ne_zero single)).mpr (not_le.mp less)
    omega

theorem tenEight (k : Nat) : (2 : ℚ) ^ (3 * k : Int) ≤ 10 ^ (k : Int) := by
  rw [zpow_mul, zpow_natCast, zpow_natCast]
  gcongr
  norm_num

theorem scaledSmall {e : Int} (small : e + (Nat.toDigits 10 n).length < -400) :
    (n * 10 ^ e : ℚ) < 2 ^ (-1075 : Int) := by
  calc
    (n * 10 ^ e : ℚ) < 10 ^ (Nat.toDigits 10 n).length * 10 ^ e := by
      gcongr
      exact_mod_cast digitsBelow n
    _ = 10 ^ (e + (Nat.toDigits 10 n).length) := by
      rw [add_comm, zpow_add₀ (by norm_num), zpow_natCast]
    _ < 10 ^ (-400 : Int) := zpow_lt_zpow_right₀ (by norm_num) small
    _ = (10 ^ ((400 : Nat) : Int))⁻¹ := zpow_neg _ _
    _ ≤ (2 ^ (3 * (400 : Nat) : Int))⁻¹ := inv_anti₀ (by positivity) (tenEight 400)
    _ = 2 ^ (-(3 * (400 : Nat)) : Int) := (zpow_neg _ _).symm
    _ ≤ 2 ^ (-1075 : Int) := zpow_le_zpow_right₀ (by norm_num) (by omega)

theorem scaledLarge {e : Int} (positive : 0 < n) (large : 400 < e + (Nat.toDigits 10 n).length) :
    (2 : ℚ) ^ (1200 : Int) ≤ n * 10 ^ e := by
  have some : 0 < (Nat.toDigits 10 n).length := List.length_pos_iff.mpr Nat.toDigits_ne_nil
  calc
    (2 : ℚ) ^ (1200 : Int) ≤ 10 ^ ((400 : Nat) : Int) := tenEight 400
    _ ≤ 10 ^ (((Nat.toDigits 10 n).length - 1 : Nat) + e) := zpow_le_zpow_right₀ (by norm_num) (by omega)
    _ = 10 ^ ((Nat.toDigits 10 n).length - 1) * 10 ^ e := by rw [zpow_add₀ (by norm_num), zpow_natCast]
    _ ≤ n * 10 ^ e := by
      gcongr
      exact_mod_cast digitsAbove positive

theorem scaledHeld {e : Int} (canonical : x.Canonical) (held : x.Holds (n * 10 ^ e)) : scaledValue n e = x.float := by
  rw [scaledValue]
  by_cases zero : n = 0
  · rw [if_pos (.inl zero)]
    refine (tinyFloat canonical held ?_).symm
    rw [zero, Nat.cast_zero, zero_mul]
    positivity
  have positive : 0 < n := Nat.pos_of_ne_zero zero
  split
  · rename_i small
    exact (tinyFloat canonical held (scaledSmall (small.resolve_left zero))).symm
  rename_i least
  split
  · rename_i large
    have far := placeLess (scaledLarge positive large) (held.above canonical)
    have upper := canonical.upper
    omega
  rename_i most
  have log : (Nat.toDigits 10 n).length ≤ n.log2 + 1 := by
    rw [Nat.length_toDigits_le_iff (by decide) (by omega)]
    exact Nat.lt_log2_self.trans_le (Nat.pow_le_pow_left (by decide) _)
  by_cases negative : e < 0
  · have place : e = -(e.natAbs : Int) := by omega
    rw [place, zpow_neg, zpow_natCast, ← div_eq_mul_inv] at held
    rw [decide_eq_true negative]
    exact fractionHeld canonical positive held (by omega)
  · have place : e = (e.natAbs : Int) := by omega
    rw [place, zpow_natCast] at held
    rw [decide_eq_false negative]
    exact multipleHeld canonical positive held (by omega)

end

end Formula
