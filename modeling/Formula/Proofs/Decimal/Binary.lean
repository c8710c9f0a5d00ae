import Mathlib.Data.Nat.Bitwise
import Mathlib.Tactic.Ring
import Formula.Decimal

/-! The fields of a binary64 value. A value is its sign and its magnitude, and the fields hold exactly the magnitudes
whose mantissa fills 53 bits or stands at the least exponent. -/
namespace Formula

open Float.Model (Format UnpackedFloat)
open Float.Model.UnpackedFloat (Sign packComponents pack unpack unpackExponent unpackMantissa unpackSign)

abbrev Bits := BitVec Format.binary64.numBits

def signOf (negative : Bool) : Sign := if negative then .negative else .positive

structure Magnitude.Canonical (x : Magnitude) : Prop where
  small : x.mantissa < 2 ^ 53
  lower : -1074 ≤ x.exponent
  upper : x.exponent ≤ 971
  normal : -1074 < x.exponent → 2 ^ 52 ≤ x.mantissa

def Magnitude.unpacked (x : Magnitude) (s : Sign) : UnpackedFloat :=
  if filled : 0 < x.mantissa then .finite s x.mantissa x.exponent filled else .zero s

theorem Magnitude.unpackedFilled {x : Magnitude} (s : Sign) (filled : 0 < x.mantissa) :
    x.unpacked s = .finite s x.mantissa x.exponent filled := dif_pos filled

theorem Magnitude.unpackedEmpty {x : Magnitude} (s : Sign) (empty : ¬0 < x.mantissa) :
    x.unpacked s = .zero s := dif_neg empty

section
variable (b : Bits) (s : Sign) (e : BitVec 11) (m : BitVec 52)

theorem mantissaField : (unpackMantissa b).toNat = b.toNat % 2 ^ 52 := by
  simp only [unpackMantissa, BitVec.toNat_cast, BitVec.extractLsb_toNat]
  rfl

theorem exponentField : (unpackExponent b).toNat = b.toNat / 2 ^ 52 % 2 ^ 11 := by
  simp only [unpackExponent, BitVec.toNat_cast, BitVec.extractLsb_toNat, Nat.shiftRight_eq_div_pow]

theorem signField : (unpackSign b).toNat = b.toNat / 2 ^ 63 := by
  have size : b.toNat < 2 ^ 64 := b.isLt
  have top : unpackSign b = (b.extractLsb 63 63).cast rfl := rfl
  rw [top, BitVec.toNat_cast, BitVec.extractLsb_toNat, Nat.shiftRight_eq_div_pow]
  omega

theorem componentsNat :
    (packComponents .binary64 s e m).toNat = s.toBitVec.toNat * 2 ^ 63 + e.toNat * 2 ^ 52 + m.toNat := by
  have first := Nat.shiftLeft_add_eq_or_of_lt e.isLt s.toBitVec.toNat
  have second := Nat.shiftLeft_add_eq_or_of_lt m.isLt (s.toBitVec.toNat <<< 11 + e.toNat)
  simp only [packComponents, BitVec.toNat_append]
  rw [← first, ← second, Nat.shiftLeft_eq, Nat.shiftLeft_eq]
  ring

theorem signPacked : unpackSign (packComponents .binary64 s e m) = s.toBitVec := by
  apply BitVec.eq_of_toNat_eq
  rw [signField, componentsNat]
  have := e.isLt
  have := m.isLt
  omega

theorem packUnpacked :
    packComponents .binary64 (.ofBitVec (unpackSign b)) (unpackExponent b) (unpackMantissa b) = b := by
  have sign (v : BitVec 1) : (Sign.ofBitVec v).toBitVec = v := by decide +revert
  apply BitVec.eq_of_toNat_eq
  rw [componentsNat, sign, signField, exponentField, mantissaField]
  omega

theorem implicitField : (1#1 ++ m).toNat = 2 ^ 52 + m.toNat := by
  rw [BitVec.toNat_append, ← Nat.shiftLeft_add_eq_or_of_lt m.isLt]
  rfl

end

def Magnitude.ofFields (e : BitVec 11) (m : BitVec 52) : Magnitude :=
  if e = 0#11 then ⟨m.toNat, -1074⟩ else ⟨2 ^ 52 + m.toNat, (e.toNat : Int) - 1075⟩

theorem unpackFields (b : Bits) : unpack .binary64 b =
    if unpackExponent b = -1#11 then
      if unpackMantissa b = 0#52 then .infinity (.ofBitVec (unpackSign b)) else .notANumber
    else (Magnitude.ofFields (unpackExponent b) (unpackMantissa b)).unpacked (.ofBitVec (unpackSign b)) := by
  unfold unpack
  dsimp only
  by_cases last : unpackExponent b = -1#11
  · rw [if_pos last, if_pos last]
  rw [if_neg last, if_neg last, Magnitude.ofFields]
  by_cases least : unpackExponent b = 0#11
  · rw [if_pos least, if_pos least]
    by_cases empty : unpackMantissa b = 0#52
    · have none : ¬0 < (unpackMantissa b).toNat := by rw [empty]; decide
      rw [dif_pos empty, Magnitude.unpackedEmpty _ none]
    · rw [dif_neg empty, Magnitude.unpackedFilled _ (BitVec.toNat_pos_of_ne_zero empty),
        UnpackedFloat.finite.injEq, least]
      exact ⟨rfl, rfl, rfl⟩
  · have filled : 0 < 2 ^ 52 + (unpackMantissa b).toNat := by omega
    rw [if_neg least, if_neg least, Magnitude.unpackedFilled _ filled, UnpackedFloat.finite.injEq]
    exact ⟨rfl, implicitField _, rfl⟩

section
variable {x : Magnitude} {s : Sign} {e : BitVec 11} {m : BitVec 52}

theorem fieldsCanonical (finite : e ≠ -1#11) : (Magnitude.ofFields e m).Canonical := by
  have size := m.isLt
  have exponent := e.isLt
  have below : e.toNat ≠ 2047 := fun full => finite (BitVec.eq_of_toNat_eq full)
  rw [Magnitude.ofFields]
  split
  · constructor <;> dsimp only <;> omega
  · rename_i normal
    have stored : e.toNat ≠ 0 := fun zero => normal (BitVec.eq_of_toNat_eq zero)
    constructor <;> dsimp only <;> omega

theorem packLeast (m : BitVec 52) (s : Sign) :
    pack .binary64 ((⟨m.toNat, -1074⟩ : Magnitude).unpacked s) = packComponents .binary64 s 0#11 m := by
  have bits : Format.binary64.mantissaBits = 53 := rfl
  by_cases filled : 0 < m.toNat
  · have subnormal : m.toNat.log2 < 52 := (Nat.log2_lt filled.ne').mpr m.isLt
    have width : ¬m.toNat.log2 + 1 = Format.binary64.mantissaBits := by omega
    rw [Magnitude.unpackedFilled s filled]
    unfold pack
    simp only [width, if_false, BitVec.ofNat_toNat, BitVec.setWidth_eq]
    rfl
  · have empty : m = 0#52 := BitVec.eq_of_toNat_eq (Nat.eq_zero_of_not_pos filled)
    subst empty
    rfl

theorem packNormal (finite : e ≠ -1#11) (m : BitVec 52) (s : Sign) :
    pack .binary64 ((⟨2 ^ 52 + m.toNat, (e.toNat : Int) - 1075⟩ : Magnitude).unpacked s) =
      packComponents .binary64 s e m := by
  have size := m.isLt
  have exponent := e.isLt
  have bits : Format.binary64.mantissaBits = 53 := rfl
  have bias : Format.binary64.exponentBias = 1023 := rfl
  have below : e.toNat ≠ 2047 := fun full => finite (BitVec.eq_of_toNat_eq full)
  have stored : ((e.toNat : Int) - 1075 + Format.binary64.exponentBias + (52 : Nat)).toNat = e.toNat := by omega
  have fits : ¬2 ^ 11 ≤ e.toNat + 1 := by omega
  have width : (2 ^ 52 + m.toNat).log2 + 1 = Format.binary64.mantissaBits := by
    rw [bits, Nat.add_right_cancel_iff, Nat.log2_eq_iff (by omega)]
    omega
  have fraction : BitVec.ofNat 52 (2 ^ 52 + m.toNat) = m := by
    apply BitVec.eq_of_toNat_eq
    rw [BitVec.toNat_ofNat]
    omega
  have filled : 0 < 2 ^ 52 + m.toNat := by omega
  rw [Magnitude.unpackedFilled s filled]
  unfold pack
  simp only [stored, fits, width, fraction, if_true, if_false, BitVec.ofNat_toNat, BitVec.setWidth_eq]

theorem packFields (finite : e ≠ -1#11) (s : Sign) :
    pack .binary64 ((Magnitude.ofFields e m).unpacked s) = packComponents .binary64 s e m := by
  rw [Magnitude.ofFields]
  split
  · rename_i least
    rw [least, packLeast]
  · rw [packNormal finite]

theorem canonicalFields (canonical : x.Canonical) : ∃ e m, e ≠ -1#11 ∧ Magnitude.ofFields e m = x := by
  obtain ⟨mantissa, exponent⟩ := x
  obtain ⟨small, lower, upper, normal⟩ := canonical
  simp only at small lower upper normal
  have fraction : (BitVec.ofNat 52 mantissa).toNat = mantissa % 2 ^ 52 := BitVec.toNat_ofNat _ _
  by_cases full : 2 ^ 52 ≤ mantissa
  · have field : (BitVec.ofNat 11 (exponent + 1075).toNat).toNat = (exponent + 1075).toNat := by
      rw [BitVec.toNat_ofNat, Nat.mod_eq_of_lt (by omega)]
    refine ⟨.ofNat 11 (exponent + 1075).toNat, .ofNat 52 mantissa, fun last => ?_, ?_⟩
    · have top : (exponent + 1075).toNat = 2047 := field.symm.trans (congrArg BitVec.toNat last)
      omega
    · have stored : BitVec.ofNat 11 (exponent + 1075).toNat ≠ 0#11 := fun zero => by
        have bottom : (exponent + 1075).toNat = 0 := field.symm.trans (congrArg BitVec.toNat zero)
        omega
      rw [Magnitude.ofFields, if_neg stored, field, fraction, Magnitude.mk.injEq]
      omega
  · refine ⟨0#11, .ofNat 52 mantissa, by decide, ?_⟩
    rw [Magnitude.ofFields, if_pos rfl, fraction, Magnitude.mk.injEq]
    omega

theorem unpackMagnitude (canonical : x.Canonical) (s : Sign) :
    unpack .binary64 (pack .binary64 (x.unpacked s)) = x.unpacked s := by
  obtain ⟨e, m, finite, rfl⟩ := canonicalFields canonical
  have sign : Sign.ofBitVec s.toBitVec = s := by cases s <;> rfl
  rw [packFields finite, unpackFields, UnpackedFloat.unpackMantissa_packComponents,
    UnpackedFloat.unpackExponent_packComponents, signPacked, sign, if_neg finite]

end

section
variable (x : Float)

def bitFields : Bits := x.toBits.toBitVec

theorem signFields : Sign.ofBitVec (unpackSign (bitFields x)) = signOf (signBit x) := by
  have size : x.toBits.toNat < 2 ^ 64 := x.toBits.toNat_lt
  have sign : (unpackSign (bitFields x)).toNat = x.toBits.toNat / 2 ^ 63 := signField _
  have shifted : (x.toBits >>> 63).toNat = x.toBits.toNat / 2 ^ 63 := by
    rw [UInt64.toNat_shiftRight, Nat.shiftRight_eq_div_pow]
    rfl
  have either : x.toBits.toNat / 2 ^ 63 = 0 ∨ x.toBits.toNat / 2 ^ 63 = 1 := by omega
  rw [signBit]
  cases either with
  | inl clear =>
    have none : unpackSign (bitFields x) = 0#1 := BitVec.eq_of_toNat_eq (sign.trans clear)
    have shift : x.toBits >>> 63 = 0 := UInt64.toNat_inj.mp (shifted.trans clear)
    rw [none, shift]
    rfl
  | inr set =>
    have one : unpackSign (bitFields x) = 1#1 := BitVec.eq_of_toNat_eq (sign.trans set)
    have shift : x.toBits >>> 63 = 1 := UInt64.toNat_inj.mp (shifted.trans set)
    rw [one, shift]
    rfl

theorem magnitudeFields : magnitude x = .ofFields (unpackExponent (bitFields x)) (unpackMantissa (bitFields x)) := by
  have field : ((x.toBits >>> 52) &&& 0x7FF).toNat = (unpackExponent (bitFields x)).toNat := by
    rw [exponentField, UInt64.toNat_and, UInt64.toNat_shiftRight, Nat.shiftRight_eq_div_pow]
    exact Nat.and_two_pow_sub_one_eq_mod _ 11
  have fraction : (x.toBits &&& 0xFFFFFFFFFFFFF).toNat = (unpackMantissa (bitFields x)).toNat := by
    rw [mantissaField, UInt64.toNat_and]
    exact Nat.and_two_pow_sub_one_eq_mod _ 52
  have zero : (unpackExponent (bitFields x)).toNat = 0 ↔ unpackExponent (bitFields x) = 0#11 :=
    ⟨fun same => BitVec.eq_of_toNat_eq same, fun same => congrArg BitVec.toNat same⟩
  simp only [magnitude, Magnitude.ofBits, Magnitude.ofFields, field, fraction, zero]
  rfl

theorem unpackFloat : x.toModel.unpack =
    if unpackExponent (bitFields x) = -1#11 then
      if unpackMantissa (bitFields x) = 0#52 then .infinity (signOf (signBit x)) else .notANumber
    else (magnitude x).unpacked (signOf (signBit x)) := by
  have whole := unpackFields (bitFields x)
  rw [signFields, ← magnitudeFields] at whole
  exact whole

end

section
variable {x y : Float}

theorem finiteCanonical (number : x.isNaN = false) (bounded : x.isInf = false) :
    x.toModel.unpack = (magnitude x).unpacked (signOf (signBit x)) ∧ (magnitude x).Canonical := by
  have unpacked := unpackFloat x
  split at unpacked
  · split at unpacked
    · have infinite : x.isInf = true := congrArg UnpackedFloat.isInf unpacked
      exact absurd (infinite.symm.trans bounded) (by decide)
    · have nan : x.isNaN = true := congrArg UnpackedFloat.isNaN unpacked
      exact absurd (nan.symm.trans number) (by decide)
  · rename_i finite
    refine ⟨unpacked, ?_⟩
    rw [magnitudeFields]
    exact fieldsCanonical finite

theorem infiniteUnpacked (infinite : x.isInf = true) : x.toModel.unpack = .infinity (signOf (signBit x)) := by
  have status : x.toModel.unpack.isInf = true := infinite
  have unpacked := unpackFloat x
  split at unpacked
  · split at unpacked
    · exact unpacked
    · rw [unpacked] at status
      contradiction
  · rw [unpacked] at status
    by_cases filled : 0 < (magnitude x).mantissa
    · rw [Magnitude.unpackedFilled _ filled] at status
      contradiction
    · rw [Magnitude.unpackedEmpty _ filled] at status
      contradiction

theorem bitsInjective (same : x.toBits = y.toBits) : x = y := by
  obtain ⟨bits, valid⟩ := x
  obtain ⟨bits', valid'⟩ := y
  cases same
  rfl

theorem packFloat (x : Float) : Float.ofModel (.pack x.toModel.unpack) = x := by
  have whole := packUnpacked (bitFields x)
  rw [signFields] at whole
  have same : pack .binary64 x.toModel.unpack = bitFields x := by
    rw [unpackFloat]
    split
    · rename_i last
      split
      · rename_i empty
        rw [← whole, last, empty]
        rfl
      · rename_i filled
        exact (x.toModel.valid.eq_packedNaN last filled).symm
    · rename_i finite
      rw [magnitudeFields, packFields finite, whole]
  exact bitsInjective (UInt64.toBitVec_inj.mp same)

theorem unpackInjective (same : x.toModel.unpack = y.toModel.unpack) : x = y := by
  rw [← packFloat x, same, packFloat]

end

end Formula
