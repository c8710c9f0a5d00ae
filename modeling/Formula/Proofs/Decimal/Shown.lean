import Formula.Proofs.Decimal.Interval
import Formula.Proofs.Decimal.Literals

/-! The text of a value is read back as that value. The digits of the number that is written, with the point set among
them and without the zeros at their end, are a numeral of the same number. -/
namespace Formula

open Float.Model.UnpackedFloat (pack unpack)
open RoundingRange (ofMagnitude)

theorem digitsAppend (before after : List Char) :
    digitsValue (before ++ after) = 10 ^ after.length * digitsValue before + digitsValue after := by
  have joined : digitsValue (before ++ after) = Nat.ofDigitChars 10 after (digitsValue before) :=
    Nat.ofDigitChars_append 0
  rw [joined, Nat.ofDigitChars_eq_ofDigitChars_zero]
  rfl

theorem digitsDecimal (n : Nat) : digitsValue (Nat.toDigits 10 n) = n := Nat.ofDigitChars_ten_toDigits

theorem digitChar {d : Nat} (digit : d < 10) : AsciiDigit d.digitChar ∧ digitsValue [d.digitChar] = d := by
  have table : ∀ d : Fin 10, ('0' ≤ d.val.digitChar ∧ d.val.digitChar ≤ '9') ∧ digitsValue [d.val.digitChar] = d := by
    decide
  exact table ⟨d, digit⟩

theorem paddedAscii (width n : Nat) : ∀ c ∈ paddedDigits width n, AsciiDigit c := by
  induction width generalizing n with
  | zero => nofun
  | succ width ih =>
    rw [paddedDigits, List.forall_mem_append, List.forall_mem_singleton]
    exact ⟨ih (n / 10), (digitChar (Nat.mod_lt n (by decide))).1⟩

theorem paddedLength (width n : Nat) : (paddedDigits width n).length = width := by
  induction width generalizing n with
  | zero => rfl
  | succ width ih => rw [paddedDigits, List.length_append, ih, List.length_singleton]

theorem paddedValue (width n : Nat) : digitsValue (paddedDigits width n) = n % 10 ^ width := by
  induction width generalizing n with
  | zero => rw [pow_zero, Nat.mod_one]; rfl
  | succ width ih =>
    rw [paddedDigits, digitsAppend, ih, (digitChar (Nat.mod_lt n (by decide))).2, pow_succ, Nat.mul_comm (10 ^ width),
      Nat.mod_mul, List.length_singleton, pow_one, Nat.add_comm]

theorem trailingZeros (digits : List Char) :
    ∃ zeros, digits = dropTrailingZeros digits ++ List.replicate zeros '0' := by
  let run := digits.reverse.takeWhile (· == '0')
  have zeros : run = List.replicate run.length '0' :=
    List.eq_replicate_iff.mpr ⟨rfl, fun c member => by simpa using List.mem_takeWhile_imp member⟩
  have parts : run ++ digits.reverse.dropWhile (· == '0') = digits.reverse := List.takeWhile_append_dropWhile
  refine ⟨run.length, ?_⟩
  calc
    digits = (run ++ digits.reverse.dropWhile (· == '0')).reverse := by rw [parts, List.reverse_reverse]
    _ = dropTrailingZeros digits ++ run.reverse := List.reverse_append
    _ = dropTrailingZeros digits ++ List.replicate run.length '0' := by
      nth_rewrite 1 [zeros]
      rw [List.reverse_replicate]

theorem decimalAscii (n : Nat) : ∀ c ∈ Nat.toDigits 10 n, AsciiDigit c :=
  fun _ member => digitAscii.mp (Nat.isDigit_of_mem_toDigits (by decide) (by decide) member)

theorem shortFraction (width n : Nat) : ∃ zeros, width = (dropTrailingZeros (paddedDigits width n)).length + zeros ∧
    (∀ c ∈ dropTrailingZeros (paddedDigits width n), AsciiDigit c) ∧
    ∀ whole, digitsValue (whole ++ dropTrailingZeros (paddedDigits width n)) * 10 ^ zeros =
      10 ^ width * digitsValue whole + n % 10 ^ width := by
  obtain ⟨zeros, parts⟩ := trailingZeros (paddedDigits width n)
  have ascii := paddedAscii width n
  have size := paddedLength width n
  have value := paddedValue width n
  rw [parts] at ascii size
  rw [List.length_append, List.length_replicate] at size
  have nothing : digitsValue (List.replicate zeros '0') = 0 :=
    Nat.ofDigitChars_replicate_zero.trans (Nat.mul_zero _)
  refine ⟨zeros, size.symm, (List.forall_mem_append.mp ascii).1, fun whole => ?_⟩
  calc
    digitsValue (whole ++ dropTrailingZeros (paddedDigits width n)) * 10 ^ zeros =
        digitsValue (whole ++ dropTrailingZeros (paddedDigits width n) ++ List.replicate zeros '0') := by
      rw [digitsAppend _ (List.replicate zeros '0'), nothing, List.length_replicate, Nat.mul_comm, Nat.add_zero]
    _ = digitsValue (whole ++ paddedDigits width n) := by rw [List.append_assoc, ← parts]
    _ = 10 ^ width * digitsValue whole + n % 10 ^ width := by rw [digitsAppend, paddedLength, value]

theorem splitJoined {whole fraction : List Char} (first : ∀ c ∈ whole, AsciiDigit c) (filled : whole ≠ [])
    (second : ∀ c ∈ fraction, AsciiDigit c) :
    splitLiteral? (whole ++ if fraction.isEmpty then [] else '.' :: fraction) = some (whole, fraction) ∧
      ∀ c ∈ whole ++ if fraction.isEmpty then [] else '.' :: fraction, AsciiDigit c ∨ c = '.' := by
  cases fraction with
  | nil =>
    rw [List.isEmpty_nil, if_pos rfl, List.append_nil]
    exact ⟨splitWhole first filled, fun c member => .inl (first c member)⟩
  | cons d fraction =>
    rw [List.isEmpty_cons, if_neg Bool.false_ne_true]
    refine ⟨splitPointed (List.forall_mem_append.mpr ⟨first, second⟩) (List.append_ne_nil_of_left_ne_nil filled _), ?_⟩
    rw [List.forall_mem_append, List.forall_mem_cons]
    exact ⟨fun c member => .inl (first c member), .inr rfl, fun c member => .inl (second c member)⟩

theorem positionalRead (units places : Nat) : ∃ (n digits zeros : Nat),
    places = digits + zeros ∧ n * 10 ^ zeros = units ∧
      decimalSize? (positional units places) = some (scaledValue n (-digits)) := by
  obtain ⟨zeros, size, second, value⟩ := shortFraction places (units % 10 ^ places)
  obtain ⟨split, characters⟩ := splitJoined (decimalAscii (units / 10 ^ places)) Nat.toDigits_ne_nil second
  have written : positional units places = Nat.toDigits 10 (units / 10 ^ places) ++
    if (dropTrailingZeros (paddedDigits places (units % 10 ^ places))).isEmpty then []
    else '.' :: dropTrailingZeros (paddedDigits places (units % 10 ^ places)) := rfl
  have digits := value (Nat.toDigits 10 (units / 10 ^ places))
  rw [digitsDecimal, Nat.mod_mod, Nat.div_add_mod] at digits
  rw [← written] at split characters
  refine ⟨_, _, zeros, size, digits, ?_⟩
  have all : (positional units places).takeWhile (fun c => c.isDigit || c == '.') = positional units places := by
    rw [List.takeWhile_eq_self_iff]
    intro c member
    rcases characters c member with digit | point
    · rw [digitAscii.mpr digit, Bool.true_or]
    · rw [point]
      rfl
  rw [decimalSize?]
  simp only [all, List.drop_length, split, exponentValue?, zero_sub]

theorem shortestRead {x : Magnitude} (canonical : x.Canonical) :
    decimalSize? (positional (ofMagnitude x).shortest (ofMagnitude x).places) = some x.float := by
  have held := RoundingRange.shortestHeld x
  obtain ⟨n, digits, zeros, size, units, read⟩ := positionalRead (ofMagnitude x).shortest (ofMagnitude x).places
  have value : ((ofMagnitude x).shortest / 10 ^ (ofMagnitude x).places : ℚ) = n * 10 ^ (-digits : Int) := by
    rw [← units, size, zpow_neg, zpow_natCast, pow_add]
    push_cast
    field_simp
  rw [value] at held
  rw [read, scaledHeld canonical held]

theorem positionalUnsigned (units places : Nat) :
    splitSign (positional units places) = (false, positional units places) := by
  have ascii := decimalAscii (units / 10 ^ places)
  obtain ⟨c, cs, digits⟩ := List.exists_cons_of_ne_nil (Nat.toDigits_ne_nil (n := units / 10 ^ places) (b := 10))
  rw [digits] at ascii
  have digit := (List.forall_mem_cons.mp ascii).1
  have minus : c ≠ '-' := fun same => absurd (digitAscii.mpr (same ▸ digit)) (by decide)
  have plus : c ≠ '+' := fun same => absurd (digitAscii.mpr (same ▸ digit)) (by decide)
  rw [positional]
  simp only [Nat.pow_eq, digits, List.cons_append]
  rw [splitSign]
  · simpa using minus
  · simpa using plus

theorem numeralSigned {size : List Char} {value : Float} (read : decimalSize? size = some value)
    (unsigned : splitSign size = (false, size)) (negative : Bool) :
    numeralValue? ((if negative then ['-'] else []) ++ size) = some (withSign negative value) := by
  cases negative with
  | false => simp [numeralValue?, unsigned, read, withSign]
  | true => simp [numeralValue?, splitSign, read, withSign]

section
variable {x : Float}

theorem floatSigned (number : x.isNaN = false) (bounded : x.isInf = false) :
    withSign (signBit x) (magnitude x).float = x := by
  obtain ⟨unpacked, canonical⟩ := finiteCanonical number bounded
  have whole := packFloat x
  rw [unpacked] at whole
  cases sign : signBit x with
  | false =>
    rw [sign] at whole
    exact whole
  | true =>
    rw [sign] at whole
    have opened : withSign true (magnitude x).float =
        .ofModel (.pack (unpack .binary64 (pack .binary64 ((magnitude x).unpacked .positive))).neg) := rfl
    have negated : ((magnitude x).unpacked .positive).neg = (magnitude x).unpacked .negative := by
      by_cases filled : 0 < (magnitude x).mantissa
      · rw [Magnitude.unpackedFilled _ filled, Magnitude.unpackedFilled _ filled]
        rfl
      · rw [Magnitude.unpackedEmpty _ filled, Magnitude.unpackedEmpty _ filled]
        rfl
    rw [opened, unpackMagnitude canonical, negated]
    exact whole

theorem infiniteSigned (infinite : x.isInf = true) : withSign (signBit x) (1.0 / 0.0) = x := by
  apply unpackInjective
  rw [infiniteUnpacked infinite]
  cases signBit x <;> rfl

theorem nanSame (nan : x.isNaN = true) : 0.0 / 0.0 = x := by
  apply unpackInjective
  have status : x.toModel.unpack.isNaN = true := nan
  cases unpacked : x.toModel.unpack with
  | notANumber => rfl
  | _ =>
    rw [unpacked] at status
    contradiction

theorem numberTextRead (x : Float) : numeralValue? (numberText x).toList = some x := by
  rw [numberText]
  by_cases nan : x.isNaN = true
  · have read : numeralValue? "NaN".toList = some (0.0 / 0.0) := by decide +kernel
    rw [if_pos nan, read, nanSame nan]
  rw [if_neg nan]
  simp only [String.toList_ofList]
  by_cases infinite : x.isInf = true
  · have read : ∀ negative : Bool, numeralValue? ((if negative then ['-'] else []) ++ ['i', 'n', 'f']) =
      some (withSign negative (1.0 / 0.0)) := by decide +kernel
    rw [if_pos infinite, read, infiniteSigned infinite]
  · rw [Bool.not_eq_true] at nan infinite
    obtain ⟨-, canonical⟩ := finiteCanonical nan infinite
    rw [infinite, if_neg Bool.false_ne_true, numeralSigned (shortestRead canonical) (positionalUnsigned _ _),
      floatSigned nan infinite]

example : numberText (0.1 + 0.2) = "0.30000000000000004" := by decide +kernel

end

end Formula
