import Formula.Proofs.Decimal.Scaled

/-! The number that is written for a magnitude. It lies in the rounding interval, no number there ends in more zeros, and
none that ends in as many is nearer to the magnitude. -/
namespace Formula

namespace RoundingRange
variable {x : Magnitude} {r : RoundingRange} {n zeros : Nat}

theorem containsBetween (contained : r.contains n = true) :
    r.low ≤ n ∧ n ≤ r.high ∧ (r.closed = false → r.low < n ∧ n < r.high) := by
  rw [contains] at contained
  cases closed : r.closed <;> simp only [closed, if_true, Bool.false_eq_true, if_false, decide_eq_true_eq] at contained
  · exact ⟨contained.1.le, contained.2.le, fun _ => contained⟩
  · exact ⟨contained.1, contained.2, nofun⟩

theorem quarterPositive (x : Magnitude) : 0 < x.quarter :=
  Nat.mul_pos (Nat.pow_pos (by decide)) (Nat.pow_pos (by decide))

theorem quarterScale (x : Magnitude) : (n / 10 ^ (ofMagnitude x).places / 2 ^ x.exponent : ℚ) = n / x.quarter / 4 := by
  have positive : (0 : ℚ) < x.quarter := by exact_mod_cast quarterPositive x
  have scale : (4 * x.quarter : ℚ) = 10 ^ (ofMagnitude x).places * 2 ^ x.exponent := by
    have place : x.exponent = (x.exponent - 2).toNat - (2 - x.exponent).toNat + 2 := by omega
    have ten : (10 : ℚ) = 2 * 5 := by norm_num
    simp only [Magnitude.quarter, ofMagnitude, Nat.pow_eq]
    generalize (x.exponent - 2).toNat = up, (2 - x.exponent).toNat = down at place
    rw [place, zpow_add₀ (by norm_num), zpow_sub₀ (by norm_num), zpow_natCast, zpow_natCast, ten, mul_pow]
    push_cast
    field_simp
  rw [div_div, ← scale, mul_comm (4 : ℚ), ← div_div]

theorem containsScaled (contained : (ofMagnitude x).contains n = true) :
    4 * x.mantissa - x.reach ≤ (n / x.quarter : ℚ) ∧ (n / x.quarter : ℚ) ≤ 4 * x.mantissa + 2 ∧
      (x.mantissa % 2 = 1 →
        4 * x.mantissa - x.reach < (n / x.quarter : ℚ) ∧ (n / x.quarter : ℚ) < 4 * x.mantissa + 2) := by
  have positive : (0 : ℚ) < x.quarter := by exact_mod_cast quarterPositive x
  have reach : (4 * x.mantissa - x.reach : ℚ) ≤ (4 * x.mantissa - x.reach : Nat) := by
    have cast : ((4 * x.mantissa : Nat) : ℚ) ≤ (4 * x.mantissa - x.reach + x.reach : Nat) := by
      exact_mod_cast le_tsub_add
    push_cast at cast
    linarith
  have scaled := mul_le_mul_of_nonneg_right reach positive.le
  obtain ⟨low, high, strict⟩ := containsBetween contained
  rw [le_div_iff₀ positive, div_le_iff₀ positive, lt_div_iff₀ positive, div_lt_iff₀ positive]
  simp only [ofMagnitude] at low high strict
  refine ⟨scaled.trans (by exact_mod_cast low), by exact_mod_cast high, fun odd => ?_⟩
  obtain ⟨less, greater⟩ := strict (by simp [odd])
  exact ⟨scaled.trans_lt (by exact_mod_cast less), by exact_mod_cast greater⟩

theorem containsHeld (contained : (ofMagnitude x).contains n = true) :
    x.Holds (n / 10 ^ (ofMagnitude x).places) := by
  obtain ⟨low, high, strict⟩ := containsScaled contained
  have two : (x.reach : ℚ) ≤ 2 := by
    rw [Magnitude.reach]
    split <;> norm_num
  constructor
  · rw [quarterScale]
    refine ⟨by linarith, by linarith, fun tie => ?_⟩
    by_contra odd
    obtain ⟨less, greater⟩ := strict (by omega)
    rcases tie with tie | tie <;> linarith
  · intro narrow
    have one : (x.reach : ℚ) = 1 := by rw [Magnitude.reach, if_pos narrow, Nat.cast_one]
    rw [quarterScale]
    linarith

theorem nearestContained {zeros n : Nat} (found : r.nearest? zeros = some n) : r.contains n = true := by
  rw [nearest?] at found
  split at found
  · rename_i below
    cases found
    simp only [Bool.and_eq_true] at below
    exact below.1
  · split at found
    · rename_i above
      cases found
      exact above
    · contradiction

theorem coarsestContained (value : r.contains r.value = true) (zeros : Nat) :
    r.contains (r.coarsest zeros) = true := by
  induction zeros with
  | zero => exact value
  | succ zeros ih =>
    rw [coarsest]
    cases found : r.nearest? (zeros + 1) with
    | none => exact ih
    | some n => exact nearestContained found

theorem valueContained (x : Magnitude) : (ofMagnitude x).contains (ofMagnitude x).value = true := by
  have positive := quarterPositive x
  have below : 1 ≤ x.reach := by
    rw [Magnitude.reach]
    split <;> decide
  rw [contains]
  split <;> rename_i parity <;> simp only [ofMagnitude, beq_iff_eq] at parity ⊢ <;>
    refine decide_eq_true ⟨?_, ?_⟩ <;> gcongr <;> omega

theorem containsConvex {k : Nat} (hn : r.contains n = true) (hk : r.contains k = true) {c : Nat} (above : n ≤ c)
    (below : c ≤ k) : r.contains c = true := by
  rw [contains] at hn hk ⊢
  split at hn <;> simp_all <;> omega

theorem nearestMultiple (found : r.nearest? zeros = some n) : 10 ^ zeros ∣ n := by
  rw [nearest?] at found
  split at found
  · cases found
    exact Nat.dvd_mul_left _ _
  · split at found
    · cases found
      exact Nat.dvd_add (Nat.dvd_mul_left _ _) (Nat.dvd_refl _)
    · contradiction

theorem multipleOutside (multiple : 10 ^ zeros ∣ n) (value : Nat) :
    n ≤ value / 10 ^ zeros * 10 ^ zeros ∨ value / 10 ^ zeros * 10 ^ zeros + 10 ^ zeros ≤ n := by
  obtain ⟨k, rfl⟩ := multiple
  rw [Nat.mul_comm (10 ^ zeros) k]
  rcases Nat.lt_or_ge (value / 10 ^ zeros) k with greater | less
  · right
    calc
      value / 10 ^ zeros * 10 ^ zeros + 10 ^ zeros = (value / 10 ^ zeros + 1) * 10 ^ zeros := by ring
      _ ≤ k * 10 ^ zeros := Nat.mul_le_mul_right _ greater
  · exact .inl (Nat.mul_le_mul_right _ less)

theorem nearestFound (value : r.contains r.value = true) (contained : r.contains n = true) (multiple : 10 ^ zeros ∣ n) :
    ∃ m, r.nearest? zeros = some m := by
  have positive : 0 < 10 ^ zeros := by positivity
  have either : r.contains (r.value / 10 ^ zeros * 10 ^ zeros) = true ∨
      r.contains (r.value / 10 ^ zeros * 10 ^ zeros + 10 ^ zeros) = true := by
    rcases multipleOutside multiple r.value with less | greater
    · exact .inl (containsConvex contained value less (Nat.div_mul_le_self _ _))
    · exact .inr (containsConvex value contained (Nat.lt_div_mul_add positive).le greater)
  rw [nearest?]
  simp only [Nat.pow_eq]
  split
  · exact ⟨_, rfl⟩
  · rename_i farther
    split
    · exact ⟨_, rfl⟩
    · rename_i outside
      simp [outside] at farther either
      simp [farther] at either

/- Any other multiple in the interval brings in the one between, with which the choice was made. -/
theorem nearestClosest {m : Nat} (value : r.contains r.value = true) (found : r.nearest? zeros = some m)
    (contained : r.contains n = true) (multiple : 10 ^ zeros ∣ n) :
    ((m : Int) - r.value).natAbs ≤ ((n : Int) - r.value).natAbs := by
  have least := Nat.div_mul_le_self r.value (10 ^ zeros)
  have next := Nat.lt_div_mul_add (a := r.value) (b := 10 ^ zeros) (by positivity)
  have outside := multipleOutside multiple r.value
  rw [nearest?] at found
  simp only [Nat.pow_eq] at found
  generalize r.value / 10 ^ zeros * 10 ^ zeros = below at *
  split at found
  · rename_i chosen
    cases found
    rcases outside with less | greater
    · omega
    · have above := containsConvex value contained next.le greater
      simp only [above, Bool.not_true, Bool.false_or, Bool.and_eq_true, decide_eq_true_eq] at chosen
      omega
  · rename_i refused
    split at found
    · rename_i above
      cases found
      rcases outside with less | greater
      · have within := containsConvex contained value less least
        simp only [above, within, Bool.not_true, Bool.false_or, Bool.true_and, decide_eq_true_eq] at refused
        omega
      · omega
    · contradiction

theorem coarsestMultiple (value : r.contains r.value = true) (contained : r.contains n = true)
    (multiple : 10 ^ zeros ∣ n) {most : Nat} (within : zeros ≤ most) : 10 ^ zeros ∣ r.coarsest most := by
  induction most with
  | zero =>
    rw [Nat.le_zero.mp within, pow_zero]
    exact Nat.one_dvd _
  | succ most ih =>
    rw [coarsest]
    cases found : r.nearest? (most + 1) with
    | some m => exact (pow_dvd_pow 10 within).trans (nearestMultiple found)
    | none =>
      have less : zeros ≠ most + 1 := by
        rintro rfl
        obtain ⟨m, other⟩ := nearestFound value contained multiple
        rw [found] at other
        contradiction
      exact ih (by omega)

theorem coarsestClosest (value : r.contains r.value = true) (contained : r.contains n = true) {most : Nat}
    (multiple : ∀ zeros, 10 ^ zeros ∣ r.coarsest most → 10 ^ zeros ∣ n) :
    ((r.coarsest most : Int) - r.value).natAbs ≤ ((n : Int) - r.value).natAbs := by
  induction most with
  | zero => simp [coarsest]
  | succ most ih =>
    rw [coarsest] at multiple ⊢
    cases found : r.nearest? (most + 1) with
    | some m =>
      rw [found] at multiple
      exact nearestClosest value found contained (multiple _ (nearestMultiple found))
    | none =>
      rw [found] at multiple
      exact ih multiple

theorem shortestHeld (x : Magnitude) :
    x.Holds ((ofMagnitude x).shortest / 10 ^ (ofMagnitude x).places) :=
  containsHeld (coarsestContained (valueContained x) _)

theorem shortestClosest (contained : (ofMagnitude x).contains n = true)
    (multiple : ∀ zeros, 10 ^ zeros ∣ (ofMagnitude x).shortest → 10 ^ zeros ∣ n) :
    (((ofMagnitude x).shortest : Int) - (ofMagnitude x).value).natAbs ≤ ((n : Int) - (ofMagnitude x).value).natAbs :=
  coarsestClosest (valueContained x) contained multiple

theorem shortestFewest (contained : (ofMagnitude x).contains n = true) (multiple : 10 ^ zeros ∣ n) :
    10 ^ zeros ∣ (ofMagnitude x).shortest := by
  have value := valueContained x
  have high := digitsBelow (ofMagnitude x).high
  by_cases within : zeros ≤ (Nat.toDigits 10 (ofMagnitude x).high).length
  · exact coarsestMultiple value contained multiple within
  -- A number with more zeros than the interval has digits is zero, and so is what is written.
  have more : 10 ^ (Nat.toDigits 10 (ofMagnitude x).high).length ∣ 10 ^ zeros := pow_dvd_pow 10 (by omega)
  have most := (containsBetween contained).2.1
  have zero : n = 0 := Nat.eq_zero_of_dvd_of_lt (more.trans multiple) (by omega)
  have written : 10 ^ (Nat.toDigits 10 (ofMagnitude x).high).length ∣ (ofMagnitude x).shortest :=
    coarsestMultiple value contained (zero ▸ Nat.dvd_zero _) (Nat.le_refl _)
  have bounded : (ofMagnitude x).shortest ≤ (ofMagnitude x).high :=
    (containsBetween (coarsestContained value _)).2.1
  rw [Nat.eq_zero_of_dvd_of_lt written (by omega)]
  exact Nat.dvd_zero _

end RoundingRange

end Formula
