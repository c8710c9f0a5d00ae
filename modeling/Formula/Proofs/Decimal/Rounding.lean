import Mathlib.Algebra.Order.Field.Power
import Mathlib.Tactic.Linarith
import Mathlib.Tactic.FieldSimp
import Formula.Proofs.Decimal.Binary

/-! Rounding to binary64. A mantissa with its round and sticky bits stands for the numbers that it may have been cut from.
Shifting keeps what it stands for, and rounding gives the nearest whole number, of two the even one. Any number in the
rounding interval of a magnitude is therefore rounded to that magnitude, with however many bits it is computed. -/
namespace Formula

open Float.Model (Format UnpackedFloat totalExponent)
open Float.Model.UnpackedFloat

def Represents : ExtendedMantissa → ℚ → Prop
  | ⟨m, false, false⟩, y => y = m
  | ⟨m, false, true⟩, y => m < y ∧ y < m + 1 / 2
  | ⟨m, true, false⟩, y => y = m + 1 / 2
  | ⟨m, true, true⟩, y => m + 1 / 2 < y ∧ y < m + 1

structure Nearest (n : Nat) (y : ℚ) : Prop where
  below : n - 1 / 2 ≤ y
  above : y ≤ n + 1 / 2
  even : y = n - 1 / 2 ∨ y = n + 1 / 2 → n % 2 = 0

/- The number lies in the rounding interval of the magnitude. -/
structure Magnitude.Holds (x : Magnitude) (q : ℚ) : Prop where
  nearest : Nearest x.mantissa (q / 2 ^ x.exponent)
  narrow : x.narrowBelow = true → x.mantissa - 1 / 4 ≤ q / 2 ^ x.exponent

section
variable {m n k : Nat} {y : ℚ} {em : ExtendedMantissa}

theorem Nearest.le (first : Nearest n y) (second : Nearest k y) : n ≤ k := by
  have below := first.below
  have above := second.above
  have close : n ≤ k + 1 := by
    have cast : (n : ℚ) ≤ (k + 1 : Nat) := by
      push_cast
      linarith
    exact_mod_cast cast
  by_contra less
  have next : n = k + 1 := by omega
  subst next
  push_cast at below
  have even := first.even (.inl (by push_cast; linarith))
  have even' := second.even (.inr (by linarith))
  omega

theorem Nearest.unique (first : Nearest n y) (second : Nearest k y) : n = k :=
  Nat.le_antisymm (first.le second) (second.le first)

theorem Nearest.inside (below : n - 1 / 2 < y) (above : y < n + 1 / 2) : Nearest n y := by
  refine ⟨below.le, above.le, fun tie => ?_⟩
  rcases tie with tie | tie <;> linarith

theorem Represents.nearest (rep : Represents em y) : Nearest em.roundedMantissa y := by
  obtain ⟨m, round, sticky⟩ := em
  cases round <;> cases sticky
  · have same : y = m := rep
    exact Nearest.inside (n := m) (by linarith) (by linarith)
  · obtain ⟨above, below⟩ : m < y ∧ y < m + 1 / 2 := rep
    exact Nearest.inside (n := m) (by linarith) (by linarith)
  · have half : y = m + 1 / 2 := rep
    have rounded : ExtendedMantissa.roundedMantissa ⟨m, true, false⟩ = m + m % 2 := rfl
    have digit : m % 2 = 0 ∨ m % 2 = 1 := by omega
    rw [rounded]
    rcases digit with even | odd
    · rw [even, Nat.add_zero]
      exact ⟨by linarith, by linarith, fun _ => even⟩
    · rw [odd]
      exact ⟨by push_cast; linarith, by push_cast; linarith, fun _ => by omega⟩
  · obtain ⟨above, below⟩ : m + 1 / 2 < y ∧ y < m + 1 := rep
    exact Nearest.inside (n := m + 1) (by push_cast; linarith) (by push_cast; linarith)

theorem Represents.between (rep : Represents em y) : em.mantissa ≤ y ∧ y < em.mantissa + 1 := by
  obtain ⟨m, round, sticky⟩ := em
  cases round <;> cases sticky <;> simp only [Represents] at rep <;> constructor <;> linarith

theorem Represents.shiftRightOne (rep : Represents em y) : Represents em.shiftRightOne (y / 2) := by
  obtain ⟨m, round, sticky⟩ := em
  have parts : (m : ℚ) = (m % 2 : Nat) + 2 * (m / 2 : Nat) := by exact_mod_cast (Nat.mod_add_div m 2).symm
  have digit : m % 2 = 0 ∨ m % 2 = 1 := by omega
  rcases digit with digit | digit <;> rw [digit] at parts <;> cases round <;> cases sticky <;>
    simp only [Represents, ExtendedMantissa.shiftRightOne, digit, Nat.reduceBNe, Bool.or_self, Bool.or_true]
      at rep ⊢ <;> push_cast at parts <;> first | linarith | (constructor <;> linarith)

theorem Represents.shiftRight (rep : Represents em y) (n : Nat) : Represents (em >>> n) (y / 2 ^ n) := by
  have repeated : em >>> n = n.repeat ExtendedMantissa.shiftRightOne em := rfl
  rw [repeated]
  induction n with
  | zero => simpa [Nat.repeat] using rep
  | succ n ih =>
    rw [Nat.repeat, pow_succ, ← div_div]
    exact (ih rfl).shiftRightOne

end

section
variable {x : Magnitude} {s : Sign} {m : Nat} {e t a b : Int} {accuracy : Accuracy} {q : ℚ}

theorem targetPlace : Format.binary64.targetExponent t = max (t - 53) (-1074) := rfl

theorem totalPlace : totalExponent m e = m.log2 + 1 + e := rfl

theorem shiftExact (fine : e ≤ t) (rep : Represents (.ofMantissaAndAccuracy m accuracy) (q / 2 ^ e)) :
    ∃ em, shiftToExponent m e accuracy t = (em, t) ∧ Represents em (q / 2 ^ t) := by
  have places : e + ((t - e).toNat : Int) = t := by omega
  have shifted := rep.shiftRight (t - e).toNat
  rw [div_div, ← zpow_natCast, ← zpow_add₀ (by norm_num), places] at shifted
  exact ⟨_, Prod.ext rfl places, shifted⟩

theorem placeLess (low : (2 : ℚ) ^ a ≤ q) (high : q < 2 ^ b) : a < b :=
  (zpow_lt_zpow_iff_right₀ (by norm_num)).mp (low.trans_lt high)

theorem keepsExact (small : m < 2 ^ 53) (least : -1074 ≤ e) :
    shiftToTargetExponent .binary64 m e .exact = (⟨m, false, false⟩, e) := by
  have log : m.log2 < 53 := by
    by_cases zero : m = 0
    · subst zero
      decide
    · exact (Nat.log2_lt zero).mpr small
  have still : (Format.binary64.targetExponent (totalExponent m e) - e).toNat = 0 := by
    rw [targetPlace, totalPlace]
    omega
  rw [shiftToTargetExponent, shiftToExponent, still, Int.natCast_zero, Int.add_zero]
  rfl

theorem carriesExact (least : -1074 ≤ e) :
    shiftToTargetExponent .binary64 (2 ^ 53) e .exact = (⟨2 ^ 52, false, false⟩, e + 1) := by
  have once : (Format.binary64.targetExponent (totalExponent (2 ^ 53) e) - e).toNat = 1 := by
    rw [targetPlace, totalPlace, Nat.log2_two_pow]
    omega
  rw [shiftToTargetExponent, shiftToExponent, once]
  rfl

theorem roundsShifted {first last : ExtendedMantissa} (one : shiftToTargetExponent .binary64 m e accuracy = (first, t))
    (two : shiftToTargetExponent .binary64 first.roundedMantissa t .exact = (last, x.exponent))
    (mantissa : last.mantissa = x.mantissa) : roundWithAccuracy .binary64 s m e accuracy = x.unpacked s := by
  obtain ⟨rounded, place⟩ := x
  obtain ⟨whole, half, rest⟩ := last
  change whole = rounded at mantissa
  subst mantissa
  rw [roundWithAccuracy, one]
  dsimp only
  rw [two]
  dsimp only
  by_cases filled : 0 < whole
  · rw [dif_neg filled.ne', Magnitude.unpackedFilled s filled]
  · rw [dif_pos (Nat.eq_zero_of_not_pos filled), Magnitude.unpackedEmpty s filled]

theorem initialMantissa : (ExtendedMantissa.ofMantissaAndAccuracy m accuracy).mantissa = m := by
  rcases accuracy with _ | (_ | _ | _) <;> rfl

theorem totalAbove (rep : Represents (.ofMantissaAndAccuracy m accuracy) (q / 2 ^ e)) : q < 2 ^ totalExponent m e := by
  have above := rep.between.2
  have log : ((m + 1 : Nat) : ℚ) ≤ (2 ^ (m.log2 + 1) : Nat) := by exact_mod_cast Nat.lt_log2_self
  rw [initialMantissa, div_lt_iff₀ (by positivity)] at above
  push_cast at log
  have place : (2 : ℚ) ^ totalExponent m e = 2 ^ (m.log2 + 1) * 2 ^ e := by
    rw [totalPlace, zpow_add₀ (by norm_num)]
    norm_cast
  rw [place]
  exact above.trans_le (by gcongr)

theorem totalBelow (filled : 0 < m) (rep : Represents (.ofMantissaAndAccuracy m accuracy) (q / 2 ^ e)) :
    2 ^ (totalExponent m e - 1) ≤ q := by
  have below := rep.between.1
  have log : ((2 ^ m.log2 : Nat) : ℚ) ≤ m := by exact_mod_cast Nat.log2_self_le filled.ne'
  rw [initialMantissa, le_div_iff₀ (by positivity)] at below
  push_cast at log
  have place : (2 : ℚ) ^ (totalExponent m e - 1) = 2 ^ m.log2 * 2 ^ e := by
    rw [totalPlace, Int.add_right_comm, Int.add_sub_cancel, zpow_add₀ (by norm_num)]
    norm_cast
  rw [place]
  exact le_trans (by gcongr) below

theorem targetBetween (rep : Represents (.ofMantissaAndAccuracy m accuracy) (q / 2 ^ e))
    (fine : e ≤ Format.binary64.targetExponent (totalExponent m e))
    (place : Format.binary64.targetExponent (totalExponent m e) = t) :
    -1074 ≤ t ∧ q < 2 ^ (53 + t) ∧ (-1074 < t → 2 ^ (52 + t) ≤ q) := by
  rw [targetPlace] at place fine
  refine ⟨by omega, (totalAbove rep).trans_le (zpow_le_zpow_right₀ (by norm_num) (by omega)), fun normal => ?_⟩
  have filled : 0 < m := by
    by_contra empty
    rw [Nat.eq_zero_of_not_pos empty, totalPlace, Nat.log2_zero] at place fine
    omega
  have same : 52 + t = totalExponent m e - 1 := by omega
  rw [same]
  exact totalBelow filled rep

theorem Magnitude.Holds.above (canonical : x.Canonical) (held : x.Holds q) : q < 2 ^ (53 + x.exponent) := by
  have nearest := held.nearest.above
  have small : (x.mantissa : ℚ) + 1 / 2 < 2 ^ (53 : Int) := by
    have cast : ((x.mantissa + 1 : Nat) : ℚ) ≤ 2 ^ (53 : Int) := by exact_mod_cast canonical.small
    push_cast at cast
    linarith
  rw [div_le_iff₀ (by positivity)] at nearest
  rw [zpow_add₀ (by norm_num)]
  exact nearest.trans_lt (by gcongr)

/- Below the least mantissa of 53 bits, the interval reaches half as far. -/
theorem Magnitude.Holds.below (canonical : x.Canonical) (held : x.Holds q) (normal : -1074 < x.exponent) :
    2 ^ (52 + x.exponent) ≤ q ∨
      x.mantissa = 2 ^ 52 ∧ 2 ^ 52 - 1 / 4 ≤ q / 2 ^ x.exponent ∧ q / 2 ^ x.exponent < 2 ^ 52 := by
  rw [or_iff_not_imp_left, not_le, zpow_add₀ (by norm_num), ← div_lt_iff₀ (by positivity)]
  intro less
  norm_cast at less
  have full : x.mantissa = 2 ^ 52 := by
    have least := canonical.normal normal
    have nearest := held.nearest.below
    have cast : (x.mantissa : ℚ) < (2 ^ 52 + 1 : Nat) := by
      push_cast at less ⊢
      linarith
    have most : x.mantissa < 2 ^ 52 + 1 := by exact_mod_cast cast
    omega
  have narrow : x.narrowBelow = true := by simp [Magnitude.narrowBelow, full, normal]
  have reach := held.narrow narrow
  rw [full] at reach
  push_cast at reach less
  exact ⟨full, reach, less⟩

/- The value is shifted to the place of the magnitude, or to the one below and rounding carries it up. -/
theorem heldPlace (canonical : x.Canonical) (held : x.Holds q) (least : -1074 ≤ t) (high : q < 2 ^ (53 + t))
    (low : -1074 < t → 2 ^ (52 + t) ≤ q) :
    t = x.exponent ∨ t + 1 = x.exponent ∧ x.mantissa = 2 ^ 52 ∧ Nearest (2 ^ 53) (q / 2 ^ t) := by
  have bottom := canonical.lower
  have down : t ≤ x.exponent := by
    by_cases normal : -1074 < t
    · have := placeLess (low normal) (held.above canonical)
      omega
    · omega
  by_cases same : t = x.exponent
  · exact .inl same
  rcases held.below canonical (by omega) with reached | ⟨full, narrow, less⟩
  · have := placeLess reached high
    omega
  · have half : (2 : ℚ) ^ (51 + x.exponent) ≤ q := by
      rw [zpow_add₀ (by norm_num), ← le_div_iff₀ (by positivity)]
      refine le_trans ?_ narrow
      norm_num
    have := placeLess half high
    have next : t + 1 = x.exponent := by omega
    have double : q / 2 ^ t = 2 * (q / 2 ^ x.exponent) := by
      rw [← next, zpow_add_one₀ (by norm_num)]
      field_simp
    refine .inr ⟨next, full, ?_⟩
    rw [double]
    exact ⟨by push_cast; linarith, by push_cast; linarith, fun _ => by decide⟩

theorem roundsHeld (canonical : x.Canonical) (held : x.Holds q)
    (rep : Represents (.ofMantissaAndAccuracy m accuracy) (q / 2 ^ e))
    (fine : e ≤ Format.binary64.targetExponent (totalExponent m e)) :
    roundWithAccuracy .binary64 s m e accuracy = x.unpacked s := by
  obtain ⟨t, place⟩ : ∃ t, Format.binary64.targetExponent (totalExponent m e) = t := ⟨_, rfl⟩
  obtain ⟨em, moved, shifted⟩ := shiftExact (place ▸ fine) rep
  obtain ⟨least, high, low⟩ := targetBetween rep fine place
  have first : shiftToTargetExponent .binary64 m e accuracy = (em, t) := by
    rw [shiftToTargetExponent, place]
    exact moved
  rcases heldPlace canonical held least high low with same | ⟨next, full, nearest⟩
  · subst same
    have rounded := shifted.nearest.unique held.nearest
    have kept := keepsExact canonical.small canonical.lower
    rw [← rounded] at kept
    exact roundsShifted first kept rounded
  · have carried := carriesExact least
    rw [← shifted.nearest.unique nearest, next] at carried
    exact roundsShifted first carried full.symm

end

end Formula
