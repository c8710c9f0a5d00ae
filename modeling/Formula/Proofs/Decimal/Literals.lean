import Mathlib.Data.List.TakeDrop
import Mathlib.Data.List.TakeWhile
import Formula.Decimal

/-! Decimal literals as a grammar: a run of digits, or two runs with a point between them, and at least one digit. A
count of digits and points that gives up at any other character accepts the same texts. -/
namespace Formula

def AsciiDigit (c : Char) : Prop := '0' ≤ c ∧ c ≤ '9'

inductive Literal : List Char → Prop where
  | whole {digits : List Char} (all : ∀ c ∈ digits, AsciiDigit c) (filled : digits ≠ []) : Literal digits
  | pointed {before after : List Char} (all : ∀ c ∈ before ++ after, AsciiDigit c) (filled : before ++ after ≠ []) :
      Literal (before ++ '.' :: after)

def tally (digits points : Nat) : List Char → Option (Nat × Nat)
  | [] => some (digits, points)
  | c :: cs =>
    if c.isDigit then tally (digits + 1) points cs
    else if c = '.' then tally digits (points + 1) cs
    else none

theorem digitAscii {c : Char} : c.isDigit = true ↔ AsciiDigit c := by
  simp [Char.isDigit, AsciiDigit, Char.le_def]

theorem pointNoDigit : ¬ AsciiDigit '.' := by simp [AsciiDigit, Char.le_def]

theorem digitNoPoint {c : Char} (digit : AsciiDigit c) : c ≠ '.' := fun point => pointNoDigit (point ▸ digit)

section
variable {cs before after : List Char}

theorem spanDigits (all : ∀ c ∈ before, AsciiDigit c) (stops : ∀ c ∈ after.head?, ¬ AsciiDigit c) :
    (before ++ after).span Char.isDigit = (before, after) := by
  have digits : ∀ c ∈ before, c.isDigit = true := fun c member => digitAscii.mpr (all c member)
  rw [List.span_eq_takeWhile_dropWhile, List.takeWhile_append_of_pos digits, List.dropWhile_append_of_pos digits]
  cases after with
  | nil => simp
  | cons c after =>
    have stop : ¬ c.isDigit = true := fun digit => stops c rfl (digitAscii.mp digit)
    rw [List.takeWhile_cons_of_neg stop, List.dropWhile_cons_of_neg stop, List.append_nil]

theorem splitWhole (all : ∀ c ∈ cs, AsciiDigit c) (filled : cs ≠ []) : splitLiteral? cs = some (cs, []) := by
  have run : (cs ++ []).span Char.isDigit = (cs, []) := spanDigits all (by simp)
  rw [List.append_nil] at run
  obtain ⟨c, digits, rfl⟩ := List.exists_cons_of_ne_nil filled
  rw [splitLiteral?, run]

theorem splitPointed (all : ∀ c ∈ before ++ after, AsciiDigit c) (filled : before ++ after ≠ []) :
    splitLiteral? (before ++ '.' :: after) = some (before, after) := by
  obtain ⟨first, second⟩ := List.forall_mem_append.mp all
  have run : (before ++ '.' :: after).span Char.isDigit = (before, '.' :: after) := by
    apply spanDigits first
    simp [pointNoDigit]
  have digits : after.all Char.isDigit = true := List.all_eq_true.mpr fun c member => digitAscii.mpr (second c member)
  have some : (before ++ after).isEmpty = false := by simpa using filled
  rw [splitLiteral?, run]
  simp [digits, some]

theorem splitGrammar (found : splitLiteral? cs = some (before, after)) : Literal cs := by
  have parts := List.takeWhile_append_dropWhile (p := Char.isDigit) (l := cs)
  have digits : ∀ c ∈ cs.takeWhile Char.isDigit, AsciiDigit c := by
    intro c member
    exact digitAscii.mp (List.mem_takeWhile_imp member)
  rw [splitLiteral?, List.span_eq_takeWhile_dropWhile] at found
  generalize cs.takeWhile Char.isDigit = run at parts digits found
  generalize cs.dropWhile Char.isDigit = rest at parts found
  rw [← parts]
  cases rest with
  | nil =>
    cases run with
    | nil => contradiction
    | cons c run =>
      rw [List.append_nil]
      exact .whole digits (List.cons_ne_nil c run)
  | cons c rest =>
    simp only [Option.ite_none_right_eq_some, Bool.and_eq_true, beq_iff_eq, List.all_eq_true] at found
    obtain ⟨⟨⟨point, second⟩, filled⟩, -⟩ := found
    subst point
    refine .pointed (List.forall_mem_append.mpr ⟨digits, fun c member => digitAscii.mp (second c member)⟩) ?_
    simpa using filled

theorem splitLiteral : (splitLiteral? cs).isSome = true ↔ Literal cs := by
  constructor
  · intro found
    exact splitGrammar (Option.some_get found).symm
  · intro literal
    cases literal with
    | whole all filled => rw [splitWhole all filled, Option.isSome_some]
    | pointed all filled => rw [splitPointed all filled, Option.isSome_some]

theorem literalGrammar {text : String} : (literalValue? text).isSome = true ↔ Literal text.toList := by
  rw [literalValue?, Option.isSome_map, splitLiteral]

theorem tallyCounts {digits points m n : Nat} : tally digits points cs = some (m, n) ↔
    (∀ c ∈ cs, AsciiDigit c ∨ c = '.') ∧ m = digits + cs.countP Char.isDigit ∧ n = points + cs.count '.' := by
  induction cs generalizing digits points with
  | nil => simp [tally, eq_comm]
  | cons c cs ih =>
    rw [tally, List.forall_mem_cons]
    split
    · rename_i digit
      have other : c ≠ '.' := digitNoPoint (digitAscii.mp digit)
      rw [ih, List.countP_cons_of_pos digit, List.count_cons_of_ne other, Nat.add_right_comm, Nat.add_assoc]
      simp only [digitAscii.mp digit, true_or, true_and]
    · rename_i other
      split
      · rename_i point
        subst point
        rw [ih, List.countP_cons_of_neg other, List.count_cons_self, Nat.add_right_comm, Nat.add_assoc]
        simp only [or_true, true_and]
      · rename_i strange
        rw [digitAscii] at other
        simp [other, strange]

theorem tallyLength {digits points m n : Nat} (counted : tally digits points cs = some (m, n)) :
    m + n = digits + points + cs.length := by
  induction cs generalizing digits points with
  | nil =>
    cases counted
    rfl
  | cons c cs ih =>
    rw [List.length_cons]
    rw [tally] at counted
    split at counted
    · have later := ih counted
      omega
    · split at counted
      · have later := ih counted
        omega
      · contradiction

theorem digitsPoints (all : ∀ c ∈ cs, AsciiDigit c) : cs.count '.' = 0 :=
  List.count_eq_zero.mpr fun member => pointNoDigit (all '.' member)

theorem digitsCounted (all : ∀ c ∈ cs, AsciiDigit c) : cs.countP Char.isDigit = cs.length :=
  List.countP_eq_length.mpr fun c member => digitAscii.mpr (all c member)

theorem literalCounts : Literal cs ↔
    (∀ c ∈ cs, AsciiDigit c ∨ c = '.') ∧ 0 < cs.countP Char.isDigit ∧ cs.count '.' ≤ 1 := by
  constructor
  · intro literal
    cases literal with
    | whole all filled =>
      rw [digitsPoints all, digitsCounted all]
      exact ⟨fun c member => .inl (all c member), List.length_pos_iff.mpr filled, Nat.zero_le 1⟩
    | @pointed before after all filled =>
      obtain ⟨first, second⟩ := List.forall_mem_append.mp all
      have length : 0 < (before ++ after).length := List.length_pos_iff.mpr filled
      rw [List.length_append] at length
      rw [List.countP_append, List.count_append, List.count_cons_self, digitsPoints first, digitsPoints second,
        List.countP_cons_of_neg (by decide), digitsCounted first, digitsCounted second]
      refine ⟨List.forall_mem_append.mpr ⟨fun c member => .inl (first c member), ?_⟩, length, Nat.le_refl 1⟩
      exact List.forall_mem_cons.mpr ⟨.inr rfl, fun c member => .inl (second c member)⟩
  · intro ⟨all, digit, points⟩
    obtain ⟨d, member, digit⟩ := List.countP_pos_iff.mp digit
    have other : d ≠ '.' := digitNoPoint (digitAscii.mp digit)
    by_cases pointed : '.' ∈ cs
    · obtain ⟨before, after, rfl, first⟩ := List.eq_append_cons_of_mem pointed
      rw [List.count_append, List.count_cons_self] at points
      have second : '.' ∉ after := List.count_eq_zero.mp (by omega)
      have free : '.' ∉ before ++ after := List.not_mem_append first second
      have members (c : Char) : c ∈ before ++ '.' :: after ↔ c = '.' ∨ c ∈ before ++ after :=
        List.perm_middle.mem_iff.trans List.mem_cons
      refine .pointed (fun c within => ?_) (List.ne_nil_of_mem (((members d).mp member).resolve_left other))
      exact (all c ((members c).mpr (.inr within))).resolve_right fun point => free (point ▸ within)
    · refine .whole (fun c member => ?_) (List.ne_nil_of_mem member)
      exact (all c member).resolve_right fun point => pointed (point ▸ member)

theorem literalTally :
    Literal cs ↔ ∃ digits points, tally 0 0 cs = some (digits, points) ∧ 0 < digits ∧ points ≤ 1 := by
  rw [literalCounts]
  constructor
  · intro ⟨all, digit, points⟩
    exact ⟨_, _, tallyCounts.mpr ⟨all, rfl, rfl⟩, by rwa [Nat.zero_add], by rwa [Nat.zero_add]⟩
  · intro ⟨m, n, counted, digit, points⟩
    obtain ⟨all, rfl, rfl⟩ := tallyCounts.mp counted
    rw [Nat.zero_add] at digit points
    exact ⟨all, digit, points⟩

end

end Formula
