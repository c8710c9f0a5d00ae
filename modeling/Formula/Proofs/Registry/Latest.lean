import Formula.Expr
import Formula.Proofs.Registry.Names

/-! What a registry answers after any registrations. Each name in front of its operands stands for the operation it was
registered with last, and each symbol between operands for its last precedence and operation. Neither of the two spaces
of names knows of the other. -/
namespace Formula

inductive Entry where
  | leading (name : String) (f : Operation)
  | between (precedence : Precedence) (symbol : Char) (f : Operation)

def standardEntries : List Entry := [
  .leading "+" .plusSign, .leading "-" .minusSign, .leading "sqrt" .squareRoot, .leading "abs" .absolute,
  .between .multiplicative '*' .product, .between .multiplicative '/' .quotient,
  .between .multiplicative '%' .remainder, .between .multiplicative '^' .power,
  .between .additive '+' .sum, .between .additive '-' .difference]

def elementaryEntries : List Entry := [
  .leading "sin" .sine, .leading "cos" .cosine, .leading "tan" .tangent, .leading "exp" .exponential,
  .leading "ln" .naturalLogarithm, .leading "log10" .decimalLogarithm, .leading "floor" .floor,
  .leading "ceil" .ceiling, .leading "round" .nearest, .leading "min" .least, .leading "max" .greatest,
  .leading "avg" .average]

def Registration.entries : Registration → List Entry
  | .named name f => [.leading name f]
  | .symbol .leading c f => [.leading c.toString f]
  | .symbol (.between precedence) c f => [.between precedence c f]
  | .elementary => elementaryEntries

inductive Start where
  | empty
  | standard

def Start.registry : Start → Registry
  | .empty => .empty
  | .standard => .standard

def Start.entries : Start → List Entry
  | .empty => []
  | .standard => standardEntries

def history (start : Start) (registrations : List Registration) : List Entry :=
  start.entries ++ registrations.flatMap Registration.entries

def Entry.leading? (name : String) : Entry → Option Operation
  | .leading other f => if other = name then some f else none
  | .between .. => none

def Entry.between? (symbol : Char) : Entry → Option (Precedence × Operation)
  | .leading .. => none
  | .between precedence other f => if other = symbol then some (precedence, f) else none

def latest {α : Type} (answer : Entry → Option α) (entries : List Entry) : Option α :=
  entries.reverse.findSome? answer

theorem latestSnoc {α : Type} (answer : Entry → Option α) (entries : List Entry) (e : Entry) :
    latest answer (entries ++ [e]) = (answer e).or (latest answer entries) := by
  rw [latest, List.reverse_append, List.reverse_singleton, List.singleton_append, List.findSome?_cons]
  cases answer e <;> rfl

theorem latestFrom {α : Type} {answer : Entry → Option α} {entries : List Entry} {a : α}
    (found : latest answer entries = some a) : ∃ entry ∈ entries, answer entry = some a := by
  obtain ⟨entry, member, answered⟩ := List.exists_of_findSome?_eq_some found
  exact ⟨entry, List.mem_reverse.mp member, answered⟩

namespace Registry
variable {R : Registry} {entries : List Entry}

def record (R : Registry) : Entry → Registry
  | .leading name f => R.register name f
  | .between precedence symbol f => R.registerSymbol (.between precedence) symbol f

theorem recordLeading (entry : Entry) (R : Registry) (name : String) :
    (R.record entry).operation? .leading name = (entry.leading? name).or (R.operation? .leading name) := by
  cases entry with
  | leading other f =>
    rw [record, register, operationInsert, Entry.leading?]
    split <;> simp_all
  | between p symbol f =>
    rw [record, registerSymbol, operationInsert]
    simp [Entry.leading?]

theorem standardRecorded : standard = standardEntries.foldl record empty := rfl

theorem enrollRecorded (R : Registry) (registration : Registration) :
    R.enroll registration = registration.entries.foldl record R := by
  cases registration with
  | named name f => rfl
  | symbol tier symbol f => cases tier <;> rfl
  | elementary => rfl

theorem historyRecorded (start : Start) (registrations : List Registration) :
    start.registry.enrollAll registrations = (history start registrations).foldl record empty := by
  have begun : start.registry = start.entries.foldl record empty := by
    cases start with
    | empty => rfl
    | standard => exact standardRecorded
  rw [history, List.foldl_append, ← begun]
  generalize start.registry = R
  induction registrations generalizing R with
  | nil => rfl
  | cons registration registrations ih =>
    rw [List.flatMap_cons, List.foldl_append, ← enrollRecorded]
    exact ih (R.enroll registration)

structure Holds (R : Registry) (entries : List Entry) : Prop where
  leading : ∀ name, R.operation? .leading name = latest (Entry.leading? name) entries
  between : ∀ p name f, R.operation? (.between p) name = some f ↔
    ∃ c : Char, c.toString = name ∧ latest (Entry.between? c) entries = some (p, f)

theorem emptyHolds : empty.Holds [] where
  leading name := by simp [empty, operation?, table, latest]
  between p name f := by cases p <;> simp [empty, operation?, table, latest]

theorem Holds.record (holds : R.Holds entries) (e : Entry) : (R.record e).Holds (entries ++ [e]) where
  leading name := by rw [latestSnoc, ← holds.leading, recordLeading]
  between p name f := by
    simp only [latestSnoc]
    cases e with
    | leading other g =>
      rw [Registry.record, register, operationLeading, holds.between]
      rfl
    | between q symbol g =>
      rw [Registry.record, registerSymbol, operationInsert]
      by_cases same : symbol.toString = name
      · subst same
        simp [Entry.between?]
      · have other (c : Char) (shown : c.toString = name) : symbol ≠ c := by
          rintro rfl
          exact same shown
        rw [if_neg fun replaced => same replaced.1, holds.between]
        constructor
        · rintro ⟨c, shown, kept⟩
          exact ⟨c, shown, by simpa [Entry.between?, other c shown] using kept⟩
        · rintro ⟨c, shown, kept⟩
          exact ⟨c, shown, by simpa [Entry.between?, other c shown] using kept⟩

theorem Holds.recordAll (holds : R.Holds entries) (further : List Entry) :
    (further.foldl Registry.record R).Holds (entries ++ further) := by
  induction further generalizing R entries with
  | nil => simpa using holds
  | cons e further ih => simpa using ih (holds.record e)

theorem historyHolds (start : Start) (registrations : List Registration) :
    (start.registry.enrollAll registrations).Holds (history start registrations) := by
  rw [historyRecorded]
  simpa using emptyHolds.recordAll (history start registrations)

theorem namesSorted (R : Registry) (tier : Tier) : (R.names tier).Pairwise (· < ·) := by
  have ordered := Std.TreeMap.ordered_keys (t := R.table tier)
  exact ordered.imp fun before => compareOfLessAndEq_eq_lt.mp before

theorem memNames (R : Registry) (tier : Tier) (name : String) :
    name ∈ R.names tier ↔ (R.operation? tier name).isSome = true := by
  rw [operationSome, Std.TreeMap.contains_iff_mem]
  exact Std.TreeMap.mem_keys

/- What a registry answers about names, symbols and tiers, from two maps that know nothing of tables: `P` for names in
front of operands and `B` for symbols between them. -/
structure Answers (R : Registry) (P : String → Option Operation) (B : Char → Option (Precedence × Operation)) :
    Prop where
  isFunction : ∀ name, R.isFunction name = (P name).isSome
  leadingTier : ∀ name, R.leadingTier? name = (P name).map fun _ => .leading
  betweenTier : ∀ name tier, R.betweenTier? name = some tier ↔
    ∃ (c : Char) (p : Precedence) (f : Operation), c.toString = name ∧ B c = some (p, f) ∧ .between p = tier
  isSymbol : ∀ c, R.isSymbol c = (B c).isSome
  symbolLeading : ∀ c, R.isSymbolIn .leading c = (P c.toString).isSome
  symbolBetween : ∀ p c, R.isSymbolIn (.between p) c = true ↔ ∃ f, B c = some (p, f)
  sorted : ∀ tier, (R.names tier).Pairwise (· < ·)
  namesLeading : ∀ name, name ∈ R.names .leading ↔ (P name).isSome = true
  namesBetween : ∀ p name, name ∈ R.names (.between p) ↔ ∃ (c : Char) (f : Operation), c.toString = name ∧ B c = some (p, f)
  applyLeading : ∀ name args, R.apply .leading name args =
    match P name with
    | some f => (f args).mapError (.failed name)
    | none => .error (.unsupported .function name)
  applyBetween : ∀ p (c : Char) f args, B c = some (p, f) →
    R.apply (.between p) c.toString args = (f args).mapError (.failed c.toString)
  applyAbsent : ∀ p name args, (∀ (c : Char) f, B c = some (p, f) → c.toString ≠ name) →
    R.apply (.between p) name args = .error (.unsupported .binary name)

section
variable {P : String → Option Operation} {B : Char → Option (Precedence × Operation)}

theorem answersOfTables (leading : ∀ name, R.operation? .leading name = P name)
    (between : ∀ p name f, R.operation? (.between p) name = some f ↔ ∃ c : Char, c.toString = name ∧ B c = some (p, f)) :
    R.Answers P B := by
  have known (p : Precedence) (name : String) : (R.operation? (.between p) name).isSome = true ↔
      ∃ (c : Char) (f : Operation), c.toString = name ∧ B c = some (p, f) := by
    simp only [Option.isSome_iff_exists, between]
    exact exists_comm
  have symbol (p : Precedence) (c : Char) : R.isSymbolIn (.between p) c = true ↔ ∃ f, B c = some (p, f) := by
    rw [isSymbolInSome, known]
    simp
  exact {
    isFunction name := by rw [isFunctionSome, leading]
    leadingTier name := by rw [leadingTier?, leading?, leading]
    betweenTier name tier := by
      simp only [betweenTierFound, known]
      grind
    isSymbol c := by
      rw [Bool.eq_iff_iff, symbolIffTier, Option.isSome_iff_exists]
      simp only [symbol, Prod.exists]
    symbolLeading c := by rw [isSymbolInSome, leading]
    symbolBetween := symbol
    sorted := R.namesSorted
    namesLeading name := by rw [memNames, leading]
    namesBetween p name := by rw [memNames, known]
    applyLeading name args := by
      rw [apply, applyOr, leading]
      rfl
    applyBetween p c f args recorded := by
      simp only [apply, applyOr, (between p c.toString f).mpr ⟨c, rfl, recorded⟩]
    applyAbsent p name args absent := by
      have none : R.operation? (.between p) name = none := by
        rw [← Option.not_isSome_iff_eq_none, known]
        rintro ⟨c, f, shown, recorded⟩
        exact absent c f recorded shown
      rw [apply, applyOr, none]
      rfl }

end

theorem Holds.answers {entries : List Entry} (holds : R.Holds entries) :
    R.Answers (fun name => latest (Entry.leading? name) entries) (fun symbol => latest (Entry.between? symbol) entries) :=
  answersOfTables holds.leading holds.between

theorem answersLatest (start : Start) (registrations : List Registration) :
    (start.registry.enrollAll registrations).Answers
      (fun name => latest (Entry.leading? name) (history start registrations))
      (fun symbol => latest (Entry.between? symbol) (history start registrations)) :=
  (historyHolds start registrations).answers

end Registry

end Formula
