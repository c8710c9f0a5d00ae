import Mathlib.Data.List.Basic
import Formula.Proofs.Expr.PostOrder
import Formula.Proofs.Registry.Latest
import Formula.Session

/-! What evaluation takes from a registry: the operations recorded for the names of the formula, each in its own space of
names. The precedence of a symbol and every other name have no part in it, whenever they were registered. -/
namespace Formula

structure Alike (e : Expr) (R R' : Registry) : Prop where
  unary : ∀ symbol operand, .unary symbol operand ∈ e.nodes →
    R.operation? .leading symbol = R'.operation? .leading symbol
  call : ∀ name arguments, .call name arguments ∈ e.nodes → R.operation? .leading name = R'.operation? .leading name
  binary : ∀ symbol left right, .binary symbol left right ∈ e.nodes → ∀ f,
    (∃ p, R.operation? (.between p) symbol = some f) ↔ ∃ p, R'.operation? (.between p) symbol = some f

section
variable {e : Expr} {R R' : Registry} {bindings : Bindings}

theorem Alike.operation (alike : Alike e R R') {node : Expr} (member : node ∈ e.nodes) :
    node.instruction.operation? R = node.instruction.operation? R' := by
  cases node with
  | term payload => rfl
  | binary symbol left right =>
    refine Option.ext fun f => ?_
    simp only [Expr.instruction, Instruction.operation?, Registry.betweenRecorded]
    exact alike.binary symbol left right member f
  | unary symbol operand => exact alike.unary symbol operand member
  | call name arguments => exact alike.call name arguments member

theorem outcomeAlike {i : Instruction} {args : List Float} (same : i.operation? R = i.operation? R') :
    i.outcome R bindings args = i.outcome R' bindings args := by
  cases operator : i.operator? with
  | some operator => rw [outcomeOperate operator, outcomeOperate operator, same]
  | none =>
    cases i with
    | push payload => rfl
    | binary symbol | unary symbol | call name count => contradiction

theorem executeAlike {program : List Instruction} (same : ∀ i ∈ program, i.operation? R = i.operation? R')
    (stack : List Float) : execute R bindings program stack = execute R' bindings program stack := by
  induction program generalizing stack with
  | nil => rfl
  | cons i program ih =>
    obtain ⟨here, later⟩ := List.forall_mem_cons.mp same
    have step : i.step R bindings stack = i.step R' bindings stack := by
      rw [Instruction.step, Instruction.step, outcomeAlike here]
    rw [execute, execute, List.foldlM_cons, List.foldlM_cons, step]
    cases i.step R' bindings stack with
    | error halt => rfl
    | ok next => exact ih later next

theorem pushedInjective (stack : List Float) {first second : Except EvalError Float}
    (same : pushed stack first = pushed stack second) : first = second := by
  cases first <;> cases second <;> simp_all [pushed, laid, Except.map]

theorem evaluateAlike (alike : Alike e R R') : e.evaluate R bindings = e.evaluate R' bindings := by
  have same : ∀ i ∈ e.program, i.operation? R = i.operation? R' := by
    intro i member
    obtain ⟨node, inside, rfl⟩ := List.mem_map.mp member
    exact alike.operation inside
  refine pushedInjective [] ?_
  rw [← executeProgram, ← executeProgram]
  exact executeAlike same []

namespace Alike

theorem refl (e : Expr) (R : Registry) : Alike e R R := ⟨by simp, by simp, by simp⟩

theorem trans {R'' : Registry} (first : Alike e R R') (second : Alike e R' R'') : Alike e R R'' where
  unary symbol operand member := (first.unary symbol operand member).trans (second.unary symbol operand member)
  call name arguments member := (first.call name arguments member).trans (second.call name arguments member)
  binary symbol left right member f :=
    (first.binary symbol left right member f).trans (second.binary symbol left right member f)

end Alike

def Entry.Concerns (e : Expr) : Entry → Prop
  | .leading name _ => (∃ operand, .unary name operand ∈ e.nodes) ∨ ∃ arguments, .call name arguments ∈ e.nodes
  | .between _ c _ => ∃ left right, .binary c.toString left right ∈ e.nodes

def Entry.symbol? (name : String) : Entry → Option Operation
  | .leading .. => none
  | .between _ c f => if c.toString = name then some f else none

theorem recordBetween (entry : Entry) (R : Registry) (name : String) :
    ((R.record entry).between? name).map Prod.snd = (entry.symbol? name).or ((R.between? name).map Prod.snd) := by
  refine Option.ext fun g => ?_
  rw [Registry.betweenRecorded]
  cases entry with
  | leading other f =>
    simp only [Registry.record, Registry.register, Registry.operationLeading, Entry.symbol?, Option.none_or,
      Registry.betweenRecorded]
  | between p c f =>
    simp only [Registry.record, Registry.registerSymbol, Registry.operationInsert, Entry.symbol?]
    generalize c.toString = key
    by_cases same : key = name
    · simp [same]
    · simp only [same, false_and, if_false, Option.none_or, Registry.betweenRecorded]

theorem recordedSame {name : String} :
    (∀ f, (∃ p, R.operation? (.between p) name = some f) ↔ ∃ p, R'.operation? (.between p) name = some f) ↔
      (R.between? name).map Prod.snd = (R'.between? name).map Prod.snd := by
  rw [Option.ext_iff]
  simp only [Registry.betweenRecorded]

namespace Alike

theorem record (alike : Alike e R R') (entry : Entry) : Alike e (R.record entry) (R'.record entry) where
  unary symbol operand member := by
    rw [Registry.recordLeading, Registry.recordLeading, alike.unary symbol operand member]
  call name arguments member := by
    rw [Registry.recordLeading, Registry.recordLeading, alike.call name arguments member]
  binary symbol left right member := by
    rw [recordedSame, recordBetween, recordBetween, recordedSame.mp (alike.binary symbol left right member)]

theorem unconcerned {entry : Entry} (apart : ¬ entry.Concerns e) (R : Registry) : Alike e (R.record entry) R where
  unary symbol operand member := by
    have silent : entry.leading? symbol = none := by
      cases entry with
      | leading name f => exact if_neg fun same : name = symbol => apart (.inl ⟨operand, same ▸ member⟩)
      | between p c f => rfl
    rw [Registry.recordLeading, silent, Option.none_or]
  call name arguments member := by
    have silent : entry.leading? name = none := by
      cases entry with
      | leading other f => exact if_neg fun same : other = name => apart (.inr ⟨arguments, same ▸ member⟩)
      | between p c f => rfl
    rw [Registry.recordLeading, silent, Option.none_or]
  binary symbol left right member := by
    have silent : entry.symbol? symbol = none := by
      cases entry with
      | leading name f => rfl
      | between p c f => exact if_neg fun same : c.toString = symbol => apart ⟨left, right, same ▸ member⟩
    rw [recordedSame, recordBetween, silent, Option.none_or]

theorem moved {p : Precedence} {c : Char} {f : Operation} (recorded : R.operation? (.between p) c.toString = some f)
    (q : Precedence) : Alike e (R.record (.between q c f)) R where
  unary symbol operand member := by rw [Registry.recordLeading, Entry.leading?, Option.none_or]
  call name arguments member := by rw [Registry.recordLeading, Entry.leading?, Option.none_or]
  binary symbol left right member := by
    rw [recordedSame, recordBetween, Entry.symbol?]
    split
    · rename_i same
      rw [← same, Option.some_or, Registry.betweenRecorded.mpr ⟨p, recorded⟩]
    · rw [Option.none_or]

theorem recordAll (alike : Alike e R R') (entries : List Entry) :
    Alike e (entries.foldl Registry.record R) (entries.foldl Registry.record R') := by
  induction entries generalizing R R' with
  | nil => exact alike
  | cons entry entries ih => exact ih (alike.record entry)

theorem unconcernedAll {entries : List Entry} (apart : ∀ entry ∈ entries, ¬ entry.Concerns e) (R : Registry) :
    Alike e (entries.foldl Registry.record R) R := by
  induction entries generalizing R with
  | nil => exact .refl e R
  | cons entry entries ih =>
    obtain ⟨here, later⟩ := List.forall_mem_cons.mp apart
    exact (ih later (R.record entry)).trans (unconcerned here R)

end Alike

/- The second list of registrations with others put in that do not matter to the formula: they concern none of its names,
or give a symbol another precedence and the operation that it has. -/
inductive Padded (e : Expr) : Registry → List Registration → List Registration → Prop where
  | done {R : Registry} : Padded e R [] []
  | both {R : Registry} {registration : Registration} {longer shorter : List Registration}
      (rest : Padded e (R.enroll registration) longer shorter) :
      Padded e R (registration :: longer) (registration :: shorter)
  | unrelated {R : Registry} {registration : Registration} {longer shorter : List Registration}
      (apart : ∀ entry ∈ registration.entries, ¬ entry.Concerns e)
      (rest : Padded e (R.enroll registration) longer shorter) : Padded e R (registration :: longer) shorter
  | moved {R : Registry} {p q : Precedence} {c : Char} {f : Operation} {longer shorter : List Registration}
      (recorded : R.operation? (.between p) c.toString = some f)
      (rest : Padded e (R.enroll (.symbol (.between q) c f)) longer shorter) :
      Padded e R (.symbol (.between q) c f :: longer) shorter

theorem Padded.alike {longer shorter : List Registration} (padded : Padded e R longer shorter) (alike : Alike e R R') :
    Alike e (R.enrollAll longer) (R'.enrollAll shorter) := by
  induction padded generalizing R' with
  | done => exact alike
  | both rest ih =>
    refine ih ?_
    rw [Registry.enrollRecorded, Registry.enrollRecorded]
    exact alike.recordAll _
  | unrelated apart rest ih =>
    refine ih (.trans ?_ alike)
    rw [Registry.enrollRecorded]
    exact .unconcernedAll apart _
  | moved recorded rest ih => exact ih (.trans (.moved recorded _) alike)

end

def Session.enrollAll (s : Session) (registrations : List Registration) : Session := registrations.foldl enroll s

theorem enrolledSession (s : Session) (registrations : List Registration) :
    s.enrollAll registrations = ⟨s.registry.enrollAll registrations, s.current⟩ := by
  induction registrations generalizing s with
  | nil => rfl
  | cons registration registrations ih => exact ih (s.enroll registration)

theorem enrolledValue {s : Session} {text : String} {former later : List Registration} {e : Expr} {bindings : Bindings}
    (read : (s.enrollAll former).registry.read text = .ok e) :
    (((s.enrollAll former).parse text).enrollAll later).evaluate bindings =
      e.evaluate (s.registry.enrollAll (former ++ later)) bindings := by
  rw [enrolledSession] at read
  rw [enrolledSession, enrolledSession, Session.evaluate, Session.evaluateWith, Session.parse, read, Registry.enrollAll,
    Registry.enrollAll, Registry.enrollAll, List.foldl_append]
  rfl

theorem evaluatesRecorded (e : Expr) :
    (∀ R R', Alike e R R' → ∀ bindings, e.evaluate R bindings = e.evaluate R' bindings) ∧
    (∀ R longer shorter, Padded e R longer shorter → ∀ bindings,
      e.evaluate (R.enrollAll longer) bindings = e.evaluate (R.enrollAll shorter) bindings) ∧
    ∀ (s : Session) text former former' later later',
      (s.enrollAll former).registry.read text = .ok e → (s.enrollAll former').registry.read text = .ok e →
      Padded e s.registry (former ++ later) (former' ++ later') → ∀ bindings,
        (((s.enrollAll former).parse text).enrollAll later).evaluate bindings =
          (((s.enrollAll former').parse text).enrollAll later').evaluate bindings := by
  refine ⟨fun R R' alike bindings => evaluateAlike alike, fun R longer shorter padded bindings => ?_, ?_⟩
  · exact evaluateAlike (padded.alike (.refl e R))
  · intro s text former former' later later' read read' padded bindings
    rw [enrolledValue read, enrolledValue read']
    exact evaluateAlike (padded.alike (.refl e s.registry))

/- Subtraction becomes multiplicative before the text is read, and the elementary functions follow behind. -/
theorem evaluatesRecordedMoved :
    let e := .binary "-" (.term "a") (.call "abs" [.term "b"])
    let moved := .symbol (.between .multiplicative) '-' .difference
    let s := Session.ofRegistry .standard
    Alike e (Registry.standard.enroll moved) .standard ∧
    (Registry.standard.enroll moved).betweenTier? "-" = some (.between .multiplicative) ∧
    Registry.standard.betweenTier? "-" = some (.between .additive) ∧
    (s.enrollAll [moved]).registry.read "a-abs(b)" = .ok e ∧ (s.enrollAll []).registry.read "a-abs(b)" = .ok e ∧
    Padded e .standard ([moved] ++ [.elementary]) ([] ++ []) ∧ ∀ bindings,
      e.evaluate (Registry.standard.enroll moved) bindings = e.evaluate .standard bindings ∧
      e.evaluate (Registry.standard.enrollAll [moved, .elementary]) bindings = e.evaluate .standard bindings ∧
      (((s.enrollAll [moved]).parse "a-abs(b)").enrollAll [.elementary]).evaluate bindings =
        (((s.enrollAll []).parse "a-abs(b)").enrollAll []).evaluate bindings := by
  intro e moved s
  have recorded : Registry.standard.operation? (.between .additive) '-'.toString = some .difference := rfl
  have alike : Alike e (Registry.standard.enroll moved) .standard := .moved recorded _
  have apart : ∀ entry ∈ Registration.elementary.entries, ¬ entry.Concerns e := by
    simp [Registration.entries, elementaryEntries, Entry.Concerns, e, Expr.nodes, Expr.nodesAll]
  have padded : Padded e .standard ([moved] ++ [.elementary]) ([] ++ []) := .moved recorded (.unrelated apart .done)
  have first : (s.enrollAll [moved]).registry.read "a-abs(b)" = .ok e := by decide +kernel
  have second : (s.enrollAll []).registry.read "a-abs(b)" = .ok e := by decide +kernel
  obtain ⟨same, longer, session⟩ := evaluatesRecorded e
  exact ⟨alike, by decide +kernel, by decide +kernel, first, second, padded, fun bindings =>
    ⟨same _ _ alike bindings, longer _ _ _ padded bindings, session s _ _ _ _ _ first second padded bindings⟩⟩

end Formula
