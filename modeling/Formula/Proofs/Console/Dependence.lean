import Formula.Proofs.Console.Prompts

/-! What a run of the calculator depends on. Of the arguments these are the flags and the formula, unless a request for
help or a second formula comes first, and of the input the lines that are asked for. -/
namespace Formula

/- The induction is on the conversation, with the lines that remain for it. -/
theorem Dialogue.transcriptAgrees {d : Dialogue} {shown : String} {count : Nat} {input other : List UInt8}
    (enough : (d.questions shown input).length ≤ count)
    (agree : (cutLines count input).1 = (cutLines count other).1) :
    d.transcript input = d.transcript other := by
  induction d generalizing shown count input other with
  | finish output errors code => rfl
  | ask output next ih =>
    cases count with
    | zero => simp [Dialogue.questions] at enough
    | succ count =>
      obtain ⟨first, later⟩ : decodeLine (cutLine input).1 = decodeLine (cutLine other).1 ∧
          (cutLines count (cutLine input).2).1 = (cutLines count (cutLine other).2).1 := by
        simpa [cutLines] using agree
      have fewer : ((next (decodeLine (cutLine input).1)).questions (shown ++ output) (cutLine input).2).length ≤
          count := by simpa [Dialogue.questions] using enough
      simp only [Dialogue.transcript, ← first, ih _ fewer later]

namespace Calculator

def asksHelp (argument : String) : Bool := argument ∈ ["-h", "--help"]

def isFormula (argument : String) : Bool := argument ∉ ["--example", "--math", "-h", "--help"]

def Options.after (options : Options) (arguments : List String) : Options where
  showSample := options.showSample || decide ("--example" ∈ arguments)
  elementary := options.elementary || decide ("--math" ∈ arguments)
  formula := options.formula.or (arguments.filter isFormula).head?

structure Matching (arguments others : List String) : Prop where
  noHelp : ∀ argument ∈ arguments ++ others, asksHelp argument = false
  single : (arguments.filter isFormula).length ≤ 1
  formula : arguments.filter isFormula = others.filter isFormula
  flags : ∀ flag ∈ ["--example", "--math"], (flag ∈ arguments ↔ flag ∈ others)

def valuesNeeded (R : Registry) : Line → Nat
  | .error _ => 0
  | .ok formula => match R.read formula with
    | .error _ => 0
    | .ok e => e.variableNames.length

def linesNeeded (arguments : List String) (input : List UInt8) : Nat :=
  match request ⟨false, false, none⟩ arguments with
  | .help => 0
  | .misuse => 0
  | .run options =>
    if options.showSample then 0
    else (if options.formula.isNone then 1 else 0) +
      valuesNeeded (registry options.elementary) (options.received input).1

theorem Options.afterNone (options : Options) : options.after [] = options := by
  simp [Options.after]

theorem Options.afterCons (options : Options) (argument : String) (arguments : List String) :
    options.after (argument :: arguments) = (options.after [argument]).after arguments := by
  have heads : ((argument :: arguments).filter isFormula).head? =
      ([argument].filter isFormula).head?.or (arguments.filter isFormula).head? := by
    cases formula : isFormula argument <;> simp [formula]
  simp [Options.after, heads, Bool.or_assoc, Option.or_assoc]

section
variable {options : Options} {argument shown : String} {front rest : List String}

theorem requestHelped (rest : List String) (asks : asksHelp argument = true) :
    request options (argument :: rest) = .help := by
  have known : argument = "-h" ∨ argument = "--help" := by simpa [asksHelp] using asks
  rcases known with rfl | rfl <;> simp [request]

theorem requestStep (rest : List String) (plain : asksHelp argument = false)
    (room : isFormula argument = true → options.formula = none) :
    request options (argument :: rest) = request (options.after [argument]) rest := by
  by_cases sample : argument = "--example"
  · subst sample
    simp [request, Options.after, isFormula]
  · by_cases elementary : argument = "--math"
    · subst elementary
      simp [request, Options.after, isFormula]
    · have noHelp : argument ≠ "-h" ∧ argument ≠ "--help" := by simpa [asksHelp] using plain
      have formula : isFormula argument = true := by simp [isFormula, sample, elementary, noHelp]
      simp [request, Options.after, sample, elementary, noHelp, formula, room formula, Ne.symm sample,
        Ne.symm elementary]

theorem requestSecond (rest : List String) (second : isFormula argument = true)
    (taken : options.formula.isSome = true) : request options (argument :: rest) = .misuse := by
  have other : argument ≠ "--example" ∧ argument ≠ "--math" ∧ argument ≠ "-h" ∧ argument ≠ "--help" := by
    simpa [isFormula] using second
  obtain ⟨formula, given⟩ := Option.isSome_iff_exists.mp taken
  simp [request, other, given]

theorem requestFront (rest : List String)
    (few : options.formula.toList.length + (front.filter isFormula).length ≤ 1) :
    request options (front ++ rest) = if front.any asksHelp then .help else request (options.after front) rest := by
  induction front generalizing options with
  | nil => simp [Options.afterNone]
  | cons argument front ih =>
    rw [List.cons_append, List.any_cons]
    cases helps : asksHelp argument with
    | true => rw [requestHelped _ helps, Bool.true_or, if_pos rfl]
    | false =>
      have room : isFormula argument = true → options.formula = none := by
        intro formula
        have none : options.formula.toList.length = 0 := by
          simp only [List.filter_cons_of_pos formula, List.length_cons] at few
          omega
        simpa using none
      have fewer : (options.after [argument]).formula.toList.length + (front.filter isFormula).length ≤ 1 := by
        cases formula : isFormula argument with
        | true => simpa [Options.after, formula, room formula, Nat.add_comm] using few
        | false => simpa [Options.after, formula] using few
      rw [requestStep _ helps room, ih fewer, ← Options.afterCons, Bool.false_or]

theorem requestOptions {arguments : List String} (noHelp : ∀ argument ∈ arguments, asksHelp argument = false)
    (few : (arguments.filter isFormula).length ≤ 1) :
    request ⟨false, false, none⟩ arguments = .run (Options.after ⟨false, false, none⟩ arguments) := by
  have silent : arguments.any asksHelp = false := by simpa using noHelp
  have taken := @requestFront ⟨false, false, none⟩ arguments [] (by simpa using few)
  simpa [silent, request] using taken

theorem requestMatching {arguments others : List String} (matching : Matching arguments others) :
    request ⟨false, false, none⟩ arguments = request ⟨false, false, none⟩ others := by
  have options : Options.after ⟨false, false, none⟩ arguments = Options.after ⟨false, false, none⟩ others := by
    simp [Options.after, matching.formula, matching.flags]
  have noHelp : ∀ argument ∈ arguments, asksHelp argument = false :=
    fun argument member => matching.noHelp argument (List.mem_append_left others member)
  have noOtherHelp : ∀ argument ∈ others, asksHelp argument = false :=
    fun argument member => matching.noHelp argument (List.mem_append_right arguments member)
  have few : (others.filter isFormula).length ≤ 1 := by
    rw [← matching.formula]
    exact matching.single
  rw [requestOptions noHelp matching.single, requestOptions noOtherHelp few, options]

theorem requestMisuse {second : String} (noHelp : ∀ argument ∈ front, asksHelp argument = false)
    (one : (front.filter isFormula).length = 1) (formula : isFormula second = true) :
    request ⟨false, false, none⟩ (front ++ second :: rest) = .misuse := by
  have silent : front.any asksHelp = false := by simpa using noHelp
  obtain ⟨first, taken⟩ := List.length_eq_one_iff.mp one
  rw [requestFront _ (by simp [one]), silent, if_neg Bool.false_ne_true]
  exact requestSecond rest formula (by simp [Options.after, taken])

theorem requestHelp {help : String} (few : (front.filter isFormula).length ≤ 1) (asks : asksHelp help = true) :
    request ⟨false, false, none⟩ (front ++ help :: rest) = .help := by
  rw [requestFront _ (by simpa using few), requestHelped rest asks, ite_self]

theorem askValuesNeed {names : List String} {bindings : Bindings} {goOn : Bindings → Dialogue} {input : List UInt8}
    (last : ∀ bindings shown input, (goOn bindings).questions shown input = []) :
    ((askValues names bindings goOn).questions shown input).length ≤ names.length := by
  induction names generalizing bindings shown input with
  | nil => simp [askValues, last]
  | cons name names ih =>
    rw [askValuesCons, Dialogue.questions, List.length_cons, List.length_cons, Nat.add_le_add_iff_right]
    cases entryValue? (decodeLine (cutLine input).1) with
    -- a line without a number ends the prompts before their number is reached
    | none => simp [fail, Dialogue.questions]
    | some value => exact ih

theorem calculateNeeds (R : Registry) (formula shown : String) (input : List UInt8) :
    ((calculate R formula).questions shown input).length ≤ valuesNeeded R (.ok formula) := by
  rw [calculate, valuesNeeded]
  cases read : R.read formula with
  | error error => simp [fail, Dialogue.questions]
  | ok e =>
    rw [sayQuestions]
    refine askValuesNeed fun bindings shown input => ?_
    rw [showValue]
    split <;> rfl

theorem dialogueNeeds (arguments : List String) (input : List UInt8) :
    ((dialogue arguments).questions "" input).length ≤ linesNeeded arguments input := by
  rw [dialogue, linesNeeded]
  cases request ⟨false, false, none⟩ arguments with
  | help => simp [Dialogue.questions]
  | misuse => simp [Dialogue.questions]
  | run options =>
    simp only [run]
    cases options.showSample with
    | true => simp [Dialogue.questions]
    | false =>
      cases given : options.formula with
      | some formula => simpa [Options.received, given] using calculateNeeds _ formula "" input
      | none =>
        rw [if_neg Bool.false_ne_true, Dialogue.questions, List.length_cons, Nat.add_comm]
        simp only [Options.received, given]
        refine Nat.add_le_add_left ?_ 1
        cases decodeLine (cutLine input).1 with
        | error fault => exact Nat.le_refl 0
        | ok formula => exact calculateNeeds _ formula _ (cutLine input).2

end

/- Lines that have the same bytes, or are missing in both inputs, are the same line here. -/
theorem transcriptDepends (arguments : List String) (input : List UInt8) :
    (∀ others, Matching arguments others →
      (dialogue arguments).transcript input = (dialogue others).transcript input) ∧
    (∀ front second rest, arguments = front ++ second :: rest → (∀ argument ∈ front, asksHelp argument = false) →
      (front.filter isFormula).length = 1 → isFormula second = true →
      (dialogue arguments).transcript input = ⟨"", usage, 1⟩) ∧
    (∀ front help rest, arguments = front ++ help :: rest → (front.filter isFormula).length ≤ 1 →
      asksHelp help = true → (dialogue arguments).transcript input = ⟨usage, "", 0⟩) ∧
    ∀ other, (cutLines (linesNeeded arguments input) input).1 = (cutLines (linesNeeded arguments input) other).1 →
      (dialogue arguments).transcript input = (dialogue arguments).transcript other := by
  refine ⟨?_, ?_, ?_, ?_⟩
  · intro others matching
    rw [dialogue, dialogue, requestMatching matching]
  · rintro front second rest rfl noHelp one formula
    rw [dialogue, requestMisuse noHelp one formula]
    rfl
  · rintro front help rest rfl few asks
    rw [dialogue, requestHelp few asks]
    rfl
  · intro other agree
    exact Dialogue.transcriptAgrees (dialogueNeeds arguments input) agree

theorem transcriptDependsMaximum : ∃ input other : List UInt8,
    input = "max(x,2)\n3\nrest".toUTF8.data.toList ∧ other = "max(x,2)\r\n3\r\n".toUTF8.data.toList ∧
    Matching ["--math"] ["--math", "--math"] ∧
    (dialogue ["--math"]).transcript input = (dialogue ["--math", "--math"]).transcript input ∧
    (dialogue ["x", "--example", "y", "-h"]).transcript input = ⟨"", usage, 1⟩ ∧
    (dialogue ["x", "--example", "-h", "y"]).transcript input = ⟨usage, "", 0⟩ ∧
    linesNeeded ["--math"] input = 2 ∧
    (dialogue ["--math"]).transcript input = (dialogue ["--math"]).transcript other := by
  obtain ⟨input, typed⟩ : ∃ input : List UInt8, input = "max(x,2)\n3\nrest".toUTF8.data.toList := ⟨_, rfl⟩
  have matching : Matching ["--math"] ["--math", "--math"] := ⟨by decide, by decide, by decide, by decide⟩
  obtain ⟨honoured, -, -, lines⟩ := transcriptDepends ["--math"] input
  obtain ⟨-, misuse, -⟩ := transcriptDepends ["x", "--example", "y", "-h"] input
  obtain ⟨-, -, help, -⟩ := transcriptDepends ["x", "--example", "-h", "y"] input
  have needed : linesNeeded ["--math"] input = 2 := by
    rw [typed]
    decide +kernel
  refine ⟨input, _, typed, rfl, matching, honoured _ matching,
    misuse ["x", "--example"] "y" ["-h"] rfl (by decide) (by decide) (by decide),
    help ["x", "--example"] "-h" ["y"] rfl (by decide) (by decide), needed, lines _ ?_⟩
  rw [needed, typed]
  rfl

end Calculator

end Formula
