import Mathlib.Data.List.Basic
import Formula.Console
import Formula.Proofs.Decimal.Shown
import Formula.Proofs.Expr.Variables
import Formula.Proofs.Session.Execution

/-! What the calculator asks for. It prompts once for each variable of the formula and takes one line behind each
prompt, up to the first line that is no number. Once every line is a number, only an operation can still fail. -/
namespace Formula

structure Question where
  shown : String
  line : Line

def Dialogue.questions (shown : String) : Dialogue → List UInt8 → List Question
  | .finish _ _ _, _ => []
  | .ask output next, input =>
    let (line, rest) := cutLine input
    ⟨shown ++ output, decodeLine line⟩ :: (next (decodeLine line)).questions (shown ++ output) rest

theorem sayQuestions (text shown : String) (d : Dialogue) (input : List UInt8) :
    (d.say text).questions shown input = d.questions (shown ++ text) input := by
  cases d <;> simp [Dialogue.say, Dialogue.questions, String.append_assoc]

def cutLines : Nat → List UInt8 → List Line × List UInt8
  | 0, input => ([], input)
  | count + 1, input =>
    let (lines, rest) := cutLines count (cutLine input).2
    (decodeLine (cutLine input).1 :: lines, rest)

theorem cutLinesLength (count : Nat) (input : List UInt8) : (cutLines count input).1.length = count := by
  induction count generalizing input with
  | zero => rfl
  | succ count ih => simp [cutLines, ih]

theorem evaluateBound {R : Registry} {e : Expr} {bindings : Bindings} (known : Executable R e)
    (bound : ∀ name ∈ e.variableNames, (bindings name).isSome = true) :
    (∃ value, e.evaluate R bindings = .ok value) ∨
      ∃ name cause, e.evaluate R bindings = .error (.failed name cause) := by
  have supported := evaluateSupported bindings known
  cases outcome : e.evaluate R bindings with
  | ok value => exact .inl ⟨value, rfl⟩
  | error failure =>
    cases failure with
    | failed name cause => exact .inr ⟨name, cause, rfl⟩
    | unsupported kind name => exact absurd outcome (supported.2 kind name)
    | noFormula => exact absurd outcome supported.1
    | unbound name =>
      have first := (Expr.evaluateNeeds e).missing name outcome
      have absent : (bindings name).isNone = true := by simpa using List.find?_some first
      have present := bound name ((e.memVariableNames name).mpr (List.mem_of_find?_eq_some first))
      rw [Option.isNone_iff_eq_none.mp absent] at present
      contradiction

namespace Calculator

def entryValue? : Line → Option Float
  | .ok line => numeralValue? (trimBlanks line.toList)
  | .error _ => none

def entryFault (name : String) : Line → String
  | .ok line => "Incorrect value for '" ++ name ++ "': " ++ String.ofList (trimBlanks line.toList)
  | .error fault => fault.message

def prompt (name : String) : String := name ++ " = "

def prompts (names : List String) : String := String.join (names.map prompt)

def asked (shown : String) : List String → List Line → List Question
  | name :: names, line :: lines => ⟨shown ++ prompt name, line⟩ :: asked (shown ++ prompt name) names lines
  | _, _ => []

def entered (names : List String) (values : List Float) : Bindings := fun name => (names.zip values).lookup name

def bindAll (bindings : Bindings) (entries : List (String × Float)) : Bindings :=
  entries.foldl (fun bindings entry => bindValue bindings entry.1 entry.2) bindings

def Enters (names : List String) (input : List UInt8) (values : List Float) : Prop :=
  (cutLines names.length input).1.map entryValue? = values.map some

/- Of the lines behind `first`, all are numbers before the one for `name`, and there the conversation ends. -/
inductive Stops (first : List Question) (shown : String) (names : List String) (input : List UInt8)
    (questions : List Question) (transcript : Transcript) : Prop where
  | early (former : List String) (name : String) (later : List String) (before : List Line) (line : Line)
      (place : names = former ++ name :: later)
      (lines : (cutLines (former.length + 1) input).1 = before ++ [line])
      (valid : ∀ entry ∈ before, (entryValue? entry).isSome = true) (fault : entryValue? line = none)
      (prompted : questions = first ++ asked shown (former ++ [name]) (before ++ [line]))
      (ends : transcript =
        ⟨shown ++ prompts (former ++ [name]), linesText ["Error: " ++ entryFault name line], 1⟩) :
      Stops first shown names input questions transcript

section
variable {names : List String} {values : List Float} {bindings : Bindings} {goOn : Bindings → Dialogue}
variable {shown name : String} {input : List UInt8} {value : Float}

theorem promptsCons (name : String) (names : List String) : prompts (name :: names) = prompt name ++ prompts names := by
  simp [prompts]

theorem bindAllLookup {entries : List (String × Float)} (distinct : (entries.map Prod.fst).Nodup) (name : String) :
    bindAll bindings entries name = (entries.lookup name).or (bindings name) := by
  induction entries generalizing bindings with
  | nil => rfl
  | cons entry entries ih =>
    obtain ⟨key, value⟩ := entry
    obtain ⟨fresh, later⟩ := List.nodup_cons.mp distinct
    change bindAll (bindValue bindings key value) entries name = _
    rw [ih later, bindValue, List.lookup_cons]
    by_cases same : name = key
    · subst same
      have absent : entries.lookup name = none := by
        rw [List.lookup_eq_none_iff]
        intro entry member
        have differs : name ≠ entry.1 := fun equal => fresh (List.mem_map.mpr ⟨entry, member, equal.symm⟩)
        simpa using differs
      simp [absent]
    · rw [if_neg same, beq_eq_false_iff_ne.mpr same]

theorem bindAllEntered (distinct : names.Nodup) (size : names.length = values.length) :
    bindAll (fun _ => none) (names.zip values) = entered names values := by
  funext name
  have keys : ((names.zip values).map Prod.fst).Nodup := by rwa [List.map_fst_zip (Nat.le_of_eq size)]
  rw [bindAllLookup keys, Option.or_none, entered]

theorem enteredBound (size : names.length = values.length) (member : name ∈ names) :
    (entered names values name).isSome = true := by
  rw [← List.map_fst_zip (Nat.le_of_eq size), List.mem_map] at member
  obtain ⟨entry, inside, rfl⟩ := member
  exact List.lookup_isSome_iff.mpr ⟨entry, inside, by simp⟩

theorem entersSize (enters : Enters names input values) : names.length = values.length := by
  have sizes := congrArg List.length enters
  simpa [cutLinesLength] using sizes

theorem entersCons : Enters (name :: names) input (value :: values) ↔
    entryValue? (decodeLine (cutLine input).1) = some value ∧ Enters names (cutLine input).2 values := by
  simp [Enters, cutLines]

theorem askValuesCons (name : String) (names : List String) (bindings : Bindings) (goOn : Bindings → Dialogue) :
    askValues (name :: names) bindings goOn = .ask (prompt name) fun line =>
      match entryValue? line with
      | some value => askValues names (bindValue bindings name value) goOn
      | none => fail (entryFault name line) := by
  rw [askValues]
  refine congrArg (Dialogue.ask (prompt name)) (funext fun line => ?_)
  cases line with
  | error fault => rfl
  | ok text =>
    simp only [entryValue?]
    cases numeralValue? (trimBlanks text.toList) <;> rfl

theorem askQuestions (worth : entryValue? (decodeLine (cutLine input).1) = some value) :
    (askValues (name :: names) bindings goOn).questions shown input =
      ⟨shown ++ prompt name, decodeLine (cutLine input).1⟩ ::
        (askValues names (bindValue bindings name value) goOn).questions (shown ++ prompt name) (cutLine input).2 := by
  simp only [askValuesCons, Dialogue.questions, worth]

theorem askTranscript (worth : entryValue? (decodeLine (cutLine input).1) = some value) :
    ((askValues (name :: names) bindings goOn).say shown).transcript input =
      ((askValues names (bindValue bindings name value) goOn).say (shown ++ prompt name)).transcript
        (cutLine input).2 := by
  simp only [askValuesCons, Dialogue.sayTranscript, Dialogue.transcript, worth, String.append_assoc]

theorem valuesAnswered (shown : String) (bindings : Bindings) (enters : Enters names input values) :
    (askValues names bindings goOn).questions shown input = asked shown names (cutLines names.length input).1 ++
      (goOn (bindAll bindings (names.zip values))).questions (shown ++ prompts names)
        (cutLines names.length input).2 ∧
    ((askValues names bindings goOn).say shown).transcript input =
      ((goOn (bindAll bindings (names.zip values))).say (shown ++ prompts names)).transcript
        (cutLines names.length input).2 := by
  induction names generalizing values bindings shown input with
  | nil => simp [askValues, cutLines, asked, prompts, bindAll]
  | cons name names ih =>
    cases values with
    | nil => cases entersSize enters
    | cons value values =>
      obtain ⟨worth, later⟩ := entersCons.mp enters
      obtain ⟨questions, transcript⟩ := ih (shown ++ prompt name) (bindValue bindings name value) later
      rw [promptsCons, ← String.append_assoc]
      constructor
      · rw [askQuestions worth, questions]
        rfl
      · rw [askTranscript worth, transcript]
        rfl

/- The induction is on the names, with the questions before them and the text shown so far. -/
theorem valuesStopped (first : List Question) (shown : String) (names : List String) (input : List UInt8)
    (bindings : Bindings) :
    (∃ values, Enters names input values) ∨
      Stops first shown names input (first ++ (askValues names bindings goOn).questions shown input)
        (((askValues names bindings goOn).say shown).transcript input) := by
  induction names generalizing bindings first shown input with
  | nil => exact .inl ⟨[], rfl⟩
  | cons name names ih =>
    let line := decodeLine (cutLine input).1
    cases worth : entryValue? line with
    | none =>
      refine .inr (.early [] name names [] line rfl rfl (by simp) worth ?_ ?_)
      · simp only [askValuesCons, Dialogue.questions, worth, fail, line]
        rfl
      · simp [askValuesCons, Dialogue.say, Dialogue.transcript, worth, fail, prompts, line]
    | some value =>
      rcases ih (first ++ [⟨shown ++ prompt name, line⟩]) (shown ++ prompt name) (cutLine input).2
        (bindValue bindings name value) with
        ⟨values, enters⟩ | ⟨former, other, later, before, entry, place, lines, valid, fault, prompted, ends⟩
      · exact .inl ⟨value :: values, entersCons.mpr ⟨worth, enters⟩⟩
      · refine .inr (.early (name :: former) other later (line :: before) entry (by rw [place]; rfl) ?_ ?_ fault ?_ ?_)
        · simp [cutLines, ← lines, line]
        · simpa [worth] using valid
        · rw [askQuestions worth]
          simpa [asked, line] using prompted
        · rw [askTranscript worth, ends, List.cons_append, promptsCons, String.append_assoc]

end

namespace Options

def received (options : Options) (input : List UInt8) : Line × List UInt8 :=
  match options.formula with
  | some formula => (.ok formula, input)
  | none => (decodeLine (cutLine input).1, (cutLine input).2)

def invitation (options : Options) : String :=
  match options.formula with
  | some _ => ""
  | none => linesText ["Input math expression:"]

def formulaQuestions (options : Options) (input : List UInt8) : List Question :=
  match options.formula with
  | some _ => []
  | none => [⟨options.invitation, (options.received input).1⟩]

def opening (options : Options) (e : Expr) : String := options.invitation ++ linesText [e.render]

end Options

/- The course of a conversation behind a formula that was read. Every variable is prompted for once and in order, and
the values that are entered leave only the failure of an operation, or else the first line without one ends it. The
result is written as a number that is read back as the value. -/
structure Asks (options : Options) (e : Expr) (input rest : List UInt8) (d : Dialogue) : Prop where
  sorted : e.variableNames.Pairwise (· < ·)
  answered : ∀ values, Enters e.variableNames rest values →
    d.questions "" input = options.formulaQuestions input ++
      asked (options.opening e) e.variableNames (cutLines e.variableNames.length rest).1 ∧
    ((∃ value, e.evaluate (registry options.elementary) (entered e.variableNames values) = .ok value ∧
        numeralValue? (numberText value).toList = some value ∧
        d.transcript input =
          ⟨options.opening e ++ prompts e.variableNames ++ linesText ["Result: " ++ numberText value], "", 0⟩) ∨
      ∃ name cause,
        e.evaluate (registry options.elementary) (entered e.variableNames values) = .error (.failed name cause) ∧
        d.transcript input = ⟨options.opening e ++ prompts e.variableNames,
          linesText ["Error: " ++ (EvalError.failed name cause).message], 1⟩)
  stopped : (∃ values, Enters e.variableNames rest values) ∨
    Stops (options.formulaQuestions input) (options.opening e) e.variableNames rest (d.questions "" input)
      (d.transcript input)

section
variable {arguments : List String} {options : Options} {input rest : List UInt8} {formula : String} {e : Expr}

theorem dialogueOpened (runs : request ⟨false, false, none⟩ arguments = .run options)
    (calculates : options.showSample = false) (taken : options.received input = (.ok formula, rest))
    (read : (registry options.elementary).read formula = .ok e) :
    let values := askValues e.variableNames (fun _ => none) (showValue (registry options.elementary) e)
    (dialogue arguments).questions "" input =
      options.formulaQuestions input ++ values.questions (options.opening e) rest ∧
    (dialogue arguments).transcript input = (values.say (options.opening e)).transcript rest := by
  rw [dialogue, runs]
  cases given : options.formula with
  | some text =>
    simp only [Options.received, given] at taken
    cases taken
    simp [run, calculates, given, calculate, read, sayQuestions, Dialogue.sayTranscript, Options.formulaQuestions,
      Options.opening, Options.invitation]
  | none =>
    simp only [Options.received, given, Prod.mk.injEq] at taken
    obtain ⟨line, rfl⟩ := taken
    simp [run, calculates, given, calculate, read, line, sayQuestions, Dialogue.sayTranscript, Dialogue.questions,
      Dialogue.transcript, Options.formulaQuestions, Options.opening, Options.invitation, Options.received,
      String.append_assoc]

theorem calculatorAsks (runs : request ⟨false, false, none⟩ arguments = .run options)
    (calculates : options.showSample = false) (taken : options.received input = (.ok formula, rest))
    (read : (registry options.elementary).read formula = .ok e) :
    Asks options e input rest (dialogue arguments) := by
  obtain ⟨questions, transcript⟩ := dialogueOpened runs calculates taken read
  have sorted := e.variablesSorted
  have distinct : e.variableNames.Nodup := sorted.imp fun before => String.ne_of_lt before
  refine ⟨sorted, fun values enters => ?_, ?_⟩
  · have size := entersSize enters
    obtain ⟨asks, ends⟩ := valuesAnswered (options.opening e) (fun _ => none) enters
    rw [questions, transcript, asks, ends, bindAllEntered distinct size]
    have bound : ∀ name ∈ e.variableNames, (entered e.variableNames values name).isSome = true :=
      fun name member => enteredBound size member
    rcases evaluateBound (readExecutable read) bound with ⟨value, worth⟩ | ⟨name, cause, fails⟩
    · simp only [showValue, worth, Dialogue.questions, List.append_nil, true_and]
      exact .inl ⟨value, rfl, numberTextRead value, rfl⟩
    · simp only [showValue, fails, fail, Dialogue.questions, List.append_nil, true_and]
      exact .inr ⟨name, cause, rfl, by simp [Dialogue.say, Dialogue.transcript]⟩
  · rw [questions, transcript]
    exact valuesStopped _ _ _ _ _

theorem calculatorAsksMaximum : ∃ (e : Expr) (input rest : List UInt8),
    input = "a*max(b,a)\r\n2\n 3.5\n".toUTF8.data.toList ∧
    request ⟨false, false, none⟩ ["--math"] = .run ⟨false, true, none⟩ ∧
    Options.received ⟨false, true, none⟩ input = (.ok "a*max(b,a)", rest) ∧
    (registry true).read "a*max(b,a)" = .ok e ∧ e.variableNames = ["a", "b"] ∧ Enters ["a", "b"] rest [2.0, 3.5] ∧
    e.evaluate (registry true) (entered ["a", "b"] [2.0, 3.5]) = .ok 7.0 ∧
    numeralValue? ['7'] = some 7.0 ∧
    (dialogue ["--math"]).questions "" input = [⟨"Input math expression:\n", .ok "a*max(b,a)"⟩,
      ⟨"Input math expression:\n( * a ( max ( b,a ) ) )\na = ", .ok "2"⟩,
      ⟨"Input math expression:\n( * a ( max ( b,a ) ) )\na = b = ", .ok " 3.5"⟩] ∧
    (dialogue ["--math"]).transcript input =
      ⟨"Input math expression:\n( * a ( max ( b,a ) ) )\na = b = Result: 7\n", "", 0⟩ := by
  let e : Expr := .binary "*" (.term "a") (.call "max" [.term "b", .term "a"])
  obtain ⟨input, typed⟩ : ∃ input : List UInt8, input = "a*max(b,a)\r\n2\n 3.5\n".toUTF8.data.toList :=
    ⟨_, rfl⟩
  have runs : request ⟨false, false, none⟩ ["--math"] = .run ⟨false, true, none⟩ := rfl
  have taken : Options.received ⟨false, true, none⟩ input =
      (.ok "a*max(b,a)", "2\n 3.5\n".toUTF8.data.toList) := by
    rw [typed]
    rfl
  have read : (registry true).read "a*max(b,a)" = .ok e := by decide +kernel
  have names : e.variableNames = ["a", "b"] := by decide +kernel
  have opened : Options.opening ⟨false, true, none⟩ e = "Input math expression:\n( * a ( max ( b,a ) ) )\n" := by
    decide +kernel
  have worth : e.evaluate (registry true) (entered ["a", "b"] [2.0, 3.5]) = .ok 7.0 := rfl
  have enters : Enters ["a", "b"] "2\n 3.5\n".toUTF8.data.toList [2.0, 3.5] := by
    unfold Enters
    decide +kernel
  have written : numberText 7.0 = "7" := by decide +kernel
  have answered := (calculatorAsks runs rfl taken read).answered [2.0, 3.5] (by rwa [names])
  rw [names, opened] at answered
  obtain ⟨questions, ends⟩ := answered
  have result : numeralValue? ['7'] = some 7.0 ∧ (dialogue ["--math"]).transcript input =
      ⟨"Input math expression:\n( * a ( max ( b,a ) ) )\na = b = Result: 7\n", "", 0⟩ := by
    rcases ends with ⟨value, same, again, ends⟩ | ⟨name, cause, fails, -⟩
    · obtain rfl : value = 7.0 := Except.ok.inj (same.symm.trans worth)
      rw [written] at again ends
      have shown : "Input math expression:\n( * a ( max ( b,a ) ) )\n" ++ prompts ["a", "b"] ++
          linesText ["Result: " ++ "7"] = "Input math expression:\n( * a ( max ( b,a ) ) )\na = b = Result: 7\n" := by
        decide +kernel
      rw [shown] at ends
      exact ⟨again, ends⟩
    · cases fails.symm.trans worth
  refine ⟨e, input, _, typed, runs, taken, read, names, enters, worth, result.1, questions.trans ?_, result.2⟩
  rw [typed]
  rfl

example : (dialogue ["--math", "a*max(b,a)"]).transcript "2\nthree\n7\n".toUTF8.data.toList =
    ⟨"( * a ( max ( b,a ) ) )\na = b = ", "Error: Incorrect value for 'b': three\n", 1⟩ := by decide +kernel

end

end Calculator

end Formula
