import Formula.Reading.Tree

/-! The calculator on a terminal: a formula is read, its variables are asked for in order, and its value is shown. A
line of the input ends with a line feed, which may follow a carriage return. The last one may lack its end, and then it
keeps a final carriage return. -/
namespace Formula

inductive LineFault where
  | ended
  | undecodable
  deriving DecidableEq, Repr

def LineFault.message : LineFault → String
  | .ended => "unexpected end of input"
  | .undecodable => "stream did not contain valid UTF-8"

abbrev Line := Except LineFault String

def lineFeed : UInt8 := 10

def carriageReturn : UInt8 := 13

def cutLine : List UInt8 → List UInt8 × List UInt8
  | [] => ([], [])
  | b :: bytes =>
    if b = lineFeed then ([b], bytes)
    else
      let (line, rest) := cutLine bytes
      (b :: line, rest)

def dropLineEnd (line : List UInt8) : List UInt8 :=
  match line.getLast? with
  | some b =>
    if b = lineFeed then
      let body := line.dropLast
      if body.getLast? = some carriageReturn then body.dropLast else body
    else line
  | none => []

def decodeLine (line : List UInt8) : Line :=
  if line = [] then .error .ended
  else match String.fromUTF8? (dropLineEnd line).toByteArray with
    | some text => .ok text
    | none => .error .undecodable

inductive Dialogue where
  | finish (output errors : String) (code : Nat)
  | ask (output : String) (next : Line → Dialogue)

structure Transcript where
  output : String
  errors : String
  code : Nat
  deriving DecidableEq, Repr

namespace Dialogue

def say (text : String) : Dialogue → Dialogue
  | .finish output errors code => .finish (text ++ output) errors code
  | .ask output next => .ask (text ++ output) next

def transcript : Dialogue → List UInt8 → Transcript
  | .finish output errors code, _ => ⟨output, errors, code⟩
  | .ask output next, input =>
    let (line, rest) := cutLine input
    let further := (next (decodeLine line)).transcript rest
    { further with output := output ++ further.output }

theorem sayTranscript (text : String) (d : Dialogue) (input : List UInt8) :
    (d.say text).transcript input =
      { d.transcript input with output := text ++ (d.transcript input).output } := by
  cases d <;> simp [say, transcript, String.append_assoc]

end Dialogue

namespace Calculator

def linesText (lines : List String) : String := String.join (lines.map (· ++ "\n"))

def usage : String := linesText [
  "Interactive math expression calculator.",
  "",
  "Usage: calc [--example] [--math] [EXPRESSION]",
  "",
  "  --example   print an example session and exit",
  "  --math      enable sin, cos, tan, exp, ln, log10, floor, ceil, round, min, max, avg",
  "",
  "Without EXPRESSION the expression is read from stdin. Set RUST_LOG=debug to trace parsing."]

def sample : String := linesText [
  "Instructions:",
  "1. Write math expression.",
  "2. Define all used variables.",
  "",
  "You can use multiple vars in the expression:",
  "x ^ (y + 3) - z",
  "x = 2",
  "y = 1",
  "z = 4",
  "Result: 12"]

structure Options where
  showSample : Bool
  elementary : Bool
  formula : Option String
  deriving DecidableEq, Repr

inductive Request where
  | help
  | misuse
  | run (options : Options)
  deriving DecidableEq, Repr

/- Arguments are taken in order. A request for help and a second formula each end the matter at once. -/
def request (options : Options) : List String → Request
  | [] => .run options
  | argument :: rest =>
    if argument = "--example" then request { options with showSample := true } rest
    else if argument = "--math" then request { options with elementary := true } rest
    else if argument = "-h" ∨ argument = "--help" then .help
    else if options.formula.isNone then request { options with formula := some argument } rest
    else .misuse

def registry (elementary : Bool) : Registry :=
  let basic := Registry.standard.register "foo" fun xs => .ok (total xs)
  if elementary then basic.withElementary else basic

def fail (reason : String) : Dialogue := .finish "" (linesText ["Error: " ++ reason]) 1

def bindValue (bindings : Bindings) (name : String) (value : Float) : Bindings := fun other =>
  if other = name then some value else bindings other

/- Asks for a value for each name, and goes on with all of them. -/
def askValues (names : List String) (bindings : Bindings) (goOn : Bindings → Dialogue) : Dialogue :=
  match names with
  | [] => goOn bindings
  | name :: names => .ask (name ++ " = ") fun
    | .error fault => fail fault.message
    | .ok line =>
      let entry := trimBlanks line.toList
      match numeralValue? entry with
      | none => fail ("Incorrect value for '" ++ name ++ "': " ++ String.ofList entry)
      | some value => askValues names (bindValue bindings name value) goOn

def showValue (R : Registry) (e : Expr) (bindings : Bindings) : Dialogue :=
  match e.evaluate R bindings with
  | .ok value => .finish (linesText ["Result: " ++ numberText value]) "" 0
  | .error error => fail error.message

def calculate (R : Registry) (formula : String) : Dialogue :=
  match R.read formula with
  | .error error => fail error.message
  | .ok e => (askValues e.variableNames (fun _ => none) (showValue R e)).say (linesText [e.render])

def run (options : Options) : Dialogue :=
  if options.showSample then .finish sample "" 0
  else
    let R := registry options.elementary
    match options.formula with
    | some formula => calculate R formula
    | none => .ask (linesText ["Input math expression:"]) fun
      | .error fault => fail fault.message
      | .ok formula => calculate R formula

def dialogue (arguments : List String) : Dialogue :=
  match request ⟨false, false, none⟩ arguments with
  | .help => .finish usage "" 0
  | .misuse => .finish "" usage 1
  | .run options => run options

end Calculator

end Formula
