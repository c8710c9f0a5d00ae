import Formula.Console

/-! The calculator as a program. -/
namespace Formula.Calculator

partial def readLineBytes (input : IO.FS.Stream) (bytes : Array UInt8) : IO (List UInt8) := do
  let next ← input.read 1
  match next.data[0]? with
  | none => return bytes.toList
  | some b => if b = lineFeed then return (bytes.push b).toList else readLineBytes input (bytes.push b)

def hold (input output errors : IO.FS.Stream) : Dialogue → IO UInt32
  | .finish text trouble code => do
    output.putStr text
    output.flush
    errors.putStr trouble
    return code.toUInt32
  | .ask text next => do
    output.putStr text
    output.flush
    let line ← readLineBytes input #[]
    hold input output errors (next (decodeLine line))

end Formula.Calculator

def main (arguments : List String) : IO UInt32 := do
  Formula.Calculator.hold (← IO.getStdin) (← IO.getStdout) (← IO.getStderr)
    (Formula.Calculator.dialogue arguments)
