import RecordGraph.CommandLine

/-!
The program: it reads the file that the arguments ask for, prints the answer, and exits with its
code.
-/

namespace RecordGraph.CommandLine

def errorNumber (code : UInt32) : Nat :=
  code.toInt32.toInt.natAbs

def reasonOf : IO.Error → ReadError
  | .noFileOrDirectory _ code _ => .ofNumber (errorNumber code)
  | .permissionDenied _ code _ => .ofNumber (errorNumber code)
  | .inappropriateType _ code _ => .ofNumber (errorNumber code)
  | .invalidArgument _ code _ => .ofNumber (errorNumber code)
  | .resourceExhausted _ code _ => .ofNumber (errorNumber code)
  | .hardwareFault code _ => .ofNumber (errorNumber code)
  | .otherError code _ => .ofNumber (errorNumber code)
  | _ => .system 5

def readDocument (file : String) : IO (Except ReadError String) := do
  try
    return textOfBytes (← IO.FS.readBinFile file)
  catch failure => return .error (reasonOf failure)

end RecordGraph.CommandLine

open RecordGraph in
def main (arguments : List String) : IO UInt32 := do
  let request := CommandLine.ofArguments arguments
  let content ←
    match request.file? with
    | some file => CommandLine.readDocument file
    | none => pure (.error .missing)
  let answer := CommandLine.answer request fun _ => content
  (← IO.getStderr).putStr answer.errors
  (← IO.getStdout).putStr answer.output
  return answer.code
