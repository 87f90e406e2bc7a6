import Frontend.CommandLine.Answer

/-!
# The command

Reads the file that the arguments name and writes the answer.
-/

open Frontend.CommandLine

/-- Why the system could not read a file. -/
def readFaultOf : IO.Error → ReadFault
  | .inappropriateType _ code _ => if code = 20 then .notDirectory else .isDirectory
  | .invalidArgument _ code _ => if code = 36 then .nameTooLong else .missing
  | _ => .missing

/-- The bytes of the file that the arguments name, if they name one. -/
def contentsFor (arguments : List String) : IO (Except ReadFault ByteArray) := do
  match Request.ofArguments arguments with
  | .show path _ =>
    try
      return .ok (← IO.FS.readBinFile path)
    catch error =>
      return .error (readFaultOf error)
  | _ => return .error .missing

def main (arguments : List String) : IO UInt32 := do
  let contents ← contentsFor arguments
  let result := answer arguments fun _ => contents
  (← IO.getStdout).putStr result.output
  (← IO.getStderr).putStr result.errors
  return result.exit.toUInt32
