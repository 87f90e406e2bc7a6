import Frontend.CommandLine.Arguments
import Frontend.CommandLine.Directory
import Frontend.Diagnostic.Report

/-!
# The answer of the command

* **Answer**: an exit code and what goes to the two output streams.

The tree of a program goes to the standard output, in many lines.  A fault in the
program, or in reading it, goes to the error output and makes the exit code one; a
wrong use of the command makes it two.  Positions in a tree are shown with the name of
the file alone, a report shows the path as it was given.  A fault without a report
makes the command break off.
-/

namespace Frontend.CommandLine

/-- What the command leaves behind. -/
structure Answer where
  exit : Nat
  output : String
  errors : String
deriving DecidableEq

def usage : String := "Usage: bella [OPTIONS] <FILE>"

def help : String :=
  "Analyze and optimize a Bella program\n\n" ++ usage ++ "\n\n" ++
  "Arguments:\n" ++
  "  <FILE>  Path to the Bella source file\n\n" ++
  "Options:\n" ++
  "      --stage <STAGE>  Last pipeline stage to run; its tree is printed " ++
  "[default: optimized] [possible values: parsed, analyzed, optimized]\n" ++
  "  -v, --verbose        Enable debug logging\n" ++
  "  -h, --help           Print help\n" ++
  "  -V, --version        Print version\n"

def version : String := "bella 0.1.0\n"

/-- The answer when a program cannot be read. -/
def unreadable (path : String) (fault : ReadFault) : Answer :=
  ⟨1, "", "Error: failed to read " ++ path ++ "\n\nCaused by:\n    " ++ fault.message ++ "\n"⟩

/-- What is left when the command breaks off.  It says where in its own code this is, which
is no part of the answer. -/
def brokenOff : Answer := ⟨101, "", ""⟩

/-- The answer for the program in a text that was read from a path. -/
def shown (path source : String) (stage : Stage) : Answer :=
  match compile source stage with
  | .ok output => ⟨0, (output.listing (fileName path)).render true ++ "\n", ""⟩
  | .error (.fault d) =>
    match d.report? source path with
    | some report => ⟨1, "", report⟩
    | none => brokenOff
  -- No text leads here: its tokens have an end, its operators are operators, and its blocks
  -- are the bodies of loops.
  | .error _ => brokenOff

/-- The answer for a program of which the bytes, or the fault in reading them, are given. -/
def answerFor (path : String) (stage : Stage) (contents : Except ReadFault ByteArray) : Answer :=
  match contents with
  | .error fault => unreadable path fault
  | .ok bytes =>
    match decode bytes with
    | .error fault => unreadable path fault
    | .ok source => shown path source stage

/-- The answer to a command line, given how files are read. -/
def answer (arguments : List String) (read : String → Except ReadFault ByteArray) : Answer :=
  match Request.ofArguments arguments with
  | .help => ⟨0, help, ""⟩
  | .version => ⟨0, version, ""⟩
  | .misuse => ⟨2, "", usage ++ "\n"⟩
  | .show path stage => answerFor path stage (read path)

end Frontend.CommandLine
