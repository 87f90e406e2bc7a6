import Frontend.Diagnostic.Basic
import Frontend.Text.Quoted

/-!
# The texts of a diagnostic

* **Title**: the name of a fault.
* **Message**: one line that says what is wrong.  Texts taken from the program are
  quoted in it, so that the line stays one line.
* **Tip**: the same for a reader who sees the program next to it, without quoting.
  A character that starts no token needs no tip.
-/

namespace Frontend

namespace Fault

def title : Fault → String
  | unrecognised _ => "UnrecognisedToken"
  | unexpected _ => "UnexpectedToken"
  | misplaced _ _ => "UnexpectedTokenDetailed"
  | malformedNumber _ => "NumberParseError"
  | duplicate _ => "DuplicateDeclaration"
  | undeclared _ => "UndeclaredName"
  | wrongKind _ _ _ => "WrongEntityKind"
  | readOnly _ => "ReadOnlyAssignment"
  | arity _ _ => "ArityMismatch"

def message : Fault → String
  | unrecognised token => "unrecognised token: " ++ Text.quoted token
  | unexpected token => "unexpected token: " ++ Text.quoted token
  | misplaced token reason =>
    "unexpected token (" ++ Text.quoted reason ++ "): " ++ Text.quoted token
  | malformedNumber token => "error parsing number: " ++ Text.quoted token
  | duplicate name => "identifier " ++ Text.quoted name ++ " already declared"
  | undeclared name => "identifier " ++ Text.quoted name ++ " not declared"
  | wrongKind name expected found =>
    Text.quoted name ++ " is a " ++ found.word ++ ", expected a " ++ expected.word
  | readOnly name => "cannot assign to read-only variable " ++ Text.quoted name
  | arity expected received =>
    "expected " ++ toString expected ++ " argument(s), received " ++ toString received

/-- What to make of the fault, if there is anything to say. -/
def tip? : Fault → Option String
  | unrecognised _ => none
  | unexpected token => some ("Unexpected token: `" ++ token ++ "`, did you miss a semicolon?")
  | misplaced token reason => some ("Unexpected token: `" ++ token ++ "`, " ++ reason)
  | malformedNumber token => some ("Invalid number: `" ++ token ++ "`")
  | duplicate name => some ("Identifier `" ++ name ++ "` already declared in this scope")
  | undeclared name => some ("Identifier `" ++ name ++ "` not declared")
  | wrongKind name expected found =>
    some ("`" ++ name ++ "` is a " ++ found.word ++ ", expected a " ++ expected.word)
  | readOnly name => some ("Cannot assign to read-only variable `" ++ name ++ "`")
  | arity expected received =>
    some ("Expected " ++ toString expected ++ " argument(s), received " ++ toString received)

end Fault

/-- What is wrong and where, for a program read from `file`. -/
def Diagnostic.message (d : Diagnostic) (file : String) : String :=
  d.fault.message ++ " at " ++ d.position.label file

end Frontend
