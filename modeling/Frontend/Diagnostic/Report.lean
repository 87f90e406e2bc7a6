import Frontend.Diagnostic.Message
import Frontend.Source.Line
import Frontend.Unicode.Blank

/-!
# Reports

A diagnostic as shown to a reader: the fault, the file, and under them the line
that it is about, with a caret below the offending character.

    Error: UndeclaredName (Identifier `y` not declared)
    -> program.bella
      |
    3 | print y;
      | ------^

The line is shown without the blanks and tabs in front of it and without the white
space behind it; the caret moves to the left by as many columns as were taken off in
front.  The vertical bars stand below each other whatever the width of the line
number.  A position on a line that the text does not have gets the first two lines
alone.

Bars and carets are written at the end of fields of a given width, which has 16 bits.
There is no report with its caret further to the right.
-/

namespace Frontend

namespace Diagnostic

/-- The greatest width of a field. -/
def widest : Nat := UInt16.size - 1

/-- `text` behind as many copies of `fill` as make it `width` characters long, if it
is shorter; nothing if no field is that wide. -/
def padLeft? (fill : Char) (width : Nat) (text : String) : Option String :=
  if width ≤ widest then
    some (String.ofList (List.replicate (width - text.length) fill) ++ text)
  else none

/-- Whether `c` is taken off at the head of a shown line. -/
def isIndent (c : Char) : Bool := c == ' ' || c == '\t'

def indentWidth (line : List Char) : Nat := (line.takeWhile isIndent).length

def shownLine (line : List Char) : List Char :=
  ((line.dropWhile isIndent).reverse.dropWhile Unicode.isBlank).reverse

/-- The place of the caret below a shown line, counted from one: the column less what
was taken off in front, and never before the first. -/
def caretColumn (line : List Char) (column : Nat) : Nat :=
  max (column - indentWidth line) 1

def heading (d : Diagnostic) : String :=
  "Error: " ++ d.fault.title ++
    (match d.fault.tip? with
    | some tip => " (" ++ tip ++ ")"
    | none => "") ++ "\n"

/-- The excerpt below the heading: a bar, the line, and the caret. -/
def excerpt? (position : Position) (line : List Char) : Option String := do
  let number := toString position.line
  let bar ← padLeft? ' ' (number.length + 2) "|"
  let caret ← padLeft? '-' (caretColumn line position.column.toNat) "^"
  return bar ++ "\n" ++
    number ++ " | " ++ String.ofList (shownLine line) ++ "\n" ++
    bar ++ " " ++ caret ++ "\n"

/-- A diagnostic about `source`, which was read from `file`; nothing if its caret is
too far to the right. -/
def report? (d : Diagnostic) (source file : String) : Option String := do
  let excerpt ← match Source.line? source d.position.line.toNat with
    | none => pure ""
    | some line => excerpt? d.position line.toList
  return d.heading ++ "-> " ++ file ++ "\n" ++ excerpt

end Diagnostic

end Frontend
