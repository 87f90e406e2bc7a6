/-!
# Lines of a text

A diagnostic shows the line that it is about.  A line ends at a line feed, which
is no part of it; a carriage return just before that line feed belongs to the
terminator too.  What follows the last line feed is a line of its own unless it
is empty, and since nothing terminates it, it keeps a final carriage return.

* **`lines`**: the lines of a text, without their terminators.
* **`line?`**: the line of a given number, counted from one.
-/

namespace Frontend.Source

/-- The lines of a text, in order, without terminators.  A character that ends
no line is the first one of the line that the text behind it begins with, and a
line of its own if there is no such text. -/
def lines : List Char → List (List Char)
  | [] => []
  | '\n' :: rest => [] :: lines rest
  | '\r' :: '\n' :: rest => [] :: lines rest
  | c :: rest =>
    match lines rest with
    | [] => [[c]]
    | line :: more => (c :: line) :: more

/-- The line numbered `number` from one, if the text has that many. -/
def line? (text : String) (number : Nat) : Option String :=
  match number with
  | 0 => none
  | before + 1 => (lines text.toList)[before]?.map String.ofList

/-- Behind a line feed the lines of the rest follow, whatever stands before it. -/
theorem lines_lineFeed (rest : List Char) : lines ('\n' :: rest) = [] :: lines rest := by
  simp [lines]

end Frontend.Source
