import Frontend.Source.Position

/-!
# Tokens

The words of the language.

* **Kind**: what a token is, which is all that the grammar looks at.
* **Token**: a kind, the text it was read from, and where that text stands.
* **Reserved word**: a name with a kind of its own.

Every list of tokens read from a text ends with one token of kind `eof`, whose
text is `EOF` and whose span is empty.
-/

namespace Frontend

/-- The kinds of token, in the order of the language's reference table. -/
inductive Kind where
  | eof
  | number
  | identifier
  | openCurly
  | closeCurly
  | openParen
  | closeParen
  | assignment
  | equals
  | not
  | notEquals
  | less
  | lessEquals
  | greater
  | greaterEquals
  | or
  | and
  | semicolon
  | colon
  | question
  | comma
  | plus
  | dash
  | slash
  | star
  | starStar
  | percent
  | letWord
  | functionWord
  | printWord
  | whileWord
  | trueWord
  | falseWord
deriving DecidableEq, Inhabited

namespace Kind

def name : Kind → String
  | eof => "EOF"
  | number => "Number"
  | identifier => "Identifier"
  | openCurly => "OpenCurly"
  | closeCurly => "CloseCurly"
  | openParen => "OpenParen"
  | closeParen => "CloseParen"
  | assignment => "Assignment"
  | equals => "Equals"
  | not => "Not"
  | notEquals => "NotEquals"
  | less => "Less"
  | lessEquals => "LessEquals"
  | greater => "Greater"
  | greaterEquals => "GreaterEquals"
  | or => "Or"
  | and => "And"
  | semicolon => "Semicolon"
  | colon => "Colon"
  | question => "Question"
  | comma => "Comma"
  | plus => "Plus"
  | dash => "Dash"
  | slash => "Slash"
  | star => "Star"
  | starStar => "StarStar"
  | percent => "Percent"
  | letWord => "Let"
  | functionWord => "Function"
  | printWord => "Print"
  | whileWord => "While"
  | trueWord => "True"
  | falseWord => "False"

def all : List Kind :=
  [eof, number, identifier, openCurly, closeCurly, openParen, closeParen, assignment, equals, not,
   notEquals, less, lessEquals, greater, greaterEquals, or, and, semicolon, colon, question, comma,
   plus, dash, slash, star, starStar, percent, letWord, functionWord, printWord, whileWord,
   trueWord, falseWord]

def ofName? (name : String) : Option Kind :=
  all.find? fun k => k.name == name

/-- The kind of a reserved word; other words are identifiers. -/
def ofReserved? (word : String) : Option Kind :=
  match word with
  | "let" => some letWord
  | "function" => some functionWord
  | "print" => some printWord
  | "while" => some whileWord
  | "true" => some trueWord
  | "false" => some falseWord
  | _ => none

end Kind

/-- A word of the language at its place in the text. -/
structure Token where
  kind : Kind
  /-- The text that was read, or `EOF` for the end of the text. -/
  text : String
  span : Span
deriving DecidableEq, Inhabited

namespace Token

/-- The token that stands for the end of a text, at `p`. -/
def eof (p : Position) : Token := ⟨.eof, "EOF", Span.empty p⟩

/-- A token as shown in a listing: its kind, and its text where the kind leaves
that open. -/
def display (t : Token) : String :=
  match t.kind with
  | .identifier | .number => t.kind.name ++ " (" ++ t.text ++ ")"
  | k => k.name

end Token

end Frontend
