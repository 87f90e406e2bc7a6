import Frontend.Token.Basic
import Frontend.Unicode.Blank
import Frontend.Unicode.Letter
import Frontend.Unicode.Numeral

/-!
# Token patterns

What a token looks like.  The scanner knows an ordered table of **patterns**; each
says how much of the text ahead it takes, and which token, if any, that makes.

* **White space** and **comments** make no token.  A comment runs to the end of
  its line, without the line feed.
* A **number** is a run of digits, a fraction of at least one digit, and an
  exponent of at least one digit; the last two may be missing, and one that is
  incomplete is not taken at all.
* A **word** is a letter followed by letters, numerals and underscores.  It is an
  identifier unless it is reserved.
* A **symbol** is one of the fixed texts of the language.  A symbol stands in the
  table ahead of those that it starts with, so that `**` is one token.

No pattern takes the empty text: a length of zero says that the pattern does not
apply.
-/

namespace Frontend

/-- The ways in which the text ahead of the scanner can go on. -/
inductive Pattern where
  | blank
  | comment
  | number
  | word
  | symbol (kind : Kind) (text : List Char)
deriving DecidableEq

namespace Pattern

/-! ## How much a pattern takes -/

/-- The number of digits at the head of a text. -/
def digitsLength (text : List Char) : Nat := (text.takeWhile Char.isDigit).length

/-- The length of a point and the digits behind it, zero without such digits. -/
def fractionLength : List Char → Nat
  | '.' :: rest => if digitsLength rest = 0 then 0 else 1 + digitsLength rest
  | _ => 0

def isExponentMark (c : Char) : Bool := c == 'e' || c == 'E'

def isSign (c : Char) : Bool := c == '+' || c == '-'

/-- The length of an exponent mark, a sign if there is one, and the digits behind
it; zero without such digits. -/
def exponentLength : List Char → Nat
  | mark :: rest =>
    if isExponentMark mark then
      let sign := (rest.take 1).countP isSign
      let digits := digitsLength (rest.drop sign)
      if digits = 0 then 0 else 1 + sign + digits
    else 0
  | [] => 0

def numberLength (text : List Char) : Nat :=
  let digits := digitsLength text
  if digits = 0 then 0
  else
    let whole := digits + fractionLength (text.drop digits)
    whole + exponentLength (text.drop whole)

/-- Whether `c` may stand inside a word. -/
def isWordChar (c : Char) : Bool :=
  Unicode.isLetter c || Unicode.isNumeral c || c == '_'

def wordLength : List Char → Nat
  | c :: rest => if Unicode.isLetter c then 1 + (rest.takeWhile isWordChar).length else 0
  | [] => 0

def commentLength : List Char → Nat
  | '/' :: '/' :: rest => 2 + (rest.takeWhile fun c => c != '\n').length
  | _ => 0

/-- How many characters of `text` the pattern takes; none if it does not apply. -/
def length (pattern : Pattern) (text : List Char) : Nat :=
  match pattern with
  | blank => (text.takeWhile Unicode.isBlank).length
  | comment => commentLength text
  | number => numberLength text
  | word => wordLength text
  | symbol _ own => if own.isPrefixOf text then own.length else 0

/-! ## What a pattern makes of it -/

/-- The kind of token that `lexeme` is, when it was taken by the pattern. -/
def kind? (pattern : Pattern) (lexeme : List Char) : Option Kind :=
  match pattern with
  | blank => none
  | comment => none
  | number => some .number
  | word => some ((Kind.ofReserved? (String.ofList lexeme)).getD .identifier)
  | symbol kind _ => some kind

/-! ## The table -/

/-- The patterns of the language.  The first one that applies is used. -/
def table : List Pattern :=
  [blank, comment, number, word,
   symbol .openCurly ['{'], symbol .closeCurly ['}'],
   symbol .openParen ['('], symbol .closeParen [')'],
   symbol .equals ['=', '='], symbol .notEquals ['!', '='],
   symbol .not ['!'], symbol .assignment ['='],
   symbol .lessEquals ['<', '='], symbol .less ['<'],
   symbol .greaterEquals ['>', '='], symbol .greater ['>'],
   symbol .or ['|', '|'], symbol .and ['&', '&'],
   symbol .semicolon [';'], symbol .colon [':'], symbol .question ['?'], symbol .comma [','],
   symbol .starStar ['*', '*'], symbol .star ['*'], symbol .plus ['+'], symbol .dash ['-'],
   symbol .slash ['/'], symbol .percent ['%']]

def first? (text : List Char) : Option Pattern :=
  table.find? fun pattern => pattern.length text != 0

/-- A pattern that the table yields takes at least one character. -/
theorem length_pos_of_first? {text : List Char} {pattern : Pattern}
    (h : first? text = some pattern) : 0 < pattern.length text := by
  have applies := List.find?_some h
  simp only [bne_iff_ne, ne_eq] at applies
  omega

end Pattern

end Frontend
