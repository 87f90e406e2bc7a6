/-!
# Numbers as text

Which texts are numbers, and which number each of them is.

    number    = sign? ( "inf" | "infinity" | "nan" | decimal )
    decimal   = ( digit+ | digit+ "." digit* | digit* "." digit+ ) exponent?
    exponent  = ("e" | "E") sign? digit+
    sign      = "+" | "-"

The three words may be written in any case.  A decimal stands for the number closest
to its exact value, and for an infinity when that value is too large; a sign makes a
zero negative too.  Any other text is no number: there are no blanks, no separators
between digits and no other radix.
-/

namespace Frontend.Number

/-- The value of a run of decimal digits. -/
def digitsValue (digits : List Char) : Nat :=
  digits.foldl (fun value d => 10 * value + (d.toNat - '0'.toNat)) 0

/-- The number closest to `significand * 10 ^ exponent`. -/
def ofDecimal (significand : Nat) (exponent : Int) : Float :=
  match exponent with
  | .ofNat e => Float.ofScientific significand false e
  | .negSucc e => Float.ofScientific significand true (e + 1)

/-- A sign at the head of a text as whether it is a minus, and the text behind it. -/
def splitSign : List Char → Bool × List Char
  | '-' :: rest => (true, rest)
  | '+' :: rest => (false, rest)
  | text => (false, text)

def splitDigits (text : List Char) : List Char × List Char :=
  (text.takeWhile Char.isDigit, text.dropWhile Char.isDigit)

def splitFraction : List Char → List Char × List Char
  | '.' :: rest => splitDigits rest
  | text => ([], text)

/-- The exponent that a text consists of; zero for the empty text. -/
def exponent? : List Char → Option Int
  | [] => some 0
  | mark :: rest =>
    if mark = 'e' ∨ mark = 'E' then
      let (negative, digits) := splitSign rest
      if digits ≠ [] ∧ digits.all Char.isDigit then
        some (if negative then -(digitsValue digits : Int) else digitsValue digits)
      else none
    else none

/-- The number that an unsigned decimal stands for. -/
def decimal? (text : List Char) : Option Float :=
  let (whole, rest) := splitDigits text
  let (fraction, rest) := splitFraction rest
  if whole = [] ∧ fraction = [] then none
  else
    (exponent? rest).map fun exponent =>
      ofDecimal (digitsValue (whole ++ fraction)) (exponent - fraction.length)

def infinity : Float := Float.ofBits 0x7ff0000000000000

def notANumber : Float := Float.ofBits 0x7ff8000000000000

/-- The number that an unsigned text stands for. -/
def unsigned? (text : List Char) : Option Float :=
  let word := String.ofList (text.map Char.toLower)
  if word = "inf" ∨ word = "infinity" then some infinity
  else if word = "nan" then some notANumber
  else decimal? text

/-- The number that a text stands for, if it is one. -/
def ofText? (text : String) : Option Float :=
  let (negative, rest) := splitSign text.toList
  (unsigned? rest).map fun value => if negative then -value else value

end Frontend.Number
