import Frontend.Number.Shortest

/-!
# Numbers in a tree listing

A number is written with its shortest digits.  It is written out in full when its
first digit stands no further than four places behind the point and no more than
sixteen in front of it, with at least one digit on either side of the point; beyond
that the point is behind the first digit and an exponent follows.  A zero keeps its
sign.
-/

namespace Frontend.Number

/-- Whether a number whose first digit stands for `10 ^ place` is written out. -/
def isWrittenOut (place : Int) : Bool := -4 ≤ place && place < 16

/-- A number written out in full, given its digits and how many of them stand in
front of the point. -/
def writtenOut (digits : List Char) (before : Int) : List Char :=
  if before ≤ 0 then
    ['0', '.'] ++ List.replicate (-before).toNat '0' ++ digits
  else
    let before := before.toNat
    let fraction := digits.drop before
    digits.take before ++ List.replicate (before - digits.length) '0' ++
      '.' :: (if fraction.isEmpty then ['0'] else fraction)

/-- A number with an exponent, given its digits and the place of the first one. -/
def scientific (digits : List Char) (place : Int) : List Char :=
  digits.take 1 ++ (if digits.length ≤ 1 then [] else '.' :: digits.drop 1) ++
    'e' :: (toString place).toList

def Decimal.write (d : Decimal) : List Char :=
  let digits := Nat.toDigits 10 d.digits
  let place := digits.length + d.exponent - 1
  if isWrittenOut place then writtenOut digits (place + 1) else scientific digits place

def signed (sign : Float.Model.UnpackedFloat.Sign) (text : String) : String :=
  match sign with
  | .negative => "-" ++ text
  | .positive => text

/-- A number as it stands in a tree listing. -/
def render (x : Float) : String :=
  match x.toModel.unpack with
  | .notANumber => "NaN"
  | .infinity sign => signed sign "inf"
  | .zero sign => signed sign "0.0"
  | .finite sign m e _ => signed sign (String.ofList (shortest m e).write)

end Frontend.Number
