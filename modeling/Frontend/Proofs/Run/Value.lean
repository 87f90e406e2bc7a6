import Frontend.Number.Arithmetic
import Frontend.Number.Rendering
import Frontend.Resolved.Folding

/-!
# Values

What expressions stand for while a program runs: numbers and truth values.

* Arithmetic and comparisons read a truth value as a number: one for true and zero for
  false.  Everything is compared as a number.
* A number is true unless it is a zero or no number at all.
* `&&` and `||` yield the operand that decides them, whatever kind of value that is.
* A value is printed as a number in full, without an exponent, or as a word.  A zero is
  printed without its sign.
-/

namespace Frontend

namespace Number

/-- A positive decimal without an exponent, given its digits and how many of them stand
in front of the point.  A whole number has no point. -/
def inFull (digits : List Char) (before : Int) : List Char :=
  if before ≤ 0 then
    ['0', '.'] ++ List.replicate (-before).toNat '0' ++ digits
  else
    let before := before.toNat
    let fraction := digits.drop before
    digits.take before ++ List.replicate (before - digits.length) '0' ++
      (if fraction.isEmpty then [] else '.' :: fraction)

/-- A number as a running program prints it, but for zeros. -/
def printed (x : Float) : String :=
  match x.toModel.unpack with
  | .notANumber => "NaN"
  | .infinity sign => signed sign "inf"
  | .zero sign => signed sign "0"
  | .finite sign m e _ =>
    let d := shortest m e
    let digits := Nat.toDigits 10 d.digits
    signed sign (String.ofList (inFull digits (digits.length + d.exponent)))

end Number

/-- What an expression stands for. -/
inductive Value where
  | number (value : Float)
  | boolean (value : Bool)
deriving DecidableEq

namespace Value

/-- A value where a number is needed. -/
def toNumber : Value → Float
  | number value => value
  | boolean value => if value then 1 else 0

/-- A value where a truth value is needed. -/
def truth : Value → Bool
  | number value => value != 0 && !value.isNaN
  | boolean value => value

/-- A value as it is printed. -/
def render : Value → String
  | number value => if value == 0 then "0" else Number.printed value
  | boolean value => if value then "true" else "false"

end Value

/-! ## Operators -/

/-- The value of a unary operator. -/
def UnaryOperator.apply : UnaryOperator → Value → Value
  | .negate, x => .number (-x.toNumber)
  | .not, x => .boolean (!x.truth)

namespace BinaryOperator

/-- Whether the left operand alone decides the value, which is that operand then. -/
def decides : BinaryOperator → Value → Bool
  | .and, x => !x.truth
  | .or, x => x.truth
  | _, _ => false

/-- The value of a binary operator whose left operand does not decide it. -/
def apply (operator : BinaryOperator) (x y : Value) : Value :=
  match operator with
  | .or | .and => y
  | .less => .boolean (x.toNumber < y.toNumber)
  | .lessEqual => .boolean (x.toNumber ≤ y.toNumber)
  | .equal => .boolean (x.toNumber == y.toNumber)
  | .notEqual => .boolean (x.toNumber != y.toNumber)
  | .greaterEqual => .boolean (y.toNumber ≤ x.toNumber)
  | .greater => .boolean (y.toNumber < x.toNumber)
  | .add => .number (x.toNumber + y.toNumber)
  | .subtract => .number (x.toNumber - y.toNumber)
  | .multiply => .number (x.toNumber * y.toNumber)
  | .divide => .number (x.toNumber / y.toNumber)
  | .modulo => .number (Number.remainder x.toNumber y.toNumber)
  | .power => .number (Number.power x.toNumber y.toNumber)

/-- The arithmetic operators, whose values are numbers. -/
def isArithmetic : BinaryOperator → Bool
  | .add | .subtract | .multiply | .divide | .modulo | .power => true
  | _ => false

end BinaryOperator

end Frontend
