import Frontend.Number.Arithmetic
import Frontend.Resolved.Basic

/-!
# Folding an operator into its operands

What a single operator and its operands can be replaced by.

* **Literal operands** are computed: arithmetic and comparisons on two numbers,
  `&&`, `||`, `==` and `!=` on two truth values.  Division by zero is left for the
  running program, and so is everything whose result is not a finite number, since no
  literal could stand for it.
* **Neutral operands** disappear: `x + 0`, `0 + x`, `x - 0`, `x * 1`, `1 * x`, `x / 1`
  and `x ** 1` are `x`.
* **Products with zero** become zero if the other operand is arithmetic that calls
  nothing and that no folding found to have a value that is not finite.
* **Unary operators** are computed on a literal of their own kind.

Each rule looks at one node; the operands are taken as they are.
-/

namespace Frontend.Resolved

/-! ## Truth -/

/-- The truth of a number: all but the zeros and what is not a number. -/
def numberTruth (x : Float) : Bool := x != 0 && !x.isNaN

namespace Expr

/-- The truth of a literal; other expressions have none before the program runs. -/
def truthiness? : Expr → Option Bool
  | boolean value => some value
  | number value => some (numberTruth value)
  | _ => none

/-! ## Literal operands -/

def compare? (operator : BinaryOperator) (a b : Float) : Option Bool :=
  match operator with
  | .less => some (a < b)
  | .lessEqual => some (a ≤ b)
  | .equal => some (a == b)
  | .notEqual => some (a != b)
  | .greaterEqual => some (b ≤ a)
  | .greater => some (b < a)
  | _ => none

/-- The value of arithmetic on two numbers, unless it divides by zero. -/
def arithmetic? (operator : BinaryOperator) (a b : Float) : Option Float :=
  match operator with
  | .add => some (a + b)
  | .subtract => some (a - b)
  | .multiply => some (a * b)
  | .divide => if b != 0 then some (a / b) else none
  | .modulo => if b != 0 then some (Number.remainder a b) else none
  | .power => some (Number.power a b)
  | _ => none

/-- The literal that an operator makes of two numbers. -/
def foldNumbers? (operator : BinaryOperator) (a b : Float) : Option Expr :=
  match compare? operator a b with
  | some truth => some (.boolean truth)
  | none =>
    match arithmetic? operator a b with
    | some value => if value.isFinite then some (.number value) else none
    | none => none

def foldBooleans? (operator : BinaryOperator) (a b : Bool) : Option Expr :=
  match operator with
  | .and => some (.boolean (a && b))
  | .or => some (.boolean (a || b))
  | .equal => some (.boolean (a == b))
  | .notEqual => some (.boolean (a != b))
  | _ => none

/-- The literal that an operator makes of two literals of one kind. -/
def foldLiterals? (operator : BinaryOperator) (left right : Expr) : Option Expr :=
  match left, right with
  | number a, number b => foldNumbers? operator a b
  | boolean a, boolean b => foldBooleans? operator a b
  | _, _ => none

/-! ## Neutral operands and zero products -/

def isNumber (value : Float) : Expr → Bool
  | number x => x == value
  | _ => false

/-- Whether an expression is arithmetic that may be dropped from a product with zero:
sums, differences, products and negations of variables and finite literals.  Two
literals next to each other are left over from a fold that had no finite value. -/
def isFiniteArithmetic : Expr → Bool
  | number value => value.isFinite
  | var _ => true
  | unary .negate operand => operand.isFiniteArithmetic
  | binary operator left right =>
    (operator == .add || operator == .subtract || operator == .multiply) &&
      !(left.isLiteral && right.isLiteral) &&
      left.isFiniteArithmetic && right.isFiniteArithmetic
  | _ => false

/-- What is left of an operator that does nothing to one operand, or that makes zero of
everything. -/
def reduce? (operator : BinaryOperator) (left right : Expr) : Option Expr :=
  match operator with
  | .add =>
    if right.isNumber 0 then some left
    else if left.isNumber 0 then some right
    else none
  | .subtract => if right.isNumber 0 then some left else none
  | .multiply =>
    if right.isNumber 1 then some left
    else if left.isNumber 1 then some right
    else if right.isNumber 0 && left.isFiniteArithmetic then some (.number 0)
    else if left.isNumber 0 && right.isFiniteArithmetic then some (.number 0)
    else none
  | .divide => if right.isNumber 1 then some left else none
  | .power => if right.isNumber 1 then some left else none
  | _ => none

/-! ## One node -/

/-- A binary operator folded into its operands. -/
def foldBinary (operator : BinaryOperator) (left right : Expr) : Expr :=
  match foldLiterals? operator left right with
  | some literal => literal
  | none =>
    match reduce? operator left right with
    | some expression => expression
    | none => .binary operator left right

def foldUnary (operator : UnaryOperator) (operand : Expr) : Expr :=
  match operator, operand with
  | .negate, number value => .number (-value)
  | .not, boolean value => .boolean (!value)
  | operator, operand => .unary operator operand

end Expr

end Frontend.Resolved
