import Frontend.Grammar.Cursor
import Frontend.Grammar.Table
import Frontend.Number.Reading
import Frontend.Tree.Basic

/-!
# Reading expressions

An expression is read from the left: what its first token opens, and then, as long as
the next token is an operator of more than the given power, what that operator makes
of the expression so far.  The operands of an operator are read in the same way, with
the power of that operator:

* the operands of a left associative operator are read with its own power, so that
  the next operator of that power takes the whole as its left operand;
* an exponent is read with the power below, so that `a ** b ** c` is `a ** (b ** c)`;
* a comparison may not be an operand of a comparison without parentheses.

`opening`, `continuation` and `arguments` read one part each, given a way to read the
expressions inside it; `expr` ties them together.
-/

namespace Frontend.Grammar

open Frontend.Tree (Expr)

variable (table : Table)

/-- Reads what the current token opens. -/
def opening (inner : Power → Parse Expr) : Parse Expr := do
  match table.opening? (← Parse.kind) with
  | none => Parse.misplaced "expected an expression"
  | some .number =>
    let token ← Parse.advance
    match Number.ofText? token.text with
    | some value => return .number value token.span
    | none => Parse.fail (.malformedNumber token.text) token.span.start
  | some .boolean =>
    let token ← Parse.advance
    return .boolean (token.kind = .trueWord) token.span
  | some .symbol =>
    let token ← Parse.advance
    return .symbol ⟨token.text, token.span⟩
  | some .unary =>
    let operator ← Parse.advance
    let operand ← inner .unary
    return .unary operator operand ⟨operator.span.start, operand.span.stop⟩
  | some .group =>
    let _ ← Parse.expect .openParen
    let expression ← inner .lowest
    let _ ← Parse.expect .closeParen
    return expression

/-- Reads expressions separated by commas, at least one. -/
def arguments (inner : Power → Parse Expr) : Nat → Parse (List Expr)
  | 0 => Parse.exhausted
  | fuel + 1 => do
    let argument ← inner .lowest
    if (← Parse.kind) = .comma then
      let _ ← Parse.advance
      let others ← arguments inner fuel
      return argument :: others
    else
      return [argument]

def branches (inner : Power → Parse Expr) (test : Expr) : Parse Expr := do
  let _ ← Parse.expect .question
  let consequent ← inner .lowest
  let _ ← Parse.expectFor .colon "expected `:` in conditional expression"
  let alternate ← inner .lowest
  return .conditional test consequent alternate ⟨test.span.start, alternate.span.stop⟩

/-- Reads an operator and its right operand, which ends at operators up to `power`. -/
def rightOperand (inner : Power → Parse Expr) (left : Expr) (power : Power) : Parse Expr := do
  let operator ← Parse.advance
  let right ← inner power
  return .binary left operator right ⟨left.span.start, right.span.stop⟩

def refuseComparison : Parse Unit := do
  if table.power? (← Parse.kind) = some .relational then
    Parse.misplaced "comparisons cannot be chained"

/-- Reads the arguments of a call.  Only a name can be called. -/
def callOf (inner : Power → Parse Expr) (fuel : Nat) (callee : Expr) : Parse Expr := do
  match callee with
  | .symbol symbol =>
    let _ ← Parse.expect .openParen
    let values ← if (← Parse.kind) = .closeParen then pure [] else arguments inner fuel
    let close ← Parse.expect .closeParen
    return .call symbol values ⟨symbol.span.start, close.span.stop⟩
  | _ => Parse.misplaced "only a function name can be called"

/-- Reads what an operator of the given power makes of the expression to its left. -/
def continuation (inner : Power → Parse Expr) (fuel : Nat) (left : Expr) (power : Power) :
    Continuation → Parse Expr
  | .conditional => branches inner left
  | .binary => do
    let whole ← rightOperand inner left power
    if power = .relational then refuseComparison table
    return whole
  | .exponent => rightOperand inner left .multiplicative
  | .call => callOf inner fuel left

/-- Reads on behind the expression `left` for as long as operators of more than the
given power follow. -/
def continueWhile (inner : Power → Parse Expr) (power : Power) : Nat → Expr → Parse Expr
  | 0, _ => Parse.exhausted
  | fuel + 1, left => do
    match table.continuation? (← Parse.kind) with
    | none => return left
    | some (own, form) =>
      if own ≤ power then return left
      else
        let longer ← continuation table inner fuel left own form
        continueWhile inner power fuel longer

/-- Reads an expression up to the first operator that does not have more than the
given power. -/
def expr : Nat → Power → Parse Expr
  | 0, _ => Parse.exhausted
  | fuel + 1, power => do
    let left ← opening table (expr fuel)
    continueWhile table (expr fuel) power (fuel + 1) left

def readExpr (power : Power) : Parse Expr := do
  expr table (← get).fuel power

end Frontend.Grammar
