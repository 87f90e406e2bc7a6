import Frontend.Resolved.Folding

/-!
# Simplifying a program

Folding applied to a whole program, from the leaves up, in a single pass.

* A **conditional** whose test has become a literal is the branch that it selects; the
  other branch is not looked at.
* A **loop** whose test has become a literal that does not hold is dropped; one whose
  test always holds is kept.
* An **assignment** of a variable to itself is dropped.

Declarations are kept, whether they are used or not.
-/

namespace Frontend.Resolved

/-! ## Expressions -/

mutual

/-- A simpler expression with the same meaning. -/
def Expr.simplify : Expr → Expr
  | .number value => .number value
  | .boolean value => .boolean value
  | .var v => .var v
  | .binary operator left right => Expr.foldBinary operator left.simplify right.simplify
  | .unary operator operand => Expr.foldUnary operator operand.simplify
  | .conditional test consequent alternate =>
    let test := test.simplify
    match test.truthiness? with
    | some true => consequent.simplify
    | some false => alternate.simplify
    | none => .conditional test consequent.simplify alternate.simplify
  | .call callee arguments => .call callee (Expr.simplifyAll arguments)

def Expr.simplifyAll : List Expr → List Expr
  | [] => []
  | e :: es => e.simplify :: Expr.simplifyAll es

end

def Expr.isVar (v : Variable) : Expr → Bool
  | .var w => w.serial == v.serial
  | _ => false

/-! ## Statements -/

mutual

/-- A simpler statement with the same effect, or nothing if it has none. -/
def Stmt.simplify? : Stmt → Option Stmt
  | .declaration v initializer => some (.declaration v initializer.simplify)
  | .function f parameters body => some (.function f parameters body.simplify)
  | .assignment target source =>
    let source := source.simplify
    if source.isVar target then none else some (.assignment target source)
  | .print argument => some (.print argument.simplify)
  | .loop test body =>
    let test := test.simplify
    if test.truthiness? = some false then none else some (.loop test (Stmt.simplifyAll body))

/-- Simpler statements with the same effect, without those that have none. -/
def Stmt.simplifyAll : List Stmt → List Stmt
  | [] => []
  | s :: ss =>
    match s.simplify? with
    | some s' => s' :: Stmt.simplifyAll ss
    | none => Stmt.simplifyAll ss

end

/-- A simpler program that prints the same. -/
def Program.simplify (program : Program) : Program := Stmt.simplifyAll program

end Frontend.Resolved
