import Frontend.Entity.Basic
import Frontend.Resolved.Operator

/-!
# Resolved trees

A program whose names are resolved: every name is the entity that it stands for,
operators are the operators themselves, and there are no spans, since nothing is left
to complain about.

* **`Resolved.Expr`**, **`Resolved.Stmt`**, **`Program`**: expressions, statements and
  whole programs.
* **`Expr.same`**, **`Stmt.same`**: equality of trees, by which entities are the same
  when their serial numbers are, and numbers when they compare as equal.  So zeros of
  either sign are the same, and a tree with a number that is not one differs from
  itself.
-/

namespace Frontend.Resolved

/-- An expression with its names resolved. -/
inductive Expr where
  | number (value : Float)
  | boolean (value : Bool)
  | var (v : Variable)
  | binary (operator : BinaryOperator) (left right : Expr)
  | unary (operator : UnaryOperator) (operand : Expr)
  | conditional (test consequent alternate : Expr)
  | call (callee : Function) (arguments : List Expr)
deriving Inhabited

/-- A statement with its names resolved. -/
inductive Stmt where
  /-- A new variable and its first value. -/
  | declaration (v : Variable) (initializer : Expr)
  /-- A new function. -/
  | function (f : Function) (parameters : List Variable) (body : Expr)
  /-- A new value for a variable. -/
  | assignment (target : Variable) (source : Expr)
  /-- A value to be printed. -/
  | print (argument : Expr)
  /-- Statements to be repeated while a test holds. -/
  | loop (test : Expr) (body : List Stmt)
deriving Inhabited

/-- A program with its names resolved. -/
abbrev Program : Type := List Stmt

def Expr.isLiteral : Expr → Bool
  | number _ => true
  | boolean _ => true
  | _ => false

/-! ## Equality -/

mutual

/-- Whether two expressions are equal. -/
def Expr.same : Expr → Expr → Bool
  | .number a, .number b => a == b
  | .boolean a, .boolean b => a == b
  | .var v, .var w => v.serial == w.serial
  | .binary o l r, .binary o' l' r' => o == o' && l.same l' && r.same r'
  | .unary o e, .unary o' e' => o == o' && e.same e'
  | .conditional t c a, .conditional t' c' a' => t.same t' && c.same c' && a.same a'
  | .call f es, .call f' es' => f.serial == f'.serial && Expr.sameAll es es'
  | _, _ => false

def Expr.sameAll : List Expr → List Expr → Bool
  | [], [] => true
  | e :: es, e' :: es' => e.same e' && Expr.sameAll es es'
  | _, _ => false

end

mutual

def Stmt.same : Stmt → Stmt → Bool
  | .declaration v e, .declaration v' e' => v.serial == v'.serial && e.same e'
  | .function f vs e, .function f' vs' e' =>
    f.serial == f'.serial && vs.map Variable.serial == vs'.map Variable.serial && e.same e'
  | .assignment v e, .assignment v' e' => v.serial == v'.serial && e.same e'
  | .print e, .print e' => e.same e'
  | .loop t b, .loop t' b' => t.same t' && Stmt.sameAll b b'
  | _, _ => false

def Stmt.sameAll : List Stmt → List Stmt → Bool
  | [], [] => true
  | s :: ss, s' :: ss' => s.same s' && Stmt.sameAll ss ss'
  | _, _ => false

end

end Frontend.Resolved
