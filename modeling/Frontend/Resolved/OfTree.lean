import Frontend.Resolved.Basic
import Frontend.Resolved.Scope

/-!
# Resolving names

From a program as written to a program whose names are resolved.  The checks come in
the order of the text, and the first one that fails ends the work:

* the initializer of a `let` cannot see the name that it initializes;
* a function is declared before its body is looked at, so that it may call itself;
  its parameters are declared in a frame of their own and cannot be assigned to;
* an assignment is checked for its target before its value;
* a call is checked for its callee and the number of its arguments before them;
* the body of a loop makes no frame: what it declares is declared around it as well;
* a block that is no body of a loop is no statement at all.

A failing statement keeps what it declared before it failed.
-/

namespace Frontend.Resolved

/-! ## Expressions -/

mutual

/-- An expression with its names resolved in a scope. -/
def Expr.ofTree (s : Scope) : Tree.Expr → Except Stop Expr
  | .number value _ => .ok (.number value)
  | .boolean value _ => .ok (.boolean value)
  | .symbol symbol => ((s.resolveVariable symbol).map Expr.var).mapError Stop.fault
  | .binary left operator right _ =>
    match BinaryOperator.ofKind? operator.kind with
    | none => .error (.strangeOperator operator.kind)
    | some operator => do
      let left ← Expr.ofTree s left
      let right ← Expr.ofTree s right
      return .binary operator left right
  | .unary operator operand _ =>
    match UnaryOperator.ofKind? operator.kind with
    | none => .error (.strangeOperator operator.kind)
    | some operator => do
      let operand ← Expr.ofTree s operand
      return .unary operator operand
  | .conditional test consequent alternate _ => do
    let test ← Expr.ofTree s test
    let consequent ← Expr.ofTree s consequent
    let alternate ← Expr.ofTree s alternate
    return .conditional test consequent alternate
  | .call symbol arguments _ =>
    match s.resolveFunction symbol with
    | .error d => .error (.fault d)
    | .ok callee =>
      if arguments.length = callee.arity then do
        let arguments ← Expr.ofTrees s arguments
        return .call callee arguments
      else .error (.fault ⟨.arity callee.arity arguments.length, symbol.span.start⟩)

def Expr.ofTrees (s : Scope) : List Tree.Expr → Except Stop (List Expr)
  | [] => .ok []
  | e :: es => do
    let e ← Expr.ofTree s e
    let es ← Expr.ofTrees s es
    return e :: es

end

/-! ## Statements -/

/-- What comes of resolving a statement: the statement or why there is none, and the
scope behind it. -/
abbrev Outcome (α : Type) : Type := Except Stop α × Scope

def declarationOfTree (s : Scope) (symbol : Symbol) (value : Tree.Expr) : Outcome Stmt :=
  match Expr.ofTree s value with
  | .error stop => (.error stop, s)
  | .ok initializer =>
    let v := s.newVariable symbol false
    match s.declare symbol (.var v) with
    | .error d => (.error (.fault d), s)
    | .ok s' => (.ok (.declaration v initializer), s')

/-- Resolves `function symbol(parameters) = body;`.  The frame of the parameters is gone
behind it. -/
def functionOfTree (s : Scope) (symbol : Symbol) (parameters : List Symbol) (body : Tree.Expr) :
    Outcome Stmt :=
  let f := s.newFunction symbol parameters.length true
  match s.declare symbol (.func f) with
  | .error d => (.error (.fault d), s)
  | .ok s' =>
    match s'.push.declareParameters parameters with
    | .error d => (.error (.fault d), s')
    | .ok (vs, inner) =>
      match Expr.ofTree inner body with
      | .error stop => (.error stop, s')
      | .ok body => (.ok (.function f vs body), { s' with next := inner.next })

def assignmentOfTree (s : Scope) (symbol : Symbol) (value : Tree.Expr) : Except Stop Stmt :=
  match s.resolveVariable symbol with
  | .error d => .error (.fault d)
  | .ok target =>
    if target.readOnly then .error (.fault ⟨.readOnly symbol.name, symbol.span.start⟩)
    else (Expr.ofTree s value).map (Stmt.assignment target)

mutual

/-- A statement with its names resolved, and the scope behind it. -/
def Stmt.ofTree (s : Scope) : Tree.Stmt → Outcome Stmt
  | .declaration symbol value _ => declarationOfTree s symbol value
  | .function symbol parameters body _ => functionOfTree s symbol parameters body
  | .assignment symbol value _ => (assignmentOfTree s symbol value, s)
  | .print argument _ => ((Expr.ofTree s argument).map Stmt.print, s)
  | .loop test body _ _ =>
    match Expr.ofTree s test with
    | .error stop => (.error stop, s)
    | .ok test =>
      match Stmt.ofTrees s body with
      | ((statements, none), s') => (.ok (.loop test statements), s')
      | ((_, some stop), s') => (.error stop, s')
  | .block .. => (.error .strayBlock, s)

/-- Statements with their names resolved up to the first one that fails, why that one
fails, and the scope at that point. -/
def Stmt.ofTrees (s : Scope) : List Tree.Stmt → (List Stmt × Option Stop) × Scope
  | [] => (([], none), s)
  | tree :: trees =>
    match Stmt.ofTree s tree with
    | (.error stop, s') => (([], some stop), s')
    | (.ok statement, s') =>
      match Stmt.ofTrees s' trees with
      | ((statements, failure), s'') => ((statement :: statements, failure), s'')

end

/-- A whole program with its names resolved, from the built-in names on. -/
def Program.ofBlock (block : Tree.Block) : Except Stop Program :=
  match Stmt.ofTrees Scope.root block.body with
  | ((statements, none), _) => .ok statements
  | ((_, some stop), _) => .error stop

end Frontend.Resolved
