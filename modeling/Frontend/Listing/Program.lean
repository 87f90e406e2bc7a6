import Frontend.Listing.Basic
import Frontend.Number.Rendering
import Frontend.Resolved.Basic

/-!
# Listings of resolved trees

A program with its names resolved, node by node.  An entity is shown by what tells a
reader most about it: its name, whether it can be assigned to, the number of its
arguments, and whether it is built in.
-/

namespace Frontend

def Variable.listing (v : Variable) : Listing :=
  .text ("Variable(" ++ v.name ++ (if v.readOnly then ", read-only" else "") ++ ")")

/-- A function as shown, with the number of its arguments. -/
def Function.listing (f : Function) : Listing :=
  .text ("Function(" ++ f.name ++ "/" ++ toString f.arity ++
    (if f.userDefined then "" else ", builtin") ++ ")")

/-- An entity as shown, with its kind. -/
def Entity.listing : Entity → Listing
  | var v => .tuple "Variable" [v.listing]
  | func f => .tuple "Function" [f.listing]

namespace Resolved

mutual

def Expr.listing : Expr → Listing
  | .number value => .tuple "Number" [.text (Number.render value)]
  | .boolean value => .tuple "Boolean" [.bool value]
  | .var v => .tuple "Variable" [v.listing]
  | .binary operator left right =>
    .node "Binary"
      [("operator", .text operator.name), ("left", left.listing), ("right", right.listing)]
  | .unary operator operand =>
    .node "Unary" [("operator", .text operator.name), ("operand", operand.listing)]
  | .conditional test consequent alternate =>
    .node "Conditional"
      [("test", test.listing), ("consequent", consequent.listing),
       ("alternate", alternate.listing)]
  | .call callee arguments =>
    .node "Call" [("callee", callee.listing), ("arguments", .list (Expr.listings arguments))]

def Expr.listings : List Expr → List Listing
  | [] => []
  | e :: es => e.listing :: Expr.listings es

end

mutual

def Stmt.listing : Stmt → Listing
  | .declaration v initializer =>
    .node "VariableDeclaration"
      [("variable", v.listing), ("initializer", initializer.listing)]
  | .function f parameters body =>
    .node "FunctionDeclaration"
      [("function", f.listing), ("parameters", .list (parameters.map Variable.listing)),
       ("body", body.listing)]
  | .assignment target source =>
    .node "Assignment" [("target", target.listing), ("source", source.listing)]
  | .print argument => .tuple "Print" [argument.listing]
  | .loop test body =>
    .node "While" [("test", test.listing), ("body", .list (Stmt.listings body))]

def Stmt.listings : List Stmt → List Listing
  | [] => []
  | s :: ss => s.listing :: Stmt.listings ss

end

def Program.listing (program : Program) : Listing :=
  .node "Program" [("statements", .list (Stmt.listings program))]

end Resolved

end Frontend
