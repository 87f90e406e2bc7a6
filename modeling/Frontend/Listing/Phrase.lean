import Frontend.Listing.Basic
import Frontend.Number.Rendering
import Frontend.Text.Quoted
import Frontend.Tree.Basic

/-!
# Listings of phrase trees

A program as it was written, node by node with the places of all parts.  Positions are
shown with the name of the file that the text was read from.
-/

namespace Frontend

variable (file : String)

/-- A position with the name of its file. -/
def Position.listing (p : Position) : Listing :=
  .node "Position"
    [("offset", .nat p.offset), ("line", .nat p.line.toNat), ("column", .nat p.column.toNat),
     ("file", .text (Text.quoted file))]

def Span.listing (s : Span) : Listing :=
  .node "Span" [("start", s.start.listing file), ("end", s.stop.listing file)]

/-- A token with its place. -/
def Token.listing (t : Token) : Listing :=
  .node "Token"
    [("kind", .text t.kind.name), ("value", .text (Text.quoted t.text)),
     ("span", t.span.listing file)]

def Symbol.listing (s : Symbol) : Listing :=
  .node "SymbolExpr" [("value", .text (Text.quoted s.name)), ("span", s.span.listing file)]

namespace Tree

mutual

def Expr.listing : Expr → Listing
  | .number value span =>
    wrap [.node "NumberExpr"
      [("value", .text (Number.render value)), ("span", span.listing file)]]
  | .boolean value span =>
    wrap [.node "BooleanExpr" [("value", .bool value), ("span", span.listing file)]]
  | .symbol s => wrap [s.listing file]
  | .binary left operator right span =>
    wrap [.node "BinaryExpr"
      [("left", left.listing), ("operator", operator.listing file), ("right", right.listing),
       ("span", span.listing file)]]
  | .unary operator operand span =>
    wrap [.node "PrefixExpr"
      [("operator", operator.listing file), ("right_expr", operand.listing),
       ("span", span.listing file)]]
  | .conditional test consequent alternate span =>
    wrap [.node "ConditionalExpr"
      [("test", test.listing), ("consequent", consequent.listing),
       ("alternate", alternate.listing), ("span", span.listing file)]]
  | .call callee arguments span =>
    wrap [.node "CallExpr"
      [("callee", callee.listing file), ("arguments", .list (Expr.listings arguments)),
       ("span", span.listing file)]]
where
  /-- Every expression stands in a node of its own. -/
  wrap (parts : List Listing) : Listing := .tuple "ExprWrapper" parts

def Expr.listings : List Expr → List Listing
  | [] => []
  | e :: es => e.listing :: Expr.listings es

end

mutual

def Stmt.listing : Stmt → Listing
  | .declaration identifier value span =>
    wrap [.node "VarDeclStmt"
      [("identifier", identifier.listing file), ("assigned_value", value.listing file),
       ("span", span.listing file)]]
  | .function identifier parameters body span =>
    wrap [.node "FnDeclStmt"
      [("identifier", identifier.listing file),
       ("parameters", .list (parameters.map fun s => s.listing file)),
       ("body", body.listing file), ("span", span.listing file)]]
  | .assignment target value span =>
    wrap [.node "AssignmentStmt"
      [("assignee", target.listing file), ("value", value.listing file),
       ("span", span.listing file)]]
  | .print argument span =>
    wrap [.node "PrintStmt"
      [("argument", argument.listing file), ("span", span.listing file)]]
  | .loop test body braces span =>
    wrap [.node "WhileStmt"
      [("condition", test.listing file),
       ("body", .node "BlockStmt"
         [("body", .list (Stmt.listings body)), ("span", braces.listing file)]),
       ("span", span.listing file)]]
  | .block body span =>
    wrap [.node "BlockStmt"
      [("body", .list (Stmt.listings body)), ("span", span.listing file)]]
where
  /-- Every statement stands in a node of its own. -/
  wrap (parts : List Listing) : Listing := .tuple "StmtWrapper" parts

def Stmt.listings : List Stmt → List Listing
  | [] => []
  | s :: ss => s.listing :: Stmt.listings ss

end

def Block.listing (b : Block) : Listing :=
  .node "BlockStmt" [("body", .list (Stmt.listings file b.body)), ("span", b.span.listing file)]

end Tree

end Frontend
