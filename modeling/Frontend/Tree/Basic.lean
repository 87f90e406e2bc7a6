import Frontend.Token.Basic

/-!
# Phrase trees

A program as it was written, before its names are resolved.

* **Symbol**: a name at its place in the text.
* **`Tree.Expr`** and **`Tree.Stmt`**: expressions and statements.  Every node has
  the span of the text that it was read from.  Operators keep the token that they
  were written with.  Parentheses make no node, and no node's span takes them in.
* **Block**: a list of statements with a span of its own, such as a whole program or
  the body of a loop.
-/

namespace Frontend

/-- A name at its place in the text. -/
structure Symbol where
  name : String
  span : Span
deriving DecidableEq, Inhabited

namespace Tree

/-- An expression as written. -/
inductive Expr where
  | number (value : Float) (span : Span)
  | boolean (value : Bool) (span : Span)
  | symbol (symbol : Symbol)
  | binary (left : Expr) (operator : Token) (right : Expr) (span : Span)
  | unary (operator : Token) (operand : Expr) (span : Span)
  | conditional (test consequent alternate : Expr) (span : Span)
  | call (callee : Symbol) (arguments : List Expr) (span : Span)
deriving Inhabited

/-- A statement as written. -/
inductive Stmt where
  /-- `let identifier = value;` -/
  | declaration (identifier : Symbol) (value : Expr) (span : Span)
  /-- `function identifier(parameters) = body;` -/
  | function (identifier : Symbol) (parameters : List Symbol) (body : Expr) (span : Span)
  /-- `target = value;` -/
  | assignment (target : Symbol) (value : Expr) (span : Span)
  /-- `print argument;` -/
  | print (argument : Expr) (span : Span)
  /-- `while test` and a block, whose statements are `body` between the braces at `braces`. -/
  | loop (test : Expr) (body : List Stmt) (braces span : Span)
  /-- A block by itself.  No statement is written like this. -/
  | block (body : List Stmt) (span : Span)
deriving Inhabited

/-- A list of statements and the span that it takes. -/
structure Block where
  body : List Stmt
  span : Span
deriving Inhabited

def Expr.span : Expr → Span
  | number _ span => span
  | boolean _ span => span
  | .symbol s => s.span
  | binary _ _ _ span => span
  | unary _ _ span => span
  | conditional _ _ _ span => span
  | call _ _ span => span

def Stmt.span : Stmt → Span
  | declaration _ _ span => span
  | function _ _ _ span => span
  | assignment _ _ span => span
  | print _ span => span
  | loop _ _ _ span => span
  | block _ span => span

end Tree

end Frontend
