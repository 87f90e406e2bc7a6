import Frontend.Number.Reading
import Frontend.Proofs.Grammar.Reading
import Frontend.Tree.Basic

/-!
# The grammar

What the language is, without a word about how it is read.

* **`Bare.Expr`**, **`Bare.Stmt`**: trees without places.
* **`Category`**: the categories of expressions, from the loosest to the tightest.  Every
  expression of a tighter category is one of each looser category.
* **`Derives`**: the expressions of a category, and the words that they are written in.
* **`DerivesStatement`**: statements.

```text
expression  = disjunction [? expression : expression]
disjunction = [disjunction ||] conjunction
conjunction = [conjunction &&] comparison
comparison  = sum [relational sum]
sum         = [sum additive] product
product     = [product multiplicative] power
power       = prefixed [** power]
prefixed    = unary prefixed | postfixed
postfixed   = primary | callee ( [expression {, expression}] )
primary     = number | true | false | identifier | ( expression )
callee      = identifier | ( callee )
```
-/

namespace Frontend

/-! ## Trees without places -/

namespace Bare

/-- An expression. -/
inductive Expr where
  | number (value : Float)
  | boolean (value : Bool)
  | symbol (name : String)
  | binary (left : Expr) (operator : Word) (right : Expr)
  | unary (operator : Word) (operand : Expr)
  | conditional (test consequent alternate : Expr)
  | call (callee : String) (arguments : List Expr)

/-- A statement. -/
inductive Stmt where
  | declaration (identifier : String) (value : Expr)
  | function (identifier : String) (parameters : List String) (body : Expr)
  | assignment (target : String) (value : Expr)
  | print (argument : Expr)
  | loop (test : Expr) (body : List Stmt)
  | block (body : List Stmt)

end Bare

namespace Tree

mutual

/-- An expression without its places. -/
def Expr.bare : Expr → Bare.Expr
  | .number value _ => .number value
  | .boolean value _ => .boolean value
  | .symbol s => .symbol s.name
  | .binary left operator right _ => .binary left.bare operator.word right.bare
  | .unary operator operand _ => .unary operator.word operand.bare
  | .conditional test consequent alternate _ =>
    .conditional test.bare consequent.bare alternate.bare
  | .call callee arguments _ => .call callee.name (Expr.bareAll arguments)

/-- Expressions without their places. -/
def Expr.bareAll : List Expr → List Bare.Expr
  | [] => []
  | e :: es => e.bare :: Expr.bareAll es

end

mutual

/-- A statement without its places. -/
def Stmt.bare : Stmt → Bare.Stmt
  | .declaration identifier value _ => .declaration identifier.name value.bare
  | .function identifier parameters body _ =>
    .function identifier.name (parameters.map Symbol.name) body.bare
  | .assignment target value _ => .assignment target.name value.bare
  | .print argument _ => .print argument.bare
  | .loop test body _ _ => .loop test.bare (Stmt.bareAll body)
  | .block body _ => .block (Stmt.bareAll body)

/-- Statements without their places. -/
def Stmt.bareAll : List Stmt → List Bare.Stmt
  | [] => []
  | s :: ss => s.bare :: Stmt.bareAll ss

end

end Tree

/-! ## Categories -/

/-- The categories of expressions, from the loosest to the tightest. -/
inductive Category where
  | expression
  | disjunction
  | conjunction
  | comparison
  | sum
  | product
  | power
  | prefixed
  | postfixed
  | primary
deriving DecidableEq

namespace Category

/-- The categories by number. -/
def rank : Category → Nat
  | expression => 0
  | disjunction => 1
  | conjunction => 2
  | comparison => 3
  | sum => 4
  | product => 5
  | power => 6
  | prefixed => 7
  | postfixed => 8
  | primary => 9

instance : LE Category := ⟨fun k l => k.rank ≤ l.rank⟩

instance (k l : Category) : Decidable (k ≤ l) := inferInstanceAs (Decidable (k.rank ≤ l.rank))

theorem le_refl (k : Category) : k ≤ k := Nat.le_refl k.rank

theorem le_trans {k l m : Category} (h : k ≤ l) (h' : l ≤ m) : k ≤ m := Nat.le_trans h h'

/-- The operators that a category is named for. -/
def operators : Category → List Kind
  | disjunction => [.or]
  | conjunction => [.and]
  | comparison => [.less, .lessEquals, .greater, .greaterEquals, .equals, .notEquals]
  | sum => [.plus, .dash]
  | product => [.star, .slash, .percent]
  | power => [.starStar]
  | prefixed => [.dash, .not]
  | expression | postfixed | primary => []

/-- The categories whose operators associate to the left, each with the category of its
right operands. -/
def chain? : Category → Option Category
  | disjunction => some conjunction
  | conjunction => some comparison
  | sum => some product
  | product => some power
  | _ => none

end Category

/-! ## Expressions -/

/-- A name that is called, in any number of parentheses. -/
inductive Callee : List Word → String → Prop where
  | name {w : Word} (h : w.kind = .identifier) : Callee [w] w.text
  | group {l r : Word} {ts : List Word} {f : String} (opened : l.kind = .openParen)
      (inner : Callee ts f) (closed : r.kind = .closeParen) : Callee (l :: (ts ++ [r])) f

mutual

/-- The expressions of a category, and the words that they are written in. -/
inductive Derives : Category → List Word → Bare.Expr → Prop where
  | climb {k l : Category} {ts : List Word} {e : Bare.Expr} (looser : k ≤ l)
      (h : Derives l ts e) : Derives k ts e
  | conditional {q c : Word} {ts us vs : List Word} {t a b : Bare.Expr}
      (test : Derives .disjunction ts t) (question : q.kind = .question)
      (consequent : Derives .expression us a) (colon : c.kind = .colon)
      (alternate : Derives .expression vs b) :
      Derives .expression (ts ++ q :: (us ++ c :: vs)) (.conditional t a b)
  | chain {k l : Category} {w : Word} {ts us : List Word} {a b : Bare.Expr}
      (chain : k.chain? = some l) (left : Derives k ts a) (operator : w.kind ∈ k.operators)
      (right : Derives l us b) : Derives k (ts ++ w :: us) (.binary a w b)
  | comparison {w : Word} {ts us : List Word} {a b : Bare.Expr} (left : Derives .sum ts a)
      (operator : w.kind ∈ Category.comparison.operators) (right : Derives .sum us b) :
      Derives .comparison (ts ++ w :: us) (.binary a w b)
  | power {w : Word} {ts us : List Word} {a b : Bare.Expr} (base : Derives .prefixed ts a)
      (operator : w.kind ∈ Category.power.operators) (exponent : Derives .power us b) :
      Derives .power (ts ++ w :: us) (.binary a w b)
  | unary {w : Word} {ts : List Word} {a : Bare.Expr}
      (operator : w.kind ∈ Category.prefixed.operators) (operand : Derives .prefixed ts a) :
      Derives .prefixed (w :: ts) (.unary w a)
  | call {l r : Word} {ts us : List Word} {f : String} {es : List Bare.Expr}
      (callee : Callee ts f) (opened : l.kind = .openParen) (arguments : DerivesArguments us es)
      (closed : r.kind = .closeParen) : Derives .postfixed (ts ++ l :: (us ++ [r])) (.call f es)
  | number {w : Word} {value : Float} (h : w.kind = .number)
      (reads : Number.ofText? w.text = some value) : Derives .primary [w] (.number value)
  | holds {w : Word} (h : w.kind = .trueWord) : Derives .primary [w] (.boolean true)
  | fails {w : Word} (h : w.kind = .falseWord) : Derives .primary [w] (.boolean false)
  | symbol {w : Word} (h : w.kind = .identifier) : Derives .primary [w] (.symbol w.text)
  | group {l r : Word} {ts : List Word} {e : Bare.Expr} (opened : l.kind = .openParen)
      (inner : Derives .expression ts e) (closed : r.kind = .closeParen) :
      Derives .primary (l :: (ts ++ [r])) e

/-- The arguments of a call, if there are any. -/
inductive DerivesArguments : List Word → List Bare.Expr → Prop where
  | none : DerivesArguments [] []
  | some {ts : List Word} {es : List Bare.Expr} (h : DerivesMany ts es) : DerivesArguments ts es

/-- Expressions with commas between them. -/
inductive DerivesMany : List Word → List Bare.Expr → Prop where
  | one {ts : List Word} {e : Bare.Expr} (h : Derives .expression ts e) : DerivesMany ts [e]
  | more {w : Word} {ts us : List Word} {e : Bare.Expr} {es : List Bare.Expr}
      (first : Derives .expression ts e) (comma : w.kind = .comma) (others : DerivesMany us es) :
      DerivesMany (ts ++ w :: us) (e :: es)

end

/-! ## Statements -/

/-- Names with commas between them. -/
inductive DerivesNames : List Word → List String → Prop where
  | one {w : Word} (h : w.kind = .identifier) : DerivesNames [w] [w.text]
  | more {w c : Word} {ts : List Word} {names : List String} (h : w.kind = .identifier)
      (comma : c.kind = .comma) (others : DerivesNames ts names) :
      DerivesNames (w :: c :: ts) (w.text :: names)

/-- The parameters of a function, if there are any. -/
inductive DerivesParameters : List Word → List String → Prop where
  | none : DerivesParameters [] []
  | some {ts : List Word} {names : List String} (h : DerivesNames ts names) :
      DerivesParameters ts names

/-- An equals sign, a value and a semicolon. -/
inductive DerivesAssigned : List Word → Bare.Expr → Prop where
  | assigned {q s : Word} {ts : List Word} {e : Bare.Expr} (equals : q.kind = .assignment)
      (value : Derives .expression ts e) (semicolon : s.kind = .semicolon) :
      DerivesAssigned (q :: (ts ++ [s])) e

mutual

/-- A statement and the words that it is written in. -/
inductive DerivesStatement : List Word → Bare.Stmt → Prop where
  | declaration {w i : Word} {ts : List Word} {e : Bare.Expr} (word : w.kind = .letWord)
      (identifier : i.kind = .identifier) (value : DerivesAssigned ts e) :
      DerivesStatement (w :: i :: ts) (.declaration i.text e)
  | function {w i l r : Word} {ts us : List Word} {names : List String} {e : Bare.Expr}
      (word : w.kind = .functionWord) (identifier : i.kind = .identifier)
      (opened : l.kind = .openParen) (parameters : DerivesParameters ts names)
      (closed : r.kind = .closeParen) (body : DerivesAssigned us e) :
      DerivesStatement (w :: i :: l :: (ts ++ r :: us)) (.function i.text names e)
  | assignment {i : Word} {ts : List Word} {e : Bare.Expr} (identifier : i.kind = .identifier)
      (value : DerivesAssigned ts e) : DerivesStatement (i :: ts) (.assignment i.text e)
  | print {w s : Word} {ts : List Word} {e : Bare.Expr} (word : w.kind = .printWord)
      (argument : Derives .expression ts e) (semicolon : s.kind = .semicolon) :
      DerivesStatement (w :: (ts ++ [s])) (.print e)
  | loop {w l r : Word} {ts us : List Word} {e : Bare.Expr} {ss : List Bare.Stmt}
      (word : w.kind = .whileWord) (test : Derives .expression ts e) (opened : l.kind = .openCurly)
      (body : DerivesStatements us ss) (closed : r.kind = .closeCurly) :
      DerivesStatement (w :: (ts ++ l :: (us ++ [r]))) (.loop e ss)

/-- Statements, one after the other. -/
inductive DerivesStatements : List Word → List Bare.Stmt → Prop where
  | nil : DerivesStatements [] []
  | cons {ts us : List Word} {s : Bare.Stmt} {ss : List Bare.Stmt} (first : DerivesStatement ts s)
      (others : DerivesStatements us ss) : DerivesStatements (ts ++ us) (s :: ss)

end

end Frontend
