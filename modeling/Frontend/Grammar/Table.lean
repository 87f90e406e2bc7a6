import Frontend.Token.Basic

/-!
# The grammar as a table

What a token means depends on its kind and on where it stands: at the beginning of
an expression, behind a finished one, or at the beginning of a statement.  The table
says so for every kind.

* **Power**: how tightly an operator holds its operands.  An operand ends at the
  first operator that holds less tightly than the one in front of it.
* **Opening**: how an expression goes on that begins with a token.
* **Continuation**: how a finished expression goes on that a token follows.
* **Opener**: which statement begins with a token.
-/

namespace Frontend.Grammar

/-- How tightly an operator holds its operands, from loosely to tightly. -/
inductive Power where
  | lowest
  | conditional
  | logicalOr
  | logicalAnd
  | relational
  | additive
  | multiplicative
  | exponent
  | unary
  | call
  | primary
deriving DecidableEq

namespace Power

def rank : Power → Nat
  | lowest => 0
  | conditional => 1
  | logicalOr => 2
  | logicalAnd => 3
  | relational => 4
  | additive => 5
  | multiplicative => 6
  | exponent => 7
  | unary => 8
  | call => 9
  | primary => 10

instance : LE Power := ⟨fun p q => p.rank ≤ q.rank⟩

instance (p q : Power) : Decidable (p ≤ q) := inferInstanceAs (Decidable (p.rank ≤ q.rank))

def name : Power → String
  | lowest => "Default"
  | conditional => "Conditional"
  | logicalOr => "LogicalOr"
  | logicalAnd => "LogicalAnd"
  | relational => "Relational"
  | additive => "Additive"
  | multiplicative => "Multiplicative"
  | exponent => "Exponent"
  | unary => "Unary"
  | call => "Call"
  | primary => "Primary"

def all : List Power :=
  [lowest, conditional, logicalOr, logicalAnd, relational, additive, multiplicative, exponent,
   unary, call, primary]

def ofName? (name : String) : Option Power :=
  all.find? fun p => p.name == name

end Power

/-- How an expression goes on that begins with a token. -/
inductive Opening where
  /-- The token is a number. -/
  | number
  /-- The token is a truth value. -/
  | boolean
  /-- The token is a name. -/
  | symbol
  /-- The operand of a unary operator follows. -/
  | unary
  /-- An expression and a closing parenthesis follow. -/
  | group
deriving DecidableEq

/-- How a finished expression goes on that a token follows. -/
inductive Continuation where
  /-- The two branches of a conditional follow. -/
  | conditional
  /-- The right operand of a binary operator follows. -/
  | binary
  /-- An exponent follows, which may be a power itself. -/
  | exponent
  /-- The arguments of a call follow. -/
  | call
deriving DecidableEq

/-- Which statement begins with a token. -/
inductive Opener where
  | declaration
  | function
  | print
  | loop
deriving DecidableEq

/-- What the kinds of token mean. -/
structure Table where
  opening? : Kind → Option Opening
  continuation? : Kind → Option (Power × Continuation)
  opener? : Kind → Option Opener

namespace Table

/-- The power of the operator that a token is behind a finished expression. -/
def power? (table : Table) (kind : Kind) : Option Power :=
  (table.continuation? kind).map Prod.fst

/-- The table of the language. -/
def language : Table where
  opening?
    | .number => some .number
    | .trueWord | .falseWord => some .boolean
    | .identifier => some .symbol
    | .dash | .not => some .unary
    | .openParen => some .group
    | _ => none
  continuation?
    | .question => some (.conditional, .conditional)
    | .or => some (.logicalOr, .binary)
    | .and => some (.logicalAnd, .binary)
    | .less | .lessEquals | .greater | .greaterEquals | .equals | .notEquals =>
      some (.relational, .binary)
    | .plus | .dash => some (.additive, .binary)
    | .star | .slash | .percent => some (.multiplicative, .binary)
    | .starStar => some (.exponent, .exponent)
    | .openParen => some (.call, .call)
    | _ => none
  opener?
    | .letWord => some .declaration
    | .functionWord => some .function
    | .printWord => some .print
    | .whileWord => some .loop
    | _ => none

/-- The table in which no token means anything. -/
def blank : Table where
  opening? _ := none
  continuation? _ := none
  opener? _ := none

end Table

end Frontend.Grammar
