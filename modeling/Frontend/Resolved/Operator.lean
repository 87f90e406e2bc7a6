import Frontend.Token.Basic

/-!
# Operators

The operators of the language, apart from the way they are written.  The grammar
reads an operator as a token; `ofKind?` says which operator that is.
-/

namespace Frontend

/-- The operators with two operands. -/
inductive BinaryOperator where
  | or
  | and
  | less
  | lessEqual
  | equal
  | notEqual
  | greaterEqual
  | greater
  | add
  | subtract
  | multiply
  | divide
  | modulo
  | power
deriving DecidableEq

namespace BinaryOperator

/-- The operator that a kind of token stands for between two operands. -/
def ofKind? : Kind → Option BinaryOperator
  | .or => some or
  | .and => some and
  | .less => some less
  | .lessEquals => some lessEqual
  | .equals => some equal
  | .notEquals => some notEqual
  | .greaterEquals => some greaterEqual
  | .greater => some greater
  | .plus => some add
  | .dash => some subtract
  | .star => some multiply
  | .slash => some divide
  | .percent => some modulo
  | .starStar => some power
  | _ => none

def name : BinaryOperator → String
  | or => "Or"
  | and => "And"
  | less => "Less"
  | lessEqual => "LessEqual"
  | equal => "Equal"
  | notEqual => "NotEqual"
  | greaterEqual => "GreaterEqual"
  | greater => "Greater"
  | add => "Add"
  | subtract => "Subtract"
  | multiply => "Multiply"
  | divide => "Divide"
  | modulo => "Modulo"
  | power => "Power"

def text : BinaryOperator → String
  | or => "||"
  | and => "&&"
  | less => "<"
  | lessEqual => "<="
  | equal => "=="
  | notEqual => "!="
  | greaterEqual => ">="
  | greater => ">"
  | add => "+"
  | subtract => "-"
  | multiply => "*"
  | divide => "/"
  | modulo => "%"
  | power => "**"

def all : List BinaryOperator :=
  [or, and, less, lessEqual, equal, notEqual, greaterEqual, greater, add, subtract, multiply,
   divide, modulo, power]

def ofText? (text : String) : Option BinaryOperator :=
  all.find? fun operator => operator.text == text

end BinaryOperator

/-- The operators with one operand, which stands behind them. -/
inductive UnaryOperator where
  | negate
  | not
deriving DecidableEq

namespace UnaryOperator

/-- The operator that a kind of token stands for in front of an operand. -/
def ofKind? : Kind → Option UnaryOperator
  | .dash => some negate
  | .not => some not
  | _ => none

def name : UnaryOperator → String
  | negate => "Negate"
  | not => "Not"

def text : UnaryOperator → String
  | negate => "-"
  | not => "!"

def all : List UnaryOperator := [negate, not]

def ofText? (text : String) : Option UnaryOperator :=
  all.find? fun operator => operator.text == text

end UnaryOperator

end Frontend
