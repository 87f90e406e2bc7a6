import Frontend.Grammar.Expression

/-!
# Reading statements

A statement is told from others by its first token; an assignment, which begins with
a name, by its second one too.  Every statement ends with a semicolon, except for a
loop, which ends with the block that it repeats.  A program is read statement by
statement until the end of the text.
-/

namespace Frontend.Grammar

open Frontend.Tree (Expr Stmt Block)

variable (table : Table)

/-- Reads a name, which is needed for a reason. -/
def identifier (context : String) : Parse Symbol := do
  let token ← Parse.expectFor .identifier ("expected identifier " ++ context)
  return ⟨token.text, token.span⟩

/-- Reads names separated by commas, at least one. -/
def parameters : Nat → Parse (List Symbol)
  | 0 => Parse.exhausted
  | fuel + 1 => do
    let parameter ← identifier "in parameter list"
    if (← Parse.kind) = .comma then
      let _ ← Parse.advance
      let others ← parameters fuel
      return parameter :: others
    else
      return [parameter]

/-- Reads an equals sign, a value and a semicolon, and yields the value. -/
def assigned (fuel : Nat) : Parse Expr := do
  let _ ← Parse.expect .assignment
  let value ← expr table fuel .lowest
  let _ ← Parse.expect .semicolon
  return value

/-- The span from `start` to the end of the latest token. -/
def spanFrom (start : Position) : Parse Span := do
  return ⟨start, (← get).previousStop⟩

/-- Reads `let identifier = value;`. -/
def declaration (fuel : Nat) : Parse Stmt := do
  let start := (← Parse.advance).span.start
  let name ← identifier "during variable declaration"
  let value ← assigned table fuel
  return .declaration name value (← spanFrom start)

/-- Reads `function identifier(parameters) = body;`. -/
def function (fuel : Nat) : Parse Stmt := do
  let start := (← Parse.advance).span.start
  let name ← identifier "after `function`"
  let _ ← Parse.expect .openParen
  let names ← if (← Parse.kind) = .closeParen then pure [] else parameters fuel
  let _ ← Parse.expect .closeParen
  let body ← assigned table fuel
  return .function name names body (← spanFrom start)

/-- Reads `target = value;`. -/
def assignment (fuel : Nat) : Parse Stmt := do
  let target ← identifier "as assignment target"
  let value ← assigned table fuel
  return .assignment target value (← spanFrom target.span.start)

/-- Reads `print argument;`. -/
def print (fuel : Nat) : Parse Stmt := do
  let start := (← Parse.advance).span.start
  let argument ← expr table fuel .lowest
  let _ ← Parse.expect .semicolon
  return .print argument (← spanFrom start)

/-- Reads statements up to a closing brace. -/
def blockBody (statement : Parse Stmt) : Nat → Parse (List Stmt)
  | 0 => Parse.exhausted
  | fuel + 1 => do
    match (← Parse.kind) with
    | .closeCurly => return []
    | .eof => Parse.misplaced "expected `\x7d` to close block"
    | _ =>
      let first ← statement
      let others ← blockBody statement fuel
      return first :: others

def blockOf (statement : Parse Stmt) (fuel : Nat) : Parse Block := do
  let start := (← Parse.expect .openCurly).span.start
  let body ← blockBody statement fuel
  let stop := (← Parse.expect .closeCurly).span.stop
  return ⟨body, ⟨start, stop⟩⟩

/-- Reads `while test` and a block. -/
def loop (statement : Parse Stmt) (fuel : Nat) : Parse Stmt := do
  let start := (← Parse.advance).span.start
  let test ← expr table fuel .lowest
  let block ← blockOf statement fuel
  return .loop test block.body block.span ⟨start, block.span.stop⟩

def statement : Nat → Parse Stmt
  | 0 => Parse.exhausted
  | fuel + 1 => do
    let c ← get
    match table.opener? c.current.kind with
    | some .declaration => declaration table fuel
    | some .function => function table fuel
    | some .print => print table fuel
    | some .loop => loop table (statement fuel) fuel
    | none =>
      if c.current.kind = .identifier ∧ c.peek = .assignment then assignment table fuel
      else Parse.misplaced "expected a statement"

/-- Reads statements up to the end of the text, each with fuel of its own. -/
def statements (fuel : Nat) : Nat → Parse (List Stmt)
  | 0 => Parse.exhausted
  | count + 1 => do
    if (← Parse.kind) = .eof then return []
    else
      let first ← statement table fuel
      let others ← statements fuel count
      return first :: others

def readStatement : Parse Stmt := do
  statement table (← get).fuel

def readBlock : Parse Block := do
  let fuel := (← get).fuel
  blockOf (statement table fuel) fuel

/-- Reads a program from the cursor to the end of the text. -/
def readProgram : Parse Block := do
  let c ← get
  let body ← statements table c.fuel c.fuel
  return ⟨body, ⟨c.position, (← get).position⟩⟩

end Frontend.Grammar

namespace Frontend.Tree.Block

/-- The program that a list of tokens is.  No tokens at all are an empty program at
the beginning of the text. -/
def ofTokens (tokens : List Token) : Except Stop Tree.Block :=
  match tokens with
  | [] => .ok ⟨[], Span.empty Position.first⟩
  | first :: others =>
    match (Grammar.readProgram Grammar.Table.language).run (Cursor.start first others) with
    | .ok block _ => .ok block
    | .error stop _ => .error stop

end Frontend.Tree.Block
