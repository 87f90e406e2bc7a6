import Frontend.Diagnostic.Basic
import Frontend.Token.Basic

/-!
# Reading a list of tokens

A **cursor** stands at one token of a list.  It only moves forward, and never past
the last token: there, a move leaves it where it is.  The last token of a text is its
end, so that this does not matter; a list put together in another way may end with
any token, which is then read again and again.

* **`Parse`**: a step of reading, which moves a cursor and yields something or stops.
  A step that stops leaves the cursor where it was when it stopped.
* **Fuel**: a bound on the depth of a reading.  It runs out only where the reading
  would never come to an end.
-/

namespace Frontend

/-- A place in a list of tokens. -/
structure Cursor where
  /-- The tokens that were read, the latest first. -/
  behind : List Token
  /-- The token to be read. -/
  current : Token
  /-- The tokens after it. -/
  ahead : List Token
deriving DecidableEq

namespace Cursor

def start (first : Token) (others : List Token) : Cursor := ⟨[], first, others⟩

/-- The whole list that a cursor stands in. -/
def tokens (c : Cursor) : List Token := c.behind.reverse ++ c.current :: c.ahead

/-- The cursor one token on, or the same one at the last token. -/
def advance (c : Cursor) : Cursor :=
  match c.ahead with
  | [] => c
  | next :: rest => ⟨c.current :: c.behind, next, rest⟩

/-- The kind of the token after the current one; behind the last token the end of the
text goes on. -/
def peek (c : Cursor) : Kind :=
  match c.ahead with
  | [] => .eof
  | next :: _ => next.kind

/-- Whether the end of the text is not reached. -/
def hasTokens (c : Cursor) : Bool := c.current.kind != .eof

/-- Where the current token starts. -/
def position (c : Cursor) : Position := c.current.span.start

/-- Where the latest token that was read ends; the beginning of the text if none was. -/
def previousStop (c : Cursor) : Position :=
  match c.behind with
  | [] => Position.first
  | token :: _ => token.span.stop

/-- Fuel for any reading from a cursor on: more than the tokens that are left. -/
def fuel (c : Cursor) : Nat := c.ahead.length + 2

/-- Moving on stays in the list. -/
@[simp] theorem tokens_advance (c : Cursor) : c.advance.tokens = c.tokens := by
  unfold advance
  split <;> simp [tokens, *]

end Cursor

/-- A step of reading tokens. -/
abbrev Parse : Type → Type := EStateM Stop Cursor

namespace Parse

/-- The token to be read. -/
def current : Parse Token := do return (← get).current

def kind : Parse Kind := do return (← get).current.kind

/-- Reads a token, whatever it is. -/
def advance : Parse Token := do
  let c ← get
  set c.advance
  return c.current

def fail {α : Type} (fault : Fault) (position : Position) : Parse α :=
  throw (.fault ⟨fault, position⟩)

/-- Stops at the current token, which cannot stand there for a reason. -/
def misplaced {α : Type} (reason : String) : Parse α := do
  let token ← current
  fail (.misplaced token.text reason) token.span.start

/-- Reads a token of the given kind, or stops with the given diagnostic. -/
def expectOr (kind : Kind) (otherwise : Diagnostic) : Parse Token := do
  if (← current).kind = kind then advance else throw (.fault otherwise)

def expect (kind : Kind) : Parse Token := do
  let token ← current
  expectOr kind ⟨.unexpected token.text, token.span.start⟩

/-- Reads a token of the given kind, which is needed for a reason. -/
def expectFor (kind : Kind) (reason : String) : Parse Token := do
  let token ← current
  expectOr kind ⟨.misplaced token.text reason, token.span.start⟩

def exhausted {α : Type} : Parse α := throw .exhausted

end Parse

end Frontend
