import Frontend.Grammar.Statement
import Frontend.Listing.Phrase
import Frontend.Listing.Program
import Frontend.Resolved.OfTree
import Frontend.Resolved.Simplification
import Frontend.Token.Scan

/-!
# The stages of a program

From the text of a program to a tree, as far as one wants to go:

* **parsed**: the phrase tree, as it was written;
* **analyzed**: the tree with its names resolved;
* **optimized**: the simplified tree.

Each stage works on what the one before it made.  The first fault ends the work.
-/

namespace Frontend

/-- How far to go. -/
inductive Stage where
  | parsed
  | analyzed
  | optimized
deriving DecidableEq

def Stage.all : List Stage := [.parsed, .analyzed, .optimized]

def Stage.name : Stage → String
  | parsed => "parsed"
  | analyzed => "analyzed"
  | optimized => "optimized"

def Stage.ofName? (name : String) : Option Stage :=
  all.find? fun stage => stage.name == name

def tokens (source : String) : Except Stop (List Token) :=
  (Token.scan source).mapError Stop.fault

def parsed (source : String) : Except Stop Tree.Block := do
  Tree.Block.ofTokens (← tokens source)

def analyzed (source : String) : Except Stop Resolved.Program := do
  Resolved.Program.ofBlock (← parsed source)

def optimized (source : String) : Except Stop Resolved.Program := do
  return (← analyzed source).simplify

/-- The tree that a stage makes. -/
inductive Output where
  | phrases (block : Tree.Block)
  | program (program : Resolved.Program)

/-- The tree of a text after the given stage. -/
def compile (source : String) : Stage → Except Stop Output
  | .parsed => (parsed source).map Output.phrases
  | .analyzed => (analyzed source).map Output.program
  | .optimized => (optimized source).map Output.program

/-- A tree ready to be written out.  Positions in it are shown with the name of the file
that the text was read from. -/
def Output.listing (file : String) : Output → Listing
  | phrases block => block.listing file
  | program p => p.listing

end Frontend
