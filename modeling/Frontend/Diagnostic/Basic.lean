import Frontend.Entity.Basic
import Frontend.Token.Basic

/-!
# Diagnostics

What can be wrong with a program, and where.

* **Fault**: the cause.  Four are found while a text is read and taken apart, five
  while its names are resolved.
* **Diagnostic**: a fault together with the position that it is about.
* **Stop**: why a step of the work on a program yields nothing.

A fault carries what its text is made from and no text of its own; the texts are in
`Frontend.Diagnostic.Message`.
-/

namespace Frontend

/-- What is wrong with a program. -/
inductive Fault where
  /-- No token starts with this character. -/
  | unrecognised (token : String)
  /-- A different token is needed here. -/
  | unexpected (token : String)
  /-- This token cannot stand here, for the reason given. -/
  | misplaced (token reason : String)
  /-- This text of a number token is no number. -/
  | malformedNumber (token : String)
  /-- The innermost frame already has this name. -/
  | duplicate (name : String)
  /-- No frame has this name. -/
  | undeclared (name : String)
  /-- This name stands for the other kind of entity. -/
  | wrongKind (name : String) (expected found : EntityKind)
  /-- This variable cannot be assigned to. -/
  | readOnly (name : String)
  /-- A call has the wrong number of arguments. -/
  | arity (expected received : Nat)
deriving DecidableEq

/-- A fault at the place that it is about. -/
structure Diagnostic where
  fault : Fault
  position : Position
deriving DecidableEq

/-- Why a step of the work on a program yields nothing.  For the program in a text the
answer is always a fault; the others can only arise for lists of tokens and for trees
that were put together in another way. -/
inductive Stop where
  /-- Something is wrong with the program. -/
  | fault (d : Diagnostic)
  /-- A reading went deeper than its fuel allows: it would never come to an end. -/
  | exhausted
  /-- A tree has an operator of a kind that is no operator. -/
  | strangeOperator (kind : Kind)
  /-- A tree has a block where a statement should be. -/
  | strayBlock
deriving DecidableEq

end Frontend
