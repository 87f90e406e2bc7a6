/-!
# Entities

What a name can stand for.

* **Variable**: a `let` binding, a parameter or a predefined constant.
* **Function**: a declared or a built-in function.
* **Entity**: either of them.

Two entities are told apart by their **serial number** and by nothing else: two
declarations of one name make two entities, and every use of a name refers to the
entity of one declaration.  Whoever creates an entity gives it a serial number that
is not in use.
-/

namespace Frontend

/-- The two kinds of thing that a name can stand for. -/
inductive EntityKind where
  | ofVariable
  | ofFunction
deriving DecidableEq

def EntityKind.word : EntityKind → String
  | ofVariable => "variable"
  | ofFunction => "function"

/-- Something that holds a value. -/
structure Variable where
  serial : Nat
  name : String
  /-- Parameters and constants cannot be assigned to. -/
  readOnly : Bool
deriving DecidableEq

/-- Something that can be called. -/
structure Function where
  serial : Nat
  name : String
  /-- The number of arguments of a call. -/
  arity : Nat
  /-- False for the functions that every program has from the start. -/
  userDefined : Bool
deriving DecidableEq

/-- Anything a name can stand for. -/
inductive Entity where
  | var (v : Variable)
  | func (f : Function)
deriving DecidableEq

namespace Entity

def name : Entity → String
  | var v => v.name
  | func f => f.name

/-- The number that tells an entity from all others. -/
def serial : Entity → Nat
  | var v => v.serial
  | func f => f.serial

def kind : Entity → EntityKind
  | var _ => .ofVariable
  | func _ => .ofFunction

end Entity

end Frontend
