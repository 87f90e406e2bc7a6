import Frontend.Entity.Basic

/-!
# Built-in names

The names that every program can use without declaring them: the constant `π` and
six functions of numbers.  The table is fixed; each analysis makes entities of its
own from it.
-/

namespace Frontend

inductive Builtin.Meaning where
  /-- A value that cannot be assigned to. -/
  | constant
  /-- A function with this number of arguments. -/
  | function (arity : Nat)
deriving DecidableEq

/-- An entry of the table of built-in names. -/
structure Builtin where
  name : String
  meaning : Builtin.Meaning
deriving DecidableEq

namespace Builtin

/-- All built-in names, in the order in which their entities are made. -/
def table : List Builtin :=
  [⟨"π", .constant⟩, ⟨"sqrt", .function 1⟩, ⟨"sin", .function 1⟩, ⟨"cos", .function 1⟩,
   ⟨"exp", .function 1⟩, ⟨"ln", .function 1⟩, ⟨"hypot", .function 2⟩]

def entity (b : Builtin) (serial : Nat) : Entity :=
  match b.meaning with
  | .constant => .var ⟨serial, b.name, true⟩
  | .function arity => .func ⟨serial, b.name, arity, false⟩

/-- Entities for the whole table, with serial numbers from `first` on. -/
def entities (first : Nat) : List Entity :=
  table.mapIdx fun index b => b.entity (first + index)

@[simp] theorem name_entity (b : Builtin) (serial : Nat) : (b.entity serial).name = b.name := by
  unfold entity
  split <;> rfl

end Builtin

end Frontend
