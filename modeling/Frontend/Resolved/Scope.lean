import Frontend.Diagnostic.Basic
import Frontend.Entity.Builtin
import Frontend.Tree.Basic

/-!
# Scopes

Which entity a name stands for at a point of a program.

* **Frame**: the names that were declared in one place, each once.
* **Scope**: a stack of frames.  A name stands for the entity of the innermost frame
  that has it, so that a declaration hides those of the frames around it.  A scope
  also knows the serial number that the next entity gets.

The outermost frame has the built-in names.  A name that stands for nothing, for the
wrong kind of thing, or for something already is a fault at the symbol that uses it.
-/

namespace Frontend

/-- Names and the entities that they stand for, the latest first. -/
abbrev Frame : Type := List (String × Entity)

def Frame.find? (frame : Frame) (name : String) : Option Entity := frame.lookup name

/-- A stack of frames. -/
structure Scope where
  /-- The innermost frame, which new names go to. -/
  locals : Frame
  /-- The frames around it, from the inside out. -/
  outer : List Frame
  /-- A serial number that no entity has yet. -/
  next : Nat
deriving DecidableEq

namespace Scope

/-- The scope at the beginning of a program: one frame with the built-in names. -/
def root : Scope :=
  let entities := Builtin.entities 0
  ⟨entities.map fun entity => (entity.name, entity), [], entities.length⟩

def push (s : Scope) : Scope := ⟨[], s.locals :: s.outer, s.next⟩

/-- The scope around the innermost frame; the outermost frame has none. -/
def pop? (s : Scope) : Option Scope :=
  match s.outer with
  | [] => none
  | frame :: rest => some ⟨frame, rest, s.next⟩

/-- The frames from the inside out. -/
def frames (s : Scope) : List Frame := s.locals :: s.outer

/-- What a name stands for. -/
def find? (s : Scope) (name : String) : Option Entity :=
  s.frames.findSome? fun frame => frame.find? name

/-- A frame that is entered and left again changes nothing. -/
@[simp] theorem pop?_push (s : Scope) : s.push.pop? = some s := rfl

/-- An empty frame hides nothing. -/
@[simp] theorem find?_push (s : Scope) (name : String) : s.push.find? name = s.find? name := by
  simp [find?, frames, push, Frame.find?, List.findSome?_cons]

/-! ## Declaring names -/

/-- Lets a symbol stand for an entity, in the innermost frame.  The frame must not have
the name; that a frame around it has it does not matter. -/
def declare (s : Scope) (symbol : Symbol) (entity : Entity) : Except Diagnostic Scope :=
  match s.locals.find? symbol.name with
  | some _ => .error ⟨.duplicate symbol.name, symbol.span.start⟩
  | none => .ok { s with locals := (symbol.name, entity) :: s.locals, next := s.next + 1 }

/-- A declared name stands for its entity, and all other names for what they stood for
before. -/
theorem find?_declare {s s' : Scope} {symbol : Symbol} {entity : Entity}
    (h : s.declare symbol entity = .ok s') (name : String) :
    s'.find? name = if name = symbol.name then some entity else s.find? name := by
  unfold declare at h
  split at h
  · cases h
  · cases h
    by_cases same : name = symbol.name
    · simp [find?, frames, Frame.find?, same]
    · have other : (name == symbol.name) = false := beq_eq_false_iff_ne.mpr same
      simp [find?, frames, Frame.find?, List.findSome?_cons, List.lookup_cons, other, same]

def newVariable (s : Scope) (symbol : Symbol) (readOnly : Bool) : Variable :=
  ⟨s.next, symbol.name, readOnly⟩

def newFunction (s : Scope) (symbol : Symbol) (arity : Nat) (userDefined : Bool) : Function :=
  ⟨s.next, symbol.name, arity, userDefined⟩

/-- Declares the parameters of a function, from left to right. -/
def declareParameters (s : Scope) : List Symbol → Except Diagnostic (List Variable × Scope)
  | [] => .ok ([], s)
  | symbol :: symbols =>
    let v := s.newVariable symbol true
    match s.declare symbol (.var v) with
    | .error d => .error d
    | .ok s' =>
      match s'.declareParameters symbols with
      | .error d => .error d
      | .ok (vs, s'') => .ok (v :: vs, s'')

/-! ## Using names -/

def resolve (s : Scope) (symbol : Symbol) : Except Diagnostic Entity :=
  match s.find? symbol.name with
  | some entity => .ok entity
  | none => .error ⟨.undeclared symbol.name, symbol.span.start⟩

def resolveVariable (s : Scope) (symbol : Symbol) : Except Diagnostic Variable :=
  match s.resolve symbol with
  | .error d => .error d
  | .ok (.var v) => .ok v
  | .ok (.func _) => .error ⟨.wrongKind symbol.name .ofVariable .ofFunction, symbol.span.start⟩

def resolveFunction (s : Scope) (symbol : Symbol) : Except Diagnostic Function :=
  match s.resolve symbol with
  | .error d => .error d
  | .ok (.func f) => .ok f
  | .ok (.var _) => .error ⟨.wrongKind symbol.name .ofFunction .ofVariable, symbol.span.start⟩

end Scope

end Frontend
