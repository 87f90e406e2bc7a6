import Frontend.Diagnostic.Basic
import Frontend.Entity.Builtin
import Frontend.Tree.Basic

/-!
# The checks of a program

What is checked of the names in a program, and in which order, without scopes.

* **`Site.binding`**: what a name stands for at a place of the program.  It is a parameter
  of the function that the place is in, or else something that was declared earlier, or
  else a built-in name.  What was declared in the body of a loop counts as well.
* **`Check`**: one demand on one symbol.
* **`Stmt.checks`**: all checks, in order.  The initializer of a variable is checked
  before the name is, and everything else from left to right.
-/

namespace Frontend

/-- What a name stands for. -/
inductive Meaning where
  | variable (readOnly : Bool)
  | function (arity : Nat)
deriving DecidableEq

/-- A name that was declared outside of functions. -/
structure Declared where
  name : String
  meaning : Meaning
deriving DecidableEq

/-- What a built-in name stands for. -/
def Builtin.declared (b : Builtin) : Declared :=
  ⟨b.name, match b.meaning with
    | .constant => .variable true
    | .function arity => .function arity⟩

/-- A place of the program. -/
structure Site where
  /-- The parameters of the function that the place is in. -/
  parameters : List String
  /-- What was declared before, in the order of the text. -/
  earlier : List Declared

namespace Site

/-- What a name stands for outside of functions. -/
def global? (site : Site) (name : String) : Option Declared :=
  (site.earlier.find? fun d => d.name == name).or
    ((Builtin.table.map Builtin.declared).find? fun d => d.name == name)

/-- What a name stands for. -/
def binding (site : Site) (name : String) : Option Meaning :=
  if name ∈ site.parameters then some (.variable true)
  else (site.global? name).map Declared.meaning

end Site

/-! ## Checks -/

/-- What is demanded of a name. -/
inductive Demand where
  /-- It stands for something. -/
  | declared
  /-- It stands for no function. -/
  | isVariable
  /-- It stands for no variable. -/
  | isFunction
  /-- It can be assigned to. -/
  | writable
  /-- It takes this number of arguments. -/
  | arity (received : Nat)
  /-- It does not stand for anything outside of functions yet. -/
  | newName
  /-- It is no parameter yet. -/
  | newParameter

/-- A demand on a symbol at a place. -/
structure Check where
  site : Site
  symbol : Symbol
  demand : Demand

/-- What is wrong if a name does not meet a demand. -/
def Demand.fault? (site : Site) (name : String) : Demand → Option Fault
  | declared => if (site.binding name).isNone then some (.undeclared name) else none
  | isVariable =>
    match site.binding name with
    | some (.function _) => some (.wrongKind name .ofVariable .ofFunction)
    | _ => none
  | isFunction =>
    match site.binding name with
    | some (.variable _) => some (.wrongKind name .ofFunction .ofVariable)
    | _ => none
  | writable => if site.binding name = some (.variable true) then some (.readOnly name) else none
  | arity received =>
    match site.binding name with
    | some (.function expected) =>
      if received = expected then none else some (.arity expected received)
    | _ => none
  | newName => if (site.global? name).isSome then some (.duplicate name) else none
  | newParameter => if name ∈ site.parameters then some (.duplicate name) else none

/-- The violation of a check, at the symbol. -/
def Check.violation? (c : Check) : Option Diagnostic :=
  (c.demand.fault? c.site c.symbol.name).map fun fault => ⟨fault, c.symbol.span.start⟩

/-- The violation of the first check that is violated. -/
def firstViolation (cs : List Check) : Option Diagnostic := cs.findSome? Check.violation?

theorem firstViolation_append (cs cs' : List Check) :
    firstViolation (cs ++ cs') = (firstViolation cs).or (firstViolation cs') :=
  List.findSome?_append

/-! ## The checks of a program -/

namespace Tree

mutual

/-- The checks of an expression. -/
def Expr.checks (site : Site) : Expr → List Check
  | .number .. | .boolean .. => []
  | .symbol s => [⟨site, s, .declared⟩, ⟨site, s, .isVariable⟩]
  | .binary left _ right _ => left.checks site ++ right.checks site
  | .unary _ operand _ => operand.checks site
  | .conditional test consequent alternate _ =>
    test.checks site ++ (consequent.checks site ++ alternate.checks site)
  | .call callee arguments _ =>
    [⟨site, callee, .declared⟩, ⟨site, callee, .isFunction⟩] ++
      ⟨site, callee, .arity arguments.length⟩ :: Expr.checksAll site arguments

/-- The checks of expressions. -/
def Expr.checksAll (site : Site) : List Expr → List Check
  | [] => []
  | e :: es => e.checks site ++ Expr.checksAll site es

end

/-- The checks of the parameters of a function, the ones before them being known. -/
def parameterChecks (earlier : List Declared) (before : List String) : List Symbol → List Check
  | [] => []
  | s :: ss => ⟨⟨before, earlier⟩, s, .newParameter⟩ :: parameterChecks earlier (before ++ [s.name]) ss

mutual

/-- What a statement declares. -/
def Stmt.declares : Stmt → List Declared
  | .declaration s _ _ => [⟨s.name, .variable false⟩]
  | .function s parameters _ _ => [⟨s.name, .function parameters.length⟩]
  | .assignment .. | .print .. => []
  | .loop _ body _ _ | .block body _ => Stmt.declaresAll body

/-- What statements declare. -/
def Stmt.declaresAll : List Stmt → List Declared
  | [] => []
  | s :: ss => s.declares ++ Stmt.declaresAll ss

end

mutual

/-- The checks of a statement. -/
def Stmt.checks (earlier : List Declared) : Stmt → List Check
  | .declaration s value _ => value.checks ⟨[], earlier⟩ ++ [⟨⟨[], earlier⟩, s, .newName⟩]
  | .function s parameters body _ =>
    let visible := earlier ++ [⟨s.name, .function parameters.length⟩]
    ⟨⟨[], earlier⟩, s, .newName⟩ :: (parameterChecks visible [] parameters ++
      body.checks ⟨parameters.map Symbol.name, visible⟩)
  | .assignment s value _ =>
    [⟨⟨[], earlier⟩, s, .declared⟩, ⟨⟨[], earlier⟩, s, .isVariable⟩] ++
      ⟨⟨[], earlier⟩, s, .writable⟩ :: value.checks ⟨[], earlier⟩
  | .print argument _ => argument.checks ⟨[], earlier⟩
  | .loop test body _ _ => test.checks ⟨[], earlier⟩ ++ Stmt.checksAll earlier body
  | .block body _ => Stmt.checksAll earlier body

/-- The checks of statements. -/
def Stmt.checksAll (earlier : List Declared) : List Stmt → List Check
  | [] => []
  | s :: ss => s.checks earlier ++ Stmt.checksAll (earlier ++ s.declares) ss

end

/-- The checks of a program. -/
def Block.checks (block : Block) : List Check := Stmt.checksAll [] block.body

end Tree

end Frontend
