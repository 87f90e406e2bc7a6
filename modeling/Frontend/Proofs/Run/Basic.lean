import Frontend.Proofs.Run.Value
import Frontend.Resolved.Basic

/-!
# Running a program

What a program with resolved names does: it assigns values to variables, calls
functions and prints.

* **`Run`**: a piece of a run, which yields something together with the **events** in
  it, in order, or halts.
* **`Store`**: what the statements so far left behind, namely the values of the
  variables and the functions.  Expressions read it and do not change it.
* **`Machine`**: what the language leaves open, that is the built-in functions and
  whether a loop is stopped after so many rounds.
* **Fuel** bounds the depth of calls and the rounds of a loop.  A program terminates
  when it yields something with some amount of fuel, and `Program.run_more` says that
  it yields the same with more of it.
-/

namespace Frontend.Resolved

/-! ## Pieces of a run -/

/-- Something that happens while a program runs. -/
inductive Event where
  /-- A unary operator was applied. -/
  | unary (operator : UnaryOperator) (operand result : Value)
  /-- A binary operator was applied to the values of two expressions. -/
  | binary (operator : BinaryOperator) (left right : Expr) (x y result : Value)
  /-- A variable or a parameter got a value. -/
  | receive (v : Variable) (value : Value)
  /-- A function was called. -/
  | call (callee : Function) (arguments : List Float)
  /-- A value was printed. -/
  | print (value : Value)

/-- Why a run yields nothing. -/
inductive Halt where
  /-- The fuel is used up. -/
  | exhausted
  /-- A variable was read before it got a value. -/
  | unassigned (v : Variable)
  /-- A function was called that was not declared. -/
  | unknown (f : Function)
deriving DecidableEq

/-- A piece of a run: what it yields and the events in it, or why it yields nothing. -/
def Run (α : Type) : Type := Except Halt (α × List Event)

namespace Run

/-- Nothing comes after this. -/
def halt {α : Type} (reason : Halt) : Run α := Except.error reason

/-- A single event. -/
def event (e : Event) : Run Unit := Except.ok ((), [e])

/-- One piece after the other. -/
def andThen {α β : Type} (r : Run α) (f : α → Run β) : Run β :=
  match r with
  | .error reason => .error reason
  | .ok (x, before) =>
    match f x with
    | .error reason => .error reason
    | .ok (y, after) => .ok (y, before ++ after)

instance : Monad Run where
  pure x := Except.ok (x, [])
  bind := andThen

/-- A run yields `x`, and the events in it are `t`. -/
def Yields {α : Type} (r : Run α) (x : α) (t : List Event) : Prop := r = Except.ok (x, t)

section

variable {α β : Type} {x y : α} {t u : List Event}

@[simp] theorem yields_pure : (pure x : Run α).Yields y t ↔ y = x ∧ t = [] := by
  constructor
  · intro h
    cases h
    exact ⟨rfl, rfl⟩
  · rintro ⟨rfl, rfl⟩
    rfl

@[simp] theorem yields_halt {reason : Halt} : ¬ (halt reason : Run α).Yields x t := by
  intro h
  cases h

@[simp] theorem yields_event {e : Event} {x : Unit} : (event e).Yields x t ↔ t = [e] := by
  constructor
  · intro h
    cases h
    rfl
  · rintro rfl
    rfl

@[simp] theorem yields_bind {r : Run α} {f : α → Run β} {y : β} :
    (r >>= f).Yields y t ↔ ∃ x u w, r.Yields x u ∧ (f x).Yields y w ∧ t = u ++ w := by
  show andThen r f = _ ↔ _
  constructor
  · intro h
    match r, h with
    | .ok (x, u), h =>
      match hf : f x with
      | .ok (z, w) =>
        simp only [andThen, hf] at h
        cases h
        exact ⟨x, u, w, rfl, hf, rfl⟩
      | .error reason =>
        simp only [andThen, hf] at h
        cases h
    | .error reason, h => cases h
  · rintro ⟨x, u, w, hr, hf, rfl⟩
    cases hr
    simp only [andThen]
    rw [hf]

theorem pure_andThen (x : α) (f : α → Run β) : (pure x >>= f : Run β) = f x := by
  show andThen (Except.ok (x, [])) f = f x
  cases h : f x with
  | error reason =>
    simp only [andThen, h]
    rfl
  | ok result =>
    simp only [andThen, h, List.nil_append]
    rfl

/-- What a run yields, it yields always. -/
theorem Yields.unique {r : Run α} (h : r.Yields x t) (h' : r.Yields y u) : x = y ∧ t = u := by
  cases h.symm.trans h'
  exact ⟨rfl, rfl⟩

end

/-- A run yields something that has a property together with its events. -/
def Ends {α : Type} (r : Run α) (P : α → List Event → Prop) : Prop :=
  ∃ x t, r.Yields x t ∧ P x t

instance {α : Type} (r : Run α) (P : α → List Event → Prop) [∀ x t, Decidable (P x t)] :
    Decidable (r.Ends P) :=
  match r with
  | .ok (x, t) => decidable_of_iff (P x t)
      ⟨fun h => ⟨x, t, rfl, h⟩, fun ⟨_, _, h, property⟩ => by cases h; exact property⟩
  | .error _ => isFalse fun ⟨_, _, h, _⟩ => by cases h

end Run

/-! ## Expressions -/

/-- Values by serial number. -/
abbrev Bindings : Type := Nat → Option Value

/-- The bindings with another value at one place. -/
def Bindings.set (b : Bindings) (serial : Nat) (x : Value) : Bindings :=
  fun n => if n = serial then some x else b n

/-- What the statements so far left behind. -/
structure Store where
  /-- The values of the variables. -/
  globals : Bindings
  /-- The parameters and the body of the functions, by serial number. -/
  functions : Nat → Option (List Variable × Expr)

/-- What the language leaves open. -/
structure Machine where
  /-- The built-in functions, by name. -/
  library : String → List Float → Option Float
  /-- After how many rounds a loop is left, if at all. -/
  loopLimit : Option Nat

/-- The value of the constant `π`. -/
def pi : Float := Float.ofBits 0x400921fb54442d18

/-- The value of a variable.  The parameters of a call hide the other variables, and
`π` has a value from the start. -/
def Store.value? (s : Store) (frame : Bindings) (v : Variable) : Option Value :=
  match (frame v.serial).or (s.globals v.serial) with
  | some x => some x
  | none => if v.name = "π" then some (.number pi) else none

/-- What comes of a call with the given arguments. -/
abbrev Caller : Type := Function → List Float → Run Value

/-- A unary operator, given how its operand is evaluated. -/
def evalUnary (operator : UnaryOperator) (operand : Run Value) : Run Value := do
  let x ← operand
  Run.event (.unary operator x (operator.apply x))
  return operator.apply x

/-- A binary operator, given how its operands are evaluated.  The right one is left alone
if the left one decides. -/
def evalBinary (operator : BinaryOperator) (left right : Expr) (runLeft runRight : Run Value) :
    Run Value := do
  let x ← runLeft
  if operator.decides x then
    return x
  else
    let y ← runRight
    Run.event (.binary operator left right x y (operator.apply x y))
    return operator.apply x y

mutual

/-- The value of an expression. -/
def Expr.eval (s : Store) (call : Caller) (frame : Bindings) : Expr → Run Value
  | .number value => pure (.number value)
  | .boolean value => pure (.boolean value)
  | .var v =>
    match s.value? frame v with
    | some x => pure x
    | none => Run.halt (.unassigned v)
  | .unary operator operand => evalUnary operator (Expr.eval s call frame operand)
  | .binary operator left right =>
    evalBinary operator left right (Expr.eval s call frame left) (Expr.eval s call frame right)
  | .conditional test consequent alternate => do
    let x ← Expr.eval s call frame test
    if x.truth then Expr.eval s call frame consequent else Expr.eval s call frame alternate
  | .call callee arguments => do
    let xs ← Expr.evalAll s call frame arguments
    call callee xs

/-- The values of expressions as numbers, from left to right. -/
def Expr.evalAll (s : Store) (call : Caller) (frame : Bindings) : List Expr → Run (List Float)
  | [] => pure []
  | e :: es => do
    let x ← Expr.eval s call frame e
    let xs ← Expr.evalAll s call frame es
    return x.toNumber :: xs

end

/-- The frame of a call. -/
def frameOf : List Variable → List Float → Bindings
  | v :: vs, x :: xs => fun n => (frameOf vs xs n).or (if n = v.serial then some (.number x) else none)
  | _, _ => fun _ => none

/-- The values that parameters get in a call. -/
def receiveAll : List Variable → List Float → Run Unit
  | v :: vs, x :: xs => do
    Run.event (.receive v (.number x))
    receiveAll vs xs
  | _, _ => pure ()

/-- A call of a built-in function. -/
def callBuiltin (m : Machine) : Caller := fun f xs => do
  Run.event (.call f xs)
  match m.library f.name xs with
  | some y => return .number y
  | none => Run.halt (.unknown f)

/-- A call, given how the calls in the body of the function are made. -/
def callDeclared (s : Store) (inner : Caller) : Caller := fun f xs => do
  Run.event (.call f xs)
  match s.functions f.serial with
  | some (parameters, body) =>
    receiveAll parameters xs
    body.eval s inner (frameOf parameters xs)
  | none => Run.halt (.unknown f)

/-- A call of any function, with fuel for the calls in its body. -/
def callWith (m : Machine) (s : Store) : Nat → Caller
  | 0 => fun f xs => if f.userDefined then Run.halt .exhausted else callBuiltin m f xs
  | fuel + 1 => fun f xs =>
    if f.userDefined then callDeclared s (callWith m s fuel) f xs else callBuiltin m f xs

/-! ## Statements -/

/-- Repeats `body` as long as `test` holds, at most as often as the limit allows. -/
def repeatWhile (test : Store → Run Bool) (body : Store → Run Store) :
    Nat → Option Nat → Store → Run Store
  | 0, _, _ => Run.halt .exhausted
  | fuel + 1, limit, s =>
    if limit = some 0 then pure s
    else do
      if (← test s) then
        let s ← body s
        repeatWhile test body fuel (limit.map Nat.pred) s
      else return s

/-- The value of an expression outside of functions. -/
def Expr.evalIn (m : Machine) (fuel : Nat) (e : Expr) (s : Store) : Run Value :=
  e.eval s (callWith m s fuel) fun _ => none

/-- The store with a new value for a variable. -/
def Store.assign (s : Store) (v : Variable) (x : Value) : Run Store := do
  Run.event (.receive v x)
  return { s with globals := s.globals.set v.serial x }

/-- The store with a new function. -/
def Store.define (s : Store) (f : Function) (parameters : List Variable) (body : Expr) : Store :=
  { s with functions := fun n => if n = f.serial then some (parameters, body) else s.functions n }

mutual

/-- What a statement does to a store. -/
def Stmt.exec (m : Machine) (fuel : Nat) : Stmt → Store → Run Store
  | .declaration v initializer, s => do
    let x ← initializer.evalIn m fuel s
    s.assign v x
  | .function f parameters body, s => pure (s.define f parameters body)
  | .assignment target source, s => do
    let x ← source.evalIn m fuel s
    s.assign target x
  | .print argument, s => do
    let x ← argument.evalIn m fuel s
    Run.event (.print x)
    return s
  | .loop test body, s =>
    repeatWhile (fun s => do return (← test.evalIn m fuel s).truth) (Stmt.execAll m fuel body)
      fuel m.loopLimit s

/-- What statements do to a store, one after the other. -/
def Stmt.execAll (m : Machine) (fuel : Nat) : List Stmt → Store → Run Store
  | [], s => pure s
  | statement :: statements, s => do
    let s ← Stmt.exec m fuel statement s
    Stmt.execAll m fuel statements s

end

/-- The store before the first statement. -/
def Store.empty : Store := ⟨fun _ => none, fun _ => none⟩

/-- The store that a program leaves behind. -/
def Program.run (m : Machine) (fuel : Nat) (p : Program) : Run Store :=
  Stmt.execAll m fuel p Store.empty

end Frontend.Resolved
