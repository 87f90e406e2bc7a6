import Frontend.Proofs.Resolving.Binding

/-!
# Other names

Programs with other names, as written and as resolved.

* **`Tree.Block.rename`**: every symbol gets another name and stays at its place.
* **`Program.rename`**: every entity gets another name and keeps its serial number.  The new
  name may depend on the number, so that one entity can be renamed apart from others that have
  the same name.
* **`Stop.rename`**: what is wrong stays the same, at the same position, about another name.

Two renamings that agree on what occurs in a tree do the same to it (`Tree.Expr.rename_congr`),
and one that changes no entity of a tree leaves it as it is (`Stmt.rename_eq_self`).
-/

namespace Frontend

/-! ## Programs as written -/

/-- A symbol under another name, at the same place. -/
def Symbol.rename (ρ : String → String) (s : Symbol) : Symbol := ⟨ρ s.name, s.span⟩

namespace Tree

mutual

/-- An expression with other names. -/
def Expr.rename (ρ : String → String) : Expr → Expr
  | .number value span => .number value span
  | .boolean value span => .boolean value span
  | .symbol s => .symbol (s.rename ρ)
  | .binary left operator right span => .binary (left.rename ρ) operator (right.rename ρ) span
  | .unary operator operand span => .unary operator (operand.rename ρ) span
  | .conditional test consequent alternate span =>
    .conditional (test.rename ρ) (consequent.rename ρ) (alternate.rename ρ) span
  | .call callee arguments span => .call (callee.rename ρ) (Expr.renameAll ρ arguments) span

/-- Expressions with other names. -/
def Expr.renameAll (ρ : String → String) : List Expr → List Expr
  | [] => []
  | e :: es => e.rename ρ :: Expr.renameAll ρ es

end

mutual

/-- A statement with other names. -/
def Stmt.rename (ρ : String → String) : Stmt → Stmt
  | .declaration symbol value span => .declaration (symbol.rename ρ) (value.rename ρ) span
  | .function symbol parameters body span =>
    .function (symbol.rename ρ) (parameters.map (Symbol.rename ρ)) (body.rename ρ) span
  | .assignment symbol value span => .assignment (symbol.rename ρ) (value.rename ρ) span
  | .print argument span => .print (argument.rename ρ) span
  | .loop test body braces span => .loop (test.rename ρ) (Stmt.renameAll ρ body) braces span
  | .block body span => .block (Stmt.renameAll ρ body) span

/-- Statements with other names. -/
def Stmt.renameAll (ρ : String → String) : List Stmt → List Stmt
  | [] => []
  | s :: ss => s.rename ρ :: Stmt.renameAll ρ ss

end

/-- A program with other names. -/
def Block.rename (ρ : String → String) (block : Block) : Block :=
  ⟨Stmt.renameAll ρ block.body, block.span⟩

mutual

/-- The names in an expression. -/
def Expr.names : Expr → List String
  | .number .. | .boolean .. => []
  | .symbol s => [s.name]
  | .binary left _ right _ => left.names ++ right.names
  | .unary _ operand _ => operand.names
  | .conditional test consequent alternate _ =>
    test.names ++ (consequent.names ++ alternate.names)
  | .call callee arguments _ => callee.name :: Expr.namesAll arguments

/-- The names in expressions. -/
def Expr.namesAll : List Expr → List String
  | [] => []
  | e :: es => e.names ++ Expr.namesAll es

end

theorem Expr.length_renameAll (ρ : String → String) (es : List Expr) :
    (Expr.renameAll ρ es).length = es.length := by
  induction es with
  | nil => rfl
  | cons e es ih => rw [Expr.renameAll, List.length_cons, List.length_cons, ih]

mutual

/-- Only the names that occur in an expression matter for renaming it. -/
theorem Expr.rename_congr {ρ ρ' : String → String} : (e : Expr) →
    (∀ name ∈ e.names, ρ name = ρ' name) → e.rename ρ = e.rename ρ'
  | .number .., _ | .boolean .., _ => rfl
  | .symbol s, same => by
    rw [rename, rename, Symbol.rename, Symbol.rename, same _ (List.mem_singleton_self _)]
  -- The names of the parts are among those of the whole.
  | .binary left _ right _, same => by
    obtain ⟨first, second⟩ := List.forall_mem_append.mp same
    rw [rename, rename, rename_congr left first, rename_congr right second]
  | .unary _ operand _, same => by rw [rename, rename, rename_congr operand same]
  | .conditional test consequent alternate _, same => by
    obtain ⟨first, others⟩ := List.forall_mem_append.mp same
    obtain ⟨second, third⟩ := List.forall_mem_append.mp others
    rw [rename, rename, rename_congr test first, rename_congr consequent second,
      rename_congr alternate third]
  | .call callee arguments _, same => by
    obtain ⟨first, others⟩ := List.forall_mem_cons.mp same
    rw [rename, rename, Symbol.rename, Symbol.rename, first, renameAll_congr arguments others]

theorem Expr.renameAll_congr {ρ ρ' : String → String} : (es : List Expr) →
    (∀ name ∈ Expr.namesAll es, ρ name = ρ' name) → Expr.renameAll ρ es = Expr.renameAll ρ' es
  | [], _ => rfl
  | e :: es, same => by
    obtain ⟨first, others⟩ := List.forall_mem_append.mp same
    rw [renameAll, renameAll, rename_congr e first, renameAll_congr es others]

end

end Tree

/-! ## What is wrong with a program -/

/-- The same fault about another name. -/
def Fault.rename (ρ : String → String) : Fault → Fault
  | .duplicate name => .duplicate (ρ name)
  | .undeclared name => .undeclared (ρ name)
  | .wrongKind name expected found => .wrongKind (ρ name) expected found
  | .readOnly name => .readOnly (ρ name)
  | fault => fault

/-- The same fault about another name, at the same position. -/
def Diagnostic.rename (ρ : String → String) (d : Diagnostic) : Diagnostic :=
  ⟨d.fault.rename ρ, d.position⟩

/-- The same reason to stop, about another name. -/
def Stop.rename (ρ : String → String) : Stop → Stop
  | .fault d => .fault (d.rename ρ)
  | stop => stop

/-! ## Resolved programs -/

/-- New names of entities, by their serial numbers and old names. -/
abbrev Renaming : Type := Nat → String → String

/-- The renaming that goes by the old names alone. -/
def Renaming.byName (ρ : String → String) : Renaming := fun _ => ρ

/-- The renaming of one entity. -/
def Renaming.only (serial : Nat) (y : String) : Renaming :=
  fun n name => if n = serial then y else name

/-- A variable under another name. -/
def Variable.rename (σ : Renaming) (v : Variable) : Variable := { v with name := σ v.serial v.name }

/-- A function under another name. -/
def Function.rename (σ : Renaming) (f : Function) : Function := { f with name := σ f.serial f.name }

/-- An entity under another name. -/
def Entity.rename (σ : Renaming) : Entity → Entity
  | .var v => .var (v.rename σ)
  | .func f => .func (f.rename σ)

theorem Variable.rename_only_of_ne {v : Variable} {n : Nat} {y : String} (h : v.serial ≠ n) :
    v.rename (.only n y) = v := by
  rw [Variable.rename, Renaming.only, if_neg h]

theorem Function.rename_only_of_ne {f : Function} {n : Nat} {y : String} (h : f.serial ≠ n) :
    f.rename (.only n y) = f := by
  rw [Function.rename, Renaming.only, if_neg h]

theorem Entity.rename_only_of_ne {u : Entity} {n : Nat} {y : String} (h : u.serial ≠ n) :
    u.rename (.only n y) = u := by
  cases u with
  | var v => rw [Entity.rename, Variable.rename_only_of_ne h]
  | func f => rw [Entity.rename, Function.rename_only_of_ne h]

namespace Resolved

mutual

/-- A resolved expression with other names. -/
def Expr.rename (σ : Renaming) : Expr → Expr
  | .number value => .number value
  | .boolean value => .boolean value
  | .var v => .var (v.rename σ)
  | .binary operator left right => .binary operator (left.rename σ) (right.rename σ)
  | .unary operator operand => .unary operator (operand.rename σ)
  | .conditional test consequent alternate =>
    .conditional (test.rename σ) (consequent.rename σ) (alternate.rename σ)
  | .call callee arguments => .call (callee.rename σ) (Expr.renameAll σ arguments)

/-- Resolved expressions with other names. -/
def Expr.renameAll (σ : Renaming) : List Expr → List Expr
  | [] => []
  | e :: es => e.rename σ :: Expr.renameAll σ es

end

mutual

/-- A resolved statement with other names. -/
def Stmt.rename (σ : Renaming) : Stmt → Stmt
  | .declaration v initializer => .declaration (v.rename σ) (initializer.rename σ)
  | .function f parameters body =>
    .function (f.rename σ) (parameters.map (Variable.rename σ)) (body.rename σ)
  | .assignment target source => .assignment (target.rename σ) (source.rename σ)
  | .print argument => .print (argument.rename σ)
  | .loop test body => .loop (test.rename σ) (Stmt.renameAll σ body)

/-- Resolved statements with other names. -/
def Stmt.renameAll (σ : Renaming) : List Stmt → List Stmt
  | [] => []
  | s :: ss => s.rename σ :: Stmt.renameAll σ ss

end

/-- A resolved program with other names. -/
def Program.rename (σ : Renaming) (p : Program) : Program := Stmt.renameAll σ p

section Unchanged

variable {σ : Renaming}

mutual

/-- An expression keeps its names if its entities do. -/
theorem Expr.rename_eq_self : (e : Expr) → (∀ u ∈ e.uses, u.rename σ = u) → e.rename σ = e
  | .number _, _ | .boolean _, _ => rfl
  | .var v, kept => by
    -- A variable is renamed to itself, so its name is not changed.
    have same := kept (.var v) (List.mem_singleton_self _)
    rw [Entity.rename, Entity.var.injEq] at same
    rw [rename, same]
  | .binary _ left right, kept => by
    obtain ⟨first, second⟩ := List.forall_mem_append.mp kept
    rw [rename, rename_eq_self left first, rename_eq_self right second]
  | .unary _ operand, kept => by rw [rename, rename_eq_self operand kept]
  | .conditional test consequent alternate, kept => by
    obtain ⟨first, others⟩ := List.forall_mem_append.mp kept
    obtain ⟨second, third⟩ := List.forall_mem_append.mp others
    rw [rename, rename_eq_self test first, rename_eq_self consequent second,
      rename_eq_self alternate third]
  | .call callee arguments, kept => by
    obtain ⟨same, others⟩ := List.forall_mem_cons.mp kept
    rw [Entity.rename, Entity.func.injEq] at same
    rw [rename, same, renameAll_eq_self arguments others]

theorem Expr.renameAll_eq_self : (es : List Expr) → (∀ u ∈ Expr.usesAll es, u.rename σ = u) →
    Expr.renameAll σ es = es
  | [], _ => rfl
  | e :: es, kept => by
    obtain ⟨first, others⟩ := List.forall_mem_append.mp kept
    rw [renameAll, rename_eq_self e first, renameAll_eq_self es others]

end

/-- Parameters keep their names if their entities do. -/
theorem map_rename_eq_self {parameters : List Variable}
    (kept : ∀ u ∈ parameters.map Entity.var, u.rename σ = u) :
    parameters.map (Variable.rename σ) = parameters := by
  have same : ∀ v ∈ parameters, v.rename σ = v := by
    intro v own
    have same := kept (.var v) (List.mem_map_of_mem own)
    rwa [Entity.rename, Entity.var.injEq] at same
  exact (List.map_congr_left same).trans (List.map_id _)

mutual

/-- A statement keeps its names if the entities that it uses and makes do. -/
theorem Stmt.rename_eq_self : (s : Stmt) → (∀ u ∈ s.uses, u.rename σ = u) →
    (∀ c ∈ s.creations, ∀ u ∈ c.entities, u.rename σ = u) → s.rename σ = s
  | .declaration v initializer, used, made => by
    -- What a statement declares is kept just as what it uses.
    have same := made _ (List.mem_singleton_self _) (.var v) List.mem_cons_self
    rw [Entity.rename, Entity.var.injEq] at same
    rw [rename, same, Expr.rename_eq_self initializer used]
  | .function f parameters body, used, made => by
    -- The function and its parameters are all entities of the one creation.
    obtain ⟨same, others⟩ := List.forall_mem_cons.mp (made _ (List.mem_singleton_self _))
    rw [Entity.rename, Entity.func.injEq] at same
    rw [rename, same, map_rename_eq_self others, Expr.rename_eq_self body used]
  | .assignment target source, used, _ => by
    obtain ⟨same, others⟩ := List.forall_mem_cons.mp used
    rw [Entity.rename, Entity.var.injEq] at same
    rw [rename, same, Expr.rename_eq_self source others]
  | .print argument, used, _ => by rw [rename, Expr.rename_eq_self argument used]
  | .loop test body, used, made => by
    obtain ⟨first, others⟩ := List.forall_mem_append.mp used
    rw [rename, Expr.rename_eq_self test first, renameAll_eq_self body others made]

theorem Stmt.renameAll_eq_self : (ss : List Stmt) → (∀ u ∈ Stmt.usesAll ss, u.rename σ = u) →
    (∀ c ∈ Stmt.creationsAll ss, ∀ u ∈ c.entities, u.rename σ = u) → Stmt.renameAll σ ss = ss
  | [], _, _ => rfl
  | s :: ss, used, made => by
    obtain ⟨first, others⟩ := List.forall_mem_append.mp used
    obtain ⟨own, later⟩ := List.forall_mem_append.mp made
    rw [renameAll, rename_eq_self s first own, renameAll_eq_self ss others later]

end

end Unchanged

end Resolved

end Frontend
