import Frontend.Proofs.Renaming.Basic

/-!
# Resolving a program with other names

Names are there to be told apart.  A renaming that keeps different names different, and the
built-in names as they are, leads to the same program with other names, or to the same failure
about another name (`ofBlock_rename`).

* **`Scope.renameLocals`**: a scope whose innermost frame has other names.  Declaring a new name
  there is the same as declaring the old name in the scope (`declare_rename`).
* **`exprOfTree_rename`**: an expression needs no more than that each of its names is found under
  its new name.
-/

namespace Frontend

variable {ρ : String → String} {σ : Renaming}

/-- Two steps one after the other have renamed results if each of them has. -/
theorem bind_rename {ε α α' β β' : Type} {x : Except ε α} {k : α → Except ε β}
    {k' : α' → Except ε β'} {f : α → α'} {g : β → β'} {e : ε → ε}
    (h : ∀ a, k' (f a) = ((k a).map g).mapError e) :
    (x.map f).mapError e >>= k' = ((x >>= k).map g).mapError e := by
  cases x with
  | error stop => rfl
  | ok a => exact h a

/-! ## Scopes -/

/-- A frame with other names. -/
def Frame.rename (ρ : String → String) (σ : Renaming) (frame : Frame) : Frame :=
  frame.map fun record => (ρ record.1, record.2.rename σ)

/-- A name is found under its new name. -/
theorem Frame.find?_rename (injective : Function.Injective ρ) (frame : Frame) (name : String) :
    (frame.rename ρ σ).find? (ρ name) = (frame.find? name).map (Entity.rename σ) := by
  induction frame with
  | nil => rfl
  | cons record frame ih =>
    obtain ⟨name', u⟩ := record
    show List.lookup (ρ name) ((ρ name', u.rename σ) :: Frame.rename ρ σ frame)
      = (List.lookup name ((name', u) :: frame)).map (Entity.rename σ)
    by_cases same : name = name'
    · rw [same, List.lookup_cons_self, List.lookup_cons_self, Option.map_some]
    · have old : (name == name') = false := beq_eq_false_iff_ne.mpr same
      have new : (ρ name == ρ name') = false := beq_eq_false_iff_ne.mpr fun h => same (injective h)
      rw [List.lookup_cons, List.lookup_cons, old, new]
      exact ih

namespace Scope

/-- A scope whose innermost frame has other names, inside other frames. -/
def renameLocals (ρ : String → String) (σ : Renaming) (outer : List Frame) (s : Scope) : Scope :=
  ⟨s.locals.rename ρ σ, outer, s.next⟩

/-- A scope with other names in all frames. -/
def rename (ρ : String → String) (s : Scope) : Scope :=
  s.renameLocals ρ (.byName ρ) (s.outer.map (Frame.rename ρ (.byName ρ)))

/-- Renaming takes no notice of a new frame. -/
theorem rename_push (s : Scope) : (s.rename ρ).push = s.push.rename ρ := rfl

/-- The built-in names stay as they are. -/
theorem rename_root (fixes : ∀ name ∈ Builtin.names, ρ name = name) : root.rename ρ = root := by
  -- Every entity of the library keeps its name, and so it keeps itself.
  have kept : ∀ u ∈ Builtin.entities 0, ρ u.name = u.name ∧ u.rename (.byName ρ) = u := by
    intro u builtin
    have same : ρ u.name = u.name := by
      apply fixes
      rw [← Builtin.map_name_entities]
      exact List.mem_map_of_mem builtin
    refine ⟨same, ?_⟩
    cases u with
    | var v =>
      rw [Entity.rename, Variable.rename, Renaming.byName, show ρ v.name = v.name from same]
    | func f =>
      rw [Entity.rename, Function.rename, Renaming.byName, show ρ f.name = f.name from same]
  -- The frame of the root lists the library under those names.
  have locals : root.locals.rename ρ (.byName ρ) = root.locals := by
    show ((Builtin.entities 0).map fun u => (u.name, u)).map _
      = (Builtin.entities 0).map fun u => (u.name, u)
    rw [List.map_map]
    apply List.map_congr_left
    intro u builtin
    obtain ⟨name, entity⟩ := kept u builtin
    show (ρ u.name, u.rename (.byName ρ)) = (u.name, u)
    rw [name, entity]
  rw [rename, renameLocals, locals]
  rfl

/-- A name is found under its new name, in whichever frame it is. -/
theorem find?_rename (injective : Function.Injective ρ) (s : Scope) (name : String) :
    (s.rename ρ).find? (ρ name) = (s.find? name).map (Entity.rename (.byName ρ)) := by
  have frames : ∀ fs : List Frame,
      (fs.map (Frame.rename ρ (.byName ρ))).findSome? (fun frame => frame.find? (ρ name))
        = (fs.findSome? fun frame => frame.find? name).map (Entity.rename (.byName ρ)) := by
    intro fs
    induction fs with
    | nil => rfl
    | cons f fs ih =>
      rw [List.map_cons, List.findSome?_cons, List.findSome?_cons, f.find?_rename injective name, ih]
      cases f.find? name <;> rfl
  -- The innermost frame is one more in front of the others.
  exact frames s.frames

section Declaring

variable {s : Scope}

/-- Declaring a new name is declaring the old one, under other names. -/
theorem declare_rename (injective : Function.Injective ρ) (outer : List Frame) (symbol : Symbol)
    (u : Entity) : (s.renameLocals ρ σ outer).declare (symbol.rename ρ) (u.rename σ)
      = ((s.declare symbol u).map (renameLocals ρ σ outer)).mapError (Diagnostic.rename ρ) := by
  unfold declare
  rw [show (s.renameLocals ρ σ outer).locals.find? (symbol.rename ρ).name = _ from
    s.locals.find?_rename injective symbol.name]
  cases s.locals.find? symbol.name <;> rfl

/-- So it is for parameters, if their entities get the same names as their symbols. -/
theorem declareParameters_rename (injective : Function.Injective ρ) (outer : List Frame)
    (symbols : List Symbol) (agree : ∀ index symbol, symbols[index]? = some symbol →
      σ (s.next + index) symbol.name = ρ symbol.name) :
    (s.renameLocals ρ σ outer).declareParameters (symbols.map (Symbol.rename ρ))
      = ((s.declareParameters symbols).map fun received =>
          (received.1.map (Variable.rename σ), received.2.renameLocals ρ σ outer)).mapError
            (Diagnostic.rename ρ) := by
  induction symbols generalizing s with
  | nil => rfl
  | cons symbol symbols ih =>
    have name : σ s.next symbol.name = ρ symbol.name := agree 0 symbol rfl
    have new : (s.renameLocals ρ σ outer).newVariable (symbol.rename ρ) true
        = (s.newVariable symbol true).rename σ := by
      show (⟨s.next, ρ symbol.name, true⟩ : Variable) = ⟨s.next, σ s.next symbol.name, true⟩
      rw [name]
    have declares := declare_rename (s := s) (σ := σ) injective outer symbol
      (.var (s.newVariable symbol true))
    rw [Entity.rename] at declares
    simp only [List.map_cons, declareParameters, new, declares]
    cases declared : s.declare symbol (.var (s.newVariable symbol true)) with
    | error d => rfl
    | ok t =>
      -- One serial number has been given out, so the other symbols are one place nearer.
      have next := (declare_eq_ok declared).2.2.2
      have others := ih (s := t) fun index symbol at_ => by
        rw [next, Nat.add_assoc, Nat.add_comm 1]
        exact agree (index + 1) symbol at_
      simp only [Except.map, Except.mapError]
      rw [others]
      cases t.declareParameters symbols <;> rfl

end Declaring

section Everywhere

variable {s : Scope}

/-- Declaring a name in a scope with other names in all frames. -/
theorem declare_rename_scope (injective : Function.Injective ρ) (symbol : Symbol) (u : Entity) :
    (s.rename ρ).declare (symbol.rename ρ) (u.rename (.byName ρ))
      = ((s.declare symbol u).map (rename ρ)).mapError (Diagnostic.rename ρ) := by
  have declares := declare_rename (s := s) (σ := .byName ρ) injective
    (s.outer.map (Frame.rename ρ (.byName ρ))) symbol u
  rw [rename, declares]
  cases declared : s.declare symbol u with
  | error d => rfl
  | ok t =>
    have outer := (declare_eq_ok declared).2.2.1
    simp only [Except.map, rename, outer]

/-- Declaring parameters in a scope with other names in all frames. -/
theorem declareParameters_rename_scope (injective : Function.Injective ρ) (symbols : List Symbol) :
    (s.rename ρ).declareParameters (symbols.map (Symbol.rename ρ))
      = ((s.declareParameters symbols).map fun received =>
          (received.1.map (Variable.rename (.byName ρ)), received.2.rename ρ)).mapError
            (Diagnostic.rename ρ) := by
  have declares := declareParameters_rename (s := s) (σ := .byName ρ) injective
    (s.outer.map (Frame.rename ρ (.byName ρ))) symbols fun _ _ _ => rfl
  rw [rename, declares]
  cases received : s.declareParameters symbols with
  | error d => rfl
  | ok result =>
    have outer := (receives_of_declareParameters received).outer
    simp only [Except.map, rename, outer]

end Everywhere

section Using

variable {s t : Scope} {symbol : Symbol}

theorem resolve_rename
    (found : t.find? (ρ symbol.name) = (s.find? symbol.name).map (Entity.rename σ)) :
    t.resolve (symbol.rename ρ)
      = ((s.resolve symbol).map (Entity.rename σ)).mapError (Diagnostic.rename ρ) := by
  unfold resolve
  rw [show t.find? (symbol.rename ρ).name = _ from found]
  cases s.find? symbol.name <;> rfl

theorem resolveVariable_rename
    (found : t.find? (ρ symbol.name) = (s.find? symbol.name).map (Entity.rename σ)) :
    t.resolveVariable (symbol.rename ρ)
      = ((s.resolveVariable symbol).map (Variable.rename σ)).mapError (Diagnostic.rename ρ) := by
  unfold resolveVariable
  rw [resolve_rename found]
  cases s.resolve symbol with
  | error d => rfl
  | ok u => cases u <;> rfl

theorem resolveFunction_rename
    (found : t.find? (ρ symbol.name) = (s.find? symbol.name).map (Entity.rename σ)) :
    t.resolveFunction (symbol.rename ρ)
      = ((s.resolveFunction symbol).map (Function.rename σ)).mapError (Diagnostic.rename ρ) := by
  unfold resolveFunction
  rw [resolve_rename found]
  cases s.resolve symbol with
  | error d => rfl
  | ok u => cases u <;> rfl

end Using

end Scope

namespace Resolved

open Scope

/-! ## Expressions -/

section Expressions

variable {s t : Scope}

mutual

/-- An expression whose names are found under their new names is resolved under them. -/
theorem exprOfTree_rename : (tree : Tree.Expr) →
    (∀ name ∈ tree.names, t.find? (ρ name) = (s.find? name).map (Entity.rename σ)) →
      Expr.ofTree t (tree.rename ρ)
        = ((Expr.ofTree s tree).map (Expr.rename σ)).mapError (Stop.rename ρ)
  | .number .., _ | .boolean .., _ => rfl
  | .symbol symbol, found => by
    rw [Tree.Expr.rename, Expr.ofTree, Expr.ofTree,
      resolveVariable_rename (found _ (List.mem_singleton_self _))]
    cases s.resolveVariable symbol <;> rfl
  | .binary left operator right _, found => by
    obtain ⟨first, second⟩ := List.forall_mem_append.mp found
    rw [Tree.Expr.rename, Expr.ofTree, Expr.ofTree]
    -- An operator that no expression has fails before anything is resolved.
    cases BinaryOperator.ofKind? operator.kind with
    | none => rfl
    | some o =>
      simp only [exprOfTree_rename left first, exprOfTree_rename right second]
      apply bind_rename
      intro l
      apply bind_rename
      intro r
      rfl
  | .unary operator operand _, found => by
    rw [Tree.Expr.rename, Expr.ofTree, Expr.ofTree]
    cases UnaryOperator.ofKind? operator.kind with
    | none => rfl
    | some o =>
      simp only [exprOfTree_rename operand found]
      apply bind_rename
      intro x
      rfl
  | .conditional test consequent alternate _, found => by
    obtain ⟨first, others⟩ := List.forall_mem_append.mp found
    obtain ⟨second, third⟩ := List.forall_mem_append.mp others
    rw [Tree.Expr.rename, Expr.ofTree, Expr.ofTree, exprOfTree_rename test first,
      exprOfTree_rename consequent second, exprOfTree_rename alternate third]
    apply bind_rename
    intro x
    apply bind_rename
    intro c
    apply bind_rename
    intro a
    rfl
  | .call callee arguments _, found => by
    obtain ⟨first, others⟩ := List.forall_mem_cons.mp found
    rw [Tree.Expr.rename, Expr.ofTree, Expr.ofTree, resolveFunction_rename first,
      Tree.Expr.length_renameAll, exprsOfTrees_rename arguments others]
    cases s.resolveFunction callee with
    | error d => rfl
    -- The callee is resolved to a function of as many arguments, since its arity is no name.
    | ok f =>
      show (if arguments.length = f.arity then _ else _) = Except.mapError _ (Except.map _
        (if arguments.length = f.arity then _ else _))
      -- The number of arguments is the same, so either both calls fit or none.
      by_cases fits : arguments.length = f.arity
      · rw [if_pos fits, if_pos fits]
        apply bind_rename
        intro es
        rfl
      · rw [if_neg fits, if_neg fits]
        rfl

theorem exprsOfTrees_rename : (trees : List Tree.Expr) →
    (∀ name ∈ Tree.Expr.namesAll trees,
      t.find? (ρ name) = (s.find? name).map (Entity.rename σ)) →
      Expr.ofTrees t (Tree.Expr.renameAll ρ trees)
        = ((Expr.ofTrees s trees).map (Expr.renameAll σ)).mapError (Stop.rename ρ)
  | [], _ => rfl
  | tree :: trees, found => by
    obtain ⟨first, others⟩ := List.forall_mem_append.mp found
    rw [Tree.Expr.renameAll, Expr.ofTrees, Expr.ofTrees, exprOfTree_rename tree first,
      exprsOfTrees_rename trees others]
    apply bind_rename
    intro e
    apply bind_rename
    intro es
    rfl

end

end Expressions

/-! ## Statements -/

/-- What comes of a statement, under other names. -/
def Outcome.rename {α : Type} (ρ : String → String) (f : α → α) (outcome : Outcome α) : Outcome α :=
  ((outcome.1.map f).mapError (Stop.rename ρ), outcome.2.rename ρ)

section Statements

variable {s : Scope} (injective : Function.Injective ρ)
include injective

/-- All names of an expression are found under their new names. -/
theorem exprOfTree_rename_scope (tree : Tree.Expr) : Expr.ofTree (s.rename ρ) (tree.rename ρ)
    = ((Expr.ofTree s tree).map (Expr.rename (.byName ρ))).mapError (Stop.rename ρ) :=
  exprOfTree_rename tree fun name _ => s.find?_rename injective name

theorem declarationOfTree_rename (symbol : Symbol) (value : Tree.Expr) :
    declarationOfTree (s.rename ρ) (symbol.rename ρ) (value.rename ρ)
      = (declarationOfTree s symbol value).rename ρ (Stmt.rename (.byName ρ)) := by
  unfold declarationOfTree
  rw [exprOfTree_rename_scope injective value]
  cases Expr.ofTree s value with
  | error stop => rfl
  | ok e =>
    simp only [Except.map, Except.mapError]
    rw [show (s.rename ρ).declare (symbol.rename ρ)
      (.var ((s.rename ρ).newVariable (symbol.rename ρ) false)) = _ from
        declare_rename_scope injective symbol (.var (s.newVariable symbol false))]
    cases s.declare symbol (.var (s.newVariable symbol false)) <;> rfl

theorem functionOfTree_rename (symbol : Symbol) (parameters : List Symbol) (body : Tree.Expr) :
    functionOfTree (s.rename ρ) (symbol.rename ρ) (parameters.map (Symbol.rename ρ))
        (body.rename ρ)
      = (functionOfTree s symbol parameters body).rename ρ (Stmt.rename (.byName ρ)) := by
  unfold functionOfTree
  simp only [List.length_map]
  -- The function is declared before its parameters, in the frame around them.
  rw [show (s.rename ρ).declare (symbol.rename ρ)
    (.func ((s.rename ρ).newFunction (symbol.rename ρ) parameters.length true)) = _ from
      declare_rename_scope injective symbol (.func (s.newFunction symbol parameters.length true))]
  cases s.declare symbol (.func (s.newFunction symbol parameters.length true)) with
  | error d => rfl
  | ok t =>
    simp only [Except.map, Except.mapError]
    -- The parameters come into a frame of their own.
    rw [rename_push, declareParameters_rename_scope injective parameters]
    cases t.push.declareParameters parameters with
    | error d => rfl
    | ok received =>
      obtain ⟨vs, inner⟩ := received
      simp only [Except.map, Except.mapError]
      rw [exprOfTree_rename_scope injective body]
      cases Expr.ofTree inner body <;> rfl

theorem assignmentOfTree_rename (symbol : Symbol) (value : Tree.Expr) :
    assignmentOfTree (s.rename ρ) (symbol.rename ρ) (value.rename ρ)
      = ((assignmentOfTree s symbol value).map (Stmt.rename (.byName ρ))).mapError
          (Stop.rename ρ) := by
  unfold assignmentOfTree
  rw [resolveVariable_rename (s.find?_rename injective symbol.name)]
  cases s.resolveVariable symbol with
  | error d => rfl
  | ok target =>
    -- Whether the target may be assigned to does not depend on its name.
    show (if target.readOnly then _ else _) = Except.mapError _ (Except.map _
      (if target.readOnly then _ else _))
    by_cases constant : target.readOnly
    · rw [if_pos constant, if_pos constant]
      rfl
    · rw [if_neg constant, if_neg constant, exprOfTree_rename_scope injective value]
      cases Expr.ofTree s value <;> rfl

end Statements

mutual

/-- A statement with other names is resolved under them, and so is what follows it. -/
theorem stmtOfTree_rename {s : Scope} (injective : Function.Injective ρ) : (tree : Tree.Stmt) →
    Stmt.ofTree (s.rename ρ) (tree.rename ρ)
      = (Stmt.ofTree s tree).rename ρ (Stmt.rename (.byName ρ))
  | .declaration symbol value _ => by
    rw [Tree.Stmt.rename, Stmt.ofTree, Stmt.ofTree, declarationOfTree_rename injective]
  | .function symbol parameters body _ => by
    rw [Tree.Stmt.rename, Stmt.ofTree, Stmt.ofTree, functionOfTree_rename injective]
  | .assignment symbol value _ => by
    rw [Tree.Stmt.rename, Stmt.ofTree, Stmt.ofTree, assignmentOfTree_rename injective]
    rfl
  | .print argument _ => by
    rw [Tree.Stmt.rename, Stmt.ofTree, Stmt.ofTree, exprOfTree_rename_scope injective argument]
    cases Expr.ofTree s argument <;> rfl
  | .loop test body _ _ => by
    rw [Tree.Stmt.rename, Stmt.ofTree, Stmt.ofTree, exprOfTree_rename_scope injective test]
    cases Expr.ofTree s test with
    | error stop => rfl
    | ok e =>
      simp only [Except.map, Except.mapError]
      rw [stmtsOfTrees_rename injective body]
      -- The scope is the one behind the body, whether or not the body has a fault.
      obtain ⟨⟨ss, failure⟩, t⟩ := Stmt.ofTrees s body
      cases failure <;> rfl
  | .block .. => rfl

/-- Statements with other names are resolved under them, up to the same one. -/
theorem stmtsOfTrees_rename {s : Scope} (injective : Function.Injective ρ) : (trees : List Tree.Stmt) →
    Stmt.ofTrees (s.rename ρ) (Tree.Stmt.renameAll ρ trees)
      = ((Stmt.renameAll (.byName ρ) (Stmt.ofTrees s trees).1.1,
          (Stmt.ofTrees s trees).1.2.map (Stop.rename ρ)), (Stmt.ofTrees s trees).2.rename ρ)
  | [] => rfl
  | tree :: trees => by
    rw [Tree.Stmt.renameAll, Stmt.ofTrees, Stmt.ofTrees, stmtOfTree_rename injective tree]
    obtain ⟨result, t⟩ := Stmt.ofTree s tree
    cases result with
    | error stop => rfl
    | ok statement =>
      simp only [Outcome.rename, Except.map, Except.mapError]
      rw [stmtsOfTrees_rename injective trees]
      rfl

end

/-- **Renaming a program renames what comes of it**, provided that different names stay different
and built-in names stay as they are. -/
theorem ofBlock_rename (injective : Function.Injective ρ)
    (fixes : ∀ name ∈ Builtin.names, ρ name = name) (block : Tree.Block) :
    Program.ofBlock (block.rename ρ)
      = ((Program.ofBlock block).map (Program.rename (.byName ρ))).mapError (Stop.rename ρ) := by
  have resolved := stmtsOfTrees_rename injective (s := Scope.root) block.body
  rw [Scope.rename_root fixes] at resolved
  unfold Program.ofBlock
  rw [show (block.rename ρ).body = Tree.Stmt.renameAll ρ block.body from rfl, resolved]
  obtain ⟨⟨ss, failure⟩, t⟩ := Stmt.ofTrees Scope.root block.body
  cases failure <;> rfl

end Resolved

end Frontend
