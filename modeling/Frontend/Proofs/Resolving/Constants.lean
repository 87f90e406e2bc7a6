import Frontend.Proofs.Resolving.Steps
import Frontend.Proofs.Simplification.Simulation

/-!
# The constant in a resolved program

Outside of functions, `π` is the predefined constant and nothing else.

* **`Scope.Global`**: the scope between two statements.  It has a single frame, in which
  `π` is the constant, and no other variable has the serial number of the constant.
* A name cannot be declared twice in a frame, so statements keep this
  (`Stmt.global_ofTree`).
* Thus no assignment is one of `π` to itself (`sparesPi_ofBlock`): its target would be
  the constant, which is read-only.
-/

namespace Frontend

namespace Scope

/-- The predefined constant. -/
def constant : Variable := ⟨0, "π", true⟩

/-- The scope between two statements. -/
structure Global (s : Scope) : Prop where
  /-- There is no frame around. -/
  single : s.outer = []
  /-- The constant is there. -/
  constant : s.find? "π" = some (.var constant)
  /-- Variables are found under their own names. -/
  named {name : String} {v : Variable} : s.find? name = some (.var v) → v.name = name
  /-- Nothing else has the serial number of the constant. -/
  unique {name : String} {v : Variable} :
    s.find? name = some (.var v) → v.serial = 0 → v = Scope.constant
  /-- Nothing will have it. -/
  next : 0 < s.next

/-- At the beginning of a program, the constant is the only variable. -/
theorem eq_constant_of_find?_root {name : String} {v : Variable}
    (h : root.find? name = some (.var v)) : name = "π" ∧ v = constant := by
  rw [find?_of_single rfl, Frame.find?, List.lookup_eq_some_iff] at h
  obtain ⟨before, after, split, -⟩ := h
  have member : (name, Entity.var v) ∈ root.locals := by
    rw [split]
    exact List.mem_append_right before List.mem_cons_self
  simpa [root, Builtin.entities, Builtin.table, Builtin.entity, Entity.name, constant] using member

theorem global_root : root.Global where
  single := rfl
  constant := by decide
  named h := by
    obtain ⟨rfl, rfl⟩ := eq_constant_of_find?_root h
    rfl
  unique h _ := (eq_constant_of_find?_root h).2
  next := by decide

variable {s s' : Scope}

/-- A new name is not that of the constant. -/
theorem Global.declare (g : s.Global) {symbol : Symbol} {entity : Entity}
    (h : s.declare symbol entity = .ok s')
    (named : ∀ v, entity = .var v → v.name = symbol.name ∧ v.serial = s.next) : s'.Global := by
  have found := find?_declare h
  -- There is one frame, so what is not in it is nowhere.
  obtain ⟨absent, -, outer, next⟩ := declare_eq_ok h
  rw [← find?_of_single g.single] at absent
  refine ⟨outer.trans g.single, ?_, ?_, ?_, by omega⟩
  · rw [found, if_neg, g.constant]
    intro same
    rw [← same, g.constant] at absent
    cases absent
  · intro name v hv
    rw [found] at hv
    split at hv
    · rename_i here
      cases hv
      rw [(named v rfl).1, here]
    · exact g.named hv
  · intro name v hv zero
    rw [found] at hv
    split at hv
    · cases hv
      rw [(named v rfl).2] at zero
      exact absurd zero (Nat.ne_of_gt g.next)
    · exact g.unique hv zero

/-- Serial numbers may be skipped. -/
theorem Global.advance (g : s.Global) {next : Nat} (h : s.next ≤ next) :
    Global { s with next := next } :=
  ⟨g.single, g.constant, g.named, g.unique, Nat.lt_of_lt_of_le g.next h⟩

theorem next_le_of_declareParameters {symbols : List Symbol} {vs : List Variable}
    (h : s.declareParameters symbols = .ok (vs, s')) : s.next ≤ s'.next := by
  induction symbols generalizing s vs with
  | nil =>
    cases h
    exact Nat.le_refl _
  | cons symbol symbols ih =>
    simp only [declareParameters] at h
    split at h
    · cases h
    · rename_i declared
      split at h
      · cases h
      · rename_i rest
        cases h
        -- Each parameter takes one serial number, and none is given back.
        have step := ih rest
        rw [(declare_eq_ok declared).2.2.2] at step
        exact Nat.le_of_succ_le step

end Scope

namespace Resolved

open Scope

/-! ## Expressions -/

/-- A variable that is found in a scope. -/
def InScope (s : Scope) (v : Variable) : Prop := ∃ name, s.find? name = some (.var v)

mutual

/-- The variables of a resolved expression are those of the scope. -/
theorem all_inScope_ofTree (s : Scope) : (tree : Tree.Expr) → {e : Expr} →
    Expr.ofTree s tree = .ok e → e.All (InScope s)
  | .number .., e, h | .boolean .., e, h => by
    cases h
    trivial
  -- A variable that is resolved was found, and the scope has not changed since.
  | .symbol symbol, e, h => by
    obtain ⟨v, found, rfl⟩ := exprOfTree_symbol_eq_ok.mp h
    exact ⟨symbol.name, resolveVariable_eq_ok found⟩
  | .binary left operator right _, e, h => by
    obtain ⟨o, l, r, -, hl, hr, rfl⟩ := exprOfTree_binary_eq_ok.mp h
    exact ⟨all_inScope_ofTree s left hl, all_inScope_ofTree s right hr⟩
  | .unary operator operand _, e, h => by
    obtain ⟨o, x, -, hx, rfl⟩ := exprOfTree_unary_eq_ok.mp h
    have inner := all_inScope_ofTree s operand hx
    exact inner
  | .conditional test consequent alternate _, e, h => by
    obtain ⟨t, c, a, ht, hc, ha, rfl⟩ := exprOfTree_conditional_eq_ok.mp h
    exact ⟨all_inScope_ofTree s test ht, all_inScope_ofTree s consequent hc,
      all_inScope_ofTree s alternate ha⟩
  | .call symbol arguments _, e, h => by
    obtain ⟨f, es, -, -, hes, rfl⟩ := exprOfTree_call_eq_ok.mp h
    exact all_inScope_ofTrees s arguments hes

theorem all_inScope_ofTrees (s : Scope) : (trees : List Tree.Expr) → {es : List Expr} →
    Expr.ofTrees s trees = .ok es → Expr.AllAll (InScope s) es
  | [], es, h => by
    cases h
    trivial
  | tree :: trees, es, h => by
    obtain ⟨e, rest, he, hrest, rfl⟩ := exprsOfTrees_cons_eq_ok.mp h
    exact ⟨all_inScope_ofTree s tree he, all_inScope_ofTrees s trees hrest⟩

end

mutual

theorem all_mono {P Q : Variable → Prop} (weaker : ∀ v, P v → Q v) : (e : Expr) → e.All P → e.All Q
  | .number _, _ | .boolean _, _ => trivial
  | .var v, h => weaker v h
  | .binary _ left right, h => ⟨all_mono weaker left h.1, all_mono weaker right h.2⟩
  | .unary _ operand, h => all_mono weaker operand h
  | .conditional test consequent alternate, h =>
    ⟨all_mono weaker test h.1, all_mono weaker consequent h.2.1, all_mono weaker alternate h.2.2⟩
  | .call _ arguments, h => allAll_mono weaker arguments h

theorem allAll_mono {P Q : Variable → Prop} (weaker : ∀ v, P v → Q v) :
    (es : List Expr) → Expr.AllAll P es → Expr.AllAll Q es
  | [], _ => trivial
  | e :: es, h => ⟨all_mono weaker e h.1, allAll_mono weaker es h.2⟩

end

/-! ## Statements -/

/-- An assignment of a variable to itself is not one of `π`. -/
theorem sparesPi_assignmentOfTree {s : Scope} (g : s.Global) {symbol : Symbol} {value : Tree.Expr}
    {statement : Stmt} (h : assignmentOfTree s symbol value = .ok statement) :
    statement.SparesPi := by
  obtain ⟨target, source, found, writable, resolved, rfl⟩ := assignmentOfTree_eq_ok.mp h
  refine all_mono ?_ source (all_inScope_ofTree s value resolved)
  rintro v ⟨name, hv⟩ same isPi
  -- The name of the variable is the name that it was found under.
  rw [← g.named hv, isPi, g.constant] at hv
  cases hv
  have target_eq := g.unique (resolveVariable_eq_ok found) same.symm
  rw [target_eq] at writable
  cases writable

theorem global_declarationOfTree {s s' : Scope} (g : s.Global) {symbol : Symbol}
    {value : Tree.Expr} {statement : Stmt}
    (h : declarationOfTree s symbol value = (.ok statement, s')) :
    s'.Global ∧ statement.SparesPi := by
  obtain ⟨e, -, declared, rfl⟩ := declarationOfTree_eq_ok.mp h
  refine ⟨g.declare declared ?_, trivial⟩
  rintro v ⟨⟩
  exact ⟨rfl, rfl⟩

theorem global_functionOfTree {s s' : Scope} (g : s.Global) {symbol : Symbol}
    {parameters : List Symbol} {body : Tree.Expr} {statement : Stmt}
    (h : functionOfTree s symbol parameters body = (.ok statement, s')) :
    s'.Global ∧ statement.SparesPi := by
  obtain ⟨around, vs, inner, e, declared, received, -, rfl, rfl⟩ := functionOfTree_eq_ok.mp h
  have next_le := next_le_of_declareParameters received
  have g' := g.declare declared fun v h => by cases h
  exact ⟨g'.advance next_le, trivial⟩

mutual

/-- A statement leaves a scope of the same kind. -/
theorem global_ofTree {s s' : Scope} (g : s.Global) : (tree : Tree.Stmt) → {statement : Stmt} →
    Stmt.ofTree s tree = (.ok statement, s') → s'.Global ∧ statement.SparesPi
  | .declaration symbol value _, statement, h => global_declarationOfTree g h
  | .function symbol parameters body _, statement, h => global_functionOfTree g h
  | .assignment symbol value _, statement, h => by
    obtain ⟨resolved, rfl⟩ := stmtOfTree_assignment_eq_ok.mp h
    exact ⟨g, sparesPi_assignmentOfTree g resolved⟩
  | .print argument _, statement, h => by
    obtain ⟨e, -, rfl, rfl⟩ := stmtOfTree_print_eq_ok.mp h
    exact ⟨g, trivial⟩
  | .loop test body _ _, statement, h => by
    obtain ⟨e, ss, -, resolved, rfl⟩ := stmtOfTree_loop_eq_ok.mp h
    exact global_ofTrees g body resolved

theorem global_ofTrees {s s' : Scope} (g : s.Global) : (trees : List Tree.Stmt) →
    {statements : List Stmt} → Stmt.ofTrees s trees = ((statements, none), s') →
      s'.Global ∧ Stmt.SparesPiAll statements
  | [], statements, h => by
    cases h
    exact ⟨g, trivial⟩
  | tree :: trees, statements, h => by
    obtain ⟨statement, t, others, first, later, rfl⟩ := stmtsOfTrees_cons_eq_ok.mp h
    obtain ⟨g', spares⟩ := global_ofTree g tree first
    obtain ⟨g'', sparesAll⟩ := global_ofTrees g' trees later
    exact ⟨g'', spares, sparesAll⟩

end

/-- No program assigns `π` to itself. -/
theorem sparesPi_ofBlock {block : Tree.Block} {p : Program} (h : Program.ofBlock block = .ok p) :
    Stmt.SparesPiAll p := by
  obtain ⟨s, resolved⟩ := ofBlock_eq_ok.mp h
  exact (global_ofTrees global_root block.body resolved).2

end Resolved

end Frontend
