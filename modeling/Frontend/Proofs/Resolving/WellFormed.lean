import Frontend.Proofs.Simplification.Closed
import Mathlib.Logic.Relation

/-!
# What holds in every resolved program

The invariants that a resolved program has by the checks that its names went through, so that
nobody who walks the tree has to check them again.

* **`Program.statements`**: all statements of a program in the order of the text, also those in
  the bodies of loops.
* **`Program.Calls`**: the call graph.  Its nodes are functions, told by their serial numbers.
* **`Program.WellFormed`**: calls fit their callees, only variables of an earlier `let` are
  assigned to, declared names differ from each other and from the built-in names, and functions
  call nothing that is declared behind them, so that the call graph has no cycles but loops.
* **`ofBlock_wellFormed`**: resolved programs are well-formed.

What a statement has by itself (`Stmt.Fits`) follows from its own checks.  What it has because
of the statements in front of it follows from the program being closed, once its statements are
put in a row (`closedEach_insideAll`).  Serial numbers grow along the text, so they fall along
every call but one of a function to itself (`serial_lt_of_calls`).
-/

namespace Frontend

namespace Resolved

/-! ## The statements of a program in a row -/

/-- The expression that a statement has, apart from those in a body. -/
def Stmt.expr : Stmt → Expr
  | .declaration _ e | .function _ _ e | .assignment _ e | .print e | .loop e _ => e

/-- What a statement makes, apart from what is made in a body. -/
def Stmt.made : Stmt → List Creation
  | .declaration v _ => [⟨.var v, []⟩]
  | .function f parameters _ => [⟨.func f, parameters⟩]
  | .assignment .. | .print _ | .loop .. => []

mutual

/-- A statement and the statements in its body. -/
def Stmt.inside : Stmt → List Stmt
  | .loop test body => .loop test body :: Stmt.insideAll body
  | s => [s]

/-- Statements and the statements in their bodies. -/
def Stmt.insideAll : List Stmt → List Stmt
  | [] => []
  | s :: ss => s.inside ++ Stmt.insideAll ss

end

/-- All statements of a program, in the order of the text. -/
def Program.statements (p : Program) : List Stmt := Stmt.insideAll p

mutual

/-- The calls in an expression: callees and what they are called with. -/
def Expr.calls : Expr → List (Function × List Expr)
  | .number _ | .boolean _ | .var _ => []
  | .binary _ left right => left.calls ++ right.calls
  | .unary _ operand => operand.calls
  | .conditional test consequent alternate => test.calls ++ (consequent.calls ++ alternate.calls)
  | .call callee arguments => (callee, arguments) :: Expr.callsAll arguments

/-- The calls in expressions. -/
def Expr.callsAll : List Expr → List (Function × List Expr)
  | [] => []
  | e :: es => e.calls ++ Expr.callsAll es

end

/-- The body of the function with the number `m` calls the function with the number `n`. -/
def Program.Calls (p : Program) (m n : Nat) : Prop :=
  ∃ f parameters body, .function f parameters body ∈ p.statements ∧ f.serial = m ∧
    ∃ call ∈ body.calls, call.1.serial = n

/-- What holds in every resolved program. -/
structure Program.WellFormed (p : Program) : Prop where
  /-- Every call has as many arguments as its callee takes. -/
  arity : ∀ s ∈ p.statements, ∀ call ∈ s.expr.calls, call.2.length = call.1.arity
  /-- Whatever is assigned to is a variable of a `let` in front of the assignment.  It can be
  assigned to, and is neither a parameter nor a predefined constant. -/
  targets : ∀ before target source behind,
    p.statements = before ++ .assignment target source :: behind →
      target.readOnly = false ∧ (∃ initializer, .declaration target initializer ∈ before) ∧
        (∀ f parameters body, .function f parameters body ∈ p.statements →
          ∀ v ∈ parameters, v.serial ≠ target.serial) ∧
        ∀ u ∈ Builtin.entities 0, u.serial ≠ target.serial
  /-- A function takes as many arguments as it has parameters, which have different names and
  cannot be assigned to. -/
  parameters : ∀ f parameters body, .function f parameters body ∈ p.statements →
    f.arity = parameters.length ∧ (∀ v ∈ parameters, v.readOnly = true) ∧
      (parameters.map Variable.name).Nodup
  /-- No name is declared twice. -/
  distinct : (p.creations.map Creation.name).Nodup
  /-- No built-in name is declared again. -/
  apart : ∀ name ∈ p.creations.map Creation.name, name ∉ Builtin.names
  /-- Functions call built-in functions, themselves and functions in front of them. -/
  callees : ∀ before f parameters body behind,
    p.statements = before ++ .function f parameters body :: behind → ∀ call ∈ body.calls,
      .func call.1 ∈ Builtin.entities 0 ∨ call.1 = f ∨
        ∃ others inner, .function call.1 others inner ∈ before
  /-- No function is reached again by calls, except for calls of a function to itself. -/
  acyclic : ∀ n, ¬ Relation.TransGen (fun m n => m ≠ n ∧ p.Calls m n) n n

/-! ## What a statement has by itself -/

/-- What a statement has by itself, whatever is around it. -/
structure Stmt.Fits (s : Stmt) : Prop where
  arity : ∀ call ∈ s.expr.calls, call.2.length = call.1.arity
  writable : ∀ target source, s = .assignment target source → target.readOnly = false
  parameters : ∀ f parameters body, s = .function f parameters body →
    f.arity = parameters.length ∧ (∀ v ∈ parameters, v.readOnly = true) ∧
      (parameters.map Variable.name).Nodup

theorem length_of_exprsOfTrees {s : Scope} {trees : List Tree.Expr} {es : List Expr}
    (h : Expr.ofTrees s trees = .ok es) : es.length = trees.length := by
  induction trees generalizing es with
  | nil =>
    cases h
    rfl
  | cons tree trees ih =>
    obtain ⟨e, rest, -, hrest, rfl⟩ := exprsOfTrees_cons_eq_ok.mp h
    rw [List.length_cons, List.length_cons, ih hrest]

mutual

/-- Calls fit their callees: that is checked for each of them. -/
theorem arity_exprOfTree {s : Scope} : (tree : Tree.Expr) → {e : Expr} →
    Expr.ofTree s tree = .ok e → ∀ call ∈ e.calls, call.2.length = call.1.arity
  | .number .., e, h | .boolean .., e, h => by
    -- Atoms have no calls; for the rest, each call is in one of the parts.
    cases h
    intro call none
    cases none
  | .symbol symbol, e, h => by
    obtain ⟨v, -, rfl⟩ := exprOfTree_symbol_eq_ok.mp h
    intro call none
    cases none
  | .binary left operator right _, e, h => by
    obtain ⟨o, l, r, -, hl, hr, rfl⟩ := exprOfTree_binary_eq_ok.mp h
    intro call member
    rcases List.mem_append.mp member with member | member
    · exact arity_exprOfTree left hl call member
    · exact arity_exprOfTree right hr call member
  | .unary operator operand _, e, h => by
    obtain ⟨o, x, -, hx, rfl⟩ := exprOfTree_unary_eq_ok.mp h
    intro call member
    exact arity_exprOfTree operand hx call member
  | .conditional test consequent alternate _, e, h => by
    obtain ⟨t, c, a, ht, hc, ha, rfl⟩ := exprOfTree_conditional_eq_ok.mp h
    intro call member
    rcases List.mem_append.mp member with member | member
    · exact arity_exprOfTree test ht call member
    · rcases List.mem_append.mp member with member | member
      · exact arity_exprOfTree consequent hc call member
      · exact arity_exprOfTree alternate ha call member
  | .call symbol arguments _, e, h => by
    obtain ⟨f, es, -, fits, hes, rfl⟩ := exprOfTree_call_eq_ok.mp h
    intro call member
    rcases List.mem_cons.mp member with here | member
    -- The number was compared to the arity, and resolving keeps the number of arguments.
    · rw [here]
      exact (length_of_exprsOfTrees hes).trans fits
    · exact arity_exprsOfTrees arguments hes call member

theorem arity_exprsOfTrees {s : Scope} : (trees : List Tree.Expr) → {es : List Expr} →
    Expr.ofTrees s trees = .ok es → ∀ call ∈ Expr.callsAll es, call.2.length = call.1.arity
  | [], es, h => by
    cases h
    intro call none
    cases none
  | tree :: trees, es, h => by
    obtain ⟨e, rest, he, hrest, rfl⟩ := exprsOfTrees_cons_eq_ok.mp h
    intro call member
    rcases List.mem_append.mp member with member | member
    · exact arity_exprOfTree tree he call member
    · exact arity_exprsOfTrees trees hrest call member

end

/-- Parameters cannot be assigned to. -/
theorem readOnly_of_declareParameters {s s' : Scope} {symbols : List Symbol} {vs : List Variable}
    (h : s.declareParameters symbols = .ok (vs, s')) : ∀ v ∈ vs, v.readOnly = true := by
  induction symbols generalizing s vs with
  | nil =>
    cases h
    intro v none
    cases none
  | cons symbol symbols ih =>
    simp only [Scope.declareParameters] at h
    split at h
    · cases h
    · split at h
      · cases h
      · rename_i rest
        cases h
        -- Parameters are made read-only, this one and the others.
        exact List.forall_mem_cons.mpr ⟨rfl, ih rest⟩

/-- There is one parameter for each name in the list. -/
theorem length_of_declareParameters {s s' : Scope} {symbols : List Symbol} {vs : List Variable}
    (h : s.declareParameters symbols = .ok (vs, s')) : symbols.length = vs.length := by
  have names := congrArg List.length (Scope.receives_of_declareParameters h).names
  rw [List.length_map, List.length_map] at names
  exact names.symm

theorem fits_declarationOfTree {s s' : Scope} {symbol : Symbol} {value : Tree.Expr}
    {statement : Stmt} (h : declarationOfTree s symbol value = (.ok statement, s')) :
    statement.Fits := by
  obtain ⟨e, resolved, -, rfl⟩ := declarationOfTree_eq_ok.mp h
  exact ⟨arity_exprOfTree value resolved, nofun, nofun⟩

theorem fits_functionOfTree {s s' : Scope} {symbol : Symbol} {parameters : List Symbol}
    {body : Tree.Expr} {statement : Stmt}
    (h : functionOfTree s symbol parameters body = (.ok statement, s')) : statement.Fits := by
  obtain ⟨around, vs, inner, e, -, received, resolved, rfl, -⟩ := functionOfTree_eq_ok.mp h
  refine ⟨arity_exprOfTree body resolved, nofun, ?_⟩
  intro f parameters body same
  cases same
  exact ⟨length_of_declareParameters received, readOnly_of_declareParameters received,
    (Scope.receives_of_declareParameters received).nodup⟩

theorem fits_assignmentOfTree {s : Scope} {symbol : Symbol} {value : Tree.Expr}
    {statement : Stmt} (h : assignmentOfTree s symbol value = .ok statement) : statement.Fits := by
  obtain ⟨target, source, -, writable, resolved, rfl⟩ := assignmentOfTree_eq_ok.mp h
  refine ⟨arity_exprOfTree value resolved, ?_, nofun⟩
  intro target' source' same
  cases same
  exact writable

mutual

/-- A statement and those in its body have what the checks ask of each of them. -/
theorem fits_stmtOfTree {s s' : Scope} : (tree : Tree.Stmt) → {statement : Stmt} →
    Stmt.ofTree s tree = (.ok statement, s') → ∀ x ∈ statement.inside, x.Fits
  | .declaration symbol value _, statement, h => by
    have fits := fits_declarationOfTree h
    obtain ⟨e, -, -, rfl⟩ := declarationOfTree_eq_ok.mp h
    exact List.forall_mem_singleton.mpr fits
  | .function symbol parameters body _, statement, h => by
    have fits := fits_functionOfTree h
    obtain ⟨around, vs, inner, e, -, -, -, rfl, -⟩ := functionOfTree_eq_ok.mp h
    exact List.forall_mem_singleton.mpr fits
  | .assignment symbol value _, statement, h => by
    obtain ⟨resolved, -⟩ := stmtOfTree_assignment_eq_ok.mp h
    have fits := fits_assignmentOfTree resolved
    obtain ⟨target, source, -, -, -, rfl⟩ := assignmentOfTree_eq_ok.mp resolved
    exact List.forall_mem_singleton.mpr fits
  | .print argument _, statement, h => by
    obtain ⟨e, found, rfl, -⟩ := stmtOfTree_print_eq_ok.mp h
    exact List.forall_mem_singleton.mpr ⟨arity_exprOfTree argument found, nofun, nofun⟩
  | .loop test body _ _, statement, h => by
    obtain ⟨e, ss, found, resolved, rfl⟩ := stmtOfTree_loop_eq_ok.mp h
    -- The head of a loop is a statement by itself and defines no function and no target.
    have head : (Stmt.loop e ss).Fits := ⟨arity_exprOfTree test found, nofun, nofun⟩
    exact List.forall_mem_cons.mpr ⟨head, fits_stmtsOfTrees body resolved⟩

theorem fits_stmtsOfTrees {s s' : Scope} : (trees : List Tree.Stmt) → {statements : List Stmt} →
    Stmt.ofTrees s trees = ((statements, none), s') → ∀ x ∈ Stmt.insideAll statements, x.Fits
  | [], statements, h => by
    cases h
    intro x none
    cases none
  | tree :: trees, statements, h => by
    obtain ⟨statement, t, others, first, later, rfl⟩ := stmtsOfTrees_cons_eq_ok.mp h
    exact List.forall_mem_append.mpr ⟨fits_stmtOfTree tree first, fits_stmtsOfTrees trees later⟩

end

/-! ## What a statement has because of those in front of it -/

namespace Stmt

mutual

/-- A statement makes what it and the statements in its body make by themselves. -/
theorem creations_eq_flatMap : (s : Stmt) → s.creations = s.inside.flatMap made
  | .declaration .. | .function .. | .assignment .. | .print _ => rfl
  | .loop _ body => creationsAll_eq_flatMap body

theorem creationsAll_eq_flatMap : (ss : List Stmt) → creationsAll ss = (insideAll ss).flatMap made
  | [] => rfl
  | s :: ss => by
    rw [creationsAll, insideAll, List.flatMap_append, creations_eq_flatMap s,
      creationsAll_eq_flatMap ss]

end

/-- Each statement in a row is closed behind what those in front of it make. -/
def ClosedEach (before : List Creation) : List Stmt → Prop
  | [] => True
  | s :: ss => s.Closed before ∧ ClosedEach (before ++ s.made) ss

theorem closedEach_append {before : List Creation} {ss ss' : List Stmt} :
    ClosedEach before (ss ++ ss') ↔
      ClosedEach before ss ∧ ClosedEach (before ++ ss.flatMap made) ss' := by
  induction ss generalizing before with
  | nil => rw [List.nil_append, ClosedEach, List.flatMap_nil, List.append_nil, true_and]
  | cons s ss ih =>
    rw [List.cons_append, ClosedEach, ClosedEach, ih, List.flatMap_cons, List.append_assoc, and_assoc]

mutual

/-- Statements that are closed are also closed in a row. -/
theorem closedEach_inside {before : List Creation} : (s : Stmt) → s.Closed before →
    ClosedEach before s.inside
  | .declaration .., closed | .function .., closed | .assignment .., closed | .print _, closed =>
    ⟨closed, trivial⟩
  | .loop test body, closed => by
    refine ⟨closed, ?_⟩
    -- The head of a loop makes nothing.
    rw [show (loop test body).made = [] from rfl, List.append_nil]
    exact closedEach_insideAll body closed.2

theorem closedEach_insideAll {before : List Creation} : (ss : List Stmt) → ClosedAll before ss →
    ClosedEach before (insideAll ss)
  | [], _ => trivial
  | s :: ss, closed => by
    have others := closedEach_insideAll ss closed.2
    rw [creations_eq_flatMap] at others
    exact closedEach_append.mpr ⟨closedEach_inside s closed.1, others⟩

end

/-- Variables are made by a `let`, and functions together with their parameters. -/
theorem eq_of_mem_made {s : Stmt} {c : Creation} (h : c ∈ s.made) :
    (∃ v e, s = .declaration v e ∧ c = ⟨.var v, []⟩) ∨
      ∃ f vs e, s = .function f vs e ∧ c = ⟨.func f, vs⟩ := by
  cases s with
  | declaration v e => exact .inl ⟨v, e, rfl, List.mem_singleton.mp h⟩
  | function f vs e => exact .inr ⟨f, vs, e, rfl, List.mem_singleton.mp h⟩
  | assignment | print | loop => cases h

/-- A variable that can be seen is predefined or declared by a `let`. -/
theorem declared_of_visible {v : Variable} {ss : List Stmt}
    (h : .var v ∈ visible (ss.flatMap made)) :
    .var v ∈ Builtin.entities 0 ∨ ∃ e, .declaration v e ∈ ss := by
  rcases List.mem_append.mp h with builtin | declared
  · exact .inl builtin
  · obtain ⟨c, mem, same⟩ := List.mem_map.mp declared
    obtain ⟨s, hs, own⟩ := List.mem_flatMap.mp mem
    rcases eq_of_mem_made own with ⟨v', e, rfl, rfl⟩ | ⟨f, vs, e, rfl, rfl⟩
    · cases same
      exact .inr ⟨e, hs⟩
    · cases same

/-- A function that can be seen is built in or declared. -/
theorem defined_of_visible {f : Function} {ss : List Stmt}
    (h : .func f ∈ visible (ss.flatMap made)) :
    .func f ∈ Builtin.entities 0 ∨ ∃ vs e, .function f vs e ∈ ss := by
  rcases List.mem_append.mp h with builtin | declared
  · exact .inl builtin
  · obtain ⟨c, mem, same⟩ := List.mem_map.mp declared
    obtain ⟨s, hs, own⟩ := List.mem_flatMap.mp mem
    rcases eq_of_mem_made own with ⟨v, e, rfl, rfl⟩ | ⟨g, vs, e, rfl, rfl⟩
    · cases same
    · cases same
      exact .inr ⟨vs, e, hs⟩

end Stmt

mutual

/-- Every callee in an expression is one of the entities that it uses. -/
theorem Expr.callee_mem_uses {call : Function × List Expr} : (e : Expr) → call ∈ e.calls →
    .func call.1 ∈ e.uses
  -- What is called in a part is used in the part, and so in the whole.
  | .number _, h | .boolean _, h | .var _, h => by cases h
  | .binary _ left right, h => by
    rcases List.mem_append.mp h with h | h
    · exact List.mem_append_left _ (callee_mem_uses left h)
    · exact List.mem_append_right _ (callee_mem_uses right h)
  | .unary _ operand, h => callee_mem_uses operand h
  | .conditional test consequent alternate, h => by
    rcases List.mem_append.mp h with h | h
    · exact List.mem_append_left _ (callee_mem_uses test h)
    · rcases List.mem_append.mp h with h | h
      · exact List.mem_append_right _ (List.mem_append_left _ (callee_mem_uses consequent h))
      · exact List.mem_append_right _ (List.mem_append_right _ (callee_mem_uses alternate h))
  | .call callee arguments, h => by
    rcases List.mem_cons.mp h with rfl | h
    · exact List.mem_cons_self
    · exact List.mem_cons_of_mem _ (callee_mem_usesAll arguments h)

theorem Expr.callee_mem_usesAll {call : Function × List Expr} : (es : List Expr) →
    call ∈ Expr.callsAll es → .func call.1 ∈ Expr.usesAll es
  | [], h => by cases h
  | e :: es, h => by
    rcases List.mem_append.mp h with h | h
    · exact List.mem_append_left _ (callee_mem_uses e h)
    · exact List.mem_append_right _ (callee_mem_usesAll es h)

end

/-- The only predefined variable cannot be assigned to. -/
theorem readOnly_of_builtin {v : Variable} (h : .var v ∈ Builtin.entities 0) : v.readOnly = true := by
  have constants : ∀ u ∈ Builtin.entities 0, ∀ v, u = .var v → v.readOnly = true := by
    intro u hu
    simp only [Builtin.entities, Builtin.table, List.mapIdx_cons, List.mapIdx_nil, List.mem_cons,
      List.not_mem_nil, or_false] at hu
    rcases hu with rfl | rfl | rfl | rfl | rfl | rfl | rfl <;> rintro v ⟨⟩
    rfl
  exact constants _ h v rfl

section Programs

variable {block : Tree.Block} {p : Program} {before behind : List Stmt}

/-- A statement of a resolved program is closed behind the statements in front of it. -/
theorem closed_of_split (h : Program.ofBlock block = .ok p) {s : Stmt}
    (split : p.statements = before ++ s :: behind) : s.Closed (before.flatMap Stmt.made) := by
  have each := Stmt.closedEach_insideAll p (closed_ofBlock h)
  rw [show Stmt.insideAll p = before ++ s :: behind from split, Stmt.closedEach_append] at each
  exact each.2.1

/-- A function calls what is built in, itself, or what is in front of it. -/
theorem callees_ofBlock (h : Program.ofBlock block = .ok p) {f : Function}
    {parameters : List Variable} {body : Expr}
    (split : p.statements = before ++ .function f parameters body :: behind) :
    ∀ call ∈ body.calls, .func call.1 ∈ Builtin.entities 0 ∨ call.1 = f ∨
      ∃ others inner, .function call.1 others inner ∈ before := by
  intro call member
  -- Whatever the body uses is visible before the function or made together with it.
  rcases List.mem_append.mp (closed_of_split h split _ (Expr.callee_mem_uses body member)) with
    seen | own
  · rcases Stmt.defined_of_visible seen with builtin | defined
    · exact .inl builtin
    · exact .inr (.inr defined)
  · -- What is made together with the function is the function and its parameters.
    rcases List.mem_cons.mp own with itself | parameter
    · cases itself
      exact .inr (.inl rfl)
    · obtain ⟨v, -, different⟩ := List.mem_map.mp parameter
      cases different

/-! ## The order of serial numbers -/

/-- Serial numbers grow along the text. -/
theorem increasing_ofBlock (h : Program.ofBlock block = .ok p) :
    ((entitiesOf (p.statements.flatMap Stmt.made)).map Entity.serial).Pairwise (· < ·) := by
  obtain ⟨-, s', resolves⟩ := resolves_ofBlock h
  have serials := resolves.records.serials
  rw [List.nil_append, show p.creations = p.statements.flatMap Stmt.made from
    Stmt.creationsAll_eq_flatMap p] at serials
  rw [serials]
  exact List.pairwise_lt_range

/-- What is built in or made by a statement in front of a function has a smaller serial number
than the function. -/
theorem serial_lt_of_split (h : Program.ofBlock block = .ok p) {f : Function}
    {parameters : List Variable} {body : Expr}
    (split : p.statements = before ++ .function f parameters body :: behind) {u : Entity}
    (earlier : u ∈ visible (before.flatMap Stmt.made)) : u.serial < f.serial := by
  have increasing := increasing_ofBlock h
  -- Built-in entities stand first in the row, and then what the statements make in turn.
  rw [split, entitiesOf, List.flatMap_append, List.flatMap_append, ← List.append_assoc,
    List.map_append, List.pairwise_append] at increasing
  refine increasing.2.2 u.serial (List.mem_map_of_mem ?_) f.serial ?_
  · rcases List.mem_append.mp earlier with builtin | declared
    · exact List.mem_append_left _ builtin
    · obtain ⟨c, mem, rfl⟩ := List.mem_map.mp declared
      exact List.mem_append_right _ (List.mem_flatMap.mpr ⟨c, mem, List.mem_cons_self⟩)
  · have own : Entity.func f ∈
        ((Stmt.function f parameters body :: behind).flatMap Stmt.made).flatMap Creation.entities :=
      List.mem_flatMap.mpr ⟨⟨.func f, parameters⟩, List.mem_cons_self, List.mem_cons_self⟩
    exact List.mem_map_of_mem own

/-- A call that is not one of a function to itself leads to a smaller serial number. -/
theorem serial_lt_of_calls (h : Program.ofBlock block = .ok p) {m n : Nat} (different : m ≠ n)
    (calls : p.Calls m n) : n < m := by
  obtain ⟨f, parameters, body, mem, rfl, call, member, rfl⟩ := calls
  obtain ⟨before, behind, split⟩ := List.append_of_mem mem
  have lower := serial_lt_of_split h split (u := .func call.1)
  rcases callees_ofBlock h split call member with builtin | itself | ⟨others, inner, earlier⟩
  · exact lower (List.mem_append_left _ builtin)
  · rw [itself] at different
    exact absurd rfl different
  · have made : Creation.mk (.func call.1) others ∈ before.flatMap Stmt.made :=
      List.mem_flatMap.mpr ⟨_, earlier, List.mem_singleton_self _⟩
    exact lower (List.mem_append_right _ (List.mem_map_of_mem made))

/-- Several such calls one after the other lead to a smaller serial number as well. -/
theorem serial_lt_of_reaches (h : Program.ofBlock block = .ok p) {m n : Nat}
    (reaches : Relation.TransGen (fun m n => m ≠ n ∧ p.Calls m n) m n) : n < m := by
  induction reaches with
  | single step => exact serial_lt_of_calls h step.1 step.2
  | tail _ step ih => exact Nat.lt_trans (serial_lt_of_calls h step.1 step.2) ih

/-! ## Programs -/

/-- The variable of a `let` is no parameter. -/
theorem not_parameter (h : Program.ofBlock block = .ok p) {target v : Variable} {e body : Expr}
    {f : Function} {parameters : List Variable} (declared : .declaration target e ∈ p.statements)
    (defined : .function f parameters body ∈ p.statements) (own : v ∈ parameters) :
    v.serial ≠ target.serial := by
  have unmistakable := unmistakable_ofBlock h
  rw [show p.creations = p.statements.flatMap Stmt.made from
    Stmt.creationsAll_eq_flatMap p] at unmistakable
  have first : Creation.mk (.var target) [] ∈ p.statements.flatMap Stmt.made :=
    List.mem_flatMap.mpr ⟨_, declared, List.mem_singleton_self _⟩
  have second : Creation.mk (.func f) parameters ∈ p.statements.flatMap Stmt.made :=
    List.mem_flatMap.mpr ⟨_, defined, List.mem_singleton_self _⟩
  obtain ⟨i, hi⟩ := List.mem_iff_getElem?.mp first
  obtain ⟨j, hj⟩ := List.mem_iff_getElem?.mp second
  -- Both would be made at one place, which holds a variable or a function but not both.
  intro same
  have place := unmistakable.owner_unique hj hi
    (List.mem_cons_of_mem _ (List.mem_map_of_mem (f := Entity.var) own)) List.mem_cons_self same
  rw [place, hi] at hj
  cases hj

/-- The variable of a `let` is not predefined. -/
theorem not_builtin (h : Program.ofBlock block = .ok p) {target : Variable} {e : Expr}
    (declared : .declaration target e ∈ p.statements) :
    ∀ u ∈ Builtin.entities 0, u.serial ≠ target.serial := by
  have made : Creation.mk (.var target) [] ∈ p.creations := by
    rw [show p.creations = p.statements.flatMap Stmt.made from Stmt.creationsAll_eq_flatMap p]
    exact List.mem_flatMap.mpr ⟨_, declared, List.mem_singleton_self _⟩
  obtain ⟨-, -, -, others⟩ := (unmistakable_ofBlock h).parts
  intro u builtin
  exact others u builtin _ made (.var target) List.mem_cons_self

/-- What is assigned to is a variable that a `let` in front of the assignment declares. -/
theorem target_ofBlock (h : Program.ofBlock block = .ok p) {target : Variable} {source : Expr}
    (split : p.statements = before ++ .assignment target source :: behind)
    (writable : target.readOnly = false) : ∃ e, .declaration target e ∈ before := by
  have seen := closed_of_split h split (.var target) List.mem_cons_self
  rcases Stmt.declared_of_visible seen with builtin | declared
  · -- The target can be assigned to, and nothing predefined can.
    rw [readOnly_of_builtin builtin] at writable
    cases writable
  · exact declared

/-- **Resolved programs are well-formed.** -/
theorem ofBlock_wellFormed (h : Program.ofBlock block = .ok p) : p.WellFormed := by
  obtain ⟨-, s', resolves⟩ := resolves_ofBlock h
  obtain ⟨t, resolved⟩ := ofBlock_eq_ok.mp h
  have fits : ∀ s ∈ p.statements, s.Fits := fits_stmtsOfTrees block.body resolved
  have names := resolves.records.names
  obtain ⟨distinct, apart⟩ := resolves.records.apart
  rw [names, List.nil_append] at distinct apart
  refine ⟨?arity, ?targets, ?parameters, distinct, ?apart, ?callees, ?acyclic⟩
  case arity =>
    intro s member
    exact (fits s member).arity
  -- Assignments are to variables that a declaration before them has made.
  case targets =>
    intro before target source behind split
    have member : .assignment target source ∈ p.statements := by
      rw [split]
      exact List.mem_append_right _ List.mem_cons_self
    have writable := (fits _ member).writable target source rfl
    obtain ⟨e, declared⟩ := target_ofBlock h split writable
    have inside : .declaration target e ∈ p.statements := by
      rw [split]
      exact List.mem_append_left _ declared
    refine ⟨writable, ⟨e, declared⟩, ?_, not_builtin h inside⟩
    intro f parameters body defined v own
    exact not_parameter h inside defined own
  case parameters =>
    intro f parameters body member
    exact (fits _ member).parameters f parameters body rfl
  case apart =>
    intro name declared builtin
    exact apart name builtin declared
  case callees =>
    intro before f parameters body behind split
    exact callees_ofBlock h split
  case acyclic =>
    intro n reaches
    exact Nat.lt_irrefl n (serial_lt_of_reaches h reaches)

end Programs

/-- Functions that call themselves, a function in front of them and a built-in one, and variables
from the body of a loop that are assigned to. -/
def powers : String :=
  "function square(x) = x * x;
   function power(x, n) =
     n < 1 ? 1 : n % 2 == 0 ? square(power(x, n / 2)) : x * power(x, n - 1);
   let i = 0;
   while i < 3 \x7b let y = power(i, π); y = hypot(y, 1); i = i + y; \x7d"

/-- In `powers`, `square` is 7 and `power` is 9, which calls both of them, but nothing leads from
`square` to `power`. -/
theorem powers_wellFormed : ∃ block p, Program.ofBlock block = .ok p ∧
    p.creations.map Creation.serials = [[7, 8], [9, 10, 11], [12], [13]] ∧ p.WellFormed := by
  have serials : (analyzed powers).toOption.map (fun p => p.creations.map Creation.serials)
      = some [[7, 8], [9, 10, 11], [12], [13]] := by
    decide +kernel
  obtain ⟨p, accepted, same⟩ := Option.map_eq_some_iff.mp serials
  obtain ⟨block, -, resolved⟩ := exists_ofBlock_eq (eq_ok_of_toOption accepted)
  exact ⟨block, p, resolved, same, ofBlock_wellFormed resolved⟩

end Resolved

end Frontend
