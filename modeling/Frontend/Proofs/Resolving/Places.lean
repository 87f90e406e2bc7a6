import Frontend.Proofs.Grammar.Known
import Frontend.Proofs.Grammar.Moved

/-!
# Places do not matter

Names are resolved in the same way wherever they stand.  Of two programs that differ in their
places only, both are resolved, as the same program, or neither is, for the same reason at
positions that belong together.

* **`SameCheck`**: the same answer of a scope, or the same diagnostic at related positions.
* **`exprOfTree_moved`**, **`stmtOfTree_moved`**: in the same scope, expressions and statements
  are resolved as the same.
* **`ofBlock_moved`**: programs are resolved as the same.
-/

namespace Frontend

open Frontend.Tree (Expr Stmt)

/-! ## Steps that fail at related positions -/

namespace SameResult

variable {α β : Type} {S : String → Position → Position → Prop} {R : α → α → Prop}
  {R' : β → β → Prop} {x x' : Except Stop α}

theorem bind {f f' : α → Except Stop β} (first : SameResult S R x x')
    (rest : ∀ a a', R a a' → SameResult S R' (f a) (f' a')) :
    SameResult S R' (x >>= f) (x' >>= f') := by
  cases first with
  | ok related => exact rest _ _ related
  | fault same => exact .fault same

theorem map {f : α → β} (h : SameResult S R x x') (related : ∀ a a', R a a' → R' (f a) (f a')) :
    SameResult S R' (x.map f) (x'.map f) := by
  cases h with
  | ok h => exact .ok (related _ _ h)
  | fault same => exact .fault same

/-- The same function of the same results. -/
theorem map_eq {f : α → β} (h : SameResult S Eq x x') : SameResult S Eq (x.map f) (x'.map f) :=
  h.map fun _ _ same => congrArg f same

end SameResult

/-- The same answer, or the same diagnostic, at positions that are related. -/
inductive SameCheck {α : Type} (S : String → Position → Position → Prop) :
    Except Diagnostic α → Except Diagnostic α → Prop where
  | ok {x : α} : SameCheck S (.ok x) (.ok x)
  | error {f : Fault} {p p' : Position} (h : SameFault S f p p') :
      SameCheck S (.error ⟨f, p⟩) (.error ⟨f, p'⟩)

variable {S : String → Position → Position → Prop} {s : Scope}

/-! ## Names -/

namespace Scope

variable {i i' : Symbol}

theorem resolve_moved (moved : i.Moved S i') : SameCheck S (s.resolve i) (s.resolve i') := by
  unfold resolve
  rw [moved.name]
  cases s.find? i'.name with
  | some entity => exact .ok
  | none => exact .error ⟨_, moved.name.symm, moved.start⟩

theorem resolveVariable_moved (moved : i.Moved S i') :
    SameCheck S (s.resolveVariable i) (s.resolveVariable i') := by
  have found := resolve_moved (s := s) moved
  unfold resolveVariable
  rw [moved.name]
  generalize s.resolve i = r, s.resolve i' = r' at found ⊢
  cases found with
  | @ok entity =>
    cases entity with
    | var v => exact .ok
    | func f => exact .error ⟨_, moved.name.symm, moved.start⟩
  | error same => exact .error same

theorem resolveFunction_moved (moved : i.Moved S i') :
    SameCheck S (s.resolveFunction i) (s.resolveFunction i') := by
  have found := resolve_moved (s := s) moved
  unfold resolveFunction
  rw [moved.name]
  generalize s.resolve i = r, s.resolve i' = r' at found ⊢
  cases found with
  | @ok entity =>
    cases entity with
    | var v => exact .error ⟨_, moved.name.symm, moved.start⟩
    | func f => exact .ok
  | error same => exact .error same

theorem declare_moved (moved : i.Moved S i') (entity : Entity) :
    SameCheck S (s.declare i entity) (s.declare i' entity) := by
  unfold declare
  rw [moved.name]
  cases s.locals.find? i'.name with
  | some _ => exact .error ⟨_, moved.name.symm, moved.start⟩
  | none => exact .ok

theorem newVariable_moved (moved : i.Moved S i') (readOnly : Bool) :
    s.newVariable i readOnly = s.newVariable i' readOnly := by
  rw [newVariable, newVariable, moved.name]

theorem newFunction_moved (moved : i.Moved S i') (arity : Nat) (userDefined : Bool) :
    s.newFunction i arity userDefined = s.newFunction i' arity userDefined := by
  rw [newFunction, newFunction, moved.name]

theorem declareParameters_moved {is is' : List Symbol}
    (moved : List.Forall₂ (Symbol.Moved S) is is') :
    SameCheck S (s.declareParameters is) (s.declareParameters is') := by
  induction moved generalizing s with
  | nil => exact .ok
  | @cons i i' is is' first _ ih =>
    -- A new variable has the name of its symbol but not its position, so it is the same.
    have declared := declare_moved (s := s) first (.var (s.newVariable i' true))
    simp only [declareParameters, newVariable_moved first]
    generalize s.declare i _ = r, s.declare i' _ = r' at declared ⊢
    cases declared with
    | error same => exact .error same
    | @ok s' =>
      have others := ih (s := s')
      simp only
      generalize s'.declareParameters is = r, s'.declareParameters is' = r' at others ⊢
      cases others with
      | error same => exact .error same
      | ok => exact .ok

end Scope

namespace Resolved

/-! ## Expressions -/

theorem mapError_moved {α β : Type} {x x' : Except Diagnostic α} {f : α → β}
    (h : SameCheck S x x') :
    SameResult S Eq ((x.map f).mapError Stop.fault) ((x'.map f).mapError Stop.fault) := by
  cases h with
  | ok => exact .ok rfl
  | error same => exact .fault same

mutual

/-- Expressions that differ in their places only are resolved as the same. -/
theorem exprOfTree_moved : {e e' : Tree.Expr} → e.Moved S e' → e.Known →
    SameResult S Eq (Expr.ofTree s e) (Expr.ofTree s e')
  | _, _, .number, _ | _, _, .boolean, _ => .ok rfl
  | _, _, .symbol name, _ => by
    simp only [Expr.ofTree]
    exact mapError_moved (Scope.resolveVariable_moved name)
  | _, _, .binary left operator right, ⟨known, known', known''⟩ => by
    have kind := congrArg Word.kind operator
    -- The operator is known by its kind, which has not moved.
    obtain ⟨o, listed⟩ := Option.isSome_iff_exists.mp known
    have listed' := listed
    rw [← Token.kind_word, kind, Token.kind_word] at listed'
    simp only [Expr.ofTree, listed, listed']
    refine (exprOfTree_moved left known').bind ?_
    rintro a _ rfl
    refine (exprOfTree_moved right known'').bind ?_
    rintro b _ rfl
    exact .ok rfl
  | _, _, .unary operator operand, ⟨known, known'⟩ => by
    have kind := congrArg Word.kind operator
    obtain ⟨o, listed⟩ := Option.isSome_iff_exists.mp known
    have listed' := listed
    rw [← Token.kind_word, kind, Token.kind_word] at listed'
    simp only [Expr.ofTree, listed, listed']
    refine (exprOfTree_moved operand known').bind ?_
    rintro a _ rfl
    exact .ok rfl
  | _, _, .conditional test consequent alternate, ⟨known, known', known''⟩ => by
    simp only [Expr.ofTree]
    refine (exprOfTree_moved test known).bind ?_
    rintro t _ rfl
    refine (exprOfTree_moved consequent known').bind ?_
    rintro a _ rfl
    refine (exprOfTree_moved alternate known'').bind ?_
    rintro b _ rfl
    exact .ok rfl
  | _, _, @Tree.Expr.Moved.call _ f f' _ _ _ _ callee arguments, known => by
    have found := Scope.resolveFunction_moved (s := s) callee
    -- The numbers of arguments are the same, so both calls fit or neither does.
    simp only [Expr.ofTree, ← arguments.length_eq]
    generalize s.resolveFunction f = r, s.resolveFunction f' = r' at found ⊢
    cases found with
    | error same => exact .fault same
    | @ok g =>
      simp only
      split
      · refine (exprsOfTrees_moved arguments known).bind ?_
        rintro es _ rfl
        exact .ok rfl
      · -- The call is at fault where its callee starts, whatever the numbers are.
        exact .fault ⟨_, trivial, callee.start⟩

theorem exprsOfTrees_moved : {es es' : List Tree.Expr} → Tree.Expr.MovedAll S es es' →
    Tree.Expr.KnownAll es → SameResult S Eq (Expr.ofTrees s es) (Expr.ofTrees s es')
  | _, _, .nil, _ => .ok rfl
  | _, _, .cons first others, ⟨known, known'⟩ => by
    simp only [Expr.ofTrees]
    refine (exprOfTree_moved first known).bind ?_
    rintro e _ rfl
    refine (exprsOfTrees_moved others known').bind ?_
    rintro es _ rfl
    exact .ok rfl

end

/-! ## Statements -/

/-- The same statement and scope, or the same fault at related positions. -/
structure SameOutcome {α : Type} (S : String → Position → Position → Prop)
    (r r' : Outcome α) : Prop where
  result : SameResult S Eq r.1 r'.1
  scope : r.2 = r'.2

theorem declarationOfTree_moved {i i' : Symbol} {e e' : Tree.Expr} (identifier : i.Moved S i')
    (value : e.Moved S e') (known : e.Known) :
    SameOutcome S (declarationOfTree s i e) (declarationOfTree s i' e') := by
  -- Both of the steps see the same names, and each can only fail where its symbol starts.
  have resolved := exprOfTree_moved (s := s) value known
  have declared := Scope.declare_moved (s := s) identifier (.var (s.newVariable i' false))
  simp only [declarationOfTree, Scope.newVariable_moved identifier]
  generalize Expr.ofTree s e = r, Expr.ofTree s e' = r' at resolved ⊢
  cases resolved with
  | fault same => exact ⟨.fault same, rfl⟩
  | ok same =>
    obtain rfl := same
    simp only
    generalize s.declare i _ = r, s.declare i' _ = r' at declared ⊢
    cases declared with
    | error same => exact ⟨.fault same, rfl⟩
    | ok => exact ⟨.ok rfl, rfl⟩

theorem functionOfTree_moved {i i' : Symbol} {is is' : List Symbol} {e e' : Tree.Expr}
    (identifier : i.Moved S i') (parameters : List.Forall₂ (Symbol.Moved S) is is')
    (body : e.Moved S e') (known : e.Known) :
    SameOutcome S (functionOfTree s i is e) (functionOfTree s i' is' e') := by
  have declared := Scope.declare_moved (s := s) identifier
    (.func (s.newFunction i' is'.length true))
  simp only [functionOfTree, Scope.newFunction_moved identifier, parameters.length_eq]
  generalize s.declare i _ = r, s.declare i' _ = r' at declared ⊢
  cases declared with
  | error same => exact ⟨.fault same, rfl⟩
  -- The scopes behind the declaration are equal, not only alike, so the proof goes on in one.
  | @ok outside =>
    have names := Scope.declareParameters_moved (s := outside.push) parameters
    simp only
    generalize outside.push.declareParameters is = r, outside.push.declareParameters is' = r'
      at names ⊢
    cases names with
    | error same => exact ⟨.fault same, rfl⟩
    | @ok inside =>
      obtain ⟨vs, inner⟩ := inside
      have resolved := exprOfTree_moved (s := inner) body known
      simp only
      generalize Expr.ofTree inner e = r, Expr.ofTree inner e' = r' at resolved ⊢
      cases resolved with
      | fault same => exact ⟨.fault same, rfl⟩
      | ok same =>
        obtain rfl := same
        exact ⟨.ok rfl, rfl⟩

theorem assignmentOfTree_moved {i i' : Symbol} {e e' : Tree.Expr} (target : i.Moved S i')
    (value : e.Moved S e') (known : e.Known) :
    SameResult S Eq (assignmentOfTree s i e) (assignmentOfTree s i' e') := by
  have found := Scope.resolveVariable_moved (s := s) target
  unfold assignmentOfTree
  generalize s.resolveVariable i = r, s.resolveVariable i' = r' at found ⊢
  cases found with
  | error same => exact .fault same
  | @ok v =>
    simp only
    -- Whether the target is read-only is asked of one and the same variable.
    rw [target.name]
    by_cases fixed : v.readOnly = true
    · rw [if_pos fixed, if_pos fixed]
      exact .fault ⟨_, target.name.symm, target.start⟩
    · rw [if_neg fixed, if_neg fixed]
      exact (exprOfTree_moved value known).map_eq

/-- The same statements and scope, and the same reason to stop at related positions, if there is
one. -/
inductive SameRun (S : String → Position → Position → Prop) :
    (List Stmt × Option Stop) × Scope → (List Stmt × Option Stop) × Scope → Prop where
  | whole {ss : List Stmt} {s : Scope} : SameRun S ((ss, none), s) ((ss, none), s)
  | stopped {ss : List Stmt} {s : Scope} {f : Fault} {p p' : Position} (h : SameFault S f p p') :
      SameRun S ((ss, some (.fault ⟨f, p⟩)), s) ((ss, some (.fault ⟨f, p'⟩)), s)

mutual

/-- Statements that differ in their places only are resolved as the same. -/
theorem stmtOfTree_moved {s : Scope} : {x x' : Tree.Stmt} → x.Moved S x' → x.Known →
    SameOutcome S (Stmt.ofTree s x) (Stmt.ofTree s x')
  | _, _, .declaration identifier value, known => declarationOfTree_moved identifier value known
  | _, _, .function identifier parameters body, known =>
    functionOfTree_moved identifier parameters body known
  | _, _, .assignment target value, known => ⟨assignmentOfTree_moved target value known, rfl⟩
  | _, _, .print argument, known => ⟨(exprOfTree_moved argument known).map_eq, rfl⟩
  | _, _, @Tree.Stmt.Moved.loop _ t t' ss ss' _ _ _ _ test body, ⟨known, known'⟩ => by
    have resolved := exprOfTree_moved (s := s) test known
    have statements := stmtsOfTrees_moved (s := s) body known'
    -- The scope behind is the one of the body, whether the body fails or not.
    simp only [Stmt.ofTree]
    generalize Expr.ofTree s t = r, Expr.ofTree s t' = r' at resolved ⊢
    cases resolved with
    | fault same => exact ⟨.fault same, rfl⟩
    | ok same =>
      obtain rfl := same
      simp only
      generalize Stmt.ofTrees s ss = r, Stmt.ofTrees s ss' = r' at statements ⊢
      cases statements with
      | whole => exact ⟨.ok rfl, rfl⟩
      | stopped same => exact ⟨.fault same, rfl⟩

theorem stmtsOfTrees_moved {s : Scope} : {xs xs' : List Tree.Stmt} → Tree.Stmt.MovedAll S xs xs' →
    Tree.Stmt.KnownAll xs → SameRun S (Stmt.ofTrees s xs) (Stmt.ofTrees s xs')
  | _, _, .nil, _ => .whole
  | _, _, @Tree.Stmt.MovedAll.cons _ x x' xs xs' first others, ⟨known, known'⟩ => by
    obtain ⟨result, scope⟩ := stmtOfTree_moved (s := s) first known
    have rest := stmtsOfTrees_moved (s := (Stmt.ofTree s x).2) others known'
    simp only [Stmt.ofTrees]
    generalize Stmt.ofTree s x = r, Stmt.ofTree s x' = r' at result scope rest ⊢
    obtain ⟨r, s₁⟩ := r
    obtain ⟨r', s₂⟩ := r'
    -- What follows is resolved in the same scope, also behind a statement that is not resolved.
    obtain rfl : s₁ = s₂ := scope
    simp only at result rest
    cases result with
    | fault same => exact .stopped same
    | ok same =>
      obtain rfl := same
      simp only
      generalize Stmt.ofTrees s₁ xs = q, Stmt.ofTrees s₁ xs' = q' at rest ⊢
      cases rest with
      | whole => exact .whole
      | stopped same => exact .stopped same

end

/-- Programs that differ in their places only are resolved as the same. -/
theorem ofBlock_moved {b b' : Tree.Block} (moved : Tree.Stmt.MovedAll S b.body b'.body)
    (known : Tree.Stmt.KnownAll b.body) :
    SameResult S Eq (Program.ofBlock b) (Program.ofBlock b') := by
  have run := stmtsOfTrees_moved (s := Scope.root) moved known
  unfold Program.ofBlock
  generalize Stmt.ofTrees Scope.root b.body = r, Stmt.ofTrees Scope.root b'.body = r' at run ⊢
  cases run with
  | whole => exact .ok rfl
  | stopped same => exact .fault same

end Resolved

end Frontend
