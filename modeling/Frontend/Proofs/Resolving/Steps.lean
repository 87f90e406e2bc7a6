import Frontend.Proofs.Resolving.Scope
import Frontend.Proofs.Stages

/-!
# When resolving succeeds

What the resolved form of a tree is made of, one lemma for each form of expression and each
form of statement.  Inductions over trees take resolving apart by these lemmas alone.
-/

namespace Frontend.Resolved

variable {s s' s'' : Scope}

/-! ## Expressions -/

section Expressions

variable {e : Expr}

theorem exprOfTree_symbol_eq_ok {symbol : Symbol} : Expr.ofTree s (.symbol symbol) = .ok e ↔
    ∃ v, s.resolveVariable symbol = .ok v ∧ .var v = e := by
  simp only [Expr.ofTree]
  -- The name is resolved or not; if it is, there is one variable that it can be.
  cases s.resolveVariable symbol with
  | error d =>
    constructor
    · intro h
      cases h
    · rintro ⟨v, h, -⟩
      cases h
  | ok v =>
    constructor
    · intro h
      exact ⟨v, rfl, Except.ok.inj h⟩
    · rintro ⟨w, h, rfl⟩
      cases h
      rfl

theorem exprOfTree_binary_eq_ok {left right : Tree.Expr} {operator : Token} {span : Span} :
    Expr.ofTree s (.binary left operator right span) = .ok e ↔
      ∃ o l r, BinaryOperator.ofKind? operator.kind = some o ∧ Expr.ofTree s left = .ok l ∧
        Expr.ofTree s right = .ok r ∧ .binary o l r = e := by
  simp only [Expr.ofTree]
  -- Without an operator there is nothing to be resolved, and no tree either.
  cases BinaryOperator.ofKind? operator.kind with
  | none =>
    constructor
    · intro h
      cases h
    · rintro ⟨o, l, r, h, -⟩
      cases h
  | some o =>
    simp only [bind_eq_ok]
    constructor
    · rintro ⟨l, hl, r, hr, h⟩
      exact ⟨o, l, r, rfl, hl, hr, Except.ok.inj h⟩
    · rintro ⟨o', l, r, h, hl, hr, rfl⟩
      cases h
      exact ⟨l, hl, r, hr, rfl⟩

theorem exprOfTree_unary_eq_ok {operand : Tree.Expr} {operator : Token} {span : Span} :
    Expr.ofTree s (.unary operator operand span) = .ok e ↔
      ∃ o x, UnaryOperator.ofKind? operator.kind = some o ∧ Expr.ofTree s operand = .ok x ∧
        .unary o x = e := by
  simp only [Expr.ofTree]
  cases UnaryOperator.ofKind? operator.kind with
  -- As for two operands: the operator first, then what it stands before.
  | none =>
    constructor
    · intro h
      cases h
    · rintro ⟨o, x, h, -⟩
      cases h
  | some o =>
    simp only [bind_eq_ok]
    constructor
    · rintro ⟨x, hx, h⟩
      exact ⟨o, x, rfl, hx, Except.ok.inj h⟩
    · rintro ⟨o', x, h, hx, rfl⟩
      cases h
      exact ⟨x, hx, rfl⟩

theorem exprOfTree_conditional_eq_ok {test consequent alternate : Tree.Expr} {span : Span} :
    Expr.ofTree s (.conditional test consequent alternate span) = .ok e ↔
      ∃ t c a, Expr.ofTree s test = .ok t ∧ Expr.ofTree s consequent = .ok c ∧
        Expr.ofTree s alternate = .ok a ∧ .conditional t c a = e := by
  simp only [Expr.ofTree, bind_eq_ok]
  constructor
  · rintro ⟨t, ht, c, hc, a, ha, h⟩
    exact ⟨t, c, a, ht, hc, ha, Except.ok.inj h⟩
  · rintro ⟨t, c, a, ht, hc, ha, rfl⟩
    exact ⟨t, ht, c, hc, a, ha, rfl⟩

theorem exprOfTree_call_eq_ok {callee : Symbol} {arguments : List Tree.Expr} {span : Span} :
    Expr.ofTree s (.call callee arguments span) = .ok e ↔
      ∃ f es, s.resolveFunction callee = .ok f ∧ arguments.length = f.arity ∧
        Expr.ofTrees s arguments = .ok es ∧ .call f es = e := by
  simp only [Expr.ofTree]
  cases s.resolveFunction callee with
  | error d =>
    constructor
    · intro h
      cases h
    · rintro ⟨f, es, h, -⟩
      cases h
  | ok f =>
    simp only
    -- The number of arguments is looked at before the arguments are.
    by_cases fits : arguments.length = f.arity
    · rw [if_pos fits, bind_eq_ok]
      constructor
      · rintro ⟨es, hes, h⟩
        exact ⟨f, es, rfl, fits, hes, Except.ok.inj h⟩
      · rintro ⟨g, es, h, -, hes, rfl⟩
        cases h
        exact ⟨es, hes, rfl⟩
    · rw [if_neg fits]
      constructor
      · intro h
        cases h
      · rintro ⟨g, es, h, fits', -⟩
        cases h
        exact absurd fits' fits

theorem exprsOfTrees_cons_eq_ok {tree : Tree.Expr} {trees : List Tree.Expr} {es : List Expr} :
    Expr.ofTrees s (tree :: trees) = .ok es ↔
      ∃ e rest, Expr.ofTree s tree = .ok e ∧ Expr.ofTrees s trees = .ok rest ∧ e :: rest = es := by
  simp only [Expr.ofTrees, bind_eq_ok]
  constructor
  · rintro ⟨e, he, rest, hrest, h⟩
    exact ⟨e, rest, he, hrest, Except.ok.inj h⟩
  · rintro ⟨e, rest, he, hrest, rfl⟩
    exact ⟨e, he, rest, hrest, rfl⟩

end Expressions

/-! ## Statements -/

section Statements

variable {statement : Stmt}

theorem declarationOfTree_eq_ok {symbol : Symbol} {value : Tree.Expr} :
    declarationOfTree s symbol value = (.ok statement, s') ↔
      ∃ e, Expr.ofTree s value = .ok e ∧
        s.declare symbol (.var (s.newVariable symbol false)) = .ok s' ∧
          .declaration (s.newVariable symbol false) e = statement := by
  constructor
  · intro h
    -- Resolved in the order of the definition: the initializer, then the name.
    unfold declarationOfTree at h
    split at h
    · cases h
    · rename_i e resolved
      simp only at h
      split at h
      · cases h
      · rename_i declared
        cases h
        exact ⟨e, resolved, declared, rfl⟩
  · rintro ⟨e, resolved, declared, rfl⟩
    simp only [declarationOfTree, resolved, declared]

theorem functionOfTree_eq_ok {symbol : Symbol} {parameters : List Symbol} {body : Tree.Expr} :
    functionOfTree s symbol parameters body = (.ok statement, s') ↔
      ∃ around vs inner e,
        s.declare symbol (.func (s.newFunction symbol parameters.length true)) = .ok around ∧
          around.push.declareParameters parameters = .ok (vs, inner) ∧
            Expr.ofTree inner body = .ok e ∧
              .function (s.newFunction symbol parameters.length true) vs e = statement ∧
                { around with next := inner.next } = s' := by
  constructor
  · intro h
    -- The function, its parameters in a frame of their own, and the body inside.
    unfold functionOfTree at h
    simp only at h
    split at h
    · cases h
    · rename_i around declared
      split at h
      · cases h
      · rename_i vs inner received
        split at h
        · cases h
        · rename_i e resolved
          cases h
          exact ⟨around, vs, inner, e, declared, received, resolved, rfl, rfl⟩
  · rintro ⟨around, vs, inner, e, declared, received, resolved, rfl, rfl⟩
    simp only [functionOfTree, declared, received, resolved]

theorem assignmentOfTree_eq_ok {symbol : Symbol} {value : Tree.Expr} :
    assignmentOfTree s symbol value = .ok statement ↔
      ∃ target source, s.resolveVariable symbol = .ok target ∧ target.readOnly = false ∧
        Expr.ofTree s value = .ok source ∧ .assignment target source = statement := by
  constructor
  · intro h
    unfold assignmentOfTree at h
    split at h
    · cases h
    · rename_i target found
      -- The target must be found and writable before its value is resolved.
      split at h
      · cases h
      · rename_i writable
        cases resolved : Expr.ofTree s value with
        | error stop =>
          rw [resolved] at h
          cases h
        | ok source =>
          rw [resolved] at h
          exact ⟨target, source, found, by simpa using writable, rfl, Except.ok.inj h⟩
  · rintro ⟨target, source, found, writable, resolved, rfl⟩
    simp only [assignmentOfTree, found, writable, resolved]
    rfl

theorem stmtOfTree_assignment_eq_ok {symbol : Symbol} {value : Tree.Expr} {span : Span} :
    Stmt.ofTree s (.assignment symbol value span) = (.ok statement, s') ↔
      assignmentOfTree s symbol value = .ok statement ∧ s = s' := by
  rw [Stmt.ofTree, Prod.mk.injEq]

theorem stmtOfTree_print_eq_ok {argument : Tree.Expr} {span : Span} :
    Stmt.ofTree s (.print argument span) = (.ok statement, s') ↔
      ∃ e, Expr.ofTree s argument = .ok e ∧ .print e = statement ∧ s = s' := by
  -- The scope is handed on as it is, whatever the argument is.
  simp only [Stmt.ofTree, Prod.mk.injEq]
  cases Expr.ofTree s argument with
  | error stop =>
    constructor
    · rintro ⟨h, -⟩
      cases h
    · rintro ⟨e, h, -⟩
      cases h
  | ok e =>
    constructor
    · rintro ⟨h, same⟩
      exact ⟨e, rfl, Except.ok.inj h, same⟩
    · rintro ⟨e', h, rfl, same⟩
      cases h
      exact ⟨rfl, same⟩

theorem stmtOfTree_loop_eq_ok {test : Tree.Expr} {body : List Tree.Stmt} {braces span : Span} :
    Stmt.ofTree s (.loop test body braces span) = (.ok statement, s') ↔
      ∃ e ss, Expr.ofTree s test = .ok e ∧ Stmt.ofTrees s body = ((ss, none), s') ∧
        .loop e ss = statement := by
  constructor
  · intro h
    -- A loop ends with the scope of its body, provided that all statements are resolved.
    simp only [Stmt.ofTree] at h
    split at h
    · cases h
    · rename_i e resolved
      split at h
      · rename_i ss t inside
        cases h
        exact ⟨e, ss, resolved, inside, rfl⟩
      · cases h
  · rintro ⟨e, ss, resolved, inside, rfl⟩
    simp only [Stmt.ofTree, resolved, inside]

theorem stmtsOfTrees_cons_eq_ok {tree : Tree.Stmt} {trees : List Tree.Stmt} {ss : List Stmt} :
    Stmt.ofTrees s (tree :: trees) = ((ss, none), s'') ↔
      ∃ first s' rest, Stmt.ofTree s tree = (.ok first, s') ∧
        Stmt.ofTrees s' trees = ((rest, none), s'') ∧ first :: rest = ss := by
  constructor
  · intro h
    simp only [Stmt.ofTrees] at h
    split at h
    · cases h
    · rename_i first t resolved
      obtain ⟨results, rfl⟩ := Prod.mk.inj h
      obtain ⟨rfl, ended⟩ := Prod.mk.inj results
      exact ⟨first, t, _, resolved, Prod.ext (Prod.ext rfl ended) rfl, rfl⟩
  · rintro ⟨first, t, rest, resolved, others, rfl⟩
    simp only [Stmt.ofTrees, resolved, others]

end Statements

/-! ## Programs -/

theorem ofBlock_eq_ok {block : Tree.Block} {p : Program} : Program.ofBlock block = .ok p ↔
    ∃ s, Stmt.ofTrees Scope.root block.body = ((p, none), s) := by
  unfold Program.ofBlock
  constructor
  · intro h
    split at h
    · rename_i ss s resolved
      cases h
      exact ⟨s, resolved⟩
    · cases h
  · rintro ⟨s, resolved⟩
    rw [resolved]

end Frontend.Resolved
