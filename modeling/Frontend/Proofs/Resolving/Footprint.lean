import Frontend.Proofs.Resolving.Judgement
import Frontend.Proofs.Stages

/-!
# The footprint of a statement

A statement may be resolved in any scope, and the scope behind it is used whether or not this
succeeds.  All that a statement does to a scope is to declare names in the innermost frame.

* **`declarationOfTree_of_error`**: a `let` that fails declares nothing.
* **`functionOfTree_of_error`**: a function that fails behind its name declares itself, but none
  of its parameters.
* **`ofTree_adds_names`**: which names there are behind a statement, and what they stand for.
-/

namespace Frontend.Resolved

variable {s s' : Scope} {stop : Stop}

theorem declarationOfTree_of_error {symbol : Symbol} {value : Tree.Expr}
    (h : declarationOfTree s symbol value = (.error stop, s')) : s' = s := by
  unfold declarationOfTree at h
  split at h
  · exact (Prod.mk.inj h).2.symm
  · dsimp only at h
    split at h
    · exact (Prod.mk.inj h).2.symm
    · cases h

theorem functionOfTree_of_error {symbol : Symbol} {parameters : List Symbol} {body : Tree.Expr}
    (free : s.locals.find? symbol.name = none)
    (h : functionOfTree s symbol parameters body = (.error stop, s')) :
    s.declare symbol (.func (s.newFunction symbol parameters.length true)) = .ok s' := by
  unfold functionOfTree at h
  dsimp only at h
  split at h
  · -- A free name can be declared.
    rename_i taken
    simp only [Scope.declare, free] at taken
    cases taken
  -- Once the function is declared, every failure leaves the scope that has it.
  · rename_i declared
    rw [declared]
    split at h
    · rw [(Prod.mk.inj h).2]
    · split at h
      · rw [(Prod.mk.inj h).2]
      · cases h

/-- **Resolving a statement adds names to the innermost frame and does nothing else.**  The frames
around it are the same, and so is what the frame had before.  If the statement can be resolved,
the new names are those that it declares, in the order of the text, and they stand for the entities
of the resolved statement.  Otherwise they are those that are declared in front of the first check
that is violated.  All statements that can be read have only operators of the language, and this
is all that is needed of them. -/
theorem ofTree_adds_names {tree : Tree.Stmt} {result : Except Stop Stmt} (known : tree.Known)
    (h : Stmt.ofTree s tree = (result, s')) :
    ∃ made : List Entity, s.Extends made s' ∧
      (∀ name u, s'.locals.find? name = some u ↔
        s.locals.find? name = some u ∨ u ∈ made ∧ u.name = name) ∧
      (∀ statement, result = .ok statement →
        made = statement.entities ∧ made.map Entity.declared = tree.declares) ∧
      (∀ stop, result = .error stop → ∃ c d, FirstViolated s (tree.checks []) c d ∧
        stop = .fault d ∧ made.map Entity.declared = c.site.earlier) ∧
      (∀ symbol value span stop, tree = .declaration symbol value span → result = .error stop →
        s' = s) ∧
      ∀ symbol parameters body span stop, tree = .function symbol parameters body span →
        result = .error stop → s.locals.find? symbol.name = none →
          s.declare symbol (.func (s.newFunction symbol parameters.length true)) = .ok s' := by
  have settled := settled_stmtOfTree (.refl s) tree known
  have failingLet : ∀ symbol value span stop, tree = .declaration symbol value span →
      result = .error stop → s' = s := by
    rintro symbol value span stop rfl rfl
    exact declarationOfTree_of_error h
  have failingFunction : ∀ symbol parameters body span stop,
      tree = .function symbol parameters body span → result = .error stop →
        s.locals.find? symbol.name = none →
          s.declare symbol (.func (s.newFunction symbol parameters.length true)) = .ok s' := by
    rintro symbol parameters body span stop rfl rfl free
    exact functionOfTree_of_error free h
  rw [h] at settled
  -- Nothing was made before the statement, so what was made is what it made.
  cases settled with
  | @resolved statement _ passes grown declared =>
    rw [List.nil_append] at grown
    refine ⟨statement.entities, grown, fun _ _ => grown.find?_locals_iff, ?_, ?_, failingLet,
      failingFunction⟩
    · rintro _ ⟨⟩
      exact ⟨rfl, declared⟩
    · rintro _ ⟨⟩
  | @stopped c d made _ first grown earlier =>
    refine ⟨made, grown, fun _ _ => grown.find?_locals_iff, ?_, ?_, failingLet, failingFunction⟩
    · rintro _ ⟨⟩
    · rintro _ ⟨⟩
      exact ⟨c, d, first, rfl, earlier⟩

/-- A loop in a loop, with a function whose body has an unknown name. -/
def brokenFunction : String :=
  "while n < 3 \x7b let a = 1; while a < n \x7b let b = a; function f(x) = x + z; \x7d \x7d"

/-- The scope of a function with a parameter, in a program with one variable. -/
def parameterScope : Scope :=
  ⟨[("n", .var ⟨9, "n", true⟩)], [("a", .var ⟨7, "a", false⟩) :: Scope.root.locals], 10⟩

/-- Two variables and the function are left behind in the frame of the parameter. -/
theorem brokenFunction_adds_names : ∃ block tree s', parsed brokenFunction = .ok block ∧
    block.body = [tree] ∧ tree.Known ∧ Stmt.ofTree parameterScope tree =
      (.error (.fault ⟨.undeclared "z", ⟨70, 1, 71⟩⟩), s') ∧
    ∃ made, parameterScope.Extends made s' ∧ made.map Entity.name = ["a", "b", "f"] ∧
      ∃ c, FirstViolated parameterScope (tree.checks []) c ⟨.undeclared "z", ⟨70, 1, 71⟩⟩ ∧
        made.map Entity.declared = c.site.earlier := by
  -- The outcome and the names in scope, by evaluation of the source.
  have evaluated : (parsed brokenFunction).toOption.map (fun block => block.body.map fun tree =>
      ((Stmt.ofTree parameterScope tree).1.map fun _ => (),
        (Stmt.ofTree parameterScope tree).2.locals.map Prod.fst)) =
      some [(.error (.fault ⟨.undeclared "z", ⟨70, 1, 71⟩⟩), ["f", "b", "a", "n"])] := by
    decide +kernel
  obtain ⟨block, accepted, single⟩ := Option.map_eq_some_iff.mp evaluated
  obtain ⟨tree, body, outcome⟩ := List.map_eq_singleton_iff.mp single
  have read := eq_ok_of_toOption accepted
  obtain ⟨ts, -, whole⟩ := exists_ofTokens_eq read
  have known := known_ofTokens whole
  rw [body] at known
  obtain ⟨known, -⟩ := known
  rcases resolved : Stmt.ofTree parameterScope tree with ⟨stop | statement, s'⟩
  · rw [resolved] at outcome
    obtain ⟨failed, names⟩ := Prod.mk.inj outcome
    obtain rfl := Except.error.inj failed
    obtain ⟨made, grown, -, -, stopped, -⟩ := ofTree_adds_names known resolved
    obtain ⟨c, d, first, same, earlier⟩ := stopped _ rfl
    obtain rfl := Stop.fault.inj same
    refine ⟨block, tree, s', read, body, known, resolved, made, grown, ?_, c, first, earlier⟩
    -- The names in scope are those made, latest first, in front of the one that was there.
    rw [grown.locals, List.map_append, List.map_reverse, List.map_map] at names
    have latest : (made.map Entity.name).reverse ++ ["n"] = ["f", "b", "a"] ++ ["n"] := names
    exact List.reverse_eq_iff.mp (List.append_cancel_right latest)
  · rw [resolved] at outcome
    cases outcome

end Frontend.Resolved
