import Frontend.Proofs.Grammar.Known
import Frontend.Proofs.Resolving.Extension
import Frontend.Proofs.Resolving.Occurrence
import Frontend.Proofs.Resolving.Steps

/-!
# What resolving a statement leaves behind

A statement may be resolved in any scope.  Its checks decide whether it can be, and what they say
depends on what the scope had before.  In the scope behind it there is one name more for
everything that was declared, up to the check that failed if one did.

* **`Check.violationIn?`**: the violation of a check of a statement that is resolved in `base`.
* **`FirstViolated`**: the first check of a list that is violated.
* **`Checked`**: a step and the checks that decide it.  Steps that follow each other have their
  checks one after the other (`Checked.bind`).
* **`Scope.Shows`**: a scope finds what a place of the statement sees.
* **`Settled`**: what comes of a statement, and the scope behind it.
* **`settled_stmtOfTree`**: this is what comes of every statement.
-/

namespace Frontend

/-! ## Checks in a scope -/

/-- What a name stands for at a place of a statement that is resolved in `base`. -/
def Site.bindingIn (base : Scope) (site : Site) (name : String) : Option Meaning :=
  if name ∈ site.parameters then some (.variable true)
  else ((site.earlier.find? fun d => d.name == name).map Declared.meaning).or
    ((base.find? name).map Entity.meaning)

/-- Whether the innermost frame has a name at a place outside of functions. -/
def Site.takenIn (base : Scope) (site : Site) (name : String) : Bool :=
  (site.earlier.find? fun d => d.name == name).isSome || (base.locals.find? name).isSome

/-- What is wrong if a name does not meet a demand. -/
def Demand.faultIn? (base : Scope) (site : Site) (name : String) : Demand → Option Fault
  | declared => if (site.bindingIn base name).isNone then some (.undeclared name) else none
  | isVariable =>
    match site.bindingIn base name with
    | some (.function _) => some (.wrongKind name .ofVariable .ofFunction)
    | _ => none
  | isFunction =>
    match site.bindingIn base name with
    | some (.variable _) => some (.wrongKind name .ofFunction .ofVariable)
    | _ => none
  | writable =>
    if site.bindingIn base name = some (.variable true) then some (.readOnly name) else none
  | arity received =>
    match site.bindingIn base name with
    | some (.function expected) =>
      if received = expected then none else some (.arity expected received)
    | _ => none
  | newName => if site.takenIn base name then some (.duplicate name) else none
  | newParameter => if name ∈ site.parameters then some (.duplicate name) else none

/-- The violation of a check, at the symbol. -/
def Check.violationIn? (base : Scope) (c : Check) : Option Diagnostic :=
  (c.demand.faultIn? base c.site c.symbol.name).map fun fault => ⟨fault, c.symbol.span.start⟩

/-- The first check that is violated is `c`, and the violation is `d`. -/
structure FirstViolated (base : Scope) (cs : List Check) (c : Check) (d : Diagnostic) : Prop where
  first : ∃ before after, cs = before ++ c :: after ∧ ∀ b ∈ before, b.violationIn? base = none
  violated : c.violationIn? base = some d

namespace FirstViolated

variable {base : Scope} {cs cs' : List Check} {c : Check} {d : Diagnostic}

theorem head (violated : c.violationIn? base = some d) : FirstViolated base (c :: cs) c d :=
  ⟨⟨[], cs, rfl, fun _ none => absurd none List.not_mem_nil⟩, violated⟩

/-- What comes after it is not looked at. -/
theorem append (h : FirstViolated base cs c d) : FirstViolated base (cs ++ cs') c d := by
  obtain ⟨⟨before, after, rfl, passes⟩, violated⟩ := h
  exact ⟨⟨before, after ++ cs', List.append_assoc .., passes⟩, violated⟩

theorem behind (passes : ∀ b ∈ cs, b.violationIn? base = none) (h : FirstViolated base cs' c d) :
    FirstViolated base (cs ++ cs') c d := by
  obtain ⟨⟨before, after, rfl, passes'⟩, violated⟩ := h
  refine ⟨⟨cs ++ before, after, (List.append_assoc ..).symm, ?_⟩, violated⟩
  exact List.forall_mem_append.mpr ⟨passes, passes'⟩

theorem mem (h : FirstViolated base cs c d) : c ∈ cs := by
  obtain ⟨⟨before, after, rfl, -⟩, -⟩ := h
  exact List.mem_append_right before List.mem_cons_self

end FirstViolated

/-! ## Scopes and places -/

namespace Scope

/-- A scope finds what a place of a statement sees that is resolved in `base`. -/
def Shows (base : Scope) (site : Site) (s : Scope) : Prop :=
  ∀ name, (s.find? name).map Entity.meaning = site.bindingIn base name

/-- The scope in a function, once some of its parameters are declared. -/
structure Inside (base : Scope) (parameters : List String) (earlier : List Declared) (s : Scope) :
    Prop where
  /-- The innermost frame has the parameters. -/
  locals (name : String) : (s.locals.find? name).isSome ↔ name ∈ parameters
  shows : Shows base ⟨parameters, earlier⟩ s

variable {base s s' : Scope} {made : List Entity} {earlier : List Declared} {symbol : Symbol}

/-- Between two statements, what was made is what was declared. -/
theorem Extends.shows (h : base.Extends made s) : Shows base ⟨[], made.map Entity.declared⟩ s := by
  intro name
  rw [h.find?_eq, Site.bindingIn, if_neg List.not_mem_nil, find?_declared]
  cases made.find? fun u => u.name == name <;> rfl

theorem Extends.takenIn_eq (h : base.Extends made s) (name : String) :
    Site.takenIn base ⟨[], made.map Entity.declared⟩ name = (s.locals.find? name).isSome := by
  rw [h.find?_locals, Site.takenIn, find?_declared]
  cases made.find? fun u => u.name == name <;> rfl

/-- A function sees what is around it. -/
theorem Shows.push (h : Shows base ⟨[], earlier⟩ s) : Inside base [] earlier s.push where
  locals name := iff_of_false Bool.false_ne_true List.not_mem_nil
  shows name := by
    rw [find?_push]
    exact h name

/-- A parameter hides what is around the function. -/
theorem Inside.declare {parameters : List String} {v : Variable} (readOnly : v.readOnly = true)
    (i : Inside base parameters earlier s) (h : s.declare symbol (.var v) = .ok s') :
    Inside base (parameters ++ [symbol.name]) earlier s' := by
  obtain ⟨-, locals, -, -⟩ := declare_eq_ok h
  constructor
  · intro name
    rw [locals, Frame.find?, List.lookup_cons, List.mem_append, List.mem_singleton, ← i.locals]
    -- Either the name asked for is the one declared, or declaring it has not changed the answer.
    by_cases same : name = symbol.name
    · simp [same]
    · have other : (name == symbol.name) = false := beq_eq_false_iff_ne.mpr same
      simp only [other, same, or_false, Frame.find?]
  · intro name
    rw [find?_declare h]
    by_cases same : name = symbol.name
    · simp [same, Site.bindingIn, Entity.meaning, readOnly]
    · have seen := i.shows name
      simp only [Site.bindingIn] at seen
      simp [same, Site.bindingIn, seen]

end Scope

namespace Resolved

open Scope (Shows Inside)

/-! ## Steps and their checks -/

/-- The checks decide about a step: it succeeds if none is violated, and otherwise fails with the
first violation. -/
inductive Checked {α : Type} (base : Scope) (cs : List Check) : Except Stop α → Prop where
  | passed {x : α} (passes : ∀ c ∈ cs, c.violationIn? base = none) : Checked base cs (.ok x)
  | failed {c : Check} {d : Diagnostic} (first : FirstViolated base cs c d) :
      Checked base cs (.error (.fault d))

namespace Checked

variable {α β : Type} {base : Scope} {cs cs' : List Check} {r : Except Stop α}

/-- What comes after a failure is not looked at. -/
theorem append_of_error {stop : Stop} (h : Checked base cs (.error stop : Except Stop β)) :
    Checked base (cs ++ cs') (.error stop : Except Stop α) := by
  cases h with
  | failed first => exact .failed first.append

/-- What comes after a success decides. -/
theorem append_of_ok {x : β} (h : Checked base cs (.ok x : Except Stop β))
    (h' : Checked base cs' r) : Checked base (cs ++ cs') r := by
  cases h with
  | passed passes =>
    cases h' with
    | passed passes' => exact .passed (List.forall_mem_append.mpr ⟨passes, passes'⟩)
    | failed first => exact .failed (first.behind passes)

theorem bind {f : α → Except Stop β} (first : Checked base cs r)
    (second : ∀ x, r = .ok x → Checked base cs' (f x)) : Checked base (cs ++ cs') (r >>= f) := by
  cases r with
  | error stop => exact first.append_of_error
  | ok x => exact first.append_of_ok (second x rfl)

theorem map {f : α → β} (h : Checked base cs r) : Checked base cs (r.map f) := by
  cases h with
  | passed passes => exact .passed passes
  | failed first => exact .failed first

/-- Putting a result together is not checked. -/
theorem bind_pure {f : α → β} (h : Checked base cs r) :
    Checked base cs (r >>= fun x => pure (f x)) := h.map

/-- The checks do not say what comes of a step. -/
theorem yields {x : α} {y : β} (h : Checked base cs (.ok x : Except Stop α)) :
    Checked base cs (.ok y : Except Stop β) := by
  cases h with
  | passed passes => exact .passed passes

theorem of_violation {c : Check} {d : Diagnostic} (violated : c.violationIn? base = some d) :
    Checked base (c :: cs) (.error (.fault d) : Except Stop α) := .failed (.head violated)

theorem of_passed {c : Check} (passes : c.violationIn? base = none) (h : Checked base cs r) :
    Checked base (c :: cs) r := by
  have first : Checked base [c] (.ok () : Except Stop Unit) :=
    .passed (List.forall_mem_singleton.mpr passes)
  exact first.append_of_ok h

end Checked

/-! ## Names -/

section Names

variable {base s : Scope} {site : Site}

theorem checked_resolve (shows : Shows base site s) (symbol : Symbol) :
    Checked base [⟨site, symbol, .declared⟩] ((s.resolve symbol).mapError Stop.fault) := by
  have seen := shows symbol.name
  unfold Scope.resolve
  cases found : s.find? symbol.name with
  | none =>
    rw [found] at seen
    exact .of_violation (by simp [Check.violationIn?, Demand.faultIn?, ← seen])
  | some entity =>
    rw [found] at seen
    exact .passed (by simp [Check.violationIn?, Demand.faultIn?, ← seen])

/-- What a symbol stands for is what its place sees. -/
theorem bindingIn_of_resolve {symbol : Symbol} {entity : Entity} (shows : Shows base site s)
    (found : s.resolve symbol = .ok entity) :
    site.bindingIn base symbol.name = some entity.meaning := by
  rw [← shows, Scope.resolve_eq_ok found]
  rfl

theorem checked_resolveVariable (shows : Shows base site s) (symbol : Symbol) :
    Checked base ([⟨site, symbol, .declared⟩] ++ [⟨site, symbol, .isVariable⟩])
      ((s.resolveVariable symbol).mapError Stop.fault) := by
  have declared := checked_resolve shows symbol
  unfold Scope.resolveVariable
  cases found : s.resolve symbol with
  | error d =>
    rw [found] at declared
    exact declared.append_of_error
  | ok entity =>
    rw [found] at declared
    have seen := bindingIn_of_resolve shows found
    refine declared.append_of_ok ?_
    -- A name that is bound satisfies the first demand, so the second one decides.
    cases entity with
    | var v =>
      exact .passed (by simp [Check.violationIn?, Demand.faultIn?, seen, Entity.meaning])
    | func f =>
      exact .of_violation (by simp [Check.violationIn?, Demand.faultIn?, seen, Entity.meaning])

theorem checked_resolveFunction (shows : Shows base site s) (symbol : Symbol) :
    Checked base ([⟨site, symbol, .declared⟩] ++ [⟨site, symbol, .isFunction⟩])
      ((s.resolveFunction symbol).mapError Stop.fault) := by
  have declared := checked_resolve shows symbol
  unfold Scope.resolveFunction
  cases found : s.resolve symbol with
  | error d =>
    rw [found] at declared
    exact declared.append_of_error
  | ok entity =>
    rw [found] at declared
    have seen := bindingIn_of_resolve shows found
    refine declared.append_of_ok ?_
    -- As for variables, with the two kinds of entity exchanged.
    cases entity with
    | var v =>
      exact .of_violation (by simp [Check.violationIn?, Demand.faultIn?, seen, Entity.meaning])
    | func f =>
      exact .passed (by simp [Check.violationIn?, Demand.faultIn?, seen, Entity.meaning])

end Names

/-! ## Expressions -/

section Expressions

variable {base s : Scope} {site : Site}

/-- A call is checked before its arguments. -/
theorem checked_call (shows : Shows base site s) (symbol : Symbol) {arguments : List Tree.Expr}
    (span : Span)
    (values : Checked base (Tree.Expr.checksAll site arguments) (Expr.ofTrees s arguments)) :
    Checked base ((Tree.Expr.call symbol arguments span).checks site)
      (Expr.ofTree s (.call symbol arguments span)) := by
  have step := checked_resolveFunction shows symbol
  simp only [Expr.ofTree, Tree.Expr.checks]
  cases found : s.resolveFunction symbol with
  | error d =>
    rw [found] at step
    exact step.append_of_error
  | ok callee =>
    rw [found] at step
    -- The number of arguments is compared to the arity that the site shows.
    have seen : site.bindingIn base symbol.name = some (.function callee.arity) := by
      rw [← shows, Scope.resolveFunction_eq_ok found]
      rfl
    refine step.append_of_ok ?_
    dsimp only
    split
    -- A call that fits is only as good as its arguments, which are checked last.
    · rename_i enough
      refine .of_passed (by simp [Check.violationIn?, Demand.faultIn?, seen, enough]) ?_
      exact values.bind_pure
    · rename_i differs
      exact .of_violation (by simp [Check.violationIn?, Demand.faultIn?, seen, differs])

mutual

/-- The checks of an expression decide about it, wherever the scope shows its place. -/
theorem checked_exprOfTree (shows : Shows base site s) :
    (tree : Tree.Expr) → tree.Known → Checked base (tree.checks site) (Expr.ofTree s tree)
  | .number .., _ | .boolean .., _ => .passed fun _ none => absurd none List.not_mem_nil
  | .symbol symbol, _ => by
    have same : ((s.resolveVariable symbol).map Expr.var).mapError Stop.fault =
        ((s.resolveVariable symbol).mapError Stop.fault).map Expr.var := by
      cases s.resolveVariable symbol <;> rfl
    rw [Expr.ofTree, same]
    exact (checked_resolveVariable shows symbol).map
  | .binary left operator right _, known => by
    -- The operator is one of the language, or resolving it would fail without any check.
    obtain ⟨isOperator, knownLeft, knownRight⟩ := known
    obtain ⟨op, hop⟩ := Option.isSome_iff_exists.mp isOperator
    simp only [Expr.ofTree, Tree.Expr.checks, hop]
    refine (checked_exprOfTree shows left knownLeft).bind fun l _ => ?_
    exact (checked_exprOfTree shows right knownRight).bind_pure
  | .unary operator operand _, known => by
    obtain ⟨isOperator, knownOperand⟩ := known
    obtain ⟨op, hop⟩ := Option.isSome_iff_exists.mp isOperator
    simp only [Expr.ofTree, Tree.Expr.checks, hop]
    exact (checked_exprOfTree shows operand knownOperand).bind_pure
  | .conditional test consequent alternate _, known => by
    obtain ⟨knownTest, knownConsequent, knownAlternate⟩ := known
    simp only [Expr.ofTree, Tree.Expr.checks]
    refine (checked_exprOfTree shows test knownTest).bind fun t _ => ?_
    refine (checked_exprOfTree shows consequent knownConsequent).bind fun c _ => ?_
    exact (checked_exprOfTree shows alternate knownAlternate).bind_pure
  | .call symbol arguments span, known =>
    checked_call shows symbol span (checked_exprsOfTrees shows arguments known)

/-- The checks of expressions decide about them. -/
theorem checked_exprsOfTrees (shows : Shows base site s) :
    (trees : List Tree.Expr) → Tree.Expr.KnownAll trees →
      Checked base (Tree.Expr.checksAll site trees) (Expr.ofTrees s trees)
  | [], _ => .passed fun _ none => absurd none List.not_mem_nil
  | tree :: trees, known => by
    simp only [Expr.ofTrees, Tree.Expr.checksAll]
    refine (checked_exprOfTree shows tree known.1).bind fun e _ => ?_
    exact (checked_exprsOfTrees shows trees known.2).bind_pure

end

end Expressions

/-! ## Declarations -/

section Declarations

variable {base s : Scope} {earlier : List Declared} {made : List Entity}

/-- A demand that forbids the names of the innermost frame decides about a declaration. -/
theorem checked_declareAs {site : Site} {demand : Demand} {symbol : Symbol} (entity : Entity)
    (forbids : demand.faultIn? base site symbol.name =
      if (s.locals.find? symbol.name).isSome then some (.duplicate symbol.name) else none) :
    Checked base [⟨site, symbol, demand⟩] ((s.declare symbol entity).mapError Stop.fault) := by
  unfold Scope.declare
  split
  · rename_i taken
    exact .of_violation (by simp [Check.violationIn?, forbids, taken])
  · rename_i absent
    exact .passed (by simp [Check.violationIn?, forbids, absent])

/-- A name can be declared outside of functions unless the frame has it. -/
theorem checked_declare (grown : base.Extends made s) (symbol : Symbol) (entity : Entity) :
    Checked base [⟨⟨[], made.map Entity.declared⟩, symbol, .newName⟩]
      ((s.declare symbol entity).mapError Stop.fault) :=
  checked_declareAs entity (by simp only [Demand.faultIn?, grown.takenIn_eq])

/-- A name can be that of a parameter unless it is that of an earlier one. -/
theorem checked_declareParameter {parameters : List String} (i : Inside base parameters earlier s)
    (symbol : Symbol) (entity : Entity) :
    Checked base [⟨⟨parameters, earlier⟩, symbol, .newParameter⟩]
      ((s.declare symbol entity).mapError Stop.fault) :=
  checked_declareAs entity (by simp only [Demand.faultIn?, i.locals])

theorem checked_declareParameters {parameters : List String} (symbols : List Symbol)
    (i : Inside base parameters earlier s) :
    Checked base (Tree.parameterChecks earlier parameters symbols)
        ((s.declareParameters symbols).mapError Stop.fault) ∧
      ∀ {vs s'}, s.declareParameters symbols = .ok (vs, s') →
        Inside base (parameters ++ symbols.map Symbol.name) earlier s' := by
  -- On the symbols, with the parameters received so far in front.
  induction symbols generalizing s parameters with
  | nil =>
    refine ⟨.passed fun _ none => absurd none List.not_mem_nil, ?_⟩
    rintro vs s' ⟨⟩
    rw [List.map_nil, List.append_nil]
    exact i
  | cons symbol symbols ih =>
    have step := checked_declareParameter i symbol (.var (s.newVariable symbol true))
    simp only [Scope.declareParameters]
    cases declared : s.declare symbol (.var (s.newVariable symbol true)) with
    | error d =>
      rw [declared] at step
      refine ⟨step.append_of_error, ?_⟩
      intro vs s' h
      cases h
    | ok s₁ =>
      rw [declared] at step
      -- A parameter that is declared is inside, and the others are checked against it too.
      obtain ⟨checked, inside⟩ := ih (i.declare rfl declared)
      dsimp only
      cases rest : s₁.declareParameters symbols with
      | error d =>
        rw [rest] at checked
        refine ⟨step.append_of_ok checked, ?_⟩
        intro vs s' h
        cases h
      | ok result =>
        rw [rest] at checked
        refine ⟨step.append_of_ok checked.yields, ?_⟩
        rintro vs s' ⟨⟩
        rw [List.map_cons, List.append_cons]
        exact inside rest

end Declarations

end Resolved

/-! ## The places of checks -/

namespace Tree

variable {site : Site} {c : Check}

mutual

/-- All checks of an expression are about its place. -/
theorem Expr.site_of_mem_checks : (e : Expr) → c ∈ e.checks site → c.site = site
  -- Every check of an expression is made at the site that the expression is judged at.
  | .number .., h | .boolean .., h => by cases h
  | .symbol s, h => by
    simp only [Expr.checks, List.mem_cons, List.not_mem_nil, or_false] at h
    rcases h with rfl | rfl <;> rfl
  | .binary left _ right _, h => by
    rcases List.mem_append.mp h with h | h
    · exact left.site_of_mem_checks h
    · exact right.site_of_mem_checks h
  | .unary _ operand _, h => operand.site_of_mem_checks h
  | .conditional test consequent alternate _, h => by
    rcases List.mem_append.mp h with h | h
    · exact test.site_of_mem_checks h
    · rcases List.mem_append.mp h with h | h
      · exact consequent.site_of_mem_checks h
      · exact alternate.site_of_mem_checks h
  | .call callee arguments _, h => by
    simp only [Expr.checks, List.cons_append, List.nil_append, List.mem_cons] at h
    rcases h with rfl | rfl | rfl | h
    · rfl
    · rfl
    · rfl
    · exact Expr.site_of_mem_checksAll arguments h

theorem Expr.site_of_mem_checksAll : (es : List Expr) → c ∈ Expr.checksAll site es →
    c.site = site
  | [], h => by cases h
  | e :: es, h => by
    rcases List.mem_append.mp h with h | h
    · exact e.site_of_mem_checks h
    · exact Expr.site_of_mem_checksAll es h

end

/-- The checks of parameters are about a place behind the same declarations. -/
theorem earlier_of_mem_parameterChecks {earlier : List Declared} {before : List String}
    {symbols : List Symbol} (h : c ∈ parameterChecks earlier before symbols) :
    c.site.earlier = earlier := by
  induction symbols generalizing before with
  | nil => cases h
  | cons s ss ih =>
    rcases List.mem_cons.mp h with rfl | h
    · rfl
    · exact ih h

end Tree

/-! ## Statements -/

namespace Resolved

/-- What comes of resolving a statement in a scope that `base` was extended to, with `made` so far.
Either no check fails, and then the entities of the statement were made as well, for what it
declares.  Or the first check fails that is violated, and then there are the entities for what is
declared in front of this check. -/
inductive Settled {α : Type} (base : Scope) (cs : List Check) (made : List Entity)
    (declares : List Declared) (entities : α → List Entity) : Outcome α → Prop where
  | resolved {x : α} {s : Scope} (passes : ∀ c ∈ cs, c.violationIn? base = none)
      (grown : base.Extends (made ++ entities x) s)
      (declared : (entities x).map Entity.declared = declares) :
      Settled base cs made declares entities (.ok x, s)
  | stopped {c : Check} {d : Diagnostic} {made' : List Entity} {s : Scope}
      (first : FirstViolated base cs c d) (grown : base.Extends made' s)
      (earlier : made'.map Entity.declared = c.site.earlier) :
      Settled base cs made declares entities (.error (.fault d), s)

/-- The entities that a statement makes, without the parameters of functions. -/
def Stmt.entities (statement : Stmt) : List Entity := statement.creations.map Creation.entity

/-- The entities that statements make. -/
def Stmt.entitiesAll (statements : List Stmt) : List Entity :=
  (Stmt.creationsAll statements).map Creation.entity

theorem Stmt.entitiesAll_cons (statement : Stmt) (statements : List Stmt) :
    Stmt.entitiesAll (statement :: statements) =
      statement.entities ++ Stmt.entitiesAll statements := List.map_append

namespace Settled

variable {α β : Type} {base s : Scope} {cs cs' : List Check} {made : List Entity}
  {declares : List Declared} {entities : α → List Entity} {stop : Stop}

/-- What fails leaves the scope as it was, if nothing is declared among its checks. -/
theorem of_error {made' : List Entity} (checked : Checked base cs (.error stop : Except Stop β))
    (grown : base.Extends made s) (sites : ∀ c ∈ cs, c.site.earlier = made.map Entity.declared) :
    Settled base cs made' declares entities (.error stop, s) := by
  cases checked with
  | failed first => exact .stopped first grown (sites _ first.mem).symm

/-- What comes after a failure is not looked at. -/
theorem append (h : Settled base cs made declares entities (.error stop, s)) :
    Settled base (cs ++ cs') made declares entities (.error stop, s) := by
  cases h with
  | stopped first grown earlier => exact .stopped first.append grown earlier

/-- Behind checks that all pass, the others decide. -/
theorem behind {x : β} {o : Outcome α} (first : Checked base cs (.ok x : Except Stop β))
    (h : Settled base cs' made declares entities o) :
    Settled base (cs ++ cs') made declares entities o := by
  cases first with
  | passed before =>
    cases h with
    | resolved passes grown declared =>
      exact .resolved (List.forall_mem_append.mpr ⟨before, passes⟩) grown declared
    | stopped first grown earlier => exact .stopped (first.behind before) grown earlier

/-- What declares nothing leaves the scope as it is. -/
theorem of_checked {r : Except Stop α} (checked : Checked base cs r) (grown : base.Extends made s)
    (sites : ∀ c ∈ cs, c.site.earlier = made.map Entity.declared)
    (none : ∀ x, r = .ok x → entities x = []) : Settled base cs made [] entities (r, s) := by
  cases checked with
  | @passed x passes =>
    have nothing := none x rfl
    refine .resolved passes ?_ ?_
    · rwa [nothing, List.append_nil]
    · rw [nothing]
      rfl
  | failed first => exact .stopped first grown (sites _ first.mem).symm

end Settled

section Statements

variable {base s : Scope} {made : List Entity}

theorem settled_declarationOfTree (grown : base.Extends made s) (symbol : Symbol)
    {value : Tree.Expr} (known : value.Known) (span : Span) :
    Settled base ((Tree.Stmt.declaration symbol value span).checks (made.map Entity.declared)) made
      (Tree.Stmt.declaration symbol value span).declares Stmt.entities
      (declarationOfTree s symbol value) := by
  have initializer := checked_exprOfTree grown.shows value known
  have name := checked_declare grown symbol (.var (s.newVariable symbol false))
  unfold declarationOfTree
  -- The initializer is checked first, and the name only if that goes well.
  cases resolved : Expr.ofTree s value with
  | error stop =>
    rw [resolved] at initializer
    refine (Settled.of_error initializer grown fun c member => ?_).append
    rw [Tree.Expr.site_of_mem_checks value member]
  | ok e =>
    rw [resolved] at initializer
    refine Settled.behind initializer ?_
    dsimp only
    cases declared : s.declare symbol (.var (s.newVariable symbol false)) with
    | error d =>
      rw [declared] at name
      exact .of_error name grown (List.forall_mem_singleton.mpr rfl)
    | ok s' =>
      rw [declared] at name
      cases name with
      | passed passes => exact .resolved passes (grown.declare rfl declared) rfl

theorem settled_functionOfTree (grown : base.Extends made s) (symbol : Symbol)
    (parameters : List Symbol) {body : Tree.Expr} (known : body.Known) (span : Span) :
    Settled base
      ((Tree.Stmt.function symbol parameters body span).checks (made.map Entity.declared)) made
      (Tree.Stmt.function symbol parameters body span).declares Stmt.entities
      (functionOfTree s symbol parameters body) := by
  have name := checked_declare grown symbol (.func (s.newFunction symbol parameters.length true))
  unfold functionOfTree
  dsimp only
  cases declared : s.declare symbol (.func (s.newFunction symbol parameters.length true)) with
  | error d =>
    rw [declared] at name
    exact (Settled.of_error name grown (List.forall_mem_singleton.mpr rfl)).append
  | ok s₁ =>
    rw [declared] at name
    refine Settled.behind name ?_
    -- The function stays in the frame, whatever becomes of its parameters and its body.
    have grown₁ := grown.declare rfl declared
    have visible : (made ++ [Entity.func (s.newFunction symbol parameters.length true)]).map
        Entity.declared = made.map Entity.declared ++ [⟨symbol.name, .function parameters.length⟩] :=
      List.map_append
    have shows := grown₁.shows
    rw [visible] at shows
    obtain ⟨checked, inside⟩ := checked_declareParameters parameters shows.push
    dsimp only
    cases inner : s₁.push.declareParameters parameters with
    | error d =>
      rw [inner] at checked
      refine (Settled.of_error checked grown₁ fun c member => ?_).append
      rw [Tree.earlier_of_mem_parameterChecks member, visible]
    | ok result =>
      obtain ⟨vs, s₂⟩ := result
      rw [inner] at checked
      refine Settled.behind checked ?_
      have last := checked_exprOfTree (inside inner).shows body known
      dsimp only
      cases resolved : Expr.ofTree s₂ body with
      | error stop =>
        rw [resolved] at last
        refine .of_error last grown₁ fun c member => ?_
        rw [Tree.Expr.site_of_mem_checks body member, visible]
      | ok e =>
        rw [resolved] at last
        cases last with
        | passed passes => exact .resolved passes (grown₁.advance s₂.next) rfl

theorem checked_assignmentOfTree (grown : base.Extends made s) (symbol : Symbol)
    {value : Tree.Expr} (known : value.Known) (span : Span) :
    Checked base ((Tree.Stmt.assignment symbol value span).checks (made.map Entity.declared))
      (assignmentOfTree s symbol value) := by
  have target := checked_resolveVariable grown.shows symbol
  unfold assignmentOfTree
  cases found : s.resolveVariable symbol with
  | error d =>
    rw [found] at target
    exact target.append_of_error
  | ok v =>
    rw [found] at target
    -- Whether the target can be written to is known from its declaration.
    have seen : Site.bindingIn base ⟨[], made.map Entity.declared⟩ symbol.name =
        some (.variable v.readOnly) := by
      rw [← grown.shows, Scope.resolveVariable_eq_ok found]
      rfl
    refine target.append_of_ok ?_
    dsimp only
    split
    · rename_i readOnly
      exact .of_violation (by simp [Check.violationIn?, Demand.faultIn?, seen, readOnly])
    · rename_i writable
      refine .of_passed (by simp [Check.violationIn?, Demand.faultIn?, seen, writable]) ?_
      exact (checked_exprOfTree grown.shows value known).map

theorem settled_assignmentOfTree (grown : base.Extends made s) (symbol : Symbol)
    {value : Tree.Expr} (known : value.Known) (span : Span) :
    Settled base ((Tree.Stmt.assignment symbol value span).checks (made.map Entity.declared)) made
      [] Stmt.entities (assignmentOfTree s symbol value, s) := by
  refine .of_checked (checked_assignmentOfTree grown symbol known span) grown ?_ ?_
  · intro c member
    simp only [Tree.Stmt.checks, List.cons_append, List.nil_append, List.mem_cons] at member
    rcases member with rfl | rfl | rfl | member
    · rfl
    · rfl
    · rfl
    · rw [Tree.Expr.site_of_mem_checks value member]
  · intro x resolved
    obtain ⟨target, source, -, -, -, rfl⟩ := assignmentOfTree_eq_ok.mp resolved
    rfl

theorem settled_print (grown : base.Extends made s) {argument : Tree.Expr}
    (known : argument.Known) (span : Span) :
    Settled base ((Tree.Stmt.print argument span).checks (made.map Entity.declared)) made
      [] Stmt.entities ((Expr.ofTree s argument).map Stmt.print, s) := by
  -- Printing declares nothing, so the checks are those of the argument and nothing more.
  refine .of_checked (checked_exprOfTree grown.shows argument known).map grown ?_ ?_
  · intro c member
    rw [Tree.Expr.site_of_mem_checks argument member]
  · intro x printed
    cases resolved : Expr.ofTree s argument with
    | error stop =>
      rw [resolved] at printed
      cases printed
    | ok e =>
      rw [resolved] at printed
      cases printed
      rfl

/-- What comes of several statements, in the form of what comes of one. -/
def gathered : (List Stmt × Option Stop) × Scope → Outcome (List Stmt)
  | ((statements, none), s) => (.ok statements, s)
  | ((_, some stop), s) => (.error stop, s)

mutual

/-- This is what comes of a statement. -/
theorem settled_stmtOfTree {s : Scope} {made : List Entity} (grown : base.Extends made s) :
    (tree : Tree.Stmt) → tree.Known →
      Settled base (tree.checks (made.map Entity.declared)) made tree.declares Stmt.entities
        (Stmt.ofTree s tree)
  | .declaration symbol value span, known => settled_declarationOfTree grown symbol known span
  | .function symbol parameters body span, known =>
    settled_functionOfTree grown symbol parameters known span
  | .assignment symbol value span, known => settled_assignmentOfTree grown symbol known span
  | .print argument span, known => settled_print grown known span
  | .loop test body _ _, known => by
    obtain ⟨knownTest, knownBody⟩ := known
    have before := checked_exprOfTree grown.shows test knownTest
    have inner := settled_stmtsOfTrees grown body knownBody
    simp only [Stmt.ofTree, Tree.Stmt.checks, Tree.Stmt.declares]
    cases resolved : Expr.ofTree s test with
    | error stop =>
      rw [resolved] at before
      refine (Settled.of_error before grown fun c member => ?_).append
      rw [Tree.Expr.site_of_mem_checks test member]
    | ok e =>
      rw [resolved] at before
      refine Settled.behind before ?_
      dsimp only
      -- What the body declares is declared around it, too.
      rcases rest : Stmt.ofTrees s body with ⟨⟨statements, _ | stop⟩, s'⟩
      · rw [rest] at inner
        cases inner with
        | resolved passes grown' declared => exact .resolved passes grown' declared
      · rw [rest] at inner
        cases inner with
        | stopped first grown' earlier => exact .stopped first grown' earlier

/-- This is what comes of statements. -/
theorem settled_stmtsOfTrees {s : Scope} {made : List Entity} (grown : base.Extends made s) :
    (trees : List Tree.Stmt) → Tree.Stmt.KnownAll trees →
      Settled base (Tree.Stmt.checksAll (made.map Entity.declared) trees) made
        (Tree.Stmt.declaresAll trees) Stmt.entitiesAll (gathered (Stmt.ofTrees s trees))
  | [], _ => by
    refine .resolved (fun _ none => absurd none List.not_mem_nil) ?_ rfl
    rw [show Stmt.entitiesAll [] = [] from rfl, List.append_nil]
    exact grown
  | tree :: trees, known => by
    obtain ⟨knownFirst, knownRest⟩ := known
    have first := settled_stmtOfTree grown tree knownFirst
    simp only [Stmt.ofTrees, Tree.Stmt.checksAll, Tree.Stmt.declaresAll]
    rcases resolved : Stmt.ofTree s tree with ⟨stop | statement, s'⟩
    · rw [resolved] at first
      cases first with
      | stopped first grown' earlier => exact .stopped first.append grown' earlier
    · rw [resolved] at first
      cases first with
      | resolved passes grown' declared =>
        -- The others see what the first one has declared.
        have rest := settled_stmtsOfTrees grown' trees knownRest
        rw [List.map_append, declared] at rest
        have rest := Settled.behind (.passed passes : Checked base _ (.ok ())) rest
        dsimp only
        rcases others : Stmt.ofTrees s' trees with ⟨⟨statements, _ | stop⟩, s''⟩
        · rw [others] at rest
          cases rest with
          | resolved passes' grown'' declared' =>
            refine .resolved passes' ?_ ?_
            · rw [Stmt.entitiesAll_cons, ← List.append_assoc]
              exact grown''
            · rw [Stmt.entitiesAll_cons, List.map_append, declared, declared']
        · rw [others] at rest
          cases rest with
          | stopped first grown'' earlier => exact .stopped first grown'' earlier

end

end Statements

end Resolved

end Frontend
