import Frontend.Proofs.Resolving.Occurrence
import Frontend.Proofs.Resolving.Steps

/-!
# What resolving names binds

A resolved program is the program as written, with an entity in place of every name: the
entity that was made for the declaration that the name refers to.

* **`Occurrence.Holds`**: an occurrence has the entity of the declaration that it refers to.
* **`Scope.Records`**: the scope between two statements.  Its only frame has the built-in
  names and everything that was made so far, each name once, and serial numbers were given
  out one after the other.
* **`Resolves`**: what one statement or several do to such a scope.  Statements one after
  the other do it one after the other (`Resolves.append`).
* **`Decorates`**: what all this comes to for a whole program.

Within a function, the frame of the parameters stands in front (`Records.serves_inside`).
Everywhere else there is one frame, and what it finds is the latest record of a name, which
is the only one.
-/

namespace Frontend

/-- `u` is the entity that was made for the declaration that `o` refers to. -/
structure Occurrence.Holds (made : List Creation) (o : Occurrence) (u : Entity) : Prop where
  distinct : o.site.Distinct
  bound : ∃ d, o.RefersTo d ∧ created? made d = some u

theorem Occurrence.Holds.append {made : List Creation} {o : Occurrence} {u : Entity}
    (h : o.Holds made u) (more : List Creation) : o.Holds (made ++ more) u := by
  obtain ⟨d, refers, created⟩ := h.bound
  exact ⟨h.distinct, d, refers, created?_append created more⟩

/-- An occurrence with an entity refers to one declaration. -/
theorem Occurrence.Holds.existsUnique {made : List Creation} {o : Occurrence} {u : Entity}
    (h : o.Holds made u) : ∃! d, o.RefersTo d := by
  obtain ⟨d, refers, -⟩ := h.bound
  exact ⟨d, refers, fun d' refers' => refers'.unique h.distinct refers⟩

/-- Occurrences share their entity exactly if they share their declaration. -/
theorem Occurrence.Holds.serial_eq_iff {made : List Creation} (unmistakable : Unmistakable made)
    {o o' : Occurrence} {u u' : Entity} (h : o.Holds made u) (h' : o'.Holds made u') :
    u.serial = u'.serial ↔ ∃ d, o.RefersTo d ∧ o'.RefersTo d := by
  obtain ⟨d, refers, created⟩ := h.bound
  obtain ⟨d', refers', created'⟩ := h'.bound
  constructor
  -- Serial numbers are unmistakable, so equal ones come from one declaration.
  · intro same
    have declaration := eq_of_created? unmistakable created created' same
    subst declaration
    exact ⟨d, refers, refers'⟩
  -- An occurrence refers to one declaration only, and a declaration creates one entity.
  · rintro ⟨e, re, re'⟩
    have first : d = e := refers.unique h.distinct re
    have second : d' = e := refers'.unique h'.distinct re'
    rw [first] at created
    rw [second, created] at created'
    cases created'
    rfl

theorem Builtin.map_name_entities : (Builtin.entities 0).map Entity.name = Builtin.names := by
  decide

namespace Frame

variable {frame : Frame} {name : String} {u : Entity}

theorem mem_of_find? (h : frame.find? name = some u) : (name, u) ∈ frame := by
  obtain ⟨before, after, split, -⟩ := List.lookup_eq_some_iff.mp h
  rw [split]
  exact List.mem_append_right before List.mem_cons_self

theorem not_mem_of_find? (h : frame.find? name = none) : name ∉ frame.map Prod.fst := by
  intro listed
  obtain ⟨p, hp, same⟩ := List.mem_map.mp listed
  have other := List.lookup_eq_none_iff.mp h p hp
  rw [same] at other
  simp at other

end Frame

namespace Scope

/-! ## The scope between two statements -/

/-- The scope between two statements: `earlier` is what is declared so far, and `made` the
entities for it. -/
structure Records (s : Scope) (made : List Creation) (earlier : List Declared) : Prop where
  /-- There is no frame around. -/
  single : s.outer = []
  /-- The frame has what was made, the latest first, and then the built-in names. -/
  locals : s.locals = (made.map Creation.record).reverse ++ root.locals
  names : earlier.map Declared.name = made.map Creation.name
  /-- No name is there twice. -/
  distinct : (s.locals.map Prod.fst).Nodup
  /-- Serial numbers were given out one after the other. -/
  serials : (entitiesOf made).map Entity.serial = List.range s.next

/-- A scope finds what a name refers to at a place. -/
def Serves (s : Scope) (made : List Creation) (site : Site) : Prop :=
  ∀ symbol u, s.find? symbol.name = some u →
    u.name = symbol.name ∧ Occurrence.Holds made ⟨site, symbol⟩ u

section Records

variable {s s' : Scope} {made : List Creation} {earlier : List Declared} {symbol : Symbol}

/-- At the beginning of a program, there are the built-in names. -/
theorem records_root : root.Records [] [] where
  single := rfl
  locals := rfl
  names := rfl
  distinct := by decide
  serials := by decide

/-- The names in the frame. -/
theorem Records.map_locals (r : s.Records made earlier) :
    s.locals.map Prod.fst = (earlier.map Declared.name).reverse ++ Builtin.names := by
  have builtin : root.locals.map Prod.fst = Builtin.names := by decide
  rw [r.locals, r.names, List.map_append, builtin, List.map_reverse, List.map_map]
  rfl

/-- Declared names differ from each other and from the built-in names. -/
theorem Records.apart (r : s.Records made earlier) : (earlier.map Declared.name).Nodup ∧
    ∀ name ∈ Builtin.names, name ∉ earlier.map Declared.name := by
  have distinct := r.distinct
  rw [r.map_locals, List.nodup_append, List.nodup_reverse] at distinct
  obtain ⟨declared, -, others⟩ := distinct
  refine ⟨declared, ?_⟩
  intro name builtin listed
  exact others name (List.mem_reverse.mpr listed) name builtin rfl

/-- No serial number was given out twice. -/
theorem Records.unmistakable (r : s.Records made earlier) : Unmistakable made := by
  unfold Unmistakable
  rw [r.serials]
  exact List.nodup_range

/-- What the frame has is something that was made, or the entity of a built-in name. -/
theorem Records.mem_of_find? (r : s.Records made earlier) {name : String} {u : Entity}
    (h : s.find? name = some u) : u.name = name ∧
      ((∃ c ∈ made, c.entity = u) ∨ u ∈ Builtin.entities 0) := by
  rw [find?_of_single r.single] at h
  have listed := Frame.mem_of_find? h
  rw [r.locals, List.mem_append, List.mem_reverse, List.mem_map] at listed
  rcases listed with ⟨c, hc, same⟩ | builtin
  · cases same
    exact ⟨rfl, .inl ⟨c, hc, rfl⟩⟩
  · obtain ⟨u', hu', same⟩ := List.mem_map.mp builtin
    cases same
    exact ⟨rfl, .inr hu'⟩

/-- What no parameter hides is found in the frame. -/
theorem Records.serves (r : s.Records made earlier) {parameters : List String} {u : Entity}
    (distinct : parameters.Nodup) (visible : symbol.name ∉ parameters)
    (h : s.find? symbol.name = some u) :
    u.name = symbol.name ∧ Occurrence.Holds made ⟨⟨parameters, earlier⟩, symbol⟩ u := by
  obtain ⟨declared, others⟩ := r.apart
  obtain ⟨named, source⟩ := r.mem_of_find? h
  refine ⟨named, ⟨distinct, declared⟩, ?_⟩
  rcases source with ⟨c, hc, same⟩ | builtin
  · -- Names and entities are recorded side by side, so they have the same number.
    obtain ⟨index, at_⟩ := List.mem_iff_getElem?.mp hc
    refine ⟨.declared index, .declared visible ?_, ?_⟩
    · show (earlier.map Declared.name)[index]? = some symbol.name
      rw [r.names, List.getElem?_map, at_, Option.map_some, Creation.name, same, named]
    · rw [created?, at_, Option.map_some, same]
  -- What is not recorded is of the library, and no declaration of its name hides it.
  · obtain ⟨index, at_⟩ := List.mem_iff_getElem?.mp builtin
    have place : Builtin.names[index]? = some symbol.name := by
      rw [← Builtin.map_name_entities, List.getElem?_map, at_, Option.map_some, named]
    have free := others symbol.name (List.mem_of_getElem? place)
    exact ⟨.builtin index, .builtin visible free place, at_⟩

/-- A name can only be declared where the frame does not have it. -/
theorem fresh_of_declare {u : Entity} (h : s.declare symbol u = .ok s') :
    symbol.name ∉ s.locals.map Prod.fst :=
  Frame.not_mem_of_find? (declare_eq_ok h).1

/-- A new name is recorded. -/
theorem Records.declare (r : s.Records made earlier) {d : Declared} {u : Entity}
    (named : d.name = symbol.name) (same : u.name = symbol.name) (serial : u.serial = s.next)
    (h : s.declare symbol u = .ok s') : s'.Records (made ++ [⟨u, []⟩]) (earlier ++ [d]) := by
  obtain ⟨-, locals, outer, next⟩ := declare_eq_ok h
  -- The record of the new entity stands in front of those made before.
  have recorded : s'.locals
      = ((made ++ [Creation.mk u []]).map Creation.record).reverse ++ root.locals := by
    rw [locals, r.locals, List.map_append, List.reverse_append, ← same]
    rfl
  refine ⟨outer.trans r.single, recorded, ?_, ?_, ?_⟩
  · simp only [List.map_append, r.names, List.map_cons, List.map_nil, Creation.name, named, same]
  · rw [locals, List.map_cons]
    exact List.nodup_cons.mpr ⟨fresh_of_declare h, r.distinct⟩
  -- Its serial number is the next one, so the numbers stay in order without a gap.
  · have serials := r.serials
    unfold entitiesOf at serials ⊢
    rw [next, List.flatMap_append, ← List.append_assoc, List.map_append, serials,
      List.range_succ, ← serial]
    rfl

end Records

/-! ## Parameters -/

/-- What it does to a scope that parameters are declared in it. -/
structure Receives (s : Scope) (symbols : List Symbol) (vs : List Variable) (s' : Scope) :
    Prop where
  names : vs.map Variable.name = symbols.map Symbol.name
  serials : vs.map Variable.serial = List.range' s.next vs.length
  locals : s'.locals = (vs.map fun v => (v.name, Entity.var v)).reverse ++ s.locals
  outer : s'.outer = s.outer
  next : s'.next = s.next + vs.length
  distinct : (s.locals.map Prod.fst).Nodup → (s'.locals.map Prod.fst).Nodup

theorem receives_of_declareParameters {s s' : Scope} {symbols : List Symbol} {vs : List Variable}
    (h : s.declareParameters symbols = .ok (vs, s')) : s.Receives symbols vs s' := by
  induction symbols generalizing s vs with
  | nil =>
    cases h
    exact ⟨rfl, rfl, rfl, rfl, rfl, id⟩
  | cons symbol symbols ih =>
    simp only [declareParameters] at h
    split at h
    · cases h
    · rename_i t declared
      split at h
      · cases h
      · rename_i others t' rest
        cases h
        have fresh := fresh_of_declare declared
        obtain ⟨-, locals, outer, next⟩ := declare_eq_ok declared
        -- The symbols behind are received from the scope that has this one already.
        have step := ih rest
        refine ⟨?_, ?_, ?_, step.outer.trans outer, ?_, ?_⟩
        · rw [List.map_cons, List.map_cons, step.names]
          rfl
        · rw [List.map_cons, step.serials, next, List.length_cons, List.range'_succ]
          rfl
        · rw [step.locals, locals, List.map_cons, List.reverse_cons, List.append_assoc]
          rfl
        · rw [step.next, next, List.length_cons]
          omega
        · intro distinct
          apply step.distinct
          rw [locals, List.map_cons]
          exact List.nodup_cons.mpr ⟨fresh, distinct⟩

/-- In a new frame, parameters are all there is. -/
theorem Receives.locals_eq {s s' : Scope} {symbols : List Symbol} {vs : List Variable}
    (h : s.push.Receives symbols vs s') :
    s'.locals = (vs.map fun v => (v.name, Entity.var v)).reverse := by
  have locals := h.locals
  rw [show s.push.locals = [] from rfl, List.append_nil] at locals
  exact locals

/-- The parameters of one function have different names, since they share a frame. -/
theorem Receives.nodup {s s' : Scope} {symbols : List Symbol} {vs : List Variable}
    (h : s.push.Receives symbols vs s') : (vs.map Variable.name).Nodup := by
  have distinct := h.distinct List.nodup_nil
  rw [h.locals_eq, List.map_reverse, List.nodup_reverse, List.map_map] at distinct
  exact distinct

section Inside

variable {s inner : Scope} {made : List Creation} {earlier : List Declared} {f : Function}
  {parameters : List Symbol} {vs : List Variable} {d : Declared}

/-- Behind a function, its parameters are known as well, though not in the frame. -/
theorem Records.receive (r : s.Records (made ++ [⟨.func f, []⟩]) earlier)
    (h : s.push.Receives parameters vs inner) :
    Records { s with next := inner.next } (made ++ [⟨.func f, vs⟩]) earlier := by
  refine ⟨r.single, ?_, ?_, r.distinct, ?_⟩
  · rw [r.locals]
    simp only [List.map_append, List.map_cons, List.map_nil, Creation.record, Creation.name]
  · rw [r.names]
    simp only [List.map_append, List.map_cons, List.map_nil, Creation.name]
  -- The parameters' serial numbers follow the one of the function, in their order.
  · have more : entitiesOf (made ++ [⟨.func f, vs⟩])
        = entitiesOf (made ++ [⟨.func f, []⟩]) ++ vs.map Entity.var := by
      simp only [entitiesOf, List.flatMap_append, List.flatMap_cons, List.flatMap_nil,
        Creation.entities, List.append_assoc, List.append_nil, List.map_nil, List.cons_append,
        List.nil_append]
    have numbers : (vs.map Entity.var).map Entity.serial = List.range' s.next vs.length := by
      rw [List.map_map]
      exact h.serials
    rw [more, List.map_append, r.serials, numbers, h.next, List.range_eq_range',
      List.range_eq_range', ← List.range'_append_1, Nat.zero_add]
    rfl

/-- In a function, the name of a parameter refers to the parameter. -/
theorem Records.holds_parameter (r : s.Records (made ++ [⟨.func f, vs⟩]) (earlier ++ [d]))
    (names : vs.map Variable.name = parameters.map Symbol.name)
    (distinct : (parameters.map Symbol.name).Nodup) {symbol : Symbol} {v : Variable} (hv : v ∈ vs)
    (named : v.name = symbol.name) :
    Occurrence.Holds (made ++ [⟨.func f, vs⟩])
      ⟨⟨parameters.map Symbol.name, earlier ++ [d]⟩, symbol⟩ (.var v) := by
  obtain ⟨index, at_⟩ := List.mem_iff_getElem?.mp hv
  -- The function is the latest declaration, and the latest that was made.
  have owner : (earlier ++ [d]).length - 1 = made.length := by
    have lengths := congrArg List.length r.names
    simp only [List.length_map, List.length_append, List.length_singleton] at lengths ⊢
    omega
  refine ⟨⟨distinct, r.apart.1⟩, .parameter made.length index, ?_, ?_⟩
  · rw [← owner]
    refine .parameter ?_
    show (parameters.map Symbol.name)[index]? = some symbol.name
    rw [← names, List.getElem?_map, at_, Option.map_some, named]
  · simp only [created?, List.getElem?_concat_length, Option.bind_some, at_, Option.map_some]

/-- In a function, a name refers to a parameter or to what is known around the function. -/
theorem Records.serves_inside (r : s.Records (made ++ [⟨.func f, vs⟩]) (earlier ++ [d]))
    (names : vs.map Variable.name = parameters.map Symbol.name)
    (locals : inner.locals = (vs.map fun v => (v.name, Entity.var v)).reverse)
    (outer : inner.outer = [s.locals]) (distinct : (inner.locals.map Prod.fst).Nodup) :
    inner.Serves (made ++ [⟨.func f, vs⟩]) ⟨parameters.map Symbol.name, earlier ++ [d]⟩ := by
  have parameterNames : inner.locals.map Prod.fst = (parameters.map Symbol.name).reverse := by
    rw [locals, List.map_reverse, List.map_map, ← names]
    rfl
  rw [parameterNames, List.nodup_reverse] at distinct
  intro symbol u found
  simp only [find?, frames, outer, List.findSome?_cons, List.findSome?_nil] at found
  cases own : inner.locals.find? symbol.name with
  | some u' =>
    rw [own] at found
    cases found
    have listed := Frame.mem_of_find? own
    rw [locals, List.mem_reverse, List.mem_map] at listed
    obtain ⟨v, hv, same⟩ := listed
    obtain ⟨named, rfl⟩ := Prod.mk.inj same
    exact ⟨named, r.holds_parameter names distinct hv named⟩
  | none =>
    -- No parameter has the name, so it is looked up around the function.
    rw [own] at found
    have visible : symbol.name ∉ parameters.map Symbol.name := by
      rw [← List.mem_reverse, ← parameterNames]
      exact Frame.not_mem_of_find? own
    refine r.serves distinct visible ?_
    rw [find?_of_single r.single]
    cases around : s.locals.find? symbol.name with
    | none =>
      rw [around] at found
      cases found
    | some u' =>
      rw [around] at found
      exact found

end Inside

end Scope

namespace Resolved

open Scope

/-! ## Expressions -/

section Expressions

variable {s : Scope} {made : List Creation} {site : Site}

/-- An expression with the names of `tree`, each as the entity that it refers to. -/
structure Expr.Binds (made : List Creation) (site : Site) (tree : Tree.Expr) (e : Expr) : Prop where
  plain : e.plain = tree.plain
  uses : List.Forall₂ (Occurrence.Holds made) (tree.occurrences site) e.uses

/-- Expressions with the names of `trees`, each as the entity that it refers to. -/
structure Expr.BindsAll (made : List Creation) (site : Site) (trees : List Tree.Expr)
    (es : List Expr) : Prop where
  plain : Expr.plainAll es = Tree.Expr.plainAll trees
  uses : List.Forall₂ (Occurrence.Holds made) (Tree.Expr.occurrencesAll site trees)
    (Expr.usesAll es)

mutual

/-- Where a scope finds what names refer to, an expression is bound. -/
theorem binds_exprOfTree (serves : s.Serves made site) : (tree : Tree.Expr) → {e : Expr} →
    Expr.ofTree s tree = .ok e → e.Binds made site tree
  | .number .., e, h | .boolean .., e, h => by
    cases h
    exact ⟨rfl, .nil⟩
  | .symbol symbol, e, h => by
    obtain ⟨v, found, rfl⟩ := exprOfTree_symbol_eq_ok.mp h
    -- The scope serves the site: the name is found as the entity that the occurrence holds.
    obtain ⟨named, holds⟩ := serves symbol _ (resolveVariable_eq_ok found)
    exact ⟨congrArg Bare.Expr.symbol named, .cons holds .nil⟩
  | .binary left operator right _, e, h => by
    obtain ⟨o, l, r, known, hl, hr, rfl⟩ := exprOfTree_binary_eq_ok.mp h
    have first := binds_exprOfTree serves left hl
    have second := binds_exprOfTree serves right hr
    refine ⟨?_, List.rel_append first.uses second.uses⟩
    rw [Expr.plain, Tree.Expr.plain, first.plain, second.plain,
      BinaryOperator.kind_of_ofKind? known]
  | .unary operator operand _, e, h => by
    obtain ⟨o, x, known, hx, rfl⟩ := exprOfTree_unary_eq_ok.mp h
    have inner := binds_exprOfTree serves operand hx
    refine ⟨?_, inner.uses⟩
    rw [Expr.plain, Tree.Expr.plain, inner.plain, UnaryOperator.kind_of_ofKind? known]
  | .conditional test consequent alternate _, e, h => by
    obtain ⟨t, c, a, ht, hc, ha, rfl⟩ := exprOfTree_conditional_eq_ok.mp h
    have first := binds_exprOfTree serves test ht
    have second := binds_exprOfTree serves consequent hc
    have third := binds_exprOfTree serves alternate ha
    refine ⟨?_, List.rel_append first.uses (List.rel_append second.uses third.uses)⟩
    rw [Expr.plain, Tree.Expr.plain, first.plain, second.plain, third.plain]
  -- The callee is the first occurrence of the call, before those in the arguments.
  | .call symbol arguments _, e, h => by
    obtain ⟨callee, es, found, -, hes, rfl⟩ := exprOfTree_call_eq_ok.mp h
    obtain ⟨named, holds⟩ := serves symbol _ (resolveFunction_eq_ok found)
    have inner := binds_exprsOfTrees serves arguments hes
    refine ⟨?_, .cons holds inner.uses⟩
    rw [Expr.plain, Tree.Expr.plain, inner.plain, ← named]
    rfl

theorem binds_exprsOfTrees (serves : s.Serves made site) : (trees : List Tree.Expr) →
    {es : List Expr} → Expr.ofTrees s trees = .ok es → Expr.BindsAll made site trees es
  | [], es, h => by
    cases h
    exact ⟨rfl, .nil⟩
  | tree :: trees, es, h => by
    obtain ⟨e, rest, he, hrest, rfl⟩ := exprsOfTrees_cons_eq_ok.mp h
    have first := binds_exprOfTree serves tree he
    have others := binds_exprsOfTrees serves trees hrest
    refine ⟨?_, List.rel_append first.uses others.uses⟩
    rw [Expr.plainAll, Tree.Expr.plainAll, first.plain, others.plain]

end

end Expressions

/-! ## Statements -/

/-- What statements do to the scope between them: their occurrences `os` are bound to `us`, they
declare `ds`, and make `cs` for that. -/
structure Resolves (made : List Creation) (earlier : List Declared) (os : List Occurrence)
    (ds : List Declared) (us : List Entity) (cs : List Creation) (s' : Scope) : Prop where
  uses : List.Forall₂ (Occurrence.Holds (made ++ cs)) os us
  records : s'.Records (made ++ cs) (earlier ++ ds)

section Statements

variable {s s' s'' : Scope} {made : List Creation} {earlier : List Declared}

/-- What is bound stays bound when more is made. -/
theorem holds_append {os : List Occurrence} {us : List Entity}
    (h : List.Forall₂ (Occurrence.Holds made) os us) (more : List Creation) :
    List.Forall₂ (Occurrence.Holds (made ++ more)) os us :=
  h.imp fun _ _ holds => holds.append more

/-- Between statements, every name that is found is that of an earlier declaration or of the
table of built-in names. -/
theorem serves_outside (r : s.Records made earlier) : s.Serves made ⟨[], earlier⟩ := by
  intro symbol u found
  exact r.serves List.nodup_nil List.not_mem_nil found

/-- What statements do that declare nothing. -/
theorem resolves_of_uses {os : List Occurrence} {us : List Entity} (r : s.Records made earlier)
    (h : List.Forall₂ (Occurrence.Holds made) os us) : Resolves made earlier os [] us [] s := by
  constructor
  · rwa [List.append_nil]
  · rwa [List.append_nil, List.append_nil]

/-- Statements do one after the other what they do. -/
theorem Resolves.append {os os' : List Occurrence} {ds ds' : List Declared} {us us' : List Entity}
    {cs cs' : List Creation} (h : Resolves made earlier os ds us cs s')
    (h' : Resolves (made ++ cs) (earlier ++ ds) os' ds' us' cs' s'') :
    Resolves made earlier (os ++ os') (ds ++ ds') (us ++ us') (cs ++ cs') s'' := by
  have uses := holds_append h.uses cs'
  have uses' := h'.uses
  have records := h'.records
  rw [List.append_assoc] at uses uses' records
  rw [List.append_assoc] at records
  exact ⟨List.rel_append uses uses', records⟩

/-- What becomes of `let symbol = value;`. -/
theorem declaration_of_ok (r : s.Records made earlier) {symbol : Symbol} {value : Tree.Expr}
    {statement : Stmt} (h : declarationOfTree s symbol value = (.ok statement, s')) :
    ∃ v initializer, statement = .declaration v initializer ∧ v.name = symbol.name ∧
      initializer.Binds made ⟨[], earlier⟩ value ∧
        s'.Records (made ++ [⟨.var v, []⟩]) (earlier ++ [⟨symbol.name, .variable false⟩]) := by
  obtain ⟨initializer, resolved, declared, rfl⟩ := declarationOfTree_eq_ok.mp h
  have inner := binds_exprOfTree (serves_outside r) value resolved
  exact ⟨_, initializer, rfl, rfl, inner, r.declare rfl rfl rfl declared⟩

/-- What becomes of `function symbol(parameters) = body;`. -/
theorem function_of_ok (r : s.Records made earlier) {symbol : Symbol} {parameters : List Symbol}
    {body : Tree.Expr} {statement : Stmt}
    (h : functionOfTree s symbol parameters body = (.ok statement, s')) :
    ∃ f vs e, statement = .function f vs e ∧ f.name = symbol.name ∧
      vs.map Variable.name = parameters.map Symbol.name ∧
        e.Binds (made ++ [⟨.func f, vs⟩]) ⟨parameters.map Symbol.name,
          earlier ++ [⟨symbol.name, .function parameters.length⟩]⟩ body ∧
            s'.Records (made ++ [⟨.func f, vs⟩])
              (earlier ++ [⟨symbol.name, .function parameters.length⟩]) := by
  obtain ⟨around, vs, inner, e, declared, received, resolved, rfl, rfl⟩ := functionOfTree_eq_ok.mp h
  -- The function is known to its own body, and the frame of the parameters is in front.
  have receives := receives_of_declareParameters received
  have declares := r.declare (d := ⟨symbol.name, .function parameters.length⟩) rfl rfl rfl declared
  have records := declares.receive receives
  have outer : inner.outer = [around.locals] := by
    rw [receives.outer, show around.push.outer = around.locals :: around.outer from rfl,
      declares.single]
  have distinct := receives.distinct List.nodup_nil
  have serves := records.serves_inside receives.names receives.locals_eq outer distinct
  have inside := binds_exprOfTree serves body resolved
  exact ⟨_, vs, e, rfl, rfl, receives.names, inside, records⟩

/-- What becomes of `symbol = value;`. -/
theorem assignment_of_ok (r : s.Records made earlier) {symbol : Symbol} {value : Tree.Expr}
    {statement : Stmt} (h : assignmentOfTree s symbol value = .ok statement) :
    ∃ target source, statement = .assignment target source ∧ target.name = symbol.name ∧
      Occurrence.Holds made ⟨⟨[], earlier⟩, symbol⟩ (.var target) ∧
        source.Binds made ⟨[], earlier⟩ value := by
  obtain ⟨target, source, found, -, resolved, rfl⟩ := assignmentOfTree_eq_ok.mp h
  have serves := serves_outside r
  obtain ⟨named, holds⟩ := serves symbol _ (resolveVariable_eq_ok found)
  have inner := binds_exprOfTree serves value resolved
  exact ⟨target, source, rfl, named, holds, inner⟩

mutual

/-- A statement is bound, and what it declares is recorded behind it. -/
theorem resolves_stmtOfTree {s s' : Scope} {made : List Creation} {earlier : List Declared}
    (r : s.Records made earlier) : (tree : Tree.Stmt) → {statement : Stmt} →
      Stmt.ofTree s tree = (.ok statement, s') → statement.plain = tree.plain ∧
        Resolves made earlier (tree.occurrences earlier) tree.declares statement.uses
          statement.creations s'
  | .declaration symbol value span, statement, h => by
    -- What the name is given comes before the name, and so do its occurrences.
    obtain ⟨v, initializer, rfl, named, inner, records⟩ := declaration_of_ok r h
    refine ⟨?_, holds_append inner.uses _, records⟩
    rw [Stmt.plain, Tree.Stmt.plain, inner.plain, named]
  | .function symbol parameters body span, statement, h => by
    obtain ⟨f, vs, e, rfl, named, names, inside, records⟩ := function_of_ok r h
    refine ⟨?_, inside.uses, records⟩
    rw [Stmt.plain, Tree.Stmt.plain, inside.plain, named, names]
  | .assignment symbol value span, statement, h => by
    obtain ⟨resolved, rfl⟩ := stmtOfTree_assignment_eq_ok.mp h
    obtain ⟨target, source, rfl, named, holds, inner⟩ := assignment_of_ok r resolved
    refine ⟨?_, resolves_of_uses r (.cons holds inner.uses)⟩
    rw [Stmt.plain, Tree.Stmt.plain, inner.plain, named]
  | .print argument span, statement, h => by
    obtain ⟨e, found, rfl, rfl⟩ := stmtOfTree_print_eq_ok.mp h
    have inner := binds_exprOfTree (serves_outside r) argument found
    refine ⟨?_, resolves_of_uses r inner.uses⟩
    rw [Stmt.plain, Tree.Stmt.plain, inner.plain]
  | .loop test body braces span, statement, h => by
    obtain ⟨e, ss, found, resolved, rfl⟩ := stmtOfTree_loop_eq_ok.mp h
    have inner := binds_exprOfTree (serves_outside r) test found
    -- The body is resolved behind the test, in the same scope.
    obtain ⟨plain, rest⟩ := resolves_stmtsOfTrees r body resolved
    refine ⟨?_, List.rel_append (holds_append inner.uses _) rest.uses, rest.records⟩
    rw [Stmt.plain, Tree.Stmt.plain, inner.plain, plain]

/-- Statements are bound, and what they declare is recorded behind them. -/
theorem resolves_stmtsOfTrees {s s' : Scope} {made : List Creation} {earlier : List Declared}
    (r : s.Records made earlier) : (trees : List Tree.Stmt) → {statements : List Stmt} →
      Stmt.ofTrees s trees = ((statements, none), s') →
        Stmt.plainAll statements = Tree.Stmt.plainAll trees ∧
          Resolves made earlier (Tree.Stmt.occurrencesAll earlier trees)
            (Tree.Stmt.declaresAll trees) (Stmt.usesAll statements) (Stmt.creationsAll statements) s'
  | [], statements, h => by
    cases h
    exact ⟨rfl, resolves_of_uses r .nil⟩
  | tree :: trees, statements, h => by
    obtain ⟨statement, t, others, first, later, rfl⟩ := stmtsOfTrees_cons_eq_ok.mp h
    obtain ⟨plain, step⟩ := resolves_stmtOfTree r tree first
    obtain ⟨plainAll, rest⟩ := resolves_stmtsOfTrees step.records trees later
    refine ⟨?_, step.append rest⟩
    rw [Stmt.plainAll, Tree.Stmt.plainAll, plain, plainAll]

end

end Statements

/-! ## Programs -/

/-- What a resolved program has to do with the program as written. -/
structure Decorates (block : Tree.Block) (p : Program) : Prop where
  /-- With names instead of entities it is the program as written. -/
  plain : Stmt.plainAll p = Tree.Stmt.plainAll block.body
  /-- What is made has the names that are declared, in the order of the text. -/
  names : p.creations.map Creation.name = (Tree.Stmt.declaresAll block.body).map Declared.name
  /-- Every occurrence refers to one declaration. -/
  refers : ∀ o ∈ block.occurrences, ∃! d, o.RefersTo d
  /-- Every occurrence, in the order of the text, has the entity of the declaration that it
  refers to. -/
  bound : List.Forall₂ (fun o u => ∃ d, o.RefersTo d ∧ created? p.creations d = some u)
    block.occurrences p.uses
  /-- Two occurrences share an entity exactly if they refer to the same declaration. -/
  shared : ∀ x ∈ block.occurrences.zip p.uses, ∀ y ∈ block.occurrences.zip p.uses,
    x.2.serial = y.2.serial ↔ ∃ d, x.1.RefersTo d ∧ y.1.RefersTo d

section Programs

variable {block : Tree.Block} {p : Program}

/-- What is done to the scope from the beginning of a program to its end. -/
theorem resolves_ofBlock (h : Program.ofBlock block = .ok p) :
    Stmt.plainAll p = Tree.Stmt.plainAll block.body ∧ ∃ s', Resolves [] [] block.occurrences
      (Tree.Stmt.declaresAll block.body) p.uses p.creations s' := by
  obtain ⟨s', resolved⟩ := ofBlock_eq_ok.mp h
  obtain ⟨plain, resolves⟩ := resolves_stmtsOfTrees records_root block.body resolved
  exact ⟨plain, s', resolves⟩

/-- No serial number is used twice in a program. -/
theorem unmistakable_ofBlock (h : Program.ofBlock block = .ok p) : Unmistakable p.creations := by
  obtain ⟨-, s', resolves⟩ := resolves_ofBlock h
  exact resolves.records.unmistakable

/-- **Names are bound to their declarations, and nothing else is changed.** -/
theorem ofBlock_decorates (h : Program.ofBlock block = .ok p) : Decorates block p := by
  obtain ⟨plain, s', resolves⟩ := resolves_ofBlock h
  have unmistakable := unmistakable_ofBlock h
  have holds := resolves.uses
  have names := resolves.records.names
  rw [List.nil_append] at holds
  rw [List.nil_append, List.nil_append] at names
  refine ⟨plain, names.symm, ?refers, holds.imp fun o u h => h.bound, ?shared⟩
  case refers =>
    -- Being held by an entity is what makes an occurrence refer to one declaration.
    have both : List.Forall₂ (fun o u => (∃! d, o.RefersTo d) ∧ o.Holds p.creations u)
        block.occurrences p.uses := holds.imp fun o u h => ⟨h.existsUnique, h⟩
    exact ((List.forall₂_and_left _ _).mp both).1
  case shared =>
    -- Two uses are compared at the places of their occurrences.
    rintro ⟨o, u⟩ hx ⟨o', u'⟩ hy
    have left := List.forall₂_zip holds hx
    have right := List.forall₂_zip holds hy
    exact left.serial_eq_iff unmistakable right

end Programs

/-- A function with a parameter that hides a variable, which calls itself, and a variable from
the body of a loop that is used behind it. -/
def shadowing : String :=
  "let x = 3; function f(x) = x < π ? x : f(x - 1); while false \x7b let y = f(x); \x7d print y;"

/-- In `shadowing`, `π` is 0, the variable `x` is 7, `f` is 8, its parameter is 9, and `y` is 10. -/
theorem shadowing_decorated : ∃ block p, Program.ofBlock block = .ok p ∧
    p.uses.map Entity.serial = [9, 0, 9, 8, 9, 8, 7, 10] ∧ Decorates block p := by
  have serials : (analyzed shadowing).toOption.map (fun p => p.uses.map Entity.serial)
      = some [9, 0, 9, 8, 9, 8, 7, 10] := by
    decide +kernel
  obtain ⟨p, accepted, same⟩ := Option.map_eq_some_iff.mp serials
  obtain ⟨block, -, resolved⟩ := exists_ofBlock_eq (eq_ok_of_toOption accepted)
  exact ⟨block, p, resolved, same, ofBlock_decorates resolved⟩

end Resolved

end Frontend
