import Frontend.Proofs.Renaming.Resolving
import Frontend.Proofs.Renaming.Simplification
import Frontend.Proofs.Simplification.Closed
import Mathlib.Logic.Equiv.Basic

/-!
# Other names for parameters

What the name of a parameter is matters to its function only.  It may be changed to any name
that the function has no other use for, also to one that is declared around the function or built
in (`ofBlock_renameParameter`).

* **`Tree.Stmt.RenamesParameter`**: one parameter of one function has another name, in the list
  of parameters and in the body.
* Within the function, the new name takes the place of the old one.  Since the function does not
  use the new name otherwise, this is the same as exchanging the two names
  (`replaced_eq_swap`), which keeps different names different.
* Outside of the function, the parameter cannot be seen (`Unmistakable.not_visible`), so that
  nothing there changes.
-/

namespace Frontend

/-- One name in the place of another. -/
def replaced (x y : String) : String → String := fun name => if name = x then y else name

/-- To replace a name by one that does not occur is to exchange the two. -/
theorem replaced_eq_swap {x y name : String} (h : name ≠ x → name ≠ y) :
    replaced x y name = Equiv.swap x y name := by
  unfold replaced
  by_cases same : name = x
  · rw [if_pos same, same, Equiv.swap_apply_left]
  · rw [if_neg same, Equiv.swap_apply_of_ne_of_ne same (h same)]

namespace Tree

section Unused

variable {x y : String}

/-- Parameters with one name in the place of another are those with the two names exchanged. -/
theorem map_rename_replaced {parameters : List Symbol}
    (other : ∀ parameter ∈ parameters, parameter.name ≠ x → parameter.name ≠ y) :
    parameters.map (Symbol.rename (replaced x y))
      = parameters.map (Symbol.rename (Equiv.swap x y)) := by
  apply List.map_congr_left
  intro parameter listed
  rw [Symbol.rename, Symbol.rename, replaced_eq_swap (other parameter listed)]

/-- So it is with an expression. -/
theorem rename_replaced {e : Expr} (unused : y ∉ e.names) :
    e.rename (replaced x y) = e.rename (Equiv.swap x y) := by
  apply Expr.rename_congr
  intro name occurs
  apply replaced_eq_swap
  intro _ same
  rw [same] at occurs
  exact unused occurs

end Unused

/-- Among statements, the parameter `x` of the function with the number `owner` is renamed to
`y`, which is the name of no other parameter of that function and does not occur in its body. -/
inductive Stmt.RenamesParameter (x y : String) : Nat → List Stmt → List Stmt → Prop where
  | here {symbol : Symbol} {parameters : List Symbol} {body : Expr} {span : Span}
      {rest : List Stmt} (own : x ∈ parameters.map Symbol.name)
      (other : ∀ parameter ∈ parameters, parameter.name ≠ x → parameter.name ≠ y)
      (unused : y ∉ body.names) :
      RenamesParameter x y 0 (.function symbol parameters body span :: rest)
        (.function symbol (parameters.map (Symbol.rename (replaced x y)))
          (body.rename (replaced x y)) span :: rest)
  | inside {owner : Nat} {test : Expr} {body body' rest : List Stmt} {braces span : Span}
      (inner : RenamesParameter x y owner body body') :
      RenamesParameter x y owner (.loop test body braces span :: rest)
        (.loop test body' braces span :: rest)
  | behind {owner : Nat} {first : Stmt} {rest rest' : List Stmt}
      (later : RenamesParameter x y owner rest rest') :
      RenamesParameter x y (first.declares.length + owner) (first :: rest) (first :: rest')

end Tree

/-! ## Parameters cannot be seen -/

section Made

variable {made more : List Creation} {c c' : Creation} {v : Variable}

/-- Two parts of what is made have no serial number in common. -/
theorem Unmistakable.ne_of_append (unmistakable : Unmistakable (made ++ more)) (mem : c ∈ made)
    (mem' : c' ∈ more) {u u' : Entity} (own : u ∈ c.entities) (own' : u' ∈ c'.entities) :
    u.serial ≠ u'.serial := by
  obtain ⟨-, -, apart, -⟩ := unmistakable.parts
  have disjoint := (List.pairwise_append.mp apart).2.2 c mem c' mem'
  intro same
  have shared : u.serial ∈ c'.serials := by
    rw [same]
    exact List.mem_map_of_mem own'
  exact disjoint (List.mem_map_of_mem own) shared

/-- A parameter is none of the entities that can be seen. -/
theorem Unmistakable.not_visible (unmistakable : Unmistakable made) (mem : c ∈ made)
    (own : v ∈ c.parameters) : ∀ u ∈ visible made, u.serial ≠ v.serial := by
  obtain ⟨-, together, -, others⟩ := unmistakable.parts
  have parameter : Entity.var v ∈ c.entities := List.mem_cons_of_mem _ (List.mem_map_of_mem own)
  intro u seen same
  rcases List.mem_append.mp seen with builtin | declared
  · exact others u builtin c mem (.var v) parameter same
  · obtain ⟨c', mem', rfl⟩ := List.mem_map.mp declared
    obtain ⟨i, hi⟩ := List.mem_iff_getElem?.mp mem'
    obtain ⟨j, hj⟩ := List.mem_iff_getElem?.mp mem
    have place := unmistakable.owner_unique hi hj List.mem_cons_self parameter same
    rw [place, hj] at hi
    cases hi
    -- What is declared has another serial number than its parameters.
    have nodup := together c mem
    rw [Creation.serials, Creation.entities, List.map_cons, List.nodup_cons] at nodup
    apply nodup.1
    rw [same]
    exact List.mem_map_of_mem (List.mem_map_of_mem own)

/-- What is found in a scope can be seen there. -/
theorem Scope.Records.mem_visible {s : Scope} {earlier : List Declared} (r : s.Records made earlier)
    {name : String} {u : Entity} (h : s.find? name = some u) : u ∈ visible made := by
  rcases (r.mem_of_find? h).2 with ⟨c, mem, same⟩ | builtin
  · rw [← same]
    exact List.mem_append_right _ (List.mem_map_of_mem mem)
  · exact List.mem_append_left _ builtin

end Made

namespace Resolved

open Scope

/-! ## Outside of the function -/

section Outside

variable {s s' t : Scope} {made more : List Creation} {earlier earlier' : List Declared}
  {c : Creation} {v : Variable} {y : String}

/-- Statements keep their names if the renamed entity is neither seen nor made by them. -/
theorem renameAll_of_closed {n : Nat} {ss : List Stmt} (closed : Stmt.ClosedAll made ss)
    (seen : ∀ u ∈ visible made, u.serial ≠ n)
    (others : ∀ c ∈ Stmt.creationsAll ss, ∀ u ∈ c.entities, u.serial ≠ n) :
    Stmt.renameAll (.only n y) ss = ss := by
  apply Stmt.renameAll_eq_self
  · intro u used
    rcases Stmt.usesAll_of_closed ss closed used with before | ⟨c, mem, own⟩
    · exact Entity.rename_only_of_ne (seen u before)
    · exact Entity.rename_only_of_ne (others c mem u own)
  · intro c mem u own
    exact Entity.rename_only_of_ne (others c mem u own)

/-- Statements behind a function keep their names. -/
theorem renameAll_behind (r : s.Records made earlier) {trees : List Tree.Stmt} {ss : List Stmt}
    (h : Stmt.ofTrees s trees = ((ss, none), s')) (mem : c ∈ made) (own : v ∈ c.parameters) :
    Stmt.renameAll (.only v.serial y) ss = ss := by
  have unmistakable := (resolves_stmtsOfTrees r trees h).2.records.unmistakable
  apply renameAll_of_closed (closed_stmtsOfTrees r trees h) (r.unmistakable.not_visible mem own)
  intro c' later u member
  have parameter : Entity.var v ∈ c.entities := List.mem_cons_of_mem _ (List.mem_map_of_mem own)
  exact (unmistakable.ne_of_append mem later parameter member).symm

/-- A statement in front of a function keeps its names. -/
theorem rename_before (r : s.Records made earlier) {tree : Tree.Stmt} {statement : Stmt}
    (h : Stmt.ofTree s tree = (.ok statement, t))
    (later : s'.Records ((made ++ statement.creations) ++ more) earlier') (mem : c ∈ more)
    (own : v ∈ c.parameters) : statement.rename (.only v.serial y) = statement := by
  -- What stands before the function is closed, so its entities are its own or visible before.
  have closed := Stmt.closedAll_singleton.mpr (closed_stmtOfTree r tree h)
  have whole := later.unmistakable.not_visible (List.mem_append_right _ mem) own
  have parameter : Entity.var v ∈ c.entities := List.mem_cons_of_mem _ (List.mem_map_of_mem own)
  have kept : Stmt.renameAll (.only v.serial y) [statement] = [statement] := by
    apply renameAll_of_closed closed
    · intro u seen
      -- The parameter is not among the visible entities, nor among those made so far.
      rw [visible_append, visible_append] at whole
      exact whole u (List.mem_append_left _ (List.mem_append_left _ seen))
    · intro c' made' u member
      rw [Stmt.creationsAll_singleton] at made'
      exact later.unmistakable.ne_of_append (List.mem_append_right _ made') mem member parameter
  exact (List.cons.inj kept).1

end Outside

/-! ## Inside the function -/

section Inside

variable {s s' around inner : Scope} {made : List Creation} {earlier : List Declared}
  {symbol : Symbol} {parameters : List Symbol} {body : Tree.Expr} {f : Function}
  {vs : List Variable} {v : Variable} {x y : String}

/-- Parameters with the new name get the same entities with the new name. -/
theorem received_swap (received : around.push.declareParameters parameters = .ok (vs, inner))
    (other : ∀ parameter ∈ parameters, parameter.name ≠ x → parameter.name ≠ y) (own : v ∈ vs)
    (named : v.name = x) :
    around.push.declareParameters (parameters.map (Symbol.rename (Equiv.swap x y)))
      = .ok (vs.map (Variable.rename (.only v.serial y)),
          inner.renameLocals (Equiv.swap x y) (.only v.serial y) around.push.outer) := by
  have receives := receives_of_declareParameters received
  obtain ⟨place, at_⟩ := List.mem_iff_getElem?.mp own
  have serial : v.serial = around.next + place := by
    have listed := congrArg (fun ns => ns[place]?) receives.serials
    have bound := (List.getElem?_eq_some_iff.mp at_).1
    simp only [List.getElem?_map, at_, Option.map_some, List.getElem?_range' bound,
      Option.some.injEq, Nat.one_mul] at listed
    exact listed
  have distinct : (parameters.map Symbol.name).Nodup := by
    rw [← receives.names]
    exact receives.nodup
  have here : (parameters.map Symbol.name)[place]? = some x := by
    rw [← receives.names, List.getElem?_map, at_, Option.map_some, named]
  -- Serial numbers are given out in order, so only one parameter gets that of `v`.
  have agree : ∀ index symbol, parameters[index]? = some symbol →
      Renaming.only v.serial y (around.push.next + index) symbol.name
        = Equiv.swap x y symbol.name := by
    intro index symbol listed
    have name : (parameters.map Symbol.name)[index]? = some symbol.name := by
      rw [List.getElem?_map, listed, Option.map_some]
    by_cases same : index = place
    · rw [same, here] at name
      cases name
      rw [Renaming.only, if_pos, Equiv.swap_apply_left]
      rw [serial, same]
      rfl
    · have different : symbol.name ≠ x := by
        intro equal
        rw [equal] at name
        exact same (index_unique distinct name here)
      have unused := other symbol (List.mem_of_getElem? listed) different
      rw [Renaming.only, if_neg, Equiv.swap_apply_of_ne_of_ne different unused]
      rw [serial, show around.push.next = around.next from rfl]
      omega
  have declares := declareParameters_rename (Equiv.swap x y).injective around.push.outer
    parameters agree
  rw [received] at declares
  exact declares

/-- In the function, every name is found under its new name: the parameter in the innermost
frame, and what no parameter hides around it. -/
theorem find?_swap (outer : inner.outer = [around.locals]) (single : around.outer = [])
    (apart : ∀ name u, around.find? name = some u → u.serial ≠ v.serial)
    (known : inner.locals.find? x ≠ none) {name : String} (unused : name ≠ y) :
    (inner.renameLocals (Equiv.swap x y) (.only v.serial y) [around.locals]).find?
        (Equiv.swap x y name)
      = (inner.find? name).map (Entity.rename (.only v.serial y)) := by
  -- In the frame of parameters the two names are exchanged outright.
  have own := Frame.find?_rename (σ := .only v.serial y) (Equiv.swap x y).injective inner.locals name
  rw [find?_of_outer rfl, find?_of_outer outer, show (inner.renameLocals (Equiv.swap x y)
    (.only v.serial y) [around.locals]).locals.find? (Equiv.swap x y name) = _ from own]
  cases found : inner.locals.find? name with
  | some u => rfl
  | none =>
    -- A name that is not found there is neither of the two, so it is looked up as it is.
    have different : name ≠ x := by
      intro same
      rw [same] at found
      exact known found
    rw [Equiv.swap_apply_of_ne_of_ne different unused, Option.map_none, Option.none_or,
      ← find?_of_single single]
    -- Around the function no entity has the serial number of the parameter.
    cases seen : around.find? name with
    | none => rfl
    | some u => rw [Option.map_some, Entity.rename_only_of_ne (apart name u seen)]

/-- A function whose parameter has another name is the same function with another parameter. -/
theorem functionOfTree_renameParameter (r : s.Records made earlier) {statement : Stmt}
    (h : functionOfTree s symbol parameters body = (.ok statement, s'))
    (own : x ∈ parameters.map Symbol.name)
    (other : ∀ parameter ∈ parameters, parameter.name ≠ x → parameter.name ≠ y)
    (unused : y ∉ body.names) :
    ∃ c v, statement.creations = [c] ∧ v ∈ c.parameters ∧ v.name = x ∧
      functionOfTree s symbol (parameters.map (Symbol.rename (replaced x y)))
          (body.rename (replaced x y))
        = (.ok (statement.rename (.only v.serial y)), s') := by
  obtain ⟨around, vs, inner, e, declared, received, resolved, rfl, rfl⟩ := functionOfTree_eq_ok.mp h
  have receives := receives_of_declareParameters received
  have declares := r.declare (d := ⟨symbol.name, .function parameters.length⟩) rfl rfl rfl declared
  have records := declares.receive receives
  obtain ⟨v, mem, named⟩ := List.mem_map.mp (receives.names ▸ own)
  -- Nothing that is found around the function is the parameter.
  have hidden := records.unmistakable.not_visible (List.mem_append_right _ List.mem_cons_self) mem
  rw [visible_append, List.map_singleton] at hidden
  have apart : ∀ name u, around.find? name = some u → u.serial ≠ v.serial := by
    intro name u found
    have seen := declares.mem_visible found
    rw [visible_append, List.map_singleton] at seen
    exact hidden u seen
  have outer : inner.outer = [around.locals] := by
    rw [receives.outer, show around.push.outer = around.locals :: around.outer from rfl,
      declares.single]
  have known : inner.locals.find? x ≠ none := by
    intro absent
    apply Frame.not_mem_of_find? absent
    rw [receives.locals_eq, List.map_reverse, List.mem_reverse, List.map_map, ← named]
    exact List.mem_map_of_mem mem
  -- Now the function with the new name is resolved step by step.
  have receivedAgain := received_swap received other mem named
  rw [show around.push.outer = around.locals :: around.outer from rfl, declares.single]
    at receivedAgain
  have resolvedAgain := exprOfTree_rename (σ := .only v.serial y) body fun name occurs =>
    find?_swap outer declares.single apart known fun same => unused (same ▸ occurs)
  rw [resolved] at resolvedAgain
  have itself : (s.newFunction symbol parameters.length true).rename (.only v.serial y)
      = s.newFunction symbol parameters.length true := by
    apply Function.rename_only_of_ne
    exact hidden (.func _) (List.mem_append_right _ List.mem_cons_self)
  refine ⟨_, v, rfl, mem, named, ?_⟩
  rw [Tree.map_rename_replaced other, Tree.rename_replaced unused, functionOfTree_eq_ok,
    List.length_map, Stmt.rename, itself]
  exact ⟨around, _, _, _, declared, receivedAgain, resolvedAgain, rfl, rfl⟩

end Inside

/-! ## Programs -/

/-- Among statements, renaming a parameter renames its entity. -/
theorem stmtsOfTrees_renameParameter {x y : String} {owner : Nat} {trees trees' : List Tree.Stmt}
    (renames : Tree.Stmt.RenamesParameter x y owner trees trees') {s s' : Scope}
    {made : List Creation} {earlier : List Declared} (r : s.Records made earlier) {ss : List Stmt}
    (h : Stmt.ofTrees s trees = ((ss, none), s')) :
    ∃ c v, (Stmt.creationsAll ss)[owner]? = some c ∧ v ∈ c.parameters ∧ v.name = x ∧
      Stmt.ofTrees s trees' = ((Stmt.renameAll (.only v.serial y) ss, none), s') := by
  induction renames generalizing s s' made earlier ss with
  | @here symbol parameters body span rest own other unused =>
    obtain ⟨statement, t, others, first, later, rfl⟩ := stmtsOfTrees_cons_eq_ok.mp h
    have step := (resolves_stmtOfTree r _ first).2
    -- The scope behind the function is the same, so what follows is resolved to the same.
    obtain ⟨c, v, made', mem, named, again⟩ :=
      functionOfTree_renameParameter r first own other unused
    refine ⟨c, v, ?_, mem, named, ?_⟩
    · rw [Stmt.creationsAll, made']
      rfl
    · have own : c ∈ made ++ statement.creations := by
        rw [made']
        exact List.mem_append_right _ List.mem_cons_self
      have kept := renameAll_behind (y := y) step.records later own mem
      rw [Stmt.renameAll, kept]
      exact stmtsOfTrees_cons_eq_ok.mpr ⟨_, t, others, again, later, rfl⟩
  | @inside owner test body body' rest braces span inner ih =>
    obtain ⟨statement, t, others, first, later, rfl⟩ := stmtsOfTrees_cons_eq_ok.mp h
    have step := (resolves_stmtOfTree r _ first).2
    obtain ⟨e, ss, found, resolved, rfl⟩ := stmtOfTree_loop_eq_ok.mp first
    obtain ⟨c, v, at_, mem, named, again⟩ := ih r resolved
    have listed := List.mem_of_getElem? at_
    have own : c ∈ made ++ (Stmt.loop e ss).creations := List.mem_append_right _ listed
    refine ⟨c, v, ?_, mem, named, ?_⟩
    · rw [Stmt.creationsAll, Stmt.creations,
        List.getElem?_append_left (List.getElem?_eq_some_iff.mp at_).1, at_]
    · -- The test cannot see the parameter either.
      have test_kept : e.rename (.only v.serial y) = e := by
        apply Expr.rename_eq_self
        intro u used
        apply Entity.rename_only_of_ne
        apply step.records.unmistakable.not_visible own mem
        rw [visible_append]
        exact List.mem_append_left _
          (visible_of_binds (binds_exprOfTree (serves_outside r) test found) u used)
      have kept := renameAll_behind (y := y) step.records later own mem
      rw [Stmt.renameAll, kept, Stmt.rename, test_kept]
      exact stmtsOfTrees_cons_eq_ok.mpr
        ⟨_, t, others, stmtOfTree_loop_eq_ok.mpr ⟨e, _, found, again, rfl⟩, later, rfl⟩
  | @behind owner tree rest rest' _ ih =>
    obtain ⟨statement, t, others, first, later, rfl⟩ := stmtsOfTrees_cons_eq_ok.mp h
    have step := (resolves_stmtOfTree r _ first).2
    have steps := (resolves_stmtsOfTrees step.records rest later).2
    obtain ⟨c, v, at_, mem, named, again⟩ := ih step.records later
    have kept := rename_before (y := y) r first steps.records (List.mem_of_getElem? at_) mem
    have lengths : statement.creations.length = tree.declares.length := by
      have names := congrArg List.length step.records.names
      have before := congrArg List.length r.names
      simp only [List.length_map, List.length_append] at names before
      omega
    refine ⟨c, v, ?_, mem, named, ?_⟩
    · rw [Stmt.creationsAll, ← lengths, List.getElem?_append_right (Nat.le_add_right _ _),
        Nat.add_sub_cancel_left, at_]
    · rw [Stmt.renameAll, kept]
      exact stmtsOfTrees_cons_eq_ok.mpr ⟨statement, t, _, first, again, rfl⟩

/-- **Renaming a parameter renames its entity and nothing else.** -/
theorem ofBlock_renameParameter {block : Tree.Block} {p : Program} {x y : String} {owner : Nat}
    {trees : List Tree.Stmt} (h : Program.ofBlock block = .ok p)
    (renames : Tree.Stmt.RenamesParameter x y owner block.body trees) :
    ∃ c v, p.creations[owner]? = some c ∧ v ∈ c.parameters ∧ v.name = x ∧
      Program.ofBlock ⟨trees, block.span⟩ = .ok (p.rename (.only v.serial y)) := by
  obtain ⟨s, resolved⟩ := ofBlock_eq_ok.mp h
  obtain ⟨c, v, at_, mem, named, again⟩ :=
    stmtsOfTrees_renameParameter renames records_root resolved
  exact ⟨c, v, at_, mem, named, ofBlock_eq_ok.mpr ⟨s, again⟩⟩

/-- **Names matter through what they are bound to, and in no other way.**  Renaming a whole program
renames what comes of it, if different names stay different and built-in names stay as they are.
Simplifying does not look at names.  And the name of a parameter may be any that its function has
no other use for. -/
theorem names_matter_through_binding :
    (∀ (ρ : String → String) (block : Tree.Block), Function.Injective ρ →
      (∀ name ∈ Builtin.names, ρ name = name) →
        Program.ofBlock (block.rename ρ)
          = ((Program.ofBlock block).map (Program.rename (.byName ρ))).mapError (Stop.rename ρ)) ∧
    (∀ (σ : Renaming) (p : Program), (p.rename σ).simplify = p.simplify.rename σ) ∧
    ∀ (block : Tree.Block) (p : Program) (x y : String) (owner : Nat) (trees : List Tree.Stmt),
      Program.ofBlock block = .ok p → Tree.Stmt.RenamesParameter x y owner block.body trees →
        ∃ c v, p.creations[owner]? = some c ∧ v ∈ c.parameters ∧ v.name = x ∧
          Program.ofBlock ⟨trees, block.span⟩ = .ok (p.rename (.only v.serial y)) := by
  refine ⟨?_, simplify_rename, ?_⟩
  · intro ρ block injective fixes
    exact ofBlock_rename injective fixes block
  · intro block p x y owner trees h renames
    exact ofBlock_renameParameter h renames

/-- The tree of `function f(x, n) = hypot(x, n);` with another name for `x`. -/
def hypotenuse (x : String) : Tree.Stmt :=
  .function ⟨"f", default⟩ [⟨x, default⟩, ⟨"n", default⟩]
    (.call ⟨"hypot", default⟩ [.symbol ⟨x, default⟩, .symbol ⟨"n", default⟩] default) default

/-- The tree of `let x = 2;`. -/
def outerVariable : Tree.Stmt := .declaration ⟨"x", default⟩ (.number 2 default) default

/-- The tree of `let x = 2; function f(x, n) = hypot(x, n); print f(x, 1);` with another name for
the parameter `x`. -/
def hidden (x : String) : Tree.Block :=
  ⟨[outerVariable, hypotenuse x,
    .print (.call ⟨"f", default⟩ [.symbol ⟨"x", default⟩, .number 1 default] default) default],
    default⟩

/-- The parameter `x` of `f` hides a variable.  The names `x` and `f` can be exchanged everywhere,
and the parameter can have the name of a built-in function. -/
theorem hidden_renamed : ∃ p, Program.ofBlock (hidden "x") = .ok p ∧
    Program.ofBlock ((hidden "x").rename (Equiv.swap "x" "f"))
      = .ok (p.rename (.byName (Equiv.swap "x" "f"))) ∧
    ∃ v : Variable, v.name = "x" ∧ Program.ofBlock (hidden "sqrt") = .ok (p.rename (.only v.serial "sqrt")) := by
  obtain ⟨everywhere, -, one⟩ := names_matter_through_binding
  have accepted : (Program.ofBlock (hidden "x")).toOption.isSome := by decide
  obtain ⟨p, found⟩ := Option.isSome_iff_exists.mp accepted
  have resolved := eq_ok_of_toOption found
  have exchanged := everywhere (Equiv.swap "x" "f") (hidden "x") (Equiv.injective _) (by decide)
  rw [resolved] at exchanged
  have first (rest : List Tree.Stmt) : Tree.Stmt.RenamesParameter "x" "sqrt" 0
      (hypotenuse "x" :: rest) (hypotenuse "sqrt" :: rest) :=
    -- The first function of the body is the one whose parameter changes its name.
    .here (by decide) (by decide) (by decide)
  have renames : Tree.Stmt.RenamesParameter "x" "sqrt" 1 (hidden "x").body (hidden "sqrt").body :=
    @Tree.Stmt.RenamesParameter.behind _ _ 0 outerVariable _ _ (first _)
  obtain ⟨c, v, -, -, named, again⟩ := one (hidden "x") p "x" "sqrt" 1 _ resolved renames
  exact ⟨p, resolved, exchanged, v, named, again⟩

end Resolved

end Frontend
