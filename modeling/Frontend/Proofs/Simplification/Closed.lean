import Frontend.Proofs.Resolving.Binding
import Frontend.Proofs.Simplification.Normal

/-!
# Entities without a declaration

Whether a tree has, in front of every use of an entity, what declares it.  Whoever walks such
a tree need not look up a name.

* **`Stmt.Closed`**: every entity that is used is a built-in one, a parameter of the function
  that uses it, that function itself, or declared earlier in the tree.
* **`closed_ofBlock`**: programs whose names were resolved are closed.
* **`Stmt.dropped`**: what the loops declare that simplifying drops.  Everything else that is
  declared stays where it is (`perm_simplifyAll`).
* **`closed_simplify_iff`**: a simplified program is closed exactly if it uses nothing that
  was declared in a dropped loop.

A loop that is never entered does declare what its body declares, for all that follows it.
Since it is dropped as a whole, a program may end up with an entity whose declaration is gone
(`orphan_not_closed`).
-/

namespace Frontend

/-- The entities that can be used behind what makes `made`. -/
def visible (made : List Creation) : List Entity :=
  Builtin.entities 0 ++ made.map Creation.entity

theorem visible_append (made more : List Creation) :
    visible (made ++ more) = visible made ++ more.map Creation.entity := by
  rw [visible, visible, List.map_append, List.append_assoc]

namespace Resolved

/-! ## Closed trees -/

mutual

/-- A statement uses what it can see behind what makes `made`. -/
def Stmt.Closed (made : List Creation) : Stmt → Prop
  | .declaration _ initializer => ∀ u ∈ initializer.uses, u ∈ visible made
  | .function f parameters body =>
    ∀ u ∈ body.uses, u ∈ visible made ++ (Creation.mk (.func f) parameters).entities
  | .assignment target source => ∀ u ∈ .var target :: source.uses, u ∈ visible made
  | .print argument => ∀ u ∈ argument.uses, u ∈ visible made
  | .loop test body => (∀ u ∈ test.uses, u ∈ visible made) ∧ Stmt.ClosedAll made body

/-- Statements use what they can see, each of them behind those before it. -/
def Stmt.ClosedAll (made : List Creation) : List Stmt → Prop
  | [] => True
  | s :: ss => s.Closed made ∧ Stmt.ClosedAll (made ++ s.creations) ss

end

/-- A program uses nothing but what it declares before and what is built in. -/
def Program.Closed (p : Program) : Prop := Stmt.ClosedAll [] p

/-! ## Resolved programs are closed -/

section Sees

variable {s s' : Scope} {made : List Creation} {earlier : List Declared} {u : Entity}

/-- The entity of an occurrence can be seen everywhere behind it, unless it is a parameter of the
function that the occurrence is in. -/
theorem mem_of_holds {o : Occurrence} (h : o.Holds made u) : u ∈ visible made ∨
    o.site.parameters ≠ [] ∧ ∃ c, made[o.site.earlier.length - 1]? = some c ∧ u ∈ c.entities := by
  obtain ⟨d, refers, created⟩ := h.bound
  cases refers with
  | parameter at_ =>
    -- The parameter belongs to the latest declaration before the occurrence.
    obtain ⟨v, found, same⟩ := Option.map_eq_some_iff.mp created
    obtain ⟨c, own, place⟩ := Option.bind_eq_some_iff.mp found
    right
    refine ⟨List.ne_nil_of_mem (List.mem_of_getElem? at_), c, own, ?_⟩
    rw [← same]
    exact List.mem_cons_of_mem _ (List.mem_map_of_mem (List.mem_of_getElem? place))
  | declared _ _ =>
    obtain ⟨c, at_, same⟩ := Option.map_eq_some_iff.mp created
    left
    rw [← same]
    exact List.mem_append_right _ (List.mem_map_of_mem (List.mem_of_getElem? at_))
  | builtin _ _ _ => exact .inl (List.mem_append_left _ (List.mem_of_getElem? created))

/-- The entity of an occurrence outside of functions can be seen. -/
theorem visible_of_holds {o : Occurrence} (outside : o.site.parameters = []) (h : o.Holds made u) :
    u ∈ visible made := by
  rcases mem_of_holds h with seen | ⟨inside, -⟩
  · exact seen
  · exact absurd outside inside

/-- What stands on the right of related lists is related to something on the left. -/
theorem exists_of_forall₂ {os : List Occurrence} {us : List Entity}
    (h : List.Forall₂ (Occurrence.Holds made) os us) : ∀ u ∈ us, ∃ o ∈ os, o.Holds made u := by
  induction h with
  | nil =>
    intro u h
    cases h
  | @cons o u os us holds rest ih =>
    rw [List.forall_mem_cons]
    refine ⟨⟨o, List.mem_cons_self, holds⟩, ?_⟩
    intro u' h
    obtain ⟨o', mem, holds'⟩ := ih u' h
    exact ⟨o', List.mem_cons_of_mem _ mem, holds'⟩

/-- Every use in an expression is one of its occurrences. -/
theorem exists_of_binds {site : Site} {tree : Tree.Expr} {e : Expr} (b : e.Binds made site tree) :
    ∀ u ∈ e.uses, ∃ o : Occurrence, o.site = site ∧ o.Holds made u := by
  intro u h
  obtain ⟨o, mem, holds⟩ := exists_of_forall₂ b.uses u h
  exact ⟨o, tree.site_of_mem_occurrences mem, holds⟩

/-- An expression outside of functions uses what it can see. -/
theorem visible_of_binds {tree : Tree.Expr} {e : Expr} (b : e.Binds made ⟨[], earlier⟩ tree) :
    ∀ u ∈ e.uses, u ∈ visible made := by
  intro u h
  obtain ⟨o, place, holds⟩ := exists_of_binds b u h
  exact visible_of_holds (by rw [place]) holds

/-- The body of a function uses what is made with the function and what it can see. -/
theorem visible_of_binds_inside {c : Creation} {d : Declared} {parameters : List String}
    {tree : Tree.Expr} {e : Expr} (lengths : earlier.length = made.length)
    (b : e.Binds (made ++ [c]) ⟨parameters, earlier ++ [d]⟩ tree) :
    ∀ u ∈ e.uses, u ∈ visible made ++ c.entities := by
  intro u h
  obtain ⟨o, place, holds⟩ := exists_of_binds b u h
  rcases mem_of_holds holds with seen | ⟨-, c', own, mem⟩
  -- Seen from outside the body, the new entity is visible itself.
  · rw [visible_append] at seen
    rcases List.mem_append.mp seen with seen | itself
    · exact List.mem_append_left _ seen
    · rw [List.map_cons, List.map_nil, List.mem_singleton] at itself
      rw [itself]
      exact List.mem_append_right _ List.mem_cons_self
  -- A parameter is found at the site of the latest creation, which is this one.
  · rw [place] at own
    have latest : (earlier ++ [d]).length - 1 = made.length := by
      rw [List.length_append, List.length_singleton, lengths]
      omega
    rw [latest, List.getElem?_concat_length] at own
    cases own
    exact List.mem_append_right _ mem

mutual

/-- A statement whose names are resolved is closed. -/
theorem closed_stmtOfTree {s s' : Scope} {made : List Creation} {earlier : List Declared}
    (r : s.Records made earlier) : (tree : Tree.Stmt) → {statement : Stmt} →
      Stmt.ofTree s tree = (.ok statement, s') → statement.Closed made
  | .declaration symbol value span, statement, h => by
    obtain ⟨v, initializer, rfl, -, inner, -⟩ := declaration_of_ok r h
    exact visible_of_binds inner
  | .function symbol parameters body span, statement, h => by
    obtain ⟨f, vs, e, rfl, -, -, inside, -⟩ := function_of_ok r h
    -- There are as many declarations recorded as entities created, so the places agree.
    have lengths := congrArg List.length r.names
    rw [List.length_map, List.length_map] at lengths
    exact visible_of_binds_inside lengths inside
  | .assignment symbol value span, statement, h => by
    obtain ⟨resolved, -⟩ := stmtOfTree_assignment_eq_ok.mp h
    obtain ⟨target, source, rfl, -, holds, inner⟩ := assignment_of_ok r resolved
    exact List.forall_mem_cons.mpr ⟨visible_of_holds rfl holds, visible_of_binds inner⟩
  | .print argument span, statement, h => by
    obtain ⟨e, found, rfl, -⟩ := stmtOfTree_print_eq_ok.mp h
    exact visible_of_binds (binds_exprOfTree (serves_outside r) argument found)
  | .loop test body braces span, statement, h => by
    obtain ⟨e, ss, found, resolved, rfl⟩ := stmtOfTree_loop_eq_ok.mp h
    have inner := visible_of_binds (binds_exprOfTree (serves_outside r) test found)
    exact ⟨inner, closed_stmtsOfTrees r body resolved⟩

/-- Statements whose names are resolved are closed. -/
theorem closed_stmtsOfTrees {s s' : Scope} {made : List Creation} {earlier : List Declared}
    (r : s.Records made earlier) : (trees : List Tree.Stmt) → {statements : List Stmt} →
      Stmt.ofTrees s trees = ((statements, none), s') → Stmt.ClosedAll made statements
  | [], statements, h => by
    cases h
    trivial
  | tree :: trees, statements, h => by
    obtain ⟨statement, t, others, first, later, rfl⟩ := stmtsOfTrees_cons_eq_ok.mp h
    have step := (resolves_stmtOfTree r tree first).2
    exact ⟨closed_stmtOfTree r tree first, closed_stmtsOfTrees step.records trees later⟩

end

end Sees

/-- Programs whose names are resolved are closed. -/
theorem closed_ofBlock {block : Tree.Block} {p : Program} (h : Program.ofBlock block = .ok p) :
    p.Closed := by
  obtain ⟨s, resolved⟩ := ofBlock_eq_ok.mp h
  exact closed_stmtsOfTrees Scope.records_root block.body resolved

/-! ## What simplifying drops -/

mutual

/-- What is declared in those loops of a statement that are dropped. -/
def Stmt.dropped : Stmt → List Creation
  | .loop test body =>
    if test.simplify.truthiness? = some false then Stmt.creationsAll body else Stmt.droppedAll body
  | _ => []

/-- What is declared in those loops of statements that are dropped. -/
def Stmt.droppedAll : List Stmt → List Creation
  | [] => []
  | s :: ss => s.dropped ++ Stmt.droppedAll ss

end

/-- The entities that are declared in those loops of a program that simplifying drops. -/
def Program.dropped (p : Program) : List Entity := (Stmt.droppedAll p).map Creation.entity

namespace Stmt

theorem creationsAll_append (ss ss' : List Stmt) :
    creationsAll (ss ++ ss') = creationsAll ss ++ creationsAll ss' := by
  induction ss with
  | nil => rfl
  | cons s ss ih => rw [List.cons_append, creationsAll, creationsAll, ih, List.append_assoc]

theorem creationsAll_singleton (s : Stmt) : creationsAll [s] = s.creations := by
  rw [creationsAll, creationsAll, List.append_nil]

mutual

/-- Everything that a statement declares is either kept or dropped with a loop. -/
theorem perm_simplify? : (s : Stmt) →
    (creationsAll s.simplify?.toList ++ s.dropped).Perm s.creations
  | .declaration v initializer => by
    rw [simplify?, Option.toList_some, creationsAll_singleton]
    exact .refl _
  | .function f parameters body => by
    rw [simplify?, Option.toList_some, creationsAll_singleton]
    exact .refl _
  | .assignment target source => by
    rw [simplify?]
    split
    · exact .refl _
    · exact .refl _
  | .print argument => by
    rw [simplify?]
    exact .refl _
  | .loop test body => by
    rw [simplify?, dropped, creations]
    -- A dead loop drops all that its body makes; any other keeps what its body keeps.
    by_cases dead : test.simplify.truthiness? = some false
    · rw [if_pos dead, if_pos dead]
      exact .refl _
    · rw [if_neg dead, if_neg dead, Option.toList_some, creationsAll_singleton, creations]
      exact perm_simplifyAll body

/-- Everything that statements declare is either kept or dropped with a loop. -/
theorem perm_simplifyAll : (ss : List Stmt) →
    (creationsAll (simplifyAll ss) ++ droppedAll ss).Perm (creationsAll ss)
  | [] => .refl _
  | s :: ss => by
    have first := perm_simplify? s
    have others := perm_simplifyAll ss
    rw [simplifyAll_cons, creationsAll_append, droppedAll, creationsAll]
    refine List.Perm.trans ?_ (first.append others)
    rw [List.append_assoc, List.append_assoc]
    exact List.Perm.append_left _ (List.perm_append_comm_assoc _ _ _)

end

end Stmt

/-! ## What simplifying keeps -/

namespace Expr

theorem uses_of_isLiteral {e : Expr} (h : e.isLiteral) : e.uses = [] := by
  cases e with
  | number | boolean => rfl
  | var | binary | unary | conditional | call => cases h

theorem Remains.uses {left right e : Expr} (h : Remains left right e) :
    ∀ u ∈ e.uses, u ∈ left.uses ++ right.uses := by
  intro u used
  rcases h with rfl | rfl | literal
  · exact List.mem_append_left _ used
  · exact List.mem_append_right _ used
  · rw [uses_of_isLiteral literal] at used
    cases used

mutual

/-- Simplifying brings no new entity into an expression. -/
theorem uses_simplify {u : Entity} : (e : Expr) → u ∈ e.simplify.uses → u ∈ e.uses
  | .number _, h | .boolean _, h | .var _, h => h
  | .binary operator left right, h => by
    -- What folding leaves behind uses no more than its operands.
    have parts : u ∈ left.simplify.uses ++ right.simplify.uses := by
      rw [simplify] at h
      rcases foldBinary_cases operator left.simplify right.simplify with ⟨-, kept⟩ | ⟨-, remains⟩
      · rwa [kept] at h
      · exact remains.uses u h
    rcases List.mem_append.mp parts with h | h
    · exact List.mem_append_left _ (uses_simplify left h)
    · exact List.mem_append_right _ (uses_simplify right h)
  | .unary operator operand, h => by
    rw [simplify] at h
    rcases foldUnary_cases operator operand.simplify with ⟨-, kept⟩ | ⟨-, literal⟩
    · rw [kept] at h
      exact uses_simplify operand h
    · rw [uses_of_isLiteral literal] at h
      cases h
  | .conditional test consequent alternate, h => by
    -- Of a conditional with a known test one branch is left.
    have parts : u ∈ test.simplify.uses ++ (consequent.simplify.uses ++ alternate.simplify.uses) := by
      rw [simplify] at h
      split at h
      · exact List.mem_append_right _ (List.mem_append_left _ h)
      · exact List.mem_append_right _ (List.mem_append_right _ h)
      · exact h
    rw [uses]
    rcases List.mem_append.mp parts with h | h
    · exact List.mem_append_left _ (uses_simplify test h)
    · rcases List.mem_append.mp h with h | h
      · exact List.mem_append_right _ (List.mem_append_left _ (uses_simplify consequent h))
      · exact List.mem_append_right _ (List.mem_append_right _ (uses_simplify alternate h))
  | .call callee arguments, h => by
    rw [simplify] at h
    rcases List.mem_cons.mp h with h | h
    · rw [h]
      exact List.mem_cons_self
    · exact List.mem_cons_of_mem _ (uses_simplifyAll arguments h)

theorem uses_simplifyAll {u : Entity} : (es : List Expr) → u ∈ usesAll (simplifyAll es) →
    u ∈ usesAll es
  | [], h => h
  | e :: es, h => by
    rcases List.mem_append.mp h with h | h
    · exact List.mem_append_left _ (uses_simplify e h)
    · exact List.mem_append_right _ (uses_simplifyAll es h)

end

end Expr

namespace Stmt

theorem usesAll_append (ss ss' : List Stmt) : usesAll (ss ++ ss') = usesAll ss ++ usesAll ss' := by
  induction ss with
  | nil => rfl
  | cons s ss ih => rw [List.cons_append, usesAll, usesAll, ih, List.append_assoc]

theorem usesAll_singleton (s : Stmt) : usesAll [s] = s.uses := by
  rw [usesAll, usesAll, List.append_nil]

theorem closedAll_append {made : List Creation} {ss ss' : List Stmt} :
    ClosedAll made (ss ++ ss') ↔ ClosedAll made ss ∧ ClosedAll (made ++ creationsAll ss) ss' := by
  induction ss generalizing made with
  | nil => rw [List.nil_append, ClosedAll, creationsAll, List.append_nil, true_and]
  | cons s ss ih =>
    rw [List.cons_append, ClosedAll, ClosedAll, ih, creationsAll, List.append_assoc, and_assoc]

theorem closedAll_singleton {made : List Creation} {s : Stmt} : ClosedAll made [s] ↔ s.Closed made := by
  rw [ClosedAll, ClosedAll, and_true]

/-- What is declared in `made` is also declared in `made'`, unless it is lost. -/
def Covers (made made' lost : List Creation) : Prop := ∀ c ∈ made, c ∈ made' ∨ c ∈ lost

section Covers

variable {made made' lost : List Creation}

/-- What is not lost can still be seen. -/
theorem Covers.mem_visible (covers : Covers made made' lost) {u : Entity} (seen : u ∈ visible made)
    (spared : u ∉ lost.map Creation.entity) : u ∈ visible made' := by
  rcases List.mem_append.mp seen with builtin | declared
  · exact List.mem_append_left _ builtin
  · obtain ⟨c, mem, rfl⟩ := List.mem_map.mp declared
    rcases covers c mem with kept | gone
    · exact List.mem_append_right _ (List.mem_map_of_mem kept)
    · exact absurd (List.mem_map_of_mem gone) spared

/-- Behind a statement, what is not kept of it is lost. -/
theorem Covers.step (covers : Covers made made' lost) (s : Stmt) (gone : ∀ c ∈ s.dropped, c ∈ lost) :
    Covers (made ++ s.creations) (made' ++ creationsAll s.simplify?.toList) lost := by
  intro c mem
  rcases List.mem_append.mp mem with before | own
  · rcases covers c before with kept | lost'
    · exact .inl (List.mem_append_left _ kept)
    · exact .inr lost'
  · rcases List.mem_append.mp ((perm_simplify? s).mem_iff.mpr own) with kept | dropped
    · exact .inl (List.mem_append_right _ kept)
    · exact .inr (gone c dropped)

/-- An expression that uses nothing that is lost can do without it. -/
theorem Covers.uses (covers : Covers made made' lost) {e : Expr}
    (closed : ∀ u ∈ e.uses, u ∈ visible made)
    (spares : ∀ u ∈ e.simplify.uses, u ∉ lost.map Creation.entity) :
    ∀ u ∈ e.simplify.uses, u ∈ visible made' := by
  intro u used
  exact covers.mem_visible (closed u (Expr.uses_simplify e used)) (spares u used)

end Covers

mutual

/-- What is left of a closed statement is closed if it uses nothing that is lost. -/
theorem closed_simplify? {made made' lost : List Creation} (covers : Covers made made' lost) :
    (s : Stmt) → s.Closed made → (∀ c ∈ s.dropped, c ∈ lost) →
      (∀ u ∈ usesAll s.simplify?.toList, u ∉ lost.map Creation.entity) →
        ClosedAll made' s.simplify?.toList
  | .declaration v initializer, closed, gone, spares => by
    rw [simplify?, Option.toList_some, usesAll_singleton] at spares
    rw [simplify?, Option.toList_some, closedAll_singleton]
    exact covers.uses closed spares
  | .function f parameters body, closed, gone, spares => by
    rw [simplify?, Option.toList_some, usesAll_singleton] at spares
    rw [simplify?, Option.toList_some, closedAll_singleton]
    intro u used
    rcases List.mem_append.mp (closed u (Expr.uses_simplify body used)) with seen | own
    · exact List.mem_append_left _ (covers.mem_visible seen (spares u used))
    · exact List.mem_append_right _ own
  | .assignment target source, closed, gone, spares => by
    rw [simplify?] at spares ⊢
    split at spares
    · rename_i self
      rw [if_pos self]
      trivial
    · rename_i other
      rw [Option.toList_some, usesAll_singleton] at spares
      rw [if_neg other, Option.toList_some, closedAll_singleton]
      obtain ⟨closedTarget, closedSource⟩ := List.forall_mem_cons.mp closed
      obtain ⟨sparesTarget, sparesSource⟩ := List.forall_mem_cons.mp spares
      exact List.forall_mem_cons.mpr
        ⟨covers.mem_visible closedTarget sparesTarget, covers.uses closedSource sparesSource⟩
  | .print argument, closed, gone, spares => by
    rw [simplify?, Option.toList_some, usesAll_singleton] at spares
    rw [simplify?, Option.toList_some, closedAll_singleton]
    exact covers.uses closed spares
  | .loop test body, closed, gone, spares => by
    rw [simplify?] at spares ⊢
    rw [dropped] at gone
    by_cases dead : test.simplify.truthiness? = some false
    · rw [if_pos dead]
      trivial
    · rw [if_neg dead, Option.toList_some, usesAll_singleton, uses, List.forall_mem_append] at spares
      -- The body sees what the loop sees, before and after.
      rw [if_neg dead] at gone
      rw [if_neg dead, Option.toList_some, closedAll_singleton]
      exact ⟨covers.uses closed.1 spares.1, closed_simplifyAll covers body closed.2 gone spares.2⟩

/-- What is left of closed statements is closed if it uses nothing that is lost. -/
theorem closed_simplifyAll {made made' lost : List Creation} (covers : Covers made made' lost) :
    (ss : List Stmt) → ClosedAll made ss → (∀ c ∈ droppedAll ss, c ∈ lost) →
      (∀ u ∈ usesAll (simplifyAll ss), u ∉ lost.map Creation.entity) →
        ClosedAll made' (simplifyAll ss)
  | [], _, _, _ => trivial
  | s :: ss, closed, gone, spares => by
    rw [simplifyAll_cons, usesAll_append, List.forall_mem_append] at spares
    rw [droppedAll, List.forall_mem_append] at gone
    rw [simplifyAll_cons, closedAll_append]
    exact ⟨closed_simplify? covers s closed.1 gone.1 spares.1,
      closed_simplifyAll (covers.step s gone.1) ss closed.2 gone.2 spares.2⟩

end

mutual

/-- What a closed statement uses can be seen before it, or is made by it. -/
theorem uses_of_closed {made : List Creation} {u : Entity} : (s : Stmt) → s.Closed made →
    u ∈ s.uses → u ∈ visible made ∨ ∃ c ∈ s.creations, u ∈ c.entities
  | .declaration .., closed, used | .assignment .., closed, used | .print _, closed, used =>
    .inl (closed u used)
  | .function f parameters body, closed, used => by
    rcases List.mem_append.mp (closed u used) with seen | own
    · exact .inl seen
    · exact .inr ⟨_, List.mem_singleton_self _, own⟩
  | .loop test body, closed, used => by
    rcases List.mem_append.mp used with used | used
    · exact .inl (closed.1 u used)
    · exact usesAll_of_closed body closed.2 used

/-- What closed statements use can be seen before them, or is made by one of them. -/
theorem usesAll_of_closed {made : List Creation} {u : Entity} : (ss : List Stmt) →
    ClosedAll made ss → u ∈ usesAll ss → u ∈ visible made ∨ ∃ c ∈ creationsAll ss, u ∈ c.entities
  | [], _, used => by cases used
  | s :: ss, closed, used => by
    rcases List.mem_append.mp used with used | used
    · rcases uses_of_closed s closed.1 used with seen | ⟨c, mem, own⟩
      · exact .inl seen
      · exact .inr ⟨c, List.mem_append_left _ mem, own⟩
    · rcases usesAll_of_closed ss closed.2 used with seen | ⟨c, mem, own⟩
      · rw [visible_append] at seen
        rcases List.mem_append.mp seen with seen | earlier
        · exact .inl seen
        · obtain ⟨c, mem, rfl⟩ := List.mem_map.mp earlier
          exact .inr ⟨c, List.mem_append_left _ mem, List.mem_cons_self⟩
      · exact .inr ⟨c, List.mem_append_right _ mem, own⟩

end

end Stmt

/-! ## Programs -/

section Programs

variable {block : Tree.Block} {p : Program}

/-- What is dropped is neither built in nor made by what is kept. -/
theorem not_kept_of_dropped (unmistakable : Unmistakable p.creations) {u : Entity}
    (gone : u ∈ p.dropped) : u ∉ Builtin.entities 0 ∧
      ∀ c ∈ p.simplify.creations, u ∉ c.entities := by
  obtain ⟨-, -, apart, others⟩ := unmistakable.parts
  have perm : (p.simplify.creations ++ Stmt.droppedAll p).Perm p.creations :=
    Stmt.perm_simplifyAll p
  obtain ⟨c, mem, rfl⟩ := List.mem_map.mp gone
  have made : c ∈ p.creations := perm.mem_iff.mp (List.mem_append_right _ mem)
  constructor
  · intro builtin
    exact others _ builtin c made _ List.mem_cons_self rfl
  · intro c' kept own
    have separate := (perm.pairwise_iff List.disjoint_symm).mpr apart
    have disjoint := (List.pairwise_append.mp separate).2.2 c' kept c mem
    exact disjoint (List.mem_map_of_mem own) (List.mem_map_of_mem List.mem_cons_self)

/-- A simplified program is closed exactly if it uses nothing that was declared in a loop that
was dropped. -/
theorem closed_simplify_iff (h : Program.ofBlock block = .ok p) :
    p.simplify.Closed ↔ ∀ u ∈ p.simplify.uses, u ∉ p.dropped := by
  constructor
  · -- What is used is built in or made by what is kept, and that was not dropped as well.
    intro closed u used gone
    obtain ⟨notBuiltin, notKept⟩ := not_kept_of_dropped (unmistakable_ofBlock h) gone
    rcases Stmt.usesAll_of_closed p.simplify closed used with seen | ⟨c, mem, own⟩
    · unfold visible at seen
      rw [List.map_nil, List.append_nil] at seen
      exact notBuiltin seen
    · exact notKept c mem own
  · -- Nothing is made before a program, so nothing is missing there.
    intro spares
    have covers : Stmt.Covers [] [] (Stmt.droppedAll p) := by
      intro c mem
      cases mem
    exact Stmt.closed_simplifyAll covers p (closed_ofBlock h) (fun c mem => mem) spares

end Programs

/-- A variable from the body of a loop that is never entered, and one that is used. -/
def unentered : String := "let x = 1; while false \x7b let y = x; \x7d print x;"

/-- The loop in `unentered` is dropped, and nothing that it declares is missed. -/
theorem unentered_closed : ∃ block p, Program.ofBlock block = .ok p ∧ p.dropped ≠ [] ∧
    p.simplify.Closed := by
  have spared : (analyzed unentered).toOption.map
      (fun p => decide (p.dropped ≠ [] ∧ ∀ u ∈ p.simplify.uses, u ∉ p.dropped)) = some true := by
    decide +kernel
  obtain ⟨p, accepted, holds⟩ := Option.map_eq_some_iff.mp spared
  obtain ⟨some, spares⟩ := of_decide_eq_true holds
  obtain ⟨block, -, resolved⟩ := exists_ofBlock_eq (eq_ok_of_toOption accepted)
  exact ⟨block, p, resolved, some, (closed_simplify_iff resolved).mpr spares⟩

/-- A variable from the body of a loop that is never entered, used behind it. -/
def orphan : String := "while false \x7b let y = 1; \x7d print y;"

/-- The program `orphan` is accepted, and its simplified form uses a variable that nothing
declares any more. -/
theorem orphan_not_closed : ∃ block p, Program.ofBlock block = .ok p ∧ p.Closed ∧
    ¬ p.simplify.Closed := by
  have missed : (analyzed orphan).toOption.map (fun p => decide (∃ u ∈ p.simplify.uses,
      u ∉ visible [] ∧ ∀ c ∈ p.simplify.creations, u ∉ c.entities)) = some true := by
    decide +kernel
  obtain ⟨p, accepted, holds⟩ := Option.map_eq_some_iff.mp missed
  obtain ⟨u, used, unseen, unmade⟩ := of_decide_eq_true holds
  obtain ⟨block, -, resolved⟩ := exists_ofBlock_eq (eq_ok_of_toOption accepted)
  refine ⟨block, p, resolved, closed_ofBlock resolved, ?_⟩
  intro closed
  rcases Stmt.usesAll_of_closed p.simplify closed used with seen | ⟨c, mem, own⟩
  · exact unseen seen
  · exact unmade c mem own

end Resolved

end Frontend
