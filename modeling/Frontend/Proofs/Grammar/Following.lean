import Frontend.Proofs.Grammar.Spelling
import Frontend.Proofs.Grammar.Tracking

/-!
# One reading follows another

All that a reading ever does with a cursor is to look at the current token, to tell an assignment
from the token behind it, to ask where the latest token ended, and to go past a token that is not
the end of the text.  So a second reading of the same phrase does the same at another cursor, if
that cursor shows the same whenever it is asked.

* **`View`**: another cursor for every cursor that is covered, which shows the same.  Covered
  cursors stay covered when a token other than the end of the text is passed.
* **`Follows`**: seen through a view, the second step does what the first one does, unless the
  first one runs out of fuel.  In any case the first one stays among the covered cursors.
* **`expr_follows`**, **`statement_follows`**, **`statements_follows`**: readings with more fuel
  follow readings with less, through every view.

Three facts come from this by a choice of the view alone: more fuel changes nothing, no end of the
text is ever passed, and what stands behind the first end of the text does not matter.
-/

namespace Frontend

/-- Another cursor for every cursor that is covered, which shows the same. -/
structure View where
  see : Cursor → Cursor
  Covers : Cursor → Prop
  current_see : ∀ {c}, Covers c → (see c).current = c.current
  previousStop_see : ∀ {c}, Covers c → (see c).previousStop = c.previousStop
  /-- Behind the end of the text, the cursors may see different tokens. -/
  peek_see : ∀ {c}, Covers c → c.current.kind ≠ .eof → (see c).peek = c.peek
  covers_advance : ∀ {c}, Covers c → c.current.kind ≠ .eof → Covers c.advance
  see_advance : ∀ {c}, Covers c → c.current.kind ≠ .eof → see c.advance = (see c).advance

/-- An outcome at the cursor that is seen. -/
def View.shown {α : Type} (view : View) :
    EStateM.Result Stop Cursor α → EStateM.Result Stop Cursor α
  | .ok x d => .ok x (view.see d)
  | .error stop d => .error stop (view.see d)

/-- From `c` on, the first step stays among the cursors that are covered, and the second one does
the same at the cursors that are seen, unless the first one runs out of fuel. -/
def Follows {α : Type} (view : View) (p q : Parse α) (c : Cursor) : Prop :=
  view.Covers c → view.Covers (p.final c) ∧
    ((∃ d, p.run c = .error .exhausted d) ∨ q.run (view.see c) = view.shown (p.run c))

namespace Follows

variable {α β : Type} {view : View} {p q : Parse α} {c : Cursor}

theorem pure (x : α) : Follows view (Pure.pure x) (Pure.pure x) c := by
  intro covers
  exact ⟨covers, Or.inr rfl⟩

theorem throw (stop : Stop) :
    Follows view (MonadExcept.throw stop : Parse α) (MonadExcept.throw stop) c := by
  intro covers
  exact ⟨covers, Or.inr rfl⟩

/-- Where there is no fuel, nothing is said of the other step. -/
theorem exhausted (q : Parse α) : Follows view Parse.exhausted q c := by
  intro covers
  exact ⟨covers, Or.inl ⟨c, rfl⟩⟩

/-- One step after the other. -/
theorem bind {f g : α → Parse β} (first : Follows view p q c)
    (rest : ∀ x d, p.Yields c x d → Follows view (f x) (g x) d) :
    Follows view (p >>= f) (q >>= g) c := by
  intro covers
  obtain ⟨kept, same⟩ := first covers
  rw [Parse.final_bind, Parse.run_bind, Parse.run_bind]
  -- In the other run, the first step has done the same or has run out of fuel.
  unfold Parse.final at kept
  cases read : p.run c with
  | ok x d =>
    rw [read] at kept same
    rcases same with ⟨_, stopped⟩ | same
    · cases stopped
    · rw [same]
      exact rest x d read kept
  | error stop d =>
    rw [read] at kept same
    refine ⟨kept, ?_⟩
    rcases same with ⟨_, stopped⟩ | same
    · -- Where the first step has no fuel, neither has the chain.
      cases stopped
      exact Or.inl ⟨d, rfl⟩
    · rw [same]
      exact Or.inr rfl

/-- Steps that go the same way. -/
theorem ite {P : Prop} [Decidable P] {p' q' : Parse α} (yes : P → Follows view p q c)
    (no : ¬ P → Follows view p' q' c) :
    Follows view (if P then p else p') (if P then q else q') c := by
  by_cases h : P
  · rw [if_pos h, if_pos h]
    exact yes h
  · rw [if_neg h, if_neg h]
    exact no h

/-- A step that goes by the kind of the token to be read. -/
theorem kind_bind {f g : Kind → Parse α}
    (rest : Follows view (f c.current.kind) (g c.current.kind) c) :
    Follows view (Parse.kind >>= f) (Parse.kind >>= g) c := by
  intro covers
  have same : (Parse.kind >>= g).run (view.see c) = (g c.current.kind).run (view.see c) := by
    rw [← view.current_see covers]
    rfl
  rw [same]
  exact rest covers

theorem advance (word : c.current.kind ≠ .eof) : Follows view Parse.advance Parse.advance c := by
  intro covers
  refine ⟨view.covers_advance covers word, Or.inr ?_⟩
  show EStateM.Result.ok (view.see c).current (view.see c).advance =
    .ok c.current (view.see c.advance)
  rw [view.current_see covers, view.see_advance covers word]

theorem current_bind {f g : Token → Parse α} (rest : Follows view (f c.current) (g c.current) c) :
    Follows view (Parse.current >>= f) (Parse.current >>= g) c := by
  intro covers
  have same : (Parse.current >>= g).run (view.see c) = (g c.current).run (view.see c) := by
    rw [← view.current_see covers]
    rfl
  rw [same]
  exact rest covers

theorem misplaced (reason : String) :
    Follows view (Parse.misplaced reason : Parse α) (Parse.misplaced reason) c :=
  current_bind (throw _)

theorem expectOr {k : Kind} (word : k ≠ .eof) (otherwise : Diagnostic) :
    Follows view (Parse.expectOr k otherwise) (Parse.expectOr k otherwise) c := by
  refine current_bind (ite (fun same => advance ?_) fun _ => throw _)
  rw [same]
  exact word

theorem expect {k : Kind} (word : k ≠ .eof) : Follows view (Parse.expect k) (Parse.expect k) c :=
  current_bind (expectOr word _)

theorem expectFor {k : Kind} (word : k ≠ .eof) (reason : String) :
    Follows view (Parse.expectFor k reason) (Parse.expectFor k reason) c :=
  current_bind (expectOr word _)

end Follows

namespace Grammar

open Frontend.Tree (Expr Stmt Block)

/-! ## Expressions -/

/-- The second way to read the expressions inside others follows the first one. -/
def FollowsInner (view : View) (inner inner' : Power → Parse Expr) : Prop :=
  ∀ power c, Follows view (inner power) (inner' power) c

variable {view : View} {inner inner' : Power → Parse Expr} {c : Cursor} {fuel fuel' : Nat}

section

variable (follows : FollowsInner view inner inner')
include follows

theorem opening_follows :
    Follows view (opening Table.language inner) (opening Table.language inner') c := by
  refine Follows.kind_bind ?_
  cases opens : Table.language.opening? c.current.kind with
  | none => exact Follows.misplaced _
  | some what =>
    -- A token that opens something is not the end, so that both cursors move past it.
    have word := openings_kind opens
    cases what with
    | number =>
      refine (Follows.advance word).bind fun t d _ => ?_
      cases Number.ofText? t.text with
      | some value => exact Follows.pure _
      | none => exact Follows.throw _
    | boolean | symbol => exact (Follows.advance word).bind fun _ _ _ => Follows.pure _
    | unary =>
      refine (Follows.advance word).bind fun _ d _ => ?_
      exact (follows _ d).bind fun _ _ _ => Follows.pure _
    | group =>
      refine (Follows.expect (by decide)).bind fun _ d _ => ?_
      refine (follows _ d).bind fun _ _ _ => ?_
      exact (Follows.expect (by decide)).bind fun _ _ _ => Follows.pure _

theorem arguments_follows (more : fuel ≤ fuel') :
    Follows view (arguments inner fuel) (arguments inner' fuel') c := by
  induction fuel generalizing c fuel' with
  | zero => exact Follows.exhausted _
  | succ fuel ih =>
    obtain ⟨fuel', rfl⟩ : ∃ n, fuel' = n + 1 := ⟨fuel' - 1, by omega⟩
    refine (follows _ c).bind fun _ _ _ => Follows.kind_bind ?_
    refine Follows.ite (fun comma => ?_) fun _ => Follows.pure _
    refine (Follows.advance (by rw [comma]; decide)).bind fun _ _ _ => ?_
    exact (ih (Nat.le_of_succ_le_succ more)).bind fun _ _ _ => Follows.pure _

theorem branches_follows (test : Expr) :
    Follows view (branches inner test) (branches inner' test) c := by
  refine (Follows.expect (by decide)).bind fun _ d _ => ?_
  refine (follows _ d).bind fun _ _ _ => ?_
  refine (Follows.expectFor (by decide) _).bind fun _ d _ => ?_
  exact (follows _ d).bind fun _ _ _ => Follows.pure _

theorem rightOperand_follows (left : Expr) (power : Power) (word : c.current.kind ≠ .eof) :
    Follows view (rightOperand inner left power) (rightOperand inner' left power) c := by
  refine (Follows.advance word).bind fun _ d _ => ?_
  exact (follows _ d).bind fun _ _ _ => Follows.pure _

omit follows in
theorem refuseComparison_follows :
    Follows view (refuseComparison Table.language) (refuseComparison Table.language) c := by
  refine Follows.kind_bind ?_
  exact Follows.ite (fun _ => Follows.misplaced _) fun _ => Follows.pure _

theorem callOf_follows (more : fuel ≤ fuel') (callee : Expr) :
    Follows view (callOf inner fuel callee) (callOf inner' fuel' callee) c := by
  cases callee with
  | symbol symbol =>
    rw [callOf_symbol, callOf_symbol]
    refine (Follows.expect (by decide)).bind fun _ _ _ => Follows.kind_bind ?_
    refine (Follows.ite (fun _ => Follows.pure []) fun _ => ?_).bind fun _ _ _ => ?_
    · exact arguments_follows follows more
    · exact (Follows.expect (by decide)).bind fun _ _ _ => Follows.pure _
  | _ => exact Follows.misplaced _

theorem continuation_follows (more : fuel ≤ fuel') (left : Expr) {own : Power} {form : Continuation}
    (goes : Table.language.continuation? c.current.kind = some (own, form)) :
    Follows view (continuation Table.language inner fuel left own form)
      (continuation Table.language inner' fuel' left own form) c := by
  have word := continuations_kind goes
  cases form with
  | conditional => exact branches_follows follows left
  | binary =>
    refine (rightOperand_follows follows left own word).bind fun _ _ _ => ?_
    refine Follows.ite (fun _ => ?_) fun _ => Follows.pure _
    exact refuseComparison_follows.bind fun _ _ _ => Follows.pure _
  | exponent => exact rightOperand_follows follows left _ word
  | call => exact callOf_follows follows more left

theorem continueWhile_follows (more : fuel ≤ fuel') (power : Power) (left : Expr) :
    Follows view (continueWhile Table.language inner power fuel left)
      (continueWhile Table.language inner' power fuel' left) c := by
  induction fuel generalizing c fuel' left with
  | zero => exact Follows.exhausted _
  | succ fuel ih =>
    obtain ⟨fuel', rfl⟩ : ∃ n, fuel' = n + 1 := ⟨fuel' - 1, by omega⟩
    have more := Nat.le_of_succ_le_succ more
    refine Follows.kind_bind ?_
    cases goes : Table.language.continuation? c.current.kind with
    -- The loop of fewer rounds decides: where it stops, the longer one stops as well.
    | none => exact Follows.pure _
    | some entry =>
      obtain ⟨own, form⟩ := entry
      by_cases loose : own ≤ power
      · simp only [if_pos loose]
        exact Follows.pure _
      · simp only [if_neg loose]
        refine (continuation_follows follows more left goes).bind fun longer _ _ => ?_
        exact ih more longer

end

/-- An expression is read with more fuel as it is read with less. -/
theorem expr_follows (more : fuel ≤ fuel') :
    FollowsInner view (expr Table.language fuel) (expr Table.language fuel') := by
  induction fuel generalizing fuel' with
  | zero =>
    intro power c
    exact Follows.exhausted _
  | succ fuel ih =>
    obtain ⟨fuel', rfl⟩ : ∃ n, fuel' = n + 1 := ⟨fuel' - 1, by omega⟩
    have inside : FollowsInner view (expr Table.language fuel) (expr Table.language fuel') :=
      ih (Nat.le_of_succ_le_succ more)
    intro power c
    -- The loop behind the opening counts with the same fuel as the expressions inside.
    refine (opening_follows inside).bind fun left _ _ => ?_
    exact continueWhile_follows inside more power left

/-! ## Statements -/

theorem identifier_follows (context : String) :
    Follows view (identifier context) (identifier context) c :=
  (Follows.expectFor (by decide) _).bind fun _ _ _ => Follows.pure _

theorem parameters_follows (more : fuel ≤ fuel') :
    Follows view (parameters fuel) (parameters fuel') c := by
  induction fuel generalizing c fuel' with
  | zero => exact Follows.exhausted _
  | succ fuel ih =>
    obtain ⟨fuel', rfl⟩ : ∃ n, fuel' = n + 1 := ⟨fuel' - 1, by omega⟩
    refine (identifier_follows _).bind fun _ _ _ => Follows.kind_bind ?_
    refine Follows.ite (fun comma => ?_) fun _ => Follows.pure _
    refine (Follows.advance (by rw [comma]; decide)).bind fun _ _ _ => ?_
    exact (ih (Nat.le_of_succ_le_succ more)).bind fun _ _ _ => Follows.pure _

theorem assigned_follows (more : fuel ≤ fuel') :
    Follows view (assigned Table.language fuel) (assigned Table.language fuel') c := by
  refine (Follows.expect (by decide)).bind fun _ d _ => ?_
  refine (expr_follows more _ d).bind fun _ _ _ => ?_
  exact (Follows.expect (by decide)).bind fun _ _ _ => Follows.pure _

theorem spanFrom_follows (start : Position) : Follows view (spanFrom start) (spanFrom start) c := by
  intro covers
  refine ⟨covers, Or.inr ?_⟩
  show EStateM.Result.ok (Span.mk start (view.see c).previousStop) (view.see c) =
    .ok (Span.mk start c.previousStop) (view.see c)
  rw [view.previousStop_see covers]

/-- Whatever a statement is made of, its span is the last thing that is asked for. -/
theorem spanFrom_bind_follows (start : Position) (make : Span → Stmt) :
    Follows view (do return make (← spanFrom start)) (do return make (← spanFrom start)) c :=
  (spanFrom_follows start).bind fun _ _ _ => Follows.pure _

theorem declaration_follows (more : fuel ≤ fuel') (word : c.current.kind ≠ .eof) :
    Follows view (declaration Table.language fuel) (declaration Table.language fuel') c := by
  refine (Follows.advance word).bind fun _ _ _ => ?_
  refine (identifier_follows _).bind fun _ _ _ => ?_
  refine (assigned_follows more).bind fun _ _ _ => ?_
  exact spanFrom_bind_follows _ _

theorem function_follows (more : fuel ≤ fuel') (word : c.current.kind ≠ .eof) :
    Follows view (function Table.language fuel) (function Table.language fuel') c := by
  rw [function_eq, function_eq]
  refine (Follows.advance word).bind fun _ _ _ => ?_
  refine (identifier_follows _).bind fun _ _ _ => ?_
  refine (Follows.expect (by decide)).bind fun _ _ _ => Follows.kind_bind ?_
  refine (Follows.ite (fun _ => Follows.pure []) fun _ => ?_).bind fun _ _ _ => ?_
  · exact parameters_follows more
  · refine (Follows.expect (by decide)).bind fun _ _ _ => ?_
    refine (assigned_follows more).bind fun _ _ _ => ?_
    exact spanFrom_bind_follows _ _

theorem assignment_follows (more : fuel ≤ fuel') :
    Follows view (assignment Table.language fuel) (assignment Table.language fuel') c := by
  refine (identifier_follows _).bind fun _ _ _ => ?_
  refine (assigned_follows more).bind fun _ _ _ => ?_
  exact spanFrom_bind_follows _ _

theorem print_follows (more : fuel ≤ fuel') (word : c.current.kind ≠ .eof) :
    Follows view (print Table.language fuel) (print Table.language fuel') c := by
  refine (Follows.advance word).bind fun _ d _ => ?_
  refine (expr_follows more _ d).bind fun _ _ _ => ?_
  refine (Follows.expect (by decide)).bind fun _ _ _ => ?_
  exact spanFrom_bind_follows _ _

section

variable {read read' : Parse Stmt} (follows : ∀ c, Follows view read read' c)
include follows

theorem blockBody_follows (more : fuel ≤ fuel') :
    Follows view (blockBody read fuel) (blockBody read' fuel') c := by
  induction fuel generalizing c fuel' with
  | zero => exact Follows.exhausted _
  | succ fuel ih =>
    obtain ⟨fuel', rfl⟩ : ∃ n, fuel' = n + 1 := ⟨fuel' - 1, by omega⟩
    refine Follows.kind_bind ?_
    split
    · exact Follows.pure _
    · exact Follows.misplaced _
    · refine (follows c).bind fun _ _ _ => ?_
      exact (ih (Nat.le_of_succ_le_succ more)).bind fun _ _ _ => Follows.pure _

theorem blockOf_follows (more : fuel ≤ fuel') :
    Follows view (blockOf read fuel) (blockOf read' fuel') c := by
  refine (Follows.expect (by decide)).bind fun _ _ _ => ?_
  refine (blockBody_follows follows more).bind fun _ _ _ => ?_
  exact (Follows.expect (by decide)).bind fun _ _ _ => Follows.pure _

theorem loop_follows (more : fuel ≤ fuel') (word : c.current.kind ≠ .eof) :
    Follows view (loop Table.language read fuel) (loop Table.language read' fuel') c := by
  refine (Follows.advance word).bind fun _ d _ => ?_
  refine (expr_follows more _ d).bind fun _ _ _ => ?_
  exact (blockOf_follows follows more).bind fun _ _ _ => Follows.pure _

end

theorem openers_kind {kind : Kind} {opener : Opener}
    (h : Table.language.opener? kind = some opener) : kind ≠ .eof := by
  intro ends
  rw [ends] at h
  cases h

theorem statement_follows (more : fuel ≤ fuel') :
    Follows view (statement Table.language fuel) (statement Table.language fuel') c := by
  induction fuel generalizing c fuel' with
  | zero => exact Follows.exhausted _
  | succ fuel ih =>
    obtain ⟨fuel', rfl⟩ : ∃ n, fuel' = n + 1 := ⟨fuel' - 1, by omega⟩
    have more := Nat.le_of_succ_le_succ more
    intro covers
    unfold Parse.final
    -- Both statements begin with the same token.
    rw [run_statement, run_statement, view.current_see covers]
    cases opens : Table.language.opener? c.current.kind with
    | some opener =>
      have word := openers_kind opens
      cases opener with
      | declaration => exact declaration_follows more word covers
      | function => exact function_follows more word covers
      | print => exact print_follows more word covers
      | loop => exact loop_follows (fun c => ih more) more word covers
    | none =>
      by_cases name : c.current.kind = .identifier
      · -- Only here the token behind the current one is looked at.
        rw [view.peek_see covers (by rw [name]; decide)]
        by_cases assigns : c.peek = .assignment
        · simp only [if_pos (And.intro name assigns)]
          exact assignment_follows more covers
        · simp only [assigns, and_false, if_false]
          exact Follows.misplaced _ covers
      · simp only [name, false_and, if_false]
        exact Follows.misplaced _ covers

theorem statements_follows {count count' : Nat} (more : fuel ≤ fuel') (many : count ≤ count') :
    Follows view (statements Table.language fuel count)
      (statements Table.language fuel' count') c := by
  induction count generalizing c count' with
  | zero => exact Follows.exhausted _
  | succ count ih =>
    obtain ⟨count', rfl⟩ : ∃ n, count' = n + 1 := ⟨count' - 1, by omega⟩
    refine Follows.kind_bind (Follows.ite (fun _ => Follows.pure _) fun _ => ?_)
    refine (statement_follows more).bind fun _ _ _ => ?_
    exact (ih (Nat.le_of_succ_le_succ many)).bind fun _ _ _ => Follows.pure _

end Grammar

end Frontend
