import Frontend.Proofs.Simplification.Droppable

/-!
# Calls that simplifying keeps

Simplifying removes code, but no call that could ever be made, and it neither repeats a call
nor moves one.

* **`Expr.callees`**, **`Stmt.callees`**: the functions called in a tree, from left to right.
  A walk may know how tests turn out, and then passes by the branches and the bodies that
  are never entered.
* **`unforeseen`**, **`foreseen`**: a walk that knows nothing and so visits everything, and one
  that knows what simplifying finds out.
* **`simplify_keeps_callees`**: all calls of a simplified tree are those that the second
  walk finds in the tree itself, in the same order.

What the rules discard is call-free already when they discard it: a literal, arithmetic on
variables and literals, or a single variable.
-/

namespace Frontend.Resolved

/-! ## Walks -/

mutual

/-- The functions that are called in an expression, from left to right.  Of a conditional
whose test is known to turn out one way, only that branch counts. -/
def Expr.callees (known : Expr → Option Bool) : Expr → List Function
  | .number _ | .boolean _ | .var _ => []
  | .binary _ left right => left.callees known ++ right.callees known
  | .unary _ operand => operand.callees known
  | .conditional test consequent alternate =>
    test.callees known ++
      match known test with
      | some true => consequent.callees known
      | some false => alternate.callees known
      | none => consequent.callees known ++ alternate.callees known
  | .call callee arguments => callee :: Expr.calleesAll known arguments

/-- The functions that are called in expressions, from left to right. -/
def Expr.calleesAll (known : Expr → Option Bool) : List Expr → List Function
  | [] => []
  | e :: es => e.callees known ++ Expr.calleesAll known es

end

mutual

/-- The functions that are called in a statement, from left to right.  The body of a loop that
is known never to be entered does not count. -/
def Stmt.callees (known : Expr → Option Bool) : Stmt → List Function
  | .declaration _ initializer => initializer.callees known
  | .function _ _ body => body.callees known
  | .assignment _ source => source.callees known
  | .print argument => argument.callees known
  | .loop test body =>
    test.callees known ++ if known test = some false then [] else Stmt.calleesAll known body

/-- The functions that are called in statements, from left to right. -/
def Stmt.calleesAll (known : Expr → Option Bool) : List Stmt → List Function
  | [] => []
  | s :: ss => s.callees known ++ Stmt.calleesAll known ss

end

/-- The functions that are called in a program, from left to right. -/
def Program.callees (known : Expr → Option Bool) (p : Program) : List Function :=
  Stmt.calleesAll known p

/-- Nothing is known of any test. -/
def unforeseen (_test : Expr) : Option Bool := none

/-- What is known of a test is the literal that it is simplified into, if it is one. -/
def foreseen (test : Expr) : Option Bool := test.simplify.truthiness?

/-! ## What the rules discard -/

namespace Expr

variable {known : Expr → Option Bool}

theorem callees_of_isLiteral {e : Expr} (h : e.isLiteral) : e.callees known = [] := by
  cases e with
  | number | boolean => rfl
  | var | binary | unary | conditional | call => cases h

/-- Arithmetic that may be dropped calls nothing. -/
theorem Droppable.callees {e : Expr} (h : Droppable e) : e.callees known = [] := by
  induction h with
  | number | var => rfl
  | negate _ ih => exact ih
  | binary _ _ _ _ ihl ihr => rw [Expr.callees, ihl, ihr, List.append_nil]

/-- A binary operator loses no call when it is folded. -/
theorem callees_foldBinary (operator : BinaryOperator) (left right : Expr) :
    (foldBinary operator left right).callees known = left.callees known ++ right.callees known := by
  have folded := foldBinary_folded operator left right
  generalize foldBinary operator left right = e at folded
  cases folded with
  -- A folded pair of literals has no callees, and the literal has none either.
  | numbers h =>
    rw [(eq_literal_of_foldNumbers? h).1]
    exact callees_of_isLiteral (isLiteral_literal _)
  | booleans h =>
    rw [eq_literal_of_foldBooleans? h]
    exact callees_of_isLiteral (isLiteral_literal _)
  | rightNeutral => exact (List.append_nil _).symm
  | leftNeutral => rfl
  -- What is dropped from a product is arithmetic without a call.
  | zeroRight _ droppable =>
    rw [(droppable_iff.mpr droppable).callees]
    rfl
  | zeroLeft _ droppable =>
    rw [(droppable_iff.mpr droppable).callees]
    rfl
  | kept => rfl

theorem callees_foldUnary (operator : UnaryOperator) (operand : Expr) :
    (foldUnary operator operand).callees known = operand.callees known := by
  unfold foldUnary
  split
  · rfl
  · rfl
  · rfl

/-! ## Expressions -/

mutual

/-- A simplified expression has the calls that simplifying foresees. -/
theorem callees_simplify : (e : Expr) → e.simplify.callees unforeseen = e.callees foreseen
  | .number _ | .boolean _ | .var _ => rfl
  | .binary operator left right => by
    rw [simplify, callees_foldBinary, callees_simplify left, callees_simplify right, callees]
  | .unary operator operand => by
    rw [simplify, callees_foldUnary, callees_simplify operand, callees]
  | .conditional test consequent alternate => by
    have ht := callees_simplify test
    have hc := callees_simplify consequent
    have ha := callees_simplify alternate
    -- A test that becomes a literal has no calls to begin with: this is the induction for it.
    have gone {holds : Bool} (h : test.simplify.truthiness? = some holds) :
        test.callees foreseen = [] := by
      rw [← ht]
      exact callees_of_isLiteral (isLiteral_of_truthiness? h)
    simp only [simplify, callees, foreseen]
    cases outcome : test.simplify.truthiness? with
    | some holds =>
      rw [gone outcome, List.nil_append]
      cases holds with
      | true => exact hc
      | false => exact ha
    | none =>
      rw [callees, ht, hc, ha]
      rfl
  | .call callee arguments => by
    rw [simplify, callees, callees, calleesAll_simplifyAll arguments]

theorem calleesAll_simplifyAll : (es : List Expr) →
    calleesAll unforeseen (simplifyAll es) = calleesAll foreseen es
  | [] => rfl
  | e :: es => by
    rw [simplifyAll, calleesAll, calleesAll, callees_simplify e, calleesAll_simplifyAll es]

end

theorem callees_of_isVar {v : Variable} {e : Expr} (h : e.isVar v) : e.callees known = [] := by
  cases e with
  | var => rfl
  | number | boolean | binary | unary | conditional | call => cases h

end Expr

/-! ## Statements -/

namespace Stmt

theorem calleesAll_append (known : Expr → Option Bool) (ss ss' : List Stmt) :
    calleesAll known (ss ++ ss') = calleesAll known ss ++ calleesAll known ss' := by
  induction ss with
  | nil => rfl
  | cons s ss ih => rw [List.cons_append, calleesAll, calleesAll, ih, List.append_assoc]

theorem calleesAll_singleton (known : Expr → Option Bool) (s : Stmt) :
    calleesAll known [s] = s.callees known := by
  rw [calleesAll, calleesAll, List.append_nil]

mutual

/-- What is left of a statement has the calls that simplifying foresees. -/
theorem callees_simplify? : (s : Stmt) →
    calleesAll unforeseen s.simplify?.toList = s.callees foreseen
  | .declaration v initializer => by
    rw [simplify?, Option.toList_some, calleesAll_singleton, callees, callees,
      Expr.callees_simplify]
  | .function f parameters body => by
    rw [simplify?, Option.toList_some, calleesAll_singleton, callees, callees,
      Expr.callees_simplify]
  | .assignment target source => by
    have inner := Expr.callees_simplify source
    rw [simplify?, callees]
    by_cases self : source.simplify.isVar target
    · -- The source may have been more than a variable, but then without a call.
      rw [if_pos self, ← inner, Expr.callees_of_isVar self]
      rfl
    · rw [if_neg self, Option.toList_some, calleesAll_singleton, callees, inner]
  -- What is printed keeps its callees, whatever it is folded to.
  | .print argument => by
    rw [simplify?, Option.toList_some, calleesAll_singleton, callees, callees,
      Expr.callees_simplify]
  | .loop test body => by
    have inner := Expr.callees_simplify test
    rw [simplify?, callees]
    by_cases dead : test.simplify.truthiness? = some false
    · have unentered : foreseen test = some false := dead
      -- A test that is known beforehand is a literal by now, so it calls nothing.
      have gone : test.simplify.callees unforeseen = [] :=
        Expr.callees_of_isLiteral (Expr.isLiteral_of_truthiness? dead)
      rw [if_pos dead, if_pos unentered, ← inner, gone]
      rfl
    · have entered : ¬ foreseen test = some false := dead
      rw [if_neg dead, if_neg entered, Option.toList_some, calleesAll_singleton, callees, inner,
        callees_simplifyAll body]
      rfl

theorem callees_simplifyAll : (ss : List Stmt) →
    calleesAll unforeseen (simplifyAll ss) = calleesAll foreseen ss
  | [] => rfl
  | s :: ss => by
    rw [simplifyAll_cons, calleesAll_append, callees_simplify? s, callees_simplifyAll ss,
      calleesAll]

end

end Stmt

/-! ## Programs -/

/-- **No call is lost, repeated or moved.**  The calls of a simplified expression are those of
the expression, from left to right, but for the branches that a literal test rules out.  The
same holds of programs, where the bodies of loops that a literal test rules out are left
out as well. -/
theorem simplify_keeps_callees :
    (∀ e : Expr, e.simplify.callees unforeseen = e.callees foreseen) ∧
      ∀ p : Program, p.simplify.callees unforeseen = p.callees foreseen :=
  ⟨Expr.callees_simplify, Stmt.callees_simplifyAll⟩

end Frontend.Resolved
