import Frontend.Proofs.Number.Sign
import Frontend.Proofs.Simplification.Normal

/-!
# Literals

What happens to the literals of an expression.

* **`Numbers`**: what holds of every number in an expression.  Simplifying computes numbers,
  but only finite ones, and changes signs (`numbers_simplify`).
* **`simplify_mixed_literals`**: a number and a truth value are not computed.  A number that is
  neutral beside a truth value disappears all the same, as the rule for it looks only at the
  number.
-/

namespace Frontend.Resolved.Expr

/-! ## The numbers of an expression -/

/-- `P` holds of every number that is written in these nodes. -/
def Numbers (P : Float → Prop) (ns : List Node) : Prop := ∀ x, Node.expr (number x) ∈ ns → P x

section

variable {P : Float → Prop}

theorem numbers_nil : Numbers P [] := fun _ h => nomatch h

theorem numbers_append {ns ns' : List Node} :
    Numbers P (ns ++ ns') ↔ Numbers P ns ∧ Numbers P ns' := by
  simp only [Numbers, List.mem_append, or_imp, forall_and]

theorem numbers_cons {e : Expr} {ns : List Node} (other : ∀ x, e ≠ number x) :
    Numbers P (.expr e :: ns) ↔ Numbers P ns := by
  refine forall_congr' fun x => imp_congr_left ?_
  rw [List.mem_cons, Node.expr.injEq]
  exact or_iff_right (other x).symm

theorem numbers_number {x : Float} : Numbers P (number x).nodes ↔ P x := by
  simp [Numbers, nodes]

theorem numbers_boolean (b : Bool) : Numbers P (boolean b).nodes :=
  (numbers_cons fun _ same => by cases same).mpr numbers_nil

theorem numbers_binary {operator : BinaryOperator} {left right : Expr} :
    Numbers P (binary operator left right).nodes ↔ Numbers P left.nodes ∧ Numbers P right.nodes :=
  (numbers_cons fun _ same => by cases same).trans numbers_append

theorem numbers_unary {operator : UnaryOperator} {operand : Expr} :
    Numbers P (unary operator operand).nodes ↔ Numbers P operand.nodes :=
  numbers_cons fun _ same => by cases same

theorem numbers_conditional {test consequent alternate : Expr} :
    Numbers P (conditional test consequent alternate).nodes ↔
      Numbers P test.nodes ∧ Numbers P consequent.nodes ∧ Numbers P alternate.nodes :=
  (numbers_cons fun _ same => by cases same).trans (by rw [numbers_append, numbers_append])

theorem numbers_call {callee : Function} {arguments : List Expr} :
    Numbers P (call callee arguments).nodes ↔ Numbers P (nodesAll arguments) :=
  numbers_cons fun _ same => by cases same

end

section

variable {P : Float → Prop}

theorem numbers_literal {x : Value} (h : ∀ y, x = .number y → P y) : Numbers P x.literal.nodes := by
  cases x with
  | number y => exact numbers_number.mpr (h y rfl)
  | boolean b => exact numbers_boolean b

theorem numbers_foldBinary (finite : ∀ x, x.isFinite → P x) (operator : BinaryOperator)
    {left right : Expr} (hl : Numbers P left.nodes) (hr : Numbers P right.nodes) :
    Numbers P (foldBinary operator left right).nodes := by
  have folded := foldBinary_folded operator left right
  generalize foldBinary operator left right = e at folded
  cases folded with
  | numbers h =>
    obtain ⟨rfl, -, -⟩ := eq_literal_of_foldNumbers? h
    refine numbers_literal fun y value => ?_
    rw [value] at h
    exact finite y (isFinite_of_foldNumbers? h)
  | booleans h =>
    -- What is computed for truth values is one, whatever the operator.
    cases operator <;> cases h <;> exact numbers_boolean _
  | rightNeutral => exact hl
  | leftNeutral => exact hr
  | zeroRight | zeroLeft => exact numbers_number.mpr (finite 0 rfl)
  | kept => exact numbers_binary.mpr ⟨hl, hr⟩

theorem numbers_foldUnary (negated : ∀ x, P x → P (-x)) (operator : UnaryOperator) {operand : Expr}
    (h : Numbers P operand.nodes) : Numbers P (foldUnary operator operand).nodes := by
  unfold foldUnary
  split
  · exact numbers_number.mpr (negated _ (numbers_number.mp h))
  · exact numbers_boolean _
  · exact numbers_unary.mpr h

mutual

/-- What holds of finite numbers, and of a number with both signs, holds of the numbers in a
simplified expression if it holds of those in the expression. -/
theorem numbers_simplify (finite : ∀ x, x.isFinite → P x) (negated : ∀ x, P x → P (-x)) :
    -- A fold writes a finite number, a negation one with its sign changed; all others were there.
    (e : Expr) → Numbers P e.nodes → Numbers P e.simplify.nodes
  | .number _, h | .boolean _, h | .var _, h => h
  | .binary operator left right, h => by
    obtain ⟨hl, hr⟩ := numbers_binary.mp h
    have hl := numbers_simplify finite negated left hl
    have hr := numbers_simplify finite negated right hr
    exact numbers_foldBinary finite operator hl hr
  | .unary operator operand, h => by
    have inner := numbers_simplify finite negated operand (numbers_unary.mp h)
    exact numbers_foldUnary negated operator inner
  | .conditional test consequent alternate, h => by
    obtain ⟨ht, hc, ha⟩ := numbers_conditional.mp h
    have ht := numbers_simplify finite negated test ht
    have hc := numbers_simplify finite negated consequent hc
    have ha := numbers_simplify finite negated alternate ha
    rw [simplify]
    split
    · exact hc
    · exact ha
    · exact numbers_conditional.mpr ⟨ht, hc, ha⟩
  | .call _ arguments, h =>
    numbers_call.mpr (numbersAll_simplifyAll finite negated arguments (numbers_call.mp h))

theorem numbersAll_simplifyAll (finite : ∀ x, x.isFinite → P x) (negated : ∀ x, P x → P (-x)) :
    (es : List Expr) → Numbers P (nodesAll es) → Numbers P (nodesAll (simplifyAll es))
  | [], h => h
  | e :: es, h => by
    obtain ⟨first, others⟩ := numbers_append.mp h
    have first := numbers_simplify finite negated e first
    have others := numbersAll_simplifyAll finite negated es others
    exact numbers_append.mpr ⟨first, others⟩

end

end

/-! ## Literals of two kinds -/

/-- One of two expressions is a number, and the other one is a truth value. -/
inductive Mixed : Expr → Expr → Prop where
  | numberFirst (x : Float) (b : Bool) : Mixed (number x) (boolean b)
  | booleanFirst (b : Bool) (x : Float) : Mixed (boolean b) (number x)

section

variable {operator : BinaryOperator} {left right : Expr}

/-- Where no rule applies, no neutral number is in the way. -/
theorem not_neutral_of_irreducible (h : ¬ (Node.expr (binary operator left right)).Reducible) :
    ¬ operator.rightNeutral?.any (right.isNumber ·) ∧
      ¬ operator.leftNeutral?.any (left.isNumber ·) := by
  simp only [Option.any_eq_true]
  constructor
  · intro ⟨n, neutral, isNumber⟩
    obtain ⟨z, rfl, hz⟩ := eq_number_of_isNumber isNumber
    exact h (.rightNeutral neutral hz)
  · intro ⟨n, neutral, isNumber⟩
    obtain ⟨z, rfl, hz⟩ := eq_number_of_isNumber isNumber
    exact h (.leftNeutral neutral hz)

/-- Two literals of different kinds are left alone, unless one of them is a neutral number. -/
theorem foldBinary_mixed (mixed : Mixed left right) :
    foldBinary operator left right =
      if operator.rightNeutral?.any (right.isNumber ·) then left
      else if operator.leftNeutral?.any (left.isNumber ·) then right
      else binary operator left right := by
  rcases foldBinary_cases operator left right with ⟨irreducible, kept⟩ | ⟨-, remains⟩
  · obtain ⟨noRight, noLeft⟩ := not_neutral_of_irreducible irreducible
    rw [kept, if_neg noRight, if_neg noLeft]
  · -- No rule computes them, and neither can be dropped from a product.
    have changes : foldBinary operator left right ≠ binary operator left right := remains.ne_binary
    have folded := foldBinary_folded operator left right
    generalize foldBinary operator left right = e at folded changes
    cases mixed with
    | numberFirst x b =>
      cases folded with
      | leftNeutral neutral h =>
        simp [neutral, isNumber, h]
      | zeroLeft _ arithmetic => cases arithmetic
      | kept => exact absurd rfl changes
    | booleanFirst b x =>
      cases folded with
      | rightNeutral neutral h =>
        simp [neutral, isNumber, h]
      | zeroRight _ arithmetic => cases arithmetic
      | kept => exact absurd rfl changes

/-- **A number and a truth value are not computed.**  An operator whose operands become literals
of different kinds is left as it is with these operands, wherever they come from, unless one of
them is a number that is neutral on its side: then only the truth value is left. -/
theorem simplify_mixed_literals (mixed : Mixed left.simplify right.simplify) :
    (binary operator left right).simplify =
      if operator.rightNeutral?.any (right.simplify.isNumber ·) then left.simplify
      else if operator.leftNeutral?.any (left.simplify.isNumber ·) then right.simplify
      else binary operator left.simplify right.simplify :=
  foldBinary_mixed mixed

end

/-- A choice between two numbers that is known, and a truth value that is computed. -/
def choice : Expr := conditional (boolean false) (number 0) (number 6)

def opposite : Expr := unary .not (boolean false)

/-- The operands of a comparison become literals, and the comparison stays. -/
theorem choice_less_opposite_kept : Mixed choice.simplify opposite.simplify ∧
    (binary .less choice opposite).simplify = binary .less (number 6) (boolean true) := by
  have mixed : Mixed choice.simplify opposite.simplify := .numberFirst 6 true
  refine ⟨mixed, ?_⟩
  rw [simplify_mixed_literals mixed]
  rfl

/-- A truth value that a zero is added to. -/
def truthPlusZero : Expr := binary .add (boolean true) (number 0)

/-- The operands of `truthPlusZero` are of different kinds, and the sum is not left as it is. -/
theorem truthPlusZero_not_kept :
    Mixed (boolean true).simplify (number 0).simplify ∧ truthPlusZero.simplify = boolean true ∧
      truthPlusZero.simplify ≠ truthPlusZero :=
  ⟨.booleanFirst true 0, rfl, fun same => by cases same⟩

end Frontend.Resolved.Expr
