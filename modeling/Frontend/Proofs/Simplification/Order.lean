import Frontend.Proofs.Simplification.Droppable
import Frontend.Proofs.Simplification.Literals
import Frontend.Proofs.Simplification.Output

/-!
# The order of the rules

An operator may be folded before its operands are simplified, or after.

* **`NaNFree`**: no literal of an expression is a number that differs from itself.  Such an
  expression is equal to itself (`same_refl`).
* **`Premature`**: a product with zero whose other factor may be dropped as it is, but not when
  it is simplified.
* **`simplify_foldBinary_same_iff`**: the order does not matter, except there.
-/

namespace Frontend.Resolved.Expr

open Number (Alike)

/-! ## Equal expressions -/

/-- No literal in an expression is a NaN. -/
def NaNFree (e : Expr) : Prop := Numbers (fun x => ¬ x.isNaN) e.nodes

theorem NaNFree.simplify {e : Expr} (h : NaNFree e) : NaNFree e.simplify := by
  refine numbers_simplify ?_ ?_ e h
  · intro x finite
    exact Number.not_isNaN_of_isFinite finite
  · intro x number
    rwa [Number.isNaN_neg]

mutual

/-- Without a NaN an expression is equal to itself. -/
theorem same_refl : (e : Expr) → NaNFree e → e.same e
  | .number x, h => Number.beq_self_iff.mpr (numbers_number.mp h)
  | .boolean _, _ => by simp [same]
  | .var _, _ => by simp [same]
  | .binary operator left right, h => by
    obtain ⟨hl, hr⟩ := numbers_binary.mp h
    simp [same, same_refl left hl, same_refl right hr]
  | .unary operator operand, h => by
    simp [same, same_refl operand (numbers_unary.mp h)]
  | .conditional test consequent alternate, h => by
    obtain ⟨ht, hc, ha⟩ := numbers_conditional.mp h
    simp [same, same_refl test ht, same_refl consequent hc, same_refl alternate ha]
  | .call _ arguments, h => by
    simp [same, sameAll_refl arguments (numbers_call.mp h)]

theorem sameAll_refl : (es : List Expr) → Numbers (fun x => ¬ x.isNaN) (nodesAll es) →
    sameAll es es
  | [], _ => rfl
  | e :: es, h => by
    obtain ⟨first, others⟩ := numbers_append.mp h
    simp [sameAll, same_refl e first, sameAll_refl es others]

end

/-- What is equal to a number is a literal. -/
theorem isLiteral_of_same {x : Float} {e : Expr} (h : (number x).same e) : e.isLiteral := by
  cases e with
  | number => rfl
  | boolean | var | binary | unary | conditional | call => cases h

theorem beq_of_alike {x y : Float} (h : Alike x y) (number : ¬ x.isNaN) : x == y := by
  rcases h with rfl | ⟨hx, hy⟩
  · exact Number.beq_self_iff.mpr number
  · rcases Number.eq_or_eq_of_beq_zero hx with rfl | rfl <;>
      rcases Number.eq_or_eq_of_beq_zero hy with rfl | rfl <;> rfl

/-- A literal for a value like a number is equal to the number. -/
theorem same_literal {a : Float} {x : Value} (h : x.Like Alike (.number a)) (number : ¬ a.isNaN) :
    (Expr.number a).same x.literal := by
  cases x with
  | number b => exact beq_of_alike (Alike.symm h) number
  | boolean => cases h

/-! ## Neutral numbers -/

section

variable {operator : BinaryOperator} {left right : Expr} {z n : Float}

/-- Numbers that are neutral on either side of an operator are equal. -/
theorem neutral_beq_neutral {z' n' : Float} (right : operator.rightNeutral? = some n) (hz : z == n)
    (left : operator.leftNeutral? = some n') (hz' : z' == n') : z == z' ∧ z' == z := by
  cases operator <;> cases right <;> cases left
  · have zero := Number.not_isNaN_of_beq_zero hz
    have zero' := Number.not_isNaN_of_beq_zero hz'
    exact ⟨beq_of_alike (Or.inr ⟨hz, hz'⟩) zero, beq_of_alike (Or.inr ⟨hz', hz⟩) zero'⟩
  · rw [Number.eq_one_of_beq hz, Number.eq_one_of_beq hz']
    decide

/-- What is neutral on the right of an expression leaves an equal one. -/
theorem same_of_rightNeutral (neutral : operator.rightNeutral? = some n) (hz : z == n)
    (hl : NaNFree left) : left.same (foldBinary operator left (number z)) := by
  have changes : foldBinary operator left (number z) ≠ binary operator left (number z) :=
    foldBinary_changes (.rightNeutral neutral hz)
  have folded := foldBinary_folded operator left (number z)
  generalize foldBinary operator left (number z) = e at folded changes
  cases folded with
  | @numbers _ a _ _ h =>
    -- The other operand is a number as well, and the result is equal to it.
    obtain ⟨rfl, -, -⟩ := eq_literal_of_foldNumbers? h
    have alike : (operator.apply (.number a) (.number z)).Like Alike (.number a) :=
      apply_rightNeutral_alike neutral hz (Alike.refl z) rfl
    exact same_literal alike (numbers_number.mp hl)
  | rightNeutral => exact same_refl left hl
  | leftNeutral neutral' hz' => exact (neutral_beq_neutral neutral hz neutral' hz').2
  | zeroRight zero =>
    cases neutral
    exact absurd zero (Number.not_beq_zero_of_beq_one hz)
  | zeroLeft zero => exact zero
  | kept => exact absurd rfl changes

/-- What is neutral on the left of an expression leaves an equal one. -/
theorem same_of_leftNeutral (neutral : operator.leftNeutral? = some n) (hz : z == n)
    (hr : NaNFree right) : right.same (foldBinary operator (number z) right) := by
  -- A neutral number on the left is dropped, unless the right operand is a literal as well.
  have changes : foldBinary operator (number z) right ≠ binary operator (number z) right :=
    foldBinary_changes (.leftNeutral neutral hz)
  have folded := foldBinary_folded operator (number z) right
  generalize foldBinary operator (number z) right = e at folded changes
  cases folded with
  | @numbers _ _ b _ h =>
    obtain ⟨rfl, -, -⟩ := eq_literal_of_foldNumbers? h
    have alike : (operator.apply (.number z) (.number b)).Like Alike (.number b) :=
      apply_leftNeutral_alike neutral hz (Alike.refl z) rfl
    exact same_literal alike (numbers_number.mp hr)
  | rightNeutral neutral' hz' => exact (neutral_beq_neutral neutral' hz' neutral hz).1
  | leftNeutral => exact same_refl right hr
  | zeroRight zero => exact zero
  -- One is neutral for products, and it is not zero.
  | zeroLeft zero =>
    cases neutral
    exact absurd zero (Number.not_beq_zero_of_beq_one hz)
  | kept => exact absurd rfl changes

end

/-! ## Before and after -/

/-- A product with zero whose other factor may be dropped, but leaves an operator between two
numbers when it is simplified. -/
inductive Premature : BinaryOperator → Expr → Expr → Prop where
  | zeroRight {left : Expr} {z : Float} (h : z == 0) (arithmetic : left.isFiniteArithmetic)
      (pair : left.simplify.HasPair) : Premature .multiply left (number z)
  | zeroLeft {right : Expr} {z : Float} (h : z == 0) (arithmetic : right.isFiniteArithmetic)
      (pair : right.simplify.HasPair) : Premature .multiply (number z) right

section

variable {operator : BinaryOperator} {left right : Expr}

/-- Simplified operands are never folded too early. -/
theorem not_premature_of_simplify_eq (hl : left.simplify = left) (hr : right.simplify = right) :
    ¬ Premature operator left right := by
  intro premature
  cases premature with
  | zeroRight _ arithmetic pair =>
    rw [hl] at pair
    exact (droppable_iff.mpr arithmetic).not_hasPair pair
  | zeroLeft _ arithmetic pair =>
    rw [hr] at pair
    exact (droppable_iff.mpr arithmetic).not_hasPair pair

theorem simplify_of_isLiteral {e : Expr} (h : e.isLiteral) : e.simplify = e :=
  simplify_of_normal e (normal_of_isLiteral h)

/-- A zero is equal to any other. -/
theorem zero_same {e : Expr} (h : e.isNumber 0) : (number 0).same e := by
  obtain ⟨z, rfl, hz⟩ := eq_number_of_isNumber h
  exact beq_of_alike (Or.inr ⟨rfl, hz⟩) (by decide)

theorem same_of_not_premature (hl : NaNFree left) (hr : NaNFree right)
    (calm : ¬ Premature operator left right) :
    (foldBinary operator left right).simplify.same (binary operator left right).simplify := by
  have free : NaNFree (binary operator left right) := numbers_binary.mpr ⟨hl, hr⟩
  have equal := same_refl _ free.simplify
  have folded := foldBinary_folded operator left right
  generalize result : foldBinary operator left right = e at folded
  cases folded with
  -- Literals are folded into a literal, and there is nothing more to do.
  | @numbers _ a b _ h =>
    have computed : foldLiterals? operator (number a) (number b) = some e := h
    rw [simplify_of_isLiteral (isLiteral_of_foldLiterals? computed), ← result]
    exact equal
  | @booleans _ a b _ h =>
    have computed : foldLiterals? operator (boolean a) (boolean b) = some e := h
    rw [simplify_of_isLiteral (isLiteral_of_foldLiterals? computed), ← result]
    exact equal
  | rightNeutral neutral hz => exact same_of_rightNeutral neutral hz hl.simplify
  | leftNeutral neutral hz => exact same_of_leftNeutral neutral hz hr.simplify
  | zeroRight hz arithmetic =>
    -- The other factor may be dropped before and after, as nothing is left between numbers.
    have still := (droppable_simplify_iff (droppable_iff.mpr arithmetic)).mpr
      fun pair => calm (.zeroRight hz arithmetic pair)
    exact zero_same (still.foldBinary_zero hz).1
  | zeroLeft hz arithmetic =>
    have still := (droppable_simplify_iff (droppable_iff.mpr arithmetic)).mpr
      fun pair => calm (.zeroLeft hz arithmetic pair)
    exact zero_same (still.foldBinary_zero hz).2
  | kept => exact equal

/-- A number is not equal to what has two numbers next to each other in it. -/
theorem not_same_of_isNumber {e e' : Expr} {x : Float} (h : e.isNumber x) (pair : e'.HasPair) :
    ¬ e.simplify.same e' := by
  obtain ⟨_, rfl, -⟩ := eq_number_of_isNumber h
  intro same
  exact not_hasPair_of_isLiteral (isLiteral_of_same same) pair

/-- A product that is dropped too early would be kept otherwise. -/
theorem not_same_of_premature (h : Premature operator left right) :
    ¬ (foldBinary operator left right).simplify.same (binary operator left right).simplify := by
  -- The first one is a number, and the second one still has the two numbers in it.
  cases h with
  | zeroRight hz arithmetic pair =>
    have dropped := ((droppable_iff.mpr arithmetic).foldBinary_zero hz).1
    exact not_same_of_isNumber dropped (hasPair_foldBinary .multiply (.inl pair))
  | zeroLeft hz arithmetic pair =>
    have dropped := ((droppable_iff.mpr arithmetic).foldBinary_zero hz).2
    exact not_same_of_isNumber dropped (hasPair_foldBinary .multiply (.inr pair))

/-- **The order of the rules hardly matters.**  Without a NaN in its operands, an operator that
is folded and then simplified is equal to the simplified operator, exactly unless a product
with zero is dropped too early.  Once the operands are simplified, none is. -/
theorem simplify_foldBinary_same_iff (hl : NaNFree left) (hr : NaNFree right) :
    ((foldBinary operator left right).simplify.same (binary operator left right).simplify ↔
        ¬ Premature operator left right) ∧
      ¬ Premature operator left.simplify right.simplify := by
  have again (e : Expr) : e.simplify.simplify = e.simplify :=
    simplify_of_normal e.simplify (normal_simplify e)
  constructor
  · constructor
    · intro same premature
      exact not_same_of_premature premature same
    · exact same_of_not_premature hl hr
  · exact not_premature_of_simplify_eq (again left) (again right)

end

/-- A variable with a zero added to it. -/
def padded : Expr := binary .add (var ⟨0, "x", false⟩) (number 0)

/-- A product of `padded` with zero is zero in either order. -/
theorem padded_product_same : NaNFree padded ∧ NaNFree (number 0) ∧
    (foldBinary .multiply padded (number 0)).simplify.same
      (binary .multiply padded (number 0)).simplify := by
  have zero : NaNFree (number 0) := numbers_number.mpr (by decide)
  have free : NaNFree padded := by
    refine numbers_binary.mpr ⟨?_, zero⟩
    exact (numbers_cons fun _ same => by cases same).mpr numbers_nil
  have calm : ¬ Premature .multiply padded (number 0) := by
    intro premature
    cases premature with
    | zeroRight _ _ pair => exact (Droppable.var ⟨0, "x", false⟩).not_hasPair pair
  exact ⟨free, zero, (simplify_foldBinary_same_iff free zero).1.mpr calm⟩

/-- The sum of two numbers, one of them negated twice, that is too great to be computed. -/
def tooGreat : Expr :=
  binary .add (unary .negate (number (Float.ofBits 0xffe1ccf385ebc8a0)))
    (number (Float.ofBits 0x7fe1ccf385ebc8a0))

/-- A product of `tooGreat` with zero is dropped when it is folded first, and kept otherwise. -/
theorem tooGreat_product_differs : NaNFree tooGreat ∧ NaNFree (number 0) ∧
    ¬ (foldBinary .multiply tooGreat (number 0)).simplify.same
      (binary .multiply tooGreat (number 0)).simplify := by
  refine ⟨?_, numbers_number.mpr (by decide), by decide +kernel⟩
  refine numbers_binary.mpr ⟨numbers_unary.mpr ?_, ?_⟩
  · exact numbers_number.mpr (by decide)
  · exact numbers_number.mpr (by decide)

end Frontend.Resolved.Expr
