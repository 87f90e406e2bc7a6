import Frontend.Proofs.Number.Sign
import Frontend.Proofs.Simplification.Normal

/-!
# Arithmetic that may be dropped

A product with zero becomes zero if its other factor is arithmetic on variables and finite
literals.

* **`Droppable`**: such arithmetic, one constructor for each shape.  Whatever is to be shown
  of what may be dropped is shown by induction on it.
* **`HasPair`**: two numbers next to each other, which computing them left in a tree.
* **`Droppable.foldBinary_zero`**: its product with a zero becomes a zero, on either side.
* **`droppable_simplify_iff`**: arithmetic that may be dropped may still be dropped when it is
  simplified, unless that brings two numbers together that cannot be computed.
* **`Droppable.readsVariable`**: where nothing is left to simplify, every operator of such
  arithmetic has a variable below it.
-/

namespace Frontend

namespace BinaryOperator

/-- The operators of sums, differences and products. -/
def isRing : BinaryOperator → Bool
  | .add | .subtract | .multiply => true
  | _ => false

end BinaryOperator

namespace Resolved

namespace Expr

/-- Arithmetic that may be dropped from a product with zero. -/
inductive Droppable : Expr → Prop where
  | number {value : Float} (finite : value.isFinite) : Droppable (number value)
  | var (v : Variable) : Droppable (var v)
  | negate {operand : Expr} (inner : Droppable operand) : Droppable (unary .negate operand)
  | binary {operator : BinaryOperator} {left right : Expr} (ring : operator.isRing)
      (apart : ¬ (left.isLiteral ∧ right.isLiteral)) (hl : Droppable left)
      (hr : Droppable right) : Droppable (binary operator left right)

theorem isFiniteArithmetic_binary {operator : BinaryOperator} {left right : Expr} :
    (binary operator left right).isFiniteArithmetic ↔
      operator.isRing ∧ ¬ (left.isLiteral ∧ right.isLiteral) ∧
        left.isFiniteArithmetic ∧ right.isFiniteArithmetic := by
  have ring : (operator == .add || operator == .subtract || operator == .multiply) =
      operator.isRing := by
    cases operator <;> rfl
  simp only [isFiniteArithmetic, ring, Bool.and_eq_true, Bool.not_eq_true', Bool.eq_false_iff,
    ne_eq, and_assoc]

theorem Droppable.isFiniteArithmetic {e : Expr} (h : Droppable e) : e.isFiniteArithmetic := by
  induction h with
  | number finite => exact finite
  | var => rfl
  | negate _ ih => exact ih
  | binary ring apart _ _ ihl ihr => exact isFiniteArithmetic_binary.mpr ⟨ring, apart, ihl, ihr⟩

theorem droppable_of_isFiniteArithmetic : (e : Expr) → e.isFiniteArithmetic → Droppable e
  | .number _, h => .number h
  | .var v, _ => .var v
  | .unary .negate operand, h => .negate (droppable_of_isFiniteArithmetic operand h)
  | .binary _ left right, h => by
    obtain ⟨ring, apart, hl, hr⟩ := isFiniteArithmetic_binary.mp h
    exact .binary ring apart (droppable_of_isFiniteArithmetic left hl)
      (droppable_of_isFiniteArithmetic right hr)

/-- What folding drops from a product with zero. -/
theorem droppable_iff {e : Expr} : Droppable e ↔ e.isFiniteArithmetic :=
  ⟨Droppable.isFiniteArithmetic, droppable_of_isFiniteArithmetic e⟩

/-! ## Two numbers next to each other -/

/-- Somewhere in an expression an operator stands between two numbers. -/
def HasPair (e : Expr) : Prop :=
  ∃ operator a b, Node.expr (binary operator (number a) (number b)) ∈ e.nodes

theorem not_hasPair_of_isLiteral {e : Expr} (h : e.isLiteral) : ¬ e.HasPair := by
  intro ⟨operator, a, b, pair⟩
  rw [nodes_of_isLiteral h, List.mem_singleton, Node.expr.injEq] at pair
  subst pair
  cases h

theorem hasPair_unary {operator : UnaryOperator} {operand : Expr} :
    (unary operator operand).HasPair ↔ operand.HasPair := by
  simp [HasPair, nodes]

theorem hasPair_binary {operator : BinaryOperator} {left right : Expr} :
    (binary operator left right).HasPair ↔
      (∃ a b, left = number a ∧ right = number b) ∨ left.HasPair ∨ right.HasPair := by
  simp only [HasPair, nodes, List.mem_cons, List.mem_append, Node.expr.injEq, binary.injEq,
    exists_or]
  constructor
  · intro pair
    rcases pair with ⟨_, a, b, rfl, rfl, rfl⟩ | pair
    · exact .inl ⟨a, b, rfl, rfl⟩
    · exact .inr pair
  · intro pair
    rcases pair with ⟨a, b, rfl, rfl⟩ | pair
    · exact .inl ⟨operator, a, b, rfl, rfl, rfl⟩
    · exact .inr pair

/-- What may be dropped has no two numbers next to each other. -/
theorem Droppable.not_hasPair {e : Expr} (h : Droppable e) : ¬ e.HasPair := by
  induction h with
  | number => exact not_hasPair_of_isLiteral rfl
  | var v =>
    intro ⟨operator, a, b, pair⟩
    rw [nodes, List.mem_singleton] at pair
    cases pair
  | negate _ ih =>
    rw [hasPair_unary]
    exact ih
  | binary ring apart _ _ ihl ihr =>
    rw [hasPair_binary]
    intro pair
    -- A pair at the root is excluded by the rule itself, one further down by induction.
    rcases pair with ⟨a, b, rfl, rfl⟩ | pair | pair
    · exact apart ⟨rfl, rfl⟩
    · exact ihl pair
    · exact ihr pair

/-- Folding an operator does not hide two numbers that stand next to each other in an operand.
Operands that are dropped have none. -/
theorem hasPair_foldBinary (operator : BinaryOperator) {left right : Expr}
    (pair : left.HasPair ∨ right.HasPair) : (foldBinary operator left right).HasPair := by
  have none {e : Expr} (h : e.isLiteral) : ¬ e.HasPair := not_hasPair_of_isLiteral h
  have folded := foldBinary_folded operator left right
  generalize foldBinary operator left right = e at folded
  cases folded with
  -- Literals have no pair, so there was none to begin with.
  | numbers | booleans => exact absurd pair (not_or.mpr ⟨none rfl, none rfl⟩)
  | rightNeutral => exact pair.resolve_right (none rfl)
  | leftNeutral => exact pair.resolve_left (none rfl)
  -- The other factor was droppable, and those have no pair.
  | zeroRight _ droppable =>
    have kept := (droppable_iff.mpr droppable).not_hasPair
    exact absurd pair (not_or.mpr ⟨kept, none rfl⟩)
  | zeroLeft _ droppable =>
    have kept := (droppable_iff.mpr droppable).not_hasPair
    exact absurd pair (not_or.mpr ⟨none rfl, kept⟩)
  | kept => exact hasPair_binary.mpr (.inr pair)

theorem hasPair_foldUnary (operator : UnaryOperator) {operand : Expr} (pair : operand.HasPair) :
    (foldUnary operator operand).HasPair := by
  rcases foldUnary_cases operator operand with ⟨-, kept⟩ | ⟨reducible, -⟩
  · rw [kept, hasPair_unary]
    exact pair
  · cases reducible <;> exact absurd pair (not_hasPair_of_isLiteral rfl)

/-! ## What becomes zero -/

/-- Some rule makes a zero of a product with a zero. -/
theorem Folded.isNumber_zero {left right e : Expr} (h : Folded .multiply left right e)
    (changes : e ≠ binary .multiply left right) (hl : Droppable left) (hr : Droppable right)
    (zero : left.isNumber 0 ∨ right.isNumber 0) : e.isNumber 0 := by
  -- One is not zero, so the rules for neutral operands leave a zero a zero.
  have other {z : Float} (one : z == 1) : ¬ (number z).isNumber 0 :=
    Number.not_beq_zero_of_beq_one one
  cases h with
  -- A zero times a finite number is a zero.
  | @numbers _ a b _ h =>
    cases hl with | number finiteLeft =>
    cases hr with | number finiteRight =>
    rw [(eq_literal_of_foldNumbers? h).1]
    rcases zero with zero | zero
    · exact Number.zero_mul_of_finite finiteRight zero
    · exact Number.mul_zero_of_finite finiteLeft zero
  | booleans => cases hl
  | rightNeutral neutral one =>
    cases neutral
    exact zero.resolve_right (other one)
  | leftNeutral neutral one =>
    cases neutral
    exact zero.resolve_left (other one)
  | zeroRight | zeroLeft => rfl
  | kept => exact absurd rfl changes

/-- A product of a zero and what may be dropped becomes a zero. -/
theorem Droppable.foldBinary_zero {e : Expr} (h : Droppable e) {z : Float} (hz : z == 0) :
    (foldBinary .multiply e (.number z)).isNumber 0 ∧
      (foldBinary .multiply (.number z) e).isNumber 0 := by
  have arithmetic := h.isFiniteArithmetic
  have zero : Droppable (Expr.number z) := by
    rcases Number.eq_or_eq_of_beq_zero hz with rfl | rfl
    · exact .number rfl
    · exact .number rfl
  constructor
  · have changes := foldBinary_changes (.zeroRight hz arithmetic)
    exact (foldBinary_folded _ _ _).isNumber_zero changes h zero (.inr hz)
  · have changes := foldBinary_changes (.zeroLeft hz arithmetic)
    exact (foldBinary_folded _ _ _).isNumber_zero changes zero h (.inl hz)

/-! ## Simplifying what may be dropped -/

/-- A literal that may be dropped is a number. -/
theorem Droppable.eq_number {e : Expr} (h : Droppable e) (literal : e.isLiteral) :
    ∃ value, e = .number value ∧ value.isFinite := by
  cases h with
  | number finite => exact ⟨_, rfl, finite⟩
  | var | negate | binary => cases literal

theorem droppable_foldUnary {operand : Expr} (h : Droppable operand) :
    Droppable (foldUnary .negate operand) := by
  by_cases literal : operand.isLiteral
  · obtain ⟨value, rfl, finite⟩ := h.eq_number literal
    refine Droppable.number ?_
    rwa [Number.isFinite_neg]
  · rcases foldUnary_cases .negate operand with ⟨-, kept⟩ | ⟨reducible, -⟩
    · rw [kept]
      exact .negate h
    · cases reducible
      exact absurd rfl literal

/-- A folded operator may be dropped with its operands, unless it is left between numbers. -/
theorem droppable_foldBinary {operator : BinaryOperator} (ring : operator.isRing)
    {left right : Expr} (hl : Droppable left) (hr : Droppable right)
    (alone : ¬ (foldBinary operator left right).HasPair) :
    Droppable (foldBinary operator left right) := by
  have folded := foldBinary_folded operator left right
  generalize foldBinary operator left right = e at folded alone
  cases folded with
  | numbers h =>
    obtain ⟨rfl, -, -⟩ := eq_literal_of_foldNumbers? h
    -- Only the operations of the ring can be folded to a droppable number.
    cases operator with
    | add | subtract | multiply => exact .number (isFinite_of_foldNumbers? h)
    | or | and | less | lessEqual | equal | notEqual | greaterEqual | greater | divide | modulo
    | power => cases ring
  | booleans => cases hl
  | rightNeutral => exact hl
  | leftNeutral => exact hr
  | zeroRight | zeroLeft => exact .number rfl
  | kept =>
    -- Two literals side by side would be a pair, and none is left alone.
    refine .binary ring ?_ hl hr
    intro ⟨literalLeft, literalRight⟩
    obtain ⟨a, rfl, -⟩ := hl.eq_number literalLeft
    obtain ⟨b, rfl, -⟩ := hr.eq_number literalRight
    exact alone (hasPair_binary.mpr (.inl ⟨a, b, rfl, rfl⟩))

/-- Arithmetic that may be dropped may still be dropped when it is simplified, unless that
leaves an operator between two numbers. -/
theorem droppable_simplify_iff {e : Expr} (h : Droppable e) :
    Droppable e.simplify ↔ ¬ e.simplify.HasPair := by
  constructor
  · exact Droppable.not_hasPair
  · intro alone
    induction h with
    | number finite => exact .number finite
    | var v => exact .var v
    | negate _ ih =>
      have inner := ih fun pair => alone (hasPair_foldUnary .negate pair)
      exact droppable_foldUnary inner
    | @binary operator _ _ ring _ _ _ ihl ihr =>
      -- A pair in an operand would still be there.
      have left := ihl fun pair => alone (hasPair_foldBinary operator (.inl pair))
      have right := ihr fun pair => alone (hasPair_foldBinary operator (.inr pair))
      exact droppable_foldBinary ring left right alone

/-- Arithmetic with nothing left to simplify is a number or reads a variable. -/
theorem Droppable.readsVariable {e : Expr} (h : Droppable e) (normal : Normal e.nodes)
    (other : ¬ e.isLiteral) : ∃ v, Node.expr (.var v) ∈ e.nodes := by
  induction h with
  | number => exact absurd rfl other
  | var v => exact ⟨v, List.mem_singleton_self _⟩
  | @negate operand inner ih =>
    rw [nodes, normal_cons] at normal
    obtain ⟨irreducible, normal⟩ := normal
    have unknown : ¬ operand.isLiteral := by
      intro literal
      obtain ⟨value, rfl, -⟩ := inner.eq_number literal
      exact irreducible .negated
    obtain ⟨v, reads⟩ := ih normal unknown
    exact ⟨v, List.mem_cons_of_mem _ reads⟩
  | @binary _ left right _ apart _ _ ihl ihr =>
    rw [nodes, normal_cons, normal_append] at normal
    obtain ⟨-, hl, hr⟩ := normal
    rw [nodes]
    -- One of the operands is no number.
    by_cases literal : left.isLiteral
    · obtain ⟨v, reads⟩ := ihr hr fun literal' => apart ⟨literal, literal'⟩
      exact ⟨v, List.mem_cons_of_mem _ (List.mem_append_right _ reads)⟩
    · obtain ⟨v, reads⟩ := ihl hl literal
      exact ⟨v, List.mem_cons_of_mem _ (List.mem_append_left _ reads)⟩

end Expr

end Resolved

end Frontend
