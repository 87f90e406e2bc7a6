import Frontend.Proofs.Run.Value
import Frontend.Resolved.Simplification

/-!
# The rules of folding

What folding can make of a binary operator and its operands, as one relation.

* **`Folded`**: one constructor for each kind of rule, and one for a node that stays.
  Its operands are those of the node, already simplified.
* **`Value.literal`**: the literal that stands for a value.  What the first two rules
  compute is the value of the operator.
* **`foldBinary_folded`**: folding follows one of the rules.  Whatever is to be shown of
  folding is shown rule by rule from here on.
* **`Expr.All`**: what holds of every variable in an expression.  Simplifying puts no
  new variables into it.
-/

namespace Frontend

/-- The number that does nothing on the right of an operator. -/
def BinaryOperator.rightNeutral? : BinaryOperator → Option Float
  | .add | .subtract => some 0
  | .multiply | .divide | .power => some 1
  | _ => none

/-- The number that does nothing on the left of an operator. -/
def BinaryOperator.leftNeutral? : BinaryOperator → Option Float
  | .add => some 0
  | .multiply => some 1
  | _ => none

/-- The literal that stands for a value. -/
def Value.literal : Value → Resolved.Expr
  | number x => .number x
  | boolean b => .boolean b

namespace Resolved.Expr

/-- What an operator and two operands can be folded into. -/
inductive Folded : BinaryOperator → Expr → Expr → Expr → Prop where
  /-- Two numbers are computed. -/
  | numbers {operator a b e} (h : foldNumbers? operator a b = some e) :
      Folded operator (number a) (number b) e
  /-- Two truth values are computed. -/
  | booleans {operator a b e} (h : foldBooleans? operator a b = some e) :
      Folded operator (boolean a) (boolean b) e
  /-- A neutral number on the right disappears. -/
  | rightNeutral {operator left z n} (neutral : operator.rightNeutral? = some n) (h : z == n) :
      Folded operator left (number z) left
  /-- A neutral number on the left disappears. -/
  | leftNeutral {operator right z n} (neutral : operator.leftNeutral? = some n) (h : z == n) :
      Folded operator (number z) right right
  /-- A product with a zero on the right is zero. -/
  | zeroRight {left z} (h : z == 0) (arithmetic : left.isFiniteArithmetic) :
      Folded .multiply left (number z) (number 0)
  /-- A product with a zero on the left is zero. -/
  | zeroLeft {right z} (h : z == 0) (arithmetic : right.isFiniteArithmetic) :
      Folded .multiply (number z) right (number 0)
  /-- The node stays as it is. -/
  | kept (operator left right) : Folded operator left right (binary operator left right)

theorem eq_number_of_isNumber {value : Float} {e : Expr} (h : e.isNumber value) :
    ∃ z, e = number z ∧ z == value := by
  cases e with
  | number z => exact ⟨z, rfl, h⟩
  | boolean | var | binary | unary | conditional | call => cases h

/-- What is left of an operator by a rule that does not compute. -/
theorem folded_of_reduce? {operator : BinaryOperator} {left right e : Expr}
    (h : reduce? operator left right = some e) : Folded operator left right e := by
  -- The tests come in the order of the function, and each of them belongs to one rule.
  cases operator with
  | add =>
    simp only [reduce?] at h
    by_cases hr : right.isNumber 0
    · rw [if_pos hr] at h
      cases h
      obtain ⟨z, rfl, hz⟩ := eq_number_of_isNumber hr
      exact .rightNeutral rfl hz
    · rw [if_neg hr] at h
      by_cases hl : left.isNumber 0
      · rw [if_pos hl] at h
        cases h
        obtain ⟨z, rfl, hz⟩ := eq_number_of_isNumber hl
        exact .leftNeutral rfl hz
      · rw [if_neg hl] at h
        cases h
  | multiply =>
    simp only [reduce?] at h
    by_cases hr : right.isNumber 1
    · rw [if_pos hr] at h
      cases h
      obtain ⟨z, rfl, hz⟩ := eq_number_of_isNumber hr
      exact .rightNeutral rfl hz
    · rw [if_neg hr] at h
      by_cases hl : left.isNumber 1
      · rw [if_pos hl] at h
        cases h
        obtain ⟨z, rfl, hz⟩ := eq_number_of_isNumber hl
        exact .leftNeutral rfl hz
      · rw [if_neg hl] at h
        by_cases zr : right.isNumber 0 && left.isFiniteArithmetic
        · rw [if_pos zr] at h
          cases h
          obtain ⟨zero, arithmetic⟩ := Bool.and_eq_true_iff.mp zr
          obtain ⟨z, rfl, hz⟩ := eq_number_of_isNumber zero
          exact .zeroRight hz arithmetic
        · rw [if_neg zr] at h
          by_cases zl : left.isNumber 0 && right.isFiniteArithmetic
          · rw [if_pos zl] at h
            cases h
            obtain ⟨zero, arithmetic⟩ := Bool.and_eq_true_iff.mp zl
            obtain ⟨z, rfl, hz⟩ := eq_number_of_isNumber zero
            exact .zeroLeft hz arithmetic
          · rw [if_neg zl] at h
            cases h
  | subtract | divide | power =>
    simp only [reduce?] at h
    split at h
    · rename_i hr
      cases h
      obtain ⟨z, rfl, hz⟩ := eq_number_of_isNumber hr
      exact .rightNeutral rfl hz
    · cases h
  | or | and | less | lessEqual | equal | notEqual | greaterEqual | greater | modulo => cases h

theorem folded_of_foldLiterals? {operator : BinaryOperator} {left right e : Expr}
    (h : foldLiterals? operator left right = some e) : Folded operator left right e := by
  unfold foldLiterals? at h
  split at h
  · exact .numbers h
  · exact .booleans h
  · cases h

/-- Folding follows the rules. -/
theorem foldBinary_folded (operator : BinaryOperator) (left right : Expr) :
    Folded operator left right (foldBinary operator left right) := by
  unfold foldBinary
  split
  · rename_i h
    exact folded_of_foldLiterals? h
  · split
    · rename_i h
      exact folded_of_reduce? h
    · exact .kept operator left right

/-! ## Computed literals -/

/-- The literal that a computed number is. -/
theorem eq_literal_of_foldNumbers? {operator : BinaryOperator} {a b : Float} {e : Expr}
    (h : foldNumbers? operator a b = some e) :
    e = (operator.apply (.number a) (.number b)).literal ∧ operator ≠ .and ∧ operator ≠ .or := by
  cases operator with
  | or | and => cases h
  | less | lessEqual | equal | notEqual | greaterEqual | greater =>
    cases h
    exact ⟨rfl, by decide, by decide⟩
  | add | subtract | multiply | power =>
    simp only [foldNumbers?, compare?, arithmetic?] at h
    split at h
    · cases h
      exact ⟨rfl, by decide, by decide⟩
    · cases h
  | divide | modulo =>
    simp only [foldNumbers?, compare?, arithmetic?] at h
    split at h
    · rename_i value nonzero
      -- A divisor that is no zero, and then a result that is finite.
      split at nonzero
      · cases nonzero
        split at h
        · cases h
          exact ⟨rfl, by decide, by decide⟩
        · cases h
      · cases nonzero
    · cases h

/-- The literal that a computed truth value is; the left operand decides or does not. -/
theorem eq_literal_of_foldBooleans? {operator : BinaryOperator} {a b : Bool} {e : Expr}
    (h : foldBooleans? operator a b = some e) :
    e = (if operator.decides (.boolean a) then Value.boolean a
      else operator.apply (.boolean a) (.boolean b)).literal := by
  cases operator with
  | and | or | equal | notEqual =>
    cases h
    cases a <;> cases b <;> rfl
  | _ => cases h

/-! ## The variables of an expression -/

mutual

/-- `P` holds of every variable that is read in an expression. -/
def All (P : Variable → Prop) : Expr → Prop
  | .number _ => True
  | .boolean _ => True
  | .var v => P v
  | .binary _ left right => left.All P ∧ right.All P
  | .unary _ operand => operand.All P
  | .conditional test consequent alternate => test.All P ∧ consequent.All P ∧ alternate.All P
  | .call _ arguments => AllAll P arguments

/-- `P` holds of every variable that is read in expressions. -/
def AllAll (P : Variable → Prop) : List Expr → Prop
  | [] => True
  | e :: es => e.All P ∧ AllAll P es

end

theorem all_literal (P : Variable → Prop) (x : Value) : x.literal.All P := by
  cases x <;> trivial

theorem Folded.all {P : Variable → Prop} {operator : BinaryOperator} {left right e : Expr}
    (h : Folded operator left right e) (hl : left.All P) (hr : right.All P) : e.All P := by
  cases h with
  | numbers h =>
    rw [(eq_literal_of_foldNumbers? h).1]
    exact all_literal P _
  | booleans h =>
    rw [eq_literal_of_foldBooleans? h]
    exact all_literal P _
  | rightNeutral => exact hl
  | leftNeutral => exact hr
  | zeroRight | zeroLeft => trivial
  | kept => exact ⟨hl, hr⟩

theorem all_foldUnary {P : Variable → Prop} (operator : UnaryOperator) {operand : Expr}
    (h : operand.All P) : (foldUnary operator operand).All P := by
  unfold foldUnary
  split
  · trivial
  · trivial
  · exact h

mutual

/-- A simplified expression reads no other variables. -/
theorem all_simplify {P : Variable → Prop} : (e : Expr) → e.All P → e.simplify.All P
  | .number _, _ | .boolean _, _ => trivial
  | .var _, h => h
  | .binary operator left right, h =>
    (foldBinary_folded operator left.simplify right.simplify).all (all_simplify left h.1)
      (all_simplify right h.2)
  | .unary operator operand, h => all_foldUnary operator (all_simplify operand h)
  | .conditional test consequent alternate, h => by
    obtain ⟨ht, hc, ha⟩ := h
    rw [simplify]
    split
    · exact all_simplify consequent hc
    · exact all_simplify alternate ha
    · exact ⟨all_simplify test ht, all_simplify consequent hc, all_simplify alternate ha⟩
  | .call _ arguments, h => all_simplifyAll arguments h

theorem all_simplifyAll {P : Variable → Prop} :
    (es : List Expr) → AllAll P es → AllAll P (simplifyAll es)
  | [], _ => trivial
  | e :: es, h => ⟨all_simplify e h.1, all_simplifyAll es h.2⟩

end

end Resolved.Expr

end Frontend
