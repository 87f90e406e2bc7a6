import Frontend.Proofs.Renaming.Basic
import Frontend.Proofs.Simplification.Normal

/-!
# Simplifying a program with other names

Simplifying looks at serial numbers, literals and the shape of a tree, but at no name.  So it
makes no difference whether names are changed before or after it (`simplify_rename`), and the
new names need not even tell the old ones apart.
-/

namespace Frontend

namespace Resolved

variable {σ : Renaming}

namespace Expr

/-! ## One node -/

theorem isLiteral_rename (e : Expr) : (e.rename σ).isLiteral = e.isLiteral := by
  cases e <;> rfl

theorem rename_of_isLiteral {e : Expr} (h : e.isLiteral) : e.rename σ = e := by
  cases e with
  | number | boolean => rfl
  | var | binary | unary | conditional | call => cases h

theorem truthiness?_rename (e : Expr) : (e.rename σ).truthiness? = e.truthiness? := by
  cases e <;> rfl

theorem isNumber_rename (value : Float) (e : Expr) :
    (e.rename σ).isNumber value = e.isNumber value := by
  cases e <;> rfl

theorem isVar_rename (v : Variable) (e : Expr) : (e.rename σ).isVar (v.rename σ) = e.isVar v := by
  cases e <;> rfl

theorem isFiniteArithmetic_rename : (e : Expr) →
    (e.rename σ).isFiniteArithmetic = e.isFiniteArithmetic
  | .number _ | .boolean _ | .var _ | .conditional .. | .call .. => rfl
  | .unary .negate operand => isFiniteArithmetic_rename operand
  | .unary .not _ => rfl
  | .binary operator left right => by
    rw [rename, isFiniteArithmetic, isFiniteArithmetic, isLiteral_rename, isLiteral_rename,
      isFiniteArithmetic_rename left, isFiniteArithmetic_rename right]

theorem foldLiterals?_rename (operator : BinaryOperator) (left right : Expr) :
    foldLiterals? operator (left.rename σ) (right.rename σ) = foldLiterals? operator left right := by
  cases left with
  | number | boolean => cases right <;> rfl
  | var | binary | unary | conditional | call => rfl

theorem reduce?_rename (operator : BinaryOperator) (left right : Expr) :
    reduce? operator (left.rename σ) (right.rename σ)
      = (reduce? operator left right).map (rename σ) := by
  cases operator <;> simp only [reduce?, isNumber_rename, isFiniteArithmetic_rename]
  -- What is left are the tests of one rule after the other, which have not changed.
  all_goals try split_ifs
  all_goals rfl

theorem foldBinary_rename (operator : BinaryOperator) (left right : Expr) :
    foldBinary operator (left.rename σ) (right.rename σ)
      = (foldBinary operator left right).rename σ := by
  unfold foldBinary
  rw [foldLiterals?_rename, reduce?_rename]
  cases literals : foldLiterals? operator left right with
  | some literal => exact (rename_of_isLiteral (isLiteral_of_foldLiterals? literals)).symm
  | none => cases reduce? operator left right <;> rfl

theorem foldUnary_rename (operator : UnaryOperator) (operand : Expr) :
    foldUnary operator (operand.rename σ) = (foldUnary operator operand).rename σ := by
  cases operator with
  | negate => cases operand <;> rfl
  | not => cases operand <;> rfl

/-! ## Expressions -/

mutual

theorem simplify_rename : (e : Expr) → (e.rename σ).simplify = e.simplify.rename σ
  | .number _ | .boolean _ | .var _ => rfl
  | .binary operator left right => by
    rw [rename, simplify, simplify, simplify_rename left, simplify_rename right, foldBinary_rename]
  | .unary operator operand => by
    rw [rename, simplify, simplify, simplify_rename operand, foldUnary_rename]
  | .conditional test consequent alternate => by
    rw [rename, simplify, simplify, simplify_rename test, simplify_rename consequent,
      simplify_rename alternate]
    simp only [truthiness?_rename]
    cases test.simplify.truthiness? with
    | none => rfl
    | some holds => cases holds <;> rfl
  | .call callee arguments => by
    rw [rename, simplify, simplify, simplifyAll_rename arguments, rename]

theorem simplifyAll_rename : (es : List Expr) →
    simplifyAll (renameAll σ es) = renameAll σ (simplifyAll es)
  | [] => rfl
  | e :: es => by
    rw [renameAll, simplifyAll, simplifyAll, simplify_rename e, simplifyAll_rename es, renameAll]

end

end Expr

/-! ## Statements -/

namespace Stmt

mutual

theorem simplify?_rename : (s : Stmt) → (s.rename σ).simplify? = s.simplify?.map (rename σ)
  | .declaration v initializer => by
    rw [rename, simplify?, simplify?, initializer.simplify_rename, Option.map_some, rename]
  | .function f parameters body => by
    rw [rename, simplify?, simplify?, body.simplify_rename, Option.map_some, rename]
  | .assignment target source => by
    rw [rename, simplify?, simplify?, source.simplify_rename, Expr.isVar_rename]
    -- Whether a variable is assigned to itself is decided by what it stands for.
    by_cases self : source.simplify.isVar target
    · rw [if_pos self, if_pos self, Option.map_none]
    · rw [if_neg self, if_neg self, Option.map_some, rename]
  | .print argument => by
    rw [rename, simplify?, simplify?, argument.simplify_rename, Option.map_some, rename]
  | .loop test body => by
    rw [rename, simplify?, simplify?, test.simplify_rename, Expr.truthiness?_rename]
    -- A test has the same truth value under other names.
    by_cases dead : test.simplify.truthiness? = some false
    · rw [if_pos dead, if_pos dead, Option.map_none]
    · rw [if_neg dead, if_neg dead, Option.map_some, rename, simplifyAll_rename body]

theorem simplifyAll_rename : (ss : List Stmt) →
    simplifyAll (renameAll σ ss) = renameAll σ (simplifyAll ss)
  | [] => rfl
  | s :: ss => by
    rw [renameAll, simplifyAll, simplifyAll, simplify?_rename s, simplifyAll_rename ss]
    cases s.simplify? <;> rfl

end

end Stmt

/-- Names can be changed before or after simplifying. -/
theorem simplify_rename (σ : Renaming) (p : Program) :
    (p.rename σ).simplify = p.simplify.rename σ := Stmt.simplifyAll_rename p

end Resolved

end Frontend
