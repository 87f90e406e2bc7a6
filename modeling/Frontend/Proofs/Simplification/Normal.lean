import Frontend.Proofs.Simplification.Rules

/-!
# What simplifying leaves

One pass over a program is enough: it leaves nothing that another pass could change.

* **`Node`**: an expression or a statement at any depth of a program.
* **`Node.Reducible`**: the nodes that some rule applies to, one constructor for each kind
  of rule, in no order.  What may be dropped from a product and what the test of a loop is
  worth are as folding has them.
* **`foldBinary_cases`**: folding leaves a node alone exactly if no rule applies to it, and
  otherwise answers with one of its operands or with a literal.  All else is induction on
  trees.
* **`Normal`**: nodes that no rule applies to.  Simplifying makes such trees
  (`normal_simplify`), keeps them (`simplify_of_normal`), and makes every tree smaller that
  it does not keep (`simplify_shrinks`).

Trees are equal here if they are equal down to the bits of their numbers.  This is more
than `Stmt.same` asks, for which zeros of either sign are the same.
-/

namespace Frontend

namespace BinaryOperator

/-- The operators that compare two numbers. -/
def isComparison : BinaryOperator → Bool
  | .less | .lessEqual | .equal | .notEqual | .greaterEqual | .greater => true
  | _ => false

/-- The operators that are computed for two truth values. -/
def isConnective : BinaryOperator → Bool
  | .and | .or | .equal | .notEqual => true
  | _ => false

end BinaryOperator

namespace Resolved

/-! ## Nodes -/

/-- A part of a program that a rule may apply to. -/
inductive Node where
  | expr (e : Expr)
  | stmt (s : Stmt)

mutual

/-- The nodes of an expression, itself included. -/
def Expr.nodes : Expr → List Node
  | .number value => [.expr (.number value)]
  | .boolean value => [.expr (.boolean value)]
  | .var v => [.expr (.var v)]
  | .binary operator left right => .expr (.binary operator left right) :: (left.nodes ++ right.nodes)
  | .unary operator operand => .expr (.unary operator operand) :: operand.nodes
  | .conditional test consequent alternate =>
    .expr (.conditional test consequent alternate) ::
      (test.nodes ++ (consequent.nodes ++ alternate.nodes))
  | .call callee arguments => .expr (.call callee arguments) :: Expr.nodesAll arguments

/-- The nodes of expressions. -/
def Expr.nodesAll : List Expr → List Node
  | [] => []
  | e :: es => e.nodes ++ Expr.nodesAll es

end

mutual

/-- The nodes of a statement, itself included. -/
def Stmt.nodes : Stmt → List Node
  | .declaration v initializer => .stmt (.declaration v initializer) :: initializer.nodes
  | .function f parameters body => .stmt (.function f parameters body) :: body.nodes
  | .assignment target source => .stmt (.assignment target source) :: source.nodes
  | .print argument => .stmt (.print argument) :: argument.nodes
  | .loop test body => .stmt (.loop test body) :: (test.nodes ++ Stmt.nodesAll body)

/-- The nodes of statements. -/
def Stmt.nodesAll : List Stmt → List Node
  | [] => []
  | s :: ss => s.nodes ++ Stmt.nodesAll ss

end

/-- The nodes of a program. -/
def Program.nodes (p : Program) : List Node := Stmt.nodesAll p

/-! ## Where a rule applies -/

/-- The nodes that a rule applies to. -/
inductive Node.Reducible : Node → Prop where
  /-- A comparison of two numbers. -/
  | comparison {operator a b} (h : operator.isComparison) :
      Reducible (.expr (.binary operator (.number a) (.number b)))
  /-- Arithmetic on two numbers with a finite value, unless it divides by zero. -/
  | arithmetic {operator a b} (h : operator.isArithmetic)
      (divides : operator = .divide ∨ operator = .modulo → ¬ b == 0)
      (finite : (operator.apply (.number a) (.number b)).toNumber.isFinite) :
      Reducible (.expr (.binary operator (.number a) (.number b)))
  /-- Two truth values. -/
  | truths {operator a b} (h : operator.isConnective) :
      Reducible (.expr (.binary operator (.boolean a) (.boolean b)))
  /-- A neutral number on the right. -/
  | rightNeutral {operator left z n} (neutral : operator.rightNeutral? = some n) (h : z == n) :
      Reducible (.expr (.binary operator left (.number z)))
  /-- A neutral number on the left. -/
  | leftNeutral {operator right z n} (neutral : operator.leftNeutral? = some n) (h : z == n) :
      Reducible (.expr (.binary operator (.number z) right))
  /-- A product with a zero on the right whose other factor can be dropped. -/
  | zeroRight {left z} (h : z == 0) (droppable : left.isFiniteArithmetic) :
      Reducible (.expr (.binary .multiply left (.number z)))
  /-- A product with a zero on the left whose other factor can be dropped. -/
  | zeroLeft {right z} (h : z == 0) (droppable : right.isFiniteArithmetic) :
      Reducible (.expr (.binary .multiply (.number z) right))
  /-- A negated number. -/
  | negated {z} : Reducible (.expr (.unary .negate (.number z)))
  /-- The opposite of a truth value. -/
  | opposite {b} : Reducible (.expr (.unary .not (.boolean b)))
  /-- A conditional whose test is a literal. -/
  | decided {test consequent alternate} (h : test.isLiteral) :
      Reducible (.expr (.conditional test consequent alternate))
  /-- A loop whose test is a literal that does not hold. -/
  | deadLoop {test body} (h : test.truthiness? = some false) : Reducible (.stmt (.loop test body))
  /-- An assignment of a variable to itself. -/
  | selfAssignment {target v} (h : v.serial = target.serial) :
      Reducible (.stmt (.assignment target (.var v)))

/-- Nodes that no rule applies to. -/
def Normal (ns : List Node) : Prop := ∀ n ∈ ns, ¬ n.Reducible

@[simp] theorem normal_nil : Normal [] := fun _ h => nomatch h

@[simp] theorem normal_cons {n : Node} {ns : List Node} :
    Normal (n :: ns) ↔ ¬ n.Reducible ∧ Normal ns := List.forall_mem_cons

@[simp] theorem normal_append {ns ns' : List Node} :
    Normal (ns ++ ns') ↔ Normal ns ∧ Normal ns' := List.forall_mem_append

/-! ## Fewer nodes -/

/-- The same as before, or with fewer nodes. -/
def Shrinks {α : Type} (nodes : α → List Node) (after before : α) : Prop :=
  after = before ∨ (nodes after).length < (nodes before).length

section Shrinking

variable {α β : Type} {nodes : α → List Node} {nodes' : β → List Node} {a b : α} {c d : β}

theorem Shrinks.le (h : Shrinks nodes a b) : (nodes a).length ≤ (nodes b).length := by
  rcases h with same | smaller
  · subst same
    exact Nat.le_refl _
  · exact Nat.le_of_lt smaller

/-- Two parts stay the same together, or have fewer nodes together. -/
theorem Shrinks.pair (h : Shrinks nodes a b) (h' : Shrinks nodes' c d) :
    (a = b ∧ c = d) ∨
      (nodes a).length + (nodes' c).length < (nodes b).length + (nodes' d).length := by
  have le := h.le
  have le' := h'.le
  rcases h with same | smaller
  · rcases h' with same' | smaller'
    · exact .inl ⟨same, same'⟩
    · right
      omega
  · right
    omega

end Shrinking

namespace Expr

/-! ## One operator -/

theorem length_nodes_pos (e : Expr) : 0 < e.nodes.length := by
  cases e <;> simp [nodes]

/-- A literal is a node that no rule applies to. -/
theorem nodes_of_isLiteral {e : Expr} (h : e.isLiteral) : e.nodes = [.expr e] := by
  cases e with
  | number | boolean => rfl
  | var | binary | unary | conditional | call => cases h

theorem isLiteral_literal (x : Value) : x.literal.isLiteral := by
  cases x <;> rfl

theorem normal_of_isLiteral {e : Expr} (h : e.isLiteral) : Normal e.nodes := by
  rw [nodes_of_isLiteral h, normal_cons]
  refine ⟨?_, normal_nil⟩
  intro reducible
  cases reducible <;> cases h

section Binary

variable {operator : BinaryOperator} {left right e : Expr} {a b : Float}

/-- What a rule leaves of an operator: an operand or a literal. -/
def Remains (left right e : Expr) : Prop := e = left ∨ e = right ∨ e.isLiteral

theorem Remains.normal (h : Remains left right e) (hl : Normal left.nodes)
    (hr : Normal right.nodes) : Normal e.nodes := by
  rcases h with rfl | rfl | literal
  · exact hl
  · exact hr
  · exact normal_of_isLiteral literal

theorem Remains.smaller (h : Remains left right e) (operator : BinaryOperator) :
    e.nodes.length < (binary operator left right).nodes.length := by
  have hl := length_nodes_pos left
  have hr := length_nodes_pos right
  simp only [nodes, List.length_cons, List.length_append]
  rcases h with rfl | rfl | literal
  · omega
  · omega
  · rw [nodes_of_isLiteral literal, List.length_singleton]
    omega

/-- What remains is never the operator itself. -/
theorem Remains.ne_binary (h : Remains left right e) : e ≠ binary operator left right := by
  intro same
  have smaller := h.smaller operator
  rw [same] at smaller
  exact Nat.lt_irrefl _ smaller

/-- Numbers are computed exactly where a rule says so. -/
theorem isSome_foldNumbers?_iff : (foldNumbers? operator a b).isSome ↔
    operator.isComparison ∨ operator.isArithmetic ∧
      (operator = .divide ∨ operator = .modulo → ¬ b == 0) ∧
        (operator.apply (.number a) (.number b)).toNumber.isFinite := by
  cases operator with
  | or | and | less | lessEqual | equal | notEqual | greaterEqual | greater =>
    simp [foldNumbers?, compare?, arithmetic?, BinaryOperator.isComparison,
      BinaryOperator.isArithmetic]
  | add | subtract | multiply | power =>
    simp [foldNumbers?, compare?, arithmetic?, BinaryOperator.isComparison,
      BinaryOperator.isArithmetic, BinaryOperator.apply, Value.toNumber]
  | divide | modulo =>
    by_cases zero : b == 0
    · simp [foldNumbers?, compare?, arithmetic?, BinaryOperator.isComparison,
        BinaryOperator.isArithmetic, bne, zero]
    · simp [foldNumbers?, compare?, arithmetic?, BinaryOperator.isComparison,
        BinaryOperator.isArithmetic, BinaryOperator.apply, Value.toNumber, bne, zero]

/-- A computed number is finite. -/
theorem isFinite_of_foldNumbers? {x : Float} (h : foldNumbers? operator a b = some (number x)) :
    x.isFinite := by
  have literal := (eq_literal_of_foldNumbers? h).1
  rcases isSome_foldNumbers?_iff.mp (Option.isSome_of_eq_some h) with comparison | ⟨-, -, finite⟩
  · cases operator <;> cases comparison <;> cases literal
  · cases value : operator.apply (.number a) (.number b) with
    | number y =>
      rw [value] at literal finite
      cases literal
      exact finite
    | boolean =>
      rw [value] at literal
      cases literal

/-- Truth values are computed exactly where a rule says so. -/
theorem isSome_foldBooleans?_iff {a b : Bool} :
    (foldBooleans? operator a b).isSome ↔ operator.isConnective := by
  cases operator <;> simp [foldBooleans?, BinaryOperator.isConnective]

/-- What is left of an operator by a rule that does not compute. -/
theorem remains_of_reduce? (h : reduce? operator left right = some e) : Remains left right e := by
  unfold reduce? at h
  unfold Remains
  split at h <;> grind [isLiteral]

/-- A node that is not folded is one that no rule applies to. -/
theorem isSome_of_reducible (h : (Node.expr (binary operator left right)).Reducible) :
    (foldLiterals? operator left right).isSome ∨ (reduce? operator left right).isSome := by
  cases h with
  | comparison h => exact .inl (isSome_foldNumbers?_iff.mpr (.inl h))
  | arithmetic h divides finite =>
    exact .inl (isSome_foldNumbers?_iff.mpr (.inr ⟨h, divides, finite⟩))
  | truths h => exact .inl (isSome_foldBooleans?_iff.mpr h)
  -- Each of the other rules makes a test of the function true, unless an earlier one is.
  | rightNeutral neutral h =>
    right
    cases operator <;> cases neutral <;> simp [reduce?, isNumber, h]
  | leftNeutral neutral h =>
    right
    cases operator <;> cases neutral <;> grind [reduce?, isNumber]
  | zeroRight h droppable =>
    right
    grind [reduce?, isNumber]
  | zeroLeft h droppable =>
    right
    grind [reduce?, isNumber]

/-- A rule that makes something else of an operator applies to it. -/
theorem Folded.reducible (h : Folded operator left right e)
    (changes : e ≠ binary operator left right) :
    (Node.expr (binary operator left right)).Reducible := by
  cases h with
  | numbers h =>
    rcases isSome_foldNumbers?_iff.mp (Option.isSome_of_eq_some h) with h | ⟨h, divides, finite⟩
    · exact .comparison h
    · exact .arithmetic h divides finite
  | booleans h => exact .truths (isSome_foldBooleans?_iff.mp (Option.isSome_of_eq_some h))
  | rightNeutral neutral h => exact .rightNeutral neutral h
  | leftNeutral neutral h => exact .leftNeutral neutral h
  | zeroRight h arithmetic => exact .zeroRight h arithmetic
  | zeroLeft h arithmetic => exact .zeroLeft h arithmetic
  | kept => exact absurd rfl changes

theorem isLiteral_of_foldLiterals? (h : foldLiterals? operator left right = some e) :
    e.isLiteral := by
  unfold foldLiterals? at h
  split at h
  · rw [(eq_literal_of_foldNumbers? h).1]
    exact isLiteral_literal _
  · rw [eq_literal_of_foldBooleans? h]
    exact isLiteral_literal _
  · cases h

theorem remains_of_foldLiterals? (h : foldLiterals? operator left right = some e) :
    Remains left right e := .inr (.inr (isLiteral_of_foldLiterals? h))

/-- An operator is left alone exactly if no rule applies to it. -/
theorem foldBinary_cases (operator : BinaryOperator) (left right : Expr) :
    (¬ (Node.expr (binary operator left right)).Reducible ∧
        foldBinary operator left right = binary operator left right) ∨
      ((Node.expr (binary operator left right)).Reducible ∧
        Remains left right (foldBinary operator left right)) := by
  unfold foldBinary
  -- Literals are tried first, then the other rules; the node stays if both give nothing.
  split
  · rename_i h
    have remains := remains_of_foldLiterals? h
    exact .inr ⟨(folded_of_foldLiterals? h).reducible remains.ne_binary, remains⟩
  · rename_i notLiterals
    split
    · rename_i h
      have remains := remains_of_reduce? h
      exact .inr ⟨(folded_of_reduce? h).reducible remains.ne_binary, remains⟩
    · rename_i notReduced
      left
      refine ⟨?_, rfl⟩
      -- A reducible node is found by one of the two, and neither found anything.
      intro reducible
      rcases isSome_of_reducible reducible with h | h
      · rw [notLiterals] at h
        cases h
      · rw [notReduced] at h
        cases h

/-- A rule that applies is followed. -/
theorem foldBinary_changes (reducible : (Node.expr (binary operator left right)).Reducible) :
    foldBinary operator left right ≠ binary operator left right := by
  rcases foldBinary_cases operator left right with ⟨irreducible, -⟩ | ⟨-, remains⟩
  · exact absurd reducible irreducible
  · exact remains.ne_binary

end Binary

/-- A unary operator is left alone exactly if no rule applies to it. -/
theorem foldUnary_cases (operator : UnaryOperator) (operand : Expr) :
    (¬ (Node.expr (unary operator operand)).Reducible ∧
        foldUnary operator operand = unary operator operand) ∨
      ((Node.expr (unary operator operand)).Reducible ∧ (foldUnary operator operand).isLiteral) := by
  unfold foldUnary
  split
  · exact .inr ⟨.negated, rfl⟩
  · exact .inr ⟨.opposite, rfl⟩
  · rename_i notNumber notTruth
    left
    refine ⟨?_, rfl⟩
    intro reducible
    cases reducible with
    | negated => exact notNumber _ rfl rfl
    | opposite => exact notTruth _ rfl rfl

theorem isLiteral_of_truthiness? {e : Expr} {holds : Bool} (h : e.truthiness? = some holds) :
    e.isLiteral := by
  cases e with
  | number | boolean => rfl
  | var | binary | unary | conditional | call => cases h

theorem truthiness?_of_isLiteral {e : Expr} (h : e.isLiteral) : e.truthiness? ≠ none := by
  cases e with
  | number | boolean => exact Option.some_ne_none _
  | var | binary | unary | conditional | call => cases h

/-- A rule applies to an assignment exactly if it assigns a variable to itself. -/
theorem isVar_iff_reducible {target : Variable} {source : Expr} :
    source.isVar target ↔ (Node.stmt (.assignment target source)).Reducible := by
  constructor
  · intro same
    cases source with
    | var v => exact .selfAssignment (beq_iff_eq.mp same)
    | number | boolean | binary | unary | conditional | call => cases same
  · intro reducible
    cases reducible with
    | selfAssignment same => exact beq_iff_eq.mpr same

/-! ## Expressions -/

mutual

/-- Nothing is left to simplify in a simplified expression. -/
theorem normal_simplify : (e : Expr) → Normal e.simplify.nodes
  | .number _ | .boolean _ => normal_of_isLiteral rfl
  | .var v => by
    simp only [simplify, nodes, normal_cons, normal_nil, and_true]
    intro reducible
    cases reducible
  | .binary operator left right => by
    have hl := normal_simplify left
    have hr := normal_simplify right
    rw [simplify]
    -- Either the node stays since no rule applies, or what is left was normal before.
    rcases foldBinary_cases operator left.simplify right.simplify with
      ⟨irreducible, kept⟩ | ⟨-, remains⟩
    · rw [kept, nodes, normal_cons, normal_append]
      exact ⟨irreducible, hl, hr⟩
    · exact remains.normal hl hr
  | .unary operator operand => by
    have inner := normal_simplify operand
    rw [simplify]
    rcases foldUnary_cases operator operand.simplify with ⟨irreducible, kept⟩ | ⟨-, literal⟩
    · rw [kept, nodes, normal_cons]
      exact ⟨irreducible, inner⟩
    · exact normal_of_isLiteral literal
  | .conditional test consequent alternate => by
    have ht := normal_simplify test
    have hc := normal_simplify consequent
    have ha := normal_simplify alternate
    rw [simplify]
    split
    · exact hc
    · exact ha
    · rename_i unknown
      rw [nodes, normal_cons, normal_append, normal_append]
      refine ⟨?_, ht, hc, ha⟩
      intro reducible
      -- A test that is a literal has a truth value, so it would have been decided.
      cases reducible with
      | decided literal => exact truthiness?_of_isLiteral literal unknown
  | .call callee arguments => by
    have inner := normal_simplifyAll arguments
    rw [simplify, nodes, normal_cons]
    refine ⟨?_, inner⟩
    intro reducible
    cases reducible

theorem normal_simplifyAll : (es : List Expr) → Normal (nodesAll (simplifyAll es))
  | [] => normal_nil
  | e :: es => normal_append.mpr ⟨normal_simplify e, normal_simplifyAll es⟩

end

mutual

/-- An expression with nothing to simplify stays as it is. -/
theorem simplify_of_normal : (e : Expr) → Normal e.nodes → e.simplify = e
  | .number _, _ | .boolean _, _ | .var _, _ => rfl
  | .binary operator left right, h => by
    rw [nodes, normal_cons, normal_append] at h
    obtain ⟨irreducible, hl, hr⟩ := h
    rw [simplify, simplify_of_normal left hl, simplify_of_normal right hr]
    -- No rule applies to a normal node, so it cannot have changed.
    rcases foldBinary_cases operator left right with ⟨-, kept⟩ | ⟨reducible, -⟩
    · exact kept
    · exact absurd reducible irreducible
  | .unary operator operand, h => by
    rw [nodes, normal_cons] at h
    obtain ⟨irreducible, inner⟩ := h
    rw [simplify, simplify_of_normal operand inner]
    rcases foldUnary_cases operator operand with ⟨-, kept⟩ | ⟨reducible, -⟩
    · exact kept
    · exact absurd reducible irreducible
  | .conditional test consequent alternate, h => by
    rw [nodes, normal_cons, normal_append, normal_append] at h
    obtain ⟨irreducible, ht, hc, ha⟩ := h
    rw [simplify, simplify_of_normal test ht, simplify_of_normal consequent hc,
      simplify_of_normal alternate ha]
    split
    -- A known test is a literal, which a normal conditional does not have.
    · rename_i known
      exact absurd (.decided (isLiteral_of_truthiness? known)) irreducible
    · rename_i known
      exact absurd (.decided (isLiteral_of_truthiness? known)) irreducible
    · rfl
  | .call callee arguments, h => by
    rw [nodes, normal_cons] at h
    rw [simplify, simplifyAll_of_normal arguments h.2]

theorem simplifyAll_of_normal : (es : List Expr) → Normal (nodesAll es) → simplifyAll es = es
  | [], _ => rfl
  | e :: es, h => by
    rw [nodesAll, normal_append] at h
    rw [simplifyAll, simplify_of_normal e h.1, simplifyAll_of_normal es h.2]

end

mutual

/-- An expression that is not simplified into itself becomes smaller. -/
theorem simplify_shrinks : (e : Expr) → Shrinks nodes e.simplify e
  | .number _ | .boolean _ | .var _ => .inl rfl
  | .binary operator left right => by
    have hl := simplify_shrinks left
    have hr := simplify_shrinks right
    rw [simplify]
    rcases foldBinary_cases operator left.simplify right.simplify with ⟨-, kept⟩ | ⟨-, remains⟩
    · rw [kept]
      -- The node stays, so the tree shrinks only if an operand does.
      rcases hl.pair hr with ⟨hl, hr⟩ | smaller
      · left
        rw [hl, hr]
      · right
        simp only [nodes, List.length_cons, List.length_append]
        omega
    · right
      -- A fold leaves fewer nodes than its operands have together with their own.
      have smaller := remains.smaller operator
      have hl' := hl.le
      have hr' := hr.le
      simp only [nodes, List.length_cons, List.length_append] at smaller ⊢
      omega
  | .unary operator operand => by
    have inner := simplify_shrinks operand
    rw [simplify]
    rcases foldUnary_cases operator operand.simplify with ⟨-, kept⟩ | ⟨-, literal⟩
    · rw [kept]
      rcases inner with inner | smaller
      · left
        rw [inner]
      · right
        simp only [nodes, List.length_cons]
        omega
    · right
      have positive := length_nodes_pos operand
      simp only [nodes_of_isLiteral literal, nodes, List.length_cons, List.length_nil]
      omega
  | .conditional test consequent alternate => by
    have ht := simplify_shrinks test
    have hc := simplify_shrinks consequent
    have ha := simplify_shrinks alternate
    rw [simplify]
    split
    · -- A branch has fewer nodes than the conditional that it is taken from.
      right
      have hc' := hc.le
      simp only [nodes, List.length_cons, List.length_append]
      omega
    · right
      have ha' := ha.le
      simp only [nodes, List.length_cons, List.length_append]
      omega
    · rcases hc.pair ha with ⟨hc, ha⟩ | smaller
      · rcases ht with ht | smaller
        · left
          rw [ht, hc, ha]
        · right
          simp only [nodes, List.length_cons, List.length_append, hc, ha]
          omega
      · right
        have ht' := ht.le
        simp only [nodes, List.length_cons, List.length_append]
        omega
  | .call callee arguments => by
    have inner := simplifyAll_shrinks arguments
    rw [simplify]
    rcases inner with inner | smaller
    · left
      rw [inner]
    · right
      simp only [nodes, List.length_cons]
      omega

theorem simplifyAll_shrinks : (es : List Expr) → Shrinks nodesAll (simplifyAll es) es
  | [] => .inl rfl
  | e :: es => by
    have first := simplify_shrinks e
    have others := simplifyAll_shrinks es
    rw [simplifyAll]
    rcases first.pair others with ⟨first, others⟩ | smaller
    · left
      rw [first, others]
    · right
      simp only [nodesAll, List.length_append]
      omega

end

end Expr

/-! ## Statements -/

namespace Stmt

/-- What simplifying leaves of the first statement comes first. -/
theorem simplifyAll_cons (s : Stmt) (ss : List Stmt) :
    simplifyAll (s :: ss) = s.simplify?.toList ++ simplifyAll ss := by
  rw [simplifyAll]
  cases s.simplify? <;> rfl

theorem nodesAll_append (ss ss' : List Stmt) :
    nodesAll (ss ++ ss') = nodesAll ss ++ nodesAll ss' := by
  induction ss with
  | nil => rfl
  | cons s ss ih => rw [List.cons_append, nodesAll, nodesAll, ih, List.append_assoc]

theorem nodesAll_singleton (s : Stmt) : nodesAll [s] = s.nodes := by
  rw [nodesAll, nodesAll, List.append_nil]

mutual

/-- Nothing is left to simplify in what is left of a statement. -/
theorem normal_simplify? : (s : Stmt) → Normal (nodesAll s.simplify?.toList)
  | .declaration v initializer => by
    have inner := Expr.normal_simplify initializer
    rw [simplify?, Option.toList_some, nodesAll_singleton, nodes, normal_cons]
    refine ⟨?_, inner⟩
    intro reducible
    cases reducible
  | .function f parameters body => by
    have inner := Expr.normal_simplify body
    rw [simplify?, Option.toList_some, nodesAll_singleton, nodes, normal_cons]
    refine ⟨?_, inner⟩
    intro reducible
    cases reducible
  | .assignment target source => by
    have inner := Expr.normal_simplify source
    rw [simplify?]
    -- An assignment to itself leaves nothing, and any other one is not reducible.
    split
    · exact normal_nil
    · rename_i other
      rw [Option.toList_some, nodesAll_singleton, nodes, normal_cons]
      exact ⟨fun reducible => other (Expr.isVar_iff_reducible.mpr reducible), inner⟩
  | .print argument => by
    have inner := Expr.normal_simplify argument
    rw [simplify?, Option.toList_some, nodesAll_singleton, nodes, normal_cons]
    refine ⟨?_, inner⟩
    intro reducible
    cases reducible
  | .loop test body => by
    have ht := Expr.normal_simplify test
    have hb := normal_simplifyAll body
    rw [simplify?]
    split
    · exact normal_nil
    · rename_i alive
      rw [Option.toList_some, nodesAll_singleton, nodes, normal_cons, normal_append]
      refine ⟨?_, ht, hb⟩
      intro reducible
      cases reducible with
      -- The loop was kept, so its test is not known to fail.
      | deadLoop dead => exact alive dead

theorem normal_simplifyAll : (ss : List Stmt) → Normal (nodesAll (simplifyAll ss))
  | [] => normal_nil
  | s :: ss => by
    rw [simplifyAll_cons, nodesAll_append, normal_append]
    exact ⟨normal_simplify? s, normal_simplifyAll ss⟩

end

mutual

/-- A statement with nothing to simplify stays as it is. -/
theorem simplify?_of_normal : (s : Stmt) → Normal s.nodes → s.simplify? = some s
  | .declaration v initializer, h => by
    rw [nodes, normal_cons] at h
    rw [simplify?, Expr.simplify_of_normal initializer h.2]
  | .function f parameters body, h => by
    rw [nodes, normal_cons] at h
    rw [simplify?, Expr.simplify_of_normal body h.2]
  | .assignment target source, h => by
    rw [nodes, normal_cons] at h
    obtain ⟨irreducible, inner⟩ := h
    rw [simplify?, Expr.simplify_of_normal source inner]
    -- A normal assignment is not one of a variable to itself.
    exact if_neg fun same => irreducible (Expr.isVar_iff_reducible.mp same)
  | .print argument, h => by
    rw [nodes, normal_cons] at h
    rw [simplify?, Expr.simplify_of_normal argument h.2]
  | .loop test body, h => by
    rw [nodes, normal_cons, normal_append] at h
    obtain ⟨irreducible, ht, hb⟩ := h
    rw [simplify?, Expr.simplify_of_normal test ht, simplifyAll_of_normal body hb]
    -- A normal loop is not dead.
    exact if_neg fun dead => irreducible (.deadLoop dead)

theorem simplifyAll_of_normal : (ss : List Stmt) → Normal (nodesAll ss) → simplifyAll ss = ss
  | [], _ => rfl
  | s :: ss, h => by
    rw [nodesAll, normal_append] at h
    rw [simplifyAll_cons, simplify?_of_normal s h.1, simplifyAll_of_normal ss h.2]
    rfl

end

/-- A statement with one expression becomes smaller with it. -/
theorem shrinks_of_expr {make : Expr → Stmt} {e e' : Expr}
    (h : ∀ x, (make x).nodes = .stmt (make x) :: x.nodes) (inner : Shrinks Expr.nodes e' e) :
    Shrinks nodesAll [make e'] [make e] := by
  rcases inner with same | smaller
  · left
    rw [same]
  · right
    simp only [nodesAll_singleton, h, List.length_cons]
    omega

mutual

/-- A statement that is not simplified into itself becomes smaller, or is dropped. -/
theorem simplify?_shrinks : (s : Stmt) → Shrinks nodesAll s.simplify?.toList [s]
  | .declaration v initializer => by
    rw [simplify?]
    exact shrinks_of_expr (fun _ => rfl) (Expr.simplify_shrinks initializer)
  | .function f parameters body => by
    rw [simplify?]
    exact shrinks_of_expr (fun _ => rfl) (Expr.simplify_shrinks body)
  | .assignment target source => by
    rw [simplify?]
    split
    · right
      simp [nodesAll, nodes]
    · exact shrinks_of_expr (fun _ => rfl) (Expr.simplify_shrinks source)
  | .print argument => by
    rw [simplify?]
    exact shrinks_of_expr (fun _ => rfl) (Expr.simplify_shrinks argument)
  | .loop test body => by
    have ht := Expr.simplify_shrinks test
    have hb := simplifyAll_shrinks body
    rw [simplify?]
    split
    · -- A loop that is dropped leaves nothing.
      right
      simp [nodesAll, nodes]
    · rw [Option.toList_some]
      rcases ht.pair hb with ⟨ht, hb⟩ | smaller
      · left
        rw [ht, hb]
      · right
        simp only [nodesAll_singleton, nodes, List.length_cons, List.length_append]
        omega

theorem simplifyAll_shrinks : (ss : List Stmt) → Shrinks nodesAll (simplifyAll ss) ss
  | [] => .inl rfl
  | s :: ss => by
    have first := simplify?_shrinks s
    have others := simplifyAll_shrinks ss
    rw [simplifyAll_cons]
    rcases first.pair others with ⟨first, others⟩ | smaller
    · left
      rw [first, others]
      rfl
    · right
      rw [nodesAll_singleton] at smaller
      simp only [nodesAll_append, nodesAll, List.length_append]
      omega

end

end Stmt

/-! ## Programs -/

/-- **One pass is enough.**  No rule applies to any node of a simplified program, so that
simplifying it once more gives the same tree, down to the bits of its numbers.  A program
that is not simplified into itself has fewer nodes afterwards. -/
theorem simplify_reaches_normal_form (p : Program) :
    (∀ n ∈ p.simplify.nodes, ¬ n.Reducible) ∧ p.simplify.simplify = p.simplify ∧
      (p.simplify = p ∨ p.simplify.nodes.length < p.nodes.length) := by
  have normal : Normal p.simplify.nodes := Stmt.normal_simplifyAll p
  exact ⟨normal, Stmt.simplifyAll_of_normal p.simplify normal, Stmt.simplifyAll_shrinks p⟩

end Resolved

end Frontend
