import Frontend.Proofs.Number.Overflow
import Frontend.Proofs.Run.Basic
import Frontend.Proofs.Simplification.Droppable

/-!
# Products that become zero

Folding takes a variable to hold a finite number, and then it takes arithmetic on variables to
be finite.  It is, up to an overflow.

* **`Event.Overflows`**: an operator was applied to finite numbers, and the exact result is
  too great.
* **`Droppable.outcome`**: arithmetic that may be dropped is finite unless something in it
  overflows, and what overflows has a variable below it.
* **`dropped_product_isNaN_iff_overflow`**: so a product with zero that becomes zero was not
  zero before only after an overflow.
-/

namespace Frontend

/-- The exact result of a sum, a difference or a product. -/
def BinaryOperator.exact? : BinaryOperator → ℚ → ℚ → Option ℚ
  | .add, a, b => some (a + b)
  | .subtract, a, b => some (a - b)
  | .multiply, a, b => some (a * b)
  | _, _, _ => none

namespace Resolved

open Number (toRat overflowBound)

/-! ## Overflow in a run -/

/-- The sum, the difference or the product of two finite numbers is too great for a number. -/
def Event.Overflows : Event → Prop
  | .binary operator _ _ (.number x) (.number y) _ =>
    x.isFinite ∧ y.isFinite ∧
      ∃ result, operator.exact? (toRat x) (toRat y) = some result ∧ overflowBound ≤ |result|
  | _ => False

/-- A binary operator with a variable below it was applied. -/
def Event.ReadsVariable : Event → Prop
  | .binary operator left right _ _ _ =>
    ∃ v, Node.expr (.var v) ∈ (Expr.binary operator left right).nodes
  | _ => False

/-- A sum, a difference or a product is finite if its operands are and it does not overflow. -/
theorem isFinite_apply_iff {operator : BinaryOperator} (ring : operator.isRing)
    (left right : Expr) (x y : Float) :
    ∃ z, operator.apply (.number x) (.number y) = .number z ∧
      (z.isFinite ↔ x.isFinite ∧ y.isFinite ∧
        ¬ (Event.binary operator left right (.number x) (.number y) (.number z)).Overflows) := by
  -- Past finite operands, an overflow is all that is left to ask for.
  have exact {result : ℚ} (h : operator.exact? (toRat x) (toRat y) = some result) (z : Float) :
      (x.isFinite ∧ y.isFinite ∧ |result| < overflowBound) ↔ x.isFinite ∧ y.isFinite ∧
        ¬ (Event.binary operator left right (.number x) (.number y) (.number z)).Overflows := by
    simp only [Event.Overflows, h, Option.some.injEq, exists_eq_left']
    refine and_congr_right fun hx => and_congr_right fun hy => ?_
    rw [and_iff_right hx, and_iff_right hy, not_le]
  cases operator with
  | add => exact ⟨_, rfl, (Number.isFinite_add_iff x y).trans (exact rfl _)⟩
  | subtract => exact ⟨_, rfl, (Number.isFinite_sub_iff x y).trans (exact rfl _)⟩
  | multiply => exact ⟨_, rfl, (Number.isFinite_mul_iff x y).trans (exact rfl _)⟩
  | or | and | less | lessEqual | equal | notEqual | greaterEqual | greater | divide | modulo
  | power => cases ring

namespace Expr

section

variable {s : Store} (call : Caller) {frame : Bindings}

/-- A sum, a difference or a product evaluates both of its operands. -/
theorem yields_evalBinary {operator : BinaryOperator} (ring : operator.isRing) {left right : Expr}
    {runLeft runRight : Run Value} {x y : Value} {before after : List Event}
    (hl : runLeft.Yields x before) (hr : runRight.Yields y after) :
    (evalBinary operator left right runLeft runRight).Yields (operator.apply x y)
      (before ++ (after ++ [.binary operator left right x y (operator.apply x y)])) := by
  have undecided : operator.decides x = false := by
    cases operator with
    | add | subtract | multiply => rfl
    | or | and | less | lessEqual | equal | notEqual | greaterEqual | greater | divide | modulo
    | power => cases ring
  rw [evalBinary, Run.yields_bind]
  refine ⟨x, before, _, hl, ?_, rfl⟩
  simp only [undecided, Bool.false_eq_true, if_false, Run.yields_bind, Run.yields_event,
    Run.yields_pure]
  exact ⟨y, after, _, hr, ⟨(), _, _, rfl, ⟨rfl, rfl⟩, rfl⟩, rfl⟩

/-- What comes of arithmetic that may be dropped, if its variables are finite. -/
theorem Droppable.outcome {e : Expr} (h : Droppable e) (normal : Normal e.nodes)
    (finite : e.All fun v => ∃ x, s.value? frame v = some (.number x) ∧ x.isFinite) :
    ∃ y events, (e.eval s call frame).Yields (.number y) events ∧
      (y.isFinite ↔ ∀ event ∈ events, ¬ event.Overflows) ∧
        ∀ event ∈ events, event.Overflows → event.ReadsVariable := by
  induction h with
  | number isFinite =>
    refine ⟨_, [], Run.yields_pure.mpr ⟨rfl, rfl⟩, iff_of_true isFinite ?_, ?_⟩
    · exact List.forall_mem_nil _
    · exact List.forall_mem_nil _
  | var v =>
    obtain ⟨x, bound, isFinite⟩ := finite
    refine ⟨x, [], ?_, iff_of_true isFinite (List.forall_mem_nil _), List.forall_mem_nil _⟩
    rw [eval, bound]
    exact Run.yields_pure.mpr ⟨rfl, rfl⟩
  | negate _ ih =>
    -- Negating cannot overflow, so that everything is left to the operand.
    rw [nodes, normal_cons] at normal
    obtain ⟨y, events, yields, isFinite, reads⟩ := ih normal.2 finite
    refine ⟨-y, events ++ [.unary .negate (.number y) (.number (-y))], ?_, ?_, ?_⟩
    · simp only [eval, evalUnary, Run.yields_bind, Run.yields_event, Run.yields_pure]
      exact ⟨_, _, _, yields, ⟨(), _, _, rfl, ⟨rfl, rfl⟩, rfl⟩, rfl⟩
    · rw [Number.isFinite_neg, isFinite, List.forall_mem_append, List.forall_mem_singleton]
      exact (and_iff_left not_false).symm
    · rw [List.forall_mem_append, List.forall_mem_singleton]
      exact ⟨reads, False.elim⟩
  | @binary operator left right ring apart hl hr ihl ihr =>
    -- The operator itself has a variable below it, as nothing is left to simplify.
    have below := (Droppable.binary ring apart hl hr).readsVariable normal Bool.false_ne_true
    rw [nodes, normal_cons, normal_append] at normal
    obtain ⟨x, before, runLeft, finiteLeft, readsLeft⟩ := ihl normal.2.1 finite.1
    obtain ⟨y, after, runRight, finiteRight, readsRight⟩ := ihr normal.2.2 finite.2
    obtain ⟨z, value, isFinite⟩ := isFinite_apply_iff ring left right x y
    refine ⟨z, _, value ▸ yields_evalBinary ring runLeft runRight, ?_, ?_⟩
    · rw [isFinite, finiteLeft, finiteRight]
      simp only [List.forall_mem_append, List.forall_mem_singleton]
    · simp only [List.forall_mem_append, List.forall_mem_singleton]
      exact ⟨readsLeft, readsRight, fun _ => below⟩

end

/-- **What is dropped from a product with zero is finite, up to an overflow.**  Simplified
arithmetic that may be dropped yields a number when its variables are finite numbers, and a
finite one exactly if no sum, difference or product of finite numbers in it is too great.  Only
operators with a variable below them can be.  A product of it and a zero becomes zero, on
either side, and was not a number exactly after such an overflow. -/
theorem dropped_product_isNaN_iff {source : Expr} {s : Store} (call : Caller) {frame : Bindings}
    (arithmetic : source.simplify.isFiniteArithmetic)
    (finite : source.simplify.All fun v =>
      ∃ x, s.value? frame v = some (.number x) ∧ x.isFinite) :
    ∃ y events, (source.simplify.eval s call frame).Yields (.number y) events ∧
      (y.isFinite ↔ ∀ event ∈ events, ¬ event.Overflows) ∧
      (∀ event ∈ events, event.Overflows → event.ReadsVariable) ∧
      ∀ z, z == 0 →
        (foldBinary .multiply source.simplify (number z)).isNumber 0 ∧
        (foldBinary .multiply (number z) source.simplify).isNumber 0 ∧
        ((y * z).isNaN ↔ ∃ event ∈ events, event.Overflows) ∧
        ((z * y).isNaN ↔ ∃ event ∈ events, event.Overflows) := by
  have droppable := droppable_iff.mpr arithmetic
  obtain ⟨y, events, yields, isFinite, reads⟩ :=
    droppable.outcome call (normal_simplify source) finite
  -- Finite is what does not overflow, so the result is not finite if something does.
  have overflow : ¬ y.isFinite ↔ ∃ event ∈ events, event.Overflows := by
    rw [isFinite]
    simp only [not_forall, not_not, exists_prop]
  refine ⟨y, events, yields, isFinite, reads, ?_⟩
  intro z hz
  -- Whichever side the zero stands on, the product is dropped, and its value decides.
  obtain ⟨right, left⟩ := droppable.foldBinary_zero hz
  obtain ⟨isNaNRight, isNaNLeft⟩ := Number.isNaN_mul_zero_iff (x := y) hz
  exact ⟨right, left, isNaNRight.trans overflow, isNaNLeft.trans overflow⟩

/-- A variable, and what is known when it has a value. -/
def unknown : Variable := ⟨0, "x", false⟩

def given (x : Float) : Store :=
  ⟨Bindings.set (fun _ => none) unknown.serial (.number x), fun _ => none⟩

/-- The sum of a variable and two. -/
def plusTwo : Expr := binary .add (var unknown) (number 2)

/-- The greatest number. -/
def greatest : Float := Float.ofBits 0x7fefffffffffffff

/-- A caller for expressions without calls. -/
def noCaller : Caller := fun f _ => Run.halt (.unknown f)

/-- Two more than the greatest number is still finite, so that nothing overflows. -/
theorem greatest_plus_two_isFinite :
    plusTwo.simplify.isFiniteArithmetic ∧
      (plusTwo.simplify.All fun v =>
        ∃ x, (given greatest).value? (fun _ => none) v = some (.number x) ∧ x.isFinite) ∧
      ∃ y events, (plusTwo.simplify.eval (given greatest) noCaller fun _ => none).Yields
          (.number y) events ∧
        y.isFinite ∧ (∀ event ∈ events, ¬ event.Overflows) ∧ ¬ (y * 0).isNaN := by
  have evaluated : (plusTwo.simplify.eval (given greatest) noCaller fun _ => none).Ends
      fun y _ => y.toNumber.isFinite := by
    decide +kernel
  -- There is one variable, and it has the greatest finite number.
  have finite : plusTwo.simplify.All fun v =>
      ∃ x, (given greatest).value? (fun _ => none) v = some (.number x) ∧ x.isFinite :=
    ⟨⟨greatest, rfl, by decide⟩, trivial⟩
  obtain ⟨y, events, yields, isFinite, -, zero⟩ := dropped_product_isNaN_iff noCaller rfl finite
  -- The evaluation has one result, so the one known to be finite is this one.
  obtain ⟨y', events', yields', holds⟩ := evaluated
  obtain ⟨rfl, -⟩ := yields'.unique yields
  obtain ⟨-, -, isNaN, -⟩ := zero 0 rfl
  refine ⟨rfl, finite, y, events, yields, holds, isFinite.mp holds, ?_⟩
  rw [isNaN]
  intro ⟨event, mem, overflows⟩
  exact isFinite.mp holds event mem overflows

/-- A variable added to itself. -/
def doubled : Expr := binary .add (var unknown) (var unknown)

/-- Twice a finite number is not finite, and a product of it with zero becomes zero that was not
a number. -/
theorem doubled_not_isFinite :
    doubled.simplify.isFiniteArithmetic ∧
      (doubled.simplify.All fun v => ∃ x,
        (given (Float.ofBits 0x7fe1ccf385ebc8a0)).value? (fun _ => none) v = some (.number x) ∧
          x.isFinite) ∧
      ((doubled.simplify.eval (given (Float.ofBits 0x7fe1ccf385ebc8a0)) noCaller fun _ => none).Ends
        fun y _ => ¬ y.toNumber.isFinite ∧ (y.toNumber * 0).isNaN) ∧
      foldBinary .multiply doubled.simplify (number 0) = number 0 := by
  refine ⟨rfl, ?_, by decide +kernel, rfl⟩
  exact ⟨⟨_, rfl, by decide⟩, _, rfl, by decide⟩

end Expr

end Resolved

end Frontend
