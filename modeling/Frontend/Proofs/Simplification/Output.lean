import Frontend.Proofs.Number.Zeros
import Frontend.Proofs.Resolving.Constants
import Frontend.Proofs.Run.Fuel

/-!
# What is printed is kept

Zeros of either sign are printed alike.  Up to the sign of zeros, simplifying changes
nothing in a run that is fair to it:

* nothing is divided by zero, and no zero is raised to a power that depends on its sign;
* where folding lets a neutral number disappear, the other operand is a number and not
  a truth value;
* where folding lets an operand disappear in a product with zero, its value is finite.

**`Event.Fair`** says so of a single event, and **`upToZeros`** is the tolerance.  Without
the last two conditions the rules are not sound: `x + 0` is a number even if `x` is a
truth value (`simplify_changes_output`), and `(x + x) * 0` is no zero if the sum is
infinite.
-/

namespace Frontend

/-- Whether a value is a number. -/
def Value.isNumber : Value → Bool
  | number _ => true
  | boolean _ => false

namespace Resolved

open Number

/-! ## Fair runs -/

/-- What a binary operator is applied to, if simplifying its node is not to be noticed. -/
structure FairOperands (operator : BinaryOperator) (left right : Expr) (x y : Value) : Prop where
  /-- No division by zero. -/
  divisor : operator = .divide ∨ operator = .modulo → ¬ y.toNumber == 0
  /-- No power that tells one zero from the other. -/
  base : operator = .power → x.toNumber == 0 →
    Alike (power 0 y.toNumber) (power (-0) y.toNumber)
  /-- A number on the left of what is folded to a neutral number. -/
  besideRight : operator.rightNeutral?.any (right.simplify.isNumber ·) → x.isNumber
  /-- A number on the right of what is folded to a neutral number. -/
  besideLeft : operator.leftNeutral?.any (left.simplify.isNumber ·) → y.isNumber
  /-- A finite value on the left of what is folded to zero, if it is dropped. -/
  droppedLeft : operator = .multiply → right.simplify.isNumber 0 →
    left.simplify.isFiniteArithmetic → x.toNumber.isFinite
  /-- A finite value on the right of what is folded to zero, if it is dropped. -/
  droppedRight : operator = .multiply → left.simplify.isNumber 0 →
    right.simplify.isFiniteArithmetic → y.toNumber.isFinite

instance (x y : Float) : Decidable (Alike x y) :=
  inferInstanceAs (Decidable (x = y ∨ (x == 0 ∧ y == 0)))

instance (operator : BinaryOperator) (left right : Expr) (x y : Value) :
    Decidable (FairOperands operator left right x y) :=
  decidable_of_iff
    ((operator = .divide ∨ operator = .modulo → ¬ y.toNumber == 0) ∧
      (operator = .power → x.toNumber == 0 →
        Alike (power 0 y.toNumber) (power (-0) y.toNumber)) ∧
      (operator.rightNeutral?.any (right.simplify.isNumber ·) → x.isNumber) ∧
      (operator.leftNeutral?.any (left.simplify.isNumber ·) → y.isNumber) ∧
      (operator = .multiply → right.simplify.isNumber 0 →
        left.simplify.isFiniteArithmetic → x.toNumber.isFinite) ∧
      (operator = .multiply → left.simplify.isNumber 0 →
        right.simplify.isFiniteArithmetic → y.toNumber.isFinite))
    ⟨fun ⟨h₁, h₂, h₃, h₄, h₅, h₆⟩ => ⟨h₁, h₂, h₃, h₄, h₅, h₆⟩,
      fun ⟨h₁, h₂, h₃, h₄, h₅, h₆⟩ => ⟨h₁, h₂, h₃, h₄, h₅, h₆⟩⟩

/-- Binary operators are applied to fair operands. -/
def Event.Fair : Event → Prop
  | .binary operator left right x y _ => FairOperands operator left right x y
  | .unary .. | .receive .. | .call .. | .print _ => True

instance : DecidablePred Event.Fair
  | .binary operator left right x y _ =>
    inferInstanceAs (Decidable (FairOperands operator left right x y))
  | .unary .. | .receive .. | .call .. | .print _ => isTrue trivial

/-- The values that are printed, as they are printed. -/
def outputs (t : List Event) : List String :=
  t.filterMap fun
    | .print x => some x.render
    | _ => none

/-! ## Operators and the sign of zeros -/

section

variable {operator : BinaryOperator} {left right : Expr} {x x' y y' : Value} {z n : Float}

theorem truth_eq {a b : Float} (h : Alike a b) :
    (Value.number a).truth = (Value.number b).truth := by
  rcases h with rfl | ⟨ha, hb⟩
  · rfl
  · simp only [Value.truth, bne, ha, hb, Bool.not_true, Bool.false_and]

theorem toNumber_alike (h : x.Like Alike x') : Alike x.toNumber x'.toNumber := by
  cases x <;> cases x'
  · exact h
  · cases h
  · cases h
  · cases (show _ = _ from h)
    exact Alike.refl _

/-- The sign of a zero does not matter to an operator with fair operands. -/
theorem apply_alike (hx : x.Like Alike x') (hy : y.Like Alike y')
    (fair : FairOperands operator left right x y) :
    (operator.apply x y).Like Alike (operator.apply x' y') := by
  have hx := toNumber_alike hx
  have hy' := toNumber_alike hy
  -- Only the quotient and the power need to know anything about the operands.
  cases operator with
  | or | and => exact hy
  | less => exact decide_eq_decide.mpr (Alike.lt_iff hx hy')
  | lessEqual => exact decide_eq_decide.mpr (Alike.le_iff hx hy')
  | equal => exact Alike.beq_eq hx hy'
  | notEqual => exact congrArg (!·) (Alike.beq_eq hx hy')
  | greaterEqual => exact decide_eq_decide.mpr (Alike.le_iff hy' hx)
  | greater => exact decide_eq_decide.mpr (Alike.lt_iff hy' hx)
  | add => exact Alike.add hx hy'
  | subtract => exact Alike.sub hx hy'
  | multiply => exact Alike.mul hx hy'
  | divide => exact Alike.div hx hy' (fair.divisor (Or.inl rfl))
  | modulo => exact Alike.remainder hx hy'
  | power => exact Alike.power hx hy' (fair.base rfl)

/-- What is neutral on the right of a number does nothing but to the sign of a zero. -/
theorem apply_rightNeutral_alike {z' : Float} (neutral : operator.rightNeutral? = some n)
    (hz : z' == n) (same : Alike z z') (hx : x.isNumber) :
    (operator.apply x (.number z)).Like Alike x := by
  cases x with
  | boolean b => cases hx
  | number a =>
    cases operator <;> cases neutral <;> simp only [BinaryOperator.apply, Value.toNumber, Value.Like]
    · exact Alike.add_zero (same.symm.beq_zero hz)
    · exact Alike.sub_zero (same.symm.beq_zero hz)
    · rw [Alike.eq_one_of_beq hz same, mul_one]
      exact Alike.refl a
    · rw [Alike.eq_one_of_beq hz same, div_one]
      exact Alike.refl a
    · rw [Alike.eq_one_of_beq hz same, power_one]
      exact Alike.refl a

/-- What is neutral on the left of a number does nothing but to the sign of a zero. -/
theorem apply_leftNeutral_alike {z' : Float} (neutral : operator.leftNeutral? = some n)
    (hz : z' == n) (same : Alike z z') (hx : x.isNumber) :
    (operator.apply (.number z) x).Like Alike x := by
  cases x with
  | boolean b => cases hx
  | number a =>
    cases operator <;> cases neutral <;> simp only [BinaryOperator.apply, Value.toNumber, Value.Like]
    · exact Alike.zero_add (same.symm.beq_zero hz)
    · rw [Alike.eq_one_of_beq hz same, one_mul]
      exact Alike.refl a

end

/-! ## The tolerance -/

theorem isNumber_of_simplify {e : Expr} {z n : Float} (h : e.simplify = .number z) (hz : z == n) :
    e.simplify.isNumber n := by
  rw [h]
  exact hz

/-- A function of numbers does not tell one zero from the other. -/
def RespectsZeros (library : String → List Float → Option Float) : Prop :=
  ∀ name xs xs' y, List.Forall₂ Alike xs xs' → library name xs = some y →
    ∃ y', library name xs' = some y' ∧ Alike y y'

/-- The tolerance that does not tell one zero from the other. -/
def upToZeros (m : Machine) (respects : RespectsZeros m.library) : Tolerance m where
  same := Alike
  permits := Event.Fair
  refl := Alike.refl
  trans := Alike.trans
  truth := truth_eq
  negate := Alike.neg
  binary hx hy fair := apply_alike hx hy fair
  library name xs xs' y related h := respects name xs xs' y related h
  rightNeutral neutral simplified hz same fair := by
    refine apply_rightNeutral_alike neutral hz same (fair.besideRight ?_)
    rw [neutral]
    exact isNumber_of_simplify simplified hz
  leftNeutral neutral simplified hz same fair := by
    refine apply_leftNeutral_alike neutral hz same (fair.besideLeft ?_)
    rw [neutral]
    exact isNumber_of_simplify simplified hz
  zeroRight simplified hz arithmetic same fair := by
    have finite := fair.droppedLeft rfl (isNumber_of_simplify simplified hz) arithmetic
    exact Or.inr ⟨mul_zero_of_finite finite (same.symm.beq_zero hz), rfl⟩
  zeroLeft simplified hz arithmetic same fair := by
    have finite := fair.droppedRight rfl (isNumber_of_simplify simplified hz) arithmetic
    exact Or.inr ⟨zero_mul_of_finite finite (same.symm.beq_zero hz), rfl⟩

/-! ## What is kept -/

theorem render_eq {x y : Value} (h : x.Like Alike y) : x.render = y.render := by
  cases x <;> cases y
  · rcases (show Alike _ _ from h) with rfl | ⟨hx, hy⟩
    · rfl
    · simp only [Value.render, hx, hy, if_true]
  · cases h
  · cases h
  · cases (show _ = _ from h)
    rfl

variable {m : Machine} {respects : RespectsZeros m.library}

theorem outputs_filter_visible (t : List Event) : outputs (t.filter Event.visible) = outputs t := by
  unfold outputs
  rw [List.filterMap_filter]
  congr 1
  funext e
  cases e <;> rfl

theorem outputs_eq_of_traces {t u : List Event} (h : (upToZeros m respects).Traces t u) :
    outputs u = outputs t := by
  rw [← outputs_filter_visible t, ← outputs_filter_visible u]
  -- What is printed is among what is seen, and there the runs agree event by event.
  unfold Tolerance.Traces at h
  generalize t.filter Event.visible = t' at h
  generalize u.filter Event.visible = u' at h
  induction h with
  | nil => rfl
  | @cons e e' t' u' same _ ih =>
    cases e with
    | call f xs =>
      cases e' with
      | call g ys => exact ih
      | unary | binary | receive | print => cases same
    | print x =>
      cases e' with
      | print y =>
        show y.render :: outputs u' = x.render :: outputs t'
        rw [ih, render_eq same]
      | unary | binary | receive | call => cases same
    | unary | binary | receive => cases same

/-- **Fair runs print the same.**  The simplified program ends whenever the program does in
a fair run, and prints the same in the same order. -/
theorem simplify_keeps_fair_output (m : Machine) (respects : RespectsZeros m.library)
    {block : Tree.Block} {p : Program} (resolved : Program.ofBlock block = .ok p) {fuel : Nat}
    {s : Store} {t : List Event} (run : (p.run m fuel).Yields s t) (fair : ∀ e ∈ t, e.Fair) :
    ∃ s' t', (p.simplify.run m fuel).Yields s' t' ∧ outputs t' = outputs t := by
  have follows : (upToZeros m respects).Follows (upToZeros m respects).Stores (p.run m fuel)
      (p.simplify.run m fuel) :=
    Tolerance.run_follows fuel p (sparesPi_ofBlock resolved)
  obtain ⟨s', t', run', -, traces⟩ := follows run fair
  exact ⟨s', t', run', outputs_eq_of_traces traces⟩

/-- A program with a negative zero, a recursion and a built-in function. -/
def zeros : String :=
  "let x = -3; print x * 0; print (x * 0 + 0) * 1; function f(n) = n < 1 ? 1 : n * f(n - 1);" ++
  "print sqrt(16) * 1 + f(2); print true && 3 > 2;"

/-- A machine that knows one value of one function and leaves loops after a while. -/
def squareRoots : Machine where
  library name arguments := if name = "sqrt" ∧ arguments = [16] then some 4 else none
  loopLimit := some 1000

theorem respectsZeros_squareRoots : RespectsZeros squareRoots.library := by
  intro name xs xs' y related h
  -- A number like `16` can only differ from it in the sign of a zero.
  have same {a b : Float} (ha : a = 16) (h : Alike a b) : a = b := by
    rcases h with rfl | ⟨zero, -⟩
    · rfl
    · rw [ha] at zero
      exact absurd zero (by decide)
  by_cases known : name = "sqrt" ∧ xs = [16]
  · -- Nothing but `16` is like `16`, as it is no zero.
    obtain ⟨rfl, rfl⟩ := known
    cases related with
    | cons alike rest =>
      cases rest
      rw [← same rfl alike]
      exact ⟨y, h, Alike.refl y⟩
  · simp only [squareRoots, if_neg known] at h
    cases h

theorem simplify_keeps_output_of_zeros :
    ∃ s t, ((programOf zeros).run squareRoots 5).Yields s t ∧ (∀ e ∈ t, e.Fair) ∧
      ∃ s' t', ((programOf zeros).simplify.run squareRoots 5).Yields s' t' ∧
        outputs t' = outputs t := by
  have evaluated : (analyzed zeros).toOption.isSome ∧
      ((programOf zeros).run squareRoots 5).Ends fun _ t => ∀ e ∈ t, e.Fair := by
    decide +kernel
  obtain ⟨accepted, s, t, run, fair⟩ := evaluated
  obtain ⟨block, -, resolved⟩ := exists_ofBlock_eq (analyzed_eq_programOf accepted)
  exact ⟨s, t, run, fair,
    simplify_keeps_fair_output squareRoots respectsZeros_squareRoots resolved run fair⟩

/-- Nothing is divided by zero, and no variable gets a value that is not finite.  This
is not enough. -/
def Event.Tame : Event → Prop
  | .binary operator _ _ _ y _ => operator = .divide ∨ operator = .modulo → ¬ y.toNumber == 0
  | .receive _ x => x.toNumber.isFinite
  | .unary .. | .call .. | .print _ => True

instance : DecidablePred Event.Tame
  | .binary operator _ _ _ y _ => inferInstanceAs
      (Decidable (operator = .divide ∨ operator = .modulo → ¬ y.toNumber == 0))
  | .receive _ x => inferInstanceAs (Decidable (x.toNumber.isFinite = true))
  | .unary .. | .call .. | .print _ => isTrue trivial

/-- A text with a program that runs, with nothing divided by zero and a finite value for
every variable, but prints what no run of the simplified program prints. -/
def OutputChanges (m : Machine) (source : String) : Prop :=
  ∃ block p fuel s t, parsed source = .ok block ∧ Program.ofBlock block = .ok p ∧
    (p.run m fuel).Yields s t ∧ (∀ e ∈ t, e.Tame) ∧
    ∀ fuel' s' t', (p.simplify.run m fuel').Yields s' t' → outputs t' ≠ outputs t

theorem outputChanges_of_ends {source : String} {fuel : Nat} {before after : List String}
    (accepted : (analyzed source).toOption.isSome)
    (original : ((programOf source).run m fuel).Ends
      fun _ t => (∀ e ∈ t, e.Tame) ∧ outputs t = before)
    (simplified : ((programOf source).simplify.run m fuel).Ends fun _ t => outputs t = after)
    (different : after ≠ before) : OutputChanges m source := by
  obtain ⟨block, read, resolved⟩ := exists_ofBlock_eq (analyzed_eq_programOf accepted)
  obtain ⟨s, t, run, tame, rfl⟩ := original
  obtain ⟨s', t', run', rfl⟩ := simplified
  refine ⟨block, programOf source, fuel, s, t, read, resolved, run, tame, ?_⟩
  intro fuel' s'' t'' run''
  obtain ⟨-, rfl⟩ := Program.run_unique run' run''
  exact different

/-- The program prints `1` but the truth value when simplified, and what is not a number
but `0`. -/
theorem simplify_changes_output :
    OutputChanges squareRoots "let b = true; print b + 0;" ∧
      OutputChanges squareRoots "let x = 1E308; print (x + x) * 0;" := by
  constructor
  -- Both programs are run to their end, where what they have printed differs.
  · have evaluated : (analyzed "let b = true; print b + 0;").toOption.isSome ∧
        ((programOf "let b = true; print b + 0;").run squareRoots 1).Ends
          (fun _ t => (∀ e ∈ t, e.Tame) ∧ outputs t = ["1"]) ∧
        ((programOf "let b = true; print b + 0;").simplify.run squareRoots 1).Ends
          (fun _ t => outputs t = ["true"]) := by
      decide +kernel
    exact outputChanges_of_ends evaluated.1 evaluated.2.1 evaluated.2.2 (by decide)
  · have evaluated : (analyzed "let x = 1E308; print (x + x) * 0;").toOption.isSome ∧
        ((programOf "let x = 1E308; print (x + x) * 0;").run squareRoots 1).Ends
          (fun _ t => (∀ e ∈ t, e.Tame) ∧ outputs t = ["NaN"]) ∧
        ((programOf "let x = 1E308; print (x + x) * 0;").simplify.run squareRoots 1).Ends
          (fun _ t => outputs t = ["0"]) := by
      decide +kernel
    exact outputChanges_of_ends evaluated.1 evaluated.2.1 evaluated.2.2 (by decide)

end Resolved

end Frontend
