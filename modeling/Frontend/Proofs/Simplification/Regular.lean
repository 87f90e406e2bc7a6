import Frontend.Proofs.Number.Neutral
import Frontend.Proofs.Resolving.Constants

/-!
# Regular runs are kept exactly

A run is regular when arithmetic in it is about finite numbers other than the negative
zero, for all operands and all results.  Then simplifying changes nothing at all: not
a bit of any value that is printed, passed to a function or left in a variable.

* **`Event.Regular`**: what regularity asks of a single event.
* **`exactly`**: the tolerance that tells all numbers apart.  Its rules hold because the
  only zero that a regular run computes with is the one that literals stand for.
-/

namespace Frontend

namespace Number

/-! ## Numbers other than the negative zero -/

section

variable {a : Float}

theorem add_zero (h : a ≠ -0) : a + 0 = a := by
  by_cases zero : a == 0
  · rw [eq_zero_of_beq zero h]
    rfl
  · exact add_zero_of_ne rfl zero

theorem zero_add (h : a ≠ -0) : 0 + a = a := by
  by_cases zero : a == 0
  · rw [eq_zero_of_beq zero h]
    rfl
  · exact zero_add_of_ne rfl zero

theorem sub_zero (h : a ≠ -0) : a - 0 = a := by
  by_cases zero : a == 0
  · rw [eq_zero_of_beq zero h]
    rfl
  · exact sub_zero_of_ne rfl zero

end

end Number

/-- Numbers that are finite and not the negative zero. -/
def Value.IsRegular : Value → Prop
  | .number x => x.isFinite ∧ x ≠ -0
  | .boolean _ => False

namespace Resolved

open Number

/-- Arithmetic on regular numbers, with a regular result. -/
def Event.Regular : Event → Prop
  | .unary .negate x result => x.IsRegular ∧ result.IsRegular
  | .binary operator _ _ x y result =>
    operator.isArithmetic → x.IsRegular ∧ y.IsRegular ∧ result.IsRegular
  | .unary .not .. | .receive .. | .call .. | .print _ => True

instance : DecidablePred Value.IsRegular
  | .number x => inferInstanceAs (Decidable (x.isFinite ∧ x ≠ -0))
  | .boolean _ => isFalse id

instance : DecidablePred Event.Regular
  | .unary .negate x result => inferInstanceAs (Decidable (x.IsRegular ∧ result.IsRegular))
  | .binary operator _ _ x y result => inferInstanceAs
      (Decidable (operator.isArithmetic → x.IsRegular ∧ y.IsRegular ∧ result.IsRegular))
  | .unary .not .. | .receive .. | .call .. | .print _ => isTrue trivial

section

variable {operator : BinaryOperator} {x : Value} {z n : Float}

theorem isArithmetic_of_rightNeutral? (h : operator.rightNeutral? = some n) :
    operator.isArithmetic := by
  cases operator <;> first | rfl | cases h

theorem isArithmetic_of_leftNeutral? (h : operator.leftNeutral? = some n) :
    operator.isArithmetic := by
  cases operator <;> first | rfl | cases h

/-- What is neutral on the right of a regular number changes nothing. -/
theorem apply_rightNeutral (neutral : operator.rightNeutral? = some n) (hz : z == n)
    (hx : x.IsRegular) (regular : (Value.number z).IsRegular) : operator.apply x (.number z) = x := by
  cases x with
  | boolean b => cases hx
  | number a =>
    cases operator <;> cases neutral <;> simp only [BinaryOperator.apply, Value.toNumber]
    · rw [eq_zero_of_beq hz regular.2, add_zero hx.2]
    · rw [eq_zero_of_beq hz regular.2, sub_zero hx.2]
    · rw [eq_one_of_beq hz, mul_one]
    · rw [eq_one_of_beq hz, div_one]
    · rw [eq_one_of_beq hz, power_one]

/-- What is neutral on the left of a regular number changes nothing. -/
theorem apply_leftNeutral (neutral : operator.leftNeutral? = some n) (hz : z == n)
    (hx : x.IsRegular) (regular : (Value.number z).IsRegular) : operator.apply (.number z) x = x := by
  cases x with
  | boolean b => cases hx
  | number a =>
    cases operator <;> cases neutral <;> simp only [BinaryOperator.apply, Value.toNumber]
    · rw [eq_zero_of_beq hz regular.2, zero_add hx.2]
    · rw [eq_one_of_beq hz, one_mul]

/-- A regular product with a zero is the zero that is not negative. -/
theorem apply_zeroRight (hz : z == 0) (hx : x.IsRegular)
    (result : (BinaryOperator.multiply.apply x (.number z)).IsRegular) :
    BinaryOperator.multiply.apply x (.number z) = .number 0 := by
  cases x with
  | boolean b => cases hx
  | number a =>
    -- There are two zeros, and the result is not the negative one.
    have zero := mul_zero_of_finite hx.1 hz
    exact congrArg Value.number (eq_zero_of_beq zero result.2)

theorem apply_zeroLeft (hz : z == 0) (hx : x.IsRegular)
    (result : (BinaryOperator.multiply.apply (.number z) x).IsRegular) :
    BinaryOperator.multiply.apply (.number z) x = .number 0 := by
  cases x with
  | boolean b => cases hx
  | number a =>
    have zero := zero_mul_of_finite hx.1 hz
    exact congrArg Value.number (eq_zero_of_beq zero result.2)

end

theorem like_eq_iff {x y : Value} : x.Like (· = ·) y ↔ x = y := by
  cases x <;> cases y <;> simp [Value.Like]

theorem eq_of_forall₂ {α : Type} {xs ys : List α} (h : List.Forall₂ (· = ·) xs ys) : xs = ys := by
  rwa [List.forall₂_eq_eq_eq] at h

/-- The tolerance that tells all numbers apart. -/
def exactly (m : Machine) : Tolerance m where
  same := (· = ·)
  permits := Event.Regular
  refl _ := rfl
  trans := Eq.trans
  truth := congrArg fun x => (Value.number x).truth
  negate := congrArg (- ·)
  binary hx hy _ := by
    rw [like_eq_iff] at hx hy ⊢
    rw [hx, hy]
  library name xs xs' y related h := by
    rw [eq_of_forall₂ related] at h
    exact ⟨y, h, rfl⟩
  rightNeutral neutral _ hz same permitted := by
    subst same
    obtain ⟨hx, regular, -⟩ := permitted (isArithmetic_of_rightNeutral? neutral)
    exact like_eq_iff.mpr (apply_rightNeutral neutral hz hx regular)
  leftNeutral neutral _ hz same permitted := by
    subst same
    obtain ⟨regular, hx, -⟩ := permitted (isArithmetic_of_leftNeutral? neutral)
    exact like_eq_iff.mpr (apply_leftNeutral neutral hz hx regular)
  zeroRight _ hz _ same permitted := by
    subst same
    obtain ⟨hx, -, result⟩ := permitted rfl
    exact like_eq_iff.mpr (apply_zeroRight hz hx result)
  zeroLeft _ hz _ same permitted := by
    subst same
    obtain ⟨-, hx, result⟩ := permitted rfl
    exact like_eq_iff.mpr (apply_zeroLeft hz hx result)

/-! ## What is kept -/

section

variable {m : Machine}

theorem eq_of_binds {b b' : Bindings} (h : (exactly m).Binds b b') : b' = b := by
  funext n
  have like := h n
  generalize b n = x at like
  generalize b' n = x' at like
  cases like with
  | some like => rw [like_eq_iff.mp like]
  | none => rfl

theorem eq_of_match {e e' : Event} (h : (exactly m).Match e e') : e = e' := by
  cases e with
  | call f xs =>
    cases e' with
    | call g ys =>
      obtain ⟨rfl, related⟩ := h
      rw [eq_of_forall₂ related]
    | unary | binary | receive | print => cases h
  | print x =>
    cases e' with
    | print y => rw [like_eq_iff.mp h]
    | unary | binary | receive | call => cases h
  | unary | binary | receive => cases h

theorem eq_of_traces {t u : List Event} (h : (exactly m).Traces t u) :
    u.filter Event.visible = t.filter Event.visible := by
  exact (eq_of_forall₂ (List.Forall₂.imp (fun _ _ => eq_of_match) h)).symm

end

/-- **Regular runs are kept exactly.**  The simplified program ends whenever the program
does in a regular run.  Every variable has the same value then, and the calls and the
printed values are the same in the same order. -/
theorem simplify_keeps_regular_run (m : Machine) {block : Tree.Block} {p : Program}
    (resolved : Program.ofBlock block = .ok p) {fuel : Nat} {s : Store} {t : List Event}
    (run : (p.run m fuel).Yields s t) (regular : ∀ e ∈ t, e.Regular) :
    ∃ s' t', (p.simplify.run m fuel).Yields s' t' ∧ s'.globals = s.globals ∧
      t'.filter Event.visible = t.filter Event.visible := by
  have follows : (exactly m).Follows (exactly m).Stores (p.run m fuel) (p.simplify.run m fuel) :=
    Tolerance.run_follows fuel p (sparesPi_ofBlock resolved)
  obtain ⟨s', t', run', stores, traces⟩ := follows run regular
  exact ⟨s', t', run', eq_of_binds stores.globals, eq_of_traces traces⟩

/-- A program with calls, a loop and something for most of the rules. -/
def factorials : String :=
  "function f(n) = n < 1 ? 1 : n * f(n - 1); let i = 1;" ++
  "while i < 3 \x7b print f(i) * 1 + 0; i = i + 1; \x7d print hypot(3, 4) / 1 - i * 0;"

/-- A machine without a limit for loops, which knows one value of one function. -/
def pythagorean : Machine where
  library name arguments := if name = "hypot" ∧ arguments = [3, 4] then some 5 else none
  loopLimit := none

theorem simplify_keeps_factorials :
    ∃ s t, ((programOf factorials).run pythagorean 5).Yields s t ∧ (∀ e ∈ t, e.Regular) ∧
      ∃ s' t', ((programOf factorials).simplify.run pythagorean 5).Yields s' t' ∧
        s'.globals = s.globals ∧ t'.filter Event.visible = t.filter Event.visible := by
  have evaluated : (analyzed factorials).toOption.isSome ∧
      ((programOf factorials).run pythagorean 5).Ends fun _ t => ∀ e ∈ t, e.Regular := by
    decide +kernel
  obtain ⟨accepted, s, t, run, regular⟩ := evaluated
  obtain ⟨block, -, resolved⟩ := exists_ofBlock_eq (analyzed_eq_programOf accepted)
  exact ⟨s, t, run, regular, simplify_keeps_regular_run pythagorean resolved run regular⟩

end Resolved

end Frontend
