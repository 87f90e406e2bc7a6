import Frontend.Proofs.Number.Packing

/-!
# Rounding

How the parts of a result are rounded to the parts of a number.

* **`Approximates`**: what is known of the quotient that a mantissa stands for, from its whole
  part and the two bits behind it.  Shifting bits out keeps this (`approximates_shiftRight`).
* **`Approximates.lt_iff`**: this is enough to compare the quotient with any number of halves,
  and so to tell how it is rounded.
* **`target`**: the exponent that parts are brought to, which leaves 53 bits of the mantissa
  or is the least exponent there is (`bounds_of_target`).
* **`roundWithAccuracy_eq`**: all that rounding can make of a mantissa.
-/

namespace Frontend.Number

open Float.Model (UnpackedFloat Format totalExponent)
open Float.Model.UnpackedFloat

/-! ## Rounding to nearest -/

/-- The whole halves in what an extended mantissa stands for. -/
def halves (em : ExtendedMantissa) : Nat := 2 * em.mantissa + em.roundBit.toNat

/-- What an extended mantissa says of the quotient of `m` by `d`: how many whole halves there are
in it, and whether anything is left then. -/
def Approximates (em : ExtendedMantissa) (m d : Nat) : Prop :=
  if em.stickyBit then halves em * d < 2 * m ∧ 2 * m < (halves em + 1) * d
  else 2 * m = halves em * d

section

variable {em : ExtendedMantissa} {m d n : Nat}

/-- The last bit of the mantissa becomes the half. -/
theorem halves_shiftRightOne (em : ExtendedMantissa) : halves em.shiftRightOne = em.mantissa := by
  show 2 * (em.mantissa / 2) + (em.mantissa % 2 != 0).toNat = em.mantissa
  rcases Nat.mod_two_eq_zero_or_one em.mantissa with even | odd
  · rw [even]
    exact Nat.two_mul_div_two_of_even (Nat.even_iff.mpr even)
  · rw [odd]
    exact Nat.two_mul_div_two_add_one_of_odd (Nat.odd_iff.mpr odd)

theorem Approximates.shiftRightOne (positive : 0 < d) (h : Approximates em m d) :
    Approximates em.shiftRightOne m (d * 2) := by
  have sticky : em.shiftRightOne.stickyBit = (em.roundBit || em.stickyBit) := rfl
  rw [Approximates, halves_shiftRightOne, sticky]
  obtain ⟨q, half, more⟩ := em
  -- What was a half is a quarter now, and goes with the rest.
  cases half <;> cases more <;>
    simp only [Approximates, halves, Bool.toNat_false, Bool.toNat_true, Nat.add_zero,
      Bool.or_false, Bool.or_true, Bool.false_eq_true, if_false, if_true] at h ⊢
  · linarith
  · constructor <;> linarith [h.1, h.2]
  · constructor <;> linarith
  · constructor <;> linarith [h.1, h.2]

theorem approximates_shiftRight (m k : Nat) :
    Approximates (ExtendedMantissa.ofMantissaAndAccuracy m .exact >>> k) m (2 ^ k) := by
  show Approximates (k.repeat ExtendedMantissa.shiftRightOne _) m (2 ^ k)
  induction k with
  | zero => exact (Nat.mul_one _).symm
  | succ k ih =>
    rw [Nat.repeat, Nat.pow_succ]
    exact ih.shiftRightOne (Nat.two_pow_pos k)

/-- The whole halves tell how a quotient compares with any number of halves. -/
theorem Approximates.lt_iff (positive : 0 < d) (h : Approximates em m d) :
    2 * m < n * d ↔ halves em < n := by
  unfold Approximates at h
  by_cases sticky : em.stickyBit
  · rw [if_pos sticky] at h
    constructor
    · intro lt
      exact Nat.lt_of_mul_lt_mul_right (h.1.trans lt)
    · intro lt
      exact h.2.trans_le (Nat.mul_le_mul_right d lt)
  · rw [if_neg sticky] at h
    rw [h, Nat.mul_lt_mul_right positive]

/-- Rounding moves a mantissa by half a step at most. -/
theorem roundedMantissa_bounds (em : ExtendedMantissa) :
    2 * em.roundedMantissa ≤ halves em + 1 ∧ halves em ≤ 2 * em.roundedMantissa + 1 := by
  obtain ⟨q, half, more⟩ := em
  cases half <;> cases more <;>
    simp only [halves, ExtendedMantissa.roundedMantissa, ExtendedMantissa.accuracy,
      Accuracy.roundToNearestEven, Bool.toNat_false, Bool.toNat_true] <;>
    omega

theorem Approximates.le_roundedMantissa (positive : 0 < d) (h : Approximates em m d)
    (low : n * d ≤ m) : n ≤ em.roundedMantissa := by
  have below : ¬ 2 * m < 2 * n * d := by linarith
  rw [h.lt_iff positive] at below
  have bounds := roundedMantissa_bounds em
  omega

theorem Approximates.roundedMantissa_le (positive : 0 < d) (h : Approximates em m d)
    (high : m < n * d) : em.roundedMantissa ≤ n := by
  have above : 2 * m < 2 * n * d := by linarith
  rw [h.lt_iff positive] at above
  have bounds := roundedMantissa_bounds em
  omega

/-- A quotient is rounded to an odd number, or below, exactly if it is less than half a step
above that number.  From the middle it is rounded up, to the even one. -/
theorem Approximates.roundedMantissa_le_odd_iff (positive : 0 < d) (h : Approximates em m d)
    (odd : n % 2 = 1) : em.roundedMantissa ≤ n ↔ 2 * m < (2 * n + 1) * d := by
  rw [h.lt_iff positive]
  obtain ⟨q, half, more⟩ := em
  cases half <;> cases more <;>
    simp only [halves, ExtendedMantissa.roundedMantissa, ExtendedMantissa.accuracy,
      Accuracy.roundToNearestEven, Bool.toNat_false, Bool.toNat_true] <;>
    omega

end

/-! ## The exponent of a rounded number -/

theorem minExponent_eq : Format.binary64.minExponent = -1074 := by decide

theorem targetExponent_eq (m : Nat) (e : Int) :
    Format.binary64.targetExponent (totalExponent m e) = max (m.log2 + 1 + e - 53) (-1074) := by
  simp only [Format.targetExponent, totalExponent, minExponent_eq, width_eq]
  rfl

/-- The exponent that the parts of a number are brought to. -/
def target (m : Nat) (e : Int) : Int := Format.binary64.targetExponent (totalExponent m e)

/-- Aimed at its exponent, a mantissa has 53 bits, unless the exponent is the least one. -/
theorem bounds_of_target {m k : Nat} {e : Int} (positive : 0 < m) (fits : e + k = target m e) :
    -1074 ≤ e + k ∧ m < 2 ^ 53 * 2 ^ k ∧ (e + k = -1074 ∨ 2 ^ 52 * 2 ^ k ≤ m) := by
  rw [target, targetExponent_eq] at fits
  -- The length of the mantissa is known, and with it how many bits are shifted out.
  have high : m < 2 ^ (m.log2 + 1) := Nat.lt_log2_self
  have low : 2 ^ m.log2 ≤ m := Nat.log2_self_le (by omega)
  refine ⟨by omega, ?_, ?_⟩
  · rw [← Nat.pow_add]
    exact high.trans_le (Nat.pow_le_pow_right (by decide) (by omega))
  · by_cases least : e + k = -1074
    · exact .inl least
    · right
      rw [← Nat.pow_add]
      exact (Nat.pow_le_pow_right (by decide) (by omega)).trans low

theorem shiftToTargetExponent_short {r : Nat} {e : Int} (short : r < 2 ^ 53) (low : -1074 ≤ e) :
    shiftToTargetExponent .binary64 r e .exact = (⟨r, false, false⟩, e) := by
  have log : r.log2 < 53 := by
    by_cases zero : r = 0
    · subst zero
      decide
    · exact (Nat.log2_lt zero).mpr short
  have amount : (Format.binary64.targetExponent (totalExponent r e) - e).toNat = 0 := by
    rw [targetExponent_eq]
    omega
  unfold shiftToTargetExponent shiftToExponent
  simp only [amount, Int.natCast_zero, Int.add_zero]
  rfl

theorem shiftToTargetExponent_carry {e : Int} (low : -1074 ≤ e) :
    shiftToTargetExponent .binary64 (2 ^ 53) e .exact = (⟨2 ^ 52, false, false⟩, e + 1) := by
  have amount : (Format.binary64.targetExponent (totalExponent (2 ^ 53) e) - e).toNat = 1 := by
    rw [targetExponent_eq, Nat.log2_two_pow]
    omega
  unfold shiftToTargetExponent shiftToExponent
  simp only [amount]
  rfl

/-- What rounding makes of a mantissa and an exponent: nothing, a mantissa of up to 53 bits, or
one with a carry into the next bit. -/
theorem roundWithAccuracy_eq (sign : Sign) {m k : Nat} {e : Int} (positive : 0 < m)
    (fits : e + k = target m e) : ∃ em, Approximates em m (2 ^ k) ∧ em.roundedMantissa ≤ 2 ^ 53 ∧
      roundWithAccuracy .binary64 sign m e .exact =
        if h : em.roundedMantissa = 0 then .zero sign
        else if em.roundedMantissa < 2 ^ 53 then
          .finite sign em.roundedMantissa (e + k) (Nat.pos_of_ne_zero h)
        else .finite sign (2 ^ 52) (e + k + 1) (by decide) := by
  have approximates := approximates_shiftRight m k
  obtain ⟨low, high, -⟩ := bounds_of_target positive fits
  have bounded := approximates.roundedMantissa_le (Nat.two_pow_pos k) high
  -- The distance to the target exponent is the number of digits that are shifted out.
  have amount : (Format.binary64.targetExponent (totalExponent m e) - e).toNat = k := by
    rw [← target]
    omega
  refine ⟨_, approximates, bounded, ?_⟩
  unfold roundWithAccuracy
  rw [show shiftToTargetExponent .binary64 m e .exact =
    (ExtendedMantissa.ofMantissaAndAccuracy m .exact >>> k, e + k) by
      unfold shiftToTargetExponent shiftToExponent
      simp only [amount]]
  dsimp only
  generalize (ExtendedMantissa.ofMantissaAndAccuracy m .exact >>> k).roundedMantissa = r at bounded
  -- Rounding up past the last mantissa of 53 digits is the only way to need a second shift.
  by_cases short : r < 2 ^ 53
  · simp only [shiftToTargetExponent_short short low, short, if_true]
  · have carry : r = 2 ^ 53 := by omega
    subst carry
    simp only [shiftToTargetExponent_carry low]
    rfl

end Frontend.Number
