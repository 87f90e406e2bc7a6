import Frontend.Number.Arithmetic
import Frontend.Proofs.Number.Packing

/-!
# Zero and one in arithmetic

What adding a zero, multiplying by a zero, and multiplying or dividing by one do to a
number.

* **Zeros**: there are two of them, which compare as equal.  `beq_zero_iff` says what
  they look like when taken apart.
* **`x + 0`**, **`0 + x`** and **`x - 0`** are `x`, unless `x` is a zero itself and its
  sign changes.
* **`x * 1`**, **`1 * x`** and **`x / 1`** are `x`, always.
* **`x * 0`** is a zero for every finite `x`.
-/

namespace Frontend.Number

open Float.Model (UnpackedFloat Format totalExponent)
open Float.Model.UnpackedFloat

/-! ## Operations on the parts -/

theorem add_eq (x y : Float) :
    x + y = .ofModel (.pack (.add .binary64 x.toModel.unpack y.toModel.unpack)) := rfl

theorem sub_eq (x y : Float) :
    x - y = .ofModel (.pack (.sub .binary64 x.toModel.unpack y.toModel.unpack)) := rfl

theorem mul_eq (x y : Float) :
    x * y = .ofModel (.pack (.mul .binary64 x.toModel.unpack y.toModel.unpack)) := rfl

theorem div_eq (x y : Float) :
    x / y = .ofModel (.pack (.div .binary64 x.toModel.unpack y.toModel.unpack)) := rfl

theorem neg_eq (x : Float) : -x = .ofModel (.pack x.toModel.unpack.neg) := rfl

theorem beq_eq (x y : Float) :
    (x == y) = x.toModel.unpack.beq y.toModel.unpack := rfl

theorem isFinite_eq (x : Float) : x.isFinite = x.toModel.unpack.isFinite := rfl

theorem unpack_zero : (0 : Float).toModel.unpack = .zero .positive := rfl

theorem unpack_one : (1 : Float).toModel.unpack = .finite .positive (2 ^ 52) (-52) (by decide) := rfl

/-! ## Zeros -/

/-- There are two zeros. -/
theorem eq_or_eq_of_beq_zero {x : Float} (zero : x == 0) : x = 0 ∨ x = -0 := by
  obtain ⟨-, -, same | ⟨same, -⟩ | ⟨same, -⟩⟩ := Float.beq_iff_ne_nan_and_eq.mp zero
  · exact Or.inl same
  · exact Or.inl same
  · exact Or.inr same

theorem eq_zero_of_beq {x : Float} (zero : x == 0) (h : x ≠ -0) : x = 0 :=
  (eq_or_eq_of_beq_zero zero).resolve_right h

/-- The numbers that are equal to zero are the zeros of either sign. -/
theorem beq_zero_iff (x : Float) : x == 0 ↔ ∃ sign, x.toModel.unpack = .zero sign := by
  constructor
  · intro zero
    rcases eq_or_eq_of_beq_zero zero with rfl | rfl
    · exact ⟨.positive, rfl⟩
    · exact ⟨.negative, rfl⟩
  · rintro ⟨sign, parts⟩
    rw [beq_eq, unpack_zero, parts]
    cases sign <;> rfl

/-- The zero of a sign. -/
def zeroOf (sign : Sign) : Float := .ofModel (.pack (.zero sign))

theorem unpack_zeroOf (sign : Sign) : (zeroOf sign).toModel.unpack = .zero sign := by
  cases sign <;> rfl

theorem zeroOf_beq_zero (sign : Sign) : zeroOf sign == 0 :=
  (beq_zero_iff _).mpr ⟨sign, unpack_zeroOf sign⟩

/-! ## Neutral operands -/

/-- Only one number is equal to one. -/
theorem eq_one_of_beq {x : Float} (h : x == 1) : x = 1 := by
  obtain ⟨-, -, same | ⟨-, zero⟩ | ⟨-, zero⟩⟩ := Float.beq_iff_ne_nan_and_eq.mp h
  · exact same
  · exact absurd zero (by decide)
  · exact absurd zero (by decide)

theorem not_beq_zero_of_beq_one {x : Float} (h : x == 1) : ¬ x == 0 := by
  rw [eq_one_of_beq h]
  decide

/-- A zero behind a sum or a difference changes nothing but the sign of a zero. -/
theorem add_zero_of_ne {x z : Float} (hz : z == 0) (hx : ¬ x == 0) : x + z = x := by
  obtain ⟨sign, hz⟩ := (beq_zero_iff z).mp hz
  rw [beq_zero_iff] at hx
  rw [add_eq, hz]
  have same : UnpackedFloat.add .binary64 x.toModel.unpack (.zero sign) = x.toModel.unpack := by
    cases h : x.toModel.unpack with
    | zero other => exact absurd ⟨other, h⟩ hx
    | notANumber | infinity | finite => rfl
  rw [same, ofModel_pack_unpack]

theorem zero_add_of_ne {x z : Float} (hz : z == 0) (hx : ¬ x == 0) : z + x = x := by
  obtain ⟨sign, hz⟩ := (beq_zero_iff z).mp hz
  rw [beq_zero_iff] at hx
  rw [add_eq, hz]
  have same : UnpackedFloat.add .binary64 (.zero sign) x.toModel.unpack = x.toModel.unpack := by
    cases h : x.toModel.unpack with
    | zero other => exact absurd ⟨other, h⟩ hx
    | notANumber | infinity | finite => rfl
  rw [same, ofModel_pack_unpack]

theorem sub_zero_of_ne {x z : Float} (hz : z == 0) (hx : ¬ x == 0) : x - z = x := by
  obtain ⟨sign, hz⟩ := (beq_zero_iff z).mp hz
  rw [beq_zero_iff] at hx
  rw [sub_eq, hz]
  have same : UnpackedFloat.sub .binary64 x.toModel.unpack (.zero sign) = x.toModel.unpack := by
    cases h : x.toModel.unpack with
    | zero other => exact absurd ⟨other, h⟩ hx
    | notANumber | infinity | finite => rfl
  rw [same, ofModel_pack_unpack]

theorem mul_one (x : Float) : x * 1 = x := by
  rw [mul_eq, unpack_one]
  have same : UnpackedFloat.mul .binary64 x.toModel.unpack
      (.finite .positive (2 ^ 52) (-52) (by decide)) = x.toModel.unpack := by
    have canonical := canonical_unpack x
    cases h : x.toModel.unpack with
    | notANumber => rfl
    | infinity sign | zero sign => cases sign <;> rfl
    | finite sign m e positive =>
      rw [h] at canonical
      -- The product has the 52 zeros of the mantissa of one behind its own.
      have padded := round_padded canonical 52
      cases sign <;> exact padded
  rw [same, ofModel_pack_unpack]

theorem one_mul (x : Float) : 1 * x = x := by
  rw [mul_eq, unpack_one]
  have same : UnpackedFloat.mul .binary64 (.finite .positive (2 ^ 52) (-52) (by decide))
      x.toModel.unpack = x.toModel.unpack := by
    have canonical := canonical_unpack x
    cases h : x.toModel.unpack with
    | notANumber => rfl
    | infinity sign | zero sign => cases sign <;> rfl
    | finite sign m e positive =>
      rw [h] at canonical
      have padded := round_padded canonical 52
      rw [Nat.mul_comm, Int.sub_eq_add_neg, Int.add_comm] at padded
      cases sign <;> exact padded
  rw [same, ofModel_pack_unpack]

/-- Dividing by one puts zeros behind the mantissa, as many as some quotient might need. -/
theorem divCore_one {sign : Sign} {m : Nat} {e : Int} {positive : 0 < m}
    (h : Canonical (.finite sign m e positive)) :
    ∃ n : Nat, divCore .binary64 m e (2 ^ 52) (-52) = (m * 2 ^ n, e - n, .exact) := by
  have total : totalExponent (2 ^ 52) (-52) = 1 := by decide
  have least : Format.binary64.minExponent = -1074 := by decide
  have log : m.log2 < 53 := (Nat.log2_lt (by omega)).mpr h.1
  have low : -1074 ≤ e := h.2.1
  let target := min (e - -52) (Format.binary64.targetExponent (totalExponent m e - 1))
  have bound : target ≤ e := by
    simp only [target, Format.targetExponent, totalExponent, least, width_eq]
    omega
  refine ⟨(e - target).toNat, ?_⟩
  have amount : (e - -52 - target).toNat = (e - target).toNat + 52 := by omega
  have back : e - ((e - target).toNat : Int) = target := by omega
  -- The mantissa of one is a power of two, so that the division leaves no rest.
  have padded : m <<< ((e - target).toNat + 52) = m * 2 ^ (e - target).toNat * 2 ^ 52 := by
    rw [Nat.shiftLeft_eq, Nat.pow_add]
    ac_rfl
  have quotient : m * 2 ^ (e - target).toNat * 2 ^ 52 / 2 ^ 52 = m * 2 ^ (e - target).toNat :=
    Nat.mul_div_cancel _ (Nat.two_pow_pos 52)
  have rest : m * 2 ^ (e - target).toNat * 2 ^ 52 % 2 ^ 52 = 0 := Nat.mul_mod_left _ _
  unfold divCore
  rw [total]
  show (m <<< (e - -52 - target).toNat / 2 ^ 52, target,
    accuracyOfFraction (m <<< (e - -52 - target).toNat % 2 ^ 52) (2 ^ 52)) = _
  rw [amount, padded, quotient, rest, back]
  rfl

theorem div_one (x : Float) : x / 1 = x := by
  rw [div_eq, unpack_one]
  have same : UnpackedFloat.div .binary64 x.toModel.unpack
      (.finite .positive (2 ^ 52) (-52) (by decide)) = x.toModel.unpack := by
    have canonical := canonical_unpack x
    cases h : x.toModel.unpack with
    | notANumber => rfl
    | infinity sign | zero sign => cases sign <;> rfl
    | finite sign m e positive =>
      rw [h] at canonical
      obtain ⟨n, core⟩ := divCore_one canonical
      have padded := round_padded canonical n
      simp only [UnpackedFloat.div, core]
      cases sign <;> exact padded
  rw [same, ofModel_pack_unpack]

theorem power_one (x : Float) : power x 1 = x := if_pos rfl

/-! ## Products with zero -/

/-- A finite number times a zero is a zero. -/
theorem mul_zero_of_finite {x z : Float} (hx : x.isFinite) (hz : z == 0) : x * z == 0 := by
  obtain ⟨sign, hz⟩ := (beq_zero_iff z).mp hz
  rw [isFinite_eq] at hx
  rw [mul_eq, hz]
  cases h : x.toModel.unpack with
  | notANumber => simp [h, UnpackedFloat.isFinite] at hx
  | infinity other => simp [h, UnpackedFloat.isFinite] at hx
  | zero other => exact zeroOf_beq_zero (other * sign)
  | finite other m e positive => exact zeroOf_beq_zero (other * sign)

theorem zero_mul_of_finite {x z : Float} (hx : x.isFinite) (hz : z == 0) : z * x == 0 := by
  obtain ⟨sign, hz⟩ := (beq_zero_iff z).mp hz
  rw [isFinite_eq] at hx
  rw [mul_eq, hz]
  cases h : x.toModel.unpack with
  | notANumber => simp [h, UnpackedFloat.isFinite] at hx
  | infinity other => simp [h, UnpackedFloat.isFinite] at hx
  | zero other => exact zeroOf_beq_zero (sign * other)
  | finite other m e positive => exact zeroOf_beq_zero (sign * other)

end Frontend.Number
