import Frontend.Proofs.Number.Neutral

/-!
# The sign of a number

Negation changes the sign of a number and nothing else about it.  A difference is a sum with
the negated second number.
-/

namespace Frontend.Number

open Float.Model (UnpackedFloat Format)
open Float.Model.UnpackedFloat

theorem isNaN_eq (x : Float) : x.isNaN = x.toModel.unpack.isNaN := rfl

theorem unpack_ofModel_pack {u : UnpackedFloat} (h : Canonical u) :
    (Float.ofModel (.pack u)).toModel.unpack = u := unpack_pack h

theorem Canonical.neg {u : UnpackedFloat} (h : Canonical u) : Canonical u.neg := by
  cases u with
  | notANumber | infinity | zero => trivial
  | finite => exact h

/-- The parts of a negated number are those of the number, with the other sign. -/
theorem unpack_neg (x : Float) : (-x).toModel.unpack = x.toModel.unpack.neg :=
  unpack_ofModel_pack (canonical_unpack x).neg

theorem isFinite_neg (x : Float) : (-x).isFinite = x.isFinite := by
  rw [isFinite_eq, isFinite_eq, unpack_neg]
  cases x.toModel.unpack <;> rfl

theorem isNaN_neg (x : Float) : (-x).isNaN = x.isNaN := by
  rw [isNaN_eq, isNaN_eq, unpack_neg]
  cases x.toModel.unpack <;> rfl

theorem not_isNaN_of_isFinite {x : Float} (h : x.isFinite) : ¬ x.isNaN := by
  rw [isFinite_eq] at h
  rw [isNaN_eq]
  cases parts : x.toModel.unpack with
  | notANumber =>
    rw [parts] at h
    cases h
  | infinity | zero | finite => exact Bool.false_ne_true

theorem not_isNaN_of_beq_zero {x : Float} (zero : x == 0) : ¬ x.isNaN := by
  obtain ⟨sign, parts⟩ := (beq_zero_iff x).mp zero
  rw [isNaN_eq, parts]
  exact Bool.false_ne_true

/-- A number is finite unless it is infinite or no number at all. -/
theorem isFinite_iff {x : Float} : x.isFinite ↔ ¬ (x.isNaN ∨ x.isInf) := by
  have infinite : x.isInf = x.toModel.unpack.isInf := rfl
  rw [isFinite_eq, isNaN_eq, infinite]
  cases x.toModel.unpack <;> simp [UnpackedFloat.isFinite, UnpackedFloat.isNaN, UnpackedFloat.isInf]

/-- Negated twice, a number is the same number again. -/
theorem neg_neg_self (x : Float) : - -x = x := by
  have parts : (- -x).toModel.unpack = x.toModel.unpack := by
    rw [unpack_neg, unpack_neg]
    cases x.toModel.unpack with
    | notANumber => rfl
    | infinity sign | zero sign | finite sign => cases sign <;> rfl
  rw [← ofModel_pack_unpack (- -x), parts, ofModel_pack_unpack]

/-- Only what is not a number differs from itself. -/
theorem beq_self_iff {x : Float} : x == x ↔ ¬ x.isNaN := by
  rw [Float.beq_self_iff, Float.isNaN_eq_decide_eq_nan, decide_eq_true_iff]

/-! ## Differences -/

theorem apply_neg (sign : Sign) (n : Int) : (-sign).apply n = -sign.apply n := by
  cases sign with
  | positive => rfl
  | negative => exact (Int.neg_neg n).symm

theorem sub_eq_add_neg_parts (u v : UnpackedFloat) :
    UnpackedFloat.sub .binary64 u v = UnpackedFloat.add .binary64 u v.neg := by
  cases u with
  | notANumber => rfl
  | infinity s | zero s =>
    cases v with
    | notANumber | infinity | zero | finite => rfl
  | finite s m e =>
    cases v with
    | notANumber | infinity | zero => rfl
    | finite t n f =>
      -- The mantissas are brought to one exponent, and then the sign goes with the second one.
      simp only [UnpackedFloat.sub, UnpackedFloat.add, UnpackedFloat.neg, apply_neg,
        Int.sub_eq_add_neg]

/-- Taking a number away is adding the negated number. -/
theorem sub_eq_add_neg (x y : Float) : x - y = x + -y := by
  rw [sub_eq, add_eq, unpack_neg, sub_eq_add_neg_parts]

end Frontend.Number
