import Frontend.Proofs.Number.Numeral
import Frontend.Proofs.Number.Sign

/-!
# Numbers without a sign

A decimal has no sign in front of it, and the number that it stands for has none either.  It may
be rounded to zero or to an infinity, but it is always a number.

* **`Unsigned`**: neither below zero nor the negative zero, and not `NaN`.
* **`sign?_unpack_pack`**: parts that become a number keep their sign, whatever happens to the
  rest of them.
* **`unsigned_ofDecimal`**: what is read from the digits and the exponent of a decimal.
* **`exists_ofText?`**: every text that the scanner takes for a number stands for such a number.
-/

namespace Frontend.Number

open Float.Model (UnpackedFloat Format)
open Float.Model.UnpackedFloat

/-- A number without a minus. -/
structure Unsigned (x : Float) : Prop where
  isNumber : x.isNaN = false
  nonneg : 0 ≤ x
  /-- The sign bit is not set.  This tells one zero from the other. -/
  bit : x.toBits < 2 ^ 63

/-! ## The sign of the parts -/

/-- The sign of the parts of a number.  Nothing else has one. -/
def sign? : UnpackedFloat → Option Sign
  | .notANumber => none
  | .infinity sign | .zero sign | .finite sign _ _ _ => some sign

/-- The sign of the parts is the first bit. -/
theorem sign?_unpack {b : BitVec Format.binary64.numBits} {sign : Sign}
    (h : sign? (UnpackedFloat.unpack .binary64 b) = some sign) :
    sign = Sign.ofBitVec (unpackSign b) := by
  unfold UnpackedFloat.unpack at h
  dsimp only at h
  -- The greatest exponent stands for infinities and `NaN`, and the least one for zeros as well.
  split at h
  · split at h
    · exact (Option.some.inj h).symm
    · cases h
  · split at h
    · split at h
      · exact (Option.some.inj h).symm
      · exact (Option.some.inj h).symm
    · exact (Option.some.inj h).symm

theorem sign?_packComponents (sign : Sign) {e : BitVec 11} (m : BitVec 52) (h : e ≠ -1#11) :
    sign? (UnpackedFloat.unpack .binary64 (packComponents .binary64 sign e m)) = some sign := by
  unfold UnpackedFloat.unpack
  simp only [unpackExponent_packComponents, unpackSign_packComponents, Sign.ofBitVec_toBitVec]
  rw [if_neg h]
  split
  · split <;> rfl
  · rfl

/-- Parts keep their sign when they become a number, even if they are too great for it. -/
theorem sign?_unpack_pack (u : UnpackedFloat) :
    sign? (UnpackedFloat.unpack .binary64 (UnpackedFloat.pack .binary64 u)) = sign? u := by
  cases u with
  | notANumber => rfl
  | infinity sign | zero sign => cases sign <;> rfl
  | finite sign m e positive =>
    rw [pack_finite]
    by_cases great : 972 ≤ e
    · -- The parts become an infinity.
      rw [if_pos great]
      cases sign <;> rfl
    · rw [if_neg great]
      split
      · exact sign?_packComponents _ _ (ofNat_exponent_ne_top (by omega))
      · exact sign?_packComponents _ _ (by decide)

/-- A number is unsigned if its parts have the positive sign. -/
theorem unsigned_of_sign? {x : Float} (h : sign? x.toModel.unpack = some .positive) :
    Unsigned x := by
  constructor
  -- A number with a sign to speak of is not a NaN.
  case isNumber =>
    rw [isNaN_eq]
    cases parts : x.toModel.unpack with
    | notANumber =>
      rw [parts] at h
      cases h
    | infinity | zero | finite => rfl
  case nonneg =>
    -- Compared to zero, only the sign matters for an infinity, a zero and a finite number.
    show decide (UnpackedFloat.le (0 : Float).toModel.unpack x.toModel.unpack = true) = true
    rw [unpack_zero]
    cases parts : x.toModel.unpack with
    | notANumber =>
      rw [parts] at h
      cases h
    | infinity sign | zero sign | finite sign =>
      rw [parts] at h
      cases h
      rfl
  case bit =>
    -- The bit for the sign is the highest one, so the bits as a number are below `2 ^ 63`.
    have sign := sign?_unpack h
    have clear : @unpackSign .binary64 x.toModel.toBits.toBitVec = 0#1 := by
      by_contra set
      rw [Sign.ofBitVec, if_neg set] at sign
      cases sign
    have first : x.toModel.toBits.toNat >>> 63 % 2 = 0 := by
      simpa [unpackSign] using congrArg BitVec.toNat clear
    have small : x.toModel.toBits.toNat < 2 ^ 64 := x.toModel.toBits.toNat_lt
    have bound : (2 ^ 63 : UInt64).toNat = 2 ^ 63 := by decide +kernel
    have same : x.toBits = x.toModel.toBits := rfl
    rw [Nat.shiftRight_eq_div_pow] at first
    rw [UInt64.lt_iff_toNat_lt, bound, same]
    omega

/-! ## The sign of a result -/

theorem sign?_roundWithAccuracy (sign : Sign) (m : Nat) (e : Int) (accuracy : Accuracy) :
    sign? (roundWithAccuracy .binary64 sign m e accuracy) = some sign := by
  unfold roundWithAccuracy
  dsimp only
  split <;> rfl

/-- A natural number has the positive sign, and zero has it too. -/
theorem sign?_normalize (n : Nat) (e : Int) :
    sign? (UnpackedFloat.normalize .binary64 n e .positive) = some .positive := by
  unfold UnpackedFloat.normalize
  split
  · rename_i below
    have negative := Int.compare_eq_lt.mp below
    omega
  · rfl
  · exact sign?_roundWithAccuracy _ _ _ _

theorem sign?_mul_finite (u : UnpackedFloat) (sign : Sign) {m : Nat} {e : Int} (positive : 0 < m) :
    sign? (.mul .binary64 u (.finite sign m e positive)) = (sign? u).map (· * sign) := by
  cases u with
  | notANumber | infinity | zero => rfl
  | finite => exact sign?_roundWithAccuracy _ _ _ _

theorem sign?_div_finite (u : UnpackedFloat) (sign : Sign) {m : Nat} {e : Int} (positive : 0 < m) :
    sign? (.div .binary64 u (.finite sign m e positive)) = (sign? u).map (· / sign) := by
  cases u with
  | notANumber | infinity | zero => rfl
  | finite => exact sign?_roundWithAccuracy _ _ _ _

/-- Parts of a finite number above zero. -/
def isPositive : UnpackedFloat → Bool
  | .finite .positive _ _ _ => true
  | _ => false

theorem exists_of_isPositive {u : UnpackedFloat} (h : isPositive u) :
    ∃ m e positive, u = .finite .positive m e positive := by
  cases u with
  | notANumber | infinity | zero => cases h
  | finite sign m e positive =>
    cases sign with
    | negative => cases h
    | positive => exact ⟨m, e, positive, rfl⟩

/-- Neither a product with a number above zero nor a quotient by one has another sign. -/
theorem sign?_scaled {x y : Float} (hx : sign? x.toModel.unpack = some .positive)
    (hy : isPositive y.toModel.unpack) :
    sign? (x * y).toModel.unpack = some .positive ∧
      sign? (x / y).toModel.unpack = some .positive := by
  obtain ⟨m, e, positive, parts⟩ := exists_of_isPositive hy
  rw [mul_eq, div_eq, parts]
  constructor
  · refine (sign?_unpack_pack _).trans ?_
    rw [sign?_mul_finite, hx]
    rfl
  · refine (sign?_unpack_pack _).trans ?_
    rw [sign?_div_finite, hx]
    rfl

/-! ## Decimals -/

theorem isPositive_powerOfTen :
    ∀ power ∈ Float.exactlyRepresentablePowersOfTen, isPositive power.toModel.unpack := by
  decide +kernel

theorem sign?_ofScientific_parts (m : Nat) (e : Int) :
    sign? (UnpackedFloat.ofScientific .binary64 m e) = some .positive := by
  unfold UnpackedFloat.ofScientific
  by_cases zero : m = 0
  · rw [dif_pos zero]
    rfl
  · rw [dif_neg zero]
    -- What is far too great or too small is not calculated at all.
    split
    · rfl
    · split
      · rfl
      · split
        · exact sign?_mul_finite _ _ _
        · exact sign?_div_finite _ _ _

/-- A decimal has the positive sign, whether it is calculated with numbers or with parts. -/
theorem sign?_ofScientific (m : Nat) (negative : Bool) (e : Nat) :
    sign? (Float.ofScientific m negative e).toModel.unpack = some .positive := by
  unfold Float.ofScientific
  split
  · have whole : sign? m.toUInt64.toFloat.toModel.unpack = some .positive :=
      (sign?_unpack_pack _).trans (sign?_normalize m.toUInt64.toNat 0)
    obtain ⟨product, quotient⟩ :=
      sign?_scaled whole (isPositive_powerOfTen _ (Array.getElem_mem _))
    dsimp only
    split
    · exact quotient
    · exact product
  · exact (sign?_unpack_pack _).trans (sign?_ofScientific_parts m _)

theorem unsigned_ofDecimal (significand : Nat) (exponent : Int) :
    Unsigned (ofDecimal significand exponent) := by
  cases exponent with
  | ofNat e | negSucc e => exact unsigned_of_sign? (sign?_ofScientific _ _ _)

theorem unsigned_of_decimal? {text : List Char} {value : Float} (h : decimal? text = some value) :
    Unsigned value := by
  unfold decimal? at h
  dsimp only at h
  split at h
  · cases h
  · obtain ⟨exponent, -, rfl⟩ := Option.map_eq_some_iff.mp h
    exact unsigned_ofDecimal _ _

/-- **Every text that the scanner takes for a number stands for one without a sign.** -/
theorem exists_ofText? {text : String} (ne : text ≠ "")
    (whole : Pattern.numberLength text.toList = text.toList.length) :
    ∃ value, ofText? text = some value ∧ Unsigned value := by
  obtain ⟨value, found⟩ := Option.isSome_iff_exists.mp (isSome_ofText? ne whole)
  have decimal := (ofText?_eq_decimal? ne whole).symm.trans found
  exact ⟨value, found, unsigned_of_decimal? decimal⟩

end Frontend.Number
