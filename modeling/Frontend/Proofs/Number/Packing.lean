import Mathlib

/-!
# Numbers taken apart and put together

A number is 64 bits: a sign, an exponent and a mantissa.  Arithmetic takes numbers
apart, works on the parts, and puts the result together again.

* **`unpack`** and **`pack`** are the two directions, and nothing is lost between them:
  neither of a number that is taken apart (`ofModel_pack_unpack`) nor of parts that look
  like those of a number (`unpack_pack`).
* **`Canonical`**: how the parts of a number look.  The mantissa has 53 bits, unless
  the exponent is the least one.
* **`round_padded`**: rounding a mantissa with zeros behind it takes the zeros away
  again.  This is all of the rounding that multiplying and dividing by one need.
-/

namespace Frontend.Number

open Float.Model (UnpackedFloat Format totalExponent)
open Float.Model.UnpackedFloat

/-! ## Bits -/

theorem toNat_implicit (mantissa : BitVec 52) :
    (1#1 ++ mantissa).toNat = 2 ^ 52 + mantissa.toNat := by
  rw [BitVec.toNat_append, ← Nat.shiftLeft_add_eq_or_of_lt mantissa.isLt]
  simp [Nat.shiftLeft_eq]

theorem log2_eq_of_normal {m : Nat} (low : 2 ^ 52 ≤ m) (high : m < 2 ^ 53) : m.log2 = 52 := by
  have h₁ : 52 ≤ m.log2 := (Nat.le_log2 (by omega)).mpr low
  have h₂ : m.log2 < 53 := (Nat.log2_lt (by omega)).mpr high
  omega

theorem bias_eq : Format.binary64.exponentBias = 1023 := by decide

theorem width_eq : Format.binary64.mantissaBits = 53 := by decide

theorem toNat_exponent_lt {b : BitVec Format.binary64.numBits} (h : unpackExponent b ≠ -1#_) :
    (unpackExponent b).toNat < 2047 := by
  have bound : (unpackExponent b).toNat < 2 ^ 11 := (unpackExponent b).isLt
  have other : (unpackExponent b).toNat ≠ 2047 := by
    intro top
    exact h (BitVec.eq_of_toNat_eq (by rw [top]; rfl))
  omega

/-- A number that is taken apart and put together is the same number. -/
theorem ofModel_pack_unpack (x : Float) : Float.ofModel (.pack x.toModel.unpack) = x := by
  obtain ⟨⟨bits, valid⟩⟩ := x
  have h := pack_unpack_of_valid valid
  simp only [Float.Model.pack, Float.Model.unpack, h]

/-! ## The shape of the parts -/

/-- What the parts of a number look like. -/
def Canonical : UnpackedFloat → Prop
  | .finite _ m e _ => m < 2 ^ 53 ∧ -1074 ≤ e ∧ e ≤ 971 ∧ (2 ^ 52 ≤ m ∨ e = -1074)
  | _ => True

theorem canonical_unpack_bits (b : BitVec Format.binary64.numBits) :
    Canonical (UnpackedFloat.unpack .binary64 b) := by
  have small : (unpackMantissa b).toNat < 2 ^ 52 := (unpackMantissa b).isLt
  unfold UnpackedFloat.unpack
  -- The exponent field of ones is for infinities and NaN, which have no mantissa to bound.
  by_cases top : unpackExponent b = -1#_
  · rw [if_pos top]
    split <;> trivial
  · rw [if_neg top]
    by_cases bottom : unpackExponent b = 0#_
    · rw [if_pos bottom]
      split
      · trivial
      -- A field of zeros: the mantissa is as it is stored, and its exponent is the least.
      · simp only [Canonical, bias_eq, bottom]
        simp
        omega
    · rw [if_neg bottom]
      -- Otherwise a one stands in front of the 52 stored digits.
      have inner := toNat_exponent_lt top
      have positive : 0 < (unpackExponent b).toNat := by
        simpa [BitVec.toNat_pos, BitVec.pos_iff_ne_zero]
      simp only [Canonical, bias_eq, toNat_implicit]
      omega

/-- Every number has parts of that shape. -/
theorem canonical_unpack (x : Float) : Canonical x.toModel.unpack :=
  canonical_unpack_bits x.toModel.toBits.toBitVec

/-- The exponent of a number is the one that rounding aims at. -/
theorem targetExponent_of_canonical {sign : Sign} {m : Nat} {e : Int} {positive : 0 < m}
    (h : Canonical (.finite sign m e positive)) :
    Format.binary64.targetExponent (totalExponent m e) = e := by
  have least : Format.binary64.minExponent = -1074 := by decide
  obtain ⟨high, low, -, normal | subnormal⟩ := h
  · -- The mantissa has all of its bits.
    simp only [Format.targetExponent, totalExponent, log2_eq_of_normal normal high, least, width_eq]
    omega
  · -- The mantissa may be shorter, but then the exponent is the least one.
    have log : m.log2 < 53 := (Nat.log2_lt (by omega)).mpr high
    simp only [Format.targetExponent, totalExponent, least, width_eq, subnormal]
    omega

/-! ## Parts found again -/

/-- How the parts of a number become bits.  An exponent that is too great makes an infinity. -/
theorem pack_finite (sign : Sign) {m : Nat} (e : Int) (positive : 0 < m) :
    UnpackedFloat.pack .binary64 (.finite sign m e positive) =
      if 972 ≤ e then packedInfinity .binary64 sign
      else if m.log2 = 52 then
        packComponents .binary64 sign (BitVec.ofNat 11 (e + 1075).toNat) (BitVec.ofNat 52 m)
      else packComponents .binary64 sign (0#11) (BitVec.ofNat 52 m) := by
  have shift : e + 1023 + (52 : Nat) = e + 1075 := by omega
  have top : 2 ^ 11 ≤ (e + 1075).toNat + 1 ↔ 972 ≤ e := by omega
  have full : m.log2 + 1 = 53 ↔ m.log2 = 52 := by omega
  unfold UnpackedFloat.pack
  simp only [bias_eq, width_eq]
  show (if 2 ^ 11 ≤ (e + 1023 + (52 : Nat)).toNat + 1 then _ else if _ then
    packComponents .binary64 sign (BitVec.ofNat 11 (e + 1023 + (52 : Nat)).toNat) _ else _) = _
  simp only [shift, top, full]

theorem toNat_ofNat_exponent {n : Nat} (h : n < 2047) : (BitVec.ofNat 11 n).toNat = n :=
  Nat.mod_eq_of_lt (show n < 2 ^ 11 by omega)

theorem ofNat_exponent_ne_top {n : Nat} (h : n < 2047) : BitVec.ofNat 11 n ≠ -1#11 := by
  intro same
  have equal := congrArg BitVec.toNat same
  rw [toNat_ofNat_exponent h, show (-1#11).toNat = 2047 from rfl] at equal
  omega

theorem toNat_ofNat_mantissa {m : Nat} (h : m < 2 ^ 52) : (BitVec.ofNat 52 m).toNat = m :=
  Nat.mod_eq_of_lt h

/-- A mantissa with all of its bits is found again without the first one, which is implicit. -/
theorem unpack_normal (sign : Sign) {m n : Nat} (positive : 0 < m) (low : 2 ^ 52 ≤ m)
    (high : m < 2 ^ 53) (above : 0 < n) (below : n < 2047) :
    UnpackedFloat.unpack .binary64
        (packComponents .binary64 sign (BitVec.ofNat 11 n) (BitVec.ofNat 52 m)) =
      .finite sign m (n - 1075) positive := by
  -- The field of a normal number is neither that of infinities nor that of small numbers.
  have nonzero : BitVec.ofNat 11 n ≠ 0#11 := by
    intro zero
    have equal := congrArg BitVec.toNat zero
    rw [toNat_ofNat_exponent below, show (0#11).toNat = 0 from rfl] at equal
    omega
  have mantissa : (1#1 ++ BitVec.ofNat 52 m).toNat = m := by
    rw [toNat_implicit, BitVec.toNat_ofNat]
    omega
  have exponent : ((BitVec.ofNat 11 n).toNat : Int) - ((1023 : Nat) + (52 : Nat)) = n - 1075 := by
    rw [toNat_ofNat_exponent below]
    omega
  unfold UnpackedFloat.unpack
  -- The three fields are read back one by one.
  simp only [unpackExponent_packComponents, unpackMantissa_packComponents,
    unpackSign_packComponents, bias_eq]
  rw [if_neg (ofNat_exponent_ne_top below), if_neg nonzero, finite.injEq]
  exact ⟨Sign.ofBitVec_toBitVec sign, mantissa, exponent⟩

/-- A shorter mantissa is found again as it is. -/
theorem unpack_subnormal (sign : Sign) {m : Nat} (positive : 0 < m) (high : m < 2 ^ 52) :
    UnpackedFloat.unpack .binary64 (packComponents .binary64 sign (0#11) (BitVec.ofNat 52 m)) =
      .finite sign m (-1074) positive := by
  have nonzero : BitVec.ofNat 52 m ≠ 0#52 := by
    intro zero
    have equal := congrArg BitVec.toNat zero
    rw [toNat_ofNat_mantissa high, show (0#52).toNat = 0 from rfl] at equal
    omega
  unfold UnpackedFloat.unpack
  simp only [unpackExponent_packComponents, unpackMantissa_packComponents,
    unpackSign_packComponents, bias_eq]
  rw [if_neg (by decide), if_pos trivial, dif_neg nonzero, finite.injEq]
  exact ⟨Sign.ofBitVec_toBitVec sign, toNat_ofNat_mantissa high, rfl⟩

/-- Parts that look like those of a number are found again when they were put together. -/
theorem unpack_pack {u : UnpackedFloat} (h : Canonical u) :
    UnpackedFloat.unpack .binary64 (UnpackedFloat.pack .binary64 u) = u := by
  cases u with
  | notANumber => rfl
  | infinity sign | zero sign => cases sign <;> rfl
  | finite sign m e positive =>
    obtain ⟨high, low, greatest, shape⟩ := h
    rw [pack_finite, if_neg (by omega)]
    -- The leading digit decides which of the two forms was stored.
    by_cases normal : 2 ^ 52 ≤ m
    · rw [if_pos (log2_eq_of_normal normal high)]
      rw [unpack_normal sign positive normal high (by omega) (by omega), finite.injEq]
      exact ⟨rfl, rfl, by omega⟩
    · have short : m.log2 ≠ 52 := by
        have log : m.log2 < 52 := (Nat.log2_lt (by omega)).mpr (by omega)
        omega
      rw [if_neg short, unpack_subnormal sign positive (by omega), finite.injEq]
      exact ⟨rfl, rfl, by omega⟩

/-! ## Rounding what needs no rounding -/

theorem shiftRight_padded (m n : Nat) :
    n.repeat ExtendedMantissa.shiftRightOne ⟨m * 2 ^ n, false, false⟩ = ⟨m, false, false⟩ := by
  -- One zero is shifted out in each step, so the mantissa changes along the way.
  induction n generalizing m with
  | zero => simp [Nat.repeat]
  | succ n ih =>
    have double : m * 2 ^ (n + 1) = m * 2 * 2 ^ n := by
      rw [Nat.pow_succ]
      ac_rfl
    rw [Nat.repeat, double, ih]
    simp [ExtendedMantissa.shiftRightOne]

theorem log2_padded {m : Nat} (positive : 0 < m) (n : Nat) : (m * 2 ^ n).log2 = m.log2 + n := by
  have low : 2 ^ m.log2 ≤ m := Nat.log2_self_le (by omega)
  have high : m < 2 ^ (m.log2 + 1) := Nat.lt_log2_self
  have nonzero : m * 2 ^ n ≠ 0 := Nat.mul_ne_zero (by omega) (by simp)
  rw [Nat.log2_eq_iff nonzero]
  constructor
  · rw [Nat.pow_add]
    exact Nat.mul_le_mul_right _ low
  · rw [show m.log2 + n + 1 = m.log2 + 1 + n by omega, Nat.pow_add]
    exact Nat.mul_lt_mul_of_pos_right high (Nat.two_pow_pos n)

theorem shiftToTargetExponent_padded {sign : Sign} {m : Nat} {e : Int} {positive : 0 < m}
    (h : Canonical (.finite sign m e positive)) (n : Nat) :
    shiftToTargetExponent .binary64 (m * 2 ^ n) (e - n) .exact = (⟨m, false, false⟩, e) := by
  have total : totalExponent (m * 2 ^ n) (e - n) = totalExponent m e := by
    simp only [totalExponent, log2_padded positive]
    omega
  have amount : (e - (e - (n : Int))).toNat = n := by omega
  have back : e - (n : Int) + n = e := by omega
  unfold shiftToTargetExponent shiftToExponent
  rw [total, targetExponent_of_canonical h]
  simp only [amount, back]
  show (n.repeat ExtendedMantissa.shiftRightOne ⟨m * 2 ^ n, false, false⟩, e) = _
  rw [shiftRight_padded]

/-- Rounding takes away the zeros behind a mantissa, however many there are. -/
theorem round_padded {sign : Sign} {m : Nat} {e : Int} {positive : 0 < m}
    (h : Canonical (.finite sign m e positive)) (n : Nat) :
    roundWithAccuracy .binary64 sign (m * 2 ^ n) (e - n) .exact = .finite sign m e positive := by
  have again := shiftToTargetExponent_padded h 0
  simp only [Nat.pow_zero, Nat.mul_one, Int.natCast_zero, Int.sub_zero] at again
  have exact : ExtendedMantissa.roundedMantissa ⟨m, false, false⟩ = m := rfl
  unfold roundWithAccuracy
  simp only [shiftToTargetExponent_padded h n, exact, again]
  rw [dif_neg (by omega)]

end Frontend.Number
