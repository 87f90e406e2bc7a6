import Frontend.Proofs.Number.Rounding
import Frontend.Proofs.Number.Sign

/-!
# Overflow

When a sum, a difference or a product of numbers is finite.

* **`toRat`**: the exact value of a finite number.
* **`overflowBound`**: the least magnitude that is rounded to an infinity.  All finite numbers
  are below it (`abs_partsValue_lt`).
* **`isFinite_add_iff`**, **`isFinite_sub_iff`**, **`isFinite_mul_iff`**: a result is finite
  exactly if both operands are and the exact result is below that bound.
* **`isNaN_mul_zero_iff`**: what is not finite makes a product with zero that is not a number.
-/

namespace Frontend.Number

open Float.Model (UnpackedFloat Format totalExponent)
open Float.Model.UnpackedFloat

/-! ## Where infinities begin -/

/-- The least magnitude that is rounded to an infinity.  It lies half a step above the greatest
number, and a tie goes up from there. -/
def overflowBound : ℚ := 2 ^ 1024 - 2 ^ 970

/-- The bound as a multiple of half a step between the greatest numbers. -/
theorem overflowBound_eq : ∃ half : ℚ, 0 < half ∧ overflowBound = (2 ^ 54 - 1) * half ∧
    ∀ n : Int, (2 : ℚ) ^ (970 + n) = half * 2 ^ n := by
  have split : (2 : ℚ) ^ 1024 = 2 ^ 54 * 2 ^ 970 := by rw [← pow_add]
  refine ⟨2 ^ 970, by positivity, ?_, ?_⟩
  · rw [overflowBound, split, sub_one_mul]
  · intro n
    rw [zpow_add₀ two_ne_zero]
    rfl

theorem overflowBound_pos : 0 < overflowBound := by
  obtain ⟨half, someHalf, bound, -⟩ := overflowBound_eq
  rw [bound]
  positivity

theorem isFinite_unpack {b : BitVec Format.binary64.numBits} (h : unpackExponent b ≠ -1#11) :
    (UnpackedFloat.unpack .binary64 b).isFinite := by
  unfold UnpackedFloat.unpack
  rw [if_neg h]
  split
  · split <;> rfl
  · rfl

/-- Parts become a number exactly if their exponent is not too great. -/
theorem isFinite_pack (sign : Sign) {m : Nat} (e : Int) (positive : 0 < m) :
    (Float.ofModel (.pack (.finite sign m e positive))).isFinite ↔ e ≤ 971 := by
  show (UnpackedFloat.unpack .binary64 (UnpackedFloat.pack .binary64 _)).isFinite ↔ _
  rw [pack_finite]
  by_cases great : 972 ≤ e
  · -- The number is packed as an infinity.
    rw [if_pos great]
    constructor
    · intro finite
      cases sign <;> cases finite
    · omega
  · -- Neither kind of number has the exponent field of infinities.
    rw [if_neg great]
    refine iff_of_true ?_ (by omega)
    split
    · refine isFinite_unpack ?_
      rw [unpackExponent_packComponents]
      exact ofNat_exponent_ne_top (by omega)
    · refine isFinite_unpack ?_
      rw [unpackExponent_packComponents]
      decide

theorem isFinite_zeroOf (sign : Sign) : (zeroOf sign).isFinite := by
  cases sign <;> rfl

/-- The quotient of `m` by `2 ^ k` with the exponent `t` is `m` with the exponent `t - k`. -/
theorem mul_two_pow {m k : Nat} {e t : Int} (h : e + k = t) :
    (m : ℚ) * 2 ^ e * 2 ^ k = m * 2 ^ t := by
  rw [mul_assoc, ← zpow_natCast, ← zpow_add₀ two_ne_zero, h]

/-- Zeros behind a mantissa make up for a smaller exponent. -/
theorem shiftLeft_mul_two_pow {m n : Nat} {e t : Int} (h : t + n = e) :
    ((m <<< n : Nat) : ℚ) * 2 ^ t = m * 2 ^ e := by
  rw [Nat.shiftLeft_eq, Nat.cast_mul, Nat.cast_pow, Nat.cast_ofNat, mul_right_comm]
  exact mul_two_pow h

/-- What rounding leaves becomes a number exactly if its exponent, with a carry, is not too
great. -/
theorem isFinite_roundWithAccuracy_iff (sign : Sign) {m k : Nat} {e : Int} (positive : 0 < m)
    (fits : e + k = target m e) :
    ∃ em, Approximates em m (2 ^ k) ∧
      ((Float.ofModel (.pack (roundWithAccuracy .binary64 sign m e .exact))).isFinite ↔
        em.roundedMantissa = 0 ∨ e + k ≤ 970 ∨ e + k = 971 ∧ em.roundedMantissa ≤ 2 ^ 53 - 1) := by
  -- Rounding gives a mantissa, and the number is finite if this mantissa can be packed.
  obtain ⟨em, approximates, bounded, rounded⟩ := roundWithAccuracy_eq sign positive fits
  refine ⟨em, approximates, ?_⟩
  rw [rounded]
  by_cases zero : em.roundedMantissa = 0
  · rw [dif_pos zero]
    exact iff_of_true (isFinite_zeroOf sign) (.inl zero)
  · rw [dif_neg zero]
    -- Below `2 ^ 53` the mantissa is kept; at `2 ^ 53` the exponent goes up by one.
    by_cases short : em.roundedMantissa < 2 ^ 53
    · rw [if_pos short, isFinite_pack]
      omega
    · rw [if_neg short, isFinite_pack]
      omega

/-- Whether parts are below the bound, said of their mantissa. -/
theorem lt_overflowBound_iff {m k : Nat} {e n : Int} (exponent : e + k = 970 + n) :
    (m : ℚ) * 2 ^ e < overflowBound ↔ (m : ℚ) * 2 ^ n < (2 ^ 54 - 1) * 2 ^ k := by
  obtain ⟨half, someHalf, bound, power⟩ := overflowBound_eq
  have scale : (0 : ℚ) < 2 ^ k := by positivity
  rw [← mul_lt_mul_iff_left₀ scale, mul_two_pow exponent, power, bound,
    ← mul_lt_mul_iff_left₀ someHalf (b := (m : ℚ) * 2 ^ n)]
  ring_nf

/-- Parts that are aimed at their exponent become a number when they are rounded exactly if
their value is below the bound. -/
theorem isFinite_roundWithAccuracy (sign : Sign) {m k : Nat} {e : Int} (positive : 0 < m)
    (fits : e + k = target m e) :
    (Float.ofModel (.pack (roundWithAccuracy .binary64 sign m e .exact))).isFinite ↔
      (m : ℚ) * 2 ^ e < overflowBound := by
  obtain ⟨em, approximates, finite⟩ := isFinite_roundWithAccuracy_iff sign positive fits
  obtain ⟨-, high, low⟩ := bounds_of_target positive fits
  have divisor : 0 < 2 ^ k := Nat.two_pow_pos k
  have scale : (0 : ℚ) < 2 ^ k := by positivity
  obtain ⟨n, exponent⟩ : ∃ n, e + k = 970 + n := ⟨e + k - 970, by omega⟩
  rw [finite, lt_overflowBound_iff exponent]
  rcases lt_trichotomy n 1 with below | rfl | above
  · -- Even with a carry the exponent is not too great.
    refine iff_of_true (.inr (.inl (by omega))) ?_
    have mantissa : (m : ℚ) < 2 ^ 53 * 2 ^ k := by exact_mod_cast high
    have least : (2 : ℚ) ^ n ≤ 1 := zpow_le_one_of_nonpos₀ one_le_two (by omega)
    calc (m : ℚ) * 2 ^ n ≤ m * 1 := by gcongr
      _ < 2 ^ 53 * 2 ^ k * 1 := by gcongr
      _ ≤ (2 ^ 54 - 1) * 2 ^ k := by linarith
  · -- The carry decides, and there is one from the middle of the last step on.
    have carry := approximates.roundedMantissa_le_odd_iff divisor
      (show (2 ^ 53 - 1) % 2 = 1 by decide)
    have middle : ((2 * (2 ^ 53 - 1) + 1 : Nat) : ℚ) = 2 ^ 54 - 1 := by norm_num
    have same : (m : ℚ) * 2 ^ (1 : Int) < (2 ^ 54 - 1) * 2 ^ k ↔
        em.roundedMantissa ≤ 2 ^ 53 - 1 := by
      rw [carry, zpow_one, mul_comm, ← middle]
      exact_mod_cast Iff.rfl
    rw [same]
    omega
  · -- The exponent is too great.
    have mantissa : 2 ^ 52 * 2 ^ k ≤ m := low.resolve_left (by omega)
    have rounded := approximates.le_roundedMantissa divisor mantissa
    refine iff_of_false (by omega) (not_lt.mpr ?_)
    have mantissa : (2 : ℚ) ^ 52 * 2 ^ k ≤ m := by exact_mod_cast mantissa
    have greatest : (2 : ℚ) ^ (2 : Int) ≤ 2 ^ n := zpow_le_zpow_right₀ one_le_two (by omega)
    calc ((2 : ℚ) ^ 54 - 1) * 2 ^ k ≤ 2 ^ 52 * 2 ^ k * 2 ^ (2 : Int) := by
          rw [zpow_ofNat]
          linarith
      _ ≤ (m : ℚ) * 2 ^ n := by gcongr

theorem isFinite_round (sign : Sign) {m : Nat} (e : Int) (positive : 0 < m) :
    (Float.ofModel (.pack (UnpackedFloat.round .binary64 sign m e))).isFinite ↔
      (m : ℚ) * 2 ^ e < overflowBound := by
  -- Zeros are put behind a mantissa that is too short, which changes nothing.
  obtain ⟨n, padding⟩ : ∃ n, n = (e - target m e).toNat := ⟨_, rfl⟩
  have same : target (m * 2 ^ n) (e - n) = target m e := by
    have total : totalExponent (m * 2 ^ n) (e - n) = totalExponent m e := by
      simp only [totalExponent, log2_padded positive]
      omega
    rw [target, total, target]
  obtain ⟨k, fits⟩ : ∃ k : Nat, e - n + k = target (m * 2 ^ n) (e - n) :=
    ⟨(target m e - (e - n)).toNat, by omega⟩
  have padded : UnpackedFloat.round .binary64 sign m e =
      roundWithAccuracy .binary64 sign (m * 2 ^ n) (e - n) .exact := by
    rw [← Nat.shiftLeft_eq, padding]
    rfl
  have value : ((m * 2 ^ n : Nat) : ℚ) * 2 ^ (e - n) = m * 2 ^ e := by
    rw [← Nat.shiftLeft_eq]
    exact shiftLeft_mul_two_pow (by omega)
  have longer : 0 < m * 2 ^ n := Nat.mul_pos positive (Nat.two_pow_pos n)
  rw [padded, isFinite_roundWithAccuracy sign longer fits, value]

theorem isFinite_normalize (mantissa e : Int) (zeroSign : Sign) :
    (Float.ofModel (.pack (UnpackedFloat.normalize .binary64 mantissa e zeroSign))).isFinite ↔
      |(mantissa : ℚ) * 2 ^ e| < overflowBound := by
  have scale : (0 : ℚ) < 2 ^ e := by positivity
  rw [abs_mul, abs_of_pos scale]
  unfold UnpackedFloat.normalize
  rcases lt_trichotomy mantissa 0 with negative | zero | positive
  -- A negative mantissa is rounded by its absolute value, and so is the bound.
  · have value : |(mantissa : ℚ)| = ((-mantissa).toNat : Nat) := by
      rw [← Int.cast_abs, abs_of_neg negative]
      exact_mod_cast (Int.toNat_of_nonneg (by omega)).symm
    rw [compare_lt_iff_lt.mpr negative, value]
    exact isFinite_round .negative e (by omega)
  · subst zero
    refine iff_of_true (isFinite_zeroOf zeroSign) ?_
    rw [Int.cast_zero, abs_zero, zero_mul]
    exact overflowBound_pos
  · have value : |(mantissa : ℚ)| = (mantissa.toNat : Nat) := by
      rw [← Int.cast_abs, abs_of_pos positive]
      exact_mod_cast (Int.toNat_of_nonneg (by omega)).symm
    rw [compare_gt_iff_gt.mpr positive, value]
    exact isFinite_round .positive e (by omega)

/-! ## Exact values -/

/-- What a sign multiplies with. -/
def factor : Sign → ℚ
  | .positive => 1
  | .negative => -1

theorem factor_neg (sign : Sign) : factor (-sign) = -factor sign := by
  cases sign with
  | positive => rfl
  | negative => exact (Rat.neg_neg 1).symm

theorem abs_factor (sign : Sign) : |factor sign| = 1 := by
  cases sign with
  | positive => exact abs_one
  | negative => exact (abs_neg 1).trans abs_one

theorem cast_apply (sign : Sign) (n : Int) : ((sign.apply n : Int) : ℚ) = factor sign * n := by
  cases sign with
  | positive => exact (Rat.one_mul n).symm
  | negative => exact (Int.cast_neg n).trans (neg_one_mul (n : ℚ)).symm

/-- The value of the parts of a number.  What is not finite has none, and counts as zero. -/
def partsValue : UnpackedFloat → ℚ
  | .finite sign m e _ => factor sign * (m * 2 ^ e)
  | _ => 0

/-- The exact value of a finite number. -/
def toRat (x : Float) : ℚ := partsValue x.toModel.unpack

theorem toRat_neg (x : Float) : toRat (-x) = -toRat x := by
  rw [toRat, unpack_neg, toRat]
  cases x.toModel.unpack with
  | notANumber | infinity | zero => exact neg_zero.symm
  | finite sign m e =>
    simp only [UnpackedFloat.neg, partsValue, factor_neg, neg_mul]

theorem abs_partsValue_finite {sign : Sign} {m : Nat} {e : Int} {positive : 0 < m} :
    |partsValue (.finite sign m e positive)| = m * 2 ^ e := by
  rw [partsValue, abs_mul, abs_factor, Rat.one_mul]
  exact abs_of_nonneg (by positivity)

/-- All numbers are below the bound. -/
theorem abs_partsValue_lt {u : UnpackedFloat} (h : Canonical u) :
    |partsValue u| < overflowBound := by
  cases u with
  | notANumber | infinity | zero =>
    exact abs_zero.trans_lt overflowBound_pos
  | finite sign m e positive =>
    obtain ⟨high, -, greatest, -⟩ := h
    obtain ⟨n, exponent⟩ : ∃ n, e + (0 : Nat) = 970 + n := ⟨e - 970, by omega⟩
    rw [abs_partsValue_finite, lt_overflowBound_iff exponent]
    have mantissa : (m : ℚ) ≤ 2 ^ 53 - 1 := by
      rw [le_sub_iff_add_le]
      exact_mod_cast high
    have most : (2 : ℚ) ^ n ≤ 2 ^ (1 : Int) := zpow_le_zpow_right₀ one_le_two (by omega)
    calc (m : ℚ) * 2 ^ n ≤ (2 ^ 53 - 1) * 2 ^ (1 : Int) := by gcongr
      _ < (2 ^ 54 - 1) * 2 ^ 0 := by norm_num

theorem isFinite_pack_of_canonical {u : UnpackedFloat} (h : Canonical u) :
    (Float.ofModel (.pack u)).isFinite ↔ u.isFinite := by
  rw [isFinite_eq, unpack_ofModel_pack h]

theorem not_isFinite_pack {u : UnpackedFloat} (h : ¬ u.isFinite) :
    ¬ (Float.ofModel (.pack u)).isFinite := by
  have canonical : Canonical u := by
    cases u with
    | notANumber | infinity => trivial
    | zero | finite => exact absurd rfl h
  rwa [isFinite_pack_of_canonical canonical]

/-! ## Sums, differences and products -/

theorem not_isFinite_add {u v : UnpackedFloat} (h : ¬ (u.isFinite ∧ v.isFinite)) :
    ¬ (UnpackedFloat.add .binary64 u v).isFinite := by
  cases u with
  | notANumber => exact Bool.false_ne_true
  | infinity s =>
    cases v with
    | infinity t => cases s <;> cases t <;> exact Bool.false_ne_true
    | notANumber | zero | finite => exact Bool.false_ne_true
  | zero | finite =>
    cases v with
    | notANumber | infinity => exact Bool.false_ne_true
    | zero | finite => exact absurd ⟨rfl, rfl⟩ h

theorem not_isFinite_mul {u v : UnpackedFloat} (h : ¬ (u.isFinite ∧ v.isFinite)) :
    ¬ (UnpackedFloat.mul .binary64 u v).isFinite := by
  cases u with
  | notANumber => exact Bool.false_ne_true
  | infinity =>
    cases v with
    | notANumber | infinity | zero | finite => exact Bool.false_ne_true
  | zero | finite =>
    cases v with
    | notANumber | infinity => exact Bool.false_ne_true
    | zero | finite => exact absurd ⟨rfl, rfl⟩ h

/-- An operation gives a finite number exactly if its operands are finite and its exact result
is below the bound, when this is known of finite parts. -/
theorem isFinite_operation {f : UnpackedFloat → UnpackedFloat → UnpackedFloat} {g : ℚ → ℚ → ℚ}
    (infinite : ∀ {u v}, ¬ (u.isFinite ∧ v.isFinite) → ¬ (f u v).isFinite)
    (finite : ∀ {u v}, Canonical u → Canonical v → u.isFinite ∧ v.isFinite →
      ((Float.ofModel (.pack (f u v))).isFinite ↔
        |g (partsValue u) (partsValue v)| < overflowBound))
    (x y : Float) : (Float.ofModel (.pack (f x.toModel.unpack y.toModel.unpack))).isFinite ↔
      x.isFinite ∧ y.isFinite ∧ |g (toRat x) (toRat y)| < overflowBound := by
  rw [isFinite_eq x, isFinite_eq y, ← and_assoc]
  by_cases both : x.toModel.unpack.isFinite ∧ y.toModel.unpack.isFinite
  · rw [finite (canonical_unpack x) (canonical_unpack y) both]
    exact (and_iff_right both).symm
  · exact iff_of_false (not_isFinite_pack (infinite both)) fun h => both h.1

/-- A mantissa may be brought to a smaller exponent. -/
theorem partsValue_shifted (sign : Sign) {m : Nat} {e t : Int} (positive : 0 < m) (h : t ≤ e) :
    partsValue (.finite sign m e positive) =
      (sign.apply (m <<< (e - t).toNat : Nat) : Int) * 2 ^ t := by
  have value : ((m <<< (e - t).toNat : Nat) : ℚ) * 2 ^ t = m * 2 ^ e :=
    shiftLeft_mul_two_pow (by omega)
  rw [cast_apply, mul_assoc, Int.cast_natCast, value, partsValue]

/-- The exponent of a product is never too great to be aimed at. -/
theorem exists_target_mul {s t : Sign} {m n : Nat} {e f : Int} {hm : 0 < m} {hn : 0 < n}
    (hu : Canonical (.finite s m e hm)) (hv : Canonical (.finite t n f hn)) :
    ∃ k : Nat, e + f + k = target (m * n) (e + f) := by
  -- One factor with all of its bits is enough for a product with as many.
  have full (normal : 2 ^ 52 ≤ m ∨ 2 ^ 52 ≤ n) : 52 ≤ (m * n).log2 := by
    rw [Nat.le_log2 (Nat.mul_pos hm hn).ne']
    rcases normal with normal | normal
    · exact normal.trans (Nat.le_mul_of_pos_right m hn)
    · exact normal.trans (Nat.le_mul_of_pos_left n hm)
  obtain ⟨-, lowM, -, shapeM⟩ := hu
  obtain ⟨-, lowN, -, shapeN⟩ := hv
  -- Otherwise both have the least exponent, and the product an even smaller one.
  refine ⟨(target (m * n) (e + f) - (e + f)).toNat, ?_⟩
  rw [target, targetExponent_eq]
  omega

theorem isFinite_add_parts {u v : UnpackedFloat} (hu : Canonical u) (hv : Canonical v)
    (finite : u.isFinite ∧ v.isFinite) :
    (Float.ofModel (.pack (.add .binary64 u v))).isFinite ↔
      |partsValue u + partsValue v| < overflowBound := by
  cases u with
  | notANumber | infinity => cases finite.1
  | zero s =>
    -- What is added to zero stays as it is, but for the sign of a zero.
    have value : partsValue (.zero s) + partsValue v = partsValue v := Rat.zero_add _
    rw [value]
    refine iff_of_true ?_ (abs_partsValue_lt hv)
    cases v with
    | notANumber | infinity => cases finite.2
    | zero t => cases s <;> cases t <;> rfl
    | finite => exact (isFinite_pack_of_canonical hv).mpr rfl
  | finite s m e positive =>
    cases v with
    | notANumber | infinity => cases finite.2
    | zero t =>
      have value : partsValue (.finite s m e positive) + partsValue (.zero t) =
        partsValue (.finite s m e positive) := Rat.add_zero _
      rw [value]
      exact iff_of_true ((isFinite_pack_of_canonical hu).mpr rfl) (abs_partsValue_lt hu)
    | finite t n f positive' =>
      -- Both mantissas are brought to the smaller exponent, where they are added.
      rw [partsValue_shifted s positive (Int.min_le_left e f),
        partsValue_shifted t positive' (Int.min_le_right e f), ← add_mul, ← Int.cast_add]
      exact isFinite_normalize _ _ .positive

/-- A sum is finite exactly if both numbers are and their exact sum is below the bound. -/
theorem isFinite_add_iff (x y : Float) :
    (x + y).isFinite ↔ x.isFinite ∧ y.isFinite ∧ |toRat x + toRat y| < overflowBound := by
  rw [add_eq]
  exact isFinite_operation not_isFinite_add isFinite_add_parts x y

/-- The same of a difference. -/
theorem isFinite_sub_iff (x y : Float) :
    (x - y).isFinite ↔ x.isFinite ∧ y.isFinite ∧ |toRat x - toRat y| < overflowBound := by
  rw [sub_eq_add_neg, isFinite_add_iff, isFinite_neg, toRat_neg, ← Rat.sub_eq_add_neg]

theorem isFinite_mul_parts {u v : UnpackedFloat} (hu : Canonical u) (hv : Canonical v)
    (finite : u.isFinite ∧ v.isFinite) :
    (Float.ofModel (.pack (.mul .binary64 u v))).isFinite ↔
      |partsValue u * partsValue v| < overflowBound := by
  cases u with
  | notANumber | infinity => cases finite.1
  | zero s =>
    have value : partsValue (.zero s) * partsValue v = 0 := Rat.zero_mul _
    rw [value, abs_zero]
    refine iff_of_true ?_ overflowBound_pos
    cases v with
    | notANumber | infinity => cases finite.2
    | zero t | finite t => exact isFinite_zeroOf (s * t)
  | finite s m e positive =>
    cases v with
    | notANumber | infinity => cases finite.2
    | zero t =>
      have value : partsValue (.finite s m e positive) * partsValue (.zero t) = 0 := Rat.mul_zero _
      rw [value, abs_zero]
      exact iff_of_true (isFinite_zeroOf (s * t)) overflowBound_pos
    | finite t n f positive' =>
      -- The mantissas are multiplied in full, and only the result is rounded.
      obtain ⟨k, fits⟩ := exists_target_mul hu hv
      have value : (m * 2 ^ e : ℚ) * (n * 2 ^ f) = (m * n : Nat) * 2 ^ (e + f) := by
        rw [Nat.cast_mul, zpow_add₀ two_ne_zero]
        ac_rfl
      rw [abs_mul, abs_partsValue_finite, abs_partsValue_finite, value]
      exact isFinite_roundWithAccuracy (s * t) (Nat.mul_pos positive positive') fits

/-- A product is finite exactly if both numbers are and their exact product is below the
bound. -/
theorem isFinite_mul_iff (x y : Float) :
    (x * y).isFinite ↔ x.isFinite ∧ y.isFinite ∧ |toRat x * toRat y| < overflowBound := by
  rw [mul_eq]
  exact isFinite_operation not_isFinite_mul isFinite_mul_parts x y

/-! ## Products with zero -/

theorem isNaN_notANumber : (Float.ofModel (.pack .notANumber)).isNaN := by
  rw [isNaN_eq]
  rfl

theorem mul_parts_zero {u : UnpackedFloat} (h : ¬ u.isFinite) (sign : Sign) :
    UnpackedFloat.mul .binary64 u (.zero sign) = .notANumber ∧
      UnpackedFloat.mul .binary64 (.zero sign) u = .notANumber := by
  cases u with
  | notANumber | infinity => exact ⟨rfl, rfl⟩
  | zero | finite => exact absurd rfl h

/-- A product with zero is not a number exactly if the other factor is not finite. -/
theorem isNaN_mul_zero_iff {x z : Float} (hz : z == 0) :
    ((x * z).isNaN ↔ ¬ x.isFinite) ∧ ((z * x).isNaN ↔ ¬ x.isFinite) := by
  by_cases finite : x.isFinite
  · have right := not_isNaN_of_beq_zero (mul_zero_of_finite finite hz)
    have left := not_isNaN_of_beq_zero (zero_mul_of_finite finite hz)
    exact ⟨iff_of_false right (not_not_intro finite), iff_of_false left (not_not_intro finite)⟩
  · obtain ⟨sign, hz⟩ := (beq_zero_iff z).mp hz
    obtain ⟨right, left⟩ := mul_parts_zero finite sign
    rw [mul_eq, mul_eq, hz, right, left]
    exact ⟨iff_of_true isNaN_notANumber finite, iff_of_true isNaN_notANumber finite⟩

end Frontend.Number
