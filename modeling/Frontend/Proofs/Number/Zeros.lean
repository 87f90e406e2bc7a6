import Frontend.Proofs.Number.Neutral

/-!
# Numbers up to the sign of zero

Two numbers are **alike** when they are the same or both zeros.  Arithmetic and
comparisons cannot tell alike operands apart, with two exceptions: a quotient by a
zero, and a power of a zero.  Both can be an infinity whose sign is that of the zero.
-/

namespace Frontend.Number

open Float.Model (UnpackedFloat Format)
open Float.Model.UnpackedFloat

/-- The same number, or two zeros. -/
def Alike (x y : Float) : Prop := x = y ∨ (x == 0 ∧ y == 0)

/-- The same parts, or the parts of two zeros. -/
def PartsAlike (u v : UnpackedFloat) : Prop := u = v ∨ ∃ s t, u = .zero s ∧ v = .zero t

namespace Alike

@[simp] theorem refl (x : Float) : Alike x x := Or.inl rfl

theorem symm {x y : Float} (h : Alike x y) : Alike y x := by
  rcases h with rfl | ⟨hx, hy⟩
  · exact refl _
  · exact Or.inr ⟨hy, hx⟩

theorem trans {x y z : Float} (hxy : Alike x y) (hyz : Alike y z) : Alike x z := by
  rcases hxy with rfl | ⟨hx, hy⟩
  · exact hyz
  · rcases hyz with rfl | ⟨_, hz⟩
    · exact Or.inr ⟨hx, hy⟩
    · exact Or.inr ⟨hx, hz⟩

/-- Alike numbers are zeros together. -/
theorem beq_zero {x y : Float} (h : Alike x y) (hx : x == 0) : y == 0 := by
  rcases h with rfl | ⟨_, hy⟩
  · exact hx
  · exact hy

/-- A number that is alike to one is one. -/
theorem eq_one {x : Float} (h : Alike x 1) : x = 1 := by
  rcases h with rfl | ⟨_, one⟩
  · rfl
  · exact absurd one (by decide)

theorem ofParts {u v : UnpackedFloat} (h : PartsAlike u v) :
    Alike (.ofModel (.pack u)) (.ofModel (.pack v)) := by
  rcases h with rfl | ⟨s, t, rfl, rfl⟩
  · exact refl _
  · exact Or.inr ⟨zeroOf_beq_zero s, zeroOf_beq_zero t⟩

end Alike

/-! ## Arithmetic -/

section parts

variable (s t : Sign) (u : UnpackedFloat)

theorem add_left_alike : PartsAlike (.add .binary64 (.zero s) u) (.add .binary64 (.zero t) u) := by
  cases u with
  | notANumber | infinity | finite => exact Or.inl rfl
  | zero sign => cases s <;> cases t <;> cases sign <;> exact Or.inr ⟨_, _, rfl, rfl⟩

theorem add_right_alike : PartsAlike (.add .binary64 u (.zero s)) (.add .binary64 u (.zero t)) := by
  cases u with
  | notANumber | infinity | finite => exact Or.inl rfl
  | zero sign => cases s <;> cases t <;> cases sign <;> exact Or.inr ⟨_, _, rfl, rfl⟩

theorem sub_left_alike : PartsAlike (.sub .binary64 (.zero s) u) (.sub .binary64 (.zero t) u) := by
  cases u with
  | notANumber | infinity | finite => exact Or.inl rfl
  | zero sign => cases s <;> cases t <;> cases sign <;> exact Or.inr ⟨_, _, rfl, rfl⟩

theorem sub_right_alike : PartsAlike (.sub .binary64 u (.zero s)) (.sub .binary64 u (.zero t)) := by
  cases u with
  | notANumber | infinity | finite => exact Or.inl rfl
  | zero sign => cases s <;> cases t <;> cases sign <;> exact Or.inr ⟨_, _, rfl, rfl⟩

theorem mul_left_alike : PartsAlike (.mul .binary64 (.zero s) u) (.mul .binary64 (.zero t) u) := by
  cases u with
  | notANumber | infinity => exact Or.inl rfl
  | zero | finite => exact Or.inr ⟨_, _, rfl, rfl⟩

theorem mul_right_alike : PartsAlike (.mul .binary64 u (.zero s)) (.mul .binary64 u (.zero t)) := by
  cases u with
  | notANumber | infinity => exact Or.inl rfl
  | zero | finite => exact Or.inr ⟨_, _, rfl, rfl⟩

theorem div_left_alike : PartsAlike (.div .binary64 (.zero s) u) (.div .binary64 (.zero t) u) := by
  cases u with
  | notANumber | zero => exact Or.inl rfl
  | infinity | finite => exact Or.inr ⟨_, _, rfl, rfl⟩

theorem compare_left_eq : UnpackedFloat.compare (.zero s) u = UnpackedFloat.compare (.zero t) u := by
  cases u with
  | notANumber | zero => rfl
  | infinity sign | finite sign => cases sign <;> rfl

theorem compare_right_eq : UnpackedFloat.compare u (.zero s) = UnpackedFloat.compare u (.zero t) := by
  cases u with
  | notANumber | zero => rfl
  | infinity sign | finite sign => cases sign <;> rfl

end parts

namespace Alike

variable {x x' y y' : Float}

/-- Parts of numbers that are alike. -/
theorem cases_unpack (h : Alike x x') :
    x = x' ∨ ∃ s t, x.toModel.unpack = .zero s ∧ x'.toModel.unpack = .zero t := by
  rcases h with rfl | ⟨hx, hx'⟩
  · exact Or.inl rfl
  · obtain ⟨s, hs⟩ := (beq_zero_iff x).mp hx
    obtain ⟨t, ht⟩ := (beq_zero_iff x').mp hx'
    exact Or.inr ⟨s, t, hs, ht⟩

theorem neg (h : Alike x x') : Alike (-x) (-x') := by
  rcases h.cases_unpack with rfl | ⟨s, t, hs, ht⟩
  · exact refl _
  · rw [neg_eq, neg_eq, hs, ht]
    exact ofParts (Or.inr ⟨_, _, rfl, rfl⟩)

/-- An operation on the parts that cannot tell zeros apart, on either side, cannot tell
alike numbers apart. -/
theorem ofOperation {op : Float → Float → Float} {f : UnpackedFloat → UnpackedFloat → UnpackedFloat}
    (op_eq : ∀ a b, op a b = .ofModel (.pack (f a.toModel.unpack b.toModel.unpack)))
    (left : ∀ s t u, PartsAlike (f (.zero s) u) (f (.zero t) u))
    (right : ∀ s t u, PartsAlike (f u (.zero s)) (f u (.zero t)))
    (hx : Alike x x') (hy : Alike y y') : Alike (op x y) (op x' y') := by
  -- One operand at a time: equal, or zeros that differ in their signs.
  have first : Alike (op x y) (op x' y) := by
    rcases hx.cases_unpack with rfl | ⟨s, t, hs, ht⟩
    · exact refl _
    · rw [op_eq, op_eq, hs, ht]
      exact ofParts (left s t _)
  have second : Alike (op x' y) (op x' y') := by
    rcases hy.cases_unpack with rfl | ⟨s, t, hs, ht⟩
    · exact refl _
    · rw [op_eq, op_eq, hs, ht]
      exact ofParts (right s t _)
  exact first.trans second

theorem add (hx : Alike x x') (hy : Alike y y') : Alike (x + y) (x' + y') :=
  ofOperation add_eq add_left_alike add_right_alike hx hy

theorem sub (hx : Alike x x') (hy : Alike y y') : Alike (x - y) (x' - y') :=
  ofOperation sub_eq sub_left_alike sub_right_alike hx hy

theorem mul (hx : Alike x x') (hy : Alike y y') : Alike (x * y) (x' * y') :=
  ofOperation mul_eq mul_left_alike mul_right_alike hx hy

/-- Quotients by a number that is no zero. -/
theorem div (hx : Alike x x') (hy : Alike y y') (nonzero : ¬ y == 0) :
    Alike (x / y) (x' / y') := by
  rcases hy with rfl | ⟨zero, _⟩
  · rcases hx.cases_unpack with rfl | ⟨s, t, hs, ht⟩
    · exact refl _
    · rw [div_eq, div_eq, hs, ht]
      exact ofParts (div_left_alike s t _)
  · exact absurd zero nonzero

/-- A remainder by a zero is not a number, whatever the sign of the zero. -/
theorem remainder (hx : Alike x x') (hy : Alike y y') :
    Alike (Number.remainder x y) (Number.remainder x' y') := by
  have left : Alike (Number.remainder x y) (Number.remainder x' y) := by
    rcases hx.cases_unpack with rfl | ⟨s, t, hs, ht⟩
    · exact refl _
    · unfold Number.remainder
      rw [hs, ht]
      -- A zero divided by anything else than a zero is its own remainder.
      cases y.toModel.unpack with
      | notANumber | zero => exact refl _
      | infinity | finite => exact hx
  have right : Alike (Number.remainder x' y) (Number.remainder x' y') := by
    rcases hy.cases_unpack with rfl | ⟨s, t, hs, ht⟩
    · exact refl _
    · unfold Number.remainder
      rw [hs, ht]
      cases x'.toModel.unpack <;> exact refl _
  exact left.trans right

/-- A power of a zero is a power of either zero. -/
theorem power_of_zeros {x x' y : Float} (hx : x == 0) (hx' : x' == 0)
    (same : Alike (Number.power 0 y) (Number.power (-0) y)) :
    Alike (Number.power x y) (Number.power x' y) := by
  rcases eq_or_eq_of_beq_zero hx with rfl | rfl
  · rcases eq_or_eq_of_beq_zero hx' with rfl | rfl
    · exact refl _
    · exact same
  · rcases eq_or_eq_of_beq_zero hx' with rfl | rfl
    · exact same.symm
    · exact refl _

/-- Powers whose exponent does not tell the zeros apart. -/
theorem power (hx : Alike x x') (hy : Alike y y')
    (same : x == 0 → Alike (Number.power 0 y) (Number.power (-0) y)) :
    Alike (Number.power x y) (Number.power x' y') := by
  have left : Alike (Number.power x y) (Number.power x' y) := by
    rcases hx with rfl | ⟨zero, zero'⟩
    · exact refl _
    · exact power_of_zeros zero zero' (same zero)
  have right : Alike (Number.power x' y) (Number.power x' y') := by
    rcases hy with rfl | ⟨hy, hy'⟩
    · exact refl _
    -- Anything to the power of a zero is one.
    · have one {z : Float} (hz : z == 0) : ¬ z == 1 := by
        intro h
        rw [eq_one_of_beq h] at hz
        exact absurd hz (by decide)
      unfold Number.power
      rw [if_neg (one hy), if_neg (one hy'), if_pos hy, if_pos hy']
      exact refl _
  exact left.trans right

/-! ## Neutral numbers -/

section

variable {z : Float}

theorem of_zero (hz : z == 0) : Alike z 0 := Or.inr ⟨hz, rfl⟩

theorem add_zero (hz : z == 0) : Alike (x + z) x := by
  -- Only a zero can change, and what it changes to is a zero.
  by_cases zero : x == 0
  · have sum : Alike (x + z) (0 + 0) := (of_zero zero).add (of_zero hz)
    exact sum.trans (of_zero zero).symm
  · exact Or.inl (add_zero_of_ne hz zero)

theorem zero_add (hz : z == 0) : Alike (z + x) x := by
  by_cases zero : x == 0
  · have sum : Alike (z + x) (0 + 0) := (of_zero hz).add (of_zero zero)
    exact sum.trans (of_zero zero).symm
  · exact Or.inl (zero_add_of_ne hz zero)

theorem sub_zero (hz : z == 0) : Alike (x - z) x := by
  by_cases zero : x == 0
  · have difference : Alike (x - z) (0 - 0) := (of_zero zero).sub (of_zero hz)
    exact difference.trans (of_zero zero).symm
  · exact Or.inl (sub_zero_of_ne hz zero)

/-- What is like a number that is equal to one is one. -/
theorem eq_one_of_beq (hx : x == 1) (h : Alike z x) : z = 1 := by
  rw [Number.eq_one_of_beq hx] at h
  exact h.eq_one

end

/-! ## Comparisons -/

theorem compare_eq (hx : Alike x x') (hy : Alike y y') :
    x.toModel.unpack.compare y.toModel.unpack = x'.toModel.unpack.compare y'.toModel.unpack := by
  have left : x.toModel.unpack.compare y.toModel.unpack =
      x'.toModel.unpack.compare y.toModel.unpack := by
    rcases hx.cases_unpack with rfl | ⟨s, t, hs, ht⟩
    · rfl
    · rw [hs, ht]
      exact compare_left_eq s t _
  have right : x'.toModel.unpack.compare y.toModel.unpack =
      x'.toModel.unpack.compare y'.toModel.unpack := by
    rcases hy.cases_unpack with rfl | ⟨s, t, hs, ht⟩
    · rfl
    · rw [hs, ht]
      exact compare_right_eq s t _
  exact left.trans right

theorem beq_eq (hx : Alike x x') (hy : Alike y y') : (x == y) = (x' == y') := by
  rw [Number.beq_eq, Number.beq_eq]
  unfold UnpackedFloat.beq
  rw [compare_eq hx hy]

theorem lt_iff (hx : Alike x x') (hy : Alike y y') : x < y ↔ x' < y' := by
  have lt_eq (a b : Float) : a < b ↔ a.toModel.unpack.lt b.toModel.unpack := by
    show decide (a.toModel.unpack.lt b.toModel.unpack = true) = true ↔ _
    simp
  rw [lt_eq, lt_eq]
  unfold UnpackedFloat.lt
  rw [compare_eq hx hy]

theorem le_iff (hx : Alike x x') (hy : Alike y y') : x ≤ y ↔ x' ≤ y' := by
  have le_eq (a b : Float) : a ≤ b ↔ a.toModel.unpack.le b.toModel.unpack := by
    show decide (a.toModel.unpack.le b.toModel.unpack = true) = true ↔ _
    simp
  rw [le_eq, le_eq]
  unfold UnpackedFloat.le
  rw [compare_eq hx hy]

end Alike

end Frontend.Number
