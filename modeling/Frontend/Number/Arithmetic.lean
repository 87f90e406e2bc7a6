import Frontend.Number.Reading

/-!
# Arithmetic beyond the four operations

* **`remainder`**: what is left of `x` when a whole number of `y`s is taken away from
  it, towards zero.  It is exact, and has the sign of `x`.
* **`power`**: `x` to the power of `y`.
-/

namespace Frontend.Number

open Float.Model (UnpackedFloat Format)

/-- The remainder of finite nonzero numbers `m * 2 ^ e` by `n * 2 ^ f`, of which the
first has the given sign: both are whole multiples of the lower power of two. -/
def finiteRemainder (sign : UnpackedFloat.Sign) (m : Nat) (e : Int) (n : Nat) (f : Int) :
    UnpackedFloat :=
  let place := min e f
  let rest := (m <<< (e - place).toNat) % (n <<< (f - place).toNat)
  if rest = 0 then .zero sign else UnpackedFloat.round Format.binary64 sign rest place

/-- The remainder of `x` by `y`.  An infinite `x` and a zero `y` leave nothing to speak
of; an infinite `y` leaves all of `x`. -/
def remainder (x y : Float) : Float :=
  match x.toModel.unpack, y.toModel.unpack with
  | .notANumber, _ | _, .notANumber | .infinity _, _ | _, .zero _ => notANumber
  | .zero _, _ | _, .infinity _ => x
  | .finite sign m e _, .finite _ n f _ =>
    Float.ofModel (Float.Model.pack (finiteRemainder sign m e n f))

/-- `x` to the power of `y`.  The first power is the number itself and the zeroth is
one, whatever the number is. -/
def power (x y : Float) : Float :=
  if y == 1 then x
  else if y == 0 then 1
  else Float.pow x y

end Frontend.Number
