/-!
# The shortest decimal of a number

Of all decimals that read back as a given number, the one with the fewest digits is
shown, and of several of that length the one closest to the number.

The numbers that read back as `m * 2 ^ e` fill an interval around it, bounded by the
points half-way to its two neighbours; the bounds belong to it when `m` is even, for a
half-way point reads back as the even one.  The decimals with a given last place form
a grid, and if the interval has a point of a grid, then it has one of the two grid
points next to the number itself.  So it is enough to look at those two, on coarser
grids first.

Everything is compared in natural numbers, as multiples of a common unit.
-/

namespace Frontend.Number

/-- The decimal `digits * 10 ^ exponent`. -/
structure Decimal where
  digits : Nat
  exponent : Int
deriving DecidableEq

/-- A positive number `middle / unit`, and the bounds of what reads back as it in the
same unit. -/
structure Neighbourhood where
  low : Nat
  middle : Nat
  high : Nat
  unit : Nat
  /-- Whether the bounds themselves read back as the number. -/
  closed : Bool
deriving DecidableEq

namespace Neighbourhood

/-- The neighbourhood of `m * 2 ^ e`, where `m` fills the 53 bits of a significand or
`e` is the least exponent.  The neighbour below is only half as far away when `m` is
the least significand of its exponent. -/
def ofBinary (m : Nat) (e : Int) : Neighbourhood :=
  let below := if m = Nat.pow 2 52 ∧ -1074 < e then 1 else 2
  let scale := Nat.pow 2 (e - 2).toNat
  { low := (4 * m - below) * scale
    middle := 4 * m * scale
    high := (4 * m + 2) * scale
    unit := Nat.pow 2 (2 - e).toNat
    closed := m % 2 = 0 }

/-- The same neighbourhood in multiples of `10 ^ place`. -/
def scale (n : Neighbourhood) (place : Int) : Neighbourhood :=
  let factor := Nat.pow 10 (-place).toNat
  { n with
    low := n.low * factor
    middle := n.middle * factor
    high := n.high * factor
    unit := n.unit * Nat.pow 10 place.toNat }

/-- Whether the whole number `k` reads back as the number. -/
def Contains (n : Neighbourhood) (k : Nat) : Prop :=
  if n.closed then n.low ≤ k * n.unit ∧ k * n.unit ≤ n.high
  else n.low < k * n.unit ∧ k * n.unit < n.high

instance (n : Neighbourhood) (k : Nat) : Decidable (n.Contains k) := by
  unfold Contains
  infer_instance

/-- The whole number that reads back as the number and is closest to it; of two
equally close ones the larger. -/
def nearest? (n : Neighbourhood) : Option Nat :=
  let down := n.middle / n.unit
  if n.Contains down then
    if n.Contains (down + 1) ∧ (down + 1) * n.unit - n.middle ≤ n.middle - down * n.unit then
      some (down + 1)
    else some down
  else if n.Contains (down + 1) then some (down + 1)
  else none

/-- The first hit on the grids `10 ^ place`, `10 ^ (place - 1)`, …, of which the last
to be tried is given by the number of steps. -/
def search (n : Neighbourhood) (place : Int) : Nat → Decimal
  | 0 => ⟨(n.scale place).middle / (n.scale place).unit, place⟩
  | steps + 1 =>
    match (n.scale place).nearest? with
    | some digits => ⟨digits, place⟩
    | none => n.search (place - 1) steps

end Neighbourhood

/-- The shortest decimal that reads back as `m * 2 ^ e`.  The search begins at a power
of ten beyond the neighbourhood, and since seventeen digits always suffice, it needs
fewer than twenty steps. -/
def shortest (m : Nat) (e : Int) : Decimal :=
  let bits := (m.log2 : Int) + 1 + e
  (Neighbourhood.ofBinary m e).search (bits * 30103 / 100000 + 2) 24

end Frontend.Number
