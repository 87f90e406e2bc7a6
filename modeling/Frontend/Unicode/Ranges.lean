/-!
# Classes of characters as ranges

A property of characters is given by the closed ranges of code points that have
it, in ascending order and without overlap, beyond the first 128 code points.
Those are decided by a rule of their own wherever a property is defined.
-/

namespace Frontend.Unicode

/-- Closed ranges of code points. -/
abbrev Ranges : Type := List (Nat × Nat)

/-- Whether `c` lies in one of the ranges. -/
def Ranges.contains (ranges : Ranges) (c : Char) : Bool :=
  ranges.any fun r => r.1 ≤ c.toNat && c.toNat ≤ r.2

def isAscii (c : Char) : Bool := c.toNat < 0x80

end Frontend.Unicode
