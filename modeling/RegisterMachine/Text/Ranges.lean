/-!
# Sets of characters by ranges

A property of characters is kept as an array of closed ranges of code points, in ascending order.
-/

set_option autoImplicit false

namespace RegisterMachine.Text

/-- Whether a character lies in one of the closed ranges. -/
def inRanges (ranges : Array (Nat × Nat)) (c : Char) : Bool :=
  ranges.any fun r => r.1 ≤ c.toNat && c.toNat ≤ r.2

end RegisterMachine.Text
