/-!
# Sets of characters by code point

**Type.** Closed ranges of code points, in ascending order.

**Operation.** Whether a character is in one of the ranges.
-/

namespace Datalog

section CodePoints

/-- Closed ranges of code points. -/
abbrev CodePoints : Type :=
  List (Nat × Nat)

/-- Whether a character is in one of the ranges. -/
def CodePoints.contains (ranges : CodePoints) (c : Char) : Bool :=
  ranges.any fun (first, last) => first ≤ c.toNat && c.toNat ≤ last

end CodePoints

end Datalog
