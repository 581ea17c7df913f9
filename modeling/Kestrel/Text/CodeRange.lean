/-!
# Ranges of characters

Sets of characters are given as lists of ranges of code points.
-/

namespace Kestrel

/-- The code points from `low` to `high`. -/
structure CodeRange where
  low : Nat
  high : Nat
  deriving DecidableEq, Repr

/-- Whether a character lies in one of the ranges. -/
def inRanges (ranges : List CodeRange) (c : Char) : Bool :=
  ranges.any fun range => range.low ≤ c.toNat && c.toNat ≤ range.high

end Kestrel
