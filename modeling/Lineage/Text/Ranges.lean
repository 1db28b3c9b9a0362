/-!
# Ranges of characters

Sets of characters as rows of ranges of code points.
-/

namespace Lineage

/-- Whether a character lies in one of some ranges of code points, both ends included. -/
def inRanges (ranges : List (Nat × Nat)) (c : Char) : Bool :=
  ranges.any fun (low, high) => low ≤ c.toNat && c.toNat ≤ high

end Lineage
