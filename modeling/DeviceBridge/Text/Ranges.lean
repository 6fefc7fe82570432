/-!
# DeviceBridge.Text.Ranges

Sets of characters given as closed ranges of code points.
-/

namespace DeviceBridge.Text

/-- Whether the code point of `c` lies in one of the ranges. -/
def inRanges (ranges : List (Nat × Nat)) (c : Char) : Bool :=
  ranges.any fun (lo, hi) => lo ≤ c.toNat && c.toNat ≤ hi

end DeviceBridge.Text
