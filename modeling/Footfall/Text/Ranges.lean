/-!
Classes of characters given by a table of closed ranges of code points.
-/

namespace Footfall.Text

def inRanges (ranges : List (Nat × Nat)) (n : Nat) : Bool :=
  ranges.any fun r ↦ decide (r.1 ≤ n ∧ n ≤ r.2)

end Footfall.Text
