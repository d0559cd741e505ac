import HttpWorkbench.Text.CodePoint

/-!
# Ranges of code points

Classes of code points are given as ascending lists of closed ranges.
-/

namespace HttpWorkbench.Text

/-- The code points from `first` to `last`, both included. -/
structure CodeRange where
  first : Nat
  last : Nat

/-- Whether one of the ranges holds the code point. -/
def inRanges (ranges : List CodeRange) (c : CodePoint) : Bool :=
  ranges.any fun r => r.first ≤ c.value && c.value ≤ r.last

end HttpWorkbench.Text
