/-! Sets of code points given as ascending, disjoint ranges with both ends included. -/

namespace HtmlTree.Text

def inRanges : List (Nat × Nat) → Nat → Bool
  | [], _ => false
  | (first, last) :: ranges, n => first ≤ n && (n ≤ last || inRanges ranges n)

end HtmlTree.Text
