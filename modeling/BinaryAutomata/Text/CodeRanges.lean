/-! Sets of code points, written as ascending closed ranges. -/
namespace BinaryAutomata.Text

abbrev CodeRanges := List (Nat × Nat)

def CodeRanges.contains (ranges : CodeRanges) (code : Nat) : Bool :=
  ranges.any fun range => range.1 ≤ code && code ≤ range.2

end BinaryAutomata.Text
