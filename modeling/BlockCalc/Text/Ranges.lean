import BlockCalc.Text.Basic
/-! Closed ranges of code points, the form in which the tables of character classes are kept. -/
namespace BlockCalc.Ranges

def holds (ranges : List (Nat × Nat)) (code : Nat) : Bool :=
  ranges.any fun range => range.1 ≤ code && code ≤ range.2

end BlockCalc.Ranges
