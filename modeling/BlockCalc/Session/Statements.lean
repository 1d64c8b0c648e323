import BlockCalc.Text.Lines
/-! From lines to statements. A statement ends with its line, unless it leaves a block open; then
it goes on with the next line until its braces balance. Only counts of braces decide this, the
reading comes later. -/
namespace BlockCalc.Statements

/-- A line joined to the text that it continues. The first line of a statement is trimmed at both
ends, each further one at its end only. -/
def join (previous line : Text) : Text :=
  if previous.isEmpty then line.trim else previous ++ '\n' :: line.trimEnd

def leavesOpen (s : Text) : Bool := s.count '}' < s.count '{'

/-- The statements of some lines, each with the number of its first line. `number` is that of the
next line, and `begun` a statement left open, with its own number. -/
def fromLines (number : Nat) (begun : Option (Text × Nat)) : List Text → List (Text × Nat)
  | [] => begun.toList
  | line :: lines =>
    let (previous, start) := begun.getD ([], number)
    let joined := join previous line
    if leavesOpen joined then fromLines (number + 1) (some (joined, start)) lines
    else if joined.isEmpty then fromLines (number + 1) none lines
    else (joined, start) :: fromLines (number + 1) none lines

def ofLines (lines : List Text) : List (Text × Nat) := fromLines 1 none lines

def ofText (s : Text) : List (Text × Nat) := ofLines (Text.physicalLines (Text.unifyNewlines s))

end BlockCalc.Statements
