import BlockCalc.Grammar.Rules
/-! Reading a text that is exactly one statement. -/
namespace BlockCalc

/-- How many levels of statements a reader goes down unless it is told otherwise. The language fixes
no number: it stands for the recursion limit of the machine that reads, of whose 1000 frames a level
in a block takes about nine and one in a function three. What is proved holds for any limit. -/
def nestingLimit : Nat := 300

/-- Reads a text that is one statement from end to end, at most `limit` levels deep. A text that
goes deeper is refused as such, whatever else may be wrong with it further on. -/
def parseWithin (limit : Nat) (s : Text) : Except Failure Stmt :=
  match Grammar.stmt limit s with
  | .ok ([], tree) => .ok tree
  | .ok (_ :: _, _) => .error (.mismatch .leftover)
  | .error .tooDeep => .error (.mismatch .nestedTooDeeply)
  | .error failure => .error failure

def parse (s : Text) (limit : Nat := nestingLimit) : Except Failure Stmt := parseWithin limit s

end BlockCalc
