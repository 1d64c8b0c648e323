import BlockCalc.Text.Basic
/-! Emphasis in printed text: escape sequences of a terminal, or none. -/
namespace BlockCalc

/-- Whether printed text carries the escape sequences of a terminal. -/
inductive Coloring where
  | plain
  | ansi
  deriving DecidableEq, Repr

namespace Coloring

def select (rendition : String) : Text := '\x1b' :: '[' :: rendition.toList ++ ['m']

/-- Bold text, set back to normal behind it even if it is empty. -/
def bold : Coloring → Text → Text
  | plain, s => s
  | ansi, s => select "1" ++ s ++ select "0"

/-- Bold text in red, set back to normal behind it even if it is empty. -/
def boldRed : Coloring → Text → Text
  | plain, s => s
  | ansi, s => select "1" ++ select "31" ++ s ++ select "0"

end Coloring
end BlockCalc
