import BlockCalc.Text.Printable
/-! Quoted texts, as they stand in the inspection of a tree or a scope and in some messages.
Every character shows between the quotes: one that cannot be printed, or would end the text, is
escaped. -/
namespace BlockCalc.Text

def hex : (width n : Nat) → Text
  | 0, _ => []
  | width + 1, n => hex width (n / 16) ++ [Nat.digitChar (n % 16)]

/-- The code of a character, in the shortest of three forms that holds it. -/
def escapeCode (n : Nat) : Text :=
  if n ≤ 0xFF then '\\' :: 'x' :: hex 2 n
  else if n ≤ 0xFFFF then '\\' :: 'u' :: hex 4 n
  else '\\' :: 'U' :: hex 8 n

/-- A character between quotes: the quote in use and the backslash stand behind a backslash, three
controls have a letter of their own, and what cannot be printed is given by its code. -/
def escape (quote c : Char) : Text :=
  if c = quote || c = '\\' then ['\\', c]
  else if c = '\n' then ['\\', 'n']
  else if c = '\r' then ['\\', 'r']
  else if c = '\t' then ['\\', 't']
  else if isPrintable c then [c]
  else escapeCode c.toNat

/-- Single quotes surround a text, or double quotes if it holds single ones and no double one. -/
def quoted (s : Text) : Text :=
  let quote := if s.contains '\'' && !s.contains '"' then '"' else '\''
  quote :: s.flatMap (escape quote) ++ [quote]

end BlockCalc.Text
