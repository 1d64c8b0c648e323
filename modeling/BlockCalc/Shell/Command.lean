import BlockCalc.Text.Basic
/-! What a typed line asks of the shell. The commands are known by the word that the line begins
with, and everything that is no command is code, also a line that begins with another word. -/
namespace BlockCalc

inductive Command where
  | blank
  | help
  | leave
  | endOfInput
  | code (line : Text)
  deriving DecidableEq, Repr

namespace Command

def isWordChar (c : Char) : Bool := c.isAlphanum || c == '_'

def ofWord (line : Text) : Command :=
  let word := line.takeWhile isWordChar
  if word = "help".toList then .help
  else if word = "exit".toList then .leave
  else if word = "EOF".toList then .endOfInput
  else .code line

/-- What a typed line asks for. Blank characters around it do not matter, and a question mark
asks for help whatever follows. -/
def ofLine (line : Text) : Command :=
  match line.trim with
  | [] => .blank
  | '?' :: _ => .help
  | trimmed => ofWord trimmed

end Command
end BlockCalc
