import BlockCalc.Text.Basic
/-! Texts as sequences of lines. Two notions of a line meet here: `Text.lines` breaks at every
character that ends a line on a page and is what indentation follows, while `Text.physicalLines`
breaks at the newline alone and is what files and typed input are made of. -/
namespace BlockCalc

/-- The characters that end a line: newline, vertical tab, form feed, carriage return, three
information separators, next line, and the line and paragraph separators. -/
def isLineBreak (c : Char) : Bool :=
  let n := c.toNat
  (0x0A ≤ n && n ≤ 0x0D) || (0x1C ≤ n && n ≤ 0x1E) || n == 0x85 || n == 0x2028 || n == 0x2029

namespace Text

/-- Cuts after every line break, which stays with the line it ends; a carriage return and the
newline behind it are one break. -/
def lines : Text → List Text
  | [] => []
  | '\r' :: '\n' :: rest => ['\r', '\n'] :: lines rest
  | c :: rest =>
    if isLineBreak c then [c] :: lines rest
    else
      match lines rest with
      | [] => [[c]]
      | line :: more => (c :: line) :: more

/-- Puts `margin` before every line that holds more than blank characters. -/
def indent (margin s : Text) : Text :=
  s.lines.flatMap fun line => if line.all isBlank then line else margin ++ line

/-- Writes every line ending, a carriage return with or without its newline, as a newline. -/
def unifyNewlines : Text → Text
  | [] => []
  | '\r' :: '\n' :: rest => '\n' :: unifyNewlines rest
  | '\r' :: rest => '\n' :: unifyNewlines rest
  | c :: rest => c :: unifyNewlines rest

/-- Cuts at every newline and drops it; a text that ends with a newline has no line behind it. -/
def physicalLines : Text → List Text
  | [] => []
  | '\n' :: rest => [] :: physicalLines rest
  | c :: rest =>
    match physicalLines rest with
    | [] => [[c]]
    | line :: more => (c :: line) :: more

end Text
end BlockCalc
