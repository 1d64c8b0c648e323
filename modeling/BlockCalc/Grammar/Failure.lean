import BlockCalc.Message.Basic
/-! How reading a text can end without a result. A mismatch says only that one rule does not
apply here, and another may be tried on the same text; the two other failures stop the whole
reading, so that no other rule can make them look like a different text. -/
namespace BlockCalc

/-- Why a text does not begin with what a rule describes, or is not one statement. -/
inductive ParseError where
  | expectedDigits
  | expectedIdentifier
  | expectedSpace
  | expected (literal : Text)
  | literalOutOfRange (digits : Text)
  | noAlternatives
  | leftover
  | nestedTooDeeply
  deriving DecidableEq, Repr

/-- To be asked for one of no alternatives is the program's own mistake. -/
def ParseError.message : ParseError → Message
  | expectedDigits => .fixed .parse "expected digits"
  | expectedIdentifier => .fixed .parse "expected identifier"
  | expectedSpace => .fixed .parse "expected a space"
  | expected literal => .around .parse "expected " literal ""
  | literalOutOfRange digits =>
    .around .parse "number literal '" digits "' does not fit in 32 bits"
  | noAlternatives => (Message.fixed .parse "expected one of no alternatives").asInternal
  | leftover => .fixed .parse "input was not consumed fully by parser"
  | nestedTooDeeply => .fixed .parse "input is nested too deeply to parse"

/-- How a rule fails: by a mismatch, at a literal of too many digits, or because statements are
nested deeper than the reader goes. -/
inductive Failure where
  | mismatch (error : ParseError)
  | literalTooLong (digits : Nat)
  | tooDeep
  deriving DecidableEq, Repr

/-- A rule reads an item from the start of a text and gives back the rest with it. -/
abbrev Rule (α : Type) := Text → Except Failure (Text × α)

end BlockCalc
