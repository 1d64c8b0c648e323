import BlockCalc.Text.Decimal
/-! Message templates. A pair of braces is a slot for a snippet, a doubled brace stands for
itself, and any other brace is a mistake in the template. Slots take the snippets they are given
in order; the first mistake from the left, a stray brace or a slot with no snippet left for it,
is the one reported. -/
namespace BlockCalc.Template

inductive Token where
  | literal (c : Char)
  | slot
  | stray (brace : Char)
  deriving DecidableEq, Repr

/-- The tokens of a template, read from the left. -/
def tokens : Text → List Token
  | [] => []
  | '{' :: '{' :: rest => .literal '{' :: tokens rest
  | '}' :: '}' :: rest => .literal '}' :: tokens rest
  | '{' :: '}' :: rest => .slot :: tokens rest
  | c :: rest => (if c = '{' ∨ c = '}' then .stray c else .literal c) :: tokens rest

/-- A part of a message: the template's own text, or a snippet put into a slot. -/
inductive Piece where
  | plain (text : Text)
  | snippet (text : Text)
  deriving DecidableEq, Repr

/-- What is wrong with a template or with the number of its snippets. -/
inductive Fault where
  | strayBrace (brace : Char)
  | missingSnippet (slot : Nat)
  deriving DecidableEq, Repr

/-- Puts the snippets into the slots, of which `slot` have already been filled. A snippet stands
in its slot as it is, and snippets without a slot are left out. -/
def fill : List Token → List Text → Nat → Except Fault (List Piece)
  | [], _, _ => .ok []
  | .literal c :: tokens, snippets, slot => (fill tokens snippets slot).map (.plain [c] :: ·)
  | .stray brace :: _, _, _ => .error (.strayBrace brace)
  | .slot :: _, [], slot => .error (.missingSnippet slot)
  | .slot :: tokens, snippet :: snippets, slot =>
    (fill tokens snippets (slot + 1)).map (.snippet snippet :: ·)

def pieces (template : Text) (snippets : List Text) : Except Fault (List Piece) :=
  fill (tokens template) snippets 0

def Fault.text : Fault → Text
  | .strayBrace brace => "Single '".toList ++ brace :: "' encountered in format string".toList
  | .missingSnippet slot =>
    "Replacement index ".toList ++ Decimal.ofNat slot
      ++ " out of range for positional args tuple".toList

end BlockCalc.Template
