import BlockCalc.Message.Coloring
import BlockCalc.Message.Template
/-! Messages about what went wrong. A message is kept as pieces, so that its plain text and its
text for a terminal differ in the emphasis of the snippets and in nothing else. -/
namespace BlockCalc

/-- What a message is about: reading a statement, evaluating one, or anything else. -/
inductive MessageKind where
  | parse
  | eval
  | general
  deriving DecidableEq, Repr

/-- A message: its pieces, the snippets it was made from, and whether it points at a mistake of
the program itself instead of its user. -/
structure Message where
  kind : MessageKind
  pieces : List Template.Piece
  snippets : List Text
  internal : Bool
  deriving DecidableEq, Repr

namespace Message

/-- Makes a message from a template and the snippets for its slots. -/
def ofTemplate (kind : MessageKind) (template : Text) (snippets : List Text) (internal : Bool) :
    Except Template.Fault Message :=
  (Template.pieces template snippets).map fun pieces => { kind, pieces, snippets, internal }

def fixed (kind : MessageKind) (text : String) : Message :=
  { kind, pieces := [.plain text.toList], snippets := [], internal := false }

/-- A message with one snippet between two fixed texts. -/
def around (kind : MessageKind) (before : String) (snippet : Text) (behind : String) : Message :=
  { kind, pieces := [.plain before.toList, .snippet snippet, .plain behind.toList],
    snippets := [snippet], internal := false }

/-- The same message, as a mistake of the program itself. -/
def asInternal (message : Message) : Message := { message with internal := true }

def text (message : Message) : Text :=
  message.pieces.flatMap fun
    | .plain s => s
    | .snippet s => s

def colored (coloring : Coloring) (message : Message) : Text :=
  message.pieces.flatMap fun
    | .plain s => s
    | .snippet s => coloring.bold s

/-- Without colours both texts of a message are the same. -/
theorem colored_plain (message : Message) : message.colored .plain = message.text := rfl

end Message
end BlockCalc
