import BlockCalc.Run.Basic
import BlockCalc.Table
/-! The reporter. It knows for every file which line is being worked on, prints messages behind
those lines, and decides whether a message ends the program. A reporter that is fatal ends it and
leaves its lines as they are; any other forgets all lines, so that the next statement starts
clean. -/
namespace BlockCalc

/-- The line of a file that is being worked on, and its number, as far as they are known. -/
structure Mark where
  line : Option Text
  number : Option Int
  deriving DecidableEq, Repr

def Mark.clear : Mark := ⟨none, none⟩

/-- Whether a message ends the program, how it is printed, and the mark of every known file. -/
structure Reporter where
  fatal : Bool
  coloring : Coloring
  marks : Table Text Mark
  deriving DecidableEq, Repr

namespace Reporter

def fresh (fatal : Bool) (coloring : Coloring) : Reporter := ⟨fatal, coloring, .empty⟩

def setMark (r : Reporter) (path : Text) (mark : Mark) : Reporter :=
  { r with marks := r.marks.insert path mark }

theorem setMark_setMark (r : Reporter) (path : Text) (first mark : Mark) :
    (r.setMark path first).setMark path mark = r.setMark path mark := by
  rw [setMark, setMark, setMark, Table.insert_insert]

def registerFile (r : Reporter) (path : Text) : Reporter := r.setMark path .clear

/-- Marks a line as the one being read or evaluated. -/
def registerLine (r : Reporter) (path : Text) (line : Option Text) (number : Option Int) :
    Reporter :=
  r.setMark path ⟨line, number⟩

def clearLine (r : Reporter) (path : Text) : Reporter := r.setMark path .clear

/-- A line that is done leaves nothing behind, whatever was marked before. -/
theorem clearLine_registerLine (r : Reporter) (path : Text) (line : Option Text)
    (number : Option Int) : (r.registerLine path line number).clearLine path = r.clearLine path :=
  r.setMark_setMark path ⟨line, number⟩ .clear

theorem registerLine_clearLine (r : Reporter) (path : Text) (line : Option Text)
    (number : Option Int) :
    (r.clearLine path).registerLine path line number = r.registerLine path line number :=
  r.setMark_setMark path .clear ⟨line, number⟩

theorem clearLine_clearLine (r : Reporter) (path : Text) :
    (r.clearLine path).clearLine path = r.clearLine path := r.setMark_setMark path .clear .clear

/-- Forgets the lines of all files and keeps the files. -/
def clearLines (r : Reporter) : Reporter := { r with marks := r.marks.mapValues fun _ => .clear }

/-- A marked line as it is shown; an empty one is not. -/
def entry (path : Text) (mark : Mark) : Text :=
  match mark.line with
  | none | some [] => []
  | some line =>
    "  File '".toList ++ path ++ "', line ".toList
      ++ (match mark.number with
          | none => "None".toList
          | some n => Decimal.ofInt n)
      ++ ":\n    ".toList ++ line ++ ['\n']

/-- All marked lines, in the order in which their files became known. -/
def location (r : Reporter) : Text := r.marks.entries.flatMap fun e => entry e.1 e.2

/-- A message as it is printed: the marked lines, and the message behind the word for an error. -/
def rendered (r : Reporter) (message : Message) : Text :=
  r.location
    ++ (if message.internal then r.coloring.boldRed "[internal] ".toList else [])
    ++ r.coloring.boldRed "error: ".toList ++ message.colored r.coloring ++ ['\n']

/-- Prints a message, and ends the program or forgets the lines. -/
def report (r : Reporter) (message : Message) : Run Reporter Unit :=
  if r.fatal then ⟨r, r.rendered message, .error (.exit 1)⟩
  else ⟨r.clearLines, r.rendered message, .ok ()⟩

theorem report_surviving {r : Reporter} (survives : r.fatal = false) (message : Message) :
    r.report message = ⟨r.clearLines, r.rendered message, .ok ()⟩ := by
  rw [report, survives]
  rfl

def defectMessage (defect : Defect) : Message :=
  (Message.around .general "unknown error: '" defect.text "'").asInternal

/-- Reports why a step stopped and takes it as settled, with two exceptions: an exit passes
without a word, and a defect still stops the run after it was reported. -/
def settle (r : Reporter) : Stop → Run Reporter Unit
  | .message message => r.report message
  | .interrupted => r.report (.fixed .general "keyboard interrupt")
  | .stackExhausted =>
    r.report (.fixed .general "maximum recursion depth exceeded while evaluating")
  | .defect defect =>
    (r.report (defectMessage defect)).andThen fun r _ => .stopped r (.defect defect)
  | .exit status => .stopped r (.exit status)

end Reporter
end BlockCalc
