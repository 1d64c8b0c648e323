import BlockCalc.Session.Basic
import BlockCalc.Shell.Command
/-! The shell. It collects typed lines until the braces of a statement balance, evaluates the
statement in its session and prints the value. Commands are obeyed even while a block is open. -/
namespace BlockCalc

/-- What is printed before a line is typed: that a statement may begin, or that one goes on. -/
inductive Prompt where
  | ready
  | continuation
  deriving DecidableEq, Repr

def Prompt.text : Prompt → Text
  | ready => "> ".toList
  | continuation => ". ".toList

/-- A shell: its session, the text of a statement whose block is still open, the prompt, and how
many lines of code were typed. -/
structure Shell where
  session : Session
  pending : Text
  prompt : Prompt
  lineNumber : Nat
  deriving DecidableEq

namespace Shell

def intro : Text :=
  "raga interpreter\nType 'help' for a short introduction, 'exit' or Ctrl-D to leave.\n".toList

def helpText : Text :=
  ("raga is a tiny expression language: integers, one arithmetic operator per \n"
    ++ "expression, 'let' bindings, 'fn' definitions, and '\x7b \x7d' blocks that open a \n"
    ++ "new scope.\n\n"
    ++ "Try 'let a = 10 / 2', which binds 5 to 'a'. Then type '\x7b let b = a * 2' and \n"
    ++ "'b \x7d' on the following line: the block gives 10, and 'b' is gone afterwards.\n").toList

def fresh (reporter : Reporter) (limit : Nat := nestingLimit) : Shell where
  session := .fresh reporter inputPath true limit
  pending := []
  prompt := .ready
  lineNumber := 0

/-- Reads and evaluates a whole statement and prints its value. -/
def execute (session : Session) (source : Text) (number : Int) : Run Session Unit :=
  (session.add source number).andThen fun session _ =>
    session.run.andThen fun session _ =>
      if session.results.isEmpty then .done session ()
      else session.pop.andThen fun session value => ⟨session, value.render ++ ['\n'], .ok ()⟩

/-- Takes a line of code: it is joined to an open statement, and evaluated unless a block stays
open or there is nothing in it. -/
def submit (shell : Shell) (line : Text) : Run Shell Unit :=
  let joined := Statements.join shell.pending line
  let isOpen := Statements.leavesOpen joined
  let next : Shell :=
    { session := shell.session
      pending := if isOpen then joined else []
      prompt := if isOpen then .continuation else .ready
      lineNumber := shell.lineNumber + 1 }
  if isOpen || joined.isEmpty then .done next ()
  else
    ((Session.settled (execute next.session joined next.lineNumber)).within
      fun session => { next with session }).answering fun _ => ()

/-- Takes a typed line and answers whether the shell is to end. A blank line is code only while a
block is open. -/
def enter (shell : Shell) (line : Text) : Run Shell Bool :=
  match Command.ofLine line with
  | .blank =>
    if shell.pending.isEmpty then .done shell false
    else (shell.submit []).answering fun _ => false
  | .help => ⟨shell, helpText, .ok false⟩
  | .leave => .done shell true
  | .endOfInput => ⟨shell, ['\n'], .ok true⟩
  | .code code => (shell.submit code).answering fun _ => false

/-- Takes typed lines, with a prompt before each, until the shell is to end. The end of the lines
counts as the command for it. -/
def converse : List Text → Shell → Run Shell Unit
  | [], shell => ((shell.enter "EOF".toList).after shell.prompt.text).answering fun _ => ()
  | line :: lines, shell =>
    ((shell.enter line).after shell.prompt.text).andThen fun shell leave =>
      if leave then .done shell () else converse lines shell

end Shell
end BlockCalc
