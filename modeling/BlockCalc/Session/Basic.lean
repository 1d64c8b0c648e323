import BlockCalc.Grammar.Parse
import BlockCalc.Reporter
import BlockCalc.Scope.Evaluation
import BlockCalc.Session.Statements
/-! Sessions. A session reads statements first and evaluates them later, all in one root scope.
Statements that wait are kept under their line numbers; one that is evaluated no longer waits,
whether it had a value or an error. In a session on a file every value is printed as soon as it
is there, so that it stays printed when a later statement fails. -/
namespace BlockCalc

abbrev Files := Table Text (List UInt8)

/-- The path that stands for typed input. -/
def inputPath : Text := "<in>".toList

/-- A session: who reports its errors, under which path, whether it is used interactively, how deep
statements may be nested, its root scope, the statements that wait, and the values so far. -/
structure Session where
  reporter : Reporter
  path : Text
  interactive : Bool
  limit : Nat
  scope : Scope
  pending : Table Int (Text × Stmt)
  results : List Value
  deriving DecidableEq

namespace Session

/-- A session with nothing done. Interactive use survives its errors. -/
def fresh (reporter : Reporter) (path : Text) (interactive : Bool) (limit : Nat := nestingLimit) :
    Session where
  reporter :=
    let known := reporter.registerFile path
    if interactive then { known with fatal := false } else known
  path := path
  interactive := interactive
  limit := limit
  scope := .root
  pending := .empty
  results := []

def mark (s : Session) (line : Text) (number : Int) : Session :=
  { s with reporter := s.reporter.registerLine s.path (some line) (some number) }

def unmark (s : Session) : Session := { s with reporter := s.reporter.clearLine s.path }

/-- Reads a statement and lets it wait under its line number. Under a number that is taken it
replaces the statement there. -/
def add (s : Session) (source : Text) (number : Int) : Run Session Unit :=
  let marked := s.mark source number
  match parse source s.limit with
  | .error failure => .stopped marked failure.stop
  | .ok stmt =>
    .done { marked with pending := marked.pending.insert number (source, stmt) }.unmark ()

/-- Reads several statements in order, up to the first that cannot be read. -/
def addAll : List (Text × Nat) → Session → Run Session Unit
  | [], s => .done s ()
  | (source, number) :: more, s => (s.add source number).andThen fun s _ => addAll more s

/-- Evaluates one statement, which from now on no longer waits. -/
def evaluate (s : Session) (number : Int) (source : Text) (stmt : Stmt) : Run Session Unit :=
  let marked := s.mark source number
  match stmt.eval marked.scope with
  | (answer, scope) =>
    let spent := { marked with scope, pending := marked.pending.erase number }
    match answer with
    | .error e => .stopped spent (.message e.message)
    | .ok value =>
      { state := { spent with results := spent.results ++ [value] }.unmark
        printed := if s.interactive then [] else value.render ++ ['\n']
        ending := .ok () }

def evaluateAll : List (Int × Text × Stmt) → Session → Run Session Unit
  | [], s => .done s ()
  | (number, source, stmt) :: more, s =>
    (s.evaluate number source stmt).andThen fun s _ => evaluateAll more s

/-- Evaluates the statements that wait, in the order in which their numbers came. -/
def run (s : Session) : Run Session Unit := evaluateAll s.pending.entries s

def pop (s : Session) : Run Session Value :=
  match s.results.getLast? with
  | none => .stopped s (.defect .noResults)
  | some value => .done { s with results := s.results.dropLast } value

/-- Has the session's reporter settle how a step ended. A step that stopped and was settled has
no answer. -/
def settled {α : Type} (step : Run Session α) : Run Session (Option α) :=
  match step.ending with
  | .ok answer => ⟨step.state, step.printed, .ok (some answer)⟩
  | .error stop =>
    let told := step.state.reporter.settle stop
    { state := { step.state with reporter := told.state }
      printed := step.printed ++ told.printed
      ending := told.ending.map fun _ => none }

/-- Opens a session on a file, whose statements are read at once, or on typed input, which only
interactive use has. A session that cannot be opened gives back why, and the reporter. -/
def start (reporter : Reporter) (path : Text) (interactive : Bool) (files : Files)
    (limit : Nat := nestingLimit) : Except (Stop × Reporter) Session :=
  let s := fresh reporter path interactive limit
  if path = inputPath then
    if interactive then .ok s
    else .error (.message (.fixed .general "'<in>' is a reserved filename"), s.reporter)
  else if path.contains '\x00' then .error (.defect .nullInPath, s.reporter)
  else
    match files.find? path with
    | none => .error (.message (.around .general "'" path "' could not be opened"), s.reporter)
    | some bytes =>
      match Encoding.decode bytes with
      | .error fault => .error (.defect (.undecodable fault), s.reporter)
      | .ok text =>
        let loaded := addAll (Statements.ofText text) s
        match loaded.ending with
        | .error stop => .error (stop, loaded.state.reporter)
        | .ok () => .ok loaded.state

end Session
end BlockCalc
