import BlockCalc.Proofs.Session.Continuation
import BlockCalc.Proofs.Session.OnFile
import BlockCalc.Shell.Basic
/-! What a shell does with a line of code: it goes on with an open statement, it does nothing, or it
evaluates a whole statement and prints the value. Between two lines no statement waits in its
session and no value is left there, so that only the scope carries anything on. -/
namespace BlockCalc

/-- A line that is no command: trimmed, it begins neither with a question mark nor with the word of
a command. -/
structure IsCode (line : Text) : Prop where
  question : line.trim.head? ≠ some '?'
  word : line.trim.takeWhile Command.isWordChar ∉
    ["help".toList, "exit".toList, "EOF".toList]

instance IsCode.decidable (line : Text) : Decidable (IsCode line) :=
  decidable_of_iff (line.trim.head? ≠ some '?' ∧
    line.trim.takeWhile Command.isWordChar ∉ ["help".toList, "exit".toList, "EOF".toList])
    ⟨fun h => ⟨h.1, h.2⟩, fun h => ⟨h.question, h.word⟩⟩

namespace Session
variable {limit : Nat} {reporter : Reporter} {path source : Text} {scope next : Scope}
  {number : Int} {t : Stmt} {v : Value}

def onInput (limit : Nat) (reporter : Reporter) (path : Text) (scope : Scope)
    (waiting : Table Int (Text × Stmt)) (results : List Value) : Session where
  reporter := reporter
  path := path
  interactive := true
  limit := limit
  scope := scope
  pending := waiting
  results := results

theorem add_onInput (read : parse source limit = .ok t) :
    (onInput limit reporter path scope .empty []).add source number =
      .done (onInput limit (reporter.clearLine path) path scope
        (Table.empty.insert number (source, t)) []) () := add_of_ok _ read number

theorem add_onInput_unread {failure : Failure} (unread : parse source limit = .error failure) :
    (onInput limit reporter path scope .empty []).add source number =
      .stopped
        (onInput limit (reporter.registerLine path (some source) (some number)) path scope .empty
          [])
        failure.stop := add_of_error _ unread number

theorem erase_only (number : Int) (source : Text) (t : Stmt) :
    (Table.empty.insert number (source, t)).erase number = .empty :=
  Table.erase_insert_of_new List.not_mem_nil (source, t)

theorem run_onInput (value : t.eval scope = (.ok v, next)) :
    (onInput limit reporter path scope (Table.empty.insert number (source, t)) []).run =
      .done (onInput limit (reporter.clearLine path) path next .empty [v]) () := by
  rw [run_of_ok _ rfl value, onInput]
  dsimp only
  rw [erase_only]
  rfl

theorem run_onInput_error {e : EvalError} (failed : t.eval scope = (.error e, next)) :
    (onInput limit reporter path scope (Table.empty.insert number (source, t)) []).run =
      .stopped
        (onInput limit (reporter.registerLine path (some source) (some number)) path next .empty [])
        (.message e.message) := by
  rw [run_of_error _ rfl failed, onInput]
  dsimp only
  rw [erase_only]
  rfl

end Session

/-- An interactive session between two statements, with `scope` as it was left. -/
def Session.Idle (session : Session) (limit : Nat) (scope : Scope) : Prop :=
  ∃ reporter path, session = .onInput limit reporter path scope .empty []

namespace Shell
variable {session : Session} {shell : Shell} {scope next : Scope} {line source : Text} {t : Stmt}
  {v : Value} {limit : Nat}

theorem fresh_idle (reporter : Reporter) (limit : Nat) :
    (fresh reporter limit).session.Idle limit .root := ⟨_, _, rfl⟩

/-! ## A whole statement -/

section
variable {reporter : Reporter} {path : Text} {number : Int}

theorem execute_unread {failure : Failure} (unread : parse source limit = .error failure) :
    execute (.onInput limit reporter path scope .empty []) source number =
      .stopped
        (.onInput limit (reporter.registerLine path (some source) (some number)) path scope .empty
          [])
        failure.stop := by
  rw [execute, Session.add_onInput_unread unread]
  rfl

theorem execute_error {e : EvalError} (read : parse source limit = .ok t)
    (failed : t.eval scope = (.error e, next)) :
    execute (.onInput limit reporter path scope .empty []) source number =
      .stopped
        (.onInput limit (reporter.registerLine path (some source) (some number)) path next .empty
          [])
        (.message e.message) := by
  rw [← reporter.registerLine_clearLine path, execute, Session.add_onInput read, Run.done,
    Run.andThen]
  dsimp only
  rw [Session.run_onInput_error failed]
  rfl

/-- A statement with a value leaves the session as it was, but for the scope and the mark. -/
theorem execute_value (read : parse source limit = .ok t) (value : t.eval scope = (.ok v, next)) :
    execute (.onInput limit reporter path scope .empty []) source number =
      ⟨.onInput limit (reporter.clearLine path) path next .empty [], v.render ++ ['\n'],
        .ok ()⟩ := by
  rw [← reporter.clearLine_clearLine path, execute, Session.add_onInput read, Run.done,
    Run.andThen]
  dsimp only
  rw [Session.run_onInput value]
  rfl

end

/-! ## The three steps -/

theorem submit_open (h : Statements.leavesOpen (Statements.join shell.pending line) = true) :
    shell.submit line = .done ⟨shell.session, Statements.join shell.pending line, .continuation,
      shell.lineNumber + 1⟩ () := by
  simp only [submit, h, Bool.true_or, if_true]

theorem submit_blank (h : Statements.join shell.pending line = []) :
    shell.submit line = .done ⟨shell.session, [], .ready, shell.lineNumber + 1⟩ () := by
  have closed : Statements.leavesOpen [] = false := rfl
  simp only [submit, h, closed, List.isEmpty_nil, Bool.or_true, Bool.false_eq_true, if_true,
    if_false]

theorem submit_closed (closed : Statements.leavesOpen (Statements.join shell.pending line) = false)
    (text : Statements.join shell.pending line ≠ []) :
    shell.submit line =
      ((Session.settled (execute shell.session (Statements.join shell.pending line)
        (shell.lineNumber + 1 : Nat))).within
          fun session => ⟨session, [], .ready, shell.lineNumber + 1⟩).answering fun _ => () := by
  have some : (Statements.join shell.pending line).isEmpty = false :=
    List.isEmpty_eq_false_iff.mpr text
  simp only [submit, closed, some, Bool.or_self, Bool.false_eq_true, if_false]

theorem submit_value (idle : shell.session.Idle limit scope)
    (closed : Statements.leavesOpen (Statements.join shell.pending line) = false)
    (text : Statements.join shell.pending line ≠ [])
    (read : parse (Statements.join shell.pending line) limit = .ok t)
    (value : t.eval scope = (.ok v, next)) :
    ∃ shell', shell.submit line = ⟨shell', v.render ++ ['\n'], .ok ()⟩ ∧
      shell'.pending = [] ∧ shell'.session.Idle limit next := by
  obtain ⟨reporter, path, same⟩ := idle
  refine ⟨⟨.onInput limit (reporter.clearLine path) path next .empty [], [], .ready,
    shell.lineNumber + 1⟩, ?_, rfl, _, _, rfl⟩
  rw [submit_closed closed text, same, execute_value read value]
  rfl

theorem ofLine_code (code : IsCode line) (text : line.trim ≠ []) :
    Command.ofLine line = .code line.trim := by
  obtain ⟨question, word⟩ := code
  simp only [List.mem_cons, List.not_mem_nil, or_false, not_or] at word
  unfold Command.ofLine
  split
  · next none => exact False.elim (text none)
  · next rest asks =>
      rw [asks] at question
      exact False.elim (question rfl)
  · simp only [Command.ofWord, word.1, word.2.1, word.2.2, if_false]

theorem enter_blank (h : Statements.join shell.pending line.trim = []) :
    shell.enter line = .done shell false := by
  obtain ⟨none, blank⟩ := Statements.join_eq_nil_iff.mp h
  rw [Text.trim_trim] at blank
  simp only [enter, Command.ofLine, blank, none, List.isEmpty_nil, if_true]

/-- A line that adds something to the statement is submitted, also if it is blank itself. -/
theorem enter_code (code : IsCode line) (h : Statements.join shell.pending line.trim ≠ []) :
    shell.enter line = (shell.submit line.trim).answering fun _ => false := by
  by_cases blank : line.trim = []
  · have some : shell.pending ≠ [] := by
      intro none
      refine h (Statements.join_eq_nil_iff.mpr ⟨none, ?_⟩)
      rw [Text.trim_trim, blank]
    have text : shell.pending.isEmpty = false := List.isEmpty_eq_false_iff.mpr some
    simp only [enter, Command.ofLine, blank, text, Bool.false_eq_true, if_false]
  · simp only [enter, ofLine_code code blank]

/-! ## One line after the other -/

/-- Takes typed lines one after the other and answers whether the shell was to end at any. -/
def enterAll : List Text → Shell → Run Shell Bool
  | [], shell => .done shell false
  | line :: lines, shell =>
    (shell.enter line).andThen fun shell leave =>
      (enterAll lines shell).answering fun later => leave || later

theorem enterAll_cons {lines : List Text} {shell' last : Shell} {first others : Text}
    (h : shell.enter line = ⟨shell', first, .ok false⟩)
    (h' : enterAll lines shell' = ⟨last, others, .ok false⟩) :
    enterAll (line :: lines) shell = ⟨last, first ++ others, .ok false⟩ := by
  rw [enterAll, h, Run.andThen]
  dsimp only
  rw [h']
  rfl

theorem enterAll_append (lines more : List Text) (shell : Shell) :
    enterAll (lines ++ more) shell =
      (enterAll lines shell).andThen fun shell leave =>
        (enterAll more shell).answering fun later => leave || later := by
  induction lines generalizing shell with
  | nil =>
      rw [List.nil_append]
      rw [enterAll, Run.done, Run.andThen]
      obtain ⟨last, printed, ending⟩ := enterAll more shell
      cases ending with
      | error stop => rfl
      | ok leave => rfl
  | cons line lines ih =>
      rw [List.cons_append, enterAll, enterAll]
      obtain ⟨next, first, ending⟩ := shell.enter line
      cases ending with
      | error stop => rfl
      | ok leave =>
          simp only [Run.andThen, ih]
          obtain ⟨middle, second, ending⟩ := enterAll lines next
          cases ending with
          | error stop => rfl
          | ok leave' =>
              simp only [Run.answering, Except.map, List.append_assoc]
              generalize enterAll more middle = later
              obtain ⟨last, third, ending⟩ := later
              cases ending with
              | error stop => rfl
              | ok leave'' => simp only [Bool.or_assoc]

end Shell
end BlockCalc
