import BlockCalc.Proofs.Session.Statements
import BlockCalc.Proofs.Shell.Lines
/-! What a shell keeps between two typed lines. Whatever a line was, an open statement, nothing, a
command, one that cannot be read or has no value, also one at which a defect went through to the
outside: only its bindings are left behind, and the text of a block that is still open. -/
namespace BlockCalc

/-- A reporter that ends no program and works on no line of a file it knows. -/
structure Reporter.Rests (r : Reporter) (path : Text) : Prop where
  survives : r.fatal = false
  unmarked : r.marks.find? path = some .clear

/-- A session on typed input that is ready for a statement. -/
structure Session.Ready (s : Session) : Prop where
  path : s.path = inputPath
  interactive : s.interactive = true
  waiting : s.pending = .empty
  results : s.results = []
  reporter : s.reporter.Rests inputPath

/-- A shell between two lines: a text that it holds back is open, the prompt tells whether there is
one, and the session is ready. -/
structure Shell.AtRest (shell : Shell) : Prop where
  held : shell.pending = [] ∨ shell.pending.count '}' < shell.pending.count '{'
  prompt : shell.prompt = .continuation ↔ shell.pending ≠ []
  ready : shell.session.Ready

/-! ## The reporter -/

namespace Reporter
variable {r : Reporter} {path : Text}

theorem registerFile_rests (survives : r.fatal = false) (path : Text) :
    (r.registerFile path).Rests path :=
  ⟨survives, (r.marks.find?_insert path path .clear).trans (if_pos rfl)⟩

theorem Rests.clearLine (rests : r.Rests path) : (r.clearLine path).Rests path :=
  registerFile_rests rests.survives path

/-- All lines are forgotten, also one that was marked since. -/
theorem Rests.clearLines_registerLine (rests : r.Rests path) (line : Option Text)
    (number : Option Int) : (r.registerLine path line number).clearLines.Rests path := by
  refine ⟨rests.survives, ?_⟩
  have known := r.marks.find?_insert path path ⟨line, number⟩
  rw [if_pos rfl] at known
  rw [clearLines, Table.find?_mapValues, registerLine, setMark, known]
  rfl

/-- A reporter that survives its errors forgets all lines when a step stopped, whatever the reason,
as long as the program was not asked to exit. -/
theorem settle_state (survives : r.fatal = false) {stop : Stop}
    (stays : ∀ status, stop ≠ .exit status) : (r.settle stop).state = r.clearLines := by
  cases stop with
  | exit status => exact False.elim (stays status rfl)
  | message message => rw [settle, report_surviving survives]
  | interrupted => rw [settle, report_surviving survives]
  | stackExhausted => rw [settle, report_surviving survives]
  | defect defect =>
      rw [settle, report_surviving survives]
      rfl

end Reporter

/-- No text that cannot be read asks the program to exit. -/
theorem Failure.stop_ne_exit (failure : Failure) (status : Int) : failure.stop ≠ .exit status := by
  cases failure <;> nofun

/-! ## The session -/

namespace Session
variable {session : Session} {source : Text} {number : Int} {limit : Nat}

theorem fresh_ready (reporter : Reporter) (limit : Nat) :
    (fresh reporter inputPath true limit).Ready where
  path := rfl
  interactive := rfl
  waiting := rfl
  results := rfl
  reporter := Reporter.registerFile_rests (r := { reporter with fatal := false }) rfl inputPath

theorem Ready.idle (ready : session.Ready) :
    session = onInput session.limit session.reporter inputPath session.scope .empty [] := by
  obtain ⟨reporter, path, interactive, limit, scope, pending, results⟩ := session
  obtain ⟨rfl, rfl, rfl, rfl, -⟩ := ready
  rfl

theorem onInput_ready {reporter : Reporter} (rests : reporter.Rests inputPath) (scope : Scope) :
    (onInput limit reporter inputPath scope .empty []).Ready := ⟨rfl, rfl, rfl, rfl, rests⟩

/-- A statement that stopped at its line is settled by forgetting the line. -/
theorem settled_stopped_ready {reporter : Reporter} (rests : reporter.Rests inputPath)
    (scope : Scope) (line : Option Text) (number : Option Int) {stop : Stop}
    (stays : ∀ status, stop ≠ .exit status) :
    (settled (.stopped
      (onInput limit (reporter.registerLine inputPath line number) inputPath scope .empty [])
      stop : Run Session Unit)).state.Ready := by
  have survives : (reporter.registerLine inputPath line number).fatal = false := rests.survives
  have forgot := Reporter.settle_state survives stays
  rw [settled, Run.stopped]
  dsimp only [onInput]
  rw [forgot]
  exact onInput_ready (rests.clearLines_registerLine line number) scope

/-- The three ways of a whole statement: it cannot be read, it has no value, or the value is printed
and taken back. -/
theorem Ready.settled_execute (ready : session.Ready) (source : Text) (number : Int) :
    (settled (Shell.execute session source number)).state.Ready := by
  rw [ready.idle]
  have rests := ready.reporter
  cases read : parse source session.limit with
  | error failure =>
      rw [Shell.execute_unread read]
      exact settled_stopped_ready rests _ _ _ failure.stop_ne_exit
  | ok t =>
      cases evaluated : t.eval session.scope with
      | mk answer next =>
        cases answer with
        | error e =>
            rw [Shell.execute_error read evaluated]
            exact settled_stopped_ready rests _ _ _ nofun
        | ok v =>
            rw [Shell.execute_value read evaluated]
            exact onInput_ready rests.clearLine next

end Session

/-! ## The shell -/

namespace Shell
variable {shell : Shell}

/-- With no text held back, a shell that asks for a new statement is at rest. -/
theorem atRest_of_ready {session : Session} (ready : session.Ready) (lineNumber : Nat) :
    AtRest ⟨session, [], .ready, lineNumber⟩ where
  held := .inl rfl
  prompt := ⟨nofun, fun held => False.elim (held rfl)⟩
  ready := ready

theorem fresh_atRest (reporter : Reporter) (limit : Nat) : (fresh reporter limit).AtRest :=
  atRest_of_ready (Session.fresh_ready reporter limit) 0

/-- A line that leaves a block open is only kept. Any other empties the text that was held back
before its statement is evaluated, so that nothing that becomes of the statement brings it back. -/
theorem AtRest.submit (rest : shell.AtRest) (line : Text) : (shell.submit line).state.AtRest := by
  cases still : Statements.leavesOpen (Statements.join shell.pending line) with
  | true =>
      rw [submit_open still]
      exact {
        held := .inr (of_decide_eq_true still)
        prompt := ⟨fun _ => Statements.ne_nil_of_leavesOpen still, fun _ => rfl⟩
        ready := rest.ready }
  | false =>
      by_cases empty : Statements.join shell.pending line = []
      · rw [submit_blank empty]
        exact atRest_of_ready rest.ready _
      · rw [submit_closed still empty]
        exact atRest_of_ready (rest.ready.settled_execute _ _) _

/-- One line, whatever it asks for. -/
theorem AtRest.enter (rest : shell.AtRest) (line : Text) : (shell.enter line).state.AtRest := by
  rw [Shell.enter]
  cases Command.ofLine line with
  | blank =>
      dsimp only
      split
      · exact rest
      · exact rest.submit []
  | help => exact rest
  | leave => exact rest
  | endOfInput => exact rest
  | code code => exact rest.submit code

/-- The shell after typed lines, one behind the other, whatever became of each. -/
def afterLines (shell : Shell) (lines : List Text) : Shell :=
  lines.foldl (fun shell line => (shell.enter line).state) shell

theorem AtRest.afterLines (rest : shell.AtRest) (lines : List Text) :
    (shell.afterLines lines).AtRest := by
  induction lines generalizing shell with
  | nil => exact rest
  | cons line lines ih => exact ih (rest.enter line)

/-- The same for a whole conversation, which ends with the lines or at the first that asks to leave
or stops the run. -/
theorem AtRest.converse (rest : shell.AtRest) (lines : List Text) :
    (converse lines shell).state.AtRest := by
  induction lines generalizing shell with
  | nil => exact rest.enter "EOF".toList
  | cons line lines ih =>
      have entered := rest.enter line
      rw [Shell.converse]
      generalize shell.enter line = run at entered ⊢
      obtain ⟨next, printed, ending⟩ := run
      cases ending with
      | error stop => exact entered
      | ok leave =>
          cases leave with
          | true => exact entered
          | false => exact ih entered

/-- Whatever was typed into a fresh shell, it is at rest: only an open text is held back, and no
statement, value or marked line is left in the session. -/
theorem afterLines_atRest (reporter : Reporter) (limit : Nat) (lines : List Text) :
    ((fresh reporter limit).afterLines lines).AtRest :=
  (fresh_atRest reporter limit).afterLines lines

end Shell
end BlockCalc
