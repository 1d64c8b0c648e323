import BlockCalc.Session.Basic
/-! The steps of a session. Each is written out once, with all that it changes: where a statement is
read or evaluated to its end no line stays marked, and where the step stops its line does. -/
namespace BlockCalc
namespace Session
variable {source : Text} {tree : Stmt} {next : Scope}

theorem add_of_ok (s : Session) (read : parse source s.limit = .ok tree) (number : Int) :
    s.add source number = .done { s with
      reporter := s.reporter.clearLine s.path
      pending := s.pending.insert number (source, tree) } () := by
  rw [add, read, ← s.reporter.clearLine_registerLine s.path (some source) (some number)]
  rfl

theorem add_of_error {failure : Failure} (s : Session)
    (unread : parse source s.limit = .error failure) (number : Int) :
    s.add source number = .stopped (s.mark source number) failure.stop := by
  rw [add, unread]

def shown (s : Session) (v : Value) : Text := if s.interactive then [] else v.render ++ ['\n']

theorem evaluate_of_ok {v : Value} (s : Session) (value : tree.eval s.scope = (.ok v, next))
    (source : Text) (number : Int) :
    s.evaluate number source tree =
      ⟨{ s with
        reporter := s.reporter.clearLine s.path
        scope := next
        pending := s.pending.erase number
        results := s.results ++ [v] }, s.shown v, .ok ()⟩ := by
  have marked : tree.eval (s.mark source number).scope = (.ok v, next) := value
  rw [evaluate, marked, ← s.reporter.clearLine_registerLine s.path (some source) (some number)]
  rfl

theorem evaluate_of_error {e : EvalError} (s : Session)
    (failed : tree.eval s.scope = (.error e, next)) (source : Text) (number : Int) :
    s.evaluate number source tree =
      .stopped { s.mark source number with scope := next, pending := s.pending.erase number }
        (.message e.message) := by
  have marked : tree.eval (s.mark source number).scope = (.error e, next) := failed
  rw [evaluate, marked]
  rfl

/-! ## The oldest statement of a run -/

section
variable {number : Int} {rest : List (Int × Text × Stmt)}

theorem run_of_ok {v : Value} (s : Session)
    (oldest : s.pending.entries = (number, source, tree) :: rest)
    (value : tree.eval s.scope = (.ok v, next)) :
    s.run = Run.after (s.shown v) (run { s with
      reporter := s.reporter.clearLine s.path
      scope := next
      pending := s.pending.erase number
      results := s.results ++ [v] }) := by
  rw [run, oldest, evaluateAll, evaluate_of_ok s value, run, Table.entries_erase_oldest oldest]
  rfl

theorem run_of_error {e : EvalError} (s : Session)
    (oldest : s.pending.entries = (number, source, tree) :: rest)
    (failed : tree.eval s.scope = (.error e, next)) :
    s.run = .stopped
      { s.mark source number with scope := next, pending := s.pending.erase number }
      (.message e.message) := by
  rw [run, oldest, evaluateAll, evaluate_of_error s failed]
  rfl

end

end Session
end BlockCalc
