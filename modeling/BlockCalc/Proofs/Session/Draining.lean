import BlockCalc.Proofs.Scope.Framing
import BlockCalc.Proofs.Session.History
/-! Running again after failures. A run stops at the first statement without a value, which then no
longer waits and has left no trace in the scope. So where a session is run again as long as runs
stop, each further run begins behind the statement that failed, and all runs together leave behind
what a single run leaves of a session in which those statements never waited. -/
namespace BlockCalc

namespace Session

/-- Runs again and again, as long as a run stops because a statement has no value: how many runs
there are until one ends, what they print, and the session as the last of them leaves it. -/
inductive Drains : Session → Nat → Text → Session → Prop
  | ended {s last printed} : s.run = ⟨last, printed, .ok ()⟩ → Drains s 1 printed last
  | again {s next last printed later count} (e : EvalError) :
      s.run = ⟨next, printed, .error (.message e.message)⟩ → Drains next count later last →
      Drains s (count + 1) (printed ++ later) last

/-- The numbers of the statements that have no value, where each is evaluated in the scope that
those before it leave, failed or not. -/
def failing : List (Int × Text × Stmt) → Scope → List Int
  | [], _ => []
  | (number, _, tree) :: rest, scope =>
    match tree.eval scope with
    | (.ok _, next) => failing rest next
    | (.error _, next) => number :: failing rest next

def leaveOut (numbers : List Int) (entries : List (Int × Text × Stmt)) : List (Int × Text × Stmt) :=
  entries.filter fun entry => entry.1 ∉ numbers

/-- A session in which the statements under the given numbers do not wait. -/
def without (s : Session) (numbers : List Int) : Session :=
  { s with pending := s.pending.filter fun number => number ∉ numbers }

/-! ## The statements that fail -/

section
variable {number : Int} {source : Text} {tree : Stmt} {rest entries : List (Int × Text × Stmt)}
  {scope next : Scope} {v : Value} {e : EvalError}

theorem scope_of_error (failed : tree.eval scope = (.error e, next)) : next = scope := by
  have same := tree.eval_scope scope
  rw [Stmt.stored_of_error (congrArg Prod.fst failed), failed] at same
  exact same

theorem failing_cons_ok (value : tree.eval scope = (.ok v, next)) :
    failing ((number, source, tree) :: rest) scope = failing rest next := by
  rw [failing, value]

theorem failing_cons_error (failed : tree.eval scope = (.error e, next)) :
    failing ((number, source, tree) :: rest) scope = number :: failing rest scope := by
  rw [failing, failed, scope_of_error failed]

theorem mem_of_mem_failing (member : number ∈ failing entries scope) :
    number ∈ entries.map Prod.fst := by
  induction entries generalizing scope with
  | nil => cases member
  | cons entry rest ih =>
      obtain ⟨number', source, tree⟩ := entry
      rw [failing] at member
      split at member
      · exact List.mem_cons_of_mem _ (ih member)
      · rcases List.mem_cons.mp member with rfl | later
        · exact List.mem_cons_self
        · exact List.mem_cons_of_mem _ (ih later)

theorem leaveOut_cons_ok (value : tree.eval scope = (.ok v, next))
    (new : number ∉ rest.map Prod.fst) :
    leaveOut (failing ((number, source, tree) :: rest) scope) ((number, source, tree) :: rest) =
      (number, source, tree) :: leaveOut (failing rest next) rest := by
  have kept : number ∉ failing rest next := fun member => new (mem_of_mem_failing member)
  rw [failing_cons_ok value]
  exact List.filter_cons_of_pos (decide_eq_true kept)

theorem leaveOut_cons_error (failed : tree.eval scope = (.error e, next))
    (new : number ∉ rest.map Prod.fst) :
    leaveOut (failing ((number, source, tree) :: rest) scope) ((number, source, tree) :: rest) =
      leaveOut (failing rest scope) rest := by
  have gone : number ∈ number :: failing rest scope := List.mem_cons_self
  rw [failing_cons_error failed]
  refine (List.filter_cons_of_neg ?_).trans (List.filter_congr fun entry member => ?_)
  · simp only [gone, not_true_eq_false, decide_false, Bool.false_eq_true, not_false_iff]
  · have other : entry.1 ≠ number := fun same => new (same ▸ List.mem_map_of_mem member)
    simp only [List.mem_cons, other, false_or]

/-- Without the statements that fail, all have values. -/
theorem exists_evaluated (waiting : Table Int (Text × Stmt)) (scope : Scope) :
    ∃ values next, Evaluated
      ((leaveOut (failing waiting.entries scope) waiting.entries).map fun entry => entry.2.2) scope
      values next := by
  induction waiting using Table.oldest_induction generalizing scope with
  | empty => exact ⟨[], scope, .nil⟩
  | oldest waiting number statement oldest ih =>
      obtain ⟨source, tree⟩ := statement
      have new := Table.oldest_new oldest
      rw [oldest]
      cases evaluated : tree.eval scope with
      | mk answer next =>
        cases answer with
        | ok v =>
            obtain ⟨values, last, others⟩ := ih next
            rw [leaveOut_cons_ok evaluated new]
            exact ⟨v :: values, last, .cons evaluated others⟩
        | error e =>
            rw [leaveOut_cons_error evaluated new]
            exact ih scope

end

/-! ## One statement of a run -/

/-- A session of the same file and use as another. -/
def moved (s : Session) (reporter : Reporter) (scope : Scope) (waiting : Table Int (Text × Stmt))
    (results : List Value) : Session :=
  { s with reporter, scope, pending := waiting, results }

section
variable {number : Int} {source : Text} {tree : Stmt} {rest : List (Int × Text × Stmt)}
  {waiting : Table Int (Text × Stmt)} {scope next : Scope} {v : Value} {values : List Value}
  {e : EvalError}

theorem run_moved_ok (oldest : waiting.entries = (number, source, tree) :: rest)
    (value : tree.eval scope = (.ok v, next)) (s : Session) (reporter : Reporter)
    (results : List Value) :
    (s.moved reporter scope waiting results).run =
      (s.moved (reporter.clearLine s.path) next (waiting.erase number) (results ++ [v])).run.after
        (s.shown v) := run_of_ok _ oldest value

theorem run_moved_error (oldest : waiting.entries = (number, source, tree) :: rest)
    (failed : tree.eval scope = (.error e, next)) (s : Session) (reporter : Reporter)
    (results : List Value) :
    (s.moved reporter scope waiting results).run =
      .stopped
        (s.moved (reporter.registerLine s.path (some source) (some number)) scope
          (waiting.erase number) results)
        (.message e.message) := by
  rw [scope_of_error failed] at failed
  exact run_of_error _ oldest failed

/-! ## Whole runs -/

theorem Drains.after {s next last : Session} {text printed : Text} {count : Nat}
    (first : s.run = next.run.after text) (h : Drains next count printed last) :
    Drains s count (text ++ printed) last := by
  cases h with
  | ended ran =>
      refine .ended ?_
      rw [first, ran]
      rfl
  | again e ran later =>
      rw [← List.append_assoc]
      refine .again e ?_ later
      rw [first, ran]
      rfl

/-- All runs together leave behind what the statements with values do. -/
theorem drains_evaluated
    (evaluated : Evaluated
      ((leaveOut (failing waiting.entries scope) waiting.entries).map fun entry => entry.2.2)
      scope values next) (s : Session) (reporter : Reporter) (results : List Value) :
    ∃ last, Drains (s.moved reporter scope waiting results)
      ((failing waiting.entries scope).length + 1) (values.flatMap s.shown)
      (s.moved last next .empty (results ++ values)) := by
  induction waiting using Table.oldest_induction generalizing scope values reporter results with
  | empty =>
      cases evaluated
      rw [List.append_nil]
      exact ⟨reporter, .ended rfl⟩
  | oldest waiting number statement oldest ih =>
      obtain ⟨source, tree⟩ := statement
      have new := Table.oldest_new oldest
      rw [oldest] at evaluated ⊢
      cases head : tree.eval scope with
      | mk answer middle =>
        cases answer with
        | ok v =>
            rw [leaveOut_cons_ok head new] at evaluated
            obtain - | @⟨_, _, _, vs, _, _, _, value, others⟩ := evaluated
            cases head.symm.trans value
            obtain ⟨last, later⟩ := ih others (reporter.clearLine s.path) (results ++ [v])
            rw [failing_cons_ok head]
            rw [List.append_assoc] at later
            exact ⟨last, later.after (run_moved_ok oldest head s reporter results)⟩
        | error e =>
            -- The run ends here, and the next begins with the rest in the same scope.
            rw [leaveOut_cons_error head new] at evaluated
            have stopped := run_moved_error oldest head s reporter results
            obtain ⟨last, later⟩ := ih evaluated _ results
            rw [failing_cons_error head]
            exact ⟨last, .again e stopped later⟩

/-- What several runs leave behind is determined by where they begin. -/
theorem Drains.unique {s last other : Session} {count count' : Nat} {printed printed' : Text}
    (h : Drains s count printed last) (h' : Drains s count' printed' other) :
    count = count' ∧ printed = printed' ∧ last = other := by
  induction h generalizing count' printed' with
  | ended ran =>
      cases h' with
      | ended ran' =>
          cases ran.symm.trans ran'
          exact ⟨rfl, rfl, rfl⟩
      | again e ran' later' => cases ran.symm.trans ran'
  | again e ran later ih =>
      cases h' with
      | ended ran' => cases ran.symm.trans ran'
      | again e' ran' later' =>
          obtain ⟨rfl, rfl, -⟩ := Run.mk.inj (ran.symm.trans ran')
          obtain ⟨rfl, rfl, rfl⟩ := ih later'
          exact ⟨rfl, rfl, rfl⟩

end

end Session

/-- Run again and again until a run ends, a session runs once more than statements fail and has none
left to wait; values, printed lines and scope are those of a single run without these statements. -/
theorem run_drains (s : Session) :
    let failing := Session.failing s.pending.entries s.scope
    let single := (s.without failing).run
    single.ending = .ok () ∧
      ∃ last, s.Drains (failing.length + 1) single.printed last ∧
        last.pending = .empty ∧ last.results = single.state.results ∧
        last.scope = single.state.scope ∧
        ∀ count printed other, s.Drains count printed other →
          count = failing.length + 1 ∧ printed = single.printed ∧ other = last := by
  intro failing single
  obtain ⟨values, next, evaluated⟩ := Session.exists_evaluated s.pending s.scope
  obtain ⟨reporter, -, once⟩ := Session.run_whole (s := s.without failing) evaluated
  obtain ⟨reporter', drains⟩ := Session.drains_evaluated evaluated s s.reporter s.results
  have ran : single = ⟨s.moved reporter next .empty (s.results ++ values), values.flatMap s.shown,
    .ok ()⟩ := once
  rw [ran]
  refine ⟨rfl, _, drains, rfl, rfl, rfl, fun count printed other h => ?_⟩
  exact h.unique drains

/-- Of five statements the second fails only because the first did, and the last for itself. -/
theorem run_drains_failing :
    let a := ['a']
    let s : Session := { Session.fresh (.fresh true .plain) ['p'] false with
      pending := ⟨[(1, [], .binding a (.operation (.number 1) (.number 0) .div)),
        (2, [], .expr (.usage a)), (3, [], .binding a (.number 6)),
        (4, [], .expr (.operation (.usage a) (.number 7) .mul)),
        (9, [], .expr (.block [.binding a (.number 1), .expr (.usage ['b'])]))], by decide⟩ }
    Session.failing s.pending.entries s.scope = [1, 2, 9] ∧
      ∃ last, s.Drains 4 "Unit\n42\n".toList last ∧ last.pending = .empty ∧
        last.results = [.unit, .number 42] ∧ last.scope.binding a = .ok (.number 6) := by
  intro a s
  have failing : Session.failing s.pending.entries s.scope = [1, 2, 9] := by decide
  obtain ⟨-, last, drains, empty, results, scope, -⟩ := run_drains s
  rw [failing] at drains results scope
  refine ⟨failing, last, drains, empty, results, ?_⟩
  rw [scope]
  rfl

end BlockCalc
