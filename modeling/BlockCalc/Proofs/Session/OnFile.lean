import BlockCalc.Proofs.Session.Steps
/-! Sessions on files. Such a session reads all its statements before it evaluates the first, keeps
them apart by their numbers, and works on them in their order in one scope. While it works on none,
no line is marked; where it stops, the line it stopped at is. -/
namespace BlockCalc

/-- Statements that can all be read, each as its tree. -/
def ReadAs (limit : Nat) (statements : List (Text × Nat)) (trees : List Stmt) : Prop :=
  statements.map (fun s => parse s.1 limit) = trees.map .ok

/-- Statements that all have a value, each in the scope that the one before it leaves. -/
inductive Evaluated : List Stmt → Scope → List Value → Scope → Prop
  | nil {scope} : Evaluated [] scope [] scope
  | cons {t ts v vs scope next last} : t.eval scope = (.ok v, next) → Evaluated ts next vs last →
      Evaluated (t :: ts) scope (v :: vs) last

namespace Session

/-- A session on a file, with the mark of the line it is working on. -/
def onFile (limit : Nat) (coloring : Coloring) (path : Text) (mark : Mark) (scope : Scope)
    (waiting : Table Int (Text × Stmt)) (results : List Value) : Session where
  reporter := ⟨true, coloring, Table.empty.insert path mark⟩
  path := path
  interactive := false
  limit := limit
  scope := scope
  pending := waiting
  results := results

/-- Statements as they wait: under their numbers, with their texts and trees. -/
def waitingFor (statements : List (Text × Nat)) (trees : List Stmt) : List (Int × Text × Stmt) :=
  List.zipWith (fun s t => (s.2, s.1, t)) statements trees

def printedValues (values : List Value) : Text := values.flatMap fun v => v.render ++ ['\n']

end Session

/-! ## Statements as they wait -/

section
variable {limit : Nat} {statements more : List (Text × Nat)} {trees rest : List Stmt}

theorem ReadAs.length (h : ReadAs limit statements trees) : statements.length = trees.length := by
  simpa only [List.length_map] using congrArg List.length h

theorem ReadAs.append (h : ReadAs limit statements trees) (h' : ReadAs limit more rest) :
    ReadAs limit (statements ++ more) (trees ++ rest) := by
  simp only [ReadAs, List.map_append] at h h' ⊢
  rw [h, h']

theorem ReadAs.waiting_append (h : ReadAs limit statements trees) (more : List (Text × Nat))
    (rest : List Stmt) : Session.waitingFor (statements ++ more) (trees ++ rest) =
      Session.waitingFor statements trees ++ Session.waitingFor more rest :=
  List.zipWith_append h.length

theorem ReadAs.waiting_numbers (h : ReadAs limit statements trees) :
    (Session.waitingFor statements trees).map Prod.fst = statements.map fun s => (s.2 : Int) := by
  have same := h.length
  clear h
  induction statements generalizing trees with
  | nil => rfl
  | cons s statements ih =>
      cases trees with
      | nil => cases same
      | cons t trees => exact congrArg (_ :: ·) (ih (Nat.succ.inj same))

theorem ReadAs.exists_queue (h : ReadAs limit statements trees)
    (distinct : (statements.map fun s => (s.2 : Int)).Nodup) :
    ∃ waiting : Table Int (Text × Stmt), waiting.entries = Session.waitingFor statements trees :=
  ⟨⟨_, h.waiting_numbers ▸ distinct⟩, rfl⟩

theorem ReadAs.waiting_trees (h : ReadAs limit statements trees) :
    (Session.waitingFor statements trees).map (fun entry => entry.2.2) = trees := by
  have same := h.length
  clear h
  induction statements generalizing trees with
  | nil =>
      cases trees with
      | nil => rfl
      | cons t trees => cases same
  | cons s statements ih =>
      cases trees with
      | nil => rfl
      | cons t trees => exact congrArg (t :: ·) (ih (Nat.succ.inj same))

end

namespace Session

/-! ## Many statements at once -/

section
variable {s : Session} {later : Table Int (Text × Stmt)}

theorem clearLine_fresh (reporter : Reporter) (path : Text) (interactive : Bool) (limit : Nat) :
    (fresh reporter path interactive limit).reporter.clearLine path =
      (fresh reporter path interactive limit).reporter := by
  cases interactive with
  | false => exact reporter.clearLine_clearLine path
  | true => exact Reporter.clearLine_clearLine { reporter with fatal := false } path

/-- Statements that can be read queue behind those that wait, where no line is marked. -/
theorem addAll_accepted {before after : List (Text × Nat)} {trees : List Stmt}
    (clear : s.reporter.clearLine s.path = s.reporter) (all : ReadAs s.limit before trees)
    (queued : later.entries = s.pending.entries ++ waitingFor before trees) :
    addAll (before ++ after) s = addAll after { s with pending := later } := by
  induction before generalizing s trees with
  | nil =>
      rw [waitingFor, List.zipWith_nil_left, List.append_nil] at queued
      rw [List.nil_append, Table.ext queued]
  | cons statement before ih =>
      cases trees with
      | nil => cases all
      | cons t trees =>
          obtain ⟨first, others⟩ : parse statement.1 s.limit = .ok t ∧
            ReadAs s.limit before trees := List.cons.inj all
          have appended := Table.entries_insert_of_new (Table.new_of_append queued) (statement.1, t)
          have rest : later.entries =
              (s.pending.insert statement.2 (statement.1, t)).entries ++
                waitingFor before trees := by
            rw [appended, queued, List.append_assoc]
            rfl
          rw [List.cons_append, addAll, add_of_ok s first, clear]
          exact ih (s := { s with pending := s.pending.insert statement.2 (statement.1, t) })
            clear others rest

theorem addAll_whole {statements : List (Text × Nat)} {trees : List Stmt}
    (clear : s.reporter.clearLine s.path = s.reporter) (all : ReadAs s.limit statements trees)
    (queued : later.entries = s.pending.entries ++ waitingFor statements trees) :
    addAll statements s = .done { s with pending := later } () := by
  have added : addAll (statements ++ []) s = addAll [] { s with pending := later } :=
    addAll_accepted clear all queued
  rw [List.append_nil] at added
  exact added

/-- A run goes through the statements that have values, in the order in which they wait. Where no
line was marked before, none is behind them. -/
theorem run_evaluated {done : List (Int × Text × Stmt)} {values : List Value} {next : Scope}
    (evaluated : Evaluated (done.map fun entry => entry.2.2) s.scope values next)
    (queued : s.pending.entries = done ++ later.entries) :
    ∃ reporter, (s.reporter.clearLine s.path = s.reporter → reporter = s.reporter) ∧
      s.run = Run.after (values.flatMap s.shown) (run { s with
        reporter, scope := next, pending := later, results := s.results ++ values }) := by
  induction done generalizing s values with
  | nil =>
      cases evaluated
      rw [List.append_nil, ← Table.ext queued]
      exact ⟨s.reporter, fun _ => rfl, rfl⟩
  | cons entry done ih =>
      obtain - | @⟨_, _, v, vs, _, middle, _, value, others⟩ := evaluated
      obtain ⟨reporter, same, rest⟩ := ih (s := { s with
        reporter := s.reporter.clearLine s.path
        scope := middle
        pending := s.pending.erase entry.1
        results := s.results ++ [v] }) others (Table.entries_erase_oldest queued)
      refine ⟨reporter, (same (s.reporter.clearLine_clearLine s.path)).trans, ?_⟩
      rw [run_of_ok s queued value, rest, List.append_assoc]
      simp only [Run.after, List.flatMap_cons, List.append_assoc, List.cons_append, List.nil_append]
      rfl

theorem run_whole {values : List Value} {next : Scope}
    (evaluated : Evaluated (s.pending.entries.map fun entry => entry.2.2) s.scope values next) :
    ∃ reporter, (s.reporter.clearLine s.path = s.reporter → reporter = s.reporter) ∧
      s.run = ⟨{ s with
        reporter, scope := next, pending := .empty, results := s.results ++ values },
        values.flatMap s.shown, .ok ()⟩ := by
  have only : s.pending.entries = s.pending.entries ++ Table.empty.entries :=
    (List.append_nil _).symm
  obtain ⟨reporter, same, ran⟩ := run_evaluated evaluated only
  refine ⟨reporter, same, ran.trans ?_⟩
  change Run.mk _ (values.flatMap s.shown ++ []) _ = _
  rw [List.append_nil]
  rfl

end

/-! ## Sessions on files -/

section
variable {limit : Nat} {coloring : Coloring} {path source : Text} {mark : Mark} {scope next : Scope}
  {number : Int} {waiting later : Table Int (Text × Stmt)} {results : List Value} {t : Stmt}

theorem fresh_onFile :
    fresh (.fresh true coloring) path false limit =
      onFile limit coloring path .clear .root .empty [] := rfl

theorem setMark_only (path : Text) (mark mark' : Mark) :
    (⟨true, coloring, Table.empty.insert path mark⟩ : Reporter).setMark path mark' =
      ⟨true, coloring, Table.empty.insert path mark'⟩ := by
  rw [Reporter.setMark, Table.insert_insert]

theorem mark_onFile (source : Text) (number : Int) :
    (onFile limit coloring path mark scope waiting results).mark source number =
      onFile limit coloring path ⟨some source, some number⟩ scope waiting results := by
  simp only [Session.mark, onFile, Reporter.registerLine, setMark_only]

/-! ## Reading -/

theorem add_unread {failure : Failure} (h : parse source limit = .error failure) :
    (onFile limit coloring path .clear scope waiting results).add source number =
      .stopped (onFile limit coloring path ⟨some source, some number⟩ scope waiting results)
        failure.stop := by
  rw [add_of_error _ h, mark_onFile]

theorem addAll_read {before after : List (Text × Nat)} {trees : List Stmt}
    (h : ReadAs limit before trees)
    (queued : later.entries = waiting.entries ++ waitingFor before trees) :
    addAll (before ++ after) (onFile limit coloring path .clear scope waiting results) =
      addAll after (onFile limit coloring path .clear scope later results) :=
  addAll_accepted (setMark_only path .clear .clear) h queued

/-! ## Evaluating -/

theorem run_error {e : EvalError} {rest : List (Int × Text × Stmt)}
    (oldest : waiting.entries = (number, source, t) :: rest)
    (failed : t.eval scope = (.error e, next)) :
    (onFile limit coloring path .clear scope waiting results).run =
      .stopped
        (onFile limit coloring path ⟨some source, some number⟩ next (waiting.erase number) results)
        (.message e.message) := by
  rw [run_of_error _ oldest failed, mark_onFile]
  rfl

theorem run_values {done : List (Int × Text × Stmt)} {values : List Value}
    (h : Evaluated (done.map fun entry => entry.2.2) scope values next)
    (queued : waiting.entries = done ++ later.entries) :
    (onFile limit coloring path .clear scope waiting results).run =
      (onFile limit coloring path .clear next later (results ++ values)).run.after
        (printedValues values) := by
  obtain ⟨reporter, same, ran⟩ := run_evaluated
    (s := onFile limit coloring path .clear scope waiting results) h queued
  rw [same (setMark_only path .clear .clear)] at ran
  exact ran

end
end Session
end BlockCalc
