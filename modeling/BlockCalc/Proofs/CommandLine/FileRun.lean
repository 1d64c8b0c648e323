import BlockCalc.CommandLine.Basic
import BlockCalc.Proofs.Session.OnFile
import BlockCalc.Proofs.Session.Statements
/-! A run on a file, from its bytes to what is printed. There are three ways for it to go, and the
statements of the file alone decide which: one of them cannot be read and none is evaluated, one of
them has no value and those before it have theirs printed, or all have values. -/
namespace BlockCalc
open Grammar

/-- A message as it is reported about a statement of a file. -/
def located (coloring : Coloring) (path source : Text) (number : Nat) (message : Message) : Text :=
  "  File '".toList ++ path ++ "', line ".toList ++ Decimal.ofNat number ++ ":\n    ".toList
    ++ source ++ ['\n']
    ++ (if message.internal then coloring.boldRed "[internal] ".toList else [])
    ++ coloring.boldRed "error: ".toList ++ message.colored coloring ++ ['\n']

/-- How a run on the statements of a file ends. Where one cannot be read or has no value, it is the
first. -/
inductive FileRun (limit : Nat) (coloring : Coloring) (path : Text)
    (statements : List (Text × Nat)) : Finish → Prop
  | refused {before source number after trees e} :
      statements = before ++ (source, number) :: after →
      ReadAs limit before trees → parse source limit = .error (.mismatch e) →
      FileRun limit coloring path statements
        ⟨located coloring path source number e.message, [], .error (.exit 1)⟩
  | failed {before source number after trees t rest values scope next e} :
      statements = before ++ (source, number) :: after →
      ReadAs limit before trees → parse source limit = .ok t →
      ReadAs limit after rest →
      Evaluated trees .root values scope → t.eval scope = (.error e, next) →
      FileRun limit coloring path statements
        ⟨Session.printedValues values ++ located coloring path source number e.message, [],
          .error (.exit 1)⟩
  | finished {trees values scope} :
      ReadAs limit statements trees → Evaluated trees .root values scope →
      FileRun limit coloring path statements ⟨Session.printedValues values, [], .ok ()⟩

/-! ## Every run goes in one of the three ways -/

theorem all_read_or_stopped (limit : Nat) (statements : List (Text × Nat)) :
    (∃ trees, ReadAs limit statements trees) ∨
      ∃ (before : List (Text × Nat)) (source : Text) (number : Nat) (after : List (Text × Nat))
        (trees : List Stmt) (failure : Failure), statements = before ++ (source, number) :: after ∧
          ReadAs limit before trees ∧ parse source limit = .error failure := by
  induction statements with
  | nil => exact .inl ⟨[], rfl⟩
  | cons s statements ih =>
      obtain ⟨source, number⟩ := s
      cases read : parse source limit with
      | error failure => exact .inr ⟨[], source, number, statements, [], failure, rfl, rfl, read⟩
      | ok t =>
          rcases ih with ⟨trees, all⟩ |
            ⟨before, source', number', after, trees, failure, rfl, all, unread⟩
          · exact .inl ⟨t :: trees, List.cons_eq_cons.mpr ⟨read, all⟩⟩
          · exact .inr ⟨(source, number) :: before, source', number', after, t :: trees, failure,
              rfl, List.cons_eq_cons.mpr ⟨read, all⟩, unread⟩

theorem all_read_or_refused {limit : Nat} {statements : List (Text × Nat)}
    (yields : ∀ s ∈ statements, Yields (parse s.1 limit)) :
    (∃ trees, ReadAs limit statements trees) ∨
      ∃ (before : List (Text × Nat)) (source : Text) (number : Nat) (after : List (Text × Nat))
        (trees : List Stmt) (e : ParseError), statements = before ++ (source, number) :: after ∧
          ReadAs limit before trees ∧
            parse source limit = .error (.mismatch e) := by
  rcases all_read_or_stopped limit statements with all |
    ⟨before, source, number, after, trees, failure, rfl, all, unread⟩
  · exact .inl all
  · have outcome := yields (source, number) (List.mem_append_right before List.mem_cons_self)
    rcases outcome.cases with ⟨t, read⟩ | ⟨e, refused⟩
    · cases unread.symm.trans read
    · exact .inr ⟨before, source, number, after, trees, e, rfl, all, refused⟩

theorem evaluated_or_failed (trees : List Stmt) (scope : Scope) :
    (∃ values last, Evaluated trees scope values last) ∨
      ∃ (before : List Stmt) (t : Stmt) (after : List Stmt) (values : List Value)
        (next last : Scope) (e : EvalError), trees = before ++ t :: after ∧
          Evaluated before scope values next ∧ t.eval next = (.error e, last) := by
  induction trees generalizing scope with
  | nil => exact .inl ⟨[], scope, .nil⟩
  | cons t trees ih =>
      cases h : t.eval scope with
      | mk answer next =>
          cases answer with
          | error e => exact .inr ⟨[], t, trees, [], scope, next, e, rfl, .nil, h⟩
          | ok v =>
              rcases ih next with ⟨values, last, all⟩ |
                ⟨before, t', after, values, middle, last, e, rfl, all, error⟩
              · exact .inl ⟨v :: values, last, .cons h all⟩
              · exact .inr ⟨t :: before, t', after, v :: values, middle, last, e, rfl,
                  .cons h all, error⟩

theorem ReadAs.split {limit : Nat} {statements : List (Text × Nat)} {done rest : List Stmt}
    {t : Stmt} (h : ReadAs limit statements (done ++ t :: rest)) :
    ∃ (before : List (Text × Nat)) (source : Text) (number : Nat) (after : List (Text × Nat)),
      statements = before ++ (source, number) :: after ∧ ReadAs limit before done ∧
        parse source limit = .ok t ∧ ReadAs limit after rest := by
  rw [ReadAs, List.map_append, List.map_cons] at h
  obtain ⟨before, others, rfl, first, later⟩ := List.map_eq_append_iff.mp h
  obtain ⟨⟨source, number⟩, after, rfl, read, last⟩ := List.map_eq_cons_iff.mp later
  exact ⟨before, source, number, after, rfl, first, read, last⟩

theorem exists_fileRun {limit : Nat} {statements : List (Text × Nat)}
    (yields : ∀ s ∈ statements, Yields (parse s.1 limit)) (coloring : Coloring) (path : Text) :
    ∃ finish, FileRun limit coloring path statements finish := by
  rcases all_read_or_refused yields with ⟨trees, all⟩ |
    ⟨before, source, number, after, trees, e, split, all, unread⟩
  · rcases evaluated_or_failed trees .root with ⟨values, last, evaluated⟩ |
      ⟨done, t, rest, values, next, last, e, rfl, evaluated, error⟩
    · exact ⟨_, .finished all evaluated⟩
    · obtain ⟨before, source, number, after, rfl, first, read, later⟩ := all.split
      exact ⟨_, .failed rfl first read later evaluated error⟩
  · exact ⟨_, .refused split all unread⟩

/-! ## The three ways -/

theorem entry_written (path : Text) {source : Text} (text : source ≠ []) (number : Nat) :
    Reporter.entry path ⟨some source, some number⟩ =
      "  File '".toList ++ path ++ "', line ".toList ++ Decimal.ofNat number ++ ":\n    ".toList
        ++ source ++ ['\n'] := by
  obtain ⟨c, source, rfl⟩ := List.exists_cons_of_ne_nil text
  rfl

section
variable {limit : Nat} {coloring : Coloring} {path source : Text} {number : Nat}
  {scope next : Scope} {waiting : Table Int (Text × Stmt)} {results : List Value}

/-- A session that stopped at a statement has the message reported there, and exits. -/
theorem settle_located (text : source ≠ []) (message : Message) :
    (Session.onFile limit coloring path ⟨some source, some number⟩ scope waiting
        results).reporter.settle (.message message) =
      ⟨(Session.onFile limit coloring path ⟨some source, some number⟩ scope waiting
          results).reporter,
        located coloring path source number message, .error (.exit 1)⟩ := by
  have place : (Session.onFile limit coloring path ⟨some source, some number⟩ scope waiting
      results).reporter.location = Reporter.entry path ⟨some source, some number⟩ :=
    List.append_nil _
  change Run.mk _ (Reporter.rendered _ message) _ = _
  rw [Reporter.rendered, place, entry_written path text]
  rfl

theorem addAll_unread {after : List (Text × Nat)} {failure : Failure}
    (h : parse source limit = .error failure) :
    Session.addAll ((source, number) :: after)
        (Session.onFile limit coloring path .clear scope waiting results) =
      .stopped
        (Session.onFile limit coloring path ⟨some source, some (number : Int)⟩ scope waiting
          results)
        failure.stop := by
  rw [Session.addAll, Session.add_unread h]
  rfl

end

/-- A run on a file, given its statements. -/
def runStatements (limit : Nat) (coloring : Coloring) (path : Text)
    (statements : List (Text × Nat)) : Run Reporter Unit :=
  let loaded := Session.addAll statements
    (Session.onFile limit coloring path .clear .root .empty [])
  match loaded.ending with
  | .error stop => loaded.state.reporter.settle stop
  | .ok () => ((Session.settled loaded.state.run).within Session.reporter).answering fun _ => ()

def Run.finish (run : Run Reporter Unit) : Finish := ⟨run.printed, [], run.ending⟩

def evaluatedFinish (run : Run Session Unit) : Finish :=
  (((Session.settled run).within Session.reporter).answering fun _ => ()).finish

section
variable {limit : Nat} {coloring : Coloring} {path source : Text} {number : Nat}
  {statements before after : List (Text × Nat)} {trees rest : List Stmt} {t : Stmt}
  {waiting : Table Int (Text × Stmt)} {values : List Value} {scope next : Scope}

theorem addAll_all (all : ReadAs limit statements trees)
    (queued : waiting.entries = Session.waitingFor statements trees) :
    Session.addAll statements (Session.onFile limit coloring path .clear .root .empty []) =
      .done (Session.onFile limit coloring path .clear .root waiting []) () :=
  Session.addAll_whole (Session.setMark_only path .clear .clear) all queued

/-- The statement that cannot be read is settled where it stands, before any is evaluated. -/
theorem runStatements_unread {failure : Failure} (all : ReadAs limit before trees)
    (unread : parse source limit = .error failure)
    (queued : waiting.entries = Session.waitingFor before trees) :
    runStatements limit coloring path (before ++ (source, number) :: after) =
      (Session.onFile limit coloring path ⟨some source, some (number : Int)⟩ .root waiting
        []).reporter.settle failure.stop := by
  have loaded : Session.addAll (before ++ (source, number) :: after)
      (Session.onFile limit coloring path .clear .root .empty []) = _ :=
    Session.addAll_read all queued
  unfold runStatements
  rw [loaded, addAll_unread unread]
  rfl

theorem runStatements_refused {e : ParseError} (all : ReadAs limit before trees)
    (unread : parse source limit = .error (.mismatch e)) (text : source ≠ [])
    (distinct : (before.map fun s => (s.2 : Int)).Nodup) :
    (runStatements limit coloring path (before ++ (source, number) :: after)).finish =
      ⟨located coloring path source number e.message, [], .error (.exit 1)⟩ := by
  obtain ⟨waiting, queued⟩ := all.exists_queue distinct
  rw [runStatements_unread all unread queued]
  exact congrArg Run.finish (settle_located text e.message)

theorem runStatements_read (all : ReadAs limit statements trees)
    (queued : waiting.entries = Session.waitingFor statements trees) :
    (runStatements limit coloring path statements).finish =
      evaluatedFinish (Session.onFile limit coloring path .clear .root waiting []).run := by
  unfold runStatements
  rw [addAll_all all queued]
  rfl

theorem run_read (all : ReadAs limit statements trees)
    (queued : waiting.entries = Session.waitingFor statements trees)
    (evaluated : Evaluated trees .root values scope) :
    (Session.onFile limit coloring path .clear .root waiting []).run =
      ⟨Session.onFile limit coloring path .clear scope .empty values,
        Session.printedValues values, .ok ()⟩ := by
  rw [← all.waiting_trees, ← queued] at evaluated
  obtain ⟨reporter, same, ran⟩ := Session.run_whole
    (s := Session.onFile limit coloring path .clear .root waiting []) evaluated
  rw [same (Session.setMark_only path .clear .clear)] at ran
  exact ran

theorem runStatements_finished (all : ReadAs limit statements trees)
    (distinct : (statements.map fun s => (s.2 : Int)).Nodup)
    (evaluated : Evaluated trees .root values scope) :
    (runStatements limit coloring path statements).finish =
      ⟨Session.printedValues values, [], .ok ()⟩ := by
  obtain ⟨waiting, queued⟩ := all.exists_queue distinct
  rw [runStatements_read all queued, run_read all queued evaluated]
  rfl

theorem runStatements_failed {e : EvalError} (first : ReadAs limit before trees)
    (read : parse source limit = .ok t) (later : ReadAs limit after rest) (text : source ≠ [])
    (distinct : ((before ++ (source, number) :: after).map fun s => (s.2 : Int)).Nodup)
    (evaluated : Evaluated trees .root values scope) (error : t.eval scope = (.error e, next)) :
    (runStatements limit coloring path (before ++ (source, number) :: after)).finish =
      ⟨Session.printedValues values ++ located coloring path source number e.message, [],
        .error (.exit 1)⟩ := by
  have others : ReadAs limit ((source, number) :: after) (t :: rest) :=
    List.cons_eq_cons.mpr ⟨read, later⟩
  obtain ⟨waiting, queued⟩ := (first.append others).exists_queue distinct
  rw [List.map_append] at distinct
  obtain ⟨behind, entries⟩ := others.exists_queue (List.pairwise_append.mp distinct).2.1
  rw [runStatements_read (first.append others) queued]
  rw [first.waiting_append, ← entries] at queued
  rw [← first.waiting_trees] at evaluated
  rw [Session.run_values evaluated queued, Session.run_error entries error]
  simp only [evaluatedFinish, Session.settled, Run.after, Run.stopped, settle_located text,
    Run.within, Run.answering, Run.finish, Except.map, List.append_nil]

theorem FileRun.finish_eq {finish : Finish} (h : FileRun limit coloring path statements finish)
    (written : ∀ s ∈ statements, s.1 ≠ [])
    (distinct : (statements.map fun s => (s.2 : Int)).Nodup) :
    (runStatements limit coloring path statements).finish = finish := by
  cases h with
  | @refused before source number after trees e split all unread =>
      subst split
      have text := written (source, number) (List.mem_append_right before List.mem_cons_self)
      rw [List.map_append] at distinct
      exact runStatements_refused all unread text (List.pairwise_append.mp distinct).1
  | @failed before source number after _ _ _ _ _ _ _ split first read later evaluated error =>
      subst split
      have text := written (source, number) (List.mem_append_right before List.mem_cons_self)
      exact runStatements_failed first read later text distinct evaluated error
  | finished all evaluated => exact runStatements_finished all distinct evaluated

end

section
variable {coloring : Coloring} {args : List Text} {files : Files} {input path text : Text}
  {bytes : List UInt8} {limit : Nat}

theorem run_eq_runStatements (asked : Request.ofArguments args = .file path)
    (other : path ≠ inputPath) (valid : path.contains '\x00' = false)
    (found : files.find? path = some bytes) (decoded : Encoding.decode bytes = .ok text) :
    CommandLine.run coloring args files input limit =
      (runStatements limit coloring path (Statements.ofText text)).finish := by
  simp only [CommandLine.run, asked, CommandLine.runFile, Session.start, Session.fresh_onFile,
    other, if_false, valid, found, decoded, Bool.false_eq_true, runStatements]
  generalize Session.addAll _ _ = loaded
  obtain ⟨session, printed, ending⟩ := loaded
  cases ending with
  | error stop => rfl
  | ok _ => rfl

/-- A call on a file that can be opened and decoded leaves behind what its statements say, and that
alone. -/
theorem run_file (asked : Request.ofArguments args = .file path) (other : path ≠ inputPath)
    (valid : path.contains '\x00' = false) (found : files.find? path = some bytes)
    (decoded : Encoding.decode bytes = .ok text) (runs : ShortRuns text) (finish : Finish) :
    FileRun limit coloring path (Statements.ofText text) finish ↔
      CommandLine.run coloring args files input limit = finish := by
  have yields : ∀ s ∈ Statements.ofText text, Yields (parse s.1 limit) :=
    fun s member => parseWithin_yields (shortRuns_of_mem_ofText runs s member) limit
  have written := ofText_ne_nil text
  have distinct := ofText_numbers_nodup text
  rw [run_eq_runStatements asked other valid found decoded]
  constructor
  · intro h
    exact h.finish_eq written distinct
  · rintro rfl
    obtain ⟨finish, h⟩ := exists_fileRun yields coloring path
    rw [h.finish_eq written distinct]
    exact h

/-- The value of the first statement is printed before the second, two lines below, has none. -/
theorem run_file_failing :
    CommandLine.run .plain [['a']]
        (Table.empty.insert ['a'] [0x31, 0x0A, 0x0A, 0x79, 0x0A, 0x32]) [] =
      ⟨"1\n  File 'a', line 3:\n    y\nerror: binding with name 'y' does not exist\n".toList, [],
        .error (.exit 1)⟩ := by
  have text : Encoding.decode [0x31, 0x0A, 0x0A, 0x79, 0x0A, 0x32] = .ok "1\n\ny\n2".toList := by
    decide +kernel
  have runs : ShortRuns "1\n\ny\n2".toList := shortRuns_of_length_le (by decide)
  have first : ReadAs nestingLimit [(['1'], 1)] [.expr (.number 1)] := by
    have read : parse ['1'] = .ok (.expr (.number 1)) := by decide +kernel
    exact congrArg ([·]) read
  have second : parse ['y'] = .ok (.expr (.usage ['y'])) := by decide +kernel
  have last : ReadAs nestingLimit [(['2'], 4)] [.expr (.number 2)] := by
    have read : parse ['2'] = .ok (.expr (.number 2)) := by decide +kernel
    exact congrArg ([·]) read
  have asked : Request.ofArguments [['a']] = .file ['a'] := by decide
  have statements : Statements.ofText "1\n\ny\n2".toList =
      [(['1'], 1)] ++ (['y'], 3) :: [(['2'], 4)] := by decide
  have printed : Session.printedValues [.number 1] ++
      located .plain ['a'] ['y'] 3 (EvalError.missingBinding ['y']).message =
        "1\n  File 'a', line 3:\n    y\nerror: binding with name 'y' does not exist\n".toList := by
    decide +kernel
  refine (run_file asked (by decide) (by decide) rfl text runs _).mp ?_
  rw [← printed]
  exact .failed statements first second last (.cons rfl .nil) rfl

end
end BlockCalc
