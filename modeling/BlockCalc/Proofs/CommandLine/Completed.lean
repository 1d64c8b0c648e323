import BlockCalc.Proofs.CommandLine.FileRun
/-! Runs on files that end without an error. A reporter that ends the program at every message
leaves no other way to such an end than the plain one: the file could be opened, all its statements
could be read, and all have values. -/
namespace BlockCalc

/-- A reporter that ends the program at a message takes no stop as settled. -/
theorem settle_fatal {reporter : Reporter} (fatal : reporter.fatal = true) (stop : Stop) :
    (reporter.settle stop).ending ≠ .ok () := by
  intro settled
  cases stop with
  | exit status => cases settled
  | _ =>
      simp only [Reporter.settle, Reporter.report, fatal, if_true, Run.andThen] at settled
      cases settled

section
variable {limit : Nat} {coloring : Coloring} {path : Text} {statements : List (Text × Nat)}

theorem runStatements_completed (written : ∀ s ∈ statements, s.1 ≠ [])
    (distinct : (statements.map fun s => (s.2 : Int)).Nodup)
    (completed : (runStatements limit coloring path statements).ending = .ok ()) :
    ∃ trees values scope, ReadAs limit statements trees ∧ Evaluated trees .root values scope := by
  rcases all_read_or_stopped limit statements with ⟨trees, all⟩ |
    ⟨before, source, number, after, trees, failure, rfl, all, unread⟩
  · rcases evaluated_or_failed trees .root with ⟨values, scope, evaluated⟩ |
      ⟨done, t, rest, values, next, last, e, rfl, evaluated, error⟩
    · exact ⟨trees, values, scope, all, evaluated⟩
    · obtain ⟨before, source, number, after, rfl, first, read, later⟩ := all.split
      have text := written (source, number) (List.mem_append_right before List.mem_cons_self)
      have failed :
          (runStatements limit coloring path (before ++ (source, number) :: after)).finish = _ :=
        runStatements_failed first read later text distinct evaluated error
      cases completed.symm.trans (congrArg Finish.ending failed)
  · rw [List.map_append] at distinct
    obtain ⟨waiting, queued⟩ := all.exists_queue (List.pairwise_append.mp distinct).1
    rw [runStatements_unread all unread queued] at completed
    exact False.elim (settle_fatal rfl _ completed)

end

section
variable {coloring : Coloring} {args : List Text} {files : Files} {input path text : Text}
  {bytes : List UInt8} {trees : List Stmt} {limit : Nat}

theorem path_of_completed (asked : Request.ofArguments args = .file path)
    (completed : (CommandLine.run coloring args files input limit).ending = .ok ()) :
    path ≠ inputPath ∧ path.contains '\x00' = false := by
  simp only [CommandLine.run, asked, CommandLine.runFile, Session.start] at completed
  by_cases reserved : path = inputPath
  · simp only [reserved, if_true, Bool.false_eq_true, if_false] at completed
    exact False.elim (settle_fatal rfl _ completed)
  · refine ⟨reserved, Bool.eq_false_iff.mpr fun null => ?_⟩
    simp only [reserved, if_false, null, if_true] at completed
    exact settle_fatal rfl _ completed

theorem start_read {waiting : Table Int (Text × Stmt)} (other : path ≠ inputPath)
    (valid : path.contains '\x00' = false) (found : files.find? path = some bytes)
    (decoded : Encoding.decode bytes = .ok text)
    (all : ReadAs limit (Statements.ofText text) trees)
    (queued : waiting.entries = Session.waitingFor (Statements.ofText text) trees) :
    Session.start (.fresh true coloring) path false files limit =
      .ok (Session.onFile limit coloring path .clear .root waiting []) := by
  simp only [Session.start, Session.fresh_onFile, other, if_false, valid, found, decoded,
    Bool.false_eq_true, addAll_all all queued, Run.done]

/-- A run on a file that ends without an error has evaluated all statements of the file and printed
their values. -/
theorem run_completed (asked : Request.ofArguments args = .file path)
    (found : files.find? path = some bytes) (decoded : Encoding.decode bytes = .ok text)
    (completed : (CommandLine.run coloring args files input limit).ending = .ok ()) :
    ∃ trees values scope, ReadAs limit (Statements.ofText text) trees ∧
      Evaluated trees .root values scope ∧
        (CommandLine.run coloring args files input limit).output = Session.printedValues values ∧
          ∃ session, Session.start (.fresh true coloring) path false files limit = .ok session ∧
            session.run.state.scope = scope := by
  obtain ⟨other, valid⟩ := path_of_completed asked completed
  have distinct := ofText_numbers_nodup text
  rw [run_eq_runStatements asked other valid found decoded] at completed ⊢
  obtain ⟨trees, values, scope, all, evaluated⟩ :=
    runStatements_completed (ofText_ne_nil text) distinct completed
  obtain ⟨waiting, queued⟩ := all.exists_queue distinct
  have started : Session.start (.fresh true coloring) path false files limit = _ :=
    start_read other valid found decoded all queued
  refine ⟨trees, values, scope, all, evaluated, ?_, _, started, ?_⟩
  · rw [runStatements_finished all distinct evaluated]
  · rw [run_read all queued evaluated]
    rfl

end
end BlockCalc
