import BlockCalc.Proofs.CommandLine.Completed
import BlockCalc.Proofs.Grammar.Balance
import BlockCalc.Proofs.Shell.Lines
/-! A shell that is given the lines of a file. As long as the statements of the file have values it
prints these, and stands where the splitting of the file stands: at the same scope, with a text in
hand that is alike to the statement begun there. -/
namespace BlockCalc
open Grammar

namespace Shell
variable {number : Nat} {begun : Option (Text × Nat)} {shell : Shell} {scope next last : Scope}
  {line : Text} {lines : List Text} {limit : Nat} {trees : List Stmt} {t : Stmt}
  {values : List Value} {v : Value}

/-- A shell that was given the lines of a file up to the line `number`, where `begun` is the
statement that is open there. -/
structure Follows (shell : Shell) (limit number : Nat) (begun : Option (Text × Nat))
    (scope : Scope) : Prop where
  idle : shell.session.Idle limit scope
  typed : Alike (begun.getD ([], number)).1 shell.pending
  opened : ∀ s ∈ begun, Statements.leavesOpen s.1 = true

/-- Between two statements of a file. -/
theorem Follows.of_idle (idle : shell.session.Idle limit scope) (pending : shell.pending = [])
    (number : Nat) : shell.Follows limit number none scope := by
  refine ⟨idle, ?_, nofun⟩
  rw [pending]
  exact .nil

theorem fresh_follows (reporter : Reporter) (limit number : Nat) :
    (fresh reporter limit).Follows limit number none .root :=
  .of_idle (fresh_idle reporter limit) rfl number

/-! ## The step, for each thing that a line can do -/

section
variable (follows : shell.Follows limit number begun scope) (code : IsCode line)
include follows

theorem Follows.joined (line : Text) :
    Alike (Statements.join (begun.getD ([], number)).1 line)
      (Statements.join shell.pending line.trim) :=
  Statements.join_alike follows.typed line

theorem Follows.enter_blank
    (blank : Statements.join (begun.getD ([], number)).1 line = []) :
    shell.enter line = .done shell false ∧ shell.Follows limit (number + 1) none scope := by
  have bare := (follows.joined line).nil_iff.mp blank
  refine ⟨Shell.enter_blank bare, .of_idle follows.idle ?_ _⟩
  exact (Statements.join_eq_nil_iff.mp bare).1

include code

theorem Follows.enter_open {start : Nat}
    (still : Statements.leavesOpen (Statements.join (begun.getD ([], number)).1 line) = true) :
    ∃ shell', shell.enter line = .done shell' false ∧
      shell'.Follows limit (number + 1)
        (some (Statements.join (begun.getD ([], number)).1 line, start)) scope := by
  have alike := follows.joined line
  have still' := still
  rw [Statements.leavesOpen_of_alike alike] at still'
  refine ⟨⟨shell.session, Statements.join shell.pending line.trim, .continuation,
    shell.lineNumber + 1⟩, ?_, follows.idle, alike, ?_⟩
  · rw [enter_code code (Statements.ne_nil_of_leavesOpen still'), submit_open still']
    rfl
  · rintro s ⟨⟩
    exact still

theorem Follows.enter_value
    (closed : Statements.leavesOpen (Statements.join (begun.getD ([], number)).1 line) = false)
    (text : Statements.join (begun.getD ([], number)).1 line ≠ [])
    (read : parse (Statements.join (begun.getD ([], number)).1 line) limit = .ok t)
    (value : t.eval scope = (.ok v, next)) :
    ∃ shell', shell.enter line = ⟨shell', v.render ++ ['\n'], .ok false⟩ ∧
      shell'.Follows limit (number + 1) none next := by
  have alike := follows.joined line
  have text' := mt alike.nil_iff.mpr text
  rw [Statements.leavesOpen_of_alike alike] at closed
  obtain ⟨shell', submitted, pending, idle⟩ :=
    submit_value follows.idle closed text' (parseWithin_of_alike alike read) value
  refine ⟨shell', ?_, .of_idle idle pending _⟩
  rw [enter_code code text', submitted]
  rfl

end

/-! ## The run -/

/-- At the end no statement can be open, as one with a tree has its braces balanced. -/
theorem Follows.finished (follows : shell.Follows limit number begun scope)
    (read : ReadAs limit begun.toList trees) : begun = none ∧ shell.pending = [] := by
  cases begun with
  | none => exact ⟨rfl, follows.typed.nil_iff.mp rfl⟩
  | some s =>
      obtain ⟨t, ts, rfl⟩ : ∃ t ts, trees = t :: ts := by
        cases trees with
        | nil => cases read
        | cons t ts => exact ⟨t, ts, rfl⟩
      have opened := follows.opened s rfl
      rw [parseWithin_not_leavesOpen (List.cons.inj read).1] at opened
      cases opened

theorem Follows.enterAll (follows : shell.Follows limit number begun scope)
    (code : ∀ line ∈ lines, IsCode line)
    (read : ReadAs limit (Statements.fromLines number begun lines) trees)
    (evaluated : Evaluated trees scope values last) :
    ∃ shell', Shell.enterAll lines shell = ⟨shell', Session.printedValues values, .ok false⟩ ∧
      shell'.pending = [] ∧ shell'.session.Idle limit last := by
  induction lines generalizing number begun shell scope trees values with
  | nil =>
      obtain ⟨rfl, pending⟩ := follows.finished read
      cases List.map_eq_nil_iff.mp (Eq.symm read)
      cases evaluated
      exact ⟨shell, rfl, pending, follows.idle⟩
  | cons line lines ih =>
      obtain ⟨first, others⟩ := List.forall_mem_cons.mp code
      rw [Statements.fromLines] at read
      dsimp only at read
      split at read
      · next still =>
          obtain ⟨shell', entered, follows'⟩ := follows.enter_open first still
          obtain ⟨last, run, pending, idle⟩ := ih follows' others read evaluated
          exact ⟨last, enterAll_cons entered run, pending, idle⟩
      · next closed =>
          split at read
          · next blank =>
              obtain ⟨entered, follows'⟩ := follows.enter_blank (List.isEmpty_iff.mp blank)
              obtain ⟨last, run, pending, idle⟩ := ih follows' others read evaluated
              exact ⟨last, enterAll_cons entered run, pending, idle⟩
          · next text =>
              obtain ⟨t, trees, rfl, parsed, later⟩ := List.map_eq_cons_iff.mp (Eq.symm read)
              obtain - | @⟨_, _, v, vs, _, next, _, value, evaluated⟩ := evaluated
              obtain ⟨shell', entered, follows'⟩ := follows.enter_value first
                (Bool.eq_false_iff.mpr closed) (fun none => text (List.isEmpty_iff.mpr none))
                parsed.symm value
              obtain ⟨last, run, pending, idle⟩ := ih follows' others later.symm evaluated
              exact ⟨last, enterAll_cons entered run, pending, idle⟩

end Shell

/-! ## Whole files -/

section
variable {coloring : Coloring} {args : List Text} {files : Files} {input path text : Text}
  {bytes : List UInt8} {lines : List Text} {limit : Nat}

/-- Where a run on a file ends without an error, a shell that is given the lines of the file prints
the same, is not asked to end, has no statement left open and ends in the same root scope. -/
theorem enterAll_agrees (asked : Request.ofArguments args = .file path)
    (found : files.find? path = some bytes) (decoded : Encoding.decode bytes = .ok text)
    (made : text.MadeOf lines) (unbroken : ∀ line ∈ lines, '\n' ∉ line ∧ '\r' ∉ line)
    (code : ∀ line ∈ lines, IsCode line)
    (completed : (CommandLine.run coloring args files input limit).ending = .ok ())
    (reporter : Reporter) :
    ∃ session shell, Session.start (.fresh true coloring) path false files limit = .ok session ∧
      Shell.enterAll lines (.fresh reporter limit) =
        ⟨shell, (CommandLine.run coloring args files input limit).output, .ok false⟩ ∧
      shell.pending = [] ∧ shell.session.scope = session.run.state.scope := by
  obtain ⟨trees, values, scope, all, evaluated, printed, session, started, same⟩ :=
    run_completed asked found decoded completed
  have follows := Shell.fresh_follows reporter limit 1
  rcases made.lines unbroken with whole | unended
  · rw [Statements.ofText, Statements.ofLines, whole] at all
    obtain ⟨shell, entered, pending, _, _, idle⟩ := follows.enterAll code all evaluated
    refine ⟨session, shell, started, ?_, pending, ?_⟩
    · rw [entered, printed]
    · rw [idle, same]
      rfl
  · rw [← unended] at code ⊢
    obtain ⟨before, -⟩ := List.forall_mem_append.mp code
    obtain ⟨shell, entered, pending, _, _, idle⟩ := follows.enterAll before all evaluated
    refine ⟨session, shell, started, ?_, pending, ?_⟩
    · have blank : shell.enter [] = .done shell false := by
        refine Shell.enter_blank (Statements.join_eq_nil_iff.mpr ⟨pending, rfl⟩)
      have last : Shell.enterAll [[]] shell = ⟨shell, [], .ok false⟩ :=
        Shell.enterAll_cons blank rfl
      rw [Shell.enterAll_append, entered, printed, Run.andThen]
      dsimp only
      rw [last]
      simp only [Run.answering, Except.map, List.append_nil, Bool.or_self]
    · rw [idle, same]
      rfl

theorem enterAll_agrees_block :
    let text := "\x7b let b = 6\n  b * 7\n\n\x7d\nlet c = 1".toList
    let files : Files := Table.empty.insert ['a'] (text.map fun c => c.toNat.toUInt8)
    ∃ session shell, Session.start (.fresh true .plain) ['a'] false files = .ok session ∧
      Shell.enterAll
          ["\x7b let b = 6".toList, "  b * 7".toList, [], ['}'], "let c = 1".toList]
          (.fresh (.fresh true .ansi)) = ⟨shell, "42\nUnit\n".toList, .ok false⟩ ∧
      shell.pending = [] ∧ shell.session.scope = session.run.state.scope := by
  intro text files
  have asked : Request.ofArguments [['a']] = .file ['a'] := by decide
  have decoded : Encoding.decode (text.map fun c => c.toNat.toUInt8) = .ok text := by
    decide +kernel
  have printed : (CommandLine.run .plain [['a']] files []).output = "42\nUnit\n".toList := by
    decide +kernel
  have completed : (CommandLine.run .plain [['a']] files []).ending = .ok () := by decide +kernel
  rw [← printed]
  exact enterAll_agrees asked rfl decoded (.inr (by decide)) (by decide) (by decide) completed _

end
end BlockCalc
