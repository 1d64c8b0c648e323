import BlockCalc.Proofs.Shell.Rest
/-! Lines typed while a block is open. A line of code goes on with the text held back, whatever else
is in it: it is held back too, or both together are read as a statement. The words of the commands
are names of the language as well, but a line that begins with one is obeyed, and is no part of the
block. -/
namespace BlockCalc

theorem Run.answering_answering {σ α β γ : Type} (run : Run σ α) (f : α → β) (g : β → γ) :
    (run.answering f).answering g = run.answering fun answer => g (f answer) := by
  obtain ⟨state, printed, ending⟩ := run
  cases ending <;> rfl

theorem Run.answering_ne {σ α β : Type} (run : Run σ α) {answer other : β} (h : answer ≠ other) :
    (run.answering fun _ => answer).ending ≠ .ok other := by
  obtain ⟨state, printed, ending⟩ := run
  cases ending with
  | error stop => nofun
  | ok first => exact fun same => h (Except.ok.inj same)

namespace Shell
variable {shell : Shell} {line : Text} {run : Run Shell Bool}

def continued (shell : Shell) (line : Text) : Text := shell.pending ++ '\n' :: line.trim

/-- What is done with a statement once the session has read it. -/
def showNext (session : Session) : Run Session Unit :=
  session.run.andThen fun session _ =>
    if session.results.isEmpty then .done session ()
    else session.pop.andThen fun session value => ⟨session, value.render ++ ['\n'], .ok ()⟩

/-- A statement is handed to the session before anything else is done with it. -/
theorem execute_eq (session : Session) (source : Text) (number : Int) :
    execute session source number =
      (session.add source number).andThen fun session _ => showNext session := rfl

/-- A typed line was taken as the continuation of the text held back: both are held back as long as
a block is open, and otherwise both were handed to the session as one statement. -/
inductive Continues (shell : Shell) (line : Text) : Run Shell Bool → Prop
  | held : Statements.leavesOpen (shell.continued line) = true →
      Continues shell line
        (.done ⟨shell.session, shell.continued line, .continuation, shell.lineNumber + 1⟩ false)
  | handed : Statements.leavesOpen (shell.continued line) = false →
      Continues shell line
        (((Session.settled
          ((shell.session.add (shell.continued line) (shell.lineNumber + 1 : Nat)).andThen
            fun session _ => showNext session)).within
              fun session => ⟨session, [], .ready, shell.lineNumber + 1⟩).answering fun _ => false)

/-! ## Code -/

theorem Continues.goes_on (h : shell.Continues line run) : run.ending ≠ .ok true := by
  cases h with
  | held => exact fun leaves => Bool.false_ne_true (Except.ok.inj leaves)
  | handed => exact Run.answering_ne _ Bool.false_ne_true

theorem Continues.pending_ne (held : shell.pending ≠ []) (h : shell.Continues line run) :
    run.state.pending ≠ shell.pending := by
  cases h with
  | held => exact fun same => List.cons_ne_nil _ _ (List.append_right_eq_self.mp same)
  | handed => exact Ne.symm held

theorem join_trim (held : shell.pending ≠ []) (line : Text) :
    Statements.join shell.pending line.trim = shell.continued line := by
  rw [Statements.join_eq held, Text.trimEnd_trim]
  rfl

theorem continues_of_code (held : shell.pending ≠ []) (code : IsCode line) :
    shell.Continues line (shell.enter line) := by
  have joined := join_trim held line
  have text : shell.continued line ≠ [] := List.append_ne_nil_of_left_ne_nil held _
  rw [enter_code code (joined ▸ text)]
  cases still : Statements.leavesOpen (shell.continued line) with
  | true =>
      rw [submit_open (joined ▸ still), joined]
      exact .held still
  | false =>
      rw [submit_closed (joined ▸ still) (joined ▸ text), joined, execute_eq,
        Run.answering_answering]
      exact .handed still

end Shell

/-! ## Commands -/

namespace Command
variable {line : Text}

def firstWord (line : Text) : Text := line.trim.takeWhile isWordChar

theorem ofLine_command (command : ¬ IsCode line) :
    (line.trim.head? = some '?' ∨ firstWord line = "help".toList) ∧ ofLine line = .help ∨
      firstWord line = "exit".toList ∧ ofLine line = .leave ∨
      firstWord line = "EOF".toList ∧ ofLine line = .endOfInput := by
  unfold ofLine firstWord
  split
  · next blank =>
      refine False.elim (command ⟨?_, ?_⟩)
      · rw [blank]
        nofun
      · rw [blank]
        decide
  · next rest asks => exact .inl ⟨.inl (congrArg List.head? asks), rfl⟩
  · next asks =>
      have question : line.trim.head? ≠ some '?' := fun head =>
        (List.head?_eq_some_iff.mp head).elim asks
      rw [ofWord]
      by_cases help : line.trim.takeWhile isWordChar = "help".toList
      · exact .inl ⟨.inr help, if_pos help⟩
      by_cases leave : line.trim.takeWhile isWordChar = "exit".toList
      · exact .inr (.inl ⟨leave, (if_neg help).trans (if_pos leave)⟩)
      by_cases finish : line.trim.takeWhile isWordChar = "EOF".toList
      · refine .inr (.inr ⟨finish, ?_⟩)
        exact (if_neg help).trans ((if_neg leave).trans (if_pos finish))
      refine False.elim (command ⟨question, ?_⟩)
      simp only [List.mem_cons, help, leave, finish, List.not_mem_nil, or_self, not_false_iff]

end Command

namespace Shell
variable {shell : Shell} {line : Text}

/-- What becomes of a command, whatever text is held back. -/
theorem enter_command (shell : Shell) (command : ¬ IsCode line) :
    (line.trim.head? = some '?' ∨ Command.firstWord line = "help".toList) ∧
        shell.enter line = ⟨shell, helpText, .ok false⟩ ∨
      Command.firstWord line = "exit".toList ∧ shell.enter line = .done shell true ∨
      Command.firstWord line = "EOF".toList ∧ shell.enter line = ⟨shell, ['\n'], .ok true⟩ := by
  rw [enter]
  rcases Command.ofLine_command command with ⟨word, asks⟩ | ⟨word, asks⟩ | ⟨word, asks⟩
  · rw [asks]
    exact .inl ⟨word, rfl⟩
  · rw [asks]
    exact .inr (.inl ⟨word, rfl⟩)
  · rw [asks]
    exact .inr (.inr ⟨word, rfl⟩)

theorem enter_command_state (shell : Shell) (command : ¬ IsCode line) :
    (shell.enter line).state = shell := by
  rcases enter_command shell command with ⟨-, same⟩ | ⟨-, same⟩ | ⟨-, same⟩ <;> rw [same]
  rfl

/-- While a block is open, exactly the lines of code go on with it. A command is obeyed as if no
block were open, and leaves the text held back without the line. -/
theorem enter_while_open (held : shell.pending ≠ []) (line : Text) :
    (shell.Continues line (shell.enter line) ↔ IsCode line) ∧
    (IsCode line → (shell.enter line).ending ≠ .ok true) ∧
    (¬ IsCode line →
      (line.trim.head? = some '?' ∨ Command.firstWord line = "help".toList) ∧
          shell.enter line = ⟨shell, helpText, .ok false⟩ ∨
        Command.firstWord line = "exit".toList ∧ shell.enter line = .done shell true ∨
        Command.firstWord line = "EOF".toList ∧ shell.enter line = ⟨shell, ['\n'], .ok true⟩) := by
  refine ⟨⟨fun goes => ?_, continues_of_code held⟩, fun code => ?_, enter_command shell⟩
  · refine Decidable.byContradiction fun command => goes.pending_ne held ?_
    rw [enter_command_state shell command]
  · exact (continues_of_code held code).goes_on

/-- A shell in which a name was bound that is also the word of a command, and a block begun. -/
def amidBlock : Shell :=
  (fresh (.fresh true .plain)).afterLines ["let exit = 1".toList, ['{']]

/-- With a line that begins with the name the block would be a statement with a value, but the line
is not taken for its continuation: it ends the shell. -/
theorem open_block_abandoned :
    amidBlock.pending = ['{'] ∧
      amidBlock.enter "exit \x7d".toList = .done amidBlock true ∧
      ¬ amidBlock.Continues "exit \x7d".toList (amidBlock.enter "exit \x7d".toList) ∧
      ∃ t, parse (amidBlock.continued "exit \x7d".toList) = .ok t ∧
        (t.eval amidBlock.session.scope).1 = .ok (.number 1) := by
  have held : amidBlock.pending = ['{'] := by decide +kernel
  have asks : Command.ofLine "exit \x7d".toList = .leave := by decide
  have leaves : amidBlock.enter "exit \x7d".toList = .done amidBlock true := by rw [enter, asks]
  refine ⟨held, leaves, ?_, ?_⟩
  · intro goes
    rw [leaves] at goes
    exact goes.goes_on rfl
  · exact ⟨.expr (.block [.expr (.usage "exit".toList)]), by decide +kernel, by decide +kernel⟩

/-- Of three lines typed in the block the first is code and closes it, the second is obeyed and
leaves it open, and the third ends the shell. -/
theorem enter_while_open_names :
    amidBlock.Continues "exits \x7d".toList (amidBlock.enter "exits \x7d".toList) ∧
      amidBlock.enter "help + 1".toList = ⟨amidBlock, helpText, .ok false⟩ ∧
      amidBlock.enter "EOF \x7d".toList = ⟨amidBlock, ['\n'], .ok true⟩ := by
  have held : amidBlock.pending ≠ [] := by decide +kernel
  obtain ⟨goes, -, -⟩ := enter_while_open held "exits \x7d".toList
  obtain ⟨-, -, helps⟩ := enter_while_open held "help + 1".toList
  obtain ⟨-, -, ends⟩ := enter_while_open held "EOF \x7d".toList
  refine ⟨goes.mpr (by decide), ?_, ?_⟩
  · rcases helps (by decide) with ⟨-, same⟩ | ⟨word, -⟩ | ⟨word, -⟩
    · exact same
    · cases word
    · cases word
  · rcases ends (by decide) with ⟨word | word, -⟩ | ⟨word, -⟩ | ⟨-, same⟩
    · cases word
    · cases word
    · cases word
    · exact same

end Shell
end BlockCalc
