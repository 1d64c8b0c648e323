import BlockCalc.Proofs.Grammar.Balance
import BlockCalc.Proofs.Session.Statements
import BlockCalc.Proofs.Shell.Lines
/-! Counting against reading. Before a statement is read, its braces are counted to see whether it
goes on with the next line. The count never holds back what could be read: a text that it calls
open is no statement, and a statement ends with the line that completes it, in a file and at the
shell alike. -/
namespace BlockCalc
open Grammar
variable {limit : Nat} {s : Text} {t : Stmt}

theorem parseWithin_ne_nil (h : parseWithin limit s = .ok t) : s ≠ [] := by
  rintro rfl
  cases ((stmt_reads limit).derives (parseWithin_eq_ok_iff.mp h)).1.begun

theorem parseWithin_of_leavesOpen (limit : Nat) (h : Statements.leavesOpen s = true) :
    ∃ failure, parseWithin limit s = .error failure := by
  cases found : parseWithin limit s with
  | error failure => exact ⟨failure, rfl⟩
  | ok t =>
      rw [parseWithin_not_leavesOpen found] at h
      cases h

/-- A statement has balanced braces. So what the count reports as open is refused, and what would be
accepted is at once a statement of the file, and at once evaluated at the shell. -/
theorem parse_agrees_with_braces (limit : Nat) :
    (∀ s t, parseWithin limit s = .ok t →
      s.count '{' = s.count '}' ∧ ∀ a, a <+: s → a.count '}' ≤ a.count '{') ∧
    (∀ previous line, Statements.leavesOpen (Statements.join previous line) = true →
      ∃ failure, parseWithin limit (Statements.join previous line) = .error failure) ∧
    ∀ previous line t, parseWithin limit (Statements.join previous line) = .ok t →
      Statements.leavesOpen (Statements.join previous line) = false ∧
      (∀ number start begun lines, Option.getD begun ([], number) = (previous, start) →
        Statements.fromLines number begun (line :: lines) =
          (Statements.join previous line, start) ::
            Statements.fromLines (number + 1) none lines) ∧
      ∀ shell : Shell, shell.pending = previous →
        shell.submit line =
          ((Session.settled (Shell.execute shell.session (Statements.join previous line)
            (shell.lineNumber + 1 : Nat))).within
              fun session => ⟨session, [], .ready, shell.lineNumber + 1⟩).answering fun _ => () := by
  refine ⟨?_, ?_, ?_⟩
  · intro s t read
    obtain ⟨balanced, nested⟩ := parseWithin_braced read
    exact ⟨balanced, nested⟩
  · intro previous line still
    exact parseWithin_of_leavesOpen limit still
  · intro previous line t read
    have closed := parseWithin_not_leavesOpen read
    have text := parseWithin_ne_nil read
    refine ⟨closed, ?_, ?_⟩
    · intro number start begun lines goes
      exact Statements.fromLines_closed goes closed text lines
    · rintro shell rfl
      exact Shell.submit_closed closed text

/-- A block over two lines, of which the first is refused by itself. -/
theorem parse_agrees_with_braces_two_lines :
    (∃ failure, parse "\x7b let a = \x7b\x7d".toList = .error failure) ∧
      parse "\x7b let a = \x7b\x7d\n a \x7d".toList =
        .ok (.expr (.block [.binding ['a'] (.block []), .expr (.usage ['a'])])) ∧
      Statements.fromLines 2 (some ("\x7b let a = \x7b\x7d".toList, 1)) [" a \x7d ".toList, []] =
        [("\x7b let a = \x7b\x7d\n a \x7d".toList, 1)] := by
  obtain ⟨-, refused, accepted⟩ := parse_agrees_with_braces nestingLimit
  have read : parse "\x7b let a = \x7b\x7d\n a \x7d".toList =
      .ok (.expr (.block [.binding ['a'] (.block []), .expr (.usage ['a'])])) := by decide +kernel
  have still := refused [] "\x7b let a = \x7b\x7d".toList (by decide)
  obtain ⟨-, ends, -⟩ := accepted "\x7b let a = \x7b\x7d".toList " a \x7d ".toList _ read
  exact ⟨still, read, ends 2 1 (some ("\x7b let a = \x7b\x7d".toList, 1)) [[]] rfl⟩

end BlockCalc
