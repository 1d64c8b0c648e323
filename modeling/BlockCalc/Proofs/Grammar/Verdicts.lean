import BlockCalc.Proofs.Grammar.Failures
import BlockCalc.Proofs.Grammar.Canonical
import BlockCalc.Proofs.Grammar.Limits
/-! Which text is refused with which message. A definition that does not go on is an expression that
begins with its word, and an operation that does not go on is its first operand, so a statement is
refused only as its first operand is. An operand that is no block fails with the last alternative
for one, which misses the brace in front; and a block that begins fails for the brace behind it
alone, since any mismatch within it only ends its statements. -/
namespace BlockCalc.Grammar
variable {α : Type} {limit : Nat} {s rest : Text} {rule : Rule Stmt}

/-! ## Rules that can only mismatch -/

/-- A text without long numerals leaves a rule that is not cut short no failure but a mismatch. -/
theorem FailsFor.yields {rule : Rule α} (fails : FailsFor limit rule) (runs : ShortRuns s)
    (level : rule s ≠ .error .tooDeep) : Yields (rule s) := by
  intro failure h
  have cause := fails s failure h
  cases failure with
  | mismatch e => exact ⟨e, rfl⟩
  | literalTooLong n => exact False.elim (cause.not_shortRuns runs)
  | tooDeep => exact False.elim (level h)

/-- Of two alternatives that can only mismatch one matches, if the second does where it is heard. -/
theorem Yields.orElse_ok {first second : Rule α} (h : Yields (orElse first second s))
    (heard : Yields (second s) → ∃ answer, second s = .ok answer) :
    ∃ answer, orElse first second s = .ok answer := by
  cases hf : first s with
  | ok answer => exact ⟨answer, orElse_of_ok hf⟩
  | error failure =>
      cases failure with
      | mismatch e =>
          rw [orElse_of_mismatch hf] at h ⊢
          exact heard h
      | _ =>
          obtain ⟨e, other⟩ := h _ (orElse_of_failure hf fun _ => nofun)
          cases other

theorem many_ne_mismatch {item : Rule α} {e : ParseError} :
    many item s ≠ .error (.mismatch e) := by
  intro h
  refine many_error_induction (P := fun _ => False) ?_ (fun _ => id) h
  exact fun _ _ stops => stops e rfl

/-- A block that begins mismatches only where the brace that closes it is missing. -/
theorem block_error {e : ParseError} (h : block rule ('{' :: s) = .error (.mismatch e)) :
    e = .expected ['}'] := by
  simp only [block, bind_eq_error_iff, expect_eq_ok_iff, Prod.exists] at h
  rcases h with h | ⟨s₁, same, h | ⟨s₂, ts, -, h | ⟨s₃, -, h⟩⟩⟩
  · cases h
  · exact False.elim (many_ne_mismatch h)
  · unfold expect at h
    split at h
    · cases h
    · cases h
      rfl
  · cases h

/-! ## First operands -/

def SmallNumeral (s : Text) : Prop :=
  ∃ w rest, NumeralAt w s rest ∧ (Decimal.value w : Int) ≤ greatestNumber

theorem operand_of_letter (rule : Rule Stmt) (h : ahead Char.isAlpha s = true) :
    ∃ answer, operand rule s = .ok answer := by
  cases s with
  | nil => cases h
  | cons c s =>
      obtain ⟨e, none⟩ := number_mismatch (s := c :: s) (not_isDigit_of_isAlpha h)
      obtain ⟨text, inside, outside⟩ := span_eq_iff.mp (rfl : span Char.isAlphanum s = _)
      have name : NameAt (c :: s.takeWhile Char.isAlphanum) (c :: s) _ :=
        ⟨congrArg (c :: ·) text, isName_cons.mpr ⟨h, inside⟩, outside⟩
      have found := usage_eq_ok_iff.mpr ⟨_, name, rfl⟩
      exact ⟨_, (orElse_of_mismatch none).trans (orElse_of_ok found)⟩

theorem operand_of_smallNumeral (rule : Rule Stmt) (runs : ShortRuns s) (h : SmallNumeral s) :
    ∃ answer, operand rule s = .ok answer := by
  obtain ⟨w, rest, numeral, small⟩ := h
  have short := runs w ⟨[], rest, numeral.text.symm⟩ numeral.valid
  exact ⟨_, orElse_of_ok (number_eq_ok_iff.mpr ⟨w, numeral, short, small, rfl⟩)⟩

theorem number_yields (runs : ShortRuns s) : Yields (number s) := by
  have fails := number_fails (openings s + 1)
  exact fails.yields runs fun deep => Nat.not_succ_le_self _ (fails s _ deep)

theorem operand_of_other (rule : Rule Stmt) (runs : ShortRuns s)
    (letter : ahead Char.isAlpha s = false) (numeral : ¬ SmallNumeral s)
    (brace : ahead (· == '{') s = false) :
    operand rule s = .error (.mismatch (.expected ['{'])) := by
  refine operand_mismatch rule ?_ letter brace
  rcases (number_yields runs).cases with ⟨⟨rest, n⟩, found⟩ | mismatch
  · obtain ⟨w, hw, -, small, -⟩ := number_eq_ok_iff.mp found
    exact False.elim (numeral ⟨w, rest, hw, small⟩)
  · exact mismatch

/-! ## Statements by their first operands -/

/-- Where an operand can be read a statement is, be it the operand alone. -/
theorem stmtAbove_of_operand (yields : Yields (stmtAbove rule s)) {answer : Text × Expr}
    (h : operand rule s = .ok answer) : ∃ answer, stmtAbove rule s = .ok answer := by
  have bare : Yields (exprStmt rule s) → ∃ answer, exprStmt rule s = .ok answer := by
    intro yields
    have whole : Yields (expr rule s) := by
      intro failure refused
      refine yields failure ?_
      rw [exprStmt_eq, refused]
      rfl
    obtain ⟨⟨rest, e⟩, found⟩ := whole.orElse_ok fun _ => ⟨answer, h⟩
    exact ⟨_, exprStmt_eq_ok_iff.mpr ⟨e, found, rfl⟩⟩
  exact yields.orElse_ok fun yields => yields.orElse_ok bare

section
variable (runs : ShortRuns s) (level : stmt limit s ≠ .error .tooDeep)
include runs level

theorem stmt_of_operand (readable : ∀ rule, ∃ answer, operand rule s = .ok answer) :
    ∃ answer, stmt limit s = .ok answer := by
  have yields := (stmt_fails limit).yields runs level
  cases limit with
  | zero => exact False.elim (level rfl)
  | succ limit =>
      obtain ⟨answer, found⟩ := readable (stmt limit)
      exact stmtAbove_of_operand yields found

theorem stmt_of_other (letter : ahead Char.isAlpha s = false) (numeral : ¬ SmallNumeral s)
    (brace : ahead (· == '{') s = false) :
    stmt limit s = .error (.mismatch (.expected ['{'])) := by
  cases limit with
  | zero => exact False.elim (level rfl)
  | succ limit =>
      exact stmtAbove_of_failure letter (operand_of_other _ runs letter numeral brace)

/-- A statement that begins with a brace is read where its block is, and otherwise fails for the
brace that is missing behind. -/
theorem stmt_of_brace (brace : ahead (· == '{') s = true) :
    (∃ answer answer', stmt limit s = .ok answer ∧ block (stmt limit) s = .ok answer') ∨
      (stmt limit s = .error (.mismatch (.expected ['}'])) ∧
        block (stmt limit) s = .error (.mismatch (.expected ['}']))) := by
  have yields := (stmt_fails limit).yields runs level
  obtain ⟨s, rfl⟩ : ∃ s', s = '{' :: s' := by
    cases s with
    | nil => cases brace
    | cons c s => exact ⟨s, congrArg (· :: s) (beq_iff_eq.mp brace)⟩
  cases limit with
  | zero => exact False.elim (level rfl)
  | succ limit =>
      have first := operand_of_brace (stmt limit) s
      have refused : ∀ {failure}, block (stmt limit) ('{' :: s) = .error failure →
          stmt (limit + 1) ('{' :: s) = .error failure :=
        fun h => stmtAbove_of_failure rfl (first.trans h)
      rcases (stmt_restricts (Nat.le_succ limit)).block ('{' :: s) with deep | same
      · exact False.elim (level (refused deep))
      · rw [← same]
        cases h : block (stmt limit) ('{' :: s) with
        | ok answer' =>
            obtain ⟨answer, found⟩ := stmtAbove_of_operand yields (first.trans h)
            exact .inl ⟨answer, answer', found, rfl⟩
        | error failure =>
            obtain ⟨e, rfl⟩ := yields failure (refused h)
            obtain rfl := block_error h
            exact .inr ⟨refused h, rfl⟩

theorem stmt_error {failure : Failure} (h : stmt limit s = .error failure) :
    failure = .mismatch (.expected ['{']) ∨ failure = .mismatch (.expected ['}']) := by
  have unread : ∀ {answer}, stmt limit s ≠ .ok answer := by
    intro answer found
    cases h.symm.trans found
  cases brace : ahead (· == '{') s with
  | true =>
      rcases stmt_of_brace runs level brace with ⟨_, _, found, -⟩ | ⟨refused, -⟩
      · exact False.elim (unread found)
      · exact .inr (Except.error.inj (h.symm.trans refused))
  | false =>
      cases letter : ahead Char.isAlpha s with
      | true =>
          obtain ⟨_, found⟩ := stmt_of_operand runs level fun rule => operand_of_letter rule letter
          exact False.elim (unread found)
      | false =>
          by_cases numeral : SmallNumeral s
          · obtain ⟨_, found⟩ := stmt_of_operand runs level fun rule =>
              operand_of_smallNumeral rule runs numeral
            exact False.elim (unread found)
          · have refused := stmt_of_other runs level letter numeral brace
            exact .inl (Except.error.inj (h.symm.trans refused))

end

/-- A text that is not one statement is refused for a brace that is missing, in front or behind, or
else for what the statement that it begins with leaves over. -/
theorem parseWithin_error (runs : ShortRuns s) (level : stmt limit s ≠ .error .tooDeep)
    {failure : Failure} (h : parseWithin limit s = .error failure) :
    failure = .mismatch (.expected ['{']) ∨ failure = .mismatch (.expected ['}']) ∨
      (failure = .mismatch .leftover ∧ ∃ rest t, stmt limit s = .ok (rest, t) ∧ rest ≠ []) := by
  unfold parseWithin at h
  split at h
  · cases h
  · next c rest t found =>
      cases h
      exact .inr (.inr ⟨rfl, c :: rest, t, found, List.cons_ne_nil c rest⟩)
  · next deep => exact False.elim (level deep)
  · next failure' _ refused =>
      cases h
      rcases stmt_error runs level refused with front | behind
      · exact .inl front
      · exact .inr (.inl behind)

theorem parseWithin_leftover {t : Stmt} (h : stmt limit s = .ok (rest, t)) (left : rest ≠ []) :
    parseWithin limit s = .error (.mismatch .leftover) := by
  obtain ⟨c, rest, rfl⟩ := List.exists_cons_of_ne_nil left
  rw [parseWithin, h]

/-- How a statement ends is settled by what its text begins with, and there are three messages: a
brace is missing in front, or behind a block, or the text goes on behind its statement. -/
theorem stmt_verdicts (runs : ShortRuns s) (level : stmt limit s ≠ .error .tooDeep) :
    (ahead Char.isAlpha s = true ∨ SmallNumeral s → ∃ answer, stmt limit s = .ok answer) ∧
    (ahead (· == '{') s = true →
      ((∃ answer, stmt limit s = .ok answer) ↔ ∃ answer, block (stmt limit) s = .ok answer) ∧
      ((¬ ∃ answer, stmt limit s = .ok answer) →
        stmt limit s = .error (.mismatch (.expected ['}'])))) ∧
    (ahead Char.isAlpha s = false → ¬ SmallNumeral s → ahead (· == '{') s = false →
      stmt limit s = .error (.mismatch (.expected ['{']))) ∧
    (∀ failure, parseWithin limit s = .error failure → ∃ e, failure = .mismatch e ∧
      (e, e.message.text) ∈ [(.expected ['{'], "expected \x7b".toList),
        (.expected ['}'], "expected \x7d".toList),
        (.leftover, "input was not consumed fully by parser".toList)]) ∧
    (parseWithin limit s = .error (.mismatch .leftover) ↔
      ∃ rest t, stmt limit s = .ok (rest, t) ∧ rest ≠ []) := by
  refine ⟨?_, ?_, stmt_of_other runs level, ?_, ?_, ?_⟩
  · rintro (letter | numeral)
    · exact stmt_of_operand runs level fun rule => operand_of_letter rule letter
    · exact stmt_of_operand runs level fun rule => operand_of_smallNumeral rule runs numeral
  · intro brace
    rcases stmt_of_brace runs level brace with ⟨_, _, found, found'⟩ | ⟨refused, refused'⟩
    · exact ⟨⟨fun _ => ⟨_, found'⟩, fun _ => ⟨_, found⟩⟩, fun none => False.elim (none ⟨_, found⟩)⟩
    · simp only [refused, refused', reduceCtorEq, exists_false, not_false_eq_true, implies_true,
        and_self]
  · intro failure h
    rcases parseWithin_error runs level h with rfl | rfl | ⟨rfl, -⟩
    · exact ⟨_, rfl, List.mem_cons_self⟩
    · exact ⟨_, rfl, List.mem_cons_of_mem _ List.mem_cons_self⟩
    · exact ⟨_, rfl, List.mem_cons_of_mem _ (List.mem_cons_of_mem _ List.mem_cons_self)⟩
  · intro h
    rcases parseWithin_error runs level h with other | other | ⟨-, left⟩
    · cases other
    · cases other
    · exact left
  · rintro ⟨rest, t, found, left⟩
    exact parseWithin_leftover found left

/-- A numeral that does not fit is as good as no operand, in a block as well, where the brace behind
is missed then; and the word of a definition that does not go on leaves the numeral over. -/
theorem stmt_verdicts_literals :
    stmt nestingLimit "2147483648 + 1".toList = .error (.mismatch (.expected ['{'])) ∧
      stmt nestingLimit "\x7b1 + 2147483648\x7d".toList = .error (.mismatch (.expected ['}'])) ∧
      parse "let 2147483648".toList = .error (.mismatch .leftover) := by
  refine ⟨?_, ?_, ?_⟩
  · have level : openings "2147483648 + 1".toList < nestingLimit := by decide
    have verdicts := stmt_verdicts (shortRuns_of_length_le (by decide)) (stmt_ne_tooDeep level)
    refine verdicts.2.2.1 rfl ?_ rfl
    rintro ⟨w, rest, numeral, small⟩
    have run : digits "2147483648 + 1".toList = .ok (" + 1".toList, "2147483648".toList) := by
      decide +kernel
    cases run.symm.trans (digits_eq_ok_iff.mpr numeral)
    exact absurd small (by decide +kernel)
  · have level : openings "\x7b1 + 2147483648\x7d".toList < nestingLimit := by decide
    have verdicts := stmt_verdicts (shortRuns_of_length_le (by decide)) (stmt_ne_tooDeep level)
    refine (verdicts.2.1 rfl).2 fun read => ?_
    obtain ⟨answer, found⟩ := (verdicts.2.1 rfl).1.mp read
    have refused : block (stmt nestingLimit) "\x7b1 + 2147483648\x7d".toList =
        .error (.mismatch (.expected ['}'])) := by decide +kernel
    cases refused.symm.trans found
  · have level : openings "let 2147483648".toList < nestingLimit := by decide
    have verdicts := stmt_verdicts (shortRuns_of_length_le (by decide)) (stmt_ne_tooDeep level)
    have word : stmt nestingLimit "let 2147483648".toList =
        .ok (" 2147483648".toList, .expr (.usage ['l', 'e', 't'])) := by decide +kernel
    exact verdicts.2.2.2.2.mpr ⟨_, _, word, nofun⟩

end BlockCalc.Grammar
