import BlockCalc.Proofs.Grammar.Soundness
/-! Why a reading stops. Besides a mismatch there are two reasons, and both leave a trace in the
text: a literal that is too long is a run of digits of it, and too few levels mean that as many
characters open a level. A text without such traces is read or mismatches. -/
namespace BlockCalc.Grammar

/-- How many characters of a text can open a level of statements: braces, and ends of arrows. -/
def openings (s : Text) : Nat := s.countP fun c => c == '{' || c == '>'

/-- No run of digits is too long to be read. -/
def ShortRuns (s : Text) : Prop :=
  ∀ w, w <:+: s → (∀ c ∈ w, c.isDigit = true) → w.length ≤ literalLimit

theorem ShortRuns.of_infix {s s' : Text} (h : ShortRuns s) (inside : s' <:+: s) : ShortRuns s' :=
  fun w hw => h w (hw.trans inside)

theorem shortRuns_of_length_le {s : Text} (h : s.length ≤ literalLimit) : ShortRuns s :=
  fun _ hw _ => Nat.le_trans hw.length_le h

/-- A numeral of `digits` digits somewhere in a text, and too many to be read. -/
def LongNumeral (digits : Nat) (s : Text) : Prop :=
  literalLimit < digits ∧ ∃ w s' rest, s' <:+ s ∧ NumeralAt w s' rest ∧ w.length = digits

theorem LongNumeral.not_shortRuns {digits : Nat} {s : Text} (h : LongNumeral digits s) :
    ¬ ShortRuns s := by
  intro runs
  obtain ⟨long, w, s', rest, suffix, hw, rfl⟩ := h
  have run : w <:+: s' := ⟨[], rest, hw.text.symm⟩
  exact Nat.not_lt.mpr (runs w (run.trans suffix.isInfix) hw.valid) long

/-- The trace that a failure of a reader with `limit` levels has in the text. -/
def Cause (limit : Nat) (s : Text) : Failure → Prop
  | .mismatch _ => True
  | .literalTooLong digits => LongNumeral digits s
  | .tooDeep => limit ≤ openings s

section
variable {limit : Nat} {s s' : Text} {failure : Failure}

theorem openings_brace (s : Text) : openings ('{' :: s) = openings s + 1 :=
  List.countP_cons_of_pos rfl

theorem openings_arrow (s : Text) : openings ('=' :: '>' :: s) = openings s + 1 := by
  rw [openings, List.countP_cons_of_neg (by decide), List.countP_cons_of_pos rfl, openings]

theorem openings_le (h : s' <:+ s) : openings s' ≤ openings s := h.sublist.countP_le

theorem Cause.of_suffix (h : Cause limit s' failure) (suffix : s' <:+ s) :
    Cause limit s failure := by
  cases failure with
  | mismatch e => exact h
  | literalTooLong n =>
      obtain ⟨long, w, s₁, rest, inside, hw, same⟩ := h
      exact ⟨long, w, s₁, rest, inside.trans suffix, hw, same⟩
  | tooDeep => exact Nat.le_trans h (openings_le suffix)

/-- Behind a character that opens a level, one level less is at hand. -/
theorem Cause.opened (h : Cause limit s' failure) (suffix : s' <:+ s)
    (more : openings s' < openings s) : Cause (limit + 1) s failure := by
  cases failure with
  | mismatch e => exact h
  | literalTooLong n => exact h.of_suffix suffix
  | tooDeep => exact Nat.le_trans (Nat.succ_le_succ h) more

theorem Yields.cause {α : Type} {answer : Except Failure α} (h : Yields answer)
    (found : answer = .error failure) : Cause limit s failure := by
  obtain ⟨e, rfl⟩ := h failure found
  exact True.intro

end

/-- A rule fails with `limit` levels only for the reasons that are named. -/
def FailsFor {α : Type} (limit : Nat) (rule : Rule α) : Prop :=
  ∀ s failure, rule s = .error failure → Cause limit s failure

theorem number_fails (limit : Nat) : FailsFor limit number := by
  intro s failure h
  simp only [number, bind_eq_error_iff, Prod.exists, digits_eq_ok_iff] at h
  rcases h with h | ⟨rest, w, hw, h⟩
  · exact someOf_yields.cause h
  · split at h
    · next long =>
        cases h
        exact ⟨long, w, s, rest, List.suffix_rfl, hw, rfl⟩
    · split at h
      · cases h
      · cases h
        exact True.intro

theorem usage_fails (limit : Nat) : FailsFor limit usage := by
  intro s failure h
  exact (Yields.bind (identifier_yields s) fun _ => .ok _).cause h

section
variable {limit : Nat} {rule : Rule Stmt}

theorem many_fails (reads : ReadsTo limit rule) (fails : FailsFor limit rule) :
    FailsFor limit (many rule) := by
  intro s failure h
  refine many_error_induction (P := fun s => Cause limit s failure) ?_ ?_ h
  · exact fun s here _ => fails s failure here
  · intro s s₁ t found later
    have suffix := (reads.derives found).1.suffix
    exact later.of_suffix ((blanks_trimStart s₁).suffix.trans suffix)

theorem block_fails (reads : ReadsTo limit rule) (fails : FailsFor limit rule) :
    FailsFor (limit + 1) (block rule) := by
  intro s failure h
  simp only [block, bind_eq_error_iff, Prod.exists, expect_eq_ok_iff] at h
  rcases h with h | ⟨s₁, rfl, h | ⟨s₂, ts, -, h | ⟨s₃, -, h⟩⟩⟩
  · exact (expect_yields _ _).cause h
  · have inner := many_fails reads fails _ failure h
    have suffix := (blanks_trimStart s₁).suffix
    have more := openings_brace s₁
    have less := openings_le suffix
    refine inner.opened (suffix.trans (List.suffix_cons '{' s₁)) ?_
    exact Nat.lt_of_le_of_lt less (more ▸ Nat.lt_succ_self _)
  · exact (expect_yields _ _).cause h
  · cases h

theorem operand_fails (reads : ReadsTo limit rule) (fails : FailsFor limit rule) :
    FailsFor (limit + 1) (operand rule) := by
  intro s failure h
  rcases orElse_eq_error h with h | h
  · exact number_fails _ s failure h
  · rcases orElse_eq_error h with h | h
    · exact usage_fails _ s failure h
    · exact block_fails reads fails s failure h

theorem operation_fails (reads : ReadsTo limit rule) (fails : FailsFor limit rule) :
    FailsFor (limit + 1) (operation rule) := by
  intro s failure h
  simp only [operation, bind_eq_error_iff, Prod.exists, operator_eq_ok_iff] at h
  rcases h with h | ⟨s₁, lhs, hl, h | ⟨s₂, op, sign, h | ⟨s₃, rhs, -, h⟩⟩⟩
  · exact operand_fails reads fails s failure h
  · exact (operator_yields _).cause h
  · have suffix : Text.trimStart s₂ <:+ s := by
      have gap := (blanks_trimStart s₁).suffix
      rw [sign] at gap
      exact (blanks_trimStart s₂).suffix.trans ((List.suffix_append _ _).trans
        (gap.trans (reads.operand hl).1.suffix))
    exact (operand_fails reads fails _ failure h).of_suffix suffix
  · cases h

theorem expr_fails (reads : ReadsTo limit rule) (fails : FailsFor limit rule) :
    FailsFor (limit + 1) (expr rule) := by
  intro s failure h
  rcases orElse_eq_error h with h | h
  · exact operation_fails reads fails s failure h
  · exact operand_fails reads fails s failure h

theorem binding_fails (reads : ReadsTo limit rule) (fails : FailsFor limit rule) :
    FailsFor (limit + 1) (binding rule) := by
  intro s failure h
  simp only [binding_eq, bind_eq_error_iff, Prod.exists, bindingHead_eq_ok_iff] at h
  rcases h with h | ⟨s₁, name, ⟨head, -⟩, h | ⟨s₂, v, -, h⟩⟩
  · exact (bindingHead_yields s).cause h
  · exact (expr_fails reads fails s₁ failure h).of_suffix head.suffix
  · cases h

theorem FunctionHead.openings_lt {name s rest : Text} {params : List Text}
    (h : FunctionHead name params s rest) : openings rest < openings s := by
  obtain ⟨hs, hn, hb, hp, hr⟩ := h
  have arrow := hp.suffix.trans (hb.suffix.trans (hn.suffix.trans hs.blanks.suffix))
  have whole := openings_le (arrow.trans (List.suffix_append ['f', 'n'] _))
  rw [openings_arrow] at whole
  exact Nat.lt_of_le_of_lt (openings_le hr.suffix) whole

theorem function_fails (fails : FailsFor limit rule) :
    FailsFor (limit + 1) (function rule) := by
  intro s failure h
  simp only [function_eq, bind_eq_error_iff, Prod.exists, functionHead_eq_ok_iff] at h
  rcases h with h | ⟨s₁, name, params, ⟨head, -⟩, h | ⟨s₂, body, -, h⟩⟩
  · exact (functionHead_yields s).cause h
  · exact (fails s₁ failure h).opened head.suffix head.openings_lt
  · cases h

theorem stmtAbove_fails (reads : ReadsTo limit rule) (fails : FailsFor limit rule) :
    FailsFor (limit + 1) (stmtAbove rule) := by
  intro s failure h
  rcases orElse_eq_error h with h | h
  · exact binding_fails reads fails s failure h
  · rcases orElse_eq_error h with h | h
    · exact function_fails fails s failure h
    · rcases bind_eq_error_iff.mp h with h | ⟨_, -, h⟩
      · exact expr_fails reads fails s failure h
      · cases h

end

theorem stmt_fails (limit : Nat) : FailsFor limit (stmt limit) := by
  induction limit with
  | zero =>
      intro s failure h
      cases h
      exact Nat.zero_le _
  | succ limit ih => exact stmtAbove_fails (stmt_reads limit) ih

/-- A text with fewer openings than the reader has levels is never cut short. -/
theorem stmt_ne_tooDeep {limit : Nat} {s : Text} (h : openings s < limit) :
    stmt limit s ≠ .error .tooDeep := by
  intro deep
  exact Nat.not_le.mpr h (stmt_fails limit s _ deep)

/-- A text is read or refused with a message, unless reading comes to a numeral that is too long. -/
theorem parseWithin_fails {limit : Nat} {s : Text} {failure : Failure}
    (h : parseWithin limit s = .error failure) :
    (∃ e, failure = .mismatch e) ∨
      ∃ digits, failure = .literalTooLong digits ∧ LongNumeral digits s := by
  unfold parseWithin at h
  cases hs : stmt limit s with
  | ok answer =>
      obtain ⟨rest, t⟩ := answer
      rw [hs] at h
      cases rest with
      | nil => cases h
      | cons c rest =>
          cases h
          exact .inl ⟨_, rfl⟩
  | error failure' =>
      rw [hs] at h
      cases failure' with
      | mismatch e =>
          cases h
          exact .inl ⟨_, rfl⟩
      | literalTooLong digits =>
          cases h
          exact .inr ⟨digits, rfl, stmt_fails limit s _ hs⟩
      | tooDeep =>
          cases h
          exact .inl ⟨_, rfl⟩

theorem parseWithin_yields {s : Text} (runs : ShortRuns s) (limit : Nat) :
    Yields (parseWithin limit s) := by
  intro failure h
  rcases parseWithin_fails h with mismatch | ⟨digits, -, numeral⟩
  · exact mismatch
  · exact False.elim (numeral.not_shortRuns runs)

end BlockCalc.Grammar
