import BlockCalc.Proofs.Grammar.Verdicts
/-! Progress. The loop of a repetition has no measure of its own: it goes on for as long as its rule
reads items, and it ends because no rule of the grammar reads an item without taking something off
the text. For statements that is a fact about the loop too, since a block is read by a loop over
the statements in it. -/
namespace BlockCalc.Grammar
variable {α : Type} {rule : Rule α} {limit : Nat} {s rest : Text} {items : List α}

/-! ## Rules -/

/-- Whatever the rule reads, what it leaves is a proper suffix of the text. -/
def Advances (rule : Rule α) : Prop :=
  ∀ s rest item, rule s = .ok (rest, item) → rest <:+ s ∧ rest ≠ s

theorem Advances.length_lt (advances : Advances rule) {item : α}
    (found : rule s = .ok (rest, item)) : rest.length < s.length := by
  obtain ⟨suffix, proper⟩ := advances _ _ _ found
  exact Nat.lt_of_le_of_ne suffix.length_le fun same => proper (suffix.eq_of_length same)

theorem proper_of_length_lt (suffix : rest <:+ s) (shorter : rest.length < s.length) :
    rest <:+ s ∧ rest ≠ s :=
  ⟨suffix, fun same => Nat.lt_irrefl s.length (same ▸ shorter)⟩

theorem identifier_advances : Advances identifier := by
  intro s rest name found
  have name := identifier_eq_ok_iff.mp found
  exact proper_of_length_lt name.suffix name.length_lt

theorem operator_advances : Advances operator := by
  intro s rest op found
  obtain rfl := operator_eq_ok_iff.mp found
  refine proper_of_length_lt (List.suffix_append _ _) ?_
  cases op <;> exact Nat.lt_succ_self _

/-- A rule advances if what it reads is derived as a phrase, other than a list of statements. -/
theorem advances_of_derives {phrase : α → Phrase}
    (derives : ∀ {s rest item}, rule s = .ok (rest, item) → Derives .short (phrase item) s rest)
    (single : ∀ item ts, phrase item ≠ .stmts ts) : Advances rule := by
  intro s rest item found
  have derived := derives found
  have shorter := derived.advances
  refine proper_of_length_lt derived.suffix ?_
  cases kind : phrase item with
  | stmts ts => exact False.elim (single item ts kind)
  | _ => rwa [kind] at shorter

theorem stmt_advances (limit : Nat) : Advances (stmt limit) :=
  advances_of_derives (fun found => ((stmt_reads limit).derives found).1) nofun

/-- With statements of any depth in one another, every rule of the grammar advances. -/
theorem rules_advance (limit : Nat) :
    Advances number ∧ Advances operator ∧ Advances (operation (stmt limit)) ∧ Advances usage ∧
      Advances (block (stmt limit)) ∧ Advances (binding (stmt limit)) ∧
      Advances (function (stmt limit)) ∧ Advances (exprStmt (stmt limit)) ∧
      Advances (stmt limit) ∧ Advances (expr (stmt limit)) ∧ Advances identifier := by
  have reads := stmt_reads limit
  refine ⟨?_, operator_advances, ?_, ?_, ?_, ?_, ?_, ?_, stmt_advances limit, ?_,
    identifier_advances⟩
  · exact advances_of_derives (fun found => (number_derives limit found).1) nofun
  · exact advances_of_derives (fun found => (reads.operation found).1) nofun
  · exact advances_of_derives (fun found => (usage_derives limit found).1) nofun
  · exact advances_of_derives (fun found => (reads.block found).1) nofun
  · exact advances_of_derives (fun found => (reads.binding found).1) nofun
  · exact advances_of_derives (fun found => (reads.function found).1) nofun
  · exact advances_of_derives (fun found => (reads.exprStmt found).1) nofun
  · exact advances_of_derives (fun found => (reads.expr found).1) nofun

/-! ## Loops -/

/-- The loop of a repetition, begun before `s` with no items, has come to `rest` with `items`. Each
turn reads one item more and skips the blank characters behind it; nothing else bounds it. -/
inductive Turns (rule : Rule α) (s : Text) : Text → List α → Prop
  | start : Turns rule s s []
  | turn {rest rest' item items} : Turns rule s rest items → rule rest = .ok (rest', item) →
      Turns rule s (Text.trimStart rest') (items ++ [item])

/-- What holds of a loop at every turn: the items were paid for by characters. -/
structure Underway (s rest : Text) (items : List α) : Prop where
  suffix : rest <:+ s
  paid : items.length + rest.length ≤ s.length
  ink : items ≠ [] → ahead isBlank rest = false

theorem Underway.start (s : Text) : Underway s s ([] : List α) :=
  ⟨List.suffix_rfl, Nat.le_of_eq (Nat.zero_add _), fun nonempty => False.elim (nonempty rfl)⟩

theorem Underway.turn (h : Underway s rest items) (advances : Advances rule) {rest' : Text}
    {item : α} (found : rule rest = .ok (rest', item)) :
    Underway s (Text.trimStart rest') (items ++ [item]) := by
  have gap := (blanks_trimStart rest').suffix
  refine ⟨gap.trans ((advances _ _ _ found).1.trans h.suffix), ?_, fun _ => ahead_trimStart rest'⟩
  have shorter := advances.length_lt found
  have skipped := gap.length_le
  have paid := h.paid
  simp only [List.length_append, List.length_singleton]
  omega

theorem Turns.underway (h : Turns rule s rest items) (advances : Advances rule) :
    Underway s rest items := by
  induction h with
  | start => exact .start s
  | turn _ found ih => exact ih.turn advances found

/-- The loop comes to its end before `rest`, where the rule fails; and no run of it, as far as it
may have come, has read more items than the text has characters. -/
structure Stops (rule : Rule α) (s rest : Text) (items : List α) (failure : Failure) : Prop
    extends Underway s rest items where
  run : Turns rule s rest items
  stop : rule rest = .error failure
  bound : ∀ {rest' items'}, Turns rule s rest' items' → items'.length ≤ s.length

theorem Turns.stops (h : Turns rule s rest items) (advances : Advances rule) {failure : Failure}
    (stop : rule rest = .error failure) : Stops rule s rest items failure := by
  refine ⟨h.underway advances, h, stop, ?_⟩
  intro rest' items' run
  exact Nat.le_trans (Nat.le_add_right _ _) (run.underway advances).paid

/-- The loop ends at a mismatch, and the repetition gives back what it has read and left. -/
def Settles (rule : Rule α) (s : Text) : Prop :=
  ∃ rest items e, many rule s = .ok (rest, items) ∧ Stops rule s rest items (.mismatch e)

/-- A repetition that answers has gone through its loop, wherever the loop was begun. -/
theorem turns_of_many_ok (advances : Advances rule) (h : many rule s = .ok (rest, items)) :
    (∃ e, rule rest = .error (.mismatch e)) ∧
      ∀ {s₀ before}, Turns rule s₀ s before → Turns rule s₀ rest (before ++ items) := by
  -- the repetition puts an item in front of the later ones, the loop behind the earlier ones
  refine many_ok_induction (P := fun items s rest => (∃ e, rule rest = .error (.mismatch e)) ∧
    ∀ {s₀ before}, Turns rule s₀ s before → Turns rule s₀ rest (before ++ items)) ?_ ?_ ?_ h
  · exact fun found => advances.length_lt found
  · intro s e mismatch
    refine ⟨⟨e, mismatch⟩, fun run => ?_⟩
    rwa [List.append_nil]
  · intro s s₁ rest item items found ⟨stop, later⟩
    refine ⟨stop, fun run => ?_⟩
    rw [List.append_cons]
    exact later (run.turn found)

/-- A repetition that fails has gone through its loop up to where the rule fails. -/
theorem turns_of_many_error {failure : Failure} (h : many rule s = .error failure) :
    ∀ {s₀ before}, Turns rule s₀ s before →
      ∃ rest items, Turns rule s₀ rest items ∧ rule rest = .error failure := by
  refine many_error_induction (P := fun s => ∀ {s₀ before}, Turns rule s₀ s before →
    ∃ rest items, Turns rule s₀ rest items ∧ rule rest = .error failure) ?_ ?_ h
  · exact fun s stop _ s₀ before run => ⟨s, before, run, stop⟩
  · exact fun found later s₀ before run => later (run.turn found)

/-- The loop of a rule that advances ends on every text, and its end is that of the repetition. -/
theorem Advances.settles_or_fails (advances : Advances rule) (s : Text) :
    Settles rule s ∨ ∃ failure, many rule s = .error failure ∧
      ∃ rest items, Stops rule s rest items failure := by
  cases h : many rule s with
  | ok answer =>
      obtain ⟨rest, items⟩ := answer
      obtain ⟨⟨e, stop⟩, run⟩ := turns_of_many_ok advances h
      exact .inl ⟨rest, items, e, h, (run .start).stops advances stop⟩
  | error failure =>
      obtain ⟨rest, items, run, stop⟩ := turns_of_many_error h .start
      exact .inr ⟨failure, rfl, rest, items, run.stops advances stop⟩

/-- A repetition of names has no other failure to hand on, so its loop always ends as it should. -/
theorem identifier_settles (s : Text) : Settles identifier s := by
  rcases identifier_advances.settles_or_fails s with settles | ⟨failure, refused, -⟩
  · exact settles
  · obtain ⟨e, rfl⟩ := many_identifier_yields s failure refused
    exact False.elim (many_ne_mismatch refused)

/-- What a repetition of statements hands on, if no numeral is too long, is that levels ran out. -/
theorem many_stmt_tooDeep {failure : Failure} (h : many (stmt limit) s = .error failure)
    (runs : ShortRuns s) : failure = .tooDeep ∧ limit ≤ openings s := by
  have cause := many_fails (stmt_reads limit) (stmt_fails limit) s failure h
  cases failure with
  | mismatch e => exact False.elim (many_ne_mismatch h)
  | literalTooLong digits => exact False.elim (cause.not_shortRuns runs)
  | tooDeep => exact ⟨rfl, cause⟩

/-- As many open braces as there are levels use all of them up. -/
theorem stmt_of_open_braces {limit n : Nat} (h : limit ≤ n) :
    stmt limit (List.replicate n '{') = .error .tooDeep := by
  induction limit generalizing n with
  | zero => rfl
  | succ limit ih =>
      cases n with
      | zero => exact absurd h (Nat.not_succ_le_zero limit)
      | succ n =>
          have ink : ahead isBlank (List.replicate n '{') = false := by cases n <;> rfl
          have deep := many_of_tooDeep (ih (Nat.le_of_succ_le_succ h))
          rw [← trimStart_eq_self ink] at deep
          have first : block (stmt limit) ('{' :: List.replicate n '{') = .error .tooDeep := by
            simp only [block, bind_eq_error_iff, expect_eq_ok_iff, Prod.exists]
            exact .inr ⟨_, rfl, .inl deep⟩
          exact stmtAbove_of_failure rfl ((operand_of_brace _ _).trans first)

/-- Every rule takes something off the texts on which it succeeds, so a repetition ends, with no
more items than characters, unless a statement in it fails in a way that is handed on. -/
theorem repetitions_end (limit : Nat) :
    (Advances number ∧ Advances operator ∧ Advances (operation (stmt limit)) ∧ Advances usage ∧
      Advances (block (stmt limit)) ∧ Advances (binding (stmt limit)) ∧
      Advances (function (stmt limit)) ∧ Advances (exprStmt (stmt limit)) ∧
      Advances (stmt limit) ∧ Advances (expr (stmt limit)) ∧ Advances identifier) ∧
    (∀ s, Settles identifier s) ∧
    ∀ s, Settles (stmt limit) s ∨
      ∃ failure, (∀ e, failure ≠ .mismatch e) ∧ many (stmt limit) s = .error failure ∧
        (∃ rest items, Stops (stmt limit) s rest items failure) ∧
        (ShortRuns s → failure = .tooDeep ∧ limit ≤ openings s) := by
  refine ⟨rules_advance limit, identifier_settles, fun s => ?_⟩
  rcases (stmt_advances limit).settles_or_fails s with settles | ⟨failure, refused, stops⟩
  · exact .inl settles
  · refine .inr ⟨failure, ?_, refused, stops, many_stmt_tooDeep refused⟩
    rintro e rfl
    exact many_ne_mismatch refused

/-- With levels enough the loop ends at the brace that nothing opens; with one level it ends behind
the name, as the block after it holds a statement. -/
theorem repetitions_end_before_brace :
    ShortRuns "z \x7b1\x7d \x7d".toList ∧ Settles (stmt nestingLimit) "z \x7b1\x7d \x7d".toList ∧
      ∃ rest items, Stops (stmt 1) "z \x7b1\x7d \x7d".toList rest items .tooDeep := by
  have runs : ShortRuns "z \x7b1\x7d \x7d".toList := shortRuns_of_length_le (by decide)
  refine ⟨runs, ?_, ?_⟩
  · rcases (repetitions_end nestingLimit).2.2 "z \x7b1\x7d \x7d".toList with
      settles | ⟨failure, -, -, -, deep⟩
    · exact settles
    · exact absurd (deep runs).2 (by decide)
  · rcases (repetitions_end 1).2.2 "z \x7b1\x7d \x7d".toList with
      ⟨rest, items, e, answer, -⟩ | ⟨failure, -, -, stops, deep⟩
    · have refused : many (stmt 1) "z \x7b1\x7d \x7d".toList = .error .tooDeep := by decide +kernel
      cases refused.symm.trans answer
    · obtain ⟨rfl, -⟩ := deep runs
      exact stops

/-- The braces are never closed, so there is no statement to be read; but the levels run out before
any rule mismatches, and the loop does not answer. -/
theorem open_braces_unsettled : ¬ Settles (stmt nestingLimit) (List.replicate 1500 '{') := by
  rintro ⟨rest, items, e, answer, -⟩
  have deep : stmt nestingLimit (List.replicate 1500 '{') = .error .tooDeep :=
    stmt_of_open_braces (by decide)
  cases (many_of_tooDeep deep).symm.trans answer

end BlockCalc.Grammar
