import BlockCalc.Proofs.Grammar.Soundness
/-! Canonical derivations are read as they are. In a canonical derivation an expression stands as a
statement only where no definition begins, which is what the order of the alternatives asks for;
what follows the phrase must not prolong it. Then the reader finds this derivation and no other,
and it needs exactly the levels that the tree has. -/
namespace BlockCalc.Grammar

/-- A text that ends statements: their block is closed, or nothing is left. -/
def Closes : Text → Prop
  | [] => True
  | c :: _ => c = '}'

/-! ## Mismatches -/

section
variable {s rest : Text} {stmt : Rule Stmt}

theorem digits_mismatch (h : ahead Char.isDigit s = false) :
    ∃ e, digits s = .error (.mismatch e) := by
  rcases (someOf_yields : Yields (digits s)).cases with ⟨⟨rest, w⟩, found⟩ | mismatch
  · obtain ⟨rfl, nonempty, valid, -⟩ := digits_eq_ok_iff.mp found
    cases w with
    | nil => exact False.elim (nonempty rfl)
    | cons c w =>
        have first := valid c List.mem_cons_self
        simp only [List.cons_append, ahead_cons] at h
        rw [h] at first
        cases first
  · exact mismatch

theorem number_mismatch (h : ahead Char.isDigit s = false) :
    ∃ e, number s = .error (.mismatch e) := by
  obtain ⟨e, mismatch⟩ := digits_mismatch h
  exact ⟨e, by rw [number, mismatch]; rfl⟩

theorem usage_mismatch (h : ahead Char.isAlpha s = false) :
    ∃ e, usage s = .error (.mismatch e) := by
  obtain ⟨e, mismatch⟩ := identifier_mismatch h
  exact ⟨e, by rw [usage, mismatch]; rfl⟩

theorem expect_mismatch {c : Char} (h : ahead (· == c) s = false) :
    expect [c] s = .error (.mismatch (.expected [c])) := by
  unfold expect
  split
  · next rest found =>
      rw [Text.eq_append_of_after? found, List.singleton_append, ahead_cons, beq_self_eq_true] at h
      cases h
  · rfl

theorem block_mismatch (rule : Rule Stmt) (h : ahead (· == '{') s = false) :
    block rule s = .error (.mismatch (.expected ['{'])) := by
  rw [block, expect_mismatch h]
  rfl

/-- An operand fails as the last of its alternatives does, which is a block. -/
theorem operand_mismatch (rule : Rule Stmt) (numeral : ∃ e, number s = .error (.mismatch e))
    (letter : ahead Char.isAlpha s = false) (brace : ahead (· == '{') s = false) :
    operand rule s = .error (.mismatch (.expected ['{'])) := by
  obtain ⟨e, none⟩ := numeral
  obtain ⟨e', none'⟩ := usage_mismatch letter
  exact (orElse_of_mismatch none).trans
    ((orElse_of_mismatch none').trans (block_mismatch rule brace))

theorem operand_of_brace (rule : Rule Stmt) (s : Text) :
    operand rule ('{' :: s) = block rule ('{' :: s) := by
  obtain ⟨e₁, none⟩ := number_mismatch (rfl : ahead Char.isDigit ('{' :: s) = false)
  obtain ⟨e₂, none'⟩ := usage_mismatch (rfl : ahead Char.isAlpha ('{' :: s) = false)
  calc operand rule ('{' :: s)
    _ = orElse usage (block rule) ('{' :: s) := orElse_of_mismatch none
    _ = block rule ('{' :: s) := orElse_of_mismatch none'

theorem operation_of_failure {failure : Failure} (h : operand stmt s = .error failure) :
    operation stmt s = .error failure := by
  rw [operation, h]
  rfl

theorem expr_of_failure {failure : Failure} (h : operand stmt s = .error failure) :
    expr stmt s = .error failure := by
  cases failure with
  | mismatch e => exact (orElse_of_mismatch (operation_of_failure h)).trans h
  | _ => exact orElse_of_failure (operation_of_failure h) fun _ => nofun

theorem operator_mismatch (h : ahead isSign s = false) :
    ∃ e, operator s = .error (.mismatch e) := by
  rcases (operator_yields s).cases with ⟨⟨rest, op⟩, found⟩ | mismatch
  · rw [operator_eq_ok_iff.mp found] at h
    cases op <;> cases h
  · exact mismatch

theorem operation_mismatch {e : Expr} (h : operand stmt s = .ok (rest, e))
    (sign : SignAhead rest = false) : ∃ e, operation stmt s = .error (.mismatch e) := by
  obtain ⟨e, mismatch⟩ := operator_mismatch sign
  refine ⟨e, ?_⟩
  rw [operation, h]
  change operator (Text.trimStart rest) >>= _ = _
  rw [mismatch]
  rfl

theorem binding_mismatch (rule : Rule Stmt) (h : ∀ name rest, ¬ BindingHead name s rest) :
    ∃ e, binding rule s = .error (.mismatch e) := by
  rcases (bindingHead_yields s).cases with ⟨⟨rest, name⟩, found⟩ | ⟨e, mismatch⟩
  · exact False.elim (h name rest (bindingHead_eq_ok_iff.mp found).1)
  · exact ⟨e, by rw [binding_eq, mismatch]; rfl⟩

theorem function_mismatch (rule : Rule Stmt)
    (h : ∀ name params rest, ¬ FunctionHead name params s rest) :
    ∃ e, function rule s = .error (.mismatch e) := by
  rcases (functionHead_yields s).cases with ⟨⟨rest, name, params⟩, found⟩ | ⟨e, mismatch⟩
  · exact False.elim (h name params rest (functionHead_eq_ok_iff.mp found).1)
  · exact ⟨e, by rw [function_eq, mismatch]; rfl⟩

theorem not_definition_of_not_letter (letter : ahead Char.isAlpha s = false) :
    ¬ DefinitionAhead s := by
  rintro (⟨name, rest, head⟩ | ⟨name, params, rest, head⟩)
  all_goals
    cases head
    cases letter

theorem bare_of_not_definition (h : ¬ DefinitionAhead s) :
    stmtAbove stmt s = exprStmt stmt s := by
  obtain ⟨e₁, he₁⟩ := binding_mismatch stmt fun name rest head =>
    h (.inl ⟨name, rest, head⟩)
  obtain ⟨e₂, he₂⟩ := function_mismatch stmt fun name params rest head =>
    h (.inr ⟨name, params, rest, head⟩)
  exact (orElse_of_mismatch he₁).trans (orElse_of_mismatch he₂)

/-- Where no definition can begin a statement fails as its first operand does. -/
theorem stmtAbove_of_failure (letter : ahead Char.isAlpha s = false) {failure : Failure}
    (h : operand stmt s = .error failure) : stmtAbove stmt s = .error failure := by
  rw [bare_of_not_definition (not_definition_of_not_letter letter), exprStmt_eq, expr_of_failure h]
  rfl

theorem stmt_mismatch {limit : Nat} (h : ahead Grammar.opens s = false) (level : 0 < limit) :
    ∃ e, Grammar.stmt limit s = .error (.mismatch e) := by
  have none : ahead Char.isDigit s = false ∧ ahead Char.isAlpha s = false ∧
      ahead (· == '{') s = false := by
    cases s with
    | nil => exact ⟨rfl, rfl, rfl⟩
    | cons c s =>
        simp only [ahead_cons, opens, Char.isAlphanum, Bool.or_eq_false_iff] at h ⊢
        exact ⟨h.1.2, h.1.1, h.2⟩
  obtain ⟨digit, letter, brace⟩ := none
  cases limit with
  | zero => cases level
  | succ limit =>
      have first := operand_mismatch (Grammar.stmt limit) (number_mismatch digit) letter brace
      exact ⟨_, stmtAbove_of_failure letter first⟩

end

/-! ## Reading along a derivation -/

theorem Closes.not_opens {s : Text} (h : Closes s) : ahead opens s = false := by
  cases s with
  | nil => rfl
  | cons c s =>
      cases h
      rfl

theorem Closes.not_name {name s rest : Text} (h : Closes s) : ¬ NameAt name s rest := by
  intro hn
  have opened := ahead_opens_of_name hn
  rw [h.not_opens] at opened
  cases opened

theorem Closes.not_blank {s : Text} (h : Closes s) : ahead isBlank s = false := by
  cases s with
  | nil => rfl
  | cons c s =>
      cases h
      rfl

theorem no_sign_before_stmts {p : Proviso} {ts : List Stmt} {s s₁ rest : Text} (hb : Blanks s s₁)
    (h : Derives p (.stmts ts) s₁ rest) (close : Closes rest) : SignAhead s = false := by
  rw [signAhead_eq hb (h.not_blank close.not_blank)]
  have first := h.begun
  cases ts with
  | nil =>
      rw [show s₁ = rest from first]
      cases rest with
      | nil => rfl
      | cons c rest =>
          cases close
          rfl
  | cons t ts => exact no_sign_of_opens first

/-! ## Levels -/

/-- What a reader of `limit` levels answers about something that has `depth` of them. -/
def reach {α : Type} (limit depth : Nat) (answer : Text × α) : Except Failure (Text × α) :=
  if depth ≤ limit then .ok answer else .error .tooDeep

section
variable {α : Type} {limit depth depth' : Nat} {s : Text} {answer : Text × α}

theorem reach_of_le (h : depth ≤ limit) : reach limit depth answer = .ok answer := if_pos h

theorem reach_of_lt (h : limit < depth) : reach limit depth answer = .error .tooDeep :=
  if_neg (Nat.not_le.mpr h)

theorem reach_eq_ok_iff {answer' : Text × α} :
    reach limit depth answer = .ok answer' ↔ depth ≤ limit ∧ answer = answer' := by
  rcases Nat.lt_or_ge limit depth with deep | level
  · simp only [reach_of_lt deep, Nat.not_le.mpr deep, reduceCtorEq, false_and]
  · simp only [reach_of_le level, level, Except.ok.injEq, true_and]

theorem reach_succ : reach (limit + 1) (depth + 1) answer = reach limit depth answer := by
  simp only [reach, Nat.add_le_add_iff_right]

/-- What has the levels of two parts is reached where both are, the first one being met first. -/
theorem reach_bind_reach {β : Type} {f : Text × α → Except Failure (Text × β)} {b : Text × β}
    (h : depth ≤ limit → f answer = reach limit depth' b) :
    reach limit depth answer >>= f = reach limit (max depth depth') b := by
  rcases Nat.lt_or_ge limit depth with deep | level
  · rw [reach_of_lt deep, reach_of_lt (Nat.lt_of_lt_of_le deep (Nat.le_max_left _ _))]
    rfl
  · rw [reach_of_le level]
    change f answer = _
    rw [h level]
    simp only [reach, Nat.max_le, level, true_and]

/-- What is done with a part that is reached leaves the levels as they are. -/
theorem reach_map {β : Type} {f : Text × α → Except Failure (Text × β)} {b : Text × β}
    (h : f answer = .ok b) : reach limit depth answer >>= f = reach limit depth b := by
  rcases Nat.lt_or_ge limit depth with deep | level
  · rw [reach_of_lt deep, reach_of_lt deep]
    rfl
  · rw [reach_of_le level, reach_of_le level]
    exact h

/-- The second alternative is not heard where the first is cut short. -/
theorem orElse_of_reach {first second : Rule α} (h : first s = reach limit depth answer) :
    orElse first second s = reach limit depth answer := by
  rcases Nat.lt_or_ge limit depth with deep | level
  · rw [reach_of_lt deep] at h ⊢
    simp only [orElse, h]
  · rw [reach_of_le level] at h ⊢
    exact orElse_of_ok h

end

/-! ## The rules on parts that are reached -/

section
variable {limit depth depth' : Nat} {rule : Rule Stmt} {s s₁ s₂ s₃ rest : Text}

theorem block_reach {ts : List Stmt} (gap : Blanks s s₁) (stop : ahead isBlank s₁ = false)
    (h : many rule s₁ = reach limit depth ('}' :: rest, ts)) :
    operand rule ('{' :: s) = reach limit depth (rest, .block ts) := by
  rw [operand_of_brace]
  change (many rule (Text.trimStart s) >>= fun answer =>
    expect ['}'] (Text.trimStart answer.1) >>= fun rest =>
      pure (rest, Expr.block answer.2)) = _
  rw [trimStart_eq_iff.mpr ⟨gap, stop⟩, h]
  exact reach_map rfl

theorem operand_reach {e : Expr} (h : operand rule s = reach limit depth (rest, e))
    (sign : SignAhead rest = false) : expr rule s = reach limit depth (rest, e) := by
  rcases Nat.lt_or_ge limit depth with deep | level
  · rw [reach_of_lt deep] at h ⊢
    exact expr_of_failure h
  · rw [reach_of_le level] at h ⊢
    obtain ⟨e, mismatch⟩ := operation_mismatch h sign
    exact (orElse_of_mismatch mismatch).trans h

theorem operation_reach {a b : Expr} {op : Op} (left : operand rule s = reach limit depth (s₁, a))
    (before : Blanks s₁ (op.symbol ++ s₂)) (behind : Blanks s₂ s₃) (stop : ahead isBlank s₃ = false)
    (right : operand rule s₃ = reach limit depth' (rest, b)) :
    expr rule s = reach limit (max depth depth') (rest, .operation a b op) := by
  refine orElse_of_reach ?_
  rw [operation, left]
  refine reach_bind_reach fun _ => ?_
  have sign := trimStart_eq_iff.mpr ⟨before, symbol_not_blank op s₂⟩
  change (operator (Text.trimStart s₁) >>= fun answer =>
    operand rule (Text.trimStart answer.1) >>= fun last =>
      pure (last.1, Expr.operation a last.2 answer.2)) = _
  rw [sign, operator_eq_ok_iff.mpr rfl]
  change operand rule (Text.trimStart s₂) >>= _ = _
  rw [trimStart_eq_iff.mpr ⟨behind, stop⟩, right]
  exact reach_map rfl

theorem binding_reach {name : Text} {v : Expr} (head : BindingHead name s s₁)
    (stop : ahead isBlank s₁ = false) (h : expr rule s₁ = reach limit depth (rest, v)) :
    stmtAbove rule s = reach limit depth (rest, .binding name v) := by
  have found : binding rule s = reach limit depth (rest, .binding name v) := by
    rw [binding_eq, bindingHead_eq_ok_iff.mpr ⟨head, stop⟩]
    change expr rule s₁ >>= _ = _
    rw [h]
    exact reach_map rfl
  exact orElse_of_reach found

theorem function_reach {name : Text} {params : List Text} {body : Stmt}
    (head : FunctionHead name params s s₁) (stop : ahead isBlank s₁ = false)
    (h : rule s₁ = reach limit depth (rest, body)) :
    stmtAbove rule s = reach limit depth (rest, .function name params body) := by
  have other : ∀ name rest, ¬ BindingHead name s rest := by
    intro name rest binding
    cases head
    cases binding
  obtain ⟨e, mismatch⟩ := binding_mismatch rule other
  refine (orElse_of_mismatch mismatch).trans (orElse_of_reach ?_)
  rw [function_eq, functionHead_eq_ok_iff.mpr ⟨head, stop⟩]
  change rule s₁ >>= _ = _
  rw [h]
  exact reach_map rfl

theorem exprStmt_reach {e : Expr} (bare : ¬ DefinitionAhead s)
    (h : expr rule s = reach limit depth (rest, e)) :
    stmtAbove rule s = reach limit depth (rest, .expr e) := by
  rw [bare_of_not_definition bare, exprStmt_eq, h]
  exact reach_map rfl

theorem stmt_reach {t : Stmt}
    (h : ∀ below, stmtAbove (stmt below) s = reach below depth (rest, t)) :
    stmt limit s = reach limit (depth + 1) (rest, t) := by
  cases limit with
  | zero => exact (reach_of_lt (Nat.succ_pos depth)).symm
  | succ below => exact (h below).trans reach_succ.symm

theorem many_reach {t : Stmt} {ts : List Stmt} (first : rule s = reach limit depth (s₁, t))
    (shorter : s₁.length < s.length) (gap : Blanks s₁ s₂) (stop : ahead isBlank s₂ = false)
    (later : many rule s₂ = reach limit depth' (rest, ts)) :
    many rule s = reach limit (max depth depth') (rest, t :: ts) := by
  rcases Nat.lt_or_ge limit depth with deep | level
  · rw [reach_of_lt deep] at first
    rw [many_of_tooDeep first]
    exact (reach_of_lt (Nat.lt_of_lt_of_le deep (Nat.le_max_left _ _))).symm
  · rw [reach_of_le level] at first
    rw [many_of_ok first shorter, trimStart_eq_iff.mpr ⟨gap, stop⟩, later]
    rcases Nat.lt_or_ge limit depth' with deep | level'
    · rw [reach_of_lt deep]
      exact (reach_of_lt (Nat.lt_of_lt_of_le deep (Nat.le_max_right _ _))).symm
    · rw [reach_of_le level']
      exact (reach_of_le (Nat.max_le.mpr ⟨level, level'⟩)).symm

end

/-- What the reader answers about a phrase of each kind: the phrase, if it has levels enough for
it, provided that nothing behind the phrase prolongs it. -/
def Phrase.Read (limit : Nat) : Phrase → Text → Text → Prop
  | .operand e, s, rest =>
      Grammar.operand (Grammar.stmt limit) s = reach limit e.depth (rest, e)
  | .expr e, s, rest => SignAhead rest = false →
      Grammar.expr (Grammar.stmt limit) s = reach limit e.depth (rest, e)
  | .stmt t, s, rest => SignAhead rest = false →
      Grammar.stmt limit s = reach limit t.depth (rest, t)
  | .stmts ts, s, rest => Closes rest →
      many (Grammar.stmt limit) s = reach limit (Stmt.depthOfAll ts) (rest, ts)

/-- Where a canonical derivation begins, the reader finds it, or has too few levels for its tree. -/
theorem Derives.read {ph : Phrase} {s rest : Text} (h : Derives .canonical ph s rest)
    (limit : Nat) : ph.Read limit s rest := by
  induction h generalizing limit with
  | number hn small short =>
      have found := number_eq_ok_iff.mpr ⟨_, hn, short, small, rfl⟩
      exact (orElse_of_ok found).trans (reach_of_le (Nat.zero_le limit)).symm
  | @usage name s rest hn =>
      have digit : ahead Char.isDigit s = false := by
        have first := hn.ahead
        cases s with
        | nil => rfl
        | cons c s => exact not_isDigit_of_isAlpha first
      obtain ⟨e, mismatch⟩ := number_mismatch digit
      have found := usage_eq_ok_iff.mpr ⟨name, hn, rfl⟩
      refine (orElse_of_mismatch mismatch).trans ((orElse_of_ok found).trans ?_)
      exact (reach_of_le (Nat.zero_le limit)).symm
  | @block ts s s₁ rest hb hs ih => exact block_reach hb (hs.not_blank rfl) (ih limit rfl)
  | operand he ih =>
      intro sign
      exact operand_reach (ih limit) sign
  | operation ha hb hc hd ia ib =>
      intro _
      exact operation_reach (ia limit) hb hc (not_blank_of_opens hd.begun) (ib limit)
  | binding hh hv ih =>
      intro sign
      exact stmt_reach fun below => binding_reach hh (not_blank_of_opens hv.begun) (ih below sign)
  | function hh hb ih =>
      intro sign
      exact stmt_reach fun below => function_reach hh (not_blank_of_opens hb.begun) (ih below sign)
  | bare hp he ih =>
      intro sign
      exact stmt_reach fun below => exprStmt_reach hp (ih below sign)
  | @nil s =>
      intro close
      cases limit with
      | zero => exact many_of_tooDeep rfl
      | succ limit =>
          obtain ⟨e, mismatch⟩ := stmt_mismatch close.not_opens (Nat.succ_pos limit)
          exact (many_of_mismatch mismatch).trans (reach_of_le (Nat.succ_pos limit)).symm
  | cons ht hb hs it is =>
      intro close
      have found := it limit (no_sign_before_stmts hb hs close)
      exact many_reach found ht.advances hb (hs.not_blank close.not_blank) (is limit close)

end BlockCalc.Grammar
