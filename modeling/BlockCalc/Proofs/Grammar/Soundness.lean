import BlockCalc.Grammar.Parse
import BlockCalc.Proofs.Grammar.Derivation
/-! What is read has a derivation. Each rule is opened once, into the steps of a successful reading;
the grammar then follows step by step, and with it that no tree is deeper than the reader goes. -/
namespace BlockCalc.Grammar

/-! ## Successful readings, rule by rule -/

theorem number_eq_ok_iff {s rest : Text} {e : Expr} :
    number s = .ok (rest, e) ↔ ∃ w, NumeralAt w s rest ∧ w.length ≤ literalLimit ∧
      (Decimal.value w : Int) ≤ greatestNumber ∧ e = .number (Decimal.value w) := by
  have fits : ∀ n : Nat, Fits n ↔ (n : Int) ≤ greatestNumber := by
    intro n
    simp only [Fits, leastNumber]
    omega
  simp only [number, bind_eq_ok_iff, Prod.exists, digits_eq_ok_iff]
  constructor
  · rintro ⟨rest', w, hw, h⟩
    split at h
    · cases h
    · next short =>
        split at h
        · next small =>
            cases h
            exact ⟨w, hw, Nat.le_of_not_lt short, (fits _).mp small, rfl⟩
        · cases h
  · rintro ⟨w, hw, short, small, rfl⟩
    refine ⟨rest, w, hw, ?_⟩
    simp only [Nat.not_lt.mpr short, if_false, (fits _).mpr small, if_true]

theorem usage_eq_ok_iff {s rest : Text} {e : Expr} :
    usage s = .ok (rest, e) ↔ ∃ name, NameAt name s rest ∧ e = .usage name := by
  simp only [usage, bind_eq_ok_iff, Prod.exists, identifier_eq_ok_iff, pure, Except.pure,
    Except.ok.injEq, Prod.mk.injEq]
  constructor
  · rintro ⟨rest', name, hn, rfl, rfl⟩
    exact ⟨name, hn, rfl⟩
  · rintro ⟨name, hn, rfl⟩
    exact ⟨rest, name, hn, rfl, rfl⟩

theorem operator_eq_ok_iff {s rest : Text} {op : Op} :
    operator s = .ok (rest, op) ↔ s = op.symbol ++ rest := by
  have sign : ∀ {op' : Op} {answer : Text × Op},
      (expect op'.symbol s).map (fun rest => (rest, op')) = .ok answer →
        s = answer.2.symbol ++ answer.1 := by
    intro op' answer h
    cases he : expect op'.symbol s with
    | error failure =>
        rw [he] at h
        cases h
    | ok rest' =>
        rw [he] at h
        cases h
        exact expect_eq_ok_iff.mp he
  constructor
  · intro h
    simp only [operator, Op.all, List.map_cons, List.map_nil, firstOf, orElse_eq_ok_iff] at h
    rcases h with h | ⟨-, -, h | ⟨-, -, h | ⟨-, -, h⟩⟩⟩
    all_goals exact sign h
  · rintro rfl
    cases op <;> rfl

theorem operator_yields (s : Text) : Yields (operator s) := by
  intro failure h
  have sign : ∀ op : Op, (expect op.symbol s).map (fun rest => (rest, op)) = .error failure →
      ∃ e, failure = .mismatch e := by
    intro op h
    cases he : expect op.symbol s with
    | error failure' =>
        rw [he] at h
        cases h
        exact expect_yields _ _ _ he
    | ok rest' =>
        rw [he] at h
        cases h
  simp only [operator, Op.all, List.map_cons, List.map_nil, firstOf] at h
  rcases orElse_eq_error h with h | h
  · exact sign _ h
  · rcases orElse_eq_error h with h | h
    · exact sign _ h
    · rcases orElse_eq_error h with h | h
      all_goals exact sign _ h

section
variable {stmt : Rule Stmt} {s rest : Text}

theorem block_eq_ok_iff {e : Expr} :
    block stmt s = .ok (rest, e) ↔ ∃ (s₁ s₂ : Text) (ts : List Stmt), s = '{' :: s₁ ∧
      many stmt (Text.trimStart s₁) = .ok (s₂, ts) ∧ Text.trimStart s₂ = '}' :: rest ∧
        e = .block ts := by
  simp only [block, bind_eq_ok_iff, Prod.exists, expect_eq_ok_iff, pure, Except.pure,
    Except.ok.injEq, Prod.mk.injEq]
  constructor
  · rintro ⟨s₁, rfl, s₂, ts, hm, rest', close, rfl, rfl⟩
    exact ⟨s₁, s₂, ts, rfl, hm, close, rfl⟩
  · rintro ⟨s₁, s₂, ts, rfl, hm, close, rfl⟩
    exact ⟨s₁, rfl, s₂, ts, hm, rest, close, rfl, rfl⟩

theorem operation_eq_ok_iff {e : Expr} :
    operation stmt s = .ok (rest, e) ↔ ∃ (s₁ s₂ : Text) (lhs rhs : Expr) (op : Op),
      operand stmt s = .ok (s₁, lhs) ∧ Text.trimStart s₁ = op.symbol ++ s₂ ∧
        operand stmt (Text.trimStart s₂) = .ok (rest, rhs) ∧ e = .operation lhs rhs op := by
  simp only [operation, bind_eq_ok_iff, Prod.exists, operator_eq_ok_iff, pure, Except.pure,
    Except.ok.injEq, Prod.mk.injEq]
  constructor
  · rintro ⟨s₁, lhs, hl, s₂, op, sign, rest', rhs, hr, rfl, rfl⟩
    exact ⟨s₁, s₂, lhs, rhs, op, hl, sign, hr, rfl⟩
  · rintro ⟨s₁, s₂, lhs, rhs, op, hl, sign, hr, rfl⟩
    exact ⟨s₁, lhs, hl, s₂, op, sign, rest, rhs, hr, rfl, rfl⟩

theorem binding_eq_ok_iff {t : Stmt} :
    binding stmt s = .ok (rest, t) ↔ ∃ (s₁ : Text) (name : Text) (v : Expr),
      bindingHead s = .ok (s₁, name) ∧ expr stmt s₁ = .ok (rest, v) ∧ t = .binding name v := by
  simp only [binding_eq, bind_eq_ok_iff, Prod.exists, pure, Except.pure, Except.ok.injEq,
    Prod.mk.injEq]
  constructor
  · rintro ⟨s₁, name, hh, rest', v, hv, rfl, rfl⟩
    exact ⟨s₁, name, v, hh, hv, rfl⟩
  · rintro ⟨s₁, name, v, hh, hv, rfl⟩
    exact ⟨s₁, name, hh, rest, v, hv, rfl, rfl⟩

theorem function_eq_ok_iff {t : Stmt} :
    function stmt s = .ok (rest, t) ↔ ∃ (s₁ : Text) (name : Text) (params : List Text)
      (body : Stmt), functionHead s = .ok (s₁, name, params) ∧ stmt s₁ = .ok (rest, body) ∧
        t = .function name params body := by
  simp only [function_eq, bind_eq_ok_iff, Prod.exists, pure, Except.pure, Except.ok.injEq,
    Prod.mk.injEq]
  constructor
  · rintro ⟨s₁, name, params, hh, rest', body, hb, rfl, rfl⟩
    exact ⟨s₁, name, params, body, hh, hb, rfl⟩
  · rintro ⟨s₁, name, params, body, hh, hb, rfl⟩
    exact ⟨s₁, name, params, hh, rest, body, hb, rfl, rfl⟩

theorem exprStmt_eq_ok_iff {t : Stmt} :
    exprStmt stmt s = .ok (rest, t) ↔ ∃ e, expr stmt s = .ok (rest, e) ∧ t = .expr e := by
  simp only [exprStmt_eq, bind_eq_ok_iff, Prod.exists, pure, Except.pure, Except.ok.injEq,
    Prod.mk.injEq]
  constructor
  · rintro ⟨rest', e, he, rfl, rfl⟩
    exact ⟨e, he, rfl⟩
  · rintro ⟨e, he, rfl⟩
    exact ⟨rest, e, he, rfl, rfl⟩

end

/-! ## From readings to derivations -/

/-- A rule for statements that reads by the grammar and goes down no further than `limit`. -/
structure ReadsTo (limit : Nat) (rule : Rule Stmt) : Prop where
  derives : ∀ {s rest t}, rule s = .ok (rest, t) →
    Derives .short (.stmt t) s rest ∧ t.depth ≤ limit
  level : ∀ {s e}, rule s = .error (.mismatch e) → 0 < limit

section
variable {limit : Nat} {rule : Rule Stmt} {s rest : Text}

theorem ReadsTo.many (h : ReadsTo limit rule) {ts : List Stmt}
    (hm : many rule s = .ok (rest, ts)) :
    Derives .short (.stmts ts) s rest ∧ Stmt.depthOfAll ts ≤ limit := by
  refine many_ok_induction (P := fun ts s rest =>
    Derives .short (.stmts ts) s rest ∧ Stmt.depthOfAll ts ≤ limit) ?_ ?_ ?_ hm
  · exact fun found => (h.derives found).1.advances
  · exact fun mismatch => ⟨.nil, h.level mismatch⟩
  · intro s s₁ rest t ts found later
    obtain ⟨ht, depth⟩ := h.derives found
    exact ⟨.cons ht (blanks_trimStart s₁) later.1, Nat.max_le.mpr ⟨depth, later.2⟩⟩

/-- Behind the statements that are read no blank character is left. -/
theorem ReadsTo.not_blank (h : ReadsTo limit rule) {ts : List Stmt}
    (hm : Grammar.many rule s = .ok (rest, ts)) :
    ahead isBlank s = false → ahead isBlank rest = false := by
  refine many_ok_induction (P := fun _ s rest =>
    ahead isBlank s = false → ahead isBlank rest = false) ?_ (fun _ => id) ?_ hm
  · exact fun found => (h.derives found).1.advances
  · exact fun _ later _ => later (ahead_trimStart _)

theorem ReadsTo.block (h : ReadsTo limit rule) {e : Expr} (he : block rule s = .ok (rest, e)) :
    Derives .short (.operand e) s rest ∧ e.depth ≤ limit := by
  obtain ⟨s₁, s₂, ts, rfl, hm, close, rfl⟩ := block_eq_ok_iff.mp he
  obtain ⟨hts, depth⟩ := h.many hm
  have trimmed := trimStart_eq_self (h.not_blank hm (ahead_trimStart s₁))
  exact ⟨.block (blanks_trimStart s₁) (close ▸ trimmed.symm ▸ hts), depth⟩

theorem number_derives (limit : Nat) {e : Expr} (he : number s = .ok (rest, e)) :
    Derives .short (.operand e) s rest ∧ e.depth ≤ limit := by
  obtain ⟨w, hw, short, small, rfl⟩ := number_eq_ok_iff.mp he
  exact ⟨.number hw small short, Nat.zero_le _⟩

theorem usage_derives (limit : Nat) {e : Expr} (he : usage s = .ok (rest, e)) :
    Derives .short (.operand e) s rest ∧ e.depth ≤ limit := by
  obtain ⟨name, hn, rfl⟩ := usage_eq_ok_iff.mp he
  exact ⟨.usage hn, Nat.zero_le _⟩

theorem ReadsTo.operand (h : ReadsTo limit rule) {e : Expr}
    (he : operand rule s = .ok (rest, e)) :
    Derives .short (.operand e) s rest ∧ e.depth ≤ limit := by
  rcases orElse_eq_ok_iff.mp he with he | ⟨-, -, he⟩
  · exact number_derives limit he
  · rcases orElse_eq_ok_iff.mp he with he | ⟨-, -, he⟩
    · exact usage_derives limit he
    · exact h.block he

theorem ReadsTo.operation (h : ReadsTo limit rule) {e : Expr}
    (he : operation rule s = .ok (rest, e)) :
    Derives .short (.expr e) s rest ∧ e.depth ≤ limit := by
  obtain ⟨s₁, s₂, lhs, rhs, op, hl, sign, hr, rfl⟩ := operation_eq_ok_iff.mp he
  obtain ⟨hl, dl⟩ := h.operand hl
  obtain ⟨hr, dr⟩ := h.operand hr
  have gap := sign ▸ blanks_trimStart s₁
  exact ⟨.operation hl gap (blanks_trimStart s₂) hr, Nat.max_le.mpr ⟨dl, dr⟩⟩

theorem ReadsTo.expr (h : ReadsTo limit rule) {e : Expr}
    (he : expr rule s = .ok (rest, e)) :
    Derives .short (.expr e) s rest ∧ e.depth ≤ limit := by
  rcases orElse_eq_ok_iff.mp he with he | ⟨-, -, he⟩
  · exact h.operation he
  · obtain ⟨he, depth⟩ := h.operand he
    exact ⟨.operand he, depth⟩

theorem ReadsTo.binding (h : ReadsTo limit rule) {t : Stmt}
    (ht : binding rule s = .ok (rest, t)) :
    Derives .short (.stmt t) s rest ∧ t.depth ≤ limit + 1 := by
  obtain ⟨s₁, name, v, hh, hv, rfl⟩ := binding_eq_ok_iff.mp ht
  obtain ⟨hv, depth⟩ := h.expr hv
  exact ⟨.binding (bindingHead_eq_ok_iff.mp hh).1 hv, Nat.succ_le_succ depth⟩

theorem ReadsTo.function (h : ReadsTo limit rule) {t : Stmt}
    (ht : function rule s = .ok (rest, t)) :
    Derives .short (.stmt t) s rest ∧ t.depth ≤ limit + 1 := by
  obtain ⟨s₁, name, params, body, hh, hb, rfl⟩ := function_eq_ok_iff.mp ht
  obtain ⟨hb, depth⟩ := h.derives hb
  exact ⟨.function (functionHead_eq_ok_iff.mp hh).1 hb, Nat.succ_le_succ depth⟩

theorem ReadsTo.exprStmt (h : ReadsTo limit rule) {t : Stmt}
    (ht : exprStmt rule s = .ok (rest, t)) :
    Derives .short (.stmt t) s rest ∧ t.depth ≤ limit + 1 := by
  obtain ⟨e, he, rfl⟩ := exprStmt_eq_ok_iff.mp ht
  obtain ⟨he, depth⟩ := h.expr he
  exact ⟨.bare trivial he, Nat.succ_le_succ depth⟩

/-- One level more of statements is read by the grammar if the levels below it are. -/
theorem ReadsTo.above (h : ReadsTo limit rule) : ReadsTo (limit + 1) (stmtAbove rule) := by
  refine ⟨?_, fun _ => Nat.succ_pos limit⟩
  intro s rest t ht
  rcases orElse_eq_ok_iff.mp ht with ht | ⟨-, -, ht⟩
  · exact h.binding ht
  · rcases orElse_eq_ok_iff.mp ht with ht | ⟨-, -, ht⟩
    · exact h.function ht
    · exact h.exprStmt ht

end

theorem stmt_reads (limit : Nat) : ReadsTo limit (stmt limit) := by
  induction limit with
  | zero => exact ⟨(fun h => nomatch h), (fun h => nomatch h)⟩
  | succ limit ih => exact ih.above

theorem parseWithin_eq_ok_iff {limit : Nat} {s : Text} {t : Stmt} :
    parseWithin limit s = .ok t ↔ Grammar.stmt limit s = .ok ([], t) := by
  unfold parseWithin
  cases h : Grammar.stmt limit s with
  | ok answer =>
      obtain ⟨rest, tree⟩ := answer
      cases rest with
      | nil => simp only [Except.ok.injEq, Prod.mk.injEq, true_and]
      | cons c rest => simp only [reduceCtorEq, Except.ok.injEq, Prod.mk.injEq, false_and]
  | error failure =>
      cases failure <;> simp only [reduceCtorEq]

theorem wellFormed_of_parseWithin {limit : Nat} {s : Text} {t : Stmt}
    (h : parseWithin limit s = .ok t) : t.wellFormed = true :=
  ((stmt_reads limit).derives (parseWithin_eq_ok_iff.mp h)).1.wellFormed

end BlockCalc.Grammar
