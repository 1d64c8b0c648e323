import BlockCalc.Proofs.Grammar.Normal
import BlockCalc.Tree.Equality
/-! Reading is local. A reader looks further than it goes: for the sign of an operator, for one more
name or statement, and for a definition where its word stands alone. Nothing of what it finds there
goes into the answer. A canonical derivation can be cut off behind its end, as names and numerals
end at the end of a text as well, and no definition begins where a text is cut that did not begin
before. So what a statement took up is by itself a statement with the same tree. -/
namespace BlockCalc.Grammar
variable {name s rest q r : Text} {names : List Text}

/-! ## Texts that go on -/

theorem ahead_append {p : Char → Bool} (some : q ≠ []) (r : Text) :
    ahead p (q ++ r) = ahead p q := by
  cases q with
  | nil => exact False.elim (some rfl)
  | cons c q => rfl

theorem Blanks.extend (h : Blanks s rest) (r : Text) : Blanks (s ++ r) (rest ++ r) := by
  obtain ⟨w, blank, rfl⟩ := h
  exact ⟨w, blank, List.append_assoc w rest r⟩

theorem Spaces.extend (h : Spaces s rest) (r : Text) : Spaces (s ++ r) (rest ++ r) := by
  obtain ⟨n, rfl⟩ := h
  exact ⟨n, List.append_assoc _ rest r⟩

/-- A name with something behind it ends there, whatever else the text goes on with. -/
theorem NameAt.extend (h : NameAt name s rest) (some : rest ≠ []) (r : Text) :
    NameAt name (s ++ r) (rest ++ r) := by
  obtain ⟨rfl, valid, ends⟩ := h
  exact ⟨List.append_assoc name rest r, valid, (ahead_append some r).trans ends⟩

theorem NamesAt.extend (h : NamesAt names s rest) (some : rest ≠ []) (r : Text) :
    NamesAt names (s ++ r) (rest ++ r) := by
  induction h with
  | nil => exact .nil
  | cons hn hb hs ih =>
      have behind := (hs.suffix.trans hb.suffix).ne_nil some
      exact .cons (hn.extend behind r) (hb.extend r) (ih some)

theorem BindingHead.extend (h : BindingHead name s rest) (r : Text) :
    BindingHead name (s ++ r) (rest ++ r) := by
  obtain ⟨hs, hn, hb, hr⟩ := h
  have behind := hb.suffix.ne_nil (List.cons_ne_nil _ _)
  exact .intro (hs.extend r) (hn.extend behind r) (hb.extend r) (hr.extend r)

theorem FunctionHead.extend (h : FunctionHead name names s rest) (r : Text) :
    FunctionHead name names (s ++ r) (rest ++ r) := by
  obtain @⟨_, _, _, _, s₄, _, hs, hn, hb, hp, hr⟩ := h
  have arrow := List.cons_ne_nil '=' ('>' :: s₄)
  have behind := (hp.suffix.trans hb.suffix).ne_nil arrow
  exact .intro (hs.extend r) (hn.extend behind r) (hb.extend r) (hp.extend arrow r) (hr.extend r)

/-- Every name in the head of a definition has its sign somewhere behind it. -/
theorem DefinitionAhead.extend (h : DefinitionAhead s) (r : Text) : DefinitionAhead (s ++ r) := by
  rcases h with ⟨name, rest, head⟩ | ⟨name, params, rest, head⟩
  · exact .inl ⟨name, rest ++ r, head.extend r⟩
  · exact .inr ⟨name, params, rest ++ r, head.extend r⟩

/-! ## Texts that are cut off -/

theorem ahead_cut {p : Char → Bool} (h : ahead p (q ++ r) = false) : ahead p q = false := by
  cases q with
  | nil => rfl
  | cons c q => exact h

theorem Blanks.cut (h : Blanks s (q ++ r)) : ∃ s', s = s' ++ r ∧ Blanks s' q := by
  obtain ⟨w, blank, rfl⟩ := h
  exact ⟨w ++ q, (List.append_assoc w q r).symm, w, blank, rfl⟩

theorem Spaces.cut (h : Spaces s (q ++ r)) : ∃ s', s = s' ++ r ∧ Spaces s' q := by
  obtain ⟨n, rfl⟩ := h
  exact ⟨_ ++ q, (List.append_assoc _ q r).symm, n, rfl⟩

theorem NameAt.cut (h : NameAt name s (q ++ r)) : ∃ s', s = s' ++ r ∧ NameAt name s' q := by
  obtain ⟨rfl, valid, ends⟩ := h
  exact ⟨name ++ q, (List.append_assoc name q r).symm, rfl, valid, ahead_cut ends⟩

theorem NumeralAt.cut {w : Text} (h : NumeralAt w s (q ++ r)) :
    ∃ s', s = s' ++ r ∧ NumeralAt w s' q := by
  obtain ⟨rfl, nonempty, valid, ends⟩ := h
  exact ⟨w ++ q, (List.append_assoc w q r).symm, rfl, nonempty, valid, ahead_cut ends⟩

theorem NamesAt.cut (h : NamesAt names s rest) (behind : rest = q ++ r) :
    ∃ s', s = s' ++ r ∧ NamesAt names s' q := by
  induction h with
  | nil => exact ⟨q, behind, .nil⟩
  | cons hn hb hs ih =>
      obtain ⟨s₂, rfl, names⟩ := ih behind
      obtain ⟨s₁, rfl, gap⟩ := hb.cut
      obtain ⟨s, rfl, first⟩ := hn.cut
      exact ⟨s, rfl, .cons first gap names⟩

theorem BindingHead.cut (h : BindingHead name s (q ++ r)) :
    ∃ s', s = s' ++ r ∧ BindingHead name s' q := by
  obtain ⟨hs, hn, hb, hr⟩ := h
  obtain ⟨s₃, rfl, value⟩ := hr.cut
  obtain ⟨s₂, rfl, sign⟩ := hb.cut (q := '=' :: s₃)
  obtain ⟨s₁, rfl, first⟩ := hn.cut
  obtain ⟨s, rfl, spaces⟩ := hs.cut
  exact ⟨'l' :: 'e' :: 't' :: s, rfl, .intro spaces first sign value⟩

theorem FunctionHead.cut (h : FunctionHead name names s (q ++ r)) :
    ∃ s', s = s' ++ r ∧ FunctionHead name names s' q := by
  obtain ⟨hs, hn, hb, hp, hr⟩ := h
  obtain ⟨s₄, rfl, body⟩ := hr.cut
  obtain ⟨s₃, rfl, params⟩ := hp.cut (q := '=' :: '>' :: s₄) rfl
  obtain ⟨s₂, rfl, gap⟩ := hb.cut
  obtain ⟨s₁, rfl, first⟩ := hn.cut
  obtain ⟨s, rfl, spaces⟩ := hs.cut
  exact ⟨'f' :: 'n' :: s, rfl, .intro spaces first gap params body⟩

/-- Canonical derivations stay so where the text is cut off behind them. -/
theorem Derives.cut {ph : Phrase} (h : Derives .canonical ph s rest) (behind : rest = q ++ r) :
    ∃ s', s = s' ++ r ∧ Derives .canonical ph s' q := by
  induction h generalizing q with
  | number hn small short =>
      subst behind
      obtain ⟨s, rfl, run⟩ := hn.cut
      exact ⟨s, rfl, .number run small short⟩
  | usage hn =>
      subst behind
      obtain ⟨s, rfl, run⟩ := hn.cut
      exact ⟨s, rfl, .usage run⟩
  | block hb hs ih =>
      subst behind
      obtain ⟨s₁, rfl, stmts⟩ := ih (q := '}' :: q) rfl
      obtain ⟨s, rfl, gap⟩ := hb.cut
      exact ⟨'{' :: s, rfl, .block gap stmts⟩
  | operand he ih =>
      obtain ⟨s, rfl, whole⟩ := ih behind
      exact ⟨s, rfl, .operand whole⟩
  | @operation a b _ _ _ _ _ op ha hb hc hd ia ib =>
      obtain ⟨s₃, rfl, right⟩ := ib behind
      obtain ⟨s₂, rfl, gap⟩ := hc.cut
      rw [← List.append_assoc] at hb
      obtain ⟨s₁, rfl, sign⟩ := hb.cut
      obtain ⟨s, rfl, left⟩ := ia rfl
      exact ⟨s, rfl, .operation left sign gap right⟩
  | binding hh hv ih =>
      obtain ⟨s₁, rfl, value⟩ := ih behind
      obtain ⟨s, rfl, head⟩ := hh.cut
      exact ⟨s, rfl, .binding head value⟩
  | function hh hb ih =>
      obtain ⟨s₁, rfl, body⟩ := ih behind
      obtain ⟨s, rfl, head⟩ := hh.cut
      exact ⟨s, rfl, .function head body⟩
  | bare hp he ih =>
      obtain ⟨s, rfl, whole⟩ := ih behind
      exact ⟨s, rfl, .bare (fun definition => hp (definition.extend r)) whole⟩
  | nil => exact ⟨q, behind, .nil⟩
  | cons ht hb hs it is =>
      obtain ⟨s₂, rfl, others⟩ := is behind
      obtain ⟨s₁, rfl, gap⟩ := hb.cut
      obtain ⟨s, rfl, first⟩ := it rfl
      exact ⟨s, rfl, .cons first gap others⟩

/-! ## The last character of a phrase -/

def Phrase.Ended : Phrase → Text → Text → Prop
  | .stmts _, _, _ => True
  | _, s, rest => ∃ c, isBlank c = false ∧ c :: rest <:+ s

theorem ended_of_alphanum {w : Text} (nonempty : w ≠ []) (valid : ∀ c ∈ w, c.isAlphanum = true)
    (rest : Text) : ∃ c, isBlank c = false ∧ c :: rest <:+ w ++ rest := by
  have last := valid _ (List.getLast_mem nonempty)
  refine ⟨w.getLast nonempty, isBlank_eq_false_of_isAlphanum last, w.dropLast, ?_⟩
  calc w.dropLast ++ w.getLast nonempty :: rest
    _ = w.dropLast ++ [w.getLast nonempty] ++ rest := by
        rw [List.append_assoc, List.singleton_append]
    _ = w ++ rest := by rw [List.dropLast_concat_getLast nonempty]

theorem Derives.ended {p : Proviso} {ph : Phrase} (h : Derives p ph s rest) :
    ph.Ended s rest := by
  have behind : ∀ {s s' rest : Text}, s' <:+ s →
      (∃ c, isBlank c = false ∧ c :: rest <:+ s') → ∃ c, isBlank c = false ∧ c :: rest <:+ s := by
    rintro s s' rest suffix ⟨c, ink, last⟩
    exact ⟨c, ink, last.trans suffix⟩
  induction h with
  | number hn =>
      obtain ⟨rfl, nonempty, valid, -⟩ := hn
      exact ended_of_alphanum nonempty (fun c hc => isAlphanum_of_isDigit (valid c hc)) _
  | usage hn =>
      obtain ⟨rfl, valid, -⟩ := hn
      exact ended_of_alphanum (ne_nil_of_isName valid) (isAlphanum_of_isName valid) _
  | block hb hs ih => exact ⟨'}', rfl, hs.suffix.trans (hb.suffix.trans (List.suffix_cons _ _))⟩
  | operand he ih => exact ih
  | operation ha hb hc hd ia ib =>
      exact behind ((hb.suffix_of_sign hc).trans ha.suffix) ib
  | binding hh hv ih => exact behind hh.suffix ih
  | function hh hb ih => exact behind hh.suffix ih
  | bare hp he ih => exact ih
  | nil => trivial
  | cons ht hb hs it is => trivial

/-! ## What is read has a canonical derivation -/

section
variable {limit : Nat}

/-- The statements of a block have a canonical derivation, and it is this one that is read. -/
theorem many_canonical {ts : List Stmt} (h : many (stmt limit) s = .ok (rest, ts))
    (close : Closes rest) : Derives .canonical (.stmts ts) s rest := by
  obtain ⟨ts', canonical⟩ := (normal s).stmts ((stmt_reads limit).many h).1 close
  have found : many (stmt limit) s = reach limit _ (rest, ts') := canonical.read limit close
  rw [h] at found
  obtain ⟨-, same⟩ := reach_eq_ok_iff.mp found.symm
  cases same
  exact canonical

theorem operand_canonical {e : Expr} (h : operand (stmt limit) s = .ok (rest, e)) :
    Derives .canonical (.operand e) s rest := by
  rcases orElse_eq_ok_iff.mp h with h | ⟨-, -, h⟩
  · obtain ⟨w, hw, short, small, rfl⟩ := number_eq_ok_iff.mp h
    exact .number hw small short
  · rcases orElse_eq_ok_iff.mp h with h | ⟨-, -, h⟩
    · obtain ⟨name, hn, rfl⟩ := usage_eq_ok_iff.mp h
      exact .usage hn
    · obtain ⟨s₁, s₂, ts, rfl, hm, close, rfl⟩ := block_eq_ok_iff.mp h
      have trimmed := (stmt_reads limit).not_blank hm (ahead_trimStart s₁)
      rw [trimStart_eq_self trimmed] at close
      subst close
      exact .block (blanks_trimStart s₁) (many_canonical hm rfl)

theorem expr_canonical {e : Expr} (h : expr (stmt limit) s = .ok (rest, e)) :
    Derives .canonical (.expr e) s rest := by
  rcases orElse_eq_ok_iff.mp h with h | ⟨-, -, h⟩
  · obtain ⟨s₁, s₂, lhs, rhs, op, hl, sign, hr, rfl⟩ := operation_eq_ok_iff.mp h
    have gap := sign ▸ blanks_trimStart s₁
    exact .operation (operand_canonical hl) gap (blanks_trimStart s₂) (operand_canonical hr)
  · exact .operand (operand_canonical h)

/-- What a statement took up has a canonical derivation by itself. In the whole text it need not
have one: the word of a definition that cannot be read as such is a name there. -/
theorem stmt_canonical {t : Stmt} (h : stmt limit s = .ok (r, t)) :
    ∃ c, s = c ++ r ∧ Derives .canonical (.stmt t) c [] := by
  induction limit generalizing s t with
  | zero => cases h
  | succ limit ih =>
      rcases orElse_eq_ok_iff.mp h with h | ⟨-, -, h⟩
      · obtain ⟨s₁, name, v, hh, hv, rfl⟩ := binding_eq_ok_iff.mp h
        obtain ⟨s₁, rfl, value⟩ := (expr_canonical hv).cut (List.nil_append r).symm
        obtain ⟨c, rfl, head⟩ := (bindingHead_eq_ok_iff.mp hh).1.cut
        exact ⟨c, rfl, .binding head value⟩
      · rcases orElse_eq_ok_iff.mp h with h | ⟨-, -, h⟩
        · obtain ⟨s₁, name, params, body, hh, hb, rfl⟩ := function_eq_ok_iff.mp h
          obtain ⟨s₁, rfl, inner⟩ := ih hb
          obtain ⟨c, rfl, head⟩ := (functionHead_eq_ok_iff.mp hh).1.cut
          exact ⟨c, rfl, .function head inner⟩
        · obtain ⟨e, he, rfl⟩ := exprStmt_eq_ok_iff.mp h
          obtain ⟨c, rfl, whole⟩ := (expr_canonical he).cut (List.nil_append r).symm
          refine ⟨c, rfl, .bare (fun definition => ?_) whole⟩
          -- the expression would be the word of the definition, and a name come behind it
          obtain ⟨name, s₁, s₂, ⟨n, none⟩, -⟩ := definition.before_name whole
          cases none

/-- Whatever follows a statement that is read, the text that the statement takes up begins and ends
with characters that are not blank, and is read by itself to its end, as the same tree. -/
theorem stmt_consumes {t : Stmt} (h : stmt limit s = .ok (r, t)) :
    ∃ c, s = c ++ r ∧ c ≠ [] ∧ (∀ a ∈ c.head?, isBlank a = false) ∧
      (∀ b ∈ c.getLast?, isBlank b = false) ∧
      stmt limit c = .ok ([], t) ∧ parseWithin limit c = .ok t := by
  obtain ⟨c, rfl, canonical⟩ := stmt_canonical h
  have level : t.depth ≤ limit := ((stmt_reads limit).derives h).2
  have alone : stmt limit c = reach limit t.depth ([], t) := canonical.read limit rfl
  rw [reach_of_le level] at alone
  have first : ahead isBlank c = false := not_blank_of_opens canonical.begun
  obtain ⟨b, ink, v, rfl⟩ := canonical.ended
  refine ⟨v ++ [b], rfl, List.append_ne_nil_of_right_ne_nil v (List.cons_ne_nil b []), ?_, ?_,
    alone, parseWithin_eq_ok_iff.mpr alone⟩
  · intro a member
    obtain ⟨tail, text⟩ := List.head?_eq_some_iff.mp member
    rw [text] at first
    exact first
  · intro b' member
    rw [List.getLast?_concat] at member
    cases member
    exact ink

/-- A function whose body is the word of a binding without a value: by itself the text is not even
the beginning of a binding. -/
theorem stmt_consumes_word :
    stmt nestingLimit "fn f => let x = \x7d".toList =
        .ok (" x = \x7d".toList, .function ['f'] [] (.expr (.usage ['l', 'e', 't']))) ∧
      parse "fn f => let".toList = .ok (.function ['f'] [] (.expr (.usage ['l', 'e', 't']))) := by
  have reading : stmt nestingLimit "fn f => let x = \x7d".toList =
      .ok (" x = \x7d".toList, .function ['f'] [] (.expr (.usage ['l', 'e', 't']))) := by
    decide +kernel
  obtain ⟨c, text, -, -, -, -, alone⟩ := stmt_consumes reading
  have whole : "fn f => let".toList ++ " x = \x7d".toList = c ++ " x = \x7d".toList := text
  exact ⟨reading, List.append_cancel_right whole ▸ alone⟩

end
end BlockCalc.Grammar
