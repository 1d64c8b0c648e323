import BlockCalc.Proofs.Grammar.Canonical
/-! Every derivation has a canonical one beside it. The words of definitions are names, so that in
a block a definition may also be derived as several statements: its word and names standing alone,
up to a function of their last word. The canonical derivation takes them together. The trees
differ, but the text is derived to the same end. -/
namespace BlockCalc.Grammar
variable {p : Proviso}

theorem NamesAt.no_sign {names : List Text} {s rest : Text} (h : NamesAt names s rest)
    (stop : ahead isSign rest = false) : ahead isSign s = false := by
  cases h with
  | nil => exact stop
  | cons hn hb hs => exact no_sign_of_opens (ahead_opens_of_name hn)

theorem trimStart_unique {s s₁ s₂ : Text} (h : Blanks s s₁) (stop : ahead isBlank s₁ = false)
    (h' : Blanks s s₂) (stop' : ahead isBlank s₂ = false) : s₁ = s₂ :=
  (trimStart_eq_iff.mpr ⟨h, stop⟩).symm.trans (trimStart_eq_iff.mpr ⟨h', stop'⟩)

/-- Statements do not begin where nothing opens one, and there are none only at the close. -/
theorem no_stmts {c : Char} {ts : List Stmt} {s rest : Text} (opened : opens c = false)
    (other : c ≠ '}') (close : Closes rest) : ¬ Derives p (.stmts ts) (c :: s) rest := by
  intro h
  have first := h.begun
  cases ts with
  | nil =>
      have same : c :: s = rest := first
      rw [← same] at close
      exact other close
  | cons t ts =>
      have opened' : opens c = true := first
      rw [opened] at opened'
      cases opened'

/-- The statements behind a word that stands alone begin with the name behind the word. -/
theorem stmts_of_word {w name s s₁ s₂ r r₁ rest : Text} {e : Expr} {ts : List Stmt}
    (hw : isName w = true) (hs : Spaces s s₁) (hn : NameAt name s₁ s₂)
    (he : Derives p (.expr e) (w ++ s) r) (hg : Blanks r r₁) (hts : Derives p (.stmts ts) r₁ rest)
    (close : Closes rest) : r = s ∧ r₁ = s₁ := by
  obtain rfl := he.expr_of_word hw hs hn
  exact ⟨rfl, trimStart_unique hg (hts.not_blank close.not_blank) hs.blanks (not_blank_of_name hn)⟩

/-- Statements that begin with the names of an arrow hold a function with this arrow, behind names
that stand alone. -/
theorem body_of_stmts {names : List Text} {ts : List Stmt} {s s₁ rest : Text}
    (hn : NamesAt names s ('=' :: '>' :: s₁)) (h : Derives p (.stmts ts) s rest)
    (close : Closes rest) :
    ∃ (body : Stmt) (ts' : List Stmt) (r r₁ r₂ : Text), Blanks s₁ r ∧
      Derives p (.stmt body) r r₁ ∧ Blanks r₁ r₂ ∧ Derives p (.stmts ts') r₂ rest := by
  induction names generalizing s ts with
  | nil =>
      cases hn
      exact False.elim (no_stmts rfl (by decide) close h)
  | cons name names ih =>
      obtain - | @⟨_, _, _, s₂, s₃, _, first, gap, others⟩ := hn
      have next : ahead isBlank s₃ = false := others.not_blank rfl
      cases h with
      | nil => exact False.elim (close.not_name first)
      | @cons t ts _ r r₁ _ ht hb hts =>
          cases ht with
          | bare hp he =>
              have sign : SignAhead s₂ = false :=
                (signAhead_eq gap next).trans (others.no_sign rfl)
              obtain ⟨-, rfl⟩ := he.expr_of_name first sign
              obtain rfl := trimStart_unique gap next hb (hts.not_blank close.not_blank)
              exact ih others hts
          | @function name' params body _ r' _ hh hbody =>
              obtain ⟨hs, hn', hb', hp', hr'⟩ := hh
              obtain ⟨-, rfl⟩ := (nameAt_word (w := ['f', 'n']) rfl hs).unique first
              obtain rfl := trimStart_unique gap next hs.blanks (not_blank_of_name hn')
              have same := (NamesAt.cons hn' hb' hp').unique others rfl rfl rfl rfl
              cases same.2
              exact ⟨body, ts, r', r, r₁, hr', hbody, hb, hts⟩
          | @binding name' v _ r' _ hh hv =>
              obtain ⟨hs, hn', hb', hr'⟩ := hh
              obtain ⟨-, rfl⟩ := (nameAt_word (w := ['l', 'e', 't']) rfl hs).unique first
              obtain rfl := trimStart_unique gap next hs.blanks (not_blank_of_name hn')
              have same := (NamesAt.cons hn' hb' .nil).unique others rfl rfl rfl rfl
              cases same.2
              -- the arrow would be a sign with its second character in front of the value
              have value := trimStart_unique hr' (not_blank_of_opens hv.begun) (.refl _) rfl
              have opened := hv.begun
              rw [value] at opened
              cases opened

/-- No statement begins with a name behind which the sign of a binding comes. -/
theorem no_stmts_at_sign {name : Text} {ts : List Stmt} {s s₁ s₂ rest : Text}
    (hn : NameAt name s s₁) (hb : Blanks s₁ ('=' :: s₂)) (close : Closes rest) :
    ¬ Derives p (.stmts ts) s rest := by
  intro h
  have no_name : ∀ {r name' r'}, Spaces s₁ r → ¬ NameAt name' r r' := by
    intro r name' r' hs hn'
    obtain rfl := trimStart_unique hb rfl hs.blanks (not_blank_of_name hn')
    cases hn'.ahead
  cases h with
  | nil => exact close.not_name hn
  | @cons t ts _ r r₁ _ ht hg hts =>
      cases ht with
      | bare hp he =>
          obtain ⟨-, rfl⟩ := he.expr_of_name hn (signAhead_eq hb rfl)
          obtain rfl := trimStart_unique hb rfl hg (hts.not_blank close.not_blank)
          exact no_stmts rfl (by decide) close hts
      | function hh hbody =>
          obtain ⟨hs, hn', -, -, -⟩ := hh
          obtain ⟨-, rfl⟩ := (nameAt_word (w := ['f', 'n']) rfl hs).unique hn
          exact no_name hs hn'
      | binding hh hv =>
          obtain ⟨hs, hn', -, -⟩ := hh
          obtain ⟨-, rfl⟩ := (nameAt_word (w := ['l', 'e', 't']) rfl hs).unique hn
          exact no_name hs hn'

/-! ## Normal forms -/

/-- What normal forms give for a text: a canonical statement where statements begin, with
statements left to the same end, and none left if there were none; and canonical statements. -/
structure Normal (s : Text) : Prop where
  stmt : ∀ {t ts s₁ s₂ rest}, Derives .short (.stmt t) s s₁ → Blanks s₁ s₂ →
    Derives .short (.stmts ts) s₂ rest → Closes rest →
      ∃ (t' : Stmt) (ts' : List Stmt) (r r₁ : Text), Derives .canonical (.stmt t') s r ∧
        Blanks r r₁ ∧ Derives .short (.stmts ts') r₁ rest ∧ (ts = [] → r = s₁)
  stmts : ∀ {ts rest}, Derives .short (.stmts ts) s rest → Closes rest →
    ∃ ts', Derives .canonical (.stmts ts') s rest

section
variable {n : Nat} {s rest : Text}

theorem operand_normal (below : ∀ s, s.length < n → Normal s) (bound : s.length ≤ n) {e : Expr}
    (h : Derives .short (.operand e) s rest) : ∃ e', Derives .canonical (.operand e') s rest := by
  cases h with
  | number hw small short => exact ⟨_, .number hw small short⟩
  | usage hn => exact ⟨_, .usage hn⟩
  | @block ts s s₁ _ hb hs =>
      have shorter : s₁.length < n := Nat.lt_of_le_of_lt hb.suffix.length_le bound
      obtain ⟨ts', canonical⟩ := (below s₁ shorter).stmts hs rfl
      exact ⟨_, .block hb canonical⟩

theorem expr_normal (below : ∀ s, s.length < n → Normal s) (bound : s.length ≤ n) {e : Expr}
    (h : Derives .short (.expr e) s rest) : ∃ e', Derives .canonical (.expr e') s rest := by
  cases h with
  | operand h =>
      obtain ⟨e', canonical⟩ := operand_normal below bound h
      exact ⟨_, .operand canonical⟩
  | @operation a b _ s₁ s₂ s₃ _ op ha hb hc hd =>
      have suffix := (hb.suffix_of_sign hc).trans ha.suffix
      have within : s₃.length ≤ n := Nat.le_trans suffix.length_le bound
      obtain ⟨a', left⟩ := operand_normal below bound ha
      obtain ⟨b', right⟩ := operand_normal below within hd
      exact ⟨_, .operation left hb hc right⟩

/-- A function is canonical with the canonical form of its body. -/
theorem function_normal {name : Text} {params : List Text} {body : Stmt} {ts : List Stmt}
    {s₁ s₂ s₃ : Text} (below : ∀ s', s'.length < s.length → Normal s')
    (hh : FunctionHead name params s s₁) (hb : Derives .short (.stmt body) s₁ s₂)
    (hg : Blanks s₂ s₃) (hts : Derives .short (.stmts ts) s₃ rest) (close : Closes rest) :
    ∃ (t' : Stmt) (ts' : List Stmt) (r r₁ : Text), Derives .canonical (.stmt t') s r ∧
      Blanks r r₁ ∧ Derives .short (.stmts ts') r₁ rest ∧ (ts = [] → r = s₂) := by
  have shorter : s₁.length < s.length := hh.length_lt
  obtain ⟨body', ts', r, r₁, canonical, gap, left, last⟩ := (below s₁ shorter).stmt hb hg hts close
  exact ⟨_, ts', r, r₁, .function hh canonical, gap, left, last⟩

theorem stmt_normal {t : Stmt} {ts : List Stmt} {s₁ s₂ : Text}
    (below : ∀ s', s'.length < s.length → Normal s') (ht : Derives .short (.stmt t) s s₁)
    (hg : Blanks s₁ s₂) (hts : Derives .short (.stmts ts) s₂ rest) (close : Closes rest) :
    ∃ (t' : Stmt) (ts' : List Stmt) (r r₁ : Text), Derives .canonical (.stmt t') s r ∧
      Blanks r r₁ ∧ Derives .short (.stmts ts') r₁ rest ∧ (ts = [] → r = s₁) := by
  cases ht with
  | @binding name v _ s' _ hh hv =>
      obtain ⟨v', canonical⟩ := expr_normal below hh.suffix.length_le hv
      exact ⟨_, ts, s₁, s₂, .binding hh canonical, hg, hts, fun _ => rfl⟩
  | function hh hb => exact function_normal below hh hb hg hts close
  | bare _ he =>
      by_cases definition : DefinitionAhead s
      · -- the word of the definition stands alone, and what follows it are statements
        rcases definition with ⟨name, r, hh⟩ | ⟨name, params, r, hh⟩
        · obtain ⟨hs, hn, hb, -⟩ := hh
          obtain ⟨rfl, rfl⟩ := stmts_of_word (w := ['l', 'e', 't']) rfl hs hn he hg hts close
          exact False.elim (no_stmts_at_sign hn hb close hts)
        · obtain ⟨hs, hn, hb, hp, -⟩ := hh
          obtain ⟨rfl, rfl⟩ := stmts_of_word (w := ['f', 'n']) rfl hs hn he hg hts close
          obtain ⟨body, ts', q, q₁, q₂, hr, hbody, gap, others⟩ :=
            body_of_stmts (.cons hn hb hp) hts close
          have head := FunctionHead.intro hs hn hb hp hr
          obtain ⟨t', ts'', r, r₁, canonical, gap', left, -⟩ :=
            function_normal below head hbody gap others close
          refine ⟨t', ts'', r, r₁, canonical, gap', left, ?_⟩
          rintro rfl
          cases hts
          exact False.elim (close.not_name hn)
      · obtain ⟨e', canonical⟩ := expr_normal below (Nat.le_refl _) he
        exact ⟨_, ts, s₁, s₂, .bare definition canonical, hg, hts, fun _ => rfl⟩

theorem stmts_normal {ts : List Stmt} (below : ∀ s', s'.length < s.length → Normal s')
    (h : Derives .short (.stmts ts) s rest) (close : Closes rest) :
    ∃ ts', Derives .canonical (.stmts ts') s rest := by
  cases h with
  | nil => exact ⟨[], .nil⟩
  | cons ht hg hts =>
      obtain ⟨t', ts', r, r₁, canonical, gap, left, -⟩ := stmt_normal below ht hg hts close
      have shorter : r₁.length < s.length :=
        Nat.lt_of_le_of_lt gap.suffix.length_le canonical.advances
      obtain ⟨ts'', others⟩ := (below r₁ shorter).stmts left close
      exact ⟨t' :: ts'', .cons canonical gap others⟩

theorem normal (s : Text) : Normal s := by
  induction h : s.length using Nat.strongRecOn generalizing s with
  | ind n ih =>
      subst h
      have below : ∀ s', s'.length < s.length → Normal s' := fun s' shorter => ih _ shorter s' rfl
      exact ⟨stmt_normal below, stmts_normal below⟩

theorem Derives.normal {t : Stmt} {s : Text} (h : Derives .short (.stmt t) s []) :
    ∃ t', Derives .canonical (.stmt t') s [] := by
  obtain ⟨t', ts', r, r₁, canonical, -, -, last⟩ :=
    (Grammar.normal s).stmt h (.refl []) .nil trivial
  obtain rfl := last rfl
  exact ⟨t', canonical⟩

end
end BlockCalc.Grammar
