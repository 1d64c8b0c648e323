import BlockCalc.Proofs.Grammar.Tokens
/-! Heads of definitions: everything in front of the value of a binding or the body of a function.
A head holds no statement, so whether a text begins with one is decided by its tokens alone; and
reading a head can only fail by a mismatch. -/
namespace BlockCalc.Grammar

theorem not_blank_of_name {name s rest : Text} (h : NameAt name s rest) :
    ahead isBlank s = false := by
  have first := h.ahead
  cases s with
  | nil => rfl
  | cons c s => exact isBlank_eq_false_of_isAlphanum (isAlphanum_of_isAlpha first)

/-! ## Names -/

theorem NamesAt.not_blank {names : List Text} {s rest : Text} (h : NamesAt names s rest)
    (stop : ahead isBlank rest = false) : ahead isBlank s = false := by
  cases h with
  | nil => exact stop
  | cons hn hb hs => exact not_blank_of_name hn

theorem NamesAt.suffix {names : List Text} {s rest : Text} (h : NamesAt names s rest) :
    rest <:+ s := by
  induction h with
  | nil => exact List.suffix_rfl
  | cons hn hb hs ih => exact ih.trans (hb.suffix.trans hn.suffix)

theorem NamesAt.valid {names : List Text} {s rest : Text} (h : NamesAt names s rest) :
    names.all isName = true := by
  induction h with
  | nil => rfl
  | cons hn hb hs ih => exact Bool.and_eq_true_iff.mpr ⟨hn.valid, ih⟩

theorem identifier_mismatch {s : Text} (h : ahead Char.isAlpha s = false) :
    ∃ e, identifier s = .error (.mismatch e) := by
  rcases (identifier_yields s).cases with ⟨⟨rest, name⟩, found⟩ | mismatch
  · have first := (identifier_eq_ok_iff.mp found).ahead
    rw [h] at first
    cases first
  · exact mismatch

theorem namesAt_of_many {names : List Text} {s rest : Text}
    (h : many identifier s = .ok (rest, names)) : NamesAt names s rest := by
  refine many_ok_induction (P := NamesAt) ?_ (fun _ => .nil) ?_ h
  · exact fun found => (identifier_eq_ok_iff.mp found).length_lt
  · exact fun found later => .cons (identifier_eq_ok_iff.mp found) (blanks_trimStart _) later

theorem many_identifier {names : List Text} {s rest : Text} (h : NamesAt names s rest)
    (blank : ahead isBlank rest = false) (alpha : ahead Char.isAlpha rest = false) :
    many identifier s = .ok (rest, names) := by
  induction h with
  | nil =>
      obtain ⟨e, mismatch⟩ := identifier_mismatch alpha
      exact many_of_mismatch mismatch
  | cons hn hb hs ih =>
      have next := trimStart_eq_iff.mpr ⟨hb, hs.not_blank blank⟩
      rw [many_of_ok (identifier_eq_ok_iff.mpr hn) hn.length_lt, next, ih blank alpha]
      rfl

theorem many_identifier_yields (s : Text) : Yields (many identifier s) := by
  intro failure h
  refine many_error_induction (P := fun _ => ∃ e, failure = .mismatch e) ?_ (fun _ h => h) h
  exact fun s here _ => identifier_yields s failure here

/-- Names end where no letter goes on, so they are determined by the text. -/
theorem NamesAt.unique {names names' : List Text} {s rest rest' : Text}
    (h : NamesAt names s rest) (h' : NamesAt names' s rest')
    (blank : ahead isBlank rest = false) (alpha : ahead Char.isAlpha rest = false)
    (blank' : ahead isBlank rest' = false) (alpha' : ahead Char.isAlpha rest' = false) :
    names = names' ∧ rest = rest' := by
  have same := (many_identifier h blank alpha).symm.trans (many_identifier h' blank' alpha')
  exact ⟨(Prod.mk.inj (Except.ok.inj same)).2, (Prod.mk.inj (Except.ok.inj same)).1⟩

/-! ## The two heads -/

/-- The head of a binding: the word, the name, and the sign. -/
inductive BindingHead (name : Text) : Text → Text → Prop
  | intro {s s₁ s₂ s₃ rest} : Spaces s s₁ → NameAt name s₁ s₂ → Blanks s₂ ('=' :: s₃) →
      Blanks s₃ rest → BindingHead name ('l' :: 'e' :: 't' :: s) rest

/-- The head of a function: the word, the name, the parameters, and the arrow. -/
inductive FunctionHead (name : Text) (params : List Text) : Text → Text → Prop
  | intro {s s₁ s₂ s₃ s₄ rest} : Spaces s s₁ → NameAt name s₁ s₂ → Blanks s₂ s₃ →
      NamesAt params s₃ ('=' :: '>' :: s₄) → Blanks s₄ rest →
      FunctionHead name params ('f' :: 'n' :: s) rest

def DefinitionAhead (s : Text) : Prop :=
  (∃ name rest, BindingHead name s rest) ∨ ∃ name params rest, FunctionHead name params s rest

/-- Reads the head of a binding, and the blank characters behind it. -/
def bindingHead : Rule Text := fun s => do
  let s ← expect ['l', 'e', 't'] s
  let (s, _) ← spaces s
  let (s, name) ← identifier s
  let s ← expect ['='] s.trimStart
  return (s.trimStart, name)

def functionHead : Rule (Text × List Text) := fun s => do
  let s ← expect ['f', 'n'] s
  let (s, _) ← spaces s
  let (s, name) ← identifier s
  let (s, params) ← many identifier s.trimStart
  let s ← expect ['=', '>'] s
  return (s.trimStart, name, params)

theorem binding_eq (stmt : Rule Stmt) (s : Text) :
    binding stmt s = do
      let (s, name) ← bindingHead s
      let (s, value) ← expr stmt s
      return (s, .binding name value) := by
  simp only [binding, bindingOf, bindingHead, bind_assoc, pure_bind]

theorem function_eq (stmt : Rule Stmt) (s : Text) :
    function stmt s = do
      let (s, name, params) ← functionHead s
      let (s, body) ← stmt s
      return (s, .function name params body) := by
  simp only [function, functionHead, bind_assoc, pure_bind]

theorem exprStmt_eq (stmt : Rule Stmt) (s : Text) :
    exprStmt stmt s = do
      let (s, e) ← expr stmt s
      return (s, .expr e) := rfl

theorem spaces_before_name {name s s₁ s₂ : Text} (h : Spaces s s₁) (hn : NameAt name s₁ s₂) :
    ∃ w, spaces s = .ok (s₁, w) := by
  obtain ⟨n, rfl⟩ := h
  have stop := not_space_of_not_blank (not_blank_of_name hn)
  refine ⟨_, spaces_eq_ok_iff.mpr ⟨?_, ?_, rfl, stop⟩⟩
  · rw [List.length_replicate]
  · exact List.cons_ne_nil _ _

theorem spaces_of_ok {w s rest : Text} (h : spaces s = .ok (rest, w)) : Spaces s rest := by
  obtain ⟨run, nonempty, text, -⟩ := spaces_eq_ok_iff.mp h
  have positive := List.length_pos_iff.mpr nonempty
  refine ⟨w.length - 1, ?_⟩
  rw [Nat.sub_add_cancel positive, ← run]
  exact text

theorem bindingHead_eq_ok_iff {name s rest : Text} :
    bindingHead s = .ok (rest, name) ↔ BindingHead name s rest ∧ ahead isBlank rest = false := by
  simp only [bindingHead, bind_eq_ok_iff, expect_eq_ok_iff, Prod.exists, pure, Except.pure,
    Except.ok.injEq, Prod.mk.injEq, identifier_eq_ok_iff]
  constructor
  · rintro ⟨s₁, rfl, s₂, w, hw, s₃, n, hn, s₄, sign, rfl, rfl⟩
    have gap : Blanks s₃ ('=' :: s₄) := (trimStart_eq_iff.mp sign).1
    exact ⟨.intro (spaces_of_ok hw) hn gap (blanks_trimStart s₄), ahead_trimStart s₄⟩
  · rintro ⟨@⟨s, s₁, s₂, s₃, rest, hs, hn, hb, hr⟩, stop⟩
    obtain ⟨w, hw⟩ := spaces_before_name hs hn
    have sign := trimStart_eq_iff.mpr ⟨hb, rfl⟩
    exact ⟨s, rfl, s₁, w, hw, s₂, name, hn, s₃, sign, trimStart_eq_iff.mpr ⟨hr, stop⟩, rfl⟩

theorem functionHead_eq_ok_iff {name s rest : Text} {params : List Text} :
    functionHead s = .ok (rest, name, params) ↔
      FunctionHead name params s rest ∧ ahead isBlank rest = false := by
  simp only [functionHead, bind_eq_ok_iff, expect_eq_ok_iff, Prod.exists, pure, Except.pure,
    Except.ok.injEq, Prod.mk.injEq, identifier_eq_ok_iff]
  constructor
  · rintro ⟨s₁, rfl, s₂, w, hw, s₃, n, hn, s₄, ps, hp, s₅, rfl, rfl, rfl, rfl⟩
    have names := namesAt_of_many hp
    exact ⟨.intro (spaces_of_ok hw) hn (blanks_trimStart s₃) names (blanks_trimStart s₅),
      ahead_trimStart s₅⟩
  · rintro ⟨@⟨s, s₁, s₂, s₃, s₄, rest, hs, hn, hb, hp, hr⟩, stop⟩
    obtain ⟨w, hw⟩ := spaces_before_name hs hn
    have next := trimStart_eq_iff.mpr ⟨hb, hp.not_blank rfl⟩
    have names := many_identifier hp rfl rfl
    exact ⟨s, rfl, s₁, w, hw, s₂, name, hn, '=' :: '>' :: s₄, params, next ▸ names, s₄, rfl,
      trimStart_eq_iff.mpr ⟨hr, stop⟩, rfl, rfl⟩

theorem bindingHead_yields (s : Text) : Yields (bindingHead s) :=
  .bind (expect_yields _ _) fun _ => .bind (spaces_yields _) fun _ =>
    .bind (identifier_yields _) fun _ => .bind (expect_yields _ _) fun _ => .ok _

theorem functionHead_yields (s : Text) : Yields (functionHead s) :=
  .bind (expect_yields _ _) fun _ => .bind (spaces_yields _) fun _ =>
    .bind (identifier_yields _) fun _ => .bind (many_identifier_yields _) fun _ =>
      .bind (expect_yields _ _) fun _ => .ok _

end BlockCalc.Grammar
