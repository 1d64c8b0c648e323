import BlockCalc.Proofs.Grammar.Heads
import BlockCalc.Proofs.Tree.WellFormed
/-! The grammar as a relation. A phrase is derived between a place in a text and a later one, each
given by what is left of the text there; nothing is said about an order of attempts, so one text
may have several derivations. What a rule reads has a derivation, which is the sound half of the
comparison of reading and grammar. -/
namespace BlockCalc.Grammar

/-- A tree in the part that it plays in the grammar. -/
inductive Phrase where
  | operand (e : Expr)
  | expr (e : Expr)
  | stmt (t : Stmt)
  | stmts (ts : List Stmt)

/-- What a derivation has to respect beyond the rules: which digits may be a number, and at which
texts an expression may stand as a statement. -/
structure Proviso where
  numeral : Text → Prop
  bare : Text → Prop

/-- No proviso at all: the grammar as it is documented. -/
def Proviso.free : Proviso := ⟨fun _ => True, fun _ => True⟩

/-- Numbers as long as they are read at all. -/
def Proviso.short : Proviso := ⟨fun w => w.length ≤ literalLimit, fun _ => True⟩

/-- An expression stands as a statement only where no definition begins. -/
def Proviso.canonical : Proviso :=
  ⟨fun w => w.length ≤ literalLimit, fun s => ¬ DefinitionAhead s⟩

/-- The rules of the grammar, one for each constructor of a tree in each of its parts. -/
inductive Derives (p : Proviso) : Phrase → Text → Text → Prop
  | number {w s rest} : NumeralAt w s rest → (Decimal.value w : Int) ≤ greatestNumber →
      p.numeral w → Derives p (.operand (.number (Decimal.value w))) s rest
  | usage {name s rest} : NameAt name s rest → Derives p (.operand (.usage name)) s rest
  | block {ts s s₁ rest} : Blanks s s₁ → Derives p (.stmts ts) s₁ ('}' :: rest) →
      Derives p (.operand (.block ts)) ('{' :: s) rest
  | operand {e s rest} : Derives p (.operand e) s rest → Derives p (.expr e) s rest
  | operation {a b s s₁ s₂ s₃ rest} {op : Op} : Derives p (.operand a) s s₁ →
      Blanks s₁ (op.symbol ++ s₂) → Blanks s₂ s₃ → Derives p (.operand b) s₃ rest →
      Derives p (.expr (.operation a b op)) s rest
  | binding {name v s s₁ rest} : BindingHead name s s₁ → Derives p (.expr v) s₁ rest →
      Derives p (.stmt (.binding name v)) s rest
  | function {name params body s s₁ rest} : FunctionHead name params s s₁ →
      Derives p (.stmt body) s₁ rest → Derives p (.stmt (.function name params body)) s rest
  | bare {e s rest} : p.bare s → Derives p (.expr e) s rest → Derives p (.stmt (.expr e)) s rest
  | nil {s} : Derives p (.stmts []) s s
  | cons {t ts s s₁ s₂ rest} : Derives p (.stmt t) s s₁ → Blanks s₁ s₂ →
      Derives p (.stmts ts) s₂ rest → Derives p (.stmts (t :: ts)) s rest

theorem Derives.mono {p q : Proviso} (numeral : ∀ w, p.numeral w → q.numeral w)
    (bare : ∀ s, p.bare s → q.bare s) {ph : Phrase} {s rest : Text} (h : Derives p ph s rest) :
    Derives q ph s rest := by
  induction h with
  | number hn hv hp => exact .number hn hv (numeral _ hp)
  | usage hn => exact .usage hn
  | block hb hs ih => exact .block hb ih
  | operand he ih => exact .operand ih
  | operation ha hb hc hd ia ib => exact .operation ia hb hc ib
  | binding hh hv ih => exact .binding hh ih
  | function hh hb ih => exact .function hh ih
  | bare hp he ih => exact .bare (bare _ hp) ih
  | nil => exact .nil
  | cons ht hb hs it is => exact .cons it hb is

/-! ## What a derivation consumes -/

theorem BindingHead.suffix {name s rest : Text} (h : BindingHead name s rest) :
    rest <:+ s := by
  obtain ⟨hs, hn, hb, hr⟩ := h
  have tail := hr.suffix.trans ((List.suffix_cons _ _).trans hb.suffix)
  exact tail.trans (hn.suffix.trans (hs.blanks.suffix.trans (List.suffix_append ['l', 'e', 't'] _)))

theorem FunctionHead.suffix {name s rest : Text} {params : List Text}
    (h : FunctionHead name params s rest) : rest <:+ s := by
  obtain ⟨hs, hn, hb, hp, hr⟩ := h
  have tail := hr.suffix.trans ((List.suffix_append ['=', '>'] _).trans hp.suffix)
  exact tail.trans (hb.suffix.trans
    (hn.suffix.trans (hs.blanks.suffix.trans (List.suffix_append ['f', 'n'] _))))

theorem FunctionHead.length_lt {name s rest : Text} {params : List Text}
    (h : FunctionHead name params s rest) : rest.length < s.length := by
  obtain ⟨hs, hn, hb, hp, hr⟩ := h
  have tail := hr.suffix.trans ((List.suffix_append ['=', '>'] _).trans hp.suffix)
  have bound := (tail.trans (hb.suffix.trans hn.suffix)).length_le
  have spaces := hs.length_lt
  simp only [List.length_cons]
  omega

/-- The second operand of an operation stands behind the first. -/
theorem Blanks.suffix_of_sign {op : Op} {s s₁ s₂ : Text} (hb : Blanks s (op.symbol ++ s₁))
    (hc : Blanks s₁ s₂) : s₂ <:+ s :=
  hc.suffix.trans ((List.suffix_append op.symbol s₁).trans hb.suffix)

variable {p : Proviso}

theorem Derives.suffix {ph : Phrase} {s rest : Text} (h : Derives p ph s rest) : rest <:+ s := by
  induction h with
  | number hn => exact hn.text ▸ List.suffix_append _ _
  | usage hn => exact hn.suffix
  | block hb hs ih =>
      exact (List.suffix_cons _ _).trans (ih.trans (hb.suffix.trans (List.suffix_cons _ _)))
  | operand he ih => exact ih
  | operation ha hb hc hd ia ib =>
      exact ib.trans ((hb.suffix_of_sign hc).trans ia)
  | binding hh hv ih => exact ih.trans hh.suffix
  | function hh hb ih => exact ih.trans hh.suffix
  | bare hp he ih => exact ih
  | nil => exact List.suffix_rfl
  | cons ht hb hs it is => exact is.trans (hb.suffix.trans it)

def Phrase.Advances : Phrase → Text → Text → Prop
  | .stmts _, s, rest => rest.length ≤ s.length
  | _, s, rest => rest.length < s.length

theorem Derives.advances {ph : Phrase} {s rest : Text} (h : Derives p ph s rest) :
    ph.Advances s rest := by
  induction h with
  | number hn =>
      obtain ⟨rfl, nonempty, -, -⟩ := hn
      have positive := List.length_pos_iff.mpr nonempty
      simp only [Phrase.Advances, List.length_append]
      omega
  | usage hn => exact hn.length_lt
  | block hb hs ih =>
      have inner := hb.suffix.length_le
      simp only [Phrase.Advances, List.length_cons] at ih ⊢
      omega
  | operand he ih => exact ih
  | operation ha hb hc hd ia ib =>
      have first := hb.suffix.length_le
      have second := hc.suffix.length_le
      simp only [Phrase.Advances, List.length_append] at ia ib first ⊢
      omega
  | binding hh hv ih => exact Nat.lt_of_lt_of_le ih hh.suffix.length_le
  | function hh hb ih => exact Nat.lt_of_lt_of_le ih hh.suffix.length_le
  | bare hp he ih => exact ih
  | nil => exact Nat.le_refl _
  | cons ht hb hs it is =>
      exact Nat.le_trans is (Nat.le_trans hb.suffix.length_le (Nat.le_of_lt it))

/-- The characters with which an expression or a definition can begin. -/
def opens (c : Char) : Bool := c.isAlphanum || c == '{'

def Phrase.Begun : Phrase → Text → Text → Prop
  | .stmts [], s, rest => s = rest
  | _, s, _ => ahead opens s = true

theorem opens_of_isAlphanum {c : Char} (h : c.isAlphanum = true) : opens c = true := by
  simp only [opens, h, Bool.true_or]

theorem ahead_opens_of_name {name s rest : Text} (h : NameAt name s rest) :
    ahead opens s = true := by
  have first := h.ahead
  cases s with
  | nil => cases first
  | cons c s => exact opens_of_isAlphanum (isAlphanum_of_isAlpha first)

theorem Derives.begun {ph : Phrase} {s rest : Text} (h : Derives p ph s rest) :
    ph.Begun s rest := by
  induction h with
  | @number w s rest hn hv hp =>
      obtain ⟨rfl, nonempty, valid, -⟩ := hn
      cases w with
      | nil => exact False.elim (nonempty rfl)
      | cons c w => exact opens_of_isAlphanum (isAlphanum_of_isDigit (valid c List.mem_cons_self))
  | usage hn => exact ahead_opens_of_name hn
  | block hb hs ih => rfl
  | operand he ih => exact ih
  | operation ha hb hc hd ia ib => exact ia
  | binding hh hv ih =>
      cases hh
      rfl
  | function hh hb ih =>
      cases hh
      rfl
  | bare hp he ih => exact ih
  | nil => rfl
  | cons ht hb hs it is => exact it

theorem not_blank_of_opens {s : Text} (h : ahead opens s = true) : ahead isBlank s = false := by
  cases s with
  | nil => cases h
  | cons c s =>
      simp only [ahead_cons, opens, Bool.or_eq_true, beq_iff_eq] at h ⊢
      rcases h with h | rfl
      · exact isBlank_eq_false_of_isAlphanum h
      · rfl

theorem Derives.not_blank {ph : Phrase} {s rest : Text} (h : Derives p ph s rest)
    (stop : ahead isBlank rest = false) : ahead isBlank s = false := by
  have first := h.begun
  cases ph with
  | operand e => exact not_blank_of_opens first
  | expr e => exact not_blank_of_opens first
  | stmt t => exact not_blank_of_opens first
  | stmts ts =>
      cases ts with
      | nil => exact Eq.trans (congrArg (ahead isBlank) first) stop
      | cons t ts => exact not_blank_of_opens first

/-! ## Trees of derivations -/

def Phrase.wellFormed : Phrase → Bool
  | .operand e => !e.isOperation && e.wellFormed
  | .expr e => e.wellFormed
  | .stmt t => t.wellFormed
  | .stmts ts => Stmt.allWellFormed ts

theorem Derives.wellFormed {ph : Phrase} {s rest : Text}
    (h : Derives p ph s rest) : ph.wellFormed = true := by
  induction h with
  | @number w s rest hn small hp =>
      simp only [Phrase.wellFormed, Expr.isOperation, Expr.wellFormed, small, Int.natCast_nonneg,
        decide_true, Bool.not_false, Bool.and_self]
  | usage hn => exact hn.valid
  | block hb hs ih => exact ih
  | operand he ih => exact (Bool.and_eq_true_iff.mp ih).2
  | operation ha hb hc hd ia ib =>
      obtain ⟨la, wa⟩ := Bool.and_eq_true_iff.mp ia
      obtain ⟨lb, wb⟩ := Bool.and_eq_true_iff.mp ib
      simp only [Phrase.wellFormed, Expr.wellFormed, la, lb, wa, wb, Bool.and_self]
  | binding hh hv ih =>
      obtain ⟨hs, hn, hb, hr⟩ := hh
      exact Bool.and_eq_true_iff.mpr ⟨hn.valid, ih⟩
  | function hh hb ih =>
      obtain ⟨hs, hn, hg, hp, hr⟩ := hh
      exact Bool.and_eq_true_iff.mpr ⟨Bool.and_eq_true_iff.mpr ⟨hn.valid, hp.valid⟩, ih⟩
  | bare hp he ih => exact ih
  | nil => rfl
  | cons ht hb hs it is => exact Bool.and_eq_true_iff.mpr ⟨it, is⟩

/-! ## Names at which phrases begin -/

def isSign (c : Char) : Bool := c == '+' || c == '-' || c == '*' || c == '/'

/-- Whether an operator follows, possibly behind blank characters. -/
def SignAhead (s : Text) : Bool := ahead isSign (Text.trimStart s)

theorem symbol_not_blank (op : Op) (s : Text) : ahead isBlank (op.symbol ++ s) = false := by
  cases op <;> rfl

theorem no_sign_of_opens {s : Text} (h : ahead opens s = true) : ahead isSign s = false := by
  cases s with
  | nil => rfl
  | cons c s =>
      cases hs : isSign c with
      | false => exact hs
      | true =>
          simp only [isSign, Bool.or_eq_true, beq_iff_eq] at hs
          rcases hs with ((rfl | rfl) | rfl) | rfl
          all_goals cases h

theorem signAhead_eq {s rest : Text} (hb : Blanks s rest) (stop : ahead isBlank rest = false) :
    SignAhead s = ahead isSign rest := by
  rw [SignAhead, trimStart_eq_iff.mpr ⟨hb, stop⟩]

theorem Derives.operand_of_name {name s s₁ rest : Text} {e : Expr} (hn : NameAt name s s₁)
    (h : Derives p (.operand e) s rest) : e = .usage name ∧ rest = s₁ := by
  have first := hn.ahead
  cases h with
  | number hw =>
      obtain ⟨rfl, nonempty, valid, -⟩ := hw
      obtain ⟨c, w, rfl⟩ := List.exists_cons_of_ne_nil nonempty
      have digit := valid c List.mem_cons_self
      rw [not_isDigit_of_isAlpha first] at digit
      cases digit
  | usage hu =>
      obtain ⟨rfl, rfl⟩ := hu.unique hn
      exact ⟨rfl, rfl⟩
  | block => cases first

/-- A name behind which no operator comes is the whole of the expression that begins with it. -/
theorem Derives.expr_of_name {name s s₁ rest : Text} {e : Expr} (hn : NameAt name s s₁)
    (sign : SignAhead s₁ = false) (h : Derives p (.expr e) s rest) :
    e = .usage name ∧ rest = s₁ := by
  cases h with
  | operand h => exact h.operand_of_name hn
  | @operation a b _ r r₁ r₂ _ op ha hb =>
      obtain ⟨-, rfl⟩ := ha.operand_of_name hn
      rw [signAhead_eq hb (symbol_not_blank op r₁)] at sign
      cases op <;> cases sign

theorem no_sign_before_name {name s s₁ rest : Text} (hb : Blanks s s₁) (hn : NameAt name s₁ rest) :
    SignAhead s = false := by
  rw [signAhead_eq hb (not_blank_of_name hn)]
  exact no_sign_of_opens (ahead_opens_of_name hn)

/-- The word of a definition is a name that ends where the spaces begin. -/
theorem nameAt_word {w s s₁ : Text} (hw : isName w = true) (hs : Spaces s s₁) :
    NameAt w (w ++ s) s := by
  obtain ⟨n, rfl⟩ := hs
  exact ⟨rfl, hw, rfl⟩

theorem Derives.expr_of_word {w name s s₁ s₂ rest : Text} {e : Expr} (hw : isName w = true)
    (hs : Spaces s s₁) (hn : NameAt name s₁ s₂) (h : Derives p (.expr e) (w ++ s) rest) :
    rest = s :=
  (h.expr_of_name (nameAt_word hw hs) (no_sign_before_name hs.blanks hn)).2

/-- Where a definition begins, an expression is no more than the word of the definition. -/
theorem DefinitionAhead.before_name {s rest : Text} {e : Expr} (h : DefinitionAhead s)
    (he : Derives p (.expr e) s rest) : ∃ name s₁ s₂, Spaces rest s₁ ∧ NameAt name s₁ s₂ := by
  rcases h with ⟨name, r, head⟩ | ⟨name, params, r, head⟩
  · obtain ⟨hs, hn, -, -⟩ := head
    obtain rfl := Derives.expr_of_word (w := ['l', 'e', 't']) rfl hs hn he
    exact ⟨_, _, _, hs, hn⟩
  · obtain ⟨hs, hn, -, -, -⟩ := head
    obtain rfl := Derives.expr_of_word (w := ['f', 'n']) rfl hs hn he
    exact ⟨_, _, _, hs, hn⟩

end BlockCalc.Grammar
