import BlockCalc.Proofs.Grammar.Soundness
import BlockCalc.Session.Statements
/-! Braces balance in what is read. No word and no sign holds a brace, and a block opens one and
closes one behind it, so a text that is a statement has as many of either, and at no place in it
were more closed than opened. A text that leaves a block open is therefore never read. -/
namespace BlockCalc.Grammar

/-- Between two places in a text as many braces are opened as are closed. -/
def Balanced (s rest : Text) : Prop :=
  s.count '{' + rest.count '}' = s.count '}' + rest.count '{'

/-- A text in which every brace closes another one in front of it, or is closed by one behind it. -/
structure Braced (w : Text) : Prop where
  balanced : w.count '{' = w.count '}'
  nested : ∀ a, a <+: w → a.count '}' ≤ a.count '{'

def BracedTo (s rest : Text) : Prop := ∃ w, Braced w ∧ s = w ++ rest

section
variable {s s₁ rest v w : Text}

theorem Braced.plain (h : ∀ c ∈ w, c ≠ '{' ∧ c ≠ '}') : Braced w := by
  have none : ∀ a, a <+: w → a.count '{' = 0 ∧ a.count '}' = 0 := by
    intro a start
    exact ⟨List.count_eq_zero_of_not_mem fun member => (h _ (start.subset member)).1 rfl,
      List.count_eq_zero_of_not_mem fun member => (h _ (start.subset member)).2 rfl⟩
  constructor
  · obtain ⟨opened, closed⟩ := none w List.prefix_rfl
    rw [opened, closed]
  · intro a start
    obtain ⟨-, closed⟩ := none a start
    rw [closed]
    exact Nat.zero_le _

theorem Braced.append (hv : Braced v) (hw : Braced w) : Braced (v ++ w) where
  balanced := by rw [List.count_append, List.count_append, hv.balanced, hw.balanced]
  nested := by
    rintro a ⟨b, cut⟩
    rcases List.append_eq_append_iff.mp cut with ⟨c, rfl, -⟩ | ⟨c, rfl, rfl⟩
    · exact hv.nested a (List.prefix_append a c)
    · have whole := hv.balanced
      have inner := hw.nested c (List.prefix_append c b)
      rw [List.count_append, List.count_append]
      omega

/-- A block around a text adds one brace at either end. -/
theorem Braced.block (h : Braced w) : Braced ('{' :: (w ++ ['}'])) := by
  have opened : ∀ a : Text, ('{' :: a).count '{' = a.count '{' + 1 ∧
      ('{' :: a).count '}' = a.count '}' :=
    fun a => ⟨List.count_cons_self, List.count_cons_of_ne (by decide)⟩
  have closed : (w ++ ['}']).count '{' = w.count '{' ∧
      (w ++ ['}']).count '}' = w.count '}' + 1 := by
    rw [List.count_append, List.count_append]
    exact ⟨rfl, rfl⟩
  constructor
  · rw [(opened _).1, (opened _).2, closed.1, closed.2, h.balanced]
  · intro a start
    rcases List.prefix_cons_iff.mp start with rfl | ⟨b, rfl, inner⟩
    · exact Nat.le_refl _
    · rw [(opened b).1, (opened b).2]
      rcases List.prefix_concat_iff.mp inner with rfl | within
      · refine Nat.le_of_eq ?_
        rw [closed.1, closed.2, h.balanced]
      · exact Nat.le_succ_of_le (h.nested b within)

theorem BracedTo.refl (s : Text) : BracedTo s s := ⟨[], .plain (List.forall_mem_nil _), rfl⟩

theorem BracedTo.trans (h : BracedTo s s₁) (h' : BracedTo s₁ rest) : BracedTo s rest := by
  obtain ⟨v, hv, rfl⟩ := h
  obtain ⟨w, hw, rfl⟩ := h'
  exact ⟨v ++ w, hv.append hw, (List.append_assoc v w rest).symm⟩

theorem bracedTo_of_append (h : ∀ c ∈ w, c ≠ '{' ∧ c ≠ '}') (rest : Text) :
    BracedTo (w ++ rest) rest := ⟨w, .plain h, rfl⟩

theorem not_brace_of_isAlphanum {c : Char} (h : c.isAlphanum = true) : c ≠ '{' ∧ c ≠ '}' := by
  constructor
  all_goals
    rintro rfl
    cases h

theorem NameAt.braced {name : Text} (h : NameAt name s rest) : BracedTo s rest := by
  obtain ⟨rfl, valid, -⟩ := h
  exact bracedTo_of_append
    (fun c member => not_brace_of_isAlphanum (isAlphanum_of_isName valid c member)) rest

theorem NumeralAt.braced (h : NumeralAt w s rest) : BracedTo s rest := by
  obtain ⟨rfl, -, valid, -⟩ := h
  exact bracedTo_of_append
    (fun c member => not_brace_of_isAlphanum (isAlphanum_of_isDigit (valid c member))) rest

theorem Blanks.braced (h : Blanks s rest) : BracedTo s rest := by
  obtain ⟨w, blank, rfl⟩ := h
  refine bracedTo_of_append (fun c member => ?_) rest
  constructor
  all_goals
    rintro rfl
    cases blank _ member

theorem NamesAt.braced {names : List Text} (h : NamesAt names s rest) : BracedTo s rest := by
  induction h with
  | nil => exact .refl _
  | cons hn hb hs ih => exact hn.braced.trans (hb.braced.trans ih)

theorem bracedTo_symbol (op : Op) (rest : Text) : BracedTo (op.symbol ++ rest) rest := by
  refine bracedTo_of_append ?_ rest
  cases op <;> simp [Op.symbol]

theorem BindingHead.braced {name : Text} (h : BindingHead name s rest) : BracedTo s rest := by
  obtain ⟨hs, hn, hb, hr⟩ := h
  have word := bracedTo_of_append (w := ['l', 'e', 't']) (by simp)
  have sign := bracedTo_of_append (w := ['=']) (by simp)
  exact (word _).trans (hs.blanks.braced.trans (hn.braced.trans
    (hb.braced.trans ((sign _).trans hr.braced))))

theorem FunctionHead.braced {name : Text} {params : List Text}
    (h : FunctionHead name params s rest) : BracedTo s rest := by
  obtain ⟨hs, hn, hb, hp, hr⟩ := h
  have word := bracedTo_of_append (w := ['f', 'n']) (by simp)
  have arrow := bracedTo_of_append (w := ['=', '>']) (by simp)
  exact (word _).trans (hs.blanks.braced.trans (hn.braced.trans
    (hb.braced.trans (hp.braced.trans ((arrow _).trans hr.braced)))))

end

/-- The braces of a block enclose its statements, and nothing else has any. -/
theorem Derives.braced {p : Proviso} {ph : Phrase} {s rest : Text} (h : Derives p ph s rest) :
    BracedTo s rest := by
  induction h with
  | number hn => exact hn.braced
  | usage hn => exact hn.braced
  | block hb hs ih =>
      obtain ⟨w, inner, rfl⟩ := hb.braced.trans ih
      refine ⟨'{' :: (w ++ ['}']), inner.block, ?_⟩
      rw [List.cons_append, List.append_assoc, List.singleton_append]
  | operand he ih => exact ih
  | operation ha hb hc hd ia ib =>
      exact ia.trans (hb.braced.trans ((bracedTo_symbol _ _).trans (hc.braced.trans ib)))
  | binding hh hv ih => exact hh.braced.trans ih
  | function hh hb ih => exact hh.braced.trans ih
  | bare hp he ih => exact ih
  | nil => exact .refl _
  | cons ht hb hs it is => exact it.trans (hb.braced.trans is)

theorem Derives.balanced {p : Proviso} {ph : Phrase} {s rest : Text} (h : Derives p ph s rest) :
    Balanced s rest := by
  obtain ⟨w, inner, rfl⟩ := h.braced
  have whole := inner.balanced
  rw [Balanced, List.count_append, List.count_append]
  omega

theorem parseWithin_braced {limit : Nat} {s : Text} {t : Stmt}
    (h : parseWithin limit s = .ok t) : Braced s := by
  obtain ⟨w, inner, same⟩ := ((stmt_reads limit).derives (parseWithin_eq_ok_iff.mp h)).1.braced
  rw [same, List.append_nil]
  exact inner

theorem parseWithin_balanced {limit : Nat} {s : Text} {t : Stmt}
    (h : parseWithin limit s = .ok t) : s.count '{' = s.count '}' :=
  ((stmt_reads limit).derives (parseWithin_eq_ok_iff.mp h)).1.balanced

/-- The count of braces does not take a statement for the beginning of one. -/
theorem parseWithin_not_leavesOpen {limit : Nat} {s : Text} {t : Stmt}
    (h : parseWithin limit s = .ok t) : Statements.leavesOpen s = false := by
  rw [Statements.leavesOpen, parseWithin_balanced h, decide_eq_false_iff_not]
  exact Nat.lt_irrefl _

end BlockCalc.Grammar
