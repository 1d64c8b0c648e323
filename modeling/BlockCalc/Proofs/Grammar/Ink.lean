import BlockCalc.Proofs.Grammar.Numerals
import BlockCalc.Proofs.Grammar.Soundness
import BlockCalc.Proofs.Tree.Ink
import BlockCalc.Tree.Equality
/-! What reading and writing keep of a text: everything but blank characters, and zeros in front of
numerals. Each word and each sign of a text is written again in its place, and between them there is
nothing but blank characters, in the text that is read as in the one that is written. Only a numeral
may come out shorter, so nothing makes up for a zero that is lost. -/
namespace BlockCalc.Grammar
open Text

/-! ## What is written again -/

/-- Between two places a text has no less ink than what is written again there. It has no more just
if its numerals are plain up to the second place, and then it has the very same. -/
structure Writes (w s rest : Text) : Prop where
  length : w.length + (ink rest).length ≤ (ink s).length
  text : (ink s).length ≤ w.length + (ink rest).length → ink s = w ++ ink rest
  plain : PlainNumerals s ↔ PlainNumerals rest ∧ (ink s).length ≤ w.length + (ink rest).length

section
variable {v w s s₁ rest : Text}

/-- What has no numeral in it is written again as it is. -/
theorem Writes.same (text : ink s = w ++ ink rest) (none : numerals s = numerals rest) :
    Writes w s rest := by
  have length : (ink s).length = w.length + (ink rest).length := by
    rw [text, List.length_append]
  refine ⟨Nat.le_of_eq length.symm, fun _ => text, ?_⟩
  rw [PlainNumerals, none]
  exact (and_iff_left (Nat.le_of_eq length)).symm

theorem Writes.trans (h : Writes v s s₁) (h' : Writes w s₁ rest) : Writes (v ++ w) s rest := by
  have more := h.length
  have more' := h'.length
  -- ink that is lost on one part of the way is not made up for on the other
  have both : (ink s).length ≤ (v ++ w).length + (ink rest).length ↔
      (ink s₁).length ≤ w.length + (ink rest).length ∧
        (ink s).length ≤ v.length + (ink s₁).length := by
    rw [List.length_append]
    omega
  refine ⟨?_, fun tight => ?_, ?_⟩
  · rw [List.length_append]
    omega
  · obtain ⟨second, first⟩ := both.mp tight
    rw [h.text first, h'.text second, List.append_assoc]
  · rw [h.plain, h'.plain, and_assoc, both]

theorem Writes.refl (s : Text) : Writes [] s s := .same rfl rfl

theorem writes_append (h : ∀ c ∈ w, c.isAlphanum = false) (rest : Text) :
    Writes (ink w) (w ++ rest) rest :=
  .same (ink_append w rest) (numerals_append h rest)

theorem NameAt.writes {name : Text} (h : NameAt name s rest) : Writes (ink name) s rest :=
  .same (h.text ▸ ink_append name rest) (numerals_of_name h)

theorem NumeralAt.writes (h : NumeralAt w s rest) :
    Writes (ink (Decimal.ofNat (Decimal.value w))) s rest := by
  have solid : ∀ {v : Text}, (∀ c ∈ v, c.isDigit = true) → ink v = v := fun valid =>
    ink_of_not_blank fun c member =>
      isBlank_eq_false_of_isAlphanum (isAlphanum_of_isDigit (valid c member))
  have text : ink s = w ++ ink rest := by
    rw [h.text, ink_append, solid h.valid]
  rw [solid fun _ => Decimal.isDigit_of_mem_ofNat]
  have shorter := Decimal.length_ofNat_value_le h.nonempty h.valid
  have plain := Decimal.length_le_ofNat_value_iff h.nonempty h.valid
  refine ⟨?_, fun tight => ?_, ?_⟩
  · rw [text, List.length_append]
    exact Nat.add_le_add_right shorter _
  · rw [text, List.length_append] at tight
    rw [text, Decimal.ofNat_value h.nonempty h.valid (plain.mp (Nat.le_of_add_le_add_right tight))]
  · rw [text, List.length_append, Nat.add_le_add_iff_right, plain, PlainNumerals,
      numerals_of_numeral h, List.forall_mem_cons, And.comm]
    rfl

theorem Blanks.writes (h : Blanks s rest) : Writes [] s rest := by
  obtain ⟨w, blank, rfl⟩ := h
  have gap := writes_append (fun c member => not_alphanum_of_blank (blank c member)) rest
  rw [ink_of_blank blank] at gap
  exact gap

theorem NamesAt.writes {names : List Text} (h : NamesAt names s rest) :
    Writes (ink names.flatten) s rest := by
  induction h with
  | nil => exact .refl _
  | cons hn hb hs ih =>
      rw [List.flatten_cons, ink_append]
      exact hn.writes.trans (hb.writes.trans ih)

theorem writes_signs (w : Text) (h : w.any Char.isAlphanum = false) (rest : Text) :
    Writes (ink w) (w ++ rest) rest :=
  writes_append (fun c member => Bool.eq_false_iff.mpr (List.any_eq_false.mp h c member)) rest

theorem writes_symbol (op : Op) : ∀ rest, Writes (ink op.symbol) (op.symbol ++ rest) rest :=
  writes_signs op.symbol (by cases op <;> rfl)

theorem BindingHead.writes {name : Text} (h : BindingHead name s rest) :
    Writes (['l', 'e', 't'] ++ (ink name ++ ['='])) s rest := by
  obtain ⟨hs, hn, hb, hr⟩ := h
  have word := (nameAt_word (w := ['l', 'e', 't']) rfl hs).writes
  have sign := writes_signs ['='] rfl
  exact word.trans (hs.blanks.writes.trans
    (hn.writes.trans (hb.writes.trans ((sign _).trans hr.writes))))

theorem FunctionHead.writes {name : Text} {params : List Text}
    (h : FunctionHead name params s rest) :
    Writes (['f', 'n'] ++ (ink name ++ (ink params.flatten ++ ['=', '>']))) s rest := by
  obtain ⟨hs, hn, hb, hp, hr⟩ := h
  have word := (nameAt_word (w := ['f', 'n']) rfl hs).writes
  have arrow := writes_signs ['=', '>'] rfl
  exact word.trans (hs.blanks.writes.trans (hn.writes.trans
    (hb.writes.trans (hp.writes.trans ((arrow _).trans hr.writes)))))

end

def Phrase.render : Phrase → Text
  | .operand e | .expr e => e.render
  | .stmt t => t.render
  | .stmts ts => (Stmt.renderAll ts).flatten

/-- What a phrase is written as again is its canonical text. -/
theorem Derives.writes {p : Proviso} {ph : Phrase} {s rest : Text} (h : Derives p ph s rest) :
    Writes (ink ph.render) s rest := by
  induction h with
  | number hn => exact hn.writes
  | usage hn => exact hn.writes
  | @block ts s s₁ rest hb hs ih =>
      have opening := writes_signs ['{'] rfl s
      have closing := writes_signs ['}'] rfl rest
      rw [Phrase.render, ink_block]
      exact opening.trans (hb.writes.trans (ih.trans closing))
  | operand he ih => exact ih
  | operation ha hb hc hd ia ib =>
      rw [Phrase.render, ink_operation]
      exact ia.trans (hb.writes.trans ((writes_symbol _ _).trans (hc.writes.trans ib)))
  | binding hh hv ih =>
      rw [Phrase.render, ink_binding]
      exact hh.writes.trans ih
  | function hh hb ih =>
      rw [Phrase.render, ink_function]
      exact hh.writes.trans ih
  | bare hp he ih => exact ih
  | nil => exact .refl _
  | cons ht hb hs it is =>
      rw [Phrase.render, Stmt.renderAll, List.flatten_cons, ink_append]
      exact it.trans (hb.writes.trans is)

/-- The canonical text of what was read has the same characters as the text itself, but for blank
ones, just if no numeral of the text has a zero in front of further digits. -/
theorem ink_render_eq_ink_iff {limit : Nat} {s : Text} {t : Stmt}
    (h : parseWithin limit s = .ok t) : ink t.render = ink s ↔ PlainNumerals s := by
  have derived := ((stmt_reads limit).derives (parseWithin_eq_ok_iff.mp h)).1
  have written : Writes (ink t.render) s [] := derived.writes
  have none : PlainNumerals [] := by
    rw [PlainNumerals, numerals]
    exact List.forall_mem_nil _
  constructor
  · intro same
    exact written.plain.mpr ⟨none, Nat.le_of_eq (congrArg List.length same.symm)⟩
  · intro plain
    have whole := written.text (written.plain.mp plain).2
    rw [whole]
    exact (List.append_nil _).symm

/-- A zero in front of digits is part of a name here and no numeral. -/
theorem ink_render_eq_ink_iff_names :
    ink "let x05 = \x7b\n    0 + 10\n    fn f00 a => \x7b\x7d\n\x7d".toList =
      ink "let  x05\t=\x7b0+10 fn f00\na=>\x7b \x7d\x7d".toList := by
  have reading : parse "let  x05\t=\x7b0+10 fn f00\na=>\x7b \x7d\x7d".toList = .ok
      (.binding "x05".toList (.block [.expr (.operation (.number 0) (.number 10) .add),
        .function "f00".toList [['a']] (.expr (.block []))])) := by decide +kernel
  have plain : PlainNumerals "let  x05\t=\x7b0+10 fn f00\na=>\x7b \x7d\x7d".toList := by
    decide +kernel
  have text : Stmt.render (.binding "x05".toList
      (.block [.expr (.operation (.number 0) (.number 10) .add),
        .function "f00".toList [['a']] (.expr (.block []))])) =
      "let x05 = \x7b\n    0 + 10\n    fn f00 a => \x7b\x7d\n\x7d".toList := by decide +kernel
  have kept := (ink_render_eq_ink_iff reading).mpr plain
  rw [text] at kept
  exact kept

end BlockCalc.Grammar
