import BlockCalc.Proofs.Grammar.Canonical
import BlockCalc.Proofs.Tree.Layout
import BlockCalc.Tree.Equality
/-! The canonical text and its reading. The text of a tree that can be written has a canonical
derivation with this tree, so it is read back; and every tree that is read can be written, so no
other tree has a text that reads as itself. -/
namespace BlockCalc
open Grammar

/-! ## Texts that are written -/

def LineEnds : Text → Prop
  | [] => True
  | c :: _ => c = '\n'

theorem LineEnds.ahead {p : Char → Bool} {s : Text} (h : LineEnds s) (hp : p '\n' = false) :
    ahead p s = false := by
  cases s with
  | nil => rfl
  | cons c s =>
      cases h
      exact hp

/-- Where a definition begins, no expression reaches the end of a line. -/
theorem not_definition_of_lineEnds {p : Proviso} {e : Expr} {s rest : Text}
    (h : Derives p (.expr e) s rest) (stop : LineEnds rest) : ¬ DefinitionAhead s := by
  intro definition
  obtain ⟨name, s₁, s₂, ⟨n, rfl⟩, -⟩ := definition.before_name h
  cases stop

theorem namesAt_layout {params : List Text} (h : params.all isName = true) (s : Text) :
    NamesAt params (params.flatMap (· ++ [' ']) ++ s) s := by
  induction params with
  | nil => exact .nil
  | cons name params ih =>
      obtain ⟨valid, others⟩ := Bool.and_eq_true_iff.mp h
      have gap : Spaces (' ' :: (params.flatMap (· ++ [' ']) ++ s)) _ := ⟨0, rfl⟩
      have text : (name :: params).flatMap (· ++ [' ']) ++ s =
          name ++ ' ' :: (params.flatMap (· ++ [' ']) ++ s) := by
        simp only [List.flatMap_cons, List.append_assoc, List.cons_append, List.nil_append]
      exact .cons ⟨text, valid, rfl⟩ gap.blanks (ih others)

theorem length_ofInt_le {n : Int} (low : 0 ≤ n) (high : n ≤ greatestNumber) :
    (Decimal.ofInt n).length ≤ literalLimit := by
  obtain ⟨k, rfl⟩ := Int.eq_ofNat_of_zero_le low
  have small : k < 10 ^ 10 := by
    simp only [greatestNumber] at high
    omega
  have short : (Nat.toDigits 10 k).length ≤ 10 :=
    (Nat.length_toDigits_le_iff (by decide) (by decide)).mpr small
  exact Nat.le_trans short (by decide)

theorem numeralAt_layout {n : Int} {rest : Text} (h : (Expr.number n).wellFormed = true)
    (stop : ahead Char.isAlphanum rest = false) :
    ∃ w : Text, NumeralAt w (Decimal.ofInt n ++ rest) rest ∧ w.length ≤ literalLimit ∧
      (Decimal.value w : Int) = n ∧ n ≤ greatestNumber := by
  obtain ⟨w, rfl, nonempty, valid, same, small⟩ := number_digits h
  have digit : ahead Char.isDigit rest = false := by
    cases rest with
    | nil => rfl
    | cons c rest => exact (Bool.or_eq_false_iff.mp stop).2
  simp only [Expr.wellFormed, Bool.and_eq_true, decide_eq_true_eq] at h
  exact ⟨_, ⟨rfl, nonempty, valid, digit⟩, length_ofInt_le h.1 h.2, same, small⟩

mutual

/-- The layout of an expression, behind which no letter or digit comes, derives the expression; and
as an operand, if it is no operation. -/
theorem Expr.derives_layout (e : Expr) (h : e.wellFormed = true) {margin rest : Text}
    (hm : ∀ c ∈ margin, isBlank c = true) (stop : ahead Char.isAlphanum rest = false) :
    Derives .canonical (.expr e) (e.layout margin ++ rest) rest ∧
      (e.isOperation = false → Derives .canonical (.operand e) (e.layout margin ++ rest) rest) := by
  cases e with
  | number n =>
      obtain ⟨w, hw, short, rfl, small⟩ := numeralAt_layout h stop
      have leaf : Derives .canonical (.operand _) _ rest := .number hw small short
      exact ⟨.operand leaf, fun _ => leaf⟩
  | usage name =>
      have leaf : Derives .canonical (.operand _) _ rest := .usage ⟨rfl, h, stop⟩
      exact ⟨.operand leaf, fun _ => leaf⟩
  | operation lhs rhs op =>
      simp only [Expr.wellFormed, Bool.and_eq_true, Bool.not_eq_true'] at h
      obtain ⟨⟨⟨single, single'⟩, hl⟩, hr⟩ := h
      have right := (Expr.derives_layout rhs hr hm stop).2 single'
      have sign : Spaces (' ' :: (op.symbol ++ ' ' :: (rhs.layout margin ++ rest))) _ := ⟨0, rfl⟩
      have gap : Spaces (' ' :: (rhs.layout margin ++ rest)) _ := ⟨0, rfl⟩
      have space : ahead Char.isAlphanum
        (' ' :: (op.symbol ++ ' ' :: (rhs.layout margin ++ rest))) = false := rfl
      have left := (Expr.derives_layout lhs hl hm space).2 single
      have whole := Derives.operation left sign.blanks gap.blanks right
      refine ⟨?_, fun other => nomatch other⟩
      simp only [Expr.layout, List.append_assoc, List.cons_append, List.nil_append]
      exact whole
  | block stmts =>
      have inner : ∃ s, Blanks (Stmt.layoutAll (margin ++ blockMargin) stmts ++
          (blockEnd margin stmts ++ rest)) s ∧
            Derives .canonical (.stmts stmts) s ('}' :: rest) := by
        cases stmts with
        | nil => exact ⟨_, .refl _, .nil⟩
        | cons t ts =>
            have deeper : ∀ c ∈ margin ++ blockMargin, isBlank c = true := by
              intro c hc
              rcases List.mem_append.mp hc with hc | hc
              · exact hm c hc
              · exact List.all_eq_true.mp (rfl : blockMargin.all isBlank = true) c hc
            have close : Blanks (blockEnd margin (t :: ts) ++ rest) ('}' :: rest) := by
              refine ⟨'\n' :: margin, List.forall_mem_cons.mpr ⟨rfl, hm⟩, ?_⟩
              simp only [blockEnd, List.cons_append, List.nil_append, List.append_assoc]
            exact Stmt.derives_layoutAll (t :: ts) h deeper rfl close
      obtain ⟨s, gap, derived⟩ := inner
      have leaf := Derives.block gap derived
      simp only [Expr.layout, List.cons_append, List.append_assoc]
      exact ⟨.operand leaf, fun _ => leaf⟩

/-- The layout of a statement at the end of a line derives the statement. -/
theorem Stmt.derives_layout (t : Stmt) (h : t.wellFormed = true) {margin rest : Text}
    (hm : ∀ c ∈ margin, isBlank c = true) (stop : LineEnds rest) :
    Derives .canonical (.stmt t) (t.layout margin ++ rest) rest := by
  cases t with
  | binding name value =>
      obtain ⟨valid, hv⟩ := Bool.and_eq_true_iff.mp h
      have inner := (Expr.derives_layout value hv hm (stop.ahead rfl)).1
      have first : Spaces (' ' :: (name ++ ([' ', '=', ' '] ++ (value.layout margin ++ rest)))) _ :=
        ⟨0, rfl⟩
      have before : Spaces ([' ', '=', ' '] ++ (value.layout margin ++ rest)) _ := ⟨0, rfl⟩
      have behind : Spaces (' ' :: (value.layout margin ++ rest)) _ := ⟨0, rfl⟩
      have head := BindingHead.intro first ⟨rfl, valid, rfl⟩ before.blanks behind.blanks
      simp only [Stmt.layout, List.append_assoc]
      exact .binding head inner
  | function name params body =>
      simp only [Stmt.wellFormed, Bool.and_eq_true] at h
      obtain ⟨⟨valid, hp⟩, hb⟩ := h
      have inner := Stmt.derives_layout body hb hm stop
      have names := namesAt_layout hp (['=', '>', ' '] ++ (body.layout margin ++ rest))
      have first : Spaces (' ' :: (name ++ ' ' :: (params.flatMap (· ++ [' ']) ++
        (['=', '>', ' '] ++ (body.layout margin ++ rest))))) _ := ⟨0, rfl⟩
      have gap : Spaces (' ' :: (params.flatMap (· ++ [' ']) ++
        (['=', '>', ' '] ++ (body.layout margin ++ rest)))) _ := ⟨0, rfl⟩
      have behind : Spaces (' ' :: (body.layout margin ++ rest)) _ := ⟨0, rfl⟩
      have head := FunctionHead.intro first ⟨rfl, valid, rfl⟩ gap.blanks names behind.blanks
      simp only [Stmt.layout, List.append_assoc, List.cons_append]
      exact .function head inner
  | expr e =>
      have inner := (Expr.derives_layout e h hm (stop.ahead rfl)).1
      exact .bare (not_definition_of_lineEnds inner stop) inner

/-- The layouts of statements derive the statements, if lines end behind them and only blank
characters come before the brace. -/
theorem Stmt.derives_layoutAll (ts : List Stmt) (h : Stmt.allWellFormed ts = true)
    {margin tail rest : Text} (hm : ∀ c ∈ margin, isBlank c = true) (stop : LineEnds tail)
    (close : Blanks tail ('}' :: rest)) :
    ∃ s, Blanks (Stmt.layoutAll margin ts ++ tail) s ∧
      Derives .canonical (.stmts ts) s ('}' :: rest) := by
  cases ts with
  | nil => exact ⟨_, close, .nil⟩
  | cons t ts =>
      obtain ⟨ht, hts⟩ := Bool.and_eq_true_iff.mp h
      obtain ⟨s, gap, others⟩ := Stmt.derives_layoutAll ts hts hm stop close
      have line : LineEnds (Stmt.layoutAll margin ts ++ tail) := by
        cases ts with
        | nil => exact stop
        | cons t ts => rfl
      have first := Stmt.derives_layout t ht hm line
      refine ⟨_, ⟨'\n' :: margin, List.forall_mem_cons.mpr ⟨rfl, hm⟩, ?_⟩, .cons first gap others⟩
      simp only [Stmt.layoutAll, List.append_assoc, List.cons_append]

end

theorem Stmt.derives_render {t : Stmt} (h : t.wellFormed = true) :
    Derives .canonical (.stmt t) t.render [] := by
  have flat : ∀ c ∈ ([] : Text), isBlank c = true := List.forall_mem_nil _
  have stop : LineEnds [] := True.intro
  have whole := Stmt.derives_layout t h flat stop
  rw [List.append_nil, ← Stmt.render_eq_layout t h] at whole
  exact whole

/-! ## Reading what was written -/

/-- A tree is read back from its text exactly if it can be written and is not too deep. -/
theorem stmt_render_iff {limit : Nat} {t : Stmt} :
    Grammar.stmt limit t.render = .ok ([], t) ↔ t.wellFormed = true ∧ t.depth ≤ limit := by
  constructor
  · intro h
    obtain ⟨derived, depth⟩ := (stmt_reads limit).derives h
    exact ⟨derived.wellFormed, depth⟩
  · rintro ⟨valid, depth⟩
    exact ((Stmt.derives_render valid).read limit rfl).trans (reach_of_le depth)

/-- Reading and writing are inverse on exactly the trees that can be written within the levels of
the reader, and what was read from any text is read again from its canonical text. -/
theorem render_inverse_of_reading (limit : Nat) :
    (∀ t : Stmt, Grammar.stmt limit t.render = .ok ([], t) ↔
      t.wellFormed = true ∧ t.depth ≤ limit) ∧
    ∀ s t, parseWithin limit s = .ok t → parseWithin limit t.render = .ok t := by
  refine ⟨fun t => stmt_render_iff, ?_⟩
  intro s t h
  obtain ⟨derived, depth⟩ := (stmt_reads limit).derives (parseWithin_eq_ok_iff.mp h)
  exact parseWithin_eq_ok_iff.mpr (stmt_render_iff.mpr ⟨derived.wellFormed, depth⟩)

/-- A function and a block whose names are the words of definitions: the newline that is written
between the statements of the block keeps them apart. -/
theorem render_inverse_of_words :
    parse "fn  let fn=>\x7bfn\tlet\x7d".toList = .ok
        (.function ['l', 'e', 't'] [['f', 'n']]
          (.expr (.block [.expr (.usage ['f', 'n']), .expr (.usage ['l', 'e', 't'])]))) ∧
      parse "fn let fn => \x7b\n    fn\n    let\n\x7d".toList = .ok
        (.function ['l', 'e', 't'] [['f', 'n']]
          (.expr (.block [.expr (.usage ['f', 'n']), .expr (.usage ['l', 'e', 't'])]))) := by
  have reading : parse "fn  let fn=>\x7bfn\tlet\x7d".toList = .ok
      (.function ['l', 'e', 't'] [['f', 'n']]
        (.expr (.block [.expr (.usage ['f', 'n']), .expr (.usage ['l', 'e', 't'])]))) := by
    decide +kernel
  exact ⟨reading, (render_inverse_of_reading nestingLimit).2 _ _ reading⟩

end BlockCalc
