import BlockCalc.Proofs.Tree.WellFormed
import BlockCalc.Tree.Render
/-! The canonical text with its margin made explicit. Indentation works on finished texts, line by
line; here the same text is laid out from the tree with a growing margin, so that what it consists
of can be read off. For trees that can be written both give the same text. -/
namespace BlockCalc
open Grammar Text

namespace Text

/-- Puts a margin behind every newline. -/
def hang (margin s : Text) : Text := s.flatMap fun c => if c = '\n' then '\n' :: margin else [c]

/-- Whether the last line of a text holds ink, if `begun` says so of the line it begins in; none for
a text with a line without ink before the last, or with a line break that is not a newline. -/
def lineInk (begun : Bool) : Text → Option Bool
  | [] => some begun
  | c :: s =>
    if c = '\n' then if begun then lineInk false s else none
    else if isLineBreak c then none
    else lineInk (begun || !isBlank c) s

section
variable {margin : Text}

@[simp] theorem hang_nil (margin : Text) : hang margin [] = [] := rfl

@[simp] theorem hang_newline (margin s : Text) :
    hang margin ('\n' :: s) = '\n' :: margin ++ hang margin s := rfl

theorem hang_cons {c : Char} (h : c ≠ '\n') (s : Text) :
    hang margin (c :: s) = c :: hang margin s := by
  simp only [hang, List.flatMap_cons, h, if_false, List.cons_append, List.nil_append]

theorem hang_append (margin a b : Text) : hang margin (a ++ b) = hang margin a ++ hang margin b :=
  List.flatMap_append

def Unbroken (s : Text) : Prop := ∀ c ∈ s, isLineBreak c = false

instance (s : Text) : Decidable (Unbroken s) :=
  List.decidableBAll (fun c => isLineBreak c = false) s

theorem Unbroken.ne_newline {s : Text} (h : Unbroken s) {c : Char} (hc : c ∈ s) : c ≠ '\n' := by
  rintro rfl
  have unbroken := h _ hc
  cases unbroken

theorem Unbroken.tail {c : Char} {s : Text} (h : Unbroken (c :: s)) : Unbroken s :=
  fun d hd => h d (List.mem_cons_of_mem c hd)

theorem Unbroken.append {a b : Text} (ha : Unbroken a) (hb : Unbroken b) : Unbroken (a ++ b) := by
  intro c hc
  rcases List.mem_append.mp hc with hc | hc
  · exact ha c hc
  · exact hb c hc

theorem hang_eq_self {s : Text} (h : Unbroken s) : hang margin s = s := by
  induction s with
  | nil => rfl
  | cons c s ih => rw [hang_cons (h.ne_newline List.mem_cons_self), ih h.tail]

theorem hang_unbroken_append {a : Text} (h : Unbroken a) (b : Text) :
    hang margin (a ++ b) = a ++ hang margin b := by
  rw [hang_append, hang_eq_self h]

theorem lineInk_unbroken {begun : Bool} {s : Text} (h : Unbroken s) :
    lineInk begun s = some (begun || s.any fun c => !isBlank c) := by
  induction s generalizing begun with
  | nil => simp only [lineInk, List.any_nil, Bool.or_false]
  | cons c s ih =>
      have other := h.ne_newline List.mem_cons_self
      have unbroken := h c List.mem_cons_self
      simp only [lineInk, other, if_false, unbroken, Bool.false_eq_true, ih h.tail, List.any_cons,
        Bool.or_assoc]

theorem lineInk_append (begun : Bool) (a b : Text) :
    lineInk begun (a ++ b) = (lineInk begun a).bind fun begun => lineInk begun b := by
  induction a generalizing begun with
  | nil => rfl
  | cons c a ih =>
      simp only [List.cons_append, lineInk]
      split
      · split
        · exact ih false
        · rfl
      · split
        · rfl
        · exact ih _

theorem lines_cons {c : Char} (h : isLineBreak c = false) (s : Text) :
    lines (c :: s) = (c :: s.lines.headD []) :: s.lines.tail := by
  have other : c ≠ '\r' := by
    rintro rfl
    cases h
  rw [lines]
  · simp only [h, Bool.false_eq_true, if_false]
    cases lines s <;> rfl
  · rintro rest rfl
    exact False.elim (other rfl)

theorem lines_newline (s : Text) : lines ('\n' :: s) = ['\n'] :: lines s := by
  rw [lines]
  · rfl
  · intro rest h
    cases h

def indentLater (margin s : Text) : Text :=
  s.lines.headD [] ++
    s.lines.tail.flatMap fun line => if line.all isBlank then line else margin ++ line

theorem indent_eq_indentLater {s : Text} (ink : (s.lines.headD []).all isBlank = false) :
    indent margin s = margin ++ indentLater margin s := by
  rw [indent, indentLater]
  cases hl : lines s with
  | nil =>
      rw [hl] at ink
      cases ink
  | cons line more =>
      rw [hl, List.headD_cons] at ink
      simp only [List.flatMap_cons, ink, Bool.false_eq_true, if_false, List.headD_cons,
        List.tail_cons, List.append_assoc]

/-- Behind its first line a text is indented by a margin behind every newline, and the first line
holds ink if no ink came before it. -/
theorem indentLater_eq_hang {begun : Bool} {s : Text} (h : lineInk begun s = some true) :
    indentLater margin s = hang margin s ∧
      (begun = true ∨ (s.lines.headD []).all isBlank = false) := by
  induction s generalizing begun with
  | nil => exact ⟨rfl, .inl (Option.some.inj h)⟩
  | cons c s ih =>
      simp only [lineInk] at h
      split at h
      · next newline =>
          subst newline
          split at h
          · next begins =>
              obtain ⟨same, none | ink⟩ := ih h
              · cases none
              · refine ⟨?_, .inl begins⟩
                rw [hang_newline, List.cons_append, ← same, ← indent_eq_indentLater ink,
                  indentLater, lines_newline]
                rfl
          · cases h
      · next other =>
          split at h
          · cases h
          · next unbroken =>
              obtain ⟨same, first⟩ := ih h
              have cut := lines_cons (Bool.eq_false_iff.mpr unbroken) s
              constructor
              · rw [hang_cons other, ← same, indentLater, cut]
                rfl
              · rw [cut, List.headD_cons, List.all_cons]
                rcases first with ink | ink
                · cases begun with
                  | true => exact .inl rfl
                  | false =>
                      rw [Bool.false_or, Bool.not_eq_true'] at ink
                      exact .inr (by rw [ink, Bool.false_and])
                · exact .inr (by rw [ink, Bool.and_false])

/-- Where every line holds ink, indentation puts the margin in front and behind every newline. -/
theorem indent_eq_hang {s : Text} (h : lineInk false s = some true) :
    indent margin s = margin ++ hang margin s := by
  obtain ⟨same, none | ink⟩ : indentLater margin s = hang margin s ∧ _ := indentLater_eq_hang h
  · cases none
  · rw [indent_eq_indentLater ink, same]

/-- A text whose every line holds ink, wherever it is put. -/
def Inked (s : Text) : Prop := ∀ begun, lineInk begun s = some true

theorem Inked.append {a b : Text} (ha : Inked a) (hb : lineInk true b = some true) :
    Inked (a ++ b) := by
  intro begun
  rw [lineInk_append, ha begun]
  exact hb

theorem lineInk_of_unbroken_append {a b : Text} (ha : Unbroken a) (hb : Inked b) (begun : Bool) :
    lineInk begun (a ++ b) = some true := by
  rw [lineInk_append, lineInk_unbroken ha]
  exact hb _

theorem inked_newline {a b : Text} (ha : Unbroken a) (hb : Inked b) :
    lineInk true ('\n' :: a ++ b) = some true :=
  lineInk_of_unbroken_append ha hb false

theorem Inked.of_mem {s : Text} (h : Unbroken s) {c : Char} (hc : c ∈ s) (ink : isBlank c = false) :
    Inked s := by
  intro begun
  have some_ink : (s.any fun c => !isBlank c) = true :=
    List.any_eq_true.mpr ⟨c, hc, by rw [ink]; rfl⟩
  rw [lineInk_unbroken h, some_ink, Bool.or_true]

theorem unbroken_of_isAlphanum {s : Text} (h : ∀ c ∈ s, c.isAlphanum = true) : Unbroken s := by
  intro c hc
  have range := isAlphanum_range (h c hc)
  simp only [isLineBreak, Bool.or_eq_false_iff, Bool.and_eq_false_iff, decide_eq_false_iff_not,
    beq_eq_false_iff_ne, ne_eq]
  omega

end
end Text

/-! ## Trees -/

/-- The last line of a block, which is behind the brace if the block is empty. -/
def blockEnd (margin : Text) : List Stmt → Text
  | [] => ['}']
  | _ :: _ => '\n' :: margin ++ ['}']

mutual

/-- The canonical text of an expression whose lines, but for the first, begin with a margin. -/
def Expr.layout (margin : Text) : Expr → Text
  | .number n => Decimal.ofInt n
  | .operation lhs rhs op => lhs.layout margin ++ ((' ' :: op.symbol ++ [' ']) ++ rhs.layout margin)
  | .usage name => name
  | .block stmts => '{' :: (Stmt.layoutAll (margin ++ blockMargin) stmts ++ blockEnd margin stmts)

def Stmt.layout (margin : Text) : Stmt → Text
  | .binding name value =>
    ['l', 'e', 't', ' '] ++ (name ++ ([' ', '=', ' '] ++ value.layout margin))
  | .function name params body =>
    ['f', 'n', ' '] ++ (name ++ (' ' :: (params.flatMap (· ++ [' ']) ++
      (['=', '>', ' '] ++ body.layout margin))))
  | .expr expr => expr.layout margin

def Stmt.layoutAll (margin : Text) : List Stmt → Text
  | [] => []
  | stmt :: stmts => '\n' :: margin ++ (stmt.layout margin ++ Stmt.layoutAll margin stmts)

end

/-! ## Words of trees that can be written -/

theorem number_digits {n : Int} (h : (Expr.number n).wellFormed = true) :
    ∃ w : Text, Decimal.ofInt n = w ∧ w ≠ [] ∧ (∀ c ∈ w, c.isDigit = true) ∧
      (Decimal.value w : Int) = n ∧ n ≤ greatestNumber := by
  simp only [Expr.wellFormed, Bool.and_eq_true, decide_eq_true_eq] at h
  obtain ⟨k, rfl⟩ := Int.eq_ofNat_of_zero_le h.1
  refine ⟨Decimal.ofNat k, rfl, Decimal.ofNat_ne_nil k, ?_, ?_, h.2⟩
  · exact fun c hc => Decimal.isDigit_of_mem_ofNat hc
  · rw [Decimal.value_ofNat]

theorem unbroken_of_isName {name : Text} (h : isName name = true) : Unbroken name :=
  unbroken_of_isAlphanum (isAlphanum_of_isName h)

theorem inked_of_isName {name : Text} (h : isName name = true) : Inked name := by
  have unbroken := unbroken_of_isName h
  cases name with
  | nil => cases h
  | cons c name =>
      have first := isAlphanum_of_isAlpha (isName_cons.mp h).1
      exact .of_mem unbroken List.mem_cons_self (isBlank_eq_false_of_isAlphanum first)

theorem unbroken_params {params : List Text} (h : params.all isName = true) :
    Unbroken (params.flatMap (· ++ [' '])) := by
  intro c hc
  obtain ⟨name, member, hc⟩ := List.mem_flatMap.mp hc
  rcases List.mem_append.mp hc with hc | hc
  · exact unbroken_of_isName (List.all_eq_true.mp h name member) c hc
  · rw [List.mem_singleton.mp hc]
    rfl

theorem unbroken_blockMargin : Unbroken blockMargin := by decide

theorem unbroken_operator (op : Op) : Unbroken (' ' :: op.symbol ++ [' ']) := by
  cases op <;> decide

mutual

/-- Every line of a tree that can be written holds ink. -/
theorem Expr.inked_layout (e : Expr) (h : e.wellFormed = true) {margin : Text}
    (hm : Unbroken margin) : Inked (e.layout margin) := by
  cases e with
  | number n =>
      obtain ⟨w, text, nonempty, valid, -, -⟩ := number_digits h
      obtain ⟨c, w, rfl⟩ := List.exists_cons_of_ne_nil nonempty
      have alphanum := fun c hc => isAlphanum_of_isDigit (valid c hc)
      rw [Expr.layout, text]
      exact .of_mem (unbroken_of_isAlphanum alphanum) List.mem_cons_self
        (isBlank_eq_false_of_isAlphanum (alphanum c List.mem_cons_self))
  | operation lhs rhs op =>
      simp only [Expr.wellFormed, Bool.and_eq_true] at h
      have left := Expr.inked_layout lhs h.1.2 hm
      have right := Expr.inked_layout rhs h.2 hm
      exact left.append (lineInk_of_unbroken_append (unbroken_operator op) right true)
  | usage name => exact inked_of_isName h
  | block stmts =>
      have inner := Stmt.lineInk_layoutAll stmts h (hm.append unbroken_blockMargin)
      have close : Inked ['}'] := .of_mem (by decide) List.mem_cons_self rfl
      intro begun
      have last : lineInk true (blockEnd margin stmts) = some true := by
        cases stmts with
        | nil => rfl
        | cons t ts => exact inked_newline hm close
      have opened : lineInk true (Stmt.layoutAll (margin ++ blockMargin) stmts ++
          blockEnd margin stmts) = some true := by
        rw [lineInk_append, inner]
        exact last
      have brace : Inked ['{'] := .of_mem (by decide) List.mem_cons_self rfl
      exact brace.append opened begun

theorem Stmt.inked_layout (t : Stmt) (h : t.wellFormed = true) {margin : Text}
    (hm : Unbroken margin) : Inked (t.layout margin) := by
  cases t with
  | binding name value =>
      simp only [Stmt.wellFormed, Bool.and_eq_true] at h
      have inner := Expr.inked_layout value h.2 hm
      have sign := fun begun =>
        lineInk_of_unbroken_append (a := [' ', '=', ' ']) (by decide) inner begun
      exact lineInk_of_unbroken_append (by decide)
        (lineInk_of_unbroken_append (unbroken_of_isName h.1) sign)
  | function name params body =>
      simp only [Stmt.wellFormed, Bool.and_eq_true] at h
      have inner := Stmt.inked_layout body h.2 hm
      have arrow := fun begun =>
        lineInk_of_unbroken_append (a := ['=', '>', ' ']) (by decide) inner begun
      have names := lineInk_of_unbroken_append (unbroken_params h.1.2) arrow
      have gap := lineInk_of_unbroken_append (a := [' ']) (by decide) names
      exact lineInk_of_unbroken_append (by decide)
        (lineInk_of_unbroken_append (unbroken_of_isName h.1.1) gap)
  | expr e => exact Expr.inked_layout e h hm

theorem Stmt.lineInk_layoutAll (ts : List Stmt) (h : Stmt.allWellFormed ts = true) {margin : Text}
    (hm : Unbroken margin) : lineInk true (Stmt.layoutAll margin ts) = some true := by
  cases ts with
  | nil => rfl
  | cons t ts =>
      simp only [Stmt.allWellFormed, Bool.and_eq_true] at h
      have first := Stmt.inked_layout t h.1 hm
      have others := Stmt.lineInk_layoutAll ts h.2 hm
      exact inked_newline hm (first.append others)

end

mutual

/-- A margin behind every newline makes the margin of a tree deeper. -/
theorem Expr.hang_layout (e : Expr) (h : e.wellFormed = true) (deeper margin : Text)
    (hm : Unbroken margin) : hang deeper (e.layout margin) = e.layout (deeper ++ margin) := by
  cases e with
  | number n =>
      obtain ⟨w, text, -, valid, -, -⟩ := number_digits h
      rw [Expr.layout, Expr.layout, text]
      exact hang_eq_self (unbroken_of_isAlphanum fun c hc => isAlphanum_of_isDigit (valid c hc))
  | operation lhs rhs op =>
      simp only [Expr.wellFormed, Bool.and_eq_true] at h
      rw [Expr.layout, Expr.layout, hang_append, Expr.hang_layout lhs h.1.2 deeper margin hm,
        hang_unbroken_append (unbroken_operator op), Expr.hang_layout rhs h.2 deeper margin hm]
  | usage name => exact hang_eq_self (unbroken_of_isName h)
  | block stmts =>
      have inner := Stmt.hang_layoutAll stmts h deeper _ (hm.append unbroken_blockMargin)
      have last : hang deeper (blockEnd margin stmts) = blockEnd (deeper ++ margin) stmts := by
        cases stmts with
        | nil => rfl
        | cons t ts =>
            rw [blockEnd, List.cons_append, hang_newline, hang_unbroken_append hm]
            exact congrArg ('\n' :: ·) (List.append_assoc deeper margin _).symm
      have other : '{' ≠ '\n' := by decide
      rw [Expr.layout, Expr.layout, hang_cons other, hang_append, inner, last, List.append_assoc]

theorem Stmt.hang_layout (t : Stmt) (h : t.wellFormed = true) (deeper margin : Text)
    (hm : Unbroken margin) : hang deeper (t.layout margin) = t.layout (deeper ++ margin) := by
  cases t with
  | binding name value =>
      simp only [Stmt.wellFormed, Bool.and_eq_true] at h
      rw [Stmt.layout, Stmt.layout, hang_unbroken_append (by decide),
        hang_unbroken_append (unbroken_of_isName h.1), hang_unbroken_append (by decide),
        Expr.hang_layout value h.2 deeper margin hm]
  | function name params body =>
      simp only [Stmt.wellFormed, Bool.and_eq_true] at h
      have other : ' ' ≠ '\n' := by decide
      rw [Stmt.layout, Stmt.layout, hang_unbroken_append (by decide),
        hang_unbroken_append (unbroken_of_isName h.1.1), hang_cons other,
        hang_unbroken_append (unbroken_params h.1.2), hang_unbroken_append (by decide),
        Stmt.hang_layout body h.2 deeper margin hm]
  | expr e => exact Expr.hang_layout e h deeper margin hm

theorem Stmt.hang_layoutAll (ts : List Stmt) (h : Stmt.allWellFormed ts = true)
    (deeper margin : Text) (hm : Unbroken margin) :
    hang deeper (Stmt.layoutAll margin ts) = Stmt.layoutAll (deeper ++ margin) ts := by
  cases ts with
  | nil => rfl
  | cons t ts =>
      simp only [Stmt.allWellFormed, Bool.and_eq_true] at h
      rw [Stmt.layoutAll, Stmt.layoutAll, List.cons_append, hang_newline, hang_unbroken_append hm,
        hang_append, Stmt.hang_layout t h.1 deeper margin hm,
        Stmt.hang_layoutAll ts h.2 deeper margin hm]
      simp only [List.cons_append, List.append_assoc]

end

/-! ## The canonical text -/

theorem joinWith_cons_cons (separator a b : Text) (more : List Text) :
    joinWith separator (a :: b :: more) = a ++ separator ++ joinWith separator (b :: more) := rfl

theorem inked_joined {t : Stmt} {ts : List Stmt} (h : Stmt.allWellFormed (t :: ts) = true) :
    Inked (joinWith ['\n'] ((t :: ts).map (Stmt.layout []))) := by
  have flat : Unbroken [] := List.forall_mem_nil _
  induction ts generalizing t with
  | nil =>
      simp only [Stmt.allWellFormed, Bool.and_true] at h
      exact Stmt.inked_layout t h flat
  | cons u ts ih =>
      obtain ⟨ht, hu⟩ := Bool.and_eq_true_iff.mp h
      rw [List.map_cons, List.map_cons, joinWith_cons_cons, List.append_assoc]
      exact (Stmt.inked_layout t ht flat).append (inked_newline flat (ih hu))

/-- Laid out with a margin, statements stand as their joined texts with the margin behind every
newline. -/
theorem layoutAll_eq_hang {t : Stmt} {ts : List Stmt} (h : Stmt.allWellFormed (t :: ts) = true)
    (margin : Text) : Stmt.layoutAll margin (t :: ts) =
      '\n' :: margin ++ hang margin (joinWith ['\n'] ((t :: ts).map (Stmt.layout []))) := by
  have flat : Unbroken [] := List.forall_mem_nil _
  induction ts generalizing t with
  | nil =>
      obtain ⟨ht, -⟩ := Bool.and_eq_true_iff.mp h
      have deeper := Stmt.hang_layout t ht margin [] flat
      rw [List.append_nil] at deeper
      rw [Stmt.layoutAll, Stmt.layoutAll, List.append_nil, ← deeper]
      rfl
  | cons u ts ih =>
      obtain ⟨ht, hu⟩ := Bool.and_eq_true_iff.mp h
      have deeper := Stmt.hang_layout t ht margin [] flat
      rw [List.append_nil] at deeper
      simp only [List.map_cons] at ih ⊢
      rw [Stmt.layoutAll, ih hu, joinWith_cons_cons, hang_append, hang_append, deeper]
      simp only [hang_newline, hang_nil, List.append_nil, List.append_assoc]

theorem Stmt.render_binding (name : Text) (value : Expr) :
    (Stmt.binding name value).render =
      ['l', 'e', 't', ' '] ++ name ++ [' ', '=', ' '] ++ value.render := rfl

theorem Stmt.render_function (name : Text) (params : List Text) (body : Stmt) :
    (Stmt.function name params body).render =
      joinWith [' '] (['f', 'n'] :: name :: params ++ [['=', '>'], body.render]) := rfl

theorem joinWith_arrow (words : List Text) (body : Text) :
    joinWith [' '] (words ++ [['=', '>'], body]) =
      words.flatMap (· ++ [' ']) ++ (['=', '>', ' '] ++ body) := by
  induction words with
  | nil => rfl
  | cons word words ih =>
      have next : words ++ [['=', '>'], body] ≠ [] :=
        List.append_ne_nil_of_right_ne_nil words (List.cons_ne_nil _ _)
      obtain ⟨a, more, same⟩ := List.exists_cons_of_ne_nil next
      rw [List.cons_append, same, joinWith_cons_cons, ← same, ih, List.flatMap_cons]
      simp only [List.append_assoc]

mutual

/-- For a tree that can be written the canonical text is its layout without a margin. -/
theorem Expr.render_eq_layout (e : Expr) (h : e.wellFormed = true) : e.render = e.layout [] := by
  cases e with
  | number n => rfl
  | operation lhs rhs op =>
      simp only [Expr.wellFormed, Bool.and_eq_true] at h
      rw [Expr.render, Expr.layout, Expr.render_eq_layout lhs h.1.2, Expr.render_eq_layout rhs h.2]
      simp only [List.append_assoc, List.cons_append, List.nil_append]
  | usage name => rfl
  | block stmts =>
      have texts := Stmt.renderAll_eq_layout stmts h
      cases stmts with
      | nil => rfl
      | cons t ts =>
          have opening : "\x7b\n".toList = ['{', '\n'] := rfl
          have closing : "\n\x7d".toList = ['\n', '}'] := rfl
          rw [Expr.render, texts, Expr.layout, List.nil_append, layoutAll_eq_hang h]
          have inked := inked_joined h false
          simp only [List.map_cons, opening, closing] at inked ⊢
          rw [indent_eq_hang inked]
          simp only [blockEnd, List.cons_append, List.nil_append, List.append_assoc]

theorem Stmt.render_eq_layout (t : Stmt) (h : t.wellFormed = true) : t.render = t.layout [] := by
  cases t with
  | binding name value =>
      simp only [Stmt.wellFormed, Bool.and_eq_true] at h
      rw [Stmt.render_binding, Stmt.layout, Expr.render_eq_layout value h.2, List.append_assoc,
        List.append_assoc]
  | function name params body =>
      simp only [Stmt.wellFormed, Bool.and_eq_true] at h
      rw [Stmt.render_function, Stmt.layout, Stmt.render_eq_layout body h.2, joinWith_arrow]
      simp only [List.flatMap_cons, List.append_assoc, List.cons_append, List.nil_append]
  | expr e => exact Expr.render_eq_layout e h

theorem Stmt.renderAll_eq_layout (ts : List Stmt) (h : Stmt.allWellFormed ts = true) :
    Stmt.renderAll ts = ts.map (Stmt.layout []) := by
  cases ts with
  | nil => rfl
  | cons t ts =>
      simp only [Stmt.allWellFormed, Bool.and_eq_true] at h
      rw [Stmt.renderAll, Stmt.render_eq_layout t h.1, Stmt.renderAll_eq_layout ts h.2,
        List.map_cons]

end

end BlockCalc
