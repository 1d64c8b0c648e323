import BlockCalc.Proofs.Tree.Layout
/-! The canonical text without its blank characters. Margins, line breaks and the spaces between words
are all blank, so what is left are the words and signs of the tree one behind the other. -/
namespace BlockCalc

/-! ## Ink -/

namespace Text
variable {margin separator : Text}

def ink (s : Text) : Text := s.filter fun c => !isBlank c

theorem ink_append (a b : Text) : ink (a ++ b) = ink a ++ ink b := List.filter_append a b

theorem ink_of_blank (h : ∀ c ∈ margin, isBlank c = true) : ink margin = [] := by
  refine List.filter_eq_nil_iff.mpr fun c member => ?_
  rw [h c member]
  exact Bool.false_ne_true

theorem ink_of_not_blank {s : Text} (h : ∀ c ∈ s, isBlank c = false) : ink s = s := by
  refine List.filter_eq_self.mpr fun c member => ?_
  rw [h c member]
  rfl

theorem flatten_lines (s : Text) : s.lines.flatten = s := by
  fun_induction lines s with
  | case1 => rfl
  | case2 rest ih => rw [List.flatten_cons, ih, List.cons_append, List.cons_append, List.nil_append]
  | case3 c rest _ _ ih => rw [List.flatten_cons, ih, List.singleton_append]
  | case4 c rest _ _ none ih =>
      rw [none] at ih
      rw [← ih]
      rfl
  | case5 c rest _ _ line more cut ih =>
      rw [cut] at ih
      rw [← ih]
      rfl

/-- Indentation adds nothing but its margins. -/
theorem ink_indent (h : ∀ c ∈ margin, isBlank c = true) (s : Text) : ink (indent margin s) = ink s := by
  have line : ∀ line : Text,
      ink (if line.all isBlank then line else margin ++ line) = ink line := by
    intro line
    split
    · rfl
    · rw [ink_append, ink_of_blank h, List.nil_append]
  calc ink (indent margin s)
    _ = s.lines.flatMap fun line => ink (if line.all isBlank then line else margin ++ line) :=
        List.filter_flatMap
    _ = s.lines.flatMap ink := by simp only [line]
    _ = ink s.lines.flatten := by
        rw [ink, List.filter_flatten, List.flatMap_def]
        rfl
    _ = ink s := by rw [flatten_lines]

theorem ink_joinWith (h : ∀ c ∈ separator, isBlank c = true) (texts : List Text) :
    ink (joinWith separator texts) = ink texts.flatten := by
  fun_induction joinWith separator texts with
  | case1 => rfl
  | case2 s => rw [List.flatten_cons, List.flatten_nil, List.append_nil]
  | case3 s more _ ih =>
      rw [ink_append, ink_append, ink_of_blank h, List.append_nil, ih, List.flatten_cons, ink_append]

end Text

open Text

/-! ## Canonical texts without their blanks -/

theorem ink_operation (lhs rhs : Expr) (op : Op) : ink (Expr.operation lhs rhs op).render =
    ink lhs.render ++ (ink op.symbol ++ ink rhs.render) := by
  have space : ∀ s, ink (' ' :: s) = ink s := fun s => ink_append [' '] s
  rw [Expr.render, List.append_assoc, ink_append, List.cons_append, space, ink_append, space]

theorem ink_block (stmts : List Stmt) : ink (Expr.block stmts).render =
    '{' :: (ink (Stmt.renderAll stmts).flatten ++ ['}']) := by
  have step : ∀ c ∈ blockMargin, isBlank c = true :=
    List.all_eq_true.mp (rfl : blockMargin.all isBlank = true)
  have newline : ∀ c ∈ ['\n'], isBlank c = true := List.all_eq_true.mp (by decide)
  rw [Expr.render]
  split
  · next none =>
      rw [none]
      rfl
  · next texts some =>
      rw [ink_append, ink_append, ink_indent step, ink_joinWith newline]
      rfl

theorem ink_binding (name : Text) (value : Expr) : ink (Stmt.binding name value).render =
    ['l', 'e', 't'] ++ (ink name ++ ['=']) ++ ink value.render := by
  rw [Stmt.render_binding, ink_append, ink_append, ink_append, List.append_assoc ['l', 'e', 't']]
  rfl

theorem ink_function (name : Text) (params : List Text) (body : Stmt) :
    ink (Stmt.function name params body).render =
      ['f', 'n'] ++ (ink name ++ (ink params.flatten ++ ['=', '>'])) ++ ink body.render := by
  have space : ∀ c ∈ [' '], isBlank c = true := List.all_eq_true.mp (by decide)
  have words : (['f', 'n'] :: name :: params ++ [['=', '>'], body.render]).flatten =
      ['f', 'n'] ++ (name ++ (params.flatten ++ ['=', '>'])) ++ body.render := by
    simp only [List.flatten_append, List.flatten_cons, List.flatten_nil, List.cons_append,
      List.nil_append, List.append_nil, List.append_assoc]
  rw [Stmt.render_function, ink_joinWith space, words, ink_append, ink_append, ink_append, ink_append]
  rfl

end BlockCalc
