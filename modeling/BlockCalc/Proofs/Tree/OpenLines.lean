import BlockCalc.Proofs.Text.Trim
import BlockCalc.Proofs.Tree.Layout
/-! The canonical text line by line. Every line but the last ends in ink and leaves a block open, and
behind the last line all blocks are closed, so that no lines at the start of the text could be taken
for a statement. -/
namespace BlockCalc
open Grammar Text

/-- How far a text has come: how many blocks are open, and whether the line so far ends in ink. -/
structure Standing where
  blocks : Nat
  ink : Bool
  deriving DecidableEq

namespace Standing

/-- A text cannot go on with a newline where the line does not end in ink or no block is open, with
a brace that closes nothing, or with a character that does not print in ASCII. -/
def next (st : Standing) (c : Char) : Option Standing :=
  if c = '\n' then if st.ink = true ∧ 0 < st.blocks then some ⟨st.blocks, false⟩ else none
  else if c.toNat < 32 ∨ 126 < c.toNat then none
  else if c = '{' then some ⟨st.blocks + 1, true⟩
  else if c = '}' then if st.blocks = 0 then none else some ⟨st.blocks - 1, true⟩
  else some ⟨st.blocks, !isBlank c⟩

def behind (st : Standing) (s : Text) : Option Standing := s.foldlM next st

variable {st last : Standing} {c : Char} {s a b : Text}

theorem behind_append (st : Standing) (a b : Text) :
    st.behind (a ++ b) = (st.behind a).bind fun middle => middle.behind b := List.foldlM_append

theorem behind_cons (st : Standing) (c : Char) (s : Text) :
    st.behind (c :: s) = (st.next c).bind fun middle => middle.behind s := List.foldlM_cons

/-- What a character can do. -/
theorem next_cases (h : st.next c = some last) :
    st.blocks + [c].count '{' = last.blocks + [c].count '}' ∧
      (c = '\n' ∧ st.ink = true ∧ 0 < st.blocks ∧ last = ⟨st.blocks, false⟩ ∨
        32 ≤ c.toNat ∧ c.toNat ≤ 126 ∧ last.ink = !isBlank c) := by
  by_cases newline : c = '\n'
  · subst newline
    rw [next, if_pos rfl] at h
    obtain ⟨⟨ink, positive⟩, same⟩ := Option.ite_none_right_eq_some.mp h
    cases same
    exact ⟨rfl, .inl ⟨rfl, ink, positive, rfl⟩⟩
  rw [next, if_neg newline] at h
  obtain ⟨plain, h⟩ := Option.ite_none_left_eq_some.mp h
  have low : 32 ≤ c.toNat := by omega
  have high : c.toNat ≤ 126 := by omega
  by_cases opening : c = '{'
  · subst opening
    cases h
    exact ⟨rfl, .inr ⟨low, high, rfl⟩⟩
  by_cases closing : c = '}'
  · subst closing
    obtain ⟨positive, same⟩ := Option.ite_none_left_eq_some.mp h
    cases same
    refine ⟨?_, .inr ⟨low, high, rfl⟩⟩
    change st.blocks + 0 = st.blocks - 1 + 1
    omega
  · rw [if_neg opening, if_neg closing] at h
    cases h
    have opens : [c].count '{' = 0 :=
      List.count_eq_zero_of_not_mem fun member => opening (List.mem_singleton.mp member).symm
    have closes : [c].count '}' = 0 :=
      List.count_eq_zero_of_not_mem fun member => closing (List.mem_singleton.mp member).symm
    rw [opens, closes]
    exact ⟨rfl, .inr ⟨low, high, rfl⟩⟩

/-! ## What a text that goes through is like -/

theorem count_behind (h : st.behind s = some last) :
    st.blocks + s.count '{' = last.blocks + s.count '}' := by
  induction s generalizing st with
  | nil =>
      cases h
      rfl
  | cons c s ih =>
      rw [behind_cons] at h
      obtain ⟨middle, first, later⟩ := Option.bind_eq_some_iff.mp h
      have here := (next_cases first).1
      have there := ih later
      rw [List.count_cons, List.count_cons]
      rw [List.count_singleton, List.count_singleton] at here
      omega

theorem plain_of_behind (h : st.behind s = some last) :
    ∀ c ∈ s, c = '\n' ∨ 32 ≤ c.toNat ∧ c.toNat ≤ 126 := by
  induction s generalizing st with
  | nil => exact List.forall_mem_nil _
  | cons c s ih =>
      rw [behind_cons] at h
      obtain ⟨middle, first, later⟩ := Option.bind_eq_some_iff.mp h
      refine List.forall_mem_cons.mpr ⟨?_, ih later⟩
      rcases (next_cases first).2 with ⟨newline, -⟩ | ⟨low, high, -⟩
      · exact .inl newline
      · exact .inr ⟨low, high⟩

/-- A text that ends in ink loses nothing at its end, and it has an end of its own if no ink came
before it. -/
theorem trimEnd_of_behind (h : st.behind s = some last) (ink : last.ink = true) :
    trimEnd s = s ∧ (st.ink = false → s ≠ []) := by
  induction s generalizing st with
  | nil =>
      cases h
      refine ⟨rfl, fun none => ?_⟩
      rw [ink] at none
      cases none
  | cons c s ih =>
      rw [behind_cons] at h
      obtain ⟨middle, first, later⟩ := Option.bind_eq_some_iff.mp h
      obtain ⟨same, text⟩ := ih later
      refine ⟨?_, fun _ => List.cons_ne_nil c s⟩
      by_cases none : s = []
      · subst none
        cases later
        rcases (next_cases first).2 with ⟨-, -, -, rfl⟩ | ⟨-, -, same⟩
        · cases ink
        · have dark : isBlank c = false := by
            rw [ink] at same
            exact (Bool.not_eq_true' _).mp same.symm
          simp only [trimEnd, dark, Bool.false_eq_true, if_false]
      · have kept : trimEnd s ≠ [] := by
          rw [same]
          exact none
        rw [trimEnd_cons c kept, same]

/-- At the end of a line that is not the last, the line ends in ink and a block is open. -/
theorem behind_line (h : st.behind (a ++ '\n' :: b) = some last) :
    ∃ blocks, st.behind a = some ⟨blocks + 1, true⟩ ∧
      behind ⟨blocks + 1, false⟩ b = some last := by
  rw [behind_append] at h
  obtain ⟨⟨blocks, ink⟩, line, later⟩ := Option.bind_eq_some_iff.mp h
  rw [behind_cons] at later
  obtain ⟨middle, newline, later⟩ := Option.bind_eq_some_iff.mp later
  rcases (next_cases newline).2 with ⟨-, dark, positive, rfl⟩ | ⟨low, -⟩
  · obtain ⟨blocks, rfl⟩ := Nat.exists_eq_succ_of_ne_zero (Nat.ne_of_gt positive)
    obtain rfl : ink = true := dark
    exact ⟨blocks, line, later⟩
  · exact absurd low (by decide)

end Standing

/-- A text that closes as many blocks as it opens, wherever it is put, and of which it is known
whether it ends in ink. -/
def Level (ink : Bool) (s : Text) : Prop := ∀ st : Standing, st.behind s = some ⟨st.blocks, ink⟩

section
variable {ink last : Bool} {a b margin : Text}

theorem Level.append (ha : Level ink a) (hb : Level last b) : Level last (a ++ b) := by
  intro st
  rw [Standing.behind_append, ha st]
  exact hb _

theorem level_of_isAlphanum {w : Text} (h : ∀ c ∈ w, c.isAlphanum = true) (text : w ≠ []) :
    Level true w := by
  have step : ∀ c, c.isAlphanum = true → ∀ st : Standing,
      st.next c = some ⟨st.blocks, true⟩ := by
    intro c valid st
    have range := isAlphanum_range valid
    have dark := isBlank_eq_false_of_isAlphanum valid
    have other : ∀ d : Char, d.toNat < 48 ∨ 122 < d.toNat → c ≠ d := by
      rintro d outside rfl
      omega
    have plain : ¬ (c.toNat < 32 ∨ 126 < c.toNat) := by omega
    rw [Standing.next, if_neg (other '\n' (by decide)), if_neg plain,
      if_neg (other '{' (by decide)), if_neg (other '}' (by decide)), dark]
    rfl
  induction w with
  | nil => exact False.elim (text rfl)
  | cons c w ih =>
      obtain ⟨first, later⟩ := List.forall_mem_cons.mp h
      intro st
      rw [Standing.behind_cons, step c first st]
      by_cases none : w = []
      · rw [none]
        rfl
      · exact ih later none _

theorem level_of_isName {name : Text} (h : isName name = true) : Level true name :=
  level_of_isAlphanum (isAlphanum_of_isName h) (ne_nil_of_isName h)

theorem level_params {params : List Text} (h : params.all isName = true) :
    Level false (' ' :: params.flatMap (· ++ [' '])) := by
  induction params with
  | nil => exact fun _ => rfl
  | cons name params ih =>
      obtain ⟨valid, others⟩ := Bool.and_eq_true_iff.mp h
      have space : Level false [' '] := fun _ => rfl
      have whole := space.append ((level_of_isName valid).append (ih others))
      rw [List.flatMap_cons, List.append_assoc]
      exact whole

theorem behind_margin (h : ∀ c ∈ margin, c = ' ') (blocks : Nat) :
    Standing.behind ⟨blocks, false⟩ margin = some ⟨blocks, false⟩ := by
  induction margin with
  | nil => rfl
  | cons c margin ih =>
      obtain ⟨rfl, later⟩ := List.forall_mem_cons.mp h
      exact ih later

theorem eq_space_of_mem_blockMargin : ∀ c ∈ blockMargin, c = ' ' := by
  have spaces : blockMargin = List.replicate 4 ' ' := rfl
  intro c member
  rw [spaces] at member
  exact List.eq_of_mem_replicate member

/-- A new line in a block. -/
theorem behind_newline (h : ∀ c ∈ margin, c = ' ') (blocks : Nat) (s : Text) :
    Standing.behind ⟨blocks + 1, true⟩ ('\n' :: margin ++ s) =
      Standing.behind ⟨blocks + 1, false⟩ s := by
  have fresh := behind_margin h (blocks + 1)
  rw [List.cons_append, Standing.behind_cons]
  change Standing.behind ⟨blocks + 1, false⟩ (margin ++ s) = _
  rw [Standing.behind_append, fresh]
  rfl

theorem behind_blockEnd (h : ∀ c ∈ margin, c = ' ') (stmts : List Stmt) (blocks : Nat) :
    Standing.behind ⟨blocks + 1, true⟩ (blockEnd margin stmts) = some ⟨blocks, true⟩ := by
  cases stmts with
  | nil => rfl
  | cons t ts =>
      rw [blockEnd, behind_newline h]
      rfl

end

mutual

/-- The layout of a tree closes all blocks that it opens and has a block open at the end of each of
its lines but the last. -/
theorem Expr.level_layout (e : Expr) (h : e.wellFormed = true) {margin : Text}
    (hm : ∀ c ∈ margin, c = ' ') : Level true (e.layout margin) := by
  cases e with
  | number n =>
      obtain ⟨w, text, nonempty, valid, -, -⟩ := number_digits h
      rw [Expr.layout, text]
      exact level_of_isAlphanum (fun c hc => isAlphanum_of_isDigit (valid c hc)) nonempty
  | operation lhs rhs op =>
      simp only [Expr.wellFormed, Bool.and_eq_true] at h
      have left := Expr.level_layout lhs h.1.2 hm
      have right := Expr.level_layout rhs h.2 hm
      have sign : Level false (' ' :: op.symbol ++ [' ']) := by
        cases op <;> exact fun _ => rfl
      exact left.append (sign.append right)
  | usage name => exact level_of_isName h
  | block stmts =>
      have deeper := List.forall_mem_append.mpr ⟨hm, eq_space_of_mem_blockMargin⟩
      intro st
      rw [Expr.layout, Standing.behind_cons]
      change Standing.behind ⟨st.blocks + 1, true⟩ _ = _
      rw [Standing.behind_append, Stmt.behind_layoutAll stmts h deeper]
      exact behind_blockEnd hm stmts st.blocks

theorem Stmt.level_layout (t : Stmt) (h : t.wellFormed = true) {margin : Text}
    (hm : ∀ c ∈ margin, c = ' ') : Level true (t.layout margin) := by
  cases t with
  | binding name value =>
      simp only [Stmt.wellFormed, Bool.and_eq_true] at h
      have word : Level false ['l', 'e', 't', ' '] := fun _ => rfl
      have sign : Level false [' ', '=', ' '] := fun _ => rfl
      have inner := Expr.level_layout value h.2 hm
      exact word.append ((level_of_isName h.1).append (sign.append inner))
  | function name params body =>
      simp only [Stmt.wellFormed, Bool.and_eq_true] at h
      have word : Level false ['f', 'n', ' '] := fun _ => rfl
      have arrow : Level false ['=', '>', ' '] := fun _ => rfl
      have inner := Stmt.level_layout body h.2 hm
      have names := (level_params h.1.2).append (arrow.append inner)
      exact word.append ((level_of_isName h.1.1).append names)
  | expr e => exact Expr.level_layout e h hm

theorem Stmt.behind_layoutAll (ts : List Stmt) (h : Stmt.allWellFormed ts = true) {margin : Text}
    (hm : ∀ c ∈ margin, c = ' ') (blocks : Nat) :
    Standing.behind ⟨blocks + 1, true⟩ (Stmt.layoutAll margin ts) = some ⟨blocks + 1, true⟩ := by
  cases ts with
  | nil => rfl
  | cons t ts =>
      simp only [Stmt.allWellFormed, Bool.and_eq_true] at h
      have first := Stmt.level_layout t h.1 hm
      rw [Stmt.layoutAll, behind_newline hm, Standing.behind_append, first]
      exact Stmt.behind_layoutAll ts h.2 hm blocks

end

theorem Stmt.level_render {t : Stmt} (h : t.wellFormed = true) : Level true t.render := by
  rw [Stmt.render_eq_layout t h]
  exact Stmt.level_layout t h (List.forall_mem_nil _)

end BlockCalc
