import BlockCalc.Grammar.Parse
import BlockCalc.Proofs.Grammar.Heads
import BlockCalc.Tree.Equality
/-! Readers with fewer and with more levels. The one with fewer either runs out of levels or answers
exactly as the other does. This rests on every rule handing a cut-off on: no alternative and no
repetition takes it for a mismatch and goes on from there with a different reading. -/
namespace BlockCalc.Grammar
variable {α β : Type}

/-- An answer is withheld because the levels ran out, or it is the answer of more levels. -/
def Withholds (fewer more : Except Failure α) : Prop := fewer = .error .tooDeep ∨ fewer = more

theorem Withholds.refl (x : Except Failure α) : Withholds x x := .inr rfl

theorem Withholds.bind {x y : Except Failure α} {f g : α → Except Failure β} (h : Withholds x y)
    (step : ∀ a, Withholds (f a) (g a)) : Withholds (x >>= f) (y >>= g) := by
  rcases h with rfl | rfl
  · exact .inl rfl
  · cases x with
    | error failure => exact .refl _
    | ok a => exact step a

/-- The first rule answers or withholds on every text as the second one answers. -/
def Restricts (fewer more : Rule α) : Prop := ∀ s, Withholds (fewer s) (more s)

theorem Restricts.refl (rule : Rule α) : Restricts rule rule := fun s => .refl (rule s)

theorem Restricts.orElse {first first' second second' : Rule α} (h : Restricts first first')
    (h' : Restricts second second') : Restricts (orElse first second) (orElse first' second') := by
  intro s
  rcases h s with deep | same
  · -- A cut-off is no mismatch, so the second rule is not heard.
    exact .inl (orElse_of_failure deep fun e => nofun)
  · unfold Grammar.orElse
    rw [← same]
    cases first s with
    | ok answer => exact .refl _
    | error failure =>
        cases failure with
        | mismatch e => exact h' s
        | literalTooLong n => exact .refl _
        | tooDeep => exact .refl _

theorem Restricts.many {rule rule' : Rule α} (h : Restricts rule rule') :
    Restricts (many rule) (many rule') := by
  intro s
  induction n : s.length using Nat.strongRecOn generalizing s with
  | ind n ih =>
      subst n
      rcases h s with deep | same
      · exact .inl (many_of_tooDeep deep)
      · rw [Grammar.many.eq_def rule s, Grammar.many.eq_def rule' s, ← same]
        cases rule s with
        | error failure => cases failure <;> exact .refl _
        | ok answer =>
            dsimp only
            split
            · next shorter =>
                rcases ih _ shorter _ rfl with deep | same
                · rw [deep]
                  exact .inl rfl
                · rw [same]
                  exact .refl _
            · exact .refl _

/-! ## Rules above a rule for statements -/

section
variable {fewer more : Rule Stmt}

theorem Restricts.block (h : Restricts fewer more) : Restricts (block fewer) (block more) := by
  intro s
  refine Withholds.bind (.refl _) fun s => ?_
  exact Withholds.bind (h.many _) fun answer => .refl _

theorem Restricts.operand (h : Restricts fewer more) : Restricts (operand fewer) (operand more) :=
  .orElse (.refl number) (.orElse (.refl usage) h.block)

theorem Restricts.operation (h : Restricts fewer more) :
    Restricts (operation fewer) (operation more) := by
  intro s
  refine Withholds.bind (h.operand s) fun lhs => ?_
  refine Withholds.bind (.refl _) fun sign => ?_
  exact Withholds.bind (h.operand _) fun rhs => .refl _

theorem Restricts.expr (h : Restricts fewer more) : Restricts (expr fewer) (expr more) :=
  .orElse h.operation h.operand

theorem Restricts.binding (h : Restricts fewer more) :
    Restricts (binding fewer) (binding more) := by
  intro s
  rw [binding_eq, binding_eq]
  refine Withholds.bind (.refl _) fun head => ?_
  exact Withholds.bind (h.expr head.1) fun value => .refl _

theorem Restricts.function (h : Restricts fewer more) :
    Restricts (function fewer) (function more) := by
  intro s
  rw [function_eq, function_eq]
  refine Withholds.bind (.refl _) fun head => ?_
  exact Withholds.bind (h head.1) fun body => .refl _

theorem Restricts.exprStmt (h : Restricts fewer more) :
    Restricts (exprStmt fewer) (exprStmt more) := by
  intro s
  exact Withholds.bind (h.expr s) fun e => .refl _

theorem Restricts.above (h : Restricts fewer more) :
    Restricts (stmtAbove fewer) (stmtAbove more) :=
  .orElse h.binding (.orElse h.function h.exprStmt)

end

theorem stmt_restricts {limit limit' : Nat} (h : limit ≤ limit') :
    Restricts (stmt limit) (stmt limit') := by
  induction limit generalizing limit' with
  | zero =>
      intro s
      exact .inl rfl
  | succ limit ih =>
      obtain ⟨more, rfl⟩ := Nat.exists_eq_add_of_le' h
      exact (ih (Nat.le_add_left limit more)).above

/-- A text that a reader does not refuse as nested too deeply has the same tree, or the same
failure, for every reader with more levels. -/
theorem parseWithin_more_levels {limit limit' : Nat} (h : limit ≤ limit') {s : Text}
    (answered : parseWithin limit s ≠ .error (.mismatch .nestedTooDeeply)) :
    parseWithin limit' s = parseWithin limit s := by
  rcases stmt_restricts h s with deep | same
  · rw [parseWithin, deep] at answered
    exact False.elim (answered rfl)
  · rw [parseWithin, parseWithin, same]

/-- One level is too few for a block with a statement in it, and with the two levels that suffice
the second operator is refused as it is with any more. -/
theorem parseWithin_more_levels_leftover :
    parseWithin 1 "\x7b1\x7d + 2 * 3".toList = .error (.mismatch .nestedTooDeeply) ∧
      parse "\x7b1\x7d + 2 * 3".toList = .error (.mismatch .leftover) := by
  have two : parseWithin 2 "\x7b1\x7d + 2 * 3".toList = .error (.mismatch .leftover) := by
    decide +kernel
  have answered : parseWithin 2 "\x7b1\x7d + 2 * 3".toList ≠
      .error (.mismatch .nestedTooDeeply) := by
    rw [two]
    nofun
  refine ⟨by decide +kernel, ?_⟩
  have same := parseWithin_more_levels (by decide : 2 ≤ nestingLimit) answered
  exact same.trans two

end BlockCalc.Grammar
