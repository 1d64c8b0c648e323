import BlockCalc.Proofs.Grammar.Limits
/-! The grammar without reading an operand twice. Where an operation does not go on behind its first
operand, the reader reads the same operand again, in every block within a block; the factored grammar
keeps the operand and what was left behind it. Both give every text the same answer: a failure of the
first operand is that of either alternative, a mismatch behind it gives the operand up to where it
ended, and what is no mismatch stops both. -/
namespace BlockCalc.Grammar
variable {α : Type}

/-! ## Factored rules -/

namespace Factored

section
variable (stmt : Rule Stmt)

def operationFrom (lhs : Expr) : Rule Expr := fun s => do
  let (s, op) ← operator s.trimStart
  let (s, rhs) ← operand stmt s.trimStart
  return (s, .operation lhs rhs op)

/-- One operand, and an operation from there on if it goes on as one. -/
def expr : Rule Expr := fun s => do
  let (s, lhs) ← operand stmt s
  orElse (operationFrom stmt lhs) (fun s => .ok (s, lhs)) s

end

def stmt : (limit : Nat) → Rule Stmt
  | 0 => fun _ => .error .tooDeep
  | limit + 1 => stmtOf (expr (stmt limit)) (stmt limit)

end Factored

/-! ## Factored and unfactored rules -/

/-- Alternatives answer by the answers of their parts, whatever texts these were given. -/
theorem orElse_congr {first first' second second' : Rule α} {s s' : Text}
    (h : first s = first' s') (h' : second s = second' s') :
    orElse first second s = orElse first' second' s' := by
  unfold orElse
  rw [h, h']

/-- An item that both alternatives begin with is read once for both, if the second is this item
alone. -/
theorem orElse_bind (item : Rule α) (next : α → Rule α) (s : Text) :
    orElse (fun s => item s >>= fun found => next found.2 found.1) item s =
      item s >>= fun found => orElse (next found.2) (fun s => .ok (s, found.2)) found.1 := by
  cases h : item s with
  | error failure =>
      have first : (item s >>= fun found => next found.2 found.1) = .error failure := by
        rw [h]
        rfl
      cases failure with
      | mismatch e => exact (orElse_of_mismatch first).trans h
      | _ => exact orElse_of_failure first fun _ => nofun
  | ok found =>
      have first : (item s >>= fun found => next found.2 found.1) = next found.2 found.1 := by
        rw [h]
        rfl
      change orElse _ item s = orElse (next found.2) (fun s => .ok (s, found.2)) found.1
      exact orElse_congr first h

theorem Factored.expr_eq (rule : Rule Stmt) : Factored.expr rule = Grammar.expr rule := by
  funext s
  exact (orElse_bind (operand rule) (Factored.operationFrom rule) s).symm

/-- With statements of any depth in one another both grammars have the same rule. -/
theorem Factored.stmt_eq (limit : Nat) : Factored.stmt limit = Grammar.stmt limit := by
  induction limit with
  | zero => rfl
  | succ limit ih => rw [Factored.stmt, Factored.expr_eq, ih, Grammar.stmt, stmtAbove]

/-- Readers that do not run out of levels give the same answer, however many each has. -/
theorem stmt_unlimited {limit limit' : Nat} {s : Text} (level : stmt limit s ≠ .error .tooDeep)
    (level' : stmt limit' s ≠ .error .tooDeep) : stmt limit s = stmt limit' s := by
  rcases Nat.le_total limit limit' with more | more
  · exact (stmt_restricts more s).resolve_left level
  · exact ((stmt_restricts more s).resolve_left level').symm

/-- The factored grammar leaves the same text behind the same tree, or fails for the same reason;
and so it does with other levels than the unfactored one has, unless either runs out of them. -/
theorem factored_stmt (s : Text) :
    (∀ limit, Factored.stmt limit s = stmt limit s) ∧
    ∀ limit limit', Factored.stmt limit s ≠ .error .tooDeep → stmt limit' s ≠ .error .tooDeep →
      Factored.stmt limit s = stmt limit' s := by
  refine ⟨fun limit => congrFun (Factored.stmt_eq limit) s, ?_⟩
  intro limit limit' level level'
  rw [Factored.stmt_eq] at level ⊢
  exact stmt_unlimited level level'

/-- No operand can be read behind the operator, as its block is not closed. So the operand in front
is the whole expression, and the blank characters behind it are left over with the operator. -/
theorem factored_stmt_unclosed :
    Factored.stmt 3 "\x7b\x7b1\x7d\x7d \n* \x7bx".toList = .ok (" \n* \x7bx".toList,
      .expr (.block [.expr (.block [.expr (.number 1)])])) := by
  have reading : stmt nestingLimit "\x7b\x7b1\x7d\x7d \n* \x7bx".toList = .ok
      (" \n* \x7bx".toList, .expr (.block [.expr (.block [.expr (.number 1)])])) := by
    decide +kernel
  have same := factored_stmt "\x7b\x7b1\x7d\x7d \n* \x7bx".toList
  refine (same.2 3 nestingLimit ?_ ?_).trans reading
  · rw [same.1 3]
    decide +kernel
  · rw [reading]
    nofun

end BlockCalc.Grammar
