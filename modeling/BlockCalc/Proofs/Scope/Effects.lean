import BlockCalc.Scope.Evaluation
/-! What an evaluation leaves behind. An expression leaves every scope as it was, whether it has a
value or an error, since a block stores in a scope of its own. A statement stores under at most one
name, and only in the innermost scope. So the answers of parts can be put together without a word
about scopes, but for the one thing that a statement stores for those behind it. -/
namespace BlockCalc

def Op.onValues (op : Op) : Value → Value → Except EvalError Value
  | .number m, .number n => op.apply m n
  | _, _ => .error .operandNotNumber

/-- A scope in which something is stored under a name, or nothing is. -/
def Scope.storing (scope : Scope) : Option (Text × Info) → Scope
  | none => scope
  | some (name, info) => scope.store name info

/-- What a statement stores in its scope, and under which name. -/
def Stmt.stored : Stmt → Scope → Option (Text × Info)
  | .binding name value, scope =>
    match (value.eval scope).1 with
    | .ok found => some (name, .binding found)
    | .error _ => none
  | .function name params body, _ => some (name, .function params body)
  | .expr _, _ => none

@[simp] theorem Scope.enclosing_storing (scope : Scope) (entry : Option (Text × Info)) :
    (scope.storing entry).enclosing = scope.enclosing := by
  cases entry <;> rfl

/-- Whatever was stored in a scope within another, nothing of it is left when it is popped. -/
theorem Scope.pop_of_enclosing {scope inner : Scope} (h : inner.enclosing = scope.push.enclosing) :
    inner.pop = scope := by
  rw [Scope.pop, h]
  rfl

/-! ## The scope behind an evaluation -/

mutual

theorem Expr.eval_scope : (e : Expr) → (scope : Scope) → (e.eval scope).2 = scope
  | .number _, _ => rfl
  | .operation lhs rhs op, scope => by
      have left := lhs.eval_scope scope
      have right := rhs.eval_scope scope
      rw [Expr.eval]
      generalize lhs.eval scope = x at left
      obtain ⟨answer, next⟩ := x
      obtain rfl : next = scope := left
      cases answer with
      | error e => rfl
      | ok l =>
          dsimp only
          generalize rhs.eval next = y at right
          obtain ⟨answer, last⟩ := y
          obtain rfl : last = next := right
          cases answer with
          | error e => rfl
          | ok r => cases l <;> cases r <;> rfl
  | .usage _, _ => rfl
  | .block stmts, scope => by
      rw [Expr.eval]
      exact Scope.pop_of_enclosing (Stmt.evalAll_enclosing stmts scope.push)

theorem Stmt.eval_scope : (t : Stmt) → (scope : Scope) →
    (t.eval scope).2 = scope.storing (t.stored scope)
  | .binding name value, scope => by
      have same := value.eval_scope scope
      rw [Stmt.eval, Stmt.stored]
      generalize value.eval scope = x at same
      obtain ⟨answer, next⟩ := x
      obtain rfl : next = scope := same
      cases answer <;> rfl
  | .function _ _ _, _ => rfl
  | .expr e, scope => e.eval_scope scope

theorem Stmt.evalAll_enclosing : (ts : List Stmt) → (scope : Scope) →
    (Stmt.evalAll ts scope).2.enclosing = scope.enclosing
  | [], _ => rfl
  | t :: ts, scope => by
      have first : (t.eval scope).2.enclosing = scope.enclosing := by
        rw [t.eval_scope scope, Scope.enclosing_storing]
      rw [Stmt.evalAll]
      generalize t.eval scope = x at first
      obtain ⟨answer, next⟩ := x
      cases answer with
      | error e => exact first
      | ok v =>
          cases ts with
          | nil => exact first
          | cons t' ts => exact (Stmt.evalAll_enclosing (t' :: ts) next).trans first

end

/-! ## Answers from the answers of parts -/

theorem Expr.eval_operation (lhs rhs : Expr) (op : Op) (scope : Scope) :
    ((Expr.operation lhs rhs op).eval scope).1 = (do
      let l ← (lhs.eval scope).1
      let r ← (rhs.eval scope).1
      op.onValues l r) := by
  have left := lhs.eval_scope scope
  rw [Expr.eval]
  generalize lhs.eval scope = x at left
  obtain ⟨answer, next⟩ := x
  obtain rfl : next = scope := left
  cases answer with
  | error e => rfl
  | ok l =>
      dsimp only
      generalize rhs.eval next = y
      obtain ⟨answer, last⟩ := y
      cases answer with
      | error e => rfl
      | ok r => cases l <;> cases r <;> rfl

theorem Stmt.eval_binding (name : Text) (value : Expr) (scope : Scope) :
    ((Stmt.binding name value).eval scope).1 = (value.eval scope).1.map fun _ => .unit := by
  rw [Stmt.eval]
  generalize value.eval scope = x
  obtain ⟨answer, next⟩ := x
  cases answer <;> rfl

theorem Stmt.evalAll_singleton (t : Stmt) (scope : Scope) :
    (Stmt.evalAll [t] scope).1 = (t.eval scope).1 := by
  rw [Stmt.evalAll]
  generalize t.eval scope = x
  obtain ⟨answer, next⟩ := x
  cases answer <;> rfl

/-- Statements behind another see what it stored. -/
theorem Stmt.evalAll_cons_cons (t t' : Stmt) (ts : List Stmt) (scope : Scope) :
    (Stmt.evalAll (t :: t' :: ts) scope).1 =
      (t.eval scope).1 >>= fun _ =>
        (Stmt.evalAll (t' :: ts) (scope.storing (t.stored scope))).1 := by
  have first := t.eval_scope scope
  rw [Stmt.evalAll]
  generalize t.eval scope = x at first
  obtain ⟨answer, next⟩ := x
  obtain rfl : next = scope.storing (t.stored scope) := first
  cases answer <;> rfl

end BlockCalc
