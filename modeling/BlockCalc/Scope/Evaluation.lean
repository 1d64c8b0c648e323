import BlockCalc.Scope.Basic
/-! Evaluation. Operands are evaluated from left to right and statements in order, and the first
error ends the evaluation. Names are stored in the innermost scope only, and the scope of a block
is gone when the block ends, by a value or by an error. A definition stores its function without
looking into the body. -/
namespace BlockCalc

mutual

/-- The value of an expression, and the scope as the evaluation leaves it. -/
def Expr.eval : Expr → Scope → Except EvalError Value × Scope
  | .number n, scope => (Value.ofInt n, scope)
  | .operation lhs rhs op, scope =>
    match lhs.eval scope with
    | (.error e, scope) => (.error e, scope)
    | (.ok left, scope) =>
      match rhs.eval scope with
      | (.error e, scope) => (.error e, scope)
      | (.ok right, scope) =>
        match left, right with
        | .number m, .number n => (op.apply m n, scope)
        | _, _ => (.error .operandNotNumber, scope)
  | .usage name, scope => (scope.binding name, scope)
  | .block stmts, scope =>
    match Stmt.evalAll stmts scope.push with
    | (answer, inner) => (answer, inner.pop)

/-- The value of a statement, which for a definition is the unit, and the scope as the evaluation
leaves it. -/
def Stmt.eval : Stmt → Scope → Except EvalError Value × Scope
  | .binding name value, scope =>
    match value.eval scope with
    | (.error e, scope) => (.error e, scope)
    | (.ok found, scope) => (.ok .unit, scope.store name (.binding found))
  | .function name params body, scope => (.ok .unit, scope.store name (.function params body))
  | .expr expr, scope => expr.eval scope

/-- The value of the last of several statements, or the unit if there is none. -/
def Stmt.evalAll : List Stmt → Scope → Except EvalError Value × Scope
  | [], scope => (.ok .unit, scope)
  | stmt :: stmts, scope =>
    match stmt.eval scope with
    | (.error e, scope) => (.error e, scope)
    | (.ok value, scope) =>
      match stmts with
      | [] => (.ok value, scope)
      | _ :: _ => Stmt.evalAll stmts scope

end

end BlockCalc
