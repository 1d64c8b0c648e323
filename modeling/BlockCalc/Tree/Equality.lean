import BlockCalc.Tree.Basic
/-! Equality of trees is decidable: two trees are equal when they are built alike, with equal
numbers, names, parameters and operators in the same places. -/
namespace BlockCalc

mutual

def Expr.decEq : (a b : Expr) → Decidable (a = b)
  | .number m, .number n => decidable_of_iff (m = n) ⟨congrArg _, Expr.number.inj⟩
  | .operation a b op, .operation c d po =>
    match Expr.decEq a c, Expr.decEq b d, decEq op po with
    | isTrue h, isTrue i, isTrue j => isTrue (by rw [h, i, j])
    | isFalse h, _, _ => isFalse fun same => h (Expr.operation.inj same).1
    | _, isFalse h, _ => isFalse fun same => h (Expr.operation.inj same).2.1
    | _, _, isFalse h => isFalse fun same => h (Expr.operation.inj same).2.2
  | .usage a, .usage b => decidable_of_iff (a = b) ⟨congrArg _, Expr.usage.inj⟩
  | .block a, .block b =>
    match Stmt.decEqList a b with
    | isTrue h => isTrue (by rw [h])
    | isFalse h => isFalse fun same => h (Expr.block.inj same)
  | .number _, .operation .. | .number _, .usage _ | .number _, .block _
  | .operation .., .number _ | .operation .., .usage _ | .operation .., .block _
  | .usage _, .number _ | .usage _, .operation .. | .usage _, .block _
  | .block _, .number _ | .block _, .operation .. | .block _, .usage _ =>
    isFalse fun same => nomatch same

def Stmt.decEq : (a b : Stmt) → Decidable (a = b)
  | .binding a v, .binding b w =>
    match decEq a b, Expr.decEq v w with
    | isTrue h, isTrue i => isTrue (by rw [h, i])
    | isFalse h, _ => isFalse fun same => h (Stmt.binding.inj same).1
    | _, isFalse h => isFalse fun same => h (Stmt.binding.inj same).2
  | .function a ps v, .function b qs w =>
    match decEq a b, decEq ps qs, Stmt.decEq v w with
    | isTrue h, isTrue i, isTrue j => isTrue (by rw [h, i, j])
    | isFalse h, _, _ => isFalse fun same => h (Stmt.function.inj same).1
    | _, isFalse h, _ => isFalse fun same => h (Stmt.function.inj same).2.1
    | _, _, isFalse h => isFalse fun same => h (Stmt.function.inj same).2.2
  | .expr a, .expr b =>
    match Expr.decEq a b with
    | isTrue h => isTrue (by rw [h])
    | isFalse h => isFalse fun same => h (Stmt.expr.inj same)
  | .binding .., .function .. | .binding .., .expr _ | .function .., .binding ..
  | .function .., .expr _ | .expr _, .binding .. | .expr _, .function .. =>
    isFalse fun same => nomatch same

def Stmt.decEqList : (as bs : List Stmt) → Decidable (as = bs)
  | [], [] => isTrue rfl
  | a :: as, b :: bs =>
    match Stmt.decEq a b, Stmt.decEqList as bs with
    | isTrue h, isTrue i => isTrue (by rw [h, i])
    | isFalse h, _ => isFalse fun same => h (List.cons.inj same).1
    | _, isFalse h => isFalse fun same => h (List.cons.inj same).2
  | [], _ :: _ | _ :: _, [] => isFalse fun same => nomatch same

end

instance : DecidableEq Expr := Expr.decEq

instance : DecidableEq Stmt := Stmt.decEq

end BlockCalc
