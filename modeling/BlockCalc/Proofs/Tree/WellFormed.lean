import BlockCalc.Proofs.Grammar.Tokens
/-! Trees that can be written, and how deep statements stand in one another. Both are read off the
tree alone. An operand is no operation, as operators are not chained; a block looks once more for a
statement behind its last one, which takes a level even if the block is empty. -/
namespace BlockCalc
open Grammar (isName)

def Expr.isOperation : Expr → Bool
  | .operation .. => true
  | _ => false

mutual

/-- Whether an expression can be written: its numbers are not negative and fit, its names are
names, and no operand is an operation. -/
def Expr.wellFormed : Expr → Bool
  | .number n => 0 ≤ n && n ≤ greatestNumber
  | .operation lhs rhs _ =>
    !lhs.isOperation && !rhs.isOperation && lhs.wellFormed && rhs.wellFormed
  | .usage name => isName name
  | .block stmts => Stmt.allWellFormed stmts

def Stmt.wellFormed : Stmt → Bool
  | .binding name value => isName name && value.wellFormed
  | .function name params body => isName name && params.all isName && body.wellFormed
  | .expr expr => expr.wellFormed

def Stmt.allWellFormed : List Stmt → Bool
  | [] => true
  | stmt :: stmts => stmt.wellFormed && Stmt.allWellFormed stmts

end

theorem Expr.fits_of_wellFormed {n : Int} (h : (Expr.number n).wellFormed = true) : Fits n := by
  simp only [Expr.wellFormed, Bool.and_eq_true, decide_eq_true_eq] at h
  refine ⟨?_, h.2⟩
  simp only [leastNumber]
  omega

mutual

/-- How many levels of statements stand below an expression. -/
def Expr.depth : Expr → Nat
  | .number _ | .usage _ => 0
  | .operation lhs rhs _ => max lhs.depth rhs.depth
  | .block stmts => Stmt.depthOfAll stmts

def Stmt.depth : Stmt → Nat
  | .binding _ value => value.depth + 1
  | .function _ _ body => body.depth + 1
  | .expr expr => expr.depth + 1

def Stmt.depthOfAll : List Stmt → Nat
  | [] => 1
  | stmt :: stmts => max stmt.depth (Stmt.depthOfAll stmts)

end

end BlockCalc
