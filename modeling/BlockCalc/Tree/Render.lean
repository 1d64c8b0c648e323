import BlockCalc.Text.Decimal
import BlockCalc.Text.Lines
import BlockCalc.Tree.Basic
/-! The canonical text of a tree. A block that is not empty puts each statement on lines of its
own, one step further in than its braces; everything else is written on one line with single
spaces. Nothing is added that the tree does not hold, so an operation among the operands of
another is written without any sign of it. -/
namespace BlockCalc

/-- The step by which the statements of a block stand further in. -/
def blockMargin : Text := "    ".toList

mutual

/-- The canonical text of an expression. -/
def Expr.render : Expr → Text
  | .number n => Decimal.ofInt n
  | .operation lhs rhs op => lhs.render ++ ' ' :: op.symbol ++ ' ' :: rhs.render
  | .usage name => name
  | .block stmts =>
    match Stmt.renderAll stmts with
    | [] => "\x7b\x7d".toList
    | texts =>
      "\x7b\n".toList ++ Text.indent blockMargin (Text.joinWith ['\n'] texts) ++ "\n\x7d".toList

def Stmt.render : Stmt → Text
  | .binding name value => "let ".toList ++ name ++ " = ".toList ++ value.render
  | .function name params body =>
    Text.joinWith [' '] (['f', 'n'] :: name :: params ++ [['=', '>'], body.render])
  | .expr expr => expr.render

def Stmt.renderAll : List Stmt → List Text
  | [] => []
  | stmt :: stmts => stmt.render :: Stmt.renderAll stmts

end

end BlockCalc
