import BlockCalc.Text.Decimal
import BlockCalc.Text.Quoted
import BlockCalc.Tree.Basic
/-! The inspection of a tree: a text that names every part of it, for debugging. Unlike the
canonical text it tells any two trees apart that differ in shape. -/
namespace BlockCalc

def bracketed (items : List Text) : Text := '[' :: Text.joinWith ", ".toList items ++ [']']

/-- A node: its kind, and its parts in parentheses, each with its name. -/
def inspectNode (kind : String) (parts : List (String × Text)) : Text :=
  kind.toList ++ '(' ::
    Text.joinWith ", ".toList (parts.map fun part => part.1.toList ++ '=' :: part.2) ++ [')']

/-- An operator is shown with its name and, quoted, its sign. -/
def Op.inspect (op : Op) : Text :=
  "<Op.".toList ++ op.label ++ ": ".toList ++ Text.quoted op.symbol ++ ['>']

mutual

def Expr.inspect : Expr → Text
  | .number n => inspectNode "Number" [("value", Decimal.ofInt n)]
  | .operation lhs rhs op =>
    inspectNode "Operation" [("lhs", lhs.inspect), ("rhs", rhs.inspect), ("op", op.inspect)]
  | .usage name => inspectNode "BindingUsage" [("name", Text.quoted name)]
  | .block stmts => inspectNode "Block" [("stmts", bracketed (Stmt.inspectAll stmts))]

def Stmt.inspect : Stmt → Text
  | .binding name value =>
    inspectNode "BindingDef" [("name", Text.quoted name), ("val", value.inspect)]
  | .function name params body =>
    inspectNode "FuncDef" [("name", Text.quoted name),
      ("params", bracketed (params.map Text.quoted)), ("body", body.inspect)]
  | .expr expr => inspectNode "ExprStmt" [("expr", expr.inspect)]

def Stmt.inspectAll : List Stmt → List Text
  | [] => []
  | stmt :: stmts => stmt.inspect :: Stmt.inspectAll stmts

end

/-- The inspection of a statement that was read as a whole program line. -/
def Stmt.inspectParsed (stmt : Stmt) : Text := "Parse(".toList ++ stmt.inspect ++ [')']

end BlockCalc
