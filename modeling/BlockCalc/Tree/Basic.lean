import BlockCalc.Text.Basic
/-! The trees of the language. A statement binds a name, defines a function or is an expression;
an expression is a number, one binary operation, the use of a name or a block of statements.
Trees are not restricted to what can be written: a number may be negative or large, a name may be
any text and an operand may itself be an operation. -/
namespace BlockCalc

inductive Op where
  | add
  | sub
  | mul
  | div
  deriving DecidableEq, Repr

namespace Op

/-- Every operator, in the order in which they are tried. -/
def all : List Op := [add, sub, mul, div]

def symbol : Op → Text
  | add => ['+']
  | sub => ['-']
  | mul => ['*']
  | div => ['/']

def label : Op → Text
  | add => "ADD".toList
  | sub => "SUB".toList
  | mul => "MUL".toList
  | div => "DIV".toList

def ofSymbol? (sign : Text) : Option Op := all.find? fun op => op.symbol = sign

theorem mem_all (op : Op) : op ∈ all := by cases op <;> decide

theorem ofSymbol?_symbol (op : Op) : ofSymbol? op.symbol = some op := by cases op <;> rfl

end Op

mutual

/-- What has a value of its own. -/
inductive Expr where
  | number (value : Int)
  | operation (lhs rhs : Expr) (op : Op)
  | usage (name : Text)
  | block (stmts : List Stmt)

/-- What a program and a block are lists of. -/
inductive Stmt where
  | binding (name : Text) (value : Expr)
  | function (name : Text) (params : List Text) (body : Stmt)
  | expr (expr : Expr)

end

end BlockCalc
