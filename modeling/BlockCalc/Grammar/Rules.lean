import BlockCalc.Grammar.Combine
import BlockCalc.Grammar.Scan
import BlockCalc.Value
/-! The grammar of the language.

    statement  = "let" " "+ name "=" expression
               | "fn" " "+ name name* "=>" statement
               | expression
    expression = operand operator operand | operand
    operand    = number | name | "{" statement* "}"

Alternatives are tried in this order, and blank characters may stand between any two words. An
operation has one operator: there is no chain of them and no sign before a number. Every rule
that may hold a statement takes the rule for statements as an argument, and `stmt` ties the knot,
going no further down than it is allowed to. -/
namespace BlockCalc.Grammar

/-- The longest number literal that is read at all, leading zeros included. -/
def literalLimit : Nat := 4300

def number : Rule Expr := fun s => do
  let (s, found) ← digits s
  if literalLimit < found.length then .error (.literalTooLong found.length)
  else
    let n : Int := Decimal.value found
    if Fits n then .ok (s, .number n) else .error (.mismatch (.literalOutOfRange found))

def operator : Rule Op :=
  firstOf (Op.all.map fun op s => (expect op.symbol s).map fun rest => (rest, op))

/-- A name that is used as an expression; no name is reserved. -/
def usage : Rule Expr := fun s => do
  let (s, name) ← identifier s
  return (s, .usage name)

/-! ## Statements, over rules for the expressions and the statements in them -/

def bindingOf (expr : Rule Expr) : Rule Stmt := fun s => do
  let s ← expect ['l', 'e', 't'] s
  let (s, _) ← spaces s
  let (s, name) ← identifier s
  let s ← expect ['='] s.trimStart
  let (s, value) ← expr s.trimStart
  return (s, .binding name value)

def function (stmt : Rule Stmt) : Rule Stmt := fun s => do
  let s ← expect ['f', 'n'] s
  let (s, _) ← spaces s
  let (s, name) ← identifier s
  let (s, params) ← many identifier s.trimStart
  let s ← expect ['=', '>'] s
  let (s, body) ← stmt s.trimStart
  return (s, .function name params body)

def exprStmtOf (expr : Rule Expr) : Rule Stmt := fun s => do
  let (s, e) ← expr s
  return (s, .expr e)

def stmtOf (expr : Rule Expr) (stmt : Rule Stmt) : Rule Stmt :=
  firstOf [bindingOf expr, function stmt, exprStmtOf expr]

/-! ## Expressions, and the statements over them -/

section
variable (stmt : Rule Stmt)

def block : Rule Expr := fun s => do
  let s ← expect ['{'] s
  let (s, stmts) ← many stmt s.trimStart
  let s ← expect ['}'] s.trimStart
  return (s, .block stmts)

def operand : Rule Expr := firstOf [number, usage, block stmt]

/-- Two operands with an operator between them. -/
def operation : Rule Expr := fun s => do
  let (s, lhs) ← operand stmt s
  let (s, op) ← operator s.trimStart
  let (s, rhs) ← operand stmt s.trimStart
  return (s, .operation lhs rhs op)

/-- An operation, or else a single operand. -/
def expr : Rule Expr := orElse (operation stmt) (operand stmt)

def binding : Rule Stmt := bindingOf (expr stmt)

def exprStmt : Rule Stmt := exprStmtOf (expr stmt)

/-- A statement, one level above the statements that it holds. -/
def stmtAbove : Rule Stmt := stmtOf (expr stmt) stmt

end

/-- A statement with at most `limit` levels of statements in one another, itself included. -/
def stmt : (limit : Nat) → Rule Stmt
  | 0 => fun _ => .error .tooDeep
  | limit + 1 => stmtAbove (stmt limit)

end BlockCalc.Grammar
