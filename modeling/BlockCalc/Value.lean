import BlockCalc.Message.Basic
import BlockCalc.Tree.Basic
/-! Values and checked arithmetic. A value is a number of 32 bits with a sign, or the unit that a
definition and an empty block give. Arithmetic is done on integers of any size, and only its
result is checked against the range. -/
namespace BlockCalc

def leastNumber : Int := -2147483648

def greatestNumber : Int := 2147483647

/-- Whether an integer is a number of 32 bits with a sign. -/
def Fits (n : Int) : Prop := leastNumber ≤ n ∧ n ≤ greatestNumber

instance (n : Int) : Decidable (Fits n) := inferInstanceAs (Decidable (_ ∧ _))

/-- What a statement evaluates to. -/
inductive Value where
  | number (n : Int)
  | unit
  deriving DecidableEq, Repr

/-- Why a statement has no value. -/
inductive EvalError where
  | missingBinding (name : Text)
  | missingFunction (name : Text)
  | operandNotNumber
  | divisionByZero
  | resultOutOfRange (lhs : Int) (op : Op) (rhs : Int)
  | numberOutOfRange (n : Int)
  deriving DecidableEq, Repr

def Op.written (op : Op) (lhs rhs : Int) : Text :=
  Decimal.ofInt lhs ++ ' ' :: op.symbol ++ ' ' :: Decimal.ofInt rhs

/-- A number out of range is the program's own mistake, as no statement that was read has one. -/
def EvalError.message : EvalError → Message
  | missingBinding name => .around .eval "binding with name '" name "' does not exist"
  | missingFunction name => .around .eval "function with name '" name "' does not exist"
  | operandNotNumber => .fixed .eval
      "cannot evaluate operation whose left-hand side and right-hand side are not both numbers"
  | divisionByZero => .fixed .eval "cannot divide by zero"
  | resultOutOfRange lhs op rhs =>
    .around .eval "result of '" (op.written lhs rhs) "' does not fit in 32 bits"
  | numberOutOfRange n =>
    (Message.around .eval "'" (Decimal.ofInt n) "' does not fit in 32 bits").asInternal

namespace Value

def ofInt (n : Int) : Except EvalError Value :=
  if Fits n then .ok (.number n) else .error (.numberOutOfRange n)

def render : Value → Text
  | number n => Decimal.ofInt n
  | unit => "Unit".toList

def inspect : Value → Text
  | number n => "Number(value=".toList ++ Decimal.ofInt n ++ [')']
  | unit => "Unit()".toList

end Value

namespace Op

/-- The exact result of an operation, of any size; division cuts the quotient off toward zero and
has no result for the divisor zero. -/
def result? : Op → Int → Int → Option Int
  | add, lhs, rhs => some (lhs + rhs)
  | sub, lhs, rhs => some (lhs - rhs)
  | mul, lhs, rhs => some (lhs * rhs)
  | div, lhs, rhs => if rhs = 0 then none else some (lhs.tdiv rhs)

/-- The value of an operation: its exact result, as long as that fits. -/
def apply (op : Op) (lhs rhs : Int) : Except EvalError Value :=
  match op.result? lhs rhs with
  | none => .error .divisionByZero
  | some n => if Fits n then .ok (.number n) else .error (.resultOutOfRange lhs op rhs)

end Op
end BlockCalc
