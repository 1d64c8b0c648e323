import BlockCalc.Grammar.Failure
import BlockCalc.Text.Encoding
/-! Why a run ends early. A message tells the user of the language what to mend; a defect is a
failure that the language has no message for, and is reported as the program's own mistake; the
user may interrupt; the stack may be exhausted; and an exit carries the status for the system. -/
namespace BlockCalc

/-- A failure that the language has no message for, and what is known about it. -/
inductive Defect where
  | literalTooLong (digits : Nat)
  | undecodable (fault : Encoding.Fault)
  | template (fault : Template.Fault)
  | unknownOperator (sign : Text)
  | nullInPath
  | noResults
  | other (label detail : Text)
  deriving DecidableEq, Repr

def Defect.label : Defect → Text
  | literalTooLong _ | unknownOperator _ | nullInPath => "ValueError".toList
  | undecodable _ => "UnicodeDecodeError".toList
  | template (.strayBrace _) => "ValueError".toList
  | template (.missingSnippet _) => "IndexError".toList
  | noResults => "IndexError".toList
  | other label _ => label

def Defect.detail : Defect → Text
  | literalTooLong digits =>
    "Exceeds the limit (4300 digits) for integer string conversion: value has ".toList
      ++ Decimal.ofNat digits
      ++ " digits; use sys.set_int_max_str_digits() to increase the limit".toList
  | undecodable fault => fault.text
  | template fault => fault.text
  | unknownOperator sign => Text.quoted sign ++ " is not a valid Op".toList
  | nullInPath => "embedded null byte".toList
  | noResults => "pop from empty list".toList
  | other _ detail => detail

def Defect.text (defect : Defect) : Text := defect.label ++ ": ".toList ++ defect.detail

inductive Stop where
  | message (message : Message)
  | interrupted
  | stackExhausted
  | defect (defect : Defect)
  | exit (status : Int)
  deriving DecidableEq, Repr

/-- What a failed reading means for the run that needed it. -/
def Failure.stop : Failure → Stop
  | mismatch error => .message error.message
  | literalTooLong digits => .defect (.literalTooLong digits)
  | tooDeep => .stackExhausted

end BlockCalc
