import BlockCalc.Text.DecimalDigit
import BlockCalc.Text.Quoted
/-! The arguments of the command line. There is one optional argument, the file to run, and an
option for help. Its long name may be shortened to any beginning, its short name may be repeated
within one argument, and neither takes a value. Everything else is refused at the end, so that
help is given if it was asked for before. -/
namespace BlockCalc

inductive Request where
  | help
  | refused (reason : Text)
  | file (path : Text)
  | interactive
  deriving DecidableEq, Repr

inductive Argument where
  | positional
  | separator
  | help
  | helpWith (value : Text)
  | unknown
  deriving DecidableEq, Repr

namespace Argument

def helpName : Text := "--help".toList

/-- Whether a text is a minus sign and a number, with digits of any script. One newline behind it
does not matter. -/
def isNegativeNumber : Text → Bool
  | '-' :: s =>
    let number := if s.getLast? = some '\n' then s.dropLast else s
    match number.dropWhile isDecimalDigit with
    | [] => !number.isEmpty
    | '.' :: fraction => !fraction.isEmpty && fraction.all isDecimalDigit
    | _ => false
  | _ => false

/-- The short option for help with letters behind it. Further letters of the option repeat it, and
what is left then is a value. -/
def ofRepeated (s : Text) : Argument :=
  match s, s.dropWhile (· == 'h') with
  | [], _ => .helpWith []
  | _, [] => .help
  | _, value => .helpWith value

/-- An argument that is no form of the option for help is positional if it looks like a number or
holds a space, and otherwise no option that there is. -/
def ofOther (s : Text) : Argument :=
  if isNegativeNumber s || s.contains ' ' then .positional else .unknown

/-- The long option, or a beginning of it, may have an equals sign and a value behind it. -/
def ofLong (s : Text) : Argument :=
  if (s.takeWhile (· != '=')).isPrefixOf helpName then
    match s.dropWhile (· != '=') with
    | [] => .help
    | _ :: value => .helpWith value
  else ofOther s

/-- Options begin with a minus sign and hold more than that. -/
def ofText (s : Text) : Argument :=
  match s with
  | ['-', '-'] => .separator
  | '-' :: '-' :: _ => ofLong s
  | ['-', 'h'] => .help
  | '-' :: 'h' :: '=' :: value => ofRepeated value
  | '-' :: 'h' :: more => ofRepeated more
  | '-' :: _ :: _ => ofOther s
  | _ => .positional

end Argument

namespace Request

/-- The request when all arguments are known: a file, unless there are surplus ones. -/
def ofParts (file : Option Text) (surplus : List Text) : Request :=
  match surplus, file with
  | [], some path => .file path
  | [], none => .interactive
  | _ :: _, _ => .refused ("unrecognized arguments: ".toList ++ Text.joinWith [' '] surplus)

/-- Reads the arguments in order. The separator makes everything behind it positional; it is
dropped if it stands next to the file, and otherwise is one more surplus argument. -/
def scan (file : Option Text) (surplus : List Text) : List Text → Request
  | [] => ofParts file surplus
  | arg :: args =>
    match Argument.ofText arg, file with
    | .help, _ => .help
    | .helpWith value, _ =>
      .refused ("argument -h/--help: ignored explicit argument ".toList ++ Text.quoted value)
    | .unknown, _ => scan file (surplus ++ [arg]) args
    | .separator, some path => ofParts (some path) (surplus ++ arg :: args)
    | .separator, none => ofParts args.head? (surplus ++ args.tail)
    | .positional, some path => scan (some path) (surplus ++ [arg]) args
    | .positional, none =>
      match args with
      | ['-', '-'] :: rest => ofParts (some arg) (surplus ++ rest)
      | _ => scan (some arg) surplus args

def ofArguments (args : List Text) : Request := scan none [] args

end Request
end BlockCalc
