import BlockCalc.CommandLine.Basic
/-! The program's connection to the system: arguments, files and terminal in, printed text and
exit status out. -/
namespace BlockCalc

def printNow (out : IO.FS.Stream) (s : Text) : IO Unit := do
  out.putStr (String.ofList s)
  out.flush

/-- The exit status of a run, whose last words go to the error stream. -/
def exitStatus (ending : Except Stop Unit) : IO UInt32 := do
  match ending with
  | .ok () => return 0
  | .error (.exit status) => return status.toNat.toUInt32
  | .error (.defect defect) => IO.eprintln (String.ofList defect.text); return 1
  | .error _ => return 1

/-- The file that is to be run, as far as it can be read. -/
def loadFile (path : String) : IO Files := do
  try
    let bytes ← IO.FS.readBinFile path
    return Table.empty.insert path.toList bytes.toList
  catch _ => return .empty

partial def converse (input output : IO.FS.Stream) (shell : Shell) : IO UInt32 := do
  printNow output shell.prompt.text
  let typed ← input.getLine
  let line := if typed.isEmpty then "EOF".toList else (Text.unifyNewlines typed.toList).trimEnd
  let step := shell.enter line
  printNow output step.printed
  match step.ending with
  | .ok false => converse input output step.state
  | ending =>
    let last := CommandLine.closed ⟨step.state, [], ending.map fun _ => ()⟩
    printNow output last.printed
    exitStatus last.ending

end BlockCalc

open BlockCalc in
/-- Runs the program. Only a terminal is given colours. -/
def main (args : List String) : IO UInt32 := do
  let output ← IO.getStdout
  let coloring := if ← output.isTty then Coloring.ansi else Coloring.plain
  let words := args.map String.toList
  match Request.ofArguments words with
  | .interactive =>
    printNow output Shell.intro
    converse (← IO.getStdin) output (.fresh (.fresh true coloring))
  | request =>
    let files ← match request with
      | .file path => loadFile (String.ofList path)
      | _ => pure .empty
    let finish := CommandLine.run coloring words files []
    printNow output finish.output
    IO.eprint (String.ofList finish.errors)
    exitStatus finish.ending
