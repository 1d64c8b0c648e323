import BlockCalc.CommandLine.Arguments
import BlockCalc.Shell.Basic
/-! The program as it is called from a command line: with a file to run, or with typed input. -/
namespace BlockCalc

/-- What a call of the program leaves behind: the two texts it printed, and how it ended. -/
structure Finish where
  output : Text
  errors : Text
  ending : Except Stop Unit

namespace CommandLine

def usage : Text := "usage: raga [-h] [file]\n".toList

def helpText : Text :=
  usage ++ ("\npositional arguments:\n"
    ++ "  file        file to interpret and run (if empty, goes to command-line mode)\n"
    ++ "\noptions:\n  -h, --help  show this help message and exit\n").toList

def runFile (reporter : Reporter) (path : Text) (files : Files) (limit : Nat) :
    Run Reporter Unit :=
  match Session.start reporter path false files limit with
  | .error (stop, reporter) => reporter.settle stop
  | .ok session =>
    ((Session.settled session.run).within Session.reporter).answering fun _ => ()

/-- Settles once more how a shell ended, for an end that was reported but not settled. -/
def closed (run : Run Shell Unit) : Run Reporter Unit :=
  let reporter := run.state.session.reporter
  match run.ending with
  | .ok () => ⟨reporter, run.printed, .ok ()⟩
  | .error stop => (reporter.settle stop).after run.printed

def runShell (reporter : Reporter) (lines : List Text) (limit : Nat) : Run Reporter Unit :=
  closed ((Shell.converse lines (.fresh reporter limit)).after Shell.intro)

/-- Calls the program. Every request but the two for a session ends by itself. -/
def run (coloring : Coloring) (args : List Text) (files : Files) (input : Text)
    (limit : Nat := nestingLimit) : Finish :=
  let reporter := Reporter.fresh true coloring
  match Request.ofArguments args with
  | .help => ⟨helpText, [], .error (.exit 0)⟩
  | .refused reason => ⟨[], usage ++ "raga: error: ".toList ++ reason ++ ['\n'], .error (.exit 2)⟩
  | .file path =>
    let ran := runFile reporter path files limit
    ⟨ran.printed, [], ran.ending⟩
  | .interactive =>
    let ran := runShell reporter (Text.physicalLines (Text.unifyNewlines input)) limit
    ⟨ran.printed, [], ran.ending⟩

end CommandLine
end BlockCalc
