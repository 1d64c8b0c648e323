import BlockCalc.Run.Stop
/-! Runs. A run is what a step of the program leaves behind: the state it ends in, the text it
printed on the way, and its answer or why it stopped. State and text are there in either case. -/
namespace BlockCalc

/-- The state after a step, the text it printed, and how it ended. -/
structure Run (σ α : Type) where
  state : σ
  printed : Text
  ending : Except Stop α

namespace Run
variable {σ τ α β : Type}

def done (state : σ) (answer : α) : Run σ α := ⟨state, [], .ok answer⟩

def stopped (state : σ) (stop : Stop) : Run σ α := ⟨state, [], .error stop⟩

/-- Goes on from where a step ended, unless it stopped; what both print stands in that order. -/
def andThen (run : Run σ α) (next : σ → α → Run σ β) : Run σ β :=
  match run.ending with
  | .error stop => ⟨run.state, run.printed, .error stop⟩
  | .ok answer =>
    let later := next run.state answer
    ⟨later.state, run.printed ++ later.printed, later.ending⟩

/-- The same step, seen as a step of a larger state. -/
def within (run : Run σ α) (put : σ → τ) : Run τ α := ⟨put run.state, run.printed, run.ending⟩

def after (text : Text) (run : Run σ α) : Run σ α := { run with printed := text ++ run.printed }

def answering (run : Run σ α) (f : α → β) : Run σ β :=
  ⟨run.state, run.printed, run.ending.map f⟩

end Run
end BlockCalc
