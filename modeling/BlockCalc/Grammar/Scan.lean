import BlockCalc.Grammar.Failure
/-! Scanning: runs of characters, identifiers and fixed texts at the start of a text. Letters and
digits are those of ASCII. -/
namespace BlockCalc.Grammar

/-- The rest of a text behind the longest run of characters that satisfy `p`, and that run. -/
def span (p : Char → Bool) (s : Text) : Text × Text := (s.dropWhile p, s.takeWhile p)

def someOf {ε : Type} (p : Char → Bool) (missing : ε) (s : Text) : Except ε (Text × Text) :=
  match span p s with
  | (_, []) => .error missing
  | found => .ok found

def digits : Rule Text := someOf Char.isDigit (.mismatch .expectedDigits)

/-- One space or more; no other blank character will do. -/
def spaces : Rule Text := someOf (· == ' ') (.mismatch .expectedSpace)

def blanks : Rule Text := fun s => .ok (span isBlank s)

/-- A letter, and the letters and digits behind it. -/
def identifier : Rule Text
  | [] => .error (.mismatch .expectedIdentifier)
  | c :: s =>
    if c.isAlpha then .ok (s.dropWhile Char.isAlphanum, c :: s.takeWhile Char.isAlphanum)
    else .error (.mismatch .expectedIdentifier)

def expect (literal : Text) (s : Text) : Except Failure Text :=
  match Text.after? literal s with
  | some rest => .ok rest
  | none => .error (.mismatch (.expected literal))

/-- A fixed text is gone past exactly when the text begins with it. -/
theorem expect_eq_ok_iff {literal s rest : Text} :
    expect literal s = .ok rest ↔ s = literal ++ rest := by
  rw [← Text.after?_eq_some_iff, expect]
  split
  · next found h => rw [h, Except.ok.injEq, Option.some.injEq]
  · next h => simp only [h, reduceCtorEq]

end BlockCalc.Grammar
