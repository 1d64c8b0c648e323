import BlockCalc.Grammar.Failure
/-! Rules made from rules: alternatives and repetition. Both take a mismatch as a sign to go on
differently from the same text, and hand every other failure on. -/
namespace BlockCalc.Grammar
variable {α : Type}

/-- The second rule gets the same text if the first does not match it. -/
def orElse (first second : Rule α) : Rule α := fun s =>
  match first s with
  | .error (.mismatch _) => second s
  | answer => answer

/-- The first rule that matches, in order; if none does, the mismatch is that of the last. -/
def firstOf : List (Rule α) → Rule α
  | [] => fun _ => .error (.mismatch .noAlternatives)
  | [rule] => rule
  | rule :: rules => orElse rule (firstOf rules)

/-- Items as long as the rule matches, with blank characters skipped behind each. An item that takes
nothing off the text is the last one. -/
def many (rule : Rule α) (s : Text) : Except Failure (Text × List α) :=
  match rule s with
  | .error (.mismatch _) => .ok (s, [])
  | .error failure => .error failure
  | .ok (rest, item) =>
    let next := Text.trimStart rest
    if next.length < s.length then
      match many rule next with
      | .error failure => .error failure
      | .ok (last, items) => .ok (last, item :: items)
    else .ok (next, [item])
termination_by s.length

end BlockCalc.Grammar
