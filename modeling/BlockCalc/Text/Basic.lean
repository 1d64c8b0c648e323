/-! Texts as lists of code points, the blank characters among them, and trimming.
Blank characters are the ones the grammar may skip between two words and the ones a line loses
at its ends; the table below is the only place that names them. -/
namespace BlockCalc

/-- A text is the list of its code points, so lengths and cuts count code points. -/
abbrev Text := List Char

/-- The blank characters: tab to carriage return, the four information separators, the space,
next line, and the space separators of Unicode together with its line and paragraph separators. -/
def isBlank (c : Char) : Bool :=
  let n := c.toNat
  (0x09 ≤ n && n ≤ 0x0D) || (0x1C ≤ n && n ≤ 0x20) || n == 0x85 || n == 0xA0 || n == 0x1680
    || (0x2000 ≤ n && n ≤ 0x200A) || n == 0x2028 || n == 0x2029 || n == 0x202F || n == 0x205F
    || n == 0x3000

namespace Text

def trimStart (s : Text) : Text := s.dropWhile isBlank

def trimEnd : Text → Text
  | [] => []
  | c :: rest =>
    match trimEnd rest with
    | [] => if isBlank c then [] else [c]
    | kept => c :: kept

def trim (s : Text) : Text := s.trimStart.trimEnd

/-- What follows `start` in a text that begins with it. -/
def after? : (start s : Text) → Option Text
  | [], s => some s
  | _ :: _, [] => none
  | a :: start, c :: s => if a = c then after? start s else none

def joinWith (separator : Text) : List Text → Text
  | [] => []
  | [s] => s
  | s :: more => s ++ separator ++ joinWith separator more

theorem after?_append (start s : Text) : after? start (start ++ s) = some s := by
  induction start with
  | nil => rfl
  | cons a start ih => simp only [List.cons_append, after?, if_true, ih]

theorem eq_append_of_after? {start s rest : Text} (h : after? start s = some rest) :
    s = start ++ rest := by
  induction start generalizing s with
  | nil => exact Option.some.inj h
  | cons a start ih =>
    cases s with
    | nil => cases h
    | cons c s =>
      by_cases same : a = c
      · simp only [after?, same, if_true] at h
        rw [same, ih h, List.cons_append]
      · simp only [after?, same, if_false] at h
        cases h

/-- A text begins with `start` exactly when cutting `start` off leaves something to read on. -/
theorem after?_eq_some_iff {start s rest : Text} :
    after? start s = some rest ↔ s = start ++ rest :=
  ⟨eq_append_of_after?, fun h => h ▸ after?_append start rest⟩

end Text
end BlockCalc
