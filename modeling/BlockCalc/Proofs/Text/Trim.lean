import BlockCalc.Proofs.Text.Lines
/-! Trimming, and texts made of lines. Trimming a line at both ends takes off its indentation and
nothing else that trimming it at the end would leave; and a text in which every line is ended by a
newline consists of these lines again. -/
namespace BlockCalc.Text
variable {c : Char} {s line rest : Text}

/-! ## Trimming -/

theorem trim_cons_blank (h : isBlank c = true) (s : Text) : trim (c :: s) = trim s := by
  simp only [trim, trimStart, List.dropWhile_cons, h, if_true]

theorem trim_cons_ink (h : isBlank c = false) (s : Text) : trim (c :: s) = c :: trimEnd s := by
  simp only [trim, trimStart, List.dropWhile_cons, h, Bool.false_eq_true, if_false, trimEnd]
  split
  · next none => rw [none]
  · rfl

theorem trimEnd_cons (c : Char) (h : trimEnd s ≠ []) : trimEnd (c :: s) = c :: trimEnd s := by
  rw [trimEnd]
  split
  · next none => exact False.elim (h none)
  · rfl

/-- A line trimmed at its end alone is blank, or it is its indentation and the trimmed line. -/
theorem trimEnd_eq (s : Text) :
    trim s = [] ∧ trimEnd s = [] ∨
      trim s ≠ [] ∧ trimEnd s = s.takeWhile isBlank ++ trim s := by
  induction s with
  | nil => exact .inl ⟨rfl, rfl⟩
  | cons c s ih =>
      cases blank : isBlank c with
      | true =>
          rw [trim_cons_blank blank, List.takeWhile_cons_of_pos blank]
          rcases ih with ⟨none, none'⟩ | ⟨some, same⟩
          · refine .inl ⟨none, ?_⟩
            simp only [trimEnd, none', blank, if_true]
          · have kept : trimEnd s ≠ [] := by
              rw [same]
              exact List.append_ne_nil_of_right_ne_nil _ some
            exact .inr ⟨some, by rw [trimEnd_cons c kept, same, List.cons_append]⟩
      | false =>
          have whole : trimEnd (c :: s) = trim (c :: s) := by
            simp only [trim, trimStart, List.dropWhile_cons, blank, Bool.false_eq_true, if_false]
          have some : trim (c :: s) ≠ [] := by
            rw [trim_cons_ink blank]
            exact List.cons_ne_nil _ _
          refine .inr ⟨some, ?_⟩
          simp only [whole, List.takeWhile_cons, blank, Bool.false_eq_true, if_false,
            List.nil_append]

theorem trimEnd_trimEnd (s : Text) : trimEnd (trimEnd s) = trimEnd s := by
  induction s with
  | nil => rfl
  | cons c s ih =>
      by_cases none : trimEnd s = []
      · simp only [trimEnd, none]
        cases blank : isBlank c with
        | true => rfl
        | false => simp only [Bool.false_eq_true, if_false, trimEnd, blank]
      · have still : trimEnd (trimEnd s) ≠ [] := by
          rw [ih]
          exact none
        rw [trimEnd_cons c none, trimEnd_cons c still, ih]

/-- A trimmed line begins with no blank. -/
theorem trim_blank_or_ink (s : Text) : trim s = [] ∨ ∃ c r, trim s = c :: r ∧ isBlank c = false := by
  induction s with
  | nil => exact .inl rfl
  | cons c s ih =>
      cases blank : isBlank c with
      | true =>
          rw [trim_cons_blank blank]
          exact ih
      | false => exact .inr ⟨c, trimEnd s, trim_cons_ink blank s, blank⟩

theorem trimEnd_trim (s : Text) : trimEnd (trim s) = trim s := trimEnd_trimEnd (trimStart s)

theorem trim_trim (s : Text) : trim (trim s) = trim s := by
  rcases trim_blank_or_ink s with none | ⟨c, r, some, ink⟩
  · rw [none]
    rfl
  · have same := trimEnd_trim s
    rw [some] at same ⊢
    rw [trim_cons_ink ink]
    by_cases none : trimEnd r = []
    · simp only [trimEnd, none, ink, Bool.false_eq_true, if_false] at same
      rw [none, same]
    · rw [trimEnd_cons c none] at same
      exact same

/-! ## Lines -/

def ofLines (lines : List Text) : Text := lines.flatMap fun line => line ++ ['\n']

theorem physicalLines_append_newline (h : '\n' ∉ line) (rest : Text) :
    physicalLines (line ++ '\n' :: rest) = line :: physicalLines rest := by
  induction line with
  | nil => rfl
  | cons c line ih =>
      obtain ⟨other, later⟩ := not_or.mp (mt List.mem_cons.mpr h)
      rw [List.cons_append, physicalLines.eq_3 _ _ (Ne.symm other), ih later]

theorem physicalLines_ofLines_append {lines : List Text} (h : ∀ line ∈ lines, '\n' ∉ line)
    (rest : Text) : physicalLines (ofLines lines ++ rest) = lines ++ physicalLines rest := by
  induction lines with
  | nil => rfl
  | cons line lines ih =>
      obtain ⟨first, later⟩ := List.forall_mem_cons.mp h
      rw [ofLines, List.flatMap_cons, List.append_assoc, List.append_assoc, List.singleton_append,
        physicalLines_append_newline first]
      exact congrArg (line :: ·) (ih later)

theorem physicalLines_ofLines {lines : List Text} (h : ∀ line ∈ lines, '\n' ∉ line) :
    physicalLines (ofLines lines) = lines := by
  have whole := physicalLines_ofLines_append h []
  rw [List.append_nil, physicalLines, List.append_nil] at whole
  exact whole

theorem physicalLines_single (h : '\n' ∉ line) (text : line ≠ []) :
    physicalLines line = [line] := by
  induction line with
  | nil => exact False.elim (text rfl)
  | cons c line ih =>
      obtain ⟨other, later⟩ := not_or.mp (mt List.mem_cons.mpr h)
      rw [physicalLines.eq_3 _ _ (Ne.symm other)]
      by_cases none : line = []
      · rw [none, physicalLines]
      · rw [ih later none]

theorem unifyNewlines_eq_self (h : '\r' ∉ s) : unifyNewlines s = s := by
  fun_induction unifyNewlines s with
  | case1 => rfl
  | case2 rest ih => exact False.elim (h List.mem_cons_self)
  | case3 rest other ih => exact False.elim (h List.mem_cons_self)
  | case4 c rest first other ih =>
      exact congrArg (c :: ·) (ih fun member => h (List.mem_cons_of_mem c member))

/-- A text made of some lines, each ended by a newline; the last may go without. -/
def MadeOf (s : Text) (lines : List Text) : Prop :=
  s = ofLines lines ∨ s ++ ['\n'] = ofLines lines

theorem MadeOf.no_return {lines : List Text} (made : s.MadeOf lines)
    (h : ∀ line ∈ lines, '\r' ∉ line) : '\r' ∉ s := by
  have none : '\r' ∉ ofLines lines := by
    intro member
    obtain ⟨line, inside, here⟩ := List.mem_flatMap.mp member
    rcases List.mem_append.mp here with here | here
    · exact h line inside here
    · cases List.mem_singleton.mp here
  rcases made with rfl | unended
  · exact none
  · rw [← unended] at none
    exact fun member => none (List.mem_append_left _ member)

/-- Lines without breaks in them are the lines of a text that they make, but for an empty last one
that nothing ends. -/
theorem MadeOf.lines {lines : List Text} (made : s.MadeOf lines)
    (h : ∀ line ∈ lines, '\n' ∉ line ∧ '\r' ∉ line) :
    physicalLines (unifyNewlines s) = lines ∨ physicalLines (unifyNewlines s) ++ [[]] = lines := by
  have whole : ∀ line ∈ lines, '\n' ∉ line := fun line inside => (h line inside).1
  rw [unifyNewlines_eq_self (made.no_return fun line inside => (h line inside).2)]
  rcases made with rfl | unended
  · exact .inl (physicalLines_ofLines whole)
  · rcases lines.eq_nil_or_concat with rfl | ⟨lines, last, rfl⟩
    · cases (List.append_eq_nil_iff.mp unended).2
    · rw [List.concat_eq_append] at whole unended ⊢
      obtain ⟨before, ends⟩ := List.forall_mem_append.mp whole
      rw [ofLines, List.flatMap_append, List.flatMap_singleton, ← List.append_assoc] at unended
      have same : s = ofLines lines ++ last := List.append_cancel_right unended
      rw [same, physicalLines_ofLines_append before]
      by_cases none : last = []
      · rw [none]
        exact .inr (congrArg (· ++ [[]]) (List.append_nil lines))
      · have single := physicalLines_single (ends last List.mem_cons_self) none
        exact .inl (congrArg (lines ++ ·) single)

end BlockCalc.Text
