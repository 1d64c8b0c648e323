import BlockCalc.Text.Lines
/-! Runs of characters in lines. A run without a newline that is found in a line, or in a text whose
line endings were unified or whose ends were trimmed, was in the text before. -/
namespace BlockCalc.Text
variable {w s a b : Text} {c : Char}

theorem prefix_cons (hw : c ∉ w) (h : w <+: c :: s) : w = [] := by
  cases w with
  | nil => rfl
  | cons d w =>
      obtain ⟨rfl, -⟩ := List.cons_prefix_cons.mp h
      exact False.elim (hw List.mem_cons_self)

theorem prefix_cons_cons {d : Char} (hw : c ∉ w) (h : w <+: d :: a)
    (later : ∀ {w}, c ∉ w → w <+: a → w <+: b) : w <+: d :: b := by
  cases w with
  | nil => exact List.nil_prefix
  | cons e w =>
      obtain ⟨rfl, tail⟩ := List.cons_prefix_cons.mp h
      exact List.cons_prefix_cons.mpr
        ⟨rfl, later (fun hc => hw (List.mem_cons_of_mem e hc)) tail⟩

theorem prefix_of_prefix_unifyNewlines (hw : '\n' ∉ w) (h : w <+: unifyNewlines s) : w <+: s := by
  fun_induction unifyNewlines s generalizing w with
  | case1 => exact h
  | case2 rest ih => exact prefix_cons hw h ▸ List.nil_prefix
  | case3 rest other ih => exact prefix_cons hw h ▸ List.nil_prefix
  | case4 c rest first other ih => exact prefix_cons_cons hw h ih

theorem infix_of_infix_unifyNewlines (hw : '\n' ∉ w) (h : w <:+: unifyNewlines s) : w <:+: s := by
  fun_induction unifyNewlines s with
  | case1 => exact h
  | case2 rest ih =>
      rcases List.infix_cons_iff.mp h with h | h
      · exact prefix_cons hw h ▸ List.nil_infix
      · exact (ih h).trans (List.suffix_append ['\r', '\n'] rest).isInfix
  | case3 rest other ih =>
      rcases List.infix_cons_iff.mp h with h | h
      · exact prefix_cons hw h ▸ List.nil_infix
      · exact (ih h).trans (List.suffix_cons '\r' rest).isInfix
  | case4 c rest first other ih =>
      rcases List.infix_cons_iff.mp h with h | h
      · exact (prefix_cons_cons hw h prefix_of_prefix_unifyNewlines).isInfix
      · exact (ih h).trans (List.suffix_cons c rest).isInfix

theorem prefix_of_prefix_append_cons (hw : c ∉ w) (h : w <+: a ++ c :: b) : w <+: a := by
  induction a generalizing w with
  | nil => exact prefix_cons hw h ▸ List.nil_prefix
  | cons d a ih => exact prefix_cons_cons hw h ih

/-- A run that does not hold a character stands on one side of it. -/
theorem infix_of_infix_append_cons (hw : c ∉ w) (h : w <:+: a ++ c :: b) :
    w <:+: a ∨ w <:+: b := by
  induction a with
  | nil =>
      rcases List.infix_cons_iff.mp h with h | h
      · exact .inl (prefix_of_prefix_append_cons (a := []) hw h).isInfix
      · exact .inr h
  | cons d a ih =>
      rcases List.infix_cons_iff.mp h with h | h
      · exact .inl (prefix_of_prefix_append_cons (a := d :: a) hw h).isInfix
      · rcases ih h with h | h
        · exact .inl (h.trans (List.suffix_cons d a).isInfix)
        · exact .inr h

theorem isPrefix_trimEnd (s : Text) : trimEnd s <+: s := by
  induction s with
  | nil => exact List.nil_prefix
  | cons c s ih =>
      unfold trimEnd
      split
      · split
        · exact List.nil_prefix
        · exact List.cons_prefix_cons.mpr ⟨rfl, List.nil_prefix⟩
      · exact List.cons_prefix_cons.mpr ⟨rfl, ih⟩

theorem trim_infix (s : Text) : trim s <:+: s :=
  (isPrefix_trimEnd _).isInfix.trans (List.dropWhile_suffix isBlank).isInfix

theorem isPrefix_head_physicalLines {line : Text} {more : List Text}
    (h : physicalLines s = line :: more) : line <+: s := by
  fun_induction physicalLines s generalizing line more with
  | case1 => cases h
  | case2 rest ih =>
      cases h
      exact List.nil_prefix
  | case3 c rest other none ih =>
      cases h
      exact List.cons_prefix_cons.mpr ⟨rfl, List.nil_prefix⟩
  | case4 c rest other line' more' found ih =>
      cases h
      exact List.cons_prefix_cons.mpr ⟨rfl, ih found⟩

theorem infix_of_mem_physicalLines {line : Text} (h : line ∈ physicalLines s) : line <:+: s := by
  fun_induction physicalLines s with
  | case1 => cases h
  | case2 rest ih =>
      rcases List.mem_cons.mp h with rfl | h
      · exact List.nil_infix
      · exact (ih h).trans (List.suffix_cons '\n' rest).isInfix
  | case3 c rest other none ih =>
      rw [List.mem_singleton.mp h]
      exact (List.cons_prefix_cons.mpr ⟨rfl, List.nil_prefix⟩ : [c] <+: c :: rest).isInfix
  | case4 c rest other first more found ih =>
      rcases List.mem_cons.mp h with rfl | h
      · have start := isPrefix_head_physicalLines found
        exact (List.cons_prefix_cons.mpr ⟨rfl, start⟩ : c :: first <+: c :: rest).isInfix
      · have later := ih (found ▸ List.mem_cons_of_mem first h)
        exact later.trans (List.suffix_cons c rest).isInfix

end BlockCalc.Text
