import BlockCalc.Proofs.Grammar.Failures
import BlockCalc.Proofs.Text.Lines
import BlockCalc.Session.Statements
/-! The statements of a file. Each has some text and a number of its own, and the runs of digits in
it were in the file, as lines are only joined by newlines and lose nothing but blanks. -/
namespace BlockCalc
open Grammar

namespace Statements
variable {begun : Option (Text × Nat)} {number start : Nat} {previous line : Text}
  {lines : List Text}

/-! ## What one line can do: leave a statement open, end one, or add nothing -/

theorem fromLines_open (goes : begun.getD ([], number) = (previous, start))
    (still : leavesOpen (join previous line) = true) (lines : List Text) :
    fromLines number begun (line :: lines) =
      fromLines (number + 1) (some (join previous line, start)) lines := by
  simp only [fromLines, goes, still, if_true]

theorem fromLines_closed (goes : begun.getD ([], number) = (previous, start))
    (closed : leavesOpen (join previous line) = false) (text : join previous line ≠ [])
    (lines : List Text) :
    fromLines number begun (line :: lines) =
      (join previous line, start) :: fromLines (number + 1) none lines := by
  have some : (join previous line).isEmpty = false := List.isEmpty_eq_false_iff.mpr text
  simp only [fromLines, goes, closed, some, Bool.false_eq_true, if_false]

theorem fromLines_blank (goes : begun.getD ([], number) = (previous, start))
    (none : join previous line = []) (lines : List Text) :
    fromLines number begun (line :: lines) = fromLines (number + 1) .none lines := by
  simp only [fromLines, goes, none]
  rfl

/-- What holds of the statements of some lines, by what the first line does. -/
theorem fromLines_step {P : List (Text × Nat) → Prop}
    (goes : begun.getD ([], number) = (previous, start))
    (opened : leavesOpen (join previous line) = true →
      P (fromLines (number + 1) (some (join previous line, start)) lines))
    (ended : leavesOpen (join previous line) = false → join previous line ≠ [] →
      P ((join previous line, start) :: fromLines (number + 1) none lines))
    (blank : join previous line = [] → P (fromLines (number + 1) none lines)) :
    P (fromLines number begun (line :: lines)) := by
  cases still : leavesOpen (join previous line) with
  | true =>
      rw [fromLines_open goes still]
      exact opened still
  | false =>
      by_cases none : join previous line = []
      · rw [fromLines_blank goes none]
        exact blank none
      · rw [fromLines_closed goes still none]
        exact ended still none

/-! ## What all statements of some lines have in common -/

theorem forall_none {P : Text × Nat → Prop} : ∀ s ∈ (none : Option (Text × Nat)), P s := by
  intro s member
  cases member

theorem forall_some {P : Text × Nat → Prop} {s : Text × Nat} (h : P s) :
    ∀ s' ∈ some s, P s' := by
  rintro s' ⟨⟩
  exact h

/-- What holds of the statement that is begun, or of none, holds where the next line goes on. -/
theorem forall_getD {P : Text × Nat → Prop} (empty : P ([], number)) (hb : ∀ s ∈ begun, P s) :
    P (begun.getD ([], number)) := by
  cases begun with
  | none => exact empty
  | some s => exact hb s rfl

/-- What lines hold and joining keeps, the statements hold. -/
theorem forall_fromLines {P : Text → Prop} (empty : P [])
    (joined : ∀ previous line, P previous → P line → P (join previous line))
    (hb : ∀ s ∈ begun, P s.1) (hl : ∀ line ∈ lines, P line) :
    ∀ s ∈ fromLines number begun lines, P s.1 := by
  induction lines generalizing begun number with
  | nil =>
      intro s hs
      exact hb s (Option.mem_toList.mp hs)
  | cons line lines ih =>
      obtain ⟨first, rest⟩ := List.forall_mem_cons.mp hl
      have previous : P (begun.getD ([], number)).1 := forall_getD (P := fun s => P s.1) empty hb
      have whole := joined _ line previous first
      refine fromLines_step (P := fun l => ∀ s ∈ l, P s.1) rfl ?_ ?_ ?_
      · intro _
        exact ih (forall_some whole) rest
      · intro _ _
        exact List.forall_mem_cons.mpr ⟨whole, ih forall_none rest⟩
      · intro _
        exact ih forall_none rest

theorem ne_nil_of_leavesOpen {s : Text} (h : leavesOpen s = true) : s ≠ [] := by
  rintro rfl
  cases h

theorem fromLines_ne_nil (hb : ∀ s ∈ begun, s.1 ≠ []) :
    ∀ s ∈ fromLines number begun lines, s.1 ≠ [] := by
  induction lines generalizing begun number with
  | nil =>
      intro s hs
      exact hb s (Option.mem_toList.mp hs)
  | cons line lines ih =>
      refine fromLines_step (P := fun l => ∀ s ∈ l, s.1 ≠ []) rfl ?_ ?_ ?_
      · intro still
        exact ih (forall_some (ne_nil_of_leavesOpen still))
      · intro _ text
        exact List.forall_mem_cons.mpr ⟨text, ih forall_none⟩
      · intro _
        exact ih forall_none

/-- Statements are numbered from the one that is begun, or from the next line. -/
theorem le_number_fromLines (hb : ∀ s ∈ begun, s.2 ≤ number) :
    ∀ s ∈ fromLines number begun lines, (begun.getD ([], number)).2 ≤ s.2 := by
  induction lines generalizing begun number with
  | nil =>
      intro s hs
      obtain rfl := Option.mem_toList.mp hs
      exact Nat.le_refl _
  | cons line lines ih =>
      have start := forall_getD (P := fun s => s.2 ≤ number) (Nat.le_refl number) hb
      have later : ∀ s ∈ fromLines (number + 1) none lines, (begun.getD ([], number)).2 ≤ s.2 := by
        intro s hs
        exact Nat.le_trans start (Nat.le_of_succ_le (ih forall_none s hs))
      refine fromLines_step (P := fun l => ∀ s ∈ l, (begun.getD ([], number)).2 ≤ s.2) rfl ?_ ?_ ?_
      · intro _
        exact ih (forall_some (Nat.le_succ_of_le start))
      · intro _ _
        exact List.forall_mem_cons.mpr ⟨Nat.le_refl _, later⟩
      · intro _
        exact later

/-- The numbers of statements increase, so no two statements share one. -/
theorem fromLines_increasing (hb : ∀ s ∈ begun, s.2 ≤ number) :
    (fromLines number begun lines).Pairwise fun s t => s.2 < t.2 := by
  induction lines generalizing begun number with
  | nil =>
      cases begun with
      | none => exact .nil
      | some s => exact List.pairwise_singleton _ s
  | cons line lines ih =>
      have start := forall_getD (P := fun s => s.2 ≤ number) (Nat.le_refl number) hb
      refine fromLines_step rfl ?_ ?_ fun _ => ih forall_none
      · intro _
        exact ih (forall_some (Nat.le_succ_of_le start))
      · intro _ _
        refine List.pairwise_cons.mpr ⟨?_, ih forall_none⟩
        intro s hs
        exact Nat.lt_of_le_of_lt start (le_number_fromLines forall_none s hs)

end Statements

/-! ## The statements of a text -/

theorem Grammar.ShortRuns.join {previous line : Text} (hp : ShortRuns previous)
    (hl : ShortRuns line) : ShortRuns (Statements.join previous line) := by
  unfold Statements.join
  split
  · exact hl.of_infix (Text.trim_infix line)
  · intro w hw valid
    have newline : '\n' ∉ w := fun member => nomatch valid '\n' member
    rcases Text.infix_of_infix_append_cons newline hw with hw | hw
    · exact hp w hw valid
    · exact hl w (hw.trans (Text.isPrefix_trimEnd line).isInfix) valid

theorem Grammar.ShortRuns.line {s line : Text} (h : ShortRuns s)
    (member : line ∈ Text.physicalLines (Text.unifyNewlines s)) : ShortRuns line := by
  intro w hw valid
  have newline : '\n' ∉ w := fun member => nomatch valid '\n' member
  exact h w (Text.infix_of_infix_unifyNewlines newline
    (hw.trans (Text.infix_of_mem_physicalLines member))) valid

theorem ofText_ne_nil (text : Text) : ∀ s ∈ Statements.ofText text, s.1 ≠ [] :=
  Statements.fromLines_ne_nil Statements.forall_none

theorem ofText_increasing (text : Text) :
    (Statements.ofText text).Pairwise fun s t => s.2 < t.2 :=
  Statements.fromLines_increasing Statements.forall_none

theorem ofText_numbers_nodup (text : Text) :
    ((Statements.ofText text).map fun s => (s.2 : Int)).Nodup := by
  refine List.pairwise_map.mpr ((ofText_increasing text).imp fun less same => ?_)
  exact Nat.lt_irrefl _ (Int.ofNat.inj same ▸ less)

theorem shortRuns_of_mem_ofText {text : Text} (h : ShortRuns text) :
    ∀ s ∈ Statements.ofText text, ShortRuns s.1 := by
  have empty : ShortRuns [] := shortRuns_of_length_le (Nat.zero_le _)
  exact Statements.forall_fromLines empty (fun _ _ => ShortRuns.join) Statements.forall_none
    fun line member => h.line member

end BlockCalc
