import BlockCalc.Proofs.Grammar.Gaps
import BlockCalc.Proofs.Text.Trim
import BlockCalc.Session.Statements
/-! Statements that go on over several lines. Whether the further lines keep their indentation or
lose it makes no difference: the newline in front of it is in the same gap, so the two texts are
alike, are left open by the same lines, and are read as the same tree. -/
namespace BlockCalc
open Grammar

namespace Grammar
variable {a b c d v w : Text}

theorem Alike.refl (s : Text) : Alike s s := by
  induction n : s.length using Nat.strongRecOn generalizing s with
  | ind n ih =>
      subst n
      cases s with
      | nil => exact .nil
      | cons c s =>
          cases blank : isBlank c with
          | false => exact .ink blank (ih s.length (Nat.lt_succ_self _) s rfl)
          | true =>
              obtain ⟨v, inside, text⟩ := blanks_trimStart (c :: s)
              have stop := ahead_trimStart (c :: s)
              have nonempty : v ≠ [] := by
                rintro rfl
                have same : Text.trimStart (c :: s) = c :: s := text.symm
                rw [same] at stop
                cases blank.symm.trans stop
              have shorter : (Text.trimStart (c :: s)).length < (c :: s).length := by
                have positive := List.length_pos_iff.mpr nonempty
                have whole := congrArg List.length text
                rw [List.length_append] at whole
                omega
              have gap : SameGap v v := ⟨⟨nonempty, inside⟩, ⟨nonempty, inside⟩, .rfl⟩
              rw [text]
              exact .gap gap stop stop (ih _ shorter _ rfl)

theorem Alike.nil_iff (h : Alike a b) : a = [] ↔ b = [] := by
  cases h with
  | nil => exact .rfl
  | ink => exact ⟨nofun, nofun⟩
  | gap same =>
      constructor
      · intro none
        exact False.elim (same.left.1 (List.append_eq_nil_iff.mp none).1)
      · intro none
        exact False.elim (same.right.1 (List.append_eq_nil_iff.mp none).1)

theorem count_blanks {x : Char} (ink : isBlank x = false) (h : ∀ c ∈ v, isBlank c = true) :
    v.count x = 0 := by
  refine List.count_eq_zero_of_not_mem fun member => ?_
  cases ink.symm.trans (h x member)

/-- A character that is no blank stands in alike texts equally often. -/
theorem Alike.count {x : Char} (ink : isBlank x = false) (h : Alike a b) :
    a.count x = b.count x := by
  induction h with
  | nil => rfl
  | ink hc h ih => rw [List.count_cons, List.count_cons, ih]
  | gap same ha hb h ih =>
      rw [List.count_append, List.count_append, count_blanks ink same.left.2,
        count_blanks ink same.right.2, ih]

theorem SameGap.append {v' w' : Text} (h : SameGap v w) (h' : SameGap v' w') :
    SameGap (v ++ v') (w ++ w') := by
  have blank : ∀ {x y : Text}, (x ≠ [] ∧ ∀ c ∈ x, isBlank c = true) →
      (y ≠ [] ∧ ∀ c ∈ y, isBlank c = true) →
        x ++ y ≠ [] ∧ ∀ c ∈ x ++ y, isBlank c = true := by
    intro x y hx hy
    refine ⟨List.append_ne_nil_of_left_ne_nil hx.1 y, fun c member => ?_⟩
    exact (List.mem_append.mp member).elim (hx.2 c) (hy.2 c)
  refine ⟨blank h.left h'.left, blank h.right h'.right, ?_⟩
  rw [List.forall_mem_append, List.forall_mem_append, h.spaces, h'.spaces]

/-- Alike texts stay alike with alike texts behind them, if there is a gap between. -/
theorem Alike.append_gap (h : Alike a b) (gap : SameGap v w) (h' : Alike c d)
    (hc : ahead isBlank c = false) (hd : ahead isBlank d = false) :
    Alike (a ++ (v ++ c)) (b ++ (w ++ d)) := by
  induction h with
  | nil =>
      rw [List.nil_append, List.nil_append]
      exact .gap gap hc hd h'
  | ink hx h ih => exact .ink hx ih
  | @gap v' w' a b same ha hb h ih =>
      rw [List.append_assoc, List.append_assoc]
      cases a with
      | nil =>
          -- The texts end with a gap, which the gap behind them prolongs.
          obtain rfl := h.nil_iff.mp rfl
          rw [List.nil_append, List.nil_append, ← List.append_assoc, ← List.append_assoc]
          exact .gap (same.append gap) hc hd h'
      | cons x a =>
          cases b with
          | nil => cases h.nil_iff.mpr rfl
          | cons y b => exact .gap same ha hb ih

theorem parseWithin_of_alike {limit : Nat} {t : Stmt} (h : Alike a b)
    (read : parseWithin limit a = .ok t) : parseWithin limit b = .ok t := by
  rw [parseWithin_eq_ok_iff] at read ⊢
  have found := (stmt_readsAlike limit).agree h
  rw [read] at found
  generalize stmt limit b = answer at found
  cases found with
  | @ok _ y same =>
      obtain ⟨rest, t'⟩ := y
      obtain ⟨left, rfl⟩ : Alike [] rest ∧ t = t' := same
      rw [left.nil_iff.mp rfl]

end Grammar

/-! ## Joining lines -/

namespace Statements
variable {previous pending line : Text}

theorem leavesOpen_of_alike (h : Alike previous pending) :
    leavesOpen previous = leavesOpen pending := by
  have opened := h.count (x := '{') rfl
  have closed := h.count (x := '}') rfl
  rw [leavesOpen, leavesOpen, opened, closed]

theorem join_nil (line : Text) : join [] line = line.trim := rfl

theorem join_eq (h : previous ≠ []) (line : Text) :
    join previous line = previous ++ '\n' :: line.trimEnd := by
  rw [join, if_neg fun none => h (List.isEmpty_iff.mp none)]

theorem join_eq_nil_iff : join previous line = [] ↔ previous = [] ∧ line.trim = [] := by
  by_cases none : previous = []
  · rw [none, join_nil]
    exact ⟨fun h => ⟨rfl, h⟩, And.right⟩
  · rw [join_eq none]
    constructor
    · intro h
      exact False.elim (none (List.append_eq_nil_iff.mp h).1)
    · rintro ⟨rfl, -⟩
      exact False.elim (none rfl)

theorem ahead_trim (line : Text) : ahead isBlank line.trim = false := by
  rcases Text.trim_blank_or_ink line with none | ⟨c, r, some, ink⟩
  · rw [none]
    rfl
  · rw [some]
    exact ink

/-- A line joined with its indentation, and one joined without it. -/
theorem join_alike (h : Alike previous pending) (line : Text) :
    Alike (join previous line) (join pending line.trim) := by
  by_cases none : previous = []
  · rw [none, h.nil_iff.mp none, join_nil, join_nil, Text.trim_trim]
    exact .refl _
  · have some : pending ≠ [] := fun empty => none (h.nil_iff.mpr empty)
    rw [join_eq none, join_eq some, Text.trimEnd_trim]
    have newline : ∀ s : Text, '\n' :: s = ['\n'] ++ s := fun _ => rfl
    have blanks : ['\n'] ≠ [] ∧ ∀ c ∈ ['\n'], isBlank c = true :=
      ⟨nofun, List.forall_mem_singleton.mpr rfl⟩
    rcases Text.trimEnd_eq line with ⟨blank, bare⟩ | ⟨-, indented⟩
    · have gap : SameGap ['\n'] ['\n'] := ⟨blanks, blanks, .rfl⟩
      rw [bare, blank, newline]
      exact h.append_gap gap .nil rfl rfl
    · have gap : SameGap ('\n' :: line.takeWhile isBlank) ['\n'] := by
        refine ⟨⟨nofun, ?_⟩, blanks, ?_⟩
        · intro c member
          rcases List.mem_cons.mp member with rfl | member
          · rfl
          · exact List.all_eq_true.mp List.all_takeWhile c member
        · constructor
          · intro spaced
            cases spaced '\n' List.mem_cons_self
          · intro spaced
            cases spaced '\n' List.mem_cons_self
      rw [indented, ← List.cons_append, newline line.trim]
      exact h.append_gap gap (.refl _) (ahead_trim line) (ahead_trim line)

end Statements
end BlockCalc
