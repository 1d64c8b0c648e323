import BlockCalc.Proofs.Session.Continuation
import BlockCalc.Proofs.Session.Statements
/-! How the statements of a file divide its lines among them. Each takes consecutive lines, from the
line that it is numbered by, and no line with ink in it is left out. All lines of a statement but
the last leave a block open, and the last one does so only at the end of the file. -/
namespace BlockCalc

namespace Text
variable {line : Text}

/-- The newline that ends a line goes with the blanks at its end. -/
theorem no_newline_trimEnd (single : '\n' ∉ line.dropLast) : '\n' ∉ trimEnd line := by
  induction line with
  | nil => exact List.not_mem_nil
  | cons c line ih =>
      cases line with
      | nil =>
          cases blank : isBlank c with
          | true => simp only [trimEnd, blank, if_true, List.not_mem_nil, not_false_eq_true]
          | false =>
              simp only [trimEnd, blank, Bool.false_eq_true, if_false, List.mem_singleton]
              rintro rfl
              cases blank
      | cons d line =>
          obtain ⟨other, later⟩ := not_or.mp (mt List.mem_cons.mpr single)
          have behind := ih later
          by_cases none : trimEnd (d :: line) = []
          · rw [trimEnd, none]
            dsimp only
            split
            · exact List.not_mem_nil
            · exact mt List.mem_singleton.mp other
          · rw [trimEnd_cons c none]
            exact mt List.mem_cons.mp (not_or.mpr ⟨other, behind⟩)

theorem no_newline_trim (single : '\n' ∉ line.dropLast) : '\n' ∉ trim line := by
  rcases trimEnd_eq line with ⟨none, -⟩ | ⟨-, indented⟩
  · rw [none]
    exact List.not_mem_nil
  · have whole := no_newline_trimEnd single
    rw [indented] at whole
    exact fun member => whole (List.mem_append_right _ member)

theorem trim_eq_nil_iff : trim line = [] ↔ line.all isBlank = true := by
  induction line with
  | nil => exact ⟨fun _ => rfl, fun _ => rfl⟩
  | cons c line ih =>
      cases blank : isBlank c with
      | true => rw [trim_cons_blank blank, ih, List.all_cons, blank, Bool.true_and]
      | false =>
          rw [trim_cons_ink blank, List.all_cons, blank, Bool.false_and]
          exact ⟨nofun, nofun⟩

end Text

namespace Statements

/-- Consecutive lines: how many lines come before them, and how many they are. -/
structure Range where
  before : Nat
  size : Nat

/-- The text that lines make up: the first is trimmed at both ends, and each further one stands
behind a newline and is trimmed at its end. -/
def textOf : List Text → Text
  | [] => []
  | first :: further => first.trim ++ further.flatMap fun line => '\n' :: line.trimEnd

def Range.text (r : Range) (lines : List Text) : Text :=
  textOf ((lines.drop r.before).take r.size)

/-- A range of lines that are one statement: it begins with a line that is not blank, and a block is
open wherever one of its lines ends before the last. -/
structure Range.IsStatement (lines : List Text) (r : Range) : Prop where
  nonempty : 0 < r.size
  inside : r.before + r.size ≤ lines.length
  begins : ∃ line, lines[r.before]? = some line ∧ line.all isBlank = false
  opens : ∀ a b, r.text lines = a ++ '\n' :: b → leavesOpen a = true
  ends : leavesOpen (r.text lines) = true → r.before + r.size = lines.length

/-- Ranges of lines that are statements one after the other, with blank lines around them alone. -/
structure Divides (lines : List Text) (ranges : List Range) : Prop where
  statements : ∀ r ∈ ranges, r.IsStatement lines
  ordered : ranges.Pairwise fun r s => r.before + r.size ≤ s.before
  covers : ∀ (i : Nat) (line : Text), lines[i]? = some line → line.all isBlank = false →
    ∃ r ∈ ranges, r.before ≤ i ∧ i < r.before + r.size

/-- The lines `own` of a statement that is begun behind `base` other lines; none if there is no such
statement. The next line has the number `number`. -/
inductive Held (base : Nat) : Nat → Option (Text × Nat) → List Text → Prop
  | between : Held base (base + 1) none []
  | within {lines} : (∃ line, lines[0]? = some line ∧ line.all isBlank = false) →
      (∀ a b, textOf lines = a ++ '\n' :: b → leavesOpen a = true) →
      leavesOpen (textOf lines) = true →
      Held base (base + lines.length + 1) (some (textOf lines, base + 1)) lines

/-- The same lines with more lines before them. -/
def Range.behind (front : Nat) (r : Range) : Range := ⟨front + r.before, r.size⟩

section
variable {base number : Nat} {begun : Option (Text × Nat)} {front own lines : List Text}
  {line : Text} {r : Range} {ranges : List Range}

/-! ## Ranges behind other lines -/

theorem text_behind (front lines : List Text) (r : Range) :
    (r.behind front.length).text (front ++ lines) = r.text lines := by
  rw [Range.text, Range.behind, List.drop_length_add_append]
  rfl

theorem Range.IsStatement.behind (h : r.IsStatement lines) (front : List Text) :
    (r.behind front.length).IsStatement (front ++ lines) where
  nonempty := h.nonempty
  inside := by
    have inside := h.inside
    simp only [List.length_append, Range.behind]
    omega
  begins := by
    obtain ⟨line, here, ink⟩ := h.begins
    refine ⟨line, ?_, ink⟩
    rw [Range.behind, List.getElem?_append_right (Nat.le_add_right _ _), Nat.add_sub_cancel_left]
    exact here
  opens a b cut := h.opens a b (text_behind front lines r ▸ cut)
  ends still := by
    have ends := h.ends (text_behind front lines r ▸ still)
    simp only [List.length_append, Range.behind]
    omega

/-- The pairs of text and number that ranges give, if the lines stand behind others. -/
theorem numbered_behind (front lines : List Text) (base : Nat) (ranges : List Range) :
    (ranges.map (Range.behind front.length)).map
        (fun r => (r.text (front ++ lines), base + r.before + 1)) =
      ranges.map fun r => (r.text lines, base + front.length + r.before + 1) := by
  rw [List.map_map]
  refine List.map_congr_left fun r _ => ?_
  simp only [Function.comp_apply, text_behind]
  simp only [Range.behind, Nat.add_assoc]

theorem text_whole (own lines : List Text) :
    (Range.mk 0 own.length).text (own ++ lines) = textOf own := by
  rw [Range.text, List.drop_zero, List.take_left]

theorem isStatement_whole (begins : ∃ line, own[0]? = some line ∧ line.all isBlank = false)
    (opens : ∀ a b, textOf own = a ++ '\n' :: b → leavesOpen a = true)
    (ends : leavesOpen (textOf own) = true → lines = []) :
    (Range.mk 0 own.length).IsStatement (own ++ lines) := by
  obtain ⟨first, here, ink⟩ := begins
  have nonempty : 0 < own.length := (List.getElem?_eq_some_iff.mp here).1
  refine ⟨nonempty, ?_, ⟨first, (List.getElem?_append_left nonempty).trans here, ink⟩, ?_, ?_⟩
  · rw [List.length_append, Nat.zero_add]
    exact Nat.le_add_right _ _
  · rw [text_whole]
    exact opens
  · rw [text_whole]
    intro still
    rw [ends still, List.append_nil, Nat.zero_add]

theorem Divides.ordered_behind (h : Divides lines ranges) (front : Nat) :
    (ranges.map (Range.behind front)).Pairwise fun r s => r.before + r.size ≤ s.before := by
  refine List.pairwise_map.mpr (h.ordered.imp fun {r s} below => ?_)
  simp only [Range.behind]
  omega

theorem Divides.covers_behind (h : Divides lines ranges) (front : List Text) {i : Nat}
    (later : front.length ≤ i) (here : (front ++ lines)[i]? = some line)
    (ink : line.all isBlank = false) :
    ∃ r ∈ ranges.map (Range.behind front.length), r.before ≤ i ∧ i < r.before + r.size := by
  rw [List.getElem?_append_right later] at here
  obtain ⟨r, member, low, high⟩ := h.covers _ line here ink
  refine ⟨r.behind front.length, List.mem_map_of_mem member, ?_⟩
  simp only [Range.behind]
  omega

/-- A blank line in front is left out. -/
theorem Divides.skip (h : Divides lines ranges) (blank : line.all isBlank = true) :
    Divides (line :: lines) (ranges.map (Range.behind 1)) where
  statements r' member := by
    obtain ⟨r, inside, rfl⟩ := List.mem_map.mp member
    exact (h.statements r inside).behind [line]
  ordered := h.ordered_behind 1
  covers i line' here ink := by
    cases i with
    | zero =>
        cases here
        cases blank.symm.trans ink
    | succ i => exact h.covers_behind [line] (Nat.le_add_left 1 i) here ink

/-- Lines in front that are a statement are taken together. -/
theorem Divides.cons (h : Divides lines ranges)
    (first : (Range.mk 0 own.length).IsStatement (own ++ lines)) :
    Divides (own ++ lines) (⟨0, own.length⟩ :: ranges.map (Range.behind own.length)) where
  statements := by
    refine List.forall_mem_cons.mpr ⟨first, fun r' member => ?_⟩
    obtain ⟨r, inside, rfl⟩ := List.mem_map.mp member
    exact (h.statements r inside).behind own
  ordered := by
    refine List.pairwise_cons.mpr ⟨fun r' member => ?_, h.ordered_behind _⟩
    obtain ⟨r, -, rfl⟩ := List.mem_map.mp member
    simp only [Range.behind]
    omega
  covers i line' here ink := by
    rcases Nat.lt_or_ge i own.length with within | later
    · exact ⟨_, List.mem_cons_self, Nat.zero_le i, by rw [Nat.zero_add]; exact within⟩
    · obtain ⟨r, member, bounds⟩ := h.covers_behind own later here ink
      exact ⟨r, List.mem_cons_of_mem _ member, bounds⟩

/-- Only the last of the statements can be left open. -/
theorem Divides.last (h : Divides lines ranges) (member : r ∈ ranges)
    (still : leavesOpen (r.text lines) = true) : ranges.getLast? = some r := by
  obtain ⟨earlier, later, rfl⟩ := List.append_of_mem member
  have ends := (h.statements r member).ends still
  cases later with
  | nil => exact List.getLast?_concat
  | cons s later =>
      -- a statement behind it would begin where there are no lines left
      have next : s ∈ earlier ++ r :: s :: later :=
        List.mem_append_right _ (List.mem_cons_of_mem r List.mem_cons_self)
      have below := (List.pairwise_cons.mp (List.pairwise_append.mp h.ordered).2.1).1 s
        List.mem_cons_self
      have nonempty := (h.statements s next).nonempty
      have inside := (h.statements s next).inside
      omega

/-! ## The statement that is begun -/

theorem Held.number_eq (h : Held base number begun own) : number = base + own.length + 1 := by
  cases h <;> rfl

theorem Held.goes (h : Held base number begun own) :
    begun.getD ([], number) = (textOf own, base + 1) := by
  cases h <;> rfl

/-- A further line is joined to the lines that are held. -/
theorem Held.join (h : Held base number begun own) (line : Text) :
    Statements.join (textOf own) line = textOf (own ++ [line]) := by
  cases h with
  | between => exact (List.append_nil _).symm
  | within begins opens still =>
      rw [join_eq (ne_nil_of_leavesOpen still)]
      cases own with
      | nil => cases still
      | cons first further =>
          rw [List.cons_append, textOf, textOf, List.flatMap_append, List.flatMap_singleton,
            List.append_assoc]

theorem Held.opens_join (h : Held base number begun own) (single : '\n' ∉ line.dropLast) {a b : Text}
    (cut : textOf (own ++ [line]) = a ++ '\n' :: b) : leavesOpen a = true := by
  have joined := h.join line
  cases h with
  | between =>
      have whole : line.trim = a ++ '\n' :: b := (List.append_nil _).symm.trans cut
      have member : '\n' ∈ line.trim := whole ▸ List.mem_append_right a List.mem_cons_self
      exact False.elim (Text.no_newline_trim single member)
  | within begins opens still =>
      rw [← joined, join_eq (ne_nil_of_leavesOpen still)] at cut
      -- the cut is at the newline before the line, or before it
      rcases List.append_eq_append_iff.mp cut with ⟨c, rfl, behind⟩ | ⟨c, whole, behind⟩
      · cases c with
        | nil => rwa [List.append_nil]
        | cons d c =>
            obtain ⟨-, later⟩ := List.cons.inj behind
            have member : '\n' ∈ line.trimEnd := later ▸ List.mem_append_right c List.mem_cons_self
            exact False.elim (Text.no_newline_trimEnd single member)
      · cases c with
        | nil =>
            rw [List.append_nil] at whole
            exact whole ▸ still
        | cons d c =>
            obtain ⟨rfl, -⟩ := List.cons.inj behind
            exact opens a c whole

theorem Held.begins_join (h : Held base number begun own) (text : textOf (own ++ [line]) ≠ []) :
    ∃ first, (own ++ [line])[0]? = some first ∧ first.all isBlank = false := by
  cases h with
  | between =>
      refine ⟨line, rfl, ?_⟩
      rw [← Bool.not_eq_true, ← Text.trim_eq_nil_iff]
      exact fun none => text ((List.append_nil _).trans none)
  | within begins opens still =>
      obtain ⟨first, here, ink⟩ := begins
      exact ⟨first, (List.getElem?_append_left (List.getElem?_eq_some_iff.mp here).1).trans here, ink⟩

theorem Held.blank (h : Held base number begun own) (none : textOf (own ++ [line]) = []) :
    own = [] ∧ line.all isBlank = true := by
  rw [← h.join] at none
  obtain ⟨empty, blank⟩ := join_eq_nil_iff.mp none
  cases h with
  | between => exact ⟨rfl, Text.trim_eq_nil_iff.mp blank⟩
  | within begins opens still => exact False.elim (ne_nil_of_leavesOpen still empty)

/-! ## The run -/

/-- A line behind which a block is open belongs to the statement that is begun. -/
theorem Held.longer (h : Held base number begun own) (single : '\n' ∉ line.dropLast)
    (still : leavesOpen (textOf (own ++ [line])) = true) :
    Held base (number + 1) (some (textOf (own ++ [line]), base + 1)) (own ++ [line]) := by
  have begins := h.begins_join (ne_nil_of_leavesOpen still)
  have next : Held base (base + (own ++ [line]).length + 1) _ _ :=
    .within begins (fun a b cut => h.opens_join single cut) still
  rw [List.length_append, List.length_singleton, ← Nat.add_assoc, ← h.number_eq] at next
  exact next

/-- The statements of the lines that are held and of those to come divide these lines. -/
theorem Held.divides (h : Held base number begun own)
    (single : ∀ line ∈ lines, '\n' ∉ line.dropLast) :
    ∃ ranges, Divides (own ++ lines) ranges ∧ fromLines number begun lines =
      ranges.map fun r => (r.text (own ++ lines), base + r.before + 1) := by
  induction lines generalizing base number begun own with
  | nil =>
      have none : Divides [] [] := ⟨nofun, .nil, nofun⟩
      cases h with
      | between => exact ⟨[], none, rfl⟩
      | within begins opens still =>
          refine ⟨[⟨0, own.length⟩], none.cons (isStatement_whole begins opens fun _ => rfl), ?_⟩
          rw [List.map_singleton, text_whole]
          rfl
  | cons line lines ih =>
      obtain ⟨first, others⟩ := List.forall_mem_cons.mp single
      have fresh : Held number (number + 1) none [] := .between
      refine fromLines_step (P := fun found => ∃ ranges, Divides (own ++ line :: lines) ranges ∧
        found = ranges.map fun r => (r.text (own ++ line :: lines), base + r.before + 1)) h.goes
        ?_ ?_ ?_
      · intro still
        rw [h.join] at still ⊢
        rw [List.append_cons]
        exact ih (h.longer first still) others
      · intro closed text
        rw [h.join] at closed text ⊢
        obtain ⟨ranges, divides, same⟩ := ih fresh others
        have whole : (Range.mk 0 (own ++ [line]).length).IsStatement (own ++ [line] ++ lines) := by
          refine isStatement_whole (h.begins_join text) (fun a b cut => h.opens_join first cut) ?_
          intro still
          cases closed.symm.trans still
        rw [List.append_cons]
        refine ⟨_, divides.cons whole, ?_⟩
        rw [List.map_cons, text_whole, numbered_behind, same, h.number_eq, List.length_append]
        rfl
      · intro none
        rw [h.join] at none
        obtain ⟨rfl, blank⟩ := h.blank none
        obtain ⟨ranges, divides, same⟩ := ih fresh others
        refine ⟨_, divides.skip blank, ?_⟩
        rw [same, h.number_eq]
        exact (numbered_behind [line] lines base ranges).symm

end

/-- The statements are ranges of lines in order, each numbered by its first line, which leave out
only blank lines; where one is left open, it is the last. -/
theorem ofLines_divides {lines : List Text} (single : ∀ line ∈ lines, '\n' ∉ line.dropLast) :
    ∃ ranges, Divides lines ranges ∧
      ofLines lines = ranges.map (fun r => (r.text lines, r.before + 1)) ∧
      (ofLines lines).Pairwise (fun s t => s.2 < t.2) ∧
      ∀ s ∈ ofLines lines, leavesOpen s.1 = true → (ofLines lines).getLast? = some s := by
  have fresh : Held 0 1 none [] := .between
  obtain ⟨ranges, divides, same⟩ := fresh.divides single
  simp only [List.nil_append, Nat.zero_add] at divides same
  refine ⟨ranges, divides, same, fromLines_increasing forall_none, ?_⟩
  intro s member still
  rw [ofLines, same] at member ⊢
  obtain ⟨r, inside, rfl⟩ := List.mem_map.mp member
  rw [List.getLast?_map, divides.last inside still]
  rfl

/-- A blank line in a block and one behind it, a line that closes a block and opens one, one that
closes too many, and a block that the end of the lines leaves open. -/
theorem ofLines_divides_left_open :
    let lines : List Text := ["  \n".toList, "  \x7b \n".toList, "\t a \n".toList, "\n".toList,
      "\x7d \x7b\n".toList, "\x7d\n".toList, " \n".toList, "\x7d b\n".toList, "\x7b".toList]
    ofLines lines = [("\x7b\n\t a\n\n\x7d \x7b\n\x7d".toList, 2), ("\x7d b".toList, 8),
        ("\x7b".toList, 9)] ∧
      ∃ ranges, Divides lines ranges ∧
        ofLines lines = ranges.map fun r => (r.text lines, r.before + 1) := by
  intro lines
  have single : ∀ line ∈ lines, '\n' ∉ line.dropLast := by decide
  obtain ⟨ranges, divides, same, -⟩ := ofLines_divides single
  exact ⟨by decide, ranges, divides, same⟩

end Statements
end BlockCalc
